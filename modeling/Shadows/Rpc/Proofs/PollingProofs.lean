import Shadows.Rpc.Proofs.FilterStepProofs

/-!
# Proofs: polling a filter

The invariant of a client that polls a filter again and again, one poll after the other, is that the
stored `last_poll` is the number after the one that the last successful poll has read first.
-/

namespace Shadows.Rpc

open Foundations

section Polls

variable {key : U256} {node node' : Node} {run : List (Event × Node)}

theorem success_eq_none {event : Event}
    (h : ∀ sample changes, event ≠ .polled key sample (some (.ok changes))) :
    event.success key = none := by
  unfold Event.success
  split
  · next key' sample changes =>
    rw [if_neg]
    exact fun hkey => h sample changes (by rw [hkey])
  · rfl

theorem polls_cons_of_ne {event : Event}
    (h : ∀ sample changes, event ≠ .polled key sample (some (.ok changes))) :
    polls key node ((event, node') :: run) = polls key node' run := by
  rw [polls, success_eq_none h]

theorem polls_cons_polled (sample : UInt32) (changes : FilterChanges) :
    polls key node ((.polled key sample (some (.ok changes)), node') :: run) =
      ⟨sample, node.best, changes⟩ :: polls key node' run := by
  have hsuccess : (Event.polled key sample (some (.ok changes))).success key =
      some (sample, changes) := if_pos rfl
  rw [polls, hsuccess]

end Polls

variable {cfg : FilterConfig} {key : U256} {run : List (Event × Node)}

/-- The polls of a filter that stays installed, made one after the other. -/
theorem pollSeries_of_run (run : List (Event × Node)) : ∀ {node : Node} {floor : UInt32}
    {item : FilterPoolItem} {last : UInt64}, Follows key floor node →
    node.pool[key]? = some item → item.lastPoll = .num last → IsRun (Step cfg) node run →
    Each (OneAfterAnother key) node run → Always (Installed key) node run →
      PollSeries cfg item.filterType last floor (polls key node run) := by
  induction run with
  | nil => exact fun _ _ _ _ _ _ => trivial
  | cons step run ih =>
    obtain ⟨event, node'⟩ := step
    rintro node floor item last hf hitem hlast ⟨hstep, hrun⟩ ⟨hone, hrest⟩ ⟨hin, hinstalled⟩
    cases hstep.itemChange key with
    | kept hkept hevent =>
      rw [polls_cons_of_ne hevent]
      exact ih (hf.step hstep hone) (hkept.trans hitem) hlast hrun hrest hinstalled
    | removed hgone =>
      have hin' : key ∈ node'.pool := hinstalled.head
      exact absurd hin' (not_mem_of_eq_none hgone)
    | installed hnew => exact absurd hin hnew
    | polled sample changes item' last' hevent hflight hitem' hlast' hpolled hanswers =>
      obtain rfl := Option.some.inj (hitem.symm.trans hitem')
      obtain rfl := BlockNumber.num.inj (hlast.symm.trans hlast')
      obtain ⟨hfloor, hsample⟩ := hf.sampled sample hflight
      subst hevent
      rw [polls_cons_polled]
      have hseries := ih (hf.polled hstep rfl) hpolled rfl hrun hrest hinstalled
      exact ⟨hfloor, hsample, hanswers hsample, hseries⟩

theorem SamplesCurrent.step {node node' : Node} {event : Event} (hc : SamplesCurrent node)
    (h : Step cfg node event node') : SamplesCurrent node' := by
  cases h.flightChange with
  | kept hbest hflight =>
    intro entry hmem
    rw [hflight] at hmem
    exact UInt32.le_trans (hc entry hmem) hbest
  | sampled request _ hbest hflight =>
    intro entry hmem
    rw [hflight, List.mem_append, List.mem_singleton] at hmem
    rw [hbest]
    rcases hmem with hmem | rfl
    · exact hc entry hmem
    · exact UInt32.le_refl _
  | answered request sample hbest _ hflight =>
    intro entry hmem
    rw [hflight] at hmem
    rw [hbest]
    exact hc entry (List.mem_of_mem_erase hmem)

/-- The number that `create_filter` has read is at most the best one when it answers. -/
theorem created_spec {node node' : Node} {filterType : FilterType} {c : UInt32}
    (hc : SamplesCurrent node)
    (h : Step cfg node (.created filterType c (some (.ok key))) node') :
    c ≤ node'.best ∧ node'.pool[key]? = some ⟨.num c.toUInt64, filterType, c.toUInt64⟩ := by
  cases h with
  | created _ _ _ _ hflight hrun =>
    obtain ⟨hbest, -, ⟨-, hfailed⟩ | ⟨result, hresult, hmethod⟩⟩ := locked_cases hrun
    · exact absurd rfl (hfailed key)
    · obtain rfl := Option.some.inj hresult
      obtain ⟨hpool, -⟩ := createFilter_ok hmethod
      refine ⟨hbest ▸ hc _ hflight, ?_⟩
      rw [hpool, Std.TreeMap.getElem?_insert_self]

/-- The polls of a client that polls in turn. -/
theorem PolledInTurn.pollSeries {filterType : FilterType} {c : UInt32} {node : Node}
    (h : PolledInTurn cfg filterType key c node run) :
    c ≤ node.best ∧ node.pool[key]? = some ⟨.num c.toUInt64, filterType, c.toUInt64⟩ ∧
      PollSeries cfg filterType c.toUInt64 node.best (polls key node run) := by
  obtain ⟨start, before, hstart, hrun⟩ := h.created
  obtain ⟨hbefore, hcreate, hafter⟩ := Each.append.1 hrun
  have hinit : SamplesCurrent start := by
    intro entry hmem
    rw [hstart] at hmem
    exact absurd hmem List.not_mem_nil
  have halways : Always SamplesCurrent start before :=
    always_of_invariant (fun _ _ _ hc => hc.step) hinit hbefore
  obtain ⟨hc, hitem⟩ := created_spec halways.endState hcreate
  have hfollows : Follows key node.best node := by
    refine ⟨UInt32.le_refl _, fun sample hmem => ?_, by rw [h.idle]; omega⟩
    exact absurd (List.countP_eq_zero.1 h.idle _ hmem) (by simp)
  exact ⟨hc, hitem, pollSeries_of_run run hfollows hitem rfl hafter h.oneAfterAnother h.installed⟩

theorem twoPolls_inTurn {filterType : FilterType} (hcreated : (createdNode filterType).inFlight = [])
    (hpolled : (firstPoll filterType).2.inFlight = [])
    (hbest : (firstPoll filterType).2.best = 2)
    (hinstalled : Always (Installed 1) (createdNode filterType) (twoPolls filterType)) :
    PolledInTurn loggedConfig filterType 1 0 (createdNode filterType) (twoPolls filterType) where
  created := by
    have hfirst : (.filterChanges 1, 0) ∈ (overtakenNode filterType).inFlight :=
      List.mem_append_right _ (List.mem_singleton_self _)
    have hsecond : (.filterChanges 1, 2) ∈
        ((firstPoll filterType).2.begin (.filterChanges 1)).inFlight := by
      unfold Node.begin
      rw [hbest]
      exact List.mem_append_right _ (List.mem_singleton_self _)
    have hserves : loggedChain.api.Serves loggedConfig.chain
        ((firstPoll filterType).2.begin (.filterChanges 1)).best := loggedChain.api_serves _
    exact ⟨idleNode, [(.sampled (.createFilter filterType),
      idleNode.begin (.createFilter filterType))], rfl, Step.sampled _ _,
      Step.created _ _ _ _ _ (List.mem_singleton_self _) rfl, Step.sampled _ _,
      Step.imported _ 2 (UInt32.zero_le),
      Step.polled _ _ 1 0 loggedChain.api _ hfirst (loggedChain.api_serves 2) rfl,
      Step.sampled _ _, Step.polled _ _ 1 2 loggedChain.api _ hsecond hserves rfl, trivial⟩
  idle := by
    unfold pollsInFlight
    rw [hcreated]
    rfl
  oneAfterAnother := by
    refine ⟨fun _ sample hmem => ?_, (fun h => nomatch h), (fun h => nomatch h),
      fun _ sample hmem => ?_, (fun h => nomatch h), trivial⟩
    · rw [hcreated] at hmem
      exact absurd hmem List.not_mem_nil
    · rw [hpolled] at hmem
      exact absurd hmem List.not_mem_nil
  installed := hinstalled

/-- The polls of a block filter that is overtaken. -/
theorem twoPolls_block_inTurn :
    PolledInTurn loggedConfig .block 1 0 (createdNode .block) (twoPolls .block) := by
  refine twoPolls_inTurn rfl rfl rfl ⟨?_, ?_, ?_, ?_, ?_, ?_⟩ <;>
    exact mem_iff_isSome.2 rfl

/-- The polls of a log filter that is overtaken. -/
theorem twoPolls_log_inTurn :
    PolledInTurn loggedConfig (.log anyLog) 1 0 (createdNode (.log anyLog))
      (twoPolls (.log anyLog)) := by
  refine twoPolls_inTurn rfl rfl rfl ⟨?_, ?_, ?_, ?_, ?_, ?_⟩ <;>
    exact mem_iff_isSome.2 rfl

/-! ## Block filters -/

theorem chainHashes_append (hashing : Hashing) (chain : GrowingChain) {a b c : ℕ} (hab : a ≤ b)
    (hbc : b ≤ c) :
    chainHashes hashing chain a b ++ chainHashes hashing chain b c =
      chainHashes hashing chain a c := by
  unfold chainHashes
  obtain ⟨m, rfl⟩ := Nat.exists_eq_add_of_le hab
  obtain ⟨n, rfl⟩ := Nat.exists_eq_add_of_le hbc
  rw [← List.filterMap_append, Nat.add_sub_cancel_left, Nat.add_sub_cancel_left,
    List.range'_append_1, Nat.add_assoc, Nat.add_sub_cancel_left]

/-- The hashes that successive polls deliver are those of the blocks up to the last number read. -/
theorem PollSeries.hashes {last : UInt64} {floor : UInt32} {series : List Poll}
    (h : PollSeries cfg .block last floor series) (hlast : last.toNat ≤ floor.toNat + 1) :
    ∀ poll, series.getLast? = some poll →
      floor.toNat ≤ poll.sample.toNat ∧ series.flatMap Poll.hashes =
        chainHashes cfg.hashing cfg.chain last.toNat (poll.sample.toNat + 1) := by
  induction series generalizing last floor with
  | nil => exact fun _ h => nomatch h
  | cons first rest ih =>
    obtain ⟨hfloor, hsample, hanswer, hrest⟩ := h
    rw [UInt32.le_iff_toNat_le] at hfloor hsample
    have hfirst : first.hashes =
        chainHashes cfg.hashing cfg.chain last.toNat (first.sample.toNat + 1) := by
      unfold Poll.hashes
      rw [show first.changes = _ from hanswer]
    have hnext := toNat_succ first.sample
    intro poll hpoll
    cases rest with
    | nil =>
      obtain rfl : first = poll := Option.some.inj hpoll
      rw [List.flatMap_singleton]
      exact ⟨hfloor, hfirst⟩
    | cons second rest =>
      rw [List.getLast?_cons_cons] at hpoll
      obtain ⟨hle, hhashes⟩ := ih hrest (by omega) poll hpoll
      rw [hnext] at hhashes
      refine ⟨by omega, ?_⟩
      rw [List.flatMap_cons, hhashes, hfirst]
      exact chainHashes_append _ _ (by omega) (by omega)

/-- **Block filters.** However blocks are imported and polls fail in between, what the successful
polls of a block filter have delivered are the hashes of the blocks from the best one at its creation
to the best one that the last of them has read. -/
theorem blockPolls_exactly_once {c : UInt32} {node : Node}
    (h : PolledInTurn cfg .block key c node run) (last : Poll)
    (hlast : (polls key node run).getLast? = some last) :
    c ≤ last.sample ∧ (polls key node run).flatMap Poll.hashes =
      chainHashes cfg.hashing cfg.chain c.toNat (last.sample.toNat + 1) := by
  obtain ⟨hc, -, hseries⟩ := h.pollSeries
  have hc64 := UInt32.toNat_toUInt64 c
  rw [UInt32.le_iff_toNat_le] at hc ⊢
  obtain ⟨hfloor, hhashes⟩ := hseries.hashes (by omega) last hlast
  rw [hc64] at hhashes
  exact ⟨by omega, hhashes⟩

theorem blockPolls_exactly_once_overtaken :
    (0 : UInt32) ≤ 2 ∧ (polls 1 (createdNode .block) (twoPolls .block)).flatMap Poll.hashes =
      chainHashes numberHashing loggedChain 0 3 :=
  blockPolls_exactly_once twoPolls_block_inTurn ⟨2, 2, .hashes [1, 2]⟩ rfl

/-! ## Log filters -/

theorem saturatedU32_mono {m n : UInt64} (h : m.toNat ≤ n.toNat) : saturatedU32 m ≤ saturatedU32 n := by
  rw [UInt32.le_iff_toNat_le, toNat_saturatedU32_min, toNat_saturatedU32_min]
  omega

theorem saturatedU32_succ_le_iff (sample n : UInt32) :
    saturatedU32 (sample.toUInt64 + 1) ≤ n ↔ sample < n ∨ n = 4294967295 := by
  have hsample := sample.toNat_lt
  have hn := n.toNat_lt
  have hmax : (4294967295 : UInt32).toNat = 4294967295 := rfl
  rw [UInt32.le_iff_toNat_le, toNat_saturatedU32_min, toNat_succ, UInt32.lt_iff_toNat_lt,
    ← UInt32.toNat_inj, hmax]
  omega

theorem max_le_iff (a b n : UInt32) : max a b ≤ n ↔ a ≤ n ∧ b ≤ n := by
  show (if a ≤ b then b else a) ≤ n ↔ _
  simp only [UInt32.le_iff_toNat_le]
  split_ifs <;> omega

theorem fromNumber_le_iff (filter : Filter) (last : UInt64) (n : UInt32) :
    fromNumber filter last ≤ n ↔ saturatedU32 last ≤ n ∧
      ∀ first, boundNumber filter.fromBlock = some first → first ≤ n := by
  unfold fromNumber
  rw [max_le_iff]
  cases boundNumber filter.fromBlock with
  | none => simp
  | some first => simp

theorem le_currentNumber_iff (filter : Filter) (best n : UInt32) :
    n ≤ currentNumber filter best ↔ n ≤ best ∧
      ∀ last, boundNumber filter.toBlock = some last → n ≤ last := by
  unfold currentNumber
  cases boundNumber filter.toBlock with
  | none =>
    have hle : ¬ best < best := UInt32.lt_irrefl best
    simp [hle]
  | some last =>
    simp only [Option.getD_some, Option.some.injEq, forall_eq', UInt32.lt_iff_toNat_lt,
      UInt32.le_iff_toNat_le]
    split_ifs <;> omega

/-- The blocks that a poll of a log filter and the next one both look at. -/
theorem quietBetween_iff {filter : Filter} {poll : Poll} : QuietBetween cfg filter poll ↔
    ∀ n, fromNumber filter (poll.sample.toUInt64 + 1) ≤ n → n ≤ currentNumber filter poll.best →
      chainLogs cfg.hashing cfg.chain filter n = [] := by
  unfold QuietBetween
  refine forall_congr' fun n => ?_
  rw [fromNumber_le_iff, le_currentNumber_iff, saturatedU32_succ_le_iff]
  constructor
  · exact fun h hfrom hto => h hfrom.1 hto.1 hfrom.2 hto.2
  · exact fun h hsample hbest hfrom hto => h ⟨hsample, hfrom⟩ ⟨hbest, hto⟩

theorem blockNumber_of_mem_chainLogs {hashing : Hashing} {chain : GrowingChain} {filter : Filter}
    {n : UInt32} {log : Log} (h : log ∈ chainLogs hashing chain filter n) :
    log.blockNumber = some (.ofU32 n) := by
  unfold chainLogs at h
  split at h
  · next block statuses hblock _ =>
    rw [blockNumber_of_mem_blockLogs h, chain.number n block hblock]
  · exact absurd h List.not_mem_nil

/-- A log belongs to one block of the chain. -/
theorem eq_of_mem_chainLogs {hashing : Hashing} {chain : GrowingChain} {filter : Filter}
    {m n : UInt32} {log : Log} (hm : log ∈ chainLogs hashing chain filter m)
    (hn : log ∈ chainLogs hashing chain filter n) : m = n :=
  U256.ofU32_injective (Option.some.inj
    ((blockNumber_of_mem_chainLogs hm).symm.trans (blockNumber_of_mem_chainLogs hn)))

theorem mem_logs_iff {filter : Filter} {last : UInt64} {poll : Poll}
    (h : Answers cfg last poll (.log filter)) (log : Log) :
    log ∈ poll.logs ↔ ∃ n, fromNumber filter last ≤ n ∧ n ≤ currentNumber filter poll.best ∧
      log ∈ chainLogs cfg.hashing cfg.chain filter n := by
  obtain ⟨logs, hchanges, hlogs⟩ := h
  unfold Poll.logs
  rw [hchanges]
  exact hlogs log

/-- Each poll of a series starts from a cursor at or after the first one. -/
theorem PollSeries.answers_of_mem {filterType : FilterType} {last : UInt64} {floor : UInt32}
    {series : List Poll} (h : PollSeries cfg filterType last floor series)
    (hlast : last.toNat ≤ floor.toNat + 1) {poll : Poll} (hmem : poll ∈ series) :
    ∃ last' : UInt64, last.toNat ≤ last'.toNat ∧ Answers cfg last' poll filterType := by
  induction series generalizing last floor with
  | nil => exact absurd hmem List.not_mem_nil
  | cons first rest ih =>
    obtain ⟨hfloor, hsample, hanswer, hrest⟩ := h
    rw [UInt32.le_iff_toNat_le] at hfloor hsample
    rcases List.mem_cons.1 hmem with rfl | hmem
    · exact ⟨last, le_refl _, hanswer⟩
    · have hnext := toNat_succ first.sample
      obtain ⟨last', hle, hanswer'⟩ := ih hrest (by omega) hmem
      exact ⟨last', by omega, hanswer'⟩

/-- A poll shares no log with a later one if it is quiet, and if not, then with the next one. -/
theorem PollSeries.disjoint_head_iff {filter : Filter} {last : UInt64} {floor : UInt32}
    {first : Poll} {rest : List Poll}
    (h : PollSeries cfg (.log filter) last floor (first :: rest))
    (hlast : last.toNat ≤ floor.toNat + 1) :
    (∀ poll ∈ rest, List.Disjoint first.logs poll.logs) ↔
      (rest ≠ [] → QuietBetween cfg filter first) := by
  obtain ⟨hfloor, hsample, hanswer, hrest⟩ := h
  rw [UInt32.le_iff_toNat_le] at hfloor hsample
  have hnext := toNat_succ first.sample
  rw [quietBetween_iff]
  constructor
  · intro hdisjoint hne n hfrom hto
    obtain ⟨second, tail, rfl⟩ := List.exists_cons_of_ne_nil hne
    obtain ⟨hfloor', hsample', hanswer', -⟩ := hrest
    refine List.eq_nil_iff_forall_not_mem.2 fun log hlog => ?_
    refine hdisjoint second (List.mem_cons_self ..) (a := log) ?_ ?_
    · refine (mem_logs_iff hanswer log).2 ⟨n, ?_, hto, hlog⟩
      rw [fromNumber_le_iff] at hfrom ⊢
      have hle := saturatedU32_mono (show last.toNat ≤ (first.sample.toUInt64 + 1).toNat by omega)
      exact ⟨UInt32.le_trans hle hfrom.1, hfrom.2⟩
    · refine (mem_logs_iff hanswer' log).2 ⟨n, hfrom, ?_, hlog⟩
      rw [le_currentNumber_iff] at hto ⊢
      exact ⟨UInt32.le_trans hto.1 (UInt32.le_trans hfloor' hsample'), hto.2⟩
  · intro hquiet poll hmem log hfirst hpoll
    obtain ⟨last', hle, hanswer'⟩ := hrest.answers_of_mem (by omega) hmem
    obtain ⟨m, -, hm, hlog⟩ := (mem_logs_iff hanswer log).1 hfirst
    obtain ⟨n, hn, -, hlog'⟩ := (mem_logs_iff hanswer' log).1 hpoll
    obtain rfl := eq_of_mem_chainLogs hlog hlog'
    have hfrom : fromNumber filter (first.sample.toUInt64 + 1) ≤ m := by
      rw [fromNumber_le_iff] at hn ⊢
      exact ⟨UInt32.le_trans (saturatedU32_mono hle) hn.1, hn.2⟩
    rw [hquiet (List.ne_nil_of_mem hmem) m hfrom hm] at hlog
    exact List.not_mem_nil hlog

theorem PollSeries.disjoint_iff {filter : Filter} {last : UInt64} {floor : UInt32}
    {series : List Poll} (h : PollSeries cfg (.log filter) last floor series)
    (hlast : last.toNat ≤ floor.toNat + 1) :
    (series.map Poll.logs).Pairwise List.Disjoint ↔
      ∀ poll ∈ series.dropLast, QuietBetween cfg filter poll := by
  induction series generalizing last floor with
  | nil => simp
  | cons first rest ih =>
    have hhead := h.disjoint_head_iff hlast
    obtain ⟨hfloor, hsample, -, hrest⟩ := h
    rw [UInt32.le_iff_toNat_le] at hfloor hsample
    have hnext := toNat_succ first.sample
    rw [List.map_cons, List.pairwise_cons, List.forall_mem_map, hhead, ih hrest (by omega)]
    cases rest with
    | nil => simp
    | cons second rest => simp

/-- **Log filters.** No log is delivered by two successful polls of a log filter exactly if the filter
matches nothing in the blocks imported between the two reads of a poll that another one follows. -/
theorem logPolls_disjoint_iff {filter : Filter} {c : UInt32} {node : Node}
    (h : PolledInTurn cfg (.log filter) key c node run) :
    ((polls key node run).map Poll.logs).Pairwise List.Disjoint ↔
      ∀ poll ∈ (polls key node run).dropLast, QuietBetween cfg filter poll := by
  obtain ⟨hc, -, hseries⟩ := h.pollSeries
  have hc64 := UInt32.toNat_toUInt64 c
  rw [UInt32.le_iff_toNat_le] at hc
  exact hseries.disjoint_iff (by omega)

theorem logPolls_disjoint_iff_overtaken :
    ((polls 1 (createdNode (.log anyLog)) (twoPolls (.log anyLog))).map Poll.logs).Pairwise
        List.Disjoint ↔
      ∀ poll ∈ (polls 1 (createdNode (.log anyLog)) (twoPolls (.log anyLog))).dropLast,
        QuietBetween loggedConfig anyLog poll :=
  logPolls_disjoint_iff twoPolls_log_inTurn

/-- The logs of the blocks that are imported during the first poll are delivered by both. -/
theorem logs_delivered_twice :
    PolledInTurn loggedConfig (.log anyLog) 1 0 (createdNode (.log anyLog))
        (twoPolls (.log anyLog)) ∧
      ¬ ((polls 1 (createdNode (.log anyLog)) (twoPolls (.log anyLog))).map Poll.logs).Pairwise
        List.Disjoint := by
  refine ⟨twoPolls_log_inTurn, fun hdisjoint => ?_⟩
  obtain ⟨first, second, hpolls, log, hfirst, hsecond⟩ : ∃ first second,
      (polls 1 (createdNode (.log anyLog)) (twoPolls (.log anyLog))).map Poll.logs =
        [first, second] ∧ ∃ log, log ∈ first ∧ log ∈ second :=
    ⟨_, _, rfl, (blockLogs numberHashing anyLog
      ⟨emptyHeader 2, [twoLogsTransaction], []⟩ [twoLogsStatus]).head (by decide), by decide,
      by decide⟩
  rw [hpolls] at hdisjoint
  exact (List.pairwise_cons.1 hdisjoint).1 second (List.mem_singleton_self _) hfirst hsecond

end Shadows.Rpc
