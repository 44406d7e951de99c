import Shadows.Foundations.Choices
import Shadows.Rpc.Filters

/-!
# What a topic filter means

A topic filter restricts some positions of the topics of a log. `filter_topics` decides it on the
flat topics, one for each choice of an alternative at every position.
-/

namespace Shadows.Rpc

open Foundations

/-! ## Shapes -/

/-- A position as the flat shape has it. -/
def flatEntry : Option H256 → Option (VariadicValue (Option H256))
  | some t => some (.single (some t))
  | none => none

/-- The two shapes that the deserialiser gives a list of positions. The flat one is tried first, and
there is room for one topic or `null` at every position of it. -/
inductive Topic.Shape (entries : List (Option (VariadicValue (Option H256)))) : Topic → Prop where
  | flat (v : List (Option H256)) (h : entries = v.map flatEntry) :
    Topic.Shape entries (.single (some (.multiple v)))
  | nested : Topic.Shape entries (.multiple entries)

/-! ## Positions -/

/-- A position of a filter: anything, one topic, or one of a list of topics that is not empty. -/
inductive TopicPosition where
  | any
  | topic (t : H256)
  | oneOf (t : H256) (ts : List H256)
  deriving DecidableEq

namespace TopicPosition

def entry : TopicPosition → Option (VariadicValue (Option H256))
  | any => none
  | topic t => some (.single (some t))
  | oneOf t ts => some (.multiple ((t :: ts).map some))

/-- The topics that a position asks for. -/
def choices : TopicPosition → List H256
  | any => []
  | topic t => [t]
  | oneOf t ts => t :: ts

end TopicPosition

/-- The last position that is not `null`. -/
def LastRestricted (positions : List TopicPosition) (k : ℕ) : Prop :=
  (∃ p, positions[k]? = some p ∧ p ≠ .any) ∧ ∀ j, k < j → ∀ p, positions[j]? = some p → p = .any

/-- The topics of a log meet the positions: there is one for every position up to the last that is
not `null`, and it is among the topics that the position asks for. -/
def Matches (positions : List TopicPosition) (topics : List H256) : Prop :=
  ∀ k, LastRestricted positions k → k + 1 ≤ topics.length ∧
    ∀ i p, i ≤ k → positions[i]? = some p → p ≠ .any → ∃ x, topics[i]? = some x ∧ x ∈ p.choices

/-! ## Flat topics -/

/-- The flat topic has a topic at a position that the log does not have. -/
def Beyond (topics : List H256) (p : List (Option H256)) : Prop :=
  ∃ (j : ℕ) (t : H256), p[j]? = some (some t) ∧ topics.length ≤ j

/-- The topics of the flat topic are those of the log. -/
def Agrees (topics : List H256) (p : List (Option H256)) : Prop :=
  ∀ (j : ℕ) (t : H256), p[j]? = some (some t) → topics[j]? = some t

def Blank (p : List (Option H256)) : Prop := ∀ a ∈ p, a = none

/-! ## Slots -/

/-- A position of a filter next to a log: the topic of the log there, if it has so many, and the
alternatives of the filter. -/
structure Slot where
  logTopic : Option H256
  alternatives : List (Option H256)

/-- The slots are next to the topics of the log. -/
def Aligned (topics : List H256) (ss : List Slot) : Prop :=
  ∀ (j : ℕ) (s : Slot), ss[j]? = some s → s.logTopic = topics[j]?

/-- The slots of the positions from `k` on. -/
def slotsFrom (topics : List H256) (k : ℕ) (lists : List (List (Option H256))) : List Slot :=
  lists.mapIdx fun j l => ⟨topics[k + j]?, l⟩

/-- The slots with their first alternatives only. -/
def firsts (ss : List Slot) : List Slot :=
  ss.map fun s => { s with alternatives := s.alternatives.take 1 }

/-- Some alternative is a topic at a position that the log does not have. -/
def Reaches (ss : List Slot) : Prop := ∃ s ∈ ss, s.logTopic = none ∧ ∃ t, some t ∈ s.alternatives

/-- There is nothing but `null`. -/
def Bare (ss : List Slot) : Prop := ∀ s ∈ ss, ∀ a ∈ s.alternatives, a = none

/-- Every slot has `null` or the topic of the log among its alternatives. -/
def Fits (ss : List Slot) : Prop := ∀ s ∈ ss, none ∈ s.alternatives ∨ s.logTopic ∈ s.alternatives

/-- Some slot has the topic of the log among its alternatives. -/
def Hits (ss : List Slot) : Prop := ∃ s ∈ ss, ∃ x, s.logTopic = some x ∧ some x ∈ s.alternatives

/-- What `filter_topics` decides. The flat topics come in lexicographic order, and the first one
that reaches beyond the log ends the loop. -/
def Passes (ss : List Slot) : Prop :=
  (∃ s ∈ ss, s.alternatives = []) ∨
    ¬ Reaches (firsts ss) ∧ (Reaches ss → Fits (firsts ss) ∧ Hits (firsts ss)) ∧
      (¬ Reaches ss → Bare ss ∨ Fits ss ∧ Hits ss)

/-! ## `null` among the alternatives -/

/-- Alternatives that contain `null` are as good as `null` alone, next to the topic `x` of the log
and the slots of the other positions. -/
def AsGoodAsNull (x : Option H256) (alternatives : List (Option H256)) (others : List Slot) : Prop :=
  (∃ s ∈ others, s.alternatives = []) ∨ Reaches (firsts others) ∨ (∀ a ∈ alternatives, a = none) ∨
    match x with
    | none =>
      -- the log ends before the position
      if alternatives.head? = some none then
        Reaches others ∨
          (Fits (firsts others) ∧ Hits (firsts others) ↔ Bare others ∨ Fits others ∧ Hits others)
      else ¬ Passes others
    | some x =>
      (Reaches others → alternatives.head? = some none ∨ ¬ Fits (firsts others) ∨
        (alternatives.head? = some (some x) ↔ Hits (firsts others))) ∧
      (¬ Reaches others → Hits others ∨ (Fits others ∧ some x ∈ alternatives ↔ Bare others))

/-- A list of alternatives, empty or with `null`, that is as good as `null`. -/
def WildcardLike (x : Option H256) (alternatives : List (Option H256)) (others : List Slot) : Prop :=
  if alternatives = [] then Passes others else AsGoodAsNull x alternatives others

/-! ## `[null,[null,C]]` -/

/-- A filter by topics. -/
def topicFilter (topic : Topic) : Filter := ⟨none, none, none, none, some topic⟩

/-- The documented form of a wildcard among alternatives. -/
def documentedTopic : Topic := .multiple [none, some (.multiple [none, some 7])]

/-- The same with `null` in place of the alternatives. -/
def nullTopic : Topic := .multiple [none, none]

/-- A log with another topic at the second position. -/
def otherTopicLog : Log := .unplaced ⟨0, [5, 6], []⟩

end Shadows.Rpc
