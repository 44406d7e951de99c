import Shadows.Rpc.BlockNumbers

/-!
# Proofs: block parameters that are read back

The hexadecimal digits of a number are read back as the number. A hash is written as a text that is
neither a tag nor a number.
-/

namespace Shadows.Rpc

variable {formats : BlockNumberFormats}

/-! ## Digits -/

theorem toDigit_digitChar {n : ℕ} (h : n < 16) : toDigit 16 (Nat.digitChar n) = some n := by
  have hall : ∀ n : Fin 16, toDigit 16 (Nat.digitChar n.val) = some n.val := by decide
  exact hall ⟨n, h⟩

theorem appendDigit_digitChar {result : UInt64} {n : ℕ} (hn : n < 16)
    (h : result.toNat * 16 + n < 2 ^ 64) :
    appendDigit 16 result (Nat.digitChar n) = some (.ofNat (result.toNat * 16 + n)) := by
  unfold appendDigit
  rw [toDigit_digitChar hn, Option.bind_some, if_pos h]

/-- The digits of a number that fits are read back. -/
theorem foldlM_appendDigit (n : ℕ) (h : n < 2 ^ 64) :
    (Nat.toDigits 16 n).foldlM (appendDigit 16) 0 = some (.ofNat n) := by
  induction n using Nat.strongRecOn with
  | _ n ih =>
    rcases Nat.lt_or_ge n 16 with hlt | hge
    · rw [Nat.toDigits_of_lt_base hlt, List.foldlM_cons, appendDigit_digitChar hlt]
      · show some _ = _
        rw [UInt64.toNat_zero, Nat.zero_mul, Nat.zero_add]
      · rw [UInt64.toNat_zero]
        omega
    · have hdiv : n / 16 < n := by omega
      have hfits : (UInt64.ofNat (n / 16)).toNat = n / 16 := by
        rw [UInt64.toNat_ofNat']
        exact Nat.mod_eq_of_lt (by omega)
      have hsum : (UInt64.ofNat (n / 16)).toNat * 16 + n % 16 = n := by
        rw [hfits]
        omega
      rw [Nat.toDigits_of_base_le (by decide) hge, List.foldlM_append, ih _ hdiv (by omega)]
      show (appendDigit 16 _ _).bind _ = _
      rw [appendDigit_digitChar (Nat.mod_lt n (by decide)) (by rw [hsum]; exact h), hsum]
      rfl

theorem toDigit_plus (radix : ℕ) : toDigit radix '+' = none := by
  have hdigit : toDigit radix '+' = if radix < radix then some radix else none := rfl
  rw [hdigit, if_neg (lt_irrefl radix)]

/-- Digits that are read do not start with a plus sign. -/
theorem fromStrRadix_of_digits {radix : ℕ} {digits : List Char} {n : UInt64} (hne : digits ≠ [])
    (h : digits.foldlM (appendDigit radix) 0 = some n) : fromStrRadix radix digits = some n := by
  cases digits with
  | nil => exact absurd rfl hne
  | cons c digits =>
    have hplus : c ≠ '+' := by
      rintro rfl
      rw [List.foldlM_cons, appendDigit, toDigit_plus] at h
      cases h
    simp only [fromStrRadix]
    split
    · next hcons => exact absurd (List.cons.inj hcons).1 hplus
    · rw [if_neg hne, h]

theorem lowerHex_toList (n : UInt64) : (lowerHex n).toList = Nat.toDigits 16 n.toNat :=
  String.toList_ofList

theorem parseNumber_lowerHex (n : UInt64) :
    parseNumber formats (lowerHex n).toList = .ok n := by
  have hdigits := foldlM_appendDigit n.toNat n.toNat_lt
  rw [UInt64.ofNat_toNat] at hdigits
  unfold parseNumber
  rw [lowerHex_toList, fromStrRadix_of_digits Nat.toDigits_ne_nil hdigits]

/-! ## Blocks -/

/-- A string is read as a tag only if it starts with the letter of the tag. -/
theorem visitStr_of_head {value : String} {c : Char} {rest : List Char}
    (h : value.toList = c :: rest) (hl : c ≠ 'l') (he : c ≠ 'e') (hp : c ≠ 'p') :
    visitStr formats value =
      match value.toList with
      | '0' :: 'x' :: digits => (parseNumber formats digits).map .num
      | digits =>
        match fromStrRadix 10 digits with
        | some number => .ok (.num number)
        | none => .error (.custom "Invalid block number: non-decimal or missing 0x prefix") := by
  have hlatest : value ≠ "latest" := by
    rintro rfl
    exact hl (List.cons.inj h).1.symm
  have hearliest : value ≠ "earliest" := by
    rintro rfl
    exact he (List.cons.inj h).1.symm
  have hpending : value ≠ "pending" := by
    rintro rfl
    exact hp (List.cons.inj h).1.symm
  unfold visitStr
  exact (if_neg hlatest).trans ((if_neg hearliest).trans (if_neg hpending))

theorem deserialize_num (n : UInt64) :
    BlockNumber.deserialize formats (.str ((BlockNumber.num n).serialize formats)) =
      .ok (.num n) := by
  have hlist : ("0x" ++ lowerHex n).toList = '0' :: 'x' :: (lowerHex n).toList := String.toList_append
  show visitStr formats ("0x" ++ lowerHex n) = _
  rw [visitStr_of_head hlist (by decide) (by decide) (by decide), hlist]
  show (parseNumber formats (lowerHex n).toList).map BlockNumber.num = _
  rw [parseNumber_lowerHex]
  rfl

/-- The text of a hash is refused. -/
theorem deserialize_hash (hash : H256) (requireCanonical : Bool) :
    BlockNumber.deserialize formats
        (.str ((BlockNumber.hash hash requireCanonical).serialize formats)) =
      .error (.custom "Invalid block number: non-decimal or missing 0x prefix") := by
  have hlist : ∃ rest, ((BlockNumber.hash hash requireCanonical).serialize formats).toList =
      '\x7b' :: rest := by
    simp only [BlockNumber.serialize, String.toList_append]
    exact ⟨_, rfl⟩
  obtain ⟨rest, hrest⟩ := hlist
  show visitStr formats _ = _
  rw [visitStr_of_head hrest (by decide) (by decide) (by decide), hrest]
  -- a brace is no digit
  rfl

/-- **Blocks that are read back.** Exactly the blocks that are not given by their hash are read back
from the string that they are serialized as. -/
theorem roundTrip_iff (blockNumber : BlockNumber) :
    BlockNumber.deserialize formats (.str (blockNumber.serialize formats)) = .ok blockNumber ↔
      ∀ hash requireCanonical, blockNumber ≠ .hash hash requireCanonical := by
  cases blockNumber with
  | hash hash requireCanonical =>
    rw [deserialize_hash]
    constructor
    · exact fun h => nomatch h
    · exact fun h => absurd rfl (h hash requireCanonical)
  | num n => exact iff_of_true (deserialize_num n) fun _ _ => nofun
  | latest => exact iff_of_true rfl fun _ _ => nofun
  | earliest => exact iff_of_true rfl fun _ _ => nofun
  | pending => exact iff_of_true rfl fun _ _ => nofun

/-- A block given by its hash is serialized as a string that is refused. -/
theorem hash_not_read_back :
    (BlockNumber.hash 5 true).serialize hexFormats =
        "\x7b 'hash': '0x0000…0005', 'requireCanonical': 'true'  \x7d" ∧
      BlockNumber.deserialize hexFormats (.str ((BlockNumber.hash 5 true).serialize hexFormats)) ≠
        .ok (.hash 5 true) := by
  refine ⟨by decide +kernel, ?_⟩
  rw [deserialize_hash]
  exact nofun

end Shadows.Rpc
