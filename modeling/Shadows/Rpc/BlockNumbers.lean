import Shadows.Rpc.ExecutionFailure
import Shadows.Rpc.IndexLookups

/-!
# Block parameters

How a `BlockNumber` is read from a JSON value and written as one. What other crates read and write of it
is a parameter.
-/

namespace Shadows.Rpc

/-- What `serde` refuses a value with. -/
inductive DeserializeError where
  | custom (message : String)
  | invalidType
  /-- `serde_json` finds entries of the object that the visitor has not read. -/
  | unread
  deriving DecidableEq

/-- What is read and written by other crates. -/
structure BlockNumberFormats where
  /-- `Deserialize` of an `H256`, from a string. -/
  readHash : String → Except DeserializeError H256
  /-- `Display` of an `H256`. -/
  showHash : H256 → String
  /-- `Display` of the `ParseIntError` of `from_str_radix`. -/
  parseIntError : ℕ → List Char → String

/-- The value of an entry of an object. -/
inductive EntryValue where
  | str (value : String)
  | bool (value : Bool)
  | other
  deriving DecidableEq

abbrev Entry := String × EntryValue

/-- A JSON value as the visitor of `BlockNumber` gets it. -/
inductive BlockNumberParam where
  | str (value : String)
  | u64 (value : UInt64)
  | map (entries : List Entry)
  /-- The visitor refuses everything else. -/
  | other

/-! ## Entries -/

/-- `next_value::<String>`. -/
def EntryValue.asString : EntryValue → Except DeserializeError String
  | .str value => .ok value
  | _ => .error .invalidType

/-- `next_value::<bool>`. -/
def EntryValue.asBool : EntryValue → Except DeserializeError Bool
  | .bool value => .ok value
  | _ => .error .invalidType

section Visitor

variable (formats : BlockNumberFormats)

/-- `next_value::<H256>`. -/
def EntryValue.asHash (value : EntryValue) : Except DeserializeError H256 :=
  value.asString.bind formats.readHash

/-- `u64::from_str_radix`, with the error that both visitors make of its error. -/
def parseNumber (digits : List Char) : Except DeserializeError UInt64 :=
  match fromStrRadix 16 digits with
  | some number => .ok number
  | none => .error (.custom ("Invalid block number: " ++ formats.parseIntError 16 digits))

/-- The number of an entry `blockNumber`. -/
def prefixedNumber (value : String) : Except DeserializeError UInt64 :=
  match value.toList with
  | '0' :: 'x' :: digits => parseNumber formats digits
  | _ => .error (.custom "Invalid block number: missing 0x prefix")

/-- The variables of `visit_map`. -/
structure MapVisit where
  requireCanonical : Bool
  blockNumber : Option UInt64
  blockHash : Option H256
  deriving DecidableEq

/-- The loop of `visit_map`, with the entries that it leaves unread. A block number ends it. -/
def visitEntries : List Entry → MapVisit → Except DeserializeError (MapVisit × List Entry)
  | [], visit => .ok (visit, [])
  | (key, value) :: entries, visit =>
    if key = "blockNumber" then
      (value.asString.bind (prefixedNumber formats)).map fun number =>
        ({ visit with blockNumber := some number }, entries)
    else if key = "blockHash" then
      (value.asHash formats).bind fun hash =>
        visitEntries entries { visit with blockHash := some hash }
    else if key = "requireCanonical" then
      value.asBool.bind fun requireCanonical =>
        visitEntries entries { visit with requireCanonical := requireCanonical }
    else .error (.custom ("Unknown key: " ++ key))

/-- The block that `visit_map` returns. -/
def MapVisit.result (visit : MapVisit) : Except DeserializeError BlockNumber :=
  match visit.blockNumber, visit.blockHash with
  | some number, _ => .ok (.num number)
  | none, some hash => .ok (.hash hash visit.requireCanonical)
  | none, none => .error (.custom "Invalid input")

/-- `visit_map`, after which `serde_json` looks for unread entries. -/
def visitMap (entries : List Entry) : Except DeserializeError BlockNumber :=
  (visitEntries formats entries ⟨false, none, none⟩).bind fun (visit, unread) =>
    visit.result.bind fun blockNumber =>
      if unread = [] then .ok blockNumber else .error .unread

def visitStr (value : String) : Except DeserializeError BlockNumber :=
  if value = "latest" then .ok .latest
  else if value = "earliest" then .ok .earliest
  else if value = "pending" then .ok .pending
  else match value.toList with
    | '0' :: 'x' :: digits => (parseNumber formats digits).map .num
    | digits =>
      match fromStrRadix 10 digits with
      | some number => .ok (.num number)
      | none => .error (.custom "Invalid block number: non-decimal or missing 0x prefix")

def BlockNumber.deserialize : BlockNumberParam → Except DeserializeError BlockNumber
  | .str value => visitStr formats value
  | .u64 value => .ok (.num value)
  | .map entries => visitMap formats entries
  | .other => .error .invalidType

/-- `{:x}`. -/
def lowerHex (number : UInt64) : String := .ofList (Nat.toDigits 16 number.toNat)

/-- The string that a `BlockNumber` is serialized as. -/
def BlockNumber.serialize : BlockNumber → String
  | .hash h requireCanonical =>
    "\x7b 'hash': '" ++ formats.showHash h ++ "', 'requireCanonical': '" ++
      toString requireCanonical ++ "'  \x7d"
  | .num number => "0x" ++ lowerHex number
  | .latest => "latest"
  | .earliest => "earliest"
  | .pending => "pending"

/-! ## Objects -/

/-- An entry with one of the three keys and a value that is valid for it. -/
inductive ValidEntry : Entry → Prop where
  | blockNumber (value : String) (number : UInt64) (h : prefixedNumber formats value = .ok number) :
    ValidEntry ("blockNumber", .str value)
  | blockHash (value : String) (hash : H256) (h : formats.readHash value = .ok hash) :
    ValidEntry ("blockHash", .str value)
  | requireCanonical (value : Bool) : ValidEntry ("requireCanonical", .bool value)

/-- The entries of an object with a subset of the three keys and valid values, in some order. -/
structure ValidObject (entries : List Entry) : Prop where
  valid : ∀ entry ∈ entries, ValidEntry formats entry
  nodup : (entries.map Prod.fst).Nodup

end Visitor

/-- The same value, or a refusal both times. -/
def SameResult (a b : Except DeserializeError BlockNumber) : Prop := a.toOption = b.toOption

instance (a b : Except DeserializeError BlockNumber) : Decidable (SameResult a b) :=
  inferInstanceAs (Decidable (_ = _))

/-! ## Texts of hashes -/

/-- The hash that 64 digits stand for. -/
def hashOfDigits (digits : List Char) : Option H256 :=
  if digits.length = 64 then
    (digits.mapM (toDigit 16)).map fun digits =>
      BitVec.ofNat 256 (digits.foldl (fun n digit => n * 16 + digit) 0)
  else none

/-- Hashes in full after the prefix `0x` where they are read, and cut to four digits where they are
shown. -/
def hexFormats : BlockNumberFormats where
  readHash value :=
    match value.toList with
    | '0' :: 'x' :: digits =>
      match hashOfDigits digits with
      | some hash => .ok hash
      | none => .error .invalidType
    | _ => .error .invalidType
  showHash hash :=
    let digits := (toHex hash.asBytes).toList
    "0x" ++ .ofList (digits.take 4) ++ "…" ++ .ofList (digits.drop 60)
  parseIntError radix digits :=
    if digits = [] then "cannot parse integer from empty string"
    else if digits.all fun c => (toDigit radix c).isSome then
      "number too large to fit in target type"
    else "invalid digit found in string"

end Shadows.Rpc
