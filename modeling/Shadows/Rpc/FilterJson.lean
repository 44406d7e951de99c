import Shadows.Rpc.BlockNumbers
import Shadows.Rpc.TopicMatching

/-!
# Filters in JSON

How the addresses and the topics of a filter are read from JSON. A `VariadicValue` is tried as a single
value first and then as a list, on both levels of the topics.
-/

namespace Shadows.Rpc

/-- `serde_json::Value`. -/
inductive Json where
  | null
  | bool (value : Bool)
  | number
  | str (value : String)
  | array (values : List Json)
  | object

/-- What is read and written by other crates. -/
structure FilterFormats where
  /-- `Deserialize` of an `H256`, from a string. -/
  readHash : String → Except DeserializeError H256
  /-- `Deserialize` of an `H160`, from a string. -/
  readAddress : String → Except DeserializeError H160
  /-- `Display` of an error. -/
  showError : DeserializeError → String

section Reading

variable {T : Type}

/-- `from_value` of a type that is read from a string. -/
def readStr (read : String → Except DeserializeError T) : Json → Except DeserializeError T
  | .str value => read value
  | _ => .error .invalidType

/-- `from_value::<Option<T>>`. -/
def readOption (read : Json → Except DeserializeError T) : Json → Except DeserializeError (Option T)
  | .null => .ok none
  | value => (read value).map some

/-- `from_value::<Vec<T>>`. -/
def readVec (read : Json → Except DeserializeError T) : Json → Except DeserializeError (List T)
  | .array values => values.mapM read
  | _ => .error .invalidType

variable (formats : FilterFormats)

/-- `VariadicValue::deserialize`. -/
def VariadicValue.deserialize (read : Json → Except DeserializeError T) (v : Json) :
    Except DeserializeError (VariadicValue T) :=
  match v with
  | .null => .ok .null
  | v =>
    match read v with
    | .ok value => .ok (.single value)
    | .error _ =>
      match readVec read v with
      | .ok values => .ok (.multiple values)
      | .error err => .error (.custom ("Invalid variadic value type: " ++ formats.showError err))

/-- A position of the topics: `from_value::<Option<VariadicValue<Option<H256>>>>`. -/
def readPosition : Json → Except DeserializeError (Option (VariadicValue (Option H256))) :=
  readOption (VariadicValue.deserialize formats (readOption (readStr formats.readHash)))

/-- The field `topics` of a filter. -/
def readTopics : Json → Except DeserializeError (Option Topic) :=
  readOption (VariadicValue.deserialize formats (readPosition formats))

/-- The field `address` of a filter. -/
def readAddresses : Json → Except DeserializeError (Option FilterAddress) :=
  readOption (VariadicValue.deserialize formats (readStr formats.readAddress))

end Reading

/-! ## What is accepted -/

section Accepted

variable (formats : FilterFormats)

/-- A topic or `null`. -/
def IsAlternative (v : Json) : Prop := v = .null ∨ ∃ t, readStr formats.readHash v = .ok t

/-- A topic or `null`, or a list of these. -/
def IsPosition (v : Json) : Prop :=
  IsAlternative formats v ∨ ∃ vs, v = .array vs ∧ ∀ w ∈ vs, IsAlternative formats w

/-- A position, or a list of positions. -/
def IsTopics (v : Json) : Prop :=
  IsPosition formats v ∨ ∃ vs, v = .array vs ∧ ∀ w ∈ vs, IsPosition formats w

end Accepted

/-! ## What the JSON means -/

section Meaning

variable (formats : FilterFormats)

/-- A string that stands for a topic. -/
def WritesHash (v : Json) (t : H256) : Prop := ∃ value, v = .str value ∧ formats.readHash value = .ok t

def WritesAddress (v : Json) (a : H160) : Prop :=
  ∃ value, v = .str value ∧ formats.readAddress value = .ok a

/-- A position as clients write it: `null`, a topic, or a list of topics that is not empty. -/
inductive WritesPosition : Json → TopicPosition → Prop where
  | any : WritesPosition .null .any
  | topic (v : Json) (t : H256) (h : WritesHash formats v t) : WritesPosition v (.topic t)
  | oneOf (vs : List Json) (t : H256) (ts : List H256)
      (h : List.Forall₂ (WritesHash formats) vs (t :: ts)) : WritesPosition (.array vs) (.oneOf t ts)

/-- The topics as clients write them: nothing, one topic for the first position, or positions. -/
inductive WritesTopics : Json → List TopicPosition → Prop where
  | null : WritesTopics .null []
  | topic (v : Json) (t : H256) (h : WritesHash formats v t) : WritesTopics v [.topic t]
  | positions (vs : List Json) (ps : List TopicPosition)
      (h : List.Forall₂ (WritesPosition formats) vs ps) : WritesTopics (.array vs) ps

/-- The addresses as clients write them, and the condition on the address of a log. -/
inductive WritesAddresses : Json → (H160 → Prop) → Prop where
  | null : WritesAddresses .null fun _ => True
  | address (v : Json) (a : H160) (h : WritesAddress formats v a) : WritesAddresses v (· = a)
  | addresses (vs : List Json) (as : List H160) (h : List.Forall₂ (WritesAddress formats) vs as) :
      WritesAddresses (.array vs) (· ∈ as)

end Meaning

/-! ## Two positions -/

/-- Full texts of hashes, and no addresses. -/
def hexFilterFormats : FilterFormats where
  readHash := hexFormats.readHash
  readAddress := fun _ => .error .invalidType
  showError := fun _ => "invalid type"

/-- The text of the hash `7`. -/
def sevenText : String :=
  "0x0000000000000000000000000000000000000000000000000000000000000007"

/-- `[null, [7, 7]]`. -/
def nestedTopics : Json := .array [.null, .array [.str sevenText, .str sevenText]]

end Shadows.Rpc
