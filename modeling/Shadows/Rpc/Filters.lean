import Shadows.Primitives.Ethereum
import Mathlib.Data.List.DropRight

/-!
# Log filters

The filter of the `eth` RPC methods on logs, and how the node matches the logs of a block with it.
A method that panics has no result.
-/

namespace Shadows.Rpc

inductive BlockNumber where
  | hash (hash : H256) (requireCanonical : Bool)
  | num (number : UInt64)
  | latest
  | earliest
  | pending
  deriving DecidableEq

def BlockNumber.toMinBlockNum : BlockNumber → Option UInt64
  | .num x => some x
  | _ => none

inductive VariadicValue (T : Type) where
  | single (value : T)
  | multiple (values : List T)
  | null
  deriving DecidableEq

abbrev FilterAddress := VariadicValue H160

/-- A topic filter as it is written: a list of positions, each with one topic or several. -/
abbrev Topic := VariadicValue (Option (VariadicValue (Option H256)))

abbrev FlatTopic := VariadicValue (Option H256)

structure Filter where
  fromBlock : Option BlockNumber
  toBlock : Option BlockNumber
  blockHash : Option H256
  address : Option FilterAddress
  topics : Option Topic
  deriving DecidableEq

/-- The `Log` of the RPC: an Ethereum log, with its place on the chain once it is known. -/
structure Log where
  address : H160
  topics : List H256
  data : Bytes
  blockHash : Option H256
  blockNumber : Option U256
  transactionHash : Option H256
  transactionIndex : Option U256
  logIndex : Option U256
  transactionLogIndex : Option U256
  removed : Bool
  deriving DecidableEq

/-- The log without its place, as it is matched with a filter. -/
def Log.unplaced (ethereumLog : Shadows.Log) : Log where
  address := ethereumLog.address
  topics := ethereumLog.topics
  data := ethereumLog.data
  blockHash := none
  blockNumber := none
  transactionHash := none
  transactionIndex := none
  logIndex := none
  transactionLogIndex := none
  removed := false

structure FilteredParams where
  filter : Option Filter
  flatTopics : List FlatTopic

namespace FilteredParams

/-- The alternatives at one position of a topic filter. -/
def alternatives : Option (VariadicValue (Option H256)) → List (Option H256)
  | some (.single s) => [s]
  | some (.multiple s) => s
  | some .null => [none]
  | none => [none]

def cartesian : List (List (Option H256)) → List (List (Option H256))
  | [] => []
  | firstList :: listIter =>
    listIter.foldl (fun res l => res.flatMap fun r => l.map fun el => r ++ [el])
      (firstList.map fun i => [i])

def flatten : Topic → List FlatTopic
  | .multiple multi => (cartesian (multi.map alternatives)).map .multiple
  | .single (some single) => [single]
  | .single none => []
  | .null => [.null]

def default : FilteredParams := ⟨none, []⟩

def new : Option Filter → FilteredParams
  | some f =>
    { filter := some f
      flatTopics := match f.topics with
        | some t => flatten t
        | none => [] }
  | none => default

/-- The topics to be found in the log, a wildcard standing for the topic of the log at its position;
a wildcard beyond the topics of the log panics. -/
def replace (log : Log) (topic : FlatTopic) : Option (Option (List H256)) :=
  let out := match topic with
    | .single value => some value.toList
    | .multiple value => (value.mapIdx fun k v => v <|> log.topics[k]?).mapM id
    | .null => some []
  out.map fun out => if out = [] then none else some out

def filterBlockRange (params : FilteredParams) (blockNumber : UInt64) : Option Bool :=
  params.filter.map fun filter =>
    let «from» := match filter.fromBlock with
      | some (.num n) => decide (n ≤ blockNumber)
      | _ => true
    let «to» := match filter.toBlock with
      | some (.num n) => decide (blockNumber ≤ n)
      | some .earliest => false
      | _ => true
    «from» && «to»

def filterBlockHash (params : FilteredParams) (blockHash : H256) : Option Bool :=
  params.filter.map fun filter =>
    match filter.blockHash with
    | some h => decide (h = blockHash)
    | none => true

def filterAddress (params : FilteredParams) (log : Log) : Option Bool :=
  params.filter.map fun filter =>
    match filter.address with
    | some (.single x) => decide (log.address = x)
    | some (.multiple x) => x.contains log.address
    | some .null => true
    | none => true

/-- The loop of `filter_topics` over the flat topics that are left. -/
def filterTopicsLoop (log : Log) : List FlatTopic → Bool → Option Bool
  | [], out => some out
  | .single (some single) :: rest, out =>
    filterTopicsLoop log rest (if [single].isPrefixOf log.topics then out else false)
  | .single none :: rest, out => filterTopicsLoop log rest out
  | .multiple multi :: rest, out =>
    -- the wildcards at the end are dropped
    let newMulti := multi.rdropWhile Option.isNone
    if log.topics.length < newMulti.length then some false
    else match replace log (.multiple newMulti) with
      | none => none
      | some none => filterTopicsLoop log rest out
      | some (some replaced) =>
        if replaced.isPrefixOf log.topics then some true else filterTopicsLoop log rest false
  | .null :: rest, _ => filterTopicsLoop log rest true

def filterTopics (params : FilteredParams) (log : Log) : Option Bool :=
  filterTopicsLoop log params.flatTopics true

end FilteredParams

/-- Two tests one after the other, the second of them only if the first succeeds. -/
def andAlso (a b : Option Bool) : Option Bool := a.bind fun a => if a then b else some false

@[simp] theorem andAlso_true (b : Option Bool) : andAlso (some true) b = b := rfl

@[simp] theorem andAlso_some_true (a : Bool) : andAlso (some a) (some true) = some a := by
  cases a <;> rfl

end Shadows.Rpc
