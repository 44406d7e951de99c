import Shadows.Primitives.Ethereum

/-!
# Ethereum logs in the block digest

`fp_consensus`: an author announces an Ethereum block by a pre-runtime digest item, the runtime
announces the one it built by a consensus item, and the node looks for the single log among the
items of a header's digest.
-/

namespace Shadows.Consensus

abbrev ConsensusEngineId := Bytes

/-- `SHADOWS_ENGINE_ID`, the bytes `fron`. -/
def shadowsEngineId : ConsensusEngineId := [102, 114, 111, 110]

/-- The Ethereum block hash and transaction hashes of a block. -/
structure Hashes where
  blockHash : H256
  transactionHashes : List H256
  deriving DecidableEq

def Hashes.fromBlock (hashing : Hashing) (block : Block) : Hashes where
  blockHash := hashing.headerHash block.header
  transactionHashes := block.transactions.map hashing.transactionHash

inductive PreLog where
  | block (block : Block)
  deriving DecidableEq

inductive PostLog where
  | hashes (hashes : Hashes)
  | block (block : Block)
  deriving DecidableEq

inductive Log where
  | pre (log : PreLog)
  | post (log : PostLog)
  deriving DecidableEq

def Log.intoHashes (hashing : Hashing) : Log → Hashes
  | .post (.hashes postHashes) => postHashes
  | .post (.block block) => Hashes.fromBlock hashing block
  | .pre (.block block) => Hashes.fromBlock hashing block

/-- The payload of a digest item: bytes that decode as the log they are tried for, or other bytes. -/
inductive Payload (α : Type) where
  | encoded (a : α)
  | other (data : Bytes)
  deriving DecidableEq

/-- `ChangesTrieSignal::NewConfiguration`; a configuration is the digest interval and the levels. -/
structure ChangesTrieSignal where
  newConfiguration : Option (UInt32 × UInt32)
  deriving DecidableEq

/-- `sp_runtime::generic::DigestItem`. The payload of a pre-runtime item is only ever decoded as a
`PreLog` and that of a consensus item only as a `PostLog`. -/
inductive DigestItem where
  | changesTrieRoot (root : H256)
  | preRuntime (engine : ConsensusEngineId) (data : Payload PreLog)
  | consensus (engine : ConsensusEngineId) (data : Payload PostLog)
  | seal (engine : ConsensusEngineId) (data : Bytes)
  | changesTrieSignal (signal : ChangesTrieSignal)
  | other (data : Bytes)
  deriving DecidableEq

abbrev Digest := List DigestItem

/-- `try_to::<PreLog>(OpaqueDigestItemId::PreRuntime(&SHADOWS_ENGINE_ID))`. -/
def DigestItem.tryToPreLog : DigestItem → Option PreLog
  | .preRuntime engine (.encoded log) => if engine = shadowsEngineId then some log else none
  | _ => none

/-- `try_to::<PostLog>(OpaqueDigestItemId::Consensus(&SHADOWS_ENGINE_ID))`. -/
def DigestItem.tryToPostLog : DigestItem → Option PostLog
  | .consensus engine (.encoded log) => if engine = shadowsEngineId then some log else none
  | _ => none

inductive FindLogError where
  | notFound
  | multipleLogs
  deriving DecidableEq

/-- The loop of the `find_*` functions: `found` is kept until a second candidate turns up. -/
def findSingle {α : Type} (found : Option α) : List (Option α) → Except FindLogError α
  | [] => match found with
    | some log => .ok log
    | none => .error .notFound
  | candidate :: rest => match candidate, found with
    | some _, some _ => .error .multipleLogs
    | some log, none => findSingle (some log) rest
    | none, found => findSingle found rest

/-- The two candidates a digest item is tried for, in this order. -/
def DigestItem.candidates (item : DigestItem) : List (Option Log) :=
  [item.tryToPreLog.map .pre, item.tryToPostLog.map .post]

def findPreLog (digest : Digest) : Except FindLogError PreLog :=
  findSingle none (digest.map DigestItem.tryToPreLog)

def findPostLog (digest : Digest) : Except FindLogError PostLog :=
  findSingle none (digest.map DigestItem.tryToPostLog)

def findLog (digest : Digest) : Except FindLogError Log :=
  findSingle none (digest.flatMap DigestItem.candidates)

/-- `ensure_log`: the flag `found` is an optional unit. -/
def ensureLog (digest : Digest) : Except FindLogError Unit :=
  findSingle none ((digest.flatMap DigestItem.candidates).map (Option.map fun _ => ()))

/-! ## Item by item -/

/-- The loop of `find_log` as it goes through the items: `found` is the log of an item before. -/
def findLogLoop (found : Option Log) : Digest → Except FindLogError Log
  | [] => match found with
    | some log => .ok log
    | none => .error .notFound
  | item :: rest => match item.tryToPreLog, found with
    | some _, some _ => .error .multipleLogs
    | some preLog, none => match item.tryToPostLog with
      | some _ => .error .multipleLogs
      | none => findLogLoop (some (.pre preLog)) rest
    | none, found => match item.tryToPostLog, found with
      | some _, some _ => .error .multipleLogs
      | some postLog, none => findLogLoop (some (.post postLog)) rest
      | none, found => findLogLoop found rest

/-- The loop of `ensure_log` as it goes through the items. -/
def ensureLogLoop (found : Bool) : Digest → Except FindLogError Unit
  | [] => if found then .ok () else .error .notFound
  | item :: rest => match item.tryToPreLog, found with
    | some _, true => .error .multipleLogs
    | some _, false => match item.tryToPostLog with
      | some _ => .error .multipleLogs
      | none => ensureLogLoop true rest
    | none, found => match item.tryToPostLog, found with
      | some _, true => .error .multipleLogs
      | some _, false => ensureLogLoop true rest
      | none, found => ensureLogLoop found rest

/-! ## The log of an item -/

/-- The log that an item carries: a decodable `PreLog` in a pre-runtime item of the engine, or a
decodable `PostLog` in a consensus item. -/
def DigestItem.carried : DigestItem → Option Log
  | .preRuntime engine (.encoded log) => if engine = shadowsEngineId then some (.pre log) else none
  | .consensus engine (.encoded log) => if engine = shadowsEngineId then some (.post log) else none
  | _ => none

/-- What the four functions answer is settled by the logs that the items of the digest carry. -/
structure OneLog (digest : Digest) : Prop where
  findLog_loop : findLogLoop none digest = findLog digest
  ensureLog_loop : ensureLogLoop false digest = ensureLog digest
  ok : ∀ log, findLog digest = .ok log ↔ digest.filterMap DigestItem.carried = [log]
  notFound : findLog digest = .error .notFound ↔ ∀ item ∈ digest, item.carried = none
  multipleLogs : findLog digest = .error .multipleLogs ↔
    2 ≤ digest.countP fun item => item.carried.isSome
  ensureLog : ensureLog digest = (findLog digest).map fun _ => ()
  pre : ∀ log, findLog digest = .ok (.pre log) ↔
    findPreLog digest = .ok log ∧ findPostLog digest = .error .notFound
  post : ∀ log, findLog digest = .ok (.post log) ↔
    findPostLog digest = .ok log ∧ findPreLog digest = .error .notFound

end Shadows.Consensus
