import Trinity.Chain.CbfSync

/-!
`scan_spks` of the Core-RPC backend, `core_rpc.rs`: the blocks whose filters
match, each in two passes, then the mempool in two passes, with a set of known
outpoints that grows on the way.
-/
namespace Trinity

open Outcome

/-- An error of the RPC client: its text and, if the node itself answered with
    an error, the code and message. -/
structure RpcError where
  text : String
  app : Option (Int × Str)
  deriving DecidableEq

structure FilterEvent where
  cp : CheckPoint
  block : Option Block
  deriving DecidableEq

structure CoreClient where
  getBlockHash : UInt64 → Except RpcError BlockHash
  getBlockCount : Except RpcError UInt64
  filterIter : CheckPoint → List Script → List (Except String FilterEvent)
  getBlockHeaderTime : BlockHash → Except RpcError UInt64
  getRawMempool : Except RpcError (List Txid)
  getRawTransaction : Txid → Except RpcError Transaction

def Txid.display (txid : Txid) : String :=
  String.ofList ((beBytes 32 txid).reverse.flatMap fun b =>
    [Nat.digitChar (b.toNat / 16), Nat.digitChar (b.toNat % 16)])

def mapRpc (err : RpcError) : ChainError := .network s!"rpc: {err.text}"

def lookupRequiresIndex (message : Str) : Bool :=
  let m := message.map toAsciiLowercase
  containsStr (bytes "txindex") m || containsStr (bytes "block hash") m

def isNotFound (err : RpcError) : Bool :=
  match err.app with
  | some (code, message) => code = -5 ∧ ¬ lookupRequiresIndex message
  | none => false

def isLookupUnavailable (err : RpcError) : Bool :=
  match err.app with
  | some (code, message) => code = -5 ∧ lookupRequiresIndex message
  | none => false

def txIsRelevant (tx : Transaction) (spks : List Script) (knownOutpoints : List OutPoint) : Bool :=
  (tx.output.any fun o => spks.contains o.scriptPubkey) ||
    tx.input.any fun i => knownOutpoints.contains i.previousOutput

structure RpcScan where
  knownOutpoints : List OutPoint
  seenTxids : List Txid
  txUpdate : TxUpdate
  deriving DecidableEq

section Scan

variable (client : CoreClient)

def CoreClient.genesisCheckpoint : Outcome ChainError CheckPoint := do
  let hash ← ofExcept (client.getBlockHash 0) mapRpc
  return .new ⟨0, hash⟩

def CoreClient.tipCheckpoint : Outcome ChainError CheckPoint := do
  let height ← ofExcept client.getBlockCount mapRpc
  rejectIf (2 ^ 32 ≤ height.toNat) (.protocol s!"tip height out of range: {height}")
  let hash ← ofExcept (client.getBlockHash height) mapRpc
  let genesis ← client.genesisCheckpoint
  genesis.insert ⟨height.toUInt32, hash⟩

def CoreClient.getTxOptional (txid : Txid) : Outcome ChainError (Option Transaction) :=
  match client.getRawTransaction txid with
  | .ok tx => return some tx
  | .error e =>
    if isNotFound e then return none
    else if isLookupUnavailable e then fail (.unavailable
      s!"rpc: cannot retrieve {txid.display} without txindex or a block hash: {e.text}")
    else fail (mapRpc e)

variable (env : Primitives) (spks : List Script)

/-- The loop body of a pass; `record` notes where a new transaction was found. -/
def RpcScan.visit (record : TxUpdate → Txid → TxUpdate) (s : RpcScan) (tx : Transaction) :
    RpcScan :=
  if txIsRelevant tx spks s.knownOutpoints then
    if env.computeTxid tx ∈ s.seenTxids then s
    else {
      knownOutpoints := watchedOutpoints env spks.contains tx ++ s.knownOutpoints
      seenTxids := env.computeTxid tx :: s.seenTxids
      txUpdate := record { s.txUpdate with txs := s.txUpdate.txs ++ [tx] } (env.computeTxid tx) }
  else s

def recordAnchor (anchor : ConfirmationBlockTime) (update : TxUpdate) (txid : Txid) : TxUpdate :=
  { update with anchors := update.anchors.insert (anchor, txid) }

def recordSeenAt (startTime : UInt64) (update : TxUpdate) (txid : Txid) : TxUpdate :=
  { update with seenAts := update.seenAts.insert (txid, startTime) }

def RpcScan.twoPasses (record : TxUpdate → Txid → TxUpdate) (s : RpcScan)
    (txs : List Transaction) : RpcScan :=
  (List.range 2).foldl (fun s _ => txs.foldl (RpcScan.visit env spks record) s) s

def CoreClient.anchorOf (startTime : UInt64) (cp : CheckPoint) : ConfirmationBlockTime :=
  ⟨cp.tip, match client.getBlockHeaderTime cp.tip.hash with
    | .ok time => time
    | .error _ => startTime⟩

def CoreClient.scanEvent (startTime : UInt64) (s : RpcScan × CheckPoint)
    (item : Except String FilterEvent) : Outcome ChainError (RpcScan × CheckPoint) := do
  let event ← ofExcept item fun e => .network s!"filter scan: {e}"
  match event.block with
  | none => return (s.1, event.cp)
  | some block => return (s.1.twoPasses env spks (recordAnchor (client.anchorOf startTime event.cp))
      block.txdata, event.cp)

def CoreClient.collectPending (seenTxids : List Txid) :
    List Txid → Outcome ChainError (List Transaction)
  | [] => return []
  | txid :: rest =>
    if txid ∈ seenTxids then CoreClient.collectPending seenTxids rest
    else do
      let tx ← client.getTxOptional txid
      let pending ← CoreClient.collectPending seenTxids rest
      return tx.toList ++ pending

def CoreClient.startCheckpoint (chainTip : Option CheckPoint) : Outcome ChainError CheckPoint :=
  match chainTip with
  | some cp => return cp
  | none => client.genesisCheckpoint

def CoreClient.scanFrom (startCp : CheckPoint) (startTime : UInt64)
    (knownOutpoints : List OutPoint) : Outcome ChainError (TxUpdate × Option CheckPoint) := do
  let (s, tipCp) ← (client.filterIter startCp spks).foldlM (client.scanEvent env spks startTime)
    (⟨knownOutpoints, [], ⟨[], [], []⟩⟩, startCp)
  let mempool ← ofExcept client.getRawMempool mapRpc
  let pending ← client.collectPending s.seenTxids mempool
  return ((s.twoPasses env spks (recordSeenAt startTime) pending).txUpdate, some tipCp)

def CoreClient.scanSpks (chainTip : Option CheckPoint) (startTime : UInt64)
    (knownOutpoints : List OutPoint) : Outcome ChainError (TxUpdate × Option CheckPoint) := do
  let startCp ← client.startCheckpoint chainTip
  if spks.isEmpty then do
    let tip ← client.tipCheckpoint
    return (⟨[], [], []⟩, some tip)
  else client.scanFrom env spks startCp startTime knownOutpoints

end Scan

end Trinity
