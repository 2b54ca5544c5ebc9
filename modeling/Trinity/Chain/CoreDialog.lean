import Trinity.Chain.FullScan
import Trinity.Lib.Dialog

/-!
The Core-RPC backend call by call: the filter iterator of `bip158.rs`, which asks
for headers, filters and blocks, and `scan_spks`, `full_scan` and `sync` of
`core_rpc.rs` on top of it. A node may answer every call as it likes, also the
same call twice in different ways; loops that such a node can keep going for ever
are given a number of rounds.
-/
namespace Trinity

open Outcome

structure BlockHeaderInfo where
  hash : BlockHash
  confirmations : Int
  height : UInt64
  time : UInt64
  previousBlockHash : Option BlockHash
  nextBlockHash : Option BlockHash

structure BlockFilter where
  matchAny : BlockHash → List Script → Except String Bool

structure RawTransactionInfo where
  transaction : Except String Transaction
  blockhash : Option BlockHash

/-- The places that look up a block header: `find_base`, at the last checkpoint or an
    earlier one, the two lookups of the iterator's `next`, the block time of
    `scan_spks`, and the anchor of a transaction in `sync`. -/
inductive HeaderSite where
  | findBase (last : Bool)
  | next
  | rewind
  | blockTime
  | anchor
  deriving DecidableEq, Repr

/-- With the lookup of a header goes the place it is made at, which tells the lookups
    of a run apart. -/
inductive RpcCall where
  | getBlockHash (height : UInt64)
  | getBlockCount
  | getBlockHeaderInfo (site : HeaderSite) (hash : BlockHash)
  | getBlockFilter (hash : BlockHash)
  | getBlock (hash : BlockHash)
  | getRawMempool
  | getRawTransaction (txid : Txid)
  | getRawTransactionInfo (txid : Txid)

def RpcCall.Reply : RpcCall → Type
  | .getBlockHash _ => BlockHash
  | .getBlockCount => UInt64
  | .getBlockHeaderInfo _ _ => BlockHeaderInfo
  | .getBlockFilter _ => BlockFilter
  | .getBlock _ => Block
  | .getRawMempool => List Txid
  | .getRawTransaction _ => Transaction
  | .getRawTransactionInfo _ => RawTransactionInfo

abbrev RpcCall.Answer (call : RpcCall) : Type := Except RpcError call.Reply

abbrev Calling (ε : Type) : Type → Type := Dialog RpcCall RpcCall.Answer ε

abbrev Rpc : Type → Type := Calling ChainError

namespace Rpc

section Calls

variable {ε : Type}

def getBlockHash (height : UInt64) : Calling ε (Except RpcError BlockHash) :=
  Dialog.query (RpcCall.getBlockHash height)

def getBlockCount : Calling ε (Except RpcError UInt64) := Dialog.query RpcCall.getBlockCount

def getBlockHeaderInfo (site : HeaderSite) (hash : BlockHash) :
    Calling ε (Except RpcError BlockHeaderInfo) :=
  Dialog.query (RpcCall.getBlockHeaderInfo site hash)

def getBlockFilter (hash : BlockHash) : Calling ε (Except RpcError BlockFilter) :=
  Dialog.query (RpcCall.getBlockFilter hash)

def getBlock (hash : BlockHash) : Calling ε (Except RpcError Block) :=
  Dialog.query (RpcCall.getBlock hash)

def getRawMempool : Calling ε (Except RpcError (List Txid)) := Dialog.query RpcCall.getRawMempool

def getRawTransaction (txid : Txid) : Calling ε (Except RpcError Transaction) :=
  Dialog.query (RpcCall.getRawTransaction txid)

def getRawTransactionInfo (txid : Txid) : Calling ε (Except RpcError RawTransactionInfo) :=
  Dialog.query (RpcCall.getRawTransactionInfo txid)

def orFail {α : Type} (call : Calling ε (Except RpcError α)) (wrap : RpcError → ε) :
    Calling ε α := do
  .done (ofExcept (← call) wrap)

end Calls

def genesisCheckpoint : Rpc CheckPoint := do
  let hash ← orFail (getBlockHash 0) mapRpc
  return .new ⟨0, hash⟩

def tipCheckpoint : Rpc CheckPoint := do
  let height ← orFail getBlockCount mapRpc
  .done (rejectIf (2 ^ 32 ≤ height.toNat) (.protocol s!"tip height out of range: {height}"))
  let hash ← orFail (getBlockHash height) mapRpc
  let genesis ← genesisCheckpoint
  .done (genesis.insert ⟨height.toUInt32, hash⟩)

/-- The error of a transaction lookup that is not a plain "not found". -/
def lookupError (txid : Txid) (e : RpcError) : ChainError :=
  if isLookupUnavailable e then .unavailable
    s!"rpc: cannot retrieve {txid.display} without txindex or a block hash: {e.text}"
  else mapRpc e

def getTxOptional (txid : Txid) : Rpc (Option Transaction) := do
  match ← getRawTransaction txid with
  | .ok tx => return some tx
  | .error e => if isNotFound e then return none else .done (fail (lookupError txid e))

end Rpc

inductive FilterError where
  | rpc (e : RpcError)
  | bip158 (text : String)
  | reorgDepthExceeded
  | tryFromInt

def FilterError.text : FilterError → String
  | .rpc e => e.text
  | .bip158 text => text
  | .reorgDepthExceeded => "maximum reorg depth exceeded"
  | .tryFromInt => "out of range integral type conversion attempted"

structure FilterIter where
  spks : List Script
  cp : CheckPoint
  header : Option BlockHeaderInfo

namespace FilterIter

open Rpc

def new (cp : CheckPoint) (spks : List Script) : FilterIter := ⟨spks, cp, none⟩

def isNotFound (e : RpcError) : Bool :=
  match e.app with
  | some (code, _) => code = -5
  | none => false

def findBase : List BlockId → Calling FilterError BlockHeaderInfo
  | [] => .done (fail .reorgDepthExceeded)
  | b :: rest => do
    match ← getBlockHeaderInfo (.findBase rest.isEmpty) b.hash with
    | .error e => if isNotFound e then findBase rest else .done (fail (.rpc e))
    | .ok header => if header.confirmations ≤ 0 then findBase rest else return header

def rewind : Nat → BlockHeaderInfo → Calling FilterError BlockHeaderInfo
  | 0, _ => .halt
  | rounds + 1, header =>
    if header.confirmations < 0 then do
      let hash ← .done (okOr header.previousBlockHash .reorgDepthExceeded)
      let header ← orFail (getBlockHeaderInfo .rewind hash) .rpc
      rewind rounds header
    else return header

def base (it : FilterIter) : Calling FilterError BlockHeaderInfo :=
  match it.header with
  | some header => return header
  | none => findBase it.cp.entries

def next (rounds : Nat) (it : FilterIter) :
    Calling FilterError (Option (FilterEvent × FilterIter)) := do
  let header ← it.base
  match header.nextBlockHash with
  | none => return none
  | some hash =>
    let header ← orFail (getBlockHeaderInfo .next hash) .rpc
    let header ← rewind rounds header
    .done (rejectIf (2 ^ 32 ≤ header.height.toNat) .tryFromInt)
    let cp ← .done (expect (it.cp.insert ⟨header.height.toUInt32, header.hash⟩).toOption)
    let filter ← orFail (getBlockFilter header.hash) .rpc
    let matched ← .done (ofExcept (filter.matchAny header.hash it.spks) .bip158)
    if matched then do
      let block ← orFail (getBlock header.hash) .rpc
      return some (⟨cp, some block⟩, ⟨it.spks, cp, some header⟩)
    else return some (⟨cp, none⟩, ⟨it.spks, cp, some header⟩)

def forEach {σ : Type} (wrap : FilterError → ChainError) (body : σ → FilterEvent → Rpc σ) :
    Nat → FilterIter → σ → Rpc σ
  | 0, _, _ => .halt
  | rounds + 1, it, s => do
    match ← (it.next rounds).mapErr wrap with
    | none => return s
    | some (event, it) =>
      let s ← body s event
      forEach wrap body rounds it s

end FilterIter

namespace Rpc

section Scan

variable (env : Primitives) (spks : List Script) (rounds : Nat)

/-- One event of the filter iterator. If the header of a matching block cannot be
    fetched, the time of the scan stands for that of the block. -/
def scanEvent (startTime : UInt64) (s : RpcScan × CheckPoint) (event : FilterEvent) :
    Rpc (RpcScan × CheckPoint) :=
  match event.block with
  | none => return (s.1, event.cp)
  | some block => do
    let answer ← getBlockHeaderInfo .blockTime event.cp.tip.hash
    let time := match answer with
      | .ok header => header.time
      | .error _ => startTime
    return (s.1.twoPasses env spks (recordAnchor ⟨event.cp.tip, time⟩) block.txdata, event.cp)

def collectPending (seenTxids : List Txid) : List Txid → Rpc (List Transaction)
  | [] => return []
  | txid :: rest =>
    if seenTxids.contains txid then collectPending seenTxids rest
    else do
      let tx ← getTxOptional txid
      let pending ← collectPending seenTxids rest
      return tx.toList ++ pending

def startCheckpoint (chainTip : Option CheckPoint) : Rpc CheckPoint :=
  match chainTip with
  | some cp => return cp
  | none => genesisCheckpoint

def scanFrom (startCp : CheckPoint) (startTime : UInt64) (knownOutpoints : List OutPoint) :
    Rpc (TxUpdate × Option CheckPoint) := do
  let (s, tipCp) ← FilterIter.forEach (fun e => .network s!"filter scan: {e.text}")
    (scanEvent env spks startTime) rounds (.new startCp spks)
    (⟨knownOutpoints, [], ⟨[], [], []⟩⟩, startCp)
  let mempool ← orFail getRawMempool mapRpc
  let pending ← collectPending s.seenTxids mempool
  return ((s.twoPasses env spks (recordSeenAt startTime) pending).txUpdate, some tipCp)

def scanSpks (chainTip : Option CheckPoint) (startTime : UInt64)
    (knownOutpoints : List OutPoint) : Rpc (TxUpdate × Option CheckPoint) := do
  let startCp ← startCheckpoint chainTip
  if spks.isEmpty then do
    let tip ← tipCheckpoint
    return (⟨[], [], []⟩, some tip)
  else scanFrom env spks rounds startCp startTime knownOutpoints

end Scan

section FullScan

variable (env : Primitives) (stopGap rounds : Nat)

def probeEvent (spks active : List Script) (event : FilterEvent) : Rpc (List Script) :=
  match event.block with
  | none => return active
  | some block => return active ++ block.txdata.flatMap (paidAmong spks)

def probePending (spks active : List Script) (txid : Txid) : Rpc (List Script) := do
  match ← getTxOptional txid with
  | none => return active
  | some tx => return active ++ paidAmong spks tx

def activeSpksIn (spks : List Script) (startCp : CheckPoint) : Rpc (List Script) := do
  let active ← FilterIter.forEach (fun e => .network s!"filter probe: {e.text}") (probeEvent spks)
    rounds (.new startCp spks) []
  let mempool ← orFail getRawMempool mapRpc
  mempool.foldlM (probePending spks) active

def collectKeychain (probeCp : CheckPoint) (it : SpkIter) : Nat → Nat → GapSearch → Rpc GapSearch
  | 0, _, _ => .halt
  | fuel + 1, pos, s =>
    let batch := it.take pos stopGap
    if batch.isEmpty then return s
    else do
      let active ← activeSpksIn rounds (batch.map Prod.snd) probeCp
      let s := batch.foldl (GapSearch.note active) s
      if s.unused ≥ stopGap then return s
      else collectKeychain probeCp it fuel (pos + batch.length) s

def collectKeychains (probeCp : CheckPoint) :
    List (KeychainKind × SpkIter) → FullScanSpkPlan → Rpc FullScanSpkPlan
  | [], plan => return plan
  | (keychain, it) :: rest, plan => do
    let s ← collectKeychain stopGap rounds probeCp it rounds 0 ⟨0, none, plan.spks⟩
    collectKeychains probeCp rest ⟨s.spks, match s.last with
      | some i => Function.update plan.lastActive keychain (some i)
      | none => plan.lastActive⟩

def collectFullScanSpks (req : FullScanRequest) : Rpc FullScanSpkPlan := do
  let probeCp ← genesisCheckpoint
  collectKeychains stopGap rounds probeCp req.keychains ⟨[], fun _ => none⟩

def fullScan (req : FullScanRequest) : Rpc Update := do
  let plan ← collectFullScanSpks stopGap rounds req
  let (txUpdate, chain) ← scanSpks env plan.spks rounds req.chainTip req.startTime []
  return ⟨plan.lastActive, txUpdate, chain⟩

end FullScan

end Rpc

structure CoreSyncRequest extends SyncRequest where
  startTime : UInt64

structure CoreTxUpdate extends TxUpdate where
  txouts : OrderedMap OutPoint TxOut
  evictedAts : List (Txid × UInt64)

structure CoreUpdate where
  lastActiveIndices : KeychainKind → Option UInt32
  txUpdate : CoreTxUpdate
  chain : Option CheckPoint

/-- The order in which a hash map is iterated. -/
structure HashOrder where
  entries : List (Script × List Txid) → List (Script × List Txid)
  perm : ∀ map, (entries map).Perm map

structure SyncState where
  present : List Txid
  txUpdate : CoreTxUpdate

/-- The expected transactions by script; a script that comes twice is entered
    once. -/
def CoreSyncRequest.expected (req : CoreSyncRequest) : List (Script × List Txid) :=
  req.spks.foldl (fun map entry =>
    (entry.2, req.spkExpectedTxids entry.2) :: map.filter fun e => e.1 ≠ entry.2) []

namespace Rpc

variable (env : Primitives) (order : HashOrder) (rounds : Nat) (req : CoreSyncRequest)

def lookupExpected (spks : List Script) (s : List Txid × List OutPoint) (txid : Txid) :
    Rpc (List Txid × List OutPoint) := do
  match ← getTxOptional txid with
  | none => return s
  | some tx => return (txid :: s.1, (tx.output.zipIdx.filterMap fun (o, i) =>
      if spks.contains o.scriptPubkey then some ⟨txid, UInt32.ofNat i⟩ else none) ++ s.2)

def syncScan : Rpc (List Txid × TxUpdate × Option CheckPoint) := do
  let spks := req.spks.map Prod.snd
  let (present, knownOutpoints) ←
    ((order.entries req.expected).flatMap Prod.snd).foldlM (lookupExpected spks) ([], [])
  let (txUpdate, chain) ← scanSpks env spks rounds req.chainTip req.startTime
    (req.outpoints ++ knownOutpoints)
  return (txUpdate.txs.map env.computeTxid ++ present, txUpdate, chain)

def evict (present : List Txid) (evictedAts : List (Txid × UInt64)) (txid : Txid) :
    List (Txid × UInt64) :=
  if present.contains txid then evictedAts else evictedAts.insert (txid, req.startTime)

/-- Where a looked up transaction is confirmed: not said, if it is in no block, if
    its header cannot be fetched, or if the height does not fit. -/
def anchorOf (info : RawTransactionInfo) : Rpc (Option ConfirmationBlockTime) :=
  match info.blockhash with
  | none => return none
  | some hash => do
    match ← getBlockHeaderInfo .anchor hash with
    | .error _ => return none
    | .ok header =>
      if header.height.toNat < 2 ^ 32 then
        return some ⟨⟨header.height.toUInt32, hash⟩, header.time⟩
      else return none

def lookupTxid (s : SyncState) (txid : Txid) : Rpc SyncState :=
  if s.present.contains txid then return s
  else do
    match ← getRawTransactionInfo txid with
    | .ok info =>
      let tx ← .done (ofExcept info.transaction fun e =>
        .protocol s!"decode tx {txid.display}: {e}")
      let update := { s.txUpdate with txs := s.txUpdate.txs ++ [tx] }
      match ← anchorOf info with
      | some anchor => return ⟨txid :: s.present,
          { update with anchors := update.anchors.insert (anchor, txid) }⟩
      | none => return ⟨txid :: s.present,
          { update with seenAts := update.seenAts.insert (txid, req.startTime) }⟩
    | .error e =>
      if isNotFound e then return ⟨s.present,
        { s.txUpdate with evictedAts := s.txUpdate.evictedAts.insert (txid, req.startTime) }⟩
      else .done (fail (lookupError txid e))

def lookupOutpoint (s : SyncState) (op : OutPoint) : Rpc SyncState :=
  if s.present.contains op.txid then return s
  else do
    match ← getTxOptional op.txid with
    | none => return s
    | some tx => return ⟨op.txid :: s.present, { s.txUpdate with
        txs := s.txUpdate.txs ++ [tx]
        txouts := match tx.output[op.vout.toNat]? with
          | some txout => s.txUpdate.txouts.insert op txout
          | none => s.txUpdate.txouts }⟩

def sync : Rpc CoreUpdate := do
  let (present, scanned, chain) ← syncScan env order rounds req
  let evictedAts := ((order.entries req.expected).flatMap Prod.snd).foldl (evict req present) []
  let s ← req.txids.foldlM (lookupTxid req) ⟨present, ⟨scanned, .empty, evictedAts⟩⟩
  let s ← req.outpoints.foldlM lookupOutpoint s
  return ⟨fun _ => none, s.txUpdate, chain⟩

end Rpc

end Trinity
