import Trinity.Chain.CoreDialog
import Trinity.Chain.FullScanTip

/-!
A node that answers a call always in the same way. With such a node the backend
call by call returns what the backend over a `CoreClient` returns, for the client
made of the node's answers.
-/
namespace Trinity

open Outcome Dialog

abbrev RpcNode : Type := (call : RpcCall) → call.Answer

namespace RpcNode

def headerInfo (node : RpcNode) (site : HeaderSite) (hash : BlockHash) :
    Except RpcError BlockHeaderInfo :=
  node (.getBlockHeaderInfo site hash)

def rawTransaction (node : RpcNode) (txid : Txid) : Except RpcError Transaction :=
  node (.getRawTransaction txid)

def rawTransactionInfo (node : RpcNode) (txid : Txid) : Except RpcError RawTransactionInfo :=
  node (.getRawTransactionInfo txid)

def events (node : RpcNode) : Nat → FilterIter → List (Except String FilterEvent)
  | 0, _ => [.error "unfinished"]
  | rounds + 1, it =>
    match (it.next rounds).eval node with
    | some (.ok none) => []
    | some (.ok (some (event, it))) => .ok event :: node.events rounds it
    | some (.error (.error e)) => [.error e.text]
    | some (.error .panic) => [.error "aborted"]
    | none => [.error "unfinished"]

def client (node : RpcNode) (rounds : Nat) : CoreClient where
  getBlockHash height := node (.getBlockHash height)
  getBlockCount := node .getBlockCount
  filterIter cp spks := node.events rounds (.new cp spks)
  getBlockHeaderTime hash := (node.headerInfo .blockTime hash).map BlockHeaderInfo.time
  getRawMempool := node .getRawMempool
  getRawTransaction := node.rawTransaction

theorem client_filterIter {node : RpcNode} {rounds : Nat} {cp : CheckPoint} {spks : List Script} :
    (node.client rounds).filterIter cp spks = node.events rounds (.new cp spks) := rfl

theorem client_getBlockHeaderTime {node : RpcNode} {rounds : Nat} {hash : BlockHash} :
    (node.client rounds).getBlockHeaderTime hash =
      (node.headerInfo .blockTime hash).map BlockHeaderInfo.time := rfl

theorem client_getRawTransaction {node : RpcNode} {rounds : Nat} {txid : Txid} :
    (node.client rounds).getRawTransaction txid = node.rawTransaction txid := rfl

end RpcNode

namespace Rpc

variable {node : RpcNode} {env : Primitives} {spks : List Script} (rounds : Nat)

theorem eval_getRawTransaction {ε : Type} (txid : Txid) :
    (getRawTransaction txid : Calling ε _).eval node = some (.ok (node.rawTransaction txid)) := rfl

theorem eval_getRawTransactionInfo {ε : Type} (txid : Txid) :
    (getRawTransactionInfo txid : Calling ε _).eval node =
      some (.ok (node.rawTransactionInfo txid)) := rfl

theorem eval_getBlockHeaderInfo {ε : Type} (site : HeaderSite) (hash : BlockHash) :
    (getBlockHeaderInfo site hash : Calling ε _).eval node =
      some (.ok (node.headerInfo site hash)) := rfl

theorem eval_genesisCheckpoint :
    genesisCheckpoint.eval node = some (node.client rounds).genesisCheckpoint :=
  eval_bind_some rfl fun _ _ => rfl

theorem eval_startCheckpoint {chainTip : Option CheckPoint} :
    (startCheckpoint chainTip).eval node =
      some ((node.client rounds).startCheckpoint chainTip) := by
  cases chainTip with
  | none => exact eval_genesisCheckpoint rounds
  | some tip => rfl

theorem eval_tipCheckpoint :
    tipCheckpoint.eval node = some (node.client rounds).tipCheckpoint :=
  eval_bind_some rfl fun _ _ => eval_bind_some rfl fun _ _ => eval_bind_some rfl fun _ _ =>
    eval_bind_some (eval_genesisCheckpoint rounds) fun _ _ => rfl

theorem eval_getTxOptional {txid : Txid} :
    (getTxOptional txid).eval node = some ((node.client rounds).getTxOptional txid) := by
  rw [getTxOptional, eval_bind_of_ok (eval_getRawTransaction txid), CoreClient.getTxOptional]
  rw [RpcNode.client_getRawTransaction]
  cases node.rawTransaction txid with
  | ok tx => rfl
  | error e =>
    simp only [lookupError]
    split_ifs <;> rfl

theorem eval_collectPending {seen listing : List Txid} :
    (collectPending seen listing).eval node =
      some ((node.client rounds).collectPending seen listing) := by
  induction listing with
  | nil => rfl
  | cons txid rest ih =>
    rw [collectPending, CoreClient.collectPending]
    by_cases known : txid ∈ seen
    · rw [if_pos (List.contains_iff_mem.mpr known), if_pos known]
      exact ih
    · rw [if_neg (mt List.contains_iff_mem.mp known), if_neg known]
      exact eval_bind_some (eval_getTxOptional rounds) fun _ _ => eval_bind_some ih fun _ _ => rfl

theorem eval_scanEvent {startTime : UInt64} {s : RpcScan × CheckPoint} {event : FilterEvent} :
    (scanEvent env spks startTime s event).eval node =
      some ((node.client rounds).scanEvent env spks startTime s (.ok event)) := by
  obtain ⟨cp, block⟩ := event
  cases block with
  | none => rfl
  | some block =>
    have scanned : (node.client rounds).scanEvent env spks startTime s (.ok ⟨cp, some block⟩) =
        .ok (s.1.twoPasses env spks (recordAnchor ((node.client rounds).anchorOf startTime cp))
          block.txdata, cp) := rfl
    rw [scanned, scanEvent, eval_bind_of_ok (eval_getBlockHeaderInfo .blockTime cp.tip.hash),
      CoreClient.anchorOf, RpcNode.client_getBlockHeaderTime]
    cases node.headerInfo .blockTime cp.tip.hash with
    | ok header => rfl
    | error e => rfl

variable {rounds}

theorem eval_forEach {σ : Type} {wrap : FilterError → ChainError} {body : σ → FilterEvent → Rpc σ}
    (step : σ → Except String FilterEvent → Outcome ChainError σ)
    (same : ∀ s event, (body s event).eval node = some (step s (.ok event))) {it : FilterIter}
    {s s' : σ} (run : (FilterIter.forEach wrap body rounds it s).eval node = some (.ok s')) :
    (node.events rounds it).foldlM step s = .ok s' := by
  induction rounds generalizing it s with
  | zero => cases run
  | succ rounds ih =>
    rw [FilterIter.forEach, eval_bind_ok] at run
    obtain ⟨answer, asked, run⟩ := run
    rw [eval_mapErr_ok] at asked
    rw [RpcNode.events, asked]
    cases answer with
    | none =>
      obtain rfl := returned_inj run
      rfl
    | some entry =>
      obtain ⟨event, it⟩ := entry
      obtain ⟨next, here, later⟩ := eval_bind_ok.mp run
      rw [same, Option.some.injEq] at here
      rw [List.foldlM_cons, here]
      exact ih later

theorem eval_scanSpks {chainTip : Option CheckPoint} {startTime : UInt64} {seed : List OutPoint}
    {result : TxUpdate × Option CheckPoint}
    (run : (scanSpks env spks rounds chainTip startTime seed).eval node = some (.ok result)) :
    (node.client rounds).scanSpks env spks chainTip startTime seed = .ok result := by
  rw [scanSpks, eval_bind_ok] at run
  obtain ⟨startCp, started, run⟩ := run
  rw [eval_startCheckpoint rounds, Option.some.injEq] at started
  rw [CoreClient.scanSpks, started, bind_ok]
  split_ifs at run ⊢
  · rw [eval_bind_some (eval_tipCheckpoint rounds) fun _ _ => rfl] at run
    exact Option.some.inj run
  · rw [scanFrom, eval_bind_ok] at run
    obtain ⟨scanned, looped, run⟩ := run
    have blocks := eval_forEach ((node.client rounds).scanEvent env spks startTime)
      (fun s event => eval_scanEvent rounds) looped
    rw [CoreClient.scanFrom, RpcNode.client_filterIter, blocks, bind_ok]
    rw [eval_bind_some rfl fun _ _ =>
      eval_bind_some (eval_collectPending rounds) fun _ _ => rfl] at run
    exact Option.some.inj run

section FullScan

variable {stopGap : Nat}

theorem eval_probeEvent {active : List Script} {event : FilterEvent} :
    (probeEvent spks active event).eval node =
      some (CoreClient.probeEvent spks active (.ok event)) := by
  obtain ⟨cp, block⟩ := event
  cases block with
  | none => rfl
  | some block => rfl

theorem eval_probePending (rounds : Nat) {active : List Script} {txid : Txid} :
    (probePending spks active txid).eval node =
      some ((node.client rounds).probePending spks active txid) := by
  refine eval_bind_some (eval_getTxOptional rounds) fun answer _ => ?_
  cases answer with
  | none => rfl
  | some tx => rfl

theorem eval_activeSpksIn {startCp : CheckPoint} {active : List Script}
    (run : (activeSpksIn rounds spks startCp).eval node = some (.ok active)) :
    (node.client rounds).activeSpksIn spks startCp = .ok active := by
  rw [activeSpksIn, eval_bind_ok] at run
  obtain ⟨found, looped, run⟩ := run
  have blocks := eval_forEach (CoreClient.probeEvent spks)
    (fun s event => eval_probeEvent) looped
  rw [CoreClient.activeSpksIn, RpcNode.client_filterIter, blocks, bind_ok]
  rw [eval_bind_some rfl fun _ _ => eval_foldlM_some (fun _ _ => eval_probePending rounds) _] at run
  exact Option.some.inj run

variable {backend : CoreRpcBackend} (same : backend.client = node.client rounds)

include same

theorem eval_collectKeychain {probeCp : CheckPoint} {it : SpkIter} {fuel pos : Nat}
    {s s' : GapSearch}
    (run : (collectKeychain backend.stopGap rounds probeCp it fuel pos s).eval node =
      some (.ok s')) :
    backend.collectKeychain probeCp it fuel pos s = .ok (some s') := by
  induction fuel generalizing pos s with
  | zero => cases run
  | succ fuel ih =>
    rw [collectKeychain] at run
    rw [CoreRpcBackend.collectKeychain]
    split_ifs at run ⊢
    · obtain rfl := returned_inj run
      rfl
    · obtain ⟨active, probed, run⟩ := eval_bind_ok.mp run
      rw [same, eval_activeSpksIn probed, bind_ok]
      dsimp only at run ⊢
      split_ifs at run ⊢
      · obtain rfl := returned_inj run
        rfl
      · exact ih run

theorem eval_collectKeychains {probeCp : CheckPoint} {keychains : List (KeychainKind × SpkIter)}
    {plan plan' : FullScanSpkPlan}
    (run : (collectKeychains backend.stopGap rounds probeCp keychains plan).eval node =
      some (.ok plan')) :
    backend.collectKeychains probeCp rounds keychains plan = .ok (some plan') := by
  induction keychains generalizing plan with
  | nil =>
    obtain rfl := returned_inj run
    rfl
  | cons entry rest ih =>
    obtain ⟨keychain, it⟩ := entry
    obtain ⟨s, searched, run⟩ := eval_bind_ok.mp run
    rw [CoreRpcBackend.collectKeychains, eval_collectKeychain same searched, bind_ok]
    exact ih run

theorem eval_fullScan {req : FullScanRequest} {update : Update}
    (run : (fullScan env backend.stopGap rounds req).eval node = some (.ok update)) :
    backend.fullScan env rounds req = .ok (some update) := by
  obtain ⟨plan, planned, run⟩ := eval_bind_ok.mp run
  obtain ⟨⟨txUpdate, chain⟩, scanned, run⟩ := eval_bind_ok.mp run
  obtain rfl := returned_inj run
  obtain ⟨probeCp, started, collected⟩ := eval_bind_ok.mp planned
  rw [eval_genesisCheckpoint rounds, Option.some.injEq] at started
  have plans : backend.collectFullScanSpks rounds req = .ok (some plan) := by
    rw [CoreRpcBackend.collectFullScanSpks, same, started, bind_ok]
    exact eval_collectKeychains same collected
  rw [CoreRpcBackend.fullScan, plans, bind_ok]
  simp only
  rw [same, eval_scanSpks scanned]
  rfl

end FullScan

end Rpc

namespace Node

variable (env : Primitives) (node : Node)

def lookup (txid : Txid) : Option (Transaction × Option BlockHash) :=
  match node.mempool.find? fun entry => entry.1 = txid with
  | some entry => some (entry.2, none)
  | none => node.chain.findSome? fun b =>
    (b.txdata.find? fun tx => env.computeTxid tx = txid).map fun tx => (tx, some b.hash)

def header (hash : BlockHash) : Option BlockHeaderInfo :=
  (node.chain.zipIdx.find? fun (b, _) => b.hash = hash).map fun (b, h) =>
    { hash := b.hash
      confirmations := node.chain.length - h
      height := UInt64.ofNat h
      time := b.time.toUInt64
      previousBlockHash := if h = 0 then none else node.chain[h - 1]?.map Block.hash
      nextBlockHash := node.chain[h + 1]?.map Block.hash }

def answer {α : Type} (o : Option α) (code : Int) (text : String) : Except RpcError α :=
  match o with
  | some a => .ok a
  | none => .error ⟨text, some (code, bytes text)⟩

def rpc : RpcNode
  | .getBlockHash height =>
    answer (node.chain[height.toNat]?.map Block.hash) (-8) "Block height out of range"
  | .getBlockCount => .ok (UInt64.ofNat (node.chain.length - 1))
  | .getBlockHeaderInfo _ hash => answer (node.header hash) (-5) "Block not found"
  | .getBlockFilter hash =>
    answer ((node.chain.find? fun b => b.hash = hash).map fun b => ⟨fun _ spks =>
      .ok (b.txdata.any fun tx => tx.output.any fun o => spks.contains o.scriptPubkey)⟩) (-5)
      "Block not found"
  | .getBlock hash => answer (node.chain.find? fun b => b.hash = hash) (-5) "Block not found"
  | .getRawMempool => .ok (node.mempool.map Prod.fst)
  | .getRawTransaction txid =>
    answer ((node.lookup env txid).map Prod.fst) (-5) "No such mempool or blockchain transaction"
  | .getRawTransactionInfo txid =>
    answer ((node.lookup env txid).map fun (tx, hash) => ⟨.ok tx, hash⟩) (-5)
      "No such mempool or blockchain transaction"

end Node

end Trinity
