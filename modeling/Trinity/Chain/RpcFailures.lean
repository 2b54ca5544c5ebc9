import Trinity.Chain.SyncEvictions

/-!
Which failed calls a scan or a sync of the Core-RPC backend reports. A failed call
ends it with an error, whatever the node answered before, except at three places
that look up a block header: the block time of `scan_spks`, the anchor of `sync`,
and `find_base` at a checkpoint that is not the last one, if the node does not know
the block. There the method goes on, and what the answer would have said is left
out or made up.
-/
namespace Trinity

open Outcome Dialog

abbrev Exchange : Type := Sigma RpcCall.Answer

/-- The call failed, and not because there is no such transaction. -/
def Exchange.failed : Exchange → Bool
  | ⟨.getRawTransaction _, .error e⟩ => !isNotFound e
  | ⟨.getRawTransactionInfo _, .error e⟩ => !isNotFound e
  | ⟨_, .error _⟩ => true
  | ⟨_, .ok _⟩ => false

/-- The failed lookups the method goes on after. -/
def Exchange.swallowed : Exchange → Bool
  | ⟨.getBlockHeaderInfo (.findBase last) _, .error e⟩ => FilterIter.isNotFound e && !last
  | ⟨.getBlockHeaderInfo .blockTime _, .error _⟩ => true
  | ⟨.getBlockHeaderInfo .anchor _, .error _⟩ => true
  | _ => false

/-- Exactly the failed calls that are not swallowed end the program with an error. -/
abbrev Checked {ε α : Type} (p : Calling ε α) : Prop :=
  p.Heeds (fun x => Exchange.failed x = true ∧ ¬ Exchange.swallowed x = true)
    fun x => Exchange.swallowed x = true

abbrev Plain {ε α : Type} (p : Calling ε α) : Prop := p.Firm fun x => Exchange.swallowed x = true

section Rules

variable {ε ε' α β σ : Type}

theorem failed_error {call : RpcCall} {answer : call.Answer}
    (failed : Exchange.failed ⟨call, answer⟩ = true) : ∃ e, answer = .error e := by
  cases answer with
  | error e => exact ⟨e, rfl⟩
  | ok reply => cases call <;> cases failed

theorem not_swallowed_ok {call : RpcCall} (reply : call.Reply) :
    ¬ Exchange.swallowed ⟨call, .ok reply⟩ = true := by
  intro swallowed
  cases call with
  | getBlockHeaderInfo site hash => cases site <;> cases swallowed
  | _ => cases swallowed

theorem checked_ok {call : RpcCall} (reply : call.Reply) {p : Calling ε α} (later : Checked p) :
    ((Exchange.failed ⟨call, .ok reply⟩ = true ∧ ¬ Exchange.swallowed ⟨call, .ok reply⟩ = true) →
      ∃ e, p = .done (fail e)) ∧
    (Exchange.swallowed ⟨call, .ok reply⟩ = true → Quiet p) ∧ Checked p := by
  refine ⟨fun bad => ?_, fun fine => absurd fine (not_swallowed_ok reply), later⟩
  obtain ⟨e, same⟩ := failed_error bad.1
  cases same

theorem checked_query_bind {call : RpcCall} {f : call.Answer → Calling ε β}
    (each : ∀ answer, ((Exchange.failed ⟨call, answer⟩ = true ∧
        ¬ Exchange.swallowed ⟨call, answer⟩ = true) → ∃ e, f answer = .done (fail e)) ∧
      (Exchange.swallowed ⟨call, answer⟩ = true → Quiet (f answer)) ∧ Checked (f answer)) :
    Checked ((Dialog.query call : Calling ε call.Answer) >>= f) := each

def RpcCall.Strict (call : RpcCall) : Prop :=
  ∀ answer : call.Answer, ¬ Exchange.swallowed ⟨call, answer⟩ = true

theorem checked_orFail (call : RpcCall) (strict : call.Strict) (wrap : RpcError → ε) :
    Checked (Rpc.orFail (Dialog.query call : Calling ε (Except RpcError call.Reply)) wrap) := by
  intro answer
  refine ⟨fun bad => ?_, fun fine => absurd fine (strict answer), heeds_done _⟩
  obtain ⟨e, rfl⟩ := failed_error bad.1
  exact ⟨wrap e, rfl⟩

theorem plain_orFail (call : RpcCall) (strict : call.Strict) (wrap : RpcError → ε) :
    Plain (Rpc.orFail (Dialog.query call : Calling ε (Except RpcError call.Reply)) wrap) :=
  fun answer => ⟨strict answer, firm_done _⟩

theorem checked_orFail_bind {call : RpcCall} (strict : call.Strict) (wrap : RpcError → ε)
    {f : call.Reply → Calling ε β} (rest : ∀ a, Checked (f a)) :
    Checked (Rpc.orFail (Dialog.query call : Calling ε (Except RpcError call.Reply)) wrap >>= f) :=
  (checked_orFail call strict wrap).bind_firm (plain_orFail call strict wrap) rest

theorem quiet_orFail_bind {call : RpcCall} (wrap : RpcError → ε) (f : call.Reply → Calling ε β) :
    Quiet (Rpc.orFail (Dialog.query call : Calling ε (Except RpcError call.Reply)) wrap >>= f) :=
  quiet_ask _ _

theorem checked_done_bind (x : Outcome ε α) {f : α → Calling ε β} (rest : ∀ a, Checked (f a)) :
    Checked ((.done x : Calling ε α) >>= f) :=
  Heeds.bind_firm (heeds_done x) (firm_done x) rest

theorem strict_blockHash (height : UInt64) : (RpcCall.getBlockHash height).Strict := by
  intro answer swallowed
  cases swallowed

theorem strict_blockCount : RpcCall.getBlockCount.Strict := by
  intro answer swallowed
  cases swallowed

theorem strict_blockFilter (hash : BlockHash) : (RpcCall.getBlockFilter hash).Strict := by
  intro answer swallowed
  cases swallowed

theorem strict_block (hash : BlockHash) : (RpcCall.getBlock hash).Strict := by
  intro answer swallowed
  cases swallowed

theorem strict_mempool : RpcCall.getRawMempool.Strict := by
  intro answer swallowed
  cases swallowed

theorem strict_header {site : HeaderSite} (inNext : site = .next ∨ site = .rewind)
    (hash : BlockHash) : (RpcCall.getBlockHeaderInfo site hash).Strict := by
  intro answer swallowed
  rcases inNext with rfl | rfl
  · cases swallowed
  · cases swallowed

end Rules

namespace Rpc

theorem checked_genesisCheckpoint : Checked genesisCheckpoint :=
  checked_orFail_bind (strict_blockHash 0) mapRpc fun _ => heeds_pure _

theorem plain_genesisCheckpoint : Plain genesisCheckpoint :=
  (plain_orFail _ (strict_blockHash 0) mapRpc).bind fun _ => firm_pure _

theorem checked_tipCheckpoint : Checked tipCheckpoint :=
  checked_orFail_bind strict_blockCount mapRpc fun height => checked_done_bind _ fun _ =>
    checked_orFail_bind (strict_blockHash height) mapRpc fun _ =>
      checked_genesisCheckpoint.bind_firm plain_genesisCheckpoint fun _ => heeds_done _

theorem quiet_getTxOptional (txid : Txid) : Quiet (getTxOptional txid) := quiet_ask _ _

theorem checked_getTxOptional (txid : Txid) : Checked (getTxOptional txid) := by
  refine checked_query_bind fun answer => ?_
  cases answer with
  | ok tx => exact checked_ok tx (heeds_pure _)
  | error e =>
    refine ⟨fun bad => ?_, fun fine => absurd fine Bool.false_ne_true, ?_⟩
    · have lost : ¬ isNotFound e = true := by simpa [Exchange.failed] using bad.1
      exact ⟨lookupError txid e, if_neg lost⟩
    · dsimp only
      split_ifs
      · exact heeds_pure _
      · exact heeds_done _

theorem checked_lookup {β : Type} (txid : Txid) {f : Option Transaction → Rpc β}
    (noted : ∀ answer, ∃ b, f answer = pure b) :
    Checked (getTxOptional txid >>= f) ∧ Quiet (getTxOptional txid >>= f) := by
  have quiet (answer : Option Transaction) : Quiet (f answer) := by
    obtain ⟨b, same⟩ := noted answer
    rw [same]
    exact quiet_pure b
  refine ⟨(checked_getTxOptional txid).bind (fun answer => ?_) quiet,
    (quiet_getTxOptional txid).bind quiet⟩
  obtain ⟨b, same⟩ := noted answer
  rw [same]
  exact heeds_pure b

end Rpc

namespace FilterIter

open Rpc

theorem checked_findBase (entries : List BlockId) : Checked (findBase entries) := by
  induction entries with
  | nil => exact heeds_done _
  | cons b rest ih =>
    refine checked_query_bind fun answer => ?_
    cases answer with
    | ok header =>
      apply checked_ok header
      dsimp only
      split_ifs
      · exact ih
      · exact heeds_pure _
    | error e =>
      dsimp only
      by_cases unknown : isNotFound e = true
      · simp only [Exchange.failed, Exchange.swallowed, unknown, Bool.true_and,
          Bool.not_eq_true', List.isEmpty_eq_false_iff, true_and, Decidable.not_not]
        refine ⟨?_, ?_, ih⟩
        · rintro rfl
          exact ⟨_, rfl⟩
        · intro more
          obtain ⟨b', rest', rfl⟩ := List.exists_cons_of_ne_nil more
          exact quiet_ask _ _
      · rw [if_neg unknown]
        refine ⟨fun _ => ⟨_, rfl⟩, fun fine => ?_, heeds_done _⟩
        simp [Exchange.swallowed, unknown] at fine

theorem quiet_base (it : FilterIter) : Quiet it.base := by
  unfold base
  cases it.header with
  | some header => exact quiet_pure _
  | none =>
    obtain ⟨b, rest, entries⟩ := List.exists_cons_of_ne_nil it.cp.nonempty
    rw [entries]
    exact quiet_ask _ _

theorem checked_rewind (rounds : Nat) (header : BlockHeaderInfo) :
    Checked (rewind rounds header) ∧ Plain (rewind rounds header) := by
  induction rounds generalizing header with
  | zero => exact ⟨heeds_halt, firm_halt⟩
  | succ rounds ih =>
    rw [rewind]
    split_ifs
    · exact ⟨checked_done_bind _ fun hash => checked_orFail_bind (strict_header (.inr rfl) hash) _
          fun header => (ih header).1,
        Firm.bind (firm_done _) fun hash =>
          (plain_orFail _ (strict_header (.inr rfl) hash) _).bind fun header => (ih header).2⟩
    · exact ⟨heeds_pure _, firm_pure _⟩

theorem checked_base (it : FilterIter) : Checked it.base := by
  unfold base
  cases it.header with
  | some header => exact heeds_pure _
  | none => exact checked_findBase _

theorem checked_next (rounds : Nat) (it : FilterIter) :
    Checked (it.next rounds) ∧ Quiet (it.next rounds) := by
  have checked (header : BlockHeaderInfo) (hash : BlockHash) : Checked (do
      let header ← orFail (getBlockHeaderInfo .next hash) FilterError.rpc
      let header ← rewind rounds header
      .done (rejectIf (2 ^ 32 ≤ header.height.toNat) .tryFromInt)
      let cp ← .done (expect (it.cp.insert ⟨header.height.toUInt32, header.hash⟩).toOption)
      let filter ← orFail (getBlockFilter header.hash) .rpc
      let matched ← .done (ofExcept (filter.matchAny header.hash it.spks) .bip158)
      if matched then do
        let block ← orFail (getBlock header.hash) .rpc
        return some (⟨cp, some block⟩, ⟨it.spks, cp, some header⟩)
      else return some ((⟨cp, none⟩, ⟨it.spks, cp, some header⟩) : FilterEvent × FilterIter)) := by
    refine checked_orFail_bind (strict_header (.inl rfl) hash) _ fun header => ?_
    refine (checked_rewind rounds header).1.bind_firm (checked_rewind rounds header).2
      fun header => ?_
    refine checked_done_bind _ fun _ => checked_done_bind _ fun cp => ?_
    refine checked_orFail_bind (strict_blockFilter header.hash) _ fun filter => ?_
    refine checked_done_bind _ fun matched => ?_
    split_ifs
    · exact checked_orFail_bind (strict_block header.hash) _ fun _ => heeds_pure _
    · exact heeds_pure _
  constructor
  · refine (checked_base it).bind (fun header => ?_) fun header => ?_
    · cases header.nextBlockHash with
      | none => exact heeds_pure _
      | some hash => exact checked header hash
    · cases header.nextBlockHash with
      | none => exact quiet_pure _
      | some hash => exact quiet_orFail_bind _ _
  · refine (quiet_base it).bind fun header => ?_
    cases header.nextBlockHash with
    | none => exact quiet_pure _
    | some hash => exact quiet_orFail_bind _ _

theorem checked_forEach {σ : Type} (wrap : FilterError → ChainError)
    {body : σ → FilterEvent → Rpc σ} (each : ∀ s event, Checked (body s event))
    (quiet : ∀ s event, Quiet (body s event)) (rounds : Nat) (it : FilterIter) (s : σ) :
    Checked (forEach wrap body rounds it s) ∧ Quiet (forEach wrap body rounds it s) := by
  induction rounds generalizing it s with
  | zero => exact ⟨heeds_halt, quiet_halt⟩
  | succ rounds ih =>
    obtain ⟨checked, asks⟩ := checked_next rounds it
    have turn (entry : FilterEvent × FilterIter) :
        Checked (body s entry.1 >>= forEach wrap body rounds entry.2) ∧
          Quiet (body s entry.1 >>= forEach wrap body rounds entry.2) :=
      ⟨(each s entry.1).bind (fun s => (ih entry.2 s).1) fun s => (ih entry.2 s).2,
        (quiet s entry.1).bind fun s => (ih entry.2 s).2⟩
    constructor
    · refine (checked.mapErr wrap).bind (fun answer => ?_) fun answer => ?_
      · cases answer with
        | none => exact heeds_pure _
        | some entry => exact (turn entry).1
      · cases answer with
        | none => exact quiet_pure _
        | some entry => exact (turn entry).2
    · refine (asks.mapErr wrap).bind fun answer => ?_
      cases answer with
      | none => exact quiet_pure _
      | some entry => exact (turn entry).2

end FilterIter

namespace Rpc

variable (env : Primitives) (spks : List Script) (rounds stopGap : Nat)

theorem checked_scanEvent (startTime : UInt64) (s : RpcScan × CheckPoint) (event : FilterEvent) :
    Checked (scanEvent env spks startTime s event) ∧
      Quiet (scanEvent env spks startTime s event) := by
  unfold scanEvent
  cases event.block with
  | none => exact ⟨heeds_pure _, quiet_pure _⟩
  | some block =>
    refine ⟨fun answer => ⟨fun bad => ?_, fun _ => quiet_pure _, heeds_pure _⟩, quiet_ask _ _⟩
    obtain ⟨e, rfl⟩ := failed_error bad.1
    exact absurd rfl bad.2

theorem checked_collectPending (seen listing : List Txid) :
    Checked (collectPending seen listing) ∧ Quiet (collectPending seen listing) := by
  induction listing with
  | nil => exact ⟨heeds_pure _, quiet_pure _⟩
  | cons txid rest ih =>
    rw [collectPending]
    split_ifs
    · exact ih
    · exact ⟨(checked_getTxOptional txid).bind
          (fun _ => ih.1.bind (fun _ => heeds_pure _) fun _ => quiet_pure _)
          fun _ => ih.2.bind fun _ => quiet_pure _,
        (quiet_getTxOptional txid).bind fun _ => ih.2.bind fun _ => quiet_pure _⟩

theorem checked_startCheckpoint (chainTip : Option CheckPoint) :
    Checked (startCheckpoint chainTip) ∧ Quiet (startCheckpoint chainTip) := by
  cases chainTip with
  | some cp => exact ⟨heeds_pure _, quiet_pure _⟩
  | none => exact ⟨checked_genesisCheckpoint, quiet_orFail_bind _ _⟩

theorem checked_scanSpks (chainTip : Option CheckPoint) (startTime : UInt64)
    (seed : List OutPoint) :
    Checked (scanSpks env spks rounds chainTip startTime seed) ∧
      Quiet (scanSpks env spks rounds chainTip startTime seed) := by
  have scan (startCp : CheckPoint) :
      Checked (scanFrom env spks rounds startCp startTime seed) ∧
        Quiet (scanFrom env spks rounds startCp startTime seed) := by
    have blocks := FilterIter.checked_forEach (fun e => .network s!"filter scan: {e.text}")
      (fun s event => (checked_scanEvent env spks startTime s event).1)
      (fun s event => (checked_scanEvent env spks startTime s event).2) rounds
      (.new startCp spks) (⟨seed, [], ⟨[], [], []⟩⟩, startCp)
    refine ⟨blocks.1.bind (fun scanned => ?_) fun scanned => quiet_orFail_bind _ _,
      blocks.2.bind fun scanned => quiet_orFail_bind _ _⟩
    exact checked_orFail_bind strict_mempool _ fun mempool =>
      (checked_collectPending _ mempool).1.bind (fun _ => heeds_pure _) fun _ => quiet_pure _
  obtain ⟨start, quiet⟩ := checked_startCheckpoint chainTip
  constructor
  · refine start.bind (fun startCp => ?_) fun startCp => ?_
    · split_ifs
      · exact checked_tipCheckpoint.bind (fun _ => heeds_pure _) fun _ => quiet_pure _
      · exact (scan startCp).1
    · split_ifs
      · exact quiet_ask _ _
      · exact (scan startCp).2
  · refine quiet.bind fun startCp => ?_
    split_ifs
    · exact quiet_ask _ _
    · exact (scan startCp).2

theorem checked_activeSpksIn (startCp : CheckPoint) :
    Checked (activeSpksIn rounds spks startCp) ∧ Quiet (activeSpksIn rounds spks startCp) := by
  have probes (active : List Script) (event : FilterEvent) :
      Checked (probeEvent spks active event) ∧ Quiet (probeEvent spks active event) := by
    unfold probeEvent
    cases event.block with
    | none => exact ⟨heeds_pure _, quiet_pure _⟩
    | some block => exact ⟨heeds_pure _, quiet_pure _⟩
  have pending (active : List Script) (txid : Txid) :
      Checked (probePending spks active txid) ∧ Quiet (probePending spks active txid) := by
    refine checked_lookup txid fun answer => ?_
    cases answer with
    | none => exact ⟨_, rfl⟩
    | some tx => exact ⟨_, rfl⟩
  have blocks := FilterIter.checked_forEach (fun e => .network s!"filter probe: {e.text}")
    (fun s event => (probes s event).1) (fun s event => (probes s event).2) rounds
    (.new startCp spks) []
  refine ⟨blocks.1.bind (fun active => ?_) fun active => quiet_orFail_bind _ _,
    blocks.2.bind fun active => quiet_orFail_bind _ _⟩
  exact checked_orFail_bind strict_mempool _ fun mempool =>
    heeds_foldlM (fun s txid => (pending s txid).1) (fun s txid => (pending s txid).2) _

theorem checked_collectKeychain (probeCp : CheckPoint) (it : SpkIter) (fuel pos : Nat)
    (s : GapSearch) :
    Checked (collectKeychain stopGap rounds probeCp it fuel pos s) ∧
      Quiet (collectKeychain stopGap rounds probeCp it fuel pos s) := by
  induction fuel generalizing pos s with
  | zero => exact ⟨heeds_halt, quiet_halt⟩
  | succ fuel ih =>
    rw [collectKeychain]
    dsimp only
    split_ifs
    · exact ⟨heeds_pure _, quiet_pure _⟩
    · obtain ⟨checked, quiet⟩ :=
        checked_activeSpksIn ((it.take pos stopGap).map Prod.snd) rounds probeCp
      refine ⟨checked.bind (fun active => ?_) fun active => ?_, quiet.bind fun active => ?_⟩
      · split_ifs
        · exact heeds_pure _
        · exact (ih _ _).1
      · split_ifs
        · exact quiet_pure _
        · exact (ih _ _).2
      · split_ifs
        · exact quiet_pure _
        · exact (ih _ _).2

theorem checked_collectKeychains (probeCp : CheckPoint) (keychains : List (KeychainKind × SpkIter))
    (plan : FullScanSpkPlan) :
    Checked (collectKeychains stopGap rounds probeCp keychains plan) ∧
      Quiet (collectKeychains stopGap rounds probeCp keychains plan) := by
  induction keychains generalizing plan with
  | nil => exact ⟨heeds_pure _, quiet_pure _⟩
  | cons entry rest ih =>
    obtain ⟨checked, quiet⟩ :=
      checked_collectKeychain rounds stopGap probeCp entry.2 rounds 0 ⟨0, none, plan.spks⟩
    exact ⟨checked.bind (fun s => (ih _).1) fun s => (ih _).2, quiet.bind fun s => (ih _).2⟩

theorem checked_fullScan (req : FullScanRequest) : Checked (fullScan env stopGap rounds req) := by
  have plans : Checked (collectFullScanSpks stopGap rounds req) :=
    checked_genesisCheckpoint.bind_firm plain_genesisCheckpoint fun probeCp =>
      (checked_collectKeychains rounds stopGap probeCp req.keychains _).1
  have scans (plan : FullScanSpkPlan) :=
    checked_scanSpks env plan.spks rounds req.chainTip req.startTime []
  exact plans.bind (fun plan => (scans plan).1.bind (fun _ => heeds_pure _) fun _ => quiet_pure _)
    fun plan => (scans plan).2.bind fun _ => quiet_pure _

section Sync

variable (order : HashOrder) (req : CoreSyncRequest)

theorem checked_syncScan : Checked (syncScan env order rounds req) := by
  have expected (s : List Txid × List OutPoint) (txid : Txid) :
      Checked (lookupExpected (req.spks.map Prod.snd) s txid) ∧
        Quiet (lookupExpected (req.spks.map Prod.snd) s txid) := by
    refine checked_lookup txid fun answer => ?_
    cases answer with
    | none => exact ⟨_, rfl⟩
    | some tx => exact ⟨_, rfl⟩
  have scans (seed : List OutPoint) :=
    checked_scanSpks env (req.spks.map Prod.snd) rounds req.chainTip req.startTime seed
  refine Heeds.bind (heeds_foldlM (fun s txid => (expected s txid).1)
    (fun s txid => (expected s txid).2) _) (fun looked => ?_) fun looked => ?_
  · exact (scans _).1.bind (fun _ => heeds_pure _) fun _ => quiet_pure _
  · exact (scans _).2.bind fun _ => quiet_pure _

theorem checked_anchorOf (info : RawTransactionInfo) :
    Checked (anchorOf info) ∧ Quiet (anchorOf info) := by
  unfold anchorOf
  cases info.blockhash with
  | none => exact ⟨heeds_pure _, quiet_pure _⟩
  | some hash =>
    refine ⟨checked_query_bind fun answer => ?_, quiet_ask _ _⟩
    cases answer with
    | error e => exact ⟨fun bad => absurd rfl bad.2, fun _ => quiet_pure _, heeds_pure _⟩
    | ok header =>
      apply checked_ok header
      dsimp only
      split_ifs
      · exact heeds_pure _
      · exact heeds_pure _

theorem checked_lookupTxid (s : SyncState) (txid : Txid) :
    Checked (lookupTxid req s txid) ∧ Quiet (lookupTxid req s txid) := by
  unfold lookupTxid
  split_ifs
  · exact ⟨heeds_pure _, quiet_pure _⟩
  · refine ⟨checked_query_bind fun answer => ?_, quiet_ask _ _⟩
    cases answer with
    | ok info =>
      apply checked_ok info
      refine checked_done_bind _ fun tx => (checked_anchorOf info).1.bind (fun anchor => ?_)
        fun anchor => ?_
      · cases anchor with
        | some anchor => exact heeds_pure _
        | none => exact heeds_pure _
      · cases anchor with
        | some anchor => exact quiet_pure _
        | none => exact quiet_pure _
    | error e =>
      refine ⟨fun bad => ?_, fun fine => absurd fine Bool.false_ne_true, ?_⟩
      · have lost : ¬ isNotFound e = true := by simpa [Exchange.failed] using bad.1
        exact ⟨lookupError txid e, if_neg lost⟩
      · dsimp only
        split_ifs
        · exact heeds_pure _
        · exact heeds_done _

theorem checked_lookupOutpoint (s : SyncState) (op : OutPoint) :
    Checked (lookupOutpoint s op) ∧ Quiet (lookupOutpoint s op) := by
  unfold lookupOutpoint
  split_ifs
  · exact ⟨heeds_pure _, quiet_pure _⟩
  · refine checked_lookup op.txid fun answer => ?_
    cases answer with
    | none => exact ⟨_, rfl⟩
    | some tx => exact ⟨_, rfl⟩

theorem checked_sync : Checked (sync env order rounds req) := by
  have outpoints (s : SyncState) : Checked (req.outpoints.foldlM lookupOutpoint s) ∧
      Quiet (req.outpoints.foldlM lookupOutpoint s) :=
    ⟨heeds_foldlM (fun s op => (checked_lookupOutpoint s op).1)
        (fun s op => (checked_lookupOutpoint s op).2) s,
      quiet_foldlM (fun s op => (checked_lookupOutpoint s op).2) s⟩
  have txids (s : SyncState) : Checked (req.txids.foldlM (lookupTxid req) s) ∧
      Quiet (req.txids.foldlM (lookupTxid req) s) :=
    ⟨heeds_foldlM (fun s txid => (checked_lookupTxid req s txid).1)
        (fun s txid => (checked_lookupTxid req s txid).2) s,
      quiet_foldlM (fun s txid => (checked_lookupTxid req s txid).2) s⟩
  refine (checked_syncScan env rounds order req).bind (fun scanned => ?_) fun scanned => ?_
  · refine (txids _).1.bind (fun s => ?_) fun s => ?_
    · exact (outpoints s).1.bind (fun _ => heeds_pure _) fun _ => quiet_pure _
    · exact (outpoints s).2.bind fun _ => quiet_pure _
  · exact (txids _).2.bind fun s => (outpoints s).2.bind fun _ => quiet_pure _

end Sync

end Rpc

/-- However the node answers, a failed call of a full scan or of a sync is its last
    one and the method returns an error, exactly if the call is not one of the header
    lookups that are swallowed. -/
theorem failed_calls_reported_iff (env : Primitives) (stopGap rounds : Nat) (order : HashOrder)
    (before after : List Exchange) (x : Exchange) (failed : Exchange.failed x = true) :
    (∀ req result, Run (Rpc.fullScan env stopGap rounds req) (before ++ x :: after) result →
      ((after = [] ∧ ∃ e, result = some (fail e)) ↔ ¬ Exchange.swallowed x = true)) ∧
    ∀ req result, Run (Rpc.sync env order rounds req) (before ++ x :: after) result →
      ((after = [] ∧ ∃ e, result = some (fail e)) ↔ ¬ Exchange.swallowed x = true) := by
  constructor
  · intro req result run
    obtain ⟨reported, goesOn⟩ := (Rpc.checked_fullScan env rounds stopGap req).run run rfl
    exact ⟨fun ends fine => goesOn fine ends, fun strict => reported ⟨failed, strict⟩⟩
  · intro req result run
    obtain ⟨reported, goesOn⟩ := (Rpc.checked_sync env rounds order req).run run rfl
    exact ⟨fun ends fine => goesOn fine ends, fun strict => reported ⟨failed, strict⟩⟩

namespace Sample

def headerless : RpcNode
  | .getBlockHeaderInfo _ _ => .error ⟨"timed out", none⟩
  | call => scannedNode.rpc mempoolEnv call

def flaky (past : List Exchange) : RpcNode :=
  match past.getLast? with
  | some ⟨.getBlock _, _⟩ => headerless
  | _ => scannedNode.rpc mempoolEnv

def mempoolless : RpcNode
  | .getRawMempool => .error ⟨"timed out", none⟩
  | call => scannedNode.rpc mempoolEnv call

def confirmRequest : CoreSyncRequest where
  chainTip := none
  spks := []
  spkExpectedTxids _ := []
  txids := [depositTxid]
  outpoints := []
  startTime := 1700001200

def confirmRun : List Exchange × Option (Outcome ChainError CoreUpdate) :=
  (Rpc.sync mempoolEnv hashOrder 5 confirmRequest).play (fun _ => headerless) []

def flakyRun : List Exchange × Option (Outcome ChainError Update) :=
  (Rpc.fullScan mempoolEnv 20 5 (scanRequest none)).play flaky []

def mempoollessRun : List Exchange × Option (Outcome ChainError Update) :=
  (Rpc.fullScan mempoolEnv 20 5 (scanRequest none)).play (fun _ => mempoolless) []

theorem confirmRun_seen :
    (confirmRun.2.bind fun result => result.toOption.map fun update =>
      (update.txUpdate.anchors, update.txUpdate.seenAts)) =
    some ([], [(depositTxid, 1700001200)]) := by
  decide

theorem flakyRun_anchored :
    (flakyRun.2.bind fun result => result.toOption.map fun update => update.txUpdate.anchors) =
    some [(⟨⟨1, blockHash 1⟩, 1700001200⟩, depositTxid)] := by
  decide

end Sample

/-- A full scan that cannot list the mempool returns an error. -/
theorem failed_calls_sample : ∃ before x result e,
    Run (Rpc.fullScan Sample.mempoolEnv 20 5 (Sample.scanRequest none)) (before ++ [x]) result ∧
    Exchange.failed x = true ∧ result = some (fail e) := by
  have run := play_run (fun _ => Sample.mempoolless)
    (Rpc.fullScan Sample.mempoolEnv 20 5 (Sample.scanRequest none)) []
  have split : Sample.mempoollessRun.1 = Sample.mempoollessRun.1.dropLast ++
      [⟨.getRawMempool, .error ⟨"timed out", none⟩⟩] := rfl
  have run : Run (Rpc.fullScan Sample.mempoolEnv 20 5 (Sample.scanRequest none))
      (Sample.mempoollessRun.1.dropLast ++ [⟨.getRawMempool, .error ⟨"timed out", none⟩⟩])
      Sample.mempoollessRun.2 := split ▸ run
  obtain ⟨_, e, stopped⟩ := ((failed_calls_reported_iff Sample.mempoolEnv 20 5 Sample.hashOrder
    _ [] _ rfl).1 (Sample.scanRequest none) _ run).mpr (by decide)
  exact ⟨_, _, _, e, run, rfl, stopped⟩

/-- A header lookup that fails is not reported. The node says that the deposit is
    in the second block, and it is returned as merely seen; the node gives the
    time of that block, and the deposit is returned with the time of the scan. -/
theorem failed_header_unreported :
    (∃ past update,
      Run (Rpc.sync Sample.mempoolEnv Sample.hashOrder 5 Sample.confirmRequest) past
        (some (.ok update)) ∧
      (∃ x ∈ past, Exchange.failed x = true) ∧
      (⟨.getRawTransactionInfo Sample.depositTxid,
        .ok ⟨.ok Sample.deposit, some (Sample.blockHash 1)⟩⟩ : Exchange) ∈ past ∧
      update.txUpdate.anchors = [] ∧
      update.txUpdate.seenAts = [(Sample.depositTxid, 1700001200)]) ∧
    ∃ past update,
      Run (Rpc.fullScan Sample.mempoolEnv 20 5 (Sample.scanRequest none)) past
        (some (.ok update)) ∧
      (∃ x ∈ past, Exchange.failed x = true) ∧
      (∃ header : BlockHeaderInfo, header.time = 1700000600 ∧
        (⟨.getBlockHeaderInfo .next (Sample.blockHash 1), .ok header⟩ : Exchange) ∈ past) ∧
      update.txUpdate.anchors =
        [(⟨⟨1, Sample.blockHash 1⟩, 1700001200⟩, Sample.depositTxid)] := by
  constructor
  · obtain ⟨update, finished, same⟩ := returned_of_shown Sample.confirmRun_seen
    have run := play_run (fun _ => Sample.headerless)
      (Rpc.sync Sample.mempoolEnv Sample.hashOrder 5 Sample.confirmRequest) []
    refine ⟨Sample.confirmRun.1, update, finished ▸ run, ?_, ?_, congrArg Prod.fst same,
      congrArg Prod.snd same⟩
    · exact List.any_eq_true.mp (by decide)
    · exact List.mem_of_getElem? (i := 4) rfl
  · obtain ⟨update, finished, same⟩ := returned_of_shown Sample.flakyRun_anchored
    have run := play_run Sample.flaky
      (Rpc.fullScan Sample.mempoolEnv 20 5 (Sample.scanRequest none)) []
    refine ⟨Sample.flakyRun.1, update, finished ▸ run, ?_, ?_, same⟩
    · exact List.any_eq_true.mp (by decide)
    · exact ⟨⟨Sample.blockHash 1, 1, 1, 1700000600, some (Sample.blockHash 0), none⟩, rfl,
        List.mem_of_getElem? (i := 2) rfl⟩

end Trinity
