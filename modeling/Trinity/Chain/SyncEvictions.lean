import Trinity.Chain.SteadyNode

/-!
What `sync` of the Core-RPC backend evicts. Four loops add to the transactions
that are present: the lookups of the expected ones, the scan, the lookups of the
requested ids, and those of the requested outpoints. An id is evicted if the node
does not find it and the scan did not return it.
-/
namespace Trinity

open Outcome Dialog

namespace RpcNode

variable (env : Primitives) (node : RpcNode)

def Holds (txid : Txid) : Prop := ∃ tx, node.rawTransaction txid = .ok tx

def NotFound (txid : Txid) : Prop :=
  ∃ e, node.rawTransaction txid = .error e ∧ isNotFound e = true

/-- A lookup returns the transaction it was asked for, and the two ways to look
    one up agree. -/
structure Consistent : Prop where
  asked : ∀ txid tx, node.rawTransaction txid = .ok tx → env.computeTxid tx = txid
  found : ∀ txid info, node.rawTransactionInfo txid = .ok info →
    ∃ tx, node.rawTransaction txid = .ok tx ∧ ∀ tx', info.transaction = .ok tx' → tx' = tx
  failed : ∀ txid e, node.rawTransactionInfo txid = .error e →
    ∃ e', node.rawTransaction txid = .error e' ∧ isNotFound e' = isNotFound e

variable {node}

theorem Holds.found {txid : Txid} (holds : node.Holds txid) : ¬ node.NotFound txid := by
  obtain ⟨tx, held⟩ := holds
  rintro ⟨e, failed, _⟩
  rw [held] at failed
  cases failed

theorem lost {txid : Txid} {e : RpcError} (failed : node.rawTransaction txid = .error e)
    (other : isNotFound e = false) : ¬ (node.Holds txid ∨ node.NotFound txid) := by
  rintro (⟨tx, held⟩ | ⟨e', failed', gone⟩)
  · rw [held] at failed
    cases failed
  · obtain rfl := Except.error.inj (failed.symm.trans failed')
    rw [other] at gone
    cases gone

end RpcNode

def CoreSyncRequest.Expects (req : CoreSyncRequest) (txid : Txid) : Prop :=
  ∃ entry ∈ req.spks, txid ∈ req.spkExpectedTxids entry.2

structure SyncState.Sound (env : Primitives) (node : RpcNode) (startTime : UInt64)
    (scanned asked : List Txid) (s : SyncState) : Prop where
  once : (s.txUpdate.txs.map env.computeTxid).Nodup
  returned : ∀ txid ∈ s.txUpdate.txs.map env.computeTxid, txid ∈ s.present
  kept : ∀ txid ∈ scanned, txid ∈ s.present
  present : ∀ txid ∈ s.present, txid ∈ scanned ∨ node.Holds txid
  evicted : ∀ txid time, (txid, time) ∈ s.txUpdate.evictedAts ↔
    time = startTime ∧ txid ∈ asked ∧ node.NotFound txid ∧ txid ∉ scanned

namespace SyncState.Sound

variable {env : Primitives} {node : RpcNode} {startTime : UInt64} {scanned asked : List Txid}
  {s : SyncState}

theorem push (sound : s.Sound env node startTime scanned asked) {tx : Transaction}
    (new : env.computeTxid tx ∉ s.present) (holds : node.Holds (env.computeTxid tx))
    {update : CoreTxUpdate} (txs : update.txs = s.txUpdate.txs ++ [tx])
    (evicted : update.evictedAts = s.txUpdate.evictedAts) :
    SyncState.Sound env node startTime scanned asked
      ⟨env.computeTxid tx :: s.present, update⟩ where
  once := by
    rw [txs, List.map_append, List.map_singleton, ← List.concat_eq_append]
    exact sound.once.concat fun old => new (sound.returned _ old)
  returned txid member := by
    rw [txs, List.map_append, List.map_singleton, List.mem_append, List.mem_singleton] at member
    rw [List.mem_cons]
    exact member.symm.imp_right (sound.returned txid)
  kept txid member := List.mem_cons_of_mem _ (sound.kept txid member)
  present txid member := by
    rcases List.mem_cons.mp member with rfl | old
    · exact .inr holds
    · exact sound.present txid old
  evicted txid time := by
    rw [evicted]
    exact sound.evicted txid time

theorem skip (sound : s.Sound env node startTime scanned asked) {txid : Txid}
    (present : txid ∈ scanned ∨ node.Holds txid) :
    s.Sound env node startTime scanned (asked ++ [txid]) := by
  refine ⟨sound.once, sound.returned, sound.kept, sound.present, fun id time => ?_⟩
  rw [sound.evicted, List.mem_append, List.mem_singleton]
  refine and_congr_right fun _ => and_congr_left fun gone => ⟨.inl, fun member => ?_⟩
  refine member.resolve_right ?_
  rintro rfl
  rcases present with old | holds
  · exact gone.2 old
  · exact holds.found gone.1

theorem evict (sound : s.Sound env node startTime scanned asked) {txid : Txid}
    (gone : node.NotFound txid) (absent : txid ∉ s.present) :
    SyncState.Sound env node startTime scanned (asked ++ [txid]) ⟨s.present,
      { s.txUpdate with evictedAts := s.txUpdate.evictedAts.insert (txid, startTime) }⟩ := by
  refine ⟨sound.once, sound.returned, sound.kept, sound.present, fun id time => ?_⟩
  rw [List.mem_insert_iff, sound.evicted, Prod.mk.injEq, List.mem_append, List.mem_singleton]
  constructor
  · rintro (⟨rfl, rfl⟩ | ⟨rfl, member, rest⟩)
    · exact ⟨rfl, .inr rfl, gone, fun old => absent (sound.kept _ old)⟩
    · exact ⟨rfl, .inl member, rest⟩
  · rintro ⟨rfl, member | rfl, rest⟩
    · exact .inr ⟨rfl, member, rest⟩
    · exact .inl ⟨rfl, rfl⟩

theorem apart (sound : s.Sound env node startTime scanned asked) {txid : Txid} {time : UInt64}
    (evicted : (txid, time) ∈ s.txUpdate.evictedAts) :
    txid ∉ s.txUpdate.txs.map env.computeTxid := by
  obtain ⟨_, _, gone, unscanned⟩ := (sound.evicted txid time).mp evicted
  intro returned
  rcases sound.present txid (sound.returned txid returned) with old | holds
  · exact unscanned old
  · exact holds.found gone

end SyncState.Sound

section Expected

variable {req : CoreSyncRequest}

theorem mem_foldl_expected {entries : List (KeychainIndex × Script)}
    {map : List (Script × List Txid)} (own : ∀ e ∈ map, e.2 = req.spkExpectedTxids e.1)
    (e : Script × List Txid) :
    e ∈ entries.foldl (fun map entry =>
        (entry.2, req.spkExpectedTxids entry.2) :: map.filter fun e => e.1 ≠ entry.2) map ↔
      e ∈ map ∨ e.2 = req.spkExpectedTxids e.1 ∧ e.1 ∈ entries.map Prod.snd := by
  induction entries generalizing map with
  | nil => simp
  | cons entry rest ih =>
    have step : ∀ e', e' ∈ (entry.2, req.spkExpectedTxids entry.2) ::
        map.filter (fun e => e.1 ≠ entry.2) ↔
          e' ∈ map ∨ e'.2 = req.spkExpectedTxids e'.1 ∧ e'.1 = entry.2 := by
      rintro ⟨spk, txids⟩
      simp only [List.mem_cons, List.mem_filter, decide_eq_true_eq, Prod.mk.injEq]
      constructor
      · rintro (⟨rfl, rfl⟩ | ⟨member, _⟩)
        · exact .inr ⟨rfl, rfl⟩
        · exact .inl member
      · rintro (member | ⟨rfl, rfl⟩)
        · by_cases same : spk = entry.2
          · subst same
            exact .inl ⟨rfl, own _ member⟩
          · exact .inr ⟨member, same⟩
        · exact .inl ⟨rfl, rfl⟩
    rw [List.foldl_cons, ih, step, List.map_cons, List.mem_cons, or_assoc]
    · refine or_congr_right ?_
      rw [← and_or_left]
    · intro e' member
      rcases (step e').mp member with old | new
      · exact own e' old
      · exact new.1

theorem mem_expected (order : HashOrder) (txid : Txid) :
    txid ∈ (order.entries req.expected).flatMap Prod.snd ↔ req.Expects txid := by
  have entries (e : Script × List Txid) : e ∈ order.entries req.expected ↔
      e.2 = req.spkExpectedTxids e.1 ∧ e.1 ∈ req.spks.map Prod.snd := by
    rw [(order.perm _).mem_iff, CoreSyncRequest.expected, mem_foldl_expected (by simp)]
    simp
  rw [List.mem_flatMap]
  constructor
  · rintro ⟨e, member, inside⟩
    obtain ⟨own, listed⟩ := (entries e).mp member
    obtain ⟨entry, here, same⟩ := List.mem_map.mp listed
    exact ⟨entry, here, same ▸ own ▸ inside⟩
  · rintro ⟨entry, here, inside⟩
    exact ⟨(entry.2, req.spkExpectedTxids entry.2),
      (entries _).mpr ⟨rfl, List.mem_map_of_mem here⟩, inside⟩

end Expected

namespace Rpc

variable {env : Primitives} {node : RpcNode} {spks : List Script}

section Lookups

theorem getTxOptional_ok {txid : Txid} {answer : Option Transaction}
    (run : (getTxOptional txid).eval node = some (.ok answer)) :
    (∃ tx, answer = some tx ∧ node.rawTransaction txid = .ok tx) ∨
      answer = none ∧ node.NotFound txid := by
  rw [getTxOptional, eval_bind_of_ok (eval_getRawTransaction txid)] at run
  cases held : node.rawTransaction txid with
  | ok tx =>
    rw [held] at run
    exact .inl ⟨tx, (returned_inj run).symm, rfl⟩
  | error e =>
    rw [held] at run
    dsimp only at run
    split_ifs at run with gone
    · exact .inr ⟨(returned_inj run).symm, e, held, gone⟩
    · simp [fail] at run

theorem getTxOptional_total (node : RpcNode) (txid : Txid) :
    (∃ answer, (getTxOptional txid).eval node = some (.ok answer)) ∨
      ∃ e, (getTxOptional txid).eval node = some (fail e) := by
  rw [getTxOptional, eval_bind_of_ok (eval_getRawTransaction txid)]
  cases node.rawTransaction txid with
  | ok tx => exact .inl ⟨some tx, rfl⟩
  | error e =>
    by_cases gone : isNotFound e = true
    · exact .inl ⟨none, by simp [gone]⟩
    · exact .inr ⟨lookupError txid e, by simp [gone]⟩

theorem lookupExpected_ok {s s' : List Txid × List OutPoint} {txid : Txid}
    (run : (lookupExpected spks s txid).eval node = some (.ok s')) :
    node.Holds txid ∧ s'.1 = txid :: s.1 ∨ node.NotFound txid ∧ s' = s := by
  obtain ⟨answer, looked, run⟩ := eval_bind_ok.mp run
  rcases getTxOptional_ok looked with ⟨tx, rfl, held⟩ | ⟨rfl, gone⟩
  · obtain rfl := returned_inj run
    exact .inl ⟨⟨tx, held⟩, rfl⟩
  · obtain rfl := returned_inj run
    exact .inr ⟨gone, rfl⟩

theorem lookupExpected_total (node : RpcNode) (spks : List Script)
    (s : List Txid × List OutPoint) (txid : Txid) :
    (∃ s', (lookupExpected spks s txid).eval node = some (.ok s')) ∨
      ∃ e, (lookupExpected spks s txid).eval node = some (fail e) := by
  rcases getTxOptional_total node txid with ⟨answer, looked⟩ | ⟨e, looked⟩
  · rw [lookupExpected, eval_bind_of_ok looked]
    cases answer with
    | none => exact .inl ⟨_, rfl⟩
    | some tx => exact .inl ⟨_, rfl⟩
  · exact .inr ⟨e, eval_bind_of_fail looked⟩

theorem lookupsExpected_ok {txids : List Txid} {s : List Txid × List OutPoint}
    (run : (txids.foldlM (lookupExpected spks) ([], [])).eval node = some (.ok s)) :
    (∀ txid, txid ∈ s.1 ↔ txid ∈ txids ∧ node.Holds txid) ∧
      ∀ txid ∈ txids, node.Holds txid ∨ node.NotFound txid := by
  have none : (∀ txid : Txid, txid ∈ ([] : List Txid) ↔ txid ∈ ([] : List Txid) ∧
      node.Holds txid) ∧ ∀ txid ∈ ([] : List Txid), node.Holds txid ∨ node.NotFound txid := by
    simp
  refine eval_foldlM_keeps (P := fun past s => (∀ txid, txid ∈ s.1 ↔ txid ∈ past ∧
    node.Holds txid) ∧ ∀ txid ∈ past, node.Holds txid ∨ node.NotFound txid) ?_ none run
  intro past s first s' sorted here
  obtain ⟨present, known⟩ := sorted
  have turn := lookupExpected_ok here
  constructor
  · intro txid
    rw [List.mem_append, List.mem_singleton, or_and_right, ← present]
    rcases turn with ⟨holds, same⟩ | ⟨gone, rfl⟩
    · rw [same, List.mem_cons, or_comm]
      exact or_congr_right (and_iff_left_of_imp fun same => same ▸ holds).symm
    · exact (or_iff_left fun here => here.2.found (here.1 ▸ gone)).symm
  · intro txid member
    rcases List.mem_append.mp member with old | new
    · exact known txid old
    · exact List.mem_singleton.mp new ▸ turn.imp And.left And.left

theorem lookupsExpected_fails {txids : List Txid} {txid : Txid} (member : txid ∈ txids)
    {e : RpcError} (failed : node.rawTransaction txid = .error e) (other : isNotFound e = false)
    (s : List Txid × List OutPoint) :
    ∃ e', (txids.foldlM (lookupExpected spks) s).eval node = some (fail e') := by
  induction txids generalizing s with
  | nil => exact absurd member List.not_mem_nil
  | cons first rest ih =>
    rw [List.foldlM_cons]
    rcases lookupExpected_total node spks s first with ⟨next, here⟩ | ⟨e', here⟩
    · rw [eval_bind_of_ok here]
      refine ih ((List.mem_cons.mp member).resolve_left fun same => ?_) next
      exact RpcNode.lost failed other (same ▸ (lookupExpected_ok here).imp And.left And.left)
    · exact ⟨e', eval_bind_of_fail here⟩

end Lookups

section Evictions

variable {req : CoreSyncRequest} {startTime : UInt64}

theorem mem_evicted {present txids : List Txid} {evictedAts : List (Txid × UInt64)} {txid : Txid}
    {time : UInt64} :
    (txid, time) ∈ txids.foldl (evict req present) evictedAts ↔
      (txid, time) ∈ evictedAts ∨ time = req.startTime ∧ txid ∈ txids ∧ txid ∉ present := by
  induction txids generalizing evictedAts with
  | nil => simp
  | cons first rest ih =>
    rw [List.foldl_cons, ih, List.mem_cons]
    unfold evict
    split_ifs with here <;> rw [List.contains_iff_mem] at here
    · refine or_congr_right (and_congr_right fun _ => and_congr_left fun absent => ?_)
      exact ⟨.inr, fun member => member.resolve_left fun same => absent (same ▸ here)⟩
    · rw [List.mem_insert_iff, Prod.mk.injEq]
      constructor
      · rintro ((⟨rfl, rfl⟩ | old) | ⟨rfl, member, absent⟩)
        · exact .inr ⟨rfl, .inl rfl, here⟩
        · exact .inl old
        · exact .inr ⟨rfl, .inr member, absent⟩
      · rintro (old | ⟨rfl, rfl | member, absent⟩)
        · exact .inl (.inr old)
        · exact .inl (.inl ⟨rfl, rfl⟩)
        · exact .inr ⟨rfl, member, absent⟩

end Evictions

section Steps

variable {req : CoreSyncRequest} {scanned asked : List Txid} {s s' : SyncState}
  (consistent : node.Consistent env)

include consistent

theorem lookupTxid_sound (sound : s.Sound env node req.startTime scanned asked) {txid : Txid}
    (run : (lookupTxid req s txid).eval node = some (.ok s')) :
    s'.Sound env node req.startTime scanned (asked ++ [txid]) := by
  unfold lookupTxid at run
  split_ifs at run with here <;> rw [List.contains_iff_mem] at here
  · obtain rfl := returned_inj run
    exact sound.skip (sound.present txid here)
  · rw [eval_bind_of_ok (eval_getRawTransactionInfo txid)] at run
    cases looked : node.rawTransactionInfo txid with
    | ok info =>
      rw [looked] at run
      obtain ⟨tx, decoded, run⟩ := eval_bind_ok.mp run
      obtain ⟨anchor, _, run⟩ := eval_bind_ok.mp run
      obtain ⟨held, found, same⟩ := consistent.found txid info looked
      obtain rfl := same tx (ofExcept_eq_ok.mp (Option.some.inj decoded))
      obtain rfl := consistent.asked txid tx found
      have pushed := sound.skip (.inr ⟨tx, found⟩)
      cases anchor with
      | some anchor =>
        obtain rfl := returned_inj run
        exact pushed.push here ⟨tx, found⟩ rfl rfl
      | none =>
        obtain rfl := returned_inj run
        exact pushed.push here ⟨tx, found⟩ rfl rfl
    | error e =>
      rw [looked] at run
      dsimp only at run
      split_ifs at run with gone
      · obtain rfl := returned_inj run
        obtain ⟨e', failed, same⟩ := consistent.failed txid e looked
        exact sound.evict ⟨e', failed, same.trans gone⟩ here
      · simp [fail] at run

theorem lookupTxids_sound {txids : List Txid}
    (sound : s.Sound env node req.startTime scanned asked)
    (run : (txids.foldlM (lookupTxid req) s).eval node = some (.ok s')) :
    s'.Sound env node req.startTime scanned (asked ++ txids) :=
  eval_foldlM_keeps (P := fun asked s => s.Sound env node req.startTime scanned asked)
    (fun _ _ _ _ sound here => lookupTxid_sound consistent sound here) sound run

theorem lookupOutpoint_sound {startTime : UInt64}
    (sound : s.Sound env node startTime scanned asked) {op : OutPoint}
    (run : (lookupOutpoint s op).eval node = some (.ok s')) :
    s'.Sound env node startTime scanned asked := by
  unfold lookupOutpoint at run
  split_ifs at run with here <;> rw [List.contains_iff_mem] at here
  · obtain rfl := returned_inj run
    exact sound
  · obtain ⟨answer, looked, run⟩ := eval_bind_ok.mp run
    rcases getTxOptional_ok looked with ⟨tx, rfl, held⟩ | ⟨rfl, _⟩
    · obtain rfl := returned_inj run
      have asked_ := consistent.asked op.txid tx held
      rw [← asked_] at here held ⊢
      exact sound.push here ⟨tx, held⟩ rfl rfl
    · obtain rfl := returned_inj run
      exact sound

theorem lookupOutpoints_sound {startTime : UInt64} {ops : List OutPoint}
    (sound : s.Sound env node startTime scanned asked)
    (run : (ops.foldlM lookupOutpoint s).eval node = some (.ok s')) :
    s'.Sound env node startTime scanned asked :=
  @eval_foldlM_keeps _ _ _ _ _ _ (fun _ s => s.Sound env node startTime scanned asked) _
    (fun _ _ _ _ sound here => lookupOutpoint_sound consistent sound here) [] _ _ _ sound run

end Steps

variable {order : HashOrder} {rounds : Nat} {req : CoreSyncRequest} {present : List Txid}
  {scanned : TxUpdate} {chain : Option CheckPoint}

theorem syncScan_sound
    (run : (syncScan env order rounds req).eval node = some (.ok (present, scanned, chain))) :
    SyncState.Sound env node req.startTime (scanned.txs.map env.computeTxid)
      ((order.entries req.expected).flatMap Prod.snd)
      ⟨present, ⟨scanned, .empty, ((order.entries req.expected).flatMap Prod.snd).foldl
        (evict req present) []⟩⟩ := by
  obtain ⟨⟨held, known⟩, looked, run⟩ := eval_bind_ok.mp run
  obtain ⟨⟨txUpdate, tip⟩, scan, run⟩ := eval_bind_ok.mp run
  obtain ⟨rfl, rfl, rfl⟩ : txUpdate.txs.map env.computeTxid ++ held = present ∧
      txUpdate = scanned ∧ tip = chain := by
    simpa using returned_inj run
  obtain ⟨listed, sorted⟩ := lookupsExpected_ok looked
  refine ⟨scanSpks_once (eval_scanSpks scan), fun txid => List.mem_append_left _,
    fun txid => List.mem_append_left _, fun txid member => ?_, fun txid time => ?_⟩
  · exact (List.mem_append.mp member).imp_right fun here => ((listed txid).mp here).2
  · rw [mem_evicted]
    simp only [List.not_mem_nil, false_or, List.mem_append, not_or, listed, not_and]
    refine and_congr_right fun _ => and_congr_right fun member => ?_
    constructor
    · rintro ⟨unscanned, missing⟩
      exact ⟨(sorted txid member).resolve_left (missing member), unscanned⟩
    · rintro ⟨gone, unscanned⟩
      exact ⟨unscanned, fun _ holds => holds.found gone⟩

end Rpc

/-- A sync that returns has evicted the expected and requested ids that the node
    does not find and the scan did not return; nothing is returned twice or both
    returned and evicted. An expected id that cannot be looked up is an error. -/
theorem sync_evictions_exact (env : Primitives) (node : RpcNode) (consistent : node.Consistent env)
    (order : HashOrder) (rounds : Nat) (req : CoreSyncRequest) :
    (∀ update, (Rpc.sync env order rounds req).eval node = some (.ok update) →
      ∃ present scanned chain,
        (Rpc.syncScan env order rounds req).eval node = some (.ok (present, scanned, chain)) ∧
        (∀ txid time, (txid, time) ∈ update.txUpdate.evictedAts ↔
          time = req.startTime ∧ (req.Expects txid ∨ txid ∈ req.txids) ∧ node.NotFound txid ∧
            txid ∉ scanned.txs.map env.computeTxid) ∧
        (∀ txid time, (txid, time) ∈ update.txUpdate.evictedAts →
          txid ∉ update.txUpdate.txs.map env.computeTxid) ∧
        (update.txUpdate.txs.map env.computeTxid).Nodup) ∧
    ∀ txid e, req.Expects txid → node.rawTransaction txid = .error e → isNotFound e = false →
      ∃ e', (Rpc.sync env order rounds req).eval node = some (fail e') := by
  constructor
  · intro update run
    obtain ⟨⟨present, scanned, chain⟩, scan, run⟩ := eval_bind_ok.mp run
    obtain ⟨s, looked, run⟩ := eval_bind_ok.mp run
    obtain ⟨s', outpoints, run⟩ := eval_bind_ok.mp run
    obtain rfl := returned_inj run
    have sound := Rpc.lookupOutpoints_sound consistent
      (Rpc.lookupTxids_sound consistent (Rpc.syncScan_sound scan) looked) outpoints
    refine ⟨present, scanned, chain, scan, fun txid time => ?_, fun txid time => sound.apart,
      sound.once⟩
    rw [sound.evicted, List.mem_append, mem_expected]
  · intro txid e expects failed other
    obtain ⟨e', stopped⟩ := Rpc.lookupsExpected_fails ((mem_expected order txid).mpr expects)
      failed other ([], [])
    exact ⟨e', eval_bind_of_fail (eval_bind_of_fail stopped)⟩

section Witness

variable {env : Primitives} {node : Node}

theorem Node.lookup_id (ids : ∀ entry ∈ node.mempool, env.computeTxid entry.2 = entry.1)
    {txid : Txid} {tx : Transaction} {hash : Option BlockHash}
    (found : node.lookup env txid = some (tx, hash)) : env.computeTxid tx = txid := by
  unfold Node.lookup at found
  cases pending : node.mempool.find? fun entry => entry.1 = txid with
  | some entry =>
    rw [pending] at found
    obtain ⟨rfl, _⟩ := Prod.mk.inj (Option.some.inj found)
    rw [ids entry (List.mem_of_find?_eq_some pending)]
    simpa using List.find?_some pending
  | none =>
    rw [pending] at found
    obtain ⟨b, _, inside⟩ := List.exists_of_findSome?_eq_some found
    obtain ⟨tx', here, same⟩ := Option.map_eq_some_iff.mp inside
    obtain ⟨rfl, _⟩ := Prod.mk.inj same
    simpa using List.find?_some here

theorem Node.rpc_consistent (ids : ∀ entry ∈ node.mempool, env.computeTxid entry.2 = entry.1) :
    (node.rpc env).Consistent env := by
  have lookups (txid : Txid) : (∃ tx hash, node.lookup env txid = some (tx, hash) ∧
      (node.rpc env).rawTransaction txid = .ok tx ∧
      (node.rpc env).rawTransactionInfo txid = .ok ⟨.ok tx, hash⟩) ∨
      ∃ e, (node.rpc env).rawTransaction txid = .error e ∧
        (node.rpc env).rawTransactionInfo txid = .error e := by
    unfold RpcNode.rawTransaction RpcNode.rawTransactionInfo
    simp only [Node.rpc]
    cases found : node.lookup env txid with
    | none => exact .inr ⟨_, rfl, rfl⟩
    | some entry => exact .inl ⟨entry.1, entry.2, rfl, rfl, rfl⟩
  refine ⟨fun txid tx held => ?_, fun txid info told => ?_, fun txid e failed => ?_⟩
  · rcases lookups txid with ⟨tx', hash, found, held', _⟩ | ⟨e, failed, _⟩
    · obtain rfl := Except.ok.inj (held.symm.trans held')
      exact Node.lookup_id ids found
    · rw [failed] at held
      cases held
  · rcases lookups txid with ⟨tx, hash, _, held, told'⟩ | ⟨e, _, failed⟩
    · obtain rfl := Except.ok.inj (told.symm.trans told')
      exact ⟨tx, held, fun tx' same => (Except.ok.inj same).symm⟩
    · rw [failed] at told
      cases told
  · rcases lookups txid with ⟨tx, hash, _, _, told⟩ | ⟨e', failed', told⟩
    · rw [told] at failed
      cases failed
    · obtain rfl := Except.error.inj (told.symm.trans failed)
      exact ⟨e', failed', rfl⟩

end Witness

namespace Sample

def hashOrder : HashOrder := ⟨id, fun _ => .refl _⟩

def evictingRequest : CoreSyncRequest where
  chainTip := none
  spks := [(⟨.external, 0⟩, p2wshScript receiveHash)]
  spkExpectedTxids _ := [depositTxid, forwardTxid]
  txids := [refundTxid, 7]
  outpoints := [⟨depositTxid, 0⟩]
  startTime := 1700001200

theorem evictingRequest_synced :
    (((Rpc.sync mempoolEnv hashOrder 5 evictingRequest).eval (scannedNode.rpc mempoolEnv)).bind
      fun result => result.toOption.map fun update =>
        (update.txUpdate.txs, update.txUpdate.evictedAts)) =
    some ([deposit, refund], [(7, 1700001200), (forwardTxid, 1700001200)]) := by
  decide

end Sample

theorem sync_evictions_sample : ∃ update,
    (Rpc.sync Sample.mempoolEnv Sample.hashOrder 5 Sample.evictingRequest).eval
      (Sample.scannedNode.rpc Sample.mempoolEnv) = some (.ok update) ∧
    update.txUpdate.evictedAts = [(7, 1700001200), (Sample.forwardTxid, 1700001200)] ∧
    (Sample.scannedNode.rpc Sample.mempoolEnv).NotFound Sample.forwardTxid := by
  obtain ⟨update, finished, same⟩ := returned_of_shown Sample.evictingRequest_synced
  have evicted : update.txUpdate.evictedAts =
      [(7, 1700001200), (Sample.forwardTxid, 1700001200)] := congrArg Prod.snd same
  obtain ⟨synced, _⟩ := sync_evictions_exact Sample.mempoolEnv
    (Sample.scannedNode.rpc Sample.mempoolEnv) (Node.rpc_consistent (by decide)) Sample.hashOrder 5
    Sample.evictingRequest
  obtain ⟨_, _, _, _, exact_, _⟩ := synced update finished
  have gone := (exact_ Sample.forwardTxid 1700001200).mp (by rw [evicted]; simp)
  exact ⟨update, finished, evicted, gone.2.2.1⟩

end Trinity
