import Trinity.Chain.CoreRpc
import Trinity.Lib.Discovery

/-!
What `scan_spks` of the Core-RPC backend returns: exactly the transactions of
the matching blocks and of the mempool that touch the wallet, each once. The
passes of the scan are passes of a discovery; the blocks are taken by induction
from the last one.
-/
namespace Trinity

open Outcome

section Exact

variable (env : Primitives) (client : CoreClient) (spks : List Script) (seed : List OutPoint)

abbrev ReturnedBlock : Type := ConfirmationBlockTime × List Transaction

def CoreClient.returnedBlocks (startTime : UInt64) (events : List FilterEvent) :
    List ReturnedBlock :=
  events.filterMap fun e => e.block.map fun b => (client.anchorOf startTime e.cp, b.txdata)

def MadeIn (txs : List Transaction) (o : OutPoint) : Prop :=
  ∃ tx ∈ txs, o ∈ watchedOutpoints env spks.contains tx

def Transaction.Touches (tx : Transaction) (owned : OutPoint → Prop) : Prop :=
  tx.Pays spks.contains ∨ ∃ o, tx.Spends o ∧ owned o

/-- A transaction of this id stands in the block and touches the wallet: the
    outpoints are those of the seed and those made in this or an earlier block. -/
def FoundAt (blocks : List ReturnedBlock) (i : Nat) (txid : Txid) : Prop :=
  ∃ b, blocks[i]? = some b ∧ ∃ tx ∈ b.2, env.computeTxid tx = txid ∧
    tx.Touches spks fun o => o ∈ seed ∨ MadeIn env spks ((blocks.take (i + 1)).flatMap Prod.snd) o

def FirstFoundAt (blocks : List ReturnedBlock) (i : Nat) (txid : Txid) : Prop :=
  FoundAt env spks seed blocks i txid ∧ ∀ j < i, ¬ FoundAt env spks seed blocks j txid

def CoreClient.InMempool (listing : List Txid) (tx : Transaction) : Prop :=
  ∃ txid ∈ listing, client.getRawTransaction txid = .ok tx

/-- A mempool transaction of this id, found in no block, touches the wallet: the
    outpoints are those of the seed, of the blocks and of the mempool. -/
def FoundInMempool (blocks : List ReturnedBlock) (listing : List Txid) (txid : Txid) : Prop :=
  (∀ i, ¬ FoundAt env spks seed blocks i txid) ∧
    ∃ tx, client.InMempool listing tx ∧ env.computeTxid tx = txid ∧
      tx.Touches spks fun o => o ∈ seed ∨ MadeIn env spks (blocks.flatMap Prod.snd) o ∨
        ∃ t, client.InMempool listing t ∧ o ∈ watchedOutpoints env spks.contains t

def CoreClient.Lists (blocks : List ReturnedBlock) (listing : List Txid) (tx : Transaction) :
    Prop :=
  tx ∈ blocks.flatMap Prod.snd ∨ client.InMempool listing tx

/-- Exactly the wallet's transactions, each once: with the anchor of the first
    block it is found in, or else with the time of the scan. -/
structure ScanExact (startTime : UInt64) (blocks : List ReturnedBlock) (listing : List Txid)
    (update : TxUpdate) : Prop where
  once : (update.txs.map env.computeTxid).Nodup
  found : ∀ txid, txid ∈ update.txs.map env.computeTxid ↔
    (∃ i, FoundAt env spks seed blocks i txid) ∨
      FoundInMempool env client spks seed blocks listing txid
  listed : ∀ tx ∈ update.txs, client.Lists blocks listing tx
  anchors : ∀ anchor txid, (anchor, txid) ∈ update.anchors ↔
    ∃ i b, blocks[i]? = some b ∧ b.1 = anchor ∧ FirstFoundAt env spks seed blocks i txid
  seenAts : ∀ txid time, (txid, time) ∈ update.seenAts ↔
    time = startTime ∧ FoundInMempool env client spks seed blocks listing txid

def walletRules : Discovery.Rules Transaction OutPoint Txid where
  id := env.computeTxid
  marked tx := tx.output.any fun o => spks.contains o.scriptPubkey
  makes := watchedOutpoints env spks.contains
  uses tx := tx.input.map TxIn.previousOutput
  marked_of_makes tx o made := by
    obtain ⟨out, member, watched⟩ := pays_of_watched made
    exact List.any_eq_true.mpr ⟨out, member, watched⟩

end Exact

section Refinement

variable {env : Primitives} {spks : List Script} {record : TxUpdate → Txid → TxUpdate}

def RpcScan.view (s : RpcScan) : Discovery.State Transaction OutPoint Txid :=
  ⟨s.knownOutpoints, s.seenTxids, s.txUpdate.txs⟩

theorem txIsRelevant_eq (env : Primitives) (tx : Transaction) (known : List OutPoint) :
    txIsRelevant tx spks known = Discovery.touches (walletRules env spks) known tx := by
  simp [txIsRelevant, Discovery.touches, walletRules, List.any_map, Function.comp_def]

theorem visit_eq (s : RpcScan) (tx : Transaction) :
    s.visit env spks record tx =
      if Discovery.touches (walletRules env spks) s.view.known tx then
        if (walletRules env spks).id tx ∈ s.view.seen then s
        else ⟨(walletRules env spks).makes tx ++ s.view.known,
          (walletRules env spks).id tx :: s.view.seen,
          record { s.txUpdate with txs := s.view.found ++ [tx] } ((walletRules env spks).id tx)⟩
      else s := by
  rw [RpcScan.visit, txIsRelevant_eq env]
  rfl

theorem visit_view (keeps : ∀ update txid, (record update txid).txs = update.txs) (s : RpcScan)
    (tx : Transaction) :
    (s.visit env spks record tx).view = Discovery.visit (walletRules env spks) s.view tx := by
  rw [visit_eq, Discovery.visit]
  split_ifs
  · rfl
  · simp only [RpcScan.view, keeps]
  · rfl

theorem visits_view (keeps : ∀ update txid, (record update txid).txs = update.txs) (s : RpcScan)
    (txs : List Transaction) :
    (txs.foldl (RpcScan.visit env spks record) s).view =
      Discovery.pass (walletRules env spks) s.view txs := by
  unfold Discovery.pass
  induction txs generalizing s with
  | nil => rfl
  | cons tx rest ih => rw [List.foldl_cons, List.foldl_cons, ih, visit_view keeps]

theorem twoPasses_eq (s : RpcScan) (txs : List Transaction) :
    s.twoPasses env spks record txs = (txs ++ txs).foldl (RpcScan.visit env spks record) s := by
  rw [List.foldl_append]
  rfl

theorem twoPasses_view (keeps : ∀ update txid, (record update txid).txs = update.txs)
    (s : RpcScan) (txs : List Transaction) :
    (s.twoPasses env spks record txs).view = Discovery.pass (walletRules env spks)
      (Discovery.pass (walletRules env spks) s.view txs) txs := by
  rw [twoPasses_eq, visits_view keeps]
  exact List.foldl_append

structure Logged {ε : Type} (log : TxUpdate → List ε) (entry : Txid → ε) (s s' : RpcScan) :
    Prop where
  keeps : ∀ txid ∈ s.seenTxids, txid ∈ s'.seenTxids
  gains : ∀ e, e ∈ log s'.txUpdate ↔
    e ∈ log s.txUpdate ∨ ∃ txid ∈ s'.seenTxids, txid ∉ s.seenTxids ∧ entry txid = e

variable {ε : Type} {log : TxUpdate → List ε} {entry : Txid → ε}

theorem Logged.refl (s : RpcScan) : Logged log entry s s where
  keeps _ member := member
  gains e := by
    refine (or_iff_left ?_).symm
    rintro ⟨txid, old, new, -⟩
    exact new old

theorem Logged.trans {s s' s'' : RpcScan} (first : Logged log entry s s')
    (second : Logged log entry s' s'') : Logged log entry s s'' where
  keeps txid member := second.keeps txid (first.keeps txid member)
  gains e := by
    rw [second.gains, first.gains, or_assoc]
    refine or_congr_right ⟨?_, ?_⟩
    · rintro (⟨txid, member, new, rfl⟩ | ⟨txid, member, new, rfl⟩)
      · exact ⟨txid, second.keeps txid member, new, rfl⟩
      · exact ⟨txid, member, fun old => new (first.keeps txid old), rfl⟩
    · rintro ⟨txid, member, new, rfl⟩
      by_cases early : txid ∈ s'.seenTxids
      · exact .inl ⟨txid, early, new, rfl⟩
      · exact .inr ⟨txid, member, early, rfl⟩

theorem visit_logged
    (records : ∀ update txs txid e, e ∈ log (record { update with txs := txs } txid) ↔
      e ∈ log update ∨ entry txid = e) (s : RpcScan) (tx : Transaction) :
    Logged log entry s (s.visit env spks record tx) := by
  unfold RpcScan.visit
  split_ifs with relevant old
  · exact .refl s
  · refine ⟨fun txid member => List.mem_cons_of_mem _ member, fun e => ?_⟩
    rw [records]
    refine or_congr_right ⟨fun same => ⟨_, List.mem_cons_self, old, same⟩, ?_⟩
    rintro ⟨txid, member, new, rfl⟩
    rw [(List.mem_cons.mp member).resolve_right new]
  · exact .refl s

theorem twoPasses_logged
    (records : ∀ update txs txid e, e ∈ log (record { update with txs := txs } txid) ↔
      e ∈ log update ∨ entry txid = e) (s : RpcScan) (txs : List Transaction) :
    Logged log entry s (s.twoPasses env spks record txs) := by
  rw [twoPasses_eq]
  induction txs ++ txs generalizing s with
  | nil => exact .refl s
  | cons tx rest ih => exact (visit_logged records s tx).trans (ih _)

theorem twoPasses_untouched {β : Type} (part : TxUpdate → β)
    (untouched : ∀ update txs txid, part (record { update with txs := txs } txid) = part update)
    (s : RpcScan) (txs : List Transaction) :
    part (s.twoPasses env spks record txs).txUpdate = part s.txUpdate := by
  rw [twoPasses_eq]
  induction txs ++ txs generalizing s with
  | nil => rfl
  | cons tx rest ih =>
    rw [List.foldl_cons, ih]
    unfold RpcScan.visit
    split_ifs
    · rfl
    · exact untouched _ _ _
    · rfl

end Refinement

section Blocks

variable {env : Primitives} {client : CoreClient} {spks : List Script} {seed : List OutPoint}

def RpcScan.scanBlock (env : Primitives) (spks : List Script) (s : RpcScan) (b : ReturnedBlock) :
    RpcScan :=
  s.twoPasses env spks (recordAnchor b.1) b.2

theorem recordAnchor_keeps (anchor : ConfirmationBlockTime) (update : TxUpdate) (txid : Txid) :
    (recordAnchor anchor update txid).txs = update.txs := rfl

theorem recordSeenAt_keeps (startTime : UInt64) (update : TxUpdate) (txid : Txid) :
    (recordSeenAt startTime update txid).txs = update.txs := rfl

theorem twoPasses_stable {record : TxUpdate → Txid → TxUpdate}
    (keeps : ∀ update txid, (record update txid).txs = update.txs)
    {P : Discovery.State Transaction OutPoint Txid → Prop}
    (stable : Discovery.Stable (walletRules env spks) P) {s : RpcScan} (holds : P s.view)
    (txs : List Transaction) : P (s.twoPasses env spks record txs).view := by
  rw [twoPasses_view keeps]
  exact Discovery.pass_stable stable (Discovery.pass_stable stable holds txs) txs

theorem scanBlocks_stable {P : Discovery.State Transaction OutPoint Txid → Prop}
    (stable : Discovery.Stable (walletRules env spks) P) {s : RpcScan} (holds : P s.view)
    (blocks : List ReturnedBlock) : P (blocks.foldl (RpcScan.scanBlock env spks) s).view := by
  induction blocks generalizing s with
  | nil => exact holds
  | cons b rest ih => exact ih (twoPasses_stable (recordAnchor_keeps b.1) stable holds b.2)

theorem scanEvents_events {startTime : UInt64} {items : List (Except String FilterEvent)}
    {start final : RpcScan × CheckPoint}
    (run : items.foldlM (client.scanEvent env spks startTime) start = .ok final) :
    ∃ events : List FilterEvent, items = events.map .ok := by
  induction items generalizing start with
  | nil => exact ⟨[], rfl⟩
  | cons item rest ih =>
    rw [List.foldlM_cons, bind_eq_ok] at run
    obtain ⟨next, step, later⟩ := run
    obtain ⟨events, rfl⟩ := ih later
    simp only [CoreClient.scanEvent, bind_eq_ok, ofExcept_eq_ok] at step
    obtain ⟨event, rfl, _⟩ := step
    exact ⟨event :: events, rfl⟩

theorem scanEvents_blocks {startTime : UInt64} {events : List FilterEvent}
    {start final : RpcScan × CheckPoint}
    (run : (events.map Except.ok).foldlM (client.scanEvent env spks startTime) start = .ok final) :
    final.1 =
      (client.returnedBlocks startTime events).foldl (RpcScan.scanBlock env spks) start.1 := by
  induction events generalizing start with
  | nil =>
    simp only [List.map_nil, List.foldlM_nil, pure_eq_ok] at run
    rw [← run]
    rfl
  | cons event rest ih =>
    simp only [List.map_cons, List.foldlM_cons, bind_eq_ok] at run
    obtain ⟨next, step, later⟩ := run
    rw [ih later]
    obtain ⟨cp, block⟩ := event
    cases block with
    | none =>
      have taken : (start.1, cp) = next := Except.ok.inj step
      rw [← taken]
      rfl
    | some block =>
      have taken : (start.1.scanBlock env spks (client.anchorOf startTime cp, block.txdata), cp) =
          next := Except.ok.inj step
      rw [← taken]
      rfl

theorem madeIn_append {txs txs' : List Transaction} {o : OutPoint} :
    MadeIn env spks (txs ++ txs') o ↔ MadeIn env spks txs o ∨ MadeIn env spks txs' o := by
  simp only [MadeIn, List.mem_append, or_and_right, exists_or]

theorem touches_congr {tx : Transaction} {owned owned' : OutPoint → Prop}
    (same : ∀ o, owned o ↔ owned' o) : tx.Touches spks owned ↔ tx.Touches spks owned' := by
  simp only [Transaction.Touches, same]

section Positions

variable {blocks : List ReturnedBlock} {b : ReturnedBlock} {i : Nat} {txid : Txid}

theorem FoundAt.lt (found : FoundAt env spks seed blocks i txid) : i < blocks.length := by
  obtain ⟨b, here, -⟩ := found
  exact (List.getElem?_eq_some_iff.mp here).1

theorem foundAt_append (early : i < blocks.length) :
    FoundAt env spks seed (blocks ++ [b]) i txid ↔ FoundAt env spks seed blocks i txid := by
  simp only [FoundAt, List.getElem?_append_left early, List.take_append_of_le_length early]

theorem foundAt_last :
    FoundAt env spks seed (blocks ++ [b]) blocks.length txid ↔
      ∃ tx ∈ b.2, env.computeTxid tx = txid ∧ tx.Touches spks fun o =>
        o ∈ seed ∨ MadeIn env spks ((blocks ++ [b]).flatMap Prod.snd) o := by
  have whole : (blocks ++ [b]).take (blocks.length + 1) = blocks ++ [b] :=
    List.take_of_length_le (by simp)
  simp only [FoundAt, whole, List.getElem?_concat_length, Option.some.injEq, exists_eq_left']

theorem exists_foundAt_append :
    (∃ i, FoundAt env spks seed (blocks ++ [b]) i txid) ↔
      (∃ i, FoundAt env spks seed blocks i txid) ∨
        FoundAt env spks seed (blocks ++ [b]) blocks.length txid := by
  constructor
  · rintro ⟨i, found⟩
    have bound := found.lt
    rw [List.length_append, List.length_singleton] at bound
    rcases Nat.lt_succ_iff_lt_or_eq.mp bound with early | rfl
    · exact .inl ⟨i, (foundAt_append early).mp found⟩
    · exact .inr found
  · rintro (⟨i, found⟩ | found)
    · exact ⟨i, (foundAt_append found.lt).mpr found⟩
    · exact ⟨_, found⟩

theorem firstFoundAt_append (early : i < blocks.length) :
    FirstFoundAt env spks seed (blocks ++ [b]) i txid ↔
      FirstFoundAt env spks seed blocks i txid := by
  unfold FirstFoundAt
  rw [foundAt_append early]
  refine and_congr_right fun _ => forall₂_congr fun j before => ?_
  rw [foundAt_append (before.trans early)]

theorem firstFoundAt_last :
    FirstFoundAt env spks seed (blocks ++ [b]) blocks.length txid ↔
      FoundAt env spks seed (blocks ++ [b]) blocks.length txid ∧
        ¬ ∃ i, FoundAt env spks seed blocks i txid := by
  refine and_congr_right fun _ => ⟨?_, ?_⟩
  · rintro never ⟨i, found⟩
    exact never i found.lt ((foundAt_append found.lt).mpr found)
  · intro never j before found
    exact never ⟨j, (foundAt_append before).mp found⟩

end Positions

section Exactness

variable {items : Transaction → Prop}

theorem walletRules_identified
    (identified : ∀ tx tx', items tx → items tx' → env.computeTxid tx = env.computeTxid tx' →
      tx.output = tx'.output) : Discovery.Identified (walletRules env spks) items := by
  intro tx tx' item item' same
  have outputs := identified tx tx' item item' same
  have ids : env.computeTxid tx = env.computeTxid tx' := same
  simp only [walletRules, watchedOutpoints, outputs, ids]

theorem twoPasses_spec (record : TxUpdate → Txid → TxUpdate)
    (keeps : ∀ update txid, (record update txid).txs = update.txs)
    (identified : Discovery.Identified (walletRules env spks) items) {s : RpcScan}
    (consistent : Discovery.Consistent (walletRules env spks) items s.view)
    {txs : List Transaction} (listed : ∀ tx ∈ txs, items tx) :
    Discovery.Consistent (walletRules env spks) items (s.twoPasses env spks record txs).view ∧
    (∀ o, o ∈ (s.twoPasses env spks record txs).knownOutpoints ↔
      o ∈ s.knownOutpoints ∨ MadeIn env spks txs o) ∧
    (∀ txid, txid ∈ (s.twoPasses env spks record txs).seenTxids ↔
      txid ∈ s.seenTxids ∨ ∃ tx ∈ txs, env.computeTxid tx = txid ∧
        tx.Touches spks fun o => o ∈ s.knownOutpoints ∨ MadeIn env spks txs o) ∧
    ∀ tx ∈ (s.twoPasses env spks record txs).txUpdate.txs, tx ∈ s.txUpdate.txs ∨ tx ∈ txs := by
  obtain ⟨after, known, seen, found⟩ := Discovery.two_passes identified consistent listed
  rw [← twoPasses_view keeps] at after known seen found
  refine ⟨after, known, fun txid => (seen txid).trans ?_, found⟩
  simp only [walletRules, RpcScan.view, List.any_eq_true, List.mem_map, Transaction.Touches,
    Transaction.Pays, Transaction.Spends, MadeIn]

structure BlocksScanned (env : Primitives) (spks : List Script) (seed : List OutPoint)
    (items : Transaction → Prop) (blocks : List ReturnedBlock) (s : RpcScan) : Prop where
  consistent : Discovery.Consistent (walletRules env spks) items s.view
  known : ∀ o, o ∈ s.knownOutpoints ↔ o ∈ seed ∨ MadeIn env spks (blocks.flatMap Prod.snd) o
  seen : ∀ txid, txid ∈ s.seenTxids ↔ ∃ i, FoundAt env spks seed blocks i txid
  listed : ∀ tx ∈ s.txUpdate.txs, tx ∈ blocks.flatMap Prod.snd
  anchors : ∀ anchor txid, (anchor, txid) ∈ s.txUpdate.anchors ↔
    ∃ i b, blocks[i]? = some b ∧ b.1 = anchor ∧ FirstFoundAt env spks seed blocks i txid
  seenAts : s.txUpdate.seenAts = []

theorem anchored_append {blocks : List ReturnedBlock} {b : ReturnedBlock}
    {anchor : ConfirmationBlockTime} {txid : Txid} :
    (∃ i b', (blocks ++ [b])[i]? = some b' ∧ b'.1 = anchor ∧
      FirstFoundAt env spks seed (blocks ++ [b]) i txid) ↔
    (∃ i b', blocks[i]? = some b' ∧ b'.1 = anchor ∧ FirstFoundAt env spks seed blocks i txid) ∨
      b.1 = anchor ∧ FirstFoundAt env spks seed (blocks ++ [b]) blocks.length txid := by
  constructor
  · rintro ⟨i, b', here, same, first⟩
    have bound := first.1.lt
    rw [List.length_append, List.length_singleton] at bound
    rcases Nat.lt_succ_iff_lt_or_eq.mp bound with early | rfl
    · rw [List.getElem?_append_left early] at here
      exact .inl ⟨i, b', here, same, (firstFoundAt_append early).mp first⟩
    · rw [List.getElem?_concat_length] at here
      obtain rfl := Option.some.inj here
      exact .inr ⟨same, first⟩
  · rintro (⟨i, b', here, same, first⟩ | ⟨same, first⟩)
    · have early := first.1.lt
      exact ⟨i, b', (List.getElem?_append_left early).trans here, same,
        (firstFoundAt_append early).mpr first⟩
    · exact ⟨blocks.length, b, List.getElem?_concat_length, same, first⟩

theorem scanBlock_scanned (identified : Discovery.Identified (walletRules env spks) items)
    {blocks : List ReturnedBlock} {s : RpcScan}
    (scanned : BlocksScanned env spks seed items blocks s) {b : ReturnedBlock}
    (inside : ∀ tx ∈ b.2, items tx) :
    BlocksScanned env spks seed items (blocks ++ [b]) (s.scanBlock env spks b) := by
  obtain ⟨consistent, known, seen, listed⟩ :=
    twoPasses_spec (recordAnchor b.1) (fun _ _ => rfl) identified scanned.consistent inside
  have logged : Logged TxUpdate.anchors (b.1, ·) s (s.scanBlock env spks b) :=
    twoPasses_logged (fun update txs txid e => by
      simp only [recordAnchor, List.mem_insert_iff, or_comm, eq_comm]) s b.2
  have all : (blocks ++ [b]).flatMap Prod.snd = blocks.flatMap Prod.snd ++ b.2 := by simp
  have owned (o : OutPoint) : o ∈ s.knownOutpoints ∨ MadeIn env spks b.2 o ↔
      o ∈ seed ∨ MadeIn env spks ((blocks ++ [b]).flatMap Prod.snd) o := by
    rw [scanned.known, all, madeIn_append, or_assoc]
  have now (txid : Txid) : txid ∈ (s.scanBlock env spks b).seenTxids ↔
      txid ∈ s.seenTxids ∨ FoundAt env spks seed (blocks ++ [b]) blocks.length txid := by
    rw [foundAt_last]
    simp only [touches_congr owned] at seen
    exact seen txid
  refine ⟨consistent, fun o => (known o).trans (owned o), fun txid => ?_, fun tx member => ?_,
    fun anchor txid => ?_, ?_⟩
  · rw [now, scanned.seen, exists_foundAt_append]
  · rw [all]
    exact List.mem_append.mpr ((listed tx member).imp_left (scanned.listed tx))
  · rw [logged.gains, scanned.anchors, anchored_append, firstFoundAt_last, ← scanned.seen]
    refine or_congr_right ⟨?_, ?_⟩
    · rintro ⟨_, member, new, same⟩
      obtain ⟨rfl, rfl⟩ := Prod.mk.inj same
      exact ⟨rfl, ((now _).mp member).resolve_left new, new⟩
    · rintro ⟨rfl, found, new⟩
      exact ⟨txid, (now txid).mpr (.inr found), new, rfl⟩
  · rw [← scanned.seenAts]
    exact twoPasses_untouched TxUpdate.seenAts (fun _ _ _ => rfl) s b.2

theorem scanBlocks_scanned (identified : Discovery.Identified (walletRules env spks) items)
    {blocks : List ReturnedBlock} (inside : ∀ tx ∈ blocks.flatMap Prod.snd, items tx) :
    BlocksScanned env spks seed items blocks
      (blocks.foldl (RpcScan.scanBlock env spks) ⟨seed, [], ⟨[], [], []⟩⟩) := by
  induction blocks using List.reverseRecOn with
  | nil =>
    refine ⟨⟨?_, ?_, ?_⟩, ?_, ?_, ?_, ?_, rfl⟩
    · simp [RpcScan.view]
    · simp [RpcScan.view]
    · simp [RpcScan.view]
    · simp [MadeIn]
    · simp [FoundAt]
    · simp
    · simp
  | append_singleton blocks b ih =>
    rw [List.foldl_append]
    simp only [List.flatMap_append, List.forall_mem_append] at inside
    exact scanBlock_scanned identified (ih inside.1) (by simpa using inside.2)

theorem getTxOptional_eq_ok {txid : Txid} {answer : Option Transaction}
    (run : client.getTxOptional txid = .ok answer) (tx : Transaction) :
    tx ∈ answer.toList ↔ client.getRawTransaction txid = .ok tx := by
  unfold CoreClient.getTxOptional at run
  split at run
  · next held =>
    rw [pure_eq_ok] at run
    simp [← run, held, eq_comm]
  · next err held =>
    rw [held]
    split_ifs at run
    · rw [pure_eq_ok] at run
      simp [← run]
    · simp [fail] at run
    · simp [fail] at run

theorem mem_collectPending {seen listing : List Txid} {pending : List Transaction}
    (run : client.collectPending seen listing = .ok pending) (tx : Transaction) :
    tx ∈ pending ↔ ∃ txid ∈ listing, txid ∉ seen ∧ client.getRawTransaction txid = .ok tx := by
  induction listing generalizing pending with
  | nil =>
    rw [CoreClient.collectPending, pure_eq_ok] at run
    simp [← run]
  | cons txid rest ih =>
    rw [CoreClient.collectPending] at run
    rw [List.exists_mem_cons_iff]
    split_ifs at run with old
    · rw [ih run]
      exact (or_iff_right fun here => here.1 old).symm
    · simp only [bind_eq_ok, pure_eq_ok] at run
      obtain ⟨answer, looked, later, collected, rfl⟩ := run
      rw [List.mem_append, getTxOptional_eq_ok looked, ih collected]
      exact or_congr_left (and_iff_right old).symm

section Mempool

variable {blocks : List ReturnedBlock} {listing : List Txid} {s : RpcScan}
  {pending : List Transaction}

/-- The outpoints known during the passes over the mempool. A mempool
    transaction that was found in a block is not pending, but its outpoints are
    known from there. -/
theorem mempool_owned (scanned : BlocksScanned env spks seed (client.Lists blocks listing) blocks s)
    (asked : ∀ txid ∈ listing, ∀ tx, client.getRawTransaction txid = .ok tx →
      env.computeTxid tx = txid)
    (collected : client.collectPending s.seenTxids listing = .ok pending) (o : OutPoint) :
    o ∈ s.knownOutpoints ∨ MadeIn env spks pending o ↔
      o ∈ seed ∨ MadeIn env spks (blocks.flatMap Prod.snd) o ∨
        ∃ t, client.InMempool listing t ∧ o ∈ watchedOutpoints env spks.contains t := by
  rw [← or_assoc, ← scanned.known]
  constructor
  · rintro (known | ⟨tx, member, made⟩)
    · exact .inl known
    · obtain ⟨txid, there, -, held⟩ := (mem_collectPending collected tx).mp member
      exact .inr ⟨tx, ⟨txid, there, held⟩, made⟩
  · rintro (known | ⟨tx, ⟨txid, there, held⟩, made⟩)
    · exact .inl known
    · by_cases old : txid ∈ s.seenTxids
      · have item : client.Lists blocks listing tx := .inr ⟨txid, there, held⟩
        rw [← asked txid there tx held] at old
        exact .inl (scanned.consistent.known tx item old o made)
      · exact .inr ⟨tx, (mem_collectPending collected tx).mpr ⟨txid, there, old, held⟩, made⟩

theorem foundInMempool_iff
    (scanned : BlocksScanned env spks seed (client.Lists blocks listing) blocks s)
    (asked : ∀ txid ∈ listing, ∀ tx, client.getRawTransaction txid = .ok tx →
      env.computeTxid tx = txid)
    (collected : client.collectPending s.seenTxids listing = .ok pending) (txid : Txid) :
    FoundInMempool env client spks seed blocks listing txid ↔
      ∃ tx ∈ pending, env.computeTxid tx = txid ∧
        tx.Touches spks fun o => o ∈ s.knownOutpoints ∨ MadeIn env spks pending o := by
  simp only [touches_congr (mempool_owned scanned asked collected)]
  unfold FoundInMempool
  rw [← not_exists, ← scanned.seen]
  constructor
  · rintro ⟨new, tx, ⟨id, there, held⟩, rfl, touches⟩
    rw [asked id there tx held] at new
    exact ⟨tx, (mem_collectPending collected tx).mpr ⟨id, there, new, held⟩, rfl, touches⟩
  · rintro ⟨tx, member, rfl, touches⟩
    obtain ⟨id, there, new, held⟩ := (mem_collectPending collected tx).mp member
    rw [← asked id there tx held] at new
    exact ⟨new, tx, ⟨id, there, held⟩, rfl, touches⟩

theorem mempool_exact (identified : Discovery.Identified (walletRules env spks)
      (client.Lists blocks listing))
    (scanned : BlocksScanned env spks seed (client.Lists blocks listing) blocks s)
    (asked : ∀ txid ∈ listing, ∀ tx, client.getRawTransaction txid = .ok tx →
      env.computeTxid tx = txid)
    (collected : client.collectPending s.seenTxids listing = .ok pending) (startTime : UInt64) :
    ScanExact env client spks seed startTime blocks listing
      (s.twoPasses env spks (recordSeenAt startTime) pending).txUpdate := by
  have inside (tx : Transaction) (member : tx ∈ pending) : client.InMempool listing tx := by
    obtain ⟨txid, there, -, held⟩ := (mem_collectPending collected tx).mp member
    exact ⟨txid, there, held⟩
  obtain ⟨consistent, -, seen, listed⟩ := twoPasses_spec (recordSeenAt startTime)
    (fun _ _ => rfl) identified scanned.consistent fun tx member => .inr (inside tx member)
  have logged : Logged TxUpdate.seenAts (·, startTime) s
      (s.twoPasses env spks (recordSeenAt startTime) pending) :=
    twoPasses_logged (fun update txs txid e => by
      simp only [recordSeenAt, List.mem_insert_iff, or_comm, eq_comm]) s pending
  simp only [← foundInMempool_iff scanned asked collected] at seen
  refine ⟨consistent.once, fun txid => ?_, fun tx member => ?_, fun anchor txid => ?_,
    fun txid time => ?_⟩
  · rw [← scanned.seen, ← seen]
    exact (consistent.seen txid).symm
  · exact (listed tx member).imp (scanned.listed tx) (inside tx)
  · rw [← scanned.anchors,
      twoPasses_untouched TxUpdate.anchors (fun _ _ _ => rfl) s pending]
  · rw [logged.gains, scanned.seenAts]
    constructor
    · rintro (old | ⟨id, member, new, same⟩)
      · exact absurd old List.not_mem_nil
      · obtain ⟨rfl, rfl⟩ := Prod.mk.inj same
        exact ⟨rfl, ((seen id).mp member).resolve_left new⟩
    · rintro ⟨rfl, found⟩
      refine .inr ⟨txid, (seen txid).mpr (.inr found), fun old => ?_, rfl⟩
      exact not_exists.mpr found.1 ((scanned.seen txid).mp old)

end Mempool

end Exactness

end Blocks

section Scan

variable {env : Primitives} {client client' : CoreClient} {spks : List Script}
  {chainTip : Option CheckPoint} {startTime : UInt64} {seed : List OutPoint}
  {events events' : List FilterEvent} {listing listing' : List Txid} {update : TxUpdate}
  {tip : Option CheckPoint}

/-- What the node returns to a scan: the events of the filter iterator, none of
    them an error, and the mempool's listing. -/
structure CoreClient.Answers (client : CoreClient) (chainTip : Option CheckPoint)
    (spks : List Script) (events : List FilterEvent) (listing : List Txid) : Prop where
  blocks : ∃ startCp, client.startCheckpoint chainTip = .ok startCp ∧
    client.filterIter startCp spks = events.map .ok
  mempool : client.getRawMempool = .ok listing

/-- The ids of a scan are ids: of two transactions with one id the outputs are
    the same, and a lookup returns the transaction it was asked for. -/
structure CoreClient.Identifies (env : Primitives) (client : CoreClient)
    (blocks : List ReturnedBlock) (listing : List Txid) : Prop where
  outputs : ∀ tx tx', client.Lists blocks listing tx → client.Lists blocks listing tx' →
    env.computeTxid tx = env.computeTxid tx' → tx.output = tx'.output
  asked : ∀ txid ∈ listing, ∀ tx, client.getRawTransaction txid = .ok tx →
    env.computeTxid tx = txid

structure Reordered (client client' : CoreClient) (events events' : List FilterEvent)
    (listing listing' : List Txid) : Prop where
  blocks : List.Forall₂ (fun e e' => Option.Rel (fun b b' => b.txdata.Perm b'.txdata)
    e.block e'.block) events events'
  mempool : listing.Perm listing'
  lookups : ∀ txid ∈ listing, client'.getRawTransaction txid = client.getRawTransaction txid

def CoreClient.blocksScanned (env : Primitives) (client : CoreClient) (spks : List Script)
    (seed : List OutPoint) (startTime : UInt64) (events : List FilterEvent) : RpcScan :=
  (client.returnedBlocks startTime events).foldl (RpcScan.scanBlock env spks)
    ⟨seed, [], ⟨[], [], []⟩⟩

theorem scanSpks_eq_ok (watched : spks ≠ [])
    (run : client.scanSpks env spks chainTip startTime seed = .ok (update, tip)) :
    ∃ events listing pending, client.Answers chainTip spks events listing ∧
      client.collectPending (client.blocksScanned env spks seed startTime events).seenTxids
        listing = .ok pending ∧
      update = ((client.blocksScanned env spks seed startTime events).twoPasses env spks
        (recordSeenAt startTime) pending).txUpdate := by
  have some_ : ¬ spks.isEmpty = true := by rwa [List.isEmpty_iff]
  simp only [CoreClient.scanSpks, bind_eq_ok, if_neg some_, CoreClient.scanFrom, ofExcept_eq_ok,
    pure_eq_ok] at run
  obtain ⟨startCp, started, ⟨s, last⟩, scanned, listing, listed, pending, collected, same⟩ := run
  obtain ⟨rfl, -⟩ := Prod.mk.inj same
  obtain ⟨events, returned⟩ := scanEvents_events scanned
  rw [returned] at scanned
  have taken : s = client.blocksScanned env spks seed startTime events := scanEvents_blocks scanned
  rw [taken] at collected ⊢
  exact ⟨events, listing, pending, ⟨⟨startCp, started, returned⟩, listed⟩, collected, rfl⟩

theorem scanSpks_once
    (run : client.scanSpks env spks chainTip startTime seed = .ok (update, tip)) :
    (update.txs.map env.computeTxid).Nodup := by
  by_cases watched : spks = []
  · simp only [CoreClient.scanSpks, watched, List.isEmpty_nil, if_true, bind_eq_ok, pure_eq_ok,
      Prod.mk.injEq] at run
    obtain ⟨_, _, _, _, rfl, _⟩ := run
    exact List.nodup_nil
  · obtain ⟨events, listing, pending, _, _, rfl⟩ := scanSpks_eq_ok watched run
    have start : Discovery.Distinct (walletRules env spks)
        (RpcScan.view ⟨seed, [], ⟨[], [], []⟩⟩) := ⟨List.nodup_nil, fun _ member => member⟩
    have blocks : Discovery.Distinct (walletRules env spks)
        (client.blocksScanned env spks seed startTime events).view :=
      scanBlocks_stable Discovery.distinct_stable start _
    exact (twoPasses_stable (recordSeenAt_keeps startTime) Discovery.distinct_stable blocks
      pending).1

theorem CoreClient.Answers.unique (answers : client.Answers chainTip spks events listing)
    (answers' : client.Answers chainTip spks events' listing') :
    events = events' ∧ listing = listing' := by
  obtain ⟨startCp, started, returned⟩ := answers.blocks
  obtain ⟨startCp', started', returned'⟩ := answers'.blocks
  obtain rfl : startCp = startCp' := Except.ok.inj (started.symm.trans started')
  exact ⟨List.map_injective_iff.mpr (fun _ _ => Except.ok.inj) (returned.symm.trans returned'),
    Except.ok.inj (answers.mempool.symm.trans answers'.mempool)⟩

theorem scanSpks_exact (watched : spks ≠ []) (answers : client.Answers chainTip spks events listing)
    (identifies : client.Identifies env (client.returnedBlocks startTime events) listing)
    (run : client.scanSpks env spks chainTip startTime seed = .ok (update, tip)) :
    ScanExact env client spks seed startTime (client.returnedBlocks startTime events) listing
      update := by
  obtain ⟨events', listing', pending, answers', collected, rfl⟩ := scanSpks_eq_ok watched run
  obtain ⟨rfl, rfl⟩ := answers.unique answers'
  have identified : Discovery.Identified (walletRules env spks)
      (client.Lists (client.returnedBlocks startTime events) listing) :=
    walletRules_identified identifies.outputs
  have blocks : BlocksScanned env spks seed
      (client.Lists (client.returnedBlocks startTime events) listing)
      (client.returnedBlocks startTime events)
      (client.blocksScanned env spks seed startTime events) :=
    scanBlocks_scanned identified fun tx member => .inl member
  exact mempool_exact identified blocks identifies.asked collected startTime

def SameBlocks : List ReturnedBlock → List ReturnedBlock → Prop :=
  List.Forall₂ fun b b' => b.2.Perm b'.2

theorem SameBlocks.symm {blocks blocks' : List ReturnedBlock} (same : SameBlocks blocks blocks') :
    SameBlocks blocks' blocks :=
  List.Forall₂.flip (same.imp fun _ _ perm => perm.symm)

theorem SameBlocks.flatMap {blocks blocks' : List ReturnedBlock}
    (same : SameBlocks blocks blocks') :
    (blocks.flatMap Prod.snd).Perm (blocks'.flatMap Prod.snd) := by
  induction same with
  | nil => exact .refl _
  | cons perm _ ih => exact perm.append ih

theorem MadeIn.perm {txs txs' : List Transaction} (perm : txs.Perm txs') {o : OutPoint}
    (made : MadeIn env spks txs o) : MadeIn env spks txs' o := by
  obtain ⟨tx, member, watched⟩ := made
  exact ⟨tx, perm.mem_iff.mp member, watched⟩

theorem Transaction.Touches.mono {tx : Transaction} {owned owned' : OutPoint → Prop}
    (more : ∀ o, owned o → owned' o) (touches : tx.Touches spks owned) : tx.Touches spks owned' :=
  touches.imp_right fun ⟨o, spends, own⟩ => ⟨o, spends, more o own⟩

theorem FoundAt.reordered {blocks blocks' : List ReturnedBlock} (same : SameBlocks blocks blocks')
    {i : Nat} {txid : Txid} (found : FoundAt env spks seed blocks i txid) :
    FoundAt env spks seed blocks' i txid := by
  obtain ⟨b, here, tx, inside, id, touches⟩ := found
  obtain ⟨lt, rfl⟩ := List.getElem?_eq_some_iff.mp here
  have lt' : i < blocks'.length := same.length_eq ▸ lt
  have perm : (blocks.get ⟨i, lt⟩).2.Perm (blocks'.get ⟨i, lt'⟩).2 := same.get lt lt'
  have upTo : SameBlocks (blocks.take (i + 1)) (blocks'.take (i + 1)) :=
    List.forall₂_take (i + 1) same
  exact ⟨_, List.getElem?_eq_getElem lt', tx, perm.mem_iff.mp inside, id,
    touches.mono fun o own => own.imp_right (MadeIn.perm upTo.flatMap)⟩

namespace Reordered

theorem sameBlocks (same : Reordered client client' events events' listing listing')
    (startTime : UInt64) :
    SameBlocks (client.returnedBlocks startTime events)
      (client'.returnedBlocks startTime events') := by
  refine List.rel_filterMap (fun e e' rel => ?_) same.blocks
  obtain ⟨cp, block⟩ := e
  obtain ⟨cp', block'⟩ := e'
  cases rel with
  | none => exact .none
  | some perm => exact .some perm

theorem symm (same : Reordered client client' events events' listing listing') :
    Reordered client' client events' events listing' listing where
  blocks := by
    refine List.Forall₂.flip (same.blocks.imp fun e e' rel => ?_)
    obtain ⟨cp, block⟩ := e
    obtain ⟨cp', block'⟩ := e'
    cases rel with
    | none => exact .none
    | some perm => exact .some perm.symm
  mempool := same.mempool.symm
  lookups txid member := (same.lookups txid (same.mempool.mem_iff.mpr member)).symm

theorem inMempool (same : Reordered client client' events events' listing listing')
    {tx : Transaction} (member : client.InMempool listing tx) : client'.InMempool listing' tx := by
  obtain ⟨txid, there, held⟩ := member
  exact ⟨txid, same.mempool.mem_iff.mp there, (same.lookups txid there).trans held⟩

theorem lists (same : Reordered client client' events events' listing listing')
    {tx : Transaction} (member : client.Lists (client.returnedBlocks startTime events) listing tx) :
    client'.Lists (client'.returnedBlocks startTime events') listing' tx :=
  member.imp (same.sameBlocks startTime).flatMap.mem_iff.mp same.inMempool

theorem identifies (same : Reordered client client' events events' listing listing')
    (identifies : client.Identifies env (client.returnedBlocks startTime events) listing) :
    client'.Identifies env (client'.returnedBlocks startTime events') listing' where
  outputs tx tx' member member' :=
    identifies.outputs tx tx' (same.symm.lists member) (same.symm.lists member')
  asked txid member tx held := by
    have there := same.mempool.mem_iff.mpr member
    exact identifies.asked txid there tx ((same.lookups txid there).symm.trans held)

theorem found (same : Reordered client client' events events' listing listing') {txid : Txid}
    (found : (∃ i, FoundAt env spks seed (client.returnedBlocks startTime events) i txid) ∨
      FoundInMempool env client spks seed (client.returnedBlocks startTime events) listing txid) :
    (∃ i, FoundAt env spks seed (client'.returnedBlocks startTime events') i txid) ∨
      FoundInMempool env client' spks seed (client'.returnedBlocks startTime events') listing'
        txid := by
  have blocks := same.sameBlocks startTime
  rcases found with ⟨i, found⟩ | ⟨never, tx, member, id, touches⟩
  · exact .inl ⟨i, found.reordered blocks⟩
  · refine .inr ⟨fun i found => never i (found.reordered blocks.symm), tx,
      same.inMempool member, id, touches.mono fun o own => ?_⟩
    rcases own with old | made | ⟨t, there, made⟩
    · exact .inl old
    · exact .inr (.inl (made.perm blocks.flatMap))
    · exact .inr (.inr ⟨t, same.inMempool there, made⟩)

end Reordered

end Scan

namespace Sample

def refundTxid : Txid := 0x0cdfbe7edbecb01b1376046cfe17340f1c6b5ba2c56de61a7631146d33eea6db

def forwardTxid : Txid := 0x7b0e5f6d5126fbfdb4af173e2c0d81dfc6d83b73dec18e3f125c0b345e277e38

def refund : Transaction where
  version := 2
  lockTime := 0
  input := [⟨⟨depositTxid, 0⟩, [], 0xfffffffd, []⟩]
  output := [⟨99000, p2wshScript receiveHash⟩]

def forward : Transaction where
  version := 2
  lockTime := 0
  input := [⟨⟨refundTxid, 0⟩, [], 0xfffffffd, []⟩]
  output := [⟨98000, recipientScript⟩]

def mempoolEnv : Primitives :=
  { tables with txids := [(deposit, depositTxid), (refund, refundTxid),
      (forward, forwardTxid)] }.primitives

def matching : List FilterEvent := [⟨localTip, some ⟨blockHash 10, 1700000000, [deposit]⟩⟩]

def coreClient (listing : List Txid) : CoreClient where
  getBlockHash height := .ok (blockHash height.toNat)
  getBlockCount := .ok 10
  filterIter _ _ := matching.map .ok
  getBlockHeaderTime _ := .ok 1700000000
  getRawMempool := .ok listing
  getRawTransaction txid :=
    if txid = refundTxid then .ok refund
    else if txid = forwardTxid then .ok forward
    else .error ⟨"unknown", some (-5, bytes "No such mempool transaction")⟩

theorem answers (listing : List Txid) :
    (coreClient listing).Answers (some localTip) [p2wshScript receiveHash] matching listing :=
  ⟨⟨localTip, rfl, rfl⟩, rfl⟩

theorem coreClient_returns {listing : List Txid} {txid : Txid} {tx : Transaction}
    (held : (coreClient listing).getRawTransaction txid = .ok tx) :
    txid = refundTxid ∧ tx = refund ∨ txid = forwardTxid ∧ tx = forward := by
  simp only [coreClient] at held
  split_ifs at held with first second
  · exact .inl ⟨first, (Except.ok.inj held).symm⟩
  · exact .inr ⟨second, (Except.ok.inj held).symm⟩

theorem identifies (listing : List Txid) (startTime : UInt64) :
    (coreClient listing).Identifies mempoolEnv
      ((coreClient listing).returnedBlocks startTime matching) listing where
  outputs tx tx' member member' same := by
    have known (tx : Transaction) (member : (coreClient listing).Lists
        ((coreClient listing).returnedBlocks startTime matching) listing tx) :
        tx ∈ [deposit, refund, forward] := by
      rcases member with inside | ⟨txid, -, held⟩
      · have here : tx ∈ [deposit] := inside
        exact List.mem_append_left [refund, forward] here
      · rcases coreClient_returns held with ⟨-, rfl⟩ | ⟨-, rfl⟩ <;> decide
    have apart : ∀ tx ∈ [deposit, refund, forward], ∀ tx' ∈ [deposit, refund, forward],
        mempoolEnv.computeTxid tx = mempoolEnv.computeTxid tx' → tx.output = tx'.output := by
      decide
    exact apart tx (known tx member) tx' (known tx' member') same
  asked txid member tx held := by
    rcases coreClient_returns held with ⟨rfl, rfl⟩ | ⟨rfl, rfl⟩ <;> decide

end Sample

end Trinity
