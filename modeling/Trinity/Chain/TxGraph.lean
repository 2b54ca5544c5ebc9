import Mathlib.Data.List.Induction
import Trinity.Lib.Precedes
import Trinity.Verify.Derive

/-!
Blocks, and the part of the chain library that sorts their transactions: an
index of scripts and of the outputs that pay them, and a graph that keeps the
transactions the index calls relevant. Both are as `apply_block_relevant` uses
them; what the graph holds after a list of transactions is stated at the end.
-/
namespace Trinity

abbrev Txid : Type := BitVec 256
abbrev BlockHash : Type := BitVec 256

structure BlockId where
  height : UInt32
  hash : BlockHash
  deriving DecidableEq, Repr

structure Block where
  hash : BlockHash
  time : UInt32
  txdata : List Transaction
  deriving DecidableEq, Repr

structure IndexedBlock where
  height : UInt32
  block : Block
  deriving DecidableEq, Repr

structure ConfirmationBlockTime where
  blockId : BlockId
  confirmationTime : UInt64
  deriving DecidableEq, Repr

inductive KeychainKind where
  | external
  | internal
  deriving DecidableEq, Repr

structure KeychainIndex where
  keychain : KeychainKind
  index : UInt32
  deriving DecidableEq, Repr

def KeychainIndex.code (i : KeychainIndex) : Nat :=
  (if i.keychain = .external then 0 else 2 ^ 32) + i.index.toNat

theorem KeychainIndex.code_injective : Function.Injective KeychainIndex.code := by
  rintro ⟨k, n⟩ ⟨k', n'⟩ same
  have low := n.toNat_lt
  have low' := n'.toNat_lt
  cases k <;> cases k' <;> simp [KeychainIndex.code] at same
  · rw [UInt32.toNat_inj.mp same]
  · omega
  · omega
  · rw [UInt32.toNat_inj.mp same]

instance keychainIndexOrder : LinearOrder KeychainIndex :=
  orderByCode KeychainIndex.code KeychainIndex.code_injective

structure SpkTxOutIndex where
  spks : OrderedMap KeychainIndex Script
  spkIndices : List (Script × KeychainIndex)
  txouts : OrderedMap OutPoint (KeychainIndex × TxOut)
  spkTxouts : List (KeychainIndex × OutPoint)

namespace SpkTxOutIndex

def default : SpkTxOutIndex := ⟨.empty, [], .empty, []⟩

def insertSpk (index : SpkTxOutIndex) (i : KeychainIndex) (spk : Script) : SpkTxOutIndex :=
  match index.spkIndices.lookup spk with
  | some _ => index
  | none =>
    { index with spkIndices := (spk, i) :: index.spkIndices, spks := index.spks.insert i spk }

def scanTxout (index : SpkTxOutIndex) (op : OutPoint) (txout : TxOut) : SpkTxOutIndex :=
  match index.spkIndices.lookup txout.scriptPubkey with
  | some i =>
    { index with
      txouts := index.txouts.insert op (i, txout)
      spkTxouts := if (i, op) ∈ index.spkTxouts then index.spkTxouts
        else (i, op) :: index.spkTxouts }
  | none => index

def watches (index : SpkTxOutIndex) (spk : Script) : Bool := (index.spkIndices.lookup spk).isSome

def isRelevant (index : SpkTxOutIndex) (tx : Transaction) : Bool :=
  (tx.input.any fun i => (index.txouts.get? i.previousOutput).isSome) ||
    tx.output.any fun o => index.watches o.scriptPubkey

end SpkTxOutIndex

def OutPoint.isNull (o : OutPoint) : Bool := o.txid = 0 ∧ o.vout = 0xffffffff

/-- Of transactions with one id the first is kept; the library merges their
    witnesses, which nothing here reads. -/
structure TxGraph where
  txs : List Transaction
  anchors : List (ConfirmationBlockTime × Txid)

structure TxUpdate where
  txs : List Transaction
  anchors : List (ConfirmationBlockTime × Txid)
  seenAts : List (Txid × UInt64)
  deriving DecidableEq

structure IndexedTxGraph where
  index : SpkTxOutIndex
  graph : TxGraph

section Apply

variable (env : Primitives)

def watchedOutpoints (watched : Script → Bool) (tx : Transaction) : List OutPoint :=
  tx.output.zipIdx.filterMap fun (o, i) =>
    if watched o.scriptPubkey then some ⟨env.computeTxid tx, UInt32.ofNat i⟩ else none

def SpkTxOutIndex.scan (index : SpkTxOutIndex) (tx : Transaction) : SpkTxOutIndex :=
  tx.output.zipIdx.foldl (fun index (txout, i) =>
    index.scanTxout ⟨env.computeTxid tx, UInt32.ofNat i⟩ txout) index

def TxGraph.insertTx (g : TxGraph) (tx : Transaction) : TxGraph :=
  if g.txs.any fun t => env.computeTxid t = env.computeTxid tx then g
  else { g with txs := g.txs ++ [tx] }

def TxGraph.insertAnchor (g : TxGraph) (txid : Txid) (anchor : ConfirmationBlockTime) : TxGraph :=
  if (anchor, txid) ∈ g.anchors then g else { g with anchors := (anchor, txid) :: g.anchors }

def TxGraph.directConflicts (g : TxGraph) (tx : Transaction) : List Transaction :=
  g.txs.filter fun t => env.computeTxid t ≠ env.computeTxid tx ∧ tx.input.any fun i =>
    t.input.any fun j => j.previousOutput = i.previousOutput ∧ ¬ j.previousOutput.isNull

namespace IndexedTxGraph

def isTxOrConflictRelevant (g : IndexedTxGraph) (tx : Transaction) : Bool :=
  g.index.isRelevant tx || (g.graph.directConflicts env tx).any g.index.isRelevant

def applyTx (anchor : ConfirmationBlockTime) (g : IndexedTxGraph) (tx : Transaction) :
    IndexedTxGraph :=
  let g := { g with index := g.index.scan env tx }
  if g.isTxOrConflictRelevant env tx then
    { g with graph := (g.graph.insertTx env tx).insertAnchor (env.computeTxid tx) anchor }
  else g

def applyBlockRelevant (g : IndexedTxGraph) (block : Block) (height : UInt32) : IndexedTxGraph :=
  block.txdata.foldl (applyTx env ⟨⟨height, block.hash⟩, block.time.toUInt64⟩) g

end IndexedTxGraph

end Apply

section Held

variable {env : Primitives}

def Transaction.Pays (tx : Transaction) (watched : Script → Bool) : Prop :=
  ∃ o ∈ tx.output, watched o.scriptPubkey = true

def Transaction.Spends (tx : Transaction) (o : OutPoint) : Prop :=
  ∃ i ∈ tx.input, i.previousOutput = o

theorem pays_of_watched {watched : Script → Bool} {tx : Transaction} {o : OutPoint}
    (made : o ∈ watchedOutpoints env watched tx) : tx.Pays watched := by
  simp only [watchedOutpoints, List.mem_filterMap] at made
  obtain ⟨⟨out, i⟩, member, shown⟩ := made
  rw [Option.ite_none_right_eq_some] at shown
  exact ⟨out, List.fst_mem_of_mem_zipIdx member, shown.1⟩

theorem watchedOutpoints_script {watched : Script → Bool} {tx : Transaction} {o : OutPoint}
    (made : o ∈ watchedOutpoints env watched tx) :
    ∃ spk, watched spk = true ∧ o ∈ watchedOutpoints env (· == spk) tx := by
  simp only [watchedOutpoints, List.mem_filterMap] at made ⊢
  obtain ⟨⟨out, i⟩, member, shown⟩ := made
  rw [Option.ite_none_right_eq_some] at shown
  exact ⟨out.scriptPubkey, shown.1, (out, i), member, by simpa using shown.2⟩

namespace SpkTxOutIndex

variable {index : SpkTxOutIndex}

theorem scanTxout_watches (op : OutPoint) (txout : TxOut) :
    (index.scanTxout op txout).watches = index.watches := by
  unfold scanTxout
  split <;> rfl

theorem scanTxout_txouts {op o : OutPoint} {txout : TxOut} :
    ((index.scanTxout op txout).txouts.get? o).isSome = true ↔
      (index.txouts.get? o).isSome = true ∨
        (o = op ∧ index.watches txout.scriptPubkey = true) := by
  unfold scanTxout watches
  split
  · rename_i i found
    rw [OrderedMap.get?_insert, found]
    by_cases same : o = op <;> simp [same]
  · rename_i missing
    simp [missing]

theorem scan_spec (env : Primitives) (index : SpkTxOutIndex) (tx : Transaction) :
    (index.scan env tx).watches = index.watches ∧ ∀ o,
      ((index.scan env tx).txouts.get? o).isSome = true ↔
        (index.txouts.get? o).isSome = true ∨ o ∈ watchedOutpoints env index.watches tx := by
  unfold scan watchedOutpoints
  generalize tx.output.zipIdx = outputs
  induction outputs generalizing index with
  | nil => simp
  | cons first rest ih =>
    obtain ⟨txout, i⟩ := first
    obtain ⟨same, txouts⟩ :=
      ih (index.scanTxout ⟨env.computeTxid tx, UInt32.ofNat i⟩ txout)
    rw [scanTxout_watches] at same txouts
    refine ⟨same, fun o => ?_⟩
    rw [List.foldl_cons, txouts, scanTxout_txouts, List.filterMap_cons]
    by_cases watched : index.watches txout.scriptPubkey = true
    · simp only [watched, if_true, List.mem_cons, and_true]
      tauto
    · simp [watched]

theorem isRelevant_iff {tx : Transaction} :
    index.isRelevant tx = true ↔ tx.Pays index.watches ∨
      ∃ o, tx.Spends o ∧ (index.txouts.get? o).isSome = true := by
  simp only [isRelevant, Bool.or_eq_true, List.any_eq_true, Transaction.Pays, Transaction.Spends]
  constructor
  · rintro (⟨i, member, known⟩ | pays)
    · exact .inr ⟨_, ⟨i, member, rfl⟩, known⟩
    · exact .inl pays
  · rintro (pays | ⟨_, ⟨i, member, rfl⟩, known⟩)
    · exact .inr pays
    · exact .inl ⟨i, member, known⟩

end SpkTxOutIndex

def TxGraph.Holds (env : Primitives) (g : TxGraph) (txid : Txid) : Prop :=
  ∃ t ∈ g.txs, env.computeTxid t = txid

theorem insertTx_holds {g : TxGraph} {tx : Transaction} {txid : Txid} :
    (g.insertTx env tx).Holds env txid ↔ g.Holds env txid ∨ txid = env.computeTxid tx := by
  unfold TxGraph.insertTx TxGraph.Holds
  split
  · rename_i present
    simp only [List.any_eq_true, decide_eq_true_eq] at present
    constructor
    · exact .inl
    · rintro (held | rfl)
      · exact held
      · exact present
  · simp only [List.mem_append, List.mem_singleton, or_and_right, exists_or, exists_eq_left]
    rw [@eq_comm _ txid]

theorem insertAnchor_txs (g : TxGraph) (txid : Txid) (anchor : ConfirmationBlockTime) :
    (g.insertAnchor txid anchor).txs = g.txs := by
  unfold TxGraph.insertAnchor
  split <;> rfl

theorem mem_insertTx {g : TxGraph} {tx t : Transaction} (member : t ∈ (g.insertTx env tx).txs) :
    t ∈ g.txs ∨ t = tx := by
  unfold TxGraph.insertTx at member
  split at member
  · exact .inl member
  · simpa using member

namespace IndexedTxGraph

def applyAll (env : Primitives) (g : IndexedTxGraph)
    (txs : List (ConfirmationBlockTime × Transaction)) : IndexedTxGraph :=
  txs.foldl (fun g t => g.applyTx env t.1 t.2) g

theorem applyTx_index (anchor : ConfirmationBlockTime) (g : IndexedTxGraph) (tx : Transaction) :
    (g.applyTx env anchor tx).index = g.index.scan env tx := by
  dsimp only [applyTx]
  split <;> rfl

theorem applyAll_concat (g : IndexedTxGraph) (txs : List (ConfirmationBlockTime × Transaction))
    (anchor : ConfirmationBlockTime) (tx : Transaction) :
    g.applyAll env (txs ++ [(anchor, tx)]) = (g.applyAll env txs).applyTx env anchor tx := by
  simp [applyAll]

theorem applyAll_index (env : Primitives) (g : IndexedTxGraph)
    (txs : List (ConfirmationBlockTime × Transaction)) :
    (g.applyAll env txs).index.watches = g.index.watches ∧ ∀ o,
      ((g.applyAll env txs).index.txouts.get? o).isSome = true ↔
        (g.index.txouts.get? o).isSome = true ∨
          ∃ t ∈ txs.map Prod.snd, o ∈ watchedOutpoints env g.index.watches t := by
  induction txs using List.reverseRecOn with
  | nil => simp [applyAll]
  | append_singleton txs last ih =>
    obtain ⟨anchor, tx⟩ := last
    obtain ⟨same, known⟩ := ih
    rw [applyAll_concat, applyTx_index]
    obtain ⟨same', known'⟩ := SpkTxOutIndex.scan_spec env (g.applyAll env txs).index tx
    refine ⟨same'.trans same, fun o => ?_⟩
    rw [known', known, same, List.map_append, List.map_cons, List.map_nil]
    simp only [List.mem_append, List.mem_singleton, or_and_right, exists_or, exists_eq_left]
    exact or_assoc

/-- A transaction that pays a watched script, or spends a watched output of a
    transaction before it. -/
def Visible (env : Primitives) (watched : Script → Bool) (txs : List Transaction)
    (tx : Transaction) : Prop :=
  tx ∈ txs ∧ (tx.Pays watched ∨
    ∃ f o, List.Precedes f tx txs ∧ o ∈ watchedOutpoints env watched f ∧ tx.Spends o)

theorem Visible.mono {watched : Script → Bool} {txs txs' : List Transaction} {tx : Transaction}
    (visible : Visible env watched txs tx) (inside : txs.Sublist txs') :
    Visible env watched txs' tx := by
  refine ⟨inside.subset visible.1, ?_⟩
  rcases visible.2 with pays | ⟨f, o, order, made, spends⟩
  · exact .inl pays
  · exact .inr ⟨f, o, order.mono inside, made, spends⟩

theorem applyTx_holds_mono {g : IndexedTxGraph} {anchor : ConfirmationBlockTime}
    {tx : Transaction} {txid : Txid} (held : g.graph.Holds env txid) :
    (g.applyTx env anchor tx).graph.Holds env txid := by
  dsimp only [applyTx]
  split
  · rw [TxGraph.Holds, insertAnchor_txs]
    exact insertTx_holds.mpr (.inl held)
  · exact held

theorem holds_of_visible {g : IndexedTxGraph} {txs : List (ConfirmationBlockTime × Transaction)}
    {tx : Transaction} (visible : Visible env g.index.watches (txs.map Prod.snd) tx) :
    (g.applyAll env txs).graph.Holds env (env.computeTxid tx) := by
  induction txs using List.reverseRecOn with
  | nil => simp [Visible] at visible
  | append_singleton txs last ih =>
    obtain ⟨anchor, t⟩ := last
    rw [applyAll_concat]
    rw [List.map_append, List.map_cons, List.map_nil] at visible
    obtain ⟨member, shown⟩ := visible
    obtain ⟨same, known⟩ := applyAll_index env g txs
    obtain ⟨same', known'⟩ := SpkTxOutIndex.scan_spec env (g.applyAll env txs).index t
    -- Either the transaction was visible before, or it is the last one and the
    -- index now calls it relevant.
    by_cases earlier : Visible env g.index.watches (txs.map Prod.snd) tx
    · exact applyTx_holds_mono (ih earlier)
    · have last : tx = t ∧ ((g.applyAll env txs).index.scan env t).isRelevant t = true := by
        rw [SpkTxOutIndex.isRelevant_iff]
        rw [List.mem_append, List.mem_singleton] at member
        rcases shown with pays | ⟨f, o, order, made, spends⟩
        · rcases member with old | rfl
          · exact absurd ⟨old, .inl pays⟩ earlier
          · exact ⟨rfl, .inl (by rwa [same', same])⟩
        · rcases List.precedes_concat.mp order with old | ⟨before, rfl⟩
          · exact absurd ⟨old.mem_right, .inr ⟨f, o, old, made, spends⟩⟩ earlier
          · refine ⟨rfl, .inr ⟨o, spends, ?_⟩⟩
            rw [known', known]
            exact .inl (.inr ⟨f, before, made⟩)
      obtain ⟨rfl, relevant⟩ := last
      simp only [applyTx, isTxOrConflictRelevant, relevant, Bool.true_or, if_true]
      rw [TxGraph.Holds, insertAnchor_txs]
      exact insertTx_holds.mpr (.inr rfl)

def NoConflicts (env : Primitives) (txs : List Transaction) : Prop :=
  ∀ t ∈ txs, ∀ t' ∈ txs, env.computeTxid t ≠ env.computeTxid t' →
    ∀ o, t.Spends o → ¬ t'.Spends o

theorem visible_of_mem {g : IndexedTxGraph} {txs : List (ConfirmationBlockTime × Transaction)}
    {tx : Transaction} (fresh : ∀ o, g.index.txouts.get? o = none) (empty : g.graph.txs = [])
    (apart : NoConflicts env (txs.map Prod.snd)) (member : tx ∈ (g.applyAll env txs).graph.txs) :
    Visible env g.index.watches (txs.map Prod.snd) tx := by
  induction txs using List.reverseRecOn generalizing tx with
  | nil => simp [applyAll, empty] at member
  | append_singleton txs last ih =>
    obtain ⟨anchor, t⟩ := last
    rw [applyAll_concat] at member
    rw [List.map_append, List.map_cons, List.map_nil] at apart ⊢
    have before : NoConflicts env (txs.map Prod.snd) := fun a memberA b memberB =>
      apart a (List.mem_append_left _ memberA) b (List.mem_append_left _ memberB)
    have inside : (txs.map Prod.snd).Sublist (txs.map Prod.snd ++ [t]) :=
      List.sublist_append_left _ _
    dsimp only [applyTx] at member
    split at member
    · rename_i relevant
      rw [insertAnchor_txs] at member
      rcases mem_insertTx member with old | rfl
      · exact (ih before old).mono inside
      · refine ⟨by simp, ?_⟩
        obtain ⟨same, known⟩ := applyAll_index env g txs
        obtain ⟨same', known'⟩ := SpkTxOutIndex.scan_spec env (g.applyAll env txs).index tx
        have alone : (g.applyAll env txs).graph.directConflicts env tx = [] := by
          rw [TxGraph.directConflicts, List.filter_eq_nil_iff]
          intro other held conflict
          simp only [decide_eq_true_eq, List.any_eq_true] at conflict
          obtain ⟨different, i, spent, j, spent', shared, _⟩ := conflict
          exact apart other (inside.subset (ih before held).1) tx (by simp) different _
            ⟨j, spent', rfl⟩ ⟨i, spent, shared.symm⟩
        simp only [isTxOrConflictRelevant, alone, List.any_nil, Bool.or_false] at relevant
        rcases SpkTxOutIndex.isRelevant_iff.mp relevant with pays | ⟨o, spends, found⟩
        · rw [same', same] at pays
          exact .inl pays
        · rw [known', known, fresh, same] at found
          rcases found with (old | ⟨f, earlier, made⟩) | own
          · simp at old
          · exact .inr ⟨f, o, List.precedes_concat.mpr (.inr ⟨earlier, rfl⟩), made, spends⟩
          · exact .inl (pays_of_watched own)
    · exact (ih before member).mono inside

end IndexedTxGraph

end Held

end Trinity
