import Trinity.Watch.PaymentDecides

/-!
The wallet over time: transactions come in with updates, addresses are handed out
and payments are built, in any order. Index and graph agree after every run, so
what is said of a payment built from such a wallet holds whenever one is built.
-/
namespace Trinity.Watch

open Outcome Word Shuffle KeychainTxOutIndex

namespace KeychainTxOutIndex

variable {ε : Type} {derive : Derive} {s s' : KeychainTxOutIndex}

def SameOutpoints (s s' : KeychainTxOutIndex) : Prop :=
  s'.inner.spkTxouts = s.inner.spkTxouts

theorem insertSpk_outpoints (s : KeychainTxOutIndex) (i : KeychainIndex) (spk : Script) :
    SameOutpoints s (s.insertSpk i spk) := by
  unfold insertSpk SameOutpoints
  split
  · rfl
  · unfold SpkTxOutIndex.insertSpk
    split
    · rfl
    · rfl

theorem replenish_outpoints (derive : Derive) (s : KeychainTxOutIndex) (k : KeychainKind) :
    SameOutpoints s (s.replenishInnerIndex derive k) := by
  unfold replenishInnerIndex
  generalize List.range' (s.nextStored k) (s.stopIndex k - s.nextStored k) = ns
  induction ns generalizing s with
  | nil => rfl
  | cons n ns ih => exact (ih _).trans (insertSpk_outpoints s _ _)

theorem setRevealed_outpoints (derive : Derive) (s : KeychainTxOutIndex) (i : KeychainIndex) :
    SameOutpoints s (s.setRevealed derive i) :=
  replenish_outpoints derive _ _

theorem new_outpoints (derive : Derive) : (new derive).inner.spkTxouts = [] := by
  have first := replenish_outpoints derive ⟨.default, [], fun _ => none⟩ .external
  have second := replenish_outpoints derive
    (replenishInnerIndex derive ⟨.default, [], fun _ => none⟩ .external) .internal
  unfold SameOutpoints at first second
  rw [new, second, first]
  rfl

theorem revealNextSpk_outpoints {k : KeychainKind} {place : UInt32 × Script}
    (run : (s.revealNextSpk derive k : Outcome ε _) = .ok (place, s')) : SameOutpoints s s' := by
  simp only [revealNextSpk, bind_eq_ok, pure_eq_ok] at run
  obtain ⟨⟨i, new⟩, _, spk, _, same⟩ := run
  obtain ⟨_, rfl⟩ : _ ∧ _ = s' := by simpa using same
  cases new with
  | true => exact setRevealed_outpoints derive s _
  | false => rfl

theorem revealLoop_outpoints {k : KeychainKind} {target : UInt32} {turns : ℕ}
    (run : (revealLoop derive k target turns s : Outcome ε _) = .ok s') : SameOutpoints s s' := by
  induction turns generalizing s with
  | zero =>
    obtain rfl : s = s' := by simpa [revealLoop] using run
    rfl
  | succ turns ih =>
    simp only [revealLoop, bind_eq_ok] at run
    obtain ⟨⟨i, new⟩, _, run⟩ := run
    split at run
    · obtain rfl : s = s' := by simpa using run
      rfl
    · obtain ⟨⟨place, next⟩, revealed, later⟩ := bind_eq_ok.mp run
      exact (ih later).trans (revealNextSpk_outpoints revealed)

theorem revealToTarget_outpoints {k : KeychainKind} {target : UInt32}
    (run : (s.revealToTarget derive k target : Outcome ε _) = .ok s') : SameOutpoints s s' :=
  revealLoop_outpoints run

theorem nextUnusedSpk_outpoints {k : KeychainKind} {place : UInt32 × Script}
    (run : (s.nextUnusedSpk derive k : Outcome ε _) = .ok (place, s')) : SameOutpoints s s' := by
  unfold nextUnusedSpk at run
  split at run
  · simp only [bind_eq_ok, pure_eq_ok] at run
    obtain ⟨spk, _, same⟩ := run
    obtain ⟨_, rfl⟩ : _ ∧ s = s' := by simpa using same
    rfl
  · exact revealNextSpk_outpoints run

theorem recordChange_outpoints {i : UInt32}
    (run : (s.recordChange derive i : Outcome ε _) = .ok s') : SameOutpoints s s' := by
  simp only [recordChange, bind_eq_ok, pure_eq_ok] at run
  obtain ⟨revealed, isRevealed, rfl⟩ := run
  have same : SameOutpoints s revealed := revealToTarget_outpoints isRevealed
  exact same

theorem indexTxout_outpoints (op : OutPoint) {txout : TxOut} {i : KeychainIndex}
    (found : s.inner.spkIndices.lookup txout.scriptPubkey = some i) :
    (s.indexTxout derive op txout).1.inner.spkTxouts =
      if (i, op) ∈ s.inner.spkTxouts then s.inner.spkTxouts else (i, op) :: s.inner.spkTxouts := by
  have scanned : (s.inner.scanTxout op txout).spkTxouts =
      if (i, op) ∈ s.inner.spkTxouts then s.inner.spkTxouts
      else (i, op) :: s.inner.spkTxouts := by
    rw [SpkTxOutIndex.scanTxout, found]
  unfold indexTxout
  rw [found, ← scanned]
  simp only
  split
  · rfl
  · exact setRevealed_outpoints derive _ i

theorem indexTxout_none {op : OutPoint} {txout : TxOut}
    (none : s.inner.spkIndices.lookup txout.scriptPubkey = none) :
    (s.indexTxout derive op txout).1 = s := by
  unfold indexTxout
  rw [none]

theorem mem_indexTxout_outpoints {op : OutPoint} {txout : TxOut} {e : KeychainIndex × OutPoint} :
    e ∈ (s.indexTxout derive op txout).1.inner.spkTxouts ↔ e ∈ s.inner.spkTxouts ∨
      e.2 = op ∧ s.inner.spkIndices.lookup txout.scriptPubkey = some e.1 := by
  cases found : s.inner.spkIndices.lookup txout.scriptPubkey with
  | none =>
    rw [indexTxout_none found]
    simp
  | some i =>
    have here : e = (i, op) ↔ e.2 = op ∧ some i = some e.1 := by
      rw [Prod.ext_iff, Option.some.injEq, and_comm, eq_comm (a := e.1)]
    rw [indexTxout_outpoints op found]
    split
    · rename_i old
      rw [← here]
      constructor
      · exact .inl
      · rintro (member | rfl)
        · exact member
        · exact old
    · rw [List.mem_cons, here, or_comm]

theorem indexTxout_once (once : s.inner.spkTxouts.Nodup) (op : OutPoint) (txout : TxOut) :
    (s.indexTxout derive op txout).1.inner.spkTxouts.Nodup := by
  cases found : s.inner.spkIndices.lookup txout.scriptPubkey with
  | none => rwa [indexTxout_none found]
  | some i =>
    rw [indexTxout_outpoints op found]
    split
    · exact once
    · rename_i absent
      exact List.nodup_cons.mpr ⟨absent, once⟩

theorem Advances.watched (indexed : Indexed derive s) (advances : Advances derive s s')
    {spk : Script} {i : KeychainIndex} (found : s.inner.spkIndices.lookup spk = some i) :
    s'.inner.spkIndices.lookup spk = some i := by
  obtain ⟨low, same⟩ := (indexed.stores.indices spk i).mp found
  apply (advances.indexed.stores.indices spk i).mpr
  refine ⟨low.trans_le ?_, same⟩
  have more := advances.reveals i.keychain
  unfold stopIndex
  omega

/-- Every outpoint of the index is an output of the graph, at the place of its script. -/
structure Agrees (derive : Derive) (graph : TxGraph) (s : KeychainTxOutIndex) : Prop where
  indexed : Indexed derive s
  once : s.inner.spkTxouts.Nodup
  found : ∀ e ∈ s.inner.spkTxouts, ∃ txout, graph.getTxout e.2 = some txout ∧
    s.inner.spkIndices.lookup txout.scriptPubkey = some e.1

variable {graph graph' : TxGraph}

theorem new_agrees (distinct : DistinctPlaces derive) (graph : TxGraph) :
    Agrees derive graph (new derive) := by
  have outpoints := new_outpoints derive
  refine ⟨new_indexed distinct, ?_, ?_⟩
  · rw [outpoints]
    exact List.nodup_nil
  · rw [outpoints]
    intro e member
    simp at member

theorem Agrees.advance (agrees : Agrees derive graph s) (advances : Advances derive s s')
    (same : SameOutpoints s s') : Agrees derive graph s' := by
  refine ⟨advances.indexed, by rw [same]; exact agrees.once, ?_⟩
  intro e member
  rw [same] at member
  obtain ⟨txout, output, place⟩ := agrees.found e member
  exact ⟨txout, output, advances.watched agrees.indexed place⟩

theorem Agrees.grow (agrees : Agrees derive graph s) (grows : TxGraph.Grows graph graph') :
    Agrees derive graph' s := by
  refine ⟨agrees.indexed, agrees.once, ?_⟩
  intro e member
  obtain ⟨txout, output, place⟩ := agrees.found e member
  exact ⟨txout, grows _ _ output, place⟩

theorem Agrees.indexTxout (agrees : Agrees derive graph s) (distinct : DistinctPlaces derive)
    {op : OutPoint} {txout : TxOut} (output : graph.getTxout op = some txout) :
    Agrees derive graph (s.indexTxout derive op txout).1 := by
  have advances := (indexTxout_ok agrees.indexed distinct op txout).1
  refine ⟨advances.indexed, indexTxout_once agrees.once op txout, ?_⟩
  intro e member
  rcases mem_indexTxout_outpoints.mp member with old | ⟨here, place⟩
  · obtain ⟨txout, output, place⟩ := agrees.found e old
    exact ⟨txout, output, advances.watched agrees.indexed place⟩
  · rw [here]
    exact ⟨txout, output, advances.watched agrees.indexed place⟩

theorem Agrees.indexTx {env : Primitives} {tx : Transaction} (agrees : Agrees derive graph s)
    (distinct : DistinctPlaces derive)
    (held : ∀ n txout, tx.output[n]? = some txout →
      graph.getTxout ⟨env.computeTxid tx, UInt32.ofNat n⟩ = some txout) :
    Agrees derive graph (s.indexTx derive env tx).1 := by
  have loop : ∀ (outs : List (TxOut × ℕ)) (st : KeychainTxOutIndex × List KeychainIndex),
      (∀ out ∈ outs, tx.output[out.2]? = some out.1) → Agrees derive graph st.1 →
      Agrees derive graph (outs.foldl (indexNext derive (env.computeTxid tx)) st).1 := by
    intro outs
    induction outs with
    | nil => intro st _ agrees; exact agrees
    | cons first rest ih =>
      intro st each agrees
      apply ih _ fun out member => each out (List.mem_cons_of_mem _ member)
      exact agrees.indexTxout distinct (held _ _ (each first List.mem_cons_self))
  apply loop tx.output.zipIdx (s, []) _ agrees
  intro out member
  exact List.mem_zipIdx_iff_getElem?.mp member

structure Keeps (derive : Derive) (s s' : KeychainTxOutIndex) : Prop where
  advances : Advances derive s s'
  found : ∀ e ∈ s.inner.spkTxouts, e ∈ s'.inner.spkTxouts

theorem Keeps.refl (indexed : Indexed derive s) : Keeps derive s s :=
  ⟨.refl indexed, fun _ member => member⟩

theorem Keeps.trans {s'' : KeychainTxOutIndex} (first : Keeps derive s s')
    (second : Keeps derive s' s'') : Keeps derive s s'' :=
  ⟨first.advances.trans second.advances, fun e member => second.found e (first.found e member)⟩

theorem Keeps.of_same (advances : Advances derive s s') (same : SameOutpoints s s') :
    Keeps derive s s' :=
  ⟨advances, fun e member => by rwa [same]⟩

theorem indexTxout_keeps (indexed : Indexed derive s) (distinct : DistinctPlaces derive)
    (op : OutPoint) (txout : TxOut) : Keeps derive s (s.indexTxout derive op txout).1 :=
  ⟨(indexTxout_ok indexed distinct op txout).1,
    fun _ member => mem_indexTxout_outpoints.mpr (.inl member)⟩

theorem foldl_indexNext_keeps (distinct : DistinctPlaces derive) (txid : Txid)
    (outs : List (TxOut × ℕ)) (st : KeychainTxOutIndex × List KeychainIndex)
    (indexed : Indexed derive st.1) :
    Keeps derive st.1 (outs.foldl (indexNext derive txid) st).1 := by
  induction outs generalizing st with
  | nil => exact .refl indexed
  | cons out rest ih =>
    have first := indexTxout_keeps indexed distinct ⟨txid, UInt32.ofNat out.2⟩ out.1
    exact first.trans (ih (indexNext derive txid st out) first.advances.indexed)

theorem indexTx_keeps (indexed : Indexed derive s) (distinct : DistinctPlaces derive)
    (env : Primitives) (tx : Transaction) : Keeps derive s (s.indexTx derive env tx).1 :=
  foldl_indexNext_keeps distinct _ _ (s, []) indexed

theorem Keeps.foldl {A : Type} {f : KeychainTxOutIndex → A → KeychainTxOutIndex}
    (each : ∀ s a, Indexed derive s → Keeps derive s (f s a)) (entries : List A)
    (indexed : Indexed derive s) : Keeps derive s (entries.foldl f s) := by
  induction entries generalizing s with
  | nil => exact .refl indexed
  | cons a rest ih =>
    have first := each s a indexed
    exact first.trans (ih first.advances.indexed)

/-- `index_tx_graph_changeset`: the new transactions, then the new single outputs. -/
def indexTxs (env : Primitives) (derive : Derive) (txs : List Transaction)
    (s : KeychainTxOutIndex) : KeychainTxOutIndex :=
  txs.foldl (fun s tx => (s.indexTx derive env tx).1) s

def indexTxouts (derive : Derive) (txouts : OrderedMap OutPoint TxOut)
    (s : KeychainTxOutIndex) : KeychainTxOutIndex :=
  txouts.entries.foldl (fun s e => (s.indexTxout derive e.1 e.2).1) s

def indexTxGraphChangeset (env : Primitives) (derive : Derive) (changes : GraphChanges)
    (s : KeychainTxOutIndex) : KeychainTxOutIndex :=
  (s.indexTxs env derive changes.txs).indexTxouts derive changes.txouts

theorem indexTxs_keeps (indexed : Indexed derive s) (distinct : DistinctPlaces derive)
    (env : Primitives) (txs : List Transaction) : Keeps derive s (s.indexTxs env derive txs) :=
  .foldl (fun _ tx indexed => indexTx_keeps indexed distinct env tx) txs indexed

theorem indexTxouts_keeps (indexed : Indexed derive s) (distinct : DistinctPlaces derive)
    (txouts : OrderedMap OutPoint TxOut) : Keeps derive s (s.indexTxouts derive txouts) :=
  .foldl (fun _ e indexed => indexTxout_keeps indexed distinct e.1 e.2) txouts.entries indexed

theorem indexTxGraphChangeset_keeps (indexed : Indexed derive s)
    (distinct : DistinctPlaces derive) (env : Primitives) (changes : GraphChanges) :
    Keeps derive s (s.indexTxGraphChangeset env derive changes) := by
  have first := indexTxs_keeps indexed distinct env changes.txs
  exact first.trans (indexTxouts_keeps first.advances.indexed distinct changes.txouts)

theorem Agrees.indexTxGraphChangeset {env : Primitives} {seen : Shown} {g : TxGraph}
    {after : TxGraph × GraphChanges} (agrees : Agrees derive after.1 s)
    (distinct : DistinctPlaces derive) (updated : TxGraph.Updated env seen g after) :
    Agrees derive after.1 (s.indexTxGraphChangeset env derive after.2) := by
  have txs : ∀ (txs : List Transaction) (s : KeychainTxOutIndex), (∀ a ∈ txs, a ∈ after.2.txs) →
      Agrees derive after.1 s → Agrees derive after.1 (s.indexTxs env derive txs) := by
    intro txs
    induction txs with
    | nil => intro s _ agrees; exact agrees
    | cons a rest ih =>
      intro s each agrees
      exact ih _ (fun a member => each a (List.mem_cons_of_mem _ member))
        (agrees.indexTx distinct (updated.txs a (each a List.mem_cons_self)))
  have txouts : ∀ (outs : List (OutPoint × TxOut)) (s : KeychainTxOutIndex),
      (∀ e ∈ outs, e ∈ after.2.txouts.entries) → Agrees derive after.1 s →
      Agrees derive after.1 (outs.foldl (fun s e => (s.indexTxout derive e.1 e.2).1) s) := by
    intro outs
    induction outs with
    | nil => intro s _ agrees; exact agrees
    | cons e rest ih =>
      intro s each agrees
      exact ih _ (fun e member => each e (List.mem_cons_of_mem _ member))
        (agrees.indexTxout distinct (updated.txouts e (each e List.mem_cons_self)))
  exact txouts _ _ (fun _ member => member) (txs _ s (fun _ member => member) agrees)

def revealActive (derive : Derive) (lastActive : KeychainKind → Option UInt32)
    (s : KeychainTxOutIndex) (k : KeychainKind) : Outcome ε KeychainTxOutIndex :=
  match lastActive k with
  | some i => s.revealToTarget derive k i
  | none => return s

def revealToTargetMulti (derive : Derive) (lastActive : KeychainKind → Option UInt32)
    (s : KeychainTxOutIndex) : Outcome ε KeychainTxOutIndex :=
  [KeychainKind.external, .internal].foldlM (revealActive derive lastActive) s

theorem revealToTargetMulti_ok (distinct : DistinctPlaces derive) (indexed : Indexed derive s)
    {lastActive : KeychainKind → Option UInt32}
    (run : (s.revealToTargetMulti derive lastActive : Outcome ε _) = .ok s') :
    Advances derive s s' ∧ SameOutpoints s s' := by
  unfold revealToTargetMulti at run
  generalize [KeychainKind.external, .internal] = keychains at run
  induction keychains generalizing s with
  | nil =>
    obtain rfl : s = s' := by simpa using run
    exact ⟨.refl indexed, rfl⟩
  | cons k rest ih =>
    rw [List.foldlM_cons] at run
    obtain ⟨next, revealed, later⟩ := bind_eq_ok.mp run
    have step : Advances derive s next ∧ SameOutpoints s next := by
      unfold revealActive at revealed
      split at revealed
      · exact ⟨(revealToTarget_ok distinct indexed revealed).1, revealToTarget_outpoints revealed⟩
      · obtain rfl : s = next := by simpa using revealed
        exact ⟨.refl indexed, rfl⟩
    obtain ⟨advances, same⟩ := ih step.1.indexed later
    exact ⟨step.1.trans advances, same.trans step.2⟩

end KeychainTxOutIndex

namespace Wallet

def chainWith (w : Wallet) (update : Option CheckPoint) : Outcome CannotConnectError LocalChain :=
  match update with
  | some update => w.chain.applyUpdate update
  | none => return w.chain

def applyUpdate (env : Primitives) (lib : GraphLibrary) (w : Wallet) (update : CoreUpdate) :
    Outcome CannotConnectError Wallet := do
  let chain ← w.chainWith update.chain
  let index ← w.index.revealToTargetMulti w.derive update.lastActiveIndices
  let (graph, changes) := w.graph.applyUpdate env lib update.txUpdate
  return { w with index := index.indexTxGraphChangeset env w.derive changes, graph, chain }

structure Described (definite : KeychainKind → UInt32 → DefiniteDescriptor)
    (extendedKeys : KeychainKind → List DescriptorXKey) : Prop where
  p2wsh : ∀ k i, ∃ hash, (definite k i).scriptPubkey = p2wshScript hash
  distinct : DistinctPlaces fun k i => (definite k i).scriptPubkey
  origins : ∀ k, ∀ key ∈ extendedKeys k, key.origin.isSome ∨ key.depth = 0

structure Sound (env : Primitives) (seen : Shown) (w : Wallet) : Prop where
  described : Described w.definite w.extendedKeys
  agrees : Agrees w.derive w.graph w.index
  known : w.graph.Known env seen

def new (definite : KeychainKind → UInt32 → DefiniteDescriptor)
    (extendedKeys : KeychainKind → List DescriptorXKey)
    (xpubField : Str → Trinity.KeySource → Str × Str) (genesis : BlockHash) : Wallet where
  definite := definite
  extendedKeys := extendedKeys
  xpubField := xpubField
  index := KeychainTxOutIndex.new fun k i => (definite k i).scriptPubkey
  graph := .default
  chain := .fromGenesisHash genesis

theorem new_index (definite : KeychainKind → UInt32 → DefiniteDescriptor)
    (extendedKeys : KeychainKind → List DescriptorXKey)
    (xpubField : Str → Trinity.KeySource → Str × Str) (genesis : BlockHash) :
    (Wallet.new definite extendedKeys xpubField genesis).index =
      KeychainTxOutIndex.new fun k i => (definite k i).scriptPubkey := by
  simp only [Wallet.new]

inductive Op where
  | apply (update : CoreUpdate)
  | revealNext (k : KeychainKind)
  | nextUnused (k : KeychainKind)
  | build (params : TxParams) (rng : Draws)

structure Build where
  before : Wallet
  params : TxParams
  psbt : Psbt
  after : Wallet

section Runs

variable (env : Primitives) (lib : GraphLibrary) (order : ValueOrder)

/-- An update that does not connect to the chain leaves the wallet as it is. -/
def updateStep (w : Wallet) (update : CoreUpdate) : Outcome CreateTxError (Wallet × List Build) :=
  match w.applyUpdate env lib update with
  | .ok after => .ok (after, [])
  | .error (.error _) => .ok (w, [])
  | .error .panic => .error .panic

/-- A payment that cannot be built leaves the wallet as it is. -/
def buildStep (w : Wallet) (params : TxParams) (rng : Draws) :
    Outcome CreateTxError (Wallet × List Build) :=
  match w.createTx env order params rng with
  | .ok (psbt, after) => .ok (after, [⟨w, params, psbt, after⟩])
  | .error (.error _) => .ok (w, [])
  | .error .panic => .error .panic

def Op.run (w : Wallet) : Op → Outcome CreateTxError (Wallet × List Build)
  | .apply update => w.updateStep env lib update
  | .revealNext k => do
    let (_, index) ← w.index.revealNextSpk w.derive k
    return ({ w with index }, [])
  | .nextUnused k => do
    let (_, index) ← w.index.nextUnusedSpk w.derive k
    return ({ w with index }, [])
  | .build params rng => w.buildStep env order params rng

def runOps : List Op → Wallet → Outcome CreateTxError (Wallet × List Build)
  | [], w => return (w, [])
  | op :: rest, w => do
    let (w, built) ← op.run env lib order w
    let (w, more) ← runOps rest w
    return (w, built ++ more)

end Runs

def Op.shown : Op → Shown
  | .apply update => ⟨update.txUpdate.txs, update.txUpdate.txouts.entries⟩
  | _ => ⟨[], []⟩

def shownBy (ops : List Op) : Shown :=
  ⟨ops.flatMap fun op => op.shown.txs, ops.flatMap fun op => op.shown.txouts⟩

def Op.Within (seen : Shown) (op : Op) : Prop :=
  (∀ tx ∈ op.shown.txs, tx ∈ seen.txs) ∧ ∀ e ∈ op.shown.txouts, e ∈ seen.txouts

theorem within_shownBy {ops : List Op} : ∀ op ∈ ops, op.Within (shownBy ops) := fun op member =>
  ⟨fun _ shown => List.mem_flatMap.mpr ⟨op, member, shown⟩,
    fun _ shown => List.mem_flatMap.mpr ⟨op, member, shown⟩⟩

section Invariant

variable {env : Primitives} {lib : GraphLibrary} {order : ValueOrder} {seen : Shown}
  {w w' : Wallet}

theorem Sound.consistent (sound : w.Sound env seen) (identified : Identified env seen) :
    w.Consistent env := by
  refine ⟨sound.described.p2wsh, sound.described.distinct, sound.agrees.indexed,
    ⟨?_, sound.known.spends⟩, sound.agrees.once, sound.agrees.found, sound.described.origins⟩
  intro txid tx held
  obtain ⟨tx', member, same, isTxid⟩ := sound.known.txs txid tx held
  rw [identified.stripped tx' member tx same, isTxid]

/-- A later state of the wallet: sound, and nothing of the earlier one is lost. -/
structure Follows (env : Primitives) (seen : Shown) (w w' : Wallet) : Prop where
  sound : w'.Sound env seen
  definite : w'.definite = w.definite
  index : Keeps w.derive w.index w'.index
  graph : TxGraph.Grows w.graph w'.graph

theorem Follows.derive (follows : Follows env seen w w') : w'.derive = w.derive := by
  unfold Wallet.derive
  rw [follows.definite]

theorem Follows.trans {w'' : Wallet} (first : Follows env seen w w')
    (second : Follows env seen w' w'') : Follows env seen w w'' :=
  ⟨second.sound, second.definite.trans first.definite,
    first.index.trans (first.derive ▸ second.index), first.graph.trans second.graph⟩

theorem Sound.advance (sound : w.Sound env seen) {index : KeychainTxOutIndex}
    (advances : Advances w.derive w.index index) (same : SameOutpoints w.index index) :
    Follows env seen w { w with index } :=
  ⟨⟨sound.described, sound.agrees.advance advances same, sound.known⟩, rfl,
    .of_same advances same, .refl _⟩

theorem Sound.follows (sound : w.Sound env seen) : Follows env seen w w :=
  sound.advance (.refl sound.agrees.indexed) rfl

theorem applyUpdate_follows (identified : Identified env seen) (sound : w.Sound env seen)
    {update : CoreUpdate} (within : (Op.apply update).Within seen)
    (run : w.applyUpdate env lib update = .ok w') : Follows env seen w w' := by
  simp only [applyUpdate, bind_eq_ok, pure_eq_ok] at run
  obtain ⟨chain, _, index, revealed, rfl⟩ := run
  have updated := TxGraph.applyUpdate_updated lib identified sound.known update.txUpdate within.1
    within.2
  have distinct := sound.described.distinct
  obtain ⟨advances, same⟩ := revealToTargetMulti_ok distinct sound.agrees.indexed revealed
  -- The changeset is scanned with the whole update in the graph.
  have agrees := ((sound.agrees.advance advances same).grow updated.grows).indexTxGraphChangeset
    distinct updated
  exact ⟨⟨sound.described, agrees, updated.known⟩, rfl, (Keeps.of_same advances same).trans
    (indexTxGraphChangeset_keeps advances.indexed distinct env _), updated.grows⟩

theorem updateStep_eq_ok {update : CoreUpdate} {built : List Build}
    (run : w.updateStep env lib update = .ok (w', built)) :
    built = [] ∧ (w' = w ∨ w.applyUpdate env lib update = .ok w') := by
  unfold updateStep at run
  split at run
  · rename_i after updated
    obtain ⟨rfl, rfl⟩ : after = w' ∧ [] = built := by simpa using run
    exact ⟨rfl, .inr updated⟩
  · obtain ⟨rfl, rfl⟩ : w = w' ∧ [] = built := by simpa using run
    exact ⟨rfl, .inl rfl⟩
  · contradiction

theorem createTx_follows {params : TxParams} {rng : Draws} {psbt : Psbt}
    (sound : w.Sound env seen) (run : w.createTx env order params rng = .ok (psbt, w')) :
    Follows env seen w w' := by
  obtain ⟨_, _, _, _, i, _, r, _, index, steps, rfl⟩ := createTx_eq_ok run
  have record := steps.record
  cases found : r.excess with
  | noChange threshold left fee =>
    rw [found] at record
    obtain rfl : w.index = index := Except.ok.inj record
    exact sound.follows
  | change amount fee =>
    rw [found] at record
    exact sound.advance
      (recordChange_ok sound.agrees.indexed sound.described.distinct record).1
      (recordChange_outpoints record)

theorem buildStep_eq_ok {params : TxParams} {rng : Draws} {built : List Build}
    (run : w.buildStep env order params rng = .ok (w', built)) :
    w' = w ∧ built = [] ∨ ∃ psbt, built = [⟨w, params, psbt, w'⟩] ∧
      w.createTx env order params rng = .ok (psbt, w') := by
  unfold buildStep at run
  split at run
  · rename_i psbt after created
    obtain ⟨rfl, rfl⟩ : after = w' ∧ _ = built := by simpa using run
    exact .inr ⟨psbt, rfl, created⟩
  · obtain ⟨rfl, rfl⟩ : w = w' ∧ [] = built := by simpa using run
    exact .inl ⟨rfl, rfl⟩
  · contradiction

def Build.Made (env : Primitives) (order : ValueOrder) (seen : Shown) (w : Wallet) (b : Build) :
    Prop :=
  Follows env seen w b.before ∧
    ∃ rng, b.before.createTx env order b.params rng = .ok (b.psbt, b.after)

theorem Op.run_follows (identified : Identified env seen) (sound : w.Sound env seen) {op : Op}
    (within : op.Within seen) {built : List Build}
    (run : op.run env lib order w = .ok (w', built)) :
    Follows env seen w w' ∧ ∀ b ∈ built, b.Made env order seen w := by
  cases op with
  | apply update =>
    obtain ⟨rfl, rfl | updated⟩ := updateStep_eq_ok run
    · exact ⟨sound.follows, by simp⟩
    · exact ⟨applyUpdate_follows identified sound within updated, by simp⟩
  | revealNext k =>
    simp only [Op.run, bind_eq_ok, pure_eq_ok] at run
    obtain ⟨⟨⟨i, spk⟩, index⟩, revealed, same⟩ := run
    obtain ⟨rfl, rfl⟩ : { w with index } = w' ∧ [] = built := by simpa using same
    exact ⟨sound.advance
      (revealNextSpk_ok sound.agrees.indexed sound.described.distinct revealed).1
      (revealNextSpk_outpoints revealed), by simp⟩
  | nextUnused k =>
    simp only [Op.run, bind_eq_ok, pure_eq_ok] at run
    obtain ⟨⟨⟨i, spk⟩, index⟩, offered, same⟩ := run
    obtain ⟨rfl, rfl⟩ : { w with index } = w' ∧ [] = built := by simpa using same
    exact ⟨sound.advance
      (nextUnusedSpk_ok sound.agrees.indexed sound.described.distinct offered).1
      (nextUnusedSpk_outpoints offered), by simp⟩
  | build params rng =>
    rcases buildStep_eq_ok run with ⟨rfl, rfl⟩ | ⟨psbt, rfl, created⟩
    · exact ⟨sound.follows, by simp⟩
    · refine ⟨createTx_follows sound created, ?_⟩
      intro b member
      obtain rfl := List.mem_singleton.mp member
      exact ⟨sound.follows, rng, created⟩

theorem runOps_follows (identified : Identified env seen) {ops : List Op}
    (within : ∀ op ∈ ops, op.Within seen) (sound : w.Sound env seen)
    {built : List Build} (run : runOps env lib order ops w = .ok (w', built)) :
    Follows env seen w w' ∧ ∀ b ∈ built, b.Made env order seen w := by
  induction ops generalizing w built with
  | nil =>
    obtain ⟨rfl, rfl⟩ : w = w' ∧ [] = built := by simpa [runOps] using run
    exact ⟨sound.follows, by simp⟩
  | cons op rest ih =>
    simp only [runOps, bind_eq_ok, pure_eq_ok] at run
    obtain ⟨⟨middle, early⟩, one, ⟨last, more⟩, later, same⟩ := run
    obtain ⟨rfl, rfl⟩ : last = w' ∧ early ++ more = built := by simpa using same
    obtain ⟨first, builds⟩ := Op.run_follows identified sound (within op List.mem_cons_self) one
    obtain ⟨second, builds'⟩ := ih (fun op member => within op (.tail _ member)) first.sound later
    refine ⟨first.trans second, ?_⟩
    intro b member
    rcases List.mem_append.mp member with old | new
    · exact builds b old
    · obtain ⟨follows, created⟩ := builds' b new
      exact ⟨first.trans follows, created⟩

section New

variable {definite : KeychainKind → UInt32 → DefiniteDescriptor}
  {extendedKeys : KeychainKind → List DescriptorXKey}
  {xpubField : Str → Trinity.KeySource → Str × Str} {genesis : BlockHash}

theorem new_sound (described : Described definite extendedKeys) :
    (new definite extendedKeys xpubField genesis).Sound env seen := by
  have index := new_agrees described.distinct .default
  unfold Wallet.new
  constructor
  case described => exact described
  case agrees =>
    dsimp only
    exact index
  case known => exact TxGraph.default_known env seen

def Reachable (env : Primitives) (lib : GraphLibrary) (order : ValueOrder) (w : Wallet) : Prop :=
  ∃ definite extendedKeys xpubField genesis ops built, Described definite extendedKeys ∧
    Identified env (shownBy ops) ∧
    runOps env lib order ops (Wallet.new definite extendedKeys xpubField genesis) = .ok (w, built)

theorem runOps_new {ops : List Op} {built : List Build}
    (described : Described definite extendedKeys) (identified : Identified env (shownBy ops))
    (run : runOps env lib order ops (Wallet.new definite extendedKeys xpubField genesis) =
      .ok (w, built)) :
    Follows env (shownBy ops) (Wallet.new definite extendedKeys xpubField genesis) w ∧
      ∀ b ∈ built, b.Made env order (shownBy ops)
        (Wallet.new definite extendedKeys xpubField genesis) :=
  runOps_follows identified within_shownBy (new_sound described) run

end New

theorem Reachable.consistent (reachable : w.Reachable env lib order) : w.Consistent env := by
  obtain ⟨definite, extendedKeys, xpubField, genesis, ops, built, described, identified, run⟩ :=
    reachable
  exact (runOps_new described identified run).1.sound.consistent identified

end Invariant

end Wallet

end Trinity.Watch
