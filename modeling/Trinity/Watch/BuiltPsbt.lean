import Trinity.Watch.CanonicalSpends
import Trinity.Watch.CreateTx
import Trinity.Watch.KeychainRuns
import Trinity.Watch.SelectionDecides

/-!
What `create_tx` attaches to the inputs and outputs of a transaction, for a wallet
whose index and graph agree: every coin it can spend is found again under its
outpoint and its script, so no check on the way fails and each map holds the data
of the coin's own place.
-/
namespace Trinity.Watch

open Outcome Word Shuffle KeychainTxOutIndex

theorem appendDerivation_get? (m n : OrderedMap SecpPublicKey Trinity.KeySource)
    (k : SecpPublicKey) : (appendDerivation m n).get? k = (n.get? k).or (m.get? k) := by
  have once : (n.entries.map Prod.fst).Nodup :=
    List.pairwise_map.mpr (n.sorted.imp fun less => ne_of_lt less)
  cases found : n.get? k with
  | some v =>
    exact OrderedMap.get?_insertAll once (OrderedMap.get?_eq_some.mp found)
  | none =>
    apply OrderedMap.get?_insertAll_other
    intro member
    obtain ⟨v, held⟩ := OrderedMap.mem_keys.mp member
    simp [found] at held

theorem derivation_ext {m n : OrderedMap SecpPublicKey Trinity.KeySource}
    (same : ∀ k, m.get? k = n.get? k) : m = n := by
  have members : ∀ e, e ∈ m.entries ↔ e ∈ n.entries := by
    intro e
    rw [← OrderedMap.get?_eq_some, ← OrderedMap.get?_eq_some, same]
  have perm : m.entries.Perm n.entries := by
    apply (List.perm_ext_iff_of_nodup ?_ ?_).mpr members
    · exact m.sorted.imp fun less same => absurd (same ▸ less) (lt_irrefl _)
    · exact n.sorted.imp fun less same => absurd (same ▸ less) (lt_irrefl _)
  have entries := perm.eq_of_pairwise (fun a b _ _ less more => absurd less (lt_asymm more))
    m.sorted n.sorted
  cases m
  cases n
  simpa using entries

theorem appendDerivation_empty (m : OrderedMap SecpPublicKey Trinity.KeySource) :
    appendDerivation .empty m = m :=
  derivation_ext fun k => by
    rw [appendDerivation_get?]
    exact Option.or_none

theorem appendDerivation_self (m : OrderedMap SecpPublicKey Trinity.KeySource) :
    appendDerivation m m = m :=
  derivation_ext fun k => by rw [appendDerivation_get?, Option.or_self]

theorem exists_map_of_perm {α β : Type} {f : α → β} {bs : List β} {as : List α}
    (perm : bs.Perm (as.map f)) : ∃ cs : List α, cs.Perm as ∧ bs = cs.map f := by
  have related : List.Forall₂ (fun b a => b = f a) (as.map f) as := by
    rw [List.forall₂_map_left_iff, List.forall₂_same]
    intros
    rfl
  obtain ⟨cs, images, order⟩ := List.perm_comp_forall₂ perm related
  refine ⟨cs, order, ?_⟩
  clear perm order related
  induction images with
  | nil => rfl
  | cons same _ ih => rw [same, ih, List.map_cons]

theorem lookupOutput_first {selected rest : List LocalOutput} {u : LocalOutput}
    (perm : selected.Perm (u :: rest)) (distinct : ((u :: rest).map (·.outpoint)).Nodup) :
    lookupOutput selected u.outpoint = some u ∧
      (selected.filter fun v => v.outpoint ≠ u.outpoint).Perm rest := by
  obtain ⟨absent, _⟩ := List.nodup_cons.mp distinct
  have other : ∀ v ∈ rest, v.outpoint ≠ u.outpoint := by
    intro v member same
    exact absent (List.mem_map.mpr ⟨v, member, same⟩)
  constructor
  · have only : selected.filter (fun v => v.outpoint = u.outpoint) = [u] := by
      apply List.perm_singleton.mp
      have filtered := perm.filter fun v => v.outpoint = u.outpoint
      rwa [List.filter_cons_of_pos (by simp),
        (List.filter_eq_nil_iff (l := rest)).mpr (by simpa using other)] at filtered
    rw [lookupOutput, only, List.getLast?_singleton]
  · have filtered := perm.filter fun v => v.outpoint ≠ u.outpoint
    rwa [List.filter_cons_of_neg (by simp),
      (List.filter_eq_self (l := rest)).mpr (by simpa using other)] at filtered

namespace Wallet

/-- Index and graph agree: what the index has found under an outpoint is an output
    of the graph, at the place of its script. -/
structure Consistent (env : Primitives) (w : Wallet) : Prop where
  p2wsh : ∀ k i, ∃ hash, w.derive k i = p2wshScript hash
  distinct : DistinctPlaces w.derive
  indexed : Indexed w.derive w.index
  linked : w.graph.Linked env
  once : w.index.inner.spkTxouts.Nodup
  found : ∀ e ∈ w.index.inner.spkTxouts, ∃ txout, w.graph.getTxout e.2 = some txout ∧
    w.index.inner.spkIndices.lookup txout.scriptPubkey = some e.1
  origins : ∀ k, ∀ key ∈ w.extendedKeys k, key.origin.isSome ∨ key.depth = 0

structure Holds (w : Wallet) (u : LocalOutput) : Prop where
  output : ∃ prev, w.getTx u.outpoint.txid = some prev ∧
    prev.output[u.outpoint.vout.toNat]? = some u.txout
  place : w.index.inner.spkIndices.lookup u.txout.scriptPubkey =
    some ⟨u.keychain, u.derivationIndex⟩

variable {env : Primitives} {w : Wallet} {ε : Type} {unspents : List (KeychainIndex × FullTxOut)}
  {height : UInt32} {coins : List WeightedUtxo}

theorem mem_outpoints {e : KeychainIndex × OutPoint} :
    e ∈ w.outpoints ↔ e ∈ w.index.inner.spkTxouts := (List.perm_insertionSort _ _).mem_iff

theorem Consistent.place (consistent : w.Consistent env) {i : KeychainIndex} {op : OutPoint}
    {tx : Transaction} {txout : TxOut} (member : (i, op) ∈ w.index.inner.spkTxouts)
    (graph : w.getTx op.txid = some tx) (output : tx.output[op.vout.toNat]? = some txout) :
    w.index.inner.spkIndices.lookup txout.scriptPubkey = some i := by
  obtain ⟨txout', held, place⟩ := consistent.found (i, op) member
  obtain rfl : txout = txout' := by
    rw [TxGraph.getTxout_of_getTx graph, output] at held
    exact Option.some.inj held
  exact place

theorem Consistent.unspents_held (consistent : w.Consistent env)
    (run : (w.filterChainUnspents env : Outcome ε _) = .ok unspents)
    {e : KeychainIndex × FullTxOut} (member : e ∈ unspents) :
    (e.1, e.2.outpoint) ∈ w.index.inner.spkTxouts ∧ w.Holds (newLocalUtxo e.1 e.2) := by
  obtain ⟨cs, listed, sound⟩ := TxGraph.filterChainUnspents_eq_ok run
  obtain ⟨c, isCanonical, isTxid, output⟩ := sound.output e member
  have graph := TxGraph.listCanonicalTxs_held listed c isCanonical
  rw [isTxid] at graph
  have indexed := mem_outpoints.mp
    (sound.order.subset (List.mem_map_of_mem (f := fun e => (e.1, e.2.outpoint)) member))
  exact ⟨indexed, ⟨c.tx, graph, output⟩, consistent.place indexed graph output⟩

theorem Consistent.unspents_distinct (consistent : w.Consistent env)
    (run : (w.filterChainUnspents env : Outcome ε _) = .ok unspents) :
    unspents.Pairwise fun a b => a.2.outpoint ≠ b.2.outpoint := by
  obtain ⟨cs, listed, sound⟩ := TxGraph.filterChainUnspents_eq_ok run
  have once : w.outpoints.Nodup := (List.perm_insertionSort _ _).nodup_iff.mpr consistent.once
  refine (List.pairwise_map.mp (sound.order.nodup once)).imp_of_mem ?_
  intro a b inside inside' apart same
  obtain ⟨indexed, held⟩ := consistent.unspents_held run inside
  obtain ⟨indexed', _⟩ := consistent.unspents_held run inside'
  -- One outpoint is one output of the graph, and that has one place.
  obtain ⟨prev, graph, output⟩ := held.output
  have place := consistent.place indexed graph output
  have place' := consistent.place (by rwa [← same] at indexed') graph output
  rw [place] at place'
  exact apart (Prod.ext (Option.some.inj place') same)

theorem filterUtxos_eq_ok :
    (w.filterUtxos env height : Outcome ε _) = .ok coins ↔
      ∃ unspents, (w.filterChainUnspents env : Outcome ε _) = .ok unspents ∧
        unspents.filterMap (matureUtxo height) = coins := by
  unfold filterUtxos
  simp only [bind_eq_ok, pure_eq_ok]

theorem matureUtxo_eq_some {e : KeychainIndex × FullTxOut} {u : WeightedUtxo} :
    matureUtxo height e = some u ↔
      e.2.isMature height = true ∧ u = ⟨maxWeightToSatisfy, newLocalUtxo e.1 e.2⟩ := by
  unfold matureUtxo
  rw [Option.ite_none_right_eq_some, Option.some.injEq, eq_comm (a := u)]

theorem Consistent.utxos_distinct (consistent : w.Consistent env)
    (run : (w.filterUtxos env height : Outcome ε _) = .ok coins) :
    (coins.map (·.utxo.outpoint)).Nodup := by
  obtain ⟨unspents, listed, rfl⟩ := filterUtxos_eq_ok.mp run
  rw [List.Nodup, List.pairwise_map, List.pairwise_filterMap]
  refine (consistent.unspents_distinct listed).imp ?_
  intro a b apart u made u' made'
  rw [(matureUtxo_eq_some.mp made).2, (matureUtxo_eq_some.mp made').2]
  exact apart

def builtInput (w : Wallet) (u : LocalOutput) : Input :=
  { emptyInput with
    nonWitnessUtxo := w.getTx u.outpoint.txid
    witnessUtxo := some u.txout
    witnessScript := some (w.definite u.keychain u.derivationIndex).witnessScript
    bip32Derivation := (w.definite u.keychain u.derivationIndex).bip32Derivation }

def builtOutput (w : Wallet) (txout : TxOut) : Output :=
  match w.index.inner.spkIndices.lookup txout.scriptPubkey with
  | some i => ⟨(w.definite i.keychain i.index).bip32Derivation, [],
      [([0x01], (w.definite i.keychain i.index).witnessScript)]⟩
  | none => emptyOutput

theorem Holds.getPsbtInput {u : LocalOutput} (held : w.Holds u) :
    w.getPsbtInput u = .ok (w.builtInput u) := by
  obtain ⟨prev, graph, output⟩ := held.output
  rw [Wallet.getPsbtInput, held.place]
  simp only [attachUtxo, graph, output, okOr, bind_ok, pure_ok, updateInputItem, builtInput,
    emptyInput, appendDerivation_empty]

theorem fillInputs_held {coins selected : List LocalOutput} (sequence : UInt32)
    (held : ∀ u ∈ coins, w.Holds u) (perm : selected.Perm coins)
    (distinct : (coins.map (·.outpoint)).Nodup) :
    w.fillInputs (coins.map fun u => ⟨u.outpoint, [], sequence, []⟩) selected =
      .ok (coins.map w.builtInput) := by
  induction coins generalizing selected with
  | nil => rfl
  | cons u rest ih =>
    obtain ⟨first, others⟩ := lookupOutput_first perm distinct
    have later := ih (fun v member => held v (List.mem_cons_of_mem _ member)) others
      (List.nodup_cons.mp distinct).2
    have here := (held u List.mem_cons_self).getPsbtInput
    simp only [List.map_cons, fillInputs, first, psbtInputFor, here, later, bind_ok, pure_ok]

theorem Holds.updateInput {u : LocalOutput} (consistent : w.Consistent env) (held : w.Holds u)
    (sequence : UInt32) :
    w.updateInput env ⟨u.outpoint, [], sequence, []⟩ (w.builtInput u) = .ok (w.builtInput u) := by
  obtain ⟨prev, graph, output⟩ := held.output
  have txid := consistent.linked.txids _ _ graph
  have spk := ((consistent.indexed.stores.indices _ _).mp held.place).2
  have utxo : utxoFor env ⟨u.outpoint, [], sequence, []⟩ (w.builtInput u) = some u.txout := rfl
  have expected : expectedSpk ⟨u.outpoint, [], sequence, []⟩ (w.builtInput u) =
      .ok u.txout.scriptPubkey := by
    simp only [expectedSpk, builtInput, graph, output, okOr, bind_ok, ne_eq, not_true_eq_false,
      rejectIf, ↓reduceIte, pure_ok]
  unfold Wallet.updateInput
  rw [utxo, Option.bind_some, held.place]
  show updateInputWithDescriptor env _ _ _ = _
  unfold updateInputWithDescriptor
  rw [rejectIf_of_not _ (by simp [builtInput, graph, txid]), bind_ok, expected, bind_ok,
    rejectIf_of_not _ (by simpa [derive] using spk.symm), bind_ok, pure_ok]
  simp only [updateInputItem, builtInput, appendDerivation_self]

theorem Consistent.updateOutput (consistent : w.Consistent env) (txout : TxOut) :
    w.updateOutput txout = .ok (w.builtOutput txout) := by
  unfold Wallet.updateOutput builtOutput
  cases found : w.index.inner.spkIndices.lookup txout.scriptPubkey with
  | none => rfl
  | some i =>
    have spk := ((consistent.indexed.stores.indices _ _).mp found).2
    simp only [updateOutputWithDescriptor]
    rw [rejectIf_of_not _ (by simpa [derive] using spk.symm), bind_ok, pure_ok]
    simp only [updateOutputItem, emptyOutput, appendDerivation_empty]

theorem keyOrigin_total {key : DescriptorXKey} (known : key.origin.isSome ∨ key.depth = 0) :
    ∃ origin, key.keyOrigin = .ok origin := by
  unfold DescriptorXKey.keyOrigin
  split
  · exact ⟨_, rfl⟩
  · rename_i unknown
    have root : key.depth = 0 := by simpa [unknown] using known
    exact ⟨_, by rw [rejectIf_of_not _ (not_not.mpr root), bind_ok, pure_ok]⟩

theorem Consistent.psbtXpubs (consistent : w.Consistent env) (addGlobalXpubs : Bool) :
    ∃ xpubs, w.psbtXpubs addGlobalXpubs = .ok xpubs := by
  unfold Wallet.psbtXpubs
  split
  · have known : ∀ key ∈ w.extendedKeys .external ++ w.extendedKeys .internal,
        key.origin.isSome ∨ key.depth = 0 := by
      intro key member
      rcases List.mem_append.mp member with member | member
      · exact consistent.origins _ key member
      · exact consistent.origins _ key member
    generalize w.extendedKeys .external ++ w.extendedKeys .internal = keys at known
    generalize ([] : List (Str × Trinity.KeySource)) = xpubs
    induction keys generalizing xpubs with
    | nil => exact ⟨xpubs, rfl⟩
    | cons key rest ih =>
      obtain ⟨origin, here⟩ := keyOrigin_total (known key List.mem_cons_self)
      rw [List.foldlM_cons, here, bind_ok, pure_ok, bind_ok]
      exact ih (fun key member => known key (List.mem_cons_of_mem _ member)) _
  · exact ⟨[], rfl⟩

theorem Consistent.completeTransaction (consistent : w.Consistent env)
    {coins selected : List LocalOutput} {tx : Transaction} {sequence : UInt32}
    (held : ∀ u ∈ coins, w.Holds u) (perm : selected.Perm coins)
    (distinct : (coins.map (·.outpoint)).Nodup)
    (inputs : tx.input = coins.map fun u => ⟨u.outpoint, [], sequence, []⟩)
    (addGlobalXpubs : Bool) :
    ∃ other, w.completeTransaction env tx selected addGlobalXpubs =
      .ok ⟨tx, coins.map w.builtInput, tx.output.map w.builtOutput, [], other⟩ := by
  obtain ⟨xpubs, known⟩ := consistent.psbtXpubs addGlobalXpubs
  have unsigned : unsignedTxChecks tx = .ok () := by
    unfold unsignedTxChecks
    rw [forM_eq_ok, inputs]
    intro txin member
    obtain ⟨u, _, rfl⟩ := List.mem_map.mp member
    rfl
  have filled := fillInputs_held sequence held perm distinct
  have updated : (tx.input.zip (coins.map w.builtInput)).mapM (fun e =>
      w.updateInput env e.1 e.2) = .ok (coins.map w.builtInput) := by
    rw [inputs, List.zip_map', mapM_eq_ok, List.forall₂_map_left_iff, List.forall₂_map_right_iff,
      List.forall₂_same]
    intro u member
    exact (held u member).updateInput consistent sequence
  have outputs : tx.output.mapM w.updateOutput = .ok (tx.output.map w.builtOutput) := by
    rw [mapM_eq_ok, List.forall₂_map_right_iff, List.forall₂_same]
    intro txout _
    exact consistent.updateOutput txout
  refine ⟨xpubs.map fun e => w.xpubField e.1 e.2, ?_⟩
  unfold Wallet.completeTransaction
  rw [unsigned, bind_ok, known, bind_ok, inputs, filled, bind_ok, ← inputs]
  show ((tx.input.zip (coins.map w.builtInput)).mapM fun e => w.updateInput env e.1 e.2) >>= _ = _
  rw [updated, bind_ok, outputs, bind_ok, pure_ok]

end Wallet

end Trinity.Watch
