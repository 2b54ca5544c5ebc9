import Trinity.Watch.WalletRuns

/-!
What holds of the wallet in every state it can get into: it loses no coin that is
paid to an address it watches, it spends only coins it has been shown, and it
decides every payment it is asked for.
-/
namespace Trinity.Watch

open Outcome Word Shuffle KeychainTxOutIndex

namespace KeychainTxOutIndex

variable {env : Primitives} {derive : Derive} {s s' : KeychainTxOutIndex}

theorem stopIndex_pos (s : KeychainTxOutIndex) (k : KeychainKind) : 0 < s.stopIndex k := by
  unfold stopIndex gapLimit bip32MaxIndex
  omega

theorem new_lookup (distinct : DistinctPlaces derive) {k : KeychainKind} {i : UInt32}
    (low : i.toNat < gapLimit) :
    (new derive).inner.spkIndices.lookup (derive k i) = some ⟨k, i⟩ := by
  apply ((new_indexed distinct).stores.indices _ _).mpr
  refine ⟨?_, rfl⟩
  unfold stopIndex gapLimit bip32MaxIndex at *
  show i.toNat < _
  omega

theorem nextReveal_of_none {k : KeychainKind} (none : s.lastRevealed k = none) :
    s.nextReveal k = 0 := by
  rw [nextReveal, none]

theorem indexTxout_lastRevealed (op : OutPoint) {txout : TxOut} {i : KeychainIndex}
    (found : s.inner.spkIndices.lookup txout.scriptPubkey = some i) {k : KeychainKind}
    (other : k ≠ i.keychain) :
    (s.indexTxout derive op txout).1.lastRevealed k = s.lastRevealed k := by
  unfold indexTxout
  rw [found]
  simp only
  split
  · rfl
  · rw [setRevealed, replenish_lastRevealed]
    exact Function.update_of_ne other _ _

theorem indexTx_finds (indexed : Indexed derive s) (distinct : DistinctPlaces derive)
    {tx : Transaction} {n : ℕ} {txout : TxOut} {i : KeychainIndex}
    (output : tx.output[n]? = some txout)
    (watched : s.inner.spkIndices.lookup txout.scriptPubkey = some i) :
    (i, ⟨env.computeTxid tx, UInt32.ofNat n⟩) ∈ (s.indexTx derive env tx).1.inner.spkTxouts := by
  have loop : ∀ (outs : List (TxOut × ℕ)) (st : KeychainTxOutIndex × List KeychainIndex),
      Indexed derive st.1 → st.1.inner.spkIndices.lookup txout.scriptPubkey = some i →
      (txout, n) ∈ outs → (i, ⟨env.computeTxid tx, UInt32.ofNat n⟩) ∈
        (outs.foldl (indexNext derive (env.computeTxid tx)) st).1.inner.spkTxouts := by
    intro outs
    induction outs with
    | nil => intro st _ _ member; simp at member
    | cons out rest ih =>
      intro st indexed watched member
      have first := indexTxout_keeps indexed distinct
        ⟨env.computeTxid tx, UInt32.ofNat out.2⟩ out.1
      rcases List.mem_cons.mp member with rfl | later
      · exact (foldl_indexNext_keeps distinct _ rest (indexNext derive _ st (txout, n))
          first.advances.indexed).found _ (mem_indexTxout_outpoints.mpr (.inr ⟨rfl, watched⟩))
      · exact ih (indexNext derive _ st out) first.advances.indexed
          (first.advances.watched indexed watched) later
  exact loop tx.output.zipIdx (s, []) indexed watched
    (List.mem_zipIdx_iff_getElem?.mpr output)

theorem indexTxs_finds (distinct : DistinctPlaces derive) {txs : List Transaction}
    (indexed : Indexed derive s) {tx : Transaction} (member : tx ∈ txs) {n : ℕ} {txout : TxOut}
    {i : KeychainIndex} (output : tx.output[n]? = some txout)
    (watched : s.inner.spkIndices.lookup txout.scriptPubkey = some i) :
    (i, ⟨env.computeTxid tx, UInt32.ofNat n⟩) ∈ (s.indexTxs env derive txs).inner.spkTxouts := by
  induction txs generalizing s with
  | nil => simp at member
  | cons first rest ih =>
    have step := indexTx_keeps indexed distinct env first
    rcases List.mem_cons.mp member with rfl | later
    · exact (indexTxs_keeps step.advances.indexed distinct env rest).found _
        (indexTx_finds indexed distinct output watched)
    · exact ih step.advances.indexed later (step.advances.watched indexed watched)

end KeychainTxOutIndex

namespace TxGraph

variable {env : Primitives} {seen : Shown} {g : TxGraph}

theorem insertTx_getTx (lib : GraphLibrary) (g : TxGraph) {tx : Transaction} {txid : Txid}
    (other : txid ≠ env.computeTxid tx) : (g.insertTx env lib tx).1.getTx txid = g.getTx txid := by
  have put : ∀ node spends, TxGraph.getTx { g with
      txs := (env.computeTxid tx, node) :: g.txs, spends := spends } txid = g.getTx txid := by
    intro node spends
    unfold getTx
    rw [lookup_put, if_neg other]
  unfold insertTx
  simp only
  split
  · split
    · rfl
    · split
      · exact put _ _
      · rfl
  · exact put _ _

theorem insertTxs_adds (lib : GraphLibrary) (identified : Identified env seen)
    {txs : List Transaction} (members : ∀ tx ∈ txs, tx ∈ seen.txs) {tx : Transaction}
    (member : tx ∈ txs) (first : g.getTx (env.computeTxid tx) = none) :
    ∃ a ∈ (insertTxs env lib txs g).2, env.computeTxid a = env.computeTxid tx ∧
      a.output = tx.output := by
  induction txs generalizing g with
  | nil => simp at member
  | cons head rest ih =>
    by_cases same : env.computeTxid tx = env.computeTxid head
    · have added : head ∈ (g.insertTx env lib head).2 := by
        unfold insertTx
        simp only
        rw [← same]
        split
        · rename_i existing held
          rw [getTx_eq_some.mpr held] at first
          contradiction
        · exact List.mem_singleton_self head
      have single := identified.single tx (members tx member) head
        (members head List.mem_cons_self) same
      exact ⟨head, List.mem_append_left _ added, same.symm,
        (output_of_withoutWitnesses single).symm⟩
    · have later : tx ∈ rest := by
        rcases List.mem_cons.mp member with rfl | later
        · exact absurd rfl same
        · exact later
      obtain ⟨a, added, isTxid, output⟩ := ih (fun tx member => members tx (.tail _ member)) later
        ((insertTx_getTx lib g same).trans first)
      exact ⟨a, List.mem_append_right _ added, isTxid, output⟩

end TxGraph

namespace Wallet

variable {env : Primitives} {lib : GraphLibrary} {order : ValueOrder} {seen : Shown}
  {w w' : Wallet}

theorem applyUpdate_finds (identified : Identified env seen) (sound : w.Sound env seen)
    {update : CoreUpdate} (within : (Op.apply update).Within seen)
    (run : w.applyUpdate env lib update = .ok w') {tx : Transaction}
    (member : tx ∈ update.txUpdate.txs) (first : w.getTx (env.computeTxid tx) = none) {n : ℕ}
    {txout : TxOut} {i : KeychainIndex} (output : tx.output[n]? = some txout)
    (watched : w.index.inner.spkIndices.lookup txout.scriptPubkey = some i) :
    (i, ⟨env.computeTxid tx, UInt32.ofNat n⟩) ∈ w'.index.inner.spkTxouts ∧
      w'.graph.getTxout ⟨env.computeTxid tx, UInt32.ofNat n⟩ = some txout := by
  simp only [applyUpdate, bind_eq_ok, pure_eq_ok] at run
  obtain ⟨chain, _, index, revealed, rfl⟩ := run
  obtain ⟨a, added, isTxid, same⟩ := TxGraph.insertTxs_adds lib identified within.1 member first
  have updated := TxGraph.applyUpdate_updated lib identified sound.known update.txUpdate within.1
    within.2
  have listed : a ∈ (w.graph.applyUpdate env lib update.txUpdate).2.txs :=
    (lib.mem_changeset _ a).mpr added
  have distinct := sound.described.distinct
  obtain ⟨advances, _⟩ := revealToTargetMulti_ok distinct sound.agrees.indexed revealed
  have scanned := indexTxs_keeps advances.indexed distinct env
    (w.graph.applyUpdate env lib update.txUpdate).2.txs
  rw [← isTxid]
  rw [← same] at output
  refine ⟨?_, updated.txs a listed n txout output⟩
  exact (indexTxouts_keeps scanned.advances.indexed distinct _).found _
    (indexTxs_finds distinct advances.indexed listed output
      (advances.watched sound.agrees.indexed watched))

theorem runOps_cons {op : Op} {ops : List Op} {w'' : Wallet} {built more : List Build}
    (one : op.run env lib order w = .ok (w', built))
    (rest : runOps env lib order ops w' = .ok (w'', more)) :
    runOps env lib order (op :: ops) w = .ok (w'', built ++ more) := by
  rw [runOps, one, bind_ok]
  dsimp only
  rw [rest, bind_ok]
  rfl

theorem Sound.shown (sound : w.Sound env seen) {u : LocalOutput} (held : w.Holds u) :
    ∃ tx ∈ seen.txs, env.computeTxid tx = u.outpoint.txid ∧
      tx.output[u.outpoint.vout.toNat]? = some u.txout := by
  obtain ⟨prev, isHeld, output⟩ := held.output
  obtain ⟨tx, member, same, isTxid⟩ := sound.known.txs _ prev isHeld
  exact ⟨tx, member, isTxid, by rw [← output_of_withoutWitnesses same]; exact output⟩

theorem listUnspent_lists {ε : Type} {i : KeychainIndex} {op : OutPoint} {txout : TxOut}
    (found : (i, op) ∈ w.index.inner.spkTxouts) (output : w.graph.getTxout op = some txout)
    {cs : List CanonicalTx}
    (canonical : (w.graph.listCanonicalTxs env w.chain : Outcome ε _) = .ok cs)
    (counts : ∃ c ∈ cs, c.txid = op.txid)
    (unspent : ∀ c ∈ cs, isCoinbase c.tx = false → ¬ c.tx.Spends op) {coins : List LocalOutput}
    (run : (w.listUnspent env : Outcome ε _) = .ok coins) :
    ⟨op, txout, i.keychain, i.index⟩ ∈ coins := by
  simp only [listUnspent, bind_eq_ok, pure_eq_ok] at run
  obtain ⟨unspents, listed, rfl⟩ := run
  obtain ⟨cs', canonical', sound⟩ := TxGraph.filterChainUnspents_eq_ok listed
  obtain rfl : cs = cs' := Except.ok.inj (canonical.symm.trans canonical')
  obtain ⟨c, isCanonical, isTxid, outputs⟩ := sound.all (i, op) (mem_outpoints.mpr found) counts
    unspent
  have held := TxGraph.listCanonicalTxs_held canonical c isCanonical
  rw [isTxid] at held
  rw [TxGraph.getTxout_of_getTx held] at output
  obtain ⟨e, member, place, outpoint, isTxout⟩ := outputs txout output
  refine List.mem_map.mpr ⟨e, member, ?_⟩
  rw [newLocalUtxo, place, outpoint, isTxout]

theorem Consistent.listUnspent_total {ε : Type} (consistent : w.Consistent env)
    (once : ∀ cs, (w.graph.listCanonicalTxs env w.chain : Outcome ε _) = .ok cs →
      ∀ c ∈ cs, SpendsOnce c.tx) : ∃ coins, (w.listUnspent env : Outcome ε _) = .ok coins := by
  obtain ⟨unspents, listed⟩ := TxGraph.filterChainUnspents_total consistent.linked once w.outpoints
  exact ⟨unspents.map fun txo => newLocalUtxo txo.1 txo.2, by
    rw [listUnspent, filterChainUnspents, listed, bind_ok, pure_ok]⟩

end Wallet

namespace Sample

def definite (k : KeychainKind) (i : UInt32) : DefiniteDescriptor where
  scriptPubkey := KeychainTxOutIndex.Sample.scripts k i
  witnessScript :=
    if k = .external then Trinity.Sample.receiveScript else Trinity.Sample.changeScript
  bip32Derivation :=
    if k = .external then Trinity.Sample.receiveKeys else Trinity.Sample.changeKeys

def derive : Derive := fun k i => (definite k i).scriptPubkey

theorem described : Wallet.Described definite fun _ => [] :=
  ⟨fun k i => ⟨KeychainTxOutIndex.Sample.hash ⟨k, i⟩, rfl⟩,
    KeychainTxOutIndex.Sample.scripts_distinct, by simp⟩

def received : TxOut := ⟨100000, derive .external 0⟩

def funding : Transaction := ⟨2, 0, [⟨⟨1, 0⟩, [], 0xffffffff, []⟩], [received]⟩

theorem funding_txid : Trinity.Sample.env.computeTxid funding = 0 := by decide

def graph : GraphLibrary where
  witnessLt _ _ := false
  changeset := id
  mem_changeset _ _ := Iff.rfl

def genesis : BlockHash := 0x0f9188f13cb7b2c71f2a335e3a4fc328bf5beb436012afca590b1a11466e2206

def tipBlock : BlockId := ⟨100, 0x74⟩

def tipAnchor : ConfirmationBlockTime := ⟨tipBlock, 1700000000⟩

def checkpoints : CheckPoint := ⟨[tipBlock, ⟨0, genesis⟩], by decide, by decide⟩

def update : CoreUpdate where
  lastActiveIndices _ := none
  txUpdate := ⟨⟨[funding], [(tipAnchor, 0)], []⟩, .empty, []⟩
  chain := some checkpoints

def fundedGraph : TxGraph :=
  (TxGraph.default.applyUpdate Trinity.Sample.env graph update.txUpdate).1

def fund (w : Wallet) : Wallet :=
  { w with
    index := (w.index.indexTxout w.derive ⟨0, 0⟩ received).1
    graph := fundedGraph
    chain := ⟨checkpoints⟩ }

theorem fund_index (w : Wallet) :
    (fund w).index = (w.index.indexTxout w.derive ⟨0, 0⟩ received).1 := by
  simp only [fund]

theorem fund_tip (w : Wallet) : (fund w).tip = 100 := rfl

theorem applyUpdate_funding {w : Wallet} (empty : w.graph = .default)
    (first : w.chain = .fromGenesisHash genesis) :
    w.applyUpdate Trinity.Sample.env graph update = .ok (fund w) := by
  have chained : w.chainWith update.chain = .ok ⟨checkpoints⟩ := by
    show w.chain.applyUpdate checkpoints = _
    rw [first]
    rfl
  have revealed : (w.index.revealToTargetMulti w.derive update.lastActiveIndices :
      Outcome CannotConnectError _) = .ok w.index := rfl
  have changes : (w.graph.applyUpdate Trinity.Sample.env graph update.txUpdate).2 =
      ⟨[funding], .empty⟩ := by
    rw [empty]
    rfl
  have indexed : w.index.indexTxGraphChangeset Trinity.Sample.env w.derive ⟨[funding], .empty⟩ =
      (w.index.indexTxout w.derive ⟨0, 0⟩ received).1 := by
    show (w.index.indexTx w.derive Trinity.Sample.env funding).1 = _
    unfold indexTx
    rw [funding_txid]
    rfl
  unfold Wallet.applyUpdate
  rw [chained, bind_ok, revealed, bind_ok]
  dsimp only
  rw [changes, indexed, empty]
  rfl

def start : Wallet := Wallet.new definite (fun _ => []) (fun x _ => (x, [])) genesis

def funded : Wallet := fund start

theorem update_run : Wallet.Op.run Trinity.Sample.env graph order start (.apply update) =
    .ok (funded, []) := by
  rw [Wallet.Op.run, Wallet.updateStep, applyUpdate_funding rfl rfl]
  rfl

theorem funded_run : Wallet.runOps Trinity.Sample.env graph order [.apply update] start =
    .ok (funded, []) :=
  Wallet.runOps_cons update_run rfl

theorem funding_identified : Identified Trinity.Sample.env ⟨[funding], []⟩ := by
  constructor
  case single => simp
  case stripped =>
    intro tx member tx' same
    obtain rfl := List.mem_singleton.mp member
    have output := output_of_withoutWitnesses same
    have paid : tx' ≠ Trinity.Sample.payment := by
      rintro rfl
      exact absurd output (by decide)
    have emptied : tx' ≠ Trinity.Sample.emptied := by
      rintro rfl
      exact absurd output (by decide)
    rw [funding_txid]
    show (List.lookup tx' Trinity.Sample.tables.txids).getD 0 = 0
    unfold Trinity.Sample.tables
    rw [List.lookup_cons, beq_false_of_ne paid, List.lookup_cons, beq_false_of_ne emptied]
    rfl
  case sizes => decide
  case outputs => simp
  case values => simp

theorem funded_reachable : funded.Reachable Trinity.Sample.env graph order :=
  ⟨definite, fun _ => [], fun x _ => (x, []), genesis, [.apply update], [], described,
    funding_identified, funded_run⟩

theorem funded_canonical {ε : Type} :
    (funded.graph.listCanonicalTxs Trinity.Sample.env funded.chain : Outcome ε _) =
      .ok [⟨0, funding, .confirmed tipAnchor none⟩] := rfl

theorem received_place : (KeychainTxOutIndex.new derive).inner.spkIndices.lookup
    received.scriptPubkey = some ⟨.external, 0⟩ := by
  have distinct : DistinctPlaces derive := described.distinct
  exact new_lookup distinct (by decide)

theorem funded_index : funded.index =
    ((KeychainTxOutIndex.new derive).indexTxout derive ⟨0, 0⟩ received).1 := by
  have index : start.index = KeychainTxOutIndex.new derive := Wallet.new_index definite _ _ _
  have scripts : start.derive = derive := rfl
  rw [funded, fund_index, index, scripts]

theorem funded_unspents {ε : Type} :
    (funded.filterChainUnspents Trinity.Sample.env : Outcome ε _) = .ok
      [(⟨.external, 0⟩, ⟨⟨0, 0⟩, received, .confirmed tipAnchor none, none, false⟩)] := by
  have outpoints : funded.index.inner.spkTxouts = [(⟨.external, 0⟩, ⟨0, 0⟩)] := by
    rw [funded_index, indexTxout_outpoints ⟨0, 0⟩ received_place, new_outpoints]
    rfl
  unfold Wallet.filterChainUnspents Wallet.outpoints
  rw [outpoints]
  rfl

theorem funded_utxos {ε : Type} : (funded.filterUtxos Trinity.Sample.env 100 : Outcome ε _) =
    .ok [⟨maxWeightToSatisfy, ⟨0, 0⟩, received, .external, 0⟩] :=
  Wallet.filterUtxos_eq_ok.mpr ⟨_, funded_unspents, rfl⟩

def walletLibrary : WalletLibrary where
  address _ text :=
    if text = Trinity.Sample.recipientAddress then .ok Trinity.Sample.recipientScript
    else .error (bytes "not an address")
  createTxErrorText _ := bytes "coins missing"
  psbt := ⟨fun _ => [], fun _ => .error "not read"⟩

def request : SendRequest := ⟨Trinity.Sample.recipientAddress, 60000, .feerateSatVb 10⟩

def params : TxParams :=
  ⟨[(Trinity.Sample.recipientScript, 60000)], .feeRate 2500, 100, antiFeeSnipingSequence, true⟩

theorem funded_nextReveal : funded.index.nextReveal .internal = 0 := by
  apply nextReveal_of_none
  rw [funded_index, indexTxout_lastRevealed ⟨0, 0⟩ received_place (by decide), new_lastRevealed]

theorem funded_supply : ∀ coins, (funded.filterUtxos Trinity.Sample.env params.currentHeight :
    Outcome CreateTxError _) = .ok coins → worthOf coins ≤ maxMoney := by
  intro coins listed
  obtain rfl := Except.ok.inj (funded_utxos.symm.trans listed)
  decide

theorem funding_spendsOnce : SpendsOnce funding := .inr (by decide)

theorem funded_ready : WatchWallet.Ready Trinity.Sample.env ⟨funded, .regtest⟩ request := by
  constructor
  case once =>
    intro cs listed c member
    obtain rfl := Except.ok.inj (funded_canonical.symm.trans listed)
    obtain rfl := List.mem_singleton.mp member
    exact funding_spendsOnce
  case supply => exact funded_supply
  case room =>
    show nextReveal funded.index .internal < bip32MaxIndex
    rw [funded_nextReveal]
    decide
  case height => decide
  case amount => decide
  case fee =>
    intro sats asked
    cases asked

theorem request_read : WatchWallet.txBuilderFor walletLibrary ⟨funded, .regtest⟩ request =
    .ok params := by
  have tip : funded.tip = 100 := fund_tip start
  unfold WatchWallet.txBuilderFor
  dsimp only
  rw [tip]
  decide

theorem funded_inner : Wallet.Ready Trinity.Sample.env funded params
    [⟨maxWeightToSatisfy, ⟨0, 0⟩, received, .external, 0⟩] :=
  funded_ready.inner funded_utxos request_read

theorem funded_pays (rng : Draws) :
    ∃ built, funded.createTx Trinity.Sample.env order params rng = .ok built := by
  apply Wallet.createTx_succeeds order rng funded_reachable.consistent funded_inner
  · decide
  · decide
  · decide
  · decide

theorem funded_builds (rng : Draws) : ∃ built, WatchWallet.buildPsbtRawWithAuxRand
    Trinity.Sample.env order walletLibrary ⟨funded, .regtest⟩ request rng = .ok built := by
  obtain ⟨⟨psbt, inner⟩, created⟩ := funded_pays rng
  refine ⟨(psbt, ⟨inner, .regtest⟩), ?_⟩
  rw [WatchWallet.buildPsbtRawWithAuxRand, request_read, bind_ok]
  dsimp only
  rw [created]
  rfl

end Sample

namespace Wallet

/-- An output to a script that is watched when its transaction first comes in is a
    coin of the wallet as long as its transaction is canonical and none that is spends
    it; the coins are listed unless a canonical transaction lists an input twice. -/
theorem no_coin_lost (env : Primitives) (lib : GraphLibrary) (order : ValueOrder) (ε : Type)
    (definite : KeychainKind → UInt32 → DefiniteDescriptor)
    (extendedKeys : KeychainKind → List DescriptorXKey)
    (xpubField : Str → Trinity.KeySource → Str × Str) (genesis : BlockHash)
    (before later : List Op) (update : CoreUpdate) (w middle w' : Wallet)
    (built built' : List Build) (described : Described definite extendedKeys)
    (identified : Identified env (shownBy (before ++ .apply update :: later)))
    (run : runOps env lib order before (Wallet.new definite extendedKeys xpubField genesis) =
      .ok (w, built))
    (updated : w.applyUpdate env lib update = .ok middle)
    (run' : runOps env lib order later middle = .ok (w', built'))
    (tx : Transaction) (member : tx ∈ update.txUpdate.txs)
    (first : w.getTx (env.computeTxid tx) = none) (n : ℕ) (value : UInt64) (k : KeychainKind)
    (i : UInt32) (paid : tx.output[n]? = some ⟨value, (definite k i).scriptPubkey⟩)
    (inside : i.toNat < w.index.stopIndex k) (cs : List CanonicalTx)
    (canonical : (w'.graph.listCanonicalTxs env w'.chain : Outcome ε _) = .ok cs)
    (counts : ∃ c ∈ cs, c.txid = env.computeTxid tx)
    (unspent : ∀ c ∈ cs, isCoinbase c.tx = false →
      ¬ c.tx.Spends ⟨env.computeTxid tx, UInt32.ofNat n⟩) :
    (∀ coins, (w'.listUnspent env : Outcome ε _) = .ok coins →
      ⟨⟨env.computeTxid tx, UInt32.ofNat n⟩, ⟨value, (definite k i).scriptPubkey⟩, k, i⟩ ∈
        coins) ∧
    ((∀ c ∈ cs, SpendsOnce c.tx) → ∃ coins, (w'.listUnspent env : Outcome ε _) = .ok coins) := by
  have start : (Wallet.new definite extendedKeys xpubField genesis).Sound env
      (shownBy (before ++ .apply update :: later)) := new_sound described
  have within : ∀ op ∈ before ++ .apply update :: later,
      op.Within (shownBy (before ++ .apply update :: later)) := within_shownBy
  obtain ⟨reached, _⟩ := runOps_follows identified
    (fun op member => within op (List.mem_append_left _ member)) start run
  have derive : w.derive k i = (definite k i).scriptPubkey := by
    rw [reached.derive]
    rfl
  have place : w.index.inner.spkIndices.lookup (definite k i).scriptPubkey = some ⟨k, i⟩ :=
    (reached.sound.agrees.indexed.stores.indices _ _).mpr ⟨inside, derive⟩
  have now := within (.apply update) (List.mem_append_right _ List.mem_cons_self)
  obtain ⟨found, output⟩ := applyUpdate_finds identified reached.sound now updated member first
    paid place
  have follows := applyUpdate_follows identified reached.sound now updated
  obtain ⟨after, _⟩ := runOps_follows identified
    (fun op member => within op (List.mem_append_right _ (.tail _ member))) follows.sound run'
  constructor
  · intro coins listed
    exact listUnspent_lists (after.index.found _ found) (after.graph _ _ output) canonical counts
      unspent listed
  · intro once
    apply (after.sound.consistent identified).listUnspent_total
    intro cs' canonical'
    obtain rfl := Except.ok.inj (canonical.symm.trans canonical')
    exact once

theorem no_coin_lost_funding : ∃ coins,
    (Sample.funded.listUnspent Trinity.Sample.env : Outcome Empty _) = .ok coins ∧
      ⟨⟨0, 0⟩, Sample.received, .external, 0⟩ ∈ coins := by
  obtain ⟨listed, total⟩ := no_coin_lost Trinity.Sample.env Sample.graph Sample.order Empty
    Sample.definite (fun _ => []) (fun x _ => (x, [])) Sample.genesis [] [] Sample.update
    Sample.start Sample.funded Sample.funded [] [] Sample.described Sample.funding_identified rfl
    (Sample.applyUpdate_funding rfl rfl) rfl Sample.funding (List.mem_singleton_self _) rfl 0
    100000 .external 0 rfl (stopIndex_pos _ _) _ Sample.funded_canonical
    ⟨_, List.mem_singleton_self _, Sample.funding_txid.symm⟩ (by
      intro c member _ spent
      obtain rfl := List.mem_singleton.mp member
      rw [Sample.funding_txid, CanonMaps.spends_iff_mem] at spent
      exact absurd spent (by decide))
  obtain ⟨coins, run⟩ := total (by
    intro c member
    obtain rfl := List.mem_singleton.mp member
    exact Sample.funding_spendsOnce)
  have coin := listed coins run
  rw [Sample.funding_txid] at coin
  exact ⟨coins, run, coin⟩

/-- Whatever was done with the wallet before, a payment it builds spends only coins at
    its own scripts that were shown to it, pays what was asked and leaves the fee
    that was asked for. -/
theorem builds_spend_shown (env : Primitives) (lib : GraphLibrary) (order : ValueOrder)
    (definite : KeychainKind → UInt32 → DefiniteDescriptor)
    (extendedKeys : KeychainKind → List DescriptorXKey)
    (xpubField : Str → Trinity.KeySource → Str × Str) (genesis : BlockHash) (ops : List Op)
    (w : Wallet) (built : List Build) (described : Described definite extendedKeys)
    (identified : Identified env (shownBy ops))
    (run : runOps env lib order ops (Wallet.new definite extendedKeys xpubField genesis) =
      .ok (w, built)) (b : Build) (member : b ∈ built)
    (supply : ∀ optional, (b.before.filterUtxos env b.params.currentHeight :
      Outcome CreateTxError _) = .ok optional → worthOf optional ≤ maxMoney) :
    ∃ coins change fee, Builds env b.before b.params coins change b.psbt b.after ∧
      PaysFee b.params coins change fee ∧
      ∀ u ∈ coins, u.txout.scriptPubkey = (definite u.keychain u.derivationIndex).scriptPubkey ∧
        ∃ tx ∈ (shownBy ops).txs, env.computeTxid tx = u.outpoint.txid ∧
          tx.output[u.outpoint.vout.toNat]? = some u.txout := by
  obtain ⟨follows, rng, created⟩ := (runOps_new described identified run).2 b member
  have consistent := follows.sound.consistent identified
  obtain ⟨coins, change, fee, builds, pays, _⟩ := createTx_builds consistent supply created
  refine ⟨coins, change, fee, builds, pays, ?_⟩
  intro u spent
  have held := consistent.mature_held builds.mature u spent
  have place := ((consistent.indexed.stores.indices _ _).mp held.place).2
  rw [follows.derive] at place
  exact ⟨place.symm, follows.sound.shown held⟩

theorem builds_spend_shown_funding : ∃ w b, runOps Trinity.Sample.env Sample.graph Sample.order
    [.apply Sample.update, .build Sample.params fun _ => 7] Sample.start = .ok (w, [b]) ∧
    ∃ coins change fee, Builds Trinity.Sample.env b.before b.params coins change b.psbt b.after ∧
      PaysFee b.params coins change fee := by
  obtain ⟨⟨psbt, after⟩, created⟩ := Sample.funded_pays fun _ => 7
  have run : runOps Trinity.Sample.env Sample.graph Sample.order
      [.apply Sample.update, .build Sample.params fun _ => 7] Sample.start =
        .ok (after, [⟨Sample.funded, Sample.params, psbt, after⟩]) := by
    have build : Op.run Trinity.Sample.env Sample.graph Sample.order Sample.funded
        (.build Sample.params fun _ => 7) =
          .ok (after, [⟨Sample.funded, Sample.params, psbt, after⟩]) := by
      rw [Op.run, buildStep, created]
    exact runOps_cons Sample.update_run (runOps_cons build rfl)
  obtain ⟨coins, change, fee, builds, pays, _⟩ := builds_spend_shown Trinity.Sample.env Sample.graph
    Sample.order Sample.definite (fun _ => []) (fun x _ => (x, [])) Sample.genesis
    [.apply Sample.update, .build Sample.params fun _ => 7] after _ Sample.described
    Sample.funding_identified run _ (List.mem_singleton_self _) Sample.funded_supply
  exact ⟨after, _, run, coins, change, fee, builds, pays⟩

end Wallet

namespace WatchWallet

/-- In every state a wallet gets into, a request with amounts that exist is built or
    refused for one of four reasons, whatever the random words: never built where the
    coins worth their fee do not cover it, always where all coins together do. -/
theorem reachable_build_decides (env : Primitives) (graph : GraphLibrary) (order : ValueOrder)
    (lib : WalletLibrary) (w : WatchWallet) (req : SendRequest) (rng : Draws)
    (reachable : w.inner.Reachable env graph order) (ready : w.Ready env req) :
    OnlyFails (Refused lib w req) (w.buildPsbtRawWithAuxRand env order lib req rng) ∧
    ∃ coins, (w.inner.filterUtxos env w.inner.tip : Outcome CreateTxError _) = .ok coins ∧
    ∀ params, w.txBuilderFor lib req = .ok params →
      (effectiveOf params.feePolicy.rate (economic params.feePolicy.rate coins) <
          Wallet.asked params →
        ∀ built, w.buildPsbtRawWithAuxRand env order lib req rng ≠ .ok built) ∧
      ((∀ r ∈ params.recipients, ¬ DustPayment r) →
        params.feePolicy.rate.toNat * weightOf coins + 999 < 2 ^ 64 →
        Wallet.asked params + feesOf params.feePolicy.rate coins ≤ worthOf coins →
        ∃ built, w.buildPsbtRawWithAuxRand env order lib req rng = .ok built) := by
  have consistent := reachable.consistent
  obtain ⟨coins, listed⟩ := ready.listed consistent
  refine ⟨buildPsbtRaw_onlyFails consistent ready, coins, listed, ?_⟩
  intro params read
  have inner := ready.inner listed read
  have some : params.recipients ≠ [] := by
    obtain ⟨script, policy, _, _, rfl⟩ := txBuilderFor_eq_ok read
    exact List.cons_ne_nil _ _
  constructor
  · intro short built run
    simp only [buildPsbtRawWithAuxRand, read, bind_ok, bind_eq_ok, mapErr_eq_ok] at run
    obtain ⟨created, isCreated, _⟩ := run
    exact Wallet.createTx_short consistent inner short created isCreated
  · intro large fits cover
    obtain ⟨created, isCreated⟩ := Wallet.createTx_succeeds order rng
      consistent inner some large fits cover
    refine ⟨(created.1, { w with inner := created.2 }), ?_⟩
    unfold buildPsbtRawWithAuxRand
    rw [read, bind_ok, isCreated]
    rfl

theorem reachable_build_decides_funded : ∃ built, buildPsbtRawWithAuxRand Trinity.Sample.env
    Sample.order Sample.walletLibrary ⟨Sample.funded, .regtest⟩ Sample.request (fun _ => 7) =
      .ok built := by
  obtain ⟨_, coins, listed, decides⟩ := reachable_build_decides Trinity.Sample.env Sample.graph
    Sample.order Sample.walletLibrary ⟨Sample.funded, .regtest⟩ Sample.request (fun _ => 7)
    Sample.funded_reachable Sample.funded_ready
  obtain rfl := Except.ok.inj (Sample.funded_utxos.symm.trans listed)
  exact (decides Sample.params Sample.request_read).2 (by decide) (by decide) (by decide)

end WatchWallet

end Trinity.Watch
