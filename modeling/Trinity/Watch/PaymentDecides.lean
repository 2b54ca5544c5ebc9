import Trinity.Watch.BuiltPayment
import Trinity.Watch.SelectionDecides

/-!
When the wallet builds a payment: on amounts that exist the build never aborts, it
ends with an error only for an address or a fee rate that cannot be read, a dust
payment or coins that do not cover it, and it succeeds where all coins together
cover the payment and their fees.
-/
namespace Trinity.Watch

open Outcome Word Shuffle

namespace KeychainTxOutIndex

variable {ε : Type} {derive : Derive} {s : KeychainTxOutIndex}

theorem Indexed.stored (indexed : Indexed derive s) {i : KeychainIndex}
    (low : i.index.toNat < s.stopIndex i.keychain) :
    s.inner.spks.get? i = some (derive i.keychain i.index) := by
  rw [indexed.stores.spks, if_pos low]

theorem revealNextSpk_total (indexed : Indexed derive s) (distinct : DistinctPlaces derive)
    {k : KeychainKind} (room : s.nextReveal k < bip32MaxIndex) :
    ∃ revealed, (s.revealNextSpk derive k : Outcome ε _) = .ok revealed := by
  have number := ofNat_nextReveal indexed k
  obtain ⟨stores, moved, _⟩ := setRevealed_stores indexed distinct
    (i := ⟨k, UInt32.ofNat (s.nextReveal k)⟩) number.ge
  have low : (UInt32.ofNat (s.nextReveal k)).toNat <
      (s.setRevealed derive ⟨k, UInt32.ofNat (s.nextReveal k)⟩).stopIndex k := by
    unfold stopIndex
    rw [moved, Function.update_self, number]
    unfold gapLimit
    omega
  have stored := stores.spks ⟨k, UInt32.ofNat (s.nextReveal k)⟩
  rw [if_pos low] at stored
  unfold revealNextSpk
  rw [nextIndex_eq indexed k, bind_ok]
  simp only [↓reduceIte, stored]
  exact ⟨_, rfl⟩

theorem revealLoop_total (distinct : DistinctPlaces derive) {k : KeychainKind} {target : UInt32}
    (room : target.toNat < bip32MaxIndex) (turns : ℕ) (indexed : Indexed derive s) :
    ∃ s', (revealLoop derive k target turns s : Outcome ε _) = .ok s' := by
  induction turns generalizing s with
  | zero => exact ⟨s, rfl⟩
  | succ turns ih =>
    have number := ofNat_nextReveal indexed k
    simp only [revealLoop, nextIndex_eq indexed k, bind_ok, Bool.not_true, Bool.false_or,
      decide_eq_true_eq]
    split
    · exact ⟨s, rfl⟩
    · rename_i ahead
      rw [UInt32.lt_iff_toNat_lt] at ahead
      obtain ⟨⟨⟨i, spk⟩, next⟩, revealed⟩ :=
        revealNextSpk_total (ε := ε) indexed distinct (show s.nextReveal k < _ by omega)
      rw [revealed, bind_ok]
      exact ih (revealNextSpk_ok indexed distinct revealed).1.indexed

theorem recordChange_total (indexed : Indexed derive s) (distinct : DistinctPlaces derive)
    {i : UInt32} (room : i.toNat < bip32MaxIndex) :
    ∃ s', (s.recordChange derive i : Outcome ε _) = .ok s' := by
  obtain ⟨revealed, run⟩ := revealLoop_total (ε := ε) (k := .internal) distinct room
    (i.toNat + 1) indexed
  unfold recordChange revealToTarget
  rw [run, bind_ok]
  exact ⟨_, rfl⟩

theorem drainSpk_total (indexed : Indexed derive s) :
    ∃ offered, (s.drainSpk derive : Outcome ε _) = .ok offered := by
  unfold drainSpk
  split
  · rename_i i found
    obtain ⟨_, low⟩ := firstUnused_some indexed found
    have stored := indexed.stored (i := ⟨.internal, i⟩)
      (low.trans_le (indexed.nextReveal_le .internal))
    rw [stored]
    exact ⟨_, rfl⟩
  · rw [nextIndex_eq indexed .internal, bind_ok]
    exact ⟨_, rfl⟩

end KeychainTxOutIndex

def DustPayment (r : Script × UInt64) : Prop := (isDust r.2 r.1 && !isOpReturn r.1) = true

instance decidableDustPayment (r : Script × UInt64) : Decidable (DustPayment r) :=
  inferInstanceAs (Decidable ((isDust r.2 r.1 && !isOpReturn r.1) = true))

theorem addRecipients_onlyFails (recipients : List (Script × UInt64)) (outgoing : UInt64)
    (fits : outgoing.toNat + exactSum (recipients.map (·.2)) < 2 ^ 64) (index : Nat) :
    OnlyFails (fun e => ∃ n r, recipients[n]? = some r ∧ DustPayment r ∧
      e = .outputBelowDustLimit (index + n)) (addRecipients recipients index outgoing) := by
  induction recipients generalizing outgoing index with
  | nil => exact onlyFails_ok _
  | cons r rest ih =>
    simp only [List.map_cons, exactSum, List.sum_cons] at fits ih
    unfold addRecipients
    by_cases dust : (isDust r.2 r.1 && !isOpReturn r.1) = true
    · rw [rejectIf, if_pos dust]
      exact ⟨0, r, rfl, dust, rfl⟩
    · rw [rejectIf_of_not _ dust, bind_ok, plus_of_fits (by omega), bind_ok]
      have sum := add_toNat_exact (show outgoing.toNat + r.2.toNat < 2 ^ 64 by omega)
      apply onlyFails_bind
      · have later := ih (outgoing + r.2) (by rw [sum]; omega) (index + 1)
        obtain ⟨a, done⟩ | ⟨e, failed, n, small, at_, isDust, rfl⟩ := later.ok_or_fail
        · rw [done]
          exact onlyFails_ok a
        · rw [failed]
          exact ⟨n + 1, small, at_, isDust, by rw [Nat.add_assoc, Nat.add_comm 1]⟩
      · intro a _
        exact onlyFails_ok _

namespace Wallet

/-- What the coins have to cover besides their own fees. -/
def asked (params : TxParams) : ℕ :=
  exactSum (params.recipients.map (·.2)) + params.feePolicy.amount.toNat +
    (mulFeeRate (.ofNat (baseTx params).weight) params.feePolicy.rate).toNat

structure Ready (env : Primitives) (w : Wallet) (params : TxParams)
    (optional : List WeightedUtxo) : Prop where
  listed : (w.filterUtxos env params.currentHeight : Outcome CreateTxError _) = .ok optional
  supply : worthOf optional ≤ maxMoney
  modest : asked params + 2 ^ 56 < 2 ^ 64
  room : w.index.nextReveal .internal < bip32MaxIndex

inductive NotBuilt (order : ValueOrder) (optional : List WeightedUtxo) (params : TxParams)
    (rng : Draws) : CreateTxError → Prop where
  | dust (n : ℕ) (r : Script × UInt64) (listed : params.recipients[n]? = some r)
      (dust : DustPayment r) : NotBuilt order optional params rng (.outputBelowDustLimit n)
  | coins (missing : InsufficientFunds) (target : UInt64) (changeHash : BitVec 256)
      (target_eq : target.toNat = asked params)
      (failed : coinSelect order [] optional params.feePolicy.rate target (p2wshScript changeHash)
        rng = fail missing) :
      NotBuilt order optional params rng (.coinSelection missing)
  | empty (none : params.recipients = []) : NotBuilt order optional params rng .noRecipients

variable {env : Primitives} {order : ValueOrder} {w : Wallet} {params : TxParams} {rng : Draws}
  {optional : List WeightedUtxo}

theorem filterUtxos_light
    (listed : (w.filterUtxos env params.currentHeight : Outcome CreateTxError _) = .ok optional) :
    ∀ u ∈ optional, u.weight < 2 ^ 64 := by
  obtain ⟨unspents, _, rfl⟩ := filterUtxos_eq_ok.mp listed
  intro u member
  obtain ⟨e, _, isCoin⟩ := List.mem_filterMap.mp member
  obtain ⟨_, rfl⟩ := matureUtxo_eq_some.mp isCoin
  show segwitWeight.toNat + maxWeightToSatisfy.toNat < 2 ^ 64
  decide

theorem Ready.reasonable (ready : Ready env w params optional) {target : UInt64}
    (reach : target.toNat = asked params) (changeHash : BitVec 256) :
    Reasonable optional target (p2wshScript changeHash) :=
  ⟨ready.supply, by rw [reach]; exact ready.modest, filterUtxos_light ready.listed,
    by rw [serializedLen_p2wsh]; decide⟩

theorem Consistent.complete_selected (consistent : w.Consistent env) {target : UInt64}
    {drainScript : Script} {taken : List WeightedUtxo} {r : CoinSelectionResult} (rng' : Draws)
    (listed : (w.filterUtxos env params.currentHeight : Outcome CreateTxError _) = .ok optional)
    (selects : Selects [] optional params.feePolicy.rate target drainScript taken r) :
    ∃ psbt, w.completeTransaction env (sortTxWithAuxRand (selectedTx params drainScript r) rng')
      r.selected params.addGlobalXpubs = .ok psbt := by
  obtain ⟨inputPerm, _⟩ := sortTxWithAuxRand_perm (selectedTx params drainScript r) rng'
  obtain ⟨coins, perm, input⟩ := exists_map_of_perm inputPerm
  obtain ⟨mature, distinct, _⟩ := consistent.selected_coins listed selects perm
  obtain ⟨other, complete⟩ := consistent.completeTransaction (consistent.mature_held mature)
    perm.symm distinct input params.addGlobalXpubs
  exact ⟨_, complete⟩

theorem Consistent.recordExcess_total (consistent : w.Consistent env)
    (ready : Ready env w params optional) (excess : Excess) {i : UInt32} {drainScript : Script}
    (drain : (w.index.drainSpk w.derive : Outcome CreateTxError _) = .ok (i, drainScript)) :
    ∃ index, w.recordExcess excess i = .ok index := by
  cases excess with
  | noChange => exact ⟨w.index, rfl⟩
  | change =>
    obtain ⟨_, _, reached⟩ := KeychainTxOutIndex.drainSpk_ok consistent.indexed drain
    exact KeychainTxOutIndex.recordChange_total consistent.indexed consistent.distinct
      (reached.trans_lt ready.room)

theorem createTx_onlyFails (order : ValueOrder) (rng : Draws) (consistent : w.Consistent env)
    (ready : Ready env w params optional) :
    OnlyFails (NotBuilt order optional params rng) (w.createTx env order params rng) := by
  have fits := ready.modest
  unfold Wallet.asked at fits
  unfold createTx
  apply onlyFails_bind
  · obtain ⟨a, done⟩ | ⟨e, failed, n, r, listed, dust, rfl⟩ := (addRecipients_onlyFails
      params.recipients 0 (by rw [UInt64.toNat_zero]; omega) 0).ok_or_fail
    · rw [done]
      exact onlyFails_ok a
    · rw [failed, Nat.zero_add]
      exact .dust n r listed dust
  intro outputs recipients
  obtain ⟨named, sent⟩ := addRecipients_eq_ok recipients
  have isBase : (⟨2, params.currentHeight, [], outputs.1⟩ : Transaction) = baseTx params := by
    rw [named]
    rfl
  have values : exactSum (outputs.1.map TxOut.value) = exactSum (params.recipients.map (·.2)) := by
    rw [named, List.map_map]
    rfl
  rw [values, UInt64.toNat_zero, Nat.zero_add] at sent
  have fee := add_toNat_exact (show params.feePolicy.amount.toNat +
    (mulFeeRate (.ofNat (baseTx params).weight) params.feePolicy.rate).toNat < 2 ^ 64 by omega)
  have target := add_toNat_exact (show outputs.2.toNat + (params.feePolicy.amount +
    mulFeeRate (.ofNat (baseTx params).weight) params.feePolicy.rate).toNat < 2 ^ 64 by omega)
  obtain ⟨⟨i, drainScript⟩, drain⟩ :=
    KeychainTxOutIndex.drainSpk_total (ε := CreateTxError) consistent.indexed
  obtain ⟨_, isDrain, _⟩ := KeychainTxOutIndex.drainSpk_ok consistent.indexed drain
  obtain ⟨changeHash, same⟩ := consistent.p2wsh .internal i
  rw [isDrain, same] at drain
  dsimp only
  rw [isBase, plus_of_fits (by omega), bind_ok, ready.listed, bind_ok, drain, bind_ok]
  dsimp only
  rw [plus_of_fits (by omega), bind_ok]
  have reach : (outputs.2 + (params.feePolicy.amount +
      mulFeeRate (.ofNat (baseTx params).weight) params.feePolicy.rate)).toNat = asked params := by
    unfold Wallet.asked
    omega
  apply onlyFails_bind
  · rcases coinSelect_ends order params.feePolicy.rate (ready.reasonable reach changeHash) rng with
      ⟨found, select⟩ | ⟨missing, _, failed⟩
    · rw [select]
      exact onlyFails_ok found
    · rw [failed]
      exact .coins missing _ changeHash reach failed
  rintro ⟨r, rng'⟩ select
  rw [mapErr_eq_ok] at select
  obtain ⟨taken, selects⟩ := coinSelect_selects (by simpa using ready.supply)
    (ready.reasonable reach changeHash).short select
  obtain ⟨psbt, complete⟩ := consistent.complete_selected rng' ready.listed selects
  obtain ⟨index, record⟩ := consistent.recordExcess_total ready r.excess drain
  by_cases empty : outputs.1 = []
  · rw [rejectIf, if_pos empty]
    exact .empty (by simpa [named] using empty)
  · unfold selectedTx at complete
    rw [← isBase] at complete
    dsimp only at complete ⊢
    rw [rejectIf_of_not _ empty, bind_ok, complete, bind_ok, record, bind_ok]
    exact onlyFails_ok _

theorem effectiveOf_le_of_economic (feeRate : UInt64) (coins : List WeightedUtxo) :
    effectiveOf feeRate coins ≤ effectiveOf feeRate (economic feeRate coins) := by
  induction coins with
  | nil => exact le_refl _
  | cons u us ih =>
    unfold effectiveOf economic at ih ⊢
    rw [List.filter_cons, List.map_cons, List.sum_cons]
    split
    · rw [List.map_cons, List.sum_cons]
      omega
    · rename_i low
      rw [decide_eq_true_eq] at low
      omega

theorem createTx_succeeds (order : ValueOrder) (rng : Draws) (consistent : w.Consistent env)
    (ready : Ready env w params optional)
    (some : params.recipients ≠ []) (large : ∀ r ∈ params.recipients, ¬ DustPayment r)
    (fits : params.feePolicy.rate.toNat * weightOf optional + 999 < 2 ^ 64)
    (cover : asked params + feesOf params.feePolicy.rate optional ≤ worthOf optional) :
    ∃ built, w.createTx env order params rng = .ok built := by
  obtain done | ⟨e, _, reason⟩ := (createTx_onlyFails order rng consistent ready).ok_or_fail
  · exact done
  · cases reason with
    | dust n r listed dust => exact absurd dust (large r (List.mem_of_getElem? listed))
    | empty none => exact absurd none some
    | coins missing target changeHash reach failed =>
      have worth := effectiveOf_eq params.feePolicy.rate optional
      have more := effectiveOf_le_of_economic params.feePolicy.rate optional
      obtain ⟨low, _⟩ := feesOf_bounds fits
      obtain ⟨found, done⟩ := coinSelect_succeeds order (ready.reasonable reach changeHash) fits
        (by omega) (by omega) rng
      exact absurd done (by rw [failed]; exact fail_ne_ok missing found)

theorem createTx_short (consistent : w.Consistent env) (ready : Ready env w params optional)
    (short : effectiveOf params.feePolicy.rate (economic params.feePolicy.rate optional) <
      asked params)
    (built : Psbt × Wallet) : w.createTx env order params rng ≠ .ok built := by
  intro run
  obtain ⟨psbt, w'⟩ := built
  obtain ⟨outgoing, feeAmount, target, listed, i, drainScript, r, rng', index, steps, _⟩ :=
    createTx_eq_ok run
  obtain rfl : optional = listed := Except.ok.inj (ready.listed.symm.trans steps.listed)
  have sent := (addRecipients_eq_ok steps.recipients).2
  have values : exactSum ((baseTx params).output.map TxOut.value) =
      exactSum (params.recipients.map (·.2)) := by
    rw [baseTx, List.map_map]
    rfl
  have reach : target.toNat = asked params := by
    rw [values, UInt64.toNat_zero] at sent
    rw [steps.reach, steps.fee, asked]
    omega
  have select := steps.select
  obtain ⟨changeHash, isDrain⟩ := consistent.p2wsh .internal i
  rw [(consistent.drain steps.drain).1, isDrain] at select
  rw [← reach] at short
  obtain ⟨e, _, failed⟩ := insufficient_fails (ready.reasonable reach changeHash) short
  rw [coinSelect_eq (ready.reasonable reach changeHash), if_neg (not_le.mpr short), failed]
    at select
  exact fail_ne_ok e _ select

end Wallet

namespace WatchWallet

inductive Refused (lib : WalletLibrary) (w : WatchWallet) (req : SendRequest) :
    WatchWalletError → Prop where
  | address (text : Str)
      (unread : lib.address (toBitcoinNetwork w.network) req.recipient = .error text) :
      Refused lib w req (.invalidAddress text)
  | fee (vb : UInt64) (asked : req.feeTarget = .feerateSatVb vb) (high : 2 ^ 64 ≤ vb.toNat * 250) :
      Refused lib w req
        (.invalidFee (bytes "feerate " ++ decimal vb.toNat ++ bytes " sat/vB out of range"))
  | dust (script : Script)
      (read : lib.address (toBitcoinNetwork w.network) req.recipient = .ok script)
      (dust : DustPayment (script, req.amountSats)) :
      Refused lib w req (.build (lib.createTxErrorText (.outputBelowDustLimit 0)))
  | coins (missing : InsufficientFunds) (short : missing.available.toNat < missing.needed.toNat) :
      Refused lib w req (.build (lib.createTxErrorText (.coinSelection missing)))

/-- No canonical transaction lists an input twice, amounts exist, the height is one, and
    change addresses are left to derive. -/
structure Ready (env : Primitives) (w : WatchWallet) (req : SendRequest) : Prop where
  once : ∀ cs, (w.inner.graph.listCanonicalTxs env w.inner.chain : Outcome CreateTxError _) =
    .ok cs → ∀ c ∈ cs, SpendsOnce c.tx
  supply : ∀ coins, (w.inner.filterUtxos env w.inner.tip : Outcome CreateTxError _) = .ok coins →
    worthOf coins ≤ maxMoney
  room : w.inner.index.nextReveal .internal < bip32MaxIndex
  height : w.inner.tip < lockTimeThreshold
  amount : req.amountSats.toNat ≤ maxMoney
  fee : ∀ sats, req.feeTarget = .absoluteSats sats → sats.toNat ≤ maxMoney

variable {env : Primitives} {order : ValueOrder} {lib : WalletLibrary} {w : WatchWallet}
  {req : SendRequest} {rng : Draws} {params : TxParams}

theorem txBuilderFor_eq_ok (run : w.txBuilderFor lib req = .ok params) :
    ∃ script feePolicy, lib.address (toBitcoinNetwork w.network) req.recipient = .ok script ∧
      feePolicyOf req.feeTarget = .ok feePolicy ∧
      params = ⟨[(script, req.amountSats)], feePolicy, w.inner.tip, antiFeeSnipingSequence,
        true⟩ := by
  simp only [txBuilderFor, bind_eq_ok, pure_eq_ok, ofExcept_eq_ok] at run
  obtain ⟨script, read, _, _, feePolicy, known, rfl⟩ := run
  exact ⟨script, feePolicy, read, known, rfl⟩

theorem feePolicyOf_amount {target : FeeTarget} {policy : FeePolicy}
    (run : feePolicyOf target = .ok policy)
    (small : ∀ sats, target = .absoluteSats sats → sats.toNat ≤ maxMoney) :
    policy.amount.toNat ≤ maxMoney := by
  cases target with
  | feerateSatVb vb =>
    simp only [feePolicyOf, bind_eq_ok, pure_eq_ok] at run
    obtain ⟨rate, _, rfl⟩ := run
    exact Nat.zero_le _
  | absoluteSats sats =>
    obtain rfl : FeePolicy.feeAmount sats = policy := by simpa [feePolicyOf] using run
    exact small sats rfl

theorem Ready.listed (ready : Ready env w req) (consistent : w.inner.Consistent env) :
    ∃ coins, (w.inner.filterUtxos env w.inner.tip : Outcome CreateTxError _) = .ok coins := by
  obtain ⟨unspents, listed⟩ := TxGraph.filterChainUnspents_total consistent.linked ready.once
    w.inner.outpoints
  exact ⟨_, Wallet.filterUtxos_eq_ok.mpr ⟨unspents, listed, rfl⟩⟩

theorem Ready.inner (ready : Ready env w req) {coins : List WeightedUtxo}
    (listed : (w.inner.filterUtxos env w.inner.tip : Outcome CreateTxError _) = .ok coins)
    (run : w.txBuilderFor lib req = .ok params) : Wallet.Ready env w.inner params coins := by
  obtain ⟨script, policy, _, known, rfl⟩ := txBuilderFor_eq_ok run
  have amount := ready.amount
  have fee := feePolicyOf_amount known ready.fee
  have rate := mulFeeRate_small policy.rate (.ofNat (Wallet.baseTx ⟨[(script, req.amountSats)],
    policy, w.inner.tip, antiFeeSnipingSequence, true⟩).weight)
  refine ⟨listed, ready.supply _ listed, ?_, ready.room⟩
  unfold Wallet.asked
  unfold maxMoney at amount fee
  simp only [List.map_cons, List.map_nil, exactSum, List.sum_cons, List.sum_nil]
  omega

theorem txBuilderFor_onlyFails (ready : Ready env w req) :
    OnlyFails (Refused lib w req) (w.txBuilderFor lib req) := by
  unfold txBuilderFor
  apply onlyFails_bind (onlyFails_ofExcept fun text unread => .address text unread)
  intro script _
  apply onlyFails_bind (onlyFails_abortUnless ready.height)
  intro _ _
  apply onlyFails_bind
  · unfold feePolicyOf
    cases target : req.feeTarget with
    | absoluteSats sats => exact onlyFails_ok _
    | feerateSatVb vb =>
      by_cases fits : vb.toNat * 250 < 2 ^ 64
      · simp only [fromSatPerVb, if_pos fits]
        exact onlyFails_ok _
      · simp only [fromSatPerVb, if_neg fits]
        exact .fee vb target (not_lt.mp fits)
  · intro _ _
    exact onlyFails_ok _

theorem buildPsbtRaw_onlyFails (consistent : w.inner.Consistent env) (ready : Ready env w req) :
    OnlyFails (Refused lib w req) (w.buildPsbtRawWithAuxRand env order lib req rng) := by
  unfold buildPsbtRawWithAuxRand
  apply onlyFails_bind (txBuilderFor_onlyFails ready)
  intro params run
  obtain ⟨coins, listed⟩ := ready.listed consistent
  have inner := ready.inner listed run
  obtain ⟨script, policy, read, _, rfl⟩ := txBuilderFor_eq_ok run
  apply onlyFails_bind
  · apply onlyFails_mapErr (Wallet.createTx_onlyFails order rng consistent inner)
    intro e reason
    cases reason with
    | dust n r listed dust =>
      obtain ⟨rfl, rfl⟩ : n = 0 ∧ (script, req.amountSats) = r := by
        simpa [List.getElem?_singleton] using listed
      exact .dust script read dust
    | empty none => simp at none
    | coins missing target changeHash reach failed =>
      rcases coinSelect_ends order policy.rate (inner.reasonable reach changeHash) rng with
        ⟨found, select⟩ | ⟨missing', short, failed'⟩
      · rw [select] at failed
        contradiction
      · obtain rfl : missing' = missing := by simpa [fail] using failed'.symm.trans failed
        exact .coins missing' short
  · intro _ _
    exact onlyFails_ok _

end WatchWallet

end Trinity.Watch
