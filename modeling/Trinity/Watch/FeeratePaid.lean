import Trinity.Signer.FinalizeShape
import Trinity.Watch.AcceptedPayment

/-!
The feerate asked for is the feerate paid. The fee is fixed before any signature
exists, from an estimate of the weight. With low-s signatures no witness is larger
than estimated, so the transaction that `finalize` returns pays at least the
feerate, and never more than for witnesses of full size.
-/
namespace Trinity

open Outcome Word

theorem dropLeadingZeros_length_le (s : Str) : (dropLeadingZeros s).length ≤ s.length := by
  fun_induction dropLeadingZeros s with
  | case1 b rest _ ih =>
    simp only [List.length_cons] at ih ⊢
    omega
  | case2 => exact le_refl _
  | case3 => exact le_refl _

theorem derInteger_length_le (n : ℕ) : (derInteger n).length ≤ 35 := by
  have value := dropLeadingZeros_length_le (beBytes 33 (BitVec.ofNat 264 n))
  rw [beBytes_length] at value
  simp only [derInteger, List.length_cons]
  omega

theorem derInteger_length_low {n : ℕ} (low : n < 2 ^ 255) : (derInteger n).length ≤ 34 := by
  have fits : (BitVec.ofNat 264 n).toNat = n := by
    rw [BitVec.toNat_ofNat, Nat.mod_eq_of_lt (by omega)]
  have first : UInt8.ofNat ((BitVec.ofNat 264 n).toNat / 256 ^ 32) = 0 := by
    rw [fits, Nat.div_eq_of_lt (by omega)]
    rfl
  have second : UInt8.ofNat ((BitVec.ofNat 264 n).toNat / 256 ^ 31) < 0x80 := by
    rw [UInt8.lt_iff_toNat_lt, fits, UInt8.toNat_ofNat']
    show n / 256 ^ 31 % 256 < 128
    omega
  have rest := dropLeadingZeros_length_le (beBytes 32 (BitVec.ofNat 264 n))
  have value : (dropLeadingZeros (beBytes 33 (BitVec.ofNat 264 n))).length ≤ 32 := by
    rw [beBytes_length] at rest
    rw [beBytes_succ, first, beBytes_succ, dropLeadingZeros, if_pos second, ← beBytes_succ]
    exact rest
  simp only [derInteger, List.length_cons]
  omega

theorem Signature.serialize_length_le {sig : Signature} (low : sig.signature.LowS) :
    sig.serialize.length ≤ 72 := by
  have small : sig.signature.s < 2 ^ 255 := low.trans_lt (by decide)
  have first := derInteger_length_le sig.signature.r
  have second := derInteger_length_low small
  simp only [serialize, EcdsaSignature.serializeDer, List.length_append, List.length_cons,
    List.length_nil]
  omega

theorem witnessScript2of3_length {c0 c1 c2 : SecpPublicKey} {script : Script}
    (built : witnessScript2of3 (sortPubkeys [c0, c1, c2]) = .ok script) : script.length = 105 := by
  simp only [witnessScript2of3, buildCheckmultisigScript, bind_eq_ok, pure_ok, Except.ok.injEq]
    at built
  obtain ⟨_, _, _, _, rfl⟩ := built
  have keys : ((sortPubkeys [c0, c1, c2]).map pushKey).flatten.length = 102 := by
    rw [List.length_flatten, List.map_map, sortPubkeys,
      (((List.perm_insertionSort _ [c0, c1, c2]).map _).sum_eq)]
    simp [pushKey]
  simp only [List.length_append, keys, pushInt, List.length_cons, List.length_nil]

theorem varIntSize_of_le {n : ℕ} (small : n ≤ 252) : varIntSize n = 1 := if_pos small

theorem multisigWitness_size {first second script : Str} (short : first.length ≤ 72)
    (short' : second.length ≤ 72) (size : script.length = 105) :
    witnessSize [[], first, second, script] ≤ 254 := by
  have count : varIntSize first.length = 1 := varIntSize_of_le (by omega)
  have count' : varIntSize second.length = 1 := varIntSize_of_le (by omega)
  have count'' : varIntSize script.length = 1 := varIntSize_of_le (by omega)
  have empty : varIntSize 0 = 1 := rfl
  have items : varIntSize (0 + 1 + 1 + 1 + 1) = 1 := rfl
  simp only [witnessSize, List.map_cons, List.map_nil, List.sum_cons, List.sum_nil,
    List.length_cons, List.length_nil, count, count', count'', empty,
    items]
  omega

theorem SpendsLeaf.witnessSize_le {env : Primitives} {receive : ParsedDescriptor}
    {change : Option ParsedDescriptor} {input : Input} {coin : TxOut} {witness : List Str}
    (leaf : SpendsLeaf env receive change input coin witness) (plain : PlainSignatures input) :
    witness ≠ [] ∧ witnessSize witness ≤ 254 := by
  obtain ⟨_, _, _, _, _, script, first, second, _, _, _, _, built, _, lowest, rfl⟩ := leaf
  have low : ∀ k sig, SignedUnder input k sig → sig.serialize.length ≤ 72 := by
    intro k sig signed
    obtain ⟨key, member, _⟩ := signed
    exact Signature.serialize_length_le (plain.2 sig (List.mem_map.mpr ⟨_, member, rfl⟩)).2
  obtain ⟨_, k₁, _, k₂, _, _, _, under, under'⟩ := lowest.placed
  have short := low k₁ first under
  have short' := low k₂ second under'
  have size := witnessScript2of3_length built
  exact ⟨List.cons_ne_nil _ _, multisigWitness_size short short' size⟩

theorem sum_baseSize {input : List TxIn} (empty : ∀ txin ∈ input, txin.scriptSig = []) :
    (input.map TxIn.baseSize).sum = input.length * 41 := by
  have each : ∀ n ∈ input.map TxIn.baseSize, n = 41 := by
    intro n member
    obtain ⟨txin, there, rfl⟩ := List.mem_map.mp member
    rw [TxIn.baseSize, empty txin there]
    rfl
  rw [List.sum_eq_card_nsmul _ _ each, List.length_map, Nat.nsmul_eq_mul]

theorem Transaction.weight_signed_le {tx tx' : Transaction} {size : ℕ} (nonempty : tx.input ≠ [])
    (unsigned : ∀ txin ∈ tx.input, txin.scriptSig = [] ∧ txin.witness = [])
    (count : tx'.input.length = tx.input.length) (output : tx'.output = tx.output)
    (signed : ∀ txin ∈ tx'.input, txin.scriptSig = [] ∧ witnessSize txin.witness ≤ size) :
    tx'.weight ≤ tx.weight + size * tx.input.length + 2 := by
  have inputs := sum_baseSize fun txin member => (unsigned txin member).1
  have inputs' := sum_baseSize fun txin member => (signed txin member).1
  have base : tx'.baseSize = tx.baseSize := by
    unfold Transaction.baseSize
    rw [inputs, inputs', count, output]
  have total := Transaction.totalSize_unsigned nonempty fun txin member => (unsigned txin member).2
  have witnesses : (tx'.input.map fun txin =>
      if tx'.usesSegwitSerialization then txin.totalSize else txin.baseSize).sum ≤
        tx'.input.length * (41 + size) := by
    have each : ∀ n ∈ tx'.input.map (fun txin =>
        if tx'.usesSegwitSerialization then txin.totalSize else txin.baseSize), n ≤ 41 + size := by
      intro n member
      obtain ⟨txin, there, rfl⟩ := List.mem_map.mp member
      obtain ⟨empty, small⟩ := signed txin there
      have own : txin.baseSize = 41 := by
        rw [TxIn.baseSize, empty]
        rfl
      split
      · rw [TxIn.totalSize, own]
        omega
      · omega
    have sum := List.sum_le_card_nsmul _ _ each
    rwa [List.length_map, Nat.nsmul_eq_mul] at sum
  have total' : tx'.totalSize ≤ tx'.baseSize + 2 + tx'.input.length * size := by
    have marker : (if tx'.usesSegwitSerialization then 2 else 0) ≤ 2 := by split <;> omega
    unfold Transaction.totalSize Transaction.baseSize
    rw [inputs']
    rw [Nat.mul_add] at witnesses
    dsimp only
    omega
  rw [count, Nat.mul_comm] at total'
  unfold Transaction.weight
  omega

section Finalized

variable {env : SignPrimitives} {psbt : Psbt} {descriptor : Str} {policy : VerifyPolicy}
  {tx : Transaction}

theorem finalize_fills (run : finalize env psbt descriptor policy = .ok tx)
    (plain : ∀ input ∈ psbt.inputs, input.finalScriptSig = none ∧ PlainSignatures input) :
    psbt.unsignedTx.input ≠ [] ∧ tx.output = psbt.unsignedTx.output ∧
      tx.input.length = psbt.unsignedTx.input.length ∧
      ∀ txin ∈ tx.input, txin.scriptSig = [] ∧ witnessSize txin.witness ≤ 254 := by
  simp only [finalize, finishTransaction, bind_eq_ok, rejectIf_eq_ok, mapErr_eq_ok, okOr_eq_ok,
    ne_eq, not_not, pure_ok, Except.ok.injEq] at run
  obtain ⟨_, some, _, maps, receive, _, change, _, parts, loop, _, _, _, _, _, _, _, _, rfl⟩ := run
  have nonempty : psbt.unsignedTx.input ≠ [] := by
    intro none
    rw [none, List.length_nil, List.length_eq_zero_iff] at maps
    simp [maps] at some
  have count : (psbt.withWitnesses parts).extractTx.input.length =
      psbt.unsignedTx.input.length := by
    simp [Psbt.extractTx, Psbt.withWitnesses]
  refine ⟨nonempty, rfl, count, ?_⟩
  intro txin member
  obtain ⟨i, inside, rfl⟩ := List.getElem_of_mem member
  rw [count] at inside
  have spent := List.getElem?_eq_getElem inside
  have map := List.getElem?_eq_getElem (maps ▸ inside : i < psbt.inputs.length)
  have paired : psbt.inputs.zipIdx[i]? = .some (psbt.inputs[i], i) := by simp [map]
  obtain ⟨part, made, turn⟩ := mapM_getElem loop paired
  obtain ⟨_, _, _, _, leaf⟩ := finalizeInput_spends turn
  obtain ⟨none, signatures⟩ := plain _ (List.getElem_mem (maps ▸ inside))
  have finished := finished_input spent map made
  rw [List.getElem?_eq_getElem (count ▸ inside), Option.some.injEq] at finished
  rw [finished]
  refine ⟨?_, (leaf.witnessSize_le signatures).2⟩
  rw [none]
  rfl

end Finalized

end Trinity

namespace Trinity.Watch

open Outcome Word

theorem segwit_input_weight : (segwitWeight + maxWeightToSatisfy).toNat = 418 := by decide

variable {env : Primitives} {w w' : Wallet} {params : TxParams} {coins : List LocalOutput}
  {back : List TxOut} {psbt : Psbt}

theorem Wallet.Builds.unsigned (builds : Wallet.Builds env w params coins back psbt w') :
    ∀ txin ∈ psbt.unsignedTx.input, txin.scriptSig = [] ∧ txin.witness = [] := by
  intro txin member
  rw [builds.input] at member
  obtain ⟨u, _, rfl⟩ := List.mem_map.mp member
  exact ⟨rfl, rfl⟩

theorem Wallet.Builds.estimate (builds : Wallet.Builds env w params coins back psbt w')
    (spends : coins ≠ []) (few : coins.length ≤ 252) (paid : params.recipients.length ≤ 251) :
    Wallet.estimatedWeight params coins back =
      psbt.unsignedTx.weight + 254 * psbt.unsignedTx.input.length + 2 := by
  have count : psbt.unsignedTx.input.length = coins.length := by
    rw [builds.input, List.length_map]
  have nonempty : psbt.unsignedTx.input ≠ [] := by
    rw [builds.input]
    simpa using spends
  have inputs := sum_baseSize fun txin member => (builds.unsigned txin member).1
  rw [count] at inputs
  have outputs : (psbt.unsignedTx.output.map TxOut.size).sum =
      ((Wallet.baseTx params).output.map TxOut.size).sum + (back.map TxOut.size).sum := by
    rw [(builds.output.map TxOut.size).sum_eq, List.map_append, List.sum_append]
    rfl
  have change : (back.map fun o => 4 * o.size).sum = 4 * (back.map TxOut.size).sum := by
    rw [← List.sum_map_mul_left]
  have atMostOne : back.length ≤ 1 := by
    rcases builds.change with ⟨rfl, _⟩ | ⟨i, amount, index, rfl, _⟩
    · exact Nat.zero_le _
    · exact le_refl _
  have named : psbt.unsignedTx.output.length = params.recipients.length + back.length := by
    rw [builds.output.length_eq, List.length_append, List.length_map]
  have outs : varIntSize psbt.unsignedTx.output.length = 1 := varIntSize_of_le (by omega)
  have ins : varIntSize psbt.unsignedTx.input.length = 1 := varIntSize_of_le (by omega)
  have outs' : varIntSize (Wallet.baseTx params).output.length = 1 := by
    apply varIntSize_of_le
    rw [Wallet.baseTx, List.length_map]
    omega
  have ins' : varIntSize ([] : List TxIn).length = 1 := rfl
  have total := Transaction.totalSize_unsigned nonempty fun txin member =>
    (builds.unsigned txin member).2
  have base : (Wallet.baseTx params).weight =
      4 * (10 + ((Wallet.baseTx params).output.map TxOut.size).sum) + 2 := by
    unfold Transaction.weight Transaction.baseSize Transaction.totalSize
    rw [outs']
    simp only [Wallet.baseTx, List.map_nil, List.sum_nil, ins']
    simp only [Transaction.usesSegwitSerialization, List.any_nil, List.isEmpty_nil, Bool.or_true,
      if_true]
    omega
  have unsigned : psbt.unsignedTx.weight = 4 * (10 + coins.length * 41 +
      (psbt.unsignedTx.output.map TxOut.size).sum) := by
    unfold Transaction.weight
    rw [total, Transaction.baseSize, inputs, outs, ins]
    omega
  rw [Wallet.estimatedWeight, base, change, unsigned, outputs, count, segwit_input_weight]
  omega

theorem buildPsbtRaw_rate {order : ValueOrder} {lib : WalletLibrary}
    {w w' : WatchWallet} {req : SendRequest} {rng : Shuffle.Draws} {vb : UInt64}
    (asked : req.feeTarget = .feerateSatVb vb)
    (run : w.buildPsbtRawWithAuxRand env order lib req rng = .ok (psbt, w')) :
    ∃ (params : TxParams) (inner : Wallet), params.feePolicy = .feeRate (vb * 250) ∧
      params.currentHeight = w.inner.tip ∧ params.recipients.length = 1 ∧
      (vb * 250).toNat = vb.toNat * 250 ∧
      w.inner.createTx env order params rng = .ok (psbt, inner) ∧ w' = { w with inner } := by
  simp only [WatchWallet.buildPsbtRawWithAuxRand, bind_eq_ok, pure_eq_ok, mapErr_eq_ok] at run
  obtain ⟨params, read, ⟨psbt', inner⟩, created, same⟩ := run
  obtain ⟨rfl, rfl⟩ : psbt' = psbt ∧ { w with inner } = w' := by simpa using same
  obtain ⟨script, policy, _, known, rfl⟩ := WatchWallet.txBuilderFor_eq_ok read
  rw [asked, feePolicyOf, bind_eq_ok] at known
  obtain ⟨rate, isRate, known⟩ := known
  rw [okOr_eq_ok, fromSatPerVb, Option.ite_none_right_eq_some] at isRate
  obtain ⟨fits, isRate⟩ := isRate
  obtain rfl := Option.some.inj isRate
  obtain rfl := Except.ok.inj known
  have product : (vb * 250).toNat = vb.toNat * 250 := by
    rw [UInt64.toNat_mul]
    exact Nat.mod_eq_of_lt fits
  exact ⟨_, inner, rfl, rfl, rfl, product, created, rfl⟩

/-- The finished transaction pays the feerate it was asked for: at least that for its
    weight, and at most that for witnesses of full size and a change output, up to
    rounding and an amount too small to be change. -/
theorem finished_pays_feerate (env : SignPrimitives) (graph : GraphLibrary) (order : ValueOrder)
    (lib : WalletLibrary) (w w' : WatchWallet) (req : SendRequest) (rng : Shuffle.Draws)
    (vb : UInt64) (psbt signed : Psbt) (descriptor : Str) (policy : VerifyPolicy)
    (tx : Transaction) (reachable : w.inner.Reachable env.toPrimitives graph order)
    (supply : ∀ coins, (w.inner.filterUtxos env.toPrimitives w.inner.tip :
      Outcome CreateTxError _) = .ok coins → worthOf coins ≤ maxMoney)
    (asked : req.feeTarget = .feerateSatVb vb)
    (run : w.buildPsbtRawWithAuxRand env.toPrimitives order lib req rng = .ok (psbt, w'))
    (fits : vb.toNat * 250 *
      (psbt.unsignedTx.weight + 254 * psbt.unsignedTx.input.length + 174) + 999 < 2 ^ 64)
    (few : psbt.unsignedTx.input.length ≤ 252)
    (same : signed.unsignedTx = psbt.unsignedTx)
    (plain : ∀ input ∈ signed.inputs, input.finalScriptSig = none ∧ PlainSignatures input)
    (done : finalize env signed descriptor policy = .ok tx) :
    ∃ fee sumIn sumOut, feeIdentity psbt = .ok (fee, sumIn, sumOut) ∧
      vb.toNat * tx.weight ≤ 4 * fee.toNat ∧
      1000 * fee.toNat ≤ vb.toNat * 250 *
        (psbt.unsignedTx.weight + 254 * psbt.unsignedTx.input.length + 174) +
          999 * (psbt.unsignedTx.input.length + 3) + 330000 := by
  obtain ⟨params, inner, rate, height, single, isRate, created, rfl⟩ :=
    buildPsbtRaw_rate asked run
  obtain ⟨coins, back, paid, builds, pays, bound⟩ := Wallet.createTx_builds reachable.consistent
    (height ▸ supply) created
  have small : exactSum (coins.map (·.txout.value)) < UInt64.size := bound.trans_lt (by decide)
  obtain ⟨fee, sumIn, sumOut, identity, isFee, _⟩ := builds.feeIdentity pays small
  subst isFee
  obtain ⟨nonempty, output, count, witnesses⟩ := finalize_fills done plain
  rw [same] at nonempty output count
  have spends : coins ≠ [] := by
    rintro rfl
    exact nonempty builds.input
  have length : psbt.unsignedTx.input.length = coins.length := by
    rw [builds.input, List.length_map]
  have estimate := builds.estimate spends (length ▸ few) (by omega)
  have weight := Transaction.weight_signed_le nonempty builds.unsigned count output witnesses
  rw [← estimate] at weight
  refine ⟨fee, sumIn, sumOut, identity, ?_⟩
  have product := Nat.mul_add (vb.toNat * 250) (Wallet.estimatedWeight params coins back) 172
  have whole : psbt.unsignedTx.weight + 254 * psbt.unsignedTx.input.length + 174 =
      Wallet.estimatedWeight params coins back + 172 := by omega
  rw [whole] at fits ⊢
  obtain ⟨low, high, high'⟩ := pays.rate (vb * 250) (by rw [rate]) (by rw [isRate]; exact fits)
  rw [isRate] at low high high'
  have heavier := Nat.mul_le_mul_left (vb.toNat * 250) weight
  have scaled : vb.toNat * 250 * tx.weight = 250 * (vb.toNat * tx.weight) := by ring
  refine ⟨by omega, ?_⟩
  rw [product, length]
  by_cases none : back = []
  · have most := high' none
    rw [product] at most
    linarith
  · have most := high none
    linarith [Nat.zero_le (vb.toNat * 250 * 172)]

namespace Sample

/-- The signing primitives of the test wallet, with consensus taken for granted. -/
def lenient : SignPrimitives := { Trinity.Sample.signEnv with verifyTransaction := fun _ _ => true }

def wide : VerifyPolicy := { limits with maxFeerate := 100000 }

def onlyCoin : LocalOutput := ⟨⟨0, 0⟩, received, .external, 0⟩

def signedInput : Input :=
  { funded.builtInput onlyCoin with
    partialSigs := (OrderedMap.empty.insert (.new Trinity.Sample.childAExternal.publicKey)
      ⟨Trinity.Sample.signatureA, .all⟩).insert (.new Trinity.Sample.childBExternal.publicKey)
        ⟨Trinity.Sample.signatureB, .all⟩
    sighashType := some 1 }

theorem only_coin {coins : List LocalOutput} (spends : coins ≠ [])
    (mature : ∃ unspents, (funded.filterChainUnspents Trinity.Sample.env :
      Outcome CreateTxError _) = .ok unspents ∧ ∀ u ∈ coins, ∃ e ∈ unspents,
        e.2.isMature 100 = true ∧ u = Wallet.newLocalUtxo e.1 e.2)
    (distinct : (coins.map (·.outpoint)).Nodup) :
    coins = [onlyCoin] := by
  have each : ∀ u ∈ coins, u = onlyCoin := by
    intro u member
    obtain ⟨unspents, listed, each⟩ := mature
    obtain ⟨e, unspent, _, rfl⟩ := each u member
    obtain rfl := Except.ok.inj (funded_unspents.symm.trans listed)
    rw [List.mem_singleton.mp unspent]
    rfl
  cases coins with
  | nil => exact absurd rfl spends
  | cons u rest =>
    obtain rfl := each u List.mem_cons_self
    cases rest with
    | nil => rfl
    | cons v more =>
      obtain rfl := each v (List.mem_cons_of_mem _ List.mem_cons_self)
      simp at distinct

theorem signedInput_gathers : witnessForSorted signedInput 0
    Trinity.Sample.receiveOutput.sortedPubkeys Trinity.Sample.receiveOutput.witnessScript =
      .ok [[], Signature.serialize ⟨Trinity.Sample.signatureB, .all⟩,
        Signature.serialize ⟨Trinity.Sample.signatureA, .all⟩,
        Trinity.Sample.receiveOutput.witnessScript] := by
  have found : findSignature signedInput Trinity.Sample.childBExternal.publicKey =
        some ⟨Trinity.Sample.signatureB, .all⟩ ∧
      findSignature signedInput Trinity.Sample.childAExternal.publicKey =
        some ⟨Trinity.Sample.signatureA, .all⟩ := by decide +kernel
  simp only [witnessForSorted, Trinity.Sample.receiveOutput, gatherSignatures, found.1, found.2]
  rfl

theorem signedInput_finalizes {tx : Transaction}
    (spent : tx.input[0]? = some ⟨⟨0, 0⟩, [], antiFeeSnipingSequence, []⟩) :
    ∃ part, finalizeInput lenient tx (Trinity.Sample.wallet .external)
      (some (Trinity.Sample.wallet .internal)) wide signedInput 0 = .ok part := by
  have shown : signedInput.witnessUtxo = some received := rfl
  have recorded : wide.knownUtxos.get? ⟨0, 0⟩ = some received := rfl
  have names : NamesLeaf signedInput 0 0 := ⟨by decide, _, _, Trinity.Sample.origin, rfl⟩
  have derived : derivedForInput lenient signedInput 0 (Trinity.Sample.wallet .external)
      (some (Trinity.Sample.wallet .internal)) = .ok Trinity.Sample.receiveOutput :=
    derivedForInput_eq_ok.mpr ⟨0, 0, _, names, rfl, Trinity.Sample.derived_receive⟩
  have isDerived : deriveAt lenient.toPrimitives (Trinity.Sample.wallet .external) 0 =
      .ok Trinity.Sample.receiveOutput := Trinity.Sample.derived_receive
  have script := finalScript_derived isDerived
  have given : signedInput.witnessScript = some Trinity.Sample.receiveOutput.witnessScript := rfl
  have pays : ¬ received.scriptPubkey ≠ Trinity.Sample.receiveOutput.scriptPubkey :=
    fun apart => apart rfl
  rw [finalizeInput_known shown spent recorded, derived, bind_ok, rejectIf_of_not _ pays,
    bind_ok]
  dsimp only
  rw [script, given, okOr, bind_ok, rejectIf_of_not _ (fun apart => apart rfl), bind_ok,
    signedInput_gathers, bind_ok]
  exact ⟨_, rfl⟩

theorem funded_built {rng : Shuffle.Draws} {psbt : Psbt} {w' : WatchWallet}
    (run : WatchWallet.buildPsbtRawWithAuxRand Trinity.Sample.env order walletLibrary
      ⟨funded, .regtest⟩ request rng = .ok (psbt, w')) :
    psbt.unsignedTx.input = [⟨⟨0, 0⟩, [], antiFeeSnipingSequence, []⟩] ∧
      psbt.inputs = [funded.builtInput onlyCoin] ∧ psbt.unsignedTx.weight ≤ 1000 ∧
      ∃ fee, 0 < fee ∧ 100000 = exactSum (psbt.unsignedTx.output.map TxOut.value) + fee := by
  rw [WatchWallet.buildPsbtRawWithAuxRand, request_read, bind_ok, bind_eq_ok] at run
  obtain ⟨⟨psbt', inner⟩, created, same⟩ := run
  obtain ⟨rfl, _⟩ : psbt' = psbt ∧ _ = w' := by simpa using same
  rw [mapErr_eq_ok] at created
  obtain ⟨coins, back, fee, builds, pays, _⟩ := Wallet.createTx_builds
    funded_reachable.consistent funded_supply created
  have balance := pays.balance
  have paid : exactSum (params.recipients.map (·.2)) = 60000 := by decide
  rw [paid] at balance
  have spends : coins ≠ [] := by
    rintro rfl
    rw [List.map_nil, exactSum_nil] at balance
    omega
  have single := only_coin spends builds.mature builds.distinct
  subst single
  have change : (back.map fun o => 4 * o.size).sum ≤ 172 := by
    rcases builds.change with ⟨rfl, _⟩ | ⟨i, amount, index, rfl, _⟩
    · exact Nat.zero_le _
    · have size : serializedLen (funded.derive .internal i) = 35 :=
        serializedLen_p2wsh (KeychainTxOutIndex.Sample.hash ⟨.internal, i⟩)
      unfold serializedLen at size
      simp only [List.map_cons, List.map_nil, List.sum_cons, List.sum_nil, TxOut.size]
      omega
  have estimate := builds.estimate spends (by decide) (by decide)
  have reckoned : Wallet.estimatedWeight params [onlyCoin] back ≤ 1000 := by
    have base : (Wallet.baseTx params).weight ≤ 300 := by decide
    unfold Wallet.estimatedWeight
    rw [segwit_input_weight, List.length_singleton]
    omega
  have worth : exactSum ([onlyCoin].map (·.txout.value)) = 100000 := by decide
  have outputs := builds.outputValue
  obtain ⟨low, _⟩ := pays.rate 2500 rfl (by
    rw [show (2500 : UInt64).toNat = 2500 from rfl]
    omega)
  rw [show (2500 : UInt64).toNat = 2500 from rfl] at low
  exact ⟨builds.input, builds.inputs, by omega, fee, by omega, by omega⟩

theorem funded_finalizes {rng : Shuffle.Draws} {psbt : Psbt} {w' : WatchWallet}
    (run : WatchWallet.buildPsbtRawWithAuxRand Trinity.Sample.env order walletLibrary
      ⟨funded, .regtest⟩ request rng = .ok (psbt, w')) :
    ∃ tx, finalize lenient { psbt with inputs := [signedInput] }
      Trinity.Sample.receiveDescriptor wide = .ok tx := by
  obtain ⟨input, _, _, fee, positive, balance⟩ := funded_built run
  have spent : psbt.unsignedTx.input[0]? = some ⟨⟨0, 0⟩, [], antiFeeSnipingSequence, []⟩ := by
    rw [input]
    rfl
  obtain ⟨part, turn⟩ := signedInput_finalizes spent
  have fits : (UInt64.ofNat fee).toNat = fee := UInt64.toNat_ofNat_of_lt' (by
    show fee < 2 ^ 64
    omega)
  have counted : Psbt.fee { psbt with inputs := [signedInput] } = some (UInt64.ofNat fee) := by
    apply fee_eq_some.mpr
    refine ⟨[received], ?_, by decide, ?_⟩
    · rw [input]
      exact .cons rfl .nil
    · rw [fits, ← balance]
      decide
  simp only [finalize, finishTransaction, bind_eq_ok, rejectIf_eq_ok, mapErr_eq_ok, okOr_eq_ok,
    pure_ok, Except.ok.injEq]
  refine ⟨_, (), by simp, (), ?_, _, Trinity.Sample.parsed_receive, _, Trinity.Sample.parsed_policy,
    [part], ?_, _, counted, (), ?_, (), by simp [lenient], (), ?_, rfl⟩
  · simp [input]
  · unfold finalizeInputs
    show List.mapM _ [(signedInput, 0)] = _
    rw [List.mapM_cons, List.mapM_nil]
    dsimp only
    rw [turn]
    rfl
  · intro zero
    rw [← UInt64.toNat_inj, fits] at zero
    exact positive.ne' zero
  · have most := feerate_antitone (UInt64.ofNat fee) Nat.one_pos (Transaction.vsize_pos
      (Psbt.extractTx (Psbt.withWitnesses { psbt with inputs := [signedInput] } [part])))
    rw [UInt64.not_lt]
    refine UInt64.le_trans most ?_
    rw [UInt64.le_iff_toNat_le, feerate_toNat _ Nat.one_pos, fits,
      show wide.maxFeerate.toNat = 100000 from rfl]
    omega

theorem signedInput_plain : signedInput.finalScriptSig = none ∧ PlainSignatures signedInput := by
  refine ⟨rfl, ?_, ?_⟩
  · intro t known
    exact (Option.some.inj known).symm
  · intro sig member
    rcases OrderedMap.mem_values_insert member with rfl | old
    · exact ⟨rfl, by unfold EcdsaSignature.LowS; decide⟩
    · rcases OrderedMap.mem_values_insert old with rfl | none
      · exact ⟨rfl, by unfold EcdsaSignature.LowS; decide⟩
      · simp [OrderedMap.values, OrderedMap.empty] at none

end Sample

theorem finished_pays_feerate_funded : ∃ psbt w', WatchWallet.buildPsbtRawWithAuxRand
    Trinity.Sample.env Sample.order Sample.walletLibrary ⟨Sample.funded, .regtest⟩ Sample.request
      (fun _ => 7) = .ok (psbt, w') ∧
    ∃ tx, finalize Sample.lenient { psbt with inputs := [Sample.signedInput] }
        Trinity.Sample.receiveDescriptor Sample.wide = .ok tx ∧
      ∃ fee sumIn sumOut, feeIdentity psbt = .ok (fee, sumIn, sumOut) ∧
        10 * tx.weight ≤ 4 * fee.toNat := by
  obtain ⟨⟨psbt, after⟩, run⟩ := Sample.funded_builds fun _ => 7
  obtain ⟨tx, done⟩ := Sample.funded_finalizes run
  obtain ⟨input, _, light, _⟩ := Sample.funded_built run
  have few : psbt.unsignedTx.input.length = 1 := by rw [input]; rfl
  have vb : (10 : UInt64).toNat = 10 := rfl
  obtain ⟨fee, sumIn, sumOut, identity, pays, _⟩ := finished_pays_feerate Sample.lenient
    Sample.graph Sample.order Sample.walletLibrary ⟨Sample.funded, .regtest⟩ after Sample.request
    (fun _ => 7) 10 psbt { psbt with inputs := [Sample.signedInput] }
    Trinity.Sample.receiveDescriptor Sample.wide tx Sample.funded_reachable
    Sample.funded_ready.supply rfl run (by rw [few, vb]; omega) (by omega) rfl
    (by
      intro input member
      rw [List.mem_singleton.mp member]
      exact Sample.signedInput_plain) done
  exact ⟨psbt, after, run, tx, done, fee, sumIn, sumOut, identity, pays⟩

end Trinity.Watch
