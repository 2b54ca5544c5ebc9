import Trinity.Signer.Runs

/-!
The check of A's signatures before key B is used. It looks the expected key up
in the derivation map of the input and hashes the witness script of the input,
and the verifier pins down neither of the two. The check forces a signature of
key A exactly when both fields agree with the derivation of the spent output.
-/
namespace Trinity

open Outcome Word

def Input.unsigned (input : Input) : Input := { input with partialSigs := .empty }

def Psbt.unsigned (psbt : Psbt) : Psbt := { psbt with inputs := psbt.inputs.map Input.unsigned }

def Psbt.withSignatures (psbt : Psbt) (i : Nat) (sigs : OrderedMap PublicKey Signature) : Psbt :=
  { psbt with inputs := psbt.inputs.modify i fun input => { input with partialSigs := sigs } }

theorem withSignatures_unsigned (psbt : Psbt) (i : Nat) (sigs : OrderedMap PublicKey Signature) :
    (psbt.withSignatures i sigs).unsigned = psbt.unsigned := by
  have inputs : (psbt.withSignatures i sigs).inputs.map Input.unsigned =
      psbt.inputs.map Input.unsigned := by
    apply List.ext_getElem?
    intro j
    simp only [Psbt.withSignatures, List.getElem?_map, List.getElem?_modify]
    cases psbt.inputs[j]? with
    | none => rfl
    | some input =>
      by_cases here : i = j <;> simp [here, Input.unsigned]
  unfold Psbt.unsigned
  rw [inputs]
  rfl

def Psbt.mapInputs (psbt : Psbt) (f : Input → Input) : Psbt :=
  { psbt with inputs := psbt.inputs.map f }

structure KeepsCoins (f : Input → Input) : Prop where
  witnessUtxo : ∀ input, (f input).witnessUtxo = input.witnessUtxo
  nonWitnessUtxo : ∀ input, (f input).nonWitnessUtxo = input.nonWitnessUtxo
  bip32Derivation : ∀ input, (f input).bip32Derivation = input.bip32Derivation
  proprietary : ∀ input, (f input).proprietary = input.proprietary

theorem unsigned_keeps : KeepsCoins Input.unsigned :=
  ⟨fun _ => rfl, fun _ => rfl, fun _ => rfl, fun _ => rfl⟩

section Unsigned

variable {f : Input → Input} (keeps : KeepsCoins f) (psbt : Psbt)
include keeps

theorem checkV8_mapInputs : checkV8 (psbt.mapInputs f) = checkV8 psbt := by
  have field : (fun input => rejectIf (¬ (f input).proprietary.isEmpty)
      VerifyError.proprietaryField) =
        fun input => rejectIf (¬ input.proprietary.isEmpty) .proprietaryField := by
    funext input
    rw [keeps.proprietary]
  simp only [checkV8, Psbt.mapInputs, List.length_map, List.forM_map, field]
  rfl

theorem checkV9_mapInputs : checkV9 (psbt.mapInputs f) = checkV9 psbt := by
  simp [checkV9, Psbt.mapInputs, List.forM_map, List.zipIdx_map, keeps.witnessUtxo,
    keeps.nonWitnessUtxo]

theorem checkV7_mapInputs (policy : VerifyPolicy) :
    checkV7 (psbt.mapInputs f) policy = checkV7 psbt policy := by
  simp [checkV7, Psbt.mapInputs, List.forM_map, List.zipIdx_map, List.zip_map_right,
    keeps.witnessUtxo]

theorem checkV2_mapInputs (env : Primitives) (receive : ParsedDescriptor)
    (change : Option ParsedDescriptor) (policy : VerifyPolicy) :
    checkV2 env (psbt.mapInputs f) receive change policy =
      checkV2 env psbt receive change policy := by
  simp [checkV2In, Psbt.mapInputs, List.forM_map, List.zipIdx_map, keeps.witnessUtxo,
    keeps.bip32Derivation]

theorem checkV5_mapInputs (policy : VerifyPolicy) :
    checkV5 (psbt.mapInputs f) policy = checkV5 psbt policy := by
  have sums : sumInputs (psbt.mapInputs f) = sumInputs psbt := by
    simp only [sumInputs, Psbt.mapInputs, List.foldlM_map, keeps.witnessUtxo]
  unfold checkV5
  rw [sums]
  rfl

omit keeps in
theorem classifyOutputs_mapInputs (env : Primitives) (change : Option ParsedDescriptor)
    (policy : VerifyPolicy) : classifyOutputs env (psbt.mapInputs f) change policy =
      classifyOutputs env psbt change policy := rfl

theorem verify_signatures {env : Primitives} {psbt psbt' : Psbt} {descriptor : Str}
    {policy : VerifyPolicy} {v : PsbtVerdict} (same : psbt'.mapInputs f = psbt.mapInputs f)
    (plain : ∀ (i : Nat) input, psbt'.inputs[i]? = some input → PlainSignatures input)
    (accepted : verify env psbt descriptor policy = .ok v) :
    verify env psbt' descriptor policy = .ok v := by
  simp only [verifyIn, monadLift_self, bind_eq_ok] at accepted ⊢
  obtain ⟨receive, parsed, change, parsedChange, _, v8, _, v9, _, v7, _, v2, classified, v3, fee,
    v5, _, v6, _, _, made⟩ := accepted
  refine ⟨receive, parsed, change, parsedChange, (), ?_, (), ?_, (), ?_, (), ?_, classified, ?_,
    fee, ?_, (), v6, (), checkV10_eq_ok.mpr plain, made⟩
  · rw [← checkV8_mapInputs keeps, same, checkV8_mapInputs keeps]
    exact v8
  · rw [← checkV9_mapInputs keeps, same, checkV9_mapInputs keeps]
    exact v9
  · rw [← checkV7_mapInputs keeps, same, checkV7_mapInputs keeps]
    exact v7
  · refine (checkV2_mapInputs keeps psbt' env receive change policy).symm.trans ?_
    rw [same, checkV2_mapInputs keeps]
    exact v2
  · refine (@classifyOutputs_mapInputs f psbt' env change policy).symm.trans ?_
    rw [same]
    exact v3
  · rw [← checkV5_mapInputs keeps, same, checkV5_mapInputs keeps]
    exact v5

end Unsigned

section KeyA

variable {env : Primitives} {psbt : Psbt} {txid : BitVec 256} {descriptor : Str}
  {policy : VerifyPolicy}

theorem checkKeyAInput_eq_ok {tx : Transaction} {fp : Fingerprint} {input : Input} {i : Nat}
    {known : TxOut} (shown : input.witnessUtxo = some known) {u : Unit} :
    checkKeyAInput env tx fp input i = .ok u ↔
      ∃ pk sig script digest, pubkeyForFingerprint input fp = some pk ∧
        input.partialSigs.get? (.new pk) = some sig ∧ sig.sighashType = .all ∧
        input.witnessScript = some script ∧
        env.p2wshSignatureHash tx i script known.value .all = some digest ∧
        env.verifyEcdsa digest sig.signature pk = true := by
  simp only [checkKeyAInput, sighashMessage, p2wshSighash, verifyOwnSignature, bind_eq_ok,
    okOr_eq_ok, rejectIf_eq_ok, ne_eq, Decidable.not_not, shown, Option.some.injEq,
    exists_eq_left']
  constructor
  · intro run
    obtain ⟨pk, named, sig, present, _, all, digest, ⟨script, given, hashed⟩, valid⟩ := run
    exact ⟨pk, sig, script, digest, named, present, all, given, hashed, valid⟩
  · intro signed
    obtain ⟨pk, sig, script, digest, named, present, all, given, hashed, valid⟩ := signed
    exact ⟨pk, named, sig, present, (), all, digest, ⟨script, given, hashed⟩, valid⟩

theorem checkKeyASignatures_eq_ok {receive : ParsedDescriptor}
    (parsed : parse env descriptor = .ok receive) {u : Unit} :
    checkKeyASignatures env psbt descriptor = .ok u ↔
      ∀ (i : Nat) input, psbt.inputs[i]? = some input →
        checkKeyAInput env psbt.unsignedTx receive.key0.fingerprint input i = .ok () := by
  simp only [checkKeyASignatures, bind_eq_ok, mapErr_eq_ok, parsed, Except.ok.injEq,
    exists_eq_left', forM_zipIdx_eq_ok]

theorem withSignatures_input {i j : Nat} {input : Input} (map : psbt.inputs[i]? = some input)
    (sigs : OrderedMap PublicKey Signature) :
    (psbt.withSignatures i sigs).inputs[j]? =
      if i = j then some { input with partialSigs := sigs } else psbt.inputs[j]? := by
  simp only [Psbt.withSignatures, List.getElem?_modify]
  by_cases here : i = j
  · subst here
    simp [map]
  · simp [here]

theorem gateB_withSignatures {receive : ParsedDescriptor}
    (parsed : parse env descriptor = .ok receive)
    (passed : gateB env psbt txid descriptor policy = .ok ()) {i : Nat} {input : Input}
    (map : psbt.inputs[i]? = some input) (sigs : OrderedMap PublicKey Signature) :
    gateB env (psbt.withSignatures i sigs) txid descriptor policy = .ok () ↔
      (∀ sig ∈ sigs.values, sig.sighashType = .all ∧ sig.signature.LowS) ∧
        checkKeyAInput env psbt.unsignedTx receive.key0.fingerprint
          { input with partialSigs := sigs } i = .ok () := by
  obtain ⟨⟨v, accepted⟩, same, checked⟩ := gateB_eq_ok.mp passed
  rw [checkKeyASignatures_eq_ok parsed] at checked
  obtain ⟨_, _, _, _, ok⟩ := verify_eq_ok.mp accepted
  rw [gateB_eq_ok, checkKeyASignatures_eq_ok parsed]
  constructor
  · rintro ⟨⟨_, accepted'⟩, _, checked'⟩
    have here := @withSignatures_input psbt i i input map sigs
    rw [if_pos rfl] at here
    obtain ⟨_, _, _, _, ok'⟩ := verify_eq_ok.mp accepted'
    exact ⟨(ok'.signatures i _ here).2, checked' i _ here⟩
  · rintro ⟨plain, valid⟩
    refine ⟨⟨v, verify_signatures unsigned_keeps (withSignatures_unsigned psbt i sigs) ?_
      accepted⟩, same, ?_⟩
    · intro j other there
      rw [withSignatures_input map] at there
      split at there
      · rw [← Option.some.inj there]
        exact ⟨(ok.signatures i input map).1, plain⟩
      · exact ok.signatures j other there
    · intro j other there
      rw [withSignatures_input map] at there
      split at there
      · rename_i here
        rw [← Option.some.inj there, ← here]
        exact valid
      · exact checked j other there

end KeyA

/-- The derivation of a spent output: descriptor, index, derived script, and
    the child of the first key expression. -/
structure SpentDerivation (env : Primitives) (descriptor : Str) (policy : VerifyPolicy)
    (known : TxOut) where
  receive : ParsedDescriptor
  change : Option ParsedDescriptor
  source : ParsedDescriptor
  index : UInt32
  output : DerivedOutput
  keyA : DerivedChild
  parsed : parse env descriptor = .ok receive
  parsedChange : parseChange env policy.changeDescriptor = .ok change
  listed : source = receive ∨ change = some source
  below : index < policy.gapLimit
  derived : deriveAt env source index = .ok output
  script : output.scriptPubkey = known.scriptPubkey
  first : deriveChild env source.key0 index = .ok keyA

/-- The signatures hold one of key A that is valid for the derived script and
    the known value. -/
def GenuineA {env : Primitives} {descriptor : Str} {policy : VerifyPolicy} {known : TxOut}
    (d : SpentDerivation env descriptor policy known) (tx : Transaction) (i : Nat)
    (sigs : OrderedMap PublicKey Signature) : Prop :=
  ∃ sig digest, sigs.get? (.new d.keyA.publicKey) = some sig ∧ sig.sighashType = .all ∧
    env.p2wshSignatureHash tx i d.output.witnessScript known.value .all = some digest ∧
    env.verifyEcdsa digest sig.signature d.keyA.publicKey = true

def oneSignature (pk : SecpPublicKey) (sig : EcdsaSignature) : OrderedMap PublicKey Signature :=
  OrderedMap.empty.insert (.new pk) ⟨sig, .all⟩

theorem oneSignature_get (pk : SecpPublicKey) (sig : EcdsaSignature) :
    (oneSignature pk sig).get? (.new pk) = some ⟨sig, .all⟩ := by
  simp [oneSignature, OrderedMap.get?_insert]

theorem oneSignature_plain {pk : SecpPublicKey} {sig : EcdsaSignature} (low : sig.LowS) :
    ∀ s ∈ (oneSignature pk sig).values, s.sighashType = .all ∧ s.signature.LowS := by
  intro s member
  obtain rfl : s = ⟨sig, .all⟩ := by
    simpa [oneSignature, OrderedMap.values, OrderedMap.insert, OrderedMap.insertEntry,
      OrderedMap.empty] using member
  exact ⟨rfl, low⟩

theorem genuine_oneSignature {env : Primitives} {descriptor : Str} {policy : VerifyPolicy}
    {known : TxOut} {d : SpentDerivation env descriptor policy known} {tx : Transaction} {i : Nat}
    {pk : SecpPublicKey} {sig : EcdsaSignature} (genuine : GenuineA d tx i (oneSignature pk sig)) :
    pk = d.keyA.publicKey ∧ ∃ digest,
      env.p2wshSignatureHash tx i d.output.witnessScript known.value .all = some digest ∧
      env.verifyEcdsa digest sig d.keyA.publicKey = true := by
  obtain ⟨s, digest, held, _, hashed, valid⟩ := genuine
  rw [oneSignature, OrderedMap.get?_insert] at held
  split at held
  · rename_i same
    obtain rfl := Option.some.inj held
    exact ⟨(congrArg PublicKey.inner same).symm, digest, hashed, valid⟩
  · simp [OrderedMap.get?, OrderedMap.empty] at held

section Forced

variable {env : Primitives} {psbt : Psbt} {txid : BitVec 256} {descriptor : Str}
  {policy : VerifyPolicy} {receive : ParsedDescriptor} {i : Nat} {input : Input} {known : TxOut}

theorem gateB_oneSignature (parsed : parse env descriptor = .ok receive)
    (passed : gateB env psbt txid descriptor policy = .ok ())
    (map : psbt.inputs[i]? = some input) (shown : input.witnessUtxo = some known)
    {pk : SecpPublicKey} {script : Script} {digest : BitVec 256}
    (named : pubkeyForFingerprint input receive.key0.fingerprint = some pk)
    (given : input.witnessScript = some script)
    (hashed : env.p2wshSignatureHash psbt.unsignedTx i script known.value .all = some digest)
    {sig : EcdsaSignature} (low : sig.LowS) (valid : env.verifyEcdsa digest sig pk = true) :
    gateB env (psbt.withSignatures i (oneSignature pk sig)) txid descriptor policy = .ok () := by
  have shown' : { input with partialSigs := oneSignature pk sig }.witnessUtxo = some known := shown
  rw [gateB_withSignatures parsed passed map]
  refine ⟨oneSignature_plain low, (checkKeyAInput_eq_ok shown').mpr ?_⟩
  exact ⟨pk, ⟨sig, .all⟩, script, digest, named, oneSignature_get pk sig, rfl, given, hashed, valid⟩

theorem genuine_of_bound (d : SpentDerivation env descriptor policy known)
    (passed : gateB env psbt txid descriptor policy = .ok ())
    (map : psbt.inputs[i]? = some input) (shown : input.witnessUtxo = some known)
    {script : Script} {digest derivedDigest : BitVec 256}
    (names : pubkeyForFingerprint input d.receive.key0.fingerprint = some d.keyA.publicKey)
    (given : input.witnessScript = some script)
    (hashed : env.p2wshSignatureHash psbt.unsignedTx i script known.value .all = some digest)
    (derivedHashed : env.p2wshSignatureHash psbt.unsignedTx i d.output.witnessScript known.value
      .all = some derivedDigest)
    (carries : ∀ sig : EcdsaSignature, sig.LowS →
      env.verifyEcdsa digest sig d.keyA.publicKey = true →
      env.verifyEcdsa derivedDigest sig d.keyA.publicKey = true)
    {sigs : OrderedMap PublicKey Signature}
    (passed' : gateB env (psbt.withSignatures i sigs) txid descriptor policy = .ok ()) :
    GenuineA d psbt.unsignedTx i sigs := by
  have shown' : { input with partialSigs := sigs }.witnessUtxo = some known := shown
  obtain ⟨plain, checked⟩ := (gateB_withSignatures d.parsed passed map sigs).mp passed'
  obtain ⟨pk, sig, script', digest', named, held, all, given', hashed', valid⟩ :=
    (checkKeyAInput_eq_ok shown').mp checked
  obtain rfl : pk = d.keyA.publicKey := Option.some.inj (named.symm.trans names)
  obtain rfl : script' = script := Option.some.inj (given'.symm.trans given)
  obtain rfl : digest' = digest := Option.some.inj (hashed'.symm.trans hashed)
  have low := (plain sig (List.mem_map_of_mem (OrderedMap.get?_eq_some.mp held))).2
  exact ⟨sig, derivedDigest, held, all, derivedHashed, carries sig.signature low valid⟩

end Forced

/-- For a PSBT that passes the gate of B: the gate forces a genuine signature of
    A on an input, whatever signatures are on it, exactly when the first
    derivation entry with A's fingerprint names A's child key and every
    signature of that key over the witness script of the input is one over the
    derived script. -/
theorem key_a_forced_iff (env : Primitives) {psbt : Psbt} {txid : BitVec 256} {descriptor : Str}
    {policy : VerifyPolicy} (passed : gateB env psbt txid descriptor policy = .ok ()) {i : Nat}
    {txin : TxIn} {input : Input} {known : TxOut} (spent : psbt.unsignedTx.input[i]? = some txin)
    (map : psbt.inputs[i]? = some input)
    (recorded : policy.knownUtxos.get? txin.previousOutput = some known)
    (d : SpentDerivation env descriptor policy known) :
    (∀ sigs, gateB env (psbt.withSignatures i sigs) txid descriptor policy = .ok () →
      GenuineA d psbt.unsignedTx i sigs) ↔
    pubkeyForFingerprint input d.receive.key0.fingerprint = some d.keyA.publicKey ∧
      ∃ script digest derivedDigest, input.witnessScript = some script ∧
        env.p2wshSignatureHash psbt.unsignedTx i script known.value .all = some digest ∧
        env.p2wshSignatureHash psbt.unsignedTx i d.output.witnessScript known.value .all =
          some derivedDigest ∧
        ∀ sig : EcdsaSignature, sig.LowS → env.verifyEcdsa digest sig d.keyA.publicKey = true →
          env.verifyEcdsa derivedDigest sig d.keyA.publicKey = true := by
  obtain ⟨⟨_, accepted⟩, _, checked⟩ := gateB_eq_ok.mp passed
  obtain ⟨_, _, _, _, ok⟩ := verify_eq_ok.mp accepted
  obtain ⟨known', recorded', shown⟩ := ok.known i txin input spent map
  obtain rfl : known' = known := Option.some.inj (recorded'.symm.trans recorded)
  constructor
  · intro forced
    obtain ⟨pk, sig, script, digest, named, present, _, given, hashed, valid⟩ :=
      (checkKeyAInput_eq_ok shown).mp
        ((checkKeyASignatures_eq_ok d.parsed).mp checked i input map)
    have one : ∀ s : EcdsaSignature, s.LowS → env.verifyEcdsa digest s pk = true →
        GenuineA d psbt.unsignedTx i (oneSignature pk s) := by
      intro s low valid
      apply forced
      exact gateB_oneSignature d.parsed passed map shown named given hashed low valid
    have low : sig.signature.LowS :=
      ((ok.signatures i input map).2 sig
        (List.mem_map_of_mem (OrderedMap.get?_eq_some.mp present))).2
    -- The signature that is there pins down the key, every other one the digest.
    obtain ⟨rfl, derivedDigest, derivedHashed, _⟩ :=
      genuine_oneSignature (one sig.signature low valid)
    refine ⟨named, script, digest, derivedDigest, given, hashed, derivedHashed, ?_⟩
    intro s lowS validS
    obtain ⟨_, other, otherHashed, genuine⟩ := genuine_oneSignature (one s lowS validS)
    obtain rfl : other = derivedDigest := Option.some.inj (otherHashed.symm.trans derivedHashed)
    exact genuine
  · intro bound sigs passed'
    obtain ⟨names, script, digest, derivedDigest, given, hashed, derivedHashed, carries⟩ := bound
    exact genuine_of_bound d passed map shown names given hashed derivedHashed carries passed'

namespace Sample

def spent : SpentDerivation env receiveDescriptor policy coinOutput where
  receive := wallet .external
  change := some (wallet .internal)
  source := wallet .external
  index := 0
  output := receiveOutput
  keyA := child fingerprintA .external childAExternal
  parsed := parsed_receive
  parsedChange := parseChange_some.mpr ⟨changeDescriptor, rfl, parsed_change⟩
  listed := .inl rfl
  below := by decide
  derived := derived_receive
  script := rfl
  first := by decide +kernel

/-- B's child key and B's signature, under A's fingerprint. -/
def relabelledInput : Input :=
  { psbtInput with
    partialSigs := oneSignature childBExternal.publicKey signatureB
    bip32Derivation := OrderedMap.empty.insert childBExternal.publicKey
      (fingerprintA, origin ++ [.normal 0, .normal 0]) }

def relabelled : Psbt := { psbt with inputs := [relabelledInput] }

end Sample

/-- The sample payment after A: its derivation map and witness script are those
    of the wallet, so the gate guarantees the signature of A. -/
theorem key_a_forced_sample :
    GenuineA Sample.spent Sample.payment 0
      (oneSignature Sample.childAExternal.publicKey Sample.signatureA) := by
  refine (key_a_forced_iff Sample.env Sample.gated rfl rfl (by decide) Sample.spent).mpr ?_
    _ Sample.gated
  refine ⟨by decide +kernel, Sample.receiveScript, Sample.paymentSighash, Sample.paymentSighash,
    rfl, by decide +kernel, by decide +kernel, ?_⟩
  intro sig _ valid
  exact valid

/-- With B's key relabelled as A's the gate passes, although A signed nothing. -/
theorem relabelled_key_passes :
    gateB Sample.env Sample.relabelled (Sample.env.computeTxid Sample.payment)
      Sample.receiveDescriptor Sample.policy = .ok () ∧
    ¬ GenuineA Sample.spent Sample.payment 0 Sample.relabelledInput.partialSigs := by
  constructor
  · rw [gateB, gateBIn, verifyIn, checkKeyASignatures, Sample.parsed_receive, Sample.parsed_policy]
    decide +kernel
  · intro genuine
    obtain ⟨same, _⟩ := genuine_oneSignature genuine
    exact absurd same (by decide +kernel)

end Trinity
