import Trinity.Signer.Runs
import Trinity.Signer.Finalize

/-!
What `sign_ab` signs and what `finalize` accepts. The verifier searches the
indices of the wallet, a signer reads the entry with its own fingerprint, and
`finalize` the first entry of the derivation map. The result says for which
inputs the three agree.
-/
namespace Trinity

open Outcome Word

/-- The keys with a signature after both signers: the ones the derivation map
    names for them, and those that had one before. -/
def signedKeys (a b : Fingerprint) (input : Input) (pk : SecpPublicKey) : Bool :=
  pubkeyForFingerprint input a == some pk || pubkeyForFingerprint input b == some pk ||
    (findSignature input pk).isSome

theorem findSignature_addSignature {input : Input} {pk signer : SecpPublicKey} {sig : Signature} :
    (findSignature (input.addSignature (.new signer) sig) pk).isSome =
      (signer == pk || (findSignature input pk).isSome) := by
  rw [Bool.eq_iff_iff, Bool.or_eq_true, beq_iff_eq, findSignature_isSome, findSignature_isSome]
  simp only [Input.addSignature, OrderedMap.mem_keys_insert]
  constructor
  · intro held
    obtain ⟨key, rfl | member, same⟩ := held
    · exact .inl same
    · exact .inr ⟨key, member, same⟩
  · intro held
    rcases held with same | ⟨key, member, same⟩
    · exact ⟨.new signer, .inl rfl, same⟩
    · exact ⟨key, .inr member, same⟩

structure SignedInput (a b : Fingerprint) (policy : VerifyPolicy) (tx : Transaction) (i : Nat)
    (input signed : Input) (txin : TxIn) (known : TxOut) : Prop where
  spent : tx.input[i]? = some txin
  recorded : policy.knownUtxos.get? txin.previousOutput = some known
  shown : signed.witnessUtxo = some known
  plain : ∀ sig ∈ signed.partialSigs.values, sig.sighashType = .all
  utxo : signed.witnessUtxo = input.witnessUtxo
  script : signed.witnessScript = input.witnessScript
  derivation : signed.bip32Derivation = input.bip32Derivation
  keys : ∀ pk, (findSignature signed pk).isSome = signedKeys a b input pk

structure SignedPsbt (a b : Fingerprint) (policy : VerifyPolicy) (psbt signed : Psbt) : Prop where
  nonempty : signed.inputs ≠ []
  maps : signed.inputs.length = signed.unsignedTx.input.length
  count : signed.inputs.length = psbt.inputs.length
  each : ∀ (i : Nat) input s, psbt.inputs[i]? = some input → signed.inputs[i]? = some s →
    ∃ txin known, SignedInput a b policy signed.unsignedTx i input s txin known

section SignedPsbt

variable {env : SignPrimitives} {psbt signed : Psbt} {policy : VerifyPolicy}

theorem signAb_signedPsbt {a b : LocalSigner} {descriptor : Str} {spend : SpendSession}
    {counter : WindowCounter}
    (run : (signAb env.toPrimitives (a.signer env) (b.signer env) psbt descriptor policy spend
      counter).result = .ok signed) :
    SignedPsbt a.fingerprint b.fingerprint policy psbt signed := by
  obtain ⟨_, afterA, _, _, _, _, signA, passed, signB, _⟩ := signAb_eq_ok run
  have byA : SignedBy a.fingerprint psbt afterA := sign_signedBy signA
  have byB : SignedBy b.fingerprint afterA signed := sign_signedBy signB
  obtain ⟨⟨_, accepted⟩, _⟩ := gateB_eq_ok.mp passed
  obtain ⟨_, _, _, _, ok⟩ := verify_eq_ok.mp accepted
  have maps : signed.inputs.length = signed.unsignedTx.input.length := by
    rw [byB.count, byB.unsignedTx]
    exact ok.wellFormed.inputMaps
  refine ⟨?_, maps, byB.count.trans byA.count, ?_⟩
  · intro empty
    rw [empty, byB.unsignedTx, List.length_nil] at maps
    exact ok.wellFormed.nonempty (List.length_eq_zero_iff.mp maps.symm)
  intro i input s map map'
  obtain ⟨pkA, sigA, namedA, _, mapA⟩ := byA.input i input map
  obtain ⟨pkB, sigB, namedB, allB, mapB⟩ := byB.input i _ mapA
  obtain rfl := Option.some.inj (mapB.symm.trans map')
  have inside : i < afterA.unsignedTx.input.length :=
    ok.wellFormed.inputMaps ▸ (List.getElem?_eq_some_iff.mp mapA).1
  have spent := List.getElem?_eq_getElem inside
  obtain ⟨known, recorded, shown⟩ := ok.known i _ _ spent mapA
  refine ⟨_, known, ?_, recorded, shown, ?_, rfl, rfl, rfl, ?_⟩
  · rw [byB.unsignedTx]
    exact spent
  · intro sig member
    rcases OrderedMap.mem_values_insert member with rfl | old
    · exact allB
    · exact ((ok.signatures i _ mapA).2 sig old).1
  · intro pk
    have namedB' : pubkeyForFingerprint input b.fingerprint = some pkB := namedB
    rw [findSignature_addSignature, findSignature_addSignature, signedKeys, namedA, namedB']
    simp only [Option.some_beq_some, Bool.or_left_comm, Bool.or_assoc]

variable {a b : Fingerprint} {receive : ParsedDescriptor} {change : Option ParsedDescriptor}
  (both : SignedPsbt a b policy psbt signed)
include both

theorem SignedPsbt.origin {i : Nat} {s : Input} (map : signed.inputs[i]? = some s) :
    ∃ input txin known, psbt.inputs[i]? = some input ∧
      SignedInput a b policy signed.unsignedTx i input s txin known := by
  have inside := both.count ▸ (List.getElem?_eq_some_iff.mp map).1
  have map' := List.getElem?_eq_getElem inside
  obtain ⟨txin, known, here⟩ := both.each i _ s map' map
  exact ⟨_, txin, known, map', here⟩

omit both in
theorem SignedInput.finalizable {tx : Transaction} {i : Nat} {input s : Input} {txin : TxIn}
    {known : TxOut} (here : SignedInput a b policy tx i input s txin known) :
    (∃ part, finalizeInput env tx receive change policy s i = .ok part) ↔
      Finalizable env.toPrimitives receive change input (signedKeys a b input) := by
  rw [finalizeInput_ok_iff here.shown here.spent here.recorded here.plain]
  simp only [Finalizable, NamesLeaf, here.utxo, here.script, here.derivation, here.keys]

theorem finalizeInputs_ok_iff :
    (∃ parts, finalizeInputs env signed receive change policy = .ok parts) ↔
      ∀ (i : Nat) input, psbt.inputs[i]? = some input →
        Finalizable env.toPrimitives receive change input (signedKeys a b input) := by
  constructor
  · intro run i input map
    obtain ⟨parts, run⟩ := run
    have inside := both.count.symm ▸ (List.getElem?_eq_some_iff.mp map).1
    have map' := List.getElem?_eq_getElem inside
    obtain ⟨txin, known, here⟩ := both.each i input _ map map'
    have paired : signed.inputs.zipIdx[i]? = some (signed.inputs[i], i) := by simp [map']
    obtain ⟨part, _, turn⟩ := mapM_getElem run paired
    exact here.finalizable.mp ⟨part, turn⟩
  · intro fits
    apply mapM_total
    intro ⟨s, i⟩ member
    obtain ⟨input, txin, known, map, here⟩ :=
      both.origin (List.mem_zipIdx_iff_getElem?.mp member)
    exact here.finalizable.mpr (fits i input map)

theorem finalizeInputs_blames
    (derives : ∀ (i : Nat) input, psbt.inputs[i]? = some input → ∀ branch index source,
      NamesLeaf input branch index → branchDescriptor receive change branch = some source →
      ∃ output, deriveAt env.toPrimitives source index = .ok output) :
    OnlyFails (fun e => e.blamesInput) (finalizeInputs env signed receive change policy) := by
  apply onlyFails_mapM
  intro ⟨s, i⟩ member
  obtain ⟨input, txin, known, map, here⟩ := both.origin (List.mem_zipIdx_iff_getElem?.mp member)
  apply finalizeInput_blames here.shown here.spent here.recorded here.plain
  intro branch index source names chosen
  rw [NamesLeaf, here.derivation] at names
  exact derives i input map branch index source names chosen

theorem finalize_signed {descriptor : Str}
    (parsed : parse env.toPrimitives descriptor = .ok receive)
    (parsedChange : parseChange env.toPrimitives policy.changeDescriptor = .ok change) :
    finalize env signed descriptor policy = (do
      let parts ← finalizeInputs env signed receive change policy
      finishTransaction env signed policy parts) := by
  have nonempty : ¬ signed.inputs.isEmpty := by
    rw [List.isEmpty_iff]
    exact both.nonempty
  unfold finalize
  rw [rejectIf_of_not _ nonempty, rejectIf_of_not _ (not_not.mpr both.maps), parsed, parsedChange]
  rfl

end SignedPsbt

/-- After `sign_ab` with two local signers, `finalize` does not find fault with
    an input exactly when every input agrees with the leaf that its first
    derivation entry names. -/
theorem finalize_blames_iff (env : SignPrimitives) {a b : LocalSigner} {psbt signed : Psbt}
    {descriptor : Str} {policy : VerifyPolicy} {spend : SpendSession} {counter : WindowCounter}
    {receive : ParsedDescriptor} {change : Option ParsedDescriptor}
    (run : (signAb env.toPrimitives (a.signer env) (b.signer env) psbt descriptor policy spend
      counter).result = .ok signed)
    (parsed : parse env.toPrimitives descriptor = .ok receive)
    (parsedChange : parseChange env.toPrimitives policy.changeDescriptor = .ok change)
    (derives : ∀ (i : Nat) input, psbt.inputs[i]? = some input → ∀ branch index source,
      NamesLeaf input branch index → branchDescriptor receive change branch = some source →
      ∃ output, deriveAt env.toPrimitives source index = .ok output) :
    (∀ e, finalize env signed descriptor policy = fail e → ¬ e.blamesInput) ↔
      ∀ (i : Nat) input, psbt.inputs[i]? = some input →
        Finalizable env.toPrimitives receive change input
          (signedKeys a.fingerprint b.fingerprint input) := by
  have both := signAb_signedPsbt run
  rw [← finalizeInputs_ok_iff both, finalize_signed both parsed parsedChange]
  constructor
  · intro clean
    by_contra stopped
    obtain ⟨e, failed, blames⟩ := onlyFails_of_not_ok (finalizeInputs_blames both derives)
      fun parts run => stopped ⟨parts, run⟩
    rw [failed] at clean
    exact clean e rfl blames
  · intro finished e failed
    obtain ⟨parts, finished⟩ := finished
    rw [finished, bind_ok] at failed
    have last := finishTransaction_blames env signed policy parts
    rw [failed] at last
    exact last

namespace Sample

def session : SpendSession := ⟨spendPolicy, (request 0).balance, (request 0).observation⟩

def signedTwice (psbt : Psbt) : Psbt :=
  signed (signed psbt childAExternal.publicKey signatureA) childBExternal.publicKey signatureB

theorem unlocked_approves {psbt : Psbt}
    (charged : spendCharge env psbt receiveDescriptor policy = .ok 61000)
    (collected : inputSet psbt = .ok approval.inputSet) :
    (unlocked.live spendPolicy session.observation).state.approve env spendPolicy psbt
      receiveDescriptor policy session.balance = .ok approval :=
  approve_of rfl charged collected (by decide) (.inr (by decide))

theorem signs_psbt : (signAb signEnv.toPrimitives (localA.signer signEnv) (localB.signer signEnv)
    psbt receiveDescriptor policy session unlocked).result = .ok (signedTwice psbt) := by
  have signedA : (localA.signer signEnv).sign psbt =
      .ok (signed psbt childAExternal.publicKey signatureA) := localA_signs
  have signedB : (localB.signer signEnv).sign (signed psbt childAExternal.publicKey signatureA) =
      .ok (signedTwice psbt) := by decide +kernel
  exact congrArg SignAbRun.result (signAb_of_stages spendPolicy_valid
    (unlocked_approves charged collected) accepted signedA gated signedB)

theorem psbtInput_only {i : Nat} {input : Input} (map : psbt.inputs[i]? = some input) :
    input = psbtInput := List.mem_singleton.mp (List.mem_of_getElem? map)

theorem psbtInput_leaf {branch index : UInt32} (names : NamesLeaf psbtInput branch index) :
    branch = 0 ∧ index = 0 := by
  obtain ⟨_, pk, fingerprint, stem, first⟩ := names
  have path : origin ++ [.normal 0, .normal 0] = stem ++ [.normal branch, .normal index] :=
    (Prod.mk.inj (Prod.mk.inj (Option.some.inj first)).2).2
  have leaf := (List.append_inj' path rfl).2
  simp only [List.cons.injEq, ChildNumber.normal.injEq, and_true] at leaf
  exact ⟨leaf.1.symm, leaf.2.symm⟩

/-- A foreign entry with a small key (the point with x = 1) and a short path. -/
def misledInput : Input :=
  { psbtInput with
    bip32Derivation := receiveKeys.insert
      0x020000000000000000000000000000000000000000000000000000000000000001 (0, [.normal 0]) }

def misled : Psbt := { psbt with inputs := [misledInput] }

theorem sign_parsed : parse signEnv.toPrimitives receiveDescriptor = .ok (wallet .external) :=
  parsed_receive

theorem sign_parsedPolicy :
    parseChange signEnv.toPrimitives policy.changeDescriptor = .ok (some (wallet .internal)) :=
  parsed_policy

theorem finalizes :
    finalize signEnv (signedTwice psbt) receiveDescriptor policy = .ok finished := by
  rw [finalize, sign_parsed, sign_parsedPolicy]
  decide +kernel

end Sample

/-- The sample payment is finalized, so its input agrees with its leaf. -/
theorem finalize_blames_sample :
    Finalizable Sample.env (Sample.wallet .external) (some (Sample.wallet .internal))
      Sample.psbtInput
      (signedKeys Sample.fingerprintA Sample.fingerprintB Sample.psbtInput) := by
  refine (finalize_blames_iff Sample.signEnv Sample.signs_psbt Sample.parsed_receive
    (parseChange_some.mpr ⟨Sample.changeDescriptor, rfl, Sample.parsed_change⟩) ?_).mp ?_ 0 _ rfl
  · intro i input map branch index source names chosen
    rw [Sample.psbtInput_only map] at names
    obtain ⟨rfl, rfl⟩ := Sample.psbtInput_leaf names
    obtain rfl : Sample.wallet .external = source := Option.some.inj chosen
    exact ⟨_, Sample.derived_receive⟩
  · intro e failed
    rw [Sample.finalizes] at failed
    exact absurd failed.symm (fail_ne_ok e _)

/-- One more entry in front of the derivation map: both keys sign, the payment
    is booked, and `finalize` rejects the path. -/
theorem misled_not_finalized :
    (signAb Sample.signEnv.toPrimitives (Sample.localA.signer Sample.signEnv)
      (Sample.localB.signer Sample.signEnv) Sample.misled Sample.receiveDescriptor Sample.policy
      Sample.session Sample.unlocked).result = .ok (Sample.signedTwice Sample.misled) ∧
    finalize Sample.signEnv (Sample.signedTwice Sample.misled) Sample.receiveDescriptor
      Sample.policy = fail (.invalidDerivationPath 0) := by
  have charged : spendCharge Sample.env Sample.misled Sample.receiveDescriptor Sample.policy =
      .ok 61000 := by
    rw [spendCharge, spendChargeIn, Sample.parsed_receive, Sample.parsed_policy]
    decide +kernel
  have accepted : verify Sample.env Sample.misled Sample.receiveDescriptor Sample.policy =
      .ok ⟨true, Sample.recipientAddress, 60000, 39000, 1000, 8⟩ := by
    rw [verify, verifyIn, Sample.parsed_receive, Sample.parsed_policy]
    decide +kernel
  have signedA : (Sample.localA.signer Sample.signEnv).sign Sample.misled =
      .ok (Sample.signed Sample.misled Sample.childAExternal.publicKey Sample.signatureA) := by
    decide +kernel
  have gated : gateB Sample.env
      (Sample.signed Sample.misled Sample.childAExternal.publicKey Sample.signatureA)
      (Sample.env.computeTxid Sample.misled.unsignedTx) Sample.receiveDescriptor Sample.policy =
      .ok () := by
    rw [gateB, gateBIn, verifyIn, checkKeyASignatures, Sample.parsed_receive, Sample.parsed_policy]
    decide +kernel
  have signedB : (Sample.localB.signer Sample.signEnv).sign
      (Sample.signed Sample.misled Sample.childAExternal.publicKey Sample.signatureA) =
      .ok (Sample.signedTwice Sample.misled) := by decide +kernel
  constructor
  · exact congrArg SignAbRun.result (signAb_of_stages Sample.spendPolicy_valid
      (Sample.unlocked_approves charged Sample.collected) accepted signedA gated signedB)
  · rw [finalize, Sample.sign_parsed, Sample.sign_parsedPolicy]
    decide +kernel

end Trinity
