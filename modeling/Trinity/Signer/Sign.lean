import Trinity.Signer.Window

/-!
The two signature steps of `sign.rs` and the gated pair `sign_ab`. A signer is
any function from PSBTs to results; each step also reports the PSBTs it handed
to the signer, so that "the key was used" is a statement about its result.
-/
namespace Trinity

open Outcome Word

structure Signer where
  fingerprint : Fingerprint
  sign : Psbt → Outcome SignError Psbt

structure SpendSession where
  policy : SpendPolicy
  balance : Balance
  observation : Observation

variable (env : Primitives)

def p2wshSighash (tx : Transaction) (inputIndex : Nat) (witnessScript : Script) (value : UInt64) :
    Outcome SignError (BitVec 256) :=
  okOr (env.p2wshSignatureHash tx inputIndex witnessScript value .all) (.sighash inputIndex)

/-- Value and script are those of the PSBT input. -/
def sighashMessage (tx : Transaction) (inputIndex : Nat) (input : Input) :
    Outcome SignError (BitVec 256) := do
  let utxo ← okOr input.witnessUtxo (.missingWitnessUtxo inputIndex)
  let script ← okOr input.witnessScript (.missingWitnessScript inputIndex)
  p2wshSighash env tx inputIndex script utxo.value

def verifyOwnSignature (msg : BitVec 256) (sig : EcdsaSignature) (pk : SecpPublicKey) :
    Outcome SignError Unit :=
  rejectIf (¬ env.verifyEcdsa msg sig pk) .selfVerificationFailed

/-- The first derivation entry, in key order, with this fingerprint. -/
def entryForFingerprint (input : Input) (fingerprint : Fingerprint) :
    Option (SecpPublicKey × KeySource) :=
  input.bip32Derivation.entries.find? fun e => e.2.1 == fingerprint

def pubkeyForFingerprint (input : Input) (fingerprint : Fingerprint) : Option SecpPublicKey :=
  (entryForFingerprint input fingerprint).map Prod.fst

def checkKeyAInput (tx : Transaction) (aFp : Fingerprint) (input : Input) (i : Nat) :
    Outcome SignError Unit := do
  let pk ← okOr (pubkeyForFingerprint input aFp) .unexpectedKeyASignature
  let sig ← okOr (input.partialSigs.get? (.new pk)) .unexpectedKeyASignature
  rejectIf (sig.sighashType ≠ .all) (.nonSighashAll i)
  let msg ← sighashMessage env tx i input
  verifyOwnSignature env msg sig.signature pk

def checkKeyASignatures (psbt : Psbt) (descriptor : Str) : Outcome SignError Unit := do
  let parsed ← mapErr (.verify ∘ .descriptor) (parse env descriptor)
  forM psbt.inputs.zipIdx fun (input, i) =>
    checkKeyAInput env psbt.unsignedTx parsed.key0.fingerprint input i

def gateBIn (M : Type → Type → Type) [∀ ε, Monad (M ε)] [∀ ε, MonadLiftT (Outcome ε) (M ε)]
    [Marked M] (env : Primitives) (psbt : Psbt) (unsignedTxidAtA : BitVec 256) (descriptor : Str)
    (policy : VerifyPolicy) : M SignError Unit := do
  let _ ← Marked.mapErr .verify (verifyIn M env psbt descriptor policy)
  rejectIf (env.computeTxid psbt.unsignedTx ≠ unsignedTxidAtA) SignError.unsignedTxChanged
  checkKeyASignatures env psbt descriptor

abbrev gateB (psbt : Psbt) (unsignedTxidAtA : BitVec 256) (descriptor : Str)
    (policy : VerifyPolicy) : Outcome SignError Unit :=
  gateBIn Outcome env psbt unsignedTxidAtA descriptor policy

def signA (signer : Signer) (psbt : Psbt) (descriptor : Str) (policy : VerifyPolicy) :
    Outcome SignError Psbt × List Psbt :=
  match mapErr .verify (verify env psbt descriptor policy) with
  | .error e => (.error e, [])
  | .ok _ => (signer.sign psbt, [psbt])

def signB (signer : Signer) (psbt : Psbt) (unsignedTxidAtA : BitVec 256) (descriptor : Str)
    (policy : VerifyPolicy) : Outcome SignError Psbt × List Psbt :=
  match gateB env psbt unsignedTxidAtA descriptor policy with
  | .error e => (.error e, [])
  | .ok _ => (signer.sign psbt, [psbt])

structure SignAbRun where
  result : Outcome SignError Psbt
  counter : WindowCounter
  callsA : List Psbt
  callsB : List Psbt

def signAb (signerA signerB : Signer) (psbt : Psbt) (descriptor : Str) (policy : VerifyPolicy)
    (spend : SpendSession) (counter : WindowCounter) : SignAbRun :=
  match counter.authorize env spend.policy psbt descriptor policy spend.balance
      spend.observation with
  | (.error e, live) => ⟨.error e, live, [], []⟩
  | (.ok approval, live) =>
    match signA env signerA psbt descriptor policy with
    | (.error e, callsA) => ⟨.error e, live, callsA, []⟩
    | (.ok afterA, callsA) =>
      match signB env signerB afterA (env.computeTxid psbt.unsignedTx) descriptor policy with
      | (.error e, callsB) => ⟨.error e, live, callsA, callsB⟩
      | (.ok signed, callsB) => ⟨.ok signed, live.commit approval, callsA, callsB⟩

variable {env}

theorem authorize_of_valid {policy : SpendPolicy} (valid : policy.validate = .ok policy)
    (counter : WindowCounter) (psbt : Psbt) (descriptor : Str) (verify : VerifyPolicy)
    (balance : Balance) (obs : Observation) :
    counter.authorize env policy psbt descriptor verify balance obs =
      ((counter.live policy obs).state.approve env policy psbt descriptor verify balance,
        counter.live policy obs) := by
  simp only [WindowCounter.authorize, valid]

theorem authorize_eq_ok {policy : SpendPolicy} {counter live : WindowCounter} {psbt : Psbt}
    {descriptor : Str} {verify : VerifyPolicy} {balance : Balance} {obs : Observation}
    {approval : SpendApproval}
    (run : counter.authorize env policy psbt descriptor verify balance obs =
      (.ok approval, live)) :
    policy.validate = .ok policy ∧ live = counter.live policy obs ∧
      live.state.approve env policy psbt descriptor verify balance = .ok approval := by
  unfold WindowCounter.authorize at run
  split at run
  · simp at run
  · rename_i q valid
    obtain ⟨same, _⟩ := validate_eq_ok valid
    obtain ⟨approved, moved⟩ := Prod.mk.inj run
    subst moved
    exact ⟨same ▸ valid, rfl, approved⟩

theorem signA_eq {signer : Signer} {psbt : Psbt} {descriptor : Str} {policy : VerifyPolicy}
    {result : Outcome SignError Psbt} {calls : List Psbt}
    (run : signA env signer psbt descriptor policy = (result, calls)) :
    (calls = [] ∧ ∃ e, result = .error e) ∨
    (calls = [psbt] ∧ result = signer.sign psbt ∧
      ∃ verdict, verify env psbt descriptor policy = .ok verdict) := by
  unfold signA at run
  split at run
  · obtain ⟨rfl, rfl⟩ := Prod.mk.inj run
    exact .inl ⟨rfl, _, rfl⟩
  · rename_i verdict accepted
    obtain ⟨rfl, rfl⟩ := Prod.mk.inj run
    exact .inr ⟨rfl, rfl, verdict, mapErr_eq_ok.mp accepted⟩

theorem signB_eq {signer : Signer} {psbt : Psbt} {txid : BitVec 256} {descriptor : Str}
    {policy : VerifyPolicy} {result : Outcome SignError Psbt} {calls : List Psbt}
    (run : signB env signer psbt txid descriptor policy = (result, calls)) :
    (calls = [] ∧ ∃ e, result = .error e) ∨
    (calls = [psbt] ∧ result = signer.sign psbt ∧
      gateB env psbt txid descriptor policy = .ok ()) := by
  unfold signB at run
  split at run
  · obtain ⟨rfl, rfl⟩ := Prod.mk.inj run
    exact .inl ⟨rfl, _, rfl⟩
  · rename_i passed
    obtain ⟨rfl, rfl⟩ := Prod.mk.inj run
    exact .inr ⟨rfl, rfl, passed⟩

theorem signA_calls {signer : Signer} {psbt : Psbt} {descriptor : Str} {policy : VerifyPolicy}
    {result : Outcome SignError Psbt} {calls : List Psbt}
    (run : signA env signer psbt descriptor policy = (result, calls)) :
    ∀ p ∈ calls, p = psbt ∧ ∃ verdict, verify env p descriptor policy = .ok verdict := by
  intro p used
  rcases signA_eq run with ⟨none, _⟩ | ⟨once, _, accepted⟩
  · simp [none] at used
  · rw [once, List.mem_singleton] at used
    subst used
    exact ⟨rfl, accepted⟩

theorem signB_calls {signer : Signer} {psbt : Psbt} {txid : BitVec 256} {descriptor : Str}
    {policy : VerifyPolicy} {result : Outcome SignError Psbt} {calls : List Psbt}
    (run : signB env signer psbt txid descriptor policy = (result, calls)) :
    ∀ p ∈ calls, gateB env p txid descriptor policy = .ok () := by
  intro p used
  rcases signB_eq run with ⟨none, _⟩ | ⟨once, _, passed⟩
  · simp [none] at used
  · rw [once, List.mem_singleton] at used
    subst used
    exact passed

theorem gateB_eq_ok {psbt : Psbt} {txid : BitVec 256} {descriptor : Str} {policy : VerifyPolicy}
    {u : Unit} :
    gateB env psbt txid descriptor policy = .ok u ↔
      (∃ verdict, verify env psbt descriptor policy = .ok verdict) ∧
        env.computeTxid psbt.unsignedTx = txid ∧
        checkKeyASignatures env psbt descriptor = .ok () := by
  simp only [gateBIn, monadLift_self, Marked.mapErr_outcome, bind_eq_ok, mapErr_eq_ok,
    rejectIf_eq_ok, not_not]
  constructor
  · rintro ⟨verdict, accepted, _, same, checked⟩
    exact ⟨⟨verdict, accepted⟩, same, checked⟩
  · rintro ⟨⟨verdict, accepted⟩, same, checked⟩
    exact ⟨verdict, accepted, (), same, checked⟩

section SignAb

variable {signerA signerB : Signer} {psbt : Psbt} {descriptor : Str} {policy : VerifyPolicy}
  {spend : SpendSession} {counter : WindowCounter}

/-- The stages of `sign_ab`: rejected by `authorize`, stopped at A, stopped at
    B, or signed and booked. -/
theorem signAb_cases (signerA signerB : Signer) {result : Outcome SignError SpendApproval}
    {live : WindowCounter}
    (authorized : counter.authorize env spend.policy psbt descriptor policy spend.balance
      spend.observation = (result, live)) :
    (∃ e, result = .error e ∧ signAb env signerA signerB psbt descriptor policy spend counter =
      ⟨.error e, live, [], []⟩) ∨
    (∃ approval e callsA, result = .ok approval ∧
      signA env signerA psbt descriptor policy = (.error e, callsA) ∧
      signAb env signerA signerB psbt descriptor policy spend counter =
        ⟨.error e, live, callsA, []⟩) ∨
    (∃ approval afterA callsA resultB callsB, result = .ok approval ∧
      signA env signerA psbt descriptor policy = (.ok afterA, callsA) ∧
      signB env signerB afterA (env.computeTxid psbt.unsignedTx) descriptor policy =
        (resultB, callsB) ∧
      signAb env signerA signerB psbt descriptor policy spend counter =
        ⟨resultB, if resultB.isOk then live.commit approval else live, callsA, callsB⟩) := by
  unfold signAb
  rw [authorized]
  cases result with
  | error e => exact .inl ⟨e, rfl, rfl⟩
  | ok approval =>
    rcases stepA : signA env signerA psbt descriptor policy with ⟨resultA, callsA⟩
    cases resultA with
    | error e => exact .inr (.inl ⟨approval, e, callsA, rfl, rfl, rfl⟩)
    | ok afterA =>
      rcases stepB : signB env signerB afterA (env.computeTxid psbt.unsignedTx) descriptor policy
        with ⟨resultB, callsB⟩
      refine .inr (.inr ⟨approval, afterA, callsA, resultB, callsB, rfl, rfl, stepB, ?_⟩)
      simp only [stepB]
      cases resultB with
      | error e => rfl
      | ok signed => rfl

theorem signAb_eq_ok {signed : Psbt}
    (run : (signAb env signerA signerB psbt descriptor policy spend counter).result = .ok signed) :
    ∃ approval afterA verdict, spend.policy.validate = .ok spend.policy ∧
      (counter.live spend.policy spend.observation).state.approve env spend.policy psbt descriptor
        policy spend.balance = .ok approval ∧
      verify env psbt descriptor policy = .ok verdict ∧ signerA.sign psbt = .ok afterA ∧
      gateB env afterA (env.computeTxid psbt.unsignedTx) descriptor policy = .ok () ∧
      signerB.sign afterA = .ok signed ∧
      (signAb env signerA signerB psbt descriptor policy spend counter).counter =
        (counter.live spend.policy spend.observation).commit approval := by
  rcases authorized : counter.authorize env spend.policy psbt descriptor policy spend.balance
    spend.observation with ⟨decision, live⟩
  rcases signAb_cases signerA signerB authorized with
    ⟨e, _, same⟩ | ⟨_, e, _, _, _, same⟩ |
    ⟨approval, afterA, callsA, resultB, callsB, approved, stepA, stepB, same⟩
  · simp [same] at run
  · simp [same] at run
  · rw [same] at run
    obtain rfl : resultB = .ok signed := run
    obtain ⟨valid, rfl, decided⟩ := authorize_eq_ok (approved ▸ authorized)
    rcases signA_eq stepA with ⟨_, e, failed⟩ | ⟨_, signedA, verdict, accepted⟩
    · simp at failed
    rcases signB_eq stepB with ⟨_, e, failed⟩ | ⟨_, signedB, passed⟩
    · simp at failed
    exact ⟨approval, afterA, verdict, valid, decided, accepted, signedA.symm, passed,
      signedB.symm, by rw [same]; rfl⟩

theorem signAb_of_stages {approval : SpendApproval} {afterA signed : Psbt} {verdict : PsbtVerdict}
    (valid : spend.policy.validate = .ok spend.policy)
    (approved : (counter.live spend.policy spend.observation).state.approve env spend.policy psbt
      descriptor policy spend.balance = .ok approval)
    (accepted : verify env psbt descriptor policy = .ok verdict)
    (signedA : signerA.sign psbt = .ok afterA)
    (passed : gateB env afterA (env.computeTxid psbt.unsignedTx) descriptor policy = .ok ())
    (signedB : signerB.sign afterA = .ok signed) :
    signAb env signerA signerB psbt descriptor policy spend counter =
      ⟨.ok signed, (counter.live spend.policy spend.observation).commit approval,
        [psbt], [afterA]⟩ := by
  have stepA : signA env signerA psbt descriptor policy = (.ok afterA, [psbt]) := by
    simp only [signA, accepted, mapErr, signedA]
  have stepB : signB env signerB afterA (env.computeTxid psbt.unsignedTx) descriptor policy =
      (.ok signed, [afterA]) := by
    simp only [signB, passed, signedB]
  simp only [signAb, authorize_of_valid valid, approved, stepA, stepB]

theorem signAb_error {e : Fault SignError}
    (run : (signAb env signerA signerB psbt descriptor policy spend counter).result = .error e) :
    (signAb env signerA signerB psbt descriptor policy spend counter).counter =
      (counter.authorize env spend.policy psbt descriptor policy spend.balance
        spend.observation).2 := by
  rcases authorized : counter.authorize env spend.policy psbt descriptor policy spend.balance
    spend.observation with ⟨decision, live⟩
  rcases signAb_cases signerA signerB authorized with
    ⟨_, _, same⟩ | ⟨_, _, _, _, _, same⟩ | ⟨_, _, _, resultB, _, _, _, _, same⟩
  · rw [same]
  · rw [same]
  · rw [same] at run ⊢
    obtain rfl : resultB = .error e := run
    rfl

end SignAb

end Trinity
