import Trinity.Lib.Counted
import Trinity.Lib.Word
import Trinity.Verify.Derive

/-!
The verifier `verify` of `verify.rs`: the checks V1 to V10 in the order the
code runs them, with the errors they report. What reaches `derive_at` is written
over any `M` that marks the call, and is `Outcome` unless calls are counted.
-/
namespace Trinity

open Outcome Word

structure VerifyPolicy where
  declaredRecipients : List Str
  declaredAmountSats : UInt64
  maxAbsoluteFee : UInt64
  maxFeerate : UInt64
  declaredFeeSats : Option UInt64
  gapLimit : UInt32
  knownUtxos : OrderedMap OutPoint TxOut
  changeDescriptor : Option Str
  network : Network

inductive VerifyError where
  | descriptor (e : ParseError)
  | derive (e : DeriveError)
  | foreignInput (inputIndex : Nat)
  | foreignChangeOutput (outputIndex : Nat)
  | mismatchedDerivation (outputIndex : Nat)
  | feeNonPositive
  | feeTooHigh (feeSats maxSats : UInt64)
  | feerateTooHigh (feerateSatVb maxSatVb : UInt64)
  | feeMismatch (actualSats expectedSats : UInt64)
  | amountMismatch (actualSats expectedSats : UInt64)
  | unknownInput (inputIndex : Nat)
  | mismatchedUtxo (inputIndex : Nat)
  | inconsistentPsbt (detail : String)
  | tooManyInputsOutputs (detail : String)
  | proprietaryField
  | missingWitnessUtxo (inputIndex : Nat)
  | nonWitnessUtxoOnly (inputIndex : Nat)
  | badSignature (inputIndex : Nat)
  | nonSighashAll (inputIndex : Nat)
  | invalidOutputAddress (outputIndex : Nat)
  deriving DecidableEq, Repr

structure PsbtVerdict where
  ok : Bool
  recipient : Str
  amountSats : UInt64
  changeSats : UInt64
  feeSats : UInt64
  feerateSatVb : UInt64
  deriving DecidableEq, Repr

structure ClassifiedOutput where
  isChange : Bool
  amountSats : UInt64
  address : Str
  deriving DecidableEq, Repr

def maxPsbtInsOrOuts : Nat := 100

def checkV8 (psbt : Psbt) : Outcome VerifyError Unit := do
  rejectIf (psbt.inputs.length ≠ psbt.unsignedTx.input.length)
    (.inconsistentPsbt "input map length ≠ unsigned_tx.input length")
  rejectIf (psbt.outputs.length ≠ psbt.unsignedTx.output.length)
    (.inconsistentPsbt "output map length ≠ unsigned_tx.output length")
  rejectIf psbt.unsignedTx.input.isEmpty (.inconsistentPsbt "unsigned_tx has no inputs")
  rejectIf (maxPsbtInsOrOuts < psbt.unsignedTx.input.length)
    (.tooManyInputsOutputs "input count exceeds MAX_PSBT_INS_OR_OUTS")
  rejectIf (maxPsbtInsOrOuts < psbt.unsignedTx.output.length)
    (.tooManyInputsOutputs "output count exceeds MAX_PSBT_INS_OR_OUTS")
  forM psbt.unsignedTx.input fun txin => do
    rejectIf (¬ txin.scriptSig.isEmpty)
      (.inconsistentPsbt "unsigned_tx input has non-empty script_sig")
    rejectIf (¬ txin.witness.isEmpty)
      (.inconsistentPsbt "unsigned_tx input has non-empty witness")
  rejectIf (¬ psbt.proprietary.isEmpty) .proprietaryField
  forM psbt.inputs fun input => rejectIf (¬ input.proprietary.isEmpty) .proprietaryField
  forM psbt.outputs fun output => rejectIf (¬ output.proprietary.isEmpty) .proprietaryField

def checkV9 (psbt : Psbt) : Outcome VerifyError Unit :=
  forM psbt.inputs.zipIdx fun (input, i) =>
    match input.witnessUtxo, input.nonWitnessUtxo with
    | some _, _ => pure ()
    | none, some _ => fail (.nonWitnessUtxoOnly i)
    | none, none => fail (.missingWitnessUtxo i)

def checkV7 (psbt : Psbt) (policy : VerifyPolicy) : Outcome VerifyError Unit :=
  forM (psbt.unsignedTx.input.zip psbt.inputs).zipIdx fun ((txin, psbtIn), i) => do
    let known ← okOr (policy.knownUtxos.get? txin.previousOutput) (.unknownInput i)
    let utxo ← expect psbtIn.witnessUtxo
    rejectIf (utxo.value ≠ known.value ∨ utxo.scriptPubkey ≠ known.scriptPubkey) (.mismatchedUtxo i)

/-- The loop of `bip32_index_hint`: the common last normal index, if any. -/
def hintFrom : Option UInt32 → List KeySource → Option UInt32
  | hint, [] => hint
  | hint, (_, path) :: rest =>
    match path.getLast? with
    | some (.normal idx) =>
      match hint with
      | none => hintFrom (some idx) rest
      | some h => if h ≠ idx then none else hintFrom (some h) rest
    | some (.hardened _) => none
    | none => none

def bip32IndexHint (derivation : OrderedMap SecpPublicKey KeySource) : Option UInt32 :=
  hintFrom none derivation.values

def indicesBelow (gap : UInt32) : List UInt32 := (List.range gap.toNat).map UInt32.ofNat

section Search

variable (M : Type → Type → Type) [∀ ε, Monad (M ε)] [∀ ε, MonadLiftT (Outcome ε) (M ε)]
  [Marked M] (env : Primitives)

def probeIn (scriptPubkey : Script) (descriptor : ParsedDescriptor) (i : UInt32) :
    M VerifyError (Option UInt32) := do
  let derived ← Marked.mapErr .derive (Marked.call (deriveAt env descriptor i))
  return if derived.scriptPubkey = scriptPubkey then some i else none

/-- The index of the hint is tried first if it is below the limit. -/
def probeHintIn (scriptPubkey : Script) (descriptor : ParsedDescriptor) (gapLimit : UInt32)
    (hint : Option UInt32) : M VerifyError (Option UInt32) :=
  match hint with
  | some h => if h < gapLimit then probeIn M env scriptPubkey descriptor h else pure none
  | none => pure none

def findIndexMatchingIn (scriptPubkey : Script) (descriptor : ParsedDescriptor)
    (gapLimit : UInt32) (hint : Option UInt32) : M VerifyError (Option UInt32) := do
  let hinted ← probeHintIn M env scriptPubkey descriptor gapLimit hint
  match hinted with
  | some h => return some h
  | none =>
    (indicesBelow gapLimit).findSomeM? fun i =>
      if hint = some i then pure none else probeIn M env scriptPubkey descriptor i

def matchesAnyDerivedIn (scriptPubkey : Script) (receive : ParsedDescriptor)
    (change : Option ParsedDescriptor) (gapLimit : UInt32) (hint : Option UInt32) :
    M VerifyError Bool := do
  let found ← findIndexMatchingIn M env scriptPubkey receive gapLimit hint
  if found.isSome then return true
  match change with
  | some chg => return (← findIndexMatchingIn M env scriptPubkey chg gapLimit hint).isSome
  | none => return false

def checkV2In (psbt : Psbt) (receive : ParsedDescriptor) (change : Option ParsedDescriptor)
    (policy : VerifyPolicy) : M VerifyError Unit :=
  forM psbt.inputs.zipIdx fun (input, i) => do
    let utxo ← (expect input.witnessUtxo : Outcome VerifyError TxOut)
    let own ← matchesAnyDerivedIn M env utxo.scriptPubkey receive change policy.gapLimit
      (bip32IndexHint input.bip32Derivation)
    rejectIf (¬ own) (.foreignInput i : VerifyError)

end Search

def keyExprForFingerprint (desc : ParsedDescriptor) (fp : Fingerprint) : Option KeyExpr :=
  desc.keys.find? fun k => k.fingerprint == fp

/-- The parsed origin has to be there: an unparsable one aborts. -/
def originMatchesPath (path : DerivationPath) (originPath : Str) : Outcome Unit Bool := do
  let origin ← expect (DerivationPath.parse (bytes "m/" ++ originPath))
  abortUnless (origin.length = 4)
  (List.range 4).allM fun i => do
    let actual ← expect path[i]?
    let expected ← expect origin[i]?
    return actual == expected

def pathIsChangeAt (path : DerivationPath) (key : KeyExpr) (index : UInt32) :
    Outcome Unit Bool :=
  if path.length ≠ 6 then .ok false
  else do
    let branch ← expect path[4]?
    let last ← expect path[5]?
    if branch = .normal 1 ∧ last = .normal index then originMatchesPath path key.originPath
    else .ok false

/-- The loop over the derivation map: fingerprints seen so far, entries left. -/
def checkV4Entries (changeDesc : ParsedDescriptor) (index : UInt32) :
    List Fingerprint → List (SecpPublicKey × KeySource) → Outcome Unit Unit
  | _, [] => .ok ()
  | seen, (_, fp, path) :: rest => do
    rejectIf (fp ∈ seen) ()
    let key ← okOr (keyExprForFingerprint changeDesc fp) ()
    let same ← pathIsChangeAt path key index
    rejectIf (¬ same) ()
    checkV4Entries changeDesc index (fp :: seen) rest

def addressFromScript (env : Primitives) (script : Script) (network : Network)
    (outputIndex : Nat) : Outcome VerifyError Str :=
  if script.hasAddress then .ok (env.addressToString network script)
  else fail (.invalidOutputAddress outputIndex)

section Outputs

variable (M : Type → Type → Type) [∀ ε, Monad (M ε)] [∀ ε, MonadLiftT (Outcome ε) (M ε)]
  [Marked M] (env : Primitives)

def checkV4ChangeIn (output : Output) (changeDesc : ParsedDescriptor) (index : UInt32) :
    M Unit Unit := do
  let derived ← Marked.mapErr (fun _ => ()) (Marked.call (deriveAt env changeDesc index))
  rejectIf (output.bip32Derivation.size ≠ 3) ()
  checkV4Entries changeDesc index [] output.bip32Derivation.entries
  let mapPubkeys := output.bip32Derivation.keys
  rejectIf (collectSorted (derived.children.map DerivedChild.publicKey) ≠
    collectSorted mapPubkeys) ()
  -- The keys at 0, 1 and 2 are read once more, for a sort whose result is not used.
  (abortUnless (2 < mapPubkeys.length) : Outcome Unit Unit)

def classifyOutputIn (psbt : Psbt) (change : Option ParsedDescriptor) (policy : VerifyPolicy)
    (txout : TxOut) (i : Nat) : M VerifyError ClassifiedOutput := do
  let address ← addressFromScript env txout.scriptPubkey policy.network i
  if policy.declaredRecipients.any fun r => eqIgnoreAsciiCase address r then
    return ⟨false, txout.value, address⟩
  let chg ← okOr change (.foreignChangeOutput i : VerifyError)
  let output ← (expect psbt.outputs[i]? : Outcome VerifyError Output)
  let found ← findIndexMatchingIn M env txout.scriptPubkey chg policy.gapLimit
    (bip32IndexHint output.bip32Derivation)
  let idx ← okOr found (.foreignChangeOutput i : VerifyError)
  Marked.mapErr (fun _ => .mismatchedDerivation i) (checkV4ChangeIn M env output chg idx)
  return ⟨true, txout.value, address⟩

def classifyOutputsIn (psbt : Psbt) (change : Option ParsedDescriptor) (policy : VerifyPolicy) :
    M VerifyError (List ClassifiedOutput) :=
  psbt.unsignedTx.output.zipIdx.mapM fun (txout, i) =>
    classifyOutputIn M env psbt change policy txout i

end Outputs

def sumInputs (psbt : Psbt) : Outcome VerifyError UInt64 :=
  psbt.inputs.foldlM (fun acc input => do
    let utxo ← expect input.witnessUtxo
    okOr (checkedAdd acc utxo.value) .feeNonPositive) 0

def sumOutputs (psbt : Psbt) : Outcome VerifyError UInt64 :=
  psbt.unsignedTx.output.foldlM
    (fun acc txout => okOr (checkedAdd acc txout.value) .feeNonPositive) 0

/-- Fee per virtual byte, rounded up. Sizes are unbounded integers. -/
def feerate (fee : UInt64) (vsize : Nat) : UInt64 :=
  UInt64.ofNat ((fee.toNat + (vsize - 1)) / vsize)

def checkDeclaredFee (declared : Option UInt64) (feeSats : UInt64) : Outcome VerifyError Unit :=
  match declared with
  | some expected => rejectIf (feeSats ≠ expected) (.feeMismatch feeSats expected)
  | none => .ok ()

def checkV5 (psbt : Psbt) (policy : VerifyPolicy) : Outcome VerifyError (UInt64 × UInt64) := do
  let sumIn ← sumInputs psbt
  let sumOut ← sumOutputs psbt
  let feeSats ← okOr (checkedSub sumIn sumOut) .feeNonPositive
  rejectIf (feeSats = 0) .feeNonPositive
  rejectIf (policy.maxAbsoluteFee < feeSats) (.feeTooHigh feeSats policy.maxAbsoluteFee)
  checkDeclaredFee policy.declaredFeeSats feeSats
  let feerateSatVb := feerate feeSats (max psbt.unsignedTx.vsize 1)
  rejectIf (policy.maxFeerate < feerateSatVb) (.feerateTooHigh feerateSatVb policy.maxFeerate)
  return (feeSats, feerateSatVb)

def amountsOf (classified : List ClassifiedOutput) (isChange : Bool) : List UInt64 :=
  (classified.filter fun c => c.isChange == isChange).map ClassifiedOutput.amountSats

def checkV6 (classified : List ClassifiedOutput) (policy : VerifyPolicy) :
    Outcome VerifyError Unit :=
  let actual := satSum (amountsOf classified false)
  rejectIf (actual ≠ policy.declaredAmountSats) (.amountMismatch actual policy.declaredAmountSats)

def isSighashAll (sht : PsbtSighashType) : Bool := sht.ecdsaHashTy == some .all

def checkSighashField (sighashType : Option PsbtSighashType) (i : Nat) :
    Outcome VerifyError Unit :=
  match sighashType with
  | some sht => rejectIf (¬ isSighashAll sht) (.nonSighashAll i)
  | none => .ok ()

def checkV10 (psbt : Psbt) : Outcome VerifyError Unit :=
  forM psbt.inputs.zipIdx fun (input, i) => do
    checkSighashField input.sighashType i
    forM input.partialSigs.values fun sig => do
      rejectIf (sig.sighashType ≠ .all) (.nonSighashAll i)
      rejectIf (sig.signature.normalizeS ≠ sig.signature) (.badSignature i)

def parseChange (env : Primitives) (changeDescriptor : Option Str) :
    Outcome ParseError (Option ParsedDescriptor) :=
  match changeDescriptor with
  | some s => (parse env s).map some
  | none => .ok none

def recipientOf (classified : List ClassifiedOutput) (policy : VerifyPolicy) : Str :=
  match policy.declaredRecipients.head? with
  | some declared => declared
  | none =>
    let named := (classified.filter fun c => !c.isChange).map ClassifiedOutput.address
    (named.find? fun a => !a.isEmpty).getD []

def verifyIn (M : Type → Type → Type) [∀ ε, Monad (M ε)] [∀ ε, MonadLiftT (Outcome ε) (M ε)]
    [Marked M] (env : Primitives) (psbt : Psbt) (descriptor : Str) (policy : VerifyPolicy) :
    M VerifyError PsbtVerdict := do
  let receive ← mapErr VerifyError.descriptor (parse env descriptor)
  let change ← mapErr VerifyError.descriptor (parseChange env policy.changeDescriptor)
  checkV8 psbt
  checkV9 psbt
  checkV7 psbt policy
  checkV2In M env psbt receive change policy
  let classified ← classifyOutputsIn M env psbt change policy
  let (feeSats, feerateSatVb) ← checkV5 psbt policy
  checkV6 classified policy
  checkV10 psbt
  return ⟨true, recipientOf classified policy, satSum (amountsOf classified false),
    satSum (amountsOf classified true), feeSats, feerateSatVb⟩

section Plain

variable (env : Primitives)

abbrev probe (scriptPubkey : Script) (descriptor : ParsedDescriptor) (i : UInt32) :
    Outcome VerifyError (Option UInt32) :=
  probeIn Outcome env scriptPubkey descriptor i

abbrev probeHint (scriptPubkey : Script) (descriptor : ParsedDescriptor) (gapLimit : UInt32)
    (hint : Option UInt32) : Outcome VerifyError (Option UInt32) :=
  probeHintIn Outcome env scriptPubkey descriptor gapLimit hint

abbrev findIndexMatching (scriptPubkey : Script) (descriptor : ParsedDescriptor) (gapLimit : UInt32)
    (hint : Option UInt32) : Outcome VerifyError (Option UInt32) :=
  findIndexMatchingIn Outcome env scriptPubkey descriptor gapLimit hint

abbrev matchesAnyDerived (scriptPubkey : Script) (receive : ParsedDescriptor)
    (change : Option ParsedDescriptor) (gapLimit : UInt32) (hint : Option UInt32) :
    Outcome VerifyError Bool :=
  matchesAnyDerivedIn Outcome env scriptPubkey receive change gapLimit hint

abbrev checkV2 (psbt : Psbt) (receive : ParsedDescriptor) (change : Option ParsedDescriptor)
    (policy : VerifyPolicy) : Outcome VerifyError Unit :=
  checkV2In Outcome env psbt receive change policy

abbrev checkV4Change (output : Output) (changeDesc : ParsedDescriptor) (index : UInt32) :
    Outcome Unit Unit :=
  checkV4ChangeIn Outcome env output changeDesc index

abbrev classifyOutput (psbt : Psbt) (change : Option ParsedDescriptor) (policy : VerifyPolicy)
    (txout : TxOut) (i : Nat) : Outcome VerifyError ClassifiedOutput :=
  classifyOutputIn Outcome env psbt change policy txout i

abbrev classifyOutputs (psbt : Psbt) (change : Option ParsedDescriptor) (policy : VerifyPolicy) :
    Outcome VerifyError (List ClassifiedOutput) :=
  classifyOutputsIn Outcome env psbt change policy

abbrev verify (psbt : Psbt) (descriptor : Str) (policy : VerifyPolicy) :
    Outcome VerifyError PsbtVerdict :=
  verifyIn Outcome env psbt descriptor policy

end Plain

end Trinity
