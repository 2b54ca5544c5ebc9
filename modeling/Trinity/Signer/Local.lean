import Trinity.Lib.XChaCha
import Trinity.Verify.Sample
import Trinity.Signer.Sign

/-!
`LocalSigner`, the software signer of an on-device slot: the checks before the
key is unlocked, the unlocking itself and the signatures. A signer changes a
PSBT only by one signature of its own key on every input.
-/
namespace Trinity

open Outcome Word

abbrev SecretKey : Type := BitVec 256

structure LocalSigner where
  slot : KeySlot
  fingerprint : Fingerprint
  unwrapKek : KeySlot → Str → Except PlatformError Str
  wrappedKek : Str
  blob : Str
  onDevice : slot.hasDeviceBlob

def LocalSigner.new (slot : KeySlot) (fingerprint : Fingerprint)
    (unwrapKek : KeySlot → Str → Except PlatformError Str) (wrappedKek blob : Str) :
    Outcome SignError LocalSigner :=
  if onDevice : slot.hasDeviceBlob then
    .ok ⟨slot, fingerprint, unwrapKek, wrappedKek, blob, onDevice⟩
  else fail .invalidSlot

def preflightInput (fingerprint : Fingerprint) (input : Input) (i : Nat) :
    Outcome SignError Unit := do
  match input.sighashType with
  | some sht => rejectIf (¬ isSighashAll sht) (.nonSighashAll i)
  | none => .ok ()
  forM input.partialSigs.values fun sig => rejectIf (sig.sighashType ≠ .all) (.nonSighashAll i)
  rejectIf (input.witnessUtxo.isNone) (.missingWitnessUtxo i)
  rejectIf (input.witnessScript.isNone) (.missingWitnessScript i)
  rejectIf (¬ input.bip32Derivation.values.any fun source => source.1 == fingerprint)
    (.missingDerivation i)

def preflightInputs (psbt : Psbt) (fingerprint : Fingerprint) : Outcome SignError Unit := do
  rejectIf (psbt.inputs.isEmpty) .emptyPsbt
  forM psbt.inputs.zipIdx fun (input, i) => preflightInput fingerprint input i

def rejectHighS (sig : EcdsaSignature) : Outcome SignError Unit :=
  rejectIf (sig.normalizeS ≠ sig) .selfVerificationFailed

def Input.addSignature (input : Input) (pk : PublicKey) (sig : Signature) : Input :=
  { input with
    partialSigs := input.partialSigs.insert pk sig
    sighashType := some 1 }

def insertSignature (psbt : Psbt) (produced : Nat × PublicKey × Signature) : Psbt :=
  { psbt with
    inputs := psbt.inputs.modify produced.1 fun input =>
      input.addSignature produced.2.1 produced.2.2 }

section Sign

variable (env : SignPrimitives)

def seedFromEntropy (entropy : Str) : Outcome SignError Str := do
  rejectIf (entropy.length ≠ 16 ∧ entropy.length ≠ 32) .entropy
  okOr (env.mnemonicSeed entropy) .entropy

def LocalSigner.unlockMasterIn (M : Type → Type → Type) [∀ ε, Monad (M ε)]
    [∀ ε, MonadLiftT (Outcome ε) (M ε)] [Marked M] (env : SignPrimitives) (signer : LocalSigner) :
    M SignError Xpriv := do
  let kek ← Marked.call
    (ofExcept (signer.unwrapKek signer.slot signer.wrappedKek) SignError.platform)
  rejectIf (kek.length ≠ 32) SignError.invalidKekLength
  let decoded ← mapErr SignError.blob (decrypt env kek signer.blob)
  rejectIf (decoded.slot ≠ signer.slot) SignError.invalidSlot
  let seed ← seedFromEntropy env decoded.entropy
  let master ← okOr (env.newMaster seed) SignError.bip32
  rejectIf (env.xprivFingerprint master ≠ signer.fingerprint) SignError.fingerprintMismatch
  return master

abbrev LocalSigner.unlockMaster (signer : LocalSigner) : Outcome SignError Xpriv :=
  signer.unlockMasterIn Outcome env

def derivePrivateChild (master : Xpriv) (path : DerivationPath) :
    Outcome SignError (SecpPublicKey × SecretKey) := do
  let child ← okOr (env.derivePriv master path) .bip32
  return (env.publicKeyFromSecretKey child.privateKey, child.privateKey)

def deriveForInput (master : Xpriv) (fingerprint : Fingerprint) (input : Input) (i : Nat) :
    Outcome SignError (Nat × SecpPublicKey × SecretKey) := do
  let (pk, _, path) ← expect (entryForFingerprint input fingerprint)
  let (childPk, sk) ← derivePrivateChild env master path
  rejectIf (childPk ≠ pk) (.pubkeyMismatch i)
  return (i, childPk, sk)

def produceSignature (psbt : Psbt) (derived : Nat × SecpPublicKey × SecretKey) :
    Outcome SignError (Nat × PublicKey × Signature) := do
  let (i, expectedPk, sk) := derived
  let input ← expect psbt.inputs[i]?
  let msg ← sighashMessage env.toPrimitives psbt.unsignedTx i input
  let sig := env.signEcdsaLowR msg sk
  rejectHighS sig
  verifyOwnSignature env.toPrimitives msg sig expectedPk
  return (i, .new expectedPk, ⟨sig, .all⟩)

def signInputs (psbt : Psbt) (derived : List (Nat × SecpPublicKey × SecretKey)) :
    Outcome SignError Psbt := do
  let produced ← derived.mapM (produceSignature env psbt)
  return produced.foldl insertSignature psbt

def signWithMaster (psbt : Psbt) (master : Xpriv) (fingerprint : Fingerprint) :
    Outcome SignError Psbt := do
  let derived ← psbt.inputs.zipIdx.mapM fun (input, i) =>
    deriveForInput env master fingerprint input i
  signInputs env psbt derived

def LocalSigner.signIn (M : Type → Type → Type) [∀ ε, Monad (M ε)]
    [∀ ε, MonadLiftT (Outcome ε) (M ε)] [Marked M] (env : SignPrimitives) (signer : LocalSigner)
    (psbt : Psbt) : M SignError Psbt := do
  preflightInputs psbt signer.fingerprint
  let master ← signer.unlockMasterIn M env
  signWithMaster env psbt master signer.fingerprint

abbrev LocalSigner.sign (signer : LocalSigner) (psbt : Psbt) : Outcome SignError Psbt :=
  signer.signIn Outcome env psbt

def LocalSigner.signer (local_ : LocalSigner) : Signer :=
  ⟨local_.fingerprint, local_.sign env⟩

end Sign

section Insert

variable {psbt : Psbt} {produced : List (Nat × PublicKey × Signature)}

theorem insertSignature_input (psbt : Psbt) (p : Nat × PublicKey × Signature) (i : Nat) :
    (insertSignature psbt p).inputs[i]? =
      if p.1 = i then psbt.inputs[i]?.map fun input => input.addSignature p.2.1 p.2.2
      else psbt.inputs[i]? := by
  simp only [insertSignature, List.getElem?_modify]
  split <;> simp

theorem insertAll_unsignedTx (psbt : Psbt) (produced : List (Nat × PublicKey × Signature)) :
    (produced.foldl insertSignature psbt).unsignedTx = psbt.unsignedTx := by
  induction produced generalizing psbt with
  | nil => rfl
  | cons p rest ih => exact ih (insertSignature psbt p)

theorem insertAll_length (psbt : Psbt) (produced : List (Nat × PublicKey × Signature)) :
    (produced.foldl insertSignature psbt).inputs.length = psbt.inputs.length := by
  induction produced generalizing psbt with
  | nil => rfl
  | cons p rest ih =>
    rw [List.foldl_cons, ih]
    simp [insertSignature]

theorem insertAll_other {i : Nat} (absent : i ∉ produced.map Prod.fst) :
    (produced.foldl insertSignature psbt).inputs[i]? = psbt.inputs[i]? := by
  induction produced generalizing psbt with
  | nil => rfl
  | cons p rest ih =>
    simp only [List.map_cons, List.mem_cons, not_or] at absent
    rw [List.foldl_cons, ih absent.2, insertSignature_input, if_neg (Ne.symm absent.1)]

theorem insertAll_input (once : (produced.map Prod.fst).Nodup) {i : Nat} {pk : PublicKey}
    {sig : Signature} (member : (i, pk, sig) ∈ produced) :
    (produced.foldl insertSignature psbt).inputs[i]? =
      psbt.inputs[i]?.map fun input => input.addSignature pk sig := by
  induction produced generalizing psbt with
  | nil => simp at member
  | cons p rest ih =>
    obtain ⟨absent, once'⟩ := List.nodup_cons.mp once
    rw [List.foldl_cons]
    rcases List.mem_cons.mp member with here | later
    · subst here
      rw [insertAll_other absent, insertSignature_input, if_pos rfl]
    · have other : p.1 ≠ i := by
        intro same
        exact absent (same ▸ List.mem_map_of_mem later)
      rw [ih once' later, insertSignature_input, if_neg other]

end Insert

section Spec

variable {env : SignPrimitives}

theorem entryForFingerprint_source {input : Input} {fingerprint source : Fingerprint}
    {pk : SecpPublicKey} {path : DerivationPath}
    (first : entryForFingerprint input fingerprint = some (pk, source, path)) :
    source = fingerprint := by
  have named := List.find?_some first
  simpa using named

theorem deriveForInput_eq_ok {master : Xpriv} {fingerprint : Fingerprint} {input : Input} {i : Nat}
    {derived : Nat × SecpPublicKey × SecretKey} :
    deriveForInput env master fingerprint input i = .ok derived ↔
      ∃ pk path child, entryForFingerprint input fingerprint = some (pk, fingerprint, path) ∧
        env.derivePriv master path = some child ∧
        env.publicKeyFromSecretKey child.privateKey = pk ∧ derived = (i, pk, child.privateKey) := by
  simp only [deriveForInput, derivePrivateChild, bind_eq_ok, expect_eq_ok, okOr_eq_ok,
    rejectIf_eq_ok, ne_eq, Decidable.not_not, pure_ok, Except.ok.injEq]
  constructor
  · intro run
    obtain ⟨⟨pk, source, path⟩, first, _, ⟨child, derives, rfl⟩, _, same, rfl⟩ := run
    obtain rfl := entryForFingerprint_source first
    exact ⟨pk, path, child, first, derives, same, by rw [same]⟩
  · intro own
    obtain ⟨pk, path, child, first, derives, same, rfl⟩ := own
    exact ⟨_, first, _, ⟨child, derives, rfl⟩, (), same, by rw [same]⟩

theorem deriveForInput_spec {master : Xpriv} {fingerprint : Fingerprint} {input : Input} {i : Nat}
    {derived : Nat × SecpPublicKey × SecretKey}
    (run : deriveForInput env master fingerprint input i = .ok derived) :
    derived.1 = i ∧ pubkeyForFingerprint input fingerprint = some derived.2.1 := by
  obtain ⟨pk, path, child, first, _, _, rfl⟩ := deriveForInput_eq_ok.mp run
  exact ⟨rfl, by rw [pubkeyForFingerprint, first]; rfl⟩

/-- The signature the signer makes for an input: by the child of the master at
    the path of the first entry with the fingerprint, over the script and the
    value of the input itself. -/
structure OwnSignature (env : SignPrimitives) (master : Xpriv) (fingerprint : Fingerprint)
    (tx : Transaction) (i : Nat) (input : Input) where
  key : SecpPublicKey
  path : DerivationPath
  child : Xpriv
  script : Script
  utxo : TxOut
  digest : BitVec 256
  first : entryForFingerprint input fingerprint = some (key, fingerprint, path)
  derived : env.derivePriv master path = some child
  pair : env.publicKeyFromSecretKey child.privateKey = key
  given : input.witnessScript = some script
  shown : input.witnessUtxo = some utxo
  hashed : env.p2wshSignatureHash tx i script utxo.value .all = some digest
  low : (env.signEcdsaLowR digest child.privateKey).LowS
  valid : env.verifyEcdsa digest (env.signEcdsaLowR digest child.privateKey) key = true

namespace OwnSignature

variable {master : Xpriv} {fingerprint : Fingerprint} {tx : Transaction} {i : Nat} {input : Input}

def signature (own : OwnSignature env master fingerprint tx i input) : Signature :=
  ⟨env.signEcdsaLowR own.digest own.child.privateKey, .all⟩

theorem named (own : OwnSignature env master fingerprint tx i input) :
    pubkeyForFingerprint input fingerprint = some own.key := by
  rw [pubkeyForFingerprint, own.first]
  rfl

theorem message (own : OwnSignature env master fingerprint tx i input) :
    sighashMessage env.toPrimitives tx i input = .ok own.digest := by
  simp only [sighashMessage, p2wshSighash, bind_eq_ok, okOr_eq_ok]
  exact ⟨own.utxo, own.shown, own.script, own.given, own.hashed⟩

end OwnSignature

theorem produceSignature_own {psbt : Psbt} {master : Xpriv} {fingerprint : Fingerprint}
    {i : Nat} {input : Input} {derived : Nat × SecpPublicKey × SecretKey}
    {produced : Nat × PublicKey × Signature} (map : psbt.inputs[i]? = some input)
    (derives : deriveForInput env master fingerprint input i = .ok derived)
    (run : produceSignature env psbt derived = .ok produced) :
    ∃ own : OwnSignature env master fingerprint psbt.unsignedTx i input,
      produced = (i, .new own.key, own.signature) := by
  obtain ⟨pk, path, child, first, derived', pair, rfl⟩ := deriveForInput_eq_ok.mp derives
  simp only [produceSignature, rejectHighS, verifyOwnSignature, sighashMessage, p2wshSighash,
    bind_eq_ok, expect_eq_ok, okOr_eq_ok, rejectIf_eq_ok, ne_eq, Decidable.not_not,
    EcdsaSignature.normalizeS_eq_self, pure_ok, Except.ok.injEq] at run
  obtain ⟨input', map', digest, ⟨utxo, shown, script, given, hashed⟩, _, low, _, valid, rfl⟩ := run
  obtain rfl : input = input' := Option.some.inj (map.symm.trans map')
  exact ⟨⟨pk, path, child, script, utxo, digest, first, derived', pair, given, shown, hashed,
    not_not.mp low, valid⟩, rfl⟩

theorem sign_eq_ok {signer : LocalSigner} {psbt signed : Psbt} :
    signer.sign env psbt = .ok signed ↔
      preflightInputs psbt signer.fingerprint = .ok () ∧
      ∃ master, signer.unlockMaster env = .ok master ∧
      ∃ derived, psbt.inputs.zipIdx.mapM
        (fun entry => deriveForInput env master signer.fingerprint entry.1 entry.2) = .ok derived ∧
      ∃ produced, derived.mapM (produceSignature env psbt) = .ok produced ∧
        produced.foldl insertSignature psbt = signed := by
  simp only [LocalSigner.signIn, signWithMaster, signInputs, monadLift_self, bind_eq_ok, pure_ok,
    Except.ok.injEq, Unique.exists_iff, PUnit.default_eq_unit]

theorem sign_produced {signer : LocalSigner} {psbt signed : Psbt}
    (run : signer.sign env psbt = .ok signed) :
    ∃ master, signer.unlockMaster env = .ok master ∧
    ∃ produced : List (Nat × PublicKey × Signature),
      signed = produced.foldl insertSignature psbt ∧ (produced.map Prod.fst).Nodup ∧
      ∀ (i : Nat) input, psbt.inputs[i]? = some input →
        ∃ own : OwnSignature env master signer.fingerprint psbt.unsignedTx i input,
          (i, .new own.key, own.signature) ∈ produced := by
  obtain ⟨_, master, unlocked, derived, derives, produced, produces, rfl⟩ := sign_eq_ok.mp run
  -- The result for input `i` stands at position `i` and carries its number.
  have each : ∀ (i : Nat) input, psbt.inputs[i]? = some input →
      ∃ own : OwnSignature env master signer.fingerprint psbt.unsignedTx i input,
        produced[i]? = some (i, .new own.key, own.signature) := by
    intro i input map
    have paired : psbt.inputs.zipIdx[i]? = some (input, i) := by simp [map]
    obtain ⟨d, at_, derivedHere⟩ := mapM_getElem derives paired
    obtain ⟨p, at', producedHere⟩ := mapM_getElem produces at_
    obtain ⟨own, rfl⟩ := produceSignature_own map derivedHere producedHere
    exact ⟨own, at'⟩
  have length : produced.length = psbt.inputs.length := by
    rw [mapM_length produces, mapM_length derives, List.length_zipIdx]
  have positions : produced.map Prod.fst = List.range produced.length := by
    apply List.ext_getElem (by simp)
    intro i inside _
    rw [List.length_map] at inside
    obtain ⟨own, at_⟩ := each i _ (List.getElem?_eq_getElem (length ▸ inside))
    simp [(List.getElem?_eq_some_iff.mp at_).2]
  refine ⟨master, unlocked, produced, rfl, positions ▸ List.nodup_range, ?_⟩
  intro i input map
  obtain ⟨own, at_⟩ := each i input map
  exact ⟨own, List.mem_of_getElem? at_⟩

/-- A PSBT after one signer: every input has one signature more, of the key its
    derivation map names for the fingerprint. -/
structure SignedBy (fingerprint : Fingerprint) (psbt signed : Psbt) : Prop where
  unsignedTx : signed.unsignedTx = psbt.unsignedTx
  count : signed.inputs.length = psbt.inputs.length
  input : ∀ (i : Nat) input, psbt.inputs[i]? = some input → ∃ pk sig,
    pubkeyForFingerprint input fingerprint = some pk ∧ sig.sighashType = .all ∧
      signed.inputs[i]? = some (input.addSignature (.new pk) sig)

theorem sign_signedBy {signer : LocalSigner} {psbt signed : Psbt}
    (run : signer.sign env psbt = .ok signed) : SignedBy signer.fingerprint psbt signed := by
  obtain ⟨_, _, produced, rfl, once, each⟩ := sign_produced run
  refine ⟨insertAll_unsignedTx psbt produced, insertAll_length psbt produced, ?_⟩
  intro i input map
  obtain ⟨own, member⟩ := each i input map
  refine ⟨own.key, own.signature, own.named, rfl, ?_⟩
  rw [insertAll_input once member, map]
  rfl

end Spec

section Aborts

variable {env : SignPrimitives}

theorem preflightInput_never_aborts {fingerprint : Fingerprint} (input : Input) (i : Nat) :
    OnlyFails (fun _ => True) (preflightInput fingerprint input i) := by
  unfold preflightInput
  -- The sighash field is checked or absent; the checks behind it are the same.
  split
  all_goals
    refine onlyFails_bind (by first | exact onlyFails_rejectIf trivial | exact onlyFails_ok _) ?_
    intro _ _
    refine onlyFails_bind (onlyFails_forM fun _ _ => onlyFails_rejectIf trivial) ?_
    intro _ _
    apply onlyFails_rejectIf_bind trivial
    intro _
    apply onlyFails_rejectIf_bind trivial
    intro _
    exact onlyFails_rejectIf trivial

theorem preflightInputs_entry {psbt : Psbt} {fingerprint : Fingerprint}
    (run : preflightInputs psbt fingerprint = .ok ()) :
    ∀ input ∈ psbt.inputs, ∃ entry, entryForFingerprint input fingerprint = some entry := by
  intro input member
  simp only [preflightInputs, bind_eq_ok, forM_zipIdx_eq_ok] at run
  obtain ⟨_, _, loop⟩ := run
  obtain ⟨i, at_⟩ := List.mem_iff_getElem?.mp member
  have turn := loop i input at_
  have named : ∃ source ∈ input.bip32Derivation.values, source.1 = fingerprint := by
    unfold preflightInput at turn
    split at turn
    all_goals
      simp only [bind_eq_ok, rejectIf_eq_ok, Decidable.not_not, List.any_eq_true,
        beq_iff_eq] at turn
      obtain ⟨_, _, _, _, _, _, _, _, named⟩ := turn
      exact named
  obtain ⟨source, listed, same⟩ := named
  obtain ⟨entry, stored, rfl⟩ := List.mem_map.mp listed
  apply Option.isSome_iff_exists.mp
  rw [entryForFingerprint, List.find?_isSome]
  exact ⟨entry, stored, beq_iff_eq.mpr same⟩

theorem unlockMaster_never_aborts (signer : LocalSigner) :
    OnlyFails (fun _ => True) (signer.unlockMaster env) := by
  simp only [LocalSigner.unlockMaster, LocalSigner.unlockMasterIn, Marked.call_outcome,
    monadLift_self]
  refine onlyFails_bind (onlyFails_ofExcept fun _ _ => trivial) ?_
  intro kek _
  apply onlyFails_rejectIf_bind trivial
  intro _
  refine onlyFails_bind
    (onlyFails_mapErr (decrypt_never_aborts env kek signer.blob) fun _ _ => trivial) ?_
  intro decoded _
  apply onlyFails_rejectIf_bind trivial
  intro _
  have seeded : OnlyFails (fun _ => True) (seedFromEntropy env decoded.entropy) := by
    apply onlyFails_rejectIf_bind trivial
    intro _
    exact onlyFails_okOr trivial
  refine onlyFails_bind seeded ?_
  intro seed _
  apply onlyFails_okOr_bind trivial
  intro master _
  apply onlyFails_rejectIf_bind trivial
  intro _
  exact onlyFails_ok _

theorem deriveForInput_never_aborts {master : Xpriv} {fingerprint : Fingerprint} {input : Input}
    {i : Nat} (listed : ∃ entry, entryForFingerprint input fingerprint = some entry) :
    OnlyFails (fun _ => True) (deriveForInput env master fingerprint input i) := by
  unfold deriveForInput derivePrivateChild
  refine onlyFails_bind (onlyFails_expect listed) ?_
  rintro ⟨pk, _, path⟩ _
  refine onlyFails_bind (onlyFails_bind (onlyFails_okOr trivial) fun _ _ => onlyFails_ok _) ?_
  rintro ⟨childPk, sk⟩ _
  apply onlyFails_rejectIf_bind trivial
  intro _
  exact onlyFails_ok _

theorem derived_inside {psbt : Psbt} {master : Xpriv} {fingerprint : Fingerprint}
    {derived : List (Nat × SecpPublicKey × SecretKey)}
    (run : psbt.inputs.zipIdx.mapM (fun (input, i) =>
      deriveForInput env master fingerprint input i) = .ok derived) :
    ∀ d ∈ derived, d.1 < psbt.inputs.length := by
  intro d member
  obtain ⟨⟨input, i⟩, paired, here⟩ := mapM_mem run member
  rw [(deriveForInput_spec here).1]
  exact List.snd_lt_of_mem_zipIdx paired

theorem produceSignature_never_aborts {psbt : Psbt} {derived : Nat × SecpPublicKey × SecretKey}
    (inside : derived.1 < psbt.inputs.length) :
    OnlyFails (fun _ => True) (produceSignature env psbt derived) := by
  unfold produceSignature
  refine onlyFails_bind (onlyFails_expect ⟨_, List.getElem?_eq_getElem inside⟩) ?_
  intro input _
  have hashed : OnlyFails (fun _ => True)
      (sighashMessage env.toPrimitives psbt.unsignedTx derived.1 input) := by
    apply onlyFails_okOr_bind trivial
    intro utxo _
    apply onlyFails_okOr_bind trivial
    intro script _
    exact onlyFails_okOr trivial
  refine onlyFails_bind hashed ?_
  intro msg _
  apply onlyFails_rejectIf_bind trivial
  intro _
  apply onlyFails_rejectIf_bind trivial
  intro _
  exact onlyFails_ok _

/-- A local signer signs or reports an error: the checks before the key is
    unlocked cover every `expect` behind it. -/
theorem sign_never_aborts (signer : LocalSigner) (psbt : Psbt) :
    OnlyFails (fun _ => True) (signer.sign env psbt) := by
  have checked : OnlyFails (fun _ => True) (preflightInputs psbt signer.fingerprint) := by
    apply onlyFails_rejectIf_bind trivial
    intro _
    exact onlyFails_forM fun entry _ => preflightInput_never_aborts entry.1 entry.2
  simp only [LocalSigner.sign, LocalSigner.signIn, signWithMaster, signInputs, monadLift_self]
  refine onlyFails_bind checked ?_
  intro _ preflight
  refine onlyFails_bind (unlockMaster_never_aborts signer) ?_
  intro master _
  refine onlyFails_bind (onlyFails_mapM ?_) ?_
  · rintro ⟨input, i⟩ member
    exact deriveForInput_never_aborts
      (preflightInputs_entry preflight input (List.fst_mem_of_mem_zipIdx member))
  intro derived derives
  refine onlyFails_bind (onlyFails_mapM ?_) ?_
  · intro d member
    exact produceSignature_never_aborts (derived_inside derives d member)
  intro produced _
  exact onlyFails_ok _

end Aborts

structure SecretTable where
  kek : Str
  header : Str
  ciphertext : Str
  plaintext : Str
  seed : Str
  master : Xpriv
  fingerprint : Fingerprint
  path : DerivationPath
  child : Xpriv
  publicKey : SecpPublicKey
  digest : BitVec 256
  signature : EcdsaSignature

def standIn : EcdsaSignature := ⟨0, 0, by decide, by decide⟩

/-- The outside functions of signing, known for the keys of a table and for the
    transactions it lists as valid. -/
def SignPrimitives.ofTables (env : Primitives) (keys : List SecretTable)
    (valid : List Transaction) : SignPrimitives where
  toPrimitives := env
  aeadOpen := XChaCha.decrypt
  mnemonicSeed entropy :=
    (keys.find? fun k => k.plaintext.take 32 == entropy).map SecretTable.seed
  newMaster seed := (keys.find? fun k => k.seed == seed).map SecretTable.master
  xprivFingerprint master :=
    ((keys.find? fun k => k.master == master).map SecretTable.fingerprint).getD 0
  derivePriv master path :=
    (keys.find? fun k => k.master == master && k.path == path).map SecretTable.child
  publicKeyFromSecretKey sk :=
    ((keys.find? fun k => k.child.privateKey == sk).map SecretTable.publicKey).getD 0
  signEcdsaLowR digest sk :=
    ((keys.find? fun k => k.digest == digest && k.child.privateKey == sk).map
      SecretTable.signature).getD standIn
  verifyTransaction tx _ := valid.contains tx

namespace Sample

def blobHeader (slot : UInt8) : Str :=
  magic ++ [1, slot, 0, 24] ++ List.replicate 24 0x22 ++ [0x40, 0xd1, 0x0c, 0x00]

def sealedEntropy (byte : UInt8) : Str :=
  List.replicate 32 byte ++ [0x00, 0xf1, 0x53, 0x65, 0, 0, 0, 0]

def secretA : SecretTable where
  kek := List.replicate 32 0x11
  header := blobHeader 0
  ciphertext := beBytes 28 (w := 224)
      0x23c747acfc19443445edb46b1dd9014292376374b53e5a44c0ebd647 ++
    beBytes 28 (w := 224)
      0xd140f9855e26e52685ffda4248c85528446b8df2462729a02ba255da
  plaintext := sealedEntropy 0xa0
  seed := beBytes 32 (w := 256)
      0x041c10a671bb9ec9bd0f671ad121f5ed272f82384a66ab0775c90c7f8254db70 ++
    beBytes 32 (w := 256)
      0x817f3d24d3109f03beaa2237d9aff35af0122b2d3c7a8e7699b0ded34dec483b
  master := ⟨0xfda95a1d89dfa0b6e0b1e15e66f7475861c26120b1bd5c259f746eb062ab81f8,
    0x182019c2845e4634faf345dc851ed63ff316a985e33dd61bf71c366d4b6bab25⟩
  fingerprint := fingerprintA
  path := origin ++ [.normal 0, .normal 0]
  child := ⟨0xb7ba58c5d65283798b0a3852af45ff32d7b4f5f5275492c5bf506c88428db9d6,
    0xc46d37a2184cc530bf6e54a433b00fd9bcb305106c358df25f084fcf9d58413⟩
  publicKey := childAExternal.publicKey
  digest := paymentSighash
  signature := signatureA

def secretB : SecretTable where
  kek := List.replicate 32 0x22
  header := blobHeader 1
  ciphertext := beBytes 28 (w := 224)
      0x53dc451fde6d3e66b3cbfccedbc01e01ba7dd6e913e248c24c612687 ++
    beBytes 28 (w := 224)
      0xba19d2908490419fa95219becb68d71afaef7c0534d74d7f5de34cf4
  plaintext := sealedEntropy 0xb0
  seed := beBytes 32 (w := 256)
      0x780eb86788022848c12d632292d89312413bf28ee37df1918406dcf360845169 ++
    beBytes 32 (w := 256)
      0xc8520735cb77b5f4afa3ffc459974f56fa4a8b09508d039f80aa12388ff4ecb0
  master := ⟨0x755defc0002444b014425cdaed2fac0e52bb41e6e9ff28a4f46f8efdaf2c2e57,
    0xd104bab62eda308ed8a2723f1ebfc9fe55ad1fb7b13f5d6714d0547b42048eeb⟩
  fingerprint := fingerprintB
  path := origin ++ [.normal 0, .normal 0]
  child := ⟨0x15967418303b9894ce247705eeb1bb863b37f27a7bf16797d705e87464e8139e,
    0xf3ffe8422176f4847dcf54ff0d2b592fc96b0ee921559d524541bca8463abf41⟩
  publicKey := childBExternal.publicKey
  digest := paymentSighash
  signature := signatureB

/-- The platform of the test crate hands the wrapped key back. -/
def localSigner (slot : KeySlot) (onDevice : slot.hasDeviceBlob) (secret : SecretTable) :
    LocalSigner :=
  ⟨slot, secret.fingerprint, fun _ wrapped => .ok wrapped, secret.kek,
    secret.header ++ secret.ciphertext, onDevice⟩

def localA : LocalSigner := localSigner .a rfl secretA
def localB : LocalSigner := localSigner .b rfl secretB

def der (sig : EcdsaSignature) : Str :=
  [0x30, 0x44, 0x02, 0x20] ++ beBytes 32 (BitVec.ofNat 256 sig.r) ++ [0x02, 0x20] ++
    beBytes 32 (BitVec.ofNat 256 sig.s) ++ [0x01]

def finished : Transaction :=
  { payment with
    input := [⟨coin, [], 0xfffffffd, [[], der signatureB, der signatureA, receiveScript]⟩] }

def signEnv : SignPrimitives := SignPrimitives.ofTables env [secretA, secretB] [finished]

def stateEnv : StatePrimitives := { signEnv with aeadSeal := XChaCha.encrypt }

theorem localA_signs :
    localA.sign signEnv psbt = .ok (signed psbt childAExternal.publicKey signatureA) := by
  decide +kernel

end Sample

end Trinity
