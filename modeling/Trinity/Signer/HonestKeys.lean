import Trinity.Lib.Precedes
import Trinity.Signer.Finalize
import Trinity.Signer.KeyA

/-!
What the outside libraries owe each other, and what follows for the local
signers of a wallet: an input with the correct derivation entries is signed by
every master of the wallet, with a signature that verifies.
-/
namespace Trinity

open Outcome Word

/-- What a segwit digest can commit to: no `script_sig` and no witness. -/
def Transaction.stripped (tx : Transaction) : Transaction :=
  { tx with input := tx.input.map fun txin => { txin with scriptSig := [], witness := [] } }

/-- The `script_sig` of an input is empty, and its witness is an empty item, two
    valid signatures in the key order of a 2-of-3 script, and that script, which
    hashes to the program of the spent output. -/
def SatisfiesMultisig (env : Primitives) (tx : Transaction) (i : Nat) (txin : TxIn)
    (spent : TxOut) : Prop :=
  txin.scriptSig = [] ∧ ∃ keys script first second k₁ k₂ digest,
    txin.witness = [[], Signature.serialize first, Signature.serialize second, script] ∧
    spent.scriptPubkey = p2wshScript (env.sha256 script) ∧
    witnessScript2of3 keys = .ok script ∧ [k₁, k₂].Sublist keys ∧
    first.sighashType = .all ∧ second.sighashType = .all ∧
    env.p2wshSignatureHash tx.stripped i script spent.value .all = some digest ∧
    env.verifyEcdsa digest first.signature k₁ = true ∧
    env.verifyEcdsa digest second.signature k₂ = true

/-- Public and private derivation agree, signatures verify and have a low `s`,
    every input has a digest, and consensus accepts 2-of-3 spends. -/
structure HonestLibraries (env : SignPrimitives) : Prop where
  derivation : ∀ master path parent index child, env.derivePriv master path = some parent →
    ckdPub env.toPrimitives parent.chainCode (env.publicKeyFromSecretKey parent.privateKey)
      index = .ok child →
    ∃ below, env.derivePriv master (path ++ [.normal index]) = some below ∧
      below.chainCode = child.chainCode ∧
      env.publicKeyFromSecretKey below.privateKey = child.publicKey
  signs : ∀ digest key, env.verifyEcdsa digest (env.signEcdsaLowR digest key)
    (env.publicKeyFromSecretKey key) = true ∧ (env.signEcdsaLowR digest key).LowS
  digests : ∀ tx (i : Nat) script value, i < tx.input.length →
    ∃ digest, env.p2wshSignatureHash tx i script value .all = some digest
  consensus : ∀ tx (spent : OrderedMap OutPoint TxOut),
    (∀ (i : Nat) txin, tx.input[i]? = some txin → ∃ utxo,
      spent.get? txin.previousOutput = some utxo ∧
        SatisfiesMultisig env.toPrimitives tx i txin utxo) →
    env.verifyTransaction tx spent = true

def AccountKey (env : SignPrimitives) (branch : DerivationBranch) (key : KeyExpr)
    (master : Xpriv) : Prop :=
  key.derivation = branch ∧ key.fingerprint = env.xprivFingerprint master ∧
    ∃ origin account, DerivationPath.parse key.originPath = some origin ∧
      env.derivePriv master origin = some account ∧
      env.xpubFromStr key.xpub =
        some ⟨account.chainCode, env.publicKeyFromSecretKey account.privateKey⟩

/-- The two descriptors hold the account keys of three masters, each on its own
    branch and in any order. -/
structure HoldsAccounts (env : SignPrimitives) (receive change : ParsedDescriptor)
    (masters : List Xpriv) : Prop where
  distinct : (masters.map env.xprivFingerprint).Nodup
  external : ∃ order, order.Perm masters ∧
    List.Forall₂ (AccountKey env .external) receive.keys order
  internal : ∃ order, order.Perm masters ∧
    List.Forall₂ (AccountKey env .internal) change.keys order

def LeafEntry (env : Primitives) (branch : DerivationBranch) (index : UInt32) (key : KeyExpr)
    (entry : SecpPublicKey × KeySource) : Prop :=
  ∃ child origin, deriveChild env key index = .ok child ∧
    DerivationPath.parse key.originPath = some origin ∧
    entry = (child.publicKey, key.fingerprint,
      origin ++ [.normal branch.index, .normal index])

/-- The input spends a leaf of the wallet and carries its witness script and
    exactly its three derivation entries. -/
def CorrectInput (env : Primitives) (receive change : ParsedDescriptor) (input : Input) : Prop :=
  ∃ (branch : DerivationBranch) (index : UInt32) (source : ParsedDescriptor)
    (output : DerivedOutput) (utxo : TxOut) (expected : List (SecpPublicKey × KeySource)),
    branchDescriptor receive (some change) branch.index = some source ∧
    deriveAt env source index = .ok output ∧
    input.witnessUtxo = some utxo ∧ utxo.scriptPubkey = output.scriptPubkey ∧
    input.witnessScript = some output.witnessScript ∧
    List.Forall₂ (LeafEntry env branch index) source.keys expected ∧
    input.bip32Derivation.entries.Perm expected

section Accounts

variable {env : SignPrimitives} {receive change : ParsedDescriptor} {masters : List Xpriv}

theorem deriveChild_private (libs : HonestLibraries env) {branch : DerivationBranch}
    {key : KeyExpr} {master : Xpriv} (account : AccountKey env branch key master)
    {origin : DerivationPath} (placed : DerivationPath.parse key.originPath = some origin)
    {index : UInt32} {child : DerivedChild}
    (derived : deriveChild env.toPrimitives key index = .ok child) :
    ∃ leaf, env.derivePriv master (origin ++ [.normal branch.index, .normal index]) = some leaf ∧
      env.publicKeyFromSecretKey leaf.privateKey = child.publicKey := by
  obtain ⟨rfl, _, origin', root, placed', rooted, decoded⟩ := account
  obtain rfl : origin = origin' := Option.some.inj (placed.symm.trans placed')
  simp only [deriveChild, decodeXpub, bind_eq_ok, okOr_eq_ok, decoded, Option.some.injEq,
    exists_eq_left', pure_ok, Except.ok.injEq] at derived
  obtain ⟨_, _, mid, first, last, second, _, _, rfl⟩ := derived
  obtain ⟨below, named, code, point⟩ := libs.derivation _ _ _ _ _ rooted first
  rw [← code, ← point] at second
  obtain ⟨leaf, named', _, point'⟩ := libs.derivation _ _ _ _ _ named second
  rw [List.append_assoc] at named'
  exact ⟨leaf, named', point'⟩

theorem HoldsAccounts.source (holds : HoldsAccounts env receive change masters)
    {branch : DerivationBranch} {source : ParsedDescriptor}
    (chosen : branchDescriptor receive (some change) branch.index = some source) :
    ∃ order, order.Perm masters ∧ List.Forall₂ (AccountKey env branch) source.keys order := by
  cases branch with
  | external =>
    obtain rfl : receive = source := Option.some.inj chosen
    exact holds.external
  | internal =>
    obtain rfl : change = source := Option.some.inj chosen
    exact holds.internal

theorem HoldsAccounts.fingerprints (holds : HoldsAccounts env receive change masters)
    {branch : DerivationBranch} {keys : List KeyExpr} {order : List Xpriv}
    (perm : order.Perm masters) (accounts : List.Forall₂ (AccountKey env branch) keys order) :
    (keys.map KeyExpr.fingerprint).Nodup := by
  have same : keys.map KeyExpr.fingerprint = order.map env.xprivFingerprint := by
    clear perm
    induction accounts with
    | nil => rfl
    | cons here _ ih => rw [List.map_cons, List.map_cons, here.2.1, ih]
  rw [same, (perm.map _).nodup_iff]
  exact holds.distinct

/-- The entry of a master in the derivation map: the only one with its
    fingerprint, for a key of the spent script that the master can derive. -/
structure OwnEntry (env : SignPrimitives) (input : Input) (keys : List SecpPublicKey)
    (master : Xpriv) (pk : SecpPublicKey) (path : DerivationPath) : Prop where
  entry : entryForFingerprint input (env.xprivFingerprint master) =
    some (pk, env.xprivFingerprint master, path)
  leaf : ∃ leaf, env.derivePriv master path = some leaf ∧
    env.publicKeyFromSecretKey leaf.privateKey = pk
  listed : pk ∈ keys

theorem mem_sortedPubkeys {source : ParsedDescriptor} {index : UInt32} {output : DerivedOutput}
    (derived : deriveAt env.toPrimitives source index = .ok output) {key : KeyExpr}
    (member : key ∈ source.keys) {child : DerivedChild}
    (one : deriveChild env.toPrimitives key index = .ok child) :
    child.publicKey ∈ output.sortedPubkeys := by
  obtain ⟨c0, c1, c2, first, second, third, _, sorted, _⟩ := deriveAt_spec derived
  rw [sorted, mem_sortPubkeys]
  simp only [ParsedDescriptor.keys, List.mem_cons, List.not_mem_nil, or_false] at member
  rcases member with rfl | rfl | rfl
  · simp [Except.ok.inj (one.symm.trans first)]
  · simp [Except.ok.inj (one.symm.trans second)]
  · simp [Except.ok.inj (one.symm.trans third)]

theorem correct_ownEntry (libs : HonestLibraries env)
    (holds : HoldsAccounts env receive change masters) {branch : DerivationBranch}
    {source : ParsedDescriptor}
    (chosen : branchDescriptor receive (some change) branch.index = some source) {index : UInt32}
    {output : DerivedOutput} (derived : deriveAt env.toPrimitives source index = .ok output)
    {input : Input} {expected : List (SecpPublicKey × KeySource)}
    (leaves : List.Forall₂ (LeafEntry env.toPrimitives branch index) source.keys expected)
    (perm : input.bip32Derivation.entries.Perm expected) {master : Xpriv}
    (member : master ∈ masters) :
    ∃ pk path, OwnEntry env input output.sortedPubkeys master pk path := by
  obtain ⟨order, reordered, accounts⟩ := holds.source chosen
  have once := holds.fingerprints reordered accounts
  obtain ⟨key, listed, account⟩ := List.forall₂_mem_right accounts (reordered.mem_iff.mpr member)
  obtain ⟨entry, expects, child, origin, one, placed, rfl⟩ := List.forall₂_mem_left leaves listed
  have fingerprint := account.2.1
  -- An entry with this fingerprint belongs to the same key expression.
  have only : ∀ e ∈ input.bip32Derivation.entries, e.2.1 = env.xprivFingerprint master →
      e = (child.publicKey, key.fingerprint, origin ++ [.normal branch.index, .normal index]) := by
    intro e there named
    obtain ⟨other, listed', child', origin', one', placed', rfl⟩ :=
      List.forall₂_mem_right leaves (perm.mem_iff.mp there)
    obtain rfl : other = key :=
      List.inj_on_of_nodup_map once listed' listed (named.trans fingerprint.symm)
    obtain rfl := Except.ok.inj (one.symm.trans one')
    obtain rfl := Option.some.inj (placed.symm.trans placed')
    rfl
  refine ⟨child.publicKey, _, ⟨?_, deriveChild_private libs account placed one,
    mem_sortedPubkeys derived listed one⟩⟩
  rw [← fingerprint]
  cases found : entryForFingerprint input key.fingerprint with
  | none =>
    have absent := List.find?_eq_none.mp found _ (perm.mem_iff.mpr expects)
    simp at absent
  | some e =>
    have named := List.find?_some found
    rw [only e (List.mem_of_find?_eq_some found) ((beq_iff_eq.mp named).trans fingerprint)]

theorem OwnEntry.member {input : Input} {keys : List SecpPublicKey} {master : Xpriv}
    {pk : SecpPublicKey} {path : DerivationPath} (own : OwnEntry env input keys master pk path) :
    (pk, env.xprivFingerprint master, path) ∈ input.bip32Derivation.entries :=
  List.mem_of_find?_eq_some own.entry

theorem OwnEntry.ne {input : Input} {keys : List SecpPublicKey} {m m' : Xpriv}
    {pk pk' : SecpPublicKey} {path path' : DerivationPath}
    (own : OwnEntry env input keys m pk path) (own' : OwnEntry env input keys m' pk' path')
    (other : env.xprivFingerprint m ≠ env.xprivFingerprint m') : pk ≠ pk' := by
  rintro rfl
  have first := OrderedMap.get?_eq_some.mpr own.member
  have second := OrderedMap.get?_eq_some.mpr own'.member
  exact other (Prod.mk.inj (Option.some.inj (first.symm.trans second))).1

end Accounts

section Signing

variable {env : SignPrimitives} {psbt : Psbt}

theorem unlockMaster_fingerprint {signer : LocalSigner} {master : Xpriv}
    (unlocked : signer.unlockMaster env = .ok master) :
    env.xprivFingerprint master = signer.fingerprint := by
  simp only [LocalSigner.unlockMasterIn, Marked.call_outcome, monadLift_self, bind_eq_ok,
    rejectIf_eq_ok, ne_eq, Decidable.not_not, pure_ok, Except.ok.injEq] at unlocked
  obtain ⟨_, _, _, _, _, _, _, _, _, _, _, _, _, same, rfl⟩ := unlocked
  exact same

structure Signable (env : SignPrimitives) (master : Xpriv) (input : Input) : Prop where
  plain : PlainSignatures input
  shown : ∃ utxo, input.witnessUtxo = some utxo
  scripted : ∃ script, input.witnessScript = some script
  named : ∃ keys pk path, OwnEntry env input keys master pk path

theorem preflightInput_signable {master : Xpriv} {input : Input}
    (signable : Signable env master input) (i : Nat) :
    preflightInput (env.xprivFingerprint master) input i = .ok () := by
  obtain ⟨⟨field, sigs⟩, ⟨utxo, shown⟩, ⟨script, scripted⟩, keys, pk, path, own⟩ := signable
  have all : forM input.partialSigs.values (fun sig =>
      rejectIf (sig.sighashType ≠ .all) (SignError.nonSighashAll i)) = .ok () := by
    rw [forM_eq_ok]
    intro sig member
    rw [rejectIf_eq_ok, not_not]
    exact (sigs sig member).1
  have listed : input.bip32Derivation.values.any (fun source =>
      source.1 == env.xprivFingerprint master) = true :=
    List.any_eq_true.mpr ⟨_, List.mem_map_of_mem own.member, beq_self_eq_true _⟩
  unfold preflightInput
  rw [all, shown, scripted, listed]
  cases written : input.sighashType with
  | none => rfl
  | some t =>
    rw [field t written]
    rfl

theorem deriveForInput_signable {master : Xpriv} {input : Input}
    (signable : Signable env master input) (i : Nat) :
    ∃ key, deriveForInput env master (env.xprivFingerprint master) input i =
      .ok (i, env.publicKeyFromSecretKey key, key) := by
  obtain ⟨_, _, _, keys, pk, path, own⟩ := signable
  obtain ⟨leaf, derives, rfl⟩ := own.leaf
  refine ⟨leaf.privateKey, ?_⟩
  simp only [deriveForInput, derivePrivateChild, own.entry, derives, expect, okOr, bind_ok,
    pure_ok]
  rw [rejectIf_of_not _ (by simp), bind_ok]

theorem produceSignature_signable (libs : HonestLibraries env) {master : Xpriv} {input : Input}
    (signable : Signable env master input) {i : Nat} (map : psbt.inputs[i]? = some input)
    (inside : i < psbt.unsignedTx.input.length) (key : SecretKey) :
    ∃ produced, produceSignature env psbt (i, env.publicKeyFromSecretKey key, key) =
      .ok produced := by
  obtain ⟨_, ⟨utxo, shown⟩, ⟨script, scripted⟩, _⟩ := signable
  obtain ⟨digest, hashed⟩ := libs.digests psbt.unsignedTx i script utxo.value inside
  obtain ⟨valid, low⟩ := libs.signs digest key
  simp only [produceSignature, sighashMessage, p2wshSighash, rejectHighS, verifyOwnSignature,
    bind_eq_ok, expect_eq_ok, okOr_eq_ok, rejectIf_eq_ok]
  exact ⟨_, input, map, digest, ⟨utxo, shown, script, scripted, hashed⟩, (),
    not_not.mpr (EcdsaSignature.normalizeS_eq_self.mpr low), (), not_not.mpr valid, rfl⟩

theorem sign_total (libs : HonestLibraries env) {signer : LocalSigner} {master : Xpriv}
    (unlocked : signer.unlockMaster env = .ok master) (nonempty : psbt.inputs ≠ [])
    (maps : psbt.inputs.length = psbt.unsignedTx.input.length)
    (each : ∀ (i : Nat) input, psbt.inputs[i]? = some input → Signable env master input) :
    ∃ signed, signer.sign env psbt = .ok signed := by
  have own := unlockMaster_fingerprint unlocked
  have checked : preflightInputs psbt signer.fingerprint = .ok () := by
    rw [preflightInputs, rejectIf_of_not _ (by simpa using nonempty), bind_ok]
    apply forM_zipIdx_eq_ok.mpr
    intro i input map
    rw [← own]
    exact preflightInput_signable (each i input map) i
  obtain ⟨derived, derives⟩ : ∃ derived, psbt.inputs.zipIdx.mapM (fun entry =>
      deriveForInput env master signer.fingerprint entry.1 entry.2) = .ok derived := by
    apply mapM_total
    intro entry member
    obtain ⟨input, i⟩ := entry
    obtain ⟨key, here⟩ :=
      deriveForInput_signable (each i input (List.mem_zipIdx_iff_getElem?.mp member)) i
    exact ⟨_, own ▸ here⟩
  obtain ⟨produced, produces⟩ : ∃ produced, derived.mapM (produceSignature env psbt) =
      .ok produced := by
    apply mapM_total
    intro d member
    obtain ⟨⟨input, i⟩, paired, here⟩ := mapM_mem derives member
    have map := List.mem_zipIdx_iff_getElem?.mp paired
    obtain ⟨key, here'⟩ := deriveForInput_signable (each i input map) i
    rw [own] at here'
    obtain rfl := Except.ok.inj (here'.symm.trans here)
    exact produceSignature_signable libs (each i input map) map
      (maps ▸ (List.getElem?_eq_some_iff.mp map).1) key
  exact ⟨_, sign_eq_ok.mpr ⟨checked, master, unlocked, derived, derives, produced, produces, rfl⟩⟩

end Signing

section Signatures

variable {env : SignPrimitives} {psbt signed : Psbt}

def Input.bare (input : Input) : Input :=
  { input with partialSigs := .empty, sighashType := none }

theorem bare_keeps : KeepsCoins Input.bare :=
  ⟨fun _ => rfl, fun _ => rfl, fun _ => rfl, fun _ => rfl⟩

theorem insertSignature_bare (psbt : Psbt) (p : Nat × PublicKey × Signature) :
    (insertSignature psbt p).mapInputs Input.bare = psbt.mapInputs Input.bare := by
  have inputs : (insertSignature psbt p).inputs.map Input.bare = psbt.inputs.map Input.bare := by
    apply List.ext_getElem?
    intro j
    rw [List.getElem?_map, List.getElem?_map, insertSignature_input]
    split
    · rw [Option.map_map]
      rfl
    · rfl
  unfold Psbt.mapInputs
  rw [inputs]
  rfl

theorem insertAll_bare (psbt : Psbt) (produced : List (Nat × PublicKey × Signature)) :
    (produced.foldl insertSignature psbt).mapInputs Input.bare = psbt.mapInputs Input.bare := by
  induction produced generalizing psbt with
  | nil => rfl
  | cons p rest ih => rw [List.foldl_cons, ih, insertSignature_bare]

def ValidSignature (env : Primitives) (tx : Transaction) (i : Nat) (input : Input)
    (pk : SecpPublicKey) (sig : Signature) : Prop :=
  sig.sighashType = .all ∧ sig.signature.LowS ∧
    ∃ digest, sighashMessage env tx i input = .ok digest ∧
      env.verifyEcdsa digest sig.signature pk = true

theorem plain_addSignature {input : Input} (plain : PlainSignatures input) {pk : PublicKey}
    {sig : Signature} (all : sig.sighashType = .all) (low : sig.signature.LowS) :
    PlainSignatures (input.addSignature pk sig) := by
  constructor
  · intro t written
    exact (Option.some.inj written).symm
  · intro other member
    rcases OrderedMap.mem_values_insert member with rfl | old
    · exact ⟨all, low⟩
    · exact plain.2 other old

theorem sign_valid {signer : LocalSigner} (run : signer.sign env psbt = .ok signed) :
    signed.mapInputs Input.bare = psbt.mapInputs Input.bare ∧
      ∀ (i : Nat) input, psbt.inputs[i]? = some input → ∃ pk sig,
        pubkeyForFingerprint input signer.fingerprint = some pk ∧
        ValidSignature env.toPrimitives psbt.unsignedTx i input pk sig ∧
        signed.inputs[i]? = some (input.addSignature (.new pk) sig) := by
  obtain ⟨_, _, produced, rfl, once, each⟩ := sign_produced run
  refine ⟨insertAll_bare psbt produced, ?_⟩
  intro i input map
  obtain ⟨own, member⟩ := each i input map
  refine ⟨own.key, own.signature, own.named,
    ⟨rfl, own.low, own.digest, own.message, own.valid⟩, ?_⟩
  rw [insertAll_input once member, map]
  rfl

theorem sign_origin {signer : LocalSigner} (run : signer.sign env psbt = .ok signed) {i : Nat}
    {s : Input} (map : signed.inputs[i]? = some s) : ∃ input pk sig,
      psbt.inputs[i]? = some input ∧ pubkeyForFingerprint input signer.fingerprint = some pk ∧
        ValidSignature env.toPrimitives psbt.unsignedTx i input pk sig ∧
        s = input.addSignature (.new pk) sig := by
  have inside := (sign_signedBy run).count ▸ (List.getElem?_eq_some_iff.mp map).1
  have map' := List.getElem?_eq_getElem inside
  obtain ⟨pk, sig, named, valid, made⟩ := (sign_valid run).2 i _ map'
  exact ⟨_, pk, sig, map', named, valid, Option.some.inj (map.symm.trans made)⟩

theorem sign_accepted {signer : LocalSigner} (run : signer.sign env psbt = .ok signed)
    {descriptor : Str} {policy : VerifyPolicy} {v : PsbtVerdict}
    (accepted : verify env.toPrimitives psbt descriptor policy = .ok v) :
    verify env.toPrimitives signed descriptor policy = .ok v := by
  obtain ⟨_, _, _, _, ok⟩ := verify_eq_ok.mp accepted
  apply verify_signatures bare_keeps (sign_valid run).1 _ accepted
  intro i s map
  obtain ⟨input, pk, sig, map', _, valid, rfl⟩ := sign_origin run map
  exact plain_addSignature (ok.signatures i input map') valid.1 valid.2.1

theorem Signable.addSignature {master : Xpriv} {input : Input}
    (signable : Signable env master input) {pk : PublicKey} {sig : Signature}
    (all : sig.sighashType = .all) (low : sig.signature.LowS) :
    Signable env master (input.addSignature pk sig) := by
  obtain ⟨keys, pk', path, own⟩ := signable.named
  exact ⟨plain_addSignature signable.plain all low, signable.shown, signable.scripted, keys, pk',
    path, own.entry, own.leaf, own.listed⟩

theorem sign_opens_gateB {signer : LocalSigner} (run : signer.sign env psbt = .ok signed)
    {descriptor : Str} {policy : VerifyPolicy} {v : PsbtVerdict} {receive : ParsedDescriptor}
    (parsed : parse env.toPrimitives descriptor = .ok receive)
    (first : receive.key0.fingerprint = signer.fingerprint)
    (accepted : verify env.toPrimitives psbt descriptor policy = .ok v) :
    gateB env.toPrimitives signed (env.computeTxid psbt.unsignedTx) descriptor policy =
      .ok () := by
  have same := (sign_signedBy run).unsignedTx
  refine gateB_eq_ok.mpr ⟨⟨v, sign_accepted run accepted⟩, by rw [same], ?_⟩
  rw [checkKeyASignatures_eq_ok parsed, first, same]
  intro i s map
  obtain ⟨input, pk, sig, _, named, ⟨all, _, digest, hashed, valid⟩, rfl⟩ := sign_origin run map
  simp only [sighashMessage, p2wshSighash, bind_eq_ok, okOr_eq_ok] at hashed
  obtain ⟨utxo, shown, script, scripted, hashed⟩ := hashed
  have shown' : (input.addSignature (.new pk) sig).witnessUtxo = some utxo := shown
  refine (checkKeyAInput_eq_ok shown').mpr ⟨pk, sig, script, digest, named, ?_, all, scripted,
    hashed, valid⟩
  rw [Input.addSignature, OrderedMap.get?_insert, if_pos rfl]

theorem findSignature_get {input : Input} {pk : SecpPublicKey} {sig : Signature}
    (found : findSignature input pk = some sig) :
    ∃ key, key.inner = pk ∧ input.partialSigs.get? key = some sig := by
  obtain ⟨⟨key, value⟩, member, here⟩ := List.exists_of_findSome?_eq_some found
  by_cases same : key.inner = pk
  · obtain rfl : value = sig := by simpa [same] using here
    exact ⟨key, same, OrderedMap.get?_eq_some.mpr member⟩
  · simp [same] at here

def AllValid (env : Primitives) (psbt : Psbt) : Prop :=
  ∀ (i : Nat) input, psbt.inputs[i]? = some input → ∀ key sig,
    input.partialSigs.get? key = some sig →
      ValidSignature env psbt.unsignedTx i input key.inner sig

theorem sign_allValid {signer : LocalSigner} (run : signer.sign env psbt = .ok signed)
    (before : AllValid env.toPrimitives psbt) : AllValid env.toPrimitives signed := by
  intro i s map key sig held
  rw [(sign_signedBy run).unsignedTx]
  obtain ⟨input, own, made, map', _, valid, rfl⟩ := sign_origin run map
  simp only [Input.addSignature, OrderedMap.get?_insert] at held
  split at held
  · rename_i here
    obtain rfl := Option.some.inj held
    rw [here]
    exact valid
  · exact before i input map' key sig held

end Signatures

end Trinity
