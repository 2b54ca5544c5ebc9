import Trinity.Signer.Charge
import Trinity.Signer.FinalizeSigned
import Trinity.Signer.HonestFinish

/-!
Honest sends complete. The spend window, two runs of the verifier, two signers
and the finalizer are put together: what one stage leaves is what the next one
asks for.
-/
namespace Trinity

open Outcome Word

section Send

variable {env : SignPrimitives} {psbt : Psbt} {descriptor : Str} {policy : VerifyPolicy}
  {receive change : ParsedDescriptor} {masters : List Xpriv} {a b : LocalSigner}
  {masterA masterB : Xpriv}

theorem correct_signable (libs : HonestLibraries env)
    (holds : HoldsAccounts env receive change masters) {master : Xpriv}
    (member : master ∈ masters) {input : Input} (plain : PlainSignatures input)
    (correct : CorrectInput env.toPrimitives receive change input) :
    Signable env master input := by
  obtain ⟨branch, index, source, output, utxo, expected, chosen, derived, shown, _, scripted,
    leaves, perm⟩ := correct
  exact ⟨plain, ⟨utxo, shown⟩, ⟨_, scripted⟩, _,
    correct_ownEntry libs holds chosen derived leaves perm member⟩

theorem two_le_countP {α : Type} {p : α → Bool} {xs : List α} {x y : α} (other : x ≠ y)
    (first : x ∈ xs) (second : y ∈ xs) (px : p x = true) (py : p y = true) :
    2 ≤ xs.countP p := by
  have once : [x, y].Nodup := by simp [other]
  rw [List.countP_eq_length_filter]
  apply once.length_le_of_subset
  intro z member
  simp only [List.mem_cons, List.not_mem_nil, or_false] at member
  rcases member with rfl | rfl
  · exact List.mem_filter.mpr ⟨first, px⟩
  · exact List.mem_filter.mpr ⟨second, py⟩

theorem correct_finalizable (libs : HonestLibraries env)
    (holds : HoldsAccounts env receive change masters) (memberA : masterA ∈ masters)
    (memberB : masterB ∈ masters)
    (other : env.xprivFingerprint masterA ≠ env.xprivFingerprint masterB) {input : Input}
    (correct : CorrectInput env.toPrimitives receive change input) :
    Finalizable env.toPrimitives receive (some change) input
      (signedKeys (env.xprivFingerprint masterA) (env.xprivFingerprint masterB) input) := by
  obtain ⟨branch, index, source, output, utxo, expected, chosen, derived, shown, spent, scripted,
    leaves, perm⟩ := correct
  obtain ⟨pkA, pathA, ownA⟩ := correct_ownEntry libs holds chosen derived leaves perm memberA
  obtain ⟨pkB, pathB, ownB⟩ := correct_ownEntry libs holds chosen derived leaves perm memberB
  have small : branch.index ≤ 1 := by cases branch <;> decide
  have names : NamesLeaf input branch.index index := by
    cases entries : input.bip32Derivation.entries with
    | nil => exact absurd ownA.member (by simp [entries])
    | cons e rest =>
      obtain ⟨key, _, child, origin, _, _, rfl⟩ :=
        List.forall₂_mem_right leaves (perm.mem_iff.mp (entries ▸ List.mem_cons_self))
      exact ⟨small, _, _, origin, by rw [entries]; rfl⟩
  refine ⟨branch.index, index, source, output, utxo, names, chosen, derived, shown, spent,
    scripted, two_le_countP (ownA.ne ownB other) ownA.listed ownB.listed ?_ ?_⟩
  · simp [signedKeys, pubkeyForFingerprint, ownA.entry]
  · simp [signedKeys, pubkeyForFingerprint, ownB.entry]

theorem honest_signatures (libs : HonestLibraries env)
    (holds : HoldsAccounts env receive change masters)
    (unlockedA : a.unlockMaster env = .ok masterA) (memberA : masterA ∈ masters)
    (unlockedB : b.unlockMaster env = .ok masterB) (memberB : masterB ∈ masters)
    (parsed : parse env.toPrimitives descriptor = .ok receive)
    (first : receive.key0.fingerprint = a.fingerprint)
    (correct : ∀ (i : Nat) input, psbt.inputs[i]? = some input →
      input.partialSigs = .empty ∧ CorrectInput env.toPrimitives receive change input)
    {v : PsbtVerdict} (accepted : verify env.toPrimitives psbt descriptor policy = .ok v) :
    ∃ afterA signed, a.sign env psbt = .ok afterA ∧
      gateB env.toPrimitives afterA (env.computeTxid psbt.unsignedTx) descriptor policy = .ok () ∧
      b.sign env afterA = .ok signed ∧ signed.unsignedTx = psbt.unsignedTx ∧
      verify env.toPrimitives signed descriptor policy = .ok v ∧
      AllValid env.toPrimitives signed ∧
      ∀ (i : Nat) input, signed.inputs[i]? = some input → ∃ before,
        psbt.inputs[i]? = some before ∧ input.finalScriptSig = before.finalScriptSig := by
  obtain ⟨_, _, _, _, ok⟩ := verify_eq_ok.mp accepted
  have maps := ok.wellFormed.inputMaps
  have nonempty : psbt.inputs ≠ [] := by
    intro empty
    rw [empty, List.length_nil] at maps
    exact ok.wellFormed.nonempty (List.length_eq_zero_iff.mp maps.symm)
  have signable : ∀ {master : Xpriv}, master ∈ masters → ∀ (i : Nat) input,
      psbt.inputs[i]? = some input → Signable env master input := fun member i input map =>
    correct_signable libs holds member (ok.signatures i input map) (correct i input map).2
  obtain ⟨afterA, signA⟩ := sign_total libs unlockedA nonempty maps (signable memberA)
  have byA := sign_signedBy signA
  have nonemptyA : afterA.inputs ≠ [] := by
    intro empty
    have count := byA.count
    rw [empty, List.length_nil] at count
    exact nonempty (List.length_eq_zero_iff.mp count.symm)
  obtain ⟨signed, signB⟩ : ∃ signed, b.sign env afterA = .ok signed := by
    apply sign_total libs unlockedB nonemptyA (by rw [byA.count, byA.unsignedTx]; exact maps)
    intro i inputA map
    obtain ⟨input, pk, sig, map', _, valid, rfl⟩ := sign_origin signA map
    exact (signable memberB i input map').addSignature valid.1 valid.2.1
  have none : AllValid env.toPrimitives psbt := by
    intro i input map key sig held
    rw [(correct i input map).1] at held
    simp [OrderedMap.get?, OrderedMap.empty] at held
  refine ⟨afterA, signed, signA, sign_opens_gateB signA parsed first accepted, signB,
    (sign_signedBy signB).unsignedTx.trans byA.unsignedTx,
    sign_accepted signB (sign_accepted signA accepted),
    sign_allValid signB (sign_allValid signA none), ?_⟩
  intro i input map
  obtain ⟨inputA, _, _, mapA, _, _, rfl⟩ := sign_origin signB map
  obtain ⟨before, _, _, map', _, _, rfl⟩ := sign_origin signA mapA
  exact ⟨before, map', rfl⟩

end Send

section Complete

variable (env : SignPrimitives) (libs : HonestLibraries env)
  (compressed : CompressedPoints env.toPrimitives) {receive change : ParsedDescriptor}
  {masters : List Xpriv} (holds : HoldsAccounts env receive change masters)
  {a b : LocalSigner} {masterA masterB : Xpriv}
  (unlockedA : a.unlockMaster env = .ok masterA) (memberA : masterA ∈ masters)
  (unlockedB : b.unlockMaster env = .ok masterB) (memberB : masterB ∈ masters)
  (first : receive.key0.fingerprint = a.fingerprint)
  {psbt : Psbt} {descriptor : Str} {policy : VerifyPolicy} {v : PsbtVerdict}
  (parsed : parse env.toPrimitives descriptor = .ok receive)
  (parsedChange : parseChange env.toPrimitives policy.changeDescriptor = .ok (some change))
  (derives : ∀ key ∈ receive.keys ++ change.keys,
    DerivesChildren env.toPrimitives key policy.gapLimit)
  (accepted : verify env.toPrimitives psbt descriptor policy = .ok v)
  (correct : ∀ (i : Nat) input, psbt.inputs[i]? = some input →
    input.partialSigs = .empty ∧ CorrectInput env.toPrimitives receive change input)
  {spend : SpendSession} {counter : WindowCounter}
  (valid : spend.policy.validate = .ok spend.policy)
  (used : counter.state.passphraseUsedSinceInstall = true)
  (room : (counter.live spend.policy spend.observation).state.bookings.length < maxBookings)
  (within : ∀ charge set, spendCharge env.toPrimitives psbt descriptor policy = .ok charge →
    inputSet psbt = .ok set →
    extraAgainstBookings (counter.live spend.policy spend.observation).state.bookings set
        charge ≤
      satSub (allowance spend.policy spend.balance.spendPolicyReferenceSats)
        (counter.live spend.policy spend.observation).bookedSat)
include libs compressed holds unlockedA memberA unlockedB memberB first parsed parsedChange derives
  accepted correct valid used room within

theorem honest_signAb :
    ∃ signed, (signAb env.toPrimitives (a.signer env) (b.signer env) psbt descriptor policy
        spend counter).result = .ok signed ∧ signed.unsignedTx = psbt.unsignedTx ∧
      verify env.toPrimitives signed descriptor policy = .ok v ∧
      AllValid env.toPrimitives signed ∧
      ∀ (i : Nat) input, signed.inputs[i]? = some input → ∃ before,
        psbt.inputs[i]? = some before ∧ input.finalScriptSig = before.finalScriptSig := by
  obtain ⟨_, _, _, _, ok⟩ := verify_eq_ok.mp accepted
  have children : ∀ desc : ParsedDescriptor,
      (∀ key ∈ desc.keys, key ∈ receive.keys ++ change.keys) →
      Derives env.toPrimitives desc policy.gapLimit := fun desc inside =>
    derives_of_children compressed fun key member => derives key (inside key member)
  obtain ⟨charge, charged⟩ := spendCharge_total parsed parsedChange
    (children receive fun _ member => List.mem_append_left _ member)
    (fun chg same => Option.some.inj same ▸
      children change fun _ member => List.mem_append_right _ member) ok.fee
  have collected : inputSet psbt =
      .ok (.collect (psbt.unsignedTx.input.map TxIn.previousOutput)) := by
    have few : ¬ maxInputs < psbt.unsignedTx.input.length := Nat.not_lt.mpr ok.wellFormed.inputLimit
    rw [inputSet, rejectIf_of_not _ (by simpa using ok.wellFormed.nonempty), bind_ok,
      rejectIf_of_not _ few]
    rfl
  have flag : (counter.live spend.policy spend.observation).state.passphraseUsedSinceInstall =
      true := by
    rw [← used]
    exact live_passphrase counter spend.policy spend.observation
  have approved := approve_of flag charged collected (within _ _ charged collected) (.inr room)
  obtain ⟨afterA, signed, signA, passed, signB, rest⟩ := honest_signatures libs holds unlockedA
    memberA unlockedB memberB parsed first correct accepted
  exact ⟨signed, by rw [signAb_of_stages valid approved accepted signA passed signB], rest⟩

/-- A payment the verifier accepts is signed by both keys and finalized, for
    every wallet of three masters whose children derive below the gap limit,
    as long as no input sets a `final_script_sig`. -/
theorem honest_send_completes (other : a.fingerprint ≠ b.fingerprint)
    (distinct : (psbt.unsignedTx.input.map TxIn.previousOutput).Nodup)
    (unscripted : ∀ (i : Nat) input, psbt.inputs[i]? = some input → input.finalScriptSig = none) :
    ∃ signed tx, (signAb env.toPrimitives (a.signer env) (b.signer env) psbt descriptor policy
        spend counter).result = .ok signed ∧
      finalize env signed descriptor policy = .ok tx ∧
      tx.version = psbt.unsignedTx.version ∧ tx.lockTime = psbt.unsignedTx.lockTime ∧
      tx.output = psbt.unsignedTx.output ∧
      tx.input.map (fun txin => (txin.previousOutput, txin.sequence)) =
        psbt.unsignedTx.input.map fun txin => (txin.previousOutput, txin.sequence) := by
  obtain ⟨signed, run, same, accepted', validly, kept⟩ := honest_signAb env libs compressed holds
    unlockedA memberA unlockedB memberB first parsed parsedChange derives accepted correct valid
    used room within
  have both := signAb_signedPsbt run
  obtain ⟨parts, finalized⟩ := (@finalizeInputs_ok_iff env _ _ _ _ _ receive
    (some change) both).mpr fun i input map => by
      rw [← unlockMaster_fingerprint unlockedA, ← unlockMaster_fingerprint unlockedB] at other ⊢
      exact correct_finalizable libs holds memberA memberB other (correct i input map).2
  obtain ⟨receive', change', _, _, ok'⟩ := verify_eq_ok.mp accepted'
  obtain rfl := Except.ok.inj (parsed.symm.trans ok'.parsed)
  obtain rfl := Except.ok.inj (parsedChange.symm.trans ok'.parsedChange)
  have unscripted' : ∀ (i : Nat) input, signed.inputs[i]? = some input →
      input.finalScriptSig = none := by
    intro i input map
    obtain ⟨before, map', same⟩ := kept i input map
    exact same.trans (unscripted i before map')
  have finished := finishTransaction_total ok' unscripted' validly finalized libs
    (by rw [same]; exact distinct)
  refine ⟨signed, (signed.withWitnesses parts).extractTx, run, ?_, ?_⟩
  · rw [finalize_signed both parsed parsedChange, finalized, bind_ok, finished]
  · rw [extractTx_inputs]
    have kept : (signed.withWitnesses parts).unsignedTx = psbt.unsignedTx := same
    simp only [Psbt.extractTx, kept, and_self]

end Complete

section Beyond

variable {env : Primitives} {script : Script} {desc : ParsedDescriptor}

theorem derivedAt_length {i : UInt32} (derived : DerivedAt env desc script i) :
    script.length = 34 := by
  obtain ⟨out, run, rfl⟩ := derived
  obtain ⟨_, _, _, _, _, _, _, _, _, program⟩ := deriveAt_spec run
  simp [program, p2wshScript]

/-- Index 2^31 is hardened: no library derives it from a public key. -/
theorem deriveAt_hardened (out : DerivedOutput) : deriveAt env desc 0x80000000 ≠ .ok out := by
  intro run
  obtain ⟨_, _, _, first, _⟩ := deriveAt_spec run
  simp only [deriveChild, bind_eq_ok, rejectIf_eq_ok] at first
  exact first.choose_spec.1 (by decide)

theorem matchesDescriptor_beyond {gap : UInt32} (wide : 0x80000000 < gap)
    (foreign : script.length ≠ 34) (b : Bool) : matchesDescriptor env script desc gap ≠ .ok b := by
  intro run
  obtain ⟨found, search, _⟩ := bind_eq_ok.mp run
  cases found with
  | some i =>
    obtain ⟨j, _, here⟩ := findSomeM?_some search
    exact foreign (derivedAt_length (probe_some.mp (mapErr_eq_ok.mp here)).2)
  | none =>
    have here := findSomeM?_none.mp search 0x80000000 (mem_indicesBelow.mpr wide)
    obtain ⟨out, derived, _⟩ := bind_eq_ok.mp (mapErr_eq_ok.mp here)
    exact deriveAt_hardened out (mapErr_eq_ok.mp derived)

theorem spendCharge_beyond {psbt : Psbt} {descriptor : Str} {policy : VerifyPolicy}
    (wide : 0x80000000 < policy.gapLimit) {txout : TxOut} {rest : List TxOut}
    (outputs : psbt.unsignedTx.output = txout :: rest) (foreign : txout.scriptPubkey.length ≠ 34)
    (charge : UInt64) : spendCharge env psbt descriptor policy ≠ .ok charge := by
  intro run
  simp only [spendChargeIn, chargeOutputsIn, monadLift_self, outputs, List.foldlM_cons,
    bind_eq_ok] at run
  obtain ⟨receive, _, change, _, _, _, _, ⟨_, ⟨_, _, own, asked, _⟩, _⟩, _⟩ := run
  obtain ⟨b, scan, _⟩ := bind_eq_ok.mp asked
  exact matchesDescriptor_beyond wide foreign b scan

end Beyond

namespace Sample

def masterC : Xpriv :=
  ⟨0x483134f671c00044cbe87c4f4a719a2600108bb230823c763073498fa51c0302,
    0xc04d2023502a8706b80e61f4f20a7606f7c030c54d2dabc48ce5ddb742909496⟩

def masters : List Xpriv := [secretA.master, secretB.master, masterC]

structure PrivateKey where
  master : Xpriv
  path : DerivationPath
  scalar : SecretKey
  point : Xpub

def privateKeys : List PrivateKey := [
  ⟨secretA.master, origin,
    0xebf084363acbf6d9915c85550051d6263cea0250be141e2c21042644fad74d5e, accountA⟩,
  ⟨secretA.master, origin ++ [ChildNumber.normal 0],
    0x192fa3342028da046f46d0c5f6cd53a6f3f41f8c99f9fb496410b3acbe11e24b, branchAExternal⟩,
  ⟨secretA.master, origin ++ [ChildNumber.normal 0, ChildNumber.normal 0],
    0x0c46d37a2184cc530bf6e54a433b00fd9bcb305106c358df25f084fcf9d58413, childAExternal⟩,
  ⟨secretA.master, origin ++ [ChildNumber.normal 1],
    0x604cdc76d11aad6273523af3d129e705cf15c1db7a1ea9fffed4b477fbbb619b, branchAInternal⟩,
  ⟨secretA.master, origin ++ [ChildNumber.normal 1, ChildNumber.normal 0],
    0x0ad3ef2c8057b559196f02fdfbbf3332c82febc97f1847de52ee091f678112a3, childAInternal⟩,
  ⟨secretB.master, origin,
    0xa15f93252fc324bba9cd8be2d3001b7658b34338d085747697db8adb9cd7765f, accountB⟩,
  ⟨secretB.master, origin ++ [ChildNumber.normal 0],
    0xeaa34002647f92d936a40b36c9900fe2fba59d82e5f5013257fed2fc4833a8ca, branchBExternal⟩,
  ⟨secretB.master, origin ++ [ChildNumber.normal 0, ChildNumber.normal 0],
    0xf3ffe8422176f4847dcf54ff0d2b592fc96b0ee921559d524541bca8463abf41, childBExternal⟩,
  ⟨secretB.master, origin ++ [ChildNumber.normal 1],
    0xf3fa0040074c3f7578f4abb92cbb703b6f1cd89f1ee9fa1e9cd2d6dafb3fe7d5, branchBInternal⟩,
  ⟨secretB.master, origin ++ [ChildNumber.normal 1, ChildNumber.normal 0],
    0x6311f232f911eb67a4d8341c0fa3b4e9aad455835893892514b8719d470e84d0, childBInternal⟩,
  ⟨masterC, origin,
    0x20987234543b48ccda3cf0e5de6bb80c4930d3c8f161caf800a50f84e96dd6b7, accountC⟩,
  ⟨masterC, origin ++ [ChildNumber.normal 0],
    0x9152da9ae74dde8a045be6bc59697e75038960b2171be34f11c6ed84410cf938, branchCExternal⟩,
  ⟨masterC, origin ++ [ChildNumber.normal 0, ChildNumber.normal 0],
    0x37c51d15f843c94b4fe449c951756c138021b79ea3b133d6834ea6de82590d34, childCExternal⟩,
  ⟨masterC, origin ++ [ChildNumber.normal 1],
    0x977e9edf8b6966aa7fadf49c378a32d2856e7453419ac300fd6f3ae387f67a60, branchCInternal⟩,
  ⟨masterC, origin ++ [ChildNumber.normal 1, ChildNumber.normal 0],
    0xc7d142568e5aa8aa5eb77e3635bc5bb044af6da4ab1803f44ff1bdcf31805f02, childCInternal⟩]

def honestVerifies (digest : BitVec 256) (sig : EcdsaSignature) (pk : SecpPublicKey) : Bool :=
  env.verifyEcdsa digest sig pk || sig == standIn

def honestDigest (tx : Transaction) (i : Nat) (script : Script) (value : UInt64)
    (sighashType : EcdsaSighashType) : Option (BitVec 256) :=
  (env.p2wshSignatureHash tx i script value sighashType).or
    (if sighashType = .all ∧ i < tx.input.length then some 0 else none)

def signsDigest (digest : BitVec 256) (item : Str) : Bool :=
  (tables.verifying.any fun v => v.1 == digest && Signature.serialize ⟨v.2.1, .all⟩ == item) ||
    Signature.serialize ⟨standIn, .all⟩ == item

def spendsProgram (tx : Transaction) (spent : OrderedMap OutPoint TxOut) (txin : TxIn) (i : Nat) :
    Bool :=
  match spent.get? txin.previousOutput, txin.witness with
  | some utxo, [dummy, first, second, script] =>
    txin.scriptSig.isEmpty && dummy.isEmpty && utxo.scriptPubkey == p2wshScript (env.sha256 script)
      && (honestDigest tx.stripped i script utxo.value .all).any fun digest =>
        signsDigest digest first && signsDigest digest second
  | _, _ => false

/-- Libraries that keep their promises for every input: the tables of the wallet,
    and a stand-in for what they do not hold. -/
def honestEnv : SignPrimitives :=
  { signEnv with
    p2wshSignatureHash := honestDigest
    verifyEcdsa := honestVerifies
    xprivFingerprint := fun master =>
      if master = masterC then fingerprintC else signEnv.xprivFingerprint master
    derivePriv := fun master path =>
      (privateKeys.find? fun k => k.master == master && k.path == path).map fun k =>
        ⟨k.point.chainCode, k.scalar⟩
    publicKeyFromSecretKey := fun scalar =>
      ((privateKeys.find? fun k => k.scalar == scalar).map fun k => k.point.publicKey).getD 0
    verifyTransaction := fun tx spent =>
      tx.input.zipIdx.all fun (txin, i) => spendsProgram tx spent txin i }

theorem ckdPub_steps {t : Tables} {chainCode : BitVec 256} {pk : SecpPublicKey} {index : UInt32}
    {child : ChildKey} (run : ckdPub t.primitives chainCode pk index = .ok child) :
    ∃ s ∈ t.steps, ∃ s' ∈ t.steps, s.parent = ⟨chainCode, pk⟩ ∧ s.index = index ∧
      s'.parent.publicKey = pk ∧ s'.tweak = s.tweak ∧
      child = ⟨s.child.chainCode, s'.child.publicKey⟩ := by
  simp only [ckdPub, bind_eq_ok, okOr_eq_ok, pure_ok, Except.ok.injEq] at run
  obtain ⟨_, _, _, _, il, tweaked, point, added, rfl⟩ := run
  simp only [Tables.primitives] at tweaked added ⊢
  cases found : t.steps.find? fun s => s.parent.chainCode == chainCode &&
      s.data == beBytes 33 pk ++ beBytes 4 (BitVec.ofNat 32 index.toNat) with
  | none =>
    rw [found] at tweaked
    have zero : parseIl ((0 : BitVec 512).extractLsb' 256 256) = fail .invalidTweak := by
      simp [parseIl]
    exact absurd (zero.symm.trans tweaked) (fail_ne_ok _ _)
  | some s =>
    rw [found] at tweaked
    have left : (s.tweak ++ s.child.chainCode).extractLsb' 256 256 = s.tweak := by
      exact BitVec.extractLsb'_append_eq_left
    have right : (s.tweak ++ s.child.chainCode).extractLsb' 0 256 = s.child.chainCode := by
      exact BitVec.extractLsb'_append_eq_right
    simp only [left, right] at tweaked ⊢
    obtain rfl : il = s.tweak := by
      unfold parseIl at tweaked
      split at tweaked
      · exact (Except.ok.inj tweaked).symm
      · simp at tweaked
    obtain ⟨s', found', rfl⟩ := Option.map_eq_some_iff.mp added
    have here := List.find?_some found
    have here' := List.find?_some found'
    simp only [Bool.and_eq_true, beq_iff_eq] at here here'
    -- The key and the index are read off the bytes the step is known for.
    obtain ⟨first, second⟩ := List.append_inj here.2 (by simp)
    have point : s.parent.publicKey = pk := by
      have same := beBytes_inj first
      have low := s.parent.publicKey.isLt
      have low' := pk.isLt
      apply BitVec.eq_of_toNat_eq
      rwa [Nat.mod_eq_of_lt (by omega), Nat.mod_eq_of_lt (by omega)] at same
    have number : s.index = index := by
      have same := beBytes_inj second
      have low := s.index.toNat_lt_size
      have low' := index.toNat_lt_size
      rw [← UInt32.toNat_inj]
      simpa [Nat.mod_eq_of_lt low, Nat.mod_eq_of_lt low'] using same
    refine ⟨s, List.mem_of_find?_eq_some found, s', List.mem_of_find?_eq_some found', ?_, number,
      here'.1, here'.2, rfl⟩
    rw [← here.1, ← point]

theorem honest_derivation {e : PrivateKey} (member : e ∈ privateKeys) {index : UInt32}
    {child : ChildKey} (run : ckdPub env e.point.chainCode e.point.publicKey index = .ok child) :
    ∃ below, honestEnv.derivePriv e.master (e.path ++ [.normal index]) = some below ∧
      below.chainCode = child.chainCode ∧
      honestEnv.publicKeyFromSecretKey below.privateKey = child.publicKey := by
  have closed : ∀ e ∈ privateKeys, ∀ s ∈ steps, ∀ s' ∈ steps, s.parent = e.point →
      s'.parent.publicKey = e.point.publicKey → s'.tweak = s.tweak →
      ((honestEnv.derivePriv e.master (e.path ++ [.normal s.index])).any fun below =>
        below.chainCode == s.child.chainCode &&
          honestEnv.publicKeyFromSecretKey below.privateKey == s'.child.publicKey) = true := by
    decide +kernel
  obtain ⟨s, listed, s', listed', parent, rfl, point, tweak, rfl⟩ := ckdPub_steps run
  have found := closed e member s listed s' listed' parent point tweak
  simp only [Option.any_eq_true, Bool.and_eq_true, beq_iff_eq] at found
  exact found

theorem honest_signs (digest : BitVec 256) (key : SecretKey) :
    honestEnv.verifyEcdsa digest (honestEnv.signEcdsaLowR digest key)
      (honestEnv.publicKeyFromSecretKey key) = true ∧
    (honestEnv.signEcdsaLowR digest key).LowS := by
  have listed : ∀ k ∈ [secretA, secretB], honestVerifies k.digest k.signature
      (honestEnv.publicKeyFromSecretKey k.child.privateKey) = true ∧
        k.signature.s ≤ curveOrder / 2 := by
    decide +kernel
  show honestVerifies digest (signEnv.signEcdsaLowR digest key) _ = true ∧
    (signEnv.signEcdsaLowR digest key).LowS
  simp only [signEnv, SignPrimitives.ofTables]
  cases found : [secretA, secretB].find? fun k =>
      k.digest == digest && k.child.privateKey == key with
  | none => exact ⟨by simp [honestVerifies, standIn], Nat.zero_le _⟩
  | some k =>
    have here := List.find?_some found
    simp only [Bool.and_eq_true, beq_iff_eq] at here
    obtain ⟨rfl, rfl⟩ := here
    exact listed k (List.mem_of_find?_eq_some found)

theorem signsDigest_of_verifies {digest : BitVec 256} {sig : Signature} {pk : SecpPublicKey}
    (all : sig.sighashType = .all) (valid : honestVerifies digest sig.signature pk = true) :
    signsDigest digest sig.serialize = true := by
  obtain ⟨sig, kind⟩ := sig
  subst all
  simp only [honestVerifies, Bool.or_eq_true, beq_iff_eq] at valid
  simp only [signsDigest, Bool.or_eq_true, List.any_eq_true, Bool.and_eq_true, beq_iff_eq]
  rcases valid with known | rfl
  · exact .inl ⟨(digest, sig, pk), List.contains_iff_mem.mp known, rfl, rfl⟩
  · exact .inr rfl

theorem honest_spends {tx : Transaction} {spent : OrderedMap OutPoint TxOut} {txin : TxIn}
    {i : Nat} {utxo : TxOut} (held : spent.get? txin.previousOutput = some utxo)
    (satisfied : SatisfiesMultisig honestEnv.toPrimitives tx i txin utxo) :
    spendsProgram tx spent txin i = true := by
  obtain ⟨unscripted, keys, script, first, second, k₁, k₂, digest, witness, program, _, _, all,
    all',
    hashed, valid, valid'⟩ := satisfied
  have hashed : honestDigest tx.stripped i script utxo.value .all = some digest := hashed
  have program : utxo.scriptPubkey = p2wshScript (env.sha256 script) := program
  simp only [spendsProgram, held, witness, unscripted, program, hashed, Option.any_some,
    signsDigest_of_verifies all valid, signsDigest_of_verifies all' valid']
  simp

theorem spendsProgram_unscripted {tx : Transaction} {spent : OrderedMap OutPoint TxOut}
    {txin : TxIn} {i : Nat} (spends : spendsProgram tx spent txin i = true) :
    txin.scriptSig = [] := by
  unfold spendsProgram at spends
  split at spends
  · simp only [Bool.and_eq_true, List.isEmpty_iff] at spends
    exact spends.1.1.1
  · exact absurd spends Bool.false_ne_true

theorem honest_libraries : HonestLibraries honestEnv where
  derivation := by
    intro master path parent index child named run
    simp only [honestEnv, Option.map_eq_some_iff] at named
    obtain ⟨e, found, rfl⟩ := named
    have member := List.mem_of_find?_eq_some found
    have here := List.find?_some found
    simp only [Bool.and_eq_true, beq_iff_eq] at here
    obtain ⟨rfl, rfl⟩ := here
    have own : ∀ e ∈ privateKeys, honestEnv.publicKeyFromSecretKey e.scalar =
        e.point.publicKey := by decide +kernel
    rw [own e member] at run
    exact honest_derivation member run
  signs := honest_signs
  digests := by
    intro tx i script value inside
    show ∃ digest, honestDigest tx i script value .all = some digest
    rw [honestDigest, if_pos ⟨rfl, inside⟩]
    cases env.p2wshSignatureHash tx i script value .all with
    | none => exact ⟨0, rfl⟩
    | some digest => exact ⟨digest, rfl⟩
  consensus := by
    intro tx spent each
    apply List.all_eq_true.mpr
    rintro ⟨txin, i⟩ member
    obtain ⟨utxo, held, satisfied⟩ := each i txin (List.mem_zipIdx_iff_getElem?.mp member)
    exact honest_spends held satisfied

theorem origin_parsed : DerivationPath.parse (bytes "48'/1'/0'/2'") = some origin := by
  decide

theorem account_key (branch : DerivationBranch) {xpub : Str} {master : Xpriv}
    {fingerprint : Fingerprint} (named : fingerprint = honestEnv.xprivFingerprint master)
    (exported : ((honestEnv.derivePriv master origin).any fun account =>
      honestEnv.xpubFromStr xpub == some ⟨account.chainCode,
        honestEnv.publicKeyFromSecretKey account.privateKey⟩) = true) :
    AccountKey honestEnv branch ⟨fingerprint, bytes "48'/1'/0'/2'", xpub, branch⟩ master := by
  simp only [Option.any_eq_true, beq_iff_eq] at exported
  obtain ⟨account, derived, decoded⟩ := exported
  exact ⟨rfl, named, origin, account, origin_parsed, derived, decoded⟩

theorem accounts (branch : DerivationBranch) :
    List.Forall₂ (AccountKey honestEnv branch) (wallet branch).keys masters :=
  .cons (account_key branch (by decide) (by decide +kernel))
    (.cons (account_key branch (by decide) (by decide +kernel))
      (.cons (account_key branch (by decide) (by decide +kernel)) .nil))

theorem holds_accounts :
    HoldsAccounts honestEnv (wallet .external) (wallet .internal) masters :=
  ⟨by decide, ⟨masters, .refl _, accounts .external⟩,
    ⟨masters, .refl _, accounts .internal⟩⟩

theorem honest_compressed : CompressedPoints honestEnv.toPrimitives := compressed

theorem unlocksA : localA.unlockMaster honestEnv = .ok secretA.master := by decide +kernel

theorem unlocksB : localB.unlockMaster honestEnv = .ok secretB.master := by decide +kernel

theorem honest_parsed :
    parse honestEnv.toPrimitives receiveDescriptor = .ok (wallet .external) := parsed_receive

theorem honest_parsedChange :
    parseChange honestEnv.toPrimitives policy.changeDescriptor = .ok (some (wallet .internal)) :=
  parsed_policy

theorem honest_children :
    ∀ key ∈ (wallet .external).keys ++ (wallet .internal).keys,
      DerivesChildren honestEnv.toPrimitives key policy.gapLimit := by
  intro key member
  rcases List.mem_append.mp member with external | internal
  · exact derives_children derived_receive key external
  · exact derives_children derived_change key internal

theorem correct_input : ∀ (i : Nat) input, psbt.inputs[i]? = some input →
    input.partialSigs = .empty ∧
      CorrectInput honestEnv.toPrimitives (wallet .external) (wallet .internal) input := by
  intro i input map
  rw [psbtInput_only map]
  refine ⟨rfl, .external, 0, wallet .external, receiveOutput, coinOutput,
    [(childAExternal.publicKey, fingerprintA, origin ++ [.normal 0, .normal 0]),
      (childBExternal.publicKey, fingerprintB, origin ++ [.normal 0, .normal 0]),
      (childCExternal.publicKey, fingerprintC, origin ++ [.normal 0, .normal 0])],
    rfl, derived_receive, rfl, rfl, rfl, ?_, ?_⟩
  case refine_2 => exact List.Perm.swap _ _ _
  have leaf : ∀ {fingerprint : Fingerprint} {xpub : Str} {key : Xpub},
      deriveChild env ⟨fingerprint, bytes "48'/1'/0'/2'", xpub, .external⟩ 0 =
        .ok (child fingerprint .external key) →
      LeafEntry honestEnv.toPrimitives .external 0
        ⟨fingerprint, bytes "48'/1'/0'/2'", xpub, .external⟩
        (key.publicKey, fingerprint, origin ++ [.normal 0, .normal 0]) :=
    fun derived => ⟨_, origin, derived, origin_parsed, rfl⟩
  exact .cons (leaf (by decide)) (.cons (leaf (by decide))
    (.cons (leaf (by decide)) .nil))

theorem honest_accepted : verify honestEnv.toPrimitives psbt receiveDescriptor policy =
    .ok ⟨true, recipientAddress, 60000, 39000, 1000, 8⟩ := accepted

theorem honest_charged :
    spendCharge honestEnv.toPrimitives psbt receiveDescriptor policy = .ok 61000 := charged

def prefilled : Psbt :=
  { psbt with inputs := [{ psbtInput with finalScriptSig := some [0x51] }] }

theorem prefilled_accepted : verify honestEnv.toPrimitives prefilled receiveDescriptor policy =
    .ok ⟨true, recipientAddress, 60000, 39000, 1000, 8⟩ := by
  have keeps : KeepsCoins fun input => { input with finalScriptSig := none } :=
    ⟨fun _ => rfl, fun _ => rfl, fun _ => rfl, fun _ => rfl⟩
  refine verify_signatures keeps rfl ?_ honest_accepted
  intro i input map
  obtain rfl := List.mem_singleton.mp (List.mem_of_getElem? map)
  obtain ⟨_, _, _, _, ok⟩ := verify_eq_ok.mp honest_accepted
  exact ok.signatures 0 psbtInput rfl

theorem prefilled_correct : ∀ (i : Nat) input, prefilled.inputs[i]? = some input →
    input.partialSigs = .empty ∧
      CorrectInput honestEnv.toPrimitives (wallet .external) (wallet .internal) input := by
  intro i input map
  obtain rfl := List.mem_singleton.mp (List.mem_of_getElem? map)
  exact correct_input 0 psbtInput rfl

theorem prefilled_charged :
    spendCharge honestEnv.toPrimitives prefilled receiveDescriptor policy = .ok 61000 := by
  have inputs : chargeInputs prefilled = chargeInputs psbt := rfl
  rw [spendCharge, spendChargeIn, inputs]
  exact honest_charged

theorem prefilled_within (charge : UInt64) (set : OrderedSet OutPoint)
    (charged : spendCharge honestEnv.toPrimitives prefilled receiveDescriptor policy = .ok charge)
    (collected : inputSet prefilled = .ok set) :
    extraAgainstBookings (unlocked.live spendPolicy session.observation).state.bookings set
        charge ≤
      satSub (allowance spendPolicy session.balance.spendPolicyReferenceSats)
        (unlocked.live spendPolicy session.observation).bookedSat := by
  obtain rfl := Except.ok.inj (prefilled_charged.symm.trans charged)
  obtain rfl := Except.ok.inj (Sample.collected.symm.trans collected)
  decide

theorem extractTx_scriptSig {final : Psbt} {txin : TxIn} {input : Input}
    (spends : final.unsignedTx.input[0]? = some txin) (map : final.inputs[0]? = some input) :
    ∃ extracted, final.extractTx.input[0]? = some extracted ∧
      extracted.scriptSig = input.finalScriptSig.getD [] := by
  refine ⟨{ txin with
    scriptSig := input.finalScriptSig.getD []
    witness := input.finalScriptWitness.getD [] }, ?_, rfl⟩
  simp [Psbt.extractTx, List.getElem?_map, spends, map]

theorem scriptSig_not_finalized {signed : Psbt} {txin : TxIn} {input : Input} {script : Script}
    (spends : signed.unsignedTx.input[0]? = some txin) (map : signed.inputs[0]? = some input)
    (scriptSig : input.finalScriptSig = some script) (nonempty : script ≠ []) (descriptor : Str)
    (policy : VerifyPolicy) (tx : Transaction) :
    finalize honestEnv signed descriptor policy ≠ .ok tx := by
  intro run
  simp only [finalize, finishTransaction, bind_eq_ok, rejectIf_eq_ok, Decidable.not_not, pure_ok,
    Except.ok.injEq] at run
  obtain ⟨_, _, _, _, _, _, _, _, parts, _, _, _, _, _, _, accepted, _⟩ := run
  have mapped : (signed.withWitnesses parts).inputs[0]? = some
      { input with finalScriptWitness := parts[0]?.map FinalizedInput.witness } := by
    simp [Psbt.withWitnesses, map]
  obtain ⟨extracted, first, same⟩ :=
    @extractTx_scriptSig (signed.withWitnesses parts) txin _ spends mapped
  have each := List.all_eq_true.mp accepted (extracted, 0)
    (List.mem_zipIdx_iff_getElem?.mpr first)
  rw [spendsProgram_unscripted each, scriptSig] at same
  exact nonempty same.symm

def widePolicy : VerifyPolicy := { policy with gapLimit := 0x80000001 }

theorem wide_accepted : verify honestEnv.toPrimitives psbt receiveDescriptor widePolicy =
    .ok ⟨true, recipientAddress, 60000, 39000, 1000, 8⟩ := by
  have change : widePolicy.changeDescriptor = policy.changeDescriptor := rfl
  rw [verify, verifyIn, honest_parsed, change, honest_parsedChange]
  decide +kernel

end Sample

/-- The sample payment is signed and finalized. -/
theorem honest_send_sample :
    ∃ signed tx, (signAb Sample.honestEnv.toPrimitives (Sample.localA.signer Sample.honestEnv)
        (Sample.localB.signer Sample.honestEnv) Sample.psbt Sample.receiveDescriptor Sample.policy
        Sample.session Sample.unlocked).result = .ok signed ∧
      finalize Sample.honestEnv signed Sample.receiveDescriptor Sample.policy = .ok tx ∧
      tx.version = Sample.payment.version ∧ tx.lockTime = Sample.payment.lockTime ∧
      tx.output = Sample.payment.output ∧
      tx.input.map (fun txin => (txin.previousOutput, txin.sequence)) =
        Sample.payment.input.map fun txin => (txin.previousOutput, txin.sequence) := by
  refine honest_send_completes Sample.honestEnv Sample.honest_libraries Sample.honest_compressed
    Sample.holds_accounts Sample.unlocksA (by decide) Sample.unlocksB (by decide) rfl
    Sample.honest_parsed Sample.honest_parsedChange Sample.honest_children Sample.honest_accepted
    Sample.correct_input Sample.spendPolicy_valid rfl (by decide) ?_ (by decide) (by decide) ?_
  · intro charge set charged collected
    obtain rfl := Except.ok.inj (Sample.honest_charged.symm.trans charged)
    obtain rfl := Except.ok.inj (Sample.collected.symm.trans collected)
    decide
  · intro i input map
    rw [Sample.psbtInput_only map]
    rfl

/-- With a gap limit of 2^31 + 1 the same payment is accepted and the allowance
    exceeds all it spends, but its charge is never computed: nothing is signed. With
    a `final_script_sig` on its input it is signed, but never finalized. -/
theorem wide_gap_not_signed :
    HonestLibraries Sample.honestEnv ∧ CompressedPoints Sample.honestEnv.toPrimitives ∧
    HoldsAccounts Sample.honestEnv (Sample.wallet .external) (Sample.wallet .internal)
      Sample.masters ∧
    Sample.unlocked.state.passphraseUsedSinceInstall = true ∧
    (Sample.unlocked.live Sample.spendPolicy Sample.session.observation).state.bookings = [] ∧
    Sample.coinOutput.value ≤
      allowance Sample.spendPolicy Sample.session.balance.spendPolicyReferenceSats ∧
    (verify Sample.honestEnv.toPrimitives Sample.psbt Sample.receiveDescriptor Sample.widePolicy =
      .ok ⟨true, Sample.recipientAddress, 60000, 39000, 1000, 8⟩ ∧
    (∀ (i : Nat) input, Sample.psbt.inputs[i]? = some input → input.partialSigs = .empty ∧
      CorrectInput Sample.honestEnv.toPrimitives (Sample.wallet .external)
        (Sample.wallet .internal) input) ∧
    ∀ signed, (signAb Sample.honestEnv.toPrimitives (Sample.localA.signer Sample.honestEnv)
      (Sample.localB.signer Sample.honestEnv) Sample.psbt Sample.receiveDescriptor
      Sample.widePolicy Sample.session Sample.unlocked).result ≠ .ok signed) ∧
    verify Sample.honestEnv.toPrimitives Sample.prefilled Sample.receiveDescriptor Sample.policy =
      .ok ⟨true, Sample.recipientAddress, 60000, 39000, 1000, 8⟩ ∧
    (∀ (i : Nat) input, Sample.prefilled.inputs[i]? = some input → input.partialSigs = .empty ∧
      CorrectInput Sample.honestEnv.toPrimitives (Sample.wallet .external)
        (Sample.wallet .internal) input) ∧
    ∃ signed, (signAb Sample.honestEnv.toPrimitives (Sample.localA.signer Sample.honestEnv)
        (Sample.localB.signer Sample.honestEnv) Sample.prefilled Sample.receiveDescriptor
        Sample.policy Sample.session Sample.unlocked).result = .ok signed ∧
      ∀ tx, finalize Sample.honestEnv signed Sample.receiveDescriptor Sample.policy ≠ .ok tx := by
  refine ⟨Sample.honest_libraries, Sample.honest_compressed, Sample.holds_accounts, rfl,
    by decide, by decide, ⟨Sample.wide_accepted, Sample.correct_input, ?_⟩,
    Sample.prefilled_accepted, Sample.prefilled_correct, ?_⟩
  · intro signed run
    obtain ⟨approval, _, _, _, approved, _⟩ := signAb_eq_ok run
    simp only [CoreState.approveIn, monadLift_self, bind_eq_ok] at approved
    obtain ⟨_, _, charge, charged, _⟩ := approved
    exact spendCharge_beyond (by decide) rfl (by decide) charge charged
  · have empty : (Sample.unlocked.live Sample.session.policy
        Sample.session.observation).state.bookings.length < maxBookings := by decide
    obtain ⟨signed, run, same, _, _, kept⟩ := honest_signAb Sample.honestEnv
      Sample.honest_libraries Sample.honest_compressed Sample.holds_accounts Sample.unlocksA
      (by decide) Sample.unlocksB (by decide) rfl Sample.honest_parsed Sample.honest_parsedChange
      Sample.honest_children Sample.prefilled_accepted Sample.prefilled_correct
      Sample.spendPolicy_valid rfl empty Sample.prefilled_within
    have one : signed.inputs.length = 1 := (signAb_signedPsbt run).count
    obtain ⟨input, map⟩ : ∃ input, signed.inputs[0]? = some input :=
      ⟨_, List.getElem?_eq_getElem (by omega)⟩
    obtain ⟨before, map', scriptSig⟩ := kept 0 input map
    obtain rfl := List.mem_singleton.mp (List.mem_of_getElem? map')
    have spends : signed.unsignedTx.input[0]? = some ⟨Sample.coin, [], 0xfffffffd, []⟩ := by
      rw [same]
      rfl
    exact ⟨signed, run, Sample.scriptSig_not_finalized spends map scriptSig (by decide) _ _⟩

end Trinity
