import Trinity.Verify.Checks

/-!
Outside functions known at finitely many points, and the test wallet of the
signing crate (entropies `a0`, `b0`, `c0`, account `48'/1'/0'/2'` on regtest)
with one payment from it. Keys, hashes and signatures are those of the real
functions, so a run over these tables is a run of the program.
-/
namespace Trinity

open Outcome

/-- One child derivation: the left half of the HMAC is the tweak, the right
    half the chain code of the child. -/
structure ChildStep where
  parent : Xpub
  index : UInt32
  tweak : BitVec 256
  child : Xpub

structure Tables where
  xpubs : List (Str × Xpub)
  steps : List ChildStep
  hashes : List (Str × BitVec 256)
  addresses : List (Script × Str)
  txids : List (Transaction × BitVec 256)
  sighashes : List ((Transaction × Nat × Script × UInt64) × BitVec 256)
  verifying : List (BitVec 256 × EcdsaSignature × SecpPublicKey)

def ChildStep.data (s : ChildStep) : Str :=
  beBytes 33 s.parent.publicKey ++ beBytes 4 (BitVec.ofNat 32 s.index.toNat)

/-- Every public key of the tables is a point of the curve. -/
def Tables.primitives (t : Tables) : Primitives where
  xpubFromStr s := t.xpubs.lookup s
  publicKeyValid pk :=
    t.steps.any fun s => s.parent.publicKey == pk || s.child.publicKey == pk
  hmacSha512 key data :=
    match t.steps.find? fun s => s.parent.chainCode == key && s.data == data with
    | some s => s.tweak ++ s.child.chainCode
    | none => 0
  addExpTweak pk tweak :=
    (t.steps.find? fun s => s.parent.publicKey == pk && s.tweak == tweak).map fun s =>
      s.child.publicKey
  sha256 s := (t.hashes.lookup s).getD 0
  addressToString _ s := (t.addresses.lookup s).getD []
  computeTxid tx := (t.txids.lookup tx).getD 0
  p2wshSignatureHash tx i script value sighashType :=
    if sighashType = .all then t.sighashes.lookup (tx, i, script, value) else none
  verifyEcdsa msg sig pk := t.verifying.contains (msg, sig, pk)

namespace Sample

def xpubA : Str := bytes "tpubDFNmE7zW92HX" ++ bytes "VneAyXLrcCMJmJJG" ++
    bytes "8H33ze465AcrQLSz" ++ bytes "rw9h7NXRU9ZusxyV" ++ bytes "tT9HdkxRo4dj8QLP" ++
    bytes "ak7b8cvF959w1bcq" ++ bytes "GJ2ZfBDt9NyaHZY"

def xpubB : Str := bytes "tpubDEoDWKh5gTsR" ++ bytes "znYRzCQoseN6pzSi" ++
    bytes "3b3ro3E38figx2LF" ++ bytes "usDEC4erkHtbt4rC" ++ bytes "g89UzYZFSJ9o29S9" ++
    bytes "TgLeMLUb56mC6q2b" ++ bytes "iABSuzrZbGnXH1z"

def xpubC : Str := bytes "tpubDFcNt3Qof2m3" ++ bytes "qFBvBhxiXxcjG2u5" ++
    bytes "bzQjHAwUXo4Y5Gt1" ++ bytes "2UKcbKqQHc74SuEb" ++ bytes "i5wCfNorqCVKpds2" ++
    bytes "w3yQs4yedfx35tQ7" ++ bytes "KoPCfir7rNTubW4"

def receiveDescriptor : Str := bytes "wsh(sortedmulti(" ++ bytes "2," ++ bytes "[27f21145/" ++
    bytes "48'/1'/0'/2']" ++ xpubA ++ bytes "/0/*," ++ bytes "[e5968976/" ++
    bytes "48'/1'/0'/2']" ++ xpubB ++ bytes "/0/*," ++ bytes "[d057bc77/" ++
    bytes "48'/1'/0'/2']" ++ xpubC ++ bytes "/0/*))" ++ bytes "#9yqz0sly"

def changeDescriptor : Str := bytes "wsh(sortedmulti(" ++ bytes "2," ++ bytes "[27f21145/" ++
    bytes "48'/1'/0'/2']" ++ xpubA ++ bytes "/1/*," ++ bytes "[e5968976/" ++
    bytes "48'/1'/0'/2']" ++ xpubB ++ bytes "/1/*," ++ bytes "[d057bc77/" ++
    bytes "48'/1'/0'/2']" ++ xpubC ++ bytes "/1/*))" ++ bytes "#q3tc3k0v"

def fingerprintA : Fingerprint := 0x27f21145
def fingerprintB : Fingerprint := 0xe5968976
def fingerprintC : Fingerprint := 0xd057bc77

def accountA : Xpub :=
  ⟨0x238ab5f62054956e4358f35cbd7448cb3e0b0775631f557e097a611ce13fc5da,
    0x035d4d09d4bd3bd98047fcccd73e1b3e27b45ca5a45afe678438e6fe9a4021b19e⟩

def branchAExternal : Xpub :=
  ⟨0xeee02462c94905020e870750cb201423bb33f2c51e3cec6b06f45fcc98073996,
    0x03954ea5a5c47a8f54cbef6776edabc0937b3b206f844b13d22e17fbbb6fb6f3ba⟩

def childAExternal : Xpub :=
  ⟨0xb7ba58c5d65283798b0a3852af45ff32d7b4f5f5275492c5bf506c88428db9d6,
    0x03342c6ac0fb939817471558ddd9ffb26d03a02e015103428642fe7cb3a18e4793⟩

def branchAInternal : Xpub :=
  ⟨0x6a9ab97821a3345c0f5eaa66cbf46148738a032a23bf75d5478dacc7879205fe,
    0x0367ee8d62c58714b852defa182806a6e0900e42a121a7dfb39f1911e62b2fdf3a⟩

def childAInternal : Xpub :=
  ⟨0x578bceeab861ebc70ed79355dd119baa32f7d88be56bf7c068c1e182a2b7d8cb,
    0x02febb0305b4819f010c71b3381d24c934a11ea8761b776b63c3b96f061ce40f58⟩

def accountB : Xpub :=
  ⟨0x205ac44b112ef47b91de96ff21b58e294e948043bd80d0a7eac3c5a89d4ef6f6,
    0x03003b4f96c7297463f5284a1200744d1e4d4538e2b50e4705c26e70a32cf65cca⟩

def branchBExternal : Xpub :=
  ⟨0x5623574bdfbf8b2d64ea6bdc506e47930666afce981bf3384d4c63e2f5378685,
    0x03e23d6898b86eff4c7d8c439d1aab2015234ba434cfc0658223318a09728c5aa9⟩

def childBExternal : Xpub :=
  ⟨0x15967418303b9894ce247705eeb1bb863b37f27a7bf16797d705e87464e8139e,
    0x022b3f0c10088da767b5dba208e5de622b2f7b35ebd5fbd5571e22c66f1935dd8f⟩

def branchBInternal : Xpub :=
  ⟨0x91508ba17968ae260f3d977c5a2a0e591b3e036e0c4dbe4874549e1564274da1,
    0x03498a0dd3a760d629c95dd85d66d706d85b94aa775f8b393f14816b59924f1acd⟩

def childBInternal : Xpub :=
  ⟨0x4df8b1468cbc4cfdb82f07c214a6ce7cb502d93e1872995f0da75579497ba58c,
    0x032e72132bc2707764645628746d422056d92402fac0cd75541fcbcbe5e856cab1⟩

def accountC : Xpub :=
  ⟨0x4d05355b8eae42154707f5b262c22b0fa68f419f731fb175a58806b6f455caa7,
    0x0239f75df0c5967810cfe022d97f9d068e0e69b12d84693e5ca851faa43a77cc25⟩

def branchCExternal : Xpub :=
  ⟨0x47dd697cd45ced2c2f834e0eb486771766ec00c40d61ba03c92d0799d0b42c9a,
    0x031e33f4d5cb80f26d9ec29107afc32e66c9a536b9012c2c30d967ab6b9876e0da⟩

def childCExternal : Xpub :=
  ⟨0x5b12bc0d595ad6eacb41824b61094131708e340dbaed8dc444c04ed751ffb360,
    0x0341abc2c05b1375c419a4e2399879ac08bdd64eae8429fd91a4dc0d97c6d1caef⟩

def branchCInternal : Xpub :=
  ⟨0x365e36ec98b484383e3e77c5da4347291fe139ebea97a9579a35a89efc471954,
    0x0287ca4fd43a99d541869986cad431d6df10cfaa6df998eeefa068a38961f7dbfe⟩

def childCInternal : Xpub :=
  ⟨0xadd8a3d39955fc1ee36a52c6084b4ba31da6da349a70009674176d49915d0cb4,
    0x02ec527a3f7d78478e972ebc3fb6191cc98f01594c1fc61ba3babdc6b4a643172a⟩

def steps : List ChildStep := [
  ⟨accountA, 0, 0x2d3f1efde55ce32addea4b70f67b7d7f71b8fa228b2e7d5902deebf49370d62e,
    branchAExternal⟩,
  ⟨branchAExternal, 0, 0xf3173046015bf24e9cb014844c6dad556285edab1c11fdd181b22fdd0bf9e309,
    childAExternal⟩,
  ⟨accountA, 1, 0x745c5840964eb688e1f5b59ed0d810de4cda9c716b532c0f9da2ecbfd11a557e,
    branchAInternal⟩,
  ⟨branchAInternal, 0, 0xaa8712b5af3d07f6a61cc80a2a954c2bb3c906d4b4423e1a13ebb3343bfbf249,
    childAInternal⟩,
  ⟨accountB, 0, 0x4943acdd34bc6e1d8cd67f53f68ff46ca2f25a4a156f8cbbc0234820ab5c326b,
    branchBExternal⟩,
  ⟨branchBExternal, 0, 0x095ca83fbcf761ab472b49c8439b494ccdc571663b609c1fed42e9abfe071677,
    childBExternal⟩,
  ⟨accountB, 1, 0x529a6d1ad7891ab9cf271fd659bb54c5166995664e6485a804f74bff5e687176,
    branchBInternal⟩,
  ⟨branchBInternal, 0, 0x6f17f1f2f1c5abf22be38862e2e844acf66659cae8f22f4237b7f94f1c04de3c,
    childBInternal⟩,
  ⟨accountC, 0, 0x70ba6866931295bd2a1ef5d67afdc668ba588ce925ba18571121ddff579f2281,
    branchCExternal⟩,
  ⟨branchCExternal, 0, 0xa672427b10f5eac14b88630cf80bed9d374733d33bddf0c3315a17e71182553d,
    childCExternal⟩,
  ⟨accountC, 1, 0x76e62cab372e1ddda57103b6591e7ac63c3da08a5038f808fcca2b5e9e88a3a9,
    branchCInternal⟩,
  ⟨branchCInternal, 0, 0x3052a37702f141ffdf098999fe3228ddbf40f951697d40f3528282eba989e4a2,
    childCInternal⟩]

def origin : DerivationPath := [.hardened 48, .hardened 1, .hardened 0, .hardened 2]

def multisig (first second third : SecpPublicKey) : Script :=
  [0x52] ++ pushKey first ++ pushKey second ++ pushKey third ++ [0x53, 0xae]

def receiveScript : Script :=
  multisig childBExternal.publicKey childAExternal.publicKey childCExternal.publicKey

def changeScript : Script :=
  multisig childCInternal.publicKey childAInternal.publicKey childBInternal.publicKey

def receiveHash : BitVec 256 :=
  0x8b816f1e466d29f970c0e044900dd4b5942eae07d451176bc87c9b1b1fe20d7f

def changeHash : BitVec 256 :=
  0xa4706e67012d160ddc1fa70063318972f06782f5b32581efd4232562d73fc1e7

def recipientScript : Script := [0x00, 0x14] ++ List.replicate 20 0xaa

def recipientAddress : Str :=
  bytes "bcrt1q4242424242" ++ bytes "4242424242424242" ++ bytes "424242rt8pnt"

def coin : OutPoint := ⟨0x0101010101010101010101010101010101010101010101010101010101010101, 0⟩

def coinOutput : TxOut := ⟨100000, p2wshScript receiveHash⟩

def payment : Transaction where
  version := 2
  lockTime := 0
  input := [⟨coin, [], 0xfffffffd, []⟩]
  output := [⟨60000, recipientScript⟩, ⟨39000, p2wshScript changeHash⟩]

def emptied : Transaction := { payment with output := [⟨99000, recipientScript⟩] }

def legacyScript : Script := [0x76, 0xa9, 0x14] ++ List.replicate 20 0xaa ++ [0x88, 0xac]

def legacyAddress : Str := bytes "mw5McnxAx9Qqf4uL" ++ bytes "jWrvV14WwzmfgiQ9" ++ bytes "PX"

def receiveKeys : OrderedMap SecpPublicKey KeySource where
  entries := [
    (childBExternal.publicKey, fingerprintB, origin ++ [.normal 0, .normal 0]),
    (childAExternal.publicKey, fingerprintA, origin ++ [.normal 0, .normal 0]),
    (childCExternal.publicKey, fingerprintC, origin ++ [.normal 0, .normal 0])]
  sorted := by decide +kernel

def changeKeys : OrderedMap SecpPublicKey KeySource where
  entries := [
    (childCInternal.publicKey, fingerprintC, origin ++ [.normal 1, .normal 0]),
    (childAInternal.publicKey, fingerprintA, origin ++ [.normal 1, .normal 0]),
    (childBInternal.publicKey, fingerprintB, origin ++ [.normal 1, .normal 0])]
  sorted := by decide +kernel

def psbtInput : Input where
  nonWitnessUtxo := none
  witnessUtxo := some coinOutput
  partialSigs := .empty
  sighashType := none
  witnessScript := some receiveScript
  bip32Derivation := receiveKeys
  finalScriptSig := none
  finalScriptWitness := none
  proprietary := []

def psbt : Psbt where
  unsignedTx := payment
  inputs := [psbtInput]
  outputs := [⟨.empty, [], []⟩, ⟨changeKeys, [], []⟩]
  proprietary := []

def policy : VerifyPolicy where
  declaredRecipients := [recipientAddress]
  declaredAmountSats := 60000
  maxAbsoluteFee := 50000
  maxFeerate := 5000
  declaredFeeSats := none
  gapLimit := 1
  knownUtxos := ⟨[(coin, coinOutput)], by decide⟩
  changeDescriptor := some changeDescriptor
  network := .regtest

def paymentSighash : BitVec 256 :=
  0xfcc04c35bc1ed506af525efb37c4a393b48e38310447abeb6bff834293d19df2

def signatureA : EcdsaSignature where
  r := 0x3e2421cc95204b1af40e543838d2c1e5f363edc9bc01d486a47d8c5a4de1463
  s := 0x16ab087b7fd31690a28d42506ea98aa1227a9d91583cafefb261d875dc097ca3
  r_lt := by decide
  s_lt := by decide

def signatureB : EcdsaSignature where
  r := 0x515125d724c7fcce3c2a144aba681ac8c771d11006c468e30e9084133d6ea3a0
  s := 0x657f227d990c86d9e0603cbd481542e441963bd613bb0b3153227cc729bab27c
  r_lt := by decide
  s_lt := by decide

def tables : Tables where
  xpubs := [(xpubA, accountA), (xpubB, accountB), (xpubC, accountC)]
  steps := steps
  hashes := [(receiveScript, receiveHash), (changeScript, changeHash)]
  addresses := [(recipientScript, recipientAddress), (legacyScript, legacyAddress),
    (p2wshScript changeHash, bytes "bcrt1q53cxuecp95" ++ bytes "tqmhql5uqxxvvfwt" ++
      bytes "cx0qh4kvjcrm75yv" ++ bytes "jk94elc8ns3ndpp5")]
  txids := [(payment, 0x618c0b3dea190bdf806a5dde1df1ceceb6de55cb09443b9a974a39a1d7e1134f),
    (emptied, 0x12e11fc5507ecb4a7f185feb061ae5e1ff0605c5b8bf4a54b920f3744e857be4)]
  sighashes := [((payment, 0, receiveScript, 100000), paymentSighash)]
  verifying := [(paymentSighash, signatureA, childAExternal.publicKey),
    (paymentSighash, signatureB, childBExternal.publicKey)]

def env : Primitives := tables.primitives

def signed (psbt : Psbt) (pk : SecpPublicKey) (sig : EcdsaSignature) : Psbt where
  unsignedTx := psbt.unsignedTx
  inputs := psbt.inputs.map fun input =>
    { input with
      partialSigs := input.partialSigs.insert (.new pk) ⟨sig, .all⟩
      sighashType := some 1 }
  outputs := psbt.outputs
  proprietary := psbt.proprietary
  other := psbt.other

def wallet (branch : DerivationBranch) : ParsedDescriptor :=
  ⟨2, ⟨fingerprintA, bytes "48'/1'/0'/2'", xpubA, branch⟩,
    ⟨fingerprintB, bytes "48'/1'/0'/2'", xpubB, branch⟩,
    ⟨fingerprintC, bytes "48'/1'/0'/2'", xpubC, branch⟩⟩

theorem parsed_receive : parse env receiveDescriptor = .ok (wallet .external) := by
  decide +kernel

theorem parsed_change : parse env changeDescriptor = .ok (wallet .internal) := by
  decide +kernel

def child (fingerprint : Fingerprint) (branch : DerivationBranch) (key : Xpub) : DerivedChild :=
  ⟨fingerprint, branch, 0, key.publicKey, key.chainCode⟩

def receiveOutput : DerivedOutput where
  children := [child fingerprintA .external childAExternal,
    child fingerprintB .external childBExternal, child fingerprintC .external childCExternal]
  sortedPubkeys := [childBExternal.publicKey, childAExternal.publicKey, childCExternal.publicKey]
  witnessScript := receiveScript
  scriptPubkey := p2wshScript receiveHash

def changeOutput : DerivedOutput where
  children := [child fingerprintA .internal childAInternal,
    child fingerprintB .internal childBInternal, child fingerprintC .internal childCInternal]
  sortedPubkeys := [childCInternal.publicKey, childAInternal.publicKey, childBInternal.publicKey]
  witnessScript := changeScript
  scriptPubkey := p2wshScript changeHash

end Sample

end Trinity
