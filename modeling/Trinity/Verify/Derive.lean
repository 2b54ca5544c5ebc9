import Trinity.Verify.Descriptor

/-!
Public child derivation, key sorting and script construction: `ckd.rs`,
`bip67.rs`, `witness.rs` and `derive.rs`.
-/
namespace Trinity

open Outcome

inductive DeriveError where
  | hardenedIndex (index : UInt32)
  | invalidPublicKey
  | invalidTweak
  | malformedXpub
  | invalidMultisigParams (k n : UInt32)
  | invalidCompressedPubkey (i : Nat)
  deriving DecidableEq, Repr

structure ChildKey where
  chainCode : BitVec 256
  publicKey : SecpPublicKey
  deriving DecidableEq, Repr

structure DerivedChild where
  fingerprint : Fingerprint
  branch : DerivationBranch
  addressIndex : UInt32
  publicKey : SecpPublicKey
  chainCode : BitVec 256
  deriving DecidableEq, Repr

structure DerivedOutput where
  children : List DerivedChild
  sortedPubkeys : List SecpPublicKey
  witnessScript : Script
  scriptPubkey : Script
  deriving DecidableEq, Repr

def maxNonHardenedIndex : UInt32 := 0x7fffffff

/-- `SecretKey::from_slice`: a nonzero scalar below the group order. -/
def parseIl (il : BitVec 256) : Outcome DeriveError (BitVec 256) :=
  if 0 < il.toNat ∧ il.toNat < curveOrder then .ok il else fail .invalidTweak

variable (env : Primitives)

def ckdPub (parentChainCode : BitVec 256) (parentPubkey : SecpPublicKey) (index : UInt32) :
    Outcome DeriveError ChildKey := do
  rejectIf (index &&& 0x80000000 ≠ 0) (.hardenedIndex index)
  rejectIf (¬ env.publicKeyValid parentPubkey) .invalidPublicKey
  let i := env.hmacSha512 parentChainCode
    (beBytes 33 parentPubkey ++ beBytes 4 (BitVec.ofNat 32 index.toNat))
  let il ← parseIl (i.extractLsb' 256 256)
  let childPk ← okOr (env.addExpTweak parentPubkey il) .invalidTweak
  return ⟨i.extractLsb' 0 256, childPk⟩

def decodeXpub (xpub : Str) : Outcome DeriveError Xpub := okOr (env.xpubFromStr xpub) .malformedXpub

def DerivationBranch.index : DerivationBranch → UInt32
  | .external => 0
  | .internal => 1

def deriveChild (key : KeyExpr) (addressIndex : UInt32) : Outcome DeriveError DerivedChild := do
  rejectIf (maxNonHardenedIndex < addressIndex) (.hardenedIndex addressIndex)
  let xp ← decodeXpub env key.xpub
  let mid ← ckdPub env xp.chainCode xp.publicKey key.derivation.index
  let child ← ckdPub env mid.chainCode mid.publicKey addressIndex
  rejectIf (¬ env.publicKeyValid child.publicKey) .invalidPublicKey
  return ⟨key.fingerprint, key.derivation, addressIndex, child.publicKey, child.chainCode⟩

def sortPubkeys (keys : List SecpPublicKey) : List SecpPublicKey := keys.insertionSort (· ≤ ·)

def keyTag (pk : SecpPublicKey) : Nat := pk.toNat / 2 ^ 256

def pushInt (n : UInt32) : Script := [0x50 + n.toUInt8]

def pushKey (pk : SecpPublicKey) : Script := 0x21 :: beBytes 33 pk

def buildCheckmultisigScript (k : UInt32) (sorted : List SecpPublicKey) :
    Outcome DeriveError Script := do
  let n := UInt32.ofNat sorted.length
  rejectIf (¬ (1 ≤ k ∧ k ≤ 16) ∨ ¬ (1 ≤ n ∧ n ≤ 16) ∨ n < k) (.invalidMultisigParams k n)
  forM sorted.zipIdx fun (pk, i) =>
    rejectIf (keyTag pk ≠ 2 ∧ keyTag pk ≠ 3) (.invalidCompressedPubkey i)
  return pushInt k ++ (sorted.map pushKey).flatten ++ pushInt n ++ [0xae]

def witnessScript2of3 (sorted : List SecpPublicKey) : Outcome DeriveError Script :=
  buildCheckmultisigScript 2 sorted

def p2wshScriptPubkey (witnessScript : Script) : Script := p2wshScript (env.sha256 witnessScript)

def deriveAt (descriptor : ParsedDescriptor) (addressIndex : UInt32) :
    Outcome DeriveError DerivedOutput := do
  let c0 ← deriveChild env descriptor.key0 addressIndex
  let c1 ← deriveChild env descriptor.key1 addressIndex
  let c2 ← deriveChild env descriptor.key2 addressIndex
  let children := [c0, c1, c2]
  let sorted := sortPubkeys (children.map DerivedChild.publicKey)
  let script ← witnessScript2of3 sorted
  return ⟨children, sorted, script, p2wshScriptPubkey env script⟩

variable {env}

theorem deriveAt_spec {descriptor : ParsedDescriptor} {index : UInt32} {out : DerivedOutput}
    (derived : deriveAt env descriptor index = .ok out) :
    ∃ c0 c1 c2, deriveChild env descriptor.key0 index = .ok c0 ∧
      deriveChild env descriptor.key1 index = .ok c1 ∧
      deriveChild env descriptor.key2 index = .ok c2 ∧
      out.children = [c0, c1, c2] ∧
      out.sortedPubkeys = sortPubkeys [c0.publicKey, c1.publicKey, c2.publicKey] ∧
      witnessScript2of3 out.sortedPubkeys = .ok out.witnessScript ∧
      out.scriptPubkey = p2wshScript (env.sha256 out.witnessScript) := by
  simp only [deriveAt, bind_eq_ok] at derived
  obtain ⟨c0, first, c1, second, c2, third, script, built, made⟩ := derived
  simp only [pure_ok, Except.ok.injEq] at made
  subst made
  exact ⟨c0, c1, c2, first, second, third, rfl, rfl, built, rfl⟩

theorem mem_sortPubkeys {pk : SecpPublicKey} {keys : List SecpPublicKey} :
    pk ∈ sortPubkeys keys ↔ pk ∈ keys := by
  simp [sortPubkeys]

theorem deriveAt_hasAddress {descriptor : ParsedDescriptor} {index : UInt32} {out : DerivedOutput}
    (derived : deriveAt env descriptor index = .ok out) : out.scriptPubkey.hasAddress = true := by
  obtain ⟨_, _, _, _, _, _, _, _, _, script⟩ := deriveAt_spec derived
  rw [script]
  exact p2wshScript_hasAddress _

end Trinity
