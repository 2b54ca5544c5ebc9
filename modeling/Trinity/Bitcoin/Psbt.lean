import Trinity.Lib.Word
import Trinity.Bitcoin.Transaction

/-!
Partially signed transactions, key origins and signatures of the `bitcoin`
crate. A public key is its 33-byte compressed serialization; curve membership
is a question to the outside library, not part of the type.
-/
namespace Trinity

abbrev Fingerprint : Type := BitVec 32

abbrev SecpPublicKey : Type := BitVec 264

def curveOrder : Nat := 0xfffffffffffffffffffffffffffffffebaaedce6af48a03bbfd25e8cd0364141

inductive ChildNumber where
  | normal (index : UInt32)
  | hardened (index : UInt32)
  deriving DecidableEq, Repr

abbrev DerivationPath : Type := List ChildNumber

abbrev KeySource : Type := Fingerprint × DerivationPath

/-- Decimal index below 2^31, hardened with a trailing `'` or `h`. -/
def ChildNumber.parse (s : Str) : Option ChildNumber :=
  match s.getLast? with
  | some last =>
    if last = 39 ∨ last = 104 then
      (parseUnsigned (2 ^ 32) s.dropLast).bind fun n =>
        if n < 2 ^ 31 then some (.hardened (UInt32.ofNat n)) else none
    else
      (parseUnsigned (2 ^ 32) s).bind fun n =>
        if n < 2 ^ 31 then some (.normal (UInt32.ofNat n)) else none
  | none => none

/-- One leading `m/` is skipped; the rest is split at every slash. -/
def DerivationPath.parse (s : Str) : Option DerivationPath :=
  if s.isEmpty ∨ s = bytes "m" ∨ s = bytes "m/" then some []
  else
    let path := if startsWith s (bytes "m/") then s.drop 2 else s
    (splitOn 47 path).mapM ChildNumber.parse

inductive EcdsaSighashType where
  | all
  | none
  | single
  | allPlusAnyoneCanPay
  | nonePlusAnyoneCanPay
  | singlePlusAnyoneCanPay
  deriving DecidableEq, Repr

/-- The `sighash_type` field of an input holds any 32-bit value. -/
abbrev PsbtSighashType : Type := UInt32

def PsbtSighashType.ecdsaHashTy (t : PsbtSighashType) : Option EcdsaSighashType :=
  if t = 0x01 then some .all
  else if t = 0x02 then some .none
  else if t = 0x03 then some .single
  else if t = 0x81 then some .allPlusAnyoneCanPay
  else if t = 0x82 then some .nonePlusAnyoneCanPay
  else if t = 0x83 then some .singlePlusAnyoneCanPay
  else none

structure EcdsaSignature where
  r : Nat
  s : Nat
  r_lt : r < curveOrder
  s_lt : s < curveOrder
  deriving DecidableEq, Repr

/-- `normalize_s` of libsecp256k1: negate `s` when it exceeds half the order. -/
def EcdsaSignature.normalizeS (sig : EcdsaSignature) : EcdsaSignature :=
  if high : curveOrder / 2 < sig.s then
    { sig with s := curveOrder - sig.s, s_lt := by have := sig.s_lt; omega }
  else sig

def EcdsaSignature.LowS (sig : EcdsaSignature) : Prop := sig.s ≤ curveOrder / 2

theorem EcdsaSignature.normalizeS_eq_self {sig : EcdsaSignature} :
    sig.normalizeS = sig ↔ sig.LowS := by
  have odd : curveOrder % 2 = 1 := by decide
  unfold normalizeS LowS
  constructor
  · intro same
    split at same
    · have scalar := congrArg EcdsaSignature.s same
      simp only at scalar
      omega
    · omega
  · intro low
    rw [dif_neg (by omega)]

structure Signature where
  signature : EcdsaSignature
  sighashType : EcdsaSighashType
  deriving DecidableEq, Repr

structure PublicKey where
  compressed : Bool
  inner : SecpPublicKey
  deriving DecidableEq, Repr

def PublicKey.new (pk : SecpPublicKey) : PublicKey := ⟨true, pk⟩

/-- Uncompressed keys come before compressed ones. -/
def PublicKey.code (k : PublicKey) : Nat := k.compressed.toNat * 2 ^ 264 + k.inner.toNat

theorem PublicKey.code_injective : Function.Injective PublicKey.code := by
  rintro ⟨c, k⟩ ⟨c', k'⟩ same
  have low := k.isLt
  have low' := k'.isLt
  simp only [PublicKey.code] at same
  have flag : c.toNat = c'.toNat := by omega
  have point : k.toNat = k'.toNat := by omega
  have same : c = c' := by
    revert flag
    cases c <;> cases c' <;> decide
  rw [BitVec.eq_of_toNat_eq point, same]

instance : LinearOrder PublicKey := orderByCode PublicKey.code PublicKey.code_injective

/-- Proprietary fields are only counted: serialized key and value. -/
abbrev Proprietary : Type := List (Str × Str)

/-- The fields of a map that no code here reads or writes, as the key-value
    pairs of the serialized PSBT. -/
abbrev OtherFields : Type := List (Str × Str)

structure Input where
  nonWitnessUtxo : Option Transaction
  witnessUtxo : Option TxOut
  partialSigs : OrderedMap PublicKey Signature
  sighashType : Option PsbtSighashType
  witnessScript : Option Script
  bip32Derivation : OrderedMap SecpPublicKey KeySource
  finalScriptSig : Option Script
  finalScriptWitness : Option (List Str)
  proprietary : Proprietary
  other : OtherFields := []
  deriving DecidableEq

structure Output where
  bip32Derivation : OrderedMap SecpPublicKey KeySource
  proprietary : Proprietary
  other : OtherFields := []
  deriving DecidableEq

structure Psbt where
  unsignedTx : Transaction
  inputs : List Input
  outputs : List Output
  proprietary : Proprietary
  other : OtherFields := []
  deriving DecidableEq

structure Xpub where
  chainCode : BitVec 256
  publicKey : SecpPublicKey
  deriving DecidableEq, Repr

/-- The hash, curve and encoding functions of the outside libraries. -/
structure Primitives where
  xpubFromStr : Str → Option Xpub
  publicKeyValid : SecpPublicKey → Bool
  hmacSha512 : BitVec 256 → Str → BitVec 512
  addExpTweak : SecpPublicKey → BitVec 256 → Option SecpPublicKey
  sha256 : Str → BitVec 256
  addressToString : Network → Script → Str
  computeTxid : Transaction → BitVec 256
  p2wshSignatureHash : Transaction → Nat → Script → UInt64 → EcdsaSighashType → Option (BitVec 256)
  verifyEcdsa : BitVec 256 → EcdsaSignature → SecpPublicKey → Bool

end Trinity
