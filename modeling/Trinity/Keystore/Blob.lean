import Trinity.Lib.Outcome
import Trinity.Bitcoin.Psbt

/-!
Sealed key blobs as `blob.rs` opens them, the platform keystore that unwraps
their keys, and the outside functions signing rests on.
-/
namespace Trinity

open Outcome

inductive KeySlot where
  | a
  | b
  | c
  deriving DecidableEq, Repr

def KeySlot.fromU8 (v : UInt8) : Option KeySlot :=
  if v = 0 then some .a else if v = 1 then some .b else if v = 2 then some .c else none

def KeySlot.asU8 : KeySlot → UInt8
  | .a => 0
  | .b => 1
  | .c => 2

def KeySlot.hasDeviceBlob : KeySlot → Bool
  | .a => true
  | .b => true
  | .c => false

inductive WordCount where
  | twelve
  | twentyFour
  deriving DecidableEq, Repr

def WordCount.fromWords (v : UInt8) : Option WordCount :=
  if v = 12 then some .twelve else if v = 24 then some .twentyFour else none

def WordCount.words : WordCount → UInt8
  | .twelve => 12
  | .twentyFour => 24

@[simp] theorem WordCount.fromWords_words (count : WordCount) :
    WordCount.fromWords count.words = some count := by
  cases count <;> rfl

theorem WordCount.fromWords_eq_some {v : UInt8} {count : WordCount} :
    WordCount.fromWords v = some count ↔ v = count.words := by
  constructor
  · intro read
    unfold WordCount.fromWords at read
    split_ifs at read with twelve twentyFour
    · cases read
      exact twelve
    · cases read
      exact twentyFour
  · intro byte
    rw [byte, WordCount.fromWords_words]

def WordCount.entropyBytes : WordCount → Nat
  | .twelve => 16
  | .twentyFour => 32

inductive PlatformError where
  | unwrapRejected
  | keyInvalidated
  | wrapFailed
  | provisionFailed
  | destroyFailed
  | invalidSlot
  | unexpected
  deriving DecidableEq, Repr

inductive BlobError where
  | truncated
  | badMagic
  | unsupportedVersion (version : UInt8)
  | unsupportedReserved
  | invalidSlot
  | invalidWordCount (count : UInt8)
  | entropyLength (expected got : Nat)
  | csRng
  | aead
  | plaintextLength
  deriving DecidableEq, Repr

structure DecodedBlob where
  slot : KeySlot
  wordCount : WordCount
  birthday : UInt32
  entropy : Str
  createdAt : UInt64
  deriving DecidableEq, Repr

structure ParsedHeader where
  slot : KeySlot
  wordCount : WordCount
  birthday : UInt32
  deriving DecidableEq, Repr

structure Xpriv where
  chainCode : BitVec 256
  privateKey : BitVec 256
  deriving DecidableEq, Repr

structure SignPrimitives extends Primitives where
  aeadOpen : Str → Str → Str → Str → Option Str
  mnemonicSeed : Str → Option Str
  newMaster : Str → Option Xpriv
  xprivFingerprint : Xpriv → Fingerprint
  derivePriv : Xpriv → DerivationPath → Option Xpriv
  publicKeyFromSecretKey : BitVec 256 → SecpPublicKey
  signEcdsaLowR : BitVec 256 → BitVec 256 → EcdsaSignature
  verifyTransaction : Transaction → OrderedMap OutPoint TxOut → Bool

/-- Signing primitives with the sealing half of the cipher: key, nonce,
    associated data, message. -/
structure StatePrimitives extends SignPrimitives where
  aeadSeal : Str → Str → Str → Str → Option Str

def magic : Str := bytes "TRIN"
def headerLen : Nat := 36
def tagLen : Nat := 16
def createdAtLen : Nat := 8

def leValue (s : Str) : Nat := s.foldr (fun b acc => b.toNat + 256 * acc) 0

def parseHeader (header : Str) : Outcome BlobError ParsedHeader := do
  rejectIf (header.take 4 ≠ magic) .badMagic
  let version ← expect header[4]?
  rejectIf (version ≠ 1) (.unsupportedVersion version)
  let reserved ← expect header[6]?
  rejectIf (reserved ≠ 0) .unsupportedReserved
  let slotByte ← expect header[5]?
  let slot ← okOr ((KeySlot.fromU8 slotByte).filter KeySlot.hasDeviceBlob) .invalidSlot
  let wordCountByte ← expect header[7]?
  let wordCount ← okOr (WordCount.fromWords wordCountByte) (.invalidWordCount wordCountByte)
  return ⟨slot, wordCount, UInt32.ofNat (leValue (header.drop 32))⟩

/-- `decrypt`: the header is the associated data, bytes 8 to 31 the nonce. -/
def decrypt (env : SignPrimitives) (kek blob : Str) : Outcome BlobError DecodedBlob := do
  rejectIf (blob.length < headerLen + tagLen) .truncated
  let header := blob.take headerLen
  let parsed ← parseHeader header
  let plaintext ← okOr
    (env.aeadOpen kek ((header.drop 8).take 24) header (blob.drop headerLen)) .aead
  let expected := parsed.wordCount.entropyBytes + createdAtLen
  rejectIf (plaintext.length ≠ expected) .plaintextLength
  return ⟨parsed.slot, parsed.wordCount, parsed.birthday, plaintext.take (expected - createdAtLen),
    UInt64.ofNat (leValue (plaintext.drop (expected - createdAtLen)))⟩

theorem leValue_le {n x : Nat} (fits : x < 256 ^ n) : leValue (Bytes.le n x) = x :=
  (Bytes.foldr_le n x).trans (Nat.mod_eq_of_lt fits)

theorem u64_read (x : UInt64) : UInt64.ofNat (leValue (Bytes.le 8 x.toNat)) = x := by
  rw [leValue_le (lt_of_lt_of_eq x.toNat_lt (by norm_num))]
  exact UInt64.ofNat_toNat

theorem u32_read (x : UInt32) : UInt32.ofNat (leValue (Bytes.le 4 x.toNat)) = x := by
  rw [leValue_le (lt_of_lt_of_eq x.toNat_lt (by norm_num))]
  exact UInt32.ofNat_toNat

theorem parseHeader_never_aborts {header : Str} (whole : header.length = headerLen) :
    OnlyFails (fun _ => True) (parseHeader header) := by
  have inside : ∀ n < headerLen, ∃ b, header[n]? = some b := by
    intro n below
    exact ⟨_, List.getElem?_eq_getElem (whole ▸ below)⟩
  unfold parseHeader
  apply onlyFails_rejectIf_bind trivial
  intro _
  apply onlyFails_bind (onlyFails_expect (inside 4 (by decide)))
  intro version _
  apply onlyFails_rejectIf_bind trivial
  intro _
  apply onlyFails_bind (onlyFails_expect (inside 6 (by decide)))
  intro reserved _
  apply onlyFails_rejectIf_bind trivial
  intro _
  apply onlyFails_bind (onlyFails_expect (inside 5 (by decide)))
  intro slotByte _
  apply onlyFails_okOr_bind trivial
  intro slot _
  apply onlyFails_bind (onlyFails_expect (inside 7 (by decide)))
  intro wordCountByte _
  apply onlyFails_okOr_bind trivial
  intro wordCount _
  exact onlyFails_ok _

theorem decrypt_never_aborts (env : SignPrimitives) (kek blob : Str) :
    OnlyFails (fun _ => True) (decrypt env kek blob) := by
  unfold decrypt
  apply onlyFails_rejectIf_bind trivial
  intro long
  have whole : (blob.take headerLen).length = headerLen := by
    rw [List.length_take]
    omega
  refine onlyFails_bind (parseHeader_never_aborts whole) ?_
  intro parsed _
  apply onlyFails_okOr_bind trivial
  intro plaintext _
  apply onlyFails_rejectIf_bind trivial
  intro _
  exact onlyFails_ok _

end Trinity
