import Trinity.Keystore.Blob
import Trinity.Verify.Descriptor

/-!
The descriptor builder of the watch-only crate: `build.rs` and `path.rs`. Key
expressions are handed to the miniscript library, whose answers are parameters;
the builder checks slots, fingerprints, origins and the printed descriptors.
-/
namespace Trinity.Watch

open Outcome

inductive DescriptorError where
  | duplicateFingerprint (hex : Str)
  | multipathForbidden
  | privateKeyForbidden
  | invalidOriginPath (text : Str)
  | invalidKeyExpression (text : Str)
  | foreignGrammar (text : Str)
  | construction (text : Str)
  | json (text : Str)
  | invalidDocument (text : Str)
  deriving DecidableEq, Repr

inductive Network where
  | bitcoin
  | testnet
  | signet
  | regtest
  deriving DecidableEq, Repr

def Network.coinType : Network → UInt32
  | .bitcoin => 0
  | .testnet => 1
  | .signet => 1
  | .regtest => 1

inductive KeySource where
  | inApp
  | hardware (model : Str)
  deriving DecidableEq, Repr

def KeySource.isHardware : KeySource → Bool
  | .inApp => false
  | .hardware _ => true

structure XpubWithOrigin where
  fingerprint : Fingerprint
  originPath : Str
  xpub : Str
  deriving DecidableEq, Repr

structure KeyContribution where
  slot : KeySlot
  xpub : XpubWithOrigin
  birthdayHeight : UInt32
  wordCount : WordCount
  source : KeySource
  policyId : Option Str
  deriving DecidableEq, Repr

structure Triple (α : Type) where
  first : α
  second : α
  third : α
  deriving DecidableEq, Repr

def Triple.toList {α : Type} (t : Triple α) : List α := [t.first, t.second, t.third]

structure WalletDescriptors where
  formatVersion : UInt32
  network : Network
  createdAtUnix : UInt64
  receiveDescriptor : Str
  changeDescriptor : Str
  keys : Triple KeyContribution
  deriving DecidableEq, Repr

inductive DescriptorShape (Key : Type) where
  | wshSortedMulti (k : Nat) (pks : List Key)
  | wshMiniscript
  | other

/-- The miniscript library, and the wording of a path error of the bitcoin
    library. Errors are their texts. -/
structure Miniscript where
  Key : Type
  Descriptor : Type
  keyFromStr : Str → Except Str Key
  newWshSortedmulti : Nat → List Key → Except Str Descriptor
  toString : Descriptor → Str
  fromStr : Str → Except Str Descriptor
  shape : Descriptor → DescriptorShape Key
  isMultipath : Key → Bool
  pathError : Str → Str

def formatVersion : UInt32 := 1
def multisigThreshold : Nat := 2
def receiveSuffix : Str := bytes "0/*"
def changeSuffix : Str := bytes "1/*"

def slotText : KeySlot → Str
  | .a => bytes "A"
  | .b => bytes "B"
  | .c => bytes "C"

def decimal (n : Nat) : Str := bytes (toString n)

def hexChars : Str := bytes "0123456789abcdef"

def toHex (fingerprint : Fingerprint) : Str :=
  (beBytes 4 fingerprint).flatMap fun b =>
    [hexChars.getD (b.toNat / 16) 0, hexChars.getD (b.toNat % 16) 0]

def stripMaster (path : Str) : Str :=
  if startsWith path (bytes "m/") then path.drop 2 else path

def splitOnce (c : UInt8) (s : Str) : Option (Str × Str) :=
  if s.contains c then some (s.takeWhile (· ≠ c), (s.dropWhile (· ≠ c)).drop 1) else none

def hasMultipath (s : Str) : Bool := s.contains 60 || s.contains 59

def isAsciiAlphanumeric (b : UInt8) : Bool :=
  isAsciiDigit b || (65 ≤ b && b ≤ 90) || (97 ≤ b && b ≤ 122)

def expectedBip48Children (network : Network) : DerivationPath :=
  [.hardened 48, .hardened network.coinType, .hardened 0, .hardened 2]

def validatePublicXpub (xpub : Str) : Outcome DescriptorError Unit := do
  let lower := xpub.map toAsciiLowercase
  rejectIf (startsWith lower (bytes "xprv") ∨ startsWith lower (bytes "tprv")) .privateKeyForbidden
  rejectIf (hasMultipath xpub) .multipathForbidden
  rejectIf (¬ (startsWith xpub (bytes "xpub") ∨ startsWith xpub (bytes "tpub")))
    (.invalidKeyExpression (bytes "expected xpub or tpub, got prefix from " ++ xpub))

def assertNoMultipath (desc : Str) : Outcome DescriptorError Unit :=
  rejectIf (hasMultipath desc) .multipathForbidden

def assertDistinctReceiveChange (receive change : Str) : Outcome DescriptorError Unit := do
  rejectIf (containsStr (bytes "/1/*") receive ∨ containsStr (bytes "/0/*") change)
    (.construction (bytes "receive/change chain suffixes swapped"))
  rejectIf (receive = change)
    (.construction (bytes "receive and change descriptors must differ"))

def validateSlotsAndFingerprints (keys : Triple KeyContribution) :
    Outcome DescriptorError Unit := do
  let seenSlots ← keys.toList.foldlM (fun (seen : KeySlot → Bool) k => do
    rejectIf (seen k.slot) (.invalidDocument (bytes "duplicate key slot " ++ slotText k.slot))
    return Function.update seen k.slot true) (fun _ => false)
  rejectIf (¬ (seenSlots .a ∧ seenSlots .b ∧ seenSlots .c))
    (.invalidDocument (bytes "keys must cover slots A, B, and C"))
  forM [(keys.first, keys.second), (keys.first, keys.third), (keys.second, keys.third)]
    fun (a, b) => rejectIf (a.xpub.fingerprint = b.xpub.fingerprint)
      (.duplicateFingerprint (toHex a.xpub.fingerprint))

def orderBySlot (keys : Triple KeyContribution) :
    Outcome DescriptorError (Triple KeyContribution) := do
  let out := keys.toList.foldl
    (fun (out : KeySlot → Option KeyContribution) k => Function.update out k.slot (some k))
    (fun _ => none)
  let a ← expect (out .a)
  let b ← expect (out .b)
  let c ← expect (out .c)
  return ⟨a, b, c⟩

variable (ms : Miniscript)

def validateBip48Origin (path : Str) (network : Network) : Outcome DescriptorError Unit := do
  rejectIf (path.any isMultipathMarker) .multipathForbidden
  let trimmed := stripMaster path
  let actual ← okOr (DerivationPath.parse trimmed)
    (.invalidOriginPath (path ++ bytes " (" ++ ms.pathError trimmed ++ bytes ")"))
  rejectIf (actual ≠ expectedBip48Children network) (.invalidOriginPath path)

def keyExpressionText (xpub : XpubWithOrigin) (chainSuffix : Str) : Str :=
  bytes "[" ++ (toHex xpub.fingerprint ++ (bytes "/" ++ (stripMaster xpub.originPath ++
    (bytes "]" ++ (xpub.xpub ++ (bytes "/" ++ chainSuffix))))))

def keyExpression (xpub : XpubWithOrigin) (chainSuffix : Str) :
    Outcome DescriptorError ms.Key := do
  let expr := keyExpressionText xpub chainSuffix
  rejectIf (hasMultipath expr) .multipathForbidden
  ofExcept (ms.keyFromStr expr) fun e => .invalidKeyExpression (expr ++ bytes ": " ++ e)

def buildSortedmultiString (keys : Triple KeyContribution) (chainSuffix : Str) :
    Outcome DescriptorError Str := do
  let pks ← keys.toList.mapM fun k => keyExpression ms k.xpub chainSuffix
  let desc ← ofExcept (ms.newWshSortedmulti multisigThreshold pks) .construction
  return ms.toString desc

def validateShape (shape : DescriptorShape ms.Key) : Outcome DescriptorError Unit :=
  match shape with
  | .wshSortedMulti k pks => do
    rejectIf (k ≠ multisigThreshold) (.foreignGrammar
      (bytes "threshold must be " ++ decimal multisigThreshold ++ bytes ", got " ++ decimal k))
    rejectIf (pks.length ≠ 3)
      (.foreignGrammar (bytes "expected 3 keys, got " ++ decimal pks.length))
    forM pks fun pk => rejectIf (ms.isMultipath pk) .multipathForbidden
  | .wshMiniscript => fail (.foreignGrammar
      (bytes "wsh(miniscript) is not Trinity grammar; need wsh(sortedmulti(2,…))"))
  | .other => fail (.foreignGrammar (bytes "only wsh(sortedmulti(2,…)) is accepted"))

def validateTrinityDescriptor (desc : Str) : Outcome DescriptorError Unit := do
  assertNoMultipath desc
  let (body, checksum) ← okOr (splitOnce 35 desc)
    (.foreignGrammar (bytes "checksum required (BIP-380)"))
  rejectIf (checksum.length ≠ 8 ∨ ¬ checksum.all isAsciiAlphanumeric)
    (.foreignGrammar (bytes "invalid or missing BIP-380 checksum"))
  let parsed ← ofExcept (ms.fromStr desc) fun e =>
    .foreignGrammar (bytes "miniscript parse failed: " ++ e)
  validateShape ms (ms.shape parsed)
  rejectIf (containsStr (bytes "multi(") body ∧ ¬ containsStr (bytes "sortedmulti(") body)
    (.foreignGrammar (bytes "multi is forbidden; use sortedmulti (BIP-67)"))
  rejectIf (¬ startsWith body (bytes "wsh(sortedmulti(2,"))
    (.foreignGrammar (bytes "expected wsh(sortedmulti(2,…))"))

def validateContribution (network : Network) (k : KeyContribution) :
    Outcome DescriptorError Unit := do
  validatePublicXpub k.xpub.xpub
  validateBip48Origin ms k.xpub.originPath network
  rejectIf (¬ k.source.isHardware ∧ k.policyId.isSome)
    (.invalidDocument (bytes "policy_id is only valid for Hardware source keys"))

/-- What the builder does once the keys stand in slot order. -/
def buildOrdered (network : Network) (ordered : Triple KeyContribution) (createdAtUnix : UInt64) :
    Outcome DescriptorError WalletDescriptors := do
  let receive ← buildSortedmultiString ms ordered receiveSuffix
  let change ← buildSortedmultiString ms ordered changeSuffix
  assertNoMultipath receive
  assertNoMultipath change
  assertDistinctReceiveChange receive change
  validateTrinityDescriptor ms receive
  validateTrinityDescriptor ms change
  return ⟨formatVersion, network, createdAtUnix, receive, change, ordered⟩

def buildWalletDescriptors (network : Network) (keys : Triple KeyContribution)
    (createdAtUnix : UInt64) : Outcome DescriptorError WalletDescriptors := do
  validateSlotsAndFingerprints keys
  forM keys.toList (validateContribution ms network)
  let ordered ← orderBySlot keys
  buildOrdered ms network ordered createdAtUnix

end Trinity.Watch
