import Trinity.Lib.Outcome
import Trinity.Bitcoin.Psbt

/-!
Descriptor checksum and grammar: `wsh(sortedmulti(2,key,key,key))#checksum`,
as `checksum.rs` and `parse.rs` read it. The cursor is the unread rest of the
descriptor body.
-/
namespace Trinity

open Outcome

inductive ParseError where
  | missingChecksum
  | malformedChecksum
  | invalidChecksum
  | invalidCharset
  | wrongTopLevel
  | expectedSortedMulti
  | wrongThreshold (k : Str)
  | wrongKeyCount (n : Nat)
  | malformedFingerprint
  | malformedOriginPath (path : Str)
  | invalidOriginPath (path : Str)
  | multipathForbidden
  | malformedXpub
  | privateKeyForbidden
  | malformedDerivation
  | malformedKeyExpression
  | trailingGarbage
  | unexpectedEof
  deriving DecidableEq, Repr

inductive DerivationBranch where
  | external
  | internal
  deriving DecidableEq, Repr

structure KeyExpr where
  fingerprint : Fingerprint
  originPath : Str
  xpub : Str
  derivation : DerivationBranch
  deriving DecidableEq, Repr

structure ParsedDescriptor where
  k : UInt32
  key0 : KeyExpr
  key1 : KeyExpr
  key2 : KeyExpr
  deriving DecidableEq, Repr

def ParsedDescriptor.keys (d : ParsedDescriptor) : List KeyExpr := [d.key0, d.key1, d.key2]

/-- `&s[..i]`, which aborts unless `i` is a character boundary. -/
def sliceTo (s : Str) (i : Nat) : Outcome ParseError Str := do
  abortUnless (isCharBoundary s i)
  return s.take i

def sliceFrom (s : Str) (i : Nat) : Outcome ParseError Str := do
  abortUnless (isCharBoundary s i)
  return s.drop i

def inputCharset : Str :=
  bytes "0123456789()[],'/*ab" ++ bytes "cdefgh@:$%" ++ [0x7b, 0x7d] ++
  bytes "IJKLMNOPQRSTUVWXYZ&+" ++ bytes "-.;<=>?!^_|~" ++
  bytes "ijklmnopqrstuvwxyzAB" ++ bytes "CDEFGH" ++ [0x60] ++ bytes "#\"\\ "

def checksumCharset : Str := bytes "qpzry9x8gf2tvdw0" ++ bytes "s3jn54khce6mua7l"

def generator : List Nat :=
  [0xf5dee51989, 0xa9fdca3312, 0x1bab10e32d, 0x3706b1677a, 0x644d626ffd]

/-- One symbol of `polymod`. The state stays below 2^40, so the source's
    64-bit words lose nothing. -/
def polymodStep (chk value : Nat) : Nat :=
  let top := chk >>> 35
  let shifted := ((chk &&& 0x7ffffffff) <<< 5) ^^^ value
  (generator.zipIdx).foldl
    (fun acc g => if (top >>> g.2) &&& 1 = 1 then acc ^^^ g.1 else acc) shifted

def polymod (symbols : List Nat) : Nat := symbols.foldl polymodStep 1

/-- `expand` with the pending groups as an argument: every third group is
    flushed as one more symbol. -/
def expandFrom : List Nat → Str → Option (List Nat)
  | groups, [] =>
    match groups with
    | [g] => some [g]
    | [g, h] => some [g * 3 + h]
    | _ => some []
  | groups, c :: rest =>
    match inputCharset.findIdx? (· == c) with
    | none => none
    | some v =>
      match groups with
      | [g, h] =>
        (expandFrom [] rest).map fun out => (v &&& 31) :: (g * 9 + h * 3 + (v >>> 5)) :: out
      | _ => (expandFrom (groups ++ [v >>> 5]) rest).map fun out => (v &&& 31) :: out

def expand (s : Str) : Outcome ParseError (List Nat) := okOr (expandFrom [] s) .invalidCharset

def verifyChecksum (s : Str) : Outcome ParseError Unit := do
  rejectIf (s.length < 10) .missingChecksum
  let hashPos := s.length - 9
  let hash ← expect s[hashPos]?
  rejectIf (hash ≠ 35) .missingChecksum
  abortUnless (hashPos + 1 ≤ s.length)
  let checksum := s.drop (hashPos + 1)
  abortUnless (checksum.length = 8)
  rejectIf (¬ checksum.all fun c => checksumCharset.contains c) .malformedChecksum
  let payload ← sliceTo s hashPos
  let symbols ← expand payload
  let tail ← checksum.mapM fun c => expect (checksumCharset.findIdx? (· == c))
  rejectIf (polymod (symbols ++ tail) ≠ 1) .invalidChecksum

def fingerprintFromHex (s : Str) : Option Fingerprint :=
  if s.length ≠ 8 then none
  else
    (s.mapM hexNibble).map fun nibbles =>
      BitVec.ofNat 32 (nibbles.foldl (fun acc n => acc * 16 + n) 0)

def originIndex (path segment : Str) : Outcome ParseError Nat := do
  rejectIf segment.isEmpty (.malformedOriginPath path)
  rejectIf (segment.getLast? ≠ some 39 ∧ segment.getLast? ≠ some 104) (.malformedOriginPath path)
  let num ← sliceTo segment (segment.length - 1)
  rejectIf num.isEmpty (.malformedOriginPath path)
  rejectIf (¬ num.all isAsciiDigit) (.malformedOriginPath path)
  rejectIf (1 < num.length ∧ num.head? = some 48) (.malformedOriginPath path)
  let n ← okOr (parseUnsigned (2 ^ 64) num) (.malformedOriginPath path)
  rejectIf (0x80000000 ≤ n) (.malformedOriginPath path)
  return n

def isMultipathMarker (b : UInt8) : Bool := b == 60 || b == 59 || b == 42

/-- `48'/coin'/0'/2'` with coin 0 or 1, after an optional `m/`. -/
def validateOriginPath (path : Str) : Outcome ParseError Unit := do
  rejectIf (path.any isMultipathMarker) .multipathForbidden
  let trimmed := if startsWith path (bytes "m/") then path.drop 2 else path
  let segments := splitOn 47 trimmed
  rejectIf (segments.length < 4) (.malformedOriginPath path)
  rejectIf (segments.length ≠ 4) (.invalidOriginPath path)
  let indices ← segments.mapM (originIndex path)
  match indices with
  | [purpose, coin, account, script] =>
    rejectIf (¬ (purpose = 48 ∧ account = 0 ∧ script = 2 ∧ coin ≤ 1)) (.invalidOriginPath path)
  | _ => fail (.invalidOriginPath path)

def expectChar (c : UInt8) (rest : Str) : Outcome ParseError Str :=
  if startsWith rest [c] then sliceFrom rest 1
  else if rest.isEmpty then fail .unexpectedEof
  else fail .trailingGarbage

def splitToken (rest : Str) (n : Nat) : Outcome ParseError (Str × Str) := do
  let token ← sliceTo rest n
  let rest ← sliceFrom rest n
  return (token, rest)

def takeUntilChar (c : UInt8) (rest : Str) : Outcome ParseError (Str × Str) :=
  if rest.contains c then splitToken rest (rest.takeWhile (· ≠ c)).length
  else fail .unexpectedEof

def takeWhileChar (p : UInt8 → Bool) (rest : Str) : Outcome ParseError (Str × Str) :=
  splitToken rest (rest.takeWhile p).length

def splitXpubAndDerivation (rest : Str) : Outcome ParseError (Str × DerivationBranch × Nat) := do
  let token ← sliceTo rest (rest.takeWhile fun c => c ≠ 44 ∧ c ≠ 41).length
  rejectIf (token.length < 4) .malformedKeyExpression
  let branch ←
    if endsWith token (bytes "/0/*") then pure .external
    else if endsWith token (bytes "/1/*") then pure .internal
    else do
      rejectIf (token.any fun b => b == 60 || b == 59) .multipathForbidden
      fail .malformedDerivation
  let xpub ← sliceTo token (token.length - 4)
  rejectIf xpub.isEmpty .malformedXpub
  return (xpub, branch, token.length)

variable (env : Primitives)

def parseKeyexpr (rest : Str) : Outcome ParseError (KeyExpr × Str) := do
  rejectIf (¬ startsWith rest (bytes "[")) .malformedKeyExpression
  let rest ← sliceFrom rest 1
  let (fpStr, rest) ← takeWhileChar (fun c => c ≠ 47 ∧ c ≠ 93) rest
  rejectIf (fpStr.length ≠ 8) .malformedFingerprint
  let fingerprint ← okOr (fingerprintFromHex fpStr) .malformedFingerprint
  rejectIf (¬ startsWith rest (bytes "/")) .malformedKeyExpression
  let rest ← sliceFrom rest 1
  let (originPath, rest) ← takeWhileChar (fun c => c ≠ 93 ∧ c ≠ 44 ∧ c ≠ 41) rest
  rejectIf (¬ startsWith rest (bytes "]")) .malformedKeyExpression
  rejectIf originPath.isEmpty (.malformedOriginPath (bytes "empty"))
  validateOriginPath originPath
  let rest ← sliceFrom rest 1
  let (xpub, branch, consumed) ← splitXpubAndDerivation rest
  let rest ← sliceFrom rest consumed
  rejectIf (startsWith xpub (bytes "xprv") ∨ startsWith xpub (bytes "tprv")) .privateKeyForbidden
  rejectIf (¬ (startsWith xpub (bytes "xpub") ∨ startsWith xpub (bytes "tpub"))) .malformedXpub
  rejectIf (xpub.any isMultipathMarker) .multipathForbidden
  rejectIf ((env.xpubFromStr xpub).isNone) .malformedXpub
  return (⟨fingerprint, originPath, xpub, branch⟩, rest)

/-- Number of further key expressions, each up to the next comma or closer. Both
    are ASCII, so the loop slices at character boundaries only. -/
def countExtraKeys (rest : Str) : Nat := (rest.takeWhile (· ≠ 41)).count 44

def parse (descriptor : Str) : Outcome ParseError ParsedDescriptor := do
  verifyChecksum descriptor
  let hashPos ← expect (rfind 35 descriptor)
  let rest ← sliceTo descriptor hashPos
  rejectIf (¬ startsWith rest (bytes "wsh(")) .wrongTopLevel
  let rest ← sliceFrom rest 4
  rejectIf (¬ startsWith rest (bytes "sortedmulti(")) .expectedSortedMulti
  let rest ← sliceFrom rest 12
  let (kToken, rest) ← takeUntilChar 44 rest
  rejectIf (kToken ≠ bytes "2") (.wrongThreshold kToken)
  let rest ← expectChar 44 rest
  let (key0, rest) ← parseKeyexpr env rest
  let rest ← expectChar 44 rest
  let (key1, rest) ← parseKeyexpr env rest
  let rest ← expectChar 44 rest
  let (key2, rest) ← parseKeyexpr env rest
  rejectIf (startsWith rest (bytes ",")) (.wrongKeyCount (3 + countExtraKeys rest))
  let rest ← expectChar 41 rest
  let rest ← expectChar 41 rest
  rejectIf (¬ rest.isEmpty) .trailingGarbage
  return ⟨2, key0, key1, key2⟩

end Trinity
