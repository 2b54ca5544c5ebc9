import Mathlib.Algebra.Ring.Nat
import Mathlib.Tactic.Common
import Trinity.Lib.Bytes

/-!
Byte strings and the string operations the code applies to them. A `&str` is
the list of its UTF-8 bytes. Every character the code searches for is ASCII,
so a search over characters and a search over bytes stop at the same place.
-/
namespace Trinity

abbrev Str : Type := List UInt8

def bytes (s : String) : Str := s.toUTF8.data.toList

def startsWith (s lit : Str) : Bool := lit.isPrefixOf s

def endsWith (s lit : Str) : Bool := lit.isSuffixOf s

/-- `str::is_char_boundary`: not behind the end and not in front of a
    continuation byte. -/
def isCharBoundary (s : Str) (i : Nat) : Bool :=
  match s[i]? with
  | some b => i == 0 || b < 0x80 || 0xc0 ≤ b
  | none => i == s.length

def splitOn (c : UInt8) : Str → List Str
  | [] => [[]]
  | b :: rest =>
    if b = c then [] :: splitOn c rest
    else
      match splitOn c rest with
      | [] => [[b]]
      | segment :: segments => (b :: segment) :: segments

def rfind (c : UInt8) (s : Str) : Option Nat :=
  (s.reverse.findIdx? (· == c)).map fun back => s.length - 1 - back

def isAsciiDigit (b : UInt8) : Bool := 48 ≤ b && b ≤ 57

def digitsValue (s : Str) : Option Nat :=
  s.foldlM (fun acc b => if isAsciiDigit b then some (acc * 10 + (b - 48).toNat) else none) 0

/-- Integer parsing of the standard library below `bound`: an optional plus
    sign, then at least one digit. -/
def parseUnsigned (bound : Nat) (s : Str) : Option Nat :=
  let digits := if startsWith s (bytes "+") then s.drop 1 else s
  if digits.isEmpty then none
  else
    match digitsValue digits with
    | some n => if n < bound then some n else none
    | none => none

def toAsciiLowercase (b : UInt8) : UInt8 := if 65 ≤ b && b ≤ 90 then b + 32 else b

def containsStr (lit : Str) : Str → Bool
  | [] => lit.isEmpty
  | b :: rest => startsWith (b :: rest) lit || containsStr lit rest

theorem containsStr_iff {lit s : Str} : containsStr lit s = true ↔ lit <:+: s := by
  induction s with
  | nil => simp [containsStr]
  | cons b rest ih =>
    rw [containsStr, Bool.or_eq_true, ih, List.infix_cons_iff, startsWith,
      List.isPrefixOf_iff_prefix]

def eqIgnoreAsciiCase (a b : Str) : Bool := a.map toAsciiLowercase == b.map toAsciiLowercase

def hexNibble (c : UInt8) : Option Nat :=
  if 48 ≤ c && c ≤ 57 then some (c - 48).toNat
  else if 97 ≤ c && c ≤ 102 then some (c - 97 + 10).toNat
  else if 65 ≤ c && c ≤ 70 then some (c - 65 + 10).toNat
  else none

def beBytes (n : Nat) {w : Nat} (x : BitVec w) : Str :=
  (List.range n).reverse.map fun i => UInt8.ofNat (x.toNat / 256 ^ i)

@[simp] theorem beBytes_length (n : Nat) {w : Nat} (x : BitVec w) : (beBytes n x).length = n := by
  simp [beBytes]

theorem beBytes_succ (n : Nat) {w : Nat} (x : BitVec w) :
    beBytes (n + 1) x = UInt8.ofNat (x.toNat / 256 ^ n) :: beBytes n x := by
  simp [beBytes, List.range_succ]

theorem beBytes_inj {n w : Nat} {x y : BitVec w} (same : beBytes n x = beBytes n y) :
    x.toNat % 256 ^ n = y.toNat % 256 ^ n := by
  induction n with
  | zero => simp [Nat.mod_one]
  | succ n ih =>
    rw [beBytes_succ, beBytes_succ] at same
    obtain ⟨digit, rest⟩ := List.cons.inj same
    have digit' := congrArg UInt8.toNat digit
    simp only [UInt8.toNat_ofNat', Nat.reducePow] at digit'
    rw [Nat.mod_pow_succ, Nat.mod_pow_succ, ih rest, digit']

theorem beValue_beBytes (n : Nat) {w : Nat} (x : BitVec w) :
    Bytes.beValue (beBytes n x) = x.toNat % 256 ^ n := by
  induction n with
  | zero => simp [beBytes, Bytes.beValue, Nat.mod_one]
  | succ n ih =>
    have digit : (UInt8.ofNat (x.toNat / 256 ^ n)).toNat = x.toNat / 256 ^ n % 256 :=
      UInt8.toNat_ofNat'
    rw [beBytes_succ, Bytes.beValue_cons, ih, beBytes_length, digit, Nat.mod_pow_succ (b := 256),
      Nat.add_comm, Nat.mul_comm]

theorem beBytes_beValue {n w : Nat} (wide : 256 ^ n ≤ 2 ^ w) {s : Str} (width : s.length = n) :
    beBytes n (BitVec.ofNat w (Bytes.beValue s)) = s := by
  have small := Bytes.beValue_lt s
  rw [width] at small
  apply Bytes.beValue_inj
  · rw [beBytes_length, width]
  · rw [beValue_beBytes, BitVec.toNat_ofNat, Nat.mod_eq_of_lt (Nat.lt_of_lt_of_le small wide),
      Nat.mod_eq_of_lt small]

end Trinity
