import Mathlib.Algebra.BigOperators.Group.List.Basic
import Trinity.Lib.Bytes

/-!
XChaCha20-Poly1305. The message is added to the stream of ChaCha20, under a key that
the first sixteen bytes of the nonce turn into another; a tag over the associated data
and the ciphertext is put behind it. A body opens exactly to the message it was
sealed from.
-/
namespace XChaCha

structure Row where
  w0 : UInt32
  w1 : UInt32
  w2 : UInt32
  w3 : UInt32

namespace Row

def rotate (r : Row) : Row := ⟨r.w1, r.w2, r.w3, r.w0⟩

def add (r s : Row) : Row := ⟨r.w0 + s.w0, r.w1 + s.w1, r.w2 + s.w2, r.w3 + s.w3⟩

def word (s : List UInt8) (i : ℕ) : UInt32 :=
  UInt32.ofNat (((s.drop (4 * i)).take 4).foldr (fun b acc => b.toNat + 256 * acc) 0)

def read (s : List UInt8) : Row := ⟨word s 0, word s 1, word s 2, word s 3⟩

def write (r : Row) : List UInt8 := [r.w0, r.w1, r.w2, r.w3].flatMap fun w => Bytes.le 4 w.toNat

end Row

structure Matrix where
  a : Row
  b : Row
  c : Row
  d : Row

def rotl (x n : UInt32) : UInt32 := (x <<< n) ||| (x >>> (32 - n))

structure Column where
  a : UInt32
  b : UInt32
  c : UInt32
  d : UInt32
  deriving DecidableEq

def quarterRound (q : Column) : Column :=
  let a := q.a + q.b
  let d := rotl (q.d ^^^ a) 16
  let c := q.c + d
  let b := rotl (q.b ^^^ c) 12
  let a := a + b
  let d := rotl (d ^^^ a) 8
  let c := c + d
  ⟨a, rotl (b ^^^ c) 7, c, d⟩

example : quarterRound ⟨0x11111111, 0x01020304, 0x9b8d6f43, 0x01234567⟩ =
    ⟨0xea2a92f4, 0xcb1cf8ce, 0x4581472e, 0x5881c4bb⟩ := by decide

def columnRound (m : Matrix) : Matrix :=
  let q0 := quarterRound ⟨m.a.w0, m.b.w0, m.c.w0, m.d.w0⟩
  let q1 := quarterRound ⟨m.a.w1, m.b.w1, m.c.w1, m.d.w1⟩
  let q2 := quarterRound ⟨m.a.w2, m.b.w2, m.c.w2, m.d.w2⟩
  let q3 := quarterRound ⟨m.a.w3, m.b.w3, m.c.w3, m.d.w3⟩
  ⟨⟨q0.a, q1.a, q2.a, q3.a⟩, ⟨q0.b, q1.b, q2.b, q3.b⟩, ⟨q0.c, q1.c, q2.c, q3.c⟩,
    ⟨q0.d, q1.d, q2.d, q3.d⟩⟩

/-- A round over the columns, and one over the diagonals. -/
def doubleRound (m : Matrix) : Matrix :=
  let m := columnRound m
  let m := columnRound ⟨m.a, m.b.rotate, m.c.rotate.rotate, m.d.rotate.rotate.rotate⟩
  ⟨m.a, m.b.rotate.rotate.rotate, m.c.rotate.rotate, m.d.rotate⟩

def rounds : ℕ → Matrix → Matrix
  | 0, m => m
  | n + 1, m => rounds n (doubleRound m)

def initial (key : List UInt8) (last : Row) : Matrix :=
  ⟨⟨0x61707865, 0x3320646e, 0x79622d32, 0x6b206574⟩, .read key, .read (key.drop 16), last⟩

def block (key nonce : List UInt8) (counter : UInt32) : List UInt8 :=
  let m := initial key ⟨counter, Row.word nonce 0, Row.word nonce 1, Row.word nonce 2⟩
  let out := rounds 10 m
  (m.a.add out.a).write ++ (m.b.add out.b).write ++ (m.c.add out.c).write ++ (m.d.add out.d).write

def subkey (key nonce : List UInt8) : List UInt8 :=
  let out := rounds 10 (initial key (.read nonce))
  out.a.write ++ out.d.write

def stream (key nonce : List UInt8) (start n : ℕ) : List UInt8 :=
  ((List.range (n / 64 + 1)).flatMap fun i => block key nonce (UInt32.ofNat (start + i))).take n

def xor (s t : List UInt8) : List UInt8 := List.zipWith (· ^^^ ·) s t

def leValue (s : List UInt8) : ℕ := s.foldr (fun b acc => b.toNat + 256 * acc) 0

/-- The one-time authenticator over blocks of sixteen bytes. -/
def poly1305 (key message : List UInt8) : List UInt8 :=
  let r := leValue (key.take 16) &&& 0x0ffffffc0ffffffc0ffffffc0fffffff
  let blocks := (List.range ((message.length + 15) / 16)).map fun i =>
    (message.drop (16 * i)).take 16
  let acc := blocks.foldl
    (fun acc b => (acc + leValue b + 2 ^ (8 * b.length)) * r % (2 ^ 130 - 5)) 0
  Bytes.le 16 ((acc + leValue ((key.drop 16).take 16)) % 2 ^ 128)

def pad (s : List UInt8) : List UInt8 := s ++ List.replicate ((16 - s.length % 16) % 16) 0

def tag (key nonce header ciphertext : List UInt8) : List UInt8 :=
  poly1305 (stream key nonce 0 32) (pad header ++ pad ciphertext ++
    Bytes.le 8 header.length ++ Bytes.le 8 ciphertext.length)

/-- What is left of the nonce once the first part has gone into the key. -/
def innerNonce (nonce : List UInt8) : List UInt8 := List.replicate 4 0 ++ nonce.drop 16

def maxBlocks : ℕ := 2 ^ 32 - 1

def encrypt (key nonce header message : List UInt8) : Option (List UInt8) :=
  let key := subkey key nonce
  let nonce := innerNonce nonce
  if maxBlocks ≤ message.length / 64 then none
  else
    let ciphertext := xor message (stream key nonce 1 message.length)
    some (ciphertext ++ tag key nonce header ciphertext)

def decrypt (key nonce header body : List UInt8) : Option (List UInt8) :=
  let key := subkey key nonce
  let nonce := innerNonce nonce
  let ciphertext := body.take (body.length - 16)
  if body.length < 16 ∨ maxBlocks ≤ ciphertext.length / 64 then none
  else if body.drop (body.length - 16) = tag key nonce header ciphertext then
    some (xor ciphertext (stream key nonce 1 ciphertext.length))
  else none

theorem block_length (key nonce : List UInt8) (counter : UInt32) :
    (block key nonce counter).length = 64 := by
  simp [block, Row.write]

theorem stream_length (key nonce : List UInt8) (start n : ℕ) :
    (stream key nonce start n).length = n := by
  unfold stream
  rw [List.length_take, List.length_flatMap]
  have blocks : ((List.range (n / 64 + 1)).map fun i =>
      (block key nonce (UInt32.ofNat (start + i))).length).sum = 64 * (n / 64 + 1) := by
    simp [block_length, Nat.mul_comm]
  omega

theorem tag_length (key nonce header ciphertext : List UInt8) :
    (tag key nonce header ciphertext).length = 16 := Bytes.le_length 16 _

theorem xor_length {s t : List UInt8} (same : t.length = s.length) :
    (xor s t).length = s.length := by
  rw [xor, List.length_zipWith, same, Nat.min_self]

theorem xor_xor {s t : List UInt8} (same : t.length = s.length) : xor (xor s t) t = s := by
  induction s generalizing t with
  | nil => simp [xor]
  | cons a s ih =>
    cases t with
    | nil => simp at same
    | cons b t =>
      have rest := ih (Nat.succ.inj same)
      unfold xor at rest ⊢
      rw [List.zipWith_cons_cons, List.zipWith_cons_cons, rest, UInt8.xor_assoc, UInt8.xor_self,
        UInt8.xor_zero]

variable {key nonce header body message : List UInt8}

theorem encrypt_length (sealed : encrypt key nonce header message = some body) :
    body.length = message.length + 16 := by
  unfold encrypt at sealed
  simp only at sealed
  split at sealed
  · contradiction
  · rw [← Option.some.inj sealed, List.length_append, tag_length,
      xor_length (stream_length _ _ _ _)]

theorem encrypt_total (key nonce header : List UInt8) (small : message.length / 64 < maxBlocks) :
    ∃ body, encrypt key nonce header message = some body := by
  unfold encrypt
  simp only
  rw [if_neg (Nat.not_le.mpr small)]
  exact ⟨_, rfl⟩

theorem decrypt_eq_some :
    decrypt key nonce header body = some message ↔
      encrypt key nonce header message = some body := by
  constructor
  · intro opened
    unfold decrypt at opened
    simp only at opened
    split at opened
    · contradiction
    · rename_i fits
      rw [not_or, Nat.not_lt] at fits
      rw [Option.ite_none_right_eq_some] at opened
      obtain ⟨tagged, plain⟩ := opened
      obtain rfl := Option.some.inj plain
      have width : (xor (body.take (body.length - 16)) (stream (subkey key nonce) (innerNonce nonce)
          1 (body.take (body.length - 16)).length)).length =
            (body.take (body.length - 16)).length := xor_length (stream_length _ _ _ _)
      unfold encrypt
      simp only
      rw [width, if_neg fits.2, xor_xor (stream_length _ _ _ _), ← tagged,
        List.take_append_drop]
  · intro sealed
    have width := encrypt_length sealed
    unfold encrypt at sealed
    simp only at sealed
    split at sealed
    · contradiction
    · rename_i fits
      have long : (xor message (stream (subkey key nonce) (innerNonce nonce) 1
          message.length)).length = message.length := xor_length (stream_length _ _ _ _)
      have split := Option.some.inj sealed
      have ciphertext : body.take (body.length - 16) = xor message
          (stream (subkey key nonce) (innerNonce nonce) 1 message.length) := by
        rw [← split, List.take_left']
        rw [long, split]
        omega
      have tagged : body.drop (body.length - 16) = tag (subkey key nonce) (innerNonce nonce) header
          (xor message (stream (subkey key nonce) (innerNonce nonce) 1 message.length)) := by
        rw [← split, List.drop_left']
        rw [long, split]
        omega
      unfold decrypt
      simp only
      rw [ciphertext, long, if_neg (by omega), if_pos tagged, xor_xor (stream_length _ _ _ _)]

end XChaCha
