import Mathlib.Data.List.DropRight
import Trinity.Bitcoin.Psbt
import Trinity.Lib.Outcome
import Trinity.Lib.Packing

/-!
The base64 text of a PSBT: `encode_base64` of `encode.rs`, and `decode_base64` with
`psbt_to_b64` and `decode_psbt_b64` of `wallet/mod.rs`. Text is a string of
characters here, since `trim` removes characters; the decoder then goes over its
UTF-8 bytes.
-/
namespace Trinity.Watch

open Outcome

def base64Table : Str :=
  bytes "ABCDEFGHIJKLMNOPQRSTUVWXYZabcdefghijklmnopqrstuvwxyz0123456789+/"

theorem and_63_lt (n : UInt32) : (n &&& 63).toNat < base64Table.length := by
  have most : (n &&& 63).toNat ≤ 63 := by
    rw [UInt32.toNat_and]
    exact Nat.and_le_right
  have size : base64Table.length = 64 := by decide
  omega

def sextet (n : UInt32) : Fin base64Table.length := ⟨(n &&& 63).toNat, and_63_lt n⟩

def symbol (n : UInt32) : Char := Char.ofUInt8 (base64Table.get (sextet n))

def joinBytes (b0 b1 b2 : UInt8) : UInt32 :=
  b0.toUInt32 <<< 16 ||| b1.toUInt32 <<< 8 ||| b2.toUInt32

def encodeBase64From (out : String) (data : Str) : String :=
  match data with
  | [] => out
  | b0 :: later =>
    let remaining := later.length + 1
    let b1 := if remaining > 1 then later.getD 0 0 else 0
    let b2 := if remaining > 2 then later.getD 1 0 else 0
    let n := joinBytes b0 b1 b2
    let out := (out.push (symbol (n >>> 18))).push (symbol (n >>> 12))
    let out := out.push (if remaining > 1 then symbol (n >>> 6) else '=')
    let out := out.push (if remaining > 2 then symbol n else '=')
    encodeBase64From out (later.drop 2)
termination_by data.length
decreasing_by
  simp only [List.length_drop, List.length_cons]
  omega

def encodeBase64 (data : Str) : String := encodeBase64From "" data

def isWhitespace (c : Char) : Bool :=
  let n := c.toNat
  n == 0x20 || (0x09 ≤ n && n ≤ 0x0d) || n == 0x85 || n == 0xa0 || n == 0x1680 ||
    (0x2000 ≤ n && n ≤ 0x200a) || n == 0x2028 || n == 0x2029 || n == 0x202f || n == 0x205f ||
    n == 0x3000

def trim (s : String) : String :=
  String.ofList ((s.toList.dropWhile isWhitespace).rdropWhile isWhitespace)

def base64Val (c : UInt8) : Outcome String UInt8 :=
  if 65 ≤ c && c ≤ 90 then .ok (c - 65)
  else if 97 ≤ c && c ≤ 122 then .ok (c - 97 + 26)
  else if 48 ≤ c && c ≤ 57 then .ok (c - 48 + 52)
  else if c == 43 then .ok 62
  else if c == 47 then .ok 63
  else fail s!"invalid base64 byte {c.toNat}"

/-- The value at a place that may be padded. -/
def paddedVal (pad : Bool) (c : UInt8) : Outcome String UInt8 :=
  if pad then .ok 0 else base64Val c

def joinSextets (a b c d : UInt8) : UInt32 :=
  a.toUInt32 <<< 18 ||| b.toUInt32 <<< 12 ||| c.toUInt32 <<< 6 ||| d.toUInt32

def decodeBase64From (out : Str) : Str → Outcome String Str
  | [] => .ok out
  | s0 :: s1 :: s2 :: s3 :: later => do
    let a ← base64Val s0
    let b ← base64Val s1
    let padC := s2 == 61
    let padD := s3 == 61
    let c ← paddedVal padC s2
    let d ← paddedVal padD s3
    let n := joinSextets a b c d
    let out := out ++ [(n >>> 16 &&& 0xff).toUInt8]
    let out := if padC then out else out ++ [(n >>> 8 &&& 0xff).toUInt8]
    let out := if padD then out else out ++ [(n &&& 0xff).toUInt8]
    decodeBase64From out later
  -- An index behind the end; the length is a multiple of four, so there is none.
  | _ => .error .panic

def decodeBase64 (s : String) : Outcome String Str := do
  let s := bytes (trim s)
  rejectIf (¬ s.length % 4 = 0) "base64 length not multiple of 4"
  decodeBase64From [] s

inductive WalletError where
  | build (e : String)
  deriving DecidableEq, Repr

structure PsbtLibrary where
  serialize : Psbt → Str
  deserialize : Str → Except String Psbt

def psbtToB64 (library : PsbtLibrary) (psbt : Psbt) : String :=
  encodeBase64 (library.serialize psbt)

def decodePsbtB64 (library : PsbtLibrary) (b64 : String) : Outcome WalletError Psbt := do
  let bytes ← mapErr .build (decodeBase64 b64)
  ofExcept (library.deserialize bytes) .build

section Text

theorem dropWhile_surrounded {α : Type} {p : α → Bool} {before text after : List α}
    (left : ∀ c ∈ before, p c = true) (solid : ∀ c ∈ text, p c = false)
    (right : ∀ c ∈ after, p c = true) :
    ((before ++ text ++ after).dropWhile p).rdropWhile p = text := by
  rw [List.append_assoc, List.dropWhile_append_of_pos left]
  cases text with
  | nil => rw [List.nil_append, List.dropWhile_eq_nil_iff.mpr right, List.rdropWhile_nil]
  | cons c rest =>
    have first : ¬ p c = true := by simp [solid]
    have ending : ∀ c ∈ after.reverse, p c = true := by simpa using right
    have last : (c :: rest).reverse.dropWhile p = (c :: rest).reverse := by
      rw [List.dropWhile_eq_self_iff]
      intro inside
      rw [solid _ (List.mem_reverse.mp (List.getElem_mem inside))]
      decide
    rw [List.cons_append, List.dropWhile_cons_of_neg first, ← List.cons_append, List.rdropWhile,
      List.reverse_append, List.dropWhile_append_of_pos ending, last, List.reverse_reverse]

theorem bytes_ofList (text : List Char) :
    bytes (String.ofList text) = text.flatMap String.utf8EncodeChar := by
  rw [bytes, String.toUTF8_eq_toByteArray, String.toByteArray_ofList, List.utf8Encode,
    List.toList_data_toByteArray]

end Text

section Group

theorem joinBytes_toNat (b0 b1 b2 : UInt8) :
    (joinBytes b0 b1 b2).toNat = b0.toNat * 2 ^ 16 + b1.toNat * 2 ^ 8 + b2.toNat := by
  have small0 := b0.toNat_lt
  have small1 := b1.toNat_lt
  have small2 := b2.toNat_lt
  have high : (b0.toUInt32 <<< 16).toNat = b0.toNat * 2 ^ 16 :=
    Packing.shiftLeft_toNat rfl (by rw [UInt8.toNat_toUInt32]; omega)
  have middle : (b1.toUInt32 <<< 8).toNat = b1.toNat * 2 ^ 8 :=
    Packing.shiftLeft_toNat rfl (by rw [UInt8.toNat_toUInt32]; omega)
  have upper : (b0.toUInt32 <<< 16 ||| b1.toUInt32 <<< 8).toNat =
      b0.toNat * 2 ^ 16 + b1.toNat * 2 ^ 8 := by
    rw [Packing.or_toNat 16 (by omega) (by omega), high, middle]
  rw [joinBytes, Packing.or_toNat 8 (by omega) (by rw [UInt8.toNat_toUInt32]; omega), upper,
    UInt8.toNat_toUInt32]

theorem joinSextets_toNat {a b c d : UInt8} (small0 : a.toNat < 64) (small1 : b.toNat < 64)
    (small2 : c.toNat < 64) (small3 : d.toNat < 64) :
    (joinSextets a b c d).toNat =
      a.toNat * 2 ^ 18 + b.toNat * 2 ^ 12 + c.toNat * 2 ^ 6 + d.toNat := by
  have first : (a.toUInt32 <<< 18).toNat = a.toNat * 2 ^ 18 :=
    Packing.shiftLeft_toNat rfl (by rw [UInt8.toNat_toUInt32]; omega)
  have second : (b.toUInt32 <<< 12).toNat = b.toNat * 2 ^ 12 :=
    Packing.shiftLeft_toNat rfl (by rw [UInt8.toNat_toUInt32]; omega)
  have third : (c.toUInt32 <<< 6).toNat = c.toNat * 2 ^ 6 :=
    Packing.shiftLeft_toNat rfl (by rw [UInt8.toNat_toUInt32]; omega)
  have upper : (a.toUInt32 <<< 18 ||| b.toUInt32 <<< 12).toNat =
      a.toNat * 2 ^ 18 + b.toNat * 2 ^ 12 := by
    rw [Packing.or_toNat 18 (by omega) (by omega), first, second]
  have most : (a.toUInt32 <<< 18 ||| b.toUInt32 <<< 12 ||| c.toUInt32 <<< 6).toNat =
      a.toNat * 2 ^ 18 + b.toNat * 2 ^ 12 + c.toNat * 2 ^ 6 := by
    rw [Packing.or_toNat 12 (by omega) (by omega), upper, third]
  rw [joinSextets, Packing.or_toNat 6 (by omega) (by rw [UInt8.toNat_toUInt32]; omega), most,
    UInt8.toNat_toUInt32]

def digit (n : UInt32) : UInt8 := UInt8.ofNat (sextet n).val

theorem digit_toNat (n : UInt32) : (digit n).toNat = n.toNat % 64 := by
  have low : (n &&& 63).toNat = n.toNat % 2 ^ 6 := Packing.low_toNat rfl
  have value : (sextet n).val = n.toNat % 2 ^ 6 := low
  rw [digit, UInt8.toNat_ofNat', value]
  omega

theorem digit_shifted {n k : UInt32} {s : Nat} (shift : k.toNat % 32 = s) :
    (digit (n >>> k)).toNat = n.toNat / 2 ^ s % 64 := by
  rw [digit_toNat, UInt32.toNat_shiftRight, shift, Nat.shiftRight_eq_div_pow]

theorem joinSextets_digits {n : UInt32} (small : n.toNat < 2 ^ 24) :
    joinSextets (digit (n >>> 18)) (digit (n >>> 12)) (digit (n >>> 6)) (digit n) = n := by
  have first : (digit (n >>> 18)).toNat = n.toNat / 2 ^ 18 % 64 := digit_shifted rfl
  have second : (digit (n >>> 12)).toNat = n.toNat / 2 ^ 12 % 64 := digit_shifted rfl
  have third : (digit (n >>> 6)).toNat = n.toNat / 2 ^ 6 % 64 := digit_shifted rfl
  have fourth := digit_toNat n
  apply UInt32.toNat_inj.mp
  rw [joinSextets_toNat (by omega) (by omega) (by omega) (by omega)]
  omega

theorem joinBytes_split (b0 b1 b2 : UInt8) :
    (joinBytes b0 b1 b2 >>> 16 &&& 0xff).toUInt8 = b0 ∧
    (joinBytes b0 b1 b2 >>> 8 &&& 0xff).toUInt8 = b1 ∧
    (joinBytes b0 b1 b2 &&& 0xff).toUInt8 = b2 := by
  have joined := joinBytes_toNat b0 b1 b2
  have small0 := b0.toNat_lt
  have small1 := b1.toNat_lt
  have small2 := b2.toNat_lt
  generalize joinBytes b0 b1 b2 = n at joined
  have high : (n >>> 16 &&& 0xff).toNat = n.toNat / 2 ^ 16 % 2 ^ 8 := Packing.field_toNat rfl rfl
  have middle : (n >>> 8 &&& 0xff).toNat = n.toNat / 2 ^ 8 % 2 ^ 8 := Packing.field_toNat rfl rfl
  have low : (n &&& 0xff).toNat = n.toNat % 2 ^ 8 := Packing.low_toNat rfl
  refine ⟨?_, ?_, ?_⟩
  · rw [← UInt8.toNat_inj, UInt32.toNat_toUInt8, high]
    omega
  · rw [← UInt8.toNat_inj, UInt32.toNat_toUInt8, middle]
    omega
  · rw [← UInt8.toNat_inj, UInt32.toNat_toUInt8, low]
    omega

theorem base64Val_table (n : UInt32) : base64Val (base64Table.get (sextet n)) = .ok (digit n) := by
  have each : ∀ i : Fin base64Table.length,
      base64Val (base64Table.get i) = .ok (UInt8.ofNat i.val) := by decide
  exact each (sextet n)

theorem symbol_encoded (n : UInt32) :
    String.utf8EncodeChar (symbol n) = [base64Table.get (sextet n)] := by
  have each : ∀ i : Fin base64Table.length,
      String.utf8EncodeChar (Char.ofUInt8 (base64Table.get i)) = [base64Table.get i] := by decide
  exact each (sextet n)

theorem table_not_pad (n : UInt32) : (base64Table.get (sextet n) == 61) = false := by
  have each : ∀ i : Fin base64Table.length, (base64Table.get i == 61) = false := by decide
  exact each (sextet n)

/-- The four characters of a group, in which the second and the third byte may be
    missing. -/
def quad (b0 : UInt8) (b1 b2 : Option UInt8) : List Char :=
  let n := joinBytes b0 (b1.getD 0) (b2.getD 0)
  [symbol (n >>> 18), symbol (n >>> 12), if b1.isSome then symbol (n >>> 6) else '=',
    if b2.isSome then symbol n else '=']

/-- A place that may be padded: its byte tells whether it is, and its value is the
    sextet if the padding stands for zero. -/
theorem read_padded (present : Bool) {n : UInt32} (zero : present = false → digit n = 0) :
    ∃ s, String.utf8EncodeChar (if present then symbol n else '=') = [s] ∧
      (s == 61) = !present ∧ paddedVal (!present) s = .ok (digit n) := by
  cases present with
  | true => exact ⟨base64Table.get (sextet n), symbol_encoded n, table_not_pad n, base64Val_table n⟩
  | false =>
    have sign : String.utf8EncodeChar '=' = [61] := by decide
    exact ⟨61, sign, rfl, congrArg Except.ok (zero rfl).symm⟩

theorem decodeBase64From_quad (out later : Str) (b0 : UInt8) (b1 b2 : Option UInt8)
    (packed : b1 = none → b2 = none) :
    decodeBase64From out ((quad b0 b1 b2).flatMap String.utf8EncodeChar ++ later) =
      decodeBase64From (out ++ b0 :: (b1.toList ++ b2.toList)) later := by
  have joined := joinBytes_toNat b0 (b1.getD 0) (b2.getD 0)
  have split := joinBytes_split b0 (b1.getD 0) (b2.getD 0)
  unfold quad
  generalize joinBytes b0 (b1.getD 0) (b2.getD 0) = n at joined split
  have small0 := b0.toNat_lt
  have small1 := (b1.getD 0).toNat_lt
  have small2 := (b2.getD 0).toNat_lt
  have missing2 : b2.isSome = false → digit n = 0 := by
    intro missing
    rw [Option.isSome_eq_false_iff, Option.isNone_iff_eq_none] at missing
    rw [missing, Option.getD_none] at joined
    rw [← UInt8.toNat_inj, digit_toNat, joined, UInt8.toNat_zero]
    omega
  have missing1 : b1.isSome = false → digit (n >>> 6) = 0 := by
    intro missing
    rw [Option.isSome_eq_false_iff, Option.isNone_iff_eq_none] at missing
    rw [missing, packed missing, Option.getD_none] at joined
    rw [← UInt8.toNat_inj, digit_shifted (s := 6) rfl, joined, UInt8.toNat_zero]
    omega
  obtain ⟨s2, text2, pad2, read2⟩ := read_padded b1.isSome missing1
  obtain ⟨s3, text3, pad3, read3⟩ := read_padded b2.isSome missing2
  simp only [List.flatMap_cons, List.flatMap_nil, symbol_encoded, text2, text3, List.append_nil,
    List.cons_append, List.nil_append, decodeBase64From, base64Val_table, pad2, pad3, read2, read3,
    bind_ok, joinSextets_digits (show n.toNat < 2 ^ 24 by omega), split.1, split.2.1, split.2.2]
  cases b1 with
  | none =>
    rw [packed rfl]
    rfl
  | some b1 =>
    cases b2 with
    | none => simp
    | some b2 => simp

end Group

def quads : Str → List Char
  | [] => []
  | [b0] => quad b0 none none
  | [b0, b1] => quad b0 (some b1) none
  | b0 :: b1 :: b2 :: later => quad b0 (some b1) (some b2) ++ quads later

theorem encodeBase64From_toList (out : String) (data : Str) :
    (encodeBase64From out data).toList = out.toList ++ quads data := by
  induction data using quads.induct generalizing out with
  | case1 => rw [encodeBase64From, quads, List.append_nil]
  | case2 b0 =>
    rw [encodeBase64From, encodeBase64From.eq_def]
    simp [quads, quad]
  | case3 b0 b1 =>
    rw [encodeBase64From, encodeBase64From.eq_def]
    simp [quads, quad]
  | case4 b0 b1 b2 later ih =>
    rw [encodeBase64From]
    simp [quads, quad, ih]

theorem encodeBase64_toList (data : Str) : (encodeBase64 data).toList = quads data := by
  rw [encodeBase64, encodeBase64From_toList]
  rfl

theorem decodeBase64From_quads (out data : Str) :
    decodeBase64From out ((quads data).flatMap String.utf8EncodeChar) = .ok (out ++ data) := by
  induction data using quads.induct generalizing out with
  | case1 => rw [quads, List.flatMap_nil, decodeBase64From, List.append_nil]
  | case2 b0 =>
    have group := decodeBase64From_quad out [] b0 none none (fun _ => rfl)
    rw [List.append_nil] at group
    rw [quads, group]
    rfl
  | case3 b0 b1 =>
    have group := decodeBase64From_quad out [] b0 (some b1) none (fun _ => rfl)
    rw [List.append_nil] at group
    rw [quads, group]
    rfl
  | case4 b0 b1 b2 later ih =>
    rw [quads, List.flatMap_append, decodeBase64From_quad _ _ _ _ _ (fun none => by cases none), ih]
    simp

section Shape

def inAlphabet (c : Char) : Bool :=
  ('A' ≤ c && c ≤ 'Z') || ('a' ≤ c && c ≤ 'z') || ('0' ≤ c && c ≤ '9') || c == '+' || c == '/'

/-- Characters of the alphabet, then at most two padding signs, in all a multiple
    of four. -/
def Base64Text (text : List Char) : Prop :=
  ∃ body pad, text = body ++ List.replicate pad '=' ∧ (∀ c ∈ body, inAlphabet c = true) ∧
    pad ≤ 2 ∧ 4 ∣ text.length

theorem symbol_known (n : UInt32) : inAlphabet (symbol n) = true := by
  have each : ∀ i : Fin base64Table.length,
      inAlphabet (Char.ofUInt8 (base64Table.get i)) = true := by decide
  exact each (sextet n)

theorem quads_text (data : Str) : Base64Text (quads data) := by
  induction data using quads.induct with
  | case1 => exact ⟨[], 0, rfl, by simp, by decide, by decide⟩
  | case2 b0 =>
    exact ⟨_ :: _ :: [], 2, rfl, by simp [symbol_known], by decide, by simp [quads, quad]⟩
  | case3 b0 b1 =>
    exact ⟨_ :: _ :: _ :: [], 1, rfl, by simp [symbol_known], by decide, by simp [quads, quad]⟩
  | case4 b0 b1 b2 later ih =>
    obtain ⟨body, pad, shown, known, few, whole⟩ := ih
    refine ⟨quad b0 (some b1) (some b2) ++ body, pad, ?_, ?_, few, ?_⟩
    · rw [quads, shown, List.append_assoc]
    · intro c member
      rcases List.mem_append.mp member with first | other
      · simp only [quad, Option.isSome_some, if_true, List.mem_cons, List.not_mem_nil,
          or_false] at first
        rcases first with rfl | rfl | rfl | rfl <;> exact symbol_known _
      · exact known c other
    · rw [quads, List.length_append]
      exact Nat.dvd_add (Dvd.intro 1 rfl) whole

theorem inAlphabet_range {c : Char} (known : inAlphabet c = true) :
    43 ≤ c.toNat ∧ c.toNat ≤ 122 := by
  have code : c.toNat = c.val.toNat := rfl
  have upper : 'A'.val.toNat = 65 ∧ 'Z'.val.toNat = 90 := by decide
  have lower : 'a'.val.toNat = 97 ∧ 'z'.val.toNat = 122 := by decide
  have digits : '0'.val.toNat = 48 ∧ '9'.val.toNat = 57 := by decide
  simp only [inAlphabet, Bool.or_eq_true, Bool.and_eq_true, decide_eq_true_eq, beq_iff_eq,
    Char.le_def, UInt32.le_iff_toNat_le] at known
  rcases known with (alphanumeric | rfl) | rfl
  · omega
  · decide
  · decide

theorem isWhitespace_range {c : Char} (low : 43 ≤ c.toNat) (high : c.toNat ≤ 122) :
    isWhitespace c = false := by
  rw [Bool.eq_false_iff]
  intro blank
  simp only [isWhitespace, Bool.or_eq_true, Bool.and_eq_true, beq_iff_eq,
    decide_eq_true_eq] at blank
  omega

theorem Base64Text.range {text : List Char} (shape : Base64Text text) :
    ∀ c ∈ text, 43 ≤ c.toNat ∧ c.toNat ≤ 122 := by
  obtain ⟨body, pad, rfl, known, _, _⟩ := shape
  intro c member
  rcases List.mem_append.mp member with symbol | sign
  · exact inAlphabet_range (known c symbol)
  · rw [(List.mem_replicate.mp sign).2]
    decide

theorem Base64Text.bytes_length {text : List Char} (shape : Base64Text text) :
    (text.flatMap String.utf8EncodeChar).length = text.length := by
  have single : ∀ c ∈ text, (String.utf8EncodeChar c).length = 1 := by
    intro c member
    have ascii : c.val.toNat ≤ 127 := Nat.le_trans (shape.range c member).2 (by decide)
    rw [String.utf8EncodeChar, if_pos ascii]
    rfl
  rw [List.length_flatMap, List.map_congr_left single]
  simp

end Shape

theorem trim_surrounded {before text after : String}
    (left : ∀ c ∈ before.toList, isWhitespace c = true) (shape : Base64Text text.toList)
    (right : ∀ c ∈ after.toList, isWhitespace c = true) :
    trim (before ++ text ++ after) = text := by
  have solid : ∀ c ∈ text.toList, isWhitespace c = false := by
    intro c member
    obtain ⟨low, high⟩ := shape.range c member
    exact isWhitespace_range low high
  rw [trim, String.toList_append, String.toList_append, dropWhile_surrounded left solid right,
    String.ofList_toList]

theorem encodeBase64_text (data : Str) : Base64Text (encodeBase64 data).toList := by
  rw [encodeBase64_toList]
  exact quads_text data

theorem decodeBase64_surrounded {before after : String} (data : Str)
    (left : ∀ c ∈ before.toList, isWhitespace c = true)
    (right : ∀ c ∈ after.toList, isWhitespace c = true) :
    decodeBase64 (before ++ encodeBase64 data ++ after) = .ok data := by
  have text : bytes (encodeBase64 data) = (quads data).flatMap String.utf8EncodeChar := by
    rw [← bytes_ofList, ← encodeBase64_toList, String.ofList_toList]
  have whole : ¬ ¬ (bytes (encodeBase64 data)).length % 4 = 0 := by
    obtain ⟨_, _, _, _, _, whole⟩ := quads_text data
    rw [text, (quads_text data).bytes_length, not_not]
    exact Nat.mod_eq_zero_of_dvd whole
  rw [decodeBase64, trim_surrounded left (encodeBase64_text data) right,
    rejectIf_of_not _ whole, bind_ok, text, decodeBase64From_quads]
  rfl

theorem decodeBase64_encodeBase64 (data : Str) :
    decodeBase64 (encodeBase64 data) = .ok data := by
  have alone := @decodeBase64_surrounded "" "" data (by simp) (by simp)
  rwa [String.empty_append, String.append_empty] at alone

/-- The text of any data is base64 text, and is read back as the data, also between
    whitespace. -/
theorem base64_read_back (data : Str) :
    Base64Text (encodeBase64 data).toList ∧ decodeBase64 (encodeBase64 data) = .ok data ∧
    ∀ before after : String, (∀ c ∈ before.toList, isWhitespace c = true) →
      (∀ c ∈ after.toList, isWhitespace c = true) →
      decodeBase64 (before ++ encodeBase64 data ++ after) = .ok data :=
  ⟨encodeBase64_text data, decodeBase64_encodeBase64 data, fun _ _ => decodeBase64_surrounded data⟩

theorem base64_read_back_sample :
    (∀ c ∈ " \n".toList, isWhitespace c = true) ∧
    decodeBase64 (" \n" ++ encodeBase64 (bytes "psbt") ++ " \n") = .ok (bytes "psbt") := by
  have blank : ∀ c ∈ " \n".toList, isWhitespace c = true := List.all_eq_true.mp (by decide)
  exact ⟨blank, (base64_read_back (bytes "psbt")).2.2 _ _ blank blank⟩

theorem decodePsbtB64_psbtToB64 (library : PsbtLibrary) {psbt : Psbt}
    (kept : library.deserialize (library.serialize psbt) = .ok psbt) :
    decodePsbtB64 library (psbtToB64 library psbt) = .ok psbt := by
  rw [decodePsbtB64, psbtToB64, decodeBase64_encodeBase64, mapErr, bind_ok, kept]
  rfl

end Trinity.Watch
