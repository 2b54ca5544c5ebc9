import Trinity.Signer.Local

/-!
Writing key blobs, and what opens again. The header is the associated data of
the cipher, so a blob that `decrypt` accepts is the one `encrypt_at_nonce`
writes for the record it decodes to, at the nonce in its header.
-/
namespace Trinity

open Outcome

def encodeHeader (slot : KeySlot) (wordCount : WordCount) (nonce : BitVec 192)
    (birthday : UInt32) : Str :=
  magic ++ ([1, slot.asU8, 0, wordCount.words] ++ (beBytes 24 nonce ++ Bytes.le 4 birthday.toNat))

def nonceFromHeader (header : Str) : Str := (header.drop 8).take 24

section Encrypt

variable (env : StatePrimitives)

def encryptAtNonce (kek : Str) (slot : KeySlot) (wordCount : WordCount) (nonce : BitVec 192)
    (birthday : UInt32) (entropy : Str) (createdAt : UInt64) : Outcome BlobError Str := do
  rejectIf (¬ slot.hasDeviceBlob) .invalidSlot
  rejectIf (entropy.length ≠ wordCount.entropyBytes)
    (.entropyLength wordCount.entropyBytes entropy.length)
  let header := encodeHeader slot wordCount nonce birthday
  let plaintext := entropy ++ Bytes.le createdAtLen createdAt.toNat
  let ciphertext ← expect (env.aeadSeal kek (nonceFromHeader header) header plaintext)
  return header ++ ciphertext

def encrypt (kek : Str) (slot : KeySlot) (wordCount : WordCount) (drawn : Option (BitVec 192))
    (birthday : UInt32) (entropy : Str) (createdAt : UInt64) : Outcome BlobError Str := do
  let nonce ← okOr drawn .csRng
  encryptAtNonce env kek slot wordCount nonce birthday entropy createdAt

end Encrypt

/-- The cipher opens a body to the message it seals to that body, and to no
    other; a sealed body ends in a tag. -/
structure AeadExact (env : StatePrimitives) : Prop where
  opens : ∀ kek nonce header body message : Str, kek.length = 32 → nonce.length = 24 →
    (env.aeadOpen kek nonce header body = some message ↔
      env.aeadSeal kek nonce header message = some body)
  tagged : ∀ kek nonce header message body : Str,
    env.aeadSeal kek nonce header message = some body → tagLen ≤ body.length

section Header

theorem KeySlot.fromU8_device {v : UInt8} {slot : KeySlot} :
    (KeySlot.fromU8 v).filter KeySlot.hasDeviceBlob = some slot ↔
      v = slot.asU8 ∧ slot.hasDeviceBlob := by
  rw [Option.filter_eq_some_iff]
  constructor
  · intro ⟨read, device⟩
    refine ⟨?_, device⟩
    unfold KeySlot.fromU8 at read
    split_ifs at read with first second third
    · cases read
      exact first
    · cases read
      exact second
    · cases read
      exact third
  · intro ⟨byte, device⟩
    refine ⟨?_, device⟩
    subst byte
    cases slot <;> rfl

theorem encodeHeader_whole (slot : KeySlot) (wordCount : WordCount) (nonce : BitVec 192)
    (birthday : UInt32) : (encodeHeader slot wordCount nonce birthday).length = headerLen := by
  simp [encodeHeader, headerLen, show magic.length = 4 from rfl]

theorem nonceFromHeader_length {header : Str} (whole : header.length = headerLen) :
    (nonceFromHeader header).length = 24 := by
  rw [nonceFromHeader, List.length_take, List.length_drop, whole]
  rfl

theorem leValue_inv {s : Str} {n : Nat} (width : s.length = n) : Bytes.le n (leValue s) = s := by
  rw [← width]
  exact Bytes.le_foldr s

theorem leValue_lt (s : Str) : leValue s < 256 ^ s.length := by
  have read := Bytes.foldr_le s.length (leValue s)
  rw [leValue_inv rfl] at read
  exact lt_of_eq_of_lt read (Nat.mod_lt _ (Nat.pow_pos (by decide)))

theorem u32_write {s : Str} (width : s.length = 4) :
    Bytes.le 4 (UInt32.ofNat (leValue s)).toNat = s := by
  have small := leValue_lt s
  rw [width] at small
  rw [UInt32.toNat_ofNat_of_lt' (lt_of_lt_of_eq small (by decide)), leValue_inv width]

theorem u64_write {s : Str} (width : s.length = 8) :
    Bytes.le 8 (UInt64.ofNat (leValue s)).toNat = s := by
  have small := leValue_lt s
  rw [width] at small
  rw [UInt64.toNat_ofNat_of_lt' (lt_of_lt_of_eq small (by decide)), leValue_inv width]

theorem drop_of_getElem? {s : Str} {n : Nat} {b : UInt8} (at_ : s[n]? = some b) :
    s.drop n = b :: s.drop (n + 1) := by
  obtain ⟨inside, rfl⟩ := List.getElem?_eq_some_iff.mp at_
  exact List.drop_eq_getElem_cons inside

theorem nonceFromHeader_encodeHeader (slot : KeySlot) (wordCount : WordCount) (nonce : BitVec 192)
    (birthday : UInt32) :
    nonceFromHeader (encodeHeader slot wordCount nonce birthday) = beBytes 24 nonce := by
  have before : (magic ++ [1, slot.asU8, 0, wordCount.words]).length = 8 := rfl
  rw [encodeHeader, ← List.append_assoc, nonceFromHeader, List.drop_left' before,
    List.take_left' (beBytes_length 24 nonce)]

theorem parseHeader_encoded {slot : KeySlot} (device : slot.hasDeviceBlob) (wordCount : WordCount)
    (nonce : BitVec 192) (birthday : UInt32) :
    parseHeader (encodeHeader slot wordCount nonce birthday) = .ok ⟨slot, wordCount, birthday⟩ := by
  have four : magic.length = 4 := rfl
  have before : (magic ++ ([1, slot.asU8, 0, wordCount.words] ++ beBytes 24 nonce)).length = 32 :=
    by simp [four]
  have last : (encodeHeader slot wordCount nonce birthday).drop 32 =
      Bytes.le 4 birthday.toNat := by
    rw [encodeHeader, ← List.append_assoc [1, slot.asU8, 0, wordCount.words], ← List.append_assoc,
      List.drop_left' before]
  simp only [parseHeader, bind_eq_ok, rejectIf_eq_ok, expect_eq_ok, okOr_eq_ok,
    KeySlot.fromU8_device, WordCount.fromWords_eq_some, ne_eq, not_not, pure_ok, last, u32_read]
  exact ⟨(), List.take_left' four, 1, rfl, (), rfl, 0, rfl, (), rfl, _, rfl, slot, ⟨rfl, device⟩,
    _, rfl, wordCount, rfl, rfl⟩

theorem parseHeader_eq_ok {header : Str} (whole : header.length = headerLen)
    {parsed : ParsedHeader} :
    parseHeader header = .ok parsed ↔ parsed.slot.hasDeviceBlob ∧ ∃ nonce,
      header = encodeHeader parsed.slot parsed.wordCount nonce parsed.birthday := by
  constructor
  · intro run
    simp only [parseHeader, bind_eq_ok, rejectIf_eq_ok, expect_eq_ok, okOr_eq_ok,
      KeySlot.fromU8_device, WordCount.fromWords_eq_some, ne_eq, not_not, pure_ok,
      Except.ok.injEq] at run
    obtain ⟨_, start, _, at4, _, rfl, _, at6, _, rfl, _, at5, slot, ⟨rfl, device⟩, _, at7, count,
      rfl, rfl⟩ := run
    have birthday : (header.drop 32).length = 4 := by
      rw [List.length_drop, whole]
      rfl
    refine ⟨device, BitVec.ofNat 192 (Bytes.beValue (nonceFromHeader header)), ?_⟩
    rw [encodeHeader, u32_write birthday,
      beBytes_beValue (show 256 ^ 24 ≤ 2 ^ 192 by norm_num) (nonceFromHeader_length whole)]
    calc header
      _ = header.take 4 ++ header.drop 4 := (List.take_append_drop 4 header).symm
      _ = magic ++ (1 :: slot.asU8 :: 0 :: count.words :: header.drop 8) := by
        rw [start, drop_of_getElem? at4, drop_of_getElem? at5, drop_of_getElem? at6,
          drop_of_getElem? at7]
      _ = magic ++ ([1, slot.asU8, 0, count.words] ++
          (nonceFromHeader header ++ header.drop 32)) := by
        rw [nonceFromHeader, ← List.drop_drop (i := 24) (j := 8), List.take_append_drop]
        rfl
  · intro written
    obtain ⟨device, nonce, encoded⟩ := written
    rw [encoded, parseHeader_encoded device]

end Header

section Blob

variable {env : StatePrimitives} {kek : Str}

theorem encryptAtNonce_eq_ok {slot : KeySlot} {wordCount : WordCount} {nonce : BitVec 192}
    {birthday : UInt32} {entropy blob : Str} {createdAt : UInt64} :
    encryptAtNonce env kek slot wordCount nonce birthday entropy createdAt = .ok blob ↔
      slot.hasDeviceBlob ∧ entropy.length = wordCount.entropyBytes ∧ ∃ body,
        env.aeadSeal kek (beBytes 24 nonce) (encodeHeader slot wordCount nonce birthday)
          (entropy ++ Bytes.le createdAtLen createdAt.toNat) = some body ∧
        blob = encodeHeader slot wordCount nonce birthday ++ body := by
  simp only [encryptAtNonce, bind_eq_ok, rejectIf_eq_ok, expect_eq_ok, ne_eq, not_not, pure_ok,
    Except.ok.injEq, nonceFromHeader_encodeHeader]
  constructor
  · intro run
    obtain ⟨_, device, _, width, body, made, blob⟩ := run
    exact ⟨device, width, body, made, blob.symm⟩
  · intro parts
    obtain ⟨device, width, body, made, blob⟩ := parts
    exact ⟨(), device, (), width, body, made, blob.symm⟩

theorem decrypt_eq_ok {blob : Str} {d : DecodedBlob} :
    decrypt env.toSignPrimitives kek blob = .ok d ↔
      d.slot.hasDeviceBlob ∧ d.entropy.length = d.wordCount.entropyBytes ∧
      ∃ nonce body, tagLen ≤ body.length ∧
        blob = encodeHeader d.slot d.wordCount nonce d.birthday ++ body ∧
        env.aeadOpen kek (beBytes 24 nonce) (encodeHeader d.slot d.wordCount nonce d.birthday)
          body = some (d.entropy ++ Bytes.le createdAtLen d.createdAt.toNat) := by
  simp only [decrypt, bind_eq_ok, rejectIf_eq_ok, okOr_eq_ok, Nat.add_sub_cancel, ne_eq, not_not,
    pure_ok, Except.ok.injEq]
  constructor
  · intro run
    obtain ⟨_, long, parsed, header, plaintext, opened, _, width, rfl⟩ := run
    have whole : (blob.take headerLen).length = headerLen := by
      rw [List.length_take]
      omega
    obtain ⟨device, nonce, encoded⟩ := (parseHeader_eq_ok whole).mp header
    have time : (plaintext.drop parsed.wordCount.entropyBytes).length = 8 := by
      rw [List.length_drop, width, Nat.add_sub_cancel_left]
      rfl
    refine ⟨device, ?_, nonce, blob.drop headerLen, ?_, ?_, ?_⟩
    · rw [List.length_take, width]
      exact Nat.min_eq_left (Nat.le_add_right _ _)
    · rw [List.length_drop]
      omega
    · rw [← encoded, List.take_append_drop]
    · have drawn : (List.drop 8 (blob.take headerLen)).take 24 = beBytes 24 nonce := by
        rw [encoded]
        exact nonceFromHeader_encodeHeader parsed.slot parsed.wordCount nonce parsed.birthday
      rw [drawn, encoded] at opened
      rw [opened, createdAtLen, u64_write time, List.take_append_drop]
  · intro accepted
    obtain ⟨device, width, nonce, body, tagged, rfl, opened⟩ := accepted
    have whole := encodeHeader_whole d.slot d.wordCount nonce d.birthday
    refine ⟨(), ?_, ⟨d.slot, d.wordCount, d.birthday⟩, ?_,
      d.entropy ++ Bytes.le createdAtLen d.createdAt.toNat, ?_, (), ?_, ?_⟩
    · rw [List.length_append, whole]
      omega
    · rw [List.take_left' whole]
      exact parseHeader_encoded device _ _ _
    · rw [List.take_left' whole, List.drop_left' whole]
      have drawn := nonceFromHeader_encodeHeader d.slot d.wordCount nonce d.birthday
      rw [nonceFromHeader] at drawn
      rw [drawn]
      exact opened
    · rw [List.length_append, width, Bytes.le_length]
    · rw [List.take_left' width, List.drop_left' width, createdAtLen, u64_read]

theorem decrypt_iff_encrypted (cipher : AeadExact env) (key : kek.length = 32) (blob : Str)
    (d : DecodedBlob) :
    decrypt env.toSignPrimitives kek blob = .ok d ↔ ∃ nonce,
      encryptAtNonce env kek d.slot d.wordCount nonce d.birthday d.entropy d.createdAt =
        .ok blob := by
  simp only [decrypt_eq_ok, encryptAtNonce_eq_ok]
  constructor
  · intro ⟨device, width, nonce, body, _, split, opened⟩
    exact ⟨nonce, device, width, body,
      (cipher.opens _ _ _ _ _ key (beBytes_length 24 nonce)).mp opened, split⟩
  · intro ⟨nonce, device, width, body, made, split⟩
    exact ⟨device, width, nonce, body, cipher.tagged _ _ _ _ _ made, split,
      (cipher.opens _ _ _ _ _ key (beBytes_length 24 nonce)).mpr made⟩

theorem decrypt_sealed (cipher : AeadExact env) (key : kek.length = 32) {header body : Str}
    (whole : header.length = headerLen) {d : DecodedBlob}
    (run : decrypt env.toSignPrimitives kek (header ++ body) = .ok d) :
    ∃ message, env.aeadSeal kek (nonceFromHeader header) header message = some body := by
  obtain ⟨_, _, nonce, body', _, split, opened⟩ := decrypt_eq_ok.mp run
  have encoded := encodeHeader_whole d.slot d.wordCount nonce d.birthday
  obtain ⟨rfl, rfl⟩ := List.append_inj split (whole.trans encoded.symm)
  rw [nonceFromHeader_encodeHeader]
  exact ⟨_, (cipher.opens _ _ _ _ _ key (beBytes_length 24 nonce)).mp opened⟩

end Blob

/-- A blob opens to a record exactly when it is an encryption of that record at
    some nonce. What opens is a device slot with entropy of the length its word
    count asks for; under any other header the body opens only if the cipher
    seals some message to it there. -/
theorem decrypt_exact (env : StatePrimitives) (cipher : AeadExact env) (kek : Str)
    (key : kek.length = 32) (blob : Str) (d : DecodedBlob) :
    (decrypt env.toSignPrimitives kek blob = .ok d ↔ ∃ nonce,
      encryptAtNonce env kek d.slot d.wordCount nonce d.birthday d.entropy d.createdAt =
        .ok blob) ∧
    (decrypt env.toSignPrimitives kek blob = .ok d →
      (d.slot = .a ∨ d.slot = .b) ∧ d.entropy.length = d.wordCount.entropyBytes ∧
      ∀ header : Str, header.length = headerLen → header ≠ blob.take headerLen → ∀ d' : DecodedBlob,
        decrypt env.toSignPrimitives kek (header ++ blob.drop headerLen) = .ok d' →
        ∃ message, env.aeadSeal kek (nonceFromHeader header) header message =
          some (blob.drop headerLen)) := by
  refine ⟨decrypt_iff_encrypted cipher key blob d, ?_⟩
  intro accepted
  obtain ⟨device, width, _⟩ := decrypt_eq_ok.mp accepted
  refine ⟨?_, width, ?_⟩
  · cases slot : d.slot with
    | a => exact .inl rfl
    | b => exact .inr rfl
    | c => simp [slot, KeySlot.hasDeviceBlob] at device
  · intro header whole _ d' changed
    exact decrypt_sealed cipher key whole changed

namespace Sample

theorem stateEnv_exact : AeadExact stateEnv where
  opens := by
    intro kek nonce header body message _ _
    exact XChaCha.decrypt_eq_some
  tagged := by
    intro kek nonce header message body sealed
    rw [XChaCha.encrypt_length sealed]
    exact Nat.le_add_left _ _

def recordA : DecodedBlob := ⟨.a, .twentyFour, 840000, List.replicate 32 0xa0, 1700000000⟩

end Sample

/-- The blob of key A is what its record is encrypted to, and opens to it. -/
theorem decrypt_exact_sample :
    encrypt Sample.stateEnv Sample.secretA.kek .a .twentyFour
        (some 0x222222222222222222222222222222222222222222222222) 840000
        (List.replicate 32 0xa0) 1700000000 =
      .ok (Sample.secretA.header ++ Sample.secretA.ciphertext) ∧
      decrypt Sample.signEnv Sample.secretA.kek
        (Sample.secretA.header ++ Sample.secretA.ciphertext) = .ok Sample.recordA := by
  have encrypted : encrypt Sample.stateEnv Sample.secretA.kek .a .twentyFour
      (some 0x222222222222222222222222222222222222222222222222) 840000
      (List.replicate 32 0xa0) 1700000000 =
        .ok (Sample.secretA.header ++ Sample.secretA.ciphertext) := by decide +kernel
  exact ⟨encrypted, (decrypt_exact Sample.stateEnv Sample.stateEnv_exact _ (by decide) _
    Sample.recordA).1.mpr ⟨_, encrypted⟩⟩

end Trinity
