import Trinity.Signer.Window

/-!
The sealed blob of the spend window, `core_state.rs`: header, plaintext layout
and cipher. A consistent state is read back from its blob as it was written.
-/
namespace Trinity

open Outcome

def CoreState.magic : Str := bytes "TRCS"
def CoreState.version : UInt8 := 1
def CoreState.headerLen : Nat := 32
def CoreState.tagLen : Nat := 16

def unknownU32 : UInt32 := 0xffffffff
def unknownU64 : UInt64 := 0xffffffffffffffff

def optU32 (v : Option UInt32) : UInt32 := v.getD unknownU32
def optU64 (v : Option UInt64) : UInt64 := v.getD unknownU64

def fromOptU32 (v : UInt32) : Option UInt32 := if v = unknownU32 then none else some v
def fromOptU64 (v : UInt64) : Option UInt64 := if v = unknownU64 then none else some v

def CoreState.encodeHeader (nonce : BitVec 192) : Str :=
  CoreState.magic ++ ([CoreState.version] ++ ([0, 0, 0] ++ beBytes 24 nonce))

def CoreState.parseHeader (header : Str) : Outcome CoreStateError Unit := do
  rejectIf (header.take 4 ≠ CoreState.magic) .badMagic
  let version ← expect header[4]?
  rejectIf (version ≠ CoreState.version) (.unsupportedVersion version)
  rejectIf (Bytes.slice header 5 8 ≠ [0, 0, 0]) .unsupportedReserved

def CoreState.nonceFromHeader (header : Str) : Str := header.drop 8

def OutPoint.encode (o : OutPoint) : Str := beBytes 32 o.txid ++ Bytes.le 4 o.vout.toNat

def BookedSpend.layout (b : BookedSpend) : Str :=
  Bytes.le 8 b.elapsedAtNs.toNat ++ (Bytes.le 8 b.amountSat.toNat ++
    (Bytes.le 2 b.inputs.length ++ b.inputs.flatMap OutPoint.encode))

def BookedSpend.encode (b : BookedSpend) : Outcome CoreStateError Str := do
  rejectIf (maxInputs < b.inputs.length ∨ b.inputs.isEmpty) .plaintext
  -- `u16::try_from`
  rejectIf (2 ^ 16 ≤ b.inputs.length) .plaintext
  return b.layout

def CoreState.flags (s : CoreState) : UInt8 :=
  (if s.initialized then 1 else 0) ||| (if s.passphraseUsedSinceInstall then 2 else 0)

def CoreState.encodeAnchors (s : CoreState) (rest : Str) : Str :=
  Bytes.le 8 s.monotonicNsAtAnchor.toNat ++ (Bytes.le 4 (optU32 s.blockHeightAtAnchor).toNat ++
    (Bytes.le 8 (optU64 s.bootIdAtAnchor).toNat ++
    (Bytes.le 8 (optU64 s.wallUnixNsAtAnchor).toNat ++ (Bytes.le 8 s.windowElapsedNs.toNat ++
    (Bytes.le 8 s.windowStartElapsedNs.toNat ++
    ([s.flags] ++ ([0] ++ (Bytes.le 2 s.bookings.length ++ rest))))))))

def CoreState.encodePlaintext (s : CoreState) : Outcome CoreStateError Str := do
  rejectIf (2 ^ 16 ≤ s.bookings.length) .plaintext
  let rows ← s.bookings.mapM BookedSpend.encode
  return s.encodeAnchors rows.flatten

def u32At (buf : Str) (off : Nat) : UInt32 := UInt32.ofNat (leValue (Bytes.slice buf off (off + 4)))
def u64At (buf : Str) (off : Nat) : UInt64 := UInt64.ofNat (leValue (Bytes.slice buf off (off + 8)))

def checkedSlice (buf : Str) (start stop : Nat) : Outcome CoreStateError Str := do
  abortUnless (start ≤ stop ∧ stop ≤ buf.length)
  return Bytes.slice buf start stop

def readU32 (buf : Str) (off : Nat) : Outcome CoreStateError UInt32 := do
  abortUnless (off + 4 ≤ buf.length)
  return u32At buf off

def readU64 (buf : Str) (off : Nat) : Outcome CoreStateError UInt64 := do
  abortUnless (off + 8 ≤ buf.length)
  return u64At buf off

def decodeInputs (buf : Str) : Nat → Nat → Outcome CoreStateError (List OutPoint)
  | 0, _ => .ok []
  | ni + 1, off => do
    let txid ← checkedSlice buf off (off + 32)
    let vout ← readU32 buf (off + 32)
    let rest ← decodeInputs buf ni (off + 36)
    return ⟨BitVec.ofNat 256 (Bytes.beValue txid), vout⟩ :: rest

def decodeBookings (buf : Str) : Nat → Nat → Outcome CoreStateError (List BookedSpend × Nat)
  | 0, off => .ok ([], off)
  | n + 1, off => do
    rejectIf (buf.length < off + 18) .plaintext
    let elapsedAtNs ← readU64 buf off
    let amountSat ← readU64 buf (off + 8)
    let count ← checkedSlice buf (off + 16) (off + 18)
    let ni := leValue count
    rejectIf (ni = 0 ∨ maxInputs < ni) .plaintext
    rejectIf (buf.length < off + 18 + ni * 36) .plaintext
    let inputs ← decodeInputs buf ni (off + 18)
    let (rest, stop) ← decodeBookings buf n (off + 18 + ni * 36)
    return (⟨inputs, amountSat, elapsedAtNs⟩ :: rest, stop)

def CoreState.decodePlaintext (buf : Str) : Outcome CoreStateError CoreState := do
  rejectIf (buf.length < 48) .plaintext
  let monotonicNsAtAnchor ← readU64 buf 0
  let blockRaw ← readU32 buf 8
  let bootRaw ← readU64 buf 12
  let wallRaw ← readU64 buf 20
  let windowElapsedNs ← readU64 buf 28
  let windowStartElapsedNs ← readU64 buf 36
  let flags : UInt8 ← expect buf[44]?
  let reserved : UInt8 ← expect buf[45]?
  rejectIf (reserved ≠ 0 ∨ flags &&& ~~~3 ≠ 0) .plaintext
  let count ← checkedSlice buf 46 48
  let n := leValue count
  rejectIf (maxBookings < n) .plaintext
  let (bookings, off) ← decodeBookings buf n 48
  rejectIf (off ≠ buf.length) .plaintext
  return {
    initialized := flags &&& 1 != 0
    monotonicNsAtAnchor := monotonicNsAtAnchor
    blockHeightAtAnchor := fromOptU32 blockRaw
    bootIdAtAnchor := fromOptU64 bootRaw
    wallUnixNsAtAnchor := fromOptU64 wallRaw
    windowElapsedNs := windowElapsedNs
    windowStartElapsedNs := windowStartElapsedNs
    passphraseUsedSinceInstall := flags &&& 2 != 0
    bookings := bookings }

section Ranges

variable {buf : Str} {start stop off : Nat}

theorem checkedSlice_eq_ok {field : Str} : checkedSlice buf start stop = .ok field ↔
    (start ≤ stop ∧ stop ≤ buf.length) ∧ Bytes.slice buf start stop = field := by
  simp [checkedSlice, bind_eq_ok]

theorem readU32_eq_ok {v : UInt32} :
    readU32 buf off = .ok v ↔ off + 4 ≤ buf.length ∧ u32At buf off = v := by
  simp [readU32, bind_eq_ok]

theorem readU64_eq_ok {v : UInt64} :
    readU64 buf off = .ok v ↔ off + 8 ≤ buf.length ∧ u64At buf off = v := by
  simp [readU64, bind_eq_ok]

end Ranges

section Cipher

variable (env : StatePrimitives)

def CoreState.encryptAtNonce (kek : Str) (nonce : BitVec 192) (s : CoreState) :
    Outcome CoreStateError Str := do
  rejectIf (maxBookings < s.bookings.length) .plaintext
  let header := CoreState.encodeHeader nonce
  let plaintext ← s.encodePlaintext
  let ciphertext ← expect (env.aeadSeal kek (CoreState.nonceFromHeader header) header plaintext)
  return header ++ ciphertext

def CoreState.encrypt (kek : Str) (drawn : Option (BitVec 192)) (s : CoreState) :
    Outcome CoreStateError Str := do
  let nonce ← okOr drawn .csRng
  s.encryptAtNonce env kek nonce

def CoreState.decrypt (kek blob : Str) : Outcome CoreStateError CoreState := do
  rejectIf (blob.length < CoreState.headerLen + CoreState.tagLen) .truncated
  let header := blob.take CoreState.headerLen
  CoreState.parseHeader header
  let plaintext ← okOr (env.aeadOpen kek (CoreState.nonceFromHeader header) header
    (blob.drop CoreState.headerLen)) .aead
  CoreState.decodePlaintext plaintext

def WindowCounter.open (kek blob : Str) : Outcome SignError WindowCounter := do
  rejectIf (kek.length ≠ 32) .invalidKekLength
  let state ← mapErr .coreState (CoreState.decrypt env kek blob)
  return ⟨kek, state⟩

/-- Copying a key of another length into the cipher's key array aborts. -/
def WindowCounter.seal (c : WindowCounter) (drawn : Option (BitVec 192)) :
    Outcome SignError Str := do
  abortUnless (c.kek.length = 32)
  mapErr .coreState (c.state.encrypt env c.kek drawn)

end Cipher

theorem txid_read (txid : BitVec 256) :
    BitVec.ofNat 256 (Bytes.beValue (beBytes 32 txid)) = txid := by
  rw [beValue_beBytes, Nat.mod_eq_of_lt (lt_of_lt_of_eq txid.isLt (by norm_num)),
    BitVec.ofNat_toNat, BitVec.setWidth_eq]

theorem outPoint_encode_length (o : OutPoint) : o.encode.length = 36 := by
  simp [OutPoint.encode]

theorem inputs_encode_length (inputs : List OutPoint) :
    (inputs.flatMap OutPoint.encode).length = inputs.length * 36 := by
  induction inputs with
  | nil => rfl
  | cons o rest ih =>
    rw [List.flatMap_cons, List.length_append, outPoint_encode_length, ih, List.length_cons]
    omega

theorem decodeInputs_encode (inputs : List OutPoint) (before after : Str) :
    decodeInputs (before ++ (inputs.flatMap OutPoint.encode ++ after)) inputs.length before.length =
      .ok inputs := by
  induction inputs generalizing before with
  | nil => rfl
  | cons o rest ih =>
    have next := ih (before ++ o.encode)
    rw [List.length_append, outPoint_encode_length, List.append_assoc] at next
    rw [List.flatMap_cons, List.append_assoc, List.length_cons, decodeInputs]
    have txid : Bytes.slice (before ++ (o.encode ++ (rest.flatMap OutPoint.encode ++ after)))
        before.length (before.length + 32) = beBytes 32 o.txid := by
      rw [OutPoint.encode, List.append_assoc]
      exact Bytes.slice_at rfl (by simp)
    have vout : u32At (before ++ (o.encode ++ (rest.flatMap OutPoint.encode ++ after)))
        (before.length + 32) = o.vout := by
      rw [OutPoint.encode, List.append_assoc, ← List.append_assoc, u32At,
        Bytes.slice_at (by simp) (by simp), u32_read]
    have room : before.length + 36 ≤
        (before ++ (o.encode ++ (rest.flatMap OutPoint.encode ++ after))).length := by
      simp only [List.length_append, outPoint_encode_length]
      omega
    simp only [bind_eq_ok, checkedSlice_eq_ok, readU32_eq_ok]
    refine ⟨_, ⟨⟨by omega, by omega⟩, txid⟩, _, ⟨room, vout⟩, _, next, ?_⟩
    rw [txid_read, pure_ok]

def BookedSpend.Storable (b : BookedSpend) : Prop := b.inputs ≠ [] ∧ b.inputs.length ≤ maxInputs

theorem encode_storable {b : BookedSpend} (storable : b.Storable) : b.encode = .ok b.layout := by
  obtain ⟨inhabited, few⟩ := storable
  have narrow : b.inputs.length < 2 ^ 16 := Nat.lt_of_le_of_lt few (by decide)
  simp only [BookedSpend.encode, bind_eq_ok, rejectIf_eq_ok, List.isEmpty_iff]
  exact ⟨(), by simp [inhabited, few], (), by omega, rfl⟩

theorem layout_length (b : BookedSpend) : b.layout.length = 18 + b.inputs.length * 36 := by
  simp only [BookedSpend.layout, List.length_append, Bytes.le_length, inputs_encode_length]
  omega

theorem row_fields {b : BookedSpend} (storable : b.Storable) (before after : Str) :
    u64At (before ++ (b.layout ++ after)) before.length = b.elapsedAtNs ∧
    u64At (before ++ (b.layout ++ after)) (before.length + 8) = b.amountSat ∧
    leValue (Bytes.slice (before ++ (b.layout ++ after)) (before.length + 16)
      (before.length + 18)) = b.inputs.length ∧
    decodeInputs (before ++ (b.layout ++ after)) b.inputs.length (before.length + 18) =
      .ok b.inputs := by
  have narrow : b.inputs.length < 256 ^ 2 := Nat.lt_of_le_of_lt storable.2 (by decide)
  simp only [BookedSpend.layout, List.append_assoc]
  refine ⟨?_, ?_, ?_, ?_⟩
  · rw [u64At, Bytes.slice_at rfl (by simp), u64_read]
  · rw [← List.append_assoc, u64At, Bytes.slice_at (by simp) (by simp), u64_read]
  · rw [← List.append_assoc, ← List.append_assoc, Bytes.slice_at (by simp) (by simp),
      leValue_le narrow]
  · rw [← List.append_assoc, ← List.append_assoc, ← List.append_assoc]
    have read := decodeInputs_encode b.inputs (((before ++ Bytes.le 8 b.elapsedAtNs.toNat) ++
      Bytes.le 8 b.amountSat.toNat) ++ Bytes.le 2 b.inputs.length) after
    simpa [Nat.add_assoc] using read

theorem decodeBookings_layout {bookings : List BookedSpend} (storable : ∀ b ∈ bookings, b.Storable)
    (before : Str) :
    decodeBookings (before ++ bookings.flatMap BookedSpend.layout) bookings.length before.length =
      .ok (bookings, (before ++ bookings.flatMap BookedSpend.layout).length) := by
  induction bookings generalizing before with
  | nil => simp [decodeBookings]
  | cons b rest ih =>
    obtain ⟨here, later⟩ := List.forall_mem_cons.mp storable
    obtain ⟨elapsed, amount, count, inputs⟩ :=
      row_fields here before (rest.flatMap BookedSpend.layout)
    have next := ih later (before ++ b.layout)
    have size := layout_length b
    have inhabited : b.inputs.length ≠ 0 := by simpa using here.1
    have few := here.2
    rw [List.length_append, size, ← Nat.add_assoc, List.append_assoc] at next
    rw [List.flatMap_cons, List.length_cons, decodeBookings]
    have room : before.length + (18 + b.inputs.length * 36) ≤
        (before ++ (b.layout ++ rest.flatMap BookedSpend.layout)).length := by
      simp only [List.length_append, size]
      omega
    simp only [bind_eq_ok, rejectIf_eq_ok, checkedSlice_eq_ok, readU64_eq_ok]
    refine ⟨(), by omega, _, ⟨by omega, elapsed⟩, _, ⟨by omega, amount⟩, _,
      ⟨⟨by omega, by omega⟩, rfl⟩, ?_⟩
    rw [count]
    exact ⟨(), by omega, (), by omega, _, inputs, _, next, rfl⟩

theorem fromOptU32_optU32 {v : Option UInt32} (known : v ≠ some unknownU32) :
    fromOptU32 (optU32 v) = v := by
  cases v with
  | none => rfl
  | some x => exact if_neg fun same => known (congrArg some same)

theorem fromOptU64_optU64 {v : Option UInt64} (known : v ≠ some unknownU64) :
    fromOptU64 (optU64 v) = v := by
  cases v with
  | none => rfl
  | some x => exact if_neg fun same => known (congrArg some same)

theorem flags_read (s : CoreState) :
    s.flags &&& ~~~3 = 0 ∧ (s.flags &&& 1 != 0) = s.initialized ∧
      (s.flags &&& 2 != 0) = s.passphraseUsedSinceInstall := by
  unfold CoreState.flags
  cases s.initialized <;> cases s.passphraseUsedSinceInstall <;> decide

/-- A state the format can hold: the readings reserved for unknown do not
    occur, and every row can be written. -/
structure CoreState.Storable (s : CoreState) : Prop where
  height : s.blockHeightAtAnchor ≠ some unknownU32
  boot : s.bootIdAtAnchor ≠ some unknownU64
  wall : s.wallUnixNsAtAnchor ≠ some unknownU64
  rows : ∀ b ∈ s.bookings, b.Storable
  bounded : s.bookings.length ≤ maxBookings

def CoreState.layout (s : CoreState) : Str :=
  s.encodeAnchors (s.bookings.flatMap BookedSpend.layout)

theorem encodePlaintext_storable {s : CoreState} (storable : s.Storable) :
    s.encodePlaintext = .ok s.layout := by
  have narrow : s.bookings.length < 2 ^ 16 := Nat.lt_of_le_of_lt storable.bounded (by decide)
  have rows : s.bookings.mapM BookedSpend.encode = .ok (s.bookings.map BookedSpend.layout) := by
    rw [mapM_eq_ok, List.forall₂_map_right_iff, List.forall₂_same]
    intro b member
    exact encode_storable (storable.rows b member)
  simp only [CoreState.encodePlaintext, rejectIf_of_not _ (Nat.not_le.mpr narrow), rows, bind_ok,
    pure_ok]
  rfl

theorem anchors_split (s : CoreState) (rest : Str) :
    ∃ head, s.encodeAnchors rest = head ++ rest ∧ head.length = 48 :=
  ⟨s.encodeAnchors [], by simp [CoreState.encodeAnchors], by simp [CoreState.encodeAnchors]⟩

theorem anchor_fields (s : CoreState) (rest : Str) :
    u64At (s.encodeAnchors rest) 0 = s.monotonicNsAtAnchor ∧
    u32At (s.encodeAnchors rest) 8 = optU32 s.blockHeightAtAnchor ∧
    u64At (s.encodeAnchors rest) 12 = optU64 s.bootIdAtAnchor ∧
    u64At (s.encodeAnchors rest) 20 = optU64 s.wallUnixNsAtAnchor ∧
    u64At (s.encodeAnchors rest) 28 = s.windowElapsedNs ∧
    u64At (s.encodeAnchors rest) 36 = s.windowStartElapsedNs := by
  simp only [u64At, u32At, CoreState.encodeAnchors]
  -- each offset is brought to the front of its field, then the field is read
  simp (disch := simp) only [Bytes.slice_skip, Bytes.slice_field, Bytes.le_length, Nat.reduceSub,
    Nat.reduceAdd, Nat.zero_add, u64_read, u32_read, and_self]

theorem anchor_count (s : CoreState) (rest : Str) (few : s.bookings.length ≤ maxBookings) :
    leValue (Bytes.slice (s.encodeAnchors rest) 46 48) = s.bookings.length ∧
      (s.encodeAnchors rest)[44]? = some s.flags ∧ (s.encodeAnchors rest)[45]? = some 0 := by
  have narrow : s.bookings.length < 256 ^ 2 := Nat.lt_of_le_of_lt few (by decide)
  simp only [CoreState.encodeAnchors]
  refine ⟨?_, ?_, ?_⟩
  · simp (disch := simp) only [Bytes.slice_skip, Bytes.slice_field, Bytes.le_length,
      List.length_singleton, Nat.reduceSub, leValue_le narrow]
  · simp [List.getElem?_append]
  · simp [List.getElem?_append]

theorem decodePlaintext_layout {s : CoreState} (storable : s.Storable) :
    CoreState.decodePlaintext s.layout = .ok s := by
  obtain ⟨head, split, size⟩ := anchors_split s (s.bookings.flatMap BookedSpend.layout)
  obtain ⟨mono, height, boot, wall, elapsed, start⟩ :=
    anchor_fields s (s.bookings.flatMap BookedSpend.layout)
  obtain ⟨count, flagsAt, reservedAt⟩ :=
    anchor_count s (s.bookings.flatMap BookedSpend.layout) storable.bounded
  obtain ⟨mask, first, second⟩ := flags_read s
  have rows := decodeBookings_layout storable.rows head
  rw [← split, size] at rows
  have long : ¬ s.layout.length < 48 := by
    rw [CoreState.layout, split, List.length_append, size]
    omega
  simp only [CoreState.decodePlaintext, bind_eq_ok, rejectIf_eq_ok, expect_eq_ok,
    checkedSlice_eq_ok, readU32_eq_ok, readU64_eq_ok]
  refine ⟨(), long, _, ⟨by omega, mono⟩, _, ⟨by omega, height⟩, _, ⟨by omega, boot⟩, _,
    ⟨by omega, wall⟩, _, ⟨by omega, elapsed⟩, _, ⟨by omega, start⟩, s.flags, flagsAt, 0,
    reservedAt, (), by simp [mask], _, ⟨⟨by omega, by omega⟩, rfl⟩, (), ?_,
    (s.bookings, s.layout.length), ?_, (), not_not_intro rfl, ?_⟩
  · exact count.symm ▸ Nat.not_lt.mpr storable.bounded
  · exact count.symm ▸ rows
  · simp only [pure_ok, first, second, fromOptU32_optU32 storable.height,
      fromOptU64_optU64 storable.boot, fromOptU64_optU64 storable.wall]

theorem layout_small {s : CoreState} (storable : s.Storable) : s.layout.length < 2 ^ 32 := by
  obtain ⟨head, split, size⟩ := anchors_split s (s.bookings.flatMap BookedSpend.layout)
  have rows : (s.bookings.flatMap BookedSpend.layout).length ≤ s.bookings.length * 3618 := by
    have each := storable.rows
    generalize s.bookings = bookings at each
    induction bookings with
    | nil => simp
    | cons b rest ih =>
      obtain ⟨here, later⟩ := List.forall_mem_cons.mp each
      have few : b.inputs.length ≤ 100 := here.2
      have := ih later
      rw [List.flatMap_cons, List.length_append, layout_length, List.length_cons]
      omega
  have few : s.bookings.length ≤ 256 := storable.bounded
  rw [CoreState.layout, split, List.length_append, size]
  omega

/-- The cipher opens what it sealed, for keys and nonces of its lengths; a
    ciphertext is the tag longer than the message. -/
def AeadRoundTrip (env : StatePrimitives) : Prop :=
  ∀ kek nonce header message : Str, kek.length = 32 → nonce.length = 24 →
    message.length < 2 ^ 32 →
    ∃ ciphertext, env.aeadSeal kek nonce header message = some ciphertext ∧
      ciphertext.length = message.length + CoreState.tagLen ∧
      env.aeadOpen kek nonce header ciphertext = some message

theorem encodeHeader_length (nonce : BitVec 192) :
    (CoreState.encodeHeader nonce).length = CoreState.headerLen := by
  simp [CoreState.encodeHeader, CoreState.headerLen, show CoreState.magic.length = 4 from rfl]

theorem parseHeader_encodeHeader (nonce : BitVec 192) :
    CoreState.parseHeader (CoreState.encodeHeader nonce) = .ok () := by
  have four : CoreState.magic.length = 4 := rfl
  simp only [CoreState.parseHeader, bind_eq_ok, rejectIf_eq_ok, expect_eq_ok]
  refine ⟨(), ?_, CoreState.version, ?_, (), ?_, ?_⟩
  · rw [CoreState.encodeHeader, List.take_left' four]
    exact not_not_intro rfl
  · simp [CoreState.encodeHeader, four]
  · exact not_not_intro rfl
  · rw [CoreState.encodeHeader]
    simp (disch := simp [four]) only [Bytes.slice_skip, four, List.length_singleton, Nat.reduceSub,
      Bytes.slice_field]
    exact not_not_intro rfl

theorem decrypt_encrypt {env : StatePrimitives} (cipher : AeadRoundTrip env) {kek : Str}
    (key : kek.length = 32) {s : CoreState} (storable : s.Storable) (nonce : BitVec 192) :
    ∃ blob, s.encrypt env kek (some nonce) = .ok blob ∧ CoreState.decrypt env kek blob = .ok s := by
  have header := encodeHeader_length nonce
  have drawn : (CoreState.nonceFromHeader (CoreState.encodeHeader nonce)).length = 24 := by
    rw [CoreState.nonceFromHeader, List.length_drop, header]
    rfl
  obtain ⟨ciphertext, made, longer, opens⟩ := cipher kek
    (CoreState.nonceFromHeader (CoreState.encodeHeader nonce)) (CoreState.encodeHeader nonce)
    s.layout key drawn (layout_small storable)
  refine ⟨CoreState.encodeHeader nonce ++ ciphertext, ?_, ?_⟩
  · simp only [CoreState.encrypt, CoreState.encryptAtNonce, bind_eq_ok, okOr_eq_ok, rejectIf_eq_ok,
      expect_eq_ok]
    exact ⟨nonce, rfl, (), Nat.not_lt.mpr storable.bounded, s.layout,
      encodePlaintext_storable storable, ciphertext, made, rfl⟩
  · simp only [CoreState.decrypt, bind_eq_ok, okOr_eq_ok, rejectIf_eq_ok, List.take_left' header,
      List.drop_left' header]
    refine ⟨(), ?_, (), parseHeader_encodeHeader nonce, s.layout, opens,
      decodePlaintext_layout storable⟩
    rw [List.length_append, header]
    omega

theorem open_seal {env : StatePrimitives} (cipher : AeadRoundTrip env) {c : WindowCounter}
    (key : c.kek.length = 32) (storable : c.state.Storable) (nonce : BitVec 192) :
    ∃ blob, c.seal env (some nonce) = .ok blob ∧ WindowCounter.open env c.kek blob = .ok c := by
  obtain ⟨blob, sealed, opened⟩ := decrypt_encrypt cipher key storable nonce
  refine ⟨blob, ?_, ?_⟩
  · simp only [WindowCounter.seal, bind_eq_ok, abortUnless_eq_ok, mapErr_eq_ok]
    exact ⟨(), key, sealed⟩
  · simp only [WindowCounter.open, bind_eq_ok, rejectIf_eq_ok, mapErr_eq_ok]
    exact ⟨(), not_not_intro key, c.state, opened, rfl⟩

end Trinity
