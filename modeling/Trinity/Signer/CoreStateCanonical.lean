import Trinity.Keystore.Seal
import Trinity.Signer.CoreState

/-!
The plaintext of the spend window is canonical: a state has one encoding, and
the decoder accepts that one only. No range it reads leaves the buffer.
-/
namespace Trinity

open Outcome

section Written

variable {buf : Str}

theorem u32At_written {off : Nat} (inside : off + 4 ≤ buf.length) :
    Bytes.le 4 (u32At buf off).toNat = Bytes.slice buf off (off + 4) := by
  apply u32_write
  rw [Bytes.slice_length inside]
  omega

theorem u64At_written {off : Nat} (inside : off + 8 ≤ buf.length) :
    Bytes.le 8 (u64At buf off).toNat = Bytes.slice buf off (off + 8) := by
  apply u64_write
  rw [Bytes.slice_length inside]
  omega

theorem count_written {off : Nat} (inside : off + 2 ≤ buf.length) :
    Bytes.le 2 (leValue (Bytes.slice buf off (off + 2))) = Bytes.slice buf off (off + 2) := by
  apply leValue_inv
  rw [Bytes.slice_length inside]
  omega

theorem inputs_written {ni off : Nat} {inputs : List OutPoint}
    (run : decodeInputs buf ni off = .ok inputs) :
    inputs.length = ni ∧ inputs.flatMap OutPoint.encode = Bytes.slice buf off (off + ni * 36) := by
  induction ni generalizing off inputs with
  | zero =>
    obtain rfl := Except.ok.inj run
    simp [Bytes.slice]
  | succ ni ih =>
    simp only [decodeInputs, bind_eq_ok, checkedSlice_eq_ok, readU32_eq_ok, pure_ok,
      Except.ok.injEq] at run
    obtain ⟨_, ⟨⟨_, inside⟩, rfl⟩, _, ⟨behind, rfl⟩, rest, later, rfl⟩ := run
    obtain ⟨count, written⟩ := ih later
    have txid : beBytes 32 (BitVec.ofNat 256 (Bytes.beValue (Bytes.slice buf off (off + 32)))) =
        Bytes.slice buf off (off + 32) := by
      apply beBytes_beValue (by norm_num)
      rw [Bytes.slice_length inside]
      omega
    have stop : off + 36 + ni * 36 = off + (ni + 1) * 36 := by omega
    rw [List.length_cons, count, List.flatMap_cons, written, OutPoint.encode, txid,
      u32At_written behind, Bytes.slice_append (by omega) (by omega),
      Bytes.slice_append (by omega) (by omega), stop]
    exact ⟨rfl, rfl⟩

theorem decodeInputs_total {ni off : Nat} (inside : off + ni * 36 ≤ buf.length) :
    ∃ inputs, decodeInputs buf ni off = .ok inputs := by
  induction ni generalizing off with
  | zero => exact ⟨[], rfl⟩
  | succ ni ih =>
    obtain ⟨rest, later⟩ := @ih (off + 36) (by omega)
    rw [decodeInputs, checkedSlice_eq_ok.mpr ⟨⟨by omega, by omega⟩, rfl⟩, bind_ok,
      readU32_eq_ok.mpr ⟨by omega, rfl⟩, bind_ok, later]
    exact ⟨_, rfl⟩

theorem bookings_written {n off stop : Nat} {rows : List BookedSpend}
    (run : decodeBookings buf n off = .ok (rows, stop)) (inside : off ≤ buf.length) :
    off ≤ stop ∧ stop ≤ buf.length ∧ rows.length = n ∧ (∀ b ∈ rows, b.Storable) ∧
      rows.flatMap BookedSpend.layout = Bytes.slice buf off stop := by
  induction n generalizing off rows with
  | zero =>
    simp only [decodeBookings, Except.ok.injEq, Prod.mk.injEq] at run
    obtain ⟨rfl, rfl⟩ := run
    simp [inside, Bytes.slice]
  | succ n ih =>
    simp only [decodeBookings, bind_eq_ok, rejectIf_eq_ok, checkedSlice_eq_ok, readU64_eq_ok,
      Prod.exists, pure_ok, Except.ok.injEq, Prod.mk.injEq] at run
    obtain ⟨_, long, _, ⟨_, rfl⟩, _, ⟨_, rfl⟩, _, ⟨_, rfl⟩, _, few, _, room, inputs, read, rest, _,
      later, rfl, rfl⟩ := run
    obtain ⟨order, last, count, storable, laid⟩ := ih later (by omega)
    obtain ⟨number, encoded⟩ := inputs_written read
    have some : 0 < leValue (Bytes.slice buf (off + 16) (off + 18)) := by omega
    refine ⟨by omega, last, by rw [List.length_cons, count], ?_, ?_⟩
    · rw [List.forall_mem_cons]
      refine ⟨⟨?_, by rw [number]; omega⟩, storable⟩
      rw [← List.length_pos_iff, number]
      exact some
    · rw [List.flatMap_cons, laid, BookedSpend.layout, number, encoded,
        u64At_written (by omega), u64At_written (by omega),
        @count_written buf (off + 16) (by omega)]
      simp (disch := omega) only [Bytes.slice_append]

theorem optU32_fromOptU32 (v : UInt32) : optU32 (fromOptU32 v) = v := by
  unfold fromOptU32
  split
  · rename_i unknown
    exact unknown.symm
  · rfl

theorem optU64_fromOptU64 (v : UInt64) : optU64 (fromOptU64 v) = v := by
  unfold fromOptU64
  split
  · rename_i unknown
    exact unknown.symm
  · rfl

theorem fromOptU32_known (v : UInt32) : fromOptU32 v ≠ some unknownU32 := by
  unfold fromOptU32
  split <;> simp_all

theorem fromOptU64_known (v : UInt64) : fromOptU64 v ≠ some unknownU64 := by
  unfold fromOptU64
  split <;> simp_all

theorem flags_written {flags : UInt8} (mask : flags &&& ~~~3 = 0) :
    ((if (flags &&& 1 != 0) = true then 1 else 0) |||
      (if (flags &&& 2 != 0) = true then 2 else 0) : UInt8) = flags := by
  have each : ∀ n : Fin 256, UInt8.ofNat n.val &&& ~~~3 = 0 →
      ((if (UInt8.ofNat n.val &&& 1 != 0) = true then 1 else 0) |||
        (if (UInt8.ofNat n.val &&& 2 != 0) = true then 2 else 0) : UInt8) = UInt8.ofNat n.val := by
    decide +kernel
  have here := each ⟨flags.toNat, flags.toNat_lt⟩
  simp only [UInt8.ofNat_toNat] at here
  exact here mask

theorem decodePlaintext_written {s : CoreState} (run : CoreState.decodePlaintext buf = .ok s) :
    s.Storable ∧ s.layout = buf := by
  simp only [CoreState.decodePlaintext, bind_eq_ok, rejectIf_eq_ok, expect_eq_ok,
    checkedSlice_eq_ok, readU32_eq_ok, readU64_eq_ok, Prod.exists, pure_ok, Except.ok.injEq] at run
  obtain ⟨_, long, _, ⟨_, rfl⟩, _, ⟨_, rfl⟩, _, ⟨_, rfl⟩, _, ⟨_, rfl⟩, _, ⟨_, rfl⟩, _, ⟨_, rfl⟩,
    flags, flagsAt, reserved, reservedAt, _, plain, _, ⟨_, rfl⟩, _, few, bookings, stop, rows, _,
    whole, rfl⟩ := run
  obtain ⟨order, _, count, storable, laid⟩ := bookings_written rows (by omega)
  obtain rfl : stop = buf.length := not_not.mp whole
  obtain ⟨zero, mask⟩ := not_or.mp plain
  rw [not_not] at zero mask
  subst zero
  refine ⟨⟨fromOptU32_known _, fromOptU64_known _, fromOptU64_known _, storable, ?_⟩, ?_⟩
  · simp only [count]
    omega
  · simp only [CoreState.layout, CoreState.encodeAnchors, CoreState.flags, optU32_fromOptU32,
      optU64_fromOptU64, count, laid, flags_written mask]
    rw [u64At_written (by omega), u32At_written (by omega), u64At_written (by omega),
      u64At_written (by omega), u64At_written (by omega), u64At_written (by omega),
      @count_written buf 46 (by omega), ← Bytes.slice_one flagsAt, ← Bytes.slice_one reservedAt]
    simp (disch := omega) only [Bytes.slice_append, Nat.reduceAdd, Nat.zero_add]
    exact Bytes.slice_whole buf

theorem decodeBookings_never_aborts (n off : Nat) :
    OnlyFails (fun _ => True) (decodeBookings buf n off) := by
  induction n generalizing off with
  | zero => exact onlyFails_ok _
  | succ n ih =>
    unfold decodeBookings
    apply onlyFails_rejectIf_bind trivial
    intro long
    rw [readU64_eq_ok.mpr ⟨by omega, rfl⟩, bind_ok, readU64_eq_ok.mpr ⟨by omega, rfl⟩, bind_ok,
      checkedSlice_eq_ok.mpr ⟨⟨by omega, by omega⟩, rfl⟩, bind_ok]
    apply onlyFails_rejectIf_bind trivial
    intro _
    apply onlyFails_rejectIf_bind trivial
    intro room
    obtain ⟨inputs, read⟩ := decodeInputs_total (Nat.not_lt.mp room)
    rw [read, bind_ok]
    refine onlyFails_bind (ih _) ?_
    intro read _
    exact onlyFails_ok _

theorem decodePlaintext_never_aborts (buf : Str) :
    OnlyFails (fun _ => True) (CoreState.decodePlaintext buf) := by
  unfold CoreState.decodePlaintext
  apply onlyFails_rejectIf_bind trivial
  intro long
  rw [readU64_eq_ok.mpr ⟨by omega, rfl⟩, bind_ok, readU32_eq_ok.mpr ⟨by omega, rfl⟩, bind_ok,
    readU64_eq_ok.mpr ⟨by omega, rfl⟩, bind_ok, readU64_eq_ok.mpr ⟨by omega, rfl⟩, bind_ok,
    readU64_eq_ok.mpr ⟨by omega, rfl⟩, bind_ok, readU64_eq_ok.mpr ⟨by omega, rfl⟩, bind_ok]
  refine onlyFails_bind (onlyFails_expect ⟨_, List.getElem?_eq_getElem (by omega)⟩) ?_
  intro flags _
  refine onlyFails_bind (onlyFails_expect ⟨_, List.getElem?_eq_getElem (by omega)⟩) ?_
  intro reserved _
  apply onlyFails_rejectIf_bind trivial
  intro _
  rw [checkedSlice_eq_ok.mpr ⟨⟨by omega, by omega⟩, rfl⟩, bind_ok]
  apply onlyFails_rejectIf_bind trivial
  intro _
  refine onlyFails_bind (decodeBookings_never_aborts _ _) ?_
  intro read _
  apply onlyFails_rejectIf_bind trivial
  intro _
  exact onlyFails_ok _

end Written

/-- Encoding and decoding are inverse to each other: a storable state is read
    back from its encoding, an accepted text is the encoding of what it is read
    as, so any other text is rejected or read as another state; and no text
    makes the decoder leave its buffer. -/
theorem core_state_canonical :
    (∀ s : CoreState, s.Storable →
      ∃ p, s.encodePlaintext = .ok p ∧ CoreState.decodePlaintext p = .ok s) ∧
    (∀ (p : Str) (s : CoreState), CoreState.decodePlaintext p = .ok s →
      s.encodePlaintext = .ok p) ∧
    (∀ (s : CoreState) (p altered : Str), s.encodePlaintext = .ok p → altered ≠ p →
      CoreState.decodePlaintext altered ≠ .ok s) ∧
    (∀ p : Str, OnlyFails (fun _ => True) (CoreState.decodePlaintext p)) := by
  have written : ∀ (p : Str) (s : CoreState), CoreState.decodePlaintext p = .ok s →
      s.encodePlaintext = .ok p := by
    intro p s run
    obtain ⟨storable, laid⟩ := decodePlaintext_written run
    rw [encodePlaintext_storable storable, laid]
  refine ⟨?_, written, ?_, ?_⟩
  · intro s storable
    exact ⟨s.layout, encodePlaintext_storable storable, decodePlaintext_layout storable⟩
  · intro s p altered encoded different run
    have again := written altered s run
    exact different (Except.ok.inj (again.symm.trans encoded))
  · exact decodePlaintext_never_aborts

end Trinity
