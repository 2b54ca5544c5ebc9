import Trinity.Verify.Checksum

/-!
What damage the descriptor checksum sees. A changed run of characters changes a
window of symbols: its own, those of the characters up to the next full group,
and the group symbols in between. Four characters stay within the eight symbols
that fill the register, and a register never loses a difference.
-/
namespace Trinity

open Outcome

section Values

theorem inputIndices_inj {s s' : Str} (known : ∀ b ∈ s, b ∈ inputCharset)
    (same : s.map inputIndex = s'.map inputIndex) : s = s' := by
  induction s generalizing s' with
  | nil => exact (List.map_eq_nil_iff.mp same.symm).symm
  | cons b rest ih =>
    match s', same with
    | b' :: rest', same =>
      obtain ⟨member, later⟩ := List.forall_mem_cons.mp known
      obtain ⟨here, there⟩ := List.cons.inj same
      rw [(List.idxOf_inj member).mp here, ih later there]

end Values

/-- Two states of the loop with equally many groups pending. -/
inductive Pending : List Nat → List Nat → Prop where
  | none : Pending [] []
  | one {g g' : Nat} (first : g < 3) (first' : g' < 3) : Pending [g] [g']
  | two {g h g' h' : Nat} (first : g < 3) (second : h < 3) (first' : g' < 3) (second' : h' < 3) :
      Pending [g, h] [g', h']

section Window

theorem expandValues_lt {groups groups' values : List Nat} (pending : Pending groups groups')
    (known : ∀ v ∈ values, v < 96) : ∀ s ∈ expandValues groups values, s < 2 ^ 5 := by
  induction values generalizing groups groups' with
  | nil =>
    cases pending with
    | none => simp [expandValues]
    | one first _ =>
      simp only [expandValues, List.mem_singleton, forall_eq]
      omega
    | two first second _ _ =>
      simp only [expandValues, List.mem_singleton, forall_eq]
      omega
  | cons v rest ih =>
    obtain ⟨here, later⟩ := List.forall_mem_cons.mp known
    have third : v / 32 < 3 := by omega
    cases pending with
    | none =>
      simp only [expandValues, List.nil_append, List.forall_mem_cons]
      exact ⟨by omega, ih (.one third third) later⟩
    | one first first' =>
      simp only [expandValues, List.cons_append, List.nil_append, List.forall_mem_cons]
      exact ⟨by omega, ih (.two first third first' third) later⟩
    | two first second _ _ =>
      simp only [expandValues, List.forall_mem_cons]
      exact ⟨by omega, by omega, ih .none later⟩

theorem expandValues_inj {groups groups' values values' : List Nat}
    (pending : Pending groups groups') (count : values'.length = values.length)
    (known : ∀ v ∈ values, v < 96) (known' : ∀ v ∈ values', v < 96)
    (same : expandValues groups values = expandValues groups' values') :
    groups = groups' ∧ values = values' := by
  induction values generalizing groups groups' values' with
  | nil =>
    obtain rfl := List.length_eq_zero_iff.mp count
    cases pending with
    | none => exact ⟨rfl, rfl⟩
    | one first first' => exact ⟨same, rfl⟩
    | two first second first' second' =>
      simp only [expandValues, List.cons.injEq, and_true] at same
      simp only [List.cons.injEq, and_true]
      omega
  | cons v rest ih =>
    cases values' with
    | nil => exact absurd count.symm (Nat.succ_ne_zero _)
    | cons v' rest' =>
      rw [List.length_cons, List.length_cons, Nat.succ.injEq] at count
      obtain ⟨here, later⟩ := List.forall_mem_cons.mp known
      obtain ⟨here', later'⟩ := List.forall_mem_cons.mp known'
      have third : v / 32 < 3 := by omega
      have third' : v' / 32 < 3 := by omega
      cases pending with
      | none =>
        simp only [expandValues, List.nil_append, List.cons.injEq] at same
        obtain ⟨low, tail⟩ := same
        obtain ⟨high, rests⟩ := ih (.one third third') count later later' tail
        rw [List.cons.injEq] at high
        refine ⟨rfl, ?_⟩
        rw [rests, show v = v' by omega]
      | one first first' =>
        simp only [expandValues, List.cons_append, List.nil_append, List.cons.injEq] at same
        obtain ⟨low, tail⟩ := same
        obtain ⟨high, rests⟩ := ih (.two first third first' third') count later later' tail
        simp only [List.cons.injEq, and_true] at high
        refine ⟨by rw [high.1], ?_⟩
        rw [rests, show v = v' by omega]
      | @two g h g' h' first second first' second' =>
        simp only [expandValues, List.cons.injEq] at same
        obtain ⟨low, group, tail⟩ := same
        obtain ⟨_, rests⟩ := ih .none count later later' tail
        rw [rests, show v = v' by omega, show g = g' by omega, show h = h' by omega]
        exact ⟨rfl, rfl⟩

theorem expandValues_settle_two (g h g' h' : Nat) (values : List Nat) :
    ∃ window window' rest, window'.length = window.length ∧ window.length ≤ 2 ∧
      expandValues [g, h] values = window ++ rest ∧
      expandValues [g', h'] values = window' ++ rest := by
  cases values with
  | nil => exact ⟨[g * 3 + h], [g' * 3 + h'], [], rfl, by simp, rfl, rfl⟩
  | cons v later =>
    exact ⟨[v % 32, g * 9 + h * 3 + v / 32], [v % 32, g' * 9 + h' * 3 + v / 32],
      expandValues [] later, rfl, by simp, rfl, rfl⟩

theorem expandValues_settle {groups groups' : List Nat} (pending : Pending groups groups')
    (values : List Nat) :
    ∃ window window' rest, window'.length = window.length ∧
      window.length ≤ (groups.length + 2) / 3 + (3 - groups.length) % 3 ∧
      expandValues groups values = window ++ rest ∧
      expandValues groups' values = window' ++ rest := by
  cases pending with
  | none => exact ⟨[], [], expandValues [] values, rfl, by simp, rfl, rfl⟩
  | @one g g' _ _ =>
    cases values with
    | nil => exact ⟨[g], [g'], [], rfl, by simp, rfl, rfl⟩
    | cons v later =>
      obtain ⟨window, window', rest, length, short, here, here'⟩ :=
        expandValues_settle_two g (v / 32) g' (v / 32) later
      refine ⟨v % 32 :: window, v % 32 :: window', rest, by simp [length], ?_, ?_, ?_⟩
      · simp only [List.length_cons, List.length_nil]
        omega
      · simp [expandValues, here]
      · simp [expandValues, here']
  | @two g h g' h' _ _ _ _ =>
    obtain ⟨window, window', rest, length, short, here, here'⟩ :=
      expandValues_settle_two g h g' h' values
    refine ⟨window, window', rest, length, ?_, here, here'⟩
    simp only [List.length_cons, List.length_nil]
    omega

/-- A changed run of characters changes a window of symbols. -/
theorem expandValues_window {groups groups' run run' : List Nat} (pending : Pending groups groups')
    (count : run'.length = run.length) (known : ∀ v ∈ run, v < 96) (known' : ∀ v ∈ run', v < 96)
    (values : List Nat) :
    ∃ window window' rest, window'.length = window.length ∧
      window.length ≤ run.length + (groups.length + run.length + 2) / 3 +
        (3 - (groups.length + run.length) % 3) % 3 ∧
      expandValues groups (run ++ values) = window ++ rest ∧
      expandValues groups' (run' ++ values) = window' ++ rest := by
  induction run generalizing groups groups' run' with
  | nil =>
    obtain rfl := List.length_eq_zero_iff.mp count
    obtain ⟨window, window', rest, length, short, here, here'⟩ := expandValues_settle pending values
    refine ⟨window, window', rest, length, ?_, here, here'⟩
    rw [List.length_nil]
    have few : groups.length ≤ 2 := by cases pending <;> simp
    omega
  | cons v later ih =>
    match run', count with
    | v' :: later', count =>
      rw [List.length_cons, List.length_cons, Nat.succ.injEq] at count
      obtain ⟨small, known⟩ := List.forall_mem_cons.mp known
      obtain ⟨small', known'⟩ := List.forall_mem_cons.mp known'
      have third : v / 32 < 3 := by omega
      have third' : v' / 32 < 3 := by omega
      cases pending with
      | none =>
        obtain ⟨window, window', rest, length, short, here, here'⟩ :=
          ih (.one third third') count known known'
        refine ⟨v % 32 :: window, v' % 32 :: window', rest, by simp [length], ?_, ?_, ?_⟩
        · simp only [List.length_cons, List.length_nil] at short ⊢
          omega
        · simp [expandValues, here]
        · simp [expandValues, here']
      | one first first' =>
        obtain ⟨window, window', rest, length, short, here, here'⟩ :=
          ih (.two first third first' third') count known known'
        refine ⟨v % 32 :: window, v' % 32 :: window', rest, by simp [length], ?_, ?_, ?_⟩
        · simp only [List.length_cons, List.length_nil] at short ⊢
          omega
        · simp [expandValues, here]
        · simp [expandValues, here']
      | @two g h g' h' _ _ _ _ =>
        obtain ⟨window, window', rest, length, short, here, here'⟩ := ih .none count known known'
        refine ⟨v % 32 :: (g * 9 + h * 3 + v / 32) :: window,
          v' % 32 :: (g' * 9 + h' * 3 + v' / 32) :: window', rest, by simp [length], ?_, ?_, ?_⟩
        · simp only [List.length_cons, List.length_nil] at short ⊢
          omega
        · simp [expandValues, here]
        · simp [expandValues, here']

theorem expandValues_before {groups before : List Nat} (pending : Pending groups groups)
    (known : ∀ v ∈ before, v < 96) :
    ∃ head groups', Pending groups' groups' ∧
      ∀ values, expandValues groups (before ++ values) = head ++ expandValues groups' values := by
  induction before generalizing groups with
  | nil => exact ⟨[], groups, pending, fun _ => rfl⟩
  | cons v later ih =>
    obtain ⟨small, known⟩ := List.forall_mem_cons.mp known
    have third : v / 32 < 3 := by omega
    cases pending with
    | none =>
      obtain ⟨head, groups', pending', same⟩ := ih (.one third third) known
      refine ⟨v % 32 :: head, groups', pending', ?_⟩
      intro values
      simp [expandValues, same]
    | one first first' =>
      obtain ⟨head, groups', pending', same⟩ := ih (.two first third first' third) known
      refine ⟨v % 32 :: head, groups', pending', ?_⟩
      intro values
      simp [expandValues, same]
    | @two g h _ _ _ _ _ _ =>
      obtain ⟨head, groups', pending', same⟩ := ih .none known
      refine ⟨v % 32 :: (g * 9 + h * 3 + v / 32) :: head, groups', pending', ?_⟩
      intro values
      simp [expandValues, same]

end Window

section Damage

theorem generator_lossless : ShiftRegister.Lossless 5 generator.zipIdx := by
  unfold ShiftRegister.Lossless
  decide

theorem polymod_run {before run run' after tail : List Nat} (count : run'.length = run.length)
    (short : run.length ≤ 4) (known : ∀ v ∈ before ++ run ++ after, v < 96)
    (known' : ∀ v ∈ before ++ run' ++ after, v < 96) (symbols : ∀ s ∈ tail, s < 2 ^ 5)
    (same : polymod (expandValues [] (before ++ run ++ after) ++ tail) =
      polymod (expandValues [] (before ++ run' ++ after) ++ tail)) : run = run' := by
  have small := expandValues_lt .none known
  have small' := expandValues_lt .none known'
  simp only [List.append_assoc, List.forall_mem_append] at known known' small small' same
  obtain ⟨front, here, _⟩ := known
  obtain ⟨_, here', back⟩ := known'
  obtain ⟨head, groups, pending, split⟩ := expandValues_before .none front
  obtain ⟨window, window', rest, length, bound, cut, cut'⟩ :=
    expandValues_window pending count here here' after
  have few : groups.length ≤ 2 := by cases pending <;> simp
  have fits : window.length ≤ 8 := by omega
  rw [split, cut] at small
  rw [split, cut'] at small'
  rw [split, split, cut, cut'] at same
  simp only [List.forall_mem_append] at small small'
  have windows : window = window' := by
    have rest_small : ∀ s ∈ rest ++ tail, s < 2 ^ 5 :=
      List.forall_mem_append.mpr ⟨small.2.2, symbols⟩
    have start : 1 < 2 ^ (35 + 5) := by decide
    refine ShiftRegister.burst_seen generator_lossless generator_small start small.1 small.2.1
      small'.2.1 rest_small length (by omega) ?_
    simpa only [polymod, polymodStep_eq, List.append_assoc] using same
  have both := expandValues_inj pending (by simp [count]) (List.forall_mem_append.mpr ⟨here, back⟩)
    (List.forall_mem_append.mpr ⟨here', back⟩) (cut.trans (windows ▸ cut'.symm))
  exact List.append_cancel_right both.2

theorem verifyChecksum_split {body c : Str} {u : Unit} (eight : c.length = 8) :
    verifyChecksum (body ++ 35 :: c) = .ok u ↔ body ≠ [] ∧ (∀ b ∈ body, b ∈ inputCharset) ∧
      c = checksumChars
        (polymod (expandValues [] (body.map inputIndex) ++ List.replicate 8 0) ^^^ 1) := by
  simp only [verifyChecksum_eq_ok, createChecksum_eq_ok, expandFrom_eq_some]
  constructor
  · rintro ⟨body', nonempty, symbols, ⟨known, rfl⟩, same⟩
    obtain ⟨rfl, rest⟩ := List.append_inj' same (by simp [eight, checksumChars_length])
    exact ⟨nonempty, known, (List.cons.inj rest).2⟩
  · rintro ⟨nonempty, known, created⟩
    exact ⟨body, nonempty, _, ⟨known, rfl⟩, by rw [← created]⟩

theorem damaged_run {before run run' after c : Str} (eight : c.length = 8)
    (count : run'.length = run.length) (short : run.length ≤ 4)
    (valid : verifyChecksum (before ++ run ++ after ++ 35 :: c) = .ok ())
    (valid' : verifyChecksum (before ++ run' ++ after ++ 35 :: c) = .ok ()) : run = run' := by
  obtain ⟨_, known, created⟩ := (verifyChecksum_split eight).mp valid
  obtain ⟨_, known', created'⟩ := (verifyChecksum_split eight).mp valid'
  obtain ⟨tail, found, passes⟩ := (checksum_passes_iff _ eight).mpr created
  obtain ⟨tail', found', passes'⟩ := (checksum_passes_iff _ eight).mpr created'
  obtain rfl : tail = tail' := Except.ok.inj (found.symm.trans found')
  have inside := inputIndices_lt known
  have inside' := inputIndices_lt known'
  have same := passes.trans passes'.symm
  simp only [List.map_append] at inside inside' same
  apply inputIndices_inj (fun b member => known b (by simp [member]))
  exact polymod_run (by simp [count]) (by simp [short]) inside inside'
    (checksum_symbols.mp found).1 same

end Damage

def textBytes (text : List Char) : Str := bytes (String.ofList text)

section Text

theorem textBytes_eq (text : List Char) : textBytes text = text.flatMap String.utf8EncodeChar := by
  simp [textBytes, bytes, String.toUTF8, String.toByteArray_ofList, List.utf8Encode]

theorem textBytes_append (text text' : List Char) :
    textBytes (text ++ text') = textBytes text ++ textBytes text' := by
  simp only [textBytes_eq, List.flatMap_append]

theorem textBytes_hash (text : List Char) : textBytes ('#' :: text) = 35 :: textBytes text := by
  simp only [textBytes_eq, List.flatMap_cons]
  rfl

theorem textBytes_inj {text text' : List Char} (same : textBytes text = textBytes text') :
    text = text' := by
  apply String.ofList_injective
  apply String.toByteArray_inj.mp
  exact ByteArray.ext (Array.toList_inj.mp same)

theorem leading_byte {n mark : Nat} {rest : Str} (high : 128 ≤ mark) (fits : n + mark < 256) :
    ¬ Ascii (UInt8.ofNat (n + mark) :: rest) := by
  intro plain
  have first : UInt8.ofNat (n + mark) < UInt8.ofNat 128 := plain _ List.mem_cons_self
  rw [UInt8.lt_iff_toNat_lt, UInt8.toNat_ofNat', UInt8.toNat_ofNat'] at first
  omega

theorem utf8EncodeChar_ascii {ch : Char} (plain : Ascii (String.utf8EncodeChar ch)) :
    (String.utf8EncodeChar ch).length = 1 := by
  unfold String.utf8EncodeChar at plain ⊢
  simp only [] at plain ⊢
  split at plain
  · rename_i single
    rw [if_pos single]
    rfl
  · split at plain
    · exact absurd plain (leading_byte (by decide) (by omega))
    · split at plain
      · exact absurd plain (leading_byte (by decide) (by omega))
      · exact absurd plain (leading_byte (by decide) (by omega))

theorem utf8EncodeChar_ofUInt8 {b : UInt8} (plain : b < 0x80) :
    String.utf8EncodeChar (Char.ofUInt8 b) = [b] := by
  have small : b.toNat ≤ 127 := Nat.le_of_lt_succ (UInt8.lt_iff_toNat_lt.mp plain)
  have code : (Char.ofUInt8 b).val.toNat = b.toNat := UInt8.toNat_toUInt32 b
  unfold String.utf8EncodeChar
  simp only [code]
  rw [if_pos small, UInt8.ofNat_toNat]

theorem textBytes_length {text : List Char} (plain : Ascii (textBytes text)) :
    (textBytes text).length = text.length := by
  rw [textBytes_eq] at plain ⊢
  induction text with
  | nil => rfl
  | cons ch rest ih =>
    rw [List.flatMap_cons] at plain ⊢
    obtain ⟨here, later⟩ := List.forall_mem_append.mp plain
    rw [List.length_append, utf8EncodeChar_ascii here, ih later, List.length_cons, Nat.add_comm]

theorem textBytes_ofUInt8 {s : Str} (plain : Ascii s) : textBytes (s.map Char.ofUInt8) = s := by
  rw [textBytes_eq]
  induction s with
  | nil => rfl
  | cons b rest ih =>
    obtain ⟨here, later⟩ := List.forall_mem_cons.mp plain
    rw [List.map_cons, List.flatMap_cons, utf8EncodeChar_ofUInt8 here, ih later]
    rfl

theorem accepted_length {text part : List Char} (inside : part <:+: text)
    (valid : verifyChecksum (textBytes text) = .ok ()) :
    (textBytes part).length = part.length := by
  obtain ⟨before, after, rfl⟩ := inside
  have plain := (verifyChecksum_ascii valid).1
  rw [textBytes_append, textBytes_append] at plain
  obtain ⟨front, _⟩ := List.forall_mem_append.mp plain
  exact textBytes_length (List.forall_mem_append.mp front).2

theorem checksum_inside (payload c : List Char) : c <:+: payload ++ '#' :: c :=
  ⟨payload ++ ['#'], [], by simp⟩

end Text

/-- Every text over the input set has one checksum of eight characters, and no
    accepted text stays accepted when up to four characters in a row in front of
    its checksum are replaced by as many others. -/
theorem checksum_unique_local :
    (∀ payload : List Char, payload ≠ [] → (∀ b ∈ textBytes payload, b ∈ inputCharset) →
      ∃! c : List Char, c.length = 8 ∧ verifyChecksum (textBytes (payload ++ '#' :: c)) = .ok ()) ∧
    ∀ before run after c run' : List Char, c.length = 8 →
      verifyChecksum (textBytes (before ++ run ++ after ++ '#' :: c)) = .ok () →
      run.length ≤ 4 → run'.length = run.length → run' ≠ run →
      ∃ e, verifyChecksum (textBytes (before ++ run' ++ after ++ '#' :: c)) = fail e := by
  constructor
  · intro payload nonempty known
    have text : textBytes payload ≠ [] := fun empty => nonempty (textBytes_inj empty)
    let checksum := checksumChars (polymod
      (expandValues [] ((textBytes payload).map inputIndex) ++ List.replicate 8 0) ^^^ 1)
    have eight : checksum.length = 8 := checksumChars_length _
    have valid : verifyChecksum (textBytes payload ++ 35 :: checksum) = .ok () :=
      (verifyChecksum_split eight).mpr ⟨text, known, rfl⟩
    obtain ⟨_, back⟩ := List.forall_mem_append.mp (verifyChecksum_ascii valid).1
    have plain : textBytes (checksum.map Char.ofUInt8) = checksum :=
      textBytes_ofUInt8 (List.forall_mem_cons.mp back).2
    refine ⟨checksum.map Char.ofUInt8, ⟨by simp [eight], ?_⟩, ?_⟩
    · rw [textBytes_append, textBytes_hash, plain]
      exact valid
    · rintro c ⟨count, accepted⟩
      have width : (textBytes c).length = 8 :=
        (accepted_length (checksum_inside payload c) accepted).trans count
      rw [textBytes_append, textBytes_hash, verifyChecksum_split width] at accepted
      exact textBytes_inj (accepted.2.2.trans plain.symm)
  · intro before run after c run' eight valid short count different
    have stopped (u : Unit) :
        verifyChecksum (textBytes (before ++ run' ++ after ++ '#' :: c)) ≠ .ok u := by
      intro valid'
      have width : (textBytes c).length = 8 :=
        (accepted_length (checksum_inside _ c) valid).trans eight
      have here : (textBytes run).length = run.length :=
        accepted_length ⟨before, after ++ '#' :: c, by simp⟩ valid
      have here' : (textBytes run').length = run'.length :=
        accepted_length ⟨before, after ++ '#' :: c, by simp⟩ valid'
      simp only [textBytes_append, textBytes_hash] at valid valid'
      exact different (textBytes_inj
        (damaged_run width (by omega) (by omega) valid valid').symm)
    obtain ⟨e, rejected, _⟩ := onlyFails_of_not_ok (verifyChecksum_returns _) stopped
    exact ⟨e, rejected⟩

/-- Swapped letters in `raw(deadbeef)` are seen. -/
theorem checksum_unique_swapped :
    (∃! c : List Char, c.length = 8 ∧
      verifyChecksum (textBytes ("raw(deadbeef)".toList ++ '#' :: c)) = .ok ()) ∧
    verifyChecksum (textBytes "raw(deadbeef)#89f8spxm".toList) = .ok () ∧
    ∃ e, verifyChecksum (textBytes "raw(daedbeef)#89f8spxm".toList) = fail e := by
  have valid : verifyChecksum (textBytes "raw(deadbeef)#89f8spxm".toList) = .ok () := by
    decide +kernel
  have charset : ∀ b ∈ textBytes "raw(deadbeef)".toList, b ∈ inputCharset :=
    List.all_iff_forall_prop.mp (by decide)
  obtain ⟨unique_, local_⟩ := checksum_unique_local
  exact ⟨unique_ "raw(deadbeef)".toList (by decide) charset, valid,
    local_ "raw(d".toList "ea".toList "dbeef)".toList "89f8spxm".toList "ae".toList (by decide)
      valid (by decide) (by decide) (by decide)⟩

end Trinity
