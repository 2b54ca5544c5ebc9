import Trinity.Verify.Sample
import Trinity.Watch.KeychainIndex

/-!
Runs of the script index. Every operation keeps the index exact: of each keychain
the scripts below a bound are stored and no others. From the effect of one
operation it follows over all runs that the watched window is the lookahead
beyond the last revealed index, and that no address is handed out for change, or
offered as unused, after it was paid.
-/
namespace Trinity.Watch.KeychainTxOutIndex

open Outcome

variable {ε : Type} {derive : Derive} {s : KeychainTxOutIndex}

/-- No two places of the descriptors have one script. -/
def DistinctPlaces (derive : Derive) : Prop :=
  Function.Injective fun i : KeychainIndex => derive i.keychain i.index

structure Stores (derive : Derive) (s : KeychainTxOutIndex) (bound : KeychainKind → ℕ) : Prop where
  spks : ∀ i : KeychainIndex, s.inner.spks.get? i =
    if i.index.toNat < bound i.keychain then some (derive i.keychain i.index) else none
  indices : ∀ spk (i : KeychainIndex), s.inner.spkIndices.lookup spk = some i ↔
    i.index.toNat < bound i.keychain ∧ derive i.keychain i.index = spk
  unused : ∀ i ∈ s.unused, i.index.toNat < bound i.keychain

section Replenish

variable {bound : KeychainKind → ℕ}

theorem Stores.not_watched (stores : Stores derive s bound) (distinct : DistinctPlaces derive)
    {i : KeychainIndex} (beyond : bound i.keychain ≤ i.index.toNat) :
    s.inner.spkIndices.lookup (derive i.keychain i.index) = none := by
  cases found : s.inner.spkIndices.lookup (derive i.keychain i.index) with
  | none => rfl
  | some j =>
    obtain ⟨low, same⟩ := (stores.indices _ j).mp found
    obtain rfl : j = i := distinct same
    omega

theorem Stores.insertSpk (stores : Stores derive s bound) (distinct : DistinctPlaces derive)
    {i : KeychainIndex} (next : i.index.toNat = bound i.keychain) :
    Stores derive (s.insertSpk i (derive i.keychain i.index))
        (Function.update bound i.keychain (bound i.keychain + 1)) ∧
      (s.insertSpk i (derive i.keychain i.index)).unused = i :: s.unused := by
  have fresh := stores.not_watched distinct next.ge
  have shape : s.insertSpk i (derive i.keychain i.index) =
      { s with
        inner := { s.inner with
          spkIndices := (derive i.keychain i.index, i) :: s.inner.spkIndices
          spks := s.inner.spks.insert i (derive i.keychain i.index) }
        unused := i :: s.unused } := by
    rw [KeychainTxOutIndex.insertSpk, SpkTxOutIndex.watches, fresh]
    simp [SpkTxOutIndex.insertSpk, fresh]
  have below : ∀ j : KeychainIndex,
      j.index.toNat < Function.update bound i.keychain (bound i.keychain + 1) j.keychain ↔
        j = i ∨ j.index.toNat < bound j.keychain := by
    intro j
    by_cases same : j.keychain = i.keychain
    · rw [same, Function.update_self]
      constructor
      · intro low
        by_cases last : j.index = i.index
        · exact .inl (by cases i; cases j; simp_all)
        · have : j.index.toNat ≠ i.index.toNat := fun eq => last (UInt32.toNat_inj.mp eq)
          exact .inr (by omega)
      · rintro (rfl | low) <;> omega
    · rw [Function.update_of_ne same]
      constructor
      · exact .inr
      · rintro (rfl | low)
        · exact absurd rfl same
        · exact low
  rw [shape]
  refine ⟨⟨?_, ?_, ?_⟩, rfl⟩
  · intro j
    simp only [OrderedMap.get?_insert, stores.spks, below]
    by_cases same : j = i
    · simp [same]
    · simp [same]
  · intro spk j
    simp only [List.lookup_cons, below]
    by_cases same : spk = derive i.keychain i.index
    · subst same
      simp only [beq_self_eq_true]
      constructor
      · intro found
        obtain rfl : i = j := by simpa using found
        exact ⟨.inl rfl, rfl⟩
      · rintro ⟨_, eq⟩
        rw [distinct eq]
    · have differ : (spk == derive i.keychain i.index) = false := by simpa using same
      rw [differ]
      simp only [stores.indices]
      constructor
      · rintro ⟨low, eq⟩
        exact ⟨.inr low, eq⟩
      · rintro ⟨rfl | low, eq⟩
        · exact absurd eq.symm same
        · exact ⟨low, eq⟩
  · intro j member
    rw [below]
    rcases List.mem_cons.mp member with same | member
    · exact .inl same
    · exact .inr (stores.unused j member)

theorem Stores.nextStored (stores : Stores derive s bound)
    (small : ∀ k, bound k ≤ bip32MaxIndex) (k : KeychainKind) : s.nextStored k = bound k := by
  have member : ∀ e ∈ s.inner.spks.entries.filter fun e => e.1.keychain = k,
      e.1.keychain = k ∧ e.1.index.toNat < bound k := by
    intro e chosen
    obtain ⟨stored, same⟩ := List.mem_filter.mp chosen
    have found := stores.spks e.1
    rw [OrderedMap.get?_eq_some.mpr stored] at found
    have same : e.1.keychain = k := by simpa using same
    refine ⟨same, ?_⟩
    by_contra high
    rw [if_neg (by rw [same]; exact high)] at found
    simp at found
  have sorted := s.inner.spks.sorted.filter fun e => e.1.keychain = k
  -- The last script below the bound is stored, so the last entry is at or behind it.
  have stored : ∀ n, n < bound k → ∃ e ∈ s.inner.spks.entries.filter fun e => e.1.keychain = k,
      e.1.index.toNat = n := by
    intro n low
    have size := small k
    have index : (UInt32.ofNat n).toNat = n :=
      UInt32.toNat_ofNat_of_lt' (by show n < 2 ^ 32; unfold bip32MaxIndex at size; omega)
    have found := stores.spks ⟨k, UInt32.ofNat n⟩
    rw [if_pos (by rw [index]; exact low)] at found
    exact ⟨_, List.mem_filter.mpr ⟨OrderedMap.get?_eq_some.mp found, by simp⟩, index⟩
  unfold KeychainTxOutIndex.nextStored
  generalize s.inner.spks.entries.filter (fun e => e.1.keychain = k) = chosen at *
  split
  · rename_i e last
    obtain ⟨front, rfl⟩ := List.getLast?_eq_some_iff.mp last
    obtain ⟨keychain, low⟩ := member e (by simp)
    by_contra differ
    obtain ⟨later, isStored, index⟩ := stored (e.1.index.toNat + 1) (by omega)
    obtain ⟨keychain', _⟩ := member later isStored
    rcases List.mem_append.mp isStored with before | same
    · have less := (List.pairwise_append.mp sorted).2.2 later before e (by simp)
      have codes : later.1.code < e.1.code := less
      simp only [KeychainIndex.code, keychain, keychain'] at codes
      omega
    · obtain rfl : later = e := by simpa using same
      omega
  · rename_i none_stored
    rw [List.getLast?_eq_none_iff] at none_stored
    subst none_stored
    by_contra differ
    obtain ⟨e, isStored, _⟩ := stored 0 (by omega)
    simp at isStored

theorem Stores.foldl_insertSpk (stores : Stores derive s bound)
    (distinct : DistinctPlaces derive) (k : KeychainKind) (n : ℕ)
    (small : bound k + n ≤ bip32MaxIndex) :
    Stores derive ((List.range' (bound k) n).foldl (fun s i =>
        s.insertSpk ⟨k, UInt32.ofNat i⟩ (derive k (UInt32.ofNat i))) s)
      (Function.update bound k (bound k + n)) := by
  induction n generalizing s bound with
  | zero => simpa using stores
  | succ n ih =>
    have index : (UInt32.ofNat (bound k)).toNat = bound k :=
      UInt32.toNat_ofNat_of_lt' (by
        show bound k < 2 ^ 32
        unfold bip32MaxIndex at small
        omega)
    have first := (stores.insertSpk distinct (i := ⟨k, UInt32.ofNat (bound k)⟩) index).1
    rw [List.range'_succ, List.foldl_cons]
    have rest := ih first (by simp only [Function.update_self]; omega)
    simp only [Function.update_self, Function.update_idem] at rest
    rwa [show bound k + 1 + n = bound k + (n + 1) by omega] at rest

@[simp] theorem insertSpk_lastRevealed (i : KeychainIndex) (spk : Script) :
    (s.insertSpk i spk).lastRevealed = s.lastRevealed := by
  unfold KeychainTxOutIndex.insertSpk
  split <;> rfl

theorem insertSpk_unused {i j : KeychainIndex} {spk : Script}
    (member : j ∈ (s.insertSpk i spk).unused) : j ∈ s.unused ∨ j = i := by
  unfold KeychainTxOutIndex.insertSpk at member
  split at member
  · exact .inl member
  · exact (List.mem_cons.mp member).symm

theorem foldl_insertSpk_frame (derive : Derive) (k : KeychainKind) (ns : List ℕ) :
    (ns.foldl (fun s i => s.insertSpk ⟨k, UInt32.ofNat i⟩ (derive k (UInt32.ofNat i)))
        s).lastRevealed = s.lastRevealed ∧
      ∀ j ∈ (ns.foldl (fun s i =>
          s.insertSpk ⟨k, UInt32.ofNat i⟩ (derive k (UInt32.ofNat i))) s).unused,
        j ∈ s.unused ∨ ∃ n ∈ ns, j = ⟨k, UInt32.ofNat n⟩ := by
  induction ns generalizing s with
  | nil => exact ⟨rfl, fun j member => .inl member⟩
  | cons n ns ih =>
    obtain ⟨revealed, unused⟩ := ih (s := s.insertSpk ⟨k, UInt32.ofNat n⟩
      (derive k (UInt32.ofNat n)))
    refine ⟨by rw [List.foldl_cons, revealed, insertSpk_lastRevealed], fun j member => ?_⟩
    rcases unused j member with old | ⟨m, later, same⟩
    · rcases insertSpk_unused old with old | same
      · exact .inl old
      · exact .inr ⟨n, by simp, same⟩
    · exact .inr ⟨m, by simp [later], same⟩

theorem Stores.replenish (stores : Stores derive s bound) (distinct : DistinctPlaces derive)
    (small : ∀ k, bound k ≤ bip32MaxIndex) (k : KeychainKind) (less : bound k ≤ s.stopIndex k) :
    Stores derive (s.replenishInnerIndex derive k) (Function.update bound k (s.stopIndex k)) ∧
      (s.replenishInnerIndex derive k).lastRevealed = s.lastRevealed ∧
      ∀ j ∈ (s.replenishInnerIndex derive k).unused,
        j ∈ s.unused ∨ (j.keychain = k ∧ bound k ≤ j.index.toNat) := by
  have stop : s.stopIndex k ≤ bip32MaxIndex := Nat.min_le_right _ _
  rw [replenishInnerIndex, stores.nextStored small k]
  obtain ⟨revealed, unused⟩ := foldl_insertSpk_frame (s := s) derive k
    (List.range' (bound k) (s.stopIndex k - bound k))
  refine ⟨?_, revealed, fun j member => ?_⟩
  · have stored := stores.foldl_insertSpk distinct k (s.stopIndex k - bound k) (by omega)
    rwa [Nat.add_sub_of_le less] at stored
  · rcases unused j member with old | ⟨n, range, same⟩
    · exact .inl old
    · have bounds := List.mem_range'_1.mp range
      subst same
      refine .inr ⟨rfl, ?_⟩
      rw [UInt32.toNat_ofNat_of_lt' (by
        show n < 2 ^ 32
        unfold bip32MaxIndex at stop
        omega)]
      exact bounds.1

end Replenish

/-- The state every run keeps: exactly the window is stored, and the last revealed
    index leaves room for another. -/
structure Indexed (derive : Derive) (s : KeychainTxOutIndex) : Prop where
  stores : Stores derive s s.stopIndex
  revealed : ∀ k, s.nextReveal k ≤ bip32MaxIndex

/-- Revealed and no longer unused: paid, or handed out for change. -/
def Taken (s : KeychainTxOutIndex) (i : KeychainIndex) : Prop :=
  i.index.toNat < s.nextReveal i.keychain ∧ i ∉ s.unused

structure Advances (derive : Derive) (s s' : KeychainTxOutIndex) : Prop where
  indexed : Indexed derive s'
  reveals : ∀ k, s.nextReveal k ≤ s'.nextReveal k
  taken : ∀ i, s.Taken i → s'.Taken i

theorem Advances.refl (indexed : Indexed derive s) : Advances derive s s :=
  ⟨indexed, fun _ => le_refl _, fun _ taken => taken⟩

theorem Advances.trans {s' s'' : KeychainTxOutIndex} (first : Advances derive s s')
    (second : Advances derive s' s'') : Advances derive s s'' :=
  ⟨second.indexed, fun k => (first.reveals k).trans (second.reveals k),
    fun i taken => second.taken i (first.taken i taken)⟩

theorem stopIndex_le (s : KeychainTxOutIndex) (k : KeychainKind) : s.stopIndex k ≤ bip32MaxIndex :=
  Nat.min_le_right _ _

theorem Indexed.nextReveal_le (indexed : Indexed derive s) (k : KeychainKind) :
    s.nextReveal k ≤ s.stopIndex k := by
  have := indexed.revealed k
  unfold stopIndex
  omega

theorem nextReveal_congr {t : KeychainTxOutIndex} (same : s.lastRevealed = t.lastRevealed) :
    s.nextReveal = t.nextReveal := by
  funext k
  simp [nextReveal, same]

theorem stopIndex_congr {t : KeychainTxOutIndex} (same : s.lastRevealed = t.lastRevealed) :
    s.stopIndex = t.stopIndex := by
  funext k
  simp [stopIndex, nextReveal_congr same]

section Operations

theorem nextReveal_update (s : KeychainTxOutIndex) (i : KeychainIndex) :
    nextReveal { s with
      lastRevealed := Function.update s.lastRevealed i.keychain (some i.index) } =
        Function.update s.nextReveal i.keychain (i.index.toNat + 1) := by
  funext k
  by_cases same : k = i.keychain
  · subst same
    simp [nextReveal]
  · simp [nextReveal, same]

theorem setRevealed_stores (indexed : Indexed derive s) (distinct : DistinctPlaces derive)
    {i : KeychainIndex} (later : s.nextReveal i.keychain ≤ i.index.toNat) :
    Stores derive (s.setRevealed derive i) (s.setRevealed derive i).stopIndex ∧
      (s.setRevealed derive i).nextReveal =
        Function.update s.nextReveal i.keychain (i.index.toNat + 1) ∧
      ∀ j ∈ (s.setRevealed derive i).unused,
        j ∈ s.unused ∨ s.stopIndex j.keychain ≤ j.index.toNat := by
  have moved := nextReveal_update s i
  have stop : stopIndex { s with
      lastRevealed := Function.update s.lastRevealed i.keychain (some i.index) } =
        Function.update s.stopIndex i.keychain
          (min (i.index.toNat + 1 + gapLimit) bip32MaxIndex) := by
    funext k
    by_cases same : k = i.keychain
    · subst same
      simp [stopIndex, moved]
    · simp [stopIndex, moved, same]
  have kept : Stores derive { s with
      lastRevealed := Function.update s.lastRevealed i.keychain (some i.index) } s.stopIndex :=
    ⟨indexed.stores.spks, indexed.stores.indices, indexed.stores.unused⟩
  obtain ⟨stores, revealed, unused⟩ := kept.replenish distinct s.stopIndex_le i.keychain (by
    rw [stop, Function.update_self]
    unfold stopIndex
    omega)
  refine ⟨?_, ?_, fun j member => ?_⟩
  · rw [setRevealed, stopIndex_congr revealed, stop]
    rwa [stop, Function.update_self] at stores
  · rw [setRevealed, nextReveal_congr revealed, moved]
  · rcases unused j member with old | ⟨same, beyond⟩
    · exact .inl old
    · exact .inr (by rw [same]; exact beyond)

theorem setRevealed_advances (indexed : Indexed derive s) (distinct : DistinctPlaces derive)
    {i : KeychainIndex} (later : s.nextReveal i.keychain ≤ i.index.toNat)
    (room : i.index.toNat < bip32MaxIndex) : Advances derive s (s.setRevealed derive i) := by
  obtain ⟨stores, moved, unused⟩ := setRevealed_stores indexed distinct later
  have reveals : ∀ k, s.nextReveal k ≤ (s.setRevealed derive i).nextReveal k := by
    intro k
    rw [moved]
    by_cases same : k = i.keychain
    · subst same
      rw [Function.update_self]
      omega
    · rw [Function.update_of_ne same]
  refine ⟨⟨stores, fun k => ?_⟩, reveals, ?_⟩
  · rw [moved]
    by_cases same : k = i.keychain
    · subst same
      rw [Function.update_self]
      omega
    · rw [Function.update_of_ne same]
      exact indexed.revealed k
  · rintro j ⟨low, used⟩
    refine ⟨low.trans_le (reveals j.keychain), fun member => ?_⟩
    rcases unused j member with old | beyond
    · exact used old
    · have := indexed.nextReveal_le j.keychain
      omega

theorem markUsed_advances (indexed : Indexed derive s) (i : KeychainIndex) :
    Advances derive s (s.markUsed i) := by
  have stop : (s.markUsed i).stopIndex = s.stopIndex := stopIndex_congr rfl
  have next : (s.markUsed i).nextReveal = s.nextReveal := nextReveal_congr rfl
  refine ⟨⟨?_, fun k => by rw [next]; exact indexed.revealed k⟩, fun k => by rw [next], ?_⟩
  · rw [stop]
    exact ⟨indexed.stores.spks, indexed.stores.indices,
      fun j member => indexed.stores.unused j (List.mem_filter.mp member).1⟩
  · rintro j ⟨low, used⟩
    exact ⟨by rwa [next], fun member => used (List.mem_filter.mp member).1⟩

theorem markUsed_taken {i : KeychainIndex} (low : i.index.toNat < s.nextReveal i.keychain) :
    (s.markUsed i).Taken i := by
  refine ⟨?_, fun member => ?_⟩
  · rwa [show (s.markUsed i).nextReveal = s.nextReveal from nextReveal_congr rfl]
  · simpa using (List.mem_filter.mp member).2

theorem ofNat_nextReveal (indexed : Indexed derive s) (k : KeychainKind) :
    (UInt32.ofNat (s.nextReveal k)).toNat = s.nextReveal k := by
  have size := indexed.revealed k
  unfold bip32MaxIndex at size
  exact UInt32.toNat_ofNat_of_lt' (by show _ < 2 ^ 32; omega)

theorem nextIndex_eq (indexed : Indexed derive s) (k : KeychainKind) :
    (s.nextIndex k : Outcome ε (UInt32 × Bool)) = .ok (UInt32.ofNat (s.nextReveal k), true) := by
  have size := indexed.revealed k
  have number := ofNat_nextReveal indexed k
  cases last : s.lastRevealed k with
  | none => simp [nextIndex, nextReveal, last]
  | some i =>
    simp only [nextReveal, last] at size number ⊢
    have index : UInt32.ofNat (i.toNat + 1) = i + 1 := by simp
    simp only [nextIndex, last]
    rw [abortUnless, if_pos (by omega), bind_ok, if_neg (by omega), index]
    rfl

theorem revealNextSpk_ok (indexed : Indexed derive s) (distinct : DistinctPlaces derive)
    {k : KeychainKind} {i : UInt32} {spk : Script} {s' : KeychainTxOutIndex}
    (run : (s.revealNextSpk derive k : Outcome ε _) = .ok ((i, spk), s')) :
    Advances derive s s' ∧ i.toNat = s.nextReveal k ∧ spk = derive k i ∧
      s'.nextReveal k = s.nextReveal k + 1 := by
  have number := ofNat_nextReveal indexed k
  simp only [revealNextSpk, nextIndex_eq indexed k, bind_ok, ↓reduceIte, bind_eq_ok,
    expect_eq_ok, pure_eq_ok] at run
  obtain ⟨stored, found, same⟩ := run
  obtain ⟨⟨rfl, rfl⟩, rfl⟩ : (UInt32.ofNat (s.nextReveal k) = i ∧ stored = spk) ∧ _ = s' := by
    simpa using same
  have later : s.nextReveal k ≤ (UInt32.ofNat (s.nextReveal k)).toNat := number.ge
  obtain ⟨stores, moved, _⟩ := setRevealed_stores indexed distinct
    (i := ⟨k, UInt32.ofNat (s.nextReveal k)⟩) later
  rw [stores.spks, Option.ite_none_right_eq_some] at found
  obtain ⟨low, script⟩ := found
  have room : (UInt32.ofNat (s.nextReveal k)).toNat < bip32MaxIndex :=
    low.trans_le (stopIndex_le _ _)
  refine ⟨setRevealed_advances indexed distinct later room, number, by simpa using script.symm, ?_⟩
  rw [moved, Function.update_self, number]

theorem revealLoop_ok (distinct : DistinctPlaces derive) {k : KeychainKind} {target : UInt32}
    {turns : ℕ} {s' : KeychainTxOutIndex} (indexed : Indexed derive s)
    (enough : target.toNat < s.nextReveal k + turns)
    (run : (revealLoop derive k target turns s : Outcome ε _) = .ok s') :
    Advances derive s s' ∧ target.toNat < s'.nextReveal k := by
  induction turns generalizing s with
  | zero =>
    obtain rfl : s = s' := by simpa [revealLoop] using run
    exact ⟨.refl indexed, enough⟩
  | succ turns ih =>
    have number := ofNat_nextReveal indexed k
    simp only [revealLoop, nextIndex_eq indexed k, bind_ok, Bool.not_true, Bool.false_or,
      decide_eq_true_eq] at run
    split at run
    · rename_i reached
      obtain rfl : s = s' := by simpa using run
      rw [UInt32.lt_iff_toNat_lt] at reached
      exact ⟨.refl indexed, by omega⟩
    · rw [bind_eq_ok] at run
      obtain ⟨⟨⟨i, spk⟩, next⟩, revealed, rest⟩ := run
      obtain ⟨advances, _, _, moved⟩ := revealNextSpk_ok indexed distinct revealed
      obtain ⟨advances', reached⟩ := ih advances.indexed (by omega) rest
      exact ⟨advances.trans advances', reached⟩

theorem revealToTarget_ok (distinct : DistinctPlaces derive) {k : KeychainKind} {target : UInt32}
    {s' : KeychainTxOutIndex} (indexed : Indexed derive s)
    (run : (s.revealToTarget derive k target : Outcome ε _) = .ok s') :
    Advances derive s s' ∧ target.toNat < s'.nextReveal k :=
  revealLoop_ok distinct indexed (by omega) run

theorem firstUnused_some {k : KeychainKind} {i : UInt32} (indexed : Indexed derive s)
    (found : s.firstUnused k = some i) : ⟨k, i⟩ ∈ s.unused ∧ i.toNat < s.nextReveal k := by
  have unused : (⟨k, i⟩ : KeychainIndex) ∈ s.unused := by
    simpa using List.find?_some found
  obtain ⟨n, range, rfl⟩ := List.mem_map.mp (List.mem_of_find?_eq_some found)
  have low := List.mem_range.mp range
  have size := indexed.revealed k
  unfold bip32MaxIndex at size
  exact ⟨unused, by rwa [UInt32.toNat_ofNat_of_lt' (by show n < 2 ^ 32; omega)]⟩

theorem Indexed.spk_eq (indexed : Indexed derive s) {i : KeychainIndex} {spk : Script}
    (found : s.inner.spks.get? i = some spk) : spk = derive i.keychain i.index := by
  rw [indexed.stores.spks, Option.ite_none_right_eq_some] at found
  simpa using found.2.symm

theorem nextUnusedSpk_ok (indexed : Indexed derive s) (distinct : DistinctPlaces derive)
    {k : KeychainKind} {i : UInt32} {spk : Script} {s' : KeychainTxOutIndex}
    (run : (s.nextUnusedSpk derive k : Outcome ε _) = .ok ((i, spk), s')) :
    Advances derive s s' ∧ ¬ s.Taken ⟨k, i⟩ ∧ spk = derive k i ∧ i.toNat < s'.nextReveal k := by
  unfold nextUnusedSpk at run
  split at run
  · rename_i first found
    simp only [bind_eq_ok, expect_eq_ok, pure_eq_ok] at run
    obtain ⟨stored, isStored, same⟩ := run
    obtain ⟨⟨rfl, rfl⟩, rfl⟩ : (first = i ∧ stored = spk) ∧ s = s' := by simpa using same
    obtain ⟨unused, low⟩ := firstUnused_some indexed found
    exact ⟨.refl indexed, fun taken => taken.2 unused, indexed.spk_eq isStored, low⟩
  · obtain ⟨advances, number, script, moved⟩ := revealNextSpk_ok indexed distinct run
    refine ⟨advances, fun taken => ?_, script, by omega⟩
    have : i.toNat < s.nextReveal k := taken.1
    omega

theorem drainSpk_ok (indexed : Indexed derive s) {i : UInt32} {spk : Script}
    (run : (s.drainSpk derive : Outcome ε _) = .ok (i, spk)) :
    ¬ s.Taken ⟨.internal, i⟩ ∧ spk = derive .internal i ∧ i.toNat ≤ s.nextReveal .internal := by
  unfold drainSpk at run
  split at run
  · rename_i first found
    simp only [bind_eq_ok, expect_eq_ok, pure_eq_ok] at run
    obtain ⟨stored, isStored, same⟩ := run
    obtain ⟨rfl, rfl⟩ : first = i ∧ stored = spk := by simpa using same
    obtain ⟨unused, low⟩ := firstUnused_some indexed found
    exact ⟨fun taken => taken.2 unused, indexed.spk_eq isStored, low.le⟩
  · have number := ofNat_nextReveal indexed .internal
    simp only [nextIndex_eq indexed .internal, bind_ok, pure_eq_ok] at run
    obtain ⟨rfl, rfl⟩ : UInt32.ofNat (s.nextReveal .internal) = i ∧ _ = spk := by simpa using run
    refine ⟨fun taken => ?_, rfl, number.le⟩
    have : (UInt32.ofNat (s.nextReveal .internal)).toNat < s.nextReveal .internal := taken.1
    omega

theorem recordChange_ok (indexed : Indexed derive s) (distinct : DistinctPlaces derive)
    {i : UInt32} {s' : KeychainTxOutIndex}
    (run : (s.recordChange derive i : Outcome ε _) = .ok s') :
    Advances derive s s' ∧ s'.Taken ⟨.internal, i⟩ := by
  simp only [recordChange, bind_eq_ok, pure_eq_ok] at run
  obtain ⟨revealed, isRevealed, rfl⟩ := run
  obtain ⟨advances, reached⟩ := revealToTarget_ok distinct indexed isRevealed
  exact ⟨advances.trans (markUsed_advances advances.indexed _), markUsed_taken reached⟩

theorem indexTxout_ok (indexed : Indexed derive s) (distinct : DistinctPlaces derive)
    (op : OutPoint) (txout : TxOut) :
    Advances derive s (s.indexTxout derive op txout).1 ∧
      ∀ i ∈ (s.indexTxout derive op txout).2, (s.indexTxout derive op txout).1.Taken i := by
  unfold indexTxout
  split
  · exact ⟨.refl indexed, by simp⟩
  · rename_i i found
    have low := ((indexed.stores.indices _ i).mp found).1
    -- The outputs found change neither the scripts nor the window.
    have scanned : Advances derive s
        { s.markUsed i with inner := s.inner.scanTxout op txout } := by
      have marked := markUsed_advances indexed i
      have spks : (s.inner.scanTxout op txout).spks = s.inner.spks := by
        unfold SpkTxOutIndex.scanTxout
        split <;> rfl
      have indices : (s.inner.scanTxout op txout).spkIndices = s.inner.spkIndices := by
        unfold SpkTxOutIndex.scanTxout
        split <;> rfl
      refine ⟨⟨⟨?_, ?_, marked.indexed.stores.unused⟩, marked.indexed.revealed⟩, marked.reveals,
        marked.taken⟩
      · simp only [spks]
        exact marked.indexed.stores.spks
      · simp only [indices]
        exact marked.indexed.stores.indices
    have gone : i ∉ (s.markUsed i).unused := fun member => by
      simpa using (List.mem_filter.mp member).2
    dsimp only
    split
    · rename_i revealed
      refine ⟨scanned, fun j same => ?_⟩
      obtain rfl : i = j := by simpa using same
      exact ⟨revealed, gone⟩
    · rename_i later
      have later' := not_lt.mp later
      have room := low.trans_le (s.stopIndex_le i.keychain)
      have advances := setRevealed_advances scanned.indexed distinct later' room
      obtain ⟨_, moved, unused⟩ := setRevealed_stores scanned.indexed distinct later'
      refine ⟨scanned.trans advances, fun j same => ?_⟩
      obtain rfl : i = j := by simpa using same
      refine ⟨by rw [moved, Function.update_self]; omega, fun member => ?_⟩
      rcases unused i member with old | beyond
      · exact gone old
      · have beyond' : s.stopIndex i.keychain ≤ i.index.toNat := beyond
        omega

theorem indexTx_ok (indexed : Indexed derive s) (distinct : DistinctPlaces derive)
    (env : Primitives) (tx : Transaction) :
    Advances derive s (s.indexTx derive env tx).1 ∧
      ∀ i ∈ (s.indexTx derive env tx).2, (s.indexTx derive env tx).1.Taken i := by
  unfold indexTx
  -- Over the outputs so far: the index has advanced, and what was found is taken.
  have loop : ∀ (outputs : List (TxOut × ℕ)) (st : KeychainTxOutIndex × List KeychainIndex),
      Advances derive s st.1 → (∀ i ∈ st.2, st.1.Taken i) →
      Advances derive s (outputs.foldl (indexNext derive (env.computeTxid tx)) st).1 ∧
      ∀ i ∈ (outputs.foldl (indexNext derive (env.computeTxid tx)) st).2,
        (outputs.foldl (indexNext derive (env.computeTxid tx)) st).1.Taken i := by
    intro outputs
    induction outputs with
    | nil => intro st advances taken; exact ⟨advances, taken⟩
    | cons first rest ih =>
      intro st advances taken
      obtain ⟨advances', taken'⟩ := indexTxout_ok advances.indexed distinct
        ⟨env.computeTxid tx, UInt32.ofNat first.2⟩ first.1
      apply ih (indexNext derive (env.computeTxid tx) st first) (advances.trans advances')
      intro i member
      rcases List.mem_append.mp member with old | new
      · exact advances'.taken i (taken i old)
      · exact taken' i (Option.mem_toList.mp new)
  exact loop _ (s, []) (.refl indexed) (by simp)

end Operations

inductive Op where
  | revealNext (k : KeychainKind)
  | nextUnused (k : KeychainKind)
  | revealTo (k : KeychainKind) (target : UInt32)
  | indexTx (tx : Transaction)
  | build (paid : Bool)

inductive Event where
  | revealed (i : KeychainIndex)
  | offered (i : KeychainIndex)
  | change (i : KeychainIndex)
  | received (i : KeychainIndex)
  deriving DecidableEq, Repr

namespace Event

def place : Event → KeychainIndex
  | .revealed i => i
  | .offered i => i
  | .change i => i
  | .received i => i

def Uses : Event → Prop
  | .change _ => True
  | .received _ => True
  | _ => False

/-- The later event may follow the earlier one: a revealed place has not occurred,
    and a place offered or taken for change has not been used. -/
def Fresh (earlier later : Event) : Prop :=
  match later with
  | .revealed i => earlier.place ≠ i
  | .offered i => earlier.Uses → earlier.place ≠ i
  | .change i => earlier.Uses → earlier.place ≠ i
  | .received _ => True

def Held (s : KeychainTxOutIndex) (e : Event) : Prop :=
  e.place.index.toNat < s.nextReveal e.place.keychain ∧ (e.Uses → s.Taken e.place)

theorem Held.advance {s' : KeychainTxOutIndex} {e : Event} (held : e.Held s)
    (advances : Advances derive s s') : e.Held s' :=
  ⟨held.1.trans_le (advances.reveals _), fun uses => advances.taken _ (held.2 uses)⟩

end Event

section Runs

variable (env : Primitives) (derive : Derive)

def Op.run (s : KeychainTxOutIndex) : Op → Outcome ε (KeychainTxOutIndex × List Event)
  | .revealNext k => do
    let ((i, _), s) ← s.revealNextSpk derive k
    return (s, [.revealed ⟨k, i⟩])
  | .nextUnused k => do
    let ((i, _), s) ← s.nextUnusedSpk derive k
    return (s, [.offered ⟨k, i⟩])
  | .revealTo k target => do
    let s ← s.revealToTarget derive k target
    return (s, [])
  | .indexTx tx =>
    let (s, found) := s.indexTx derive env tx
    return (s, found.map .received)
  | .build paid => do
    let (i, _) ← s.drainSpk derive
    if paid then do
      let s ← s.recordChange derive i
      return (s, [.change ⟨.internal, i⟩])
    else return (s, [])

def runOps : List Op → KeychainTxOutIndex → Outcome ε (KeychainTxOutIndex × List Event)
  | [], s => return (s, [])
  | op :: rest, s => do
    let (s, events) ← op.run env derive s
    let (s, more) ← runOps rest s
    return (s, events ++ more)

end Runs

section Steps

variable {env : Primitives} {s' : KeychainTxOutIndex} {events : List Event}

structure Steps (derive : Derive) (s s' : KeychainTxOutIndex) (events : List Event) : Prop where
  advances : Advances derive s s'
  held : ∀ e ∈ events, e.Held s'
  apart : events.Pairwise Event.Fresh
  fresh : ∀ e : Event, e.Held s → ∀ e' ∈ events, e.Fresh e'

theorem Steps.none (advances : Advances derive s s') : Steps derive s s' [] :=
  ⟨advances, by simp, .nil, by simp⟩

theorem Steps.one {e : Event} (advances : Advances derive s s') (held : e.Held s')
    (fresh : ∀ e' : Event, e'.Held s → e'.Fresh e) : Steps derive s s' [e] :=
  ⟨advances, by simpa using held, List.pairwise_singleton _ _, by simpa using fresh⟩

theorem Op.run_steps (indexed : Indexed derive s) (distinct : DistinctPlaces derive) {op : Op}
    (run : (op.run env derive s : Outcome ε _) = .ok (s', events)) :
    Steps derive s s' events := by
  cases op with
  | revealNext k =>
    simp only [Op.run, bind_eq_ok, pure_eq_ok] at run
    obtain ⟨⟨⟨i, spk⟩, next⟩, revealed, same⟩ := run
    obtain ⟨rfl, rfl⟩ : next = s' ∧ _ = events := by simpa using same
    obtain ⟨advances, number, _, moved⟩ := revealNextSpk_ok indexed distinct revealed
    refine .one advances ⟨?_, fun uses => uses.elim⟩ fun e held same => ?_
    · show i.toNat < next.nextReveal k
      omega
    · have low := held.1
      rw [same] at low
      have : i.toNat < s.nextReveal k := low
      omega
  | nextUnused k =>
    simp only [Op.run, bind_eq_ok, pure_eq_ok] at run
    obtain ⟨⟨⟨i, spk⟩, next⟩, offered, same⟩ := run
    obtain ⟨rfl, rfl⟩ : next = s' ∧ _ = events := by simpa using same
    obtain ⟨advances, free, _, low⟩ := nextUnusedSpk_ok indexed distinct offered
    exact .one advances ⟨low, fun uses => uses.elim⟩ fun e held uses same =>
      free (same ▸ held.2 uses)
  | revealTo k target =>
    simp only [Op.run, bind_eq_ok, pure_eq_ok] at run
    obtain ⟨next, revealed, same⟩ := run
    obtain ⟨rfl, rfl⟩ : next = s' ∧ events = [] := by simpa using same
    exact .none (revealToTarget_ok distinct indexed revealed).1
  | indexTx tx =>
    obtain ⟨advances, taken⟩ := indexTx_ok indexed distinct env tx
    obtain ⟨rfl, rfl⟩ : _ = s' ∧ _ = events := by simpa [Op.run] using run
    refine ⟨advances, fun e member => ?_, ?_, fun e _ e' member => ?_⟩
    · obtain ⟨i, found, rfl⟩ := List.mem_map.mp member
      exact ⟨(taken i found).1, fun _ => taken i found⟩
    · exact List.pairwise_map.mpr (List.pairwise_of_forall fun _ _ => trivial)
    · obtain ⟨i, _, rfl⟩ := List.mem_map.mp member
      trivial
  | build paid =>
    simp only [Op.run, bind_eq_ok] at run
    obtain ⟨⟨i, spk⟩, drain, run⟩ := run
    obtain ⟨free, _, _⟩ := drainSpk_ok indexed drain
    cases paid with
    | false =>
      obtain ⟨rfl, rfl⟩ : s = s' ∧ events = [] := by simpa using run
      exact .none (.refl indexed)
    | true =>
      simp only [↓reduceIte, bind_eq_ok, pure_eq_ok] at run
      obtain ⟨next, recorded, same⟩ := run
      obtain ⟨rfl, rfl⟩ : next = s' ∧ _ = events := by simpa using same
      obtain ⟨advances, taken⟩ := recordChange_ok indexed distinct recorded
      exact .one advances ⟨taken.1, fun _ => taken⟩ fun e held uses same =>
        free (same ▸ held.2 uses)

theorem runOps_steps (distinct : DistinctPlaces derive) {ops : List Op}
    (indexed : Indexed derive s)
    (run : (runOps env derive ops s : Outcome ε _) = .ok (s', events)) :
    Steps derive s s' events := by
  induction ops generalizing s events with
  | nil =>
    obtain ⟨rfl, rfl⟩ : s = s' ∧ [] = events := by simpa [runOps] using run
    exact .none (.refl indexed)
  | cons op rest ih =>
    simp only [runOps, bind_eq_ok, pure_eq_ok] at run
    obtain ⟨⟨middle, first⟩, one, ⟨last, more⟩, later, same⟩ := run
    obtain ⟨rfl, rfl⟩ : last = s' ∧ first ++ more = events := by simpa using same
    have step := Op.run_steps indexed distinct one
    have steps := ih step.advances.indexed later
    refine ⟨step.advances.trans steps.advances, fun e member => ?_, ?_, fun e held e' member => ?_⟩
    · rcases List.mem_append.mp member with old | new
      · exact (step.held e old).advance steps.advances
      · exact steps.held e new
    · exact List.pairwise_append.mpr ⟨step.apart, steps.apart,
        fun e old e' new => steps.fresh e (step.held e old) e' new⟩
    · rcases List.mem_append.mp member with old | new
      · exact step.fresh e held e' old
      · exact steps.fresh e (held.advance step.advances) e' new

end Steps

theorem replenish_lastRevealed (derive : Derive) (s : KeychainTxOutIndex) (k : KeychainKind) :
    (s.replenishInnerIndex derive k).lastRevealed = s.lastRevealed :=
  (foldl_insertSpk_frame derive k _).1

theorem new_lastRevealed (derive : Derive) : (new derive).lastRevealed = fun _ => none :=
  (replenish_lastRevealed derive _ .internal).trans (replenish_lastRevealed derive _ .external)

theorem new_indexed (distinct : DistinctPlaces derive) : Indexed derive (new derive) := by
  have empty : Stores derive ⟨.default, [], fun _ => none⟩ fun _ => 0 :=
    ⟨fun i => by simp [SpkTxOutIndex.default, OrderedMap.empty, OrderedMap.get?],
      fun spk i => by simp [SpkTxOutIndex.default], by simp⟩
  obtain ⟨first, revealed, _⟩ :=
    empty.replenish distinct (fun _ => Nat.zero_le _) .external (Nat.zero_le _)
  have small : ∀ k, Function.update (fun _ => 0) KeychainKind.external
      (stopIndex ⟨.default, [], fun _ => none⟩ .external) k ≤ bip32MaxIndex := by
    intro k
    cases k with
    | external => exact stopIndex_le _ _
    | internal => exact Nat.zero_le _
  obtain ⟨second, _⟩ := first.replenish distinct small .internal (Nat.zero_le _)
  have none_revealed := new_lastRevealed derive
  refine ⟨?_, fun k => by simp [nextReveal, none_revealed]⟩
  have stop : (new derive).stopIndex = Function.update (Function.update (fun _ => 0)
      KeychainKind.external (stopIndex ⟨.default, [], fun _ => none⟩ .external))
      KeychainKind.internal (stopIndex (replenishInnerIndex derive ⟨.default, [], fun _ => none⟩
        .external) .internal) := by
    funext k
    cases k with
    | external => simp [stopIndex, nextReveal, none_revealed]
    | internal => simp [stopIndex, nextReveal, none_revealed, revealed]
  rw [stop]
  exact second

namespace Sample

def hashes : List (BitVec 256) :=
  [ 0x8b816f1e466d29f970c0e044900dd4b5942eae07d451176bc87c9b1b1fe20d7f,
    0xfdedd7ec9d0314d1c79c180acccbbfc4064188ae14c588c2f7b91e1ac1bed207,
    0xeaf6aaf0edf6351438ab133019e1cb492d73717176c9904d6981fa10cac797ce,
    0xb014835658086519a82a1622e614a94a0612930a836ab956b45ebf150bb54967,
    0xeda00b89c9c8fa51ba71b899282d5dde43cb87ae6710aab681c2d30eb6468cb1,
    0x820d74be151a137f44cb30c3b69f3abdb93752f42f9dd2b89be3708caebe6f26,
    0x17fd56b544a2e410cae660eb0144c05b6dd9df4f0a0bac24e78b69734ce7e23d,
    0x94bd96f2b41005e24eb4ba20a7e7725dd245651d9ce3eee49566aa14989baba9,
    0xf003f4363a38d702cc88bec87cb8ff27fc6835b1e6163091a664fc05e189fb3c,
    0x67afaef3b7a18b1151bc72f06f64092e70d1e0bfb21fad2fda7595d048b0a100,
    0x5807c72ffdd351a1a0fa9d20b6163b0dcd97d6b75eaeddcab9c0840c43666c25,
    0xf3f69ca20adaaae0cf1e3aee5b1cfb328a3c10dda30f815139e061c782165a08,
    0x516a5dd461cfef153e34eddb92205ae5221829daef43956b14b5cdaad072ec76,
    0x6735d0b816695824de2f2046dffe70d59e466a4dbd82afebb2128c442fc23ac1,
    0x1d6966e152e7938870e14a0191da04f10a6bea3da2bc7feb67a5dfab9782a82b,
    0xed6c308febd82a03ee52f16779b3a8735dc930f287e91434e825576d8a1809d0,
    0xc4c4c136daee529ff9dde9f3755420121bc64cf465e3a16ae6c63123deef64ec,
    0xf67d39a09411833c6746cc095372478d712a391b6e060d31283ccb04bb7f5dcb,
    0x976b6f006b65edb292e3bc14acd7d7b01ac3348fe6718bba51e8c327bd6c8875,
    0xc2cd228c9d1d476f705fec114f9f925a67762c94074a2a97ba22eb052dfd4d64,
    0x408c28c409997bc7b53496fc952fd9622f0e005b528f140bf5bb927b98e883bb,
    0xd079d25f45ae3485130eb2f9d054fbc8f5abcfa3d34f3e9f4a1ea48ffcf3b9e0,
    0x75336cb2bab1dd617c20b4ed9d55c4064fa942dd0b9bc5c23df54170c4a8e0f8,
    0xea5802363920554fe16fb2b0292e04a615f600c426a2ab49c7e6aeda83507914,
    0x0b6799c6dfbd6d406c7523fa81a0e96b5b9d4b3b124f9de7fe8ca068cbef6887,
    0x39cf1bef349063043c5ae16667349c7c410ad4d9cb24025d890cb12c2a077399,
    0x858b5369e513002ae2d82d88f66b8e6830dfaf274aabf1d64d71d444f51b290c,
    0x9d215a36badde33617f4ab5ec1fcfad2daf7e5f485f70fd6566d668b3117b89e,
    0xa4706e67012d160ddc1fa70063318972f06782f5b32581efd4232562d73fc1e7,
    0x139e6394d0d50698a671224368e70c556a8355033a37e84faabecde0f19546fb,
    0x274efd13205eba482277581cc6c7dc7710e046bcafeabb97d3b4893a8fb257b8,
    0xbdc8e0db8c2c13f88287fe6674a4f9435bb084ae88093a74b523a4e2f5aa8af9,
    0x38cecf1446bd1983f0bd5f63213dd12c88a5d0c011926716cf37f8c6229222dd,
    0x5d1804e3351d9e13993c05e24e4e36ba237d485f1a35cecb081ed4090affe074,
    0xea6c09d1caf381e5a4c1d2fc99ce25efcf1f025856726029f878a0251a41fdca,
    0xae81ec2d3f0222bec5b2c5e341c95fabd7ab0d3f06075d3b1beabba788de0827,
    0x261a3ec4d34ea43abc901adcbdf069473684dbc13fd036f37502bcac5e817e0d,
    0xb51d3b565dfbb35b4eebbcd76471b8a8998a1f38dae850759c2f08ccf06f224a,
    0x880093a243f18af2ef9a2a125394b9a66653e56b31166a336c5bb921e9b4537a,
    0x049136abca2890f4b4037ec6512d7ca30ad8f31254164c8a5ce884caa37a994f,
    0x544f426ece259acd23c888758b10a4af0e804c7cea34d4627bbdff6cad47ead0,
    0x8bd39ad6b84b6ec73e4d1ec027d0bd24a1a9d4e6dea78eb6ef11919b55b48d90,
    0x4a07be4f865f4f5f7ffc6b5b81506eabf674e0bfd30d43c65cf5de5485640308,
    0x862e8bfe7f349d5055f0d0630b4ec69b8f09b36d500b6a41875156d970e497cc,
    0xdcb08a5ebb7770a4a2c1a75471cc30508ace8a58279e439e0f7bd1a6067d57dc,
    0x0a89ec91bc8708fcbde130ccba250fddc7f33d92ebe33e84856ce608f9581e82,
    0x7a7ee6c7fcd631579ca01c087c119c60444ae4d491928b2aace81e4c3b1e84a4,
    0x6e88a0717e7c52736494bf4c9e73c8ab357a627b83c0b6fc051398640bc7448e,
    0x3b442ff0938626b20c27a0235d6ae7e9a72479fd5011fd69b4b560e2f2d103ba,
    0x62687dadff528a960b7e7a120f2e547cf67aa0c0f89b57130d360b159b23e5bd,
    0xe75add655f5ba51d8b22af9997c7c62e07da9eb3f8a3c78e5ba766b72cd68c21,
    0x15e352dcb7a1128d69eab76a36d461c973d1a12a7225e98aa40c55875554fcf8,
    0xbc267c20dc7d080b8cb53e55a037e3c9f3ab1098f9dc842e180e70f882975f6b,
    0x3cba802dc107414c042781e387282ad099864853bff6f22bef04a7db6cb6545f,
    0x8690fc3edf24dbddcbc370656caa8fb3e585731ed8fc2e136979a37b437945f1,
    0x350a1cdd870380df969171c4c0789364b44a10b94413162107d6582c791ea4cd ]

/-- Behind the window of those no script is looked at, and any others will do. -/
def hash (i : KeychainIndex) : BitVec 256 :=
  if i.index.toNat < 28 then
    hashes.getD ((if i.keychain = .external then 0 else 28) + i.index.toNat) 0
  else BitVec.ofNat 256 i.code

def scripts : Derive := fun k i => p2wshScript (hash ⟨k, i⟩)

theorem hash_listed {i : KeychainIndex} (low : i.index.toNat < 28) :
    hashes[(if i.keychain = .external then 0 else 28) + i.index.toNat]? = some (hash i) ∧
      (if i.keychain = .external then 0 else 28) + i.index.toNat < hashes.length := by
  have inside : (if i.keychain = .external then 0 else 28) + i.index.toNat < hashes.length := by
    rw [show hashes.length = 56 from rfl]
    split <;> omega
  rw [hash, if_pos low, List.getD_eq_getElem?_getD, List.getElem?_eq_getElem inside]
  exact ⟨rfl, inside⟩

theorem hash_large {i : KeychainIndex} (low : i.index.toNat < 28) : 2 ^ 33 ≤ (hash i).toNat := by
  have large : hashes.all (fun h => decide (2 ^ 33 ≤ h.toNat)) = true := by decide
  exact of_decide_eq_true
    (List.all_eq_true.mp large _ (List.mem_of_getElem? (hash_listed low).1))

theorem hash_code {i : KeychainIndex} (high : ¬ i.index.toNat < 28) :
    (hash i).toNat = i.code ∧ i.code < 2 ^ 33 := by
  have range := i.index.toNat_lt
  have small : i.code < 2 ^ 33 := by
    unfold KeychainIndex.code
    split <;> omega
  rw [hash, if_neg high, BitVec.toNat_ofNat, Nat.mod_eq_of_lt (by omega)]
  exact ⟨rfl, small⟩

theorem hash_injective : Function.Injective hash := by
  intro i j same
  by_cases low : i.index.toNat < 28
  · by_cases low' : j.index.toNat < 28
    · obtain ⟨here, inside⟩ := hash_listed low
      obtain ⟨here', _⟩ := hash_listed low'
      have once : hashes.Nodup := by decide
      have position := (List.getElem?_inj inside once).mp (here.trans (same ▸ here'.symm))
      have number : i.index.toNat = j.index.toNat := by
        split at position <;> split at position <;> omega
      have keychain : i.keychain = j.keychain := by
        cases first : i.keychain <;> cases second : j.keychain <;> simp_all
      exact congrArg₂ KeychainIndex.mk keychain (UInt32.toNat_inj.mp number)
    · obtain ⟨code, small⟩ := hash_code low'
      have large := hash_large low
      rw [same, code] at large
      omega
  · obtain ⟨code, small⟩ := hash_code low
    by_cases low' : j.index.toNat < 28
    · have large := hash_large low'
      rw [← same, code] at large
      omega
    · apply KeychainIndex.code_injective
      rw [← code, ← (hash_code low').1, same]

theorem scripts_distinct : DistinctPlaces scripts := by
  intro i j same
  have written : beBytes 32 (hash i) = beBytes 32 (hash j) := by
    simpa [scripts, p2wshScript] using same
  have digits := beBytes_inj written
  have range := (hash i).isLt
  have range' := (hash j).isLt
  exact hash_injective (BitVec.eq_of_toNat_eq (by omega))

def ops : List Op :=
  [.revealNext .external, .build true, .indexTx ⟨2, 0, [], [⟨5000, scripts .internal 1⟩]⟩,
    .build true, .nextUnused .external]

def events : List Event :=
  [.revealed ⟨.external, 0⟩, .change ⟨.internal, 0⟩, .received ⟨.internal, 1⟩,
    .change ⟨.internal, 2⟩, .offered ⟨.external, 0⟩]

theorem ops_run : ∃ s, (runOps Trinity.Sample.env scripts ops (new scripts) :
    Outcome Empty _) = .ok (s, events) := by
  have evaluated : (runOps Trinity.Sample.env scripts ops (new scripts) :
      Outcome Empty _).toOption.map Prod.snd = some events := by decide
  obtain ⟨⟨s, found⟩, run, rfl⟩ := Option.map_eq_some_iff.mp evaluated
  exact ⟨s, toOption_eq_some.mp run⟩

end Sample

/-- After any run the index knows exactly the scripts up to the lookahead beyond
    the last revealed index, and every place that was handed out or paid is revealed. -/
theorem watched_window (env : Primitives) (derive : Derive) (distinct : DistinctPlaces derive)
    (ops : List Op) (s : KeychainTxOutIndex) (events : List Event)
    (run : (runOps env derive ops (new derive) : Outcome Empty _) = .ok (s, events)) :
    (∀ spk (i : KeychainIndex), s.inner.spkIndices.lookup spk = some i ↔
      i.index.toNat < min (s.nextReveal i.keychain + gapLimit) bip32MaxIndex ∧
        derive i.keychain i.index = spk) ∧
    ∀ e ∈ events, e.place.index.toNat < s.nextReveal e.place.keychain := by
  have steps := runOps_steps distinct (new_indexed distinct) run
  exact ⟨steps.advances.indexed.stores.indices, fun e member => (steps.held e member).1⟩

theorem watched_window_sample : ∃ s : KeychainTxOutIndex,
    ∀ e ∈ Sample.events, e.place.index.toNat < s.nextReveal e.place.keychain := by
  obtain ⟨s, run⟩ := Sample.ops_run
  exact ⟨s, (watched_window _ _ Sample.scripts_distinct _ s _ run).2⟩

/-- Over any run, a revealed address has not occurred before, and an address offered
    as unused or taken for change has neither been paid nor taken for change before. -/
theorem no_address_reuse (env : Primitives) (derive : Derive) (distinct : DistinctPlaces derive)
    (ops : List Op) (s : KeychainTxOutIndex) (events : List Event)
    (run : (runOps env derive ops (new derive) : Outcome Empty _) = .ok (s, events)) :
    events.Pairwise Event.Fresh :=
  (runOps_steps distinct (new_indexed distinct) run).apart

theorem no_address_reuse_sample : Sample.events.Pairwise Event.Fresh := by
  obtain ⟨s, run⟩ := Sample.ops_run
  exact no_address_reuse _ _ Sample.scripts_distinct _ s _ run

end Trinity.Watch.KeychainTxOutIndex
