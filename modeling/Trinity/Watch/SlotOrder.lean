import Mathlib.Data.List.Perm.Subperm
import Trinity.Watch.Build

/-!
The slot loops of the builder: three keys pass exactly when slots and
fingerprints are pairwise distinct, they are put into slot order, and the
wallet built from them does not depend on the order in which they came.
-/
namespace Trinity.Watch

open Outcome

theorem seenSlots_eq_ok {keys : List KeyContribution} {seen result : KeySlot → Bool} :
    keys.foldlM (fun (seen : KeySlot → Bool) k => (do
      rejectIf (seen k.slot) (.invalidDocument (bytes "duplicate key slot " ++ slotText k.slot))
      return Function.update seen k.slot true : Outcome DescriptorError _)) seen = .ok result ↔
    (∀ k ∈ keys, seen k.slot = false) ∧ (keys.map KeyContribution.slot).Nodup ∧
      result = fun s => seen s || (keys.map KeyContribution.slot).contains s := by
  induction keys generalizing seen with
  | nil =>
    rw [List.foldlM_nil, pure_eq_ok]
    simp [@eq_comm _ result]
  | cons k rest ih =>
    simp only [List.foldlM_cons, bind_eq_ok, rejectIf_eq_ok, pure_eq_ok, ih, List.map_cons,
      List.nodup_cons, List.forall_mem_cons]
    have same : (fun s => Function.update seen k.slot true s ||
        (rest.map KeyContribution.slot).contains s) =
        fun s => seen s || (k.slot :: rest.map KeyContribution.slot).contains s := by
      funext s
      by_cases here : s = k.slot
      · simp [here]
      · simp [here]
    rw [← same]
    constructor
    · rintro ⟨_, ⟨_, fresh, rfl⟩, later, distinct, made⟩
      have apart : ∀ j ∈ rest, j.slot ≠ k.slot := by
        intro j member same
        have := later j member
        simp [same] at this
      refine ⟨⟨by simpa using fresh, ?_⟩, ⟨?_, distinct⟩, made⟩
      · intro j member
        simpa [Function.update_of_ne (apart j member)] using later j member
      · rintro member
        obtain ⟨j, there, slot⟩ := List.mem_map.mp member
        exact apart j there slot
    · rintro ⟨⟨fresh, later⟩, ⟨absent, distinct⟩, made⟩
      refine ⟨_, ⟨(), by simp [fresh], rfl⟩, ?_, distinct, made⟩
      intro j member
      have apart : j.slot ≠ k.slot := fun slot => absent (List.mem_map.mpr ⟨j, member, slot⟩)
      rw [Function.update_of_ne apart]
      exact later j member

theorem slots_covered {x y z : KeySlot} (distinct : [x, y, z].Nodup) (s : KeySlot) :
    [x, y, z].contains s = true := by
  cases x <;> cases y <;> cases z <;> cases s <;> first | rfl | simp at distinct

theorem validateSlotsAndFingerprints_eq_ok {keys : Triple KeyContribution} {u : Unit} :
    validateSlotsAndFingerprints keys = .ok u ↔
      (keys.toList.map KeyContribution.slot).Nodup ∧
      (keys.toList.map fun k => k.xpub.fingerprint).Nodup := by
  rcases keys with ⟨x, y, z⟩
  simp only [validateSlotsAndFingerprints, bind_eq_ok, rejectIf_eq_ok, forM_eq_ok, seenSlots_eq_ok]
  constructor
  · rintro ⟨_, ⟨_, distinct, _⟩, _, _, apart⟩
    simp only [List.forall_mem_cons] at apart
    refine ⟨distinct, ?_⟩
    simp [Triple.toList, apart.1, apart.2.1, apart.2.2.1]
  · rintro ⟨distinct, apart⟩
    have covered := slots_covered distinct
    refine ⟨_, ⟨by simp, distinct, rfl⟩, (), ?_, ?_⟩
    · simp only [Triple.toList, List.map_cons, List.map_nil, covered, Bool.false_or, not_not,
        and_self]
    · simp only [Triple.toList, List.map_cons, List.map_nil, List.nodup_cons, List.mem_cons,
        List.not_mem_nil, or_false, not_or] at apart
      simp only [List.forall_mem_cons]
      exact ⟨apart.1.1, apart.1.2, apart.2.1, by simp⟩

theorem slotArray_eq_some {keys : List KeyContribution} {out : KeySlot → Option KeyContribution}
    (distinct : (keys.map KeyContribution.slot).Nodup) (s : KeySlot) (key : KeyContribution) :
    keys.foldl (fun (out : KeySlot → Option KeyContribution) k =>
      Function.update out k.slot (some k)) out s = some key ↔
      (key ∈ keys ∧ key.slot = s) ∨ (s ∉ keys.map KeyContribution.slot ∧ out s = some key) := by
  induction keys generalizing out with
  | nil => simp
  | cons k rest ih =>
    rw [List.map_cons, List.nodup_cons] at distinct
    obtain ⟨absent, distinct⟩ := distinct
    rw [List.foldl_cons, ih distinct]
    by_cases here : s = k.slot
    · subst here
      have fresh : ∀ j ∈ rest, j.slot ≠ k.slot :=
        fun j member slot => absent (List.mem_map.mpr ⟨j, member, slot⟩)
      simp only [absent, Function.update_self, Option.some.injEq, List.mem_cons, not_false_eq_true,
        true_and, List.map_cons, not_true_eq_false, false_and, or_false]
      constructor
      · rintro (⟨member, slot⟩ | rfl)
        · exact absurd slot (fresh key member)
        · exact ⟨.inl rfl, rfl⟩
      · rintro ⟨rfl | member, slot⟩
        · exact .inr rfl
        · exact absurd slot (fresh key member)
    · have differs : key.slot = s → key ≠ k := by
        rintro slot rfl
        exact here slot.symm
      simp only [Function.update_of_ne here, List.mem_cons, List.map_cons, here, false_or]
      constructor
      · rintro (⟨member, slot⟩ | old)
        · exact .inl ⟨.inr member, slot⟩
        · exact .inr old
      · rintro (⟨rfl | member, slot⟩ | old)
        · exact absurd rfl (differs slot)
        · exact .inl ⟨member, slot⟩
        · exact .inr old

def SlotOrdered (ordered : Triple KeyContribution) : Prop :=
  ordered.first.slot = .a ∧ ordered.second.slot = .b ∧ ordered.third.slot = .c

theorem slotOrdered_unique {keys ordered : Triple KeyContribution}
    (perm : ordered.toList.Perm keys.toList) (left : SlotOrdered ordered)
    (right : SlotOrdered keys) : ordered = keys := by
  rcases keys with ⟨x, y, z⟩
  rcases ordered with ⟨a, b, c⟩
  obtain ⟨slotA, slotB, slotC⟩ := left
  obtain ⟨slotX, slotY, slotZ⟩ := right
  simp only at slotA slotB slotC slotX slotY slotZ
  have member : ∀ k ∈ [a, b, c], k = x ∨ k = y ∨ k = z := by
    intro k inside
    simpa [Triple.toList] using perm.subset inside
  have first : a = x := by
    rcases member a (by simp) with rfl | rfl | rfl
    · rfl
    · exact absurd (slotA.symm.trans slotY) (by decide)
    · exact absurd (slotA.symm.trans slotZ) (by decide)
  have second : b = y := by
    rcases member b (by simp) with rfl | rfl | rfl
    · exact absurd (slotB.symm.trans slotX) (by decide)
    · rfl
    · exact absurd (slotB.symm.trans slotZ) (by decide)
  have third : c = z := by
    rcases member c (by simp) with rfl | rfl | rfl
    · exact absurd (slotC.symm.trans slotX) (by decide)
    · exact absurd (slotC.symm.trans slotY) (by decide)
    · rfl
  rw [first, second, third]

theorem orderBySlot_eq_ok {keys ordered : Triple KeyContribution}
    (distinct : (keys.toList.map KeyContribution.slot).Nodup) :
    orderBySlot keys = .ok ordered ↔
      ordered.toList.Perm keys.toList ∧ SlotOrdered ordered := by
  have entry (s : KeySlot) (key : KeyContribution) :
      keys.toList.foldl (fun (out : KeySlot → Option KeyContribution) k =>
        Function.update out k.slot (some k)) (fun _ => none) s = some key ↔
        key ∈ keys.toList ∧ key.slot = s := by
    rw [slotArray_eq_some distinct]
    simp
  simp only [orderBySlot, bind_eq_ok, expect_eq_ok, pure_ok, Except.ok.injEq, entry]
  constructor
  · rintro ⟨a, ⟨inA, slotA⟩, b, ⟨inB, slotB⟩, c, ⟨inC, slotC⟩, rfl⟩
    refine ⟨?_, slotA, slotB, slotC⟩
    have different : ([a, b, c].map KeyContribution.slot).Nodup := by
      simp [slotA, slotB, slotC]
    have members : [a, b, c] ⊆ keys.toList := by
      intro k member
      simp only [List.mem_cons, List.not_mem_nil, or_false] at member
      rcases member with rfl | rfl | rfl
      · exact inA
      · exact inB
      · exact inC
    exact (List.subperm_of_subset different.of_map members).perm_of_length_le (Nat.le_refl 3)
  · rintro ⟨perm, slotA, slotB, slotC⟩
    exact ⟨_, ⟨perm.subset (by simp [Triple.toList]), slotA⟩, _,
      ⟨perm.subset (by simp [Triple.toList]), slotB⟩, _,
      ⟨perm.subset (by simp [Triple.toList]), slotC⟩, rfl⟩

variable {ms : Miniscript} {network : Network} {createdAtUnix : UInt64}

/-- What a built wallet was built from. The conditions do not depend on the
    order in which the contributions come. -/
theorem build_eq_ok {keys : Triple KeyContribution} {w : WalletDescriptors} :
    buildWalletDescriptors ms network keys createdAtUnix = .ok w ↔
      (keys.toList.map KeyContribution.slot).Nodup ∧
      (keys.toList.map fun k => k.xpub.fingerprint).Nodup ∧
      (∀ k ∈ keys.toList, validateContribution ms network k = .ok ()) ∧
      ∃ ordered : Triple KeyContribution, ordered.toList.Perm keys.toList ∧ SlotOrdered ordered ∧
        buildOrdered ms network ordered createdAtUnix = .ok w := by
  simp only [buildWalletDescriptors, bind_eq_ok, validateSlotsAndFingerprints_eq_ok, forM_eq_ok]
  constructor
  · rintro ⟨_, ⟨slots, fingerprints⟩, _, valid, ordered, sorted, built⟩
    obtain ⟨perm, order⟩ := (orderBySlot_eq_ok slots).mp sorted
    exact ⟨slots, fingerprints, valid, ordered, perm, order, built⟩
  · rintro ⟨slots, fingerprints, valid, ordered, perm, order, built⟩
    exact ⟨(), ⟨slots, fingerprints⟩, (), valid, ordered,
      (orderBySlot_eq_ok slots).mpr ⟨perm, order⟩, built⟩

theorem built_any_order {keys keys' : Triple KeyContribution} {w : WalletDescriptors}
    (perm : keys'.toList.Perm keys.toList)
    (built : buildWalletDescriptors ms network keys createdAtUnix = .ok w) :
    buildWalletDescriptors ms network keys' createdAtUnix = .ok w := by
  obtain ⟨slots, fingerprints, valid, ordered, sorted, order, made⟩ := build_eq_ok.mp built
  refine build_eq_ok.mpr ⟨?_, ?_, ?_, ordered, sorted.trans perm.symm, order, made⟩
  · exact (perm.map _).nodup_iff.mpr slots
  · exact (perm.map _).nodup_iff.mpr fingerprints
  · exact fun k member => valid k (perm.subset member)

end Trinity.Watch
