import Trinity.Entropy.Sources

/-!
Two different sets of sources never have the same canonical bytes. Dice, coins
and cards are free of the separator, so the first three separators end their
slots; what follows the third is the sensor, whatever it holds.
-/
namespace Trinity

open Outcome

section Slots

theorem lastFilled_eq_none {slots : List Str} :
    lastFilled slots = none ↔ slots.all List.isEmpty := by
  induction slots with
  | nil => simp [lastFilled]
  | cons slot rest ih =>
    rw [lastFilled, List.all_cons, Bool.and_eq_true, ← ih]
    cases lastFilled rest with
    | none => simp
    | some i => simp

theorem foldl_slots (slots : List Str) (start n : Nat) (out : Str) :
    ((slots.zipIdx (start + 1)).take n).foldl
      (fun out slot => (if slot.2 > 0 then out ++ [slotSeparator] else out) ++ slot.1) out =
      out ++ (slots.take n).flatMap (slotSeparator :: ·) := by
  induction slots generalizing start n out with
  | nil => simp
  | cons slot rest ih =>
    cases n with
    | zero => simp
    | succ n =>
      rw [List.zipIdx_cons, List.take_succ_cons, List.foldl_cons, ih, List.take_succ_cons,
        List.flatMap_cons, if_pos (Nat.succ_pos start)]
      simp

theorem encodeSlots_cons (slot : Str) (rest : List Str) :
    encodeSlots (slot :: rest) =
      if rest.all List.isEmpty then slot else slot ++ slotSeparator :: encodeSlots rest := by
  unfold encodeSlots
  rw [lastFilled]
  cases found : lastFilled rest with
  | none =>
    rw [if_pos (lastFilled_eq_none.mp found)]
    cases slot with
    | nil => rfl
    | cons b later => rfl
  | some i =>
    have filled : ¬ rest.all List.isEmpty := by
      rw [← lastFilled_eq_none, found]
      simp
    cases rest with
    | nil => simp [lastFilled] at found
    | cons next later =>
      rw [if_neg filled]
      simp only [List.zipIdx_cons, List.take_succ_cons, List.foldl_cons, Nat.zero_add, foldl_slots]
      simp

theorem encodeSlots_eq (slots : List Str) :
    encodeSlots slots = Framing.slots slotSeparator slots := by
  induction slots with
  | nil => rfl
  | cons slot rest ih => rw [encodeSlots_cons, Framing.slots_cons, ih]

end Slots

inductive EntropyCall where
  | dice (ascii : Str)
  | coins (ascii : Str)
  | cards (ascii : Str)
  | sensor (blob : Str)
  deriving DecidableEq, Repr

namespace AdditionalEntropy

def apply (e : AdditionalEntropy) : EntropyCall → Outcome EntropyError AdditionalEntropy
  | .dice ascii => e.withDice ascii
  | .coins ascii => e.withCoins ascii
  | .cards ascii => e.withCards ascii
  | .sensor blob => .ok (e.withSensor blob)

def build (calls : List EntropyCall) : Outcome EntropyError AdditionalEntropy :=
  calls.foldlM apply new

/-- Active sources are not empty, and only the sensor may hold the separator. -/
structure Valid (e : AdditionalEntropy) : Prop where
  dice : ∀ s ∈ e.dice, s ≠ [] ∧ slotSeparator ∉ s
  coins : ∀ s ∈ e.coins, s ≠ [] ∧ slotSeparator ∉ s
  cards : ∀ cards ∈ e.cards, cards ≠ []
  sensor : ∀ blob ∈ e.sensor, blob ≠ []

theorem valid_new : Valid new := ⟨by simp [new], by simp [new], by simp [new], by simp [new]⟩

theorem parseSymbols_valid {known : UInt8 → Bool} {empty : EntropyError}
    {invalid : Nat → UInt8 → EntropyError} {ascii s : Str}
    (foreign : known slotSeparator = false)
    (parsed : parseSymbols known empty invalid ascii = .ok s) : s ≠ [] ∧ slotSeparator ∉ s := by
  obtain ⟨filled, each, rfl⟩ := parseSymbols_eq_ok.mp parsed
  refine ⟨filled, ?_⟩
  intro member
  rw [each _ member] at foreign
  exact Bool.noConfusion foreign

theorem Valid.apply {e e' : AdditionalEntropy} {call : EntropyCall} (valid : Valid e)
    (applied : e.apply call = .ok e') : Valid e' := by
  cases call with
  | dice ascii =>
    simp only [AdditionalEntropy.apply, withDice, bind_eq_ok, pure_ok, Except.ok.injEq] at applied
    obtain ⟨s, parsed, rfl⟩ := applied
    exact { valid with dice := by simpa using parseSymbols_valid (by decide) parsed }
  | coins ascii =>
    simp only [AdditionalEntropy.apply, withCoins, bind_eq_ok, pure_ok, Except.ok.injEq] at applied
    obtain ⟨s, parsed, rfl⟩ := applied
    exact { valid with coins := by simpa using parseSymbols_valid (by decide) parsed }
  | cards ascii =>
    simp only [AdditionalEntropy.apply, withCards, bind_eq_ok, pure_ok, Except.ok.injEq] at applied
    obtain ⟨cards, parsed, rfl⟩ := applied
    exact { valid with cards := by simpa using (parseCards_spells parsed).1 }
  | sensor blob =>
    obtain rfl := Except.ok.inj applied
    unfold withSensor
    by_cases blank : blob.isEmpty
    · rw [if_pos blank]
      exact { valid with sensor := by simp }
    · rw [if_neg blank]
      exact { valid with sensor := by simpa using blank }

theorem Valid.run {calls : List EntropyCall} {e e' : AdditionalEntropy} (valid : Valid e)
    (ran : calls.foldlM AdditionalEntropy.apply e = .ok e') : Valid e' := by
  induction calls generalizing e with
  | nil =>
    obtain rfl := Except.ok.inj ran
    exact valid
  | cons call rest ih =>
    rw [List.foldlM_cons, bind_eq_ok] at ran
    obtain ⟨next, applied, ran⟩ := ran
    exact ih (valid.apply applied) ran

end AdditionalEntropy

section Injective

theorem getD_nil_injective {α : Type} {o o' : Option (List α)} (filled : ∀ s ∈ o, s ≠ [])
    (filled' : ∀ s ∈ o', s ≠ []) (same : o.getD [] = o'.getD []) : o = o' := by
  cases o with
  | none =>
    cases o' with
    | none => rfl
    | some s' => exact absurd same.symm (filled' s' rfl)
  | some s =>
    cases o' with
    | none => exact absurd same (filled s rfl)
    | some s' => rw [show s = s' from same]

theorem Rank.asStr_clean (rank : Rank) : slotSeparator ∉ rank.asStr := by
  cases rank <;> decide

theorem Suit.asChar_clean (suit : Suit) : suit.asChar ≠ slotSeparator := by
  cases suit <;> decide

theorem encodeCards_clean (cards : List Card) : slotSeparator ∉ encodeCards cards := by
  rw [encodeCards_eq, List.mem_flatMap]
  rintro ⟨card, _, inside⟩
  rw [Card.encode, List.mem_append, List.mem_singleton] at inside
  rcases inside with rank | suit
  · exact Rank.asStr_clean card.rank rank
  · exact Suit.asChar_clean card.suit suit.symm

theorem encodeCards_injective {cards cards' : List Card}
    (same : encodeCards cards = encodeCards cards') : cards = cards' := by
  rw [encodeCards_eq, encodeCards_eq] at same
  exact Card.encode_prefixFree.flatMap_injective same

theorem getD_clean {o : Option Str} (clean : ∀ s ∈ o, s ≠ [] ∧ slotSeparator ∉ s) :
    slotSeparator ∉ o.getD [] := by
  cases o with
  | none => exact List.not_mem_nil
  | some s => exact (clean s rfl).2

theorem AdditionalEntropy.Valid.cardsAscii {e : AdditionalEntropy} (valid : e.Valid) :
    ∀ s ∈ e.cardsAscii, s ≠ [] ∧ slotSeparator ∉ s := by
  intro s member
  obtain ⟨cards, active, rfl⟩ := Option.map_eq_some_iff.mp member
  refine ⟨?_, encodeCards_clean cards⟩
  intro blank
  exact valid.cards cards active (encodeCards_injective blank)

end Injective

/-- Equal canonical bytes come from equal sources, whatever calls built them. -/
theorem canonical_bytes_injective {calls calls' : List EntropyCall} {e e' : AdditionalEntropy}
    (built : AdditionalEntropy.build calls = .ok e)
    (built' : AdditionalEntropy.build calls' = .ok e')
    (same : e.canonicalBytes = e'.canonicalBytes) : e = e' := by
  have valid := AdditionalEntropy.valid_new.run built
  have valid' := AdditionalEntropy.valid_new.run built'
  have slots := Framing.slots_injective slotSeparator (by rfl)
    (by simp [getD_clean valid.dice, getD_clean valid.coins, getD_clean valid.cardsAscii])
    (by simp [getD_clean valid'.dice, getD_clean valid'.coins, getD_clean valid'.cardsAscii])
    ((encodeSlots_eq _).symm.trans (same.trans (encodeSlots_eq _)))
  simp only [List.cons.injEq, and_true] at slots
  obtain ⟨dice, coins, cards, sensor⟩ := slots
  have dice := getD_nil_injective (fun s member => (valid.dice s member).1)
    (fun s member => (valid'.dice s member).1) dice
  have coins := getD_nil_injective (fun s member => (valid.coins s member).1)
    (fun s member => (valid'.coins s member).1) coins
  have spelled := getD_nil_injective (fun s member => (valid.cardsAscii s member).1)
    (fun s member => (valid'.cardsAscii s member).1) cards
  have cards : e.cards = e'.cards :=
    Option.map_injective (fun _ _ => encodeCards_injective) spelled
  have sensor := getD_nil_injective valid.sensor valid'.sensor sensor
  cases e
  cases e'
  simp only [AdditionalEntropy.mk.injEq]
  exact ⟨dice, coins, cards, sensor⟩

namespace Sample

def sources : AdditionalEntropy :=
  ⟨some (bytes "31662"), none, some [⟨.ten, .hearts⟩, ⟨.ace, .spades⟩], some [0x1E, 7]⟩

end Sample

/-- Two orders of calls with the same bytes have the same sources. -/
theorem canonical_bytes_injective_sample :
    ∃ e e', AdditionalEntropy.build [.dice (bytes "31662"), .cards (bytes "10HAS"),
        .sensor [0x1E, 7]] = .ok e ∧
      AdditionalEntropy.build [.sensor [0x1E, 7], .cards (bytes "KD"), .cards (bytes "10HAS"),
        .dice (bytes "31662")] = .ok e' ∧
      e.canonicalBytes = bytes "31662" ++ [0x1E, 0x1E] ++ bytes "10HAS" ++ [0x1E, 0x1E, 7] ∧
      e = e' := by
  have built : AdditionalEntropy.build [.dice (bytes "31662"), .cards (bytes "10HAS"),
      .sensor [0x1E, 7]] = .ok Sample.sources := by decide +kernel
  have built' : AdditionalEntropy.build [.sensor [0x1E, 7], .cards (bytes "KD"),
      .cards (bytes "10HAS"), .dice (bytes "31662")] = .ok Sample.sources := by decide +kernel
  exact ⟨_, _, built, built', by decide, canonical_bytes_injective built built' rfl⟩

end Trinity
