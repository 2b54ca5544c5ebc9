import Mathlib.Data.List.Nodup
import Mathlib.Data.Set.Image
import Trinity.Entropy.Sources
import Trinity.Lib.BitSet

/-!
Card entry as a code. The loop of `parse_cards` reads one card after another and
keeps the deck indices of the cards in the bits of a word, so it returns exactly
the lists of different cards.
-/
namespace Trinity

open Outcome

section Deck

theorem Rank.index_injective {rank rank' : Rank} (same : rank.index = rank'.index) :
    rank = rank' := by
  cases rank <;> cases rank' <;> first | rfl | cases same

theorem Suit.index_injective {suit suit' : Suit} (same : suit.index = suit'.index) :
    suit = suit' := by
  cases suit <;> cases suit' <;> first | rfl | cases same

theorem Rank.index_lt (rank : Rank) : rank.index < 13 := by
  cases rank <;> decide

theorem Suit.index_lt (suit : Suit) : suit.index < 4 := by
  cases suit <;> decide

theorem Card.deckIndex_lt (card : Card) : card.deckIndex < 64 := by
  have rank := card.rank.index_lt
  have suit := card.suit.index_lt
  unfold Card.deckIndex
  omega

theorem Card.deckIndex_injective : Function.Injective Card.deckIndex := by
  intro card card' same
  have suit := card.suit.index_lt
  have suit' := card'.suit.index_lt
  unfold Card.deckIndex at same
  have ranks : card.rank.index = card'.rank.index := by omega
  have suits : card.suit.index = card'.suit.index := by omega
  cases card
  cases card'
  rw [Card.mk.injEq]
  exact ⟨Rank.index_injective ranks, Suit.index_injective suits⟩

end Deck

structure CardsRead (seen : BitVec 64) (cards : List Card) : Prop where
  distinct : cards.Nodup
  held : BitSet.members seen = Card.deckIndex '' {card | card ∈ cards}

namespace CardsRead

variable {seen : BitVec 64} {cards : List Card}

theorem start : CardsRead 0 [] where
  distinct := List.nodup_nil
  held := by simp [BitSet.members_zero]

theorem test_iff (reads : CardsRead seen cards) (card : Card) :
    seen &&& 1#64 <<< card.deckIndex ≠ 0 ↔ card ∈ cards := by
  refine (BitSet.test_iff card.deckIndex_lt).trans ?_
  rw [reads.held, Card.deckIndex_injective.mem_set_image]
  rfl

theorem push (reads : CardsRead seen cards) {card : Card} (fresh : card ∉ cards) :
    CardsRead (seen ||| 1#64 <<< card.deckIndex) (cards ++ [card]) where
  distinct := by
    rw [List.nodup_append_comm, List.singleton_append, List.nodup_cons]
    exact ⟨fresh, reads.distinct⟩
  held := by
    rw [BitSet.members_add seen card.deckIndex_lt, reads.held, ← Set.image_insert_eq]
    congr 1
    ext other
    simp [or_comm]

end CardsRead

section Loop

variable {i : Nat} {seen : BitVec 64} {cards : List Card}

theorem parseCardsFrom_distinct {all : List Card} {rest : Str} (reads : CardsRead seen cards)
    (parsed : parseCardsFrom i seen cards rest = .ok all) : all.Nodup := by
  fun_induction parseCardsFrom with
  | case1 =>
    obtain rfl := Except.ok.inj parsed
    exact reads.distinct
  | case2 => exact absurd parsed (fail_ne_ok _ _)
  | case3 => exact absurd parsed (fail_ne_ok _ _)
  | case4 => exact absurd parsed (fail_ne_ok _ _)
  | case5 => exact absurd parsed (fail_ne_ok _ _)
  | case6 i seen cards first tail rank n ranked byte at_ suit suited card bit fresh ih =>
    exact ih (reads.push (mt (reads.test_iff card).mpr fresh)) parsed

theorem parseCardsFrom_card (reads : CardsRead seen cards) {card : Card} (fresh : card ∉ cards)
    (rest : Str) :
    parseCardsFrom i seen cards (card.encode ++ rest) =
      parseCardsFrom (i + card.rank.asStr.length + 1) (seen ||| 1#64 <<< card.deckIndex)
        (cards ++ [card]) rest := by
  have ranked := Rank.fromStart_asStr card.rank (card.suit.asChar :: rest)
  have suited : (card.rank.asStr ++ card.suit.asChar :: rest)[card.rank.asStr.length]? =
      some card.suit.asChar := by simp
  have later : (card.rank.asStr ++ card.suit.asChar :: rest).drop
      (card.rank.asStr.length + 1) = rest := by simp
  have unseen := mt (reads.test_iff card).mp fresh
  rw [Card.encode, List.append_assoc, List.singleton_append]
  cases text : card.rank.asStr ++ card.suit.asChar :: rest with
  | nil => simp at text
  | cons first tail =>
    rw [text] at ranked suited later
    rw [parseCardsFrom, ranked]
    simp only [suited, Suit.fromByte_asChar, later]
    rw [if_neg unseen]

theorem parseCardsFrom_complete {more : List Card} (reads : CardsRead seen cards)
    (distinct : (cards ++ more).Nodup) :
    parseCardsFrom i seen cards (more.flatMap Card.encode) = .ok (cards ++ more) := by
  induction more generalizing i seen cards with
  | nil => rw [List.flatMap_nil, List.append_nil, parseCardsFrom]
  | cons card more ih =>
    have fresh : card ∉ cards := fun old => List.disjoint_of_nodup_append distinct old (by simp)
    rw [List.append_cons] at distinct ⊢
    rw [List.flatMap_cons, parseCardsFrom_card reads fresh]
    exact ih (reads.push fresh) distinct

end Loop

/-- A text of different cards: their encodings one after another, at least one. -/
structure CardText (cards : List Card) (s : Str) : Prop where
  inhabited : cards ≠ []
  distinct : cards.Nodup
  spelled : cards.flatMap Card.encode = s

theorem parseCards_eq_ok {s : Str} {cards : List Card} :
    parseCards s = .ok cards ↔ CardText cards s := by
  constructor
  · intro parsed
    obtain ⟨filled, spelled⟩ := parseCards_spells parsed
    simp only [parseCards, bind_eq_ok, rejectIf_eq_ok] at parsed
    obtain ⟨_, _, parsed⟩ := parsed
    rw [encodeCards_eq] at spelled
    exact ⟨filled, parseCardsFrom_distinct .start parsed, spelled⟩
  · intro text
    have filled : ¬ s.isEmpty = true := by
      rw [List.isEmpty_iff, ← text.spelled]
      intro empty
      exact text.inhabited (Card.encode_prefixFree.flatMap_injective empty)
    rw [parseCards, rejectIf_of_not _ filled, bind_ok, ← text.spelled]
    exact parseCardsFrom_complete .start text.distinct

theorem CardText.unique {s : Str} {cards cards' : List Card} (text : CardText cards s)
    (text' : CardText cards' s) : cards' = cards := by
  apply Card.encode_prefixFree.flatMap_injective
  rw [text'.spelled, text.spelled]

/-- `parse_cards` accepts the texts of different cards, each of which spells one
    list only; it returns that list, and `encode_cards` writes the text again. -/
theorem card_entry_exact (s : Str) :
    ((∃ cards, parseCards s = .ok cards) ↔ ∃ cards, CardText cards s) ∧
    ∀ cards, CardText cards s →
      parseCards s = .ok cards ∧ (∀ other, CardText other s → other = cards) ∧
      encodeCards cards = s := by
  constructor
  · exact exists_congr fun cards => parseCards_eq_ok
  · intro cards text
    refine ⟨parseCards_eq_ok.mpr text, fun other => text.unique, ?_⟩
    rw [encodeCards_eq, text.spelled]

theorem card_entry_exact_sample :
    CardText [⟨.ten, .hearts⟩, ⟨.ace, .spades⟩] (bytes "10HAS") ∧
    parseCards (bytes "10HAS") = .ok [⟨.ten, .hearts⟩, ⟨.ace, .spades⟩] := by
  have text : CardText [⟨.ten, .hearts⟩, ⟨.ace, .spades⟩] (bytes "10HAS") :=
    ⟨by decide, by decide, by decide⟩
  exact ⟨text, ((card_entry_exact _).2 _ text).1⟩

end Trinity
