import Trinity.Bitcoin.Text
import Trinity.Lib.Framing
import Trinity.Lib.Outcome

/-!
The additional entropy sources of `sources.rs`: dice, coins, cards and a sensor
blob, their checks, and the bytes they are fed into the combiner as.
-/
namespace Trinity

open Outcome

def slotSeparator : UInt8 := 0x1E

inductive CardError where
  | unexpectedByte (index : Nat) (byte : UInt8)
  | incomplete
  | duplicate (card : Str)
  deriving DecidableEq, Repr

inductive EntropyError where
  | emptyDice
  | invalidDice (index : Nat) (byte : UInt8)
  | emptyCoins
  | invalidCoin (index : Nat) (byte : UInt8)
  | emptyCards
  | invalidCard (error : CardError)
  deriving DecidableEq, Repr

inductive Rank where
  | ace
  | two
  | three
  | four
  | five
  | six
  | seven
  | eight
  | nine
  | ten
  | jack
  | queen
  | king
  deriving DecidableEq, Repr

/-- The rank at the start of the bytes and how many bytes it takes. -/
def Rank.fromStart : Str → Option (Rank × Nat)
  | 49 :: 48 :: _ => some (.ten, 2)
  | 65 :: _ => some (.ace, 1)
  | 50 :: _ => some (.two, 1)
  | 51 :: _ => some (.three, 1)
  | 52 :: _ => some (.four, 1)
  | 53 :: _ => some (.five, 1)
  | 54 :: _ => some (.six, 1)
  | 55 :: _ => some (.seven, 1)
  | 56 :: _ => some (.eight, 1)
  | 57 :: _ => some (.nine, 1)
  | 74 :: _ => some (.jack, 1)
  | 81 :: _ => some (.queen, 1)
  | 75 :: _ => some (.king, 1)
  | _ => none

def Rank.asStr : Rank → Str
  | .ace => [65]
  | .two => [50]
  | .three => [51]
  | .four => [52]
  | .five => [53]
  | .six => [54]
  | .seven => [55]
  | .eight => [56]
  | .nine => [57]
  | .ten => [49, 48]
  | .jack => [74]
  | .queen => [81]
  | .king => [75]

def Rank.index : Rank → Nat
  | .ace => 0
  | .two => 1
  | .three => 2
  | .four => 3
  | .five => 4
  | .six => 5
  | .seven => 6
  | .eight => 7
  | .nine => 8
  | .ten => 9
  | .jack => 10
  | .queen => 11
  | .king => 12

inductive Suit where
  | spades
  | hearts
  | diamonds
  | clubs
  deriving DecidableEq, Repr

def Suit.fromByte (b : UInt8) : Option Suit :=
  if b = 83 then some .spades
  else if b = 72 then some .hearts
  else if b = 68 then some .diamonds
  else if b = 67 then some .clubs
  else none

def Suit.asChar : Suit → UInt8
  | .spades => 83
  | .hearts => 72
  | .diamonds => 68
  | .clubs => 67

def Suit.index : Suit → Nat
  | .spades => 0
  | .hearts => 1
  | .diamonds => 2
  | .clubs => 3

structure Card where
  rank : Rank
  suit : Suit
  deriving DecidableEq, Repr

def Card.encode (card : Card) : Str := card.rank.asStr ++ [card.suit.asChar]

def Card.deckIndex (card : Card) : Nat := card.rank.index * 4 + card.suit.index

structure AdditionalEntropy where
  dice : Option Str
  coins : Option Str
  cards : Option (List Card)
  sensor : Option Str
  deriving DecidableEq, Repr

def AdditionalEntropy.new : AdditionalEntropy := ⟨none, none, none, none⟩

def parseSymbols (known : UInt8 → Bool) (empty : EntropyError)
    (invalid : Nat → UInt8 → EntropyError) (ascii : Str) : Outcome EntropyError Str := do
  rejectIf ascii.isEmpty empty
  forM ascii.zipIdx fun (byte, index) => rejectIf (¬ known byte) (invalid index byte)
  return ascii

def parseDice : Str → Outcome EntropyError Str :=
  parseSymbols (fun byte => 49 ≤ byte && byte ≤ 54) .emptyDice .invalidDice

def parseCoins : Str → Outcome EntropyError Str :=
  parseSymbols (fun byte => byte == 48 || byte == 49) .emptyCoins .invalidCoin

def parseCardsFrom (i : Nat) (seen : BitVec 64) (cards : List Card) (rest : Str) :
    Outcome EntropyError (List Card) :=
  match rest with
  | [] => .ok cards
  | first :: tail =>
    match Rank.fromStart (first :: tail) with
    | none => fail (.invalidCard (.unexpectedByte i first))
    | some (rank, n) =>
      match (first :: tail)[n]? with
      | none => fail (.invalidCard .incomplete)
      | some byte =>
        match Suit.fromByte byte with
        | none => fail (.invalidCard (.unexpectedByte (i + n) byte))
        | some suit =>
          let card : Card := ⟨rank, suit⟩
          let bit := 1#64 <<< card.deckIndex
          if seen &&& bit ≠ 0 then fail (.invalidCard (.duplicate card.encode))
          else
            parseCardsFrom (i + n + 1) (seen ||| bit) (cards ++ [card])
              ((first :: tail).drop (n + 1))
termination_by rest.length
decreasing_by
  simp only [List.length_drop, List.length_cons]
  omega

def parseCards (ascii : Str) : Outcome EntropyError (List Card) := do
  rejectIf ascii.isEmpty .emptyCards
  parseCardsFrom 0 0 [] ascii

def encodeCards (cards : List Card) : Str :=
  cards.foldl (fun s card => s ++ card.rank.asStr ++ [card.suit.asChar]) []

namespace AdditionalEntropy

def withDice (e : AdditionalEntropy) (ascii : Str) : Outcome EntropyError AdditionalEntropy := do
  return { e with dice := some (← parseDice ascii) }

def withCoins (e : AdditionalEntropy) (ascii : Str) : Outcome EntropyError AdditionalEntropy := do
  return { e with coins := some (← parseCoins ascii) }

def withCards (e : AdditionalEntropy) (ascii : Str) : Outcome EntropyError AdditionalEntropy := do
  return { e with cards := some (← parseCards ascii) }

/-- An empty blob makes the sensor inactive. -/
def withSensor (e : AdditionalEntropy) (blob : Str) : AdditionalEntropy :=
  if blob.isEmpty then { e with sensor := none } else { e with sensor := some blob }

def cardsAscii (e : AdditionalEntropy) : Option Str := e.cards.map encodeCards

end AdditionalEntropy

def lastFilled : List Str → Option Nat
  | [] => none
  | slot :: rest =>
    match lastFilled rest with
    | some i => some (i + 1)
    | none => if slot.isEmpty then none else some 0

def encodeSlots (slots : List Str) : Str :=
  match lastFilled slots with
  | none => []
  | some last =>
    (slots.zipIdx.take (last + 1)).foldl
      (fun out slot => (if slot.2 > 0 then out ++ [slotSeparator] else out) ++ slot.1) []

def AdditionalEntropy.canonicalBytes (e : AdditionalEntropy) : Str :=
  encodeSlots [e.dice.getD [], e.coins.getD [], e.cardsAscii.getD [], e.sensor.getD []]

theorem parseSymbols_eq_ok {known : UInt8 → Bool} {empty : EntropyError}
    {invalid : Nat → UInt8 → EntropyError} {ascii s : Str} :
    parseSymbols known empty invalid ascii = .ok s ↔
      ascii ≠ [] ∧ (∀ b ∈ ascii, known b) ∧ s = ascii := by
  simp only [parseSymbols, bind_eq_ok, rejectIf_eq_ok, forM_zipIdx_eq_ok, pure_ok,
    Except.ok.injEq, exists_const, Decidable.not_not, List.isEmpty_iff, @eq_comm _ ascii s]
  constructor
  · rintro ⟨filled, each, same⟩
    refine ⟨filled, ?_, same⟩
    intro b member
    obtain ⟨i, at_⟩ := List.mem_iff_getElem?.mp member
    exact each i b at_
  · rintro ⟨filled, each, same⟩
    refine ⟨filled, ?_, same⟩
    intro i b at_
    exact each b (List.mem_of_getElem? at_)

section Cards

theorem Rank.fromStart_asStr (rank : Rank) (rest : Str) :
    Rank.fromStart (rank.asStr ++ rest) = some (rank, rank.asStr.length) := by
  cases rank <;> rfl

theorem Rank.asStr_fromStart {s : Str} {rank : Rank} {n : Nat}
    (found : Rank.fromStart s = some (rank, n)) : rank.asStr = s.take n := by
  unfold Rank.fromStart at found
  split at found <;> cases found <;> simp [asStr]

theorem Suit.fromByte_asChar (suit : Suit) : Suit.fromByte suit.asChar = some suit := by
  cases suit <;> rfl

theorem Suit.asChar_fromByte {b : UInt8} {suit : Suit} (found : Suit.fromByte b = some suit) :
    suit.asChar = b := by
  unfold Suit.fromByte at found
  split_ifs at found with spades hearts diamonds clubs
  · rw [← Option.some.inj found, spades]
    rfl
  · rw [← Option.some.inj found, hearts]
    rfl
  · rw [← Option.some.inj found, diamonds]
    rfl
  · rw [← Option.some.inj found, clubs]
    rfl

theorem Card.encode_prefixFree : Framing.PrefixFree Card.encode where
  inhabited card := by simp [Card.encode]
  apart := by
    rintro ⟨rank, suit⟩ ⟨rank', suit'⟩ ⟨rest, same⟩
    simp only [Card.encode, List.append_assoc] at same
    have ranks := congrArg Rank.fromStart same
    rw [Rank.fromStart_asStr, Rank.fromStart_asStr, Option.some.injEq, Prod.mk.injEq] at ranks
    obtain ⟨rfl, _⟩ := ranks
    have suits := (List.cons.inj (List.append_cancel_left same)).1
    have found := Suit.fromByte_asChar suit
    rw [suits, Suit.fromByte_asChar, Option.some.injEq] at found
    rw [found]

theorem encodeCards_eq (cards : List Card) : encodeCards cards = cards.flatMap Card.encode := by
  have from_ (start : Str) : cards.foldl (fun s card => s ++ card.rank.asStr ++ [card.suit.asChar])
      start = start ++ cards.flatMap Card.encode := by
    induction cards generalizing start with
    | nil => simp
    | cons card rest ih =>
      rw [List.foldl_cons, ih, List.flatMap_cons, Card.encode]
      simp
  exact from_ []

theorem parseCardsFrom_spells {i : Nat} {seen : BitVec 64} {cards all : List Card} {rest : Str}
    (parsed : parseCardsFrom i seen cards rest = .ok all) :
    ∃ more, all = cards ++ more ∧ encodeCards more = rest := by
  fun_induction parseCardsFrom with
  | case1 =>
    obtain rfl := Except.ok.inj parsed
    exact ⟨[], by simp, rfl⟩
  | case2 => exact absurd parsed (fail_ne_ok _ _)
  | case3 => exact absurd parsed (fail_ne_ok _ _)
  | case4 => exact absurd parsed (fail_ne_ok _ _)
  | case5 => exact absurd parsed (fail_ne_ok _ _)
  | case6 i seen cards first tail rank n ranked byte at_ suit suited card bit fresh ih =>
    obtain ⟨more, rfl, spelled⟩ := ih parsed
    refine ⟨card :: more, by simp, ?_⟩
    obtain ⟨inside, here⟩ := List.getElem?_eq_some_iff.mp at_
    rw [encodeCards_eq] at spelled
    rw [encodeCards_eq, List.flatMap_cons, spelled, Card.encode, Rank.asStr_fromStart ranked,
      Suit.asChar_fromByte suited, ← here, List.append_assoc, List.singleton_append,
      List.getElem_cons_drop, List.take_append_drop]

theorem parseCards_spells {ascii : Str} {cards : List Card}
    (parsed : parseCards ascii = .ok cards) : cards ≠ [] ∧ encodeCards cards = ascii := by
  simp only [parseCards, bind_eq_ok, rejectIf_eq_ok] at parsed
  obtain ⟨_, filled, parsed⟩ := parsed
  obtain ⟨more, rfl, spelled⟩ := parseCardsFrom_spells parsed
  refine ⟨?_, spelled⟩
  intro none_
  rw [none_] at spelled
  rw [← spelled] at filled
  exact filled rfl

end Cards

end Trinity
