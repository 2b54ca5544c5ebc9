import Trinity.Chain.CbfSync

/-!
The checkpoints the wallet follows, `local_chain.rs`: whether a block is among them,
and how the checkpoints of an update are merged into them. Both chains are walked
from their tips down; an update has to say which of the old blocks it replaces.
-/
namespace Trinity

open Outcome

structure Height where
  value : UInt32
  deriving DecidableEq

theorem Height.value_injective : Function.Injective fun h : Height => h.value.toNat := by
  intro a b same
  exact congrArg Height.mk (UInt32.toNat_inj.mp same)

instance heightOrder : LinearOrder Height := orderByCode _ Height.value_injective

theorem Height.lt_iff {a b : Height} : a < b ↔ a.value < b.value :=
  UInt32.lt_iff_toNat_lt.symm

def CheckPoint.get (chain : List BlockId) (height : UInt32) : Option (BlockId × List BlockId) :=
  match chain.dropWhile fun b => decide (height < b.height) with
  | [] => none
  | b :: below => if b.height < height then none else some (b, below)

structure LocalChain where
  tip : CheckPoint

/-- What an update changes: at each height a block to add, or `none` to remove. -/
abbrev BlockChanges : Type := OrderedMap Height (Option BlockHash)

structure CannotConnectError where
  tryIncludeHeight : UInt32
  deriving DecidableEq, Repr

namespace LocalChain

def fromGenesisHash (hash : BlockHash) : LocalChain := ⟨CheckPoint.new ⟨0, hash⟩⟩

def isBlockInChain (chain : LocalChain) (block chainTip : BlockId) : Option Bool :=
  match CheckPoint.get chain.tip.entries chainTip.height with
  | none => none
  | some (cp, below) =>
    if cp.hash = chainTip.hash then
      (CheckPoint.get (cp :: below) block.height).map fun found => found.1.hash = block.hash
    else none

section Changes

def changeBlock (m : OrderedMap Height BlockHash) (change : Height × Option BlockHash) :
    OrderedMap Height BlockHash :=
  match change.2 with
  | some hash => m.insert change.1 hash
  | none => m.erase change.1

def extension (above : List BlockId) (changes : BlockChanges) : OrderedMap Height BlockHash :=
  changes.entries.foldl changeBlock
    (above.foldl (fun m b => m.insert ⟨b.height⟩ b.hash) .empty)

theorem changeBlock_keys {m : OrderedMap Height BlockHash} {change : Height × Option BlockHash}
    {k : Height} (member : k ∈ (changeBlock m change).keys) : k = change.1 ∨ k ∈ m.keys := by
  unfold changeBlock at member
  split at member
  · exact OrderedMap.mem_keys_insert.mp member
  · exact .inr (OrderedMap.mem_keys_erase member)

theorem extension_keys {above : List BlockId} {changes : BlockChanges} {k : Height}
    (member : k ∈ (extension above changes).keys) :
    k ∈ changes.keys ∨ ∃ b ∈ above, k = ⟨b.height⟩ := by
  have kept : ∀ (m : OrderedMap Height BlockHash) (blocks : List BlockId),
      k ∈ (blocks.foldl (fun m b => m.insert ⟨b.height⟩ b.hash) m).keys →
        k ∈ m.keys ∨ ∃ b ∈ blocks, k = ⟨b.height⟩ := by
    intro m blocks
    induction blocks generalizing m with
    | nil => exact .inl
    | cons b rest ih =>
      intro member
      rcases ih _ member with old | ⟨b', later, same⟩
      · rcases OrderedMap.mem_keys_insert.mp old with same | old
        · exact .inr ⟨b, List.mem_cons_self, same⟩
        · exact .inl old
      · exact .inr ⟨b', List.mem_cons_of_mem _ later, same⟩
  have changed : ∀ (m : OrderedMap Height BlockHash) (entries : List (Height × Option BlockHash)),
      k ∈ (entries.foldl changeBlock m).keys → k ∈ entries.map Prod.fst ∨ k ∈ m.keys := by
    intro m entries
    induction entries generalizing m with
    | nil => exact .inr
    | cons e rest ih =>
      intro member
      rcases ih _ member with later | old
      · exact .inl (List.mem_cons_of_mem _ later)
      · rcases changeBlock_keys old with same | old
        · exact .inl (same ▸ List.mem_cons_self)
        · exact .inr old
  rcases changed _ _ member with change | old
  · exact .inl change
  · rcases kept _ _ old with none | some
    · simp [OrderedMap.empty, OrderedMap.keys] at none
    · exact .inr some

def descendingBlocks (m : OrderedMap Height BlockHash) : List BlockId :=
  m.entries.reverse.map fun e => ⟨e.1.value, e.2⟩

theorem descendingBlocks_descending (m : OrderedMap Height BlockHash) :
    (descendingBlocks m).Pairwise fun a b => b.height < a.height := by
  unfold descendingBlocks
  rw [List.pairwise_map, List.pairwise_reverse]
  exact m.sorted.imp fun less => Height.lt_iff.mp less

theorem above_base {above base : List BlockId} {changes : BlockChanges} {start : Height}
    (first : ∀ k ∈ changes.keys, start ≤ k) (high : ∀ b ∈ above, ¬ b.height < start.value)
    (low : ∀ b ∈ base, b.height < start.value) :
    ∀ a ∈ descendingBlocks (extension above changes), ∀ b ∈ base, b.height < a.height := by
  intro a member b below
  obtain ⟨e, held, rfl⟩ := List.mem_map.mp member
  have key : e.1 ∈ (extension above changes).keys :=
    List.mem_map_of_mem (List.mem_reverse.mp held)
  have reached : start ≤ e.1 := by
    rcases extension_keys key with change | ⟨b', kept, same⟩
    · exact first _ change
    · rw [same]
      exact not_lt.mp fun less => high b' kept (Height.lt_iff.mp less)
  have before : (⟨b.height⟩ : Height) < start := Height.lt_iff.mpr (low b below)
  exact Height.lt_iff.mp (before.trans_le reached)

theorem first_key {start : Height × Option BlockHash} {rest : List (Height × Option BlockHash)}
    {changes : BlockChanges} (entries : changes.entries = start :: rest) :
    ∀ k ∈ changes.keys, start.1 ≤ k := by
  have sorted := changes.sorted
  rw [entries] at sorted
  intro k member
  obtain ⟨e, held, rfl⟩ := List.mem_map.mp member
  rw [entries] at held
  rcases List.mem_cons.mp held with rfl | later
  · exact le_refl _
  · exact le_of_lt (List.rel_of_pairwise_cons sorted later)

/-- `apply_changeset_to_checkpoint`; `none` where the genesis block is missing. The
    blocks that replace the upper part are above its base, as the source expects. -/
def applyChangesetToCheckpoint (tip : CheckPoint) (changes : BlockChanges) : Option CheckPoint :=
  match entries : changes.entries with
  | [] => some tip
  | start :: _ =>
    let above := tip.entries.filter fun b => ¬ b.height < start.1.value
    let base := tip.entries.filter fun b => b.height < start.1.value
    let blocks := descendingBlocks (extension above changes) ++ base
    have descending : blocks.Pairwise fun a b => b.height < a.height :=
      List.pairwise_append.mpr ⟨descendingBlocks_descending _, tip.descending.filter _,
        above_base (first_key entries)
          (fun _ member => by simpa using (List.mem_filter.mp member).2)
          fun _ member => by simpa using (List.mem_filter.mp member).2⟩
    if nonempty : blocks = [] then none
    else if base = [] ∧ ((extension above changes).get? ⟨0⟩).isNone then none
    else some ⟨blocks, nonempty, descending⟩

end Changes

section Merge

structure MergeState where
  changes : BlockChanges
  prevOrig : Option BlockId
  prevUpdate : Option BlockId
  pointOfAgreementFound : Bool
  prevOrigWasInvalidated : Bool
  potentiallyInvalidatedHeights : List UInt32

namespace MergeState

def start : MergeState := ⟨.empty, none, none, false, false, []⟩

def passUpdate (s : MergeState) (u : BlockId) : MergeState :=
  { s with changes := s.changes.insert ⟨u.height⟩ (some u.hash), prevUpdate := some u }

def passOrig (s : MergeState) (o : BlockId) : MergeState :=
  { s with
    potentiallyInvalidatedHeights := s.potentiallyInvalidatedHeights ++ [o.height]
    prevOrigWasInvalidated := false
    prevOrig := some o }

def passBoth (s : MergeState) (o u : BlockId) : Outcome CannotConnectError MergeState :=
  if o.hash = u.hash then
    match s.prevOrigWasInvalidated || s.pointOfAgreementFound, s.prevOrig, s.prevUpdate with
    | false, some prevOrig, some _ => fail ⟨prevOrig.height⟩
    | _, _, _ =>
      return { s with
        pointOfAgreementFound := true
        prevOrigWasInvalidated := false
        prevUpdate := some u
        prevOrig := some o }
  else
    return { s with
      changes := s.potentiallyInvalidatedHeights.foldl (fun m height => m.insert ⟨height⟩ none)
        (s.changes.insert ⟨u.height⟩ (some u.hash))
      potentiallyInvalidatedHeights := []
      prevOrigWasInvalidated := true
      prevUpdate := some u
      prevOrig := some o }

end MergeState

/-- The turns of the loop while the original chain is at one block. The loop breaks
    off where the update has no more blocks. -/
def passBlock (o : BlockId)
    (next : List BlockId → MergeState → Outcome CannotConnectError MergeState) :
    List BlockId → MergeState → Outcome CannotConnectError MergeState
  | [], s => return s.passOrig o
  | u :: update, s =>
    if o.height < u.height then passBlock o next update (s.passUpdate u)
    else if u.height < o.height then next (u :: update) (s.passOrig o)
    else do
      let s ← s.passBoth o u
      next update s

def passChains : List BlockId → List BlockId → MergeState → Outcome CannotConnectError MergeState
  | [], update, s => return update.foldl MergeState.passUpdate s
  | o :: orig, update, s => passBlock o (passChains orig) update s

/-- Shared nodes of the two lists only save work, so none are kept track of. -/
def mergeChains (original update : CheckPoint) : Outcome CannotConnectError CheckPoint := do
  let s ← passChains original.entries update.entries .start
  match s.prevOrigWasInvalidated || s.pointOfAgreementFound, s.prevOrig with
  | false, some prevOrig => fail ⟨prevOrig.height⟩
  | _, _ => okOr (applyChangesetToCheckpoint original s.changes) ⟨0⟩

def applyUpdate (chain : LocalChain) (update : CheckPoint) :
    Outcome CannotConnectError LocalChain := do
  let tip ← mergeChains chain.tip update
  return ⟨tip⟩

end Merge

end LocalChain

end Trinity
