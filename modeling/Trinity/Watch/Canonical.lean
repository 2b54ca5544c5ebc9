import Trinity.Lib.Worklist
import Trinity.Watch.TxGraph

/-!
Which transactions count, `canonical_iter.rs`: those anchored in the chain come first,
then those seen in the mempool, the latest first, then those of blocks that left the
chain. A transaction that counts brings its ancestors with it and rules out what
conflicts with them. The transactions that are left never conflict, so the map of
their spends meets no output twice unless one of them lists an input twice.
-/
namespace Trinity.Watch

open Outcome

inductive ChainPosition where
  | confirmed (anchor : ConfirmationBlockTime) (transitively : Option Txid)
  | unconfirmed (firstSeen lastSeen : Option UInt64)
  deriving DecidableEq, Repr

structure CanonicalTx where
  txid : Txid
  tx : Transaction
  chainPosition : ChainPosition
  deriving DecidableEq, Repr

structure FullTxOut where
  outpoint : OutPoint
  txout : TxOut
  chainPosition : ChainPosition
  spentBy : Option (ChainPosition × Txid)
  isOnCoinbase : Bool
  deriving DecidableEq, Repr

inductive ObservedIn where
  | block (height : UInt32)
  | mempool (lastSeen : UInt64)
  deriving DecidableEq, Repr

/-- Why a transaction counts, by itself or for a descendant. No caller assumes any. -/
inductive CanonicalReason where
  | anchor (anchor : ConfirmationBlockTime) (descendant : Option Txid)
  | observedIn (observedIn : ObservedIn) (descendant : Option Txid)
  deriving DecidableEq, Repr

def CanonicalReason.toTransitive (descendant : Txid) : CanonicalReason → CanonicalReason
  | .anchor a _ => .anchor a (some descendant)
  | .observedIn o _ => .observedIn o (some descendant)

def isCoinbase (tx : Transaction) : Bool :=
  match tx.input with
  | [txin] => txin.previousOutput.isNull
  | _ => false

abbrev CanonicalMap : Type := List (Txid × Transaction × CanonicalReason)

namespace TxGraph

/-- `TxDescendants::populate_queue`: what spends an output of the transaction. -/
def spenders (g : TxGraph) (txid : Txid) : List Txid :=
  (g.spends.entries.filter fun e => e.1.txid = txid).flatMap Prod.snd

def directConflicts (env : Primitives) (g : TxGraph) (tx : Transaction) : List Txid :=
  (tx.input.flatMap fun txin => g.outspends txin.previousOutput).filter fun txid =>
    txid ≠ env.computeTxid tx

section Descendants

structure DescentState where
  visited : List Txid
  notCanonical : List Txid
  undoNotCanonical : List Txid

def descentStep (g : TxGraph) (s : DescentState) (txid : Txid) : DescentState × List Txid :=
  if s.visited.contains txid then (s, [])
  else if s.notCanonical.contains txid then ({ s with visited := txid :: s.visited }, [])
  else
    (⟨txid :: s.visited, txid :: s.notCanonical, txid :: s.undoNotCanonical⟩, g.spenders txid)

def unvisitedSpends (g : TxGraph) (visited : List Txid) : ℕ :=
  (g.spends.entries.map fun e => if visited.contains e.1.txid then 0 else e.2.length).sum

theorem unvisitedSpends_cons (g : TxGraph) {visited : List Txid} {txid : Txid}
    (new : visited.contains txid = false) :
    g.unvisitedSpends (txid :: visited) + (g.spenders txid).length =
      g.unvisitedSpends visited := by
  unfold unvisitedSpends spenders
  induction g.spends.entries with
  | nil => rfl
  | cons e rest ih =>
    rw [List.map_cons, List.map_cons, List.sum_cons, List.sum_cons, List.filter_cons,
      List.contains_cons]
    by_cases here : e.1.txid = txid
    · rw [here, beq_self_eq_true, Bool.true_or, new, if_pos rfl, if_pos (decide_eq_true rfl),
        List.flatMap_cons, List.length_append, if_neg (by simp)]
      omega
    · simp only [beq_false_of_ne here, Bool.false_or, decide_eq_false here, Bool.false_eq_true,
        ↓reduceIte]
      omega

def descent (g : TxGraph) : Worklist DescentState Txid where
  step := descentStep g
  rank s := g.unvisitedSpends s.visited
  falls s txid := by
    unfold descentStep
    split
    · simp
    · rename_i new
      have fewer := g.unvisitedSpends_cons (by simpa using new)
      split
      · simp only [List.length_nil]
        omega
      · simp only
        omega

end Descendants

section Ancestors

/-- The marks while a transaction and its ancestors are marked, and how to undo them. -/
structure MarkState where
  visited : List Txid
  canonical : CanonicalMap
  notCanonical : List Txid
  isStartingTx : Bool
  detectedSelfDoubleSpend : Bool
  undoNotCanonical : List Txid
  stagedQueue : List Txid

def markConflict (g : TxGraph) (s : MarkState) (txid : Txid) : MarkState :=
  let marked := g.descent.run ⟨[], s.notCanonical, s.undoNotCanonical⟩ [txid]
  { s with
    notCanonical := marked.notCanonical
    undoNotCanonical := marked.undoNotCanonical }

section Mark

variable (env : Primitives) (g : TxGraph) (startingTxid : Txid) (reason : CanonicalReason)

/-- The closure of `mark_canonical`, and whether it returns the transaction. -/
def markTx (s : MarkState) (tx : Transaction) : MarkState × Bool :=
  let thisTxid := env.computeTxid tx
  let thisReason := if s.isStartingTx then reason else reason.toTransitive startingTxid
  let s := { s with isStartingTx := false }
  if (s.canonical.lookup thisTxid).isSome then (s, false)
  else
    let s := (g.directConflicts env tx).foldl (markConflict g) s
    if s.notCanonical.contains thisTxid then ({ s with detectedSelfDoubleSpend := true }, false)
    else
      ({ s with
        canonical := (thisTxid, tx, thisReason) :: s.canonical
        stagedQueue := s.stagedQueue ++ [thisTxid] }, true)

/-- `TxAncestors::populate_queue`: ids that were not visited, and their transactions. -/
def populateQueue : List TxIn → List Txid → List Txid × List Transaction
  | [], visited => (visited, [])
  | txin :: rest, visited =>
    let prevTxid := txin.previousOutput.txid
    if visited.contains prevTxid then populateQueue rest visited
    else
      let (visited, txs) := populateQueue rest (prevTxid :: visited)
      (visited, (g.getTx prevTxid).toList ++ txs)

def ancestorStep (s : MarkState) (tx : Transaction) : MarkState × List Transaction :=
  let (s, returned) := markTx env g startingTxid reason s tx
  if returned then
    let (visited, txs) := populateQueue g tx.input s.visited
    ({ s with visited }, txs)
  else (s, [])

def unvisitedTxs (visited : List Txid) : ℕ :=
  g.txs.countP fun e => !visited.contains e.1

variable {g}

theorem unvisitedTxs_cons {visited : List Txid} {txid : Txid}
    (new : visited.contains txid = false) :
    unvisitedTxs g (txid :: visited) + (g.getTx txid).toList.length ≤ unvisitedTxs g visited := by
  have fewer : ∀ txs : List (Txid × TxNode),
      txs.countP (fun e => !(txid :: visited).contains e.1) +
          (if (txs.lookup txid).isSome then 1 else 0) ≤
        txs.countP fun e => !visited.contains e.1 := by
    intro txs
    induction txs with
    | nil => simp
    | cons e rest ih =>
      obtain ⟨txid', node⟩ := e
      rw [List.countP_cons, List.countP_cons, lookup_put]
      by_cases here : txid = txid'
      · subst here
        have none : (!(txid :: visited).contains txid) = false := by simp
        simp only [none, new, Bool.not_false, Bool.false_eq_true, ↓reduceIte, Option.isSome_some,
          Nat.add_zero]
        split at ih
        · omega
        · omega
      · have other : (!(txid :: visited).contains txid') = !visited.contains txid' := by
          rw [List.contains_cons, beq_false_of_ne (Ne.symm here), Bool.false_or]
        simp only [other, if_neg here]
        omega
  have listed : (g.getTx txid).toList.length ≤ if (g.txs.lookup txid).isSome then 1 else 0 := by
    cases held : g.getTx txid with
    | none => simp
    | some tx =>
      rw [getTx_eq_some.mp held]
      simp
  have total := fewer g.txs
  unfold unvisitedTxs
  omega

theorem populateQueue_falls (inputs : List TxIn) (visited : List Txid) :
    unvisitedTxs g (populateQueue g inputs visited).1 + (populateQueue g inputs visited).2.length ≤
      unvisitedTxs g visited := by
  induction inputs generalizing visited with
  | nil => simp [populateQueue]
  | cons txin rest ih =>
    unfold populateQueue
    simp only
    split
    · exact ih visited
    · rename_i new
      have first := unvisitedTxs_cons (g := g) (by simpa using new)
      have later := ih (txin.previousOutput.txid :: visited)
      simp only [List.length_append]
      omega

theorem markConflicts_visited (conflicts : List Txid) (s : MarkState) :
    (conflicts.foldl (markConflict g) s).visited = s.visited := by
  induction conflicts generalizing s with
  | nil => rfl
  | cons c rest ih => exact ih _

theorem markTx_visited (s : MarkState) (tx : Transaction) :
    (markTx env g startingTxid reason s tx).1.visited = s.visited := by
  unfold markTx
  simp only
  split
  · rfl
  · split
    · exact markConflicts_visited _ _
    · exact markConflicts_visited _ _

variable (g)

def ancestors : Worklist MarkState Transaction where
  step := ancestorStep env g startingTxid reason
  rank s := unvisitedTxs g s.visited
  falls s tx := by
    have same := markTx_visited env (g := g) startingTxid reason s tx
    unfold ancestorStep
    simp only
    split
    · rw [← same]
      exact populateQueue_falls _ _
    · simp only [List.length_nil]
      rw [same]
      exact Nat.le_refl _

end Mark

end Ancestors

structure CanonicalIter where
  canonical : CanonicalMap
  notCanonical : List Txid
  queue : List Txid
  leftover : List (Txid × Transaction × UInt32)

section Iterate

variable (env : Primitives) (g : TxGraph)

def CanonicalIter.isCanonicalized (it : CanonicalIter) (txid : Txid) : Bool :=
  (it.canonical.lookup txid).isSome || it.notCanonical.contains txid

def markCanonical (it : CanonicalIter) (txid : Txid) (tx : Transaction)
    (reason : CanonicalReason) : CanonicalIter :=
  let s := (ancestors env g txid reason).run
    ⟨[], it.canonical, it.notCanonical, true, false, [], []⟩ [tx]
  if s.detectedSelfDoubleSpend then
    { it with
      canonical := s.canonical.filter fun e => !s.stagedQueue.contains e.1
      notCanonical := s.notCanonical.filter fun txid => !s.undoNotCanonical.contains txid }
  else
    { it with
      canonical := s.canonical
      notCanonical := s.notCanonical
      queue := it.queue ++ s.stagedQueue }

def scanAnchors (chain : LocalChain) (it : CanonicalIter) (txid : Txid) (tx : Transaction)
    (anchors : Anchors) : CanonicalIter :=
  let inChain := anchors.set.elems.find? fun anchor =>
    chain.isBlockInChain anchor.blockId chain.tip.tip = some true
  match inChain with
  | some anchor => markCanonical env g it txid tx (.anchor anchor none)
  | none => { it with leftover := it.leftover ++ [(txid, tx, anchors.last.blockId.height)] }

def nextAnchored (chain : LocalChain) (it : CanonicalIter) (txid : Txid) : CanonicalIter :=
  match g.getTx txid, g.anchors.lookup txid with
  | some tx, some anchors =>
    if it.isCanonicalized txid then it else scanAnchors env g chain it txid tx anchors
  | _, _ => it

def nextSeen (it : CanonicalIter) (seen : Ranked) : CanonicalIter :=
  match g.getTx seen.txid with
  | some tx =>
    if it.isCanonicalized seen.txid then it
    else markCanonical env g it seen.txid tx (.observedIn (.mempool seen.rank) none)
  | none => it

def nextLeftover (it : CanonicalIter) (left : Txid × Transaction × UInt32) : CanonicalIter :=
  if it.isCanonicalized left.1 || isCoinbase left.2.1 then it
  else markCanonical env g it left.1 left.2.1 (.observedIn (.block left.2.2) none)

def canonicalIter (chain : LocalChain) : CanonicalIter :=
  let it := g.txidsByDescendingAnchorHeight.foldl (nextAnchored env g chain) ⟨[], [], [], []⟩
  let it := g.txidsByDescendingLastSeen.foldl (nextSeen env g) it
  it.leftover.foldl (nextLeftover env g) it

def findDirectAnchor (chain : LocalChain) (txid : Txid) : Option ConfirmationBlockTime :=
  match g.anchors.lookup txid with
  | some anchors => anchors.set.elems.find? fun anchor =>
      chain.isBlockInChain anchor.blockId chain.tip.tip = some true
  | none => none

def chainPosition (chain : LocalChain) (txid : Txid) : CanonicalReason → ChainPosition
  | .anchor anchor none => .confirmed anchor none
  | .anchor anchor (some descendant) =>
    match g.findDirectAnchor chain txid with
    | some direct => .confirmed direct none
    | none => .confirmed anchor (some descendant)
  | .observedIn (.mempool lastSeen) _ => .unconfirmed (g.firstSeen.lookup txid) (some lastSeen)
  | .observedIn (.block _) _ => .unconfirmed (g.firstSeen.lookup txid) none

variable {ε : Type}

def listCanonicalTxs (chain : LocalChain) : Outcome ε (List CanonicalTx) :=
  let it := g.canonicalIter env chain
  it.queue.mapM fun txid => do
    let (_, reason) ← expect (it.canonical.lookup txid)
    let tx ← expect (g.getTx txid)
    return ⟨txid, tx, g.chainPosition chain txid reason⟩

end Iterate

end TxGraph

structure CanonMaps where
  txs : List (Txid × CanonicalTx)
  spends : List (OutPoint × Txid)

namespace CanonMaps

variable {ε : Type}

/-- An output that is spent already aborts. -/
def insertSpends (txid : Txid) : List TxIn → List (OutPoint × Txid) →
    Outcome ε (List (OutPoint × Txid))
  | [], spends => return spends
  | txin :: rest, spends => do
    abortUnless (spends.lookup txin.previousOutput = none)
    insertSpends txid rest ((txin.previousOutput, txid) :: spends)

def spendsWith (m : CanonMaps) (c : CanonicalTx) : Outcome ε (List (OutPoint × Txid)) :=
  if isCoinbase c.tx then return m.spends else insertSpends c.txid c.tx.input m.spends

def insertTx (m : CanonMaps) (c : CanonicalTx) : Outcome ε CanonMaps := do
  let spends ← m.spendsWith c
  return ⟨(c.txid, c) :: m.txs, spends⟩

def collect (cs : List CanonicalTx) : Outcome ε CanonMaps := cs.foldlM insertTx ⟨[], []⟩

def spentBy (m : CanonMaps) (op : OutPoint) : Outcome ε (Option (ChainPosition × Txid)) :=
  match m.spends.lookup op with
  | none => return none
  | some txid => do
    let c ← expect (m.txs.lookup txid)
    return some (c.chainPosition, txid)

def fullTxOut (m : CanonMaps) (e : KeychainIndex × OutPoint) :
    Outcome ε (Option (KeychainIndex × FullTxOut)) :=
  match m.txs.lookup e.2.txid with
  | none => return none
  | some c =>
    match c.tx.output[e.2.vout.toNat]? with
    | none => return none
    | some txout => do
      let spentBy ← m.spentBy e.2
      return some (e.1, ⟨e.2, txout, c.chainPosition, spentBy, isCoinbase c.tx⟩)

end CanonMaps

def TxGraph.filterChainUnspents {ε : Type} (env : Primitives) (g : TxGraph) (chain : LocalChain)
    (outpoints : List (KeychainIndex × OutPoint)) :
    Outcome ε (List (KeychainIndex × FullTxOut)) := do
  let cs ← g.listCanonicalTxs env chain
  let m ← CanonMaps.collect cs
  let txouts ← outpoints.mapM m.fullTxOut
  return (txouts.filterMap id).filter fun e => e.2.spentBy.isNone

end Trinity.Watch
