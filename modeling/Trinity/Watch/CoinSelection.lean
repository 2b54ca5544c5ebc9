import Trinity.Chain.TxGraph
import Trinity.Lib.Shuffle
import Trinity.Lib.Word

/-!
Coin selection of the wallet library: a branch-and-bound search for coins that
leave no change, and a random draw where it finds none. Amounts are words whose
sums abort on overflow; the search runs over signed amounts, exact integers
checked against 63 bits. Weights are words too: the weight of one input or output
is checked, the running total and a fee wrap, as the release build has it.
-/
namespace Trinity.Watch

open Outcome Word Shuffle

variable {ε : Type}

def plus (a b : UInt64) : Outcome ε UInt64 := expect (checkedAdd a b)

def minus (a b : UInt64) : Outcome ε UInt64 := expect (checkedSub a b)

def FitsSigned (x : ℤ) : Prop := -2 ^ 63 ≤ x ∧ x < 2 ^ 63

instance (x : ℤ) : Decidable (FitsSigned x) := inferInstanceAs (Decidable (_ ∧ _))

def signed (x : ℤ) : Outcome ε ℤ := do
  abortUnless (FitsSigned x)
  return x

def toSigned (a : UInt64) : Outcome ε ℤ := signed a.toNat

def toUnsigned (x : ℤ) : Option UInt64 := if x < 0 then none else some (UInt64.ofNat x.toNat)

/-- `Sum` of amounts, which wraps. -/
def sumAmounts (xs : List UInt64) : UInt64 := xs.foldl (· + ·) 0

/-- Weight times fee rate, in satoshis per thousand weight units, rounded up. -/
def mulFeeRate (weight feeRate : UInt64) : UInt64 := (feeRate * weight + 999) / 1000

/-- `Weight::from_vb`, where the code expects it to fit. -/
def fromVb (vb : UInt64) : Outcome ε UInt64 := do
  abortUnless (4 * vb.toNat < UInt64.size)
  return 4 * vb

def isOpReturn (s : Script) : Bool := s[0]? == some 0x6a

def serializedLen (s : Script) : Nat := varIntSize s.length + s.length

def minimalNonDust (s : Script) : UInt64 :=
  UInt64.ofNat (3000 * (if isOpReturn s then 0
    else if s.witnessVersion.isSome then 67 + 8 + serializedLen s
    else 148 + 8 + serializedLen s) / 1000)

def isDust (value : UInt64) (s : Script) : Bool := value < minimalNonDust s

structure LocalOutput where
  outpoint : OutPoint
  txout : TxOut
  keychain : KeychainKind
  derivationIndex : UInt32
  deriving DecidableEq, Repr

structure WeightedUtxo where
  satisfactionWeight : UInt64
  utxo : LocalOutput
  deriving DecidableEq, Repr

structure InsufficientFunds where
  needed : UInt64
  available : UInt64
  deriving DecidableEq, Repr

inductive Excess where
  | noChange (dustThreshold remainingAmount changeFee : UInt64)
  | change (amount fee : UInt64)
  deriving DecidableEq, Repr

structure CoinSelectionResult where
  selected : List LocalOutput
  feeAmount : UInt64
  excess : Excess
  deriving DecidableEq, Repr

def segwitWeight : UInt64 := 165

def WeightedUtxo.inputWeight (u : WeightedUtxo) : Outcome ε UInt64 :=
  plus segwitWeight u.satisfactionWeight

def WeightedUtxo.value (u : WeightedUtxo) : UInt64 := u.utxo.txout.value

def excessAfter (changeFee remainingAmount : UInt64) (drainScript : Script) : Excess :=
  let drainVal := (checkedSub remainingAmount changeFee).getD 0
  if isDust drainVal drainScript then
    .noChange (minimalNonDust drainScript) remainingAmount changeFee
  else .change drainVal changeFee

def decideChange (remainingAmount feeRate : UInt64) (drainScript : Script) :
    Outcome ε Excess := do
  let weight ← fromVb (UInt64.ofNat (serializedLen drainScript + 8))
  return excessAfter (mulFeeRate weight feeRate) remainingAmount drainScript

section SortedDraw

variable (feeRate targetAmount : UInt64)

/-- The sum on the right is not computed for a coin that must be used. -/
def stillShort (mustUse : Bool) (selectedAmount totalWeight : UInt64) : Outcome ε Bool :=
  if mustUse then return true
  else do
    let needed ← plus targetAmount (mulFeeRate totalWeight feeRate)
    return decide (selectedAmount < needed)

def scanUtxos : List (Bool × WeightedUtxo) → UInt64 → UInt64 →
    Outcome ε (List WeightedUtxo × UInt64 × UInt64)
  | [], selectedAmount, totalWeight => return ([], selectedAmount, totalWeight)
  | (mustUse, u) :: rest, selectedAmount, totalWeight => do
    if ← stillShort feeRate targetAmount mustUse selectedAmount totalWeight then
      let weight ← u.inputWeight
      let amount ← plus selectedAmount u.value
      let (taken, total) ← scanUtxos rest amount (totalWeight + weight)
      return (u :: taken, total)
    else return ([], selectedAmount, totalWeight)

def selectSortedUtxos (utxos : List (Bool × WeightedUtxo)) (drainScript : Script) :
    Outcome InsufficientFunds CoinSelectionResult := do
  let (taken, selectedAmount, totalWeight) ← scanUtxos feeRate targetAmount utxos 0 0
  let feeAmount := mulFeeRate totalWeight feeRate
  let needed ← plus targetAmount feeAmount
  rejectIf (selectedAmount < needed) ⟨needed, selectedAmount⟩
  let remaining ← minus selectedAmount needed
  let excess ← decideChange remaining feeRate drainScript
  return ⟨taken.map (·.utxo), feeAmount, excess⟩

end SortedDraw

def shuffleSlice {α : Type} (list : List α) (rng : Draws) : List α × Draws :=
  (knuth rng (list.length - 1) list, rng.skip (list.length - 1))

def singleRandomDraw (required optional : List WeightedUtxo) (feeRate targetAmount : UInt64)
    (drainScript : Script) (rng : Draws) :
    Outcome InsufficientFunds (CoinSelectionResult × Draws) := do
  let (optional, rng) := shuffleSlice optional rng
  let result ← selectSortedUtxos feeRate targetAmount
    (required.map (true, ·) ++ optional.map (false, ·)) drainScript
  return (result, rng)

structure OutputGroup where
  weightedUtxo : WeightedUtxo
  fee : UInt64
  effectiveValue : ℤ
  deriving DecidableEq, Repr

def OutputGroup.new (feeRate : UInt64) (u : WeightedUtxo) : Outcome ε OutputGroup := do
  let weight ← u.inputWeight
  let fee := mulFeeRate weight feeRate
  let value ← toSigned u.value
  let cost ← toSigned fee
  let effective ← signed (value - cost)
  return ⟨u, fee, effective⟩

def calculateCsResult (selected required : List OutputGroup) (excess : Excess) :
    CoinSelectionResult :=
  let all := required ++ selected
  ⟨all.map (·.weightedUtxo.utxo), sumAmounts (all.map (·.fee)), excess⟩

inductive BnbError where
  | noExactMatch
  | totalTriesExceeded
  deriving DecidableEq, Repr

/-- The variables of the search loop; `currentSelection` has its last element first. -/
structure BnbState where
  currentSelection : List Bool
  currValue : ℤ
  currAvailableValue : ℤ
  bestSelection : List Bool
  bestSelectionValue : Option ℤ
  deriving DecidableEq, Repr

inductive BnbTurn where
  | next (s : BnbState)
  | stop (s : BnbState)
  deriving DecidableEq, Repr

section Bnb

variable (values : List ℤ) (targetAmount costOfChange : ℤ)

/-- The second sum is computed only where the first comparison fails. -/
def outOfRange (s : BnbState) : Outcome BnbError Bool := do
  let reach ← signed (s.currValue + s.currAvailableValue)
  if reach < targetAmount then return true
  else do
    let limit ← signed (targetAmount + costOfChange)
    return decide (s.currValue > limit)

def BnbState.record (s : BnbState) : BnbState :=
  if s.bestSelectionValue.all fun best => decide (s.currValue < best) then
    { s with bestSelection := s.currentSelection.reverse, bestSelectionValue := some s.currValue }
  else s

def popExcluded : List Bool → ℤ → Outcome BnbError (List Bool × ℤ)
  | false :: selection, available => do
    let value ← expect values[selection.length]?
    let available ← signed (available + value)
    popExcluded selection available
  | selection, available => return (selection, available)

def backtrack (s : BnbState) : Outcome BnbError BnbTurn := do
  let (selection, available) ← popExcluded values s.currentSelection s.currAvailableValue
  match selection with
  | [] => do
    rejectIf (s.bestSelection = []) .noExactMatch
    return .stop { s with currentSelection := [], currAvailableValue := available }
  | _ :: rest => do
    let value ← expect values[rest.length]?
    let curr ← signed (s.currValue - value)
    return .next { s with
      currentSelection := false :: rest, currValue := curr, currAvailableValue := available }

def forward (s : BnbState) : Outcome BnbError BnbTurn := do
  let value ← expect values[s.currentSelection.length]?
  let available ← signed (s.currAvailableValue - value)
  let curr ← signed (s.currValue + value)
  return .next { s with
    currentSelection := true :: s.currentSelection
    currValue := curr, currAvailableValue := available }

def bnbTurn (s : BnbState) : Outcome BnbError BnbTurn := do
  if ← outOfRange targetAmount costOfChange s then backtrack values s
  else if targetAmount ≤ s.currValue then
    if s.currValue = targetAmount then return .stop s.record
    else backtrack values s.record
  else forward values s

def bnbLoop : Nat → BnbState → Outcome BnbError BnbState
  | 0, s => return s
  | tries + 1, s => do
    match ← bnbTurn values targetAmount costOfChange s with
    | .next s => bnbLoop tries s
    | .stop s => return s

end Bnb

def bnbTotalTries : Nat := 100000

/-- The order an unstable sort leaves the groups in: descending, ties in any order. -/
structure ValueOrder where
  sort : List OutputGroup → List OutputGroup
  perm : ∀ groups, (sort groups).Perm groups
  descending : ∀ groups, (sort groups).Pairwise fun a b => b.effectiveValue ≤ a.effectiveValue

def included (groups : List OutputGroup) (selection : List Bool) : List OutputGroup :=
  (groups.zip selection).filterMap fun (group, isInBest) => if isInBest then some group else none

def bnbResult (required optional : List OutputGroup) (targetAmount : ℤ) (drainScript : Script)
    (feeRate : UInt64) (s : BnbState) : Outcome BnbError CoinSelectionResult := do
  rejectIf (s.bestSelection = []) .totalTriesExceeded
  let selectedAmount ← expect s.bestSelectionValue
  let remaining ← signed (selectedAmount - targetAmount)
  let remaining ← expect (toUnsigned remaining)
  let excess ← decideChange remaining feeRate drainScript
  return calculateCsResult (included optional s.bestSelection) required excess

def bnb (order : ValueOrder) (required optional : List OutputGroup)
    (currValue currAvailableValue targetAmount costOfChange : ℤ) (drainScript : Script)
    (feeRate : UInt64) : Outcome BnbError CoinSelectionResult := do
  let optional := order.sort optional
  let s ← bnbLoop (optional.map (·.effectiveValue)) targetAmount costOfChange bnbTotalTries
    ⟨[], currValue, currAvailableValue, [], none⟩
  bnbResult required optional targetAmount drainScript feeRate s

def sizeOfChange : UInt64 := 8 + 1 + 22

def sumSigned (xs : List ℤ) : Outcome ε ℤ := xs.foldlM (fun acc x => signed (acc + x)) 0

def sumChecked (xs : List UInt64) : Outcome ε UInt64 := xs.foldlM plus 0

def insufficient (groups : List OutputGroup) (targetAmount : UInt64) :
    Outcome InsufficientFunds (CoinSelectionResult × Draws) := do
  let utxoFees ← sumChecked (groups.map (·.fee))
  let utxoValue ← sumChecked (groups.map (·.weightedUtxo.value))
  let needed ← plus targetAmount utxoFees
  fail ⟨needed, utxoValue⟩

def orFallback (searched : Outcome BnbError CoinSelectionResult) (rng : Draws)
    (fallback : Outcome InsufficientFunds (CoinSelectionResult × Draws)) :
    Outcome InsufficientFunds (CoinSelectionResult × Draws) :=
  match searched with
  | .ok result => return (result, rng)
  | .error (.error _) => fallback
  | .error .panic => .error .panic

def coinSelect (order : ValueOrder) (required optional : List WeightedUtxo)
    (feeRate targetAmount : UInt64) (drainScript : Script) (rng : Draws) :
    Outcome InsufficientFunds (CoinSelectionResult × Draws) := do
  let requiredOgs ← required.mapM (OutputGroup.new feeRate)
  let allOgs ← optional.mapM (OutputGroup.new feeRate)
  let optionalOgs := allOgs.filter fun g => 0 < g.effectiveValue
  let currValue ← sumSigned (requiredOgs.map (·.effectiveValue))
  let currAvailableValue ← sumSigned (optionalOgs.map (·.effectiveValue))
  let changeWeight ← fromVb sizeOfChange
  let costOfChange ← toSigned (mulFeeRate changeWeight feeRate)
  let totalValue ← signed (currAvailableValue + currValue)
  if (toUnsigned totalValue).any (targetAmount ≤ ·) then do
    let signedTarget ← toSigned targetAmount
    if currValue > signedTarget then do
      let remaining ← signed (currValue - signedTarget)
      let remaining ← expect (toUnsigned remaining)
      let excess ← decideChange remaining feeRate drainScript
      return (calculateCsResult [] requiredOgs excess, rng)
    else
      orFallback (bnb order requiredOgs optionalOgs currValue currAvailableValue signedTarget
        costOfChange drainScript feeRate) rng
        (singleRandomDraw required optional feeRate targetAmount drainScript rng)
  else insufficient (requiredOgs ++ optionalOgs) targetAmount

end Trinity.Watch
