import Trinity.Lib.SlidingLedger
import Trinity.Signer.Limits

/-!
The sliding spend window of `window.rs`: the clock step, the ledger of booked
spends, and the decision and booking of one spend. Methods that change the
counter return it next to their result.
-/
namespace Trinity

open Outcome Word

structure BookedSpend where
  inputs : List OutPoint
  amountSat : UInt64
  elapsedAtNs : UInt64
  deriving DecidableEq, Repr

structure CoreState where
  initialized : Bool
  monotonicNsAtAnchor : UInt64
  blockHeightAtAnchor : Option UInt32
  bootIdAtAnchor : Option UInt64
  wallUnixNsAtAnchor : Option UInt64
  windowElapsedNs : UInt64
  windowStartElapsedNs : UInt64
  passphraseUsedSinceInstall : Bool
  bookings : List BookedSpend
  deriving DecidableEq, Repr

def CoreState.empty : CoreState := ⟨false, 0, none, none, none, 0, 0, false, []⟩

def maxBookings : Nat := 256
def maxInputs : Nat := 100
def secondsPerBlock : UInt64 := 600

structure SpendApproval where
  inputSet : OrderedSet OutPoint
  chargeSat : UInt64
  deriving DecidableEq

structure WindowCounter where
  kek : Str
  state : CoreState
  deriving DecidableEq, Repr

def WindowCounter.new (kek : Str) : Outcome SignError WindowCounter := do
  rejectIf (kek.length ≠ 32) .invalidKekLength
  return ⟨kek, .empty⟩

structure Observation where
  now : Nat
  bootId : Option UInt64
  tipHeight : Option UInt32
  wallUnixNs : Option UInt64
  deriving DecidableEq, Repr

def durationAsNs (d : Nat) : UInt64 := if d < UInt64.size then UInt64.ofNat d else maxWord

def sameBoot (prev : CoreState) (nowMonoNs : UInt64) (nowBoot : Option UInt64) : Bool :=
  match prev.bootIdAtAnchor, nowBoot with
  | some a, some b => a == b
  | _, _ => prev.monotonicNsAtAnchor ≤ nowMonoNs

def monoStep (prev : CoreState) (nowMonoNs : UInt64) (nowBoot : Option UInt64) : Option Nat :=
  if sameBoot prev nowMonoNs nowBoot ∧ ¬ nowMonoNs < prev.monotonicNsAtAnchor then
    some (nowMonoNs - prev.monotonicNsAtAnchor).toNat
  else none

def blockStep (prevHeight nowHeight : Option UInt32) : Option Nat :=
  match prevHeight, nowHeight with
  | some prevH, some nowH =>
    if prevH ≤ nowH then
      some ((satMul (nowH - prevH).toUInt64 secondsPerBlock).toNat * nsPerSecond)
    else some 0
  | _, _ => none

/-- Block height brakes a trusted clock; alone it gives no progress. -/
def fromSources (mono blocks : Option Nat) : Nat :=
  match mono, blocks with
  | some m, some b => min m b
  | some m, none => m
  | none, _ => 0

def applyWallVeto (sources : Nat) (mono : Option Nat) (prevWall nowWall : Option UInt64) : Nat :=
  match mono with
  | none => sources
  | some m =>
    match prevWall, nowWall with
    | some prevW, some nowW =>
      if nowW < prevW then 0
      else if durationAsNs m < nowW - prevW then 0
      else sources
    | _, _ => sources

def stepElapsed (prev : CoreState) (nowMonoNs : UInt64) (nowBoot : Option UInt64)
    (nowHeight : Option UInt32) (nowWall : Option UInt64) : Nat :=
  let mono := monoStep prev nowMonoNs nowBoot
  applyWallVeto (fromSources mono (blockStep prev.blockHeightAtAnchor nowHeight)) mono
    prev.wallUnixNsAtAnchor nowWall

def newer {α : Type} (reported stored : Option α) : Option α :=
  match reported with
  | some _ => reported
  | none => stored

def CoreState.advance (s : CoreState) (obs : Observation) : CoreState :=
  let nowMonoNs := durationAsNs obs.now
  if s.initialized then
    let step := stepElapsed s nowMonoNs obs.bootId obs.tipHeight obs.wallUnixNs
    { s with
      windowElapsedNs := satAdd s.windowElapsedNs (durationAsNs step)
      monotonicNsAtAnchor := nowMonoNs
      blockHeightAtAnchor := newer obs.tipHeight s.blockHeightAtAnchor
      bootIdAtAnchor := newer obs.bootId s.bootIdAtAnchor
      wallUnixNsAtAnchor := newer obs.wallUnixNs s.wallUnixNsAtAnchor }
  else
    { s with
      initialized := true
      monotonicNsAtAnchor := nowMonoNs
      blockHeightAtAnchor := obs.tipHeight
      bootIdAtAnchor := obs.bootId
      wallUnixNsAtAnchor := obs.wallUnixNs
      windowElapsedNs := 0
      windowStartElapsedNs := 0 }

def CoreState.prune (s : CoreState) (window : Nat) : CoreState :=
  let start := satSub s.windowElapsedNs (durationAsNs window)
  { s with
    windowStartElapsedNs := start
    bookings := s.bookings.filter fun b => start ≤ b.elapsedAtNs }

def sameInputs (stored : List OutPoint) (set : OrderedSet OutPoint) : Bool :=
  stored.length == set.elems.length && stored.all fun o => set.elems.contains o

def extraAgainstBookings (bookings : List BookedSpend) (set : OrderedSet OutPoint)
    (charge : UInt64) : UInt64 :=
  match bookings.find? fun b => sameInputs b.inputs set with
  | some existing => satSub charge existing.amountSat
  | none => charge

def CoreState.bookedSat (s : CoreState) : UInt64 := satSum (s.bookings.map BookedSpend.amountSat)

def WindowCounter.bookedSat (c : WindowCounter) : UInt64 := c.state.bookedSat
def WindowCounter.windowElapsed (c : WindowCounter) : Nat := c.state.windowElapsedNs.toNat

/-- A row `commit` finds: only a higher charge changes it, and dates it anew. -/
def BookedSpend.raiseTo (charge now : UInt64) (existing : BookedSpend) : BookedSpend :=
  if existing.amountSat < charge then { existing with amountSat := charge, elapsedAtNs := now }
  else existing

/-- The table after `commit`. `inputs.sort()` in the source meets an already
    sorted list. -/
def commitBookings (bookings : List BookedSpend) (now : UInt64) (approval : SpendApproval) :
    List BookedSpend :=
  if bookings.any fun b => sameInputs b.inputs approval.inputSet then
    SlidingLedger.updateFirst (fun b => sameInputs b.inputs approval.inputSet)
      (BookedSpend.raiseTo approval.chargeSat now) bookings
  else if bookings.length < maxBookings then
    bookings ++ [⟨approval.inputSet.elems, approval.chargeSat, now⟩]
  else bookings

def CoreState.commit (s : CoreState) (approval : SpendApproval) : CoreState :=
  { s with bookings := commitBookings s.bookings s.windowElapsedNs approval }

def WindowCounter.commit (c : WindowCounter) (approval : SpendApproval) : WindowCounter :=
  { c with state := c.state.commit approval }

def WindowCounter.setPassphraseUsedSinceInstall (c : WindowCounter) (used : Bool) :
    WindowCounter :=
  { c with state := { c.state with passphraseUsedSinceInstall := used } }

def inputSet (psbt : Psbt) : Outcome SignError (OrderedSet OutPoint) := do
  rejectIf psbt.unsignedTx.input.isEmpty .emptyPsbt
  rejectIf (maxInputs < psbt.unsignedTx.input.length) .tooManyInputs
  return .collect (psbt.unsignedTx.input.map TxIn.previousOutput)

def chargeInputs (psbt : Psbt) : Outcome SignError UInt64 :=
  psbt.inputs.zipIdx.foldlM (fun acc (input, i) => do
    let utxo ← okOr input.witnessUtxo (.missingWitnessUtxo i)
    okOr (checkedAdd acc utxo.value) .unbalancedPsbt) 0

section Scan

variable (M : Type → Type → Type) [∀ ε, Monad (M ε)] [∀ ε, MonadLiftT (Outcome ε) (M ε)]
  [Marked M] (env : Primitives)

def matchesDescriptorIn (script : Script) (desc : ParsedDescriptor) (gap : UInt32) :
    M SignError Bool := do
  let found ← (indicesBelow gap).findSomeM? fun i =>
    Marked.mapErr .verify (probeIn M env script desc i)
  return found.isSome

def belongsToWalletIn (script : Script) (receive : ParsedDescriptor)
    (change : Option ParsedDescriptor) (gap : UInt32) : M SignError Bool := do
  if ← matchesDescriptorIn M env script receive gap then return true
  match change with
  | some chg => matchesDescriptorIn M env script chg gap
  | none => return false

def chargeOutputsIn (psbt : Psbt) (receive : ParsedDescriptor) (change : Option ParsedDescriptor)
    (gap : UInt32) : M SignError (UInt64 × UInt64) :=
  psbt.unsignedTx.output.foldlM (fun acc txout => do
    let sumOut ← okOr (checkedAdd acc.1 txout.value) SignError.unbalancedPsbt
    let own ← belongsToWalletIn M env txout.scriptPubkey receive change gap
    return (sumOut, if own then acc.2 else satAdd acc.2 txout.value)) (0, 0)

def spendChargeIn (psbt : Psbt) (descriptor : Str) (verify : VerifyPolicy) :
    M SignError UInt64 := do
  let receive ← mapErr (SignError.verify ∘ .descriptor) (parse env descriptor)
  let change ← mapErr (SignError.verify ∘ .descriptor) (parseChange env verify.changeDescriptor)
  let sumIn ← chargeInputs psbt
  let (sumOut, foreign) ← chargeOutputsIn M env psbt receive change verify.gapLimit
  let fee ← okOr (checkedSub sumIn sumOut) SignError.unbalancedPsbt
  return satAdd foreign fee

def CoreState.approveIn (s : CoreState) (policy : SpendPolicy) (psbt : Psbt) (descriptor : Str)
    (verify : VerifyPolicy) (balance : Balance) : M SignError SpendApproval := do
  rejectIf (¬ s.passphraseUsedSinceInstall) SignError.spendLimitExceeded
  let allowed := allowance policy balance.spendPolicyReferenceSats
  let charge ← spendChargeIn M env psbt descriptor verify
  let set ← inputSet psbt
  let known := s.bookings.any fun b => sameInputs b.inputs set
  let extra := extraAgainstBookings s.bookings set charge
  let remaining := satSub allowed s.bookedSat
  rejectIf (remaining < extra) SignError.spendLimitExceeded
  rejectIf (¬ known ∧ maxBookings ≤ s.bookings.length) SignError.windowLedgerFull
  return ⟨set, charge⟩

end Scan

variable (env : Primitives)

abbrev matchesDescriptor (script : Script) (desc : ParsedDescriptor) (gap : UInt32) :
    Outcome SignError Bool :=
  matchesDescriptorIn Outcome env script desc gap

abbrev belongsToWallet (script : Script) (receive : ParsedDescriptor)
    (change : Option ParsedDescriptor) (gap : UInt32) : Outcome SignError Bool :=
  belongsToWalletIn Outcome env script receive change gap

abbrev chargeOutputs (psbt : Psbt) (receive : ParsedDescriptor) (change : Option ParsedDescriptor)
    (gap : UInt32) : Outcome SignError (UInt64 × UInt64) :=
  chargeOutputsIn Outcome env psbt receive change gap

abbrev spendCharge (psbt : Psbt) (descriptor : Str) (verify : VerifyPolicy) :
    Outcome SignError UInt64 :=
  spendChargeIn Outcome env psbt descriptor verify

abbrev CoreState.approve (s : CoreState) (policy : SpendPolicy) (psbt : Psbt) (descriptor : Str)
    (verify : VerifyPolicy) (balance : Balance) : Outcome SignError SpendApproval :=
  s.approveIn Outcome env policy psbt descriptor verify balance

def WindowCounter.live (c : WindowCounter) (policy : SpendPolicy) (obs : Observation) :
    WindowCounter :=
  { c with state := (c.state.advance obs).prune policy.window }

def WindowCounter.authorize (c : WindowCounter) (policy : SpendPolicy) (psbt : Psbt)
    (descriptor : Str) (verify : VerifyPolicy) (balance : Balance) (obs : Observation) :
    Outcome SignError SpendApproval × WindowCounter :=
  match policy.validate with
  | .error e => (.error e, c)
  | .ok _ =>
    let live := c.live policy obs
    (live.state.approve env policy psbt descriptor verify balance, live)

end Trinity
