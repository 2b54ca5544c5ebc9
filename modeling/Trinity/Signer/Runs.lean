import Mathlib.Logic.Relation
import Trinity.Verify.CheckFacts
import Trinity.Signer.Ledger

/-!
Runs of the spend window. Any operation on a counter is a sequence of moves:
time passes, a spend is booked, or the passphrase flag is set. What one move
does to the ledger carries over to every run.
-/
namespace Trinity

open Outcome Word SlidingLedger

structure SpendRequest where
  psbt : Psbt
  descriptor : Str
  verify : VerifyPolicy
  balance : Balance
  observation : Observation

structure SignCall where
  signerA : Signer
  signerB : Signer
  request : SpendRequest

section Moves

variable (env : Primitives)

def SpendRequest.authorize (r : SpendRequest) (policy : SpendPolicy) (c : WindowCounter) :
    Outcome SignError SpendApproval × WindowCounter :=
  c.authorize env policy r.psbt r.descriptor r.verify r.balance r.observation

def SignCall.run (call : SignCall) (policy : SpendPolicy) (c : WindowCounter) : SignAbRun :=
  signAb env call.signerA call.signerB call.request.psbt call.request.descriptor
    call.request.verify ⟨policy, call.request.balance, call.request.observation⟩ c

inductive WindowOp where
  | authorize (policy : SpendPolicy) (request : SpendRequest)
  | commit (approval : SpendApproval)
  | setPassphraseUsed (used : Bool)
  | signAb (policy : SpendPolicy) (call : SignCall)

def WindowOp.apply (c : WindowCounter) : WindowOp → WindowCounter
  | .authorize policy request => (request.authorize env policy c).2
  | .commit approval => c.commit approval
  | .setPassphraseUsed used => c.setPassphraseUsedSinceInstall used
  | .signAb policy call => (call.run env policy c).counter

def runOps (c : WindowCounter) (ops : List WindowOp) : WindowCounter :=
  ops.foldl (WindowOp.apply env) c

def WindowOp.Within (allowed : SpendPolicy → Prop) : WindowOp → Prop
  | .authorize policy _ => allowed policy
  | .commit _ => True
  | .setPassphraseUsed _ => True
  | .signAb policy _ => allowed policy

inductive Reachable : WindowCounter → Prop where
  | new {kek : Str} {c : WindowCounter} (fresh : WindowCounter.new kek = .ok c) : Reachable c
  | op {c : WindowCounter} (before : Reachable c) (op : WindowOp) : Reachable (op.apply env c)

variable {env} in
theorem Reachable.signAb {c : WindowCounter} (before : Reachable env c) (policy : SpendPolicy)
    (call : SignCall) : Reachable env (call.run env policy c).counter :=
  .op before (.signAb policy call)

/-- The moves operations are made of; time passes under a valid policy only. -/
inductive Move (allowed : SpendPolicy → Prop) : WindowCounter → WindowCounter → Prop where
  | live {c : WindowCounter} {policy : SpendPolicy} (permitted : allowed policy)
      (valid : policy.validate = .ok policy) (obs : Observation) :
      Move allowed c (c.live policy obs)
  | book {c : WindowCounter} (a : SpendApproval) : Move allowed c (c.commit a)
  | passphrase {c : WindowCounter} (used : Bool) :
      Move allowed c (c.setPassphraseUsedSinceInstall used)

abbrev Moves (allowed : SpendPolicy → Prop) : WindowCounter → WindowCounter → Prop :=
  Relation.ReflTransGen (Move allowed)

variable {env}

theorem authorize_moves {allowed : SpendPolicy → Prop} {policy : SpendPolicy}
    (permitted : allowed policy) (request : SpendRequest) (c : WindowCounter) :
    Moves allowed c (request.authorize env policy c).2 := by
  unfold SpendRequest.authorize WindowCounter.authorize
  split
  · exact .refl
  · rename_i q valid
    obtain ⟨same, _⟩ := validate_eq_ok valid
    subst same
    exact .single (.live permitted valid _)

theorem signAb_moves {allowed : SpendPolicy → Prop} {policy : SpendPolicy}
    (permitted : allowed policy) (call : SignCall) (c : WindowCounter) :
    Moves allowed c (call.run env policy c).counter := by
  cases result : (call.run env policy c).result with
  | error e =>
    rw [SignCall.run, signAb_error result]
    exact authorize_moves permitted call.request c
  | ok signed =>
    obtain ⟨approval, _, _, valid, _, _, _, _, _, booked⟩ := signAb_eq_ok result
    rw [SignCall.run, booked]
    exact (Relation.ReflTransGen.single (.live permitted valid _)).tail (.book approval)

theorem apply_moves {allowed : SpendPolicy → Prop} (c : WindowCounter) (op : WindowOp)
    (within : op.Within allowed) : Moves allowed c (op.apply env c) := by
  cases op with
  | authorize p request => exact authorize_moves within request c
  | commit a => exact .single (.book a)
  | setPassphraseUsed used => exact .single (.passphrase used)
  | signAb p call => exact signAb_moves within call c

theorem runOps_moves {allowed : SpendPolicy → Prop} {c : WindowCounter} {ops : List WindowOp}
    (within : ∀ op ∈ ops, op.Within allowed) : Moves allowed c (runOps env c ops) := by
  induction ops generalizing c with
  | nil => exact .refl
  | cons op rest ih =>
    obtain ⟨head, tail⟩ := List.forall_mem_cons.mp within
    exact (apply_moves c op head).trans (ih tail)

theorem runOps_append (c : WindowCounter) (first second : List WindowOp) :
    runOps env c (first ++ second) = runOps env (runOps env c first) second :=
  List.foldl_append

theorem runOps_authorize {policy : SpendPolicy} (valid : policy.validate = .ok policy)
    (request : SpendRequest) (c : WindowCounter) :
    runOps env c [.authorize policy request] = c.live policy request.observation := by
  simp only [runOps, List.foldl, WindowOp.apply, SpendRequest.authorize, authorize_of_valid valid]

theorem refines_passphrase {c : WindowCounter} {L : Ledger (Finset OutPoint)}
    (ref : Refines c.state L) (used : Bool) :
    Refines (c.setPassphraseUsedSinceInstall used).state L :=
  ⟨⟨ref.sorted, ref.distinct, ref.bounded, ref.past, ref.started⟩, ref.rows⟩

theorem move_refines {allowed : SpendPolicy → Prop} {c c' : WindowCounter}
    {L : Ledger (Finset OutPoint)} (move : Move allowed c c') (ref : Refines c.state L) :
    c.windowElapsed ≤ c'.windowElapsed ∧ ∃ L', Refines c'.state L' := by
  cases move with
  | live _ valid obs => exact ⟨live_elapsed ref.toConsistent _ obs, _, refines_live ref valid obs⟩
  | book a => exact ⟨Nat.le_refl _, _, refines_commit ref a⟩
  | passphrase used => exact ⟨Nat.le_refl _, L, refines_passphrase ref used⟩

theorem moves_refines {allowed : SpendPolicy → Prop} {c c' : WindowCounter}
    {L : Ledger (Finset OutPoint)} (moves : Moves allowed c c') (ref : Refines c.state L) :
    c.windowElapsed ≤ c'.windowElapsed ∧ ∃ L', Refines c'.state L' := by
  induction moves with
  | refl => exact ⟨Nat.le_refl _, L, ref⟩
  | tail _ move ih =>
    obtain ⟨earlier, M, refM⟩ := ih
    obtain ⟨later, N, refN⟩ := move_refines move refM
    exact ⟨earlier.trans later, N, refN⟩

theorem new_state {kek : Str} {c : WindowCounter} (fresh : WindowCounter.new kek = .ok c) :
    c.state = .empty := by
  simp only [WindowCounter.new, bind_eq_ok, pure_ok, Except.ok.injEq] at fresh
  obtain ⟨_, _, made⟩ := fresh
  rw [← made]

theorem new_refines {kek : Str} {c : WindowCounter} (fresh : WindowCounter.new kek = .ok c) :
    Refines c.state .empty := by
  rw [new_state fresh]
  exact refines_empty

theorem within_any (op : WindowOp) : op.Within fun _ => True := by
  cases op <;> trivial

theorem reachable_refines {c : WindowCounter} (reachable : Reachable env c) :
    ∃ L, Refines c.state L := by
  induction reachable with
  | new fresh => exact ⟨_, new_refines fresh⟩
  | op before op ih =>
    obtain ⟨L, ref⟩ := ih
    exact (moves_refines (apply_moves _ op (within_any op)) ref).2

theorem runOps_refines {c : WindowCounter} {L : Ledger (Finset OutPoint)} (ref : Refines c.state L)
    (ops : List WindowOp) :
    c.windowElapsed ≤ (runOps env c ops).windowElapsed ∧
      ∃ L', Refines (runOps env c ops).state L' :=
  moves_refines (runOps_moves fun op _ => within_any op) ref

end Moves

namespace Sample

def spendPolicy : SpendPolicy := ⟨none, some 0, some 100000, 24 * 60 * 60 * nsPerSecond, true⟩

def signerA : Signer :=
  ⟨fingerprintA, fun psbt => .ok (signed psbt childAExternal.publicKey signatureA)⟩

def signerB : Signer :=
  ⟨fingerprintB, fun psbt => .ok (signed psbt childBExternal.publicKey signatureB)⟩

def request (minutes : Nat) : SpendRequest :=
  ⟨psbt, receiveDescriptor, policy, ⟨1000000, 0⟩, ⟨minutes * 60 * nsPerSecond, some 1, none, none⟩⟩

def call (minutes : Nat) : SignCall := ⟨signerA, signerB, request minutes⟩

def installed : WindowCounter := ⟨List.replicate 32 0x42, .empty⟩

def unlocked : WindowCounter := installed.setPassphraseUsedSinceInstall true

def approval : SpendApproval := ⟨⟨[coin], by decide +kernel⟩, 61000⟩

theorem installed_new : WindowCounter.new (List.replicate 32 0x42) = .ok installed := by decide

theorem unlocked_reachable : Reachable env unlocked :=
  .op (.new installed_new) (.setPassphraseUsed true)

theorem spendPolicy_valid : spendPolicy.validate = .ok spendPolicy := by decide

theorem charged : spendCharge env psbt receiveDescriptor policy = .ok 61000 := by
  rw [spendCharge, spendChargeIn, parsed_receive, parsed_policy]
  decide +kernel

theorem gated : gateB env (signed psbt childAExternal.publicKey signatureA)
    (env.computeTxid psbt.unsignedTx) receiveDescriptor policy = .ok () := by
  rw [gateB, gateBIn, verifyIn, checkKeyASignatures, parsed_receive, parsed_policy]
  decide +kernel

theorem collected : inputSet psbt = .ok approval.inputSet := by decide

theorem call_run (minutes : Nat) (c : WindowCounter)
    (used : (c.live spendPolicy (request minutes).observation).state.passphraseUsedSinceInstall =
      true)
    (within : extraAgainstBookings (c.live spendPolicy (request minutes).observation).state.bookings
        approval.inputSet 61000 ≤
      satSub (allowance spendPolicy 1000000)
        (c.live spendPolicy (request minutes).observation).state.bookedSat)
    (room : (c.live spendPolicy (request minutes).observation).state.bookings.length <
      maxBookings) :
    (call minutes).run env spendPolicy c =
      ⟨.ok (signed (signed psbt childAExternal.publicKey signatureA) childBExternal.publicKey
          signatureB),
        (c.live spendPolicy (request minutes).observation).commit approval,
        [psbt], [signed psbt childAExternal.publicKey signatureA]⟩ :=
  signAb_of_stages spendPolicy_valid (approve_of used charged collected within (.inr room))
    accepted rfl gated rfl

def signedOnce : WindowCounter :=
  (unlocked.live spendPolicy (request 0).observation).commit approval

theorem signedOnce_run : ((call 0).run env spendPolicy unlocked).counter = signedOnce := by
  rw [call_run 0 unlocked (by decide) (by decide) (by decide)]
  rfl

end Sample

end Trinity
