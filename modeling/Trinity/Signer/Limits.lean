import Trinity.Verify.Checks
import Trinity.Keystore.Blob

/-!
Spend policies and the window allowance of `limits.rs`, and the errors of the
signing crate. Durations are exact nanosecond counts.
-/
namespace Trinity

open Outcome Word

inductive CoreStateError where
  | truncated
  | badMagic
  | unsupportedVersion (version : UInt8)
  | unsupportedReserved
  | csRng
  | aead
  | plaintext
  deriving DecidableEq, Repr

inductive SignError where
  | verify (e : VerifyError)
  | selfVerificationFailed
  | nonSighashAll (inputIndex : Nat)
  | platform (e : PlatformError)
  | unsignedTxChanged
  | unexpectedKeyASignature
  | blob (e : BlobError)
  | coreState (e : CoreStateError)
  | entropy
  | bip32
  | invalidKekLength
  | invalidSlot
  | fingerprintMismatch
  | missingWitnessUtxo (inputIndex : Nat)
  | missingWitnessScript (inputIndex : Nat)
  | missingDerivation (inputIndex : Nat)
  | pubkeyMismatch (inputIndex : Nat)
  | sighash (inputIndex : Nat)
  | emptyPsbt
  | tooManyInputs
  | unbalancedPsbt
  | spendLimitExceeded
  | windowLedgerFull
  | floorAboveCap
  | policyOutOfRange
  | invalidSpendPolicy
  | consensusRejected
  | finalFeerateTooHigh (feerateSatVb maxSatVb : UInt64)
  | incompleteWitness (inputIndex : Nat)
  | witnessScriptMismatch (inputIndex : Nat)
  | invalidDerivationPath (inputIndex : Nat)
  deriving DecidableEq, Repr

structure Ratio where
  numer : UInt64
  denom : UInt64
  denom_ne_zero : denom ≠ 0
  deriving DecidableEq, Repr

def saturate128 (n : Nat) : Nat := min n (2 ^ 128 - 1)

/-- `floor(value * numer / denom)` over 128 bits, clamped to a word. -/
def Ratio.of (r : Ratio) (value : UInt64) : UInt64 :=
  let n := saturate128 (value.toNat * r.numer.toNat) / r.denom.toNat
  if maxWord.toNat < n then maxWord else UInt64.ofNat n

def nsPerSecond : Nat := 1000000000

structure SpendPolicy where
  windowFraction : Option Ratio
  windowFloorSat : Option UInt64
  windowCapSat : Option UInt64
  window : Nat
  passphraseOnFirstUse : Bool
  deriving DecidableEq, Repr

def SpendPolicy.floor (p : SpendPolicy) : UInt64 := p.windowFloorSat.getD 0
def SpendPolicy.cap (p : SpendPolicy) : UInt64 := p.windowCapSat.getD maxWord

def Ratio.inRange (f : Ratio) : Bool :=
  ¬ (f.numer = 0 ∨ f.denom < f.numer ∨ satMul f.numer 100 < f.denom)

def validateFraction (fraction : Option Ratio) : Outcome SignError Unit :=
  match fraction with
  | some f => rejectIf (¬ f.inRange) .policyOutOfRange
  | none => .ok ()

def SpendPolicy.validate (p : SpendPolicy) : Outcome SignError SpendPolicy := do
  rejectIf (p.cap < p.floor) .floorAboveCap
  rejectIf (¬ p.passphraseOnFirstUse) .invalidSpendPolicy
  validateFraction p.windowFraction
  rejectIf (p.window < 60 * 60 * nsPerSecond ∨ 7 * 24 * 60 * 60 * nsPerSecond < p.window)
    .policyOutOfRange
  return p

def setSpendPolicy (p : SpendPolicy) : Outcome SignError SpendPolicy := p.validate

def Ratio.percent20 : Ratio := ⟨1, 5, by decide⟩

def SpendPolicy.standard : SpendPolicy where
  windowFraction := some .percent20
  windowFloorSat := some 200
  windowCapSat := some 500
  window := 24 * 60 * 60 * nsPerSecond
  passphraseOnFirstUse := true

def SpendPolicy.off : SpendPolicy where
  windowFraction := none
  windowFloorSat := none
  windowCapSat := none
  window := 24 * 60 * 60 * nsPerSecond
  passphraseOnFirstUse := true

def clamp (x lo hi : UInt64) : UInt64 := if x < lo then lo else if hi < x then hi else x

def allowance (p : SpendPolicy) (balanceSat : UInt64) : UInt64 :=
  let byFraction := (p.windowFraction.map fun f => f.of balanceSat).getD maxWord
  if p.cap < p.floor then 0 else minWord (clamp byFraction p.floor p.cap) balanceSat

structure Balance where
  confirmedSats : UInt64
  trustedPendingSats : UInt64
  deriving DecidableEq, Repr

def Balance.spendPolicyReferenceSats (b : Balance) : UInt64 :=
  satAdd b.confirmedSats b.trustedPendingSats

theorem clamp_toNat {x lo hi : UInt64} (ordered : lo ≤ hi) :
    (clamp x lo hi).toNat = min (max x.toNat lo.toNat) hi.toNat := by
  rw [UInt64.le_iff_toNat_le] at ordered
  unfold clamp
  simp only [UInt64.lt_iff_toNat_lt]
  split_ifs with below above <;> omega

theorem allowance_le_cap {p : SpendPolicy} (balance : UInt64) : allowance p balance ≤ p.cap := by
  unfold allowance clamp minWord
  split
  · exact UInt64.zero_le
  · grind

theorem validate_eq_ok {p q : SpendPolicy} (valid : p.validate = .ok q) :
    q = p ∧ p.floor ≤ p.cap ∧ 60 * 60 * nsPerSecond ≤ p.window ∧
      p.window ≤ 7 * 24 * 60 * 60 * nsPerSecond := by
  simp only [SpendPolicy.validate, bind_eq_ok, rejectIf_eq_ok] at valid
  obtain ⟨_, floor, _, _, _, _, _, range, made⟩ := valid
  simp only [pure_ok, Except.ok.injEq] at made
  refine ⟨made.symm, ?_, ?_, ?_⟩
  · grind
  · omega
  · omega

end Trinity
