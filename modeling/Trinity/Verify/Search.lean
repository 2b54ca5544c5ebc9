import Trinity.Verify.Completeness

/-!
The search over derivation indices as a plain scan. If every index below the
limit derives, the hint decides at most the order of the search: the answer is
an index of the script or the absence of one, and different indices give
different scripts. The verifier then does not depend on the derivation maps of
the inputs.
-/
namespace Trinity

open Outcome

def plainScan (env : Primitives) (script : Script) (desc : ParsedDescriptor) (gap : UInt32) :
    Outcome VerifyError (Option UInt32) :=
  (indicesBelow gap).findSomeM? fun i => probe env script desc i

/-- Different indices below the limit give different scripts. -/
def DistinctScripts (env : Primitives) (desc : ParsedDescriptor) (gap : UInt32) : Prop :=
  ∀ script i j, i < gap → j < gap → DerivedAt env desc script i → DerivedAt env desc script j →
    i = j

section Search

variable {env : Primitives} {script : Script} {desc : ParsedDescriptor} {gap : UInt32}

theorem plainScan_eq :
    plainScan env script desc gap = findIndexMatching env script desc gap none := by
  simp [plainScan, findIndexMatchingIn, probeHintIn]

theorem findIndexMatching_none {hint : Option UInt32} (derives : Derives env desc gap)
    (absent : findIndexMatching env script desc gap hint = .ok none) {i : UInt32}
    (below : i < gap) : ¬ DerivedAt env desc script i := by
  intro derived
  obtain ⟨r, run, found⟩ := @findIndexMatching_total env script desc gap hint derives
  obtain rfl : r = none := Except.ok.inj (run.symm.trans absent)
  exact absurd (found ⟨i, below, derived⟩) (by simp)

/-- With distinct scripts, two searches give one answer, also with different
    limits if the script is found below the lower one. -/
theorem findIndexMatching_unique {lower upper : UInt32} (derives : Derives env desc upper)
    (distinct : DistinctScripts env desc upper) (ordered : lower ≤ upper) {index : UInt32}
    {hint : Option UInt32}
    (found : findIndexMatching env script desc lower hint = .ok (some index))
    (hint' : Option UInt32) :
    findIndexMatching env script desc upper hint' = .ok (some index) := by
  obtain ⟨below, derived⟩ := findIndexMatching_some found
  have inside : index < upper := UInt32.lt_of_lt_of_le below ordered
  obtain ⟨r, run, hit⟩ := @findIndexMatching_total env script desc upper hint' derives
  obtain ⟨other, rfl⟩ := Option.isSome_iff_exists.mp (hit ⟨index, inside, derived⟩)
  obtain ⟨below', derived'⟩ := findIndexMatching_some run
  rw [run, distinct script other index below' inside derived' derived]

theorem findIndexMatching_eq_plainScan (derives : Derives env desc gap)
    (distinct : DistinctScripts env desc gap) (hint : Option UInt32) :
    findIndexMatching env script desc gap hint = plainScan env script desc gap := by
  rw [plainScan_eq]
  obtain ⟨r, run, -⟩ := @findIndexMatching_total env script desc gap none derives
  rw [run]
  cases r with
  | some index => exact findIndexMatching_unique derives distinct (UInt32.le_refl gap) run hint
  | none =>
    obtain ⟨r, run', -⟩ := @findIndexMatching_total env script desc gap hint derives
    cases r with
    | none => exact run'
    | some index =>
      obtain ⟨below, derived⟩ := findIndexMatching_some run'
      exact absurd derived (findIndexMatching_none derives run below)

theorem matchesAnyDerived_eq {receive : ParsedDescriptor} {change : Option ParsedDescriptor}
    (derives : Derives env receive gap)
    (derivesChange : ∀ chg, change = some chg → Derives env chg gap) (hint : Option UInt32) :
    matchesAnyDerived env script receive change gap hint =
      .ok (decide (Owned env receive change gap script)) := by
  by_cases owned : Owned env receive change gap script
  · rw [decide_eq_true owned]
    exact matchesAnyDerived_of_owned hint derives derivesChange owned
  · rw [decide_eq_false owned]
    obtain ⟨r, run, -⟩ := @findIndexMatching_total env script receive gap hint derives
    have own : ∀ b, matchesAnyDerived env script receive change gap hint = .ok b → b = false := by
      intro b run
      cases b with
      | false => rfl
      | true => exact absurd (matchesAnyDerived_true run) owned
    unfold matchesAnyDerived matchesAnyDerivedIn at own ⊢
    simp only [run, bind_ok] at own ⊢
    cases r with
    | some i => exact absurd (own true rfl) (by simp)
    | none =>
      cases change with
      | none => rfl
      | some chg =>
        obtain ⟨r, run', -⟩ :=
          @findIndexMatching_total env script chg gap hint (derivesChange chg rfl)
        simp only [run', bind_ok, Option.isSome_none, Bool.false_eq_true, if_false, pure_ok]
          at own ⊢
        rw [own _ rfl]

end Search

structure SameButDerivations (psbt psbt' : Psbt) : Prop where
  unsignedTx : psbt'.unsignedTx = psbt.unsignedTx
  outputs : psbt'.outputs = psbt.outputs
  proprietary : psbt'.proprietary = psbt.proprietary
  inputs : List.Forall₂ (fun input input' : Input =>
    ∃ map, input' = { input with bip32Derivation := map }) psbt.inputs psbt'.inputs

section Derivations

variable {env : Primitives} {psbt psbt' : Psbt}

theorem forall₂_zip_left {α β : Type} {R : α → α → Prop} (ls : List β) {xs ys : List α}
    (related : List.Forall₂ R xs ys) :
    List.Forall₂ (fun p q : β × α => p.1 = q.1 ∧ R p.2 q.2) (ls.zip xs) (ls.zip ys) := by
  induction related generalizing ls with
  | nil => simp
  | cons here _ ih =>
    cases ls with
    | nil => exact .nil
    | cons l rest => exact .cons ⟨rfl, here⟩ (ih rest)

variable (same : SameButDerivations psbt psbt')
include same

theorem checkV8_same : checkV8 psbt = checkV8 psbt' := by
  have plain : (forM psbt.inputs fun input =>
      rejectIf (¬ input.proprietary.isEmpty) VerifyError.proprietaryField) =
        forM psbt'.inputs fun input =>
          rejectIf (¬ input.proprietary.isEmpty) .proprietaryField := by
    refine forM_congr (same.inputs.imp ?_)
    rintro input _ ⟨map, rfl⟩
    rfl
  simp only [checkV8, same.unsignedTx, same.outputs, same.proprietary, same.inputs.length_eq, plain]

theorem checkV9_same : checkV9 psbt = checkV9 psbt' := by
  refine forM_zipIdx_congr same.inputs ?_
  rintro i input _ ⟨map, rfl⟩
  rfl

theorem checkV7_same (policy : VerifyPolicy) : checkV7 psbt policy = checkV7 psbt' policy := by
  unfold checkV7
  rw [same.unsignedTx]
  refine forM_zipIdx_congr (forall₂_zip_left _ same.inputs) ?_
  rintro i ⟨txin, input⟩ ⟨_, _⟩ ⟨rfl, map, rfl⟩
  rfl

theorem checkV2_same {receive : ParsedDescriptor} {change : Option ParsedDescriptor}
    {policy : VerifyPolicy} (derives : Derives env receive policy.gapLimit)
    (derivesChange : ∀ chg, change = some chg → Derives env chg policy.gapLimit) :
    checkV2 env psbt receive change policy = checkV2 env psbt' receive change policy := by
  refine forM_zipIdx_congr same.inputs ?_
  rintro i input _ ⟨map, rfl⟩
  simp only [matchesAnyDerived_eq derives derivesChange]

theorem classifyOutputs_same (change : Option ParsedDescriptor) (policy : VerifyPolicy) :
    classifyOutputs env psbt change policy = classifyOutputs env psbt' change policy := by
  simp only [classifyOutputsIn, classifyOutputIn, same.unsignedTx, same.outputs]

theorem checkV5_same (policy : VerifyPolicy) : checkV5 psbt policy = checkV5 psbt' policy := by
  have inputs : sumInputs psbt = sumInputs psbt' := by
    refine foldlM_congr (same.inputs.imp ?_) 0
    rintro input _ ⟨map, rfl⟩ acc
    rfl
  simp only [checkV5, inputs, sumOutputs, same.unsignedTx]

theorem checkV10_same : checkV10 psbt = checkV10 psbt' := by
  refine forM_zipIdx_congr same.inputs ?_
  rintro i input _ ⟨map, rfl⟩
  rfl

theorem verify_same {descriptor : Str} {policy : VerifyPolicy}
    (derives : ∀ receive, parse env descriptor = .ok receive → Derives env receive policy.gapLimit)
    (derivesChange : ∀ chg, parseChange env policy.changeDescriptor = .ok (some chg) →
      Derives env chg policy.gapLimit) :
    verify env psbt descriptor policy = verify env psbt' descriptor policy := by
  simp only [verifyIn, monadLift_self]
  refine bind_congr_ok fun receive parsed => bind_congr_ok fun change parsedChange => ?_
  rw [mapErr_eq_ok] at parsed parsedChange
  have inputs := checkV2_same same (derives receive parsed) fun chg described =>
    derivesChange chg (described ▸ parsedChange)
  simp only [checkV8_same same, checkV9_same same, checkV7_same same, inputs,
    classifyOutputs_same same, checkV5_same same, checkV10_same same]

end Derivations

/-- Child derivation succeeds below the limit for every key of the descriptors
    in use. -/
structure WalletDerives (env : Primitives) (descriptor : Str) (policy : VerifyPolicy) : Prop where
  receive : ∀ receive, parse env descriptor = .ok receive →
    ∀ key ∈ receive.keys, DerivesChildren env key policy.gapLimit
  change : ∀ chg, parseChange env policy.changeDescriptor = .ok (some chg) →
    ∀ key ∈ chg.keys, DerivesChildren env key policy.gapLimit

/-- The maps of the inputs do not change what the verifier returns, and no hint
    changes what the search returns. -/
theorem hint_only_shortcut (env : Primitives) (compressed : CompressedPoints env) :
    (∀ psbt psbt' descriptor policy, WalletDerives env descriptor policy →
      SameButDerivations psbt psbt' →
      verify env psbt descriptor policy = verify env psbt' descriptor policy) ∧
    ∀ script desc gap hint, (∀ key ∈ desc.keys, DerivesChildren env key gap) →
      DistinctScripts env desc gap →
      findIndexMatching env script desc gap hint = plainScan env script desc gap := by
  constructor
  · intro psbt psbt' descriptor policy derives same
    exact verify_same same
      (fun receive parsed => derives_of_children compressed (derives.receive receive parsed))
      fun chg parsed => derives_of_children compressed (derives.change chg parsed)
  · intro script desc gap hint children distinct
    exact findIndexMatching_eq_plainScan (derives_of_children compressed children) distinct hint

namespace Sample

def unhinted : Psbt := { psbt with inputs := [{ psbtInput with bip32Derivation := .empty }] }

theorem wallet_derives : WalletDerives env receiveDescriptor policy where
  receive receive parsed := by
    obtain rfl := Except.ok.inj (parsed_receive.symm.trans parsed)
    exact derives_children derived_receive
  change chg parsed := by
    obtain ⟨s, named, parsed⟩ := parseChange_some.mp parsed
    obtain rfl := Option.some.inj named
    obtain rfl := Except.ok.inj (parsed_change.symm.trans parsed)
    exact derives_children derived_change

theorem distinct_scripts (desc : ParsedDescriptor) : DistinctScripts env desc policy.gapLimit := by
  intro script i j below below' _ _
  have first : i.toNat < 1 := UInt32.lt_iff_toNat_lt.mp below
  have second : j.toNat < 1 := UInt32.lt_iff_toNat_lt.mp below'
  rw [← UInt32.toNat_inj]
  omega

end Sample

/-- A hint that is missing, and one beyond the window. -/
theorem hint_only_shortcut_sample :
    verify Sample.env Sample.psbt Sample.receiveDescriptor Sample.policy =
      verify Sample.env Sample.unhinted Sample.receiveDescriptor Sample.policy ∧
    findIndexMatching Sample.env (p2wshScript Sample.receiveHash) (Sample.wallet .external)
        Sample.policy.gapLimit (some 7) =
      plainScan Sample.env (p2wshScript Sample.receiveHash) (Sample.wallet .external)
        Sample.policy.gapLimit := by
  obtain ⟨maps, hints⟩ := hint_only_shortcut Sample.env Sample.compressed
  refine ⟨maps _ _ _ _ Sample.wallet_derives ⟨rfl, rfl, rfl, .cons ⟨_, rfl⟩ .nil⟩, ?_⟩
  exact hints _ _ _ _ (Sample.derives_children Sample.derived_receive) (Sample.distinct_scripts _)

end Trinity
