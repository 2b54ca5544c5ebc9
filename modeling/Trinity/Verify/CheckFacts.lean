import Trinity.Verify.Sample

/-!
What each check of the verifier establishes. Checks that read the PSBT alone are
equivalent to a property of it; the searches over derivation indices are
described by the scripts they find.
-/
namespace Trinity

open Outcome Word

structure WellFormed (psbt : Psbt) : Prop where
  inputMaps : psbt.inputs.length = psbt.unsignedTx.input.length
  outputMaps : psbt.outputs.length = psbt.unsignedTx.output.length
  nonempty : psbt.unsignedTx.input ≠ []
  inputLimit : psbt.unsignedTx.input.length ≤ 100
  outputLimit : psbt.unsignedTx.output.length ≤ 100
  unsigned : ∀ txin ∈ psbt.unsignedTx.input, txin.scriptSig = [] ∧ txin.witness = []
  plain : psbt.proprietary = []
  plainInputs : ∀ input ∈ psbt.inputs, input.proprietary = []
  plainOutputs : ∀ output ∈ psbt.outputs, output.proprietary = []

theorem checkV8_eq_ok {psbt : Psbt} {u : Unit} : checkV8 psbt = .ok u ↔ WellFormed psbt := by
  simp only [checkV8, bind_eq_ok, rejectIf_eq_ok, forM_eq_ok, exists_const, Decidable.not_not,
    List.isEmpty_iff]
  constructor
  · rintro ⟨inputs, outputs, some, fewIn, fewOut, unsigned, plain, plainIn, plainOut⟩
    exact ⟨inputs, outputs, some, Nat.le_of_not_lt fewIn, Nat.le_of_not_lt fewOut, unsigned, plain,
      plainIn, plainOut⟩
  · intro ok
    exact ⟨ok.inputMaps, ok.outputMaps, ok.nonempty, Nat.not_lt_of_le ok.inputLimit,
      Nat.not_lt_of_le ok.outputLimit, ok.unsigned, ok.plain, ok.plainInputs, ok.plainOutputs⟩

theorem checkV9_eq_ok {psbt : Psbt} {u : Unit} :
    checkV9 psbt = .ok u ↔ ∀ (i : Nat) input, psbt.inputs[i]? = some input →
      ∃ utxo, input.witnessUtxo = some utxo := by
  unfold checkV9
  rw [forM_zipIdx_eq_ok]
  apply forall_congr'
  intro i
  apply forall_congr'
  intro input
  apply imp_congr_right
  intro _
  cases shown : input.witnessUtxo with
  | some utxo => simp [shown]
  | none => cases full : input.nonWitnessUtxo <;> simp [shown, full]

def Spends (policy : VerifyPolicy) (txin : TxIn) (input : Input) (known : TxOut) : Prop :=
  policy.knownUtxos.get? txin.previousOutput = some known ∧ input.witnessUtxo = some known

theorem checkV7_eq_ok {psbt : Psbt} {policy : VerifyPolicy} {u : Unit} :
    checkV7 psbt policy = .ok u ↔
      ∀ (i : Nat) txin input, psbt.unsignedTx.input[i]? = some txin →
        psbt.inputs[i]? = some input → ∃ known, Spends policy txin input known := by
  unfold checkV7 Spends
  simp only [forM_zipIdx_eq_ok, List.getElem?_zip_eq_some, Prod.forall, bind_eq_ok, okOr_eq_ok,
    expect_eq_ok, rejectIf_eq_ok, not_or, Decidable.not_not]
  constructor
  · intro all i txin input spent map
    obtain ⟨known, recorded, utxo, shown, value, script⟩ := all i txin input ⟨spent, map⟩
    have same : utxo = known := by
      cases utxo
      cases known
      exact congrArg₂ TxOut.mk value script
    exact ⟨known, recorded, same ▸ shown⟩
  · rintro all i txin input ⟨spent, map⟩
    obtain ⟨known, recorded, shown⟩ := all i txin input spent map
    exact ⟨known, recorded, known, shown, rfl, rfl⟩

section Checks

variable {env : Primitives}

def DerivedAt (env : Primitives) (desc : ParsedDescriptor) (script : Script) (i : UInt32) : Prop :=
  ∃ out, deriveAt env desc i = .ok out ∧ out.scriptPubkey = script

theorem probe_some {script : Script} {desc : ParsedDescriptor} {i j : UInt32} :
    probe env script desc i = .ok (some j) ↔ j = i ∧ DerivedAt env desc script i := by
  simp only [probeIn, Marked.call_outcome, Marked.mapErr_outcome, bind_eq_ok, mapErr_eq_ok, pure_ok,
    Except.ok.injEq, DerivedAt]
  constructor
  · rintro ⟨out, derived, hit⟩
    split at hit
    · rename_i same
      exact ⟨(Option.some.inj hit).symm, out, derived, same⟩
    · contradiction
  · rintro ⟨rfl, out, derived, same⟩
    exact ⟨out, derived, if_pos same⟩

theorem probe_total {script : Script} {desc : ParsedDescriptor} {i : UInt32}
    (derives : ∃ out, deriveAt env desc i = .ok out) :
    ∃ r, probe env script desc i = .ok r := by
  obtain ⟨out, derived⟩ := derives
  exact ⟨_, bind_eq_ok.mpr ⟨out, mapErr_eq_ok.mpr derived, rfl⟩⟩

theorem mem_indicesBelow {gap i : UInt32} : i ∈ indicesBelow gap ↔ i < gap := by
  simp only [indicesBelow, List.mem_map, List.mem_range, UInt32.lt_iff_toNat_lt]
  constructor
  · rintro ⟨n, below, rfl⟩
    have := gap.toNat_lt_size
    rw [UInt32.toNat_ofNat_of_lt' (by omega)]
    exact below
  · intro below
    exact ⟨i.toNat, below, UInt32.ofNat_toNat⟩

def Derives (env : Primitives) (desc : ParsedDescriptor) (gap : UInt32) : Prop :=
  ∀ i, i < gap → ∃ out, deriveAt env desc i = .ok out

theorem findIndexMatching_some {script : Script} {desc : ParsedDescriptor} {gap i : UInt32}
    {hint : Option UInt32} (found : findIndexMatching env script desc gap hint = .ok (some i)) :
    i < gap ∧ DerivedAt env desc script i := by
  obtain ⟨hinted, first, rest⟩ := bind_eq_ok.mp found
  cases hinted with
  | some h =>
    simp only [pure_ok, Except.ok.injEq, Option.some.injEq] at rest
    subst rest
    cases hint with
    | none => simp [probeHintIn] at first
    | some k =>
      simp only [probeHintIn] at first
      split at first
      · rename_i below
        obtain ⟨rfl, derived⟩ := probe_some.mp first
        exact ⟨below, derived⟩
      · simp at first
  | none =>
    obtain ⟨j, member, hit⟩ := findSomeM?_some rest
    split at hit
    · simp at hit
    · obtain ⟨rfl, derived⟩ := probe_some.mp hit
      exact ⟨mem_indicesBelow.mp member, derived⟩

theorem probeHint_total {script : Script} {desc : ParsedDescriptor} {gap : UInt32}
    {hint : Option UInt32} (derives : Derives env desc gap) :
    ∃ r, probeHint env script desc gap hint = .ok r := by
  unfold probeHint probeHintIn
  split
  · split
    · rename_i below
      exact probe_total (derives _ below)
    · exact ⟨_, rfl⟩
  · exact ⟨_, rfl⟩

theorem findIndexMatching_total {script : Script} {desc : ParsedDescriptor} {gap : UInt32}
    (hint : Option UInt32) (derives : Derives env desc gap) :
    ∃ r, findIndexMatching env script desc gap hint = .ok r ∧
      ((∃ i, i < gap ∧ DerivedAt env desc script i) → r.isSome) := by
  obtain ⟨hinted, first⟩ := @probeHint_total env script desc gap hint derives
  cases hinted with
  | some h => exact ⟨some h, bind_eq_ok.mpr ⟨_, first, rfl⟩, fun _ => rfl⟩
  | none =>
    have probes : ∀ i ∈ indicesBelow gap,
        ∃ r, (if hint = some i then pure none else probe env script desc i :
          Outcome VerifyError (Option UInt32)) = .ok r := by
      intro i member
      split
      · exact ⟨_, rfl⟩
      · exact probe_total (derives i (mem_indicesBelow.mp member))
    by_cases owned : ∃ i, i < gap ∧ DerivedAt env desc script i
    · obtain ⟨i, below, derived⟩ := owned
      have hit : (if hint = some i then pure none else probe env script desc i :
          Outcome VerifyError (Option UInt32)) = .ok (some i) := by
        split
        · rename_i hinted
          subst hinted
          rw [probeHint, probeHintIn, if_pos below] at first
          have both := first.symm.trans (probe_some.mpr ⟨rfl, derived⟩)
          simp at both
        · exact probe_some.mpr ⟨rfl, derived⟩
      obtain ⟨j, run⟩ := findSomeM?_hit probes (mem_indicesBelow.mpr below) hit
      exact ⟨some j, bind_eq_ok.mpr ⟨none, first, run⟩, fun _ => rfl⟩
    · obtain ⟨r, run⟩ := findSomeM?_total probes
      exact ⟨r, bind_eq_ok.mpr ⟨none, first, run⟩, fun held => absurd held owned⟩

def Owned (env : Primitives) (receive : ParsedDescriptor) (change : Option ParsedDescriptor)
    (gap : UInt32) (script : Script) : Prop :=
  ∃ desc, (desc = receive ∨ change = some desc) ∧ ∃ i, i < gap ∧ DerivedAt env desc script i

/-- Search over all indices below the limit, skipping those that do not derive. -/
def derivesScript (env : Primitives) (desc : ParsedDescriptor) (gap : UInt32)
    (script : Script) : Bool :=
  (indicesBelow gap).any fun i =>
    match deriveAt env desc i with
    | .ok out => out.scriptPubkey == script
    | .error _ => false

theorem derivesScript_iff {desc : ParsedDescriptor} {gap : UInt32} {script : Script} :
    derivesScript env desc gap script = true ↔ ∃ i, i < gap ∧ DerivedAt env desc script i := by
  simp only [derivesScript, List.any_eq_true, mem_indicesBelow, DerivedAt]
  apply exists_congr
  intro i
  apply and_congr_right
  intro _
  cases deriveAt env desc i <;> simp

instance (env : Primitives) (receive : ParsedDescriptor) (change : Option ParsedDescriptor)
    (gap : UInt32) (script : Script) : Decidable (Owned env receive change gap script) :=
  decidable_of_iff (derivesScript env receive gap script = true ∨
      ∃ chg ∈ change, derivesScript env chg gap script = true) <| by
    simp only [derivesScript_iff, Owned, Option.mem_def]
    constructor
    · rintro (hit | ⟨chg, described, hit⟩)
      · exact ⟨receive, .inl rfl, hit⟩
      · exact ⟨chg, .inr described, hit⟩
    · rintro ⟨desc, rfl | described, hit⟩
      · exact .inl hit
      · exact .inr ⟨desc, described, hit⟩

theorem matchesAnyDerived_true {script : Script} {receive : ParsedDescriptor}
    {change : Option ParsedDescriptor} {gap : UInt32} {hint : Option UInt32}
    (hit : matchesAnyDerived env script receive change gap hint = .ok true) :
    Owned env receive change gap script := by
  obtain ⟨found, first, rest⟩ := bind_eq_ok.mp hit
  cases found with
  | some i => exact ⟨receive, .inl rfl, i, findIndexMatching_some first⟩
  | none =>
    cases change with
    | none => simp at rest
    | some chg =>
      simp only [Option.isSome_none, Bool.false_eq_true, ↓reduceIte, bind_eq_ok, pure_ok,
        Except.ok.injEq, Option.isSome_iff_exists] at rest
      obtain ⟨_, second, i, same⟩ := rest
      exact ⟨chg, .inr rfl, i, findIndexMatching_some (same ▸ second)⟩

theorem matchesAnyDerived_of_owned {script : Script} {receive : ParsedDescriptor}
    {change : Option ParsedDescriptor} {gap : UInt32} (hint : Option UInt32)
    (derives : Derives env receive gap)
    (derivesChange : ∀ chg, change = some chg → Derives env chg gap)
    (owned : Owned env receive change gap script) :
    matchesAnyDerived env script receive change gap hint = .ok true := by
  obtain ⟨desc, which, hit⟩ := owned
  obtain ⟨r, first, found⟩ := @findIndexMatching_total env script receive gap hint derives
  refine bind_eq_ok.mpr ⟨r, first, ?_⟩
  cases r with
  | some i => rfl
  | none =>
    rcases which with rfl | rfl
    · simpa using found hit
    · obtain ⟨r, second, found'⟩ :=
        @findIndexMatching_total env script desc gap hint (derivesChange desc rfl)
      simp [second, found' hit]

theorem checkV2_owned {psbt : Psbt} {receive : ParsedDescriptor}
    {change : Option ParsedDescriptor} {policy : VerifyPolicy} {u : Unit}
    (passed : checkV2 env psbt receive change policy = .ok u) {i : Nat} {input : Input}
    (map : psbt.inputs[i]? = some input) :
    ∃ utxo, input.witnessUtxo = some utxo ∧
      Owned env receive change policy.gapLimit utxo.scriptPubkey := by
  have each := forM_zipIdx_eq_ok.mp passed i input map
  simp only [monadLift_self, bind_eq_ok, expect_eq_ok, rejectIf_eq_ok, Decidable.not_not] at each
  obtain ⟨utxo, shown, own, hit, yes⟩ := each
  subst yes
  exact ⟨utxo, shown, matchesAnyDerived_true hit⟩

theorem checkV2_of_owned {psbt : Psbt} {receive : ParsedDescriptor}
    {change : Option ParsedDescriptor} {policy : VerifyPolicy}
    (derives : Derives env receive policy.gapLimit)
    (derivesChange : ∀ chg, change = some chg → Derives env chg policy.gapLimit)
    (owned : ∀ (i : Nat) input, psbt.inputs[i]? = some input →
      ∃ utxo, input.witnessUtxo = some utxo ∧
        Owned env receive change policy.gapLimit utxo.scriptPubkey) :
    checkV2 env psbt receive change policy = .ok () := by
  apply forM_zipIdx_eq_ok.mpr
  intro i input map
  obtain ⟨utxo, shown, own⟩ := owned i input map
  have hit := matchesAnyDerived_of_owned (bip32IndexHint input.bip32Derivation) derives
    derivesChange own
  simp [shown, hit, expect]

def PaysRecipient (env : Primitives) (policy : VerifyPolicy) (txout : TxOut) : Prop :=
  txout.scriptPubkey.hasAddress = true ∧ ∃ r ∈ policy.declaredRecipients,
    eqIgnoreAsciiCase (env.addressToString policy.network txout.scriptPubkey) r = true

instance (env : Primitives) (policy : VerifyPolicy) (txout : TxOut) :
    Decidable (PaysRecipient env policy txout) :=
  inferInstanceAs (Decidable (_ ∧ _))

/-- What `classify_outputs` reports about an output: a payment to a declared
    recipient, or change at the index found, with derivation data V4 accepts. -/
inductive Classified (env : Primitives) (psbt : Psbt) (change : Option ParsedDescriptor)
    (policy : VerifyPolicy) (i : Nat) (txout : TxOut) : ClassifiedOutput → Prop where
  | recipient (pays : PaysRecipient env policy txout) :
      Classified env psbt change policy i txout
        ⟨false, txout.value, env.addressToString policy.network txout.scriptPubkey⟩
  | change {chg : ParsedDescriptor} {output : Output} {index : UInt32}
      (foreign : ¬ PaysRecipient env policy txout) (described : change = some chg)
      (map : psbt.outputs[i]? = some output)
      (found : findIndexMatching env txout.scriptPubkey chg policy.gapLimit
        (bip32IndexHint output.bip32Derivation) = .ok (some index))
      (bound : checkV4Change env output chg index = .ok ()) :
      Classified env psbt change policy i txout
        ⟨true, txout.value, env.addressToString policy.network txout.scriptPubkey⟩

theorem addressFromScript_eq_ok {script : Script} {network : Network} {i : Nat} {address : Str} :
    addressFromScript env script network i = .ok address ↔
      script.hasAddress = true ∧ address = env.addressToString network script := by
  unfold addressFromScript
  split
  · rename_i known
    simp [known, eq_comm]
  · rename_i unknown
    simp [unknown]

theorem any_recipient {policy : VerifyPolicy} {txout : TxOut}
    (address : txout.scriptPubkey.hasAddress = true) :
    (policy.declaredRecipients.any fun r =>
      eqIgnoreAsciiCase (env.addressToString policy.network txout.scriptPubkey) r) = true ↔
      PaysRecipient env policy txout := by
  rw [List.any_eq_true, PaysRecipient]
  exact ⟨fun hit => ⟨address, hit⟩, fun pays => pays.2⟩

theorem classifyOutput_eq_ok {psbt : Psbt} {change : Option ParsedDescriptor}
    {policy : VerifyPolicy} {txout : TxOut} {i : Nat} {c : ClassifiedOutput} :
    classifyOutput env psbt change policy txout i = .ok c ↔
      Classified env psbt change policy i txout c := by
  constructor
  · intro run
    obtain ⟨address, named, rest⟩ := bind_eq_ok.mp run
    obtain ⟨known, rfl⟩ := addressFromScript_eq_ok.mp named
    split at rest
    · rename_i pays
      simp only [pure_ok, Except.ok.injEq] at rest
      rw [← rest]
      exact .recipient ((any_recipient known).mp pays)
    · rename_i foreign
      simp only [monadLift_self, Marked.mapErr_outcome, bind_eq_ok, okOr_eq_ok, expect_eq_ok,
        mapErr_eq_ok, pure_ok, Except.ok.injEq] at rest
      obtain ⟨chg, described, output, map, _, found, index, rfl, _, bound, rfl⟩ := rest
      exact .change (fun pays => foreign ((any_recipient known).mpr pays)) described map found bound
  · intro classified
    cases classified with
    | recipient pays =>
      refine bind_eq_ok.mpr ⟨_, addressFromScript_eq_ok.mpr ⟨pays.1, rfl⟩, ?_⟩
      rw [if_pos ((any_recipient pays.1).mpr pays)]
      rfl
    | change foreign described map found bound =>
      obtain ⟨_, out, derived, script⟩ := findIndexMatching_some found
      have known : txout.scriptPubkey.hasAddress = true := script ▸ deriveAt_hasAddress derived
      refine bind_eq_ok.mpr ⟨_, addressFromScript_eq_ok.mpr ⟨known, rfl⟩, ?_⟩
      rw [if_neg fun pays => foreign ((any_recipient known).mp pays)]
      simp [described, map, found, bound, okOr, expect, mapErr]

theorem classifyOutputs_eq_ok {psbt : Psbt} {change : Option ParsedDescriptor}
    {policy : VerifyPolicy} {classified : List ClassifiedOutput} :
    classifyOutputs env psbt change policy = .ok classified ↔
      List.Forall₂ (fun (x : TxOut × Nat) c => Classified env psbt change policy x.2 x.1 c)
        psbt.unsignedTx.output.zipIdx classified := by
  unfold classifyOutputs classifyOutputsIn
  rw [mapM_eq_ok]
  simp only [classifyOutput_eq_ok]

theorem sumInputs_eq_ok {psbt : Psbt} {sum : UInt64} :
    sumInputs psbt = .ok sum ↔
      ∃ utxos, List.Forall₂ (fun input utxo => input.witnessUtxo = some utxo) psbt.inputs utxos ∧
        sum.toNat = exactSum (utxos.map TxOut.value) := by
  refine foldlM_checkedAdd.trans ?_
  simp only [expect_eq_ok, UInt64.toNat_zero, Nat.zero_add]

theorem sumOutputs_eq_ok {psbt : Psbt} {sum : UInt64} :
    sumOutputs psbt = .ok sum ↔ sum.toNat = exactSum (psbt.unsignedTx.output.map TxOut.value) := by
  have loop := @foldlM_checkedAdd VerifyError TxOut TxOut pure TxOut.value .feeNonPositive
    psbt.unsignedTx.output 0 sum
  refine loop.trans ?_
  simp only [pure_ok, Except.ok.injEq, List.forall₂_eq_eq_eq, exists_eq_left', UInt64.toNat_zero,
    Nat.zero_add]

theorem feerate_toNat (fee : UInt64) {vsize : Nat} (positive : 0 < vsize) :
    (feerate fee vsize).toNat = (fee.toNat + (vsize - 1)) / vsize := by
  have small := toNat_lt_size fee
  have bound : (fee.toNat + (vsize - 1)) / vsize ≤ fee.toNat := by
    rw [Nat.div_le_iff_le_mul_add_pred positive]
    exact Nat.add_le_add_right (Nat.le_mul_of_pos_left _ positive) _
  exact UInt64.toNat_ofNat_of_lt' (by omega)

theorem checkDeclaredFee_eq_ok {declared : Option UInt64} {fee : UInt64} {u : Unit} :
    checkDeclaredFee declared fee = .ok u ↔ ∀ pinned, declared = some pinned → fee = pinned := by
  unfold checkDeclaredFee
  cases declared <;> simp

structure FeeWithin (psbt : Psbt) (policy : VerifyPolicy) (utxos : List TxOut) (fee : UInt64) :
    Prop where
  shown : List.Forall₂ (fun input utxo => input.witnessUtxo = some utxo) psbt.inputs utxos
  fits : exactSum (utxos.map TxOut.value) < UInt64.size
  balance : exactSum (utxos.map TxOut.value) =
    exactSum (psbt.unsignedTx.output.map TxOut.value) + fee.toNat
  positive : fee ≠ 0
  absolute : fee ≤ policy.maxAbsoluteFee
  pinned : ∀ pinned, policy.declaredFeeSats = some pinned → fee = pinned
  rate : feerate fee (max psbt.unsignedTx.vsize 1) ≤ policy.maxFeerate

theorem checkV5_eq_ok {psbt : Psbt} {policy : VerifyPolicy} {fee rate : UInt64} :
    checkV5 psbt policy = .ok (fee, rate) ↔
      rate = feerate fee (max psbt.unsignedTx.vsize 1) ∧
        ∃ utxos, FeeWithin psbt policy utxos fee := by
  simp only [checkV5, bind_eq_ok, sumInputs_eq_ok, sumOutputs_eq_ok, okOr_eq_ok, rejectIf_eq_ok,
    checkDeclaredFee_eq_ok, checkedSub_eq_some, pure_ok, Except.ok.injEq, Prod.mk.injEq]
  constructor
  · rintro ⟨sumIn, ⟨utxos, shown, total⟩, sumOut, paid, _, balance, _, positive, _, absolute, _,
      pinned, _, within, rfl, rfl⟩
    have := toNat_lt_size sumIn
    exact ⟨rfl, utxos, shown, by omega, by omega, positive, UInt64.not_lt.mp absolute, pinned,
      UInt64.not_lt.mp within⟩
  · rintro ⟨rfl, utxos, ok⟩
    have balance := ok.balance
    have fits := ok.fits
    refine ⟨UInt64.ofNat (exactSum (utxos.map TxOut.value)), ⟨utxos, ok.shown, ?_⟩,
      UInt64.ofNat (exactSum (psbt.unsignedTx.output.map TxOut.value)), ?_, fee, ?_, (),
      ok.positive, (), UInt64.not_lt.mpr ok.absolute, (), ok.pinned, (), UInt64.not_lt.mpr ok.rate,
      rfl, rfl⟩
    · exact UInt64.toNat_ofNat_of_lt' fits
    · exact UInt64.toNat_ofNat_of_lt' (by omega)
    · rw [UInt64.toNat_ofNat_of_lt' fits, UInt64.toNat_ofNat_of_lt' (by omega)]
      exact balance

theorem checkV6_eq_ok {classified : List ClassifiedOutput} {policy : VerifyPolicy} {u : Unit} :
    checkV6 classified policy = .ok u ↔
      satSum (amountsOf classified false) = policy.declaredAmountSats := by
  simp [checkV6]

theorem isSighashAll_iff {t : PsbtSighashType} : isSighashAll t = true ↔ t = 1 := by
  unfold isSighashAll PsbtSighashType.ecdsaHashTy
  by_cases all : t = 1
  · simp [all]
  · rw [if_neg all]
    simp only [all, iff_false, Bool.not_eq_true]
    repeat' split
    all_goals rfl

theorem checkSighashField_eq_ok {field : Option PsbtSighashType} {i : Nat} {u : Unit} :
    checkSighashField field i = .ok u ↔ ∀ t, field = some t → t = 1 := by
  unfold checkSighashField
  cases field <;> simp [isSighashAll_iff]

/-- Every signature and every sighash field of the input is SIGHASH_ALL, and the
    signatures are low-s. -/
def PlainSignatures (input : Input) : Prop :=
  (∀ t, input.sighashType = some t → t = 1) ∧
    ∀ sig ∈ input.partialSigs.values, sig.sighashType = .all ∧ sig.signature.LowS

theorem checkV10_eq_ok {psbt : Psbt} {u : Unit} :
    checkV10 psbt = .ok u ↔
      ∀ (i : Nat) input, psbt.inputs[i]? = some input → PlainSignatures input := by
  unfold checkV10 PlainSignatures
  rw [forM_zipIdx_eq_ok]
  simp only [bind_eq_ok, checkSighashField_eq_ok, forM_eq_ok, rejectIf_eq_ok, exists_const,
    EcdsaSignature.normalizeS_eq_self, ne_eq, not_not]

theorem parseChange_some {changeDescriptor : Option Str} {chg : ParsedDescriptor} :
    parseChange env changeDescriptor = .ok (some chg) ↔
      ∃ s, changeDescriptor = some s ∧ parse env s = .ok chg := by
  cases changeDescriptor with
  | none => simp [parseChange]
  | some s =>
    cases parsed : parse env s <;> simp [parseChange, parsed, Except.map]

structure Verified (env : Primitives) (psbt : Psbt) (descriptor : Str) (policy : VerifyPolicy)
    (receive : ParsedDescriptor) (change : Option ParsedDescriptor)
    (classified : List ClassifiedOutput) (utxos : List TxOut) (v : PsbtVerdict) : Prop where
  parsed : parse env descriptor = .ok receive
  parsedChange : parseChange env policy.changeDescriptor = .ok change
  wellFormed : WellFormed psbt
  known : ∀ (i : Nat) txin input, psbt.unsignedTx.input[i]? = some txin →
    psbt.inputs[i]? = some input → ∃ known, Spends policy txin input known
  owned : checkV2 env psbt receive change policy = .ok ()
  outputs : List.Forall₂ (fun (x : TxOut × Nat) c => Classified env psbt change policy x.2 x.1 c)
    psbt.unsignedTx.output.zipIdx classified
  fee : FeeWithin psbt policy utxos v.feeSats
  declared : satSum (amountsOf classified false) = policy.declaredAmountSats
  signatures : ∀ (i : Nat) input, psbt.inputs[i]? = some input → PlainSignatures input
  verdict : v = ⟨true, recipientOf classified policy, satSum (amountsOf classified false),
    satSum (amountsOf classified true), v.feeSats,
    feerate v.feeSats (max psbt.unsignedTx.vsize 1)⟩

theorem verify_eq_ok {psbt : Psbt} {descriptor : Str} {policy : VerifyPolicy} {v : PsbtVerdict} :
    verify env psbt descriptor policy = .ok v ↔
      ∃ receive change classified utxos,
        Verified env psbt descriptor policy receive change classified utxos v := by
  simp only [verifyIn, monadLift_self, bind_eq_ok, mapErr_eq_ok, checkV8_eq_ok, checkV9_eq_ok,
    checkV7_eq_ok, classifyOutputs_eq_ok, checkV6_eq_ok, checkV10_eq_ok, pure_ok, Except.ok.injEq,
    Prod.exists, checkV5_eq_ok]
  constructor
  · rintro ⟨receive, parsed, change, parsedChange, _, shape, _, shown, _, known, _, owned,
      classified, outputs, fee, _, ⟨rfl, utxos, within⟩, _, declared, _, signatures, rfl⟩
    exact ⟨receive, change, classified, utxos, parsed, parsedChange, shape, known, owned, outputs,
      within, declared, signatures, rfl⟩
  · rintro ⟨receive, change, classified, utxos, ok⟩
    refine ⟨receive, ok.parsed, change, ok.parsedChange, (), ok.wellFormed, (), ?_, (), ok.known,
      (), ok.owned, classified, ok.outputs, v.feeSats, _, ⟨rfl, utxos, ok.fee⟩, (), ok.declared,
      (), ok.signatures, ok.verdict.symm⟩
    intro i input map
    have inside := (List.getElem?_eq_some_iff.mp map).1
    obtain ⟨known, _, shown⟩ := ok.known i _ input
      (List.getElem?_eq_getElem (ok.wellFormed.inputMaps ▸ inside)) map
    exact ⟨known, shown⟩

end Checks

namespace Sample

theorem derived_receive : deriveAt env (wallet .external) 0 = .ok receiveOutput := by
  decide +kernel

theorem derived_change : deriveAt env (wallet .internal) 0 = .ok changeOutput := by
  decide +kernel

theorem parsed_policy : parseChange env policy.changeDescriptor = .ok (some (wallet .internal)) :=
  parseChange_some.mpr ⟨changeDescriptor, rfl, parsed_change⟩

theorem accepted : verify env psbt receiveDescriptor policy =
    .ok ⟨true, recipientAddress, 60000, 39000, 1000, 8⟩ := by
  rw [verify, verifyIn, parsed_receive, parsed_policy]
  decide +kernel

end Sample

end Trinity
