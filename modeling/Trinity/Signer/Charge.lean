import Trinity.Signer.Booking
import Trinity.Verify.Completeness

/-!
The two classifiers of outputs agree. The verifier sorts outputs into payments
and change by address and hinted search, the spend window into foreign and own
ones by a plain scan of both chains. On an accepted PSBT the figures differ by
the payments to the wallet itself, and by nothing else.
-/
namespace Trinity

open Outcome Word

section Totals

variable {env : Primitives} {receive : ParsedDescriptor} {change : Option ParsedDescriptor}
  {gap : UInt32}

theorem matchesDescriptor_total {desc : ParsedDescriptor} (script : Script)
    (derives : Derives env desc gap) : ∃ b, matchesDescriptor env script desc gap = .ok b := by
  have probes : ∀ i ∈ indicesBelow gap,
      ∃ r, mapErr SignError.verify (probe env script desc i) = .ok r := by
    intro i member
    obtain ⟨r, run⟩ := @probe_total env script desc i (derives i (mem_indicesBelow.mp member))
    exact ⟨r, mapErr_eq_ok.mpr run⟩
  obtain ⟨found, search⟩ := findSomeM?_total probes
  exact ⟨found.isSome, bind_eq_ok.mpr ⟨found, search, rfl⟩⟩

theorem belongsToWallet_total (script : Script) (derives : Derives env receive gap)
    (derivesChange : ∀ chg, change = some chg → Derives env chg gap) :
    ∃ b, belongsToWallet env script receive change gap = .ok b := by
  obtain ⟨own, first⟩ := matchesDescriptor_total script derives
  unfold belongsToWallet belongsToWalletIn
  simp only [first, bind_ok]
  cases own with
  | true => exact ⟨true, rfl⟩
  | false =>
    cases change with
    | none => exact ⟨false, rfl⟩
    | some chg => exact matchesDescriptor_total script (derivesChange chg rfl)

theorem chargeOutputs_total (derives : Derives env receive gap)
    (derivesChange : ∀ chg, change = some chg → Derives env chg gap) {outputs : List TxOut}
    {acc : UInt64 × UInt64}
    (fits : acc.1.toNat + exactSum (outputs.map TxOut.value) < UInt64.size) :
    ∃ result, outputs.foldlM (fun acc txout => do
      let sumOut ← okOr (checkedAdd acc.1 txout.value) SignError.unbalancedPsbt
      let own ← belongsToWallet env txout.scriptPubkey receive change gap
      return (sumOut, if own then acc.2 else satAdd acc.2 txout.value)) acc = .ok result := by
  induction outputs generalizing acc with
  | nil => exact ⟨acc, rfl⟩
  | cons txout rest ih =>
    rw [List.map_cons, exactSum_cons] at fits
    obtain ⟨own, asked⟩ := belongsToWallet_total txout.scriptPubkey derives derivesChange
    have word : (acc.1 + txout.value).toNat = acc.1.toNat + txout.value.toNat :=
      add_toNat_exact (by omega)
    have added : checkedAdd acc.1 txout.value = some (acc.1 + txout.value) :=
      checkedAdd_eq_some.mpr word
    obtain ⟨result, later⟩ := @ih
      (acc.1 + txout.value, if own then acc.2 else satAdd acc.2 txout.value) (by simp only; omega)
    refine ⟨result, ?_⟩
    rw [List.foldlM_cons, added]
    refine bind_eq_ok.mpr ⟨_, ?_, later⟩
    exact bind_eq_ok.mpr ⟨_, rfl, bind_eq_ok.mpr ⟨own, asked, rfl⟩⟩

theorem spendCharge_total {psbt : Psbt} {descriptor : Str} {policy : VerifyPolicy}
    {utxos : List TxOut} {fee : UInt64} (parsed : parse env descriptor = .ok receive)
    (parsedChange : parseChange env policy.changeDescriptor = .ok change)
    (derives : Derives env receive policy.gapLimit)
    (derivesChange : ∀ chg, change = some chg → Derives env chg policy.gapLimit)
    (within : FeeWithin psbt policy utxos fee) :
    ∃ charge, spendCharge env psbt descriptor policy = .ok charge := by
  have balance := within.balance
  have fits := within.fits
  have counted : chargeInputs psbt = .ok (UInt64.ofNat (exactSum (utxos.map TxOut.value))) := by
    apply foldlM_checkedAdd.mpr
    refine ⟨utxos, ?_, ?_⟩
    · have shown := within.shown
      rw [← List.zipIdx_map_fst 0 psbt.inputs] at shown
      simp only [okOr_eq_ok]
      exact List.forall₂_map_left_iff.mp shown
    · rw [UInt64.toNat_ofNat_of_lt' fits, UInt64.toNat_zero, Nat.zero_add]
  obtain ⟨⟨sumOut, foreign⟩, loop⟩ := @chargeOutputs_total env receive change policy.gapLimit
    derives derivesChange psbt.unsignedTx.output (0, 0) (by rw [UInt64.toNat_zero]; omega)
  obtain ⟨out, _⟩ := chargeOutputs_from (Nat.le_refl _) loop
  simp only [UInt64.toNat_zero, Nat.zero_add] at out
  have paid : checkedSub (UInt64.ofNat (exactSum (utxos.map TxOut.value))) sumOut = some fee := by
    rw [checkedSub_eq_some, UInt64.toNat_ofNat_of_lt' fits]
    omega
  simp only [spendChargeIn, monadLift_self, bind_eq_ok, mapErr_eq_ok]
  exact ⟨_, receive, parsed, change, parsedChange, _, counted, (sumOut, foreign), loop, fee,
    okOr_eq_ok.mpr paid, rfl⟩

end Totals

theorem exactSum_filter_cover {outputs : List TxOut} {p q : TxOut → Prop} [DecidablePred p]
    [DecidablePred q] (cover : ∀ o ∈ outputs, p o ∨ q o) :
    exactSum ((outputs.filter fun o => p o).map TxOut.value) +
        exactSum ((outputs.filter fun o => q o).map TxOut.value) =
      exactSum (outputs.map TxOut.value) +
        exactSum ((outputs.filter fun o => p o ∧ q o).map TxOut.value) := by
  induction outputs with
  | nil => rfl
  | cons o rest ih =>
    obtain ⟨here, later⟩ := List.forall_mem_cons.mp cover
    have rest := ih later
    by_cases first : p o
    · by_cases second : q o
      · simp only [List.filter_cons, first, second, and_self, decide_true, ↓reduceIte,
          List.map_cons, exactSum_cons]
        omega
      · simp only [List.filter_cons, first, second, and_false, decide_true, decide_false,
          ↓reduceIte, Bool.false_eq_true, List.map_cons, exactSum_cons]
        omega
    · have second : q o := here.resolve_left first
      simp only [List.filter_cons, first, second, false_and, decide_true, decide_false,
        ↓reduceIte, Bool.false_eq_true, List.map_cons, exactSum_cons]
      omega

/-- Exact value of the outputs to declared recipients that belong to the wallet
    itself. -/
def selfTransfers (env : Primitives) (receive : ParsedDescriptor)
    (change : Option ParsedDescriptor) (policy : VerifyPolicy) (outputs : List TxOut) : Nat :=
  exactSum ((outputs.filter fun o => PaysRecipient env policy o ∧
    Owned env receive change policy.gapLimit o.scriptPubkey).map TxOut.value)

theorem verified_amount {env : Primitives} {psbt : Psbt} {descriptor : Str} {policy : VerifyPolicy}
    {receive : ParsedDescriptor} {change : Option ParsedDescriptor}
    {classified : List ClassifiedOutput} {utxos : List TxOut} {v : PsbtVerdict}
    (ok : Verified env psbt descriptor policy receive change classified utxos v) :
    v.amountSats.toNat = exactSum ((psbt.unsignedTx.output.filter fun o =>
      PaysRecipient env policy o).map TxOut.value) := by
  rw [(verified_sums ok).1, classified_payments ok.outputs]

/-- On an accepted PSBT the charge and the verdict differ exactly by the payments
    to the wallet itself. -/
theorem charge_matches_verdict (env : Primitives) (compressed : CompressedPoints env) {psbt : Psbt}
    {descriptor : Str} {policy : VerifyPolicy} {v : PsbtVerdict}
    (derives : ∀ desc, parse env descriptor = .ok desc ∨
        parseChange env policy.changeDescriptor = .ok (some desc) →
      ∀ key ∈ desc.keys, DerivesChildren env key policy.gapLimit)
    (accepted : verify env psbt descriptor policy = .ok v) :
    ∃ receive change charge, parse env descriptor = .ok receive ∧
      parseChange env policy.changeDescriptor = .ok change ∧
      spendCharge env psbt descriptor policy = .ok charge ∧
      charge.toNat + selfTransfers env receive change policy psbt.unsignedTx.output =
        v.amountSats.toNat + v.feeSats.toNat := by
  obtain ⟨receive, change, classified, utxos, ok⟩ := verify_eq_ok.mp accepted
  have derivesReceive : Derives env receive policy.gapLimit :=
    derives_of_children compressed (derives receive (.inl ok.parsed))
  have derivesChange : ∀ chg, change = some chg → Derives env chg policy.gapLimit := by
    rintro chg rfl
    exact derives_of_children compressed (derives chg (.inr ok.parsedChange))
  obtain ⟨charge, charged⟩ :=
    spendCharge_total ok.parsed ok.parsedChange derivesReceive derivesChange ok.fee
  refine ⟨receive, change, charge, ok.parsed, ok.parsedChange, charged, ?_⟩
  obtain ⟨utxos', shown, exact_⟩ := spendCharge_exact charged ok.parsed ok.parsedChange
  -- Both runs read the same spent outputs.
  have spent := spentValue_of_known ok.wellFormed.inputMaps ok.known ok.fee.shown
  have spent' := spentValue_of_known ok.wellFormed.inputMaps ok.known shown
  have balance := ok.fee.balance
  have amount := verified_amount ok
  -- What the verifier does not count as a payment is change, hence the wallet's own.
  have cover : ∀ o ∈ psbt.unsignedTx.output, PaysRecipient env policy o ∨
      Owned env receive change policy.gapLimit o.scriptPubkey := by
    intro o member
    rcases verified_outputs ok member with pays | ⟨chg, described, hit⟩
    · exact .inl pays
    · exact .inr ⟨chg, .inr described, hit⟩
  have both := exactSum_filter_cover cover
  unfold ownedValue at exact_
  unfold selfTransfers
  omega

namespace Sample

theorem derives_below : ∀ desc, parse env receiveDescriptor = .ok desc ∨
      parseChange env policy.changeDescriptor = .ok (some desc) →
    ∀ key ∈ desc.keys, DerivesChildren env key policy.gapLimit := by
  rintro desc (parsed | parsed)
  · obtain rfl : wallet .external = desc := Except.ok.inj (parsed_receive ▸ parsed)
    exact derives_children derived_receive
  · obtain ⟨s, described, parsed⟩ := parseChange_some.mp parsed
    obtain rfl : changeDescriptor = s := Option.some.inj described
    obtain rfl : wallet .internal = desc := Except.ok.inj (parsed_change ▸ parsed)
    exact derives_children derived_change

end Sample

/-- The sample payment of 60000 with a fee of 1000 and no self-transfer. -/
theorem charge_matches_verdict_sample :
    ∃ receive change charge, parse Sample.env Sample.receiveDescriptor = .ok receive ∧
      parseChange Sample.env Sample.policy.changeDescriptor = .ok change ∧
      spendCharge Sample.env Sample.psbt Sample.receiveDescriptor Sample.policy = .ok charge ∧
      charge.toNat + selfTransfers Sample.env receive change Sample.policy
        Sample.psbt.unsignedTx.output = (60000 : UInt64).toNat + (1000 : UInt64).toNat :=
  charge_matches_verdict Sample.env Sample.compressed Sample.derives_below Sample.accepted

end Trinity
