import Trinity.Verify.Soundness
import Trinity.Signer.Retention

/-!
What `sign_ab` asks before each key is used, and what it leaves in the ledger.
The charge is computed on unverified data; the verifier, asked later about the
same PSBT, ties that data to the watch-only records.
-/
namespace Trinity

open Outcome Word SlidingLedger SlidingLedger.Ledger

section Charge

variable {env : Primitives}

theorem matchesDescriptor_iff {script : Script} {desc : ParsedDescriptor} {gap : UInt32} {b : Bool}
    (run : matchesDescriptor env script desc gap = .ok b) :
    b = true ↔ ∃ i, i < gap ∧ DerivedAt env desc script i := by
  simp only [matchesDescriptorIn, Marked.mapErr_outcome, bind_eq_ok, pure_ok, Except.ok.injEq]
    at run
  obtain ⟨found, search, rfl⟩ := run
  cases found with
  | some i =>
    obtain ⟨j, member, hit⟩ := findSomeM?_some search
    obtain ⟨_, derived⟩ := probe_some.mp (mapErr_eq_ok.mp hit)
    simp only [Option.isSome_some, true_iff]
    exact ⟨j, mem_indicesBelow.mp member, derived⟩
  | none =>
    simp only [Option.isSome_none, Bool.false_eq_true, false_iff]
    rintro ⟨i, below, derived⟩
    have miss := mapErr_eq_ok.mp (findSomeM?_none.mp search i (mem_indicesBelow.mpr below))
    have hit := miss.symm.trans (probe_some.mpr ⟨rfl, derived⟩)
    simp at hit

theorem belongsToWallet_iff {script : Script} {receive : ParsedDescriptor}
    {change : Option ParsedDescriptor} {gap : UInt32} {b : Bool}
    (run : belongsToWallet env script receive change gap = .ok b) :
    b = true ↔ Owned env receive change gap script := by
  obtain ⟨own, first, rest⟩ := bind_eq_ok.mp run
  have here := matchesDescriptor_iff first
  cases own with
  | true =>
    simp only [↓reduceIte, pure_ok, Except.ok.injEq] at rest
    subst rest
    simp only [true_iff] at here ⊢
    exact ⟨receive, .inl rfl, here⟩
  | false =>
    simp only [Bool.false_eq_true, false_iff] at here
    simp only [Bool.false_eq_true, ↓reduceIte] at rest
    cases change with
    | none =>
      simp only [pure_ok, Except.ok.injEq] at rest
      subst rest
      simp only [Bool.false_eq_true, false_iff]
      rintro ⟨desc, rfl | none, hit⟩
      · exact here hit
      · contradiction
    | some chg =>
      rw [matchesDescriptor_iff rest]
      constructor
      · intro hit
        exact ⟨chg, .inr rfl, hit⟩
      · rintro ⟨desc, rfl | same, hit⟩
        · exact absurd hit here
        · exact Option.some.inj same ▸ hit

def ownedValue (env : Primitives) (receive : ParsedDescriptor) (change : Option ParsedDescriptor)
    (gap : UInt32) (outputs : List TxOut) : Nat :=
  exactSum ((outputs.filter fun o => Owned env receive change gap o.scriptPubkey).map TxOut.value)

theorem chargeOutputs_from {receive : ParsedDescriptor} {change : Option ParsedDescriptor}
    {gap : UInt32} {outputs : List TxOut} {acc result : UInt64 × UInt64}
    (smaller : acc.2.toNat ≤ acc.1.toNat)
    (run : outputs.foldlM (fun acc txout => do
      let sumOut ← okOr (checkedAdd acc.1 txout.value) SignError.unbalancedPsbt
      let own ← belongsToWallet env txout.scriptPubkey receive change gap
      return (sumOut, if own then acc.2 else satAdd acc.2 txout.value)) acc = .ok result) :
    result.1.toNat = acc.1.toNat + exactSum (outputs.map TxOut.value) ∧
      result.2.toNat + ownedValue env receive change gap outputs =
        acc.2.toNat + exactSum (outputs.map TxOut.value) := by
  induction outputs generalizing acc with
  | nil =>
    simp only [List.foldlM_nil, pure_ok, Except.ok.injEq] at run
    simp [ownedValue, run]
  | cons txout rest ih =>
    simp only [List.foldlM_cons, bind_eq_ok, okOr_eq_ok, checkedAdd_eq_some, pure_ok,
      Except.ok.injEq] at run
    obtain ⟨next, ⟨sum, added, own, asked, rfl⟩, later⟩ := run
    have word := toNat_lt_size sum
    have mine := belongsToWallet_iff asked
    unfold ownedValue at ih ⊢
    cases own with
    | true =>
      have owned := mine.mp rfl
      obtain ⟨total, foreign⟩ := ih (by simp only [↓reduceIte]; omega) later
      simp only [↓reduceIte] at total foreign
      simp only [List.map_cons, exactSum_cons, List.filter_cons, owned, decide_true, ↓reduceIte]
      omega
    | false =>
      have other : ¬ Owned env receive change gap txout.scriptPubkey := by
        intro owned
        exact absurd (mine.mpr owned) (by simp)
      have added' := satAdd_toNat acc.2 txout.value
      simp only [Bool.false_eq_true, ↓reduceIte] at later
      obtain ⟨total, foreign⟩ := ih (by simp only; omega) later
      simp only at total foreign
      simp only [List.map_cons, exactSum_cons, List.filter_cons, other, decide_false,
        Bool.false_eq_true, ↓reduceIte]
      omega

theorem chargeInputs_eq_ok {psbt : Psbt} {sum : UInt64} (run : chargeInputs psbt = .ok sum) :
    ∃ utxos, List.Forall₂ (fun input utxo => input.witnessUtxo = some utxo) psbt.inputs utxos ∧
      sum.toNat = exactSum (utxos.map TxOut.value) := by
  obtain ⟨utxos, each, total⟩ := foldlM_checkedAdd.mp run
  refine ⟨utxos, ?_, by simpa using total⟩
  simp only [okOr_eq_ok] at each
  rw [← List.zipIdx_map_fst 0 psbt.inputs]
  exact List.forall₂_map_left_iff.mpr each

theorem spendCharge_exact {psbt : Psbt} {descriptor : Str} {policy : VerifyPolicy}
    {charge : UInt64} {receive : ParsedDescriptor} {change : Option ParsedDescriptor}
    (charged : spendCharge env psbt descriptor policy = .ok charge)
    (parsed : parse env descriptor = .ok receive)
    (parsedChange : parseChange env policy.changeDescriptor = .ok change) :
    ∃ utxos, List.Forall₂ (fun input utxo => input.witnessUtxo = some utxo) psbt.inputs utxos ∧
      charge.toNat + ownedValue env receive change policy.gapLimit psbt.unsignedTx.output =
        exactSum (utxos.map TxOut.value) := by
  simp only [spendChargeIn, monadLift_self, bind_eq_ok, mapErr_eq_ok, parsed, parsedChange,
    Except.ok.injEq, okOr_eq_ok, checkedSub_eq_some, pure_ok, Prod.exists] at charged
  obtain ⟨_, rfl, _, rfl, sumIn, counted, sumOut, foreign, loop, fee, balance, rfl⟩ := charged
  obtain ⟨utxos, shown, total⟩ := chargeInputs_eq_ok counted
  obtain ⟨out, kept⟩ := chargeOutputs_from (Nat.le_refl _) loop
  have word := toNat_lt_size sumIn
  refine ⟨utxos, shown, ?_⟩
  rw [satAdd_toNat]
  simp only [UInt64.toNat_zero] at out kept
  omega

end Charge

section Gates

variable {env : Primitives} {policy : SpendPolicy} {call : SignCall} {c : WindowCounter}

/-- A key is used only on an authorised spend, A on the PSBT itself once it is
    verified, B on a PSBT that passed the gate. -/
theorem calls_gated (env : Primitives) (policy : SpendPolicy) (call : SignCall)
    (c : WindowCounter) :
    (∀ p ∈ (call.run env policy c).callsA, p = call.request.psbt ∧
      (∃ a, (call.request.authorize env policy c).1 = .ok a) ∧
      ∃ v, verify env p call.request.descriptor call.request.verify = .ok v) ∧
    ∀ p ∈ (call.run env policy c).callsB,
      (∃ a, (call.request.authorize env policy c).1 = .ok a) ∧
      gateB env p (env.computeTxid call.request.psbt.unsignedTx) call.request.descriptor
        call.request.verify = .ok () := by
  unfold SignCall.run SpendRequest.authorize
  rcases authorized : c.authorize env policy call.request.psbt call.request.descriptor
    call.request.verify call.request.balance call.request.observation with ⟨decision, live⟩
  rcases @signAb_cases env _ _ _ ⟨policy, call.request.balance, call.request.observation⟩ c
      call.signerA call.signerB _ _ authorized with
    ⟨e, _, same⟩ | ⟨a, e, callsA, approved, stepA, same⟩ |
    ⟨a, afterA, callsA, resultB, callsB, approved, stepA, stepB, same⟩
  · rw [same]
    exact ⟨by simp, by simp⟩
  · rw [same]
    refine ⟨?_, by simp⟩
    intro p used
    obtain ⟨first, accepted⟩ := signA_calls stepA p used
    exact ⟨first, ⟨a, approved⟩, accepted⟩
  · rw [same]
    constructor
    · intro p used
      obtain ⟨first, accepted⟩ := signA_calls stepA p used
      exact ⟨first, ⟨a, approved⟩, accepted⟩
    · intro p used
      exact ⟨⟨a, approved⟩, signB_calls stepB p used⟩

theorem authorize_sublist (env : Primitives) (policy : SpendPolicy) (request : SpendRequest)
    (c : WindowCounter) :
    (request.authorize env policy c).2.state.bookings.Sublist c.state.bookings := by
  unfold SpendRequest.authorize WindowCounter.authorize
  split
  · exact List.Sublist.refl _
  · simp only [WindowCounter.live, CoreState.prune, advance_bookings]
    exact List.filter_sublist

theorem booked_covers {signed : Psbt} (reachable : Reachable env c)
    (success : (call.run env policy c).result = .ok signed) :
    ∃ a receive change, (call.request.authorize env policy c).1 = .ok a ∧
      a.inputSet.elems.toFinset =
        (call.request.psbt.unsignedTx.input.map TxIn.previousOutput).toFinset ∧
      parse env call.request.descriptor = .ok receive ∧
      parseChange env call.request.verify.changeDescriptor = .ok change ∧
      ∃ b ∈ (call.run env policy c).counter.state.bookings,
        b.inputs.toFinset = a.inputSet.elems.toFinset ∧
        spentValue call.request.verify call.request.psbt.unsignedTx ≤
          b.amountSat.toNat + ownedValue env receive change call.request.verify.gapLimit
            call.request.psbt.unsignedTx.output := by
  obtain ⟨L, ref⟩ := reachable_refines reachable
  obtain ⟨a, _, v, valid, approved, accepted, _, _, _, booked⟩ := signAb_eq_ok success
  have refLive := refines_live ref valid call.request.observation
  obtain ⟨charged, collected, room, _⟩ := approve_eq_ok refLive approved
  obtain ⟨receive, change, classified, _, ok⟩ := verify_eq_ok.mp accepted
  obtain ⟨utxos, shown, exact_⟩ := spendCharge_exact charged ok.parsed ok.parsedChange
  have spent := spentValue_of_known ok.wellFormed.inputMaps ok.known shown
  have committed : Refines ((c.live policy call.request.observation).commit a).state _ :=
    refines_commit refLive a
  obtain ⟨b, there, key, enough⟩ := books_of_holds committed (commit_holds refLive room).2
  refine ⟨a, receive, change, ?_, ?_, ok.parsed, ok.parsedChange, b, ?_, key, ?_⟩
  · rw [SpendRequest.authorize, authorize_of_valid valid]
    exact approved
  · simp only [inputSet, bind_eq_ok, pure_ok, Except.ok.injEq] at collected
    obtain ⟨_, _, _, _, made⟩ := collected
    rw [← made, OrderedSet.collect_toFinset]
  · rw [SignCall.run, booked]
    exact there
  · have := UInt64.le_iff_toNat_le.mp enough
    omega

end Gates

/-- For arbitrary signers: A is used only on the authorised and verified PSBT, B
    only on a verified PSBT of the same transaction with A's signatures checked;
    a successful call leaves a booking for exactly the authorised inputs that
    covers what leaves the wallet; a failed call adds and raises nothing. -/
theorem signAb_gated_and_booked (env : Primitives) (policy : SpendPolicy) (call : SignCall)
    {c : WindowCounter} (reachable : Reachable env c) :
    (∀ p ∈ (call.run env policy c).callsA, p = call.request.psbt ∧
      (∃ a, (call.request.authorize env policy c).1 = .ok a) ∧
      ∃ v, verify env p call.request.descriptor call.request.verify = .ok v) ∧
    (∀ p ∈ (call.run env policy c).callsB,
      (∃ a, (call.request.authorize env policy c).1 = .ok a) ∧
      (∃ v, verify env p call.request.descriptor call.request.verify = .ok v) ∧
      env.computeTxid p.unsignedTx = env.computeTxid call.request.psbt.unsignedTx ∧
      checkKeyASignatures env p call.request.descriptor = .ok ()) ∧
    (∀ signed, (call.run env policy c).result = .ok signed →
      ∃ a receive change, (call.request.authorize env policy c).1 = .ok a ∧
        a.inputSet.elems.toFinset =
          (call.request.psbt.unsignedTx.input.map TxIn.previousOutput).toFinset ∧
        parse env call.request.descriptor = .ok receive ∧
        parseChange env call.request.verify.changeDescriptor = .ok change ∧
        ∃ b ∈ (call.run env policy c).counter.state.bookings,
          b.inputs.toFinset = a.inputSet.elems.toFinset ∧
          spentValue call.request.verify call.request.psbt.unsignedTx ≤
            b.amountSat.toNat + ownedValue env receive change call.request.verify.gapLimit
              call.request.psbt.unsignedTx.output) ∧
    ∀ e, (call.run env policy c).result = .error e →
      (call.run env policy c).counter.state.bookings.Sublist c.state.bookings := by
  obtain ⟨gatedA, gatedB⟩ := calls_gated env policy call c
  refine ⟨gatedA, ?_, ?_, ?_⟩
  · intro p used
    obtain ⟨approved, passed⟩ := gatedB p used
    exact ⟨approved, gateB_eq_ok.mp passed⟩
  · intro signed success
    exact booked_covers reachable success
  · intro e failed
    rw [SignCall.run, signAb_error failed]
    exact authorize_sublist env policy call.request c

/-- The sample payment: both keys are used, and the booking of 61000 covers the
    100000 spent less the 39000 of change. -/
theorem signAb_gated_and_booked_sample :
    ((Sample.call 0).run Sample.env Sample.spendPolicy Sample.unlocked).callsA = [Sample.psbt] ∧
    ∃ b ∈ ((Sample.call 0).run Sample.env Sample.spendPolicy
        Sample.unlocked).counter.state.bookings,
      b.inputs.toFinset = {Sample.coin} ∧ 61000 ≤ b.amountSat.toNat := by
  have run := Sample.call_run 0 Sample.unlocked (by decide) (by decide)
    (by decide)
  obtain ⟨a, receive, change, _, set, parsed, parsedChange, b, there, key, covers⟩ :=
    (signAb_gated_and_booked Sample.env Sample.spendPolicy (Sample.call 0)
      Sample.unlocked_reachable).2.2.1 _ (congrArg SignAbRun.result run)
  have external := Except.ok.inj (parsed.symm.trans Sample.parsed_receive)
  have internal := Except.ok.inj
    (parsedChange.symm.trans (parseChange_some.mpr ⟨_, rfl, Sample.parsed_change⟩))
  subst external internal
  have spent : spentValue (Sample.call 0).request.verify (Sample.call 0).request.psbt.unsignedTx =
      100000 := by decide
  have back : ownedValue Sample.env (Sample.wallet .external) (some (Sample.wallet .internal))
      (Sample.call 0).request.verify.gapLimit (Sample.call 0).request.psbt.unsignedTx.output =
      39000 := by decide +kernel
  exact ⟨congrArg SignAbRun.callsA run, b, there, key.trans set, by omega⟩

end Trinity
