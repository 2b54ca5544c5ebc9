import Trinity.Verify.Soundness

/-!
The recipient a verdict shows and the recipients it lets through. The text shown
is the first declared one, paid or not; the texts compared with an output are
compared without case, whatever the format of its address.
-/
namespace Trinity

open Outcome Word

/-- Base58 addresses are case-sensitive; all other addresses are bech32 or
    bech32m and are not. -/
def Script.isBase58 (s : Script) : Bool := s.isP2pkh || s.isP2sh

theorem p2wshScript_not_base58 (hash : BitVec 256) : (p2wshScript hash).isBase58 = false := by
  simp [Script.isBase58, Script.isP2pkh, Script.isP2sh, p2wshScript]

/-- The text names the address of the script, by the case rule of its format. -/
def NamesAddress (env : Primitives) (network : Network) (script : Script) (text : Str) : Prop :=
  (script.isBase58 = true → text = env.addressToString network script) ∧
    eqIgnoreAsciiCase (env.addressToString network script) text = true

instance (env : Primitives) (network : Network) (script : Script) (text : Str) :
    Decidable (NamesAddress env network script text) :=
  inferInstanceAs (Decidable (_ ∧ _))

def CountedAs (env : Primitives) (psbt : Psbt) (policy : VerifyPolicy) (isChange : Bool)
    (i : Nat) : Prop :=
  ∃ change classified c, parseChange env policy.changeDescriptor = .ok change ∧
    classifyOutputs env psbt change policy = .ok classified ∧ classified[i]? = some c ∧
    c.isChange = isChange

theorem eqIgnoreAsciiCase_iff {a b : Str} :
    eqIgnoreAsciiCase a b = true ↔ a.map toAsciiLowercase = b.map toAsciiLowercase := by
  simp [eqIgnoreAsciiCase]

section Verdict

variable {env : Primitives} {psbt : Psbt} {descriptor : Str} {policy : VerifyPolicy}
  {receive : ParsedDescriptor} {change : Option ParsedDescriptor}
  {classified : List ClassifiedOutput} {utxos : List TxOut} {v : PsbtVerdict}

theorem countedAs_iff
    (ok : Verified env psbt descriptor policy receive change classified utxos v)
    {isChange : Bool} {i : Nat} :
    CountedAs env psbt policy isChange i ↔
      ∃ c, classified[i]? = some c ∧ c.isChange = isChange := by
  constructor
  · intro counted
    obtain ⟨change', classified', c, parsed, run, here, kind⟩ := counted
    obtain rfl : change = change' := Except.ok.inj (ok.parsedChange.symm.trans parsed)
    obtain rfl : classified = classified' :=
      Except.ok.inj ((classifyOutputs_eq_ok.mpr ok.outputs).symm.trans run)
    exact ⟨c, here, kind⟩
  · intro found
    obtain ⟨c, here, kind⟩ := found
    exact ⟨change, classified, c, ok.parsedChange, classifyOutputs_eq_ok.mpr ok.outputs, here, kind⟩

theorem counted_payment_iff
    (ok : Verified env psbt descriptor policy receive change classified utxos v) {i : Nat}
    {txout : TxOut} (output : psbt.unsignedTx.output[i]? = some txout) :
    (CountedAs env psbt policy false i ↔ PaysRecipient env policy txout) ∧
      (CountedAs env psbt policy true i ↔ ¬ PaysRecipient env policy txout) := by
  obtain ⟨c, here, kind⟩ := classified_output ok.outputs output
  simp only [countedAs_iff ok, here, Option.some.injEq, exists_eq_left']
  cases kind with
  | recipient pays => simp [pays]
  | change foreign => simp [foreign]

theorem counted_of_amount
    (ok : Verified env psbt descriptor policy receive change classified utxos v)
    (paid : v.amountSats ≠ 0) :
    ∃ (i : Nat) (txout : TxOut), psbt.unsignedTx.output[i]? = some txout ∧
      CountedAs env psbt policy false i := by
  have some : ∃ c ∈ classified, c.isChange = false := by
    by_contra none
    push Not at none
    apply paid
    rw [ok.verdict]
    have empty : classified.filter (fun c => c.isChange == false) = [] := by
      rw [List.filter_eq_nil_iff]
      intro c member
      simp [none c member]
    simp only [amountsOf, empty, List.map_nil]
    rfl
  obtain ⟨c, member, kind⟩ := some
  obtain ⟨i, here⟩ := List.mem_iff_getElem?.mp member
  have lengths := ok.outputs.length_eq
  rw [List.length_zipIdx] at lengths
  have inside : i < psbt.unsignedTx.output.length :=
    lengths ▸ (List.getElem?_eq_some_iff.mp here).1
  exact ⟨i, _, List.getElem?_eq_getElem inside, (countedAs_iff ok).mpr ⟨c, here, kind⟩⟩

theorem shown_first (ok : Verified env psbt descriptor policy receive change classified utxos v)
    {r : Str} (declared : r ∈ policy.declaredRecipients) :
    policy.declaredRecipients.head? = some v.recipient := by
  rw [ok.verdict, recipientOf]
  cases list : policy.declaredRecipients with
  | nil => simp [list] at declared
  | cons first rest => rfl

theorem verified_hasAddress
    (ok : Verified env psbt descriptor policy receive change classified utxos v) {txout : TxOut}
    (member : txout ∈ psbt.unsignedTx.output) : txout.scriptPubkey.hasAddress = true := by
  rcases verified_outputs ok member with pays | ⟨_, _, _, _, _, derived, script⟩
  · exact pays.1
  · exact script ▸ deriveAt_hasAddress derived

theorem verified_base58_pays
    (ok : Verified env psbt descriptor policy receive change classified utxos v) {txout : TxOut}
    (member : txout ∈ psbt.unsignedTx.output) (base58 : txout.scriptPubkey.isBase58 = true) :
    PaysRecipient env policy txout := by
  rcases verified_outputs ok member with pays | ⟨_, _, _, _, _, derived, script⟩
  · exact pays
  · obtain ⟨_, _, _, _, _, _, _, _, _, hashed⟩ := deriveAt_spec derived
    rw [← script, hashed, p2wshScript_not_base58] at base58
    contradiction

end Verdict

namespace Sample

def otherAddress : Str :=
  bytes "bcrt1qhwamhwamhw" ++ bytes "amhwamhwamhwamhw" ++ bytes "amhwam34suxe"

def twoRecipients : VerifyPolicy :=
  { policy with declaredRecipients := [otherAddress, recipientAddress] }

def legacyPayment : Psbt :=
  { psbt with
    unsignedTx := { payment with
      output := [⟨60000, legacyScript⟩, ⟨39000, p2wshScript changeHash⟩] } }

def loweredPolicy : VerifyPolicy :=
  { policy with declaredRecipients := [legacyAddress.map toAsciiLowercase] }

theorem legacy_classified :
    classifyOutputs env legacyPayment (some (wallet .internal)) loweredPolicy =
      .ok [⟨false, 60000, legacyAddress⟩,
        ⟨true, 39000, env.addressToString .regtest (p2wshScript changeHash)⟩] := by
  decide +kernel

end Sample

/-- The recipient shown with a non-zero amount is the address of an output that was
    counted as a payment exactly if some output pays the first declared recipient. -/
theorem shown_recipient_paid_iff (env : Primitives) {psbt : Psbt} {descriptor : Str}
    {policy : VerifyPolicy} {v : PsbtVerdict}
    (accepted : verify env psbt descriptor policy = .ok v) (paid : v.amountSats ≠ 0) :
    (∃ (i : Nat) (txout : TxOut), psbt.unsignedTx.output[i]? = some txout ∧
      CountedAs env psbt policy false i ∧
      eqIgnoreAsciiCase (env.addressToString policy.network txout.scriptPubkey) v.recipient =
        true) ↔
    ∃ first ∈ policy.declaredRecipients.head?, ∃ txout ∈ psbt.unsignedTx.output,
      eqIgnoreAsciiCase (env.addressToString policy.network txout.scriptPubkey) first = true := by
  obtain ⟨receive, change, classified, utxos, ok⟩ := verify_eq_ok.mp accepted
  obtain ⟨_, _, output, counted⟩ := counted_of_amount ok paid
  obtain ⟨_, r, declared, _⟩ := (counted_payment_iff ok output).1.mp counted
  have first := shown_first ok declared
  rw [first]
  simp only [Option.mem_some_iff, exists_eq_left']
  constructor
  · rintro ⟨i, txout, output, _, same⟩
    exact ⟨txout, List.mem_of_getElem? output, same⟩
  · rintro ⟨txout, member, same⟩
    obtain ⟨i, output⟩ := List.getElem?_of_mem member
    have pays : PaysRecipient env policy txout :=
      ⟨verified_hasAddress ok member, v.recipient, List.mem_of_mem_head? first, same⟩
    exact ⟨i, txout, output, (counted_payment_iff ok output).1.mpr pays, same⟩

/-- The sample payment, with one declared recipient. -/
theorem shown_recipient_sample :
    ∃ (i : Nat) (txout : TxOut), Sample.payment.output[i]? = some txout ∧
      CountedAs Sample.env Sample.psbt Sample.policy false i ∧
      eqIgnoreAsciiCase (Sample.env.addressToString .regtest txout.scriptPubkey)
        Sample.recipientAddress = true :=
  (shown_recipient_paid_iff Sample.env Sample.accepted (by decide)).mpr (by decide)

/-- Two declared recipients, of which only the second is paid: the first is
    shown, with the amount of the second. -/
theorem shown_recipient_unpaid :
    verify Sample.env Sample.psbt Sample.receiveDescriptor Sample.twoRecipients =
      .ok ⟨true, Sample.otherAddress, 60000, 39000, 1000, 8⟩ ∧
    ∀ txout ∈ Sample.payment.output,
      eqIgnoreAsciiCase (Sample.env.addressToString .regtest txout.scriptPubkey)
        Sample.otherAddress = false := by
  have parsedChange : parseChange Sample.env Sample.twoRecipients.changeDescriptor =
      .ok (some (Sample.wallet .internal)) := Sample.parsed_policy
  constructor
  · rw [verify, verifyIn, Sample.parsed_receive, parsedChange]
    decide +kernel
  · decide

/-- Each output that is not counted as change has an address that some declared text
    names, by the case rule of its format, exactly if each base58 address among the
    outputs is declared as it is written. -/
theorem payments_named_iff (env : Primitives) {psbt : Psbt} {descriptor : Str}
    {policy : VerifyPolicy} {v : PsbtVerdict}
    (accepted : verify env psbt descriptor policy = .ok v) :
    (∀ (i : Nat) (txout : TxOut), psbt.unsignedTx.output[i]? = some txout →
      ¬ CountedAs env psbt policy true i →
        ∃ r ∈ policy.declaredRecipients, NamesAddress env policy.network txout.scriptPubkey r) ↔
    ∀ txout ∈ psbt.unsignedTx.output, txout.scriptPubkey.isBase58 = true →
      env.addressToString policy.network txout.scriptPubkey ∈ policy.declaredRecipients := by
  obtain ⟨receive, change, classified, utxos, ok⟩ := verify_eq_ok.mp accepted
  constructor
  · intro named txout member base58
    obtain ⟨i, output⟩ := List.getElem?_of_mem member
    have payment : ¬ CountedAs env psbt policy true i := by
      rw [(counted_payment_iff ok output).2, not_not]
      exact verified_base58_pays ok member base58
    obtain ⟨r, declared, exactly, _⟩ := named i txout output payment
    exact exactly base58 ▸ declared
  · intro written i txout output payment
    have pays : PaysRecipient env policy txout := by
      by_contra foreign
      exact payment ((counted_payment_iff ok output).2.mpr foreign)
    by_cases base58 : txout.scriptPubkey.isBase58 = true
    · have declared := written txout (List.mem_of_getElem? output) base58
      exact ⟨_, declared, fun _ => rfl, eqIgnoreAsciiCase_iff.mpr rfl⟩
    · obtain ⟨_, r, declared, same⟩ := pays
      exact ⟨r, declared, fun claimed => absurd claimed base58, same⟩

/-- The sample pays no base58 address. -/
theorem payments_named_sample :
    verify Sample.env Sample.psbt Sample.receiveDescriptor Sample.policy =
      .ok ⟨true, Sample.recipientAddress, 60000, 39000, 1000, 8⟩ ∧
    ∀ (i : Nat) (txout : TxOut), Sample.payment.output[i]? = some txout →
      ¬ CountedAs Sample.env Sample.psbt Sample.policy true i →
        ∃ r ∈ Sample.policy.declaredRecipients,
          NamesAddress Sample.env .regtest txout.scriptPubkey r :=
  ⟨Sample.accepted, (payments_named_iff Sample.env Sample.accepted).mpr (by decide)⟩

/-- A base58 address declared in lower case: the text names no address, and the
    output is a payment to it all the same. -/
theorem lowered_base58_accepted :
    verify Sample.env Sample.legacyPayment Sample.receiveDescriptor Sample.loweredPolicy =
      .ok ⟨true, Sample.legacyAddress.map toAsciiLowercase, 60000, 39000, 1000, 8⟩ ∧
    ¬ CountedAs Sample.env Sample.legacyPayment Sample.loweredPolicy true 0 ∧
    Sample.legacyScript.isBase58 = true ∧
    ∀ r ∈ Sample.loweredPolicy.declaredRecipients,
      ¬ NamesAddress Sample.env .regtest Sample.legacyScript r := by
  have parsedChange : parseChange Sample.env Sample.loweredPolicy.changeDescriptor =
      .ok (some (Sample.wallet .internal)) := Sample.parsed_policy
  refine ⟨?_, ?_, by decide, by decide⟩
  · rw [verify, verifyIn, Sample.parsed_receive, parsedChange]
    decide +kernel
  · intro counted
    obtain ⟨change, classified, c, parsed, run, here, kind⟩ := counted
    obtain rfl := Except.ok.inj (parsed.symm.trans parsedChange)
    obtain rfl := Except.ok.inj (run.symm.trans Sample.legacy_classified)
    obtain rfl := Option.some.inj here
    exact absurd kind (by decide)

end Trinity
