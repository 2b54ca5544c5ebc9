import Trinity.Verify.ChangeBinding

/-!
Completeness of the verifier. No check rejects a payment that is built as the
wallet builds it, whatever the order of inputs and outputs, the indices used and
the derivation maps of the inputs.
-/
namespace Trinity

open Outcome Word

/-- Outside libraries serialize valid points in compressed form. -/
def CompressedPoints (env : Primitives) : Prop :=
  ∀ pk, env.publicKeyValid pk = true → keyTag pk = 2 ∨ keyTag pk = 3

def DerivesChildren (env : Primitives) (key : KeyExpr) (gap : UInt32) : Prop :=
  ∀ i, i < gap → ∃ child, deriveChild env key i = .ok child

theorem deriveChild_valid {env : Primitives} {key : KeyExpr} {i : UInt32} {child : DerivedChild}
    (derived : deriveChild env key i = .ok child) : env.publicKeyValid child.publicKey = true := by
  simp only [deriveChild, bind_eq_ok, rejectIf_eq_ok, Decidable.not_not] at derived
  obtain ⟨_, _, _, _, _, _, _, _, _, valid, made⟩ := derived
  simp only [pure_ok, Except.ok.injEq] at made
  rw [← made]
  exact valid

theorem witnessScript2of3_total {keys : List SecpPublicKey} (three : keys.length = 3)
    (tags : ∀ pk ∈ keys, keyTag pk = 2 ∨ keyTag pk = 3) :
    ∃ script, witnessScript2of3 keys = .ok script := by
  simp only [witnessScript2of3, buildCheckmultisigScript, bind_eq_ok, rejectIf_eq_ok]
  refine ⟨_, (), ?_, (), ?_, rfl⟩
  · rw [three]
    decide
  · apply forM_zipIdx_eq_ok.mpr
    intro i pk member
    rw [rejectIf_eq_ok]
    rcases tags pk (List.mem_of_getElem? member) with even | odd
    · exact fun bad => bad.1 even
    · exact fun bad => bad.2 odd

theorem derives_of_children {env : Primitives} (compressed : CompressedPoints env)
    {desc : ParsedDescriptor} {gap : UInt32}
    (children : ∀ key ∈ desc.keys, DerivesChildren env key gap) : Derives env desc gap := by
  intro i below
  simp only [ParsedDescriptor.keys, List.forall_mem_cons] at children
  obtain ⟨c0, first⟩ := children.1 i below
  obtain ⟨c1, second⟩ := children.2.1 i below
  obtain ⟨c2, third⟩ := children.2.2.1 i below
  obtain ⟨script, built⟩ := @witnessScript2of3_total
    (sortPubkeys [c0.publicKey, c1.publicKey, c2.publicKey]) (List.length_insertionSort _ _) <| by
      simp only [mem_sortPubkeys, List.forall_mem_cons]
      exact ⟨compressed _ (deriveChild_valid first), compressed _ (deriveChild_valid second),
        compressed _ (deriveChild_valid third), by simp⟩
  simp only [deriveAt, bind_eq_ok]
  exact ⟨_, c0, first, c1, second, c2, third, script, built, rfl⟩

/-- The derivation map has exactly one entry for each key expression: its child
    key with its fingerprint and its origin followed by `1` and the index. -/
def HonestEntries (env : Primitives) (chg : ParsedDescriptor) (index : UInt32)
    (output : Output) : Prop :=
  ∃ expected, List.Forall₂ (fun (key : KeyExpr) e => ∃ child origin,
      deriveChild env key index = .ok child ∧ key.Origin origin ∧
      e = (child.publicKey, key.fingerprint, origin ++ [.normal 1, .normal index]))
    chg.keys expected ∧ output.bip32Derivation.entries.Perm expected

theorem hintFrom_agreeing {index : UInt32} {sources : List KeySource}
    (agree : ∀ src ∈ sources, src.2.getLast? = some (.normal index)) :
    hintFrom (some index) sources = some index := by
  induction sources with
  | nil => rfl
  | cons src rest ih =>
    obtain ⟨head, tail⟩ := List.forall_mem_cons.mp agree
    obtain ⟨fp, path⟩ := src
    simp only [hintFrom, head, ne_eq, not_true_eq_false, ↓reduceIte]
    exact ih tail

theorem bip32IndexHint_agreeing {index : UInt32} {map : OrderedMap SecpPublicKey KeySource}
    (nonempty : map.entries ≠ [])
    (agree : ∀ e ∈ map.entries, e.2.2.getLast? = some (.normal index)) :
    bip32IndexHint map = some index := by
  unfold bip32IndexHint OrderedMap.values
  cases entries : map.entries with
  | nil => contradiction
  | cons e rest =>
    rw [entries] at agree
    obtain ⟨head, tail⟩ := List.forall_mem_cons.mp agree
    obtain ⟨pk, fp, path⟩ := e
    simp only [List.map_cons, hintFrom, head]
    apply hintFrom_agreeing
    intro src member
    obtain ⟨e, there, rfl⟩ := List.mem_map.mp member
    exact tail e there

theorem findIndexMatching_hinted {env : Primitives} {script : Script} {desc : ParsedDescriptor}
    {gap index : UInt32} (below : index < gap) (derived : DerivedAt env desc script index) :
    findIndexMatching env script desc gap (some index) = .ok (some index) := by
  refine bind_eq_ok.mpr ⟨some index, ?_, rfl⟩
  rw [probeHintIn, if_pos below]
  exact probe_some.mpr ⟨rfl, derived⟩

theorem keyExprForFingerprint_self {desc : ParsedDescriptor}
    (distinct : (desc.keys.map KeyExpr.fingerprint).Nodup) {key : KeyExpr}
    (member : key ∈ desc.keys) : keyExprForFingerprint desc key.fingerprint = some key := by
  cases found : keyExprForFingerprint desc key.fingerprint with
  | none =>
    have := List.find?_eq_none.mp found key member
    simp at this
  | some other =>
    obtain ⟨there, same⟩ := keyExprForFingerprint_some found
    rw [List.inj_on_of_nodup_map distinct there member same]

theorem derivationBound_of_honest {env : Primitives} {chg : ParsedDescriptor} {index : UInt32}
    {derived : DerivedOutput} {output : Output}
    (distinct : (chg.keys.map KeyExpr.fingerprint).Nodup)
    (derives : deriveAt env chg index = .ok derived)
    (honest : HonestEntries env chg index output) : DerivationBound chg index derived output := by
  obtain ⟨expected, each, perm⟩ := honest
  obtain ⟨c0, c1, c2, first, second, third, children, _⟩ := deriveAt_spec derives
  have keys : chg.keys = [chg.key0, chg.key1, chg.key2] := rfl
  rw [keys] at each distinct
  rcases each with _ | ⟨⟨_, o0, first', w0, rfl⟩, _ | ⟨⟨_, o1, second', w1, rfl⟩,
    _ | ⟨⟨_, o2, third', w2, rfl⟩, _ | _⟩⟩⟩
  rw [first, Except.ok.injEq] at first'
  rw [second, Except.ok.injEq] at second'
  rw [third, Except.ok.injEq] at third'
  subst first' second' third'
  refine ⟨perm.length_eq, (perm.map _).nodup_iff.mpr distinct, ?_, ?_⟩
  · intro e member
    have known : ∀ key ∈ chg.keys, keyExprForFingerprint chg key.fingerprint = some key :=
      fun key there => keyExprForFingerprint_self distinct there
    rw [keys] at known
    simp only [List.forall_mem_cons] at known
    have cases := perm.mem_iff.mp member
    simp only [List.mem_cons, List.not_mem_nil, or_false] at cases
    rcases cases with rfl | rfl | rfl
    · exact ⟨chg.key0, known.1, o0, w0, rfl⟩
    · exact ⟨chg.key1, known.2.1, o1, w1, rfl⟩
    · exact ⟨chg.key2, known.2.2.1, o2, w2, rfl⟩
  · rw [children]
    exact List.toFinset_eq_of_perm _ _ (perm.map Prod.fst)

theorem honest_last {env : Primitives} {chg : ParsedDescriptor} {index : UInt32} {output : Output}
    (honest : HonestEntries env chg index output) :
    output.bip32Derivation.entries ≠ [] ∧
      ∀ e ∈ output.bip32Derivation.entries, e.2.2.getLast? = some (.normal index) := by
  obtain ⟨expected, each, perm⟩ := honest
  constructor
  · intro none
    rw [none, List.nil_perm] at perm
    subst perm
    cases each
  · intro e member
    obtain ⟨n, at_⟩ := List.mem_iff_getElem?.mp (perm.mem_iff.mp member)
    obtain ⟨inside, rfl⟩ := List.getElem?_eq_some_iff.mp at_
    obtain ⟨child, origin, _, _, made⟩ := each.get (each.length_eq ▸ inside) inside
    rw [List.get_eq_getElem] at made
    rw [made]
    simp

def feeOf (policy : VerifyPolicy) (tx : Transaction) : Nat :=
  spentValue policy tx - exactSum (tx.output.map TxOut.value)

structure Honest (env : Primitives) (psbt : Psbt) (policy : VerifyPolicy)
    (receive : ParsedDescriptor) (change : Option ParsedDescriptor) : Prop where
  wellFormed : WellFormed psbt
  inputs : ∀ (i : Nat) txin input, psbt.unsignedTx.input[i]? = some txin →
    psbt.inputs[i]? = some input → ∃ known, Spends policy txin input known ∧
      Owned env receive change policy.gapLimit known.scriptPubkey
  outputs : ∀ (n : Nat) txout output, psbt.unsignedTx.output[n]? = some txout →
    psbt.outputs[n]? = some output → PaysRecipient env policy txout ∨
      ∃ chg index, change = some chg ∧ index < policy.gapLimit ∧
        DerivedAt env chg txout.scriptPubkey index ∧ HonestEntries env chg index output
  fits : spentValue policy psbt.unsignedTx < UInt64.size
  payments : exactSum ((psbt.unsignedTx.output.filter fun txout =>
    PaysRecipient env policy txout).map TxOut.value) = policy.declaredAmountSats.toNat
  positive : 0 < feeOf policy psbt.unsignedTx
  absolute : feeOf policy psbt.unsignedTx ≤ policy.maxAbsoluteFee.toNat
  pinned : ∀ fee, policy.declaredFeeSats = some fee → feeOf policy psbt.unsignedTx = fee.toNat
  rate : (feeOf policy psbt.unsignedTx + (psbt.unsignedTx.vsize - 1)) / psbt.unsignedTx.vsize ≤
    policy.maxFeerate.toNat
  signatures : ∀ input ∈ psbt.inputs, PlainSignatures input

theorem honest_classified {env : Primitives} {psbt : Psbt} {policy : VerifyPolicy}
    {receive : ParsedDescriptor} {change : Option ParsedDescriptor}
    (honest : Honest env psbt policy receive change)
    (distinct : ∀ chg, change = some chg → (chg.keys.map KeyExpr.fingerprint).Nodup)
    (valid : ∀ chg, change = some chg →
      ∀ key ∈ chg.keys, validateOriginPath key.originPath = .ok ())
    {n : Nat} {txout : TxOut} (paid : psbt.unsignedTx.output[n]? = some txout) :
    ∃ c, Classified env psbt change policy n txout c := by
  have inside : n < psbt.outputs.length :=
    honest.wellFormed.outputMaps ▸ (List.getElem?_eq_some_iff.mp paid).1
  have map := List.getElem?_eq_getElem inside
  by_cases pays : PaysRecipient env policy txout
  · exact ⟨_, .recipient pays⟩
  · rcases honest.outputs n txout _ paid map with recipient | back
    · exact absurd recipient pays
    · obtain ⟨chg, index, described, below, derived, entries⟩ := back
      obtain ⟨nonempty, agree⟩ := honest_last entries
      have found : findIndexMatching env txout.scriptPubkey chg policy.gapLimit
          (bip32IndexHint psbt.outputs[n].bip32Derivation) = .ok (some index) := by
        rw [bip32IndexHint_agreeing nonempty agree]
        exact findIndexMatching_hinted below derived
      obtain ⟨out, derives, _⟩ := derived
      have bound : checkV4Change env psbt.outputs[n] chg index = .ok () :=
        (checkV4Change_eq_ok (valid chg described)).mpr
          ⟨out, derives, derivationBound_of_honest (distinct chg described) derives entries⟩
      exact ⟨_, .change pays described map found bound⟩

theorem forall₂_total {α β : Type} {R : α → β → Prop} {xs : List α}
    (total : ∀ x ∈ xs, ∃ y, R x y) : ∃ ys, List.Forall₂ R xs ys := by
  induction xs with
  | nil => exact ⟨[], .nil⟩
  | cons x xs ih =>
    obtain ⟨head, tail⟩ := List.forall_mem_cons.mp total
    obtain ⟨y, here⟩ := head
    obtain ⟨ys, later⟩ := ih tail
    exact ⟨y :: ys, .cons here later⟩

theorem classified_payments {env : Primitives} {psbt : Psbt} {change : Option ParsedDescriptor}
    {policy : VerifyPolicy} {outputs : List TxOut} {classified : List ClassifiedOutput}
    {start : Nat}
    (each : List.Forall₂ (fun (x : TxOut × Nat) c => Classified env psbt change policy x.2 x.1 c)
      (outputs.zipIdx start) classified) :
    amountsOf classified false =
      (outputs.filter fun txout => PaysRecipient env policy txout).map TxOut.value := by
  unfold amountsOf
  induction outputs generalizing classified start with
  | nil =>
    cases each
    rfl
  | cons txout rest ih =>
    rw [List.zipIdx_cons] at each
    obtain ⟨c, cs, here, later, rfl⟩ := List.forall₂_cons_left_iff.mp each
    cases here with
    | recipient pays => simpa [pays] using ih later
    | change foreign => simpa [foreign] using ih later

theorem known_utxos {psbt : Psbt} {policy : VerifyPolicy}
    (lengths : psbt.inputs.length = psbt.unsignedTx.input.length)
    (known : ∀ (i : Nat) txin input, psbt.unsignedTx.input[i]? = some txin →
      psbt.inputs[i]? = some input → ∃ known, Spends policy txin input known) :
    ∃ utxos, List.Forall₂ (fun input utxo => input.witnessUtxo = some utxo) psbt.inputs utxos := by
  apply forall₂_total
  intro input member
  obtain ⟨i, map⟩ := List.mem_iff_getElem?.mp member
  have inside := (List.getElem?_eq_some_iff.mp map).1
  obtain ⟨utxo, _, shown⟩ := known i _ input (List.getElem?_eq_getElem (lengths ▸ inside)) map
  exact ⟨utxo, shown⟩

theorem honest_fee {env : Primitives} {psbt : Psbt} {policy : VerifyPolicy}
    {receive : ParsedDescriptor} {change : Option ParsedDescriptor} {utxos : List TxOut}
    (honest : Honest env psbt policy receive change)
    (shown : List.Forall₂ (fun input utxo => input.witnessUtxo = some utxo) psbt.inputs utxos)
    (spent : spentValue policy psbt.unsignedTx = exactSum (utxos.map TxOut.value)) :
    FeeWithin psbt policy utxos (UInt64.ofNat (feeOf policy psbt.unsignedTx)) := by
  have fits := honest.fits
  have positive := honest.positive
  have word : (UInt64.ofNat (feeOf policy psbt.unsignedTx)).toNat =
      feeOf policy psbt.unsignedTx := by
    apply UInt64.toNat_ofNat_of_lt'
    exact (Nat.sub_le _ _).trans_lt fits
  have vsize : max psbt.unsignedTx.vsize 1 = psbt.unsignedTx.vsize :=
    Nat.max_eq_left psbt.unsignedTx.vsize_pos
  refine ⟨shown, spent ▸ fits, ?_, ?_, ?_, ?_, ?_⟩
  · rw [word]
    unfold feeOf at positive ⊢
    omega
  · intro zero
    rw [zero] at word
    exact absurd word.symm positive.ne'
  · rw [UInt64.le_iff_toNat_le, word]
    exact honest.absolute
  · intro fee declared
    rw [← UInt64.toNat_inj, word]
    exact honest.pinned fee declared
  · rw [UInt64.le_iff_toNat_le, vsize, feerate_toNat _ psbt.unsignedTx.vsize_pos, word]
    exact honest.rate

/-- A payment built as the wallet builds it is accepted, as soon as child
    derivation succeeds below the limit. -/
theorem verify_complete (env : Primitives) (compressed : CompressedPoints env) {psbt : Psbt}
    {descriptor : Str} {policy : VerifyPolicy} {receive : ParsedDescriptor}
    {change : Option ParsedDescriptor} (parsed : parse env descriptor = .ok receive)
    (parsedChange : parseChange env policy.changeDescriptor = .ok change)
    (children : ∀ key ∈ receive.keys, DerivesChildren env key policy.gapLimit)
    (changeChildren : ∀ chg, change = some chg →
      ∀ key ∈ chg.keys, DerivesChildren env key policy.gapLimit)
    (distinct : ∀ chg, change = some chg → (chg.keys.map KeyExpr.fingerprint).Nodup)
    (honest : Honest env psbt policy receive change) :
    ∃ v, verify env psbt descriptor policy = .ok v := by
  have known : ∀ (i : Nat) txin input, psbt.unsignedTx.input[i]? = some txin →
      psbt.inputs[i]? = some input → ∃ known, Spends policy txin input known := by
    intro i txin input spent map
    obtain ⟨known, spends, _⟩ := honest.inputs i txin input spent map
    exact ⟨known, spends⟩
  have valid : ∀ chg, change = some chg →
      ∀ key ∈ chg.keys, validateOriginPath key.originPath = .ok () := by
    intro chg described
    obtain ⟨_, _, text⟩ := parseChange_some.mp (described ▸ parsedChange)
    exact parse_origins text
  obtain ⟨utxos, shown⟩ := known_utxos honest.wellFormed.inputMaps known
  have spent := spentValue_of_known honest.wellFormed.inputMaps known shown
  obtain ⟨classified, outputs⟩ := @forall₂_total _ _
    (fun (x : TxOut × Nat) c => Classified env psbt change policy x.2 x.1 c)
    psbt.unsignedTx.output.zipIdx <| by
      rintro ⟨txout, n⟩ member
      exact honest_classified honest distinct valid (List.mem_zipIdx_iff_getElem?.mp member)
  have owned : checkV2 env psbt receive change policy = .ok () := by
    apply checkV2_of_owned (derives_of_children compressed children)
    · intro chg described
      exact derives_of_children compressed (changeChildren chg described)
    · intro i input map
      have inside := (List.getElem?_eq_some_iff.mp map).1
      obtain ⟨record, spends, own⟩ := honest.inputs i _ input
        (List.getElem?_eq_getElem (honest.wellFormed.inputMaps ▸ inside)) map
      exact ⟨record, spends.2, own⟩
  have declared : satSum (amountsOf classified false) = policy.declaredAmountSats := by
    rw [← UInt64.toNat_inj, classified_payments outputs, satSum_exact, honest.payments]
    rw [honest.payments]
    exact toNat_lt_size _
  refine ⟨⟨true, recipientOf classified policy, satSum (amountsOf classified false),
    satSum (amountsOf classified true), UInt64.ofNat (feeOf policy psbt.unsignedTx),
    feerate (UInt64.ofNat (feeOf policy psbt.unsignedTx)) (max psbt.unsignedTx.vsize 1)⟩, ?_⟩
  apply verify_eq_ok.mpr
  exact ⟨receive, change, classified, utxos, parsed, parsedChange, honest.wellFormed, known, owned,
    outputs, honest_fee honest shown spent, declared,
    fun i input map => honest.signatures input (List.mem_of_getElem? map), rfl⟩

namespace Sample

theorem compressed : CompressedPoints env := by
  intro pk valid
  have tags : ∀ s ∈ steps, (keyTag s.parent.publicKey = 2 ∨ keyTag s.parent.publicKey = 3) ∧
      (keyTag s.child.publicKey = 2 ∨ keyTag s.child.publicKey = 3) := by decide +kernel
  simp only [env, tables, Tables.primitives, List.any_eq_true, Bool.or_eq_true] at valid
  obtain ⟨s, member, parent | child⟩ := valid
  · exact eq_of_beq parent ▸ (tags s member).1
  · exact eq_of_beq child ▸ (tags s member).2

theorem derives_children {branch : DerivationBranch} {out : DerivedOutput}
    (derived : deriveAt env (wallet branch) 0 = .ok out) :
    ∀ key ∈ (wallet branch).keys, DerivesChildren env key policy.gapLimit := by
  obtain ⟨c0, c1, c2, first, second, third, _⟩ := deriveAt_spec derived
  have only : ∀ i : UInt32, i < policy.gapLimit → i = 0 := by
    intro i below
    rw [← UInt32.toNat_inj]
    have : i.toNat < 1 := UInt32.lt_iff_toNat_lt.mp below
    exact Nat.lt_one_iff.mp this
  have once : ∀ key child, deriveChild env key 0 = .ok child →
      DerivesChildren env key policy.gapLimit := by
    intro key child run i below
    rw [only i below]
    exact ⟨child, run⟩
  simp only [ParsedDescriptor.keys, List.forall_mem_cons]
  exact ⟨once _ _ first, once _ _ second, once _ _ third, by simp⟩

theorem origin_written (key : KeyExpr) (written : key.originPath = bytes "48'/1'/0'/2'") :
    key.Origin origin := by
  rw [KeyExpr.Origin, written]
  decide

theorem honest_entries : HonestEntries env (wallet .internal) 0 ⟨changeKeys, [], []⟩ := by
  refine ⟨[(childAInternal.publicKey, fingerprintA, origin ++ [.normal 1, .normal 0]),
    (childBInternal.publicKey, fingerprintB, origin ++ [.normal 1, .normal 0]),
    (childCInternal.publicKey, fingerprintC, origin ++ [.normal 1, .normal 0])], ?_,
    by decide +kernel⟩
  refine .cons ⟨child fingerprintA .internal childAInternal, origin, ?_, origin_written _ rfl, rfl⟩
    (.cons ⟨child fingerprintB .internal childBInternal, origin, ?_, origin_written _ rfl, rfl⟩
      (.cons ⟨child fingerprintC .internal childCInternal, origin, ?_, origin_written _ rfl, rfl⟩
        .nil))
  all_goals decide +kernel

theorem honest : Honest env psbt policy (wallet .external) (some (wallet .internal)) where
  wellFormed := by
    constructor <;> decide
  inputs := by
    intro i txin input spent map
    cases i with
    | zero =>
      cases spent
      cases map
      exact ⟨coinOutput, ⟨by decide, rfl⟩, wallet .external, .inl rfl, 0, by decide, receiveOutput,
        derived_receive, rfl⟩
    | succ i => cases map
  outputs := by
    intro n txout output paid map
    match n with
    | 0 =>
      cases paid
      exact .inl (by decide)
    | 1 =>
      cases paid
      cases map
      exact .inr ⟨wallet .internal, 0, rfl, by decide, ⟨changeOutput, derived_change, rfl⟩,
        honest_entries⟩
    | n + 2 => cases map
  fits := by decide
  payments := by decide
  positive := by decide
  absolute := by decide
  pinned := by
    intro fee declared
    contradiction
  rate := by decide
  signatures := by
    intro input member
    rw [List.mem_singleton.mp member]
    exact ⟨by simp [psbtInput], by simp [psbtInput, OrderedMap.empty, OrderedMap.values]⟩

end Sample

/-- The sample payment is honest, and so accepted. -/
theorem verify_complete_sample :
    ∃ v, verify Sample.env Sample.psbt Sample.receiveDescriptor Sample.policy = .ok v := by
  have change : ∀ chg, some (Sample.wallet .internal) = some chg → chg = Sample.wallet .internal :=
    fun _ same => (Option.some.inj same).symm
  apply verify_complete Sample.env Sample.compressed Sample.parsed_receive
    (parseChange_some.mpr ⟨_, rfl, Sample.parsed_change⟩)
    (Sample.derives_children Sample.derived_receive) _ _ Sample.honest
  · intro chg same
    rw [change chg same]
    exact Sample.derives_children Sample.derived_change
  · intro chg same
    rw [change chg same]
    decide

end Trinity
