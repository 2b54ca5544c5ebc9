import Mathlib.Data.Finset.Card
import Trinity.Verify.DescriptorFacts
import Trinity.Verify.Soundness

/-!
V4, the derivation data of a change output. Fingerprints and paths are checked
entry by entry, public keys only as a set: the map of an accepted change output
names the right three keys and the right three origins, but need not pair them
as the descriptor does.
-/
namespace Trinity

open Outcome

theorem originMatchesPath_true {path : DerivationPath} {originPath : Str} :
    originMatchesPath path originPath = .ok true ↔
      ∃ origin, DerivationPath.parse (bytes "m/" ++ originPath) = some origin ∧
        origin.length = 4 ∧ ∀ i < 4, ∃ c, path[i]? = some c ∧ origin[i]? = some c := by
  simp only [originMatchesPath, bind_eq_ok, expect_eq_ok, abortUnless_eq_ok, exists_const,
    allM_eq_true, List.mem_range, pure_ok, Except.ok.injEq, beq_iff_eq]
  constructor
  · rintro ⟨origin, parsed, four, each⟩
    refine ⟨origin, parsed, four, ?_⟩
    intro i inside
    obtain ⟨c, actual, _, expected, rfl⟩ := each i inside
    exact ⟨c, actual, expected⟩
  · rintro ⟨origin, parsed, four, each⟩
    refine ⟨origin, parsed, four, ?_⟩
    intro i inside
    obtain ⟨c, actual, expected⟩ := each i inside
    exact ⟨c, actual, c, expected, rfl⟩

def KeyExpr.Origin (key : KeyExpr) (origin : DerivationPath) : Prop :=
  DerivationPath.parse (bytes "m/" ++ key.originPath) = some origin

theorem origin_length {key : KeyExpr} {origin : DerivationPath}
    (valid : validateOriginPath key.originPath = .ok ()) (written : key.Origin origin) :
    origin.length = 4 := by
  unfold KeyExpr.Origin at written
  cases plain : startsWith key.originPath (bytes "m/") with
  | true =>
    rw [parse_origin_prefixed plain] at written
    contradiction
  | false =>
    obtain ⟨coin, _, parsed⟩ := parse_origin valid plain
    rw [parsed, Option.some.injEq] at written
    rw [← written]
    rfl

theorem pathIsChangeAt_true {path : DerivationPath} {key : KeyExpr} {index : UInt32}
    (valid : validateOriginPath key.originPath = .ok ()) :
    pathIsChangeAt path key index = .ok true ↔
      ∃ origin, key.Origin origin ∧ path = origin ++ [.normal 1, .normal index] := by
  unfold pathIsChangeAt
  constructor
  · intro run
    split at run
    · simp at run
    · rename_i length
      simp only [bind_eq_ok, expect_eq_ok] at run
      obtain ⟨branch, fourth, last, fifth, run⟩ := run
      split at run
      · rename_i tail
        obtain ⟨origin, written, four, each⟩ := originMatchesPath_true.mp run
        refine ⟨origin, written, ?_⟩
        have six : path.length = 6 := Decidable.not_not.mp length
        apply List.ext_getElem?
        intro i
        rcases Nat.lt_or_ge i 4 with inside | outside
        · obtain ⟨c, actual, expected⟩ := each i inside
          rw [actual, List.getElem?_append_left (by omega), expected]
        · rw [List.getElem?_append_right (by omega), four]
          obtain rfl | rfl | beyond : i = 4 ∨ i = 5 ∨ 6 ≤ i := by omega
          · rw [fourth, tail.1]
            rfl
          · rw [fifth, tail.2]
            rfl
          · rw [List.getElem?_eq_none (by omega), List.getElem?_eq_none (by simp; omega)]
      · simp at run
  · rintro ⟨origin, written, rfl⟩
    have four := origin_length valid written
    have fourth : (origin ++ [.normal 1, .normal index])[4]? = some (.normal 1) := by
      simp [four]
    have fifth : (origin ++ [.normal 1, .normal index])[5]? = some (.normal index) := by
      simp [four]
    rw [if_neg (by simp [four])]
    refine bind_eq_ok.mpr ⟨_, expect_eq_ok.mpr fourth,
      bind_eq_ok.mpr ⟨_, expect_eq_ok.mpr fifth, ?_⟩⟩
    rw [if_pos ⟨rfl, rfl⟩]
    apply originMatchesPath_true.mpr
    refine ⟨origin, written, four, ?_⟩
    intro i inside
    have within : i < origin.length := by omega
    rw [List.getElem?_append_left within]
    exact ⟨_, List.getElem?_eq_getElem within, List.getElem?_eq_getElem within⟩

/-- The entry carries the fingerprint of a key expression and, behind the
    origin of that expression, the path of change at this index. -/
def EntryBound (desc : ParsedDescriptor) (index : UInt32)
    (entry : SecpPublicKey × KeySource) : Prop :=
  ∃ key, keyExprForFingerprint desc entry.2.1 = some key ∧
    ∃ origin, key.Origin origin ∧ entry.2.2 = origin ++ [.normal 1, .normal index]

theorem keyExprForFingerprint_some {desc : ParsedDescriptor} {fp : Fingerprint} {key : KeyExpr}
    (found : keyExprForFingerprint desc fp = some key) :
    key ∈ desc.keys ∧ key.fingerprint = fp :=
  ⟨List.mem_of_find?_eq_some found, by simpa using List.find?_some found⟩

theorem checkV4Entries_eq_ok {desc : ParsedDescriptor}
    (valid : ∀ key ∈ desc.keys, validateOriginPath key.originPath = .ok ()) {index : UInt32}
    {seen : List Fingerprint} {entries : List (SecpPublicKey × KeySource)} {u : Unit} :
    checkV4Entries desc index seen entries = .ok u ↔
      (∀ e ∈ entries, e.2.1 ∉ seen) ∧ (entries.map fun e => e.2.1).Nodup ∧
        ∀ e ∈ entries, EntryBound desc index e := by
  induction entries generalizing seen with
  | nil => simp [checkV4Entries]
  | cons e rest ih =>
    obtain ⟨pk, fp, path⟩ := e
    simp only [checkV4Entries, bind_eq_ok, rejectIf_eq_ok, okOr_eq_ok, ih, List.map_cons,
      List.nodup_cons, List.forall_mem_cons, EntryBound]
    constructor
    · rintro ⟨_, fresh, key, found, _, run, _, same, unseen, distinct, bound⟩
      rw [Decidable.not_not] at same
      subst same
      have here := (pathIsChangeAt_true (valid key (keyExprForFingerprint_some found).1)).mp run
      refine ⟨⟨fresh, ?_⟩, ⟨?_, distinct⟩, ⟨key, found, here⟩, bound⟩
      · intro e member old
        exact unseen e member (List.mem_cons_of_mem _ old)
      · intro again
        obtain ⟨e, member, same⟩ := List.mem_map.mp again
        exact unseen e member (same ▸ List.mem_cons_self)
    · rintro ⟨⟨fresh, unseen⟩, ⟨new, distinct⟩, ⟨key, found, here⟩, bound⟩
      have run := (pathIsChangeAt_true (valid key (keyExprForFingerprint_some found).1)).mpr here
      refine ⟨(), fresh, key, found, true, run, (), by simp, ?_, distinct, bound⟩
      intro e member old
      rcases List.mem_cons.mp old with same | older
      · exact new (same ▸ List.mem_map_of_mem member)
      · exact unseen e member older

structure DerivationBound (desc : ParsedDescriptor) (index : UInt32) (derived : DerivedOutput)
    (output : Output) : Prop where
  three : output.bip32Derivation.size = 3
  distinct : (output.bip32Derivation.entries.map fun e => e.2.1).Nodup
  bound : ∀ e ∈ output.bip32Derivation.entries, EntryBound desc index e
  keys : output.bip32Derivation.keys.toFinset =
    (derived.children.map DerivedChild.publicKey).toFinset

theorem checkV4Change_eq_ok {env : Primitives} {desc : ParsedDescriptor}
    (valid : ∀ key ∈ desc.keys, validateOriginPath key.originPath = .ok ()) {index : UInt32}
    {output : Output} {u : Unit} :
    checkV4Change env output desc index = .ok u ↔
      ∃ derived, deriveAt env desc index = .ok derived ∧
        DerivationBound desc index derived output := by
  simp only [checkV4ChangeIn, Marked.mapErr_outcome, Marked.call_outcome, monadLift_self,
    bind_eq_ok, mapErr_eq_ok, rejectIf_eq_ok, checkV4Entries_eq_ok valid, abortUnless_eq_ok,
    Decidable.not_not, ne_eq, exists_const, List.not_mem_nil, not_false_eq_true, implies_true,
    true_and]
  constructor
  · rintro ⟨derived, run, three, ⟨distinct, bound⟩, same, _⟩
    exact ⟨derived, run, three, distinct, bound, (toFinset_eq_collectSorted.mp same).symm⟩
  · rintro ⟨derived, run, three, distinct, bound, keys⟩
    have indexed : 2 < output.bip32Derivation.keys.length := by
      have size := output.bip32Derivation.keys_length
      omega
    exact ⟨derived, run, three, ⟨distinct, bound⟩, toFinset_eq_collectSorted.mpr keys.symm,
      indexed⟩

theorem derivationBound_covers {desc : ParsedDescriptor} {index : UInt32} {derived : DerivedOutput}
    {output : Output} (ok : DerivationBound desc index derived output) :
    ∀ key ∈ desc.keys, ∃ e ∈ output.bip32Derivation.entries, e.2.1 = key.fingerprint := by
  have inside : (output.bip32Derivation.entries.map fun e => e.2.1).toFinset ⊆
      (desc.keys.map KeyExpr.fingerprint).toFinset := by
    intro fp member
    obtain ⟨e, there, rfl⟩ := List.mem_map.mp (List.mem_toFinset.mp member)
    obtain ⟨key, found, _⟩ := ok.bound e there
    obtain ⟨known, same⟩ := keyExprForFingerprint_some found
    exact List.mem_toFinset.mpr (same ▸ List.mem_map_of_mem known)
  have all := Finset.eq_of_subset_of_card_le inside <| by
    rw [List.toFinset_card_of_nodup ok.distinct, List.length_map]
    exact (List.toFinset_card_le _).trans (Nat.le_of_eq ok.three.symm)
  intro key member
  have fp : key.fingerprint ∈ (desc.keys.map KeyExpr.fingerprint).toFinset :=
    List.mem_toFinset.mpr (List.mem_map_of_mem member)
  rw [← all, List.mem_toFinset] at fp
  exact List.mem_map.mp fp

/-- An output of an accepted PSBT that pays no recipient is change at some index
    below the limit. Its map has three entries; their fingerprints are those of
    the three key expressions, each with the origin of its own expression
    followed by `1` and the index, and their public keys are the three child
    keys derived there. -/
theorem change_derivation_bound (env : Primitives) {psbt : Psbt} {descriptor : Str}
    {policy : VerifyPolicy} {v : PsbtVerdict}
    (accepted : verify env psbt descriptor policy = .ok v) {n : Nat} {txout : TxOut}
    (paid : psbt.unsignedTx.output[n]? = some txout) (foreign : ¬ PaysRecipient env policy txout) :
    ∃ chg output index derived, parseChange env policy.changeDescriptor = .ok (some chg) ∧
      psbt.outputs[n]? = some output ∧
      findIndexMatching env txout.scriptPubkey chg policy.gapLimit
        (bip32IndexHint output.bip32Derivation) = .ok (some index) ∧
      index < policy.gapLimit ∧ deriveAt env chg index = .ok derived ∧
      derived.scriptPubkey = txout.scriptPubkey ∧
      output.bip32Derivation.size = 3 ∧
      (output.bip32Derivation.entries.map fun e => e.2.1).Nodup ∧
      (∀ key ∈ chg.keys, ∃ e ∈ output.bip32Derivation.entries, e.2.1 = key.fingerprint) ∧
      (∀ e ∈ output.bip32Derivation.entries, ∃ key ∈ chg.keys, key.fingerprint = e.2.1 ∧
        ∃ origin, key.Origin origin ∧ e.2.2 = origin ++ [.normal 1, .normal index]) ∧
      output.bip32Derivation.keys.toFinset =
        (derived.children.map DerivedChild.publicKey).toFinset := by
  obtain ⟨receive, change, classified, utxos, ok⟩ := verify_eq_ok.mp accepted
  obtain ⟨c, _, kind⟩ := classified_output ok.outputs paid
  cases kind with
  | recipient pays => exact absurd pays foreign
  | @change chg output index _ described map found run =>
    subst described
    obtain ⟨text, _, parsed⟩ := parseChange_some.mp ok.parsedChange
    have valid := parse_origins parsed
    obtain ⟨derived, derives, bound⟩ := (checkV4Change_eq_ok valid).mp run
    obtain ⟨below, out, derives', script⟩ := findIndexMatching_some found
    rw [derives, Except.ok.injEq] at derives'
    subst derives'
    refine ⟨chg, output, index, derived, ok.parsedChange, map, found, below, derives, script,
      bound.three, bound.distinct, derivationBound_covers bound, ?_, bound.keys⟩
    intro e member
    obtain ⟨key, named, path⟩ := bound.bound e member
    obtain ⟨known, same⟩ := keyExprForFingerprint_some named
    exact ⟨key, known, same, path⟩

namespace Sample

theorem change_foreign : ¬ PaysRecipient env policy ⟨39000, p2wshScript changeHash⟩ := by
  decide

/-- The change keys of A and C with each other's fingerprints. -/
def swappedKeys : OrderedMap SecpPublicKey KeySource where
  entries := [
    (childCInternal.publicKey, fingerprintA, origin ++ [.normal 1, .normal 0]),
    (childAInternal.publicKey, fingerprintC, origin ++ [.normal 1, .normal 0]),
    (childBInternal.publicKey, fingerprintB, origin ++ [.normal 1, .normal 0])]
  sorted := by decide +kernel

def swapped : Psbt := { psbt with outputs := [⟨.empty, [], []⟩, ⟨swappedKeys, [], []⟩] }

end Sample

/-- The change output of the sample payment. -/
theorem change_derivation_bound_sample :
    ∃ output, Sample.psbt.outputs[1]? = some output ∧ output.bip32Derivation.size = 3 := by
  obtain ⟨_, output, _, _, _, map, _, _, _, _, three, _⟩ :=
    change_derivation_bound Sample.env Sample.accepted (n := 1) rfl Sample.change_foreign
  exact ⟨output, map, three⟩

/-- The payment with the fingerprints of A and C exchanged is accepted, although
    its map names C's fingerprint for the child key of A's expression. -/
theorem swapped_pairing_accepted :
    verify Sample.env Sample.swapped Sample.receiveDescriptor Sample.policy =
      .ok ⟨true, Sample.recipientAddress, 60000, 39000, 1000, 8⟩ ∧
    ∃ chg child, parse Sample.env Sample.changeDescriptor = .ok chg ∧
      chg.key0.fingerprint = Sample.fingerprintA ∧
      deriveChild Sample.env chg.key0 0 = .ok child ∧
      Sample.swappedKeys.get? child.publicKey =
        some (Sample.fingerprintC, Sample.origin ++ [.normal 1, .normal 0]) ∧
      Sample.fingerprintC ≠ chg.key0.fingerprint := by
  refine ⟨?_, Sample.wallet .internal,
    Sample.child Sample.fingerprintA .internal Sample.childAInternal, Sample.parsed_change, rfl, ?_,
    ?_, by decide⟩
  · rw [verify, verifyIn, Sample.parsed_receive, Sample.parsed_policy]
    decide +kernel
  · decide +kernel
  · decide +kernel

end Trinity
