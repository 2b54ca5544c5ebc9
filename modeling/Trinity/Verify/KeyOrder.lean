import Trinity.Verify.Search

/-!
The order of the key expressions does not matter to the verifier. Keys are
sorted before they enter a script, V4 compares sets of keys, and an entry of a
derivation map finds its key expression by fingerprint.
-/
namespace Trinity

open Outcome

/-- The same key expressions in another order, told apart by fingerprint. -/
structure KeysReordered (desc desc' : ParsedDescriptor) : Prop where
  keys : desc.keys.Perm desc'.keys
  distinct : (desc.keys.map KeyExpr.fingerprint).Nodup

def DerivedOutput.leaf (out : DerivedOutput) : List SecpPublicKey × Script × Script :=
  (out.sortedPubkeys, out.witnessScript, out.scriptPubkey)

def childKey (env : Primitives) (i : UInt32) (key : KeyExpr) : SecpPublicKey :=
  match deriveChild env key i with
  | .ok child => child.publicKey
  | .error _ => 0

theorem sortPubkeys_perm {keys keys' : List SecpPublicKey} (perm : keys.Perm keys') :
    sortPubkeys keys = sortPubkeys keys' := by
  have sorted (ks : List SecpPublicKey) : (sortPubkeys ks).Pairwise (· ≤ ·) :=
    List.pairwise_insertionSort _ ks
  refine List.Perm.eq_of_pairwise (fun _ _ _ _ => le_antisymm) (sorted keys) (sorted keys') ?_
  exact (List.perm_insertionSort _ keys).trans (perm.trans (List.perm_insertionSort _ keys').symm)

section Leaves

variable {env : Primitives} {desc desc' : ParsedDescriptor} {gap i : UInt32} {script : Script}

theorem deriveAt_children {out : DerivedOutput} (derived : deriveAt env desc i = .ok out) :
    out.children.map DerivedChild.publicKey = desc.keys.map (childKey env i) := by
  obtain ⟨c0, c1, c2, first, second, third, children, _⟩ := deriveAt_spec derived
  simp [children, ParsedDescriptor.keys, childKey, first, second, third]

theorem deriveAt_leaf
    (children : ∀ key ∈ desc.keys, ∃ child, deriveChild env key i = .ok child) :
    (deriveAt env desc i).map DerivedOutput.leaf =
      (witnessScript2of3 (sortPubkeys (desc.keys.map (childKey env i)))).map fun ws =>
        (sortPubkeys (desc.keys.map (childKey env i)), ws, p2wshScriptPubkey env ws) := by
  simp only [ParsedDescriptor.keys, List.forall_mem_cons] at children
  obtain ⟨⟨c0, first⟩, ⟨c1, second⟩, ⟨c2, third⟩, _⟩ := children
  simp only [deriveAt, first, second, third, bind_ok, ParsedDescriptor.keys, List.map_cons,
    List.map_nil, childKey]
  cases witnessScript2of3 (sortPubkeys [c0.publicKey, c1.publicKey, c2.publicKey]) <;> rfl

theorem leaf_reordered (reordered : KeysReordered desc desc')
    (children : ∀ key ∈ desc.keys, ∃ child, deriveChild env key i = .ok child) :
    (deriveAt env desc i).map DerivedOutput.leaf =
      (deriveAt env desc' i).map DerivedOutput.leaf := by
  have children' : ∀ key ∈ desc'.keys, ∃ child, deriveChild env key i = .ok child :=
    fun key member => children key (reordered.keys.mem_iff.mpr member)
  rw [deriveAt_leaf children, deriveAt_leaf children',
    sortPubkeys_perm (reordered.keys.map (childKey env i))]

theorem probe_leaf : probe env script desc i =
    mapErr .derive ((deriveAt env desc i).map DerivedOutput.leaf) >>= fun leaf =>
      return if leaf.2.2 = script then some i else none := by
  unfold probe probeIn
  rw [Marked.mapErr_outcome, Marked.call_outcome]
  cases deriveAt env desc i with
  | ok out => rfl
  | error fault => cases fault <;> rfl

theorem findIndexMatching_congr (same : ∀ i, i < gap → probe env script desc i =
    probe env script desc' i) (hint : Option UInt32) :
    findIndexMatching env script desc gap hint = findIndexMatching env script desc' gap hint := by
  have hinted : probeHint env script desc gap hint = probeHint env script desc' gap hint := by
    cases hint with
    | none => rfl
    | some h =>
      unfold probeHint probeHintIn
      dsimp only
      split
      · rename_i below
        exact same h below
      · rfl
  have scanned : (indicesBelow gap).findSomeM? (fun i =>
        if hint = some i then pure none else probe env script desc i) =
      (indicesBelow gap).findSomeM? fun i =>
        if hint = some i then pure none else probe env script desc' i := by
    apply findSomeM?_congr
    intro i member
    rw [same i (mem_indicesBelow.mp member)]
  simp only [findIndexMatchingIn, hinted, scanned]

theorem keyExprForFingerprint_reordered (reordered : KeysReordered desc desc') (fp : Fingerprint) :
    keyExprForFingerprint desc fp = keyExprForFingerprint desc' fp := by
  have distinct' : (desc'.keys.map KeyExpr.fingerprint).Nodup :=
    (reordered.keys.map _).nodup_iff.mp reordered.distinct
  ext key
  constructor
  · intro found
    obtain ⟨member, rfl⟩ := keyExprForFingerprint_some found
    exact keyExprForFingerprint_self distinct' (reordered.keys.mem_iff.mp member)
  · intro found
    obtain ⟨member, rfl⟩ := keyExprForFingerprint_some found
    exact keyExprForFingerprint_self reordered.distinct (reordered.keys.mem_iff.mpr member)

theorem checkV4Entries_reordered (reordered : KeysReordered desc desc') (index : UInt32)
    (seen : List Fingerprint) (entries : List (SecpPublicKey × KeySource)) :
    checkV4Entries desc index seen entries = checkV4Entries desc' index seen entries := by
  induction entries generalizing seen with
  | nil => rfl
  | cons e rest ih =>
    obtain ⟨pk, fp, path⟩ := e
    simp only [checkV4Entries, keyExprForFingerprint_reordered reordered, ih]

theorem checkV4Change_reordered (reordered : KeysReordered desc desc') {out out' : DerivedOutput}
    (derived : deriveAt env desc i = .ok out) (derived' : deriveAt env desc' i = .ok out')
    (output : Output) : checkV4Change env output desc i = checkV4Change env output desc' i := by
  have sets : collectSorted (out.children.map DerivedChild.publicKey) =
      collectSorted (out'.children.map DerivedChild.publicKey) := by
    rw [toFinset_eq_collectSorted, deriveAt_children derived, deriveAt_children derived']
    exact List.toFinset_eq_of_perm _ _ (reordered.keys.map _)
  simp only [checkV4ChangeIn, Marked.mapErr_outcome, Marked.call_outcome, derived, derived', mapErr,
    bind_ok, sets, checkV4Entries_reordered reordered]

end Leaves

section Checks

variable {env : Primitives} {gap : UInt32}

structure SameLeaves (env : Primitives) (gap : UInt32) (desc desc' : ParsedDescriptor) : Prop
    extends KeysReordered desc desc' where
  leaves : ∀ i, i < gap → (deriveAt env desc i).map DerivedOutput.leaf =
    (deriveAt env desc' i).map DerivedOutput.leaf

theorem sameLeaves_of_children {desc desc' : ParsedDescriptor}
    (reordered : KeysReordered desc desc')
    (children : ∀ key ∈ desc.keys, DerivesChildren env key gap) :
    SameLeaves env gap desc desc' where
  toKeysReordered := reordered
  leaves i below := leaf_reordered reordered fun key member => children key member i below

variable {receive receive' : ParsedDescriptor} {change change' : Option ParsedDescriptor}

theorem SameLeaves.search {desc desc' : ParsedDescriptor} (same : SameLeaves env gap desc desc')
    (script : Script) (hint : Option UInt32) :
    findIndexMatching env script desc gap hint = findIndexMatching env script desc' gap hint := by
  apply findIndexMatching_congr
  intro i below
  rw [probe_leaf, probe_leaf, same.leaves i below]

theorem SameLeaves.derives {desc desc' : ParsedDescriptor} (same : SameLeaves env gap desc desc')
    {i : UInt32} (below : i < gap) {out : DerivedOutput} (derived : deriveAt env desc i = .ok out) :
    ∃ out', deriveAt env desc' i = .ok out' := by
  have leaves := same.leaves i below
  rw [derived] at leaves
  cases derived' : deriveAt env desc' i with
  | ok out' => exact ⟨out', rfl⟩
  | error e =>
    rw [derived'] at leaves
    contradiction

variable (same : SameLeaves env gap receive receive')
  (sameChange : Option.Rel (SameLeaves env gap) change change')

include same sameChange in
theorem matchesAnyDerived_reordered (script : Script) (hint : Option UInt32) :
    matchesAnyDerived env script receive change gap hint =
      matchesAnyDerived env script receive' change' gap hint := by
  unfold matchesAnyDerived matchesAnyDerivedIn
  simp only [same.search]
  cases sameChange with
  | none => rfl
  | some sameChg => simp only [sameChg.search]

include sameChange in
theorem classifyOutput_reordered (psbt : Psbt) {policy : VerifyPolicy}
    (window : policy.gapLimit = gap) (changeDescriptor : Option Str) (txout : TxOut) (i : Nat) :
    classifyOutput env psbt change policy txout i =
      classifyOutput env psbt change' { policy with changeDescriptor } txout i := by
  simp only [classifyOutputIn, monadLift_self, Marked.mapErr_outcome]
  refine bind_congr_ok fun address _ => ?_
  split
  · rfl
  cases sameChange with
  | none => rfl
  | some sameChg =>
    simp only [okOr, bind_ok]
    refine bind_congr_ok fun output _ => ?_
    simp only [window, sameChg.search]
    refine bind_congr_ok fun found run => ?_
    cases found with
    | none => rfl
    | some idx =>
      obtain ⟨below, out, derived, _⟩ := findIndexMatching_some ((sameChg.search _ _).trans run)
      obtain ⟨out', derived'⟩ := sameChg.derives below derived
      simp only [bind_ok, checkV4Change_reordered sameChg.toKeysReordered derived derived']

end Checks

/-- Descriptors that list the same keys in another order derive the same
    leaves, and the verifier returns the same for every PSBT. -/
theorem key_order_irrelevant (env : Primitives) (descriptor descriptor' : Str)
    (policy : VerifyPolicy) (changeDescriptor : Option Str) (receive receive' : ParsedDescriptor)
    (change change' : Option ParsedDescriptor) (parsed : parse env descriptor = .ok receive)
    (parsed' : parse env descriptor' = .ok receive')
    (parsedChange : parseChange env policy.changeDescriptor = .ok change)
    (parsedChange' : parseChange env changeDescriptor = .ok change')
    (reordered : KeysReordered receive receive')
    (reorderedChange : Option.Rel KeysReordered change change')
    (derives : WalletDerives env descriptor policy) :
    (∀ i, i < policy.gapLimit → (deriveAt env receive i).map DerivedOutput.leaf =
      (deriveAt env receive' i).map DerivedOutput.leaf) ∧
    (∀ chg chg', change = some chg → change' = some chg' → ∀ i, i < policy.gapLimit →
      (deriveAt env chg i).map DerivedOutput.leaf =
        (deriveAt env chg' i).map DerivedOutput.leaf) ∧
    ∀ psbt, verify env psbt descriptor policy =
      verify env psbt descriptor' { policy with changeDescriptor } := by
  have same : SameLeaves env policy.gapLimit receive receive' :=
    sameLeaves_of_children reordered (derives.receive receive parsed)
  have sameChange : Option.Rel (SameLeaves env policy.gapLimit) change change' := by
    cases reorderedChange with
    | none => exact .none
    | some reordered =>
      exact .some (sameLeaves_of_children reordered (derives.change _ parsedChange))
  refine ⟨same.leaves, ?_, ?_⟩
  · rintro chg chg' rfl rfl
    cases sameChange with
    | some sameChg => exact sameChg.leaves
  · intro psbt
    have inputs : checkV2 env psbt receive change policy =
        checkV2 env psbt receive' change' { policy with changeDescriptor } := by
      simp only [checkV2In, matchesAnyDerived_reordered same sameChange]
    have outputs : classifyOutputs env psbt change policy =
        classifyOutputs env psbt change' { policy with changeDescriptor } := by
      simp only [classifyOutputsIn, classifyOutput_reordered sameChange psbt rfl changeDescriptor]
    simp only [verifyIn, monadLift_self, parsed, parsed', parsedChange, parsedChange', mapErr,
      bind_ok, inputs, outputs]
    rfl

namespace Sample

/-- The sample wallet with its keys in the order C, A, B and B, C, A. -/
def reorderedReceive : Str := bytes "wsh(sortedmulti(" ++ bytes "2," ++ bytes "[d057bc77/" ++
    bytes "48'/1'/0'/2']" ++ xpubC ++ bytes "/0/*," ++ bytes "[27f21145/" ++
    bytes "48'/1'/0'/2']" ++ xpubA ++ bytes "/0/*," ++ bytes "[e5968976/" ++
    bytes "48'/1'/0'/2']" ++ xpubB ++ bytes "/0/*))" ++ bytes "#ay7twnd4"

def reorderedChange : Str := bytes "wsh(sortedmulti(" ++ bytes "2," ++ bytes "[e5968976/" ++
    bytes "48'/1'/0'/2']" ++ xpubB ++ bytes "/1/*," ++ bytes "[d057bc77/" ++
    bytes "48'/1'/0'/2']" ++ xpubC ++ bytes "/1/*," ++ bytes "[27f21145/" ++
    bytes "48'/1'/0'/2']" ++ xpubA ++ bytes "/1/*))" ++ bytes "#ksm34l4e"

def reorderedWallet (branch : DerivationBranch) : ParsedDescriptor :=
  match branch with
  | .external => ⟨2, (wallet .external).key2, (wallet .external).key0, (wallet .external).key1⟩
  | .internal => ⟨2, (wallet .internal).key1, (wallet .internal).key2, (wallet .internal).key0⟩

theorem parsed_reorderedReceive : parse env reorderedReceive = .ok (reorderedWallet .external) := by
  decide +kernel

theorem parsed_reorderedChange : parse env reorderedChange = .ok (reorderedWallet .internal) := by
  decide +kernel

theorem keys_reordered (branch : DerivationBranch) :
    KeysReordered (wallet branch) (reorderedWallet branch) := by
  cases branch with
  | external => exact ⟨by decide, by decide⟩
  | internal => exact ⟨by decide, by decide⟩

end Sample

theorem key_order_irrelevant_sample :
    verify Sample.env Sample.psbt Sample.receiveDescriptor Sample.policy =
      verify Sample.env Sample.psbt Sample.reorderedReceive
        { Sample.policy with changeDescriptor := some Sample.reorderedChange } :=
  (key_order_irrelevant Sample.env _ _ _ _ _ _ _ _ Sample.parsed_receive
    Sample.parsed_reorderedReceive (parseChange_some.mpr ⟨_, rfl, Sample.parsed_change⟩)
    (parseChange_some.mpr ⟨_, rfl, Sample.parsed_reorderedChange⟩) (Sample.keys_reordered _)
    (.some (Sample.keys_reordered _)) Sample.wallet_derives).2.2 _

end Trinity
