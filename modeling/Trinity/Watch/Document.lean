import Mathlib.Data.List.Sort
import Trinity.Watch.DocumentText
import Trinity.Watch.Verified

/-!
The `descriptor.json` document, `document.rs`: the wire form keeps the word
counts apart from the key records, and a file is validated, put into slot order
and rebuilt when it is read. Writing and reading JSON itself is a parameter.
-/
namespace Trinity

namespace Watch

open Outcome

def fingerprintErrorText (s : Str) : Str :=
  if s.length ≠ 8 then bytes "fingerprint hex must be exactly 8 characters"
  else bytes "fingerprint hex contains a non-hex character"

def WireKey.fromContrib (k : KeyContribution) : WireKey :=
  ⟨k.slot, toHex k.xpub.fingerprint, k.xpub.originPath, k.xpub.xpub, k.birthdayHeight, k.source,
    k.policyId⟩

def WireKey.toContrib (k : WireKey) (wordCountWords : UInt8) :
    Outcome DescriptorError KeyContribution := do
  let wordCount ← okOr (WordCount.fromWords wordCountWords)
    (.invalidDocument (bytes "word_count must be 12 or 24, got " ++ decimal wordCountWords.toNat))
  let fingerprint ← okOr (fingerprintFromHex k.fingerprint)
    (.invalidKeyExpression (bytes "fingerprint: " ++ fingerprintErrorText k.fingerprint))
  rejectIf (¬ k.source.isHardware ∧ k.policyId.isSome)
    (.invalidDocument (bytes "policy_id is only valid for Hardware source keys"))
  return ⟨k.slot, ⟨fingerprint, k.originPath, k.xpub⟩, k.birthdayHeight, wordCount, k.source,
    k.policyId⟩

def WalletDescriptors.wordCountMap (w : WalletDescriptors) : WordCountMap :=
  ⟨w.keys.first.wordCount.words, w.keys.second.wordCount.words, w.keys.third.wordCount.words⟩

def WireDocument.fromWallet (w : WalletDescriptors) : WireDocument :=
  ⟨w.formatVersion, w.network, w.createdAtUnix, w.receiveDescriptor, w.changeDescriptor,
    w.wordCountMap, ⟨WireKey.fromContrib w.keys.first, WireKey.fromContrib w.keys.second,
      WireKey.fromContrib w.keys.third⟩⟩

/-- `sort_by_key` on an array of three; the sort is stable. -/
def sortBySlot (keys : Triple KeyContribution) : Triple KeyContribution :=
  match keys.toList.insertionSort fun x y => x.slot.asU8 ≤ y.slot.asU8 with
  | [x, y, z] => ⟨x, y, z⟩
  | _ => keys

section

variable (ms : Miniscript)

def WireDocument.intoWallet (d : WireDocument) : Outcome DescriptorError WalletDescriptors := do
  rejectIf (d.formatVersion ≠ Watch.formatVersion)
    (.invalidDocument (bytes "unsupported format_version " ++ decimal d.formatVersion.toNat))
  validateTrinityDescriptor ms d.receiveDescriptor
  validateTrinityDescriptor ms d.changeDescriptor
  rejectIf (containsStr (bytes "/1/*") d.receiveDescriptor ∨
      ¬ containsStr (bytes "/0/*") d.receiveDescriptor ∨
      containsStr (bytes "/0/*") d.changeDescriptor ∨
      ¬ containsStr (bytes "/1/*") d.changeDescriptor)
    (.invalidDocument (bytes "receive must use /0/* and change /1/* (O8, no multipath)"))
  rejectIf (d.receiveDescriptor.contains 60 ∨ d.changeDescriptor.contains 60) .multipathForbidden
  let first ← d.keys.first.toContrib d.wordCount.a
  let second ← d.keys.second.toContrib d.wordCount.b
  let third ← d.keys.third.toContrib d.wordCount.c
  let keys := sortBySlot ⟨first, second, third⟩
  rejectIf (keys.first.slot ≠ .a ∨ keys.second.slot ≠ .b ∨ keys.third.slot ≠ .c)
    (.invalidDocument (bytes "keys must be slots A, B, C"))
  rejectIf (keys.first.wordCount.words ≠ d.wordCount.a ∨
      keys.second.wordCount.words ≠ d.wordCount.b ∨ keys.third.wordCount.words ≠ d.wordCount.c)
    (.invalidDocument (bytes "word_count map inconsistent with key records"))
  let rebuilt ← buildWalletDescriptors ms d.network keys d.createdAtUnix
  rejectIf (rebuilt.receiveDescriptor ≠ d.receiveDescriptor ∨
      rebuilt.changeDescriptor ≠ d.changeDescriptor)
    (.invalidDocument (bytes "stored descriptors do not match keys (possible tampering)"))
  return ⟨d.formatVersion, d.network, d.createdAtUnix, d.receiveDescriptor, d.changeDescriptor,
    keys⟩

variable (json : SerdeJson)

def WalletDescriptors.toJson (w : WalletDescriptors) : Outcome DescriptorError Str :=
  ofExcept (json.toStringPretty (WireDocument.fromWallet w)) .json

def WalletDescriptors.fromJson (text : Str) : Outcome DescriptorError WalletDescriptors := do
  let wire ← ofExcept (json.fromStr text) .json
  wire.intoWallet ms

end

/-- The branch of the key expressions stands in the printed descriptor. The
    builder only checks that the other branch does not. -/
def KeepsBranch (ms : Miniscript) : Prop :=
  ∀ (x y z : XpubWithOrigin) (p q r : DerivationPath) (branch : DerivationBranch)
    (kx ky kz : ms.Key) (desc : ms.Descriptor),
    ms.keyFromStr (keyExpressionText x (branchSuffix branch)) = .ok kx →
    ms.keyFromStr (keyExpressionText y (branchSuffix branch)) = .ok ky →
    ms.keyFromStr (keyExpressionText z (branchSuffix branch)) = .ok kz →
    DerivationPath.parse (stripMaster x.originPath) = some p →
    DerivationPath.parse (stripMaster y.originPath) = some q →
    DerivationPath.parse (stripMaster z.originPath) = some r →
    ms.newWshSortedmulti multisigThreshold [kx, ky, kz] = .ok desc →
      containsStr branch.text (ms.toString desc) = true

theorem keepsBranch_of_prints {ms : Miniscript} (prints : ∀ x y z, PrintsKeys ms x y z) :
    KeepsBranch ms := by
  intro x y z p q r branch kx ky kz desc acceptedX acceptedY acceptedZ parsedX parsedY parsedZ made
  have printed := prints x y z p q r branch kx ky kz desc acceptedX acceptedY acceptedZ
    parsedX parsedY parsedZ made
  obtain ⟨symbols, _, text⟩ := createChecksum_eq_ok.mp printed
  rw [containsStr_iff, text]
  have inKey : branch.text <:+: (printedKey x p branch).text :=
    ⟨bytes "[" ++ (toHex x.fingerprint ++ (bytes "/" ++ (pathText p ++ (bytes "]" ++ x.xpub)))), [],
      by simp [WrittenKey.text, printedKey]⟩
  have inBody : (printedKey x p branch).text <:+:
      descriptorBody (printedKey x p branch) (printedKey y q branch) (printedKey z r branch) :=
    ⟨bytes "wsh(" ++ (bytes "sortedmulti(" ++ (bytes "2" ++ bytes ",")),
      bytes "," ++ ((printedKey y q branch).text ++ (bytes "," ++ ((printedKey z r branch).text ++
        (bytes ")" ++ bytes ")")))), by simp [descriptorBody]⟩
  exact (inKey.trans inBody).trans (List.prefix_append _ _).isInfix

section Lossless

variable {ms : Miniscript} {network : Network}

theorem toContrib_fromContrib {k : KeyContribution}
    (valid : validateContribution ms network k = .ok ()) :
    (WireKey.fromContrib k).toContrib k.wordCount.words = .ok k := by
  simp only [validateContribution, bind_eq_ok, rejectIf_eq_ok] at valid
  obtain ⟨_, _, _, _, policy⟩ := valid
  simp only [WireKey.toContrib, bind_eq_ok, okOr_eq_ok, rejectIf_eq_ok, pure_eq_ok]
  exact ⟨_, WordCount.fromWords_words _, _, fingerprintFromHex_eq_some.mpr ⟨toHex_length _,
    toHex_digits _, hexFingerprint_toHex _⟩, (), policy, rfl⟩

theorem sortBySlot_ordered {keys : Triple KeyContribution} (ordered : SlotOrdered keys) :
    sortBySlot keys = keys := by
  rcases keys with ⟨x, y, z⟩
  obtain ⟨slotX, slotY, slotZ⟩ := ordered
  have sorted : [x, y, z].Pairwise fun x y => x.slot.asU8 ≤ y.slot.asU8 := by
    simp only at slotX slotY slotZ
    simp only [List.pairwise_cons, List.mem_cons, List.not_mem_nil, or_false, forall_eq_or_imp,
      forall_eq, slotX, slotY, slotZ]
    exact ⟨by decide, by decide, nofun, .nil⟩
  rw [sortBySlot, Triple.toList, List.Pairwise.insertionSort_eq sorted]

theorem printed_branch {ordered : Triple KeyContribution} {text : Str}
    (branch : DerivationBranch) (keeps : KeepsBranch ms)
    (valid : ∀ k ∈ ordered.toList, validateContribution ms network k = .ok ())
    (made : buildSortedmultiString ms ordered (branchSuffix branch) = .ok text) :
    containsStr branch.text text = true := by
  rcases ordered with ⟨a, b, c⟩
  simp only [Triple.toList, List.forall_mem_cons] at valid
  obtain ⟨validA, validB, validC, _⟩ := valid
  obtain ⟨_, _, _, desc, keyA, keyB, keyC, created, rfl⟩ := buildSortedmultiString_eq_ok made
  exact keeps _ _ _ _ _ _ _ _ _ _ _ keyA keyB keyC (validateContribution_eq_ok validA).2
    (validateContribution_eq_ok validB).2 (validateContribution_eq_ok validC).2 created

structure WireDocument.Accepted (ms : Miniscript) (d : WireDocument)
    (keys : Triple KeyContribution) (rebuilt : WalletDescriptors) : Prop where
  version : d.formatVersion = Watch.formatVersion
  validReceive : validateTrinityDescriptor ms d.receiveDescriptor = .ok ()
  validChange : validateTrinityDescriptor ms d.changeDescriptor = .ok ()
  notInternal : ¬ containsStr (bytes "/1/*") d.receiveDescriptor = true
  external : containsStr (bytes "/0/*") d.receiveDescriptor = true
  notExternal : ¬ containsStr (bytes "/0/*") d.changeDescriptor = true
  internal : containsStr (bytes "/1/*") d.changeDescriptor = true
  singlePath : ¬ (d.receiveDescriptor.contains 60 = true ∨ d.changeDescriptor.contains 60 = true)
  first : d.keys.first.toContrib d.wordCount.a = .ok keys.first
  second : d.keys.second.toContrib d.wordCount.b = .ok keys.second
  third : d.keys.third.toContrib d.wordCount.c = .ok keys.third
  slots : SlotOrdered (sortBySlot keys)
  counts : (sortBySlot keys).first.wordCount.words = d.wordCount.a ∧
    (sortBySlot keys).second.wordCount.words = d.wordCount.b ∧
    (sortBySlot keys).third.wordCount.words = d.wordCount.c
  built : buildWalletDescriptors ms d.network (sortBySlot keys) d.createdAtUnix = .ok rebuilt
  receive : rebuilt.receiveDescriptor = d.receiveDescriptor
  change : rebuilt.changeDescriptor = d.changeDescriptor

theorem intoWallet_eq_ok {d : WireDocument} {w : WalletDescriptors} :
    d.intoWallet ms = .ok w ↔ ∃ keys rebuilt, d.Accepted ms keys rebuilt ∧
      w = ⟨d.formatVersion, d.network, d.createdAtUnix, d.receiveDescriptor, d.changeDescriptor,
        sortBySlot keys⟩ := by
  simp only [WireDocument.intoWallet, bind_eq_ok, rejectIf_eq_ok, pure_eq_ok]
  constructor
  · rintro ⟨_, version, _, validReceive, _, validChange, _, branches, _, singlePath, x, first, y,
      second, z, third, _, slots, _, counts, rebuilt, built, _, same, rfl⟩
    simp only [not_or, not_not] at version branches slots counts same
    exact ⟨⟨x, y, z⟩, rebuilt, ⟨version, validReceive, validChange, branches.1, branches.2.1,
      branches.2.2.1, branches.2.2.2, singlePath, first, second, third, slots, counts, built,
      same.1, same.2⟩, rfl⟩
  · rintro ⟨keys, rebuilt, accepted, rfl⟩
    refine ⟨(), not_not_intro accepted.version, (), accepted.validReceive, (),
      accepted.validChange, (), ?_, (), accepted.singlePath, _, accepted.first, _, accepted.second,
      _, accepted.third, (), ?_, (), ?_, rebuilt, accepted.built, (), ?_, rfl⟩
    · simp only [not_or, not_not]
      exact ⟨accepted.notInternal, accepted.external, accepted.notExternal, accepted.internal⟩
    · simp only [not_or, not_not]
      exact accepted.slots
    · simp only [not_or, not_not]
      exact accepted.counts
    · simp only [not_or, not_not]
      exact ⟨accepted.receive, accepted.change⟩

/-- The wire form of a built wallet is accepted and gives the wallet back. -/
theorem intoWallet_fromWallet (keeps : KeepsBranch ms) {keys : Triple KeyContribution}
    {createdAtUnix : UInt64} {w : WalletDescriptors}
    (built : buildWalletDescriptors ms network keys createdAtUnix = .ok w) :
    (WireDocument.fromWallet w).intoWallet ms = .ok w := by
  obtain ⟨_, _, valid, ordered, perm, order, made⟩ := build_eq_ok.mp built
  have each : ∀ k ∈ ordered.toList, validateContribution ms network k = .ok () :=
    fun k member => valid k (perm.subset member)
  simp only [buildOrdered, assertNoMultipath, assertDistinctReceiveChange, bind_eq_ok,
    rejectIf_eq_ok, pure_eq_ok] at made
  obtain ⟨receive, madeReceive, change, madeChange, _, noMultipath, _, noMultipath', _,
    ⟨_, distinct, _⟩, _, validReceive, _, validChange, rfl⟩ := made
  rw [not_or] at distinct
  simp only [hasMultipath, Bool.or_eq_true, not_or] at noMultipath noMultipath'
  have member : ordered.first ∈ ordered.toList ∧ ordered.second ∈ ordered.toList ∧
      ordered.third ∈ ordered.toList := by
    simp [Triple.toList]
  have sorted := sortBySlot_ordered order
  refine intoWallet_eq_ok.mpr ⟨ordered,
    ⟨formatVersion, network, createdAtUnix, receive, change, ordered⟩, ?_, by rw [sorted]; rfl⟩
  exact {
    version := rfl
    validReceive := validReceive
    validChange := validChange
    notInternal := distinct.1
    external := printed_branch .external keeps each madeReceive
    notExternal := distinct.2
    internal := printed_branch .internal keeps each madeChange
    singlePath := not_or.mpr ⟨noMultipath.1, noMultipath'.1⟩
    first := toContrib_fromContrib (each _ member.1)
    second := toContrib_fromContrib (each _ member.2.1)
    third := toContrib_fromContrib (each _ member.2.2)
    slots := sorted.symm ▸ order
    counts := by rw [sorted]; exact ⟨rfl, rfl, rfl⟩
    built := by rw [sorted]; exact built_any_order perm built
    receive := rfl
    change := rfl }

theorem build_intoWallet {d : WireDocument} {w : WalletDescriptors}
    (read : d.intoWallet ms = .ok w) :
    buildWalletDescriptors ms w.network w.keys w.createdAtUnix = .ok w := by
  obtain ⟨keys, rebuilt, accepted, rfl⟩ := intoWallet_eq_ok.mp read
  obtain ⟨_, _, _, ordered, perm, order, made⟩ := build_eq_ok.mp accepted.built
  have same := slotOrdered_unique perm order accepted.slots
  have receive := accepted.receive
  have change := accepted.change
  have built := accepted.built
  simp only [buildOrdered, bind_eq_ok, pure_eq_ok] at made
  obtain ⟨_, _, _, _, _, _, _, _, _, _, _, _, _, _, rfl⟩ := made
  rw [accepted.version, ← receive, ← change, ← same]
  rw [← same] at built
  exact built

end Lossless

/-- `descriptor.json` is lossless and tamper-evident: a built wallet is read
    back from its file, and an accepted file is the wallet its own network, keys
    and timestamp build, whatever the libraries do. -/
theorem document_lossless_tamper_evident (ms : Miniscript) (json : SerdeJson) :
    (json.ReadsBack → KeepsBranch ms → ∀ network keys createdAtUnix w,
      buildWalletDescriptors ms network keys createdAtUnix = .ok w →
      ∃ text, w.toJson json = .ok text ∧ WalletDescriptors.fromJson ms json text = .ok w) ∧
    ∀ text w, WalletDescriptors.fromJson ms json text = .ok w →
      buildWalletDescriptors ms w.network w.keys w.createdAtUnix = .ok w := by
  constructor
  · intro readsBack keeps network keys createdAtUnix w built
    obtain ⟨text, written, read⟩ := readsBack (WireDocument.fromWallet w)
    refine ⟨text, ofExcept_eq_ok.mpr written, ?_⟩
    exact bind_eq_ok.mpr ⟨_, ofExcept_eq_ok.mpr read, intoWallet_fromWallet keeps built⟩
  · intro text w accepted
    obtain ⟨wire, _, read⟩ := bind_eq_ok.mp accepted
    exact build_intoWallet read

theorem document_sample : SerdeJson.pretty.ReadsBack ∧
    ∃ text, Sample.wallet.toJson .pretty = .ok text ∧
      WalletDescriptors.fromJson Sample.library .pretty text = .ok Sample.wallet :=
  ⟨SerdeJson.pretty_readsBack, (document_lossless_tamper_evident Sample.library .pretty).1
    SerdeJson.pretty_readsBack (keepsBranch_of_prints Sample.library_prints_keys) _ _ _ _
    Sample.built⟩

end Watch

end Trinity
