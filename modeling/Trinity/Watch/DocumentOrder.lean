import Trinity.Watch.Document

/-!
The order of the `keys` array. On loading, an entry gets the word count of its
position in the array, the entries are sorted by slot, and each count is then
compared with the count of its slot. A document whose entries stand in another
order is therefore read alike only if positions and slots agree on the counts.
-/
namespace Trinity

namespace Watch

open Outcome

def WordCountMap.forSlot (counts : WordCountMap) : KeySlot → UInt8
  | .a => counts.a
  | .b => counts.b
  | .c => counts.c

/-- Every entry stands at a position with the word count of its slot. -/
def WordCountMap.Fits (counts : WordCountMap) (keys : Triple WireKey) : Prop :=
  counts.forSlot keys.first.slot = counts.a ∧ counts.forSlot keys.second.slot = counts.b ∧
    counts.forSlot keys.third.slot = counts.c

instance (counts : WordCountMap) (keys : Triple WireKey) : Decidable (counts.Fits keys) :=
  inferInstanceAs (Decidable (_ ∧ _ ∧ _))

theorem fits_of_equal {counts : WordCountMap} (first : counts.a = counts.b)
    (second : counts.b = counts.c) (keys : Triple WireKey) : counts.Fits keys := by
  have one : ∀ slot, counts.forSlot slot = counts.a := by
    intro slot
    cases slot with
    | a => rfl
    | b => exact first.symm
    | c => exact (first.trans second).symm
  exact ⟨one _, (one _).trans first, (one _).trans (first.trans second)⟩

section Sorting

variable {keys : Triple KeyContribution}

theorem sortBySlot_toList (keys : Triple KeyContribution) :
    (sortBySlot keys).toList =
      keys.toList.insertionSort fun x y => x.slot.asU8 ≤ y.slot.asU8 := by
  have three := (List.perm_insertionSort (fun x y : KeyContribution => x.slot.asU8 ≤ y.slot.asU8)
    keys.toList).length_eq
  obtain ⟨x, y, z, sorted⟩ := List.length_eq_three.mp three
  rw [sortBySlot, sorted]
  rfl

theorem sortBySlot_perm (keys : Triple KeyContribution) :
    (sortBySlot keys).toList.Perm keys.toList := by
  rw [sortBySlot_toList]
  exact List.perm_insertionSort _ _

theorem sortBySlot_distinct (distinct : (keys.toList.map KeyContribution.slot).Nodup) :
    SlotOrdered (sortBySlot keys) := by
  have sorted : (sortBySlot keys).toList.Pairwise fun x y => x.slot.asU8 ≤ y.slot.asU8 := by
    rw [sortBySlot_toList]
    exact List.pairwise_insertionSort _ _
  have different := (((sortBySlot_perm keys).map KeyContribution.slot).nodup_iff).mpr distinct
  generalize sortBySlot keys = ordered at sorted different
  simp only [Triple.toList, List.pairwise_cons, List.mem_cons, List.not_mem_nil, or_false,
    forall_eq_or_imp, forall_eq] at sorted
  simp only [Triple.toList, List.map_cons, List.map_nil, List.nodup_cons, List.mem_cons,
    List.not_mem_nil, or_false, not_or] at different
  obtain ⟨⟨xy, xz⟩, yz, _⟩ := sorted
  obtain ⟨⟨apart, apart'⟩, apart'', _⟩ := different
  unfold SlotOrdered
  generalize ordered.first.slot = x at *
  generalize ordered.second.slot = y at *
  generalize ordered.third.slot = z at *
  revert xy xz yz apart apart' apart''
  cases x <;> cases y <;> cases z <;> decide

end Sorting

section Permuted

variable {ms : Miniscript}

def WireKey.contrib (k : WireKey) (wordCount : WordCount) : KeyContribution :=
  ⟨k.slot, ⟨(fingerprintFromHex k.fingerprint).getD 0, k.originPath, k.xpub⟩, k.birthdayHeight,
    wordCount, k.source, k.policyId⟩

/-- What an entry has to satisfy to be read, whatever its word count. -/
def WireKey.Readable (k : WireKey) : Prop :=
  (fingerprintFromHex k.fingerprint).isSome = true ∧
    ¬ (k.source.isHardware = false ∧ k.policyId.isSome = true)

theorem toContrib_eq_ok {k : WireKey} {words : UInt8} {c : KeyContribution} :
    k.toContrib words = .ok c ↔
      k.Readable ∧ ∃ count : WordCount, words = count.words ∧ c = k.contrib count := by
  simp only [WireKey.toContrib, bind_eq_ok, okOr_eq_ok, rejectIf_eq_ok, pure_eq_ok,
    WordCount.fromWords_eq_some, WireKey.Readable, Option.isSome_iff_exists, WireKey.contrib,
    Bool.not_eq_true]
  constructor
  · intro read
    obtain ⟨count, valid, fingerprint, known, _, policy, rfl⟩ := read
    exact ⟨⟨⟨fingerprint, known⟩, policy⟩, count, valid, by rw [known]; rfl⟩
  · intro readable
    obtain ⟨⟨⟨fingerprint, known⟩, policy⟩, count, valid, rfl⟩ := readable
    exact ⟨count, valid, fingerprint, known, (), policy, by rw [known]; rfl⟩

theorem counts_iff {counts : WordCountMap} {keys : Triple KeyContribution}
    (slots : SlotOrdered (sortBySlot keys)) :
    ((sortBySlot keys).first.wordCount.words = counts.a ∧
      (sortBySlot keys).second.wordCount.words = counts.b ∧
      (sortBySlot keys).third.wordCount.words = counts.c) ↔
    ∀ c ∈ keys.toList, c.wordCount.words = counts.forSlot c.slot := by
  have same : (∀ c ∈ keys.toList, c.wordCount.words = counts.forSlot c.slot) ↔
      ∀ c ∈ (sortBySlot keys).toList, c.wordCount.words = counts.forSlot c.slot := by
    simp only [(sortBySlot_perm keys).mem_iff]
  obtain ⟨slotA, slotB, slotC⟩ := slots
  rw [same]
  simp only [Triple.toList, List.forall_mem_cons, slotA, slotB, slotC, WordCountMap.forSlot,
    List.not_mem_nil, false_implies, implies_true, and_true]

theorem words_injective {c c' : WordCount} : c.words = c'.words → c = c' := by
  cases c <;> cases c' <;> decide

theorem accepted_counts {d : WireDocument} {keys : Triple KeyContribution}
    {rebuilt : WalletDescriptors} (accepted : d.Accepted ms keys rebuilt) :
    ∃ count : KeySlot → WordCount, (∀ slot, (count slot).words = d.wordCount.forSlot slot) ∧
      (∀ k ∈ d.keys.toList, k.Readable) ∧
      keys.toList = d.keys.toList.map fun k => k.contrib (count k.slot) := by
  obtain ⟨readA, countA, wordsA, first⟩ := toContrib_eq_ok.mp accepted.first
  obtain ⟨readB, countB, wordsB, second⟩ := toContrib_eq_ok.mp accepted.second
  obtain ⟨readC, countC, wordsC, third⟩ := toContrib_eq_ok.mp accepted.third
  have own := (counts_iff accepted.slots).mp accepted.counts
  let count : KeySlot → WordCount := KeySlot.rec countA countB countC
  have agrees : ∀ slot, (count slot).words = d.wordCount.forSlot slot := by
    intro slot
    cases slot with
    | a => exact wordsA.symm
    | b => exact wordsB.symm
    | c => exact wordsC.symm
  refine ⟨count, agrees, ?_, ?_⟩
  · simp only [Triple.toList, List.forall_mem_cons]
    exact ⟨readA, readB, readC, by simp⟩
  · -- The count of the position is the count of the slot, by the check after sorting.
    simp only [Triple.toList, List.forall_mem_cons, first, second, third] at own
    obtain ⟨ownA, ownB, ownC, _⟩ := own
    have atA : countA = count d.keys.first.slot := words_injective (ownA.trans (agrees _).symm)
    have atB : countB = count d.keys.second.slot := words_injective (ownB.trans (agrees _).symm)
    have atC : countC = count d.keys.third.slot := words_injective (ownC.trans (agrees _).symm)
    simp only [Triple.toList, List.map_cons, List.map_nil, first, second, third, ← atA, ← atB,
      ← atC]

def positioned (keys : Triple WireKey) (count : KeySlot → WordCount) : Triple KeyContribution :=
  ⟨keys.first.contrib (count .a), keys.second.contrib (count .b), keys.third.contrib (count .c)⟩

theorem fits_iff {counts : WordCountMap} {count : KeySlot → WordCount}
    (agrees : ∀ slot, (count slot).words = counts.forSlot slot) (keys : Triple WireKey) :
    counts.Fits keys ↔
      ∀ c ∈ (positioned keys count).toList, c.wordCount.words = counts.forSlot c.slot := by
  simp only [positioned, WireKey.contrib, Triple.toList, List.forall_mem_cons, agrees,
    WordCountMap.Fits, WordCountMap.forSlot, List.not_mem_nil, false_implies, implies_true,
    and_true, eq_comm]

theorem positioned_of_fits {counts : WordCountMap} {count : KeySlot → WordCount}
    (agrees : ∀ slot, (count slot).words = counts.forSlot slot) {keys : Triple WireKey}
    (fits : counts.Fits keys) :
    (positioned keys count).toList = keys.toList.map fun k => k.contrib (count k.slot) := by
  obtain ⟨first, second, third⟩ := fits
  have atA : count keys.first.slot = count .a :=
    words_injective (((agrees _).trans first).trans (agrees .a).symm)
  have atB : count keys.second.slot = count .b :=
    words_injective (((agrees _).trans second).trans (agrees .b).symm)
  have atC : count keys.third.slot = count .c :=
    words_injective (((agrees _).trans third).trans (agrees .c).symm)
  simp only [positioned, Triple.toList, List.map_cons, List.map_nil, atA, atB, atC]

theorem positioned_read {counts : WordCountMap} {count : KeySlot → WordCount}
    (agrees : ∀ slot, (count slot).words = counts.forSlot slot) {keys : Triple WireKey}
    (readable : ∀ k ∈ keys.toList, k.Readable) :
    keys.first.toContrib counts.a = .ok (positioned keys count).first ∧
      keys.second.toContrib counts.b = .ok (positioned keys count).second ∧
      keys.third.toContrib counts.c = .ok (positioned keys count).third := by
  simp only [Triple.toList, List.forall_mem_cons] at readable
  obtain ⟨readA, readB, readC, _⟩ := readable
  exact ⟨toContrib_eq_ok.mpr ⟨readA, count .a, (agrees .a).symm, rfl⟩,
    toContrib_eq_ok.mpr ⟨readB, count .b, (agrees .b).symm, rfl⟩,
    toContrib_eq_ok.mpr ⟨readC, count .c, (agrees .c).symm, rfl⟩⟩

theorem positioned_ordered {d : WireDocument} {keys : Triple KeyContribution}
    {rebuilt : WalletDescriptors} (accepted : d.Accepted ms keys rebuilt)
    {count : KeySlot → WordCount}
    (records : keys.toList = d.keys.toList.map fun k => k.contrib (count k.slot))
    {keys' : Triple WireKey} (perm : keys'.toList.Perm d.keys.toList) :
    SlotOrdered (sortBySlot (positioned keys' count)) := by
  apply sortBySlot_distinct
  have same : (positioned keys' count).toList.map KeyContribution.slot =
      keys'.toList.map WireKey.slot := rfl
  have old : keys.toList.map KeyContribution.slot = d.keys.toList.map WireKey.slot := by
    rw [records, List.map_map]
    rfl
  rw [same, (perm.map WireKey.slot).nodup_iff, ← old,
    ((sortBySlot_perm keys).symm.map KeyContribution.slot).nodup_iff]
  obtain ⟨slotA, slotB, slotC⟩ := accepted.slots
  simp [Triple.toList, slotA, slotB, slotC]

theorem intoWallet_permuted {d : WireDocument} {w : WalletDescriptors}
    (read : d.intoWallet ms = .ok w) {keys' : Triple WireKey}
    (perm : keys'.toList.Perm d.keys.toList) :
    ({ d with keys := keys' } : WireDocument).intoWallet ms =
      if d.wordCount.Fits keys' then .ok w
      else fail (.invalidDocument (bytes "word_count map inconsistent with key records")) := by
  obtain ⟨keys, rebuilt, accepted, rfl⟩ := intoWallet_eq_ok.mp read
  obtain ⟨count, agrees, readable, records⟩ := accepted_counts accepted
  obtain ⟨first, second, third⟩ := @positioned_read d.wordCount count agrees keys'
    fun k member => readable k (perm.mem_iff.mp member)
  have slots := positioned_ordered accepted records perm
  by_cases fit : d.wordCount.Fits keys'
  · rw [if_pos fit]
    have moved : (positioned keys' count).toList.Perm keys.toList := by
      rw [positioned_of_fits agrees fit, records]
      exact perm.map _
    have same : sortBySlot (positioned keys' count) = sortBySlot keys :=
      slotOrdered_unique ((sortBySlot_perm _).trans (moved.trans (sortBySlot_perm keys).symm))
        slots accepted.slots
    refine intoWallet_eq_ok.mpr ⟨positioned keys' count, rebuilt, ?_, by rw [same]⟩
    exact {
      version := accepted.version
      validReceive := accepted.validReceive
      validChange := accepted.validChange
      notInternal := accepted.notInternal
      external := accepted.external
      notExternal := accepted.notExternal
      internal := accepted.internal
      singlePath := accepted.singlePath
      first := first
      second := second
      third := third
      slots := slots
      counts := same.symm ▸ accepted.counts
      built := same.symm ▸ accepted.built
      receive := accepted.receive
      change := accepted.change }
  · rw [if_neg fit]
    have mismatch : ¬ ((sortBySlot (positioned keys' count)).first.wordCount.words =
          d.wordCount.a ∧
        (sortBySlot (positioned keys' count)).second.wordCount.words = d.wordCount.b ∧
        (sortBySlot (positioned keys' count)).third.wordCount.words = d.wordCount.c) := by
      rw [counts_iff slots, ← fits_iff agrees]
      exact fit
    obtain ⟨slotA, slotB, slotC⟩ := slots
    have branches : ¬ (containsStr (bytes "/1/*") d.receiveDescriptor = true ∨
        ¬ containsStr (bytes "/0/*") d.receiveDescriptor = true ∨
        containsStr (bytes "/0/*") d.changeDescriptor = true ∨
        ¬ containsStr (bytes "/1/*") d.changeDescriptor = true) := by
      simp only [not_or, not_not]
      exact ⟨accepted.notInternal, accepted.external, accepted.notExternal, accepted.internal⟩
    simp only [WireDocument.intoWallet, rejectIf_of_not _ (not_not_intro accepted.version),
      accepted.validReceive, accepted.validChange, rejectIf_of_not _ branches,
      rejectIf_of_not _ accepted.singlePath, first, second, third, bind_ok]
    rw [rejectIf_of_not _ (by simp [slotA, slotB, slotC]), bind_ok, rejectIf, if_pos]
    · rfl
    · rw [← not_and_or, ← not_and_or]
      exact mismatch

end Permuted

/-- The order of the `keys` array of an accepted text: another order gives the
    same wallet if every entry stands at a position with the word count of its
    slot, as it always does with one count for all slots, and is rejected
    otherwise. -/
theorem permuted_keys_read_iff (ms : Miniscript) (json : SerdeJson) {text : Str}
    {w : WalletDescriptors} (accepted : WalletDescriptors.fromJson ms json text = .ok w) :
    ∃ wire, json.fromStr text = .ok wire ∧
      ∀ keys' : Triple WireKey, keys'.toList.Perm wire.keys.toList →
      ∀ text', json.fromStr text' = .ok { wire with keys := keys' } →
        WalletDescriptors.fromJson ms json text' =
            (if wire.wordCount.Fits keys' then .ok w
            else fail (.invalidDocument
              (bytes "word_count map inconsistent with key records"))) ∧
          (wire.wordCount.a = wire.wordCount.b → wire.wordCount.b = wire.wordCount.c →
            WalletDescriptors.fromJson ms json text' = .ok w) := by
  obtain ⟨wire, parsed, read⟩ := bind_eq_ok.mp accepted
  refine ⟨wire, ofExcept_eq_ok.mp parsed, ?_⟩
  intro keys' perm text' parsed'
  have result : WalletDescriptors.fromJson ms json text' =
      ({ wire with keys := keys' } : WireDocument).intoWallet ms := by
    rw [WalletDescriptors.fromJson, ofExcept_eq_ok.mpr parsed', bind_ok]
  rw [result, intoWallet_permuted read perm]
  refine ⟨rfl, ?_⟩
  intro first second
  rw [if_pos (fits_of_equal first second keys')]

namespace Sample

def document : WireDocument := .fromWallet wallet

/-- The records of B and C, which both have 24 words, in each other's place. -/
def swappedBC : Triple WireKey := ⟨.fromContrib keyA, .fromContrib keyC, .fromContrib keyB⟩

/-- The record of A, with 12 words, behind the record of B. -/
def swappedAB : Triple WireKey := ⟨.fromContrib keyB, .fromContrib keyA, .fromContrib keyC⟩

theorem document_read : document.intoWallet library = .ok wallet :=
  intoWallet_fromWallet (keepsBranch_of_prints library_prints_keys) built

end Sample

theorem permuted_keys_sample : ∃ text text' : Str,
    SerdeJson.pretty.fromStr text = .ok Sample.document ∧
      SerdeJson.pretty.fromStr text' = .ok { Sample.document with keys := Sample.swappedBC } ∧
      WalletDescriptors.fromJson Sample.library .pretty text = .ok Sample.wallet ∧
      WalletDescriptors.fromJson Sample.library .pretty text' = .ok Sample.wallet := by
  obtain ⟨text, _, parsed⟩ := SerdeJson.pretty_readsBack Sample.document
  obtain ⟨text', _, parsed'⟩ :=
    SerdeJson.pretty_readsBack { Sample.document with keys := Sample.swappedBC }
  have accepted : WalletDescriptors.fromJson Sample.library .pretty text = .ok Sample.wallet :=
    bind_eq_ok.mpr ⟨_, ofExcept_eq_ok.mpr parsed, Sample.document_read⟩
  obtain ⟨wire, same, permuted⟩ := permuted_keys_read_iff Sample.library .pretty accepted
  obtain rfl : Sample.document = wire := Except.ok.inj (parsed.symm.trans same)
  refine ⟨text, text', parsed, parsed', accepted, ?_⟩
  rw [(permuted Sample.swappedBC ((List.Perm.swap _ _ []).cons _) text' parsed').1,
    if_pos (by decide)]

/-- A document with 12 words for A and 24 for B, whose entries A and B change
    places: the order of the array decides whether it is accepted. -/
theorem swapped_keys_rejected : ∃ text text' : Str,
    SerdeJson.pretty.fromStr text = .ok Sample.document ∧
      SerdeJson.pretty.fromStr text' = .ok { Sample.document with keys := Sample.swappedAB } ∧
      Sample.swappedAB.toList.Perm Sample.document.keys.toList ∧
      WalletDescriptors.fromJson Sample.library .pretty text = .ok Sample.wallet ∧
      WalletDescriptors.fromJson Sample.library .pretty text' = fail (.invalidDocument
        (bytes "word_count map inconsistent with key records")) := by
  obtain ⟨text, _, parsed⟩ := SerdeJson.pretty_readsBack Sample.document
  obtain ⟨text', _, parsed'⟩ :=
    SerdeJson.pretty_readsBack { Sample.document with keys := Sample.swappedAB }
  have perm : Sample.swappedAB.toList.Perm Sample.document.keys.toList := List.Perm.swap _ _ _
  refine ⟨text, text', parsed, parsed', perm,
    bind_eq_ok.mpr ⟨_, ofExcept_eq_ok.mpr parsed, Sample.document_read⟩, ?_⟩
  rw [WalletDescriptors.fromJson, ofExcept_eq_ok.mpr parsed', bind_ok,
    intoWallet_permuted Sample.document_read perm, if_neg (by decide)]

end Watch

end Trinity
