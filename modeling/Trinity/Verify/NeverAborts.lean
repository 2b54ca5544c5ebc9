import Trinity.Verify.ChangeBinding
import Trinity.Verify.ParserReturns

/-!
Where the verifier aborts. The parser never does, and the checks read fields
that an earlier check required. What is left is the origin of a change key,
which is parsed again behind a literal `m/`: the abort is exactly the run that
comes to an entry for a key whose origin is written with `m/`.
-/
namespace Trinity

open Outcome

section Checks

variable {env : Primitives}

theorem parseIl_returns (il : BitVec 256) : Returns (parseIl il) := by
  unfold parseIl
  split
  · exact onlyFails_ok _
  · exact onlyFails_fail trivial

theorem ckdPub_returns (chainCode : BitVec 256) (pk : SecpPublicKey) (index : UInt32) :
    Returns (ckdPub env chainCode pk index) := by
  apply onlyFails_rejectIf_bind trivial
  intro _
  apply onlyFails_rejectIf_bind trivial
  intro _
  refine onlyFails_bind (parseIl_returns _) ?_
  intro il _
  apply onlyFails_okOr_bind trivial
  intro childPk _
  exact onlyFails_ok _

theorem deriveChild_returns (key : KeyExpr) (index : UInt32) :
    Returns (deriveChild env key index) := by
  apply onlyFails_rejectIf_bind trivial
  intro _
  apply onlyFails_okOr_bind trivial
  intro xp _
  refine onlyFails_bind (ckdPub_returns _ _ _) ?_
  intro mid _
  refine onlyFails_bind (ckdPub_returns _ _ _) ?_
  intro child _
  apply onlyFails_rejectIf_bind trivial
  intro _
  exact onlyFails_ok _

theorem deriveAt_returns (desc : ParsedDescriptor) (index : UInt32) :
    Returns (deriveAt env desc index) := by
  refine onlyFails_bind (deriveChild_returns _ _) ?_
  intro c0 _
  refine onlyFails_bind (deriveChild_returns _ _) ?_
  intro c1 _
  refine onlyFails_bind (deriveChild_returns _ _) ?_
  intro c2 _
  have built : ∀ keys, Returns (witnessScript2of3 keys) := by
    intro keys
    apply onlyFails_rejectIf_bind trivial
    intro _
    refine onlyFails_bind (onlyFails_forM fun _ _ => onlyFails_rejectIf trivial) ?_
    intro _ _
    exact onlyFails_ok _
  refine onlyFails_bind (built _) ?_
  intro script _
  exact onlyFails_ok _

theorem probe_returns (script : Script) (desc : ParsedDescriptor) (i : UInt32) :
    Returns (probe env script desc i) := by
  refine onlyFails_bind (onlyFails_mapErr (deriveAt_returns desc i) fun _ _ => trivial) ?_
  intro derived _
  exact onlyFails_ok _

theorem findIndexMatching_returns (script : Script) (desc : ParsedDescriptor) (gap : UInt32)
    (hint : Option UInt32) : Returns (findIndexMatching env script desc gap hint) := by
  have hinted : Returns (probeHint env script desc gap hint) := by
    unfold probeHint probeHintIn
    split
    · split
      · exact probe_returns _ _ _
      · exact onlyFails_ok _
    · exact onlyFails_ok _
  refine onlyFails_bind hinted ?_
  intro found _
  cases found with
  | some h => exact onlyFails_ok _
  | none =>
    apply onlyFails_findSomeM?
    intro i _
    split
    · exact onlyFails_ok _
    · exact probe_returns _ _ _

theorem matchesAnyDerived_returns (script : Script) (receive : ParsedDescriptor)
    (change : Option ParsedDescriptor) (gap : UInt32) (hint : Option UInt32) :
    Returns (matchesAnyDerived env script receive change gap hint) := by
  refine onlyFails_bind (findIndexMatching_returns _ _ _ _) ?_
  intro found _
  cases found with
  | some i => exact onlyFails_ok _
  | none =>
    cases change with
    | none => exact onlyFails_ok _
    | some chg =>
      refine onlyFails_bind (findIndexMatching_returns _ _ _ _) ?_
      intro _ _
      exact onlyFails_ok _

theorem checkV8_returns (psbt : Psbt) : Returns (checkV8 psbt) := by
  apply onlyFails_rejectIf_bind trivial
  intro _
  apply onlyFails_rejectIf_bind trivial
  intro _
  apply onlyFails_rejectIf_bind trivial
  intro _
  apply onlyFails_rejectIf_bind trivial
  intro _
  apply onlyFails_rejectIf_bind trivial
  intro _
  refine onlyFails_bind (onlyFails_forM fun txin _ => ?_) ?_
  · apply onlyFails_rejectIf_bind trivial
    intro _
    exact onlyFails_rejectIf trivial
  intro _ _
  apply onlyFails_rejectIf_bind trivial
  intro _
  refine onlyFails_bind (onlyFails_forM fun _ _ => onlyFails_rejectIf trivial) ?_
  intro _ _
  exact onlyFails_forM fun _ _ => onlyFails_rejectIf trivial

theorem checkV9_returns (psbt : Psbt) : Returns (checkV9 psbt) := by
  apply onlyFails_forM
  rintro ⟨input, i⟩ _
  dsimp only
  cases input.witnessUtxo with
  | some utxo => exact onlyFails_ok _
  | none =>
    cases input.nonWitnessUtxo with
    | some tx => exact onlyFails_fail trivial
    | none => exact onlyFails_fail trivial

def SpentShown (psbt : Psbt) : Prop := ∀ input ∈ psbt.inputs, ∃ utxo, input.witnessUtxo = some utxo

theorem spentShown_of_checkV9 {psbt : Psbt} {u : Unit} (passed : checkV9 psbt = .ok u) :
    SpentShown psbt := by
  intro input member
  obtain ⟨i, at_⟩ := List.getElem?_of_mem member
  exact checkV9_eq_ok.mp passed i input at_

theorem checkV7_returns {psbt : Psbt} (shown : SpentShown psbt) (policy : VerifyPolicy) :
    Returns (checkV7 psbt policy) := by
  apply onlyFails_forM
  rintro ⟨⟨txin, input⟩, i⟩ member
  have listed : input ∈ psbt.inputs := (List.of_mem_zip (List.fst_mem_of_mem_zipIdx member)).2
  apply onlyFails_okOr_bind trivial
  intro known _
  refine onlyFails_bind (onlyFails_expect (shown input listed)) ?_
  intro utxo _
  exact onlyFails_rejectIf trivial

theorem checkV2_returns {psbt : Psbt} (shown : SpentShown psbt) (receive : ParsedDescriptor)
    (change : Option ParsedDescriptor) (policy : VerifyPolicy) :
    Returns (checkV2 env psbt receive change policy) := by
  apply onlyFails_forM
  rintro ⟨input, i⟩ member
  refine onlyFails_bind (onlyFails_expect (shown input (List.fst_mem_of_mem_zipIdx member))) ?_
  intro utxo _
  refine onlyFails_bind (matchesAnyDerived_returns _ _ _ _ _) ?_
  intro own _
  exact onlyFails_rejectIf trivial

theorem originMatchesPath_panics {path : DerivationPath} {key : KeyExpr}
    (valid : validateOriginPath key.originPath = .ok ()) (six : path.length = 6) :
    originMatchesPath path key.originPath = .error .panic ↔
      startsWith key.originPath (bytes "m/") = true := by
  cases plain : startsWith key.originPath (bytes "m/") with
  | true =>
    rw [originMatchesPath, parse_origin_prefixed plain]
    exact iff_of_true rfl rfl
  | false =>
    obtain ⟨coin, _, parsed⟩ := parse_origin valid plain
    have returns : Returns (originMatchesPath path key.originPath) := by
      refine onlyFails_bind (onlyFails_expect ⟨_, parsed⟩) ?_
      intro origin written
      have four := origin_length valid (expect_eq_ok.mp written)
      refine onlyFails_bind (onlyFails_abortUnless four) ?_
      intro _ _
      apply onlyFails_allM
      intro i inside
      rw [List.mem_range] at inside
      refine onlyFails_bind (onlyFails_expect ⟨_, List.getElem?_eq_getElem (by omega)⟩) ?_
      intro actual _
      refine onlyFails_bind (onlyFails_expect ⟨_, List.getElem?_eq_getElem (by omega)⟩) ?_
      intro expected _
      exact onlyFails_ok _
    exact iff_of_false returns.ne_panic Bool.false_ne_true

def EndsAsChange (path : DerivationPath) (index : UInt32) : Prop :=
  path.length = 6 ∧ path[4]? = some (.normal 1) ∧ path[5]? = some (.normal index)

instance (path : DerivationPath) (index : UInt32) : Decidable (EndsAsChange path index) :=
  inferInstanceAs (Decidable (_ ∧ _ ∧ _))

theorem pathIsChangeAt_panics {path : DerivationPath} {key : KeyExpr}
    (valid : validateOriginPath key.originPath = .ok ()) (index : UInt32) :
    pathIsChangeAt path key index = .error .panic ↔
      startsWith key.originPath (bytes "m/") = true ∧ EndsAsChange path index := by
  unfold pathIsChangeAt EndsAsChange
  split
  · rename_i length
    simp [length]
  · rename_i length
    have six : path.length = 6 := Decidable.not_not.mp length
    have branch : path[4]? = some (path.get ⟨4, by omega⟩) := List.getElem?_eq_getElem (by omega)
    have last : path[5]? = some (path.get ⟨5, by omega⟩) := List.getElem?_eq_getElem (by omega)
    rw [branch, last]
    simp only [expect, Outcome.bind_ok, Option.some.injEq, six, true_and]
    split
    · rename_i ends
      simp only [ends, and_self, and_true]
      exact originMatchesPath_panics valid six
    · rename_i differs
      exact iff_of_false (by simp) fun ends => differs ends.2

/-- The fingerprint of the entry names a key with an origin written with `m/`, and its
    path ends like the change path of the index. -/
def MasterEntry (chg : ParsedDescriptor) (index : UInt32) (entry : SecpPublicKey × KeySource) :
    Prop :=
  ∃ key, keyExprForFingerprint chg entry.2.1 = some key ∧
    startsWith key.originPath (bytes "m/") = true ∧ EndsAsChange entry.2.2 index

/-- The loop over a derivation map comes to such an entry: those before it are bound and
    no fingerprint is repeated. -/
def MeetsMaster (chg : ParsedDescriptor) (index : UInt32)
    (entries : List (SecpPublicKey × KeySource)) : Prop :=
  ∃ before entry after, entries = before ++ entry :: after ∧
    (∀ e ∈ before, EntryBound chg index e) ∧
    ((before ++ [entry]).map fun e => e.2.1).Nodup ∧ MasterEntry chg index entry

theorem checkV4Entries_cons_panics {chg : ParsedDescriptor}
    (valid : ∀ key ∈ chg.keys, validateOriginPath key.originPath = .ok ()) {index : UInt32}
    {seen : List Fingerprint} {entry : SecpPublicKey × KeySource}
    {rest : List (SecpPublicKey × KeySource)} :
    checkV4Entries chg index seen (entry :: rest) = .error .panic ↔
      entry.2.1 ∉ seen ∧ (MasterEntry chg index entry ∨ EntryBound chg index entry ∧
        checkV4Entries chg index (entry.2.1 :: seen) rest = .error .panic) := by
  obtain ⟨pk, fp, path⟩ := entry
  rw [checkV4Entries, rejectIf_bind_eq_panic, okOr_bind_eq_panic]
  apply and_congr_right
  intro _
  constructor
  · rintro ⟨key, found, aborted⟩
    have known := valid key (keyExprForFingerprint_some found).1
    rcases bind_eq_panic.mp aborted with aborts | ⟨same, run, aborted⟩
    · exact .inl ⟨key, found, (pathIsChangeAt_panics known index).mp aborts⟩
    · obtain ⟨bound, later⟩ := rejectIf_bind_eq_panic.mp aborted
      rw [Decidable.not_not] at bound
      subst bound
      exact .inr ⟨⟨key, found, (pathIsChangeAt_true known).mp run⟩, later⟩
  · rintro (⟨key, found, master⟩ | ⟨⟨key, found, bound⟩, later⟩)
    · have known := valid key (keyExprForFingerprint_some found).1
      exact ⟨key, found, bind_eq_panic.mpr (.inl ((pathIsChangeAt_panics known index).mpr master))⟩
    · have known := valid key (keyExprForFingerprint_some found).1
      refine ⟨key, found, bind_eq_panic.mpr (.inr ⟨true, ?_, ?_⟩)⟩
      · exact (pathIsChangeAt_true known).mpr bound
      · exact rejectIf_bind_eq_panic.mpr ⟨not_not.mpr rfl, later⟩

-- The fingerprints seen grow along the loop, so the induction carries them.
theorem checkV4Entries_panics {chg : ParsedDescriptor}
    (valid : ∀ key ∈ chg.keys, validateOriginPath key.originPath = .ok ()) {index : UInt32}
    {entries : List (SecpPublicKey × KeySource)} {seen : List Fingerprint} :
    checkV4Entries chg index seen entries = .error .panic ↔
      ∃ before entry after, entries = before ++ entry :: after ∧
        (∀ e ∈ before, EntryBound chg index e) ∧
        ((before ++ [entry]).map (fun e => e.2.1)).Nodup ∧
        (∀ e ∈ before ++ [entry], e.2.1 ∉ seen) ∧ MasterEntry chg index entry := by
  induction entries generalizing seen with
  | nil => simp [checkV4Entries]
  | cons first rest ih =>
    rw [checkV4Entries_cons_panics valid, ih]
    constructor
    · rintro ⟨fresh, here | ⟨bound, before, entry, after, rfl, all, distinct, unseen, master⟩⟩
      · exact ⟨[], first, rest, rfl, by simp, by simp, by simpa using fresh, here⟩
      · refine ⟨first :: before, entry, after, rfl, ?_, ?_, ?_, master⟩
        · exact List.forall_mem_cons.mpr ⟨bound, all⟩
        · rw [List.cons_append, List.map_cons, List.nodup_cons]
          refine ⟨?_, distinct⟩
          intro again
          obtain ⟨e, member, same⟩ := List.mem_map.mp again
          exact unseen e member (same ▸ List.mem_cons_self)
        · rw [List.cons_append, List.forall_mem_cons]
          exact ⟨fresh, fun e member old => unseen e member (List.mem_cons_of_mem _ old)⟩
    · rintro ⟨before, entry, after, split, all, distinct, unseen, master⟩
      cases before with
      | nil =>
        obtain ⟨rfl, rfl⟩ := List.cons.inj split
        exact ⟨unseen first (by simp), .inl master⟩
      | cons head tail =>
        rw [List.cons_append] at split distinct unseen
        obtain ⟨rfl, rfl⟩ := List.cons.inj split
        obtain ⟨bound, all⟩ := List.forall_mem_cons.mp all
        rw [List.map_cons, List.nodup_cons] at distinct
        obtain ⟨fresh, unseen⟩ := List.forall_mem_cons.mp unseen
        refine ⟨fresh, .inr ⟨bound, tail, entry, after, rfl, all, distinct.2, ?_, master⟩⟩
        intro e member old
        rcases List.mem_cons.mp old with same | older
        · exact distinct.1 (same ▸ List.mem_map_of_mem member)
        · exact unseen e member older

theorem checkV4Change_panics {chg : ParsedDescriptor}
    (valid : ∀ key ∈ chg.keys, validateOriginPath key.originPath = .ok ()) {output : Output}
    {index : UInt32} (derives : ∃ derived, deriveAt env chg index = .ok derived) :
    checkV4Change env output chg index = .error .panic ↔
      output.bip32Derivation.size = 3 ∧
        MeetsMaster chg index output.bip32Derivation.entries := by
  obtain ⟨derived, at_⟩ := derives
  simp only [checkV4ChangeIn, Marked.call_outcome, Marked.mapErr_outcome, monadLift_self]
  rw [at_, mapErr, Outcome.bind_ok, rejectIf_bind_eq_panic, bind_eq_panic,
    checkV4Entries_panics valid, Decidable.not_not]
  apply and_congr_right
  intro three
  rw [or_iff_left]
  · simp [MeetsMaster]
  · rintro ⟨_, _, aborted⟩
    have aborted := (rejectIf_bind_eq_panic.mp aborted).2
    simp only [abortUnless, OrderedMap.keys_length, three] at aborted
    simp at aborted

/-- The classification of the outputs comes to an output that it finds at a change index,
    and the check of its derivation map comes to an entry of a key written with `m/`. -/
def ReachesMaster (env : Primitives) (psbt : Psbt) (chg : ParsedDescriptor)
    (policy : VerifyPolicy) : Prop :=
  ∃ (i : Nat) (txout : TxOut) (output : Output) (index : UInt32),
    psbt.unsignedTx.output[i]? = some txout ∧ psbt.outputs[i]? = some output ∧
    (∀ j < i, ∃ earlier c, psbt.unsignedTx.output[j]? = some earlier ∧
      Classified env psbt (some chg) policy j earlier c) ∧
    txout.scriptPubkey.hasAddress = true ∧ ¬ PaysRecipient env policy txout ∧
    findIndexMatching env txout.scriptPubkey chg policy.gapLimit
      (bip32IndexHint output.bip32Derivation) = .ok (some index) ∧
    output.bip32Derivation.size = 3 ∧ MeetsMaster chg index output.bip32Derivation.entries

theorem addressFromScript_returns (script : Script) (network : Network) (i : Nat) :
    Returns (addressFromScript env script network i) := by
  unfold addressFromScript
  split
  · exact onlyFails_ok _
  · exact onlyFails_fail trivial

theorem classifyOutput_panics {psbt : Psbt} {change : Option ParsedDescriptor}
    (valid : ∀ chg, change = some chg →
      ∀ key ∈ chg.keys, validateOriginPath key.originPath = .ok ())
    {policy : VerifyPolicy} {txout : TxOut} {i : Nat} (inside : i < psbt.outputs.length) :
    classifyOutput env psbt change policy txout i = .error .panic ↔
      ∃ chg output index, change = some chg ∧ psbt.outputs[i]? = some output ∧
        txout.scriptPubkey.hasAddress = true ∧ ¬ PaysRecipient env policy txout ∧
        findIndexMatching env txout.scriptPubkey chg policy.gapLimit
          (bip32IndexHint output.bip32Derivation) = .ok (some index) ∧
        output.bip32Derivation.size = 3 ∧
        MeetsMaster chg index output.bip32Derivation.entries := by
  have map : psbt.outputs[i]? = some (psbt.outputs.get ⟨i, inside⟩) :=
    List.getElem?_eq_getElem inside
  simp only [classifyOutputIn, Marked.mapErr_outcome, monadLift_self]
  rw [(addressFromScript_returns _ _ _).bind_eq_panic]
  constructor
  · rintro ⟨address, named, aborted⟩
    obtain ⟨known, rfl⟩ := addressFromScript_eq_ok.mp named
    split at aborted
    · simp at aborted
    · rename_i foreign
      rw [any_recipient known] at foreign
      obtain ⟨chg, described, aborted⟩ := okOr_bind_eq_panic.mp aborted
      rw [map, expect, Outcome.bind_ok,
        (findIndexMatching_returns _ _ _ _).bind_eq_panic] at aborted
      obtain ⟨found, search, unfound⟩ := aborted
      obtain ⟨index, rfl, checked⟩ := okOr_bind_eq_panic.mp unfound
      obtain ⟨_, derived, at_, _⟩ := findIndexMatching_some search
      rcases bind_eq_panic.mp checked with aborts | ⟨_, _, done⟩
      · rw [mapErr_eq_panic, checkV4Change_panics (valid chg described) ⟨derived, at_⟩] at aborts
        exact ⟨chg, _, index, described, map, known, foreign, search, aborts⟩
      · simp at done
  · rintro ⟨chg, output, index, described, map', known, foreign, search, aborts⟩
    obtain ⟨_, derived, at_, _⟩ := findIndexMatching_some search
    refine ⟨_, addressFromScript_eq_ok.mpr ⟨known, rfl⟩, ?_⟩
    rw [if_neg (mt (any_recipient known).mp foreign), described, okOr, Outcome.bind_ok, map',
      expect, Outcome.bind_ok]
    refine bind_eq_panic.mpr (.inr ⟨some index, search, ?_⟩)
    rw [okOr, Outcome.bind_ok]
    refine bind_eq_panic.mpr (.inl ?_)
    rw [mapErr_eq_panic, checkV4Change_panics (valid chg described) ⟨derived, at_⟩]
    exact aborts

theorem classifyOutputs_panics {psbt : Psbt} (shape : WellFormed psbt)
    {change : Option ParsedDescriptor}
    (valid : ∀ chg, change = some chg →
      ∀ key ∈ chg.keys, validateOriginPath key.originPath = .ok ())
    {policy : VerifyPolicy} :
    classifyOutputs env psbt change policy = .error .panic ↔
      ∃ chg, change = some chg ∧ ReachesMaster env psbt chg policy := by
  have inside {i : Nat} {txout : TxOut} (at_ : psbt.unsignedTx.output[i]? = some txout) :
      i < psbt.outputs.length := by
    rw [shape.outputMaps]
    exact (List.getElem?_eq_some_iff.mp at_).1
  rw [classifyOutputs, classifyOutputsIn, mapM_zipIdx_eq_panic]
  constructor
  · rintro ⟨i, txout, at_, reached, aborts⟩
    obtain ⟨chg, output, index, rfl, map, meets⟩ :=
      (classifyOutput_panics valid (inside at_)).mp aborts
    refine ⟨chg, rfl, i, txout, output, index, at_, map, ?_, meets⟩
    intro j below
    obtain ⟨earlier, c, there, passed⟩ := reached j below
    exact ⟨earlier, c, there, classifyOutput_eq_ok.mp passed⟩
  · rintro ⟨chg, rfl, i, txout, output, index, at_, map, reached, meets⟩
    refine ⟨i, txout, at_, ?_, ?_⟩
    · intro j below
      obtain ⟨earlier, c, there, passed⟩ := reached j below
      exact ⟨earlier, c, there, classifyOutput_eq_ok.mpr passed⟩
    · exact (classifyOutput_panics valid (inside at_)).mpr ⟨chg, output, index, rfl, map, meets⟩

theorem checkV5_returns {psbt : Psbt} (shown : SpentShown psbt) (policy : VerifyPolicy) :
    Returns (checkV5 psbt policy) := by
  have sumIn : Returns (sumInputs psbt) := by
    apply onlyFails_foldlM
    intro input listed acc
    refine onlyFails_bind (onlyFails_expect (shown input listed)) ?_
    intro utxo _
    exact onlyFails_okOr trivial
  have sumOut : Returns (sumOutputs psbt) :=
    onlyFails_foldlM (fun _ _ _ => onlyFails_okOr trivial) 0
  refine onlyFails_bind sumIn ?_
  intro _ _
  refine onlyFails_bind sumOut ?_
  intro _ _
  apply onlyFails_okOr_bind trivial
  intro fee _
  apply onlyFails_rejectIf_bind trivial
  intro _
  apply onlyFails_rejectIf_bind trivial
  intro _
  have declared : Returns (checkDeclaredFee policy.declaredFeeSats fee) := by
    unfold checkDeclaredFee
    split
    · exact onlyFails_rejectIf trivial
    · exact onlyFails_ok _
  refine onlyFails_bind declared ?_
  intro _ _
  apply onlyFails_rejectIf_bind trivial
  intro _
  exact onlyFails_ok _

theorem checkV10_returns (psbt : Psbt) : Returns (checkV10 psbt) := by
  apply onlyFails_forM
  rintro ⟨input, i⟩ _
  have field : Returns (checkSighashField input.sighashType i) := by
    unfold checkSighashField
    split
    · exact onlyFails_rejectIf trivial
    · exact onlyFails_ok _
  refine onlyFails_bind field ?_
  intro _ _
  apply onlyFails_forM
  intro sig _
  apply onlyFails_rejectIf_bind trivial
  intro _
  exact onlyFails_rejectIf trivial

theorem parseChange_returns (changeDescriptor : Option Str) :
    Returns (parseChange env changeDescriptor) := by
  cases changeDescriptor with
  | none => exact onlyFails_ok _
  | some s =>
    rw [parseChange]
    obtain ⟨chg, parsed⟩ | ⟨e, failed, _⟩ := (@parse_returns env s).ok_or_fail
    · rw [parsed]
      exact onlyFails_ok _
    · rw [failed]
      trivial

/-- The verifier ends with a verdict or an error, whatever it is given, unless the checks
    before let it come to a change output that names a key written with `m/`. -/
theorem verify_returns_iff (env : Primitives) (psbt : Psbt) (descriptor : Str)
    (policy : VerifyPolicy) :
    verify env psbt descriptor policy ≠ .error .panic ↔
      ¬ ∃ receive chg, parse env descriptor = .ok receive ∧
        parseChange env policy.changeDescriptor = .ok (some chg) ∧
        checkV8 psbt = .ok () ∧ checkV9 psbt = .ok () ∧ checkV7 psbt policy = .ok () ∧
        checkV2 env psbt receive (some chg) policy = .ok () ∧
        ReachesMaster env psbt chg policy := by
  have origins {change : Option ParsedDescriptor} {chg : ParsedDescriptor}
      (parsed : parseChange env policy.changeDescriptor = .ok change)
      (described : change = some chg) :
      ∀ key ∈ chg.keys, validateOriginPath key.originPath = .ok () := by
    subst described
    obtain ⟨s, _, parsed⟩ := parseChange_some.mp parsed
    exact parse_origins parsed
  apply not_congr
  constructor
  · intro aborted
    have parses : Returns (mapErr VerifyError.descriptor (parse env descriptor)) :=
      onlyFails_mapErr (parse_returns descriptor) fun _ _ => trivial
    have parsesChange :
        Returns (mapErr VerifyError.descriptor (parseChange env policy.changeDescriptor)) :=
      onlyFails_mapErr (parseChange_returns _) fun _ _ => trivial
    simp only [verifyIn, monadLift_self] at aborted
    rw [parses.bind_eq_panic] at aborted
    obtain ⟨receive, parsed, aborted⟩ := aborted
    obtain ⟨change, parsedChange, aborted⟩ := parsesChange.bind_eq_panic.mp aborted
    rw [mapErr_eq_ok] at parsed parsedChange
    obtain ⟨_, v8, aborted⟩ := (checkV8_returns psbt).bind_eq_panic.mp aborted
    have shape := checkV8_eq_ok.mp v8
    obtain ⟨_, v9, aborted⟩ := (checkV9_returns psbt).bind_eq_panic.mp aborted
    have shown := spentShown_of_checkV9 v9
    obtain ⟨_, v7, aborted⟩ := (checkV7_returns shown policy).bind_eq_panic.mp aborted
    obtain ⟨_, v2, aborted⟩ :=
      (checkV2_returns shown receive change policy).bind_eq_panic.mp aborted
    rcases bind_eq_panic.mp aborted with classifies | ⟨classified, _, aborted⟩
    · obtain ⟨chg, rfl, reaches⟩ :=
        (classifyOutputs_panics shape fun _ => origins parsedChange).mp classifies
      exact ⟨receive, chg, parsed, parsedChange, v8, v9, v7, v2, reaches⟩
    · obtain ⟨_, _, aborted⟩ := (checkV5_returns shown policy).bind_eq_panic.mp aborted
      obtain ⟨_, aborted⟩ := rejectIf_bind_eq_panic.mp aborted
      obtain ⟨_, _, done⟩ := (checkV10_returns psbt).bind_eq_panic.mp aborted
      simp at done
  · rintro ⟨receive, chg, parsed, parsedChange, v8, v9, v7, v2, reaches⟩
    have shape := checkV8_eq_ok.mp v8
    have aborts := (classifyOutputs_panics shape fun _ => origins parsedChange).mpr
      ⟨chg, rfl, reaches⟩
    simp only [verifyIn, monadLift_self, parsed, parsedChange, mapErr, Outcome.bind_ok, v8, v9, v7,
      v2, aborts]
    rfl

end Checks

namespace Sample

def masterDescriptor : Str := bytes "wsh(sortedmulti(" ++ bytes "2," ++ bytes "[27f21145/" ++
    bytes "m/48'/1'/0'/2']" ++ xpubA ++ bytes "/1/*," ++ bytes "[e5968976/" ++
    bytes "m/48'/1'/0'/2']" ++ xpubB ++ bytes "/1/*," ++ bytes "[d057bc77/" ++
    bytes "m/48'/1'/0'/2']" ++ xpubC ++ bytes "/1/*))" ++ bytes "#ghsydcff"

def masterPolicy : VerifyPolicy := { policy with changeDescriptor := some masterDescriptor }

def masterWallet : ParsedDescriptor :=
  ⟨2, ⟨fingerprintA, bytes "m/48'/1'/0'/2'", xpubA, .internal⟩,
    ⟨fingerprintB, bytes "m/48'/1'/0'/2'", xpubB, .internal⟩,
    ⟨fingerprintC, bytes "m/48'/1'/0'/2'", xpubC, .internal⟩⟩

theorem parsed_master : parse env masterDescriptor = .ok masterWallet := by
  decide +kernel

theorem parsed_masterPolicy :
    parseChange env masterPolicy.changeDescriptor = .ok (some masterWallet) :=
  parseChange_some.mpr ⟨masterDescriptor, rfl, parsed_master⟩

end Sample

/-- The parser accepts origins written with `m/`; the verifier then aborts on
    the change output of an honest payment. -/
theorem master_origin_aborts :
    (parse Sample.env Sample.masterDescriptor).toOption.isSome = true ∧
      verify Sample.env Sample.psbt Sample.receiveDescriptor Sample.masterPolicy =
        .error .panic := by
  constructor
  · rw [Sample.parsed_master]
    rfl
  · rw [verify, verifyIn, Sample.parsed_receive, Sample.parsed_masterPolicy]
    decide +kernel

end Trinity
