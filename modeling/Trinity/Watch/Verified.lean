import Mathlib.Data.List.TakeWhile
import Trinity.Verify.ParserGrammar
import Trinity.Watch.SlotOrder

/-!
Wallets of the builder are wallets of the verifier. The builder hands its key
expressions to the miniscript library and stores what that prints; the parser
of the verifying crate reads the keys back from it.
-/
namespace Trinity.Watch

open Outcome

def branchSuffix : DerivationBranch → Str
  | .external => receiveSuffix
  | .internal => changeSuffix

def childText : ChildNumber → Str
  | .normal index => numeral index.toNat
  | .hardened index => numeral index.toNat ++ [39]

def pathText (path : DerivationPath) : Str := List.intercalate [47] (path.map childText)

/-- The key expression of a key record as printed: fingerprint in lower case,
    the origin's steps, the xpub as it came. -/
def printedKey (x : XpubWithOrigin) (origin : DerivationPath) (branch : DerivationBranch) :
    WrittenKey :=
  ⟨toHex x.fingerprint, pathText origin, x.xpub, branch⟩

def slash : UInt8 := 47

/-- The library prints the key expressions `x`, `y`, `z` of one branch as
    `createChecksum` does their descriptor. -/
def PrintsKeys (ms : Miniscript) (x y z : XpubWithOrigin) : Prop :=
  ∀ (p q r : DerivationPath) (branch : DerivationBranch) (kx ky kz : ms.Key)
    (desc : ms.Descriptor),
    ms.keyFromStr (keyExpressionText x (branchSuffix branch)) = .ok kx →
    ms.keyFromStr (keyExpressionText y (branchSuffix branch)) = .ok ky →
    ms.keyFromStr (keyExpressionText z (branchSuffix branch)) = .ok kz →
    DerivationPath.parse (stripMaster x.originPath) = some p →
    DerivationPath.parse (stripMaster y.originPath) = some q →
    DerivationPath.parse (stripMaster z.originPath) = some r →
    ms.newWshSortedmulti multisigThreshold [kx, ky, kz] = .ok desc →
      createChecksum (descriptorBody (printedKey x p branch) (printedKey y q branch)
        (printedKey z r branch)) = .ok (ms.toString desc)

/-- What the miniscript library is relied on for. Of the text behind the origin it
    hands only the part before the first slash to `Xpub::from_str`, and takes the
    rest for derivation steps. Around three xpubs it prints a `sortedmulti`
    descriptor as its key expressions in the order given, with the checksum behind. -/
structure PrintsSortedmulti (env : Primitives) (ms : Miniscript) : Prop where
  accepts : ∀ (x : XpubWithOrigin) (p : DerivationPath) (branch : DerivationBranch) (key : ms.Key),
    ms.keyFromStr (keyExpressionText x (branchSuffix branch)) = .ok key →
    DerivationPath.parse (stripMaster x.originPath) = some p →
      (env.xpubFromStr (x.xpub.takeWhile (· ≠ slash))).isSome = true
  prints : ∀ x y z : XpubWithOrigin, (env.xpubFromStr x.xpub).isSome = true →
    (env.xpubFromStr y.xpub).isSome = true → (env.xpubFromStr z.xpub).isSome = true →
    PrintsKeys ms x y z

section Fingerprint

theorem hexChar_value : ∀ n < 16, isHexDigit (hexChars.getD n 0) = true ∧
    hexNibble (hexChars.getD n 0) = some n := by
  decide

theorem byte_nibbles (b : UInt8) : b.toNat / 16 < 16 ∧ b.toNat % 16 < 16 := by
  have := b.toNat_lt
  omega

theorem toHex_length (fingerprint : Fingerprint) : (toHex fingerprint).length = 8 := by
  simp [toHex, List.length_flatMap]

theorem toHex_digits (fingerprint : Fingerprint) :
    ∀ c ∈ toHex fingerprint, isHexDigit c = true := by
  intro c member
  obtain ⟨b, _, digit⟩ := List.mem_flatMap.mp member
  obtain ⟨high, low⟩ := byte_nibbles b
  simp only [List.mem_cons, List.not_mem_nil, or_false] at digit
  rcases digit with rfl | rfl
  · exact (hexChar_value _ high).1
  · exact (hexChar_value _ low).1

theorem hexDigits_value (s : Str) (start : Nat) :
    (s.flatMap fun b => [hexChars.getD (b.toNat / 16) 0, hexChars.getD (b.toNat % 16) 0]).foldl
      (fun acc c => acc * 16 + (hexNibble c).getD 0) start =
    s.foldl (fun acc b => acc * 256 + b.toNat) start := by
  induction s generalizing start with
  | nil => rfl
  | cons b rest ih =>
    obtain ⟨high, low⟩ := byte_nibbles b
    rw [List.flatMap_cons, List.foldl_append, ih, List.foldl_cons, List.foldl_cons, List.foldl_nil,
      (hexChar_value _ high).2, (hexChar_value _ low).2, List.foldl_cons, Option.getD_some,
      Option.getD_some]
    congr 1
    omega

theorem hexFingerprint_toHex (fingerprint : Fingerprint) :
    hexFingerprint (toHex fingerprint) = fingerprint := by
  rw [hexFingerprint, toHex, hexDigits_value]
  have value := beValue_beBytes 4 fingerprint
  rw [Bytes.beValue] at value
  rw [value]
  apply BitVec.eq_of_toNat_eq
  rw [BitVec.toNat_ofNat]
  have := fingerprint.isLt
  omega

end Fingerprint

section Verified

variable {env : Primitives} {ms : Miniscript} {network : Network}

theorem pathText_account (network : Network) :
    (∃ o : WrittenOrigin, o.text = pathText (expectedBip48Children network)) ∧
      DerivationPath.parse (pathText (expectedBip48Children network)) =
        some (expectedBip48Children network) := by
  cases network with
  | bitcoin =>
    exact ⟨⟨⟨false, true, .apostrophe, .apostrophe, .apostrophe, .apostrophe⟩, by decide⟩,
      by decide⟩
  | testnet | signet | regtest =>
    exact ⟨⟨⟨false, false, .apostrophe, .apostrophe, .apostrophe, .apostrophe⟩, by decide⟩,
      by decide⟩

theorem validateContribution_eq_ok {k : KeyContribution} {u : Unit}
    (valid : validateContribution ms network k = .ok u) :
    (startsWith k.xpub.xpub (bytes "xpub") = true ∨ startsWith k.xpub.xpub (bytes "tpub") = true) ∧
      DerivationPath.parse (stripMaster k.xpub.originPath) =
        some (expectedBip48Children network) := by
  simp only [validateContribution, validatePublicXpub, validateBip48Origin, bind_eq_ok,
    rejectIf_eq_ok, okOr_eq_ok, Decidable.not_not] at valid
  obtain ⟨_, ⟨_, _, _, _, starts⟩, _, ⟨_, _, path, parsed, rfl⟩, _⟩ := valid
  exact ⟨starts, parsed⟩

theorem keyExpression_eq_ok {x : XpubWithOrigin} {suffix : Str} {key : ms.Key}
    (run : keyExpression ms x suffix = .ok key) :
    ms.keyFromStr (keyExpressionText x suffix) = .ok key := by
  simp only [keyExpression, bind_eq_ok, ofExcept_eq_ok] at run
  obtain ⟨_, _, accepted⟩ := run
  exact accepted

theorem buildSortedmultiString_eq_ok {a b c : KeyContribution} {suffix text : Str}
    (made : buildSortedmultiString ms ⟨a, b, c⟩ suffix = .ok text) :
    ∃ keyA keyB keyC desc, ms.keyFromStr (keyExpressionText a.xpub suffix) = .ok keyA ∧
      ms.keyFromStr (keyExpressionText b.xpub suffix) = .ok keyB ∧
      ms.keyFromStr (keyExpressionText c.xpub suffix) = .ok keyC ∧
      ms.newWshSortedmulti multisigThreshold [keyA, keyB, keyC] = .ok desc ∧
      ms.toString desc = text := by
  simp only [buildSortedmultiString, bind_eq_ok, mapM_eq_ok, ofExcept_eq_ok, pure_eq_ok,
    Triple.toList] at made
  obtain ⟨pks, each, desc, created, printed⟩ := made
  rcases each with _ | ⟨madeA, _ | ⟨madeB, _ | ⟨madeC, _ | _⟩⟩⟩
  exact ⟨_, _, _, desc, keyExpression_eq_ok madeA, keyExpression_eq_ok madeB,
    keyExpression_eq_ok madeC, created, printed⟩

theorem buildSortedmultiString_key {ordered : Triple KeyContribution} {suffix text : Str}
    (made : buildSortedmultiString ms ordered suffix = .ok text) :
    ∀ k ∈ ordered.toList, ∃ key, ms.keyFromStr (keyExpressionText k.xpub suffix) = .ok key := by
  rcases ordered with ⟨a, b, c⟩
  obtain ⟨keyA, keyB, keyC, _, acceptedA, acceptedB, acceptedC, _⟩ :=
    buildSortedmultiString_eq_ok made
  intro k member
  simp only [Triple.toList, List.mem_cons, List.not_mem_nil, or_false] at member
  rcases member with rfl | rfl | rfl
  · exact ⟨keyA, acceptedA⟩
  · exact ⟨keyB, acceptedB⟩
  · exact ⟨keyC, acceptedC⟩

/-- What the keys of a descriptor text are to be: those of the records, in
    order, on one branch; the origin may be spelled differently. -/
structure Reads (desc : ParsedDescriptor) (keys : Triple KeyContribution)
    (branch : DerivationBranch) : Prop where
  distinct : (desc.keys.map KeyExpr.fingerprint).Nodup
  fingerprints : desc.keys.map KeyExpr.fingerprint = keys.toList.map fun k => k.xpub.fingerprint
  xpubs : desc.keys.map KeyExpr.xpub = keys.toList.map fun k => k.xpub.xpub
  origins : List.Forall₂ (fun key k => ∃ path, DerivationPath.parse key.originPath = some path ∧
    DerivationPath.parse (stripMaster k.xpub.originPath) = some path) desc.keys keys.toList
  branches : ∀ key ∈ desc.keys, key.derivation = branch

theorem printedKey_grammatical {k : KeyContribution} {branch : DerivationBranch}
    (valid : validateContribution ms network k = .ok ())
    (known : (env.xpubFromStr k.xpub.xpub).isSome = true) :
    (printedKey k.xpub (expectedBip48Children network) branch).Grammatical env where
  eight := toHex_length _
  hex := toHex_digits _
  origin := (pathText_account network).1
  starts := (validateContribution_eq_ok valid).1
  xpub := known

theorem sortedmulti_read (base58 : Base58Xpubs env) (library : PrintsSortedmulti env ms)
    {ordered : Triple KeyContribution} {branch : DerivationBranch} {text : Str}
    (valid : ∀ k ∈ ordered.toList, validateContribution ms network k = .ok ())
    (distinct : (ordered.toList.map fun k => k.xpub.fingerprint).Nodup)
    (known : ∀ k ∈ ordered.toList, (env.xpubFromStr k.xpub.xpub).isSome = true)
    (made : buildSortedmultiString ms ordered (branchSuffix branch) = .ok text) :
    ∃ desc, parse env text = .ok desc ∧ Reads desc ordered branch := by
  rcases ordered with ⟨a, b, c⟩
  simp only [Triple.toList, List.forall_mem_cons] at valid known
  obtain ⟨validA, validB, validC, _⟩ := valid
  obtain ⟨knownA, knownB, knownC, _⟩ := known
  obtain ⟨_, _, _, desc, keyA, keyB, keyC, created, rfl⟩ := buildSortedmultiString_eq_ok made
  have printed := library.prints _ _ _ knownA knownB knownC _ _ _ _ _ _ _ _ keyA keyB keyC
    (validateContribution_eq_ok validA).2 (validateContribution_eq_ok validB).2
    (validateContribution_eq_ok validC).2 created
  have path := (pathText_account network).2
  refine ⟨_, (parse_body base58 printed).mpr ⟨_, _, _, printedKey_grammatical validA knownA,
    printedKey_grammatical validB knownB, printedKey_grammatical validC knownC, rfl, rfl⟩, ?_⟩
  have same : [a, b, c].map (fun k => hexFingerprint (toHex k.xpub.fingerprint)) =
      [a, b, c].map fun k => k.xpub.fingerprint := by
    simp only [hexFingerprint_toHex]
  exact {
    distinct := (congrArg List.Nodup same).mpr distinct
    fingerprints := same
    xpubs := rfl
    origins := .cons ⟨_, path, (validateContribution_eq_ok validA).2⟩
      (.cons ⟨_, path, (validateContribution_eq_ok validB).2⟩
        (.cons ⟨_, path, (validateContribution_eq_ok validC).2⟩ .nil))
    branches := by simp [ParsedDescriptor.keys, WrittenKey.meaning, printedKey] }

theorem parse_xpubs (base58 : Base58Xpubs env) {text : Str} {desc : ParsedDescriptor}
    (parsed : parse env text = .ok desc) :
    ∀ key ∈ desc.keys, (env.xpubFromStr key.xpub).isSome = true := by
  obtain ⟨w, written, _, rfl⟩ := (parse_iff_written base58).mp parsed
  intro key member
  simp only [ParsedDescriptor.keys, WrittenDescriptor.meaning, List.mem_cons, List.not_mem_nil,
    or_false] at member
  rcases member with rfl | rfl | rfl
  · exact written.key0.xpub
  · exact written.key1.xpub
  · exact written.key2.xpub

theorem Reads.known (base58 : Base58Xpubs env) {text : Str} {desc : ParsedDescriptor}
    {keys : Triple KeyContribution} {branch : DerivationBranch} (reads : Reads desc keys branch)
    (parsed : parse env text = .ok desc) :
    ∀ k ∈ keys.toList, (env.xpubFromStr k.xpub.xpub).isSome = true := by
  intro k member
  have listed : k.xpub.xpub ∈ desc.keys.map KeyExpr.xpub := by
    rw [reads.xpubs]
    exact List.mem_map.mpr ⟨k, member, rfl⟩
  obtain ⟨key, inside, same⟩ := List.mem_map.mp listed
  rw [← same]
  exact parse_xpubs base58 parsed key inside

theorem known_iff_no_steps (base58 : Base58Xpubs env) (library : PrintsSortedmulti env ms)
    {k : KeyContribution} {branch : DerivationBranch} {key : ms.Key}
    (valid : validateContribution ms network k = .ok ())
    (accepted : ms.keyFromStr (keyExpressionText k.xpub (branchSuffix branch)) = .ok key) :
    (env.xpubFromStr k.xpub.xpub).isSome = true ↔ slash ∉ k.xpub.xpub := by
  constructor
  · intro known steps
    have base : slash ∈ base58Alphabet := base58 _ known _ steps
    revert base
    decide
  · intro plain
    have whole : k.xpub.xpub.takeWhile (· ≠ slash) = k.xpub.xpub := by
      apply List.takeWhile_eq_self_iff.mpr
      intro c member
      rw [decide_eq_true_eq]
      exact fun same => plain (same ▸ member)
    rw [← whole]
    exact library.accepts _ _ _ _ accepted (validateContribution_eq_ok valid).2

end Verified

/-- The verifier understands a wallet of the builder exactly when every contribution
    is around an xpub, that is, when no xpub text has a slash in it: then both
    descriptors are parsed to the keys in slot order. The order in which the
    contributions came does not matter. -/
theorem built_wallet_verifies_iff (env : Primitives) (ms : Miniscript) (base58 : Base58Xpubs env)
    (library : PrintsSortedmulti env ms) (network : Network) (keys : Triple KeyContribution)
    (createdAtUnix : UInt64) (w : WalletDescriptors)
    (built : buildWalletDescriptors ms network keys createdAtUnix = .ok w) :
    w.keys.toList.Perm keys.toList ∧ SlotOrdered w.keys ∧
    (∀ keys' : Triple KeyContribution, keys'.toList.Perm keys.toList →
      buildWalletDescriptors ms network keys' createdAtUnix = .ok w) ∧
    ((∃ receive, parse env w.receiveDescriptor = .ok receive ∧ Reads receive w.keys .external) ↔
      ∀ k ∈ keys.toList, (env.xpubFromStr k.xpub.xpub).isSome = true) ∧
    ((∃ change, parse env w.changeDescriptor = .ok change ∧ Reads change w.keys .internal) ↔
      ∀ k ∈ keys.toList, (env.xpubFromStr k.xpub.xpub).isSome = true) ∧
    ∀ k ∈ keys.toList, (env.xpubFromStr k.xpub.xpub).isSome = true ↔ slash ∉ k.xpub.xpub := by
  obtain ⟨_, fingerprints, valid, ordered, perm, order, made⟩ := build_eq_ok.mp built
  simp only [buildOrdered, bind_eq_ok, pure_eq_ok] at made
  obtain ⟨receive, madeReceive, change, madeChange, _, _, _, _, _, _, _, _, _, _, rfl⟩ := made
  have each : ∀ k ∈ ordered.toList, validateContribution ms network k = .ok () :=
    fun k member => valid k (perm.subset member)
  have distinct := (perm.map fun k => k.xpub.fingerprint).nodup_iff.mpr fingerprints
  have read {branch : DerivationBranch} {text : Str}
      (made : buildSortedmultiString ms ordered (branchSuffix branch) = .ok text) :
      (∃ desc, parse env text = .ok desc ∧ Reads desc ordered branch) ↔
        ∀ k ∈ keys.toList, (env.xpubFromStr k.xpub.xpub).isSome = true := by
    constructor
    · intro found k member
      obtain ⟨desc, parsed, reads⟩ := found
      exact reads.known base58 parsed k (perm.symm.subset member)
    · intro known
      exact sortedmulti_read base58 library each distinct
        (fun k member => known k (perm.subset member)) made
  refine ⟨perm, order, fun keys' same => built_any_order same built, read madeReceive,
    read madeChange, ?_⟩
  intro k member
  obtain ⟨key, accepted⟩ := buildSortedmultiString_key
    (show buildSortedmultiString ms ordered (branchSuffix .external) = .ok receive from madeReceive)
    k (perm.symm.subset member)
  exact known_iff_no_steps base58 library (valid k member) accepted

namespace Sample

open Trinity.Sample

theorem split_unique {c : UInt8} {front back front' back' : Str} (absent : c ∉ front')
    (absent' : c ∉ back') (same : front ++ c :: back = front' ++ c :: back') :
    front = front' ∧ back = back' := by
  rcases List.append_eq_append_iff.mp same with ⟨more, rfl, rest⟩ | ⟨more, rfl, rest⟩
  · cases more with
    | nil => exact ⟨(List.append_nil _).symm, (List.cons.inj rest).2⟩
    | cons b more =>
      refine absurd ?_ absent
      rw [(List.cons.inj rest).1]
      simp
  · cases more with
    | nil => exact ⟨List.append_nil _, (List.cons.inj rest).2.symm⟩
    | cons b more =>
      refine absurd ?_ absent'
      rw [(List.cons.inj rest).2]
      simp

/-- A closing bracket in only one place: the parts of a key expression are
    determined by its text. -/
theorem keyExpressionText_inj {x y : XpubWithOrigin} {branch branch' : DerivationBranch}
    (plainOrigin : (93 : UInt8) ∉ stripMaster y.originPath) (plainXpub : (93 : UInt8) ∉ y.xpub)
    (same : keyExpressionText x (branchSuffix branch) =
      keyExpressionText y (branchSuffix branch')) :
    toHex x.fingerprint = toHex y.fingerprint ∧
      stripMaster x.originPath = stripMaster y.originPath ∧ x.xpub = y.xpub ∧ branch = branch' := by
  have size (branch : DerivationBranch) : (branchSuffix branch).length = 3 := by
    cases branch <;> rfl
  have bracket : bytes "]" = [93] := by decide
  have slash : bytes "/" = [47] := by decide
  have noBracket : (93 : UInt8) ∉ y.xpub ++ 47 :: branchSuffix branch' := by
    intro member
    rcases List.mem_append.mp member with inside | inside
    · exact plainXpub inside
    · revert inside
      cases branch' <;> decide
  simp only [keyExpressionText, bracket, slash, List.append_cancel_left_eq,
    List.singleton_append] at same
  obtain ⟨fingerprint, rest⟩ :=
    List.append_inj same ((toHex_length _).trans (toHex_length _).symm)
  obtain ⟨origin, key⟩ := split_unique plainOrigin noBracket (List.cons.inj rest).2
  obtain ⟨xpub, suffix⟩ := List.append_inj' key (by simp only [List.length_cons, size])
  refine ⟨fingerprint, origin, xpub, ?_⟩
  have branches := (List.cons.inj suffix).2
  revert branches
  cases branch <;> cases branch' <;> decide

def keyA : KeyContribution :=
  ⟨.a, ⟨fingerprintA, bytes "48'/1'/0'/2'", xpubA⟩, 840000, .twelve, .inApp, none⟩

def keyB : KeyContribution :=
  ⟨.b, ⟨fingerprintB, bytes "m/48h/1h/0h/2h", xpubB⟩, 840000, .twentyFour,
    .hardware (bytes "BitBox02"), some (bytes "7f")⟩

def keyC : KeyContribution :=
  ⟨.c, ⟨fingerprintC, bytes "48'/1'/0'/2h", xpubC⟩, 841000, .twentyFour, .inApp, none⟩

/-- The record of slot A with a derivation step behind its xpub. -/
def steppedA : KeyContribution :=
  { keyA with xpub := { keyA.xpub with xpub := xpubA ++ bytes "/5" } }

def records : List (XpubWithOrigin × DerivationBranch) :=
  [keyA, keyB, keyC, steppedA].flatMap fun k => [(k.xpub, .external), (k.xpub, .internal)]

def steppedDescriptor (suffix checksum : Str) : Str :=
  bytes "wsh(sortedmulti(" ++ bytes "2," ++ bytes "[27f21145/" ++ bytes "48'/1'/0'/2']" ++
    xpubA ++ bytes "/5" ++ suffix ++ bytes "," ++ bytes "[e5968976/" ++ bytes "48'/1'/0'/2']" ++
    xpubB ++ suffix ++ bytes "," ++ bytes "[d057bc77/" ++ bytes "48'/1'/0'/2']" ++ xpubC ++
    suffix ++ bytes "))" ++ checksum

def steppedReceive : Str := steppedDescriptor (bytes "/0/*") (bytes "#qs97mpzh")

def steppedChange : Str := steppedDescriptor (bytes "/1/*") (bytes "#mlna596y")

def library : Miniscript where
  Key := WrittenKey
  Descriptor := Str
  keyFromStr s :=
    match records.find? fun e => keyExpressionText e.1 (branchSuffix e.2) == s with
    | some e => .ok (printedKey e.1 (expectedBip48Children .regtest) e.2)
    | none => .error []
  newWshSortedmulti _ pks :=
    match pks with
    | [k₀, k₁, k₂] =>
      match createChecksum (descriptorBody k₀ k₁ k₂) with
      | .ok s => .ok s
      | .error _ => .error []
    | _ => .error []
  toString s := s
  fromStr s :=
    if s ∈ [receiveDescriptor, changeDescriptor, steppedReceive, steppedChange] then .ok s
    else .error []
  shape _ := .wshSortedMulti 2 [⟨[], [], [], .external⟩, ⟨[], [], [], .external⟩,
    ⟨[], [], [], .external⟩]
  isMultipath _ := false
  pathError _ := []

def wallet : WalletDescriptors :=
  ⟨1, .regtest, 1700000000, receiveDescriptor, changeDescriptor, ⟨keyA, keyB, keyC⟩⟩

theorem built : buildWalletDescriptors library .regtest ⟨keyC, keyA, keyB⟩ 1700000000 =
    .ok wallet := by
  decide +kernel

def steppedWallet : WalletDescriptors :=
  ⟨1, .regtest, 1700000000, steppedReceive, steppedChange, ⟨steppedA, keyB, keyC⟩⟩

theorem records_plain : ∀ e ∈ records, (93 : UInt8) ∉ stripMaster e.1.originPath ∧
    (93 : UInt8) ∉ e.1.xpub ∧ DerivationPath.parse (stripMaster e.1.originPath) =
      some (expectedBip48Children .regtest) ∧
    (env.xpubFromStr (e.1.xpub.takeWhile (· ≠ slash))).isSome = true := by
  decide

theorem library_key {x : XpubWithOrigin} {branch : DerivationBranch} {key : WrittenKey}
    (accepted : library.keyFromStr (keyExpressionText x (branchSuffix branch)) = .ok key) :
    key = printedKey x (expectedBip48Children .regtest) branch ∧
      DerivationPath.parse (stripMaster x.originPath) = some (expectedBip48Children .regtest) ∧
      (env.xpubFromStr (x.xpub.takeWhile (· ≠ slash))).isSome = true := by
  simp only [library] at accepted
  split at accepted
  · rename_i e found
    have member := List.mem_of_find?_eq_some found
    have text := List.find?_some found
    rw [beq_iff_eq] at text
    obtain ⟨plainOrigin, plainXpub, parsed, known⟩ := records_plain e member
    obtain ⟨fingerprint, origin, xpub, rfl⟩ :=
      keyExpressionText_inj plainOrigin plainXpub text.symm
    rw [origin, xpub]
    refine ⟨?_, parsed, known⟩
    rw [← Except.ok.inj accepted, printedKey, printedKey, fingerprint, xpub]
  · contradiction

theorem library_prints_keys (x y z : XpubWithOrigin) : PrintsKeys library x y z := by
  intro p q r branch kx ky kz desc acceptedX acceptedY acceptedZ parsedX parsedY parsedZ created
  obtain ⟨rfl, pathX, _⟩ := library_key acceptedX
  obtain ⟨rfl, pathY, _⟩ := library_key acceptedY
  obtain ⟨rfl, pathZ, _⟩ := library_key acceptedZ
  obtain rfl := Option.some.inj (pathX.symm.trans parsedX)
  obtain rfl := Option.some.inj (pathY.symm.trans parsedY)
  obtain rfl := Option.some.inj (pathZ.symm.trans parsedZ)
  simp only [library] at created
  split at created
  · rename_i text made
    rw [made, Except.ok.inj created]
    rfl
  · contradiction

theorem library_prints : PrintsSortedmulti env library where
  accepts _ _ _ _ accepted _ := (library_key accepted).2.2
  prints x y z _ _ _ := library_prints_keys x y z

end Sample

theorem built_wallet_verifies_sample :
    buildWalletDescriptors Sample.library .regtest ⟨Sample.keyC, Sample.keyA, Sample.keyB⟩
      1700000000 = .ok Sample.wallet ∧
    ∃ receive, parse Trinity.Sample.env Sample.wallet.receiveDescriptor = .ok receive ∧
      Reads receive Sample.wallet.keys .external :=
  ⟨Sample.built, (built_wallet_verifies_iff _ _ Trinity.Sample.base58_xpubs Sample.library_prints _
    _ _ _ Sample.built).2.2.2.1.mpr (by decide)⟩

/-- With a step behind the xpub of slot A the builder returns a wallet neither of
    whose descriptors the parser reads. -/
theorem stepped_xpub_unread :
    PrintsSortedmulti Trinity.Sample.env Sample.library ∧
    buildWalletDescriptors Sample.library .regtest
      ⟨Sample.steppedA, Sample.keyB, Sample.keyC⟩ 1700000000 = .ok Sample.steppedWallet ∧
    parse Trinity.Sample.env Sample.steppedWallet.receiveDescriptor = fail .malformedXpub ∧
    parse Trinity.Sample.env Sample.steppedWallet.changeDescriptor = fail .malformedXpub := by
  refine ⟨Sample.library_prints, ?_, ?_, ?_⟩
  · decide +kernel
  · decide +kernel
  · decide +kernel

end Trinity.Watch
