import Trinity.Verify.Descriptor

/-!
What a parsed descriptor guarantees: the origin of every key is an account path
`48'/coin'/0'/2'`. The verifier parses origins again behind a literal `m/`, so
an origin that is itself written with `m/` does not parse there.
-/
namespace Trinity

open Outcome

def accountPath (coin : UInt32) : DerivationPath :=
  [.hardened 48, .hardened coin, .hardened 0, .hardened 2]

@[simp] theorem sliceTo_eq_ok {s t : Str} {i : Nat} :
    sliceTo s i = .ok t ↔ isCharBoundary s i = true ∧ s.take i = t := by
  simp [sliceTo, bind_eq_ok]

@[simp] theorem sliceFrom_eq_ok {s t : Str} {i : Nat} :
    sliceFrom s i = .ok t ↔ isCharBoundary s i = true ∧ s.drop i = t := by
  simp [sliceFrom, bind_eq_ok]

theorem parseUnsigned_lower {bound bound' n : Nat} {s : Str}
    (parsed : parseUnsigned bound s = some n) (below : n < bound') :
    parseUnsigned bound' s = some n := by
  simp only [parseUnsigned] at parsed ⊢
  generalize (if startsWith s (bytes "+") then s.drop 1 else s) = digits at parsed ⊢
  split at parsed
  · contradiction
  · rename_i digits
    rw [if_neg digits]
    split at parsed
    · rw [Option.ite_none_right_eq_some, Option.some.injEq] at parsed
      rw [if_pos (parsed.2 ▸ below), parsed.2]
    · contradiction

theorem hardened_mark {segment : Str} {c : UInt8} (last : segment.getLast? = some c)
    (marked : ¬ (segment.getLast? ≠ some 39 ∧ segment.getLast? ≠ some 104)) :
    c = 39 ∨ c = 104 := by
  rw [last] at marked
  by_contra neither
  exact marked ⟨by simp_all, by simp_all⟩

theorem originIndex_child {path segment : Str} {n : Nat}
    (checked : originIndex path segment = .ok n) :
    ChildNumber.parse segment = some (.hardened (UInt32.ofNat n)) := by
  simp only [originIndex, bind_eq_ok, rejectIf_eq_ok, okOr_eq_ok, sliceTo_eq_ok, pure_ok,
    Except.ok.injEq] at checked
  obtain ⟨_, _, _, marked, num, ⟨_, cut⟩, _, _, _, _, _, _, m, parsed, _, small, rfl⟩ := checked
  rw [← List.dropLast_eq_take] at cut
  subst cut
  have below : m < 2 ^ 31 := Nat.lt_of_not_le small
  unfold ChildNumber.parse
  cases last : segment.getLast? with
  | none => simp [last] at marked
  | some c =>
    have word : parseUnsigned (2 ^ 32) segment.dropLast = some m :=
      parseUnsigned_lower parsed (Nat.lt_trans below (by decide))
    simp only [if_pos (hardened_mark last marked), word, Option.bind_some, if_pos below]

theorem mapM_children {segments : List Str} {indices : List Nat} {path : Str}
    (checked : List.Forall₂ (fun s n => originIndex path s = .ok n) segments indices) :
    segments.mapM ChildNumber.parse =
      some (indices.map fun n => .hardened (UInt32.ofNat n)) := by
  induction checked with
  | nil => rfl
  | cons here _ ih =>
    rw [List.mapM_cons, originIndex_child here, ih]
    rfl

theorem validateOriginPath_segments {path : Str} {u : Unit}
    (valid : validateOriginPath path = .ok u) :
    ∃ coin ≤ 1, List.Forall₂ (fun s n => originIndex path s = .ok n)
      (splitOn 47 (if startsWith path (bytes "m/") then path.drop 2 else path))
      [48, coin, 0, 2] := by
  simp only [validateOriginPath, bind_eq_ok, rejectIf_eq_ok, mapM_eq_ok] at valid
  obtain ⟨_, _, _, _, _, _, indices, each, rest⟩ := valid
  split at rest
  · rename_i purpose coin account script
    rw [rejectIf_eq_ok, Decidable.not_not] at rest
    obtain ⟨rfl, rfl, rfl, small⟩ := rest
    exact ⟨coin, small, each⟩
  · simp at rest

theorem parse_behind_master {path : Str} (nonempty : path ≠ []) :
    DerivationPath.parse (bytes "m/" ++ path) = (splitOn 47 path).mapM ChildNumber.parse := by
  have master : bytes "m/" = [109, 47] := by decide
  have short : bytes "m" = [109] := by decide
  unfold DerivationPath.parse
  rw [master, short, if_neg (by simp [nonempty])]
  rfl

theorem parse_origin {path : Str} {u : Unit} (valid : validateOriginPath path = .ok u)
    (plain : startsWith path (bytes "m/") = false) :
    ∃ coin ≤ 1, DerivationPath.parse (bytes "m/" ++ path) = some (accountPath coin) := by
  obtain ⟨coin, small, each⟩ := validateOriginPath_segments valid
  rw [plain] at each
  have nonempty : path ≠ [] := by
    rintro rfl
    rcases each with _ | ⟨_, _ | _⟩
  refine ⟨UInt32.ofNat coin, ?_, ?_⟩
  · have : coin = 0 ∨ coin = 1 := by omega
    rcases this with rfl | rfl <;> decide
  · rw [parse_behind_master nonempty]
    exact mapM_children each

theorem parse_origin_prefixed {path : Str} (prefixed : startsWith path (bytes "m/") = true) :
    DerivationPath.parse (bytes "m/" ++ path) = none := by
  have master : bytes "m/" = [109, 47] := by decide
  rw [startsWith, master, List.isPrefixOf_iff_prefix] at prefixed
  obtain ⟨rest, rfl⟩ := prefixed
  rw [parse_behind_master (by simp)]
  have child : ChildNumber.parse [109] = none := by decide
  simp [splitOn, List.mapM_cons, child]

theorem parseKeyexpr_origin {env : Primitives} {rest rest' : Str} {key : KeyExpr}
    (parsed : parseKeyexpr env rest = .ok (key, rest')) :
    validateOriginPath key.originPath = .ok () := by
  simp only [parseKeyexpr, bind_eq_ok] at parsed
  obtain ⟨_, _, _, _, ⟨fpStr, _⟩, _, _, _, _, _, _, _, _, _, ⟨originPath, _⟩, _, _, _, _, _, _,
    valid, _, _, ⟨xpub, branch, _⟩, _, _, _, _, _, _, _, _, _, _, _, made⟩ := parsed
  simp only [pure_ok, Except.ok.injEq, Prod.mk.injEq] at made
  rw [← made.1]
  exact valid

theorem parse_origins {env : Primitives} {descriptor : Str} {desc : ParsedDescriptor}
    (parsed : parse env descriptor = .ok desc) :
    ∀ key ∈ desc.keys, validateOriginPath key.originPath = .ok () := by
  simp only [parse, bind_eq_ok] at parsed
  obtain ⟨_, _, _, _, _, _, _, _, _, _, _, _, _, _, ⟨_, _⟩, _, _, _, _, _, ⟨key0, _⟩, first, _, _,
    ⟨key1, _⟩, second, _, _, ⟨key2, _⟩, third, _, _, _, _, _, _, _, _, made⟩ := parsed
  simp only [pure_ok, Except.ok.injEq] at made
  subst made
  simp only [ParsedDescriptor.keys, List.forall_mem_cons]
  exact ⟨parseKeyexpr_origin first, parseKeyexpr_origin second, parseKeyexpr_origin third, by simp⟩

end Trinity
