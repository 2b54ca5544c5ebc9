import Trinity.Chain.ScanExact

/-!
`full_scan` of the Core-RPC backend, `core_rpc.rs`. Which scripts are used is
probed in batches from the first block on; the transactions are then collected
by `scan_spks` from the tip the request names.
-/
namespace Trinity

open Outcome

structure SpkIter where
  item : Nat → Option (UInt32 × Script)
  ended : ∀ n, item n = none → item (n + 1) = none

namespace SpkIter

def ofList (l : List (UInt32 × Script)) : SpkIter where
  item n := l[n]?
  ended n stopped := by
    rw [List.getElem?_eq_none_iff] at stopped ⊢
    omega

def take (it : SpkIter) : Nat → Nat → List (UInt32 × Script)
  | _, 0 => []
  | pos, n + 1 =>
    match it.item pos with
    | none => []
    | some entry => entry :: it.take (pos + 1) n

def Ascending (it : SpkIter) : Prop :=
  ∀ n m entry entry', it.item n = some entry → it.item m = some entry' → n < m →
    entry.1 < entry'.1

end SpkIter

structure FullScanRequest where
  startTime : UInt64
  chainTip : Option CheckPoint
  spksByKeychain : KeychainKind → Option SpkIter

def FullScanRequest.keychains (req : FullScanRequest) : List (KeychainKind × SpkIter) :=
  [.external, .internal].filterMap fun keychain =>
    (req.spksByKeychain keychain).map fun it => (keychain, it)

structure FullScanSpkPlan where
  spks : List Script
  lastActive : KeychainKind → Option UInt32

structure CoreRpcBackend where
  client : CoreClient
  stopGap : Nat
  positive : 1 ≤ stopGap

def CoreRpcBackend.connect (client : CoreClient) (stopGap : Nat) : CoreRpcBackend :=
  ⟨client, max stopGap 1, Nat.le_max_right _ _⟩

def paidAmong (spkSet : List Script) (tx : Transaction) : List Script :=
  (tx.output.map TxOut.scriptPubkey).filter spkSet.contains

section Probe

variable (client : CoreClient) (spks : List Script)

def CoreClient.probeEvent (active : List Script) (item : Except String FilterEvent) :
    Outcome ChainError (List Script) := do
  let event ← ofExcept item fun e => .network s!"filter probe: {e}"
  match event.block with
  | none => return active
  | some block => return active ++ block.txdata.flatMap (paidAmong spks)

def CoreClient.probePending (active : List Script) (txid : Txid) :
    Outcome ChainError (List Script) := do
  match ← client.getTxOptional txid with
  | none => return active
  | some tx => return active ++ paidAmong spks tx

def CoreClient.activeSpksIn (startCp : CheckPoint) : Outcome ChainError (List Script) := do
  let active ← (client.filterIter startCp spks).foldlM (CoreClient.probeEvent spks) []
  let mempool ← ofExcept client.getRawMempool mapRpc
  mempool.foldlM (client.probePending spks) active

end Probe

/-- The search in one keychain: the unused scripts since the last used one, the
    index of that one, and the scripts of the plan. -/
structure GapSearch where
  unused : Nat
  last : Option UInt32
  spks : List Script

def usizeMax : Nat := 2 ^ 64 - 1

def GapSearch.note (active : List Script) (s : GapSearch) (entry : UInt32 × Script) : GapSearch :=
  if active.contains entry.2 then ⟨0, some entry.1, s.spks ++ [entry.2]⟩
  else ⟨min (s.unused + 1) usizeMax, s.last, s.spks ++ [entry.2]⟩

namespace CoreRpcBackend

variable (backend : CoreRpcBackend)

/-- The loop over the batches of one keychain. A keychain whose scripts do not
    end and are all used is never left: the result is none if the loop has not
    ended within `fuel` rounds. -/
def collectKeychain (probeCp : CheckPoint) (it : SpkIter) :
    Nat → Nat → GapSearch → Outcome ChainError (Option GapSearch)
  | 0, _, _ => return none
  | fuel + 1, pos, s =>
    let batch := it.take pos backend.stopGap
    if batch.isEmpty then return some s
    else do
      let active ← backend.client.activeSpksIn (batch.map Prod.snd) probeCp
      let s := batch.foldl (GapSearch.note active) s
      if s.unused ≥ backend.stopGap then return some s
      else collectKeychain probeCp it fuel (pos + batch.length) s

def collectKeychains (probeCp : CheckPoint) (fuel : Nat) :
    List (KeychainKind × SpkIter) → FullScanSpkPlan → Outcome ChainError (Option FullScanSpkPlan)
  | [], plan => return some plan
  | (keychain, it) :: rest, plan => do
    match ← backend.collectKeychain probeCp it fuel 0 ⟨0, none, plan.spks⟩ with
    | none => return none
    | some s =>
      collectKeychains probeCp fuel rest ⟨s.spks, match s.last with
        | some i => Function.update plan.lastActive keychain (some i)
        | none => plan.lastActive⟩

def collectFullScanSpks (fuel : Nat) (req : FullScanRequest) :
    Outcome ChainError (Option FullScanSpkPlan) := do
  let probeCp ← backend.client.genesisCheckpoint
  backend.collectKeychains probeCp fuel req.keychains ⟨[], fun _ => none⟩

def fullScan (env : Primitives) (fuel : Nat) (req : FullScanRequest) :
    Outcome ChainError (Option Update) := do
  match ← backend.collectFullScanSpks fuel req with
  | none => return none
  | some plan =>
    let (txUpdate, chain) ← backend.client.scanSpks env plan.spks req.chainTip req.startTime []
    return some ⟨plan.lastActive, txUpdate, chain⟩

end CoreRpcBackend

section Plan

theorem SpkIter.getElem?_take {it : SpkIter} {pos n k : Nat} {entry : UInt32 × Script}
    (here : (it.take pos n)[k]? = some entry) : it.item (pos + k) = some entry := by
  induction n generalizing pos k with
  | zero => simp [take] at here
  | succ n ih =>
    rw [take] at here
    cases found : it.item pos with
    | none => simp [found] at here
    | some first =>
      simp only [found] at here
      cases k with
      | zero =>
        rw [List.getElem?_cons_zero] at here
        rw [Nat.add_zero, found, here]
      | succ k =>
        rw [List.getElem?_cons_succ] at here
        rw [← ih here]
        congr 1
        omega

structure GapSearch.Covers (it : SpkIter) (pos : Nat) (s : GapSearch) : Prop where
  scripts : ∀ n < pos, ∀ entry, it.item n = some entry → entry.2 ∈ s.spks
  last : ∀ i, s.last = some i → ∃ n < pos, ∃ spk, it.item n = some (i, spk)

theorem GapSearch.note_spks (active : List Script) (s : GapSearch) (entry : UInt32 × Script) :
    (s.note active entry).spks = s.spks ++ [entry.2] := by
  unfold note
  split_ifs <;> rfl

theorem GapSearch.Covers.note {it : SpkIter} {pos : Nat} {s : GapSearch} {entry : UInt32 × Script}
    (covers : GapSearch.Covers it pos s) (here : it.item pos = some entry) (active : List Script) :
    GapSearch.Covers it (pos + 1) (s.note active entry) where
  scripts n before entry' at_ := by
    rw [GapSearch.note_spks, List.mem_append, List.mem_singleton]
    rcases Nat.lt_succ_iff_lt_or_eq.mp before with earlier | rfl
    · exact .inl (covers.scripts n earlier entry' at_)
    · rw [here, Option.some.injEq] at at_
      exact .inr (congrArg Prod.snd at_.symm)
  last i found := by
    unfold GapSearch.note at found
    split_ifs at found
    · obtain rfl := Option.some.inj found
      exact ⟨pos, Nat.lt_succ_self pos, entry.2, here⟩
    · obtain ⟨n, before, spk, at_⟩ := covers.last i found
      exact ⟨n, Nat.lt_succ_of_lt before, spk, at_⟩

theorem GapSearch.Covers.batch {it : SpkIter} {pos : Nat} {s : GapSearch}
    {batch : List (UInt32 × Script)} (covers : GapSearch.Covers it pos s)
    (items : ∀ k entry, batch[k]? = some entry → it.item (pos + k) = some entry)
    (active : List Script) :
    GapSearch.Covers it (pos + batch.length) (batch.foldl (GapSearch.note active) s) := by
  induction batch generalizing pos s with
  | nil => exact covers
  | cons first rest ih =>
    have later := ih (covers.note (items 0 first rfl) active) fun k entry at_ => by
      rw [Nat.add_assoc, Nat.add_comm 1 k]
      exact items (k + 1) entry at_
    rw [List.length_cons, Nat.add_comm rest.length, ← Nat.add_assoc]
    exact later

theorem GapSearch.note_keeps {active : List Script} {s : GapSearch}
    {batch : List (UInt32 × Script)} {spk : Script} (member : spk ∈ s.spks) :
    spk ∈ (batch.foldl (GapSearch.note active) s).spks := by
  induction batch generalizing s with
  | nil => exact member
  | cons first rest ih =>
    apply ih
    rw [note_spks]
    exact List.mem_append_left _ member

variable {backend : CoreRpcBackend} {probeCp : CheckPoint} {fuel : Nat}

theorem collectKeychain_covers {it : SpkIter} {pos : Nat} {s s' : GapSearch}
    (covers : GapSearch.Covers it pos s)
    (run : backend.collectKeychain probeCp it fuel pos s = .ok (some s')) :
    (∃ pos', GapSearch.Covers it pos' s') ∧ ∀ spk ∈ s.spks, spk ∈ s'.spks := by
  induction fuel generalizing pos s with
  | zero => simp [CoreRpcBackend.collectKeychain, pure_ok] at run
  | succ fuel ih =>
    rw [CoreRpcBackend.collectKeychain] at run
    split_ifs at run with empty
    · simp only [pure_ok, Except.ok.injEq, Option.some.injEq] at run
      subst run
      exact ⟨⟨pos, covers⟩, fun _ member => member⟩
    · simp only [bind_eq_ok] at run
      obtain ⟨active, _, run⟩ := run
      have items : ∀ k entry, (it.take pos backend.stopGap)[k]? = some entry →
          it.item (pos + k) = some entry := fun k entry at_ => SpkIter.getElem?_take at_
      have next := covers.batch items active
      split_ifs at run
      · simp only [pure_ok, Except.ok.injEq, Option.some.injEq] at run
        subst run
        exact ⟨⟨_, next⟩, fun _ member => GapSearch.note_keeps member⟩
      · obtain ⟨reached, kept⟩ := ih next run
        exact ⟨reached, fun _ member => kept _ (GapSearch.note_keeps member)⟩

/-- Every keychain with a last used index has all scripts up to it in the plan. -/
def FullScanSpkPlan.Planned (keychains : List (KeychainKind × SpkIter)) (plan : FullScanSpkPlan) :
    Prop :=
  ∀ keychain i, plan.lastActive keychain = some i → ∃ it, (keychain, it) ∈ keychains ∧
    ∃ pos, (∃ n < pos, ∃ spk, it.item n = some (i, spk)) ∧
      ∀ n < pos, ∀ entry, it.item n = some entry → entry.2 ∈ plan.spks

theorem collectKeychains_planned {all keychains : List (KeychainKind × SpkIter)}
    {plan plan' : FullScanSpkPlan} (inside : ∀ entry ∈ keychains, entry ∈ all)
    (planned : plan.Planned all)
    (run : backend.collectKeychains probeCp fuel keychains plan = .ok (some plan')) :
    plan'.Planned all := by
  induction keychains generalizing plan with
  | nil =>
    simp only [CoreRpcBackend.collectKeychains, pure_ok, Except.ok.injEq, Option.some.injEq] at run
    exact run ▸ planned
  | cons entry rest ih =>
    obtain ⟨keychain, it⟩ := entry
    obtain ⟨here, later⟩ := List.forall_mem_cons.mp inside
    simp only [CoreRpcBackend.collectKeychains, bind_eq_ok] at run
    obtain ⟨search, searched, run⟩ := run
    cases search with
    | none => simp [pure_ok] at run
    | some s =>
      have start : GapSearch.Covers it 0 ⟨0, none, plan.spks⟩ := ⟨by simp, by simp⟩
      obtain ⟨⟨pos, covers⟩, kept⟩ := collectKeychain_covers start searched
      have others {keychain' : KeychainKind} {i : UInt32}
          (active : plan.lastActive keychain' = some i) : ∃ it, (keychain', it) ∈ all ∧
            ∃ pos, (∃ n < pos, ∃ spk, it.item n = some (i, spk)) ∧
              ∀ n < pos, ∀ entry, it.item n = some entry → entry.2 ∈ s.spks := by
        obtain ⟨it', member, pos', reached, scripts⟩ := planned keychain' i active
        exact ⟨it', member, pos', reached,
          fun n before entry at_ => kept _ (scripts n before entry at_)⟩
      refine ih later ?_ run
      intro keychain' i active
      cases found : s.last with
      | none =>
        simp only [found] at active
        exact others active
      | some last =>
        simp only [found] at active
        by_cases same : keychain' = keychain
        · subst same
          rw [Function.update_self, Option.some.injEq] at active
          subst active
          exact ⟨it, here, pos, covers.last last found, covers.scripts⟩
        · rw [Function.update_of_ne same] at active
          exact others active

end Plan

end Trinity
