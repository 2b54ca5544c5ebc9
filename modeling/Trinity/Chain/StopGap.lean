import Mathlib.Data.Set.Finite.Lattice
import Trinity.Chain.FullScanTip
import Trinity.Lib.Gap

/-!
Which scripts a full scan of the Core-RPC backend collects. The count of unused
scripts runs on from batch to batch but is compared with the stop gap only at
the end of one, so a keychain is left at the first batch end that has a whole
stop gap of unused scripts behind it.
-/
namespace Trinity

open Outcome

section Activity

variable (client : CoreClient) (chain : List Block) (listing : List Txid)

/-- The script is paid in the mempool or on the chain. The output of the first
    block, which nobody can spend, is not a payment. -/
def CoreClient.Paid (spk : Script) : Prop :=
  ∃ tx : Transaction, (∃ out ∈ tx.output, out.scriptPubkey = spk) ∧
    ((∃ h b, 0 < h ∧ chain[h]? = some b ∧ tx ∈ b.txdata) ∨ client.InMempool listing tx)

/-- The node's chain and mempool are the same in every call: a filter iteration
    that does not fail shows, of the blocks that pay one of the scripts, exactly
    those above its start. -/
structure CoreClient.Steady : Prop where
  genesis : ∀ hash, client.getBlockHash 0 = .ok hash → OnChain chain ⟨0, hash⟩
  filters : ∀ (cp : CheckPoint) (spks : List Script) (events : List FilterEvent),
    OnChain chain cp.tip → client.filterIter cp spks = events.map .ok →
    ∀ b, (∃ tx ∈ b.txdata, tx.Pays spks.contains) →
      ((∃ e ∈ events, e.block = some b) ↔ ∃ h, cp.tip.height.toNat < h ∧ chain[h]? = some b)
  mempool : ∀ listed, client.getRawMempool = .ok listed → listed = listing

/-- The node answers every call of the search; a listed transaction may be gone. -/
structure CoreClient.Replies : Prop where
  genesis : ∃ hash, client.getBlockHash 0 = .ok hash
  filters : ∀ cp spks, ∃ events : List FilterEvent, client.filterIter cp spks = events.map .ok
  mempool : ∃ listed, client.getRawMempool = .ok listed
  lookups : ∀ listed, client.getRawMempool = .ok listed → ∀ txid ∈ listed,
    ∀ e, client.getRawTransaction txid = .error e → isNotFound e = true

end Activity

section Probe

variable {client : CoreClient} {chain : List Block} {listing : List Txid} {spks : List Script}

theorem mem_paidAmong {tx : Transaction} {spk : Script} :
    spk ∈ paidAmong spks tx ↔ spk ∈ spks ∧ ∃ out ∈ tx.output, out.scriptPubkey = spk := by
  rw [paidAmong, List.mem_filter, List.contains_iff_mem, List.mem_map, and_comm]

theorem probeEvents_eq_ok {items : List (Except String FilterEvent)} {active active' : List Script}
    (run : items.foldlM (CoreClient.probeEvent spks) active = .ok active') :
    ∃ events : List FilterEvent, items = events.map .ok ∧ ∀ spk, spk ∈ active' ↔ spk ∈ active ∨
      ∃ e ∈ events, ∃ b, e.block = some b ∧ ∃ tx ∈ b.txdata, spk ∈ paidAmong spks tx := by
  induction items generalizing active with
  | nil =>
    rw [List.foldlM_nil, pure_eq_ok] at run
    exact ⟨[], rfl, by simp [run]⟩
  | cons item rest ih =>
    rw [List.foldlM_cons, bind_eq_ok] at run
    obtain ⟨next, step, later⟩ := run
    obtain ⟨events, rfl, found⟩ := ih later
    simp only [CoreClient.probeEvent, bind_eq_ok, ofExcept_eq_ok] at step
    obtain ⟨event, rfl, step⟩ := step
    refine ⟨event :: events, rfl, fun spk => ?_⟩
    rw [found, List.exists_mem_cons_iff, ← or_assoc]
    refine or_congr_left ?_
    cases block : event.block with
    | none =>
      rw [block, pure_eq_ok] at step
      simp [step]
    | some b =>
      rw [block, pure_eq_ok] at step
      simp [← step, List.mem_flatMap]

theorem probePending_eq_ok {active active' : List Script}
    (run : listing.foldlM (client.probePending spks) active = .ok active') (spk : Script) :
    spk ∈ active' ↔ spk ∈ active ∨ ∃ tx, client.InMempool listing tx ∧ spk ∈ paidAmong spks tx := by
  induction listing generalizing active with
  | nil =>
    rw [List.foldlM_nil, pure_eq_ok] at run
    simp [run, CoreClient.InMempool]
  | cons txid rest ih =>
    rw [List.foldlM_cons, bind_eq_ok] at run
    obtain ⟨next, step, later⟩ := run
    simp only [CoreClient.probePending, bind_eq_ok] at step
    obtain ⟨answer, looked, step⟩ := step
    have held := getTxOptional_eq_ok looked
    have here : spk ∈ next ↔ spk ∈ active ∨ ∃ tx ∈ answer.toList, spk ∈ paidAmong spks tx := by
      cases answer with
      | none =>
        rw [pure_eq_ok] at step
        simp [step]
      | some tx =>
        rw [pure_eq_ok] at step
        simp [← step]
    rw [ih later, here, or_assoc]
    refine or_congr_right ?_
    simp only [CoreClient.InMempool, List.exists_mem_cons_iff, or_and_right, exists_or, held]

theorem activeSpksIn_exact (steady : client.Steady chain listing) {hash : BlockHash}
    (genesis : client.getBlockHash 0 = .ok hash) {active : List Script}
    (run : client.activeSpksIn spks (.new ⟨0, hash⟩) = .ok active) {spk : Script}
    (asked : spk ∈ spks) : spk ∈ active ↔ client.Paid chain listing spk := by
  simp only [CoreClient.activeSpksIn, bind_eq_ok, ofExcept_eq_ok] at run
  obtain ⟨onChain, probed, listed, answered, pending⟩ := run
  obtain rfl := steady.mempool listed answered
  obtain ⟨events, returned, blocks⟩ := probeEvents_eq_ok probed
  have shown := steady.filters (.new ⟨0, hash⟩) spks events (steady.genesis hash genesis) returned
  have pays {tx : Transaction} (paid : ∃ out ∈ tx.output, out.scriptPubkey = spk) :
      tx.Pays spks.contains := by
    obtain ⟨out, output, rfl⟩ := paid
    exact ⟨out, output, List.contains_iff_mem.mpr asked⟩
  rw [probePending_eq_ok pending, blocks]
  simp only [List.not_mem_nil, false_or, mem_paidAmong, asked, true_and]
  constructor
  · rintro (⟨e, member, b, block, tx, inside, paid⟩ | ⟨tx, member, paid⟩)
    · obtain ⟨h, above, here⟩ := (shown b ⟨tx, inside, pays paid⟩).mp ⟨e, member, block⟩
      exact ⟨tx, paid, .inl ⟨h, b, Nat.zero_lt_of_lt above, here, inside⟩⟩
    · exact ⟨tx, paid, .inr member⟩
  · rintro ⟨tx, paid, ⟨h, b, above, here, inside⟩ | member⟩
    · obtain ⟨e, member, block⟩ := (shown b ⟨tx, inside, pays paid⟩).mpr ⟨h, above, here⟩
      exact .inl ⟨e, member, b, block, tx, inside, paid⟩
    · exact .inr ⟨tx, member, paid⟩

theorem getTxOptional_onlyFails {P : ChainError → Prop} {txid : Txid}
    (here : ∀ e, client.getRawTransaction txid = .error e → ¬ isNotFound e = true → ∀ e', P e') :
    OnlyFails P (client.getTxOptional txid) := by
  unfold CoreClient.getTxOptional
  split
  · trivial
  · next e failed =>
    split_ifs with gone
    · trivial
    · exact here e failed gone _
    · exact here e failed gone _

theorem activeSpksIn_onlyFails (cp : CheckPoint) :
    OnlyFails (fun _ => ¬ client.Replies) (client.activeSpksIn spks cp) := by
  refine onlyFails_bind (onlyFails_foldlM (fun item member active => ?_) _) fun active _ => ?_
  · refine onlyFails_bind (onlyFails_ofExcept ?_) fun event _ => ?_
    · rintro e rfl replies
      obtain ⟨events, returned⟩ := replies.filters cp spks
      rw [returned] at member
      simp at member
    · cases event.block with
      | none => trivial
      | some b => trivial
  · refine onlyFails_bind (onlyFails_ofExcept ?_) fun listed answered => ?_
    · intro e failed replies
      obtain ⟨listed, answered⟩ := replies.mempool
      rw [answered] at failed
      cases failed
    · refine onlyFails_foldlM (fun txid member active => ?_) _
      refine onlyFails_bind (getTxOptional_onlyFails ?_) fun answer _ => ?_
      · intro e failed lost _ replies
        exact lost (replies.lookups listed (ofExcept_eq_ok.mp answered) txid member e failed)
      · cases answer with
        | none => trivial
        | some tx => trivial

end Probe

section Keychain

namespace SpkIter

variable (it : SpkIter) (paid : Script → Prop)

def upTo (count : Nat) : List (UInt32 × Script) := (List.range count).filterMap it.item

def Used (n : Nat) : Prop := ∃ i spk, it.item n = some (i, spk) ∧ paid spk

/-- The search left the keychain after `count` scripts and reports an index. -/
structure StopGapExact (stopGap count : Nat) (reported : Option UInt32) : Prop where
  reached : ∀ n < count, it.item n ≠ none
  stopped : it.item count = none ∨
    stopGap ≤ count ∧ ∀ n < count, count ≤ n + stopGap → ¬ it.Used paid n
  unused : reported = none ↔ ∀ n < count, ¬ it.Used paid n
  last : ∀ i, reported = some i → ∃ n < count, (∃ spk, it.item n = some (i, spk) ∧ paid spk) ∧
    ∀ m < count, it.Used paid m → m ≤ n
  largest : it.Ascending → ∀ i, reported = some i → ∀ n < count, ∀ j spk,
    it.item n = some (j, spk) → paid spk → j ≤ i
  missed : ∀ m, it.Used paid m →
    (∀ start, start + stopGap ≤ m → ∃ n < start + stopGap, start ≤ n ∧ it.Used paid n) →
    m < count

variable {it paid}

theorem upTo_succ {pos : Nat} {entry : UInt32 × Script} (here : it.item pos = some entry) :
    it.upTo (pos + 1) = it.upTo pos ++ [entry] := by
  rw [upTo, List.range_succ, List.filterMap_append, List.filterMap_cons_some here]
  rfl

theorem item_none_of_le {n m : Nat} (stopped : it.item n = none) (later : n ≤ m) :
    it.item m = none := by
  induction later with
  | refl => exact stopped
  | step _ ih => exact it.ended _ ih

theorem used_iff {n : Nat} {entry : UInt32 × Script} (here : it.item n = some entry) :
    it.Used paid n ↔ paid entry.2 := by
  obtain ⟨i, spk⟩ := entry
  simp [Used, here]

theorem take_nil {pos n : Nat} (positive : 1 ≤ n) (empty : (it.take pos n).isEmpty = true) :
    it.item pos = none := by
  obtain ⟨k, rfl⟩ := Nat.exists_eq_add_of_le' positive
  rw [take] at empty
  cases here : it.item pos with
  | none => rfl
  | some entry => simp [here] at empty

end SpkIter

section Tracks

variable (it : SpkIter) (paid : Script → Prop) [DecidablePred (it.Used paid)]

/-- The state of the search in front of a position, for a plan that began with
    some scripts. The count saturates. -/
structure GapSearch.Tracks (planned : List Script) (pos : Nat) (s : GapSearch) : Prop where
  reached : ∀ n < pos, it.item n ≠ none
  spks : s.spks = planned ++ (it.upTo pos).map Prod.snd
  unused : s.unused = min (Gap.quiet (it.Used paid) pos) usizeMax
  last : s.last = (Gap.lastHit (it.Used paid) pos).bind fun n => (it.item n).map Prod.fst

variable {it paid} {planned : List Script} {pos : Nat} {s : GapSearch}

theorem GapSearch.tracks_start : GapSearch.Tracks it paid planned 0 ⟨0, none, planned⟩ where
  reached n before := absurd before (Nat.not_lt_zero n)
  spks := by simp [SpkIter.upTo]
  unused := rfl
  last := rfl

theorem GapSearch.Tracks.note (tracks : GapSearch.Tracks it paid planned pos s)
    {entry : UInt32 × Script} (here : it.item pos = some entry) {active : List Script}
    (probed : entry.2 ∈ active ↔ paid entry.2) :
    GapSearch.Tracks it paid planned (pos + 1) (s.note active entry) := by
  have reached : ∀ n < pos + 1, it.item n ≠ none := by
    intro n before
    rcases Nat.lt_succ_iff_lt_or_eq.mp before with earlier | rfl
    · exact tracks.reached n earlier
    · simp [here]
  have spks : (s.note active entry).spks = planned ++ (it.upTo (pos + 1)).map Prod.snd := by
    rw [GapSearch.note_spks, tracks.spks, SpkIter.upTo_succ here, List.map_append,
      List.append_assoc]
    rfl
  by_cases used : paid entry.2
  · have hit := (SpkIter.used_iff here).mpr used
    refine ⟨reached, spks, ?_, ?_⟩
    · rw [Gap.quiet_succ_hit hit, GapSearch.note,
        if_pos (List.contains_iff_mem.mpr (probed.mpr used))]
      rfl
    · rw [Gap.lastHit_succ_hit hit, GapSearch.note,
        if_pos (List.contains_iff_mem.mpr (probed.mpr used)), Option.bind_some, here]
      rfl
  · have miss := mt (SpkIter.used_iff here).mp used
    have skipped : ¬ active.contains entry.2 = true := by
      rw [List.contains_iff_mem, probed]
      exact used
    refine ⟨reached, spks, ?_, ?_⟩
    · rw [Gap.quiet_succ_miss miss, GapSearch.note, if_neg skipped]
      change min (s.unused + 1) usizeMax = _
      rw [tracks.unused]
      omega
    · rw [Gap.lastHit_succ_miss miss, GapSearch.note, if_neg skipped]
      exact tracks.last

theorem GapSearch.Tracks.batch (tracks : GapSearch.Tracks it paid planned pos s)
    {batch : List (UInt32 × Script)} {active : List Script}
    (items : ∀ k entry, batch[k]? = some entry → it.item (pos + k) = some entry)
    (probed : ∀ entry ∈ batch, entry.2 ∈ active ↔ paid entry.2) :
    GapSearch.Tracks it paid planned (pos + batch.length)
      (batch.foldl (GapSearch.note active) s) := by
  induction batch generalizing pos s with
  | nil => exact tracks
  | cons first rest ih =>
    obtain ⟨head, tail⟩ := List.forall_mem_cons.mp probed
    have later := ih (tracks.note (items 0 first rfl) head) (fun k entry at_ => by
      rw [Nat.add_assoc, Nat.add_comm 1 k]
      exact items (k + 1) entry at_) tail
    rw [List.length_cons, Nat.add_comm rest.length, ← Nat.add_assoc]
    exact later

theorem GapSearch.Tracks.exact (tracks : GapSearch.Tracks it paid planned pos s) {stopGap : Nat}
    (stops : it.item pos = none ∨ stopGap ≤ s.unused) :
    it.StopGapExact paid stopGap pos s.last := by
  have quiet : stopGap ≤ s.unused → stopGap ≤ Gap.quiet (it.Used paid) pos := by
    rw [tracks.unused]
    omega
  have stopped : it.item pos = none ∨
      stopGap ≤ pos ∧ ∀ n < pos, pos ≤ n + stopGap → ¬ it.Used paid n := by
    refine stops.imp_right fun full => ⟨(quiet full).trans Gap.quiet_le, ?_⟩
    intro n before recent
    have := quiet full
    exact Gap.not_hit_of_quiet before (by omega)
  have last : ∀ i, s.last = some i → ∃ n < pos, (∃ spk, it.item n = some (i, spk) ∧ paid spk) ∧
      ∀ m < pos, it.Used paid m → m ≤ n := by
    intro i found
    rw [tracks.last, Option.bind_eq_some_iff] at found
    obtain ⟨n, hit, index⟩ := found
    obtain ⟨before, ⟨j, spk, here, used⟩, most⟩ := Gap.lastHit_eq_some hit
    rw [here, Option.map_some, Option.some.injEq] at index
    exact ⟨n, before, ⟨spk, index ▸ here, used⟩, most⟩
  refine ⟨tracks.reached, stopped, ?_, last, ?_, ?_⟩
  · rw [tracks.last, Option.bind_eq_none_iff, ← Gap.lastHit_eq_none]
    constructor
    · intro never
      cases found : Gap.lastHit (it.Used paid) pos with
      | none => rfl
      | some n =>
        have lost := never n found
        rw [Option.map_eq_none_iff] at lost
        exact absurd lost (tracks.reached n (Gap.lastHit_eq_some found).1)
    · intro none n found
      rw [none] at found
      cases found
  · intro ascending i found n before j spk here used
    obtain ⟨k, _, ⟨spk', at_, _⟩, most⟩ := last i found
    rcases Nat.lt_or_eq_of_le (most n before ⟨j, spk, here, used⟩) with earlier | rfl
    · exact UInt32.le_of_lt (ascending n k _ _ here at_ earlier)
    · rw [here, Option.some.injEq, Prod.mk.injEq] at at_
      exact at_.1 ▸ UInt32.le_refl j
  · intro m used filled
    by_contra beyond
    obtain ⟨i, spk, here, _⟩ := used
    rcases stopped with ended | ⟨fits, silent⟩
    · rw [SpkIter.item_none_of_le ended (Nat.not_lt.mp beyond)] at here
      cases here
    · obtain ⟨n, before, start, hit⟩ := filled (pos - stopGap) (by omega)
      exact silent n (by omega) (by omega) hit

end Tracks

variable {backend : CoreRpcBackend} {chain : List Block} {listing : List Txid} {hash : BlockHash}

theorem collectKeychain_exact (steady : backend.client.Steady chain listing)
    (genesis : backend.client.getBlockHash 0 = .ok hash) (word : backend.stopGap ≤ usizeMax)
    {it : SpkIter} [DecidablePred (it.Used (backend.client.Paid chain listing))] {bound : Nat}
    (bounded : ∀ n, it.Used (backend.client.Paid chain listing) n → n < bound)
    {planned : List Script} {fuel pos : Nat} {s : GapSearch}
    (tracks : s.Tracks it (backend.client.Paid chain listing) planned pos)
    (searching : s.unused < backend.stopGap) (rounds : bound + backend.stopGap < pos + fuel) :
    (∃ s' count, backend.collectKeychain (.new ⟨0, hash⟩) it fuel pos s = .ok (some s') ∧
      s'.spks = planned ++ (it.upTo count).map Prod.snd ∧
      it.StopGapExact (backend.client.Paid chain listing) backend.stopGap count s'.last) ∨
    ∃ e, backend.collectKeychain (.new ⟨0, hash⟩) it fuel pos s = fail e ∧
      ¬ backend.client.Replies := by
  induction fuel generalizing pos s with
  | zero =>
    -- A position this far has a whole stop gap behind the last used script.
    have := Gap.le_add_quiet (n := pos) bounded
    have := tracks.unused
    omega
  | succ fuel ih =>
    rw [CoreRpcBackend.collectKeychain]
    by_cases empty : (it.take pos backend.stopGap).isEmpty = true
    · rw [if_pos empty]
      exact .inl ⟨s, pos, rfl, tracks.spks,
        tracks.exact (.inl (SpkIter.take_nil backend.positive empty))⟩
    · rw [if_neg empty]
      rcases (activeSpksIn_onlyFails (.new ⟨0, hash⟩)).ok_or_fail with
        ⟨active, probed⟩ | ⟨e, failed, silent⟩
      · rw [probed, bind_ok]
        have next : GapSearch.Tracks it (backend.client.Paid chain listing) planned
            (pos + (it.take pos backend.stopGap).length)
            ((it.take pos backend.stopGap).foldl (GapSearch.note active) s) :=
          tracks.batch (fun k entry at_ => SpkIter.getElem?_take at_) fun entry member =>
            activeSpksIn_exact steady genesis probed (List.mem_map_of_mem member)
        by_cases full : (List.foldl (GapSearch.note active) s
            (it.take pos backend.stopGap)).unused ≥ backend.stopGap
        · rw [if_pos full]
          exact .inl ⟨_, _, rfl, next.spks, next.exact (.inr full)⟩
        · rw [if_neg full]
          have taken : 0 < (it.take pos backend.stopGap).length := by
            rwa [List.length_pos_iff, ne_eq, ← List.isEmpty_iff]
          exact ih next (Nat.not_le.mp full) (by omega)
      · rw [failed]
        exact .inr ⟨e, rfl, silent⟩

end Keychain

section Plan

variable {backend : CoreRpcBackend} {chain : List Block} {listing : List Txid} {hash : BlockHash}

/-- The plan grew by the first scripts of each of these keychains, and the search
    in each was exact. -/
structure FullScanSpkPlan.Grows (paid : Script → Prop) (stopGap : Nat)
    (keychains : List (KeychainKind × SpkIter)) (count : KeychainKind → Nat)
    (plan plan' : FullScanSpkPlan) : Prop where
  spks : plan'.spks = plan.spks ++ keychains.flatMap fun entry =>
    (entry.2.upTo (count entry.1)).map Prod.snd
  exact_ : ∀ keychain it, (keychain, it) ∈ keychains →
    it.StopGapExact paid stopGap (count keychain) (plan'.lastActive keychain)
  others : ∀ keychain, keychain ∉ keychains.map Prod.fst →
    plan'.lastActive keychain = plan.lastActive keychain

theorem FullScanSpkPlan.Grows.cons {paid : Script → Prop} {stopGap : Nat}
    {keychains : List (KeychainKind × SpkIter)} {count : KeychainKind → Nat}
    {plan next plan' : FullScanSpkPlan} {keychain : KeychainKind} {it : SpkIter} {first : Nat}
    (grows : FullScanSpkPlan.Grows paid stopGap keychains count next plan')
    (new : keychain ∉ keychains.map Prod.fst)
    (spks : next.spks = plan.spks ++ (it.upTo first).map Prod.snd)
    (exact_ : it.StopGapExact paid stopGap first (next.lastActive keychain))
    (others : ∀ keychain', keychain' ≠ keychain →
      next.lastActive keychain' = plan.lastActive keychain') :
    FullScanSpkPlan.Grows paid stopGap ((keychain, it) :: keychains)
      (Function.update count keychain first) plan plan' := by
  have apart {keychain' : KeychainKind} (member : keychain' ∈ keychains.map Prod.fst) :
      keychain' ≠ keychain := fun same => new (same ▸ member)
  refine ⟨?_, ?_, ?_⟩
  · have rest : keychains.flatMap (fun entry =>
        (entry.2.upTo (Function.update count keychain first entry.1)).map Prod.snd) =
        keychains.flatMap fun entry => (entry.2.upTo (count entry.1)).map Prod.snd := by
      refine List.flatMap_congr fun entry member => ?_
      rw [Function.update_of_ne (apart (List.mem_map_of_mem member))]
    rw [List.flatMap_cons, rest, Function.update_self, grows.spks, spks, List.append_assoc]
  · intro keychain' it' member
    rcases List.mem_cons.mp member with same | later
    · obtain ⟨rfl, rfl⟩ := Prod.mk.inj same
      rw [Function.update_self, grows.others _ new]
      exact exact_
    · rw [Function.update_of_ne (apart (List.mem_map_of_mem later))]
      exact grows.exact_ keychain' it' later
  · intro keychain' outside
    rw [List.map_cons, List.mem_cons, not_or] at outside
    rw [grows.others keychain' outside.2, others keychain' outside.1]

theorem exists_bound {it : SpkIter} {paid : Script → Prop} (finite : {n | it.Used paid n}.Finite) :
    ∃ bound, ∀ n, it.Used paid n → n < bound := by
  obtain ⟨most, above⟩ := finite.bddAbove
  exact ⟨most + 1, fun n used => Nat.lt_succ_of_le (above used)⟩

theorem collectKeychains_grows (steady : backend.client.Steady chain listing)
    (genesis : backend.client.getBlockHash 0 = .ok hash) (word : backend.stopGap ≤ usizeMax)
    {keychains : List (KeychainKind × SpkIter)}
    (finite : ∀ entry ∈ keychains,
      {n | entry.2.Used (backend.client.Paid chain listing) n}.Finite)
    (distinct : (keychains.map Prod.fst).Nodup) :
    ∃ rounds, ∀ fuel ≥ rounds, ∀ plan : FullScanSpkPlan,
      (∀ entry ∈ keychains, plan.lastActive entry.1 = none) →
      (∃ plan' count, backend.collectKeychains (.new ⟨0, hash⟩) fuel keychains plan =
          .ok (some plan') ∧
        plan.Grows (backend.client.Paid chain listing) backend.stopGap keychains count plan') ∨
      ∃ e, backend.collectKeychains (.new ⟨0, hash⟩) fuel keychains plan = fail e ∧
        ¬ backend.client.Replies := by
  classical
  induction keychains with
  | nil =>
    exact ⟨0, fun fuel _ plan _ => .inl ⟨plan, fun _ => 0, rfl, by simp, by simp, by simp⟩⟩
  | cons entry rest ih =>
    obtain ⟨keychain, it⟩ := entry
    obtain ⟨here, later⟩ := List.forall_mem_cons.mp finite
    obtain ⟨bound, bounded⟩ := exists_bound here
    rw [List.map_cons, List.nodup_cons] at distinct
    obtain ⟨rounds, searched⟩ := ih later distinct.2
    refine ⟨max rounds (bound + backend.stopGap + 1), fun fuel enough plan fresh => ?_⟩
    obtain ⟨unset, unset'⟩ := List.forall_mem_cons.mp fresh
    rw [CoreRpcBackend.collectKeychains]
    have start : GapSearch.Tracks it (backend.client.Paid chain listing) plan.spks 0
        ⟨0, none, plan.spks⟩ := GapSearch.tracks_start
    have enough' : bound + backend.stopGap < 0 + fuel := by omega
    rcases collectKeychain_exact steady genesis word bounded start backend.positive enough' with
      ⟨s, first, run, spks, exact_⟩ | ⟨e, failed, silent⟩
    · rw [run, bind_ok]
      have later (last : KeychainKind → Option UInt32) (own : last keychain = s.last)
          (others : ∀ keychain', keychain' ≠ keychain →
            last keychain' = plan.lastActive keychain') :
          (∃ plan' count, backend.collectKeychains (.new ⟨0, hash⟩) fuel rest ⟨s.spks, last⟩ =
              .ok (some plan') ∧ plan.Grows (backend.client.Paid chain listing) backend.stopGap
                ((keychain, it) :: rest) count plan') ∨
          ∃ e, backend.collectKeychains (.new ⟨0, hash⟩) fuel rest ⟨s.spks, last⟩ = fail e ∧
            ¬ backend.client.Replies := by
        have fresh' : ∀ entry ∈ rest, last entry.1 = none := by
          intro entry member
          have other : entry.1 ≠ keychain := by
            rintro rfl
            exact distinct.1 (List.mem_map.mpr ⟨entry, member, rfl⟩)
          rw [others entry.1 other, unset' entry member]
        rcases searched fuel (by omega) ⟨s.spks, last⟩ fresh' with
          ⟨plan', count, finished, grows⟩ | failed
        · rw [← own] at exact_
          exact .inl ⟨plan', _, finished, grows.cons distinct.1 spks exact_ others⟩
        · exact .inr failed
      -- The index is entered only if one was found; there was none before.
      cases found : s.last with
      | none =>
        simp only [found]
        exact later plan.lastActive (unset.trans found.symm) fun _ _ => rfl
      | some i =>
        simp only [found]
        exact later (Function.update plan.lastActive keychain (some i))
          ((Function.update_self ..).trans found.symm)
          fun _ other => Function.update_of_ne other ..
    · rw [failed]
      exact .inr ⟨e, rfl, silent⟩

theorem keychains_nodup (req : FullScanRequest) : (req.keychains.map Prod.fst).Nodup := by
  cases external : req.spksByKeychain .external with
  | none =>
    cases internal : req.spksByKeychain .internal <;>
      simp [FullScanRequest.keychains, external, internal]
  | some it =>
    cases internal : req.spksByKeychain .internal <;>
      simp [FullScanRequest.keychains, external, internal]

/-- Unless the node fails, the search ends, and in each keychain of the request it
    has collected the scripts up to where the stop gap says. -/
theorem stop_gap_search_exact (backend : CoreRpcBackend) (word : backend.stopGap ≤ usizeMax)
    (chain : List Block) (listing : List Txid) (steady : backend.client.Steady chain listing)
    (req : FullScanRequest)
    (finite : ∀ keychain it, req.spksByKeychain keychain = some it →
      {n | it.Used (backend.client.Paid chain listing) n}.Finite) :
    ∃ rounds, ∀ fuel ≥ rounds,
      (∃ plan, ∃ count : KeychainKind → Nat,
        backend.collectFullScanSpks fuel req = .ok (some plan) ∧
        plan.spks = req.keychains.flatMap (fun entry =>
          (entry.2.upTo (count entry.1)).map Prod.snd) ∧
        (∀ keychain it, req.spksByKeychain keychain = some it →
          it.StopGapExact (backend.client.Paid chain listing) backend.stopGap (count keychain)
            (plan.lastActive keychain)) ∧
        ∀ keychain, req.spksByKeychain keychain = none → plan.lastActive keychain = none) ∨
      ∃ e, backend.collectFullScanSpks fuel req = fail e ∧ ¬ backend.client.Replies := by
  cases asked : backend.client.getBlockHash 0 with
  | error e =>
    refine ⟨0, fun fuel _ => .inr ⟨mapRpc e, ?_, fun replies => ?_⟩⟩
    · rw [CoreRpcBackend.collectFullScanSpks, CoreClient.genesisCheckpoint, asked]
      rfl
    · obtain ⟨hash, genesis⟩ := replies.genesis
      rw [asked] at genesis
      cases genesis
  | ok hash =>
    have started : backend.client.genesisCheckpoint = .ok (.new ⟨0, hash⟩) := by
      rw [CoreClient.genesisCheckpoint, asked]
      rfl
    have finite' : ∀ entry ∈ req.keychains,
        {n | entry.2.Used (backend.client.Paid chain listing) n}.Finite := by
      intro entry member
      exact finite entry.1 entry.2 (keychains_mem.mp member)
    obtain ⟨rounds, searched⟩ := collectKeychains_grows steady asked word finite'
      (keychains_nodup req)
    refine ⟨rounds, fun fuel enough => ?_⟩
    rw [CoreRpcBackend.collectFullScanSpks, started, bind_ok]
    rcases searched fuel enough ⟨[], fun _ => none⟩ (fun _ _ => rfl) with
      ⟨plan, count, finished, grows⟩ | failed
    · refine .inl ⟨plan, count, finished, grows.spks, ?_, ?_⟩
      · intro keychain it iterated
        exact grows.exact_ keychain it (keychains_mem.mpr iterated)
      · intro keychain absent
        refine grows.others keychain fun member => ?_
        obtain ⟨⟨_, it⟩, inside, rfl⟩ := List.mem_map.mp member
        rw [keychains_mem.mp inside] at absent
        cases absent
    · exact .inr failed

end Plan

namespace Node

variable (node : Node) {env : Primitives}

theorem shown_block {cp : CheckPoint} {spks : List Script} {b : Block}
    (pays : ∃ tx ∈ b.txdata, tx.Pays spks.contains) :
    (∃ e ∈ node.shown env cp spks, e.block = some b) ↔
      ∃ h, cp.tip.height.toNat < h ∧ node.chain[h]? = some b := by
  unfold shown
  constructor
  · rintro ⟨e, member, block⟩
    obtain ⟨⟨b', h⟩, listed, rfl⟩ := List.mem_map.mp member
    obtain ⟨_, same⟩ := Option.ite_none_right_eq_some.mp block
    obtain rfl := Option.some.inj same
    exact ⟨h, node.mem_drop_chain.mp listed⟩
  · rintro ⟨h, above, here⟩
    refine ⟨_, List.mem_map_of_mem (node.mem_drop_chain.mpr ⟨above, here⟩), if_pos ?_⟩
    obtain ⟨tx, inside, paid⟩ := pays
    exact node.filterMatches_iff.mpr ⟨tx, inside, .inl paid⟩

theorem client_steady : (node.client env).Steady node.chain (node.mempool.map Prod.fst) where
  genesis _ := node.client_genesis
  filters cp spks events _ returned b pays := by
    rw [← node.client_filterIter returned]
    exact node.shown_block pays
  mempool _ listed := (Except.ok.inj listed).symm

theorem client_replies (started : node.chain ≠ []) : (node.client env).Replies where
  genesis := by
    obtain ⟨b, rest, chain⟩ := List.exists_cons_of_ne_nil started
    exact ⟨b.hash, by simp [client, chain]⟩
  filters cp spks := ⟨node.shown env cp spks, rfl⟩
  mempool := ⟨_, rfl⟩
  lookups _ _ txid _ e failed := by
    simp only [client] at failed
    split at failed
    · cases failed
    · obtain rfl := Except.error.inj failed
      decide

end Node

namespace Sample

def gapIter : SpkIter := .ofList [(0, p2wshScript receiveHash), (1, recipientScript),
  (2, legacyScript), (3, p2wshScript changeHash), (4, []), (5, [0x51])]

def gapRequest : FullScanRequest where
  startTime := 1700001200
  chainTip := none
  spksByKeychain
    | .external => some gapIter
    | .internal => none

def gapBackend : CoreRpcBackend := .connect (scannedNode.client mempoolEnv) 2

theorem gap_run (fuel : Nat) :
    ((gapBackend.collectFullScanSpks (fuel + 2) gapRequest).toOption.join.map fun plan =>
      (plan.lastActive .external, plan.spks.length)) = some (some 0, 4) := by
  rfl

end Sample

/-- With a stop gap of two, the last two of six scripts are not collected. -/
theorem stop_gap_search_sample : ∃ rounds, ∀ fuel ≥ rounds, ∃ plan,
    ∃ count : KeychainKind → Nat,
    Sample.gapBackend.collectFullScanSpks fuel Sample.gapRequest = .ok (some plan) ∧
    Sample.gapIter.StopGapExact ((Sample.scannedNode.client Sample.mempoolEnv).Paid
      Sample.scannedNode.chain [Sample.refundTxid]) 2 (count .external)
      (plan.lastActive .external) ∧
    count .external = 4 ∧ plan.lastActive .external = some 0 := by
  have finite : ∀ keychain it, Sample.gapRequest.spksByKeychain keychain = some it →
      {n | it.Used ((Sample.scannedNode.client Sample.mempoolEnv).Paid Sample.scannedNode.chain
        [Sample.refundTxid]) n}.Finite := by
    intro keychain it iterated
    refine (Set.finite_lt_nat 6).subset ?_
    rintro n ⟨i, spk, here, _⟩
    cases keychain with
    | internal => cases iterated
    | external =>
      obtain rfl := Option.some.inj iterated
      exact (List.getElem?_eq_some_iff.mp here).1
  obtain ⟨rounds, searched⟩ := stop_gap_search_exact Sample.gapBackend (by decide)
    Sample.scannedNode.chain [Sample.refundTxid] Sample.scannedNode.client_steady
    Sample.gapRequest finite
  refine ⟨rounds + 2, fun fuel enough => ?_⟩
  obtain ⟨fuel, rfl⟩ := Nat.exists_eq_add_of_le' (show 2 ≤ fuel by omega)
  rcases searched (fuel + 2) (by omega) with ⟨plan, count, run, spks, exact_, _⟩ | ⟨e, _, silent⟩
  · have seen := Sample.gap_run fuel
    rw [run] at seen
    obtain ⟨last, length⟩ := Prod.mk.inj (Option.some.inj seen)
    have here := exact_ .external _ rfl
    refine ⟨plan, count, run, here, ?_, last⟩
    have few : count .external ≤ 6 := by
      by_contra many
      exact here.reached 6 (by omega) rfl
    have collected : plan.spks = (Sample.gapIter.upTo (count .external)).map Prod.snd := by
      rw [spks]
      exact List.append_nil _
    have four : ∀ n ≤ 6, ((Sample.gapIter.upTo n).map Prod.snd).length = 4 → n = 4 := by decide
    exact four _ few (collected ▸ length)
  · exact absurd (Sample.scannedNode.client_replies (by decide)) silent

end Trinity
