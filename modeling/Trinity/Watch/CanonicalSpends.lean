import Trinity.Watch.Canonical

/-!
The canonical transactions of a graph never conflict: each rules out its conflicts
before the next is marked, and a transaction that is ruled out is not marked. So
the coins that are left can be listed unless one of them lists an input twice.
-/
namespace Trinity.Watch

open Outcome

def Clash (a b : Transaction) : Prop := ∃ op, op.isNull = false ∧ a.Spends op ∧ b.Spends op

theorem Clash.symm {a b : Transaction} (clash : Clash a b) : Clash b a := by
  obtain ⟨op, real, spends, spends'⟩ := clash
  exact ⟨op, real, spends', spends⟩

/-- A transaction lists no input twice, and the null outpoint only as a coinbase. -/
def SpendsOnce (tx : Transaction) : Prop :=
  isCoinbase tx = true ∨
    (tx.input.map (·.previousOutput)).Nodup ∧ ∀ txin ∈ tx.input, txin.previousOutput.isNull = false

theorem lookup_isSome {K V : Type} [DecidableEq K] {entries : List (K × V)} {k : K} :
    (entries.lookup k).isSome = true ↔ ∃ e ∈ entries, e.1 = k := by
  induction entries with
  | nil => simp
  | cons e rest ih =>
    obtain ⟨k', v⟩ := e
    rw [TxGraph.lookup_put, List.exists_mem_cons_iff]
    split
    · rename_i same
      simp [same]
    · rename_i other
      rw [ih]
      constructor
      · exact .inr
      · intro found
        exact found.resolve_left fun same => other same.symm

namespace TxGraph

/-- Every transaction stands under its own id, and none of its spends is missing. -/
structure Linked (env : Primitives) (g : TxGraph) : Prop where
  txids : ∀ txid tx, g.getTx txid = some tx → env.computeTxid tx = txid
  spends : ∀ txid tx, g.getTx txid = some tx → ∀ txin ∈ tx.input,
    txin.previousOutput.isNull = false → txid ∈ g.outspends txin.previousOutput

section Marks

variable {env : Primitives} {g : TxGraph}

theorem Linked.conflict (linked : g.Linked env) {a b : Transaction} {txid : Txid}
    (held : g.getTx txid = some b) (clash : Clash a b) (other : txid ≠ env.computeTxid a) :
    txid ∈ g.directConflicts env a := by
  obtain ⟨op, real, ⟨txin, listed, spent⟩, ⟨txin', listed', spent'⟩⟩ := clash
  have spender : txid ∈ g.outspends txin.previousOutput := by
    rw [spent, ← spent']
    exact linked.spends txid b held txin' listed' (spent' ▸ real)
  exact List.mem_filter.mpr
    ⟨List.mem_flatMap.mpr ⟨txin, listed, spender⟩, decide_eq_true other⟩

structure Settled (env : Primitives) (g : TxGraph) (canonical : CanonicalMap)
    (notCanonical : List Txid) : Prop where
  held : ∀ e ∈ canonical, g.getTx e.1 = some e.2.1
  ruled : ∀ e ∈ canonical, ∀ txid ∈ g.directConflicts env e.2.1, txid ∈ notCanonical
  apart : ∀ e ∈ canonical, ∀ e' ∈ canonical, e.1 ≠ e'.1 → ¬ Clash e.2.1 e'.2.1

theorem Settled.mono {canonical : CanonicalMap} {notCanonical notCanonical' : List Txid}
    (settled : Settled env g canonical notCanonical)
    (more : ∀ txid ∈ notCanonical, txid ∈ notCanonical') :
    Settled env g canonical notCanonical' :=
  ⟨settled.held, fun e member txid conflict => more txid (settled.ruled e member txid conflict),
    settled.apart⟩

theorem Settled.subset {canonical canonical' : CanonicalMap} {notCanonical : List Txid}
    (settled : Settled env g canonical notCanonical) (fewer : ∀ e ∈ canonical', e ∈ canonical) :
    Settled env g canonical' notCanonical where
  held e member := settled.held e (fewer e member)
  ruled e member := settled.ruled e (fewer e member)
  apart e member e' member' := settled.apart e (fewer e member) e' (fewer e' member')

theorem Settled.join (linked : g.Linked env) {canonical : CanonicalMap}
    {notCanonical : List Txid} (settled : Settled env g canonical notCanonical)
    {tx : Transaction} (held : g.getTx (env.computeTxid tx) = some tx)
    (ruled : ∀ txid ∈ g.directConflicts env tx, txid ∈ notCanonical)
    (free : env.computeTxid tx ∉ notCanonical) (reason : CanonicalReason) :
    Settled env g ((env.computeTxid tx, tx, reason) :: canonical) notCanonical := by
  have alone : ∀ e ∈ canonical, env.computeTxid tx ≠ e.1 → ¬ Clash e.2.1 tx := by
    intro e member other clash
    have own := linked.txids e.1 e.2.1 (settled.held e member)
    exact free (settled.ruled e member _ (linked.conflict held clash (by rwa [own])))
  refine ⟨?_, ?_, ?_⟩
  · intro e member
    rcases List.mem_cons.mp member with rfl | old
    · exact held
    · exact settled.held e old
  · intro e member
    rcases List.mem_cons.mp member with rfl | old
    · exact ruled
    · exact settled.ruled e old
  · intro e member e' member' other clash
    rcases List.mem_cons.mp member with rfl | old
    · rcases List.mem_cons.mp member' with rfl | old'
      · exact other rfl
      · exact alone e' old' other clash.symm
    · rcases List.mem_cons.mp member' with rfl | old'
      · exact alone e old (Ne.symm other) clash
      · exact settled.apart e old e' old' other clash

theorem descent_keeps (kept before : List Txid) {s : DescentState}
    (start : ∀ txid ∈ before, txid ∈ s.notCanonical ∧ txid ∉ s.undoNotCanonical)
    (inside : ∀ txid ∈ kept, txid ∈ s.notCanonical) (queue : List Txid) :
    (∀ txid ∈ before, txid ∈ (g.descent.run s queue).notCanonical ∧
      txid ∉ (g.descent.run s queue).undoNotCanonical) ∧
    ∀ txid ∈ kept, txid ∈ (g.descent.run s queue).notCanonical := by
  apply Worklist.run_keeps
    (fun s : DescentState =>
      (∀ txid ∈ before, txid ∈ s.notCanonical ∧ txid ∉ s.undoNotCanonical) ∧
        ∀ txid ∈ kept, txid ∈ s.notCanonical)
    (fun _ => True)
  · intro s txid keeps _
    refine ⟨?_, fun _ _ => trivial⟩
    show _ ∧ _
    simp only [descent, descentStep]
    split
    · exact keeps
    · split
      · exact keeps
      · rename_i new
        refine ⟨?_, fun txid' member => List.mem_cons_of_mem _ (keeps.2 txid' member)⟩
        intro txid' member
        obtain ⟨listed, undone⟩ := keeps.1 txid' member
        refine ⟨List.mem_cons_of_mem _ listed, ?_⟩
        intro undoes
        rcases List.mem_cons.mp undoes with rfl | old
        · exact new (List.contains_iff_mem.mpr listed)
        · exact undone old
  · exact ⟨start, inside⟩
  · exact fun _ _ => trivial

theorem descent_marks (s : DescentState) (fresh : s.visited = []) (txid : Txid) :
    txid ∈ (g.descent.run s [txid]).notCanonical := by
  have marked : txid ∈ (g.descent.step s txid).1.notCanonical := by
    show txid ∈ (descentStep g s txid).1.notCanonical
    unfold descentStep
    rw [fresh]
    simp only [List.contains_nil, Bool.false_eq_true, ↓reduceIte]
    split
    · rename_i old
      exact List.contains_iff_mem.mp old
    · exact List.mem_cons_self
  rw [Worklist.run_cons]
  exact (descent_keeps [txid] [] (by simp) (by simpa using marked) _).2 txid
    (List.mem_singleton_self txid)

/-- The marks in the course of `mark_canonical`, by those it started from. -/
structure Staged (env : Primitives) (g : TxGraph) (canonical : CanonicalMap)
    (notCanonical : List Txid) (s : MarkState) : Prop where
  settled : Settled env g s.canonical s.notCanonical
  kept : ∀ e ∈ canonical, e ∈ s.canonical
  new : ∀ e ∈ s.canonical, e ∈ canonical ∨ e.1 ∈ s.stagedQueue
  staged : ∀ txid ∈ s.stagedQueue, ∃ e ∈ s.canonical, e.1 = txid
  fresh : ∀ txid ∈ s.stagedQueue, ¬ ∃ e ∈ canonical, e.1 = txid
  once : s.stagedQueue.Nodup
  marks : ∀ txid ∈ notCanonical, txid ∈ s.notCanonical ∧ txid ∉ s.undoNotCanonical

variable {canonical : CanonicalMap} {notCanonical : List Txid} {s : MarkState}

theorem Staged.undo_canonical (staged : Staged env g canonical notCanonical s)
    {e : Txid × Transaction × CanonicalReason} :
    e ∈ s.canonical.filter (fun e => !s.stagedQueue.contains e.1) ↔ e ∈ canonical := by
  rw [List.mem_filter, Bool.not_eq_true', ← Bool.not_eq_true, List.contains_iff_mem]
  constructor
  · intro member
    exact (staged.new e member.1).resolve_right member.2
  · intro member
    exact ⟨staged.kept e member, fun isStaged => staged.fresh _ isStaged ⟨e, member, rfl⟩⟩

theorem Staged.undo_marks (staged : Staged env g canonical notCanonical s) {txid : Txid}
    (member : txid ∈ notCanonical) :
    txid ∈ s.notCanonical.filter fun t => !s.undoNotCanonical.contains t := by
  rw [List.mem_filter, Bool.not_eq_true', ← Bool.not_eq_true, List.contains_iff_mem]
  exact staged.marks txid member

theorem Staged.conflict (staged : Staged env g canonical notCanonical s) (txid : Txid) :
    Staged env g canonical notCanonical (markConflict g s txid) ∧
      (∀ txid' ∈ s.notCanonical, txid' ∈ (markConflict g s txid).notCanonical) ∧
      txid ∈ (markConflict g s txid).notCanonical := by
  obtain ⟨marks, more⟩ := descent_keeps (g := g) s.notCanonical notCanonical
    (s := ⟨[], s.notCanonical, s.undoNotCanonical⟩) staged.marks (fun _ member => member) [txid]
  exact ⟨⟨staged.settled.mono more, staged.kept, staged.new, staged.staged, staged.fresh,
    staged.once, marks⟩, more, descent_marks _ rfl txid⟩

theorem Staged.conflicts (staged : Staged env g canonical notCanonical s) (txids : List Txid) :
    Staged env g canonical notCanonical (txids.foldl (markConflict g) s) ∧
      (∀ txid ∈ s.notCanonical, txid ∈ (txids.foldl (markConflict g) s).notCanonical) ∧
      (∀ txid ∈ txids, txid ∈ (txids.foldl (markConflict g) s).notCanonical) ∧
      (txids.foldl (markConflict g) s).canonical = s.canonical := by
  induction txids generalizing s with
  | nil => exact ⟨staged, fun _ member => member, by simp, rfl⟩
  | cons txid rest ih =>
    obtain ⟨first, more, marked⟩ := staged.conflict txid
    obtain ⟨later, more', marked', same⟩ := ih first
    refine ⟨later, fun txid' member => more' txid' (more txid' member), ?_, same⟩
    intro txid' member
    rcases List.mem_cons.mp member with rfl | tail
    · exact more' _ marked
    · exact marked' txid' tail

theorem Staged.markTx (linked : g.Linked env) (startingTxid : Txid) (reason : CanonicalReason)
    (staged : Staged env g canonical notCanonical s) {tx : Transaction}
    (held : g.getTx (env.computeTxid tx) = some tx) :
    Staged env g canonical notCanonical (markTx env g startingTxid reason s tx).1 := by
  have begun : Staged env g canonical notCanonical { s with isStartingTx := false } :=
    ⟨staged.settled, staged.kept, staged.new, staged.staged, staged.fresh, staged.once,
      staged.marks⟩
  obtain ⟨ruled, _, conflicts, same⟩ := begun.conflicts (g.directConflicts env tx)
  unfold TxGraph.markTx
  simp only
  split
  · exact begun
  · rename_i vacant
    split
    · exact ⟨ruled.settled, ruled.kept, ruled.new, ruled.staged, ruled.fresh, ruled.once,
        ruled.marks⟩
    · rename_i free
      have absent : ¬ ∃ e ∈ s.canonical, e.1 = env.computeTxid tx := by
        rw [← lookup_isSome]
        exact vacant
      refine ⟨?_, ?_, ?_, ?_, ?_, ?_, ruled.marks⟩
      · exact ruled.settled.join linked held conflicts
          (fun member => free (List.contains_iff_mem.mpr member)) _
      · exact fun e member => List.mem_cons_of_mem _ (ruled.kept e member)
      · intro e member
        rcases List.mem_cons.mp member with rfl | old
        · exact .inr (List.mem_append_right _ (List.mem_singleton_self _))
        · exact (ruled.new e old).imp_right (List.mem_append_left _)
      · intro txid member
        rcases List.mem_append.mp member with old | last
        · obtain ⟨e, listed, isTxid⟩ := ruled.staged txid old
          exact ⟨e, List.mem_cons_of_mem _ listed, isTxid⟩
        · obtain rfl := List.mem_singleton.mp last
          exact ⟨_, List.mem_cons_self, rfl⟩
      · intro txid member
        rcases List.mem_append.mp member with old | last
        · exact ruled.fresh txid old
        · obtain rfl := List.mem_singleton.mp last
          rintro ⟨e, listed, isTxid⟩
          exact absent ⟨e, staged.kept e listed, isTxid⟩
      · rw [← List.concat_eq_append]
        apply ruled.once.concat
        intro member
        obtain ⟨e, listed, isTxid⟩ := ruled.staged _ member
        rw [same] at listed
        exact absent ⟨e, listed, isTxid⟩

theorem populateQueue_held (linked : g.Linked env) (inputs : List TxIn) (visited : List Txid) :
    ∀ tx ∈ (populateQueue g inputs visited).2, g.getTx (env.computeTxid tx) = some tx := by
  induction inputs generalizing visited with
  | nil => simp [populateQueue]
  | cons txin rest ih =>
    unfold populateQueue
    simp only
    split
    · exact ih visited
    · intro tx member
      rcases List.mem_append.mp member with first | later
      · have held := Option.mem_toList.mp first
        rw [linked.txids _ tx held]
        exact held
      · exact ih _ tx later

theorem Staged.ancestors (linked : g.Linked env) (startingTxid : Txid) (reason : CanonicalReason)
    (staged : Staged env g canonical notCanonical s) {tx : Transaction}
    (held : g.getTx (env.computeTxid tx) = some tx) :
    Staged env g canonical notCanonical ((ancestors env g startingTxid reason).run s [tx]) := by
  apply Worklist.run_keeps (Staged env g canonical notCanonical)
    (fun tx => g.getTx (env.computeTxid tx) = some tx)
  · intro s tx staged held
    have marked := staged.markTx linked startingTxid reason held
    show Staged env g canonical notCanonical (ancestorStep env g startingTxid reason s tx).1 ∧ _
    simp only [TxGraph.ancestors, ancestorStep]
    split
    · exact ⟨⟨marked.settled, marked.kept, marked.new, marked.staged, marked.fresh, marked.once,
        marked.marks⟩, populateQueue_held linked _ _⟩
    · exact ⟨marked, by simp⟩
  · exact staged
  · simpa using held

end Marks

section Iterate

variable {env : Primitives} {g : TxGraph} {it : CanonicalIter}

structure CanonicalIter.Sound (env : Primitives) (g : TxGraph) (it : CanonicalIter) : Prop where
  settled : Settled env g it.canonical it.notCanonical
  queued : ∀ txid ∈ it.queue, ∃ e ∈ it.canonical, e.1 = txid
  once : it.queue.Nodup
  leftover : ∀ left ∈ it.leftover, g.getTx left.1 = some left.2.1

theorem CanonicalIter.Sound.markCanonical (linked : g.Linked env) (sound : it.Sound env g)
    {txid : Txid} {tx : Transaction} (held : g.getTx txid = some tx) (reason : CanonicalReason) :
    (markCanonical env g it txid tx reason).Sound env g := by
  have start : Staged env g it.canonical it.notCanonical
      ⟨[], it.canonical, it.notCanonical, true, false, [], []⟩ :=
    ⟨sound.settled, fun _ member => member, fun _ member => .inl member, by simp, by simp,
      List.nodup_nil, fun _ member => ⟨member, by simp⟩⟩
  have own : g.getTx (env.computeTxid tx) = some tx := by rwa [linked.txids txid tx held]
  have staged := start.ancestors linked txid reason own
  unfold TxGraph.markCanonical
  simp only
  generalize (ancestors env g txid reason).run _ [tx] = s at staged
  split
  · -- The transaction double spends itself: all marks are taken back.
    refine ⟨?_, ?_, sound.once, sound.leftover⟩
    · apply (sound.settled.mono fun _ => staged.undo_marks).subset
      intro e member
      exact staged.undo_canonical.mp member
    · intro txid' member
      obtain ⟨e, listed, isTxid⟩ := sound.queued txid' member
      exact ⟨e, staged.undo_canonical.mpr listed, isTxid⟩
  · refine ⟨staged.settled, ?_, ?_, sound.leftover⟩
    · intro txid' member
      rcases List.mem_append.mp member with old | new
      · obtain ⟨e, listed, isTxid⟩ := sound.queued txid' old
        exact ⟨e, staged.kept e listed, isTxid⟩
      · exact staged.staged txid' new
    · apply sound.once.append staged.once
      intro txid' old new
      exact staged.fresh txid' new (sound.queued txid' old)

theorem CanonicalIter.Sound.scanAnchors (linked : g.Linked env) (chain : LocalChain)
    (sound : it.Sound env g) {txid : Txid} {tx : Transaction} (held : g.getTx txid = some tx)
    (anchors : Anchors) : (scanAnchors env g chain it txid tx anchors).Sound env g := by
  unfold TxGraph.scanAnchors
  simp only
  split
  · exact sound.markCanonical linked held _
  · refine ⟨sound.settled, sound.queued, sound.once, ?_⟩
    intro left member
    rcases List.mem_append.mp member with old | new
    · exact sound.leftover left old
    · obtain rfl := List.mem_singleton.mp new
      exact held

theorem CanonicalIter.Sound.nextAnchored (linked : g.Linked env) (chain : LocalChain)
    (sound : it.Sound env g) (txid : Txid) : (nextAnchored env g chain it txid).Sound env g := by
  unfold TxGraph.nextAnchored
  split
  · rename_i tx anchors held _
    split
    · exact sound
    · exact sound.scanAnchors linked chain held anchors
  · exact sound

theorem CanonicalIter.Sound.nextSeen (linked : g.Linked env) (sound : it.Sound env g)
    (entry : Ranked) : (nextSeen env g it entry).Sound env g := by
  unfold TxGraph.nextSeen
  split
  · rename_i tx held
    split
    · exact sound
    · exact sound.markCanonical linked held _
  · exact sound

theorem CanonicalIter.Sound.nextLeftover (linked : g.Linked env) (sound : it.Sound env g)
    {entry : Txid × Transaction × UInt32} (held : g.getTx entry.1 = some entry.2.1) :
    (nextLeftover env g it entry).Sound env g := by
  unfold TxGraph.nextLeftover
  split
  · exact sound
  · exact sound.markCanonical linked held _

theorem canonicalIter_sound (linked : g.Linked env) (chain : LocalChain) :
    (g.canonicalIter env chain).Sound env g := by
  have start : (⟨[], [], [], []⟩ : CanonicalIter).Sound env g :=
    ⟨⟨by simp, by simp, by simp⟩, by simp, List.nodup_nil, by simp⟩
  have anchored := List.foldlRecOn g.txidsByDescendingAnchorHeight _ start
    fun _ sound txid _ => sound.nextAnchored linked chain txid
  have seen := List.foldlRecOn g.txidsByDescendingLastSeen _ anchored
    fun _ sound entry _ => sound.nextSeen linked entry
  -- The leftovers are those of the iterator after its first two stages.
  exact List.foldlRecOn _ _ seen fun _ sound entry member =>
    sound.nextLeftover linked (seen.leftover entry member)

variable {ε : Type}

theorem listCanonicalTxs_held {chain : LocalChain} {cs : List CanonicalTx}
    (run : (g.listCanonicalTxs env chain : Outcome ε _) = .ok cs) :
    ∀ c ∈ cs, g.getTx c.txid = some c.tx := by
  intro c member
  obtain ⟨txid, _, made⟩ := mapM_mem run member
  simp only [bind_eq_ok, expect_eq_ok, pure_eq_ok] at made
  obtain ⟨_, _, tx, held, rfl⟩ := made
  exact held

theorem listCanonicalTxs_apart (linked : g.Linked env) (chain : LocalChain) :
    ∃ cs, (g.listCanonicalTxs env chain : Outcome ε _) = .ok cs ∧
      cs.Pairwise fun a b => a.txid ≠ b.txid ∧ ¬ Clash a.tx b.tx := by
  have sound := canonicalIter_sound linked chain
  obtain ⟨cs, run⟩ : ∃ cs, (g.listCanonicalTxs env chain : Outcome ε _) = .ok cs := by
    apply mapM_total
    intro txid queued
    obtain ⟨e, listed, rfl⟩ := sound.queued txid queued
    obtain ⟨found, isFound⟩ := Option.isSome_iff_exists.mp (lookup_isSome.mpr ⟨e, listed, rfl⟩)
    rw [isFound, sound.settled.held e listed]
    exact ⟨_, rfl⟩
  refine ⟨cs, run, ?_⟩
  have txids : cs.map (·.txid) = (g.canonicalIter env chain).queue := by
    have each := mapM_eq_ok.mp run
    clear run
    generalize (g.canonicalIter env chain).queue = queue at each
    induction each with
    | nil => rfl
    | cons made _ ih =>
      simp only [bind_eq_ok, expect_eq_ok, pure_eq_ok] at made
      obtain ⟨_, _, tx, _, rfl⟩ := made
      rw [List.map_cons, ih]
  have held := listCanonicalTxs_held run
  have marked : ∀ c ∈ cs, ∃ e ∈ (g.canonicalIter env chain).canonical,
      e.1 = c.txid ∧ e.2.1 = c.tx := by
    intro c member
    obtain ⟨e, listed, isTxid⟩ := sound.queued c.txid (txids ▸ List.mem_map_of_mem member)
    have same := sound.settled.held e listed
    rw [isTxid, held c member] at same
    exact ⟨e, listed, isTxid, (Option.some.inj same).symm⟩
  have once : cs.Pairwise fun a b => a.txid ≠ b.txid := by
    rw [← List.pairwise_map (f := CanonicalTx.txid), txids]
    exact sound.once
  apply once.imp_of_mem
  intro a b member member' other
  obtain ⟨e, listed, isTxid, isTx⟩ := marked a member
  obtain ⟨e', listed', isTxid', isTx'⟩ := marked b member'
  refine ⟨other, ?_⟩
  rw [← isTx, ← isTx']
  exact sound.settled.apart e listed e' listed' (by rwa [isTxid, isTxid'])

end Iterate

end TxGraph

namespace CanonMaps

variable {ε : Type} {cs : List CanonicalTx} {m : CanonMaps}

structure Over (cs : List CanonicalTx) (m : CanonMaps) : Prop where
  txs : ∀ txid c, m.txs.lookup txid = some c → c ∈ cs ∧ c.txid = txid
  listed : ∀ c ∈ cs, (m.txs.lookup c.txid).isSome = true
  spenders : ∀ op txid, m.spends.lookup op = some txid → ∃ c ∈ cs, c.txid = txid
  spends : ∀ op, (m.spends.lookup op).isSome = true ↔
    ∃ c ∈ cs, isCoinbase c.tx = false ∧ c.tx.Spends op

theorem insertSpends_eq_ok {txid : Txid} {inputs : List TxIn}
    {spends spends' : List (OutPoint × Txid)}
    (run : (insertSpends txid inputs spends : Outcome ε _) = .ok spends') (op : OutPoint) :
    spends'.lookup op =
      if op ∈ inputs.map (·.previousOutput) then some txid else spends.lookup op := by
  induction inputs generalizing spends with
  | nil =>
    obtain rfl : spends = spends' := by simpa [insertSpends] using run
    simp
  | cons txin rest ih =>
    simp only [insertSpends, bind_eq_ok, abortUnless_eq_ok] at run
    obtain ⟨_, _, later⟩ := run
    rw [ih later, TxGraph.lookup_put]
    by_cases here : op = txin.previousOutput
    · simp [here]
    · simp [here]

theorem insertSpends_total (txid : Txid) {inputs : List TxIn} {spends : List (OutPoint × Txid)}
    (once : (inputs.map (·.previousOutput)).Nodup)
    (free : ∀ txin ∈ inputs, spends.lookup txin.previousOutput = none) :
    ∃ spends', (insertSpends txid inputs spends : Outcome ε _) = .ok spends' := by
  induction inputs generalizing spends with
  | nil => exact ⟨spends, rfl⟩
  | cons txin rest ih =>
    obtain ⟨absent, once'⟩ := List.nodup_cons.mp once
    unfold insertSpends
    rw [abortUnless, if_pos (free txin List.mem_cons_self), bind_ok]
    apply ih once'
    intro txin' member
    rw [TxGraph.lookup_put, if_neg]
    · exact free txin' (List.mem_cons_of_mem _ member)
    · intro same
      exact absent (List.mem_map.mpr ⟨txin', member, same⟩)

theorem spends_iff_mem {tx : Transaction} {op : OutPoint} :
    tx.Spends op ↔ op ∈ tx.input.map (·.previousOutput) := by
  simp [Transaction.Spends]

theorem spendsWith_lookup {c : CanonicalTx} {spends : List (OutPoint × Txid)}
    (run : (m.spendsWith c : Outcome ε _) = .ok spends) (op : OutPoint) :
    (isCoinbase c.tx = false ∧ c.tx.Spends op) ∧ spends.lookup op = some c.txid ∨
      ¬ (isCoinbase c.tx = false ∧ c.tx.Spends op) ∧ spends.lookup op = m.spends.lookup op := by
  unfold spendsWith at run
  split at run
  · rename_i coinbase
    obtain rfl : m.spends = spends := by simpa using run
    exact .inr ⟨by simp [coinbase], rfl⟩
  · rename_i plain
    rw [insertSpends_eq_ok run, spends_iff_mem]
    split
    · rename_i here
      exact .inl ⟨⟨by simpa using plain, here⟩, rfl⟩
    · rename_i other
      exact .inr ⟨fun here => other here.2, rfl⟩

theorem Over.insertTx (maps : Over cs m) {c : CanonicalTx} {m' : CanonMaps}
    (run : (m.insertTx c : Outcome ε _) = .ok m') : Over (cs ++ [c]) m' := by
  simp only [CanonMaps.insertTx, bind_eq_ok, pure_eq_ok] at run
  obtain ⟨spends, inserted, rfl⟩ := run
  have spent := spendsWith_lookup inserted
  constructor
  case txs =>
    intro txid c' found
    rw [TxGraph.lookup_put] at found
    split at found
    · rename_i same
      obtain rfl := Option.some.inj found
      exact ⟨List.mem_append_right _ (List.mem_singleton_self _), same.symm⟩
    · obtain ⟨member, isTxid⟩ := maps.txs txid c' found
      exact ⟨List.mem_append_left _ member, isTxid⟩
  case listed =>
    intro c' member
    rw [TxGraph.lookup_put]
    split
    · rfl
    · rename_i other
      rcases List.mem_append.mp member with old | new
      · exact maps.listed c' old
      · exact absurd (congrArg CanonicalTx.txid (List.mem_singleton.mp new)) other
  case spenders =>
    intro op txid found
    rcases spent op with ⟨_, here⟩ | ⟨_, old⟩
    · exact ⟨c, List.mem_append_right _ (List.mem_singleton_self c),
        Option.some.inj (here.symm.trans found)⟩
    · obtain ⟨c', member, isTxid⟩ := maps.spenders op txid (old ▸ found)
      exact ⟨c', List.mem_append_left _ member, isTxid⟩
  case spends =>
    intro op
    simp only [List.mem_append, List.mem_singleton, or_and_right, exists_or, exists_eq_left]
    rcases spent op with ⟨own, here⟩ | ⟨other, old⟩
    · rw [here]
      simp [own]
    · rw [old, maps.spends]
      simp only [other, or_false]

theorem collect_over (run : (collect cs : Outcome ε _) = .ok m) : Over cs m := by
  induction cs using List.reverseRecOn generalizing m with
  | nil =>
    obtain rfl : (⟨[], []⟩ : CanonMaps) = m := by simpa [collect] using run
    exact ⟨by simp, by simp, by simp, by simp⟩
  | append_singleton cs c ih =>
    simp only [collect, List.foldlM_append, List.foldlM_cons, List.foldlM_nil, bind_eq_ok,
      pure_eq_ok] at run
    obtain ⟨m', before, _, inserted, rfl⟩ := run
    exact (ih before).insertTx inserted

theorem collect_total (apart : cs.Pairwise fun a b => a.txid ≠ b.txid ∧ ¬ Clash a.tx b.tx)
    (once : ∀ c ∈ cs, SpendsOnce c.tx) : ∃ m, (collect cs : Outcome ε _) = .ok m := by
  induction cs using List.reverseRecOn with
  | nil => exact ⟨_, rfl⟩
  | append_singleton cs c ih =>
    obtain ⟨before, _, across⟩ := List.pairwise_append.mp apart
    obtain ⟨m, collected⟩ := ih before fun c member => once c (List.mem_append_left _ member)
    have maps := collect_over collected
    have spends : ∃ spends, (m.spendsWith c : Outcome ε _) = .ok spends := by
      unfold spendsWith
      split
      · exact ⟨m.spends, rfl⟩
      · rename_i plain
        obtain ⟨distinct, real⟩ := (once c (by simp)).resolve_left plain
        apply insertSpends_total c.txid distinct
        intro txin listed
        by_contra spent
        rw [← ne_eq, Option.ne_none_iff_isSome, maps.spends] at spent
        obtain ⟨c', member, _, spends⟩ := spent
        exact (across c' member c (List.mem_singleton_self c)).2
          ⟨_, real txin listed, spends, txin, listed, rfl⟩
    obtain ⟨spends, inserted⟩ := spends
    have total : (m.insertTx c : Outcome ε _) = .ok ⟨(c.txid, c) :: m.txs, spends⟩ := by
      rw [CanonMaps.insertTx, inserted, bind_ok, pure_ok]
    refine ⟨⟨(c.txid, c) :: m.txs, spends⟩, ?_⟩
    rw [collect, List.foldlM_append, ← collect, collected, bind_ok, List.foldlM_cons, total,
      bind_ok]
    rfl

theorem Over.spentBy (maps : Over cs m) (op : OutPoint) :
    ∃ spent, (m.spentBy op : Outcome ε _) = .ok spent ∧
      (spent = none ↔ ∀ c ∈ cs, isCoinbase c.tx = false → ¬ c.tx.Spends op) := by
  have spends := maps.spends op
  unfold CanonMaps.spentBy
  cases found : m.spends.lookup op with
  | none =>
    refine ⟨none, rfl, ?_⟩
    rw [found] at spends
    simpa using spends
  | some txid =>
    obtain ⟨c, member, rfl⟩ := maps.spenders op txid found
    obtain ⟨c', isListed⟩ := Option.isSome_iff_exists.mp (maps.listed c member)
    refine ⟨some (c'.chainPosition, c.txid), by simp only [isListed]; rfl, ?_⟩
    rw [found] at spends
    simpa using spends

end CanonMaps

section Unspents

variable {env : Primitives} {g : TxGraph} {chain : LocalChain} {ε : Type}
  {cs : List CanonicalTx} {outpoints : List (KeychainIndex × OutPoint)}
  {unspents : List (KeychainIndex × FullTxOut)}

/-- The coins over a list of canonical transactions: outputs of theirs at the given
    places that none of them spends. -/
structure Unspents (cs : List CanonicalTx) (outpoints : List (KeychainIndex × OutPoint))
    (unspents : List (KeychainIndex × FullTxOut)) : Prop where
  order : (unspents.map fun e => (e.1, e.2.outpoint)).Sublist outpoints
  output : ∀ e ∈ unspents, ∃ c ∈ cs, c.txid = e.2.outpoint.txid ∧
    c.tx.output[e.2.outpoint.vout.toNat]? = some e.2.txout
  unspent : ∀ e ∈ unspents, ∀ c ∈ cs, isCoinbase c.tx = false → ¬ c.tx.Spends e.2.outpoint
  all : ∀ p ∈ outpoints, (∃ c ∈ cs, c.txid = p.2.txid) →
    (∀ c ∈ cs, isCoinbase c.tx = false → ¬ c.tx.Spends p.2) →
    ∃ c ∈ cs, c.txid = p.2.txid ∧ ∀ txout, c.tx.output[p.2.vout.toNat]? = some txout →
      ∃ e ∈ unspents, e.1 = p.1 ∧ e.2.outpoint = p.2 ∧ e.2.txout = txout

structure Answers (cs : List CanonicalTx) (p : KeychainIndex × OutPoint)
    (answer : Option (KeychainIndex × FullTxOut)) : Prop where
  sound : ∀ e, answer = some e → (e.1, e.2.outpoint) = p ∧
    (∃ c ∈ cs, c.txid = p.2.txid ∧ c.tx.output[p.2.vout.toNat]? = some e.2.txout) ∧
    (e.2.spentBy = none ↔ ∀ c ∈ cs, isCoinbase c.tx = false → ¬ c.tx.Spends p.2)
  complete : (∃ c ∈ cs, c.txid = p.2.txid) → ∃ c ∈ cs, c.txid = p.2.txid ∧
    ∀ txout, c.tx.output[p.2.vout.toNat]? = some txout → ∃ e, answer = some e ∧ e.2.txout = txout

theorem CanonMaps.Over.fullTxOut {m : CanonMaps} (maps : m.Over cs)
    (p : KeychainIndex × OutPoint) :
    ∃ answer, (m.fullTxOut p : Outcome ε _) = .ok answer ∧ Answers cs p answer := by
  unfold CanonMaps.fullTxOut
  cases found : m.txs.lookup p.2.txid with
  | none =>
    refine ⟨none, rfl, by simp, ?_⟩
    rintro ⟨c, member, isTxid⟩
    have listed := maps.listed c member
    rw [isTxid, found] at listed
    contradiction
  | some c =>
    obtain ⟨member, isTxid⟩ := maps.txs _ c found
    simp only
    cases output : c.tx.output[p.2.vout.toNat]? with
    | none =>
      refine ⟨none, rfl, by simp, fun _ => ⟨c, member, isTxid, ?_⟩⟩
      intro txout isOutput
      rw [output] at isOutput
      contradiction
    | some txout =>
      obtain ⟨spent, run, unspent⟩ := maps.spentBy (ε := ε) p.2
      simp only
      rw [run, bind_ok, pure_ok]
      refine ⟨_, rfl, ?_, fun _ => ⟨c, member, isTxid, ?_⟩⟩
      · intro e isAnswer
        obtain rfl := Option.some.inj isAnswer
        exact ⟨rfl, ⟨c, member, isTxid, output⟩, unspent⟩
      · intro txout' isOutput
        rw [output] at isOutput
        exact ⟨_, rfl, Option.some.inj isOutput⟩

theorem Unspents.cons (rest : Unspents cs outpoints unspents) {p : KeychainIndex × OutPoint}
    {answer : Option (KeychainIndex × FullTxOut)} (answers : Answers cs p answer) :
    Unspents cs (p :: outpoints)
      ((answer.filter fun e => e.2.spentBy.isNone).toList ++ unspents) := by
  have here : ∀ e, answer.filter (fun e => e.2.spentBy.isNone) = some e ↔
      answer = some e ∧ e.2.spentBy = none := by
    intro e
    rw [Option.filter_eq_some_iff, Option.isNone_iff_eq_none]
  constructor
  case order =>
    cases found : answer.filter fun e => e.2.spentBy.isNone with
    | none => exact rest.order.cons p
    | some e =>
      have place := (answers.sound e ((here e).mp found).1).1
      show ((e.1, e.2.outpoint) :: unspents.map _).Sublist _
      rw [place]
      exact rest.order.cons_cons p
  case output =>
    intro e member
    rcases List.mem_append.mp member with first | later
    · obtain ⟨place, output, _⟩ := answers.sound e ((here e).mp (Option.mem_toList.mp first)).1
      rw [← place] at output
      exact output
    · exact rest.output e later
  case unspent =>
    intro e member
    rcases List.mem_append.mp member with first | later
    · obtain ⟨isAnswer, none⟩ := (here e).mp (Option.mem_toList.mp first)
      obtain ⟨place, _, unspent⟩ := answers.sound e isAnswer
      rw [← place] at unspent
      exact unspent.mp none
    · exact rest.unspent e later
  case all =>
    intro q member listed unspent
    rcases List.mem_cons.mp member with rfl | later
    · obtain ⟨c, isListed, isTxid, outputs⟩ := answers.complete listed
      refine ⟨c, isListed, isTxid, ?_⟩
      intro txout output
      obtain ⟨e, isAnswer, isTxout⟩ := outputs txout output
      obtain ⟨place, _, none⟩ := answers.sound e isAnswer
      have kept := (here e).mpr ⟨isAnswer, none.mpr unspent⟩
      exact ⟨e, List.mem_append_left _ (Option.mem_toList.mpr kept), congrArg Prod.fst place,
        congrArg Prod.snd place, isTxout⟩
    · obtain ⟨c, isListed, isTxid, outputs⟩ := rest.all q later listed unspent
      refine ⟨c, isListed, isTxid, ?_⟩
      intro txout output
      obtain ⟨e, kept, found⟩ := outputs txout output
      exact ⟨e, List.mem_append_right _ kept, found⟩

theorem unspents_of_answers {answers : List (Option (KeychainIndex × FullTxOut))}
    (each : List.Forall₂ (Answers cs) outpoints answers) :
    Unspents cs outpoints ((answers.filterMap id).filter fun e => e.2.spentBy.isNone) := by
  induction each with
  | nil => exact ⟨by simp, by simp, by simp, by simp⟩
  | @cons p answer outpoints answers here _ ih =>
    have split : ((answer :: answers).filterMap id).filter (fun e => e.2.spentBy.isNone) =
        (answer.filter fun e => e.2.spentBy.isNone).toList ++
          (answers.filterMap id).filter fun e => e.2.spentBy.isNone := by
      cases answer with
      | none => rfl
      | some e =>
        show List.filter _ (e :: answers.filterMap id) = _
        rw [List.filter_cons, Option.filter_some]
        split
        · rfl
        · rfl
    rw [split]
    exact ih.cons here

theorem TxGraph.filterChainUnspents_eq_ok
    (run : (g.filterChainUnspents env chain outpoints : Outcome ε _) = .ok unspents) :
    ∃ cs, (g.listCanonicalTxs env chain : Outcome ε _) = .ok cs ∧
      Unspents cs outpoints unspents := by
  simp only [filterChainUnspents, bind_eq_ok, pure_eq_ok] at run
  obtain ⟨cs, listed, m, collected, answers, answered, rfl⟩ := run
  have maps := CanonMaps.collect_over collected
  refine ⟨cs, listed, unspents_of_answers ?_⟩
  refine (mapM_eq_ok.mp answered).imp ?_
  intro p answer isAnswer
  obtain ⟨answer', isAnswer', answers⟩ := maps.fullTxOut (ε := ε) p
  obtain rfl := Except.ok.inj (isAnswer'.symm.trans isAnswer)
  exact answers

theorem TxGraph.filterChainUnspents_total (linked : g.Linked env)
    (once : ∀ cs, (g.listCanonicalTxs env chain : Outcome ε _) = .ok cs →
      ∀ c ∈ cs, SpendsOnce c.tx) (outpoints : List (KeychainIndex × OutPoint)) :
    ∃ unspents, (g.filterChainUnspents env chain outpoints : Outcome ε _) = .ok unspents := by
  obtain ⟨cs, listed, apart⟩ := listCanonicalTxs_apart (ε := ε) linked chain
  obtain ⟨m, collected⟩ := CanonMaps.collect_total (ε := ε) apart (once cs listed)
  have maps := CanonMaps.collect_over collected
  obtain ⟨answers, answered⟩ : ∃ answers, outpoints.mapM m.fullTxOut =
      (.ok answers : Outcome ε _) := by
    apply mapM_total
    intro p _
    obtain ⟨answer, isAnswer, _⟩ := maps.fullTxOut (ε := ε) p
    exact ⟨answer, isAnswer⟩
  refine ⟨(answers.filterMap id).filter fun e => e.2.spentBy.isNone, ?_⟩
  rw [filterChainUnspents, listed, bind_ok, collected, bind_ok, answered, bind_ok, pure_ok]

end Unspents

end Trinity.Watch
