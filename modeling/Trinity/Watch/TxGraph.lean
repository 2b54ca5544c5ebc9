import Trinity.Chain.CoreDialog
import Trinity.Chain.LocalChain

/-!
The transactions the wallet knows, `tx_graph.rs`: whole transactions or single outputs
of them, which transactions spend an output, the blocks that anchor a transaction and
the times it was seen in or evicted from the mempool. An update adds to all of them;
of a transaction that is there already it can only change witnesses.
-/
namespace Trinity.Watch

/-- A whole transaction, or those of its outputs that are known. -/
inductive TxNode where
  | whole (tx : Transaction)
  | floating (txouts : List (UInt32 × TxOut))

def TxNode.txout (vout : UInt32) : TxNode → Option TxOut
  | .whole tx => tx.output[vout.toNat]?
  | .floating txouts => txouts.lookup vout

def ConfirmationBlockTime.code (a : ConfirmationBlockTime) : Nat :=
  (a.blockId.height.toNat * 2 ^ 256 + a.blockId.hash.toNat) * 2 ^ 64 + a.confirmationTime.toNat

theorem ConfirmationBlockTime.code_injective :
    Function.Injective ConfirmationBlockTime.code := by
  rintro ⟨⟨height, hash⟩, time⟩ ⟨⟨height', hash'⟩, time'⟩ same
  have low := hash.isLt
  have low' := hash'.isLt
  have early := time.toNat_lt
  have early' := time'.toNat_lt
  simp only [code] at same
  have heights : height.toNat = height'.toNat := by omega
  have hashes : hash.toNat = hash'.toNat := by omega
  have times : time.toNat = time'.toNat := by omega
  rw [UInt32.toNat_inj.mp heights, BitVec.eq_of_toNat_eq hashes, UInt64.toNat_inj.mp times]

instance anchorOrder : LinearOrder ConfirmationBlockTime :=
  orderByCode ConfirmationBlockTime.code ConfirmationBlockTime.code_injective

structure Ranked where
  rank : UInt64
  txid : Txid
  deriving DecidableEq

def Ranked.code (r : Ranked) : Nat := r.rank.toNat * 2 ^ 256 + r.txid.toNat

theorem Ranked.code_injective : Function.Injective Ranked.code := by
  rintro ⟨rank, txid⟩ ⟨rank', txid'⟩ same
  have low := txid.isLt
  have low' := txid'.isLt
  simp only [code] at same
  have ranks : rank.toNat = rank'.toNat := by omega
  have txids : txid.toNat = txid'.toNat := by omega
  rw [UInt64.toNat_inj.mp ranks, BitVec.eq_of_toNat_eq txids]

instance rankedOrder : LinearOrder Ranked := orderByCode Ranked.code Ranked.code_injective

structure Anchors where
  set : OrderedSet ConfirmationBlockTime
  nonempty : set.elems ≠ []

namespace Anchors

def once (a : ConfirmationBlockTime) : Anchors := ⟨⟨[a], by simp⟩, by simp⟩

def insert (s : Anchors) (a : ConfirmationBlockTime) : Anchors :=
  ⟨s.set.insert a, List.ne_nil_of_mem (mem_collectSorted.mpr List.mem_cons_self)⟩

def last (s : Anchors) : ConfirmationBlockTime := s.set.elems.getLast s.nonempty

end Anchors

structure TxGraph where
  txs : List (Txid × TxNode)
  spends : OrderedMap OutPoint (List Txid)
  anchors : List (Txid × Anchors)
  firstSeen : List (Txid × UInt64)
  lastSeen : List (Txid × UInt64)
  lastEvicted : List (Txid × UInt64)
  txsByHighestConfHeights : OrderedSet Ranked
  txsByLastSeen : OrderedSet Ranked

/-- Of two witnesses the one that is not empty, the shorter, the smaller. -/
def keepsOriginal (witnessLt : List Str → List Str → Bool) (original other : List Str) : Bool :=
  if original.isEmpty ≠ other.isEmpty then !original.isEmpty
  else if witnessSize original ≠ witnessSize other then witnessSize original < witnessSize other
  else witnessLt original other

def mergeTxWitnesses (witnessLt : List Str → List Str → Bool) (original other : Transaction) :
    Option Transaction :=
  let merged := List.zipWith (fun a b => if keepsOriginal witnessLt a.witness b.witness then a
    else b) original.input other.input
  if merged = original.input then none
  else if merged = other.input then some other
  else some { original with input := merged }

/-- What the graph takes from outside: the order of witnesses, and that of the
    transactions of a changeset. -/
structure GraphLibrary where
  witnessLt : List Str → List Str → Bool
  changeset : List Transaction → List Transaction
  mem_changeset : ∀ txs tx, tx ∈ changeset txs ↔ tx ∈ txs

structure GraphChanges where
  txs : List Transaction
  txouts : OrderedMap OutPoint TxOut

namespace TxGraph

def default : TxGraph := ⟨[], .empty, [], [], [], [], .collect [], .collect []⟩

def getTx (g : TxGraph) (txid : Txid) : Option Transaction :=
  match g.txs.lookup txid with
  | some (.whole tx) => some tx
  | _ => none

def getTxout (g : TxGraph) (op : OutPoint) : Option TxOut :=
  (g.txs.lookup op.txid).bind (TxNode.txout op.vout)

/-- A set of ids is a list in the order they came, which nothing depends on. -/
def outspends (g : TxGraph) (op : OutPoint) : List Txid := (g.spends.get? op).getD []

def insertSpend (txid : Txid) (spends : OrderedMap OutPoint (List Txid)) (txin : TxIn) :
    OrderedMap OutPoint (List Txid) :=
  if txin.previousOutput.isNull then spends
  else
    let old := (spends.get? txin.previousOutput).getD []
    spends.insert txin.previousOutput (if old.contains txid then old else old ++ [txid])

section Insert

variable (env : Primitives) (lib : GraphLibrary)

/-- The graph after `insert_tx`, and the transaction its changeset holds. -/
def insertTx (g : TxGraph) (tx : Transaction) : TxGraph × List Transaction :=
  let txid := env.computeTxid tx
  match g.txs.lookup txid with
  | some (.whole existing) =>
    if existing = tx then (g, [])
    else match mergeTxWitnesses lib.witnessLt existing tx with
      | some merged => ({ g with txs := (txid, .whole merged) :: g.txs }, [merged])
      | none => (g, [])
  | _ =>
    ({ g with
      txs := (txid, .whole tx) :: g.txs
      spends := tx.input.foldl (insertSpend txid) g.spends }, [tx])

def insertTxs : List Transaction → TxGraph → TxGraph × List Transaction
  | [], g => (g, [])
  | tx :: rest, g =>
    let (g, added) := g.insertTx env lib tx
    let (g, more) := insertTxs rest g
    (g, added ++ more)

def insertTxout (g : TxGraph) (op : OutPoint) (txout : TxOut) : TxGraph × Bool :=
  match g.txs.lookup op.txid with
  | some (.whole _) => (g, false)
  | some (.floating txouts) =>
    ({ g with txs := (op.txid, .floating ((op.vout, txout) :: txouts)) :: g.txs },
      (txouts.lookup op.vout).isNone)
  | none => ({ g with txs := (op.txid, .floating [(op.vout, txout)]) :: g.txs }, true)

def insertTxouts : List (OutPoint × TxOut) → TxGraph → TxGraph × OrderedMap OutPoint TxOut
  | [], g => (g, .empty)
  | (op, txout) :: rest, g =>
    let (g, added) := g.insertTxout op txout
    let (g, more) := insertTxouts rest g
    (g, if added then more.insert op txout else more)

def insertAnchor (g : TxGraph) (entry : ConfirmationBlockTime × Txid) : TxGraph :=
  let (anchor, txid) := entry
  let height := anchor.blockId.height
  match g.anchors.lookup txid with
  | some old =>
    let oldTop := old.last.blockId.height
    let newTop := if height < oldTop then oldTop else height
    if old.set.elems.contains anchor then g
    else
      { g with
        anchors := (txid, old.insert anchor) :: g.anchors
        txsByHighestConfHeights :=
          if oldTop = newTop then g.txsByHighestConfHeights
          else (g.txsByHighestConfHeights.erase ⟨oldTop.toUInt64, txid⟩).insert
            ⟨newTop.toUInt64, txid⟩ }
  | none =>
    { g with
      anchors := (txid, .once anchor) :: g.anchors
      txsByHighestConfHeights := g.txsByHighestConfHeights.insert ⟨height.toUInt64, txid⟩ }

def updateFirstSeen (g : TxGraph) (txid : Txid) (seenAt : UInt64) : TxGraph :=
  match g.firstSeen.lookup txid with
  | some firstSeen =>
    if seenAt < firstSeen then { g with firstSeen := (txid, seenAt) :: g.firstSeen } else g
  | none => { g with firstSeen := (txid, seenAt) :: g.firstSeen }

def updateLastSeen (g : TxGraph) (txid : Txid) (seenAt : UInt64) : TxGraph :=
  match g.lastSeen.lookup txid with
  | some lastSeen =>
    if lastSeen < seenAt then
      { g with
        lastSeen := (txid, seenAt) :: g.lastSeen
        txsByLastSeen := (g.txsByLastSeen.erase ⟨lastSeen, txid⟩).insert ⟨seenAt, txid⟩ }
    else g
  | none =>
    { g with
      lastSeen := (txid, seenAt) :: g.lastSeen
      txsByLastSeen := g.txsByLastSeen.insert ⟨seenAt, txid⟩ }

def insertSeenAt (g : TxGraph) (entry : Txid × UInt64) : TxGraph :=
  (g.updateFirstSeen entry.1 entry.2).updateLastSeen entry.1 entry.2

def insertEvictedAt (g : TxGraph) (entry : Txid × UInt64) : TxGraph :=
  match g.lastEvicted.lookup entry.1 with
  | some lastEvicted =>
    if lastEvicted < entry.2 then { g with lastEvicted := entry :: g.lastEvicted } else g
  | none => { g with lastEvicted := entry :: g.lastEvicted }

def insertMarks (g : TxGraph) (update : CoreTxUpdate) : TxGraph :=
  let g := update.anchors.foldl insertAnchor g
  let g := update.seenAts.foldl insertSeenAt g
  update.evictedAts.foldl insertEvictedAt g

def applyUpdate (g : TxGraph) (update : CoreTxUpdate) : TxGraph × GraphChanges :=
  let (g, txs) := insertTxs env lib update.txs g
  let (g, txouts) := insertTxouts update.txouts.entries g
  (g.insertMarks update, ⟨lib.changeset txs, txouts⟩)

end Insert

def txidsByDescendingAnchorHeight (g : TxGraph) : List Txid :=
  g.txsByHighestConfHeights.elems.reverse.map (·.txid)

/-- `txids_by_descending_last_seen`: not those that were evicted since. -/
def txidsByDescendingLastSeen (g : TxGraph) : List Ranked :=
  g.txsByLastSeen.elems.reverse.filter fun seen =>
    match g.lastEvicted.lookup seen.txid with
    | some lastEvicted => lastEvicted < seen.rank
    | none => true

end TxGraph

def withoutWitnesses (tx : Transaction) : Transaction :=
  { tx with input := tx.input.map fun txin => { txin with witness := [] } }

theorem output_of_withoutWitnesses {tx tx' : Transaction}
    (same : withoutWitnesses tx = withoutWitnesses tx') : tx.output = tx'.output := by
  simpa [withoutWitnesses] using congrArg (fun tx : Transaction => tx.output) same

theorem spent_of_withoutWitnesses {tx tx' : Transaction}
    (same : withoutWitnesses tx = withoutWitnesses tx') :
    tx.input.map (·.previousOutput) = tx'.input.map (·.previousOutput) := by
  have inputs := congrArg (fun tx : Transaction => tx.input.map (·.previousOutput)) same
  simpa [withoutWitnesses, Function.comp_def] using inputs

theorem zipWith_withoutWitness (pick : TxIn → TxIn → Bool) {as bs : List TxIn}
    (same : as.map (fun a => { a with witness := [] }) = bs.map fun b => { b with witness := [] }) :
    (List.zipWith (fun a b => if pick a b then a else b) as bs).map
        (fun c => { c with witness := [] }) = as.map fun a => { a with witness := [] } := by
  induction as generalizing bs with
  | nil => simp
  | cons a as ih =>
    cases bs with
    | nil => simp at same
    | cons b bs =>
      simp only [List.map_cons, List.cons.injEq] at same
      rw [List.zipWith_cons_cons, List.map_cons, List.map_cons, ih same.2]
      split
      · rfl
      · rw [same.1]

theorem mergeTxWitnesses_same {witnessLt : List Str → List Str → Bool}
    {original other merged : Transaction}
    (same : withoutWitnesses original = withoutWitnesses other)
    (run : mergeTxWitnesses witnessLt original other = some merged) :
    withoutWitnesses merged = withoutWitnesses original := by
  unfold mergeTxWitnesses at run
  simp only at run
  split at run
  · contradiction
  · split at run
    · rw [← Option.some.inj run, same]
    · rw [← Option.some.inj run]
      have inputs := congrArg (fun tx : Transaction => tx.input) same
      simp only [withoutWitnesses] at inputs ⊢
      rw [zipWith_withoutWitness
        (fun a b => keepsOriginal witnessLt a.witness b.witness) inputs]

structure Shown where
  txs : List Transaction
  txouts : List (OutPoint × TxOut)

/-- An id stands for one transaction up to its witnesses among those shown, and
    a single output is one of its transaction. -/
structure Identified (env : Primitives) (seen : Shown) : Prop where
  single : ∀ tx ∈ seen.txs, ∀ tx' ∈ seen.txs, env.computeTxid tx = env.computeTxid tx' →
    withoutWitnesses tx = withoutWitnesses tx'
  stripped : ∀ tx ∈ seen.txs, ∀ tx', withoutWitnesses tx' = withoutWitnesses tx →
    env.computeTxid tx' = env.computeTxid tx
  sizes : ∀ tx ∈ seen.txs, tx.output.length ≤ 2 ^ 32
  outputs : ∀ e ∈ seen.txouts, ∀ tx ∈ seen.txs, env.computeTxid tx = e.1.txid →
    tx.output[e.1.vout.toNat]? = some e.2
  values : ∀ e ∈ seen.txouts, ∀ e' ∈ seen.txouts, e.1 = e'.1 → e.2 = e'.2

namespace TxGraph

/-- The graph holds nothing that was not shown, and no spend is missing in it. -/
structure Known (env : Primitives) (seen : Shown) (g : TxGraph) : Prop where
  txs : ∀ txid tx, g.getTx txid = some tx →
    ∃ tx' ∈ seen.txs, withoutWitnesses tx = withoutWitnesses tx' ∧ env.computeTxid tx' = txid
  txouts : ∀ txid outs, g.txs.lookup txid = some (.floating outs) →
    ∀ vout txout, outs.lookup vout = some txout → (⟨txid, vout⟩, txout) ∈ seen.txouts
  spends : ∀ txid tx, g.getTx txid = some tx → ∀ txin ∈ tx.input,
    txin.previousOutput.isNull = false → txid ∈ g.outspends txin.previousOutput

def Grows (g g' : TxGraph) : Prop :=
  ∀ op txout, g.getTxout op = some txout → g'.getTxout op = some txout

theorem Grows.refl (g : TxGraph) : Grows g g := fun _ _ held => held

theorem Grows.trans {g g' g'' : TxGraph} (first : Grows g g') (second : Grows g' g'') :
    Grows g g'' := fun op txout held => second op txout (first op txout held)

section Keep

variable {env : Primitives} {lib : GraphLibrary} {seen : Shown} {g : TxGraph}

theorem lookup_put {K V : Type} [DecidableEq K] (entries : List (K × V)) (k k' : K) (v : V) :
    ((k, v) :: entries).lookup k' = if k' = k then some v else entries.lookup k' := by
  rw [List.lookup_cons]
  by_cases same : k' = k
  · simp [same]
  · rw [beq_false_of_ne same, if_neg same]

theorem getTx_eq_some {txid : Txid} {tx : Transaction} :
    g.getTx txid = some tx ↔ g.txs.lookup txid = some (.whole tx) := by
  unfold getTx
  split
  · rename_i tx' found
    rw [found]
    simp
  · rename_i other
    constructor
    · intro impossible
      contradiction
    · intro found
      exact absurd found (other tx)

theorem getTxout_of_getTx {op : OutPoint} {tx : Transaction} (held : g.getTx op.txid = some tx) :
    g.getTxout op = tx.output[op.vout.toNat]? := by
  rw [getTxout, getTx_eq_some.mp held]
  rfl

theorem grows_put {txid : Txid} {node : TxNode} {txs : List (Txid × TxNode)}
    (put : txs = (txid, node) :: g.txs) {g' : TxGraph} (isPut : g'.txs = txs)
    (kept : ∀ vout o, g.getTxout ⟨txid, vout⟩ = some o → node.txout vout = some o) :
    Grows g g' := by
  intro op txout output
  rw [getTxout, isPut, put, lookup_put]
  split
  · rename_i same
    subst same
    exact kept op.vout txout output
  · exact output

theorem mem_insertSpend {txid txid' : Txid} {spends : OrderedMap OutPoint (List Txid)}
    {txin : TxIn} {op : OutPoint} (listed : txid' ∈ (spends.get? op).getD []) :
    txid' ∈ ((insertSpend txid spends txin).get? op).getD [] := by
  unfold insertSpend
  split
  · exact listed
  · simp only
    rw [OrderedMap.get?_insert]
    split
    · rename_i same
      rw [← same, Option.getD_some]
      split
      · exact listed
      · exact List.mem_append_left _ listed
    · exact listed

theorem insertSpend_self (txid : Txid) (spends : OrderedMap OutPoint (List Txid)) {txin : TxIn}
    (real : txin.previousOutput.isNull = false) :
    txid ∈ ((insertSpend txid spends txin).get? txin.previousOutput).getD [] := by
  unfold insertSpend
  rw [real, if_neg (by simp)]
  simp only
  rw [OrderedMap.get?_insert, if_pos rfl, Option.getD_some]
  split
  · rename_i old
    exact List.contains_iff_mem.mp old
  · exact List.mem_append_right _ (List.mem_singleton_self txid)

theorem mem_insertSpends {txid txid' : Txid} {spends : OrderedMap OutPoint (List Txid)}
    (inputs : List TxIn) {op : OutPoint} (listed : txid' ∈ (spends.get? op).getD []) :
    txid' ∈ ((inputs.foldl (insertSpend txid) spends).get? op).getD [] := by
  induction inputs generalizing spends with
  | nil => exact listed
  | cons txin rest ih => exact ih (mem_insertSpend listed)

theorem insertSpends_self (txid : Txid) (spends : OrderedMap OutPoint (List Txid))
    {inputs : List TxIn} {txin : TxIn} (member : txin ∈ inputs)
    (real : txin.previousOutput.isNull = false) :
    txid ∈ ((inputs.foldl (insertSpend txid) spends).get? txin.previousOutput).getD [] := by
  induction inputs generalizing spends with
  | nil => simp at member
  | cons first rest ih =>
    rcases List.mem_cons.mp member with rfl | later
    · exact mem_insertSpends rest (insertSpend_self txid spends real)
    · exact ih _ later

theorem default_known (env : Primitives) (seen : Shown) : default.Known env seen := by
  constructor
  case txs =>
    intro txid tx held
    simp [getTx, default] at held
  case txouts =>
    intro txid outs held
    simp [default] at held
  case spends =>
    intro txid tx held
    simp [getTx, default] at held

theorem Known.outputs (identified : Identified env seen) (known : g.Known env seen)
    {tx : Transaction} (member : tx ∈ seen.txs) {vout : UInt32} {o : TxOut}
    (output : g.getTxout ⟨env.computeTxid tx, vout⟩ = some o) :
    tx.output[vout.toNat]? = some o := by
  obtain ⟨node, held, isOutput⟩ := Option.bind_eq_some_iff.mp output
  cases node with
  | whole tx' =>
    obtain ⟨tx'', member', same', txid'⟩ := known.txs _ tx' (getTx_eq_some.mpr held)
    have single := identified.single tx member tx'' member' txid'.symm
    rw [output_of_withoutWitnesses (single.trans same'.symm)]
    exact isOutput
  | floating outs =>
    exact identified.outputs _ (known.txouts _ outs held _ o isOutput) tx member rfl

theorem put_known (identified : Identified env seen) (known : g.Known env seen)
    {tx put : Transaction} {spends : OrderedMap OutPoint (List Txid)} (member : tx ∈ seen.txs)
    (same : withoutWitnesses put = withoutWitnesses tx)
    (kept : ∀ op, ∀ txid ∈ g.outspends op, txid ∈ (spends.get? op).getD [])
    (own : ∀ txin ∈ put.input, txin.previousOutput.isNull = false →
      env.computeTxid tx ∈ (spends.get? txin.previousOutput).getD []) :
    let g' := { g with txs := (env.computeTxid tx, .whole put) :: g.txs, spends := spends }
    g'.Known env seen ∧ Grows g g' ∧ g'.getTx (env.computeTxid put) = some put := by
  intro g'
  have found : ∀ txid, g'.txs.lookup txid =
      if txid = env.computeTxid tx then some (.whole put) else g.txs.lookup txid :=
    fun txid => lookup_put g.txs (env.computeTxid tx) txid (.whole put)
  have held : ∀ txid tx', g'.getTx txid = some tx' →
      txid = env.computeTxid tx ∧ tx' = put ∨ g.getTx txid = some tx' := by
    intro txid tx' isHeld
    rw [getTx_eq_some, found] at isHeld
    split at isHeld
    · rename_i isTxid
      exact .inl ⟨isTxid, by simpa using isHeld.symm⟩
    · exact .inr (getTx_eq_some.mpr isHeld)
  have grows : Grows g g' := by
    apply grows_put rfl rfl
    intro vout o output
    show put.output[vout.toNat]? = some o
    rw [output_of_withoutWitnesses same]
    exact known.outputs identified member output
  have isPut : g'.getTx (env.computeTxid put) = some put := by
    rw [getTx_eq_some, found, if_pos (identified.stripped tx member put same)]
  refine ⟨⟨?_, ?_, ?_⟩, grows, isPut⟩
  · intro txid tx' isHeld
    rcases held txid tx' isHeld with ⟨rfl, rfl⟩ | old
    · exact ⟨tx, member, same, rfl⟩
    · exact known.txs txid tx' old
  · intro txid outs isHeld
    rw [found] at isHeld
    split at isHeld
    · simp at isHeld
    · exact known.txouts txid outs isHeld
  · intro txid tx' isHeld txin listed real
    rcases held txid tx' isHeld with ⟨rfl, rfl⟩ | old
    · exact own txin listed real
    · exact kept _ _ (known.spends txid tx' old txin listed real)

structure Inserted (env : Primitives) (seen : Shown) (g g' : TxGraph)
    (added : List Transaction) : Prop where
  known : g'.Known env seen
  grows : Grows g g'
  added : ∀ a ∈ added, ∀ n txout, a.output[n]? = some txout →
    g'.getTxout ⟨env.computeTxid a, UInt32.ofNat n⟩ = some txout

theorem getTxout_of_output (identified : Identified env seen) {tx a : Transaction}
    (member : tx ∈ seen.txs) (same : withoutWitnesses a = withoutWitnesses tx)
    (held : g.getTx (env.computeTxid a) = some a) {n : ℕ} {txout : TxOut}
    (output : a.output[n]? = some txout) :
    g.getTxout ⟨env.computeTxid a, UInt32.ofNat n⟩ = some txout := by
  have size : n < 2 ^ 32 := by
    have low := (List.getElem?_eq_some_iff.mp output).1
    rw [output_of_withoutWitnesses same] at low
    exact low.trans_le (identified.sizes tx member)
  rw [getTxout_of_getTx held]
  show a.output[(UInt32.ofNat n).toNat]? = some txout
  rw [UInt32.toNat_ofNat_of_lt' size]
  exact output

theorem insertTx_inserted (lib : GraphLibrary) (identified : Identified env seen)
    (known : g.Known env seen) {tx : Transaction} (member : tx ∈ seen.txs) :
    Inserted env seen g (g.insertTx env lib tx).1 (g.insertTx env lib tx).2 := by
  -- Nothing of this id is held as a whole: it is put, and its inputs become spends.
  have fresh : Inserted env seen g
      { g with
        txs := (env.computeTxid tx, .whole tx) :: g.txs
        spends := tx.input.foldl (insertSpend (env.computeTxid tx)) g.spends } [tx] := by
    obtain ⟨known', grows, found⟩ := put_known identified known member rfl
      (fun op txid listed => mem_insertSpends tx.input listed)
      fun txin listed real => insertSpends_self _ g.spends listed real
    refine ⟨known', grows, ?_⟩
    intro a isAdded
    obtain rfl := List.mem_singleton.mp isAdded
    exact fun n txout => getTxout_of_output identified member rfl found
  have unchanged : Inserted env seen g g [] := ⟨known, .refl g, by simp⟩
  unfold insertTx
  simp only
  split
  · rename_i existing held
    split
    · exact unchanged
    · cases merge : mergeTxWitnesses lib.witnessLt existing tx with
      | none => exact unchanged
      | some merged =>
        have isHeld := getTx_eq_some.mpr held
        obtain ⟨tx', member', same', txid'⟩ := known.txs _ existing isHeld
        have single := identified.single tx' member' tx member txid'
        have same := (mergeTxWitnesses_same (same'.trans single) merge).trans (same'.trans single)
        have own : ∀ txin ∈ merged.input, txin.previousOutput.isNull = false →
            env.computeTxid tx ∈ g.outspends txin.previousOutput := by
          intro txin listed real
          have spent : txin.previousOutput ∈ existing.input.map (·.previousOutput) := by
            rw [spent_of_withoutWitnesses ((same'.trans single).trans same.symm)]
            exact List.mem_map_of_mem listed
          obtain ⟨txin', listed', isSpent⟩ := List.mem_map.mp spent
          rw [← isSpent] at real ⊢
          exact known.spends _ existing isHeld txin' listed' real
        obtain ⟨known', grows, found⟩ := put_known identified known member same
          (fun _ _ listed => listed) own
        refine ⟨known', grows, ?_⟩
        intro a isAdded
        obtain rfl := List.mem_singleton.mp isAdded
        exact fun n txout => getTxout_of_output identified member same found
  · exact fresh

theorem insertTxs_inserted (lib : GraphLibrary) (identified : Identified env seen)
    {txs : List Transaction} (members : ∀ tx ∈ txs, tx ∈ seen.txs) (known : g.Known env seen) :
    Inserted env seen g (insertTxs env lib txs g).1 (insertTxs env lib txs g).2 := by
  induction txs generalizing g with
  | nil => exact ⟨known, .refl g, by simp [insertTxs]⟩
  | cons tx rest ih =>
    have first := insertTx_inserted lib identified known (members tx List.mem_cons_self)
    have later := ih (fun tx member => members tx (List.mem_cons_of_mem _ member)) first.known
    refine ⟨later.known, first.grows.trans later.grows, ?_⟩
    intro a member
    rcases List.mem_append.mp member with old | new
    · exact fun n txout held => later.grows _ _ (first.added a old n txout held)
    · exact later.added a new

theorem put_floating (known : g.Known env seen) {txid : Txid} {outs : List (UInt32 × TxOut)}
    (shown : ∀ vout o, outs.lookup vout = some o → (⟨txid, vout⟩, o) ∈ seen.txouts) :
    ({ g with txs := (txid, .floating outs) :: g.txs } : TxGraph).Known env seen := by
  have held : ∀ txid' tx,
      ({ g with txs := (txid, .floating outs) :: g.txs } : TxGraph).getTx txid' =
      some tx → g.getTx txid' = some tx := by
    intro txid' tx isHeld
    rw [getTx_eq_some, lookup_put] at isHeld
    split at isHeld
    · simp at isHeld
    · exact getTx_eq_some.mpr isHeld
  refine ⟨fun txid' tx isHeld => known.txs txid' tx (held txid' tx isHeld), ?_,
    fun txid' tx isHeld => known.spends txid' tx (held txid' tx isHeld)⟩
  intro txid' outs' isHeld
  rw [lookup_put] at isHeld
  split at isHeld
  · rename_i same
    obtain rfl : outs = outs' := by simpa using isHeld
    rw [same]
    exact shown
  · exact known.txouts txid' outs' isHeld

theorem put_txout (identified : Identified env seen) (known : g.Known env seen) {op : OutPoint}
    {txout : TxOut} (member : (op, txout) ∈ seen.txouts) (outs : List (UInt32 × TxOut))
    (held : ∀ vout, g.getTxout ⟨op.txid, vout⟩ = outs.lookup vout)
    (shown : ∀ vout o, outs.lookup vout = some o → (⟨op.txid, vout⟩, o) ∈ seen.txouts) :
    let g' := { g with txs := (op.txid, .floating ((op.vout, txout) :: outs)) :: g.txs }
    g'.Known env seen ∧ Grows g g' ∧ g'.getTxout op = some txout := by
  intro g'
  have shown' : ∀ vout o, ((op.vout, txout) :: outs).lookup vout = some o →
      (⟨op.txid, vout⟩, o) ∈ seen.txouts := by
    intro vout o isOutput
    rw [lookup_put] at isOutput
    split at isOutput
    · rename_i same
      obtain rfl := Option.some.inj isOutput
      rw [same]
      exact member
    · exact shown vout o isOutput
  refine ⟨put_floating known shown', grows_put rfl rfl ?_, ?_⟩
  · intro vout o output
    rw [held] at output
    show ((op.vout, txout) :: outs).lookup vout = some o
    rw [lookup_put]
    split
    · rename_i same
      exact congrArg some (identified.values _ member _ (shown vout o output) (by rw [same]))
    · exact output
  · show (g'.txs.lookup op.txid).bind _ = _
    rw [lookup_put, if_pos rfl, Option.bind_some]
    show ((op.vout, txout) :: outs).lookup op.vout = _
    rw [lookup_put, if_pos rfl]

theorem insertTxout_known (identified : Identified env seen) (known : g.Known env seen)
    {op : OutPoint} {txout : TxOut} (member : (op, txout) ∈ seen.txouts) :
    (g.insertTxout op txout).1.Known env seen ∧ Grows g (g.insertTxout op txout).1 ∧
      ((g.insertTxout op txout).2 = true →
        (g.insertTxout op txout).1.getTxout op = some txout) := by
  unfold insertTxout
  split
  · exact ⟨known, .refl g, by simp⟩
  · rename_i outs held
    obtain ⟨known', grows, output⟩ := put_txout identified known member outs
      (fun vout => by rw [getTxout, held]; rfl) (known.txouts _ outs held)
    exact ⟨known', grows, fun _ => output⟩
  · rename_i held
    obtain ⟨known', grows, output⟩ := put_txout identified known member []
      (fun vout => by rw [getTxout, held]; rfl) (by simp)
    exact ⟨known', grows, fun _ => output⟩

theorem insertTxouts_known (identified : Identified env seen) {txouts : List (OutPoint × TxOut)}
    (members : ∀ e ∈ txouts, e ∈ seen.txouts) (known : g.Known env seen) :
    (insertTxouts txouts g).1.Known env seen ∧ Grows g (insertTxouts txouts g).1 ∧
      ∀ e ∈ (insertTxouts txouts g).2.entries,
        (insertTxouts txouts g).1.getTxout e.1 = some e.2 := by
  induction txouts generalizing g with
  | nil => exact ⟨known, .refl g, by simp [insertTxouts, OrderedMap.empty]⟩
  | cons first rest ih =>
    obtain ⟨op, txout⟩ := first
    obtain ⟨known', grows, added⟩ := insertTxout_known identified known
      (members (op, txout) List.mem_cons_self)
    obtain ⟨known'', grows', more⟩ := ih
      (fun e member => members e (List.mem_cons_of_mem _ member)) known'
    refine ⟨known'', grows.trans grows', ?_⟩
    intro e member
    simp only [insertTxouts] at member ⊢
    split at member
    · rename_i new
      rcases OrderedMap.insertEntry_member member with rfl | old
      · exact grows' _ _ (added new)
      · exact more e old
    · exact more e member

def SameTxs (g g' : TxGraph) : Prop := g'.txs = g.txs ∧ g'.spends = g.spends

theorem SameTxs.trans {g g' g'' : TxGraph} (first : SameTxs g g') (second : SameTxs g' g'') :
    SameTxs g g'' := ⟨second.1.trans first.1, second.2.trans first.2⟩

theorem foldl_sameTxs {A : Type} {f : TxGraph → A → TxGraph} (each : ∀ g a, SameTxs g (f g a))
    (entries : List A) (g : TxGraph) : SameTxs g (entries.foldl f g) := by
  induction entries generalizing g with
  | nil => exact ⟨rfl, rfl⟩
  | cons a rest ih => exact (each g a).trans (ih _)

theorem insertAnchor_sameTxs (g : TxGraph) (entry : ConfirmationBlockTime × Txid) :
    SameTxs g (g.insertAnchor entry) := by
  unfold insertAnchor
  simp only
  split
  · split
    · exact ⟨rfl, rfl⟩
    · exact ⟨rfl, rfl⟩
  · exact ⟨rfl, rfl⟩

theorem updateFirstSeen_sameTxs (g : TxGraph) (txid : Txid) (seenAt : UInt64) :
    SameTxs g (g.updateFirstSeen txid seenAt) := by
  unfold updateFirstSeen
  split
  · split
    · exact ⟨rfl, rfl⟩
    · exact ⟨rfl, rfl⟩
  · exact ⟨rfl, rfl⟩

theorem updateLastSeen_sameTxs (g : TxGraph) (txid : Txid) (seenAt : UInt64) :
    SameTxs g (g.updateLastSeen txid seenAt) := by
  unfold updateLastSeen
  split
  · split
    · exact ⟨rfl, rfl⟩
    · exact ⟨rfl, rfl⟩
  · exact ⟨rfl, rfl⟩

theorem insertEvictedAt_sameTxs (g : TxGraph) (entry : Txid × UInt64) :
    SameTxs g (g.insertEvictedAt entry) := by
  unfold insertEvictedAt
  split
  · split
    · exact ⟨rfl, rfl⟩
    · exact ⟨rfl, rfl⟩
  · exact ⟨rfl, rfl⟩

theorem insertMarks_sameTxs (g : TxGraph) (update : CoreTxUpdate) :
    SameTxs g (g.insertMarks update) := by
  have anchored := foldl_sameTxs insertAnchor_sameTxs update.anchors g
  have seen := foldl_sameTxs (f := insertSeenAt)
    (fun g entry => (updateFirstSeen_sameTxs g entry.1 entry.2).trans
      (updateLastSeen_sameTxs _ entry.1 entry.2))
    update.seenAts (update.anchors.foldl insertAnchor g)
  exact (anchored.trans seen).trans (foldl_sameTxs insertEvictedAt_sameTxs update.evictedAts _)

theorem SameTxs.getTx {g g' : TxGraph} (same : SameTxs g g') (txid : Txid) :
    g'.getTx txid = g.getTx txid := by
  unfold TxGraph.getTx
  rw [same.1]

theorem SameTxs.getTxout {g g' : TxGraph} (same : SameTxs g g') (op : OutPoint) :
    g'.getTxout op = g.getTxout op := by
  unfold TxGraph.getTxout
  rw [same.1]

theorem SameTxs.known {g g' : TxGraph} (same : SameTxs g g') (known : g.Known env seen) :
    g'.Known env seen := by
  refine ⟨?_, ?_, ?_⟩
  · intro txid tx held
    rw [same.getTx] at held
    exact known.txs txid tx held
  · intro txid outs held
    rw [same.1] at held
    exact known.txouts txid outs held
  · intro txid tx held
    rw [same.getTx] at held
    unfold outspends
    rw [same.2]
    exact known.spends txid tx held

structure Updated (env : Primitives) (seen : Shown) (g : TxGraph)
    (after : TxGraph × GraphChanges) : Prop where
  known : after.1.Known env seen
  grows : Grows g after.1
  txs : ∀ a ∈ after.2.txs, ∀ n txout, a.output[n]? = some txout →
    after.1.getTxout ⟨env.computeTxid a, UInt32.ofNat n⟩ = some txout
  txouts : ∀ e ∈ after.2.txouts.entries, after.1.getTxout e.1 = some e.2

theorem applyUpdate_updated (lib : GraphLibrary) (identified : Identified env seen)
    (known : g.Known env seen) (update : CoreTxUpdate)
    (txs : ∀ tx ∈ update.txs, tx ∈ seen.txs)
    (txouts : ∀ e ∈ update.txouts.entries, e ∈ seen.txouts) :
    Updated env seen g (g.applyUpdate env lib update) := by
  have whole := insertTxs_inserted lib identified txs known
  obtain ⟨known', grows', added⟩ := insertTxouts_known identified txouts whole.known
  have same := insertMarks_sameTxs
    (insertTxouts update.txouts.entries (insertTxs env lib update.txs g).1).1 update
  constructor
  case known => exact same.known known'
  case grows =>
    intro op txout held
    show (insertMarks _ update).getTxout op = _
    rw [same.getTxout]
    exact grows' _ _ (whole.grows _ _ held)
  case txs =>
    intro a member n txout output
    show (insertMarks _ update).getTxout _ = _
    rw [same.getTxout]
    exact grows' _ _ (whole.added a ((lib.mem_changeset _ a).mp member) n txout output)
  case txouts =>
    intro e member
    show (insertMarks _ update).getTxout e.1 = _
    rw [same.getTxout]
    exact added e member

end Keep

end TxGraph

end Trinity.Watch
