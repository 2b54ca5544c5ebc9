import Mathlib.Data.List.Flatten
import Trinity.Chain.CbfBroadcast
import Trinity.Chain.TxGraph

/-!
`sync` of the compact-filter backend: the scripts of the request go into a fresh
index, the node is started at a checkpoint a few blocks back and reports block
filters, and the blocks whose filters match are fetched and sorted. Which spends
of the wallet's outputs such a run can see is settled at the end.
-/
namespace Trinity

open Outcome

structure CheckPoint where
  entries : List BlockId
  nonempty : entries ≠ []
  descending : entries.Pairwise fun a b => b.height < a.height

namespace CheckPoint

instance : DecidableEq CheckPoint := fun a b =>
  decidable_of_iff (a.entries = b.entries) (by cases a; cases b; simp)

def new (b : BlockId) : CheckPoint := ⟨[b], by simp, by simp⟩

def tip (cp : CheckPoint) : BlockId := cp.entries.head cp.nonempty

/-- A block at an unknown height goes between its neighbours. One that conflicts
    with the entry of its height takes its place and the entries above it go. -/
def insert (cp : CheckPoint) (b : BlockId) : Outcome ChainError CheckPoint :=
  let above := cp.entries.filter fun e => b.height < e.height
  let below := cp.entries.filter fun e => e.height < b.height
  match cp.entries.find? fun e => e.height = b.height with
  | some e =>
    if e.hash = b.hash then return cp
    else do
      abortUnless (below ≠ [])
      return ⟨b :: below, by simp, List.pairwise_cons.mpr
        ⟨fun e member => by simpa using (List.mem_filter.mp member).2, cp.descending.filter _⟩⟩
  | none => do
    abortUnless (below ≠ [])
    return ⟨above ++ b :: below, by simp, List.pairwise_append.mpr ⟨cp.descending.filter _,
      List.pairwise_cons.mpr ⟨fun e member => by simpa using (List.mem_filter.mp member).2,
        cp.descending.filter _⟩, fun e high e' low => by
          have high' : b.height < e.height := by simpa using (List.mem_filter.mp high).2
          rcases List.mem_cons.mp low with rfl | low
          · exact high'
          · exact UInt32.lt_trans (by simpa using (List.mem_filter.mp low).2) high'⟩⟩

end CheckPoint

structure SyncRequest where
  chainTip : Option CheckPoint
  spks : List (KeychainIndex × Script)
  spkExpectedTxids : Script → List Txid
  txids : List Txid
  outpoints : List OutPoint

structure IndexedFilter where
  blockHash : BlockHash
  containsAny : List Script → Bool

inductive BlockHeaderChanges where
  | connected (block : BlockId)
  | reorganized (accepted reorganized : List BlockId)
  | forkAdded (block : BlockId)
  deriving DecidableEq, Repr

inductive Event where
  | indexedFilter (filter : IndexedFilter)
  | chainUpdate (changes : BlockHeaderChanges)
  | filtersSynced (tip : BlockId)

/-- The light client: what it reports when started at a checkpoint, until it
    stops, and the blocks it can fetch. -/
structure CbfNode where
  events : BlockId → List Event
  getBlock : BlockHash → Except String IndexedBlock

inductive WallWait where
  | spawnFailed (error : String)
  | received
  | timeout
  | disconnected
  deriving DecidableEq, Repr

structure Update where
  lastActiveIndices : KeychainKind → Option UInt32
  txUpdate : TxUpdate
  chain : Option CheckPoint

def reorgWalkback : Nat := 7

def walkBack (ret : BlockId) : List (BlockId × Nat) → BlockId
  | [] => ret
  | (next, index) :: rest => if index > reorgWalkback then ret else walkBack next rest

def walkBackReorg (checkpoint : CheckPoint) : BlockId :=
  walkBack checkpoint.tip checkpoint.entries.zipIdx

def chainStateForNetwork (genesis : BlockHash) (tip : Option CheckPoint) : BlockId :=
  match tip with
  | some cp => walkBackReorg cp
  | none => ⟨0, genesis⟩

def filterMatches (filter : IndexedFilter) (spks : List Script) : Bool := filter.containsAny spks

def applyChainEvent (cp : CheckPoint) : BlockHeaderChanges → Outcome ChainError CheckPoint
  | .connected block => cp.insert block
  | .reorganized accepted _ => accepted.foldlM CheckPoint.insert cp
  | .forkAdded _ => return cp

def lastActiveIndices (index : SpkTxOutIndex) : KeychainKind → Option UInt32 :=
  index.spkTxouts.foldl (fun out (i, _) =>
    Function.update out i.keychain (some (match out i.keychain with
      | some cur => max cur i.index
      | none => i.index))) fun _ => none

/-- The expected transactions and the outpoints of the request are drained and
    dropped. -/
def collectSyncSpks (req : SyncRequest) : SpkTxOutIndex × Option CheckPoint :=
  let (index, _) := req.spks.foldl (fun (s : SpkTxOutIndex × UInt32) item =>
    (s.1.insertSpk ⟨.external, s.2⟩ item.2, if s.2 = 0xffffffff then s.2 else s.2 + 1))
    (SpkTxOutIndex.default, 0)
  (index, req.chainTip)

def runWithWallTimeout (secs : UInt64) (wait : WallWait) (f : Outcome ChainError Update) :
    Outcome ChainError Update :=
  match wait with
  | .spawnFailed e => fail (.other s!"cbf worker spawn: {e}")
  | .received => f
  | .timeout => fail (.network s!"cbf operation timed out after {secs}s")
  | .disconnected => fail (.network "cbf worker ended without a result")

structure CbfScan where
  graph : IndexedTxGraph
  cp : CheckPoint
  queued : List BlockHash

section Scan

variable (env : Primitives) (node : CbfNode)

def fetchBlock (hash : BlockHash) : Outcome ChainError IndexedBlock :=
  ofExcept (node.getBlock hash) fun e => .network s!"cbf get_block: {e}"

def scanEvents (spkCache : List Script) : List Event → CbfScan → Outcome ChainError Update
  | [], _ => fail (.network "cbf node stopped before filters synced")
  | .indexedFilter filter :: rest, s =>
    scanEvents spkCache rest
      (if filterMatches filter spkCache then { s with queued := s.queued ++ [filter.blockHash] }
      else s)
  | .chainUpdate changes :: rest, s => do
    let cp ← applyChainEvent s.cp changes
    scanEvents spkCache rest { s with cp := cp }
  | .filtersSynced tip :: _, s => do
    let graph ← s.queued.foldlM (fun (g : IndexedTxGraph) hash => do
      let block ← fetchBlock node hash
      return g.applyBlockRelevant env block.block block.height) s.graph
    let cp ← s.cp.insert tip
    return ⟨lastActiveIndices graph.index, ⟨graph.graph.txs, graph.graph.anchors, []⟩, some cp⟩

def scanIndexed (genesis : BlockHash) (timeoutSecs : UInt64) (wait : WallWait)
    (index : SpkTxOutIndex) (chainTip : Option CheckPoint) : Outcome ChainError Update :=
  let spkCache := index.spks.values
  let start := chainStateForNetwork genesis chainTip
  let initialCp := chainTip.getD (CheckPoint.new ⟨0, genesis⟩)
  runWithWallTimeout timeoutSecs wait
    (scanEvents env node spkCache (node.events start) ⟨⟨index, ⟨[], []⟩⟩, initialCp, []⟩)

def CbfNode.sync (genesis : BlockHash) (timeoutSecs : UInt64) (wait : WallWait)
    (req : SyncRequest) : Outcome ChainError Update :=
  let (index, tip) := collectSyncSpks req
  scanIndexed env node genesis timeoutSecs wait index tip

end Scan

section Requested

def SyncRequest.requests (req : SyncRequest) (spk : Script) : Bool :=
  (req.spks.map Prod.snd).contains spk

structure Collected (index : SpkTxOutIndex) (next : UInt32) (count : Nat)
    (scripts : List Script) : Prop where
  next : next.toNat = min count (2 ^ 32 - 1)
  watches : ∀ spk, index.watches spk = true ↔ spk ∈ scripts
  numbered : count ≤ 2 ^ 32 → ∀ spk i, index.spkIndices.lookup spk = some i →
    index.spks.get? i = some spk ∧ i.keychain = .external ∧ i.index.toNat < count
  txouts : ∀ o, index.txouts.get? o = none

theorem collected_insert {index : SpkTxOutIndex} {next : UInt32} {count : Nat}
    {scripts : List Script} (here : Collected index next count scripts) (spk : Script) :
    Collected (index.insertSpk ⟨.external, next⟩ spk)
      (if next = 0xffffffff then next else next + 1) (count + 1) (scripts ++ [spk]) := by
  have last : (0xffffffff : UInt32).toNat = 2 ^ 32 - 1 := rfl
  have number := here.next
  constructor
  · split
    · rename_i full
      rw [full, last] at number ⊢
      omega
    · rename_i more
      have below : next.toNat ≠ 2 ^ 32 - 1 := fun same =>
        more (UInt32.toNat_inj.mp (same.trans last.symm))
      rw [UInt32.toNat_add, UInt32.toNat_one]
      omega
  · intro other
    rw [List.mem_append, List.mem_singleton, ← here.watches]
    unfold SpkTxOutIndex.insertSpk SpkTxOutIndex.watches
    split
    · rename_i i found
      constructor
      · exact .inl
      · rintro (old | rfl)
        · exact old
        · simp [found]
    · simp only [List.lookup_cons]
      by_cases same : other = spk
      · simp [same]
      · rw [beq_false_of_ne same]
        simp [same]
  · intro bound other i
    have numbered := here.numbered (by omega)
    unfold SpkTxOutIndex.insertSpk
    split
    · intro found
      obtain ⟨held, external, small⟩ := numbered other i found
      exact ⟨held, external, by omega⟩
    · intro found
      simp only [List.lookup_cons] at found
      by_cases same : other = spk
      · subst same
        simp only [beq_self_eq_true, Option.some.injEq] at found
        subst found
        refine ⟨by rw [OrderedMap.get?_insert, if_pos rfl], rfl, ?_⟩
        simp only
        omega
      · rw [beq_false_of_ne same] at found
        obtain ⟨held, external, small⟩ := numbered other i found
        refine ⟨?_, external, by omega⟩
        rw [OrderedMap.get?_insert, if_neg ?_]
        · exact held
        · rintro rfl
          simp only at small
          omega
  · intro o
    unfold SpkTxOutIndex.insertSpk
    split <;> exact here.txouts o

theorem collected_all (items : List (KeychainIndex × Script)) {index : SpkTxOutIndex}
    {next : UInt32} {count : Nat} {scripts : List Script}
    (here : Collected index next count scripts) :
    ∃ next', Collected (items.foldl (fun (s : SpkTxOutIndex × UInt32) item =>
      (s.1.insertSpk ⟨.external, s.2⟩ item.2, if s.2 = 0xffffffff then s.2 else s.2 + 1))
      (index, next)).1 next' (count + items.length) (scripts ++ items.map Prod.snd) := by
  induction items generalizing index next count scripts with
  | nil => exact ⟨next, by simpa using here⟩
  | cons item rest ih =>
    obtain ⟨next', later⟩ := ih (collected_insert here item.2)
    refine ⟨next', ?_⟩
    rw [List.foldl_cons, List.length_cons, List.map_cons]
    rw [List.append_assoc, List.singleton_append, Nat.add_assoc, Nat.add_comm 1] at later
    exact later

theorem collectSyncSpks_spec (req : SyncRequest) :
    (collectSyncSpks req).1.watches = req.requests ∧
      (∀ o, (collectSyncSpks req).1.txouts.get? o = none) ∧
      (req.spks.length ≤ 2 ^ 32 → ∀ spk, req.requests spk = true →
        spk ∈ (collectSyncSpks req).1.spks.values) := by
  have start : Collected SpkTxOutIndex.default 0 0 [] := by
    constructor <;> simp [SpkTxOutIndex.default, SpkTxOutIndex.watches, OrderedMap.empty,
      OrderedMap.get?]
  obtain ⟨next, after⟩ := collected_all req.spks start
  rw [Nat.zero_add, List.nil_append] at after
  have watches : (collectSyncSpks req).1.watches = req.requests := by
    funext spk
    rw [Bool.eq_iff_iff, SyncRequest.requests, List.contains_iff_mem]
    exact after.watches spk
  refine ⟨watches, after.txouts, fun few spk requested => ?_⟩
  rw [← watches, SpkTxOutIndex.watches, Option.isSome_iff_exists] at requested
  obtain ⟨i, found⟩ := requested
  have held := (after.numbered few spk i found).1
  rw [OrderedMap.get?_eq_some] at held
  exact List.mem_map.mpr ⟨_, held, rfl⟩

end Requested

section Contract

def filtersBefore : List Event → List IndexedFilter
  | [] => []
  | .indexedFilter filter :: rest => filter :: filtersBefore rest
  | .chainUpdate _ :: rest => filtersBefore rest
  | .filtersSynced _ :: _ => []

def blocksAbove (height : UInt32) (chain : List IndexedBlock) : List IndexedBlock :=
  chain.filter fun b => height < b.height

def blockTxs (blocks : List IndexedBlock) : List Transaction :=
  blocks.flatMap fun b => b.block.txdata

variable (env : Primitives)

def InFilter (chain : List IndexedBlock) (b : IndexedBlock) (spk : Script) : Prop :=
  ∃ tx ∈ b.block.txdata, (∃ o ∈ tx.output, o.scriptPubkey = spk) ∨
    ∃ f ∈ blockTxs chain, ∃ o, o ∈ watchedOutpoints env (· == spk) f ∧ tx.Spends o

/-- The client started at a checkpoint reports the filter of every block of the
    best chain above it, in order, perhaps among others; the filters have no
    false negatives, and a block that is fetched is the one asked for. -/
structure ServesChain (node : CbfNode) (start : BlockId) (chain : List IndexedBlock) : Prop where
  delivered : ((blocksAbove start.height chain).map fun b => b.block.hash).Sublist
    ((filtersBefore (node.events start)).map IndexedFilter.blockHash)
  noFalseNegatives : ∀ filter ∈ filtersBefore (node.events start), ∀ b ∈ chain,
    filter.blockHash = b.block.hash → ∀ spks, (∃ spk ∈ spks, InFilter env chain b spk) →
      filter.containsAny spks = true
  fetched : ∀ b ∈ chain, ∀ found, node.getBlock b.block.hash = .ok found → found = b

/-- The client reports the filters of the chain above the checkpoint and no
    others, no output is spent twice there, and ids identify transactions. -/
structure Calm (node : CbfNode) (start : BlockId) (chain : List IndexedBlock) : Prop where
  exact_ : (filtersBefore (node.events start)).map IndexedFilter.blockHash =
    (blocksAbove start.height chain).map fun b => b.block.hash
  noConflicts : IndexedTxGraph.NoConflicts env (blockTxs (blocksAbove start.height chain))
  ids : ∀ t ∈ blockTxs (blocksAbove start.height chain),
    ∀ t' ∈ blockTxs (blocksAbove start.height chain),
      env.computeTxid t = env.computeTxid t' → t = t'

end Contract

section Run

variable {env : Primitives} {node : CbfNode}

theorem foldlM_fetch {queued : List BlockHash} {g result : IndexedTxGraph} :
    queued.foldlM (fun (g : IndexedTxGraph) hash => (do
      let block ← fetchBlock node hash
      return g.applyBlockRelevant env block.block block.height : Outcome ChainError _)) g =
        .ok result ↔
    ∃ blocks, queued.mapM (fetchBlock node) = .ok blocks ∧
      result = blocks.foldl (fun g b => g.applyBlockRelevant env b.block b.height) g := by
  induction queued generalizing g with
  | nil =>
    rw [List.foldlM_nil, List.mapM_nil, pure_eq_ok]
    constructor
    · rintro rfl
      exact ⟨[], rfl, rfl⟩
    · rintro ⟨blocks, none, rfl⟩
      rw [← pure_eq_ok.mp none]
      rfl
  | cons hash rest ih =>
    simp only [List.foldlM_cons, bind_eq_ok, pure_eq_ok, ih, List.mapM_cons]
    constructor
    · rintro ⟨_, ⟨block, found, rfl⟩, blocks, later, rfl⟩
      exact ⟨block :: blocks, ⟨block, found, blocks, later, rfl⟩, rfl⟩
    · rintro ⟨_, ⟨block, found, blocks, later, rfl⟩, rfl⟩
      exact ⟨_, ⟨block, found, rfl⟩, blocks, later, rfl⟩

theorem scanEvents_eq_ok {spkCache : List Script} {events : List Event} {s : CbfScan}
    {update : Update} (run : scanEvents env node spkCache events s = .ok update) :
    ∃ blocks, (s.queued ++ ((filtersBefore events).filter (filterMatches · spkCache)).map
        IndexedFilter.blockHash).mapM (fetchBlock node) = .ok blocks ∧
      update.txUpdate.txs =
        (blocks.foldl (fun g b => g.applyBlockRelevant env b.block b.height)
          s.graph).graph.txs := by
  induction events generalizing s with
  | nil => simp [scanEvents] at run
  | cons event rest ih =>
    cases event with
    | indexedFilter filter =>
      obtain ⟨blocks, fetched, held⟩ := ih run
      refine ⟨blocks, ?_, ?_⟩
      · rw [filtersBefore]
        by_cases hit : filterMatches filter spkCache = true
        · rw [if_pos hit] at fetched
          rw [List.filter_cons, if_pos hit, List.map_cons]
          rwa [List.append_assoc, List.singleton_append] at fetched
        · rw [if_neg hit] at fetched
          rwa [List.filter_cons, if_neg hit]
      · rw [held]
        split <;> rfl
    | chainUpdate changes =>
      obtain ⟨cp, _, later⟩ := bind_eq_ok.mp run
      exact @ih { s with cp := cp } later
    | filtersSynced tip =>
      simp only [scanEvents, bind_eq_ok, foldlM_fetch, pure_eq_ok] at run
      obtain ⟨graph, ⟨blocks, fetched, rfl⟩, cp, _, rfl⟩ := run
      exact ⟨blocks, by simpa [filtersBefore] using fetched, rfl⟩

theorem apply_blocks (g : IndexedTxGraph) (blocks : List IndexedBlock) :
    ∃ txs, blocks.foldl (fun g b => g.applyBlockRelevant env b.block b.height) g =
      g.applyAll env txs ∧ txs.map Prod.snd = blockTxs blocks := by
  refine ⟨blocks.flatMap fun b => b.block.txdata.map fun tx =>
    (⟨⟨b.height, b.block.hash⟩, b.block.time.toUInt64⟩, tx), ?_, ?_⟩
  · rw [IndexedTxGraph.applyAll, List.foldl_flatMap]
    simp only [List.foldl_map]
    rfl
  · simp [blockTxs, List.map_flatMap, Function.comp_def]

theorem fetchBlock_eq_ok {hash : BlockHash} {b : IndexedBlock} :
    fetchBlock node hash = .ok b ↔ node.getBlock hash = .ok b := by
  rw [fetchBlock, ofExcept_eq_ok]

theorem walkBack_mem {entries : List (BlockId × Nat)} {ret : BlockId} :
    walkBack ret entries = ret ∨ walkBack ret entries ∈ entries.map Prod.fst := by
  induction entries generalizing ret with
  | nil => exact .inl rfl
  | cons entry rest ih =>
    obtain ⟨next, index⟩ := entry
    rw [walkBack]
    split
    · exact .inl rfl
    · rcases @ih next with same | later
      · exact .inr (by rw [same]; simp)
      · exact .inr (List.mem_cons_of_mem _ later)

theorem walkBackReorg_le (cp : CheckPoint) : (walkBackReorg cp).height ≤ cp.tip.height := by
  have here : walkBackReorg cp ∈ cp.entries := by
    rcases @walkBack_mem cp.entries.zipIdx cp.tip with same | later
    · rw [walkBackReorg, same]
      exact List.head_mem _
    · rw [List.zipIdx_map_fst] at later
      exact later
  obtain ⟨entries, nonempty, descending⟩ := cp
  obtain ⟨tip, below, rfl⟩ := List.exists_cons_of_ne_nil nonempty
  rcases List.mem_cons.mp here with same | under
  · rw [same]
    exact UInt32.le_refl _
  · exact UInt32.le_of_lt ((List.pairwise_cons.mp descending).1 _ under)

theorem sync_blocks {genesis : BlockHash} {timeoutSecs : UInt64} {wait : WallWait}
    {req : SyncRequest} {update : Update}
    (synced : node.sync env genesis timeoutSecs wait req = .ok update) :
    ∃ blocks txs, List.Forall₂ (fun filter b => node.getBlock filter.blockHash = .ok b)
        ((filtersBefore (node.events (chainStateForNetwork genesis req.chainTip))).filter
          (filterMatches · (collectSyncSpks req).1.spks.values)) blocks ∧
      txs.map Prod.snd = blockTxs blocks ∧
      update.txUpdate.txs =
        (IndexedTxGraph.applyAll env ⟨(collectSyncSpks req).1, ⟨[], []⟩⟩ txs).graph.txs := by
  simp only [CbfNode.sync, scanIndexed, runWithWallTimeout] at synced
  split at synced
  · contradiction
  · obtain ⟨blocks, fetched, held⟩ := scanEvents_eq_ok synced
    obtain ⟨txs, applied, listed⟩ := @apply_blocks env ⟨(collectSyncSpks req).1, ⟨[], []⟩⟩ blocks
    refine ⟨blocks, txs, ?_, listed, held.trans (by rw [← applied])⟩
    rw [List.nil_append, mapM_eq_ok, List.forall₂_map_left_iff] at fetched
    exact fetched.imp fun filter b found => fetchBlock_eq_ok.mp found
  · contradiction
  · contradiction

variable {start : BlockId} {chain : List IndexedBlock} {spks : List Script}

theorem fetched_of_match (serves : ServesChain env node start chain) {blocks : List IndexedBlock}
    (fetched : List.Forall₂ (fun filter b => node.getBlock filter.blockHash = .ok b)
      ((filtersBefore (node.events start)).filter (filterMatches · spks)) blocks)
    {b : IndexedBlock} (member : b ∈ blocksAbove start.height chain)
    (hit : ∃ spk ∈ spks, InFilter env chain b spk) : b ∈ blocks := by
  have known : b ∈ chain := (List.mem_filter.mp member).1
  obtain ⟨filter, reported, hash⟩ := List.mem_map.mp (serves.delivered.subset
    (List.mem_map_of_mem member))
  have kept : filter ∈ (filtersBefore (node.events start)).filter (filterMatches · spks) :=
    List.mem_filter.mpr ⟨reported, serves.noFalseNegatives filter reported b known hash spks hit⟩
  obtain ⟨found, there, answer⟩ := List.forall₂_mem_left fetched kept
  rw [hash] at answer
  rwa [serves.fetched b known found answer] at there

theorem fetched_in_order (serves : ServesChain env node start chain) {blocks : List IndexedBlock}
    (fetched : List.Forall₂ (fun filter b => node.getBlock filter.blockHash = .ok b)
      ((filtersBefore (node.events start)).filter (filterMatches · spks)) blocks)
    {a b : IndexedBlock} (order : List.Precedes a b (blocksAbove start.height chain))
    (hitA : ∃ spk ∈ spks, InFilter env chain a spk)
    (hitB : ∃ spk ∈ spks, InFilter env chain b spk) : List.Precedes a b blocks := by
  have knownA : a ∈ chain := (List.mem_filter.mp order.mem_left).1
  have knownB : b ∈ chain := (List.mem_filter.mp order.mem_right).1
  have hashes := (order.map fun b => b.block.hash).trans serves.delivered
  obtain ⟨fa, fb, reported, hashA, hashB⟩ := List.precedes_map hashes
  have kept : List.Precedes fa fb
      ((filtersBefore (node.events start)).filter (filterMatches · spks)) :=
    List.precedes_filter reported
    (serves.noFalseNegatives fa reported.mem_left a knownA hashA spks hitA)
    (serves.noFalseNegatives fb reported.mem_right b knownB hashB spks hitB)
  obtain ⟨a', b', shown, answerA, answerB⟩ := List.precedes_forall₂ fetched kept
  rw [hashA] at answerA
  rw [hashB] at answerB
  rwa [serves.fetched a knownA a' answerA, serves.fetched b knownB b' answerB] at shown

theorem visible_fetched (serves : ServesChain env node start chain) {blocks : List IndexedBlock}
    (fetched : List.Forall₂ (fun filter b => node.getBlock filter.blockHash = .ok b)
      ((filtersBefore (node.events start)).filter (filterMatches · spks)) blocks)
    {watched : Script → Bool} (cached : ∀ spk, watched spk = true → spk ∈ spks) {tx : Transaction}
    (visible : IndexedTxGraph.Visible env watched (blockTxs (blocksAbove start.height chain)) tx) :
    IndexedTxGraph.Visible env watched (blockTxs blocks) tx := by
  have pays_hit {b : IndexedBlock} {t : Transaction} (inside : t ∈ b.block.txdata)
      (pays : t.Pays watched) : ∃ spk ∈ spks, InFilter env chain b spk := by
    obtain ⟨out, member, watches⟩ := pays
    exact ⟨_, cached _ watches, t, inside, .inl ⟨out, member, rfl⟩⟩
  obtain ⟨member, shown⟩ := visible
  rcases shown with pays | ⟨f, o, order, made, spends⟩
  · obtain ⟨b, above, inside⟩ := List.mem_flatMap.mp member
    have here := fetched_of_match serves fetched above (pays_hit inside pays)
    exact ⟨List.mem_flatMap.mpr ⟨b, here, inside⟩, .inl pays⟩
  · have order' : List.Precedes f tx (blockTxs blocks) := by
      rcases List.precedes_flatMap.mp order with ⟨b, above, same⟩ | ⟨a, b, apart, left, right⟩
      · have here := fetched_of_match serves fetched above
          (pays_hit same.mem_left (pays_of_watched made))
        exact List.precedes_flatMap.mpr (.inl ⟨b, here, same⟩)
      · -- The later block spends an output of a watched script.
        have spent_hit : ∃ spk ∈ spks, InFilter env chain b spk := by
          obtain ⟨spk, watches, made'⟩ := watchedOutpoints_script made
          refine ⟨spk, cached spk watches, tx, right, .inr ⟨f, ?_, o, made', spends⟩⟩
          exact List.mem_flatMap.mpr ⟨a, (List.mem_filter.mp apart.mem_left).1, left⟩
        have there := fetched_in_order serves fetched apart
          (pays_hit left (pays_of_watched made)) spent_hit
        exact List.precedes_flatMap.mpr (.inr ⟨a, b, there, left, right⟩)
    exact ⟨order'.mem_right, .inr ⟨f, o, order', made, spends⟩⟩

theorem fetched_sublist (serves : ServesChain env node start chain)
    (calm : Calm env node start chain) {blocks : List IndexedBlock}
    (fetched : List.Forall₂ (fun filter b => node.getBlock filter.blockHash = .ok b)
      ((filtersBefore (node.events start)).filter (filterMatches · spks)) blocks) :
    blocks.Sublist (blocksAbove start.height chain) := by
  have hashes : (((filtersBefore (node.events start)).filter (filterMatches · spks)).map
      IndexedFilter.blockHash).Sublist
        ((blocksAbove start.height chain).map fun b => b.block.hash) := by
    rw [← calm.exact_]
    exact List.filter_sublist.map _
  obtain ⟨picked, inside, same⟩ := List.sublist_map_iff.mp hashes
  have answered : List.Forall₂ (fun hash b => node.getBlock hash = .ok b)
      (picked.map fun b => b.block.hash) blocks := by
    rw [← same]
    exact List.forall₂_map_left_iff.mpr fetched
  rw [List.forall₂_map_left_iff] at answered
  have known : ∀ b ∈ picked, b ∈ chain := fun b member =>
    (List.mem_filter.mp (inside.subset member)).1
  have equal : List.Forall₂ Eq picked blocks :=
    ((List.forall₂_and_left picked blocks).mpr ⟨known, answered⟩).imp fun b found answer =>
      (serves.fetched b answer.1 found answer.2).symm
  rw [List.forall₂_eq_eq_eq] at equal
  exact equal ▸ inside

def SyncRequest.tipHeight (req : SyncRequest) : UInt32 :=
  match req.chainTip with
  | some cp => cp.tip.height
  | none => 0

def Update.Holds (env : Primitives) (update : Update) (tx : Transaction) : Prop :=
  ∃ t ∈ update.txUpdate.txs, env.computeTxid t = env.computeTxid tx

theorem start_le_tipHeight (genesis : BlockHash) (req : SyncRequest) :
    (chainStateForNetwork genesis req.chainTip).height ≤ req.tipHeight := by
  unfold chainStateForNetwork SyncRequest.tipHeight
  cases req.chainTip with
  | none => exact UInt32.le_refl _
  | some cp => exact walkBackReorg_le cp

end Run

/-- Which transactions a successful sync reports. A transaction above the
    request's tip is reported if it pays a requested script or spends an output,
    for a requested script, of a transaction before it above the point where the
    client was started; in a calm run no other is. What the wallet owned before
    that point plays no part. -/
theorem sync_reports_visible (env : Primitives) (node : CbfNode) (genesis : BlockHash)
    (timeoutSecs : UInt64) (wait : WallWait) (req : SyncRequest) (chain : List IndexedBlock)
    (update : Update) (few : req.spks.length ≤ 2 ^ 32)
    (serves : ServesChain env node (chainStateForNetwork genesis req.chainTip) chain)
    (synced : node.sync env genesis timeoutSecs wait req = .ok update) :
    (∀ b ∈ chain, req.tipHeight < b.height → ∀ tx ∈ b.block.txdata,
      (tx.Pays req.requests ∨ ∃ f o,
        List.Precedes f tx (blockTxs (blocksAbove
          (chainStateForNetwork genesis req.chainTip).height chain)) ∧
        o ∈ watchedOutpoints env req.requests f ∧ tx.Spends o) → update.Holds env tx) ∧
    (Calm env node (chainStateForNetwork genesis req.chainTip) chain →
      ∀ tx ∈ blockTxs (blocksAbove (chainStateForNetwork genesis req.chainTip).height chain),
        update.Holds env tx → IndexedTxGraph.Visible env req.requests
          (blockTxs (blocksAbove (chainStateForNetwork genesis req.chainTip).height chain))
          tx) := by
  obtain ⟨watches, fresh, cached⟩ := collectSyncSpks_spec req
  obtain ⟨blocks, txs, fetched, listed, held⟩ := sync_blocks synced
  constructor
  · intro b known above tx inside shown
    have higher : (chainStateForNetwork genesis req.chainTip).height < b.height :=
      UInt32.lt_of_le_of_lt (start_le_tipHeight genesis req) above
    have member : tx ∈ blockTxs (blocksAbove
        (chainStateForNetwork genesis req.chainTip).height chain) :=
      List.mem_flatMap.mpr ⟨b, List.mem_filter.mpr ⟨known, decide_eq_true higher⟩, inside⟩
    have visible := visible_fetched serves fetched (cached few) ⟨member, shown⟩
    rw [← listed, ← watches] at visible
    obtain ⟨t, there, same⟩ := IndexedTxGraph.holds_of_visible
      (g := ⟨(collectSyncSpks req).1, ⟨[], []⟩⟩) visible
    exact ⟨t, held ▸ there, same⟩
  · intro calm tx member reported
    obtain ⟨t, there, same⟩ := reported
    rw [held] at there
    have inside := fetched_sublist serves calm fetched
    have inside' : (blockTxs blocks).Sublist
        (blockTxs (blocksAbove (chainStateForNetwork genesis req.chainTip).height chain)) :=
      inside.flatMap _
    have apart : IndexedTxGraph.NoConflicts env (txs.map Prod.snd) := by
      rw [listed]
      exact fun a memberA b memberB =>
        calm.noConflicts a (inside'.subset memberA) b (inside'.subset memberB)
    have visible := IndexedTxGraph.visible_of_mem fresh rfl apart there
    rw [listed, watches] at visible
    have visible' := visible.mono inside'
    rwa [calm.ids t visible'.1 tx member same] at visible'

namespace Sample

def deposit : Transaction where
  version := 2
  lockTime := 0
  input := [⟨⟨0x0202020202020202020202020202020202020202020202020202020202020202, 0⟩, [],
    0xfffffffd, []⟩]
  output := [⟨100000, p2wshScript receiveHash⟩]

def depositTxid : Txid := 0x8abb3c965d5f02bac7cf7409be33f0a8632a3783a7b68a0485ee5e5a99a9c045

def sweep : Transaction where
  version := 2
  lockTime := 0
  input := [⟨⟨depositTxid, 0⟩, [], 0xfffffffd, []⟩]
  output := [⟨99000, recipientScript⟩]

def chainEnv : Primitives :=
  { tables with txids := [(deposit, depositTxid),
      (sweep, 0xbcd832c482320df385b982237e7572576e987ba2e82015931e9233b1f9a20fd4)] }.primitives

def blockHash (height : Nat) : BlockHash := BitVec.ofNat 256 (1000 + height)

def chainWith (depositHeight : Nat) : List IndexedBlock :=
  (List.range 12).map fun n => ⟨UInt32.ofNat n, blockHash n, 1700000000,
    if n = depositHeight then [deposit] else if n = 11 then [sweep] else []⟩

def localTip : CheckPoint where
  entries := (List.range 11).reverse.map fun n => ⟨UInt32.ofNat n, blockHash n⟩
  nonempty := by decide
  descending := by decide

def syncRequest : SyncRequest where
  chainTip := some localTip
  spks := [(⟨.external, 0⟩, p2wshScript receiveHash)]
  spkExpectedTxids _ := [depositTxid]
  txids := [depositTxid]
  outpoints := [⟨depositTxid, 0⟩]

def filterNode (depositHeight : Nat) : CbfNode where
  events start := ((chainWith depositHeight).filter fun b => start.height < b.height).map
    (fun b => Event.indexedFilter ⟨b.block.hash, fun _ => true⟩) ++
      [.filtersSynced ⟨11, blockHash 11⟩]
  getBlock hash :=
    match (chainWith depositHeight).find? fun b => b.block.hash = hash with
    | some b => .ok b
    | none => .error "unknown block"

theorem filtersBefore_filters (blocks : List IndexedBlock) (tip : BlockId) :
    filtersBefore (blocks.map (fun b => Event.indexedFilter ⟨b.block.hash, fun _ => true⟩) ++
      [.filtersSynced tip]) = blocks.map fun b => ⟨b.block.hash, fun _ => true⟩ := by
  induction blocks with
  | nil => rfl
  | cons b rest ih =>
    rw [List.map_cons, List.cons_append, filtersBefore, ih, List.map_cons]

theorem serves (depositHeight : Nat) (start : BlockId)
    (unique : ∀ b ∈ chainWith depositHeight,
      (filterNode depositHeight).getBlock b.block.hash = .ok b) :
    ServesChain chainEnv (filterNode depositHeight) start (chainWith depositHeight) where
  delivered := by
    rw [filterNode, filtersBefore_filters, List.map_map]
    exact List.Sublist.refl _
  noFalseNegatives filter reported b known hash spks hit := by
    rw [filterNode, filtersBefore_filters] at reported
    obtain ⟨b, _, rfl⟩ := List.mem_map.mp reported
    rfl
  fetched b known found answer := by
    rw [unique b known] at answer
    exact (Except.ok.inj answer).symm

theorem early_run : ((filterNode 2).sync chainEnv 0 120 .received syncRequest).toOption.map
    Update.txUpdate = some ⟨[], [], []⟩ := by
  decide

theorem late_run : (((filterNode 6).sync chainEnv 0 120 .received syncRequest).toOption.map
    Update.txUpdate).isSome = true := by
  decide

end Sample

/-- The request says that the wallet owns the output: its script is requested
    and its transaction expected, or its outpoint is requested. -/
def SyncRequest.Owns (env : Primitives) (req : SyncRequest) (funding : Transaction)
    (o : OutPoint) : Prop :=
  (∃ spk, o ∈ watchedOutpoints env (· == spk) funding ∧ req.requests spk = true ∧
    env.computeTxid funding ∈ req.spkExpectedTxids spk) ∨ o ∈ req.outpoints

theorem sync_reports_visible_sample : ∃ update,
    (Sample.filterNode 6).sync Sample.chainEnv 0 120 .received Sample.syncRequest = .ok update ∧
      update.Holds Sample.chainEnv Sample.sweep := by
  obtain ⟨_, run⟩ := Option.isSome_iff_exists.mp Sample.late_run
  obtain ⟨update, finished, _⟩ := Option.map_eq_some_iff.mp run
  have synced := toOption_eq_some.mp finished
  refine ⟨update, synced, (sync_reports_visible _ _ _ _ _ _ _ _ (by decide)
    (Sample.serves 6 _ (by decide)) synced).1
    ⟨11, Sample.blockHash 11, 1700000000, [Sample.sweep]⟩ (by decide) (by decide)
    Sample.sweep (by decide) (.inr ⟨Sample.deposit, ⟨Sample.depositTxid, 0⟩, ?_, ?_, ?_⟩)⟩
  · show List.Sublist _ _
    decide
  · decide
  · exact ⟨_, List.mem_singleton_self _, rfl⟩

/-- A spend that pays nothing back, of an output from before the start, is not
    reported, although the request names the output. -/
theorem changeless_spend_hidden :
    ServesChain Sample.chainEnv (Sample.filterNode 2)
      (chainStateForNetwork 0 Sample.syncRequest.chainTip) (Sample.chainWith 2) ∧
    Sample.syncRequest.Owns Sample.chainEnv Sample.deposit ⟨Sample.depositTxid, 0⟩ ∧
    Sample.sweep.Spends ⟨Sample.depositTxid, 0⟩ ∧
    (∃ b ∈ Sample.chainWith 2, Sample.syncRequest.tipHeight < b.height ∧
      Sample.sweep ∈ b.block.txdata) ∧
    ∃ update,
      (Sample.filterNode 2).sync Sample.chainEnv 0 120 .received Sample.syncRequest = .ok update ∧
        ¬ update.Holds Sample.chainEnv Sample.sweep := by
  refine ⟨Sample.serves 2 _ (by decide), .inl ⟨p2wshScript Sample.receiveHash,
    by decide, by decide, by decide⟩, ⟨_, List.mem_singleton_self _, rfl⟩,
    by decide, ?_⟩
  obtain ⟨update, finished, reported⟩ := Option.map_eq_some_iff.mp Sample.early_run
  refine ⟨update, toOption_eq_some.mp finished, ?_⟩
  rintro ⟨t, held, _⟩
  rw [reported] at held
  exact absurd held List.not_mem_nil

end Trinity
