import Trinity.Chain.FullScan

/-!
What a full scan of the Core-RPC backend returns for the scripts it calls used.
The scripts are probed from the first block on, but their transactions are only
looked for above the tip of the request: a payment at or below that tip makes an
index active and is not returned.
-/
namespace Trinity

open Outcome

section Node

def OnChain (chain : List Block) (id : BlockId) : Prop :=
  ∃ b, chain[id.height.toNat]? = some b ∧ b.hash = id.hash

def FilterEvent.height (e : FilterEvent) : Nat := e.cp.tip.height.toNat

def CoreClient.Holds (client : CoreClient) (chain : List Block) (listing : List Txid)
    (tx : Transaction) : Prop :=
  tx ∈ chain.flatMap Block.txdata ∨ client.InMempool listing tx

/-- An iteration over the blocks of a chain above a height, in their order. The
    filters have no false negatives: a block is shown if it pays one of the scripts
    or spends an output of the chain that pays one. -/
structure Iterates (env : Primitives) (chain : List Block) (start : Nat) (spks : List Script)
    (events : List FilterEvent) : Prop where
  ordered : events.Pairwise fun e e' => e.height < e'.height
  shown : ∀ e ∈ events, ∀ b, e.block = some b → start < e.height ∧ chain[e.height]? = some b
  filters : ∀ h b, start < h → chain[h]? = some b →
    (∃ tx ∈ b.txdata, tx.Touches spks (MadeIn env spks (chain.flatMap Block.txdata))) →
    ∃ e ∈ events, e.height = h ∧ e.block = some b

/-- A node with a fixed best chain and a fixed mempool, whose txids commit to the
    outputs. -/
structure CoreClient.Serves (env : Primitives) (client : CoreClient) (chain : List Block)
    (listing : List Txid) : Prop where
  genesis : ∀ hash, client.getBlockHash 0 = .ok hash → OnChain chain ⟨0, hash⟩
  iterates : ∀ (cp : CheckPoint) (spks : List Script) (events : List FilterEvent),
    OnChain chain cp.tip → client.filterIter cp spks = events.map .ok →
      Iterates env chain cp.tip.height.toNat spks events
  mempool : client.getRawMempool = .ok listing
  lookups : ∀ txid ∈ listing, ∀ tx, client.getRawTransaction txid = .ok tx →
    env.computeTxid tx = txid
  outputs : ∀ tx tx', client.Holds chain listing tx → client.Holds chain listing tx' →
    env.computeTxid tx = env.computeTxid tx' → tx.output = tx'.output

def FullScanRequest.startHeight (req : FullScanRequest) : Nat :=
  match req.chainTip with
  | some cp => cp.tip.height.toNat
  | none => 0

def FullScanRequest.Recent (env : Primitives) (req : FullScanRequest) (client : CoreClient)
    (chain : List Block) (listing : List Txid) (txid : Txid) : Prop :=
  (∃ h b, req.startHeight < h ∧ chain[h]? = some b ∧ ∃ tx ∈ b.txdata, env.computeTxid tx = txid) ∨
    ∃ tx, client.InMempool listing tx ∧ env.computeTxid tx = txid

end Node

section Found

variable (env : Primitives) (client : CoreClient) (chain : List Block) (listing : List Txid)
  (start : Nat) (spks : List Script)

def MadeUpTo (h : Nat) (o : OutPoint) : Prop :=
  ∃ h' b, start < h' ∧ h' ≤ h ∧ chain[h']? = some b ∧ MadeIn env spks b.txdata o

/-- A block above `start` has a transaction of this id that pays one of the scripts
    or spends an output made since `start`. -/
def FoundAbove (txid : Txid) : Prop :=
  ∃ h b, start < h ∧ chain[h]? = some b ∧ ∃ tx ∈ b.txdata, env.computeTxid tx = txid ∧
    tx.Touches spks (MadeUpTo env chain start spks h)

def FoundPending (txid : Txid) : Prop :=
  ∃ tx, client.InMempool listing tx ∧ env.computeTxid tx = txid ∧
    tx.Touches spks fun o => (∃ h, MadeUpTo env chain start spks h o) ∨
      ∃ t, client.InMempool listing t ∧ o ∈ watchedOutpoints env spks.contains t

variable {env client chain listing start spks} {startTime : UInt64} {events : List FilterEvent}

theorem mem_take_succ_iff {α : Type} {f : α → Nat} {l : List α}
    (ordered : l.Pairwise fun x y => f x < f y) {i : Nat} {y : α} (here : l[i]? = some y) (x : α) :
    x ∈ l.take (i + 1) ↔ x ∈ l ∧ f x ≤ f y := by
  rw [List.pairwise_iff_getElem] at ordered
  obtain ⟨inside, rfl⟩ := List.getElem?_eq_some_iff.mp here
  constructor
  · intro member
    refine ⟨List.mem_of_mem_take member, ?_⟩
    obtain ⟨j, before, rfl⟩ := List.getElem_of_mem member
    rw [List.length_take] at before
    rw [List.getElem_take]
    rcases Nat.lt_or_eq_of_le (show j ≤ i by omega) with lower | rfl
    · exact (ordered j i (by omega) inside lower).le
    · exact le_refl _
  · rintro ⟨member, low⟩
    obtain ⟨j, before, rfl⟩ := List.getElem_of_mem member
    have early : j < i + 1 := by
      by_contra late
      have above := ordered i j inside before (by omega)
      omega
    exact List.mem_take_iff_getElem.mpr ⟨j, by omega, rfl⟩

theorem mem_returnedBlocks {b : ReturnedBlock} :
    b ∈ client.returnedBlocks startTime events ↔
      ∃ e ∈ events, ∃ block, e.block = some block ∧
        b = (client.anchorOf startTime e.cp, block.txdata) := by
  simp only [CoreClient.returnedBlocks, List.mem_filterMap, Option.map_eq_some_iff,
    @eq_comm _ _ b]

def returnedHeight (b : ReturnedBlock) : Nat := b.1.blockId.height.toNat

theorem MadeUpTo.madeIn {h : Nat} {o : OutPoint} (made : MadeUpTo env chain start spks h o) :
    MadeIn env spks (chain.flatMap Block.txdata) o := by
  obtain ⟨h', block, _, _, there, tx, member, made⟩ := made
  exact ⟨tx, List.mem_flatMap.mpr ⟨block, List.mem_of_getElem? there, member⟩, made⟩

namespace Iterates

variable (client startTime) (iterates : Iterates env chain start spks events)
include iterates

theorem returned_ordered : (client.returnedBlocks startTime events).Pairwise fun b b' =>
    returnedHeight b < returnedHeight b' := by
  rw [CoreClient.returnedBlocks, List.pairwise_filterMap]
  refine iterates.ordered.imp ?_
  intro e e' before b made b' made'
  obtain ⟨_, _, rfl⟩ := Option.map_eq_some_iff.mp made
  obtain ⟨_, _, rfl⟩ := Option.map_eq_some_iff.mp made'
  exact before

theorem returned_onChain {b : ReturnedBlock}
    (returned : b ∈ client.returnedBlocks startTime events) :
    start < returnedHeight b ∧ ∃ block, chain[returnedHeight b]? = some block ∧
      b.2 = block.txdata := by
  obtain ⟨e, member, block, shown, rfl⟩ := mem_returnedBlocks.mp returned
  obtain ⟨above, here⟩ := iterates.shown e member block shown
  exact ⟨above, block, here, rfl⟩

theorem onChain_returned {h : Nat} {block : Block} (above : start < h)
    (here : chain[h]? = some block)
    (touches : ∃ tx ∈ block.txdata,
      tx.Touches spks (MadeIn env spks (chain.flatMap Block.txdata))) :
    ∃ b ∈ client.returnedBlocks startTime events, returnedHeight b = h ∧ b.2 = block.txdata := by
  obtain ⟨e, member, height, shown⟩ := iterates.filters h block above here touches
  exact ⟨_, mem_returnedBlocks.mpr ⟨e, member, block, shown, rfl⟩, height, rfl⟩

theorem madeIn_take {i : Nat} {b : ReturnedBlock}
    (here : (client.returnedBlocks startTime events)[i]? = some b) (o : OutPoint) :
    MadeIn env spks (((client.returnedBlocks startTime events).take (i + 1)).flatMap Prod.snd) o ↔
      MadeUpTo env chain start spks (returnedHeight b) o := by
  constructor
  · rintro ⟨tx, member, made⟩
    obtain ⟨b', taken, inside⟩ := List.mem_flatMap.mp member
    obtain ⟨returned, low⟩ :=
      (mem_take_succ_iff (iterates.returned_ordered client startTime) here b').mp taken
    obtain ⟨above, block, there, same⟩ := iterates.returned_onChain client startTime returned
    exact ⟨_, block, above, low, there, tx, same ▸ inside, made⟩
  · rintro ⟨h, block, above, low, there, tx, member, made⟩
    have touches : tx.Touches spks (MadeIn env spks (chain.flatMap Block.txdata)) :=
      .inl (pays_of_watched made)
    obtain ⟨b', returned, height, same⟩ :=
      iterates.onChain_returned client startTime above there
        ⟨tx, member, touches⟩
    refine ⟨tx, List.mem_flatMap.mpr ⟨b', ?_, same ▸ member⟩, made⟩
    exact (mem_take_succ_iff (iterates.returned_ordered client startTime) here b').mpr
      ⟨returned, height ▸ low⟩

theorem madeIn_all (o : OutPoint) :
    MadeIn env spks ((client.returnedBlocks startTime events).flatMap Prod.snd) o ↔
      ∃ h, MadeUpTo env chain start spks h o := by
  constructor
  · rintro ⟨tx, member, made⟩
    obtain ⟨b, returned, inside⟩ := List.mem_flatMap.mp member
    obtain ⟨above, block, there, same⟩ := iterates.returned_onChain client startTime returned
    exact ⟨_, _, block, above, le_refl _, there, tx, same ▸ inside, made⟩
  · rintro ⟨h, h', block, above, _, there, tx, member, made⟩
    have touches : tx.Touches spks (MadeIn env spks (chain.flatMap Block.txdata)) :=
      .inl (pays_of_watched made)
    obtain ⟨b, returned, _, same⟩ :=
      iterates.onChain_returned client startTime above there
        ⟨tx, member, touches⟩
    exact ⟨tx, List.mem_flatMap.mpr ⟨b, returned, same ▸ member⟩, made⟩

theorem foundAt_iff (txid : Txid) :
    (∃ i, FoundAt env spks [] (client.returnedBlocks startTime events) i txid) ↔
      FoundAbove env chain start spks txid := by
  constructor
  · rintro ⟨i, b, here, tx, member, id, touches⟩
    obtain ⟨above, block, there, same⟩ :=
      iterates.returned_onChain client startTime (List.mem_of_getElem? here)
    refine ⟨_, block, above, there, tx, same ▸ member, id, (touches_congr ?_).mp touches⟩
    intro o
    simp only [List.not_mem_nil, false_or]
    exact iterates.madeIn_take client startTime here o
  · rintro ⟨h, block, above, there, tx, member, id, touches⟩
    have whole : tx.Touches spks (MadeIn env spks (chain.flatMap Block.txdata)) :=
      touches.mono fun o made => made.madeIn
    obtain ⟨b, returned, height, same⟩ :=
      iterates.onChain_returned client startTime above there
        ⟨tx, member, whole⟩
    obtain ⟨i, here⟩ := List.mem_iff_getElem?.mp returned
    refine ⟨i, b, here, tx, same ▸ member, id, (touches_congr ?_).mpr (height ▸ touches)⟩
    intro o
    simp only [List.not_mem_nil, false_or]
    exact iterates.madeIn_take client startTime here o

end Iterates

end Found

section FullScan

variable {env : Primitives} {client : CoreClient} {chain : List Block} {listing : List Txid}
  {start : Nat} {spks : List Script} {startTime : UInt64} {events : List FilterEvent}

theorem startCheckpoint_onChain {env : Primitives} {client : CoreClient} {chain : List Block}
    {listing : List Txid} {req : FullScanRequest} {cp : CheckPoint}
    (serves : client.Serves env chain listing)
    (known : ∀ tip ∈ req.chainTip, OnChain chain tip.tip)
    (started : client.startCheckpoint req.chainTip = .ok cp) :
    OnChain chain cp.tip ∧ cp.tip.height.toNat = req.startHeight := by
  unfold FullScanRequest.startHeight
  cases tip : req.chainTip with
  | some cp' =>
    rw [tip, CoreClient.startCheckpoint, pure_eq_ok] at started
    subst started
    exact ⟨known cp' tip, rfl⟩
  | none =>
    rw [tip] at started
    simp only [CoreClient.startCheckpoint, CoreClient.genesisCheckpoint, bind_eq_ok,
      ofExcept_eq_ok, pure_eq_ok] at started
    obtain ⟨hash, genesis, rfl⟩ := started
    exact ⟨serves.genesis hash genesis, rfl⟩

theorem keychains_mem {req : FullScanRequest} {keychain : KeychainKind} {it : SpkIter} :
    (keychain, it) ∈ req.keychains ↔ req.spksByKeychain keychain = some it := by
  cases keychain <;> simp [FullScanRequest.keychains, List.mem_filterMap]

theorem CoreClient.Serves.identifies (serves : client.Serves env chain listing)
    (iterates : Iterates env chain start spks events) :
    client.Identifies env (client.returnedBlocks startTime events) listing where
  outputs tx tx' listed listed' same := by
    have held : ∀ t, client.Lists (client.returnedBlocks startTime events) listing t →
        client.Holds chain listing t := by
      intro t listed
      refine listed.imp_left fun member => ?_
      obtain ⟨b, returned, inside⟩ := List.mem_flatMap.mp member
      obtain ⟨_, block, there, txs⟩ := iterates.returned_onChain client startTime returned
      exact List.mem_flatMap.mpr ⟨block, List.mem_of_getElem? there, txs ▸ inside⟩
    exact serves.outputs tx tx' (held tx listed) (held tx' listed') same
  asked := serves.lookups

theorem scanSpks_found (serves : client.Serves env chain listing) {chainTip : Option CheckPoint}
    {startCp : CheckPoint} (started : client.startCheckpoint chainTip = .ok startCp)
    (onChain : OnChain chain startCp.tip) (watched : spks ≠ []) {update : TxUpdate}
    {tip : Option CheckPoint}
    (run : client.scanSpks env spks chainTip startTime [] = .ok (update, tip)) (txid : Txid) :
    txid ∈ update.txs.map env.computeTxid ↔
      FoundAbove env chain startCp.tip.height.toNat spks txid ∨
        FoundPending env client chain listing startCp.tip.height.toNat spks txid := by
  obtain ⟨events, listing', _, answers, _, _⟩ := scanSpks_eq_ok watched run
  obtain ⟨startCp', started', returned⟩ := answers.blocks
  obtain rfl : startCp = startCp' := Except.ok.inj (started.symm.trans started')
  obtain rfl : listing = listing' := Except.ok.inj (serves.mempool.symm.trans answers.mempool)
  have iterates := serves.iterates startCp spks events onChain returned
  have exact := scanSpks_exact watched answers (serves.identifies iterates) run
  rw [exact.found, iterates.foundAt_iff client startTime]
  have pending : (∃ tx, client.InMempool listing tx ∧ env.computeTxid tx = txid ∧
      tx.Touches spks fun o => o ∈ ([] : List OutPoint) ∨
        MadeIn env spks ((client.returnedBlocks startTime events).flatMap Prod.snd) o ∨
        ∃ t, client.InMempool listing t ∧ o ∈ watchedOutpoints env spks.contains t) ↔
      FoundPending env client chain listing startCp.tip.height.toNat spks txid := by
    simp only [FoundPending, List.not_mem_nil, false_or, iterates.madeIn_all client startTime]
  rw [← pending, FoundInMempool]
  constructor
  · rintro (above | ⟨_, found⟩)
    · exact .inl above
    · exact .inr found
  · rintro (above | found)
    · exact .inl above
    · by_cases above : FoundAbove env chain startCp.tip.height.toNat spks txid
      · exact .inl above
      · refine .inr ⟨fun i here => above ?_, found⟩
        exact (iterates.foundAt_iff client startTime txid).mp ⟨i, here⟩

theorem found_iff_recent (serves : client.Serves env chain listing) {req : FullScanRequest}
    {tx : Transaction} (held : client.Holds chain listing tx) (pays : tx.Pays spks.contains) :
    FoundAbove env chain req.startHeight spks (env.computeTxid tx) ∨
        FoundPending env client chain listing req.startHeight spks (env.computeTxid tx) ↔
      req.Recent env client chain listing (env.computeTxid tx) := by
  have paid (t : Transaction) (held' : client.Holds chain listing t)
      (same : env.computeTxid t = env.computeTxid tx) : t.Pays spks.contains := by
    rw [Transaction.Pays, serves.outputs t tx held' held same]
    exact pays
  constructor
  · rintro (⟨h, b, above, here, t, member, id, _⟩ | ⟨t, pending, id, _⟩)
    · exact .inl ⟨h, b, above, here, t, member, id⟩
    · exact .inr ⟨t, pending, id⟩
  · rintro (⟨h, b, above, here, t, member, id⟩ | ⟨t, pending, id⟩)
    · have inside : t ∈ chain.flatMap Block.txdata :=
        List.mem_flatMap.mpr ⟨b, List.mem_of_getElem? here, member⟩
      exact .inl ⟨h, b, above, here, t, member, id, .inl (paid t (.inl inside) id)⟩
    · exact .inr ⟨t, pending, id, .inl (paid t (.inr pending) id)⟩

/-- A full scan and the payments to the scripts of a keychain it reports as used.
    The scripts it collects hold those of every index the iterator yields no later
    than the reported one, and so of every index up to it if the indices go up. A
    transaction that pays a collected script is returned exactly when it is above the
    tip of the request or in the mempool; one that pays another script, exactly when
    it is there and pays or spends a coin of a collected one. -/
theorem full_scan_returns_iff (env : Primitives) (backend : CoreRpcBackend)
    (chain : List Block) (listing : List Txid)
    (serves : backend.client.Serves env chain listing) (req : FullScanRequest)
    (known : ∀ tip ∈ req.chainTip, OnChain chain tip.tip) (fuel : Nat) (update : Update)
    (run : backend.fullScan env fuel req = .ok (some update))
    (keychain : KeychainKind) (last : UInt32)
    (active : update.lastActiveIndices keychain = some last) (it : SpkIter)
    (iterated : req.spksByKeychain keychain = some it) :
    ∃ plan, backend.collectFullScanSpks fuel req = .ok (some plan) ∧
      (∃ m spk', it.item m = some (last, spk') ∧
        ∀ n ≤ m, ∀ i spk, it.item n = some (i, spk) → spk ∈ plan.spks) ∧
      (it.Ascending → ∀ n i spk, it.item n = some (i, spk) → i ≤ last → spk ∈ plan.spks) ∧
      ∀ tx, backend.client.Holds chain listing tx →
        (tx.Pays plan.spks.contains →
          (env.computeTxid tx ∈ update.txUpdate.txs.map env.computeTxid ↔
            req.Recent env backend.client chain listing (env.computeTxid tx))) ∧
        (env.computeTxid tx ∈ update.txUpdate.txs.map env.computeTxid ↔
          FoundAbove env chain req.startHeight plan.spks (env.computeTxid tx) ∨
            FoundPending env backend.client chain listing req.startHeight plan.spks
              (env.computeTxid tx)) := by
  simp only [CoreRpcBackend.fullScan, bind_eq_ok] at run
  obtain ⟨plan?, planned, run⟩ := run
  cases plan? with
  | none => simp [pure_ok] at run
  | some plan =>
    simp only [bind_eq_ok, pure_eq_ok, Option.some.injEq] at run
    obtain ⟨⟨txUpdate, tip⟩, scanned, rfl⟩ := run
    have collected := planned
    simp only [CoreRpcBackend.collectFullScanSpks, bind_eq_ok] at planned
    obtain ⟨probeCp, _, planned⟩ := planned
    have nothing : FullScanSpkPlan.Planned req.keychains ⟨[], fun _ => none⟩ := by
      simp [FullScanSpkPlan.Planned]
    have covered := collectKeychains_planned (fun entry member => member) nothing planned
    obtain ⟨it', member, pos, ⟨m, before, spk', item'⟩, scripts⟩ := covered keychain last active
    rw [keychains_mem, iterated, Option.some.injEq] at member
    subst member
    have watched : plan.spks ≠ [] := List.ne_nil_of_mem (scripts m before _ item')
    have started : ∃ startCp, backend.client.startCheckpoint req.chainTip = .ok startCp := by
      obtain ⟨_, _, _, answers, _⟩ := scanSpks_eq_ok watched scanned
      obtain ⟨startCp, started, _⟩ := answers.blocks
      exact ⟨startCp, started⟩
    obtain ⟨startCp, started⟩ := started
    obtain ⟨onChain, height⟩ := startCheckpoint_onChain serves known started
    have found := scanSpks_found serves started onChain watched scanned
    rw [height] at found
    refine ⟨plan, collected, ⟨m, spk', item', ?_⟩, ?_, ?_⟩
    · intro n upTo i spk item
      exact scripts n (Nat.lt_of_le_of_lt upTo before) (i, spk) item
    · intro ascending n i spk item upTo
      have early : n < pos := by
        by_contra late
        have above := ascending m n _ _ item' item (by omega)
        exact absurd upTo (UInt32.not_le.mpr above)
      exact scripts n early (i, spk) item
    · intro tx held
      refine ⟨fun pays => ?_, found _⟩
      rw [found, found_iff_recent serves held pays]

end FullScan

structure Node where
  chain : List Block
  mempool : List (Txid × Transaction)

namespace Node

variable (node : Node) (env : Primitives)

def coins (spks : List Script) : List OutPoint :=
  (node.chain.flatMap Block.txdata).flatMap (watchedOutpoints env spks.contains)

/-- The filter of a block: it has the scripts its transactions pay and those of the
    outputs they spend. -/
def filterMatches (spks : List Script) (b : Block) : Bool :=
  b.txdata.any fun tx => (tx.output.any fun o => spks.contains o.scriptPubkey) ||
    tx.input.any fun i => (node.coins env spks).contains i.previousOutput

def shown (cp : CheckPoint) (spks : List Script) : List FilterEvent :=
  (node.chain.zipIdx.drop (cp.tip.height.toNat + 1)).map fun (b, h) =>
    ⟨.new ⟨UInt32.ofNat h, b.hash⟩, if node.filterMatches env spks b then some b else none⟩

def client : CoreClient where
  getBlockHash height :=
    match node.chain[height.toNat]? with
    | some b => .ok b.hash
    | none => .error ⟨"out of range", some (-8, bytes "Block height out of range")⟩
  getBlockCount := .ok (UInt64.ofNat (node.chain.length - 1))
  filterIter cp spks := (node.shown env cp spks).map .ok
  getBlockHeaderTime hash :=
    match node.chain.find? fun b => b.hash = hash with
    | some b => .ok b.time.toUInt64
    | none => .error ⟨"not found", some (-5, bytes "Block not found")⟩
  getRawMempool := .ok (node.mempool.map Prod.fst)
  getRawTransaction txid :=
    match node.mempool.find? fun entry => entry.1 = txid with
    | some entry => .ok entry.2
    | none => .error ⟨"not found", some (-5, bytes "No such mempool transaction")⟩

variable {env}

theorem filterMatches_iff {spks : List Script} {b : Block} :
    node.filterMatches env spks b = true ↔
      ∃ tx ∈ b.txdata, tx.Touches spks (MadeIn env spks (node.chain.flatMap Block.txdata)) := by
  have coin (o : OutPoint) : (node.coins env spks).contains o = true ↔
      MadeIn env spks (node.chain.flatMap Block.txdata) o := by
    rw [List.contains_iff_mem, coins, List.mem_flatMap, MadeIn]
  simp only [filterMatches, List.any_eq_true, Bool.or_eq_true, coin]
  refine exists_congr fun tx => and_congr_right fun _ => or_congr_right ?_
  constructor
  · rintro ⟨i, input, made⟩
    exact ⟨i.previousOutput, ⟨i, input, rfl⟩, made⟩
  · rintro ⟨_, ⟨i, input, rfl⟩, made⟩
    exact ⟨i, input, made⟩

theorem mem_drop_chain {start h : Nat} {b : Block} :
    (b, h) ∈ node.chain.zipIdx.drop (start + 1) ↔ start < h ∧ node.chain[h]? = some b := by
  rw [List.mem_iff_getElem?]
  simp only [List.getElem?_drop, List.getElem?_zipIdx, Option.map_eq_some_iff, Prod.mk.injEq,
    Nat.zero_add]
  constructor
  · rintro ⟨i, _, here, rfl, rfl⟩
    exact ⟨by omega, here⟩
  · rintro ⟨above, here⟩
    rw [← Nat.add_sub_cancel' above] at here
    exact ⟨_, b, here, rfl, Nat.add_sub_cancel' above⟩

theorem height_kept (short : node.chain.length ≤ 2 ^ 32) {h : Nat} {b : Block}
    (here : node.chain[h]? = some b) : (UInt32.ofNat h).toNat = h := by
  obtain ⟨inside, _⟩ := List.getElem?_eq_some_iff.mp here
  exact UInt32.toNat_ofNat_of_lt' (Nat.lt_of_lt_of_le inside short)

theorem shown_iterates (short : node.chain.length ≤ 2 ^ 32) (cp : CheckPoint)
    (spks : List Script) :
    Iterates env node.chain cp.tip.height.toNat spks (node.shown env cp spks) where
  ordered := by
    rw [shown, List.pairwise_map]
    have heights : (node.chain.zipIdx.drop (cp.tip.height.toNat + 1)).Pairwise
        fun x y => x.2 < y.2 := by
      apply List.Pairwise.drop
      rw [List.pairwise_iff_getElem]
      intro i j inside inside' before
      simpa using before
    refine heights.imp_of_mem ?_
    rintro ⟨b, h⟩ ⟨b', h'⟩ member member' before
    have low := node.height_kept short (node.mem_drop_chain.mp member).2
    have high := node.height_kept short (node.mem_drop_chain.mp member').2
    show (UInt32.ofNat h).toNat < (UInt32.ofNat h').toNat
    rw [low, high]
    exact before
  shown e member b block := by
    obtain ⟨⟨b', h⟩, listed, rfl⟩ := List.mem_map.mp member
    obtain ⟨_, same⟩ := Option.ite_none_right_eq_some.mp block
    obtain rfl := Option.some.inj same
    obtain ⟨above, here⟩ := node.mem_drop_chain.mp listed
    have height : FilterEvent.height ⟨.new ⟨UInt32.ofNat h, b'.hash⟩,
        if node.filterMatches env spks b' then some b' else none⟩ = h :=
      node.height_kept short here
    rw [height]
    exact ⟨above, here⟩
  filters h b above here touches := by
    refine ⟨_, List.mem_map_of_mem (node.mem_drop_chain.mpr ⟨above, here⟩),
      node.height_kept short here, ?_⟩
    exact if_pos (node.filterMatches_iff.mpr touches)

theorem client_filterIter {cp : CheckPoint} {spks : List Script} {events : List FilterEvent}
    (returned : (node.client env).filterIter cp spks = events.map .ok) :
    node.shown env cp spks = events :=
  List.map_injective_iff.mpr (fun _ _ => Except.ok.inj) returned

theorem client_genesis {hash : BlockHash} (asked : (node.client env).getBlockHash 0 = .ok hash) :
    OnChain node.chain ⟨0, hash⟩ := by
  simp only [client] at asked
  split at asked
  · next b here => exact ⟨b, here, Except.ok.inj asked⟩
  · cases asked

def transactions : List Transaction :=
  node.chain.flatMap Block.txdata ++ node.mempool.map Prod.snd

theorem lookup_listed {txid : Txid} {tx : Transaction}
    (held : (node.client env).getRawTransaction txid = .ok tx) : (txid, tx) ∈ node.mempool := by
  simp only [client] at held
  split at held
  · next entry here =>
    obtain rfl := Except.ok.inj held
    obtain rfl : entry.1 = txid := by simpa using List.find?_some here
    exact List.mem_of_find?_eq_some here
  · cases held

theorem client_serves (short : node.chain.length ≤ 2 ^ 32)
    (ids : ∀ entry ∈ node.mempool, env.computeTxid entry.2 = entry.1)
    (commits : ∀ tx ∈ node.transactions, ∀ tx' ∈ node.transactions,
      env.computeTxid tx = env.computeTxid tx' → tx.output = tx'.output) :
    (node.client env).Serves env node.chain (node.mempool.map Prod.fst) where
  genesis _ := node.client_genesis
  iterates cp spks events _ returned := by
    obtain rfl := node.client_filterIter returned
    exact node.shown_iterates short cp spks
  mempool := rfl
  lookups txid _ tx held := ids _ (node.lookup_listed held)
  outputs tx tx' held held' same := by
    have listed : ∀ t, (node.client env).Holds node.chain (node.mempool.map Prod.fst) t →
        t ∈ node.transactions := by
      rintro t (onChain | ⟨txid, _, found⟩)
      · exact List.mem_append_left _ onChain
      · exact List.mem_append_right _ (List.mem_map.mpr ⟨_, node.lookup_listed found, rfl⟩)
    exact commits tx (listed tx held) tx' (listed tx' held') same

end Node

namespace Sample

def scannedNode : Node where
  chain := [⟨blockHash 0, 1700000000, []⟩, ⟨blockHash 1, 1700000600, [deposit]⟩]
  mempool := [(refundTxid, refund)]

def scannedTip : CheckPoint where
  entries := [⟨1, blockHash 1⟩, ⟨0, blockHash 0⟩]
  nonempty := by decide
  descending := by decide

def receiveIter : SpkIter := .ofList [(0, p2wshScript receiveHash), (1, recipientScript)]

def scanRequest (chainTip : Option CheckPoint) : FullScanRequest where
  startTime := 1700001200
  chainTip := chainTip
  spksByKeychain
    | .external => some receiveIter
    | .internal => none

def scanBackend : CoreRpcBackend := .connect (scannedNode.client mempoolEnv) 20

theorem scannedNode_serves :
    (scannedNode.client mempoolEnv).Serves mempoolEnv scannedNode.chain [refundTxid] :=
  scannedNode.client_serves (by decide) (by decide) (by decide)

theorem scanRequest_ascending (chainTip : Option CheckPoint) (keychain : KeychainKind)
    (it : SpkIter) (iterated : (scanRequest chainTip).spksByKeychain keychain = some it) :
    it.Ascending := by
  cases keychain with
  | internal => cases iterated
  | external =>
    obtain rfl := Option.some.inj iterated
    intro n m entry entry' item item' before
    obtain ⟨_, rfl⟩ := List.getElem?_eq_some_iff.mp item
    obtain ⟨bound, rfl⟩ := List.getElem?_eq_some_iff.mp item'
    have short : m < 2 := bound
    obtain rfl : n = 0 := by omega
    obtain rfl : m = 1 := by omega
    exact (by decide : (0 : UInt32) < 1)

theorem scan_from_start :
    ((scanBackend.fullScan mempoolEnv 5 (scanRequest none)).toOption.join.map fun update =>
      (update.lastActiveIndices .external, update.txUpdate.txs)) =
    some (some 0, [deposit, refund]) := by
  decide

theorem scan_from_tip :
    ((scanBackend.fullScan mempoolEnv 5 (scanRequest (some scannedTip))).toOption.join.map
      fun update => (update.lastActiveIndices .external, update.txUpdate.txs)) =
    some (some 0, [refund]) := by
  decide

end Sample

/-- From the first block on, the confirmed deposit is returned. -/
theorem full_scan_returns_sample : ∃ update,
    Sample.scanBackend.fullScan Sample.mempoolEnv 5 (Sample.scanRequest none) =
      .ok (some update) ∧
    update.lastActiveIndices .external = some 0 ∧
    Sample.mempoolEnv.computeTxid Sample.deposit ∈
      update.txUpdate.txs.map Sample.mempoolEnv.computeTxid := by
  obtain ⟨update, finished, seen⟩ := Option.map_eq_some_iff.mp Sample.scan_from_start
  have run := toOption_eq_some.mp (Option.join_eq_some_iff.mp finished)
  have active : update.lastActiveIndices .external = some 0 := congrArg Prod.fst seen
  obtain ⟨plan, _, _, collected, returned⟩ := full_scan_returns_iff Sample.mempoolEnv
    Sample.scanBackend Sample.scannedNode.chain [Sample.refundTxid] Sample.scannedNode_serves
    (Sample.scanRequest none) (by simp [Sample.scanRequest]) 5 update run .external 0 active
    Sample.receiveIter rfl
  have watched := collected (Sample.scanRequest_ascending none .external _ rfl) 0 0 _ rfl
    (by decide)
  refine ⟨update, run, active, ((returned Sample.deposit (.inl (by decide))).1
    ⟨_, List.mem_singleton_self _, List.contains_iff_mem.mpr watched⟩).mpr ?_⟩
  exact .inl ⟨1, _, by decide, rfl, _, List.mem_singleton_self _, rfl⟩

/-- From the tip on, the deposit makes index zero active and is not returned. -/
theorem full_scan_skips_confirmed : ∃ update b,
    (Sample.scannedNode.client Sample.mempoolEnv).Serves Sample.mempoolEnv
      Sample.scannedNode.chain [Sample.refundTxid] ∧
    OnChain Sample.scannedNode.chain Sample.scannedTip.tip ∧
    Sample.receiveIter.Ascending ∧
    Sample.scanBackend.fullScan Sample.mempoolEnv 5 (Sample.scanRequest (some Sample.scannedTip)) =
      .ok (some update) ∧
    update.lastActiveIndices .external = some 0 ∧
    Sample.receiveIter.item 0 = some (0, p2wshScript Sample.receiveHash) ∧
    Sample.scannedNode.chain[1]? = some b ∧ Sample.deposit ∈ b.txdata ∧
    (∃ out ∈ Sample.deposit.output, out.scriptPubkey = p2wshScript Sample.receiveHash) ∧
    Sample.mempoolEnv.computeTxid Sample.deposit ∉
      update.txUpdate.txs.map Sample.mempoolEnv.computeTxid := by
  obtain ⟨update, finished, seen⟩ := Option.map_eq_some_iff.mp Sample.scan_from_tip
  have run := toOption_eq_some.mp (Option.join_eq_some_iff.mp finished)
  have txs : update.txUpdate.txs = [Sample.refund] := congrArg Prod.snd seen
  refine ⟨update, _, Sample.scannedNode_serves, ⟨_, rfl, rfl⟩,
    Sample.scanRequest_ascending none .external _ rfl, run, congrArg Prod.fst seen, rfl, rfl,
    List.mem_singleton_self _, ⟨_, List.mem_singleton_self _, rfl⟩, ?_⟩
  rw [txs]
  decide

end Trinity
