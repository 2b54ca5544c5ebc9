import Trinity.Watch.BuiltPsbt

/-!
What `create_tx` builds: the coins it spends, what it pays and the fee that is
left, for any random words.
-/
namespace Trinity.Watch

open Outcome Word Shuffle KeychainTxOutIndex

theorem shuffleSlice_perm {α : Type} (list : List α) (rng : Draws) :
    (shuffleSlice list rng).1.Perm list := knuth_perm rng _ list

theorem sortTxWithAuxRand_perm (tx : Transaction) (rng : Draws) :
    (sortTxWithAuxRand tx rng).input.Perm tx.input ∧
      (sortTxWithAuxRand tx rng).output.Perm tx.output :=
  ⟨shuffleSlice_perm _ _, shuffleSlice_perm _ _⟩

theorem addRecipients_eq_ok {recipients : List (Script × UInt64)} {index : Nat}
    {outgoing total : UInt64} {outputs : List TxOut}
    (run : addRecipients recipients index outgoing = .ok (outputs, total)) :
    outputs = recipients.map (fun r => ⟨r.2, r.1⟩) ∧
      total.toNat = outgoing.toNat + exactSum (outputs.map TxOut.value) := by
  induction recipients generalizing index outgoing outputs with
  | nil =>
    obtain ⟨rfl, rfl⟩ : [] = outputs ∧ outgoing = total := by
      simpa [addRecipients] using run
    simp [exactSum]
  | cons r rest ih =>
    simp only [addRecipients, bind_eq_ok, pure_eq_ok, plus_eq_ok] at run
    obtain ⟨_, _, more, isMore, later, isLater, same⟩ := run
    obtain ⟨rfl, rfl⟩ : ⟨r.2, r.1⟩ :: later.1 = outputs ∧ later.2 = total := by simpa using same
    obtain ⟨outputs, sum⟩ := ih isLater
    rw [List.map_cons, ← outputs]
    refine ⟨rfl, ?_⟩
    simp only [List.map_cons, exactSum, List.sum_cons] at sum ⊢
    omega

theorem serializedLen_p2wsh (hash : BitVec 256) : serializedLen (p2wshScript hash) = 35 := by
  simp [serializedLen, p2wshScript, beBytes_length, varIntSize]

theorem minimalNonDust_p2wsh (hash : BitVec 256) :
    (minimalNonDust (p2wshScript hash)).toNat = 330 := by
  have version : (p2wshScript hash).witnessVersion = some 0 := by
    unfold Script.witnessVersion p2wshScript
    simp only [List.length_cons, beBytes_length]
    decide
  have plain : isOpReturn (p2wshScript hash) = false := by simp [isOpReturn, p2wshScript]
  rw [minimalNonDust, plain, version, serializedLen_p2wsh]
  decide

theorem mulFeeRate_zero (weight : UInt64) : mulFeeRate weight 0 = 0 := by
  rw [mulFeeRate, UInt64.zero_mul]
  rfl

def Excess.toFee : Excess → ℕ
  | .noChange _ remainingAmount _ => remainingAmount.toNat
  | .change _ fee => fee.toNat

theorem Excess.toFee_add (excess : Excess) (drainScript : Script) :
    exactSum ((excess.drainOutput drainScript).map TxOut.value) + excess.toFee = excess.total := by
  cases excess with
  | noChange => simp [drainOutput, toFee, total, exactSum]
  | change => simp [drainOutput, toFee, total, exactSum]

theorem Excess.drainOutput_cases (excess : Excess) (drainScript : Script) :
    excess.drainOutput drainScript = [] ∨
      ∃ amount, excess.drainOutput drainScript = [⟨amount, drainScript⟩] := by
  cases excess with
  | noChange => exact .inl rfl
  | change amount fee => exact .inr ⟨amount, rfl⟩

theorem excessOf_split {excess : Excess} {remaining feeRate : UInt64} {drainScript : Script}
    (dust : (minimalNonDust drainScript).toNat = 330)
    (decided : excess = excessOf remaining feeRate drainScript) :
    excess.drainOutput drainScript = [] ∧
        excess.toFee < (changeFee feeRate drainScript).toNat + 330 ∨
      (∃ amount, excess.drainOutput drainScript = [⟨amount, drainScript⟩] ∧ 330 ≤ amount.toNat) ∧
        excess.toFee = (changeFee feeRate drainScript).toNat := by
  cases excess with
  | noChange threshold left fee =>
    obtain ⟨_, low⟩ := excessOf_left decided.symm
    rw [dust] at low
    exact .inl ⟨rfl, low⟩
  | change amount fee =>
    obtain ⟨high, rfl⟩ := excessOf_change decided.symm
    rw [UInt64.le_iff_toNat_le, dust] at high
    exact .inr ⟨⟨amount, rfl, high⟩, rfl⟩

namespace Wallet

def baseTx (params : TxParams) : Transaction :=
  ⟨2, params.currentHeight, [], params.recipients.map fun r => ⟨r.2, r.1⟩⟩

def selectedTx (params : TxParams) (drainScript : Script) (r : CoinSelectionResult) :
    Transaction :=
  { baseTx params with
    input := r.selected.map fun u => ⟨u.outpoint, [], params.sequence, []⟩
    output := (baseTx params).output ++ r.excess.drainOutput drainScript }

/-- The weight the fee is reckoned for. -/
def estimatedWeight (params : TxParams) (coins : List LocalOutput) (change : List TxOut) : ℕ :=
  (baseTx params).weight + coins.length * (segwitWeight + maxWeightToSatisfy).toNat +
    (change.map fun o => 4 * o.size).sum

structure Builds (env : Primitives) (w : Wallet) (params : TxParams) (coins : List LocalOutput)
    (change : List TxOut) (psbt : Psbt) (w' : Wallet) : Prop where
  version : psbt.unsignedTx.version = 2
  lockTime : psbt.unsignedTx.lockTime = params.currentHeight
  input : psbt.unsignedTx.input = coins.map fun u => ⟨u.outpoint, [], params.sequence, []⟩
  output : psbt.unsignedTx.output.Perm (params.recipients.map (fun r => ⟨r.2, r.1⟩) ++ change)
  inputs : psbt.inputs = coins.map w.builtInput
  outputs : psbt.outputs = psbt.unsignedTx.output.map w.builtOutput
  proprietary : psbt.proprietary = []
  mature : ∃ unspents, (w.filterChainUnspents env : Outcome CreateTxError _) = .ok unspents ∧
    ∀ u ∈ coins, ∃ e ∈ unspents,
      e.2.isMature params.currentHeight = true ∧ u = newLocalUtxo e.1 e.2
  distinct : (coins.map (·.outpoint)).Nodup
  change : change = [] ∧ w' = w ∨ ∃ i amount index, change = [⟨amount, w.derive .internal i⟩] ∧
    330 ≤ amount.toNat ∧ ¬ w.index.Taken ⟨.internal, i⟩ ∧
    i.toNat ≤ w.index.nextReveal .internal ∧ w' = { w with index } ∧
    Advances w.derive w.index index ∧ index.Taken ⟨.internal, i⟩

structure PaysFee (params : TxParams) (coins : List LocalOutput) (change : List TxOut) (fee : ℕ) :
    Prop where
  balance : exactSum (coins.map (·.txout.value)) =
    exactSum (params.recipients.map (·.2)) + exactSum (change.map TxOut.value) + fee
  amount : ∀ asked, params.feePolicy = .feeAmount asked → asked.toNat ≤ fee ∧
    (change = [] → fee < asked.toNat + 330) ∧ (change ≠ [] → fee = asked.toNat)
  rate : ∀ rate, params.feePolicy = .feeRate rate →
    rate.toNat * (estimatedWeight params coins change + 172) + 999 < 2 ^ 64 →
      rate.toNat * estimatedWeight params coins change ≤ 1000 * fee ∧
      (change ≠ [] → 1000 * fee ≤
        rate.toNat * estimatedWeight params coins change + 999 * (coins.length + 3)) ∧
      (change = [] → 1000 * fee ≤
        rate.toNat * (estimatedWeight params coins change + 172) + 999 * (coins.length + 2) +
          330000)

variable {env : Primitives} {order : ValueOrder} {w w' : Wallet} {params : TxParams} {rng : Draws}
  {psbt : Psbt}

structure Steps (env : Primitives) (order : ValueOrder) (w : Wallet) (params : TxParams)
    (rng : Draws) (outgoing feeAmount target : UInt64) (optional : List WeightedUtxo) (i : UInt32)
    (drainScript : Script) (r : CoinSelectionResult) (rng' : Draws) (psbt : Psbt)
    (index : KeychainTxOutIndex) : Prop where
  recipients : addRecipients params.recipients 0 0 = .ok ((baseTx params).output, outgoing)
  fee : feeAmount.toNat = params.feePolicy.amount.toNat +
    (mulFeeRate (.ofNat (baseTx params).weight) params.feePolicy.rate).toNat
  listed : (w.filterUtxos env params.currentHeight : Outcome CreateTxError _) = .ok optional
  drain : (w.index.drainSpk w.derive : Outcome CreateTxError _) = .ok (i, drainScript)
  reach : target.toNat = outgoing.toNat + feeAmount.toNat
  select : coinSelect order [] optional params.feePolicy.rate target drainScript rng =
    .ok (r, rng')
  complete : w.completeTransaction env (sortTxWithAuxRand (selectedTx params drainScript r) rng')
    r.selected params.addGlobalXpubs = .ok psbt
  record : w.recordExcess r.excess i = .ok index

theorem createTx_eq_ok (run : w.createTx env order params rng = .ok (psbt, w')) :
    ∃ outgoing feeAmount target optional i drainScript r rng' index,
      Steps env order w params rng outgoing feeAmount target optional i drainScript r rng' psbt
        index ∧ w' = { w with index } := by
  simp only [createTx, bind_eq_ok, pure_eq_ok, mapErr_eq_ok, rejectIf_eq_ok, plus_eq_ok] at run
  obtain ⟨⟨outputs, outgoing⟩, recipients, feeAmount, fee, optional, listed, ⟨i, drainScript⟩,
    drain, target, isTarget, ⟨r, rng'⟩, select, _, _, psbt', complete, index, record,
    same⟩ := run
  obtain ⟨rfl, rfl⟩ : psbt' = psbt ∧ { w with index } = w' := by simpa using same
  obtain ⟨rfl, _⟩ := addRecipients_eq_ok recipients
  exact ⟨outgoing, feeAmount, target, optional, i, drainScript, r, rng', index,
    ⟨recipients, fee, listed, drain, isTarget, select, complete, record⟩, rfl⟩

section Selection

variable {outgoing feeAmount target : UInt64} {i : UInt32} {drainScript : Script}
  {r : CoinSelectionResult} {rng' : Draws} {index : KeychainTxOutIndex}
  {optional taken : List WeightedUtxo}

theorem Consistent.drain (consistent : w.Consistent env)
    (drain : (w.index.drainSpk w.derive : Outcome CreateTxError _) = .ok (i, drainScript)) :
    drainScript = w.derive .internal i ∧ (minimalNonDust drainScript).toNat = 330 ∧
      serializedLen drainScript = 35 := by
  obtain ⟨_, rfl, _⟩ := drainSpk_ok consistent.indexed drain
  obtain ⟨hash, same⟩ := consistent.p2wsh .internal i
  rw [same]
  exact ⟨rfl, minimalNonDust_p2wsh hash, serializedLen_p2wsh hash⟩

theorem Consistent.selected_coins (consistent : w.Consistent env)
    (listed : (w.filterUtxos env params.currentHeight : Outcome CreateTxError _) = .ok optional)
    (selects : Selects [] optional params.feePolicy.rate target drainScript taken r)
    {coins : List LocalOutput} (perm : coins.Perm r.selected) :
    (∃ unspents, (w.filterChainUnspents env : Outcome CreateTxError _) = .ok unspents ∧
      ∀ u ∈ coins, ∃ e ∈ unspents,
        e.2.isMature params.currentHeight = true ∧ u = newLocalUtxo e.1 e.2) ∧
    (coins.map (·.outpoint)).Nodup ∧
    exactSum (coins.map (·.txout.value)) = worthOf taken ∧ coins.length = taken.length ∧
    weightOf taken = coins.length * (segwitWeight + maxWeightToSatisfy).toNat := by
  have selected : r.selected = taken.map (·.utxo) := by simpa using selects.selected
  rw [selected] at perm
  have distinct := consistent.utxos_distinct listed
  obtain ⟨unspents, found, rfl⟩ := filterUtxos_eq_ok.mp listed
  have made : ∀ t ∈ taken, ∃ e ∈ unspents, e.2.isMature params.currentHeight = true ∧
      t = ⟨maxWeightToSatisfy, newLocalUtxo e.1 e.2⟩ := by
    intro t member
    obtain ⟨e, unspent, isCoin⟩ := List.mem_filterMap.mp (selects.subset.subset member)
    exact ⟨e, unspent, matureUtxo_eq_some.mp isCoin⟩
  have length : coins.length = taken.length := by rw [perm.length_eq, List.length_map]
  refine ⟨⟨unspents, found, ?_⟩, ?_, ?_, length, ?_⟩
  · intro u member
    obtain ⟨t, isTaken, rfl⟩ := List.mem_map.mp (perm.mem_iff.mp member)
    obtain ⟨e, unspent, mature, rfl⟩ := made t isTaken
    exact ⟨e, unspent, mature, rfl⟩
  · obtain ⟨sorted, order, sublist⟩ := selects.subset
    have outpoints := (perm.map (·.outpoint)).trans
      ((order.symm.map (·.utxo)).map (·.outpoint))
    rw [outpoints.nodup_iff, List.map_map]
    exact (sublist.map _).nodup distinct
  · have values := ((perm.map (·.txout.value)).map UInt64.toNat).sum_eq
    rw [exactSum, values, worthOf, exactSum]
    simp only [List.map_map]
    rfl
  · rw [length, weightOf,
      List.map_congr_left (g := fun _ => (segwitWeight + maxWeightToSatisfy).toNat),
      List.map_const', List.sum_replicate, smul_eq_mul]
    intro t isTaken
    obtain ⟨e, _, _, rfl⟩ := made t isTaken
    rfl

theorem Consistent.mature_held (consistent : w.Consistent env) {coins : List LocalOutput}
    (mature : ∃ unspents, (w.filterChainUnspents env : Outcome CreateTxError _) = .ok unspents ∧
      ∀ u ∈ coins, ∃ e ∈ unspents,
        e.2.isMature params.currentHeight = true ∧ u = newLocalUtxo e.1 e.2) :
    ∀ u ∈ coins, w.Holds u := by
  intro u member
  obtain ⟨unspents, listed, each⟩ := mature
  obtain ⟨e, unspent, _, rfl⟩ := each u member
  exact (consistent.unspents_held listed unspent).2

theorem selects_fee {feeRate : UInt64}
    (selects : Selects [] optional feeRate target drainScript taken r)
    (fits : feeRate.toNat * weightOf taken + 999 < 2 ^ 64) :
    feeRate.toNat * weightOf taken ≤ 1000 * r.feeAmount.toNat ∧
      1000 * r.feeAmount.toNat ≤ feeRate.toNat * weightOf taken + 999 * (taken.length + 1) := by
  have covers := exactFee_covers feeRate (weightOf taken)
  rcases selects.fee with single | each
  · rw [single, List.nil_append, mulFeeRate_toNat fits]
    have close := exactFee_le feeRate (weightOf taken)
    omega
  · obtain ⟨low, high⟩ := feesOf_bounds fits
    rw [each, List.nil_append]
    omega

theorem selects_fee_zero (selects : Selects [] optional 0 target drainScript taken r) :
    r.feeAmount.toNat = 0 := by
  rcases selects.fee with single | each
  · rw [single, mulFeeRate_zero]
    rfl
  · rw [each, List.nil_append, feesOf, exactSum]
    simp [mulFeeRate_zero]

theorem Steps.fee_of_amount (consistent : w.Consistent env)
    (steps : Steps env order w params rng outgoing feeAmount target optional i drainScript r rng'
      psbt index) (selects : Selects [] optional params.feePolicy.rate target drainScript taken r)
    {asked : UInt64} (policy : params.feePolicy = .feeAmount asked) :
    feeAmount.toNat + r.feeAmount.toNat = asked.toNat ∧
      (r.excess.drainOutput drainScript = [] → r.excess.toFee < 330) ∧
      (r.excess.drainOutput drainScript ≠ [] → r.excess.toFee = 0) := by
  have rate : params.feePolicy.rate = 0 := by rw [policy]; rfl
  have amount : params.feePolicy.amount = asked := by rw [policy]; rfl
  have fee := steps.fee
  rw [rate] at selects fee
  rw [amount, mulFeeRate_zero, UInt64.toNat_zero] at fee
  have free := selects_fee_zero selects
  obtain ⟨remaining, _, excess⟩ := selects.balance
  have split := excessOf_split (consistent.drain steps.drain).2.1 excess
  rw [changeFee, mulFeeRate_zero, UInt64.toNat_zero] at split
  rcases split with ⟨none, low⟩ | ⟨⟨change, paid, _⟩, same⟩
  · exact ⟨by omega, fun _ => by omega, fun some => absurd none some⟩
  · exact ⟨by omega, fun none => by simp [paid] at none, fun _ => same⟩

theorem Steps.fee_of_rate (consistent : w.Consistent env)
    (steps : Steps env order w params rng outgoing feeAmount target optional i drainScript r rng'
      psbt index) (selects : Selects [] optional params.feePolicy.rate target drainScript taken r)
    {rate : UInt64} (policy : params.feePolicy = .feeRate rate)
    (fits : rate.toNat * ((baseTx params).weight + weightOf taken + 172) + 999 < 2 ^ 64) :
    rate.toNat * ((baseTx params).weight + weightOf taken) ≤
        1000 * (feeAmount.toNat + r.feeAmount.toNat) ∧
      1000 * (feeAmount.toNat + r.feeAmount.toNat) ≤
        rate.toNat * ((baseTx params).weight + weightOf taken) + 999 * (taken.length + 2) ∧
      (r.excess.drainOutput drainScript = [] → 1000 * r.excess.toFee ≤ rate.toNat * 172 + 330000) ∧
      (r.excess.drainOutput drainScript ≠ [] → rate.toNat * 172 ≤ 1000 * r.excess.toFee ∧
        1000 * r.excess.toFee ≤ rate.toNat * 172 + 999) := by
  have isRate : params.feePolicy.rate = rate := by rw [policy]; rfl
  have amount : params.feePolicy.amount = 0 := by rw [policy]; rfl
  rw [Nat.mul_add, Nat.mul_add] at fits
  have fee := steps.fee
  rw [isRate] at selects fee
  rw [amount, UInt64.toNat_zero, mulFeeRate_toNat (by omega)] at fee
  have base := exactFee_covers rate (baseTx params).weight
  have base' := exactFee_le rate (baseTx params).weight
  obtain ⟨low, high⟩ := selects_fee selects (by omega)
  obtain ⟨_, dust, size⟩ := consistent.drain steps.drain
  obtain ⟨remaining, _, excess⟩ := selects.balance
  have split := excessOf_split dust excess
  have cost : (changeFee rate drainScript).toNat = exactFee rate 172 := by
    have weight : 4 * (serializedLen drainScript + 8) = 172 := by omega
    rw [changeFee_toNat (by rw [weight]; omega), weight]
  have paid := exactFee_covers rate 172
  have paid' := exactFee_le rate 172
  rw [cost] at split
  rw [Nat.mul_add]
  refine ⟨by omega, by omega, ?_, ?_⟩
  · intro none
    rcases split with ⟨_, low⟩ | ⟨⟨change, some, _⟩, _⟩
    · omega
    · simp [some] at none
  · intro some
    rcases split with ⟨none, _⟩ | ⟨_, same⟩
    · exact absurd none some
    · omega

theorem Steps.paysFee (consistent : w.Consistent env)
    (steps : Steps env order w params rng outgoing feeAmount target optional i drainScript r rng'
      psbt index) (selects : Selects [] optional params.feePolicy.rate target drainScript taken r)
    {coins : List LocalOutput} (perm : coins.Perm r.selected) :
    PaysFee params coins (r.excess.drainOutput drainScript)
      (feeAmount.toNat + r.feeAmount.toNat + r.excess.toFee) := by
  obtain ⟨_, _, worth, length, weight⟩ := consistent.selected_coins steps.listed selects perm
  obtain ⟨_, dust, size⟩ := consistent.drain steps.drain
  constructor
  case balance =>
    obtain ⟨remaining, balance, excess⟩ := selects.balance
    have limit : 0 < minimalNonDust drainScript := by
      rw [UInt64.lt_iff_toNat_lt, dust]
      decide
    have total : r.excess.total = remaining.toNat := by rw [excess, excessOf_total limit]
    have kept := r.excess.toFee_add drainScript
    have sent := (addRecipients_eq_ok steps.recipients).2
    have values : exactSum ((baseTx params).output.map TxOut.value) =
        exactSum (params.recipients.map (·.2)) := by
      simp [baseTx, exactSum, Function.comp_def]
    have reach := steps.reach
    rw [List.nil_append] at balance
    rw [values, UInt64.toNat_zero] at sent
    omega
  case amount =>
    intro asked policy
    obtain ⟨exact, none, some⟩ := steps.fee_of_amount consistent selects policy
    refine ⟨by omega, fun empty => ?_, fun paid => ?_⟩
    · have := none empty
      omega
    · have := some paid
      omega
  case rate =>
    intro rate policy fits
    have estimate : estimatedWeight params coins (r.excess.drainOutput drainScript) =
        (baseTx params).weight + weightOf taken +
          ((r.excess.drainOutput drainScript).map fun o => 4 * o.size).sum := by
      rw [estimatedWeight, weight]
    have product := Nat.mul_add rate.toNat ((baseTx params).weight + weightOf taken)
    have more := Nat.mul_le_mul_left rate.toNat
      (show (baseTx params).weight + weightOf taken + 172 ≤
        estimatedWeight params coins (r.excess.drainOutput drainScript) + 172 by omega)
    obtain ⟨low, high, none, some⟩ := steps.fee_of_rate consistent selects policy (by omega)
    rw [length]
    rcases r.excess.drainOutput_cases drainScript with empty | ⟨amount, paid⟩
    · have left := none empty
      rw [empty, List.map_nil, List.sum_nil, Nat.add_zero] at estimate
      rw [empty, estimate, product]
      exact ⟨by omega, fun some => absurd rfl some, fun _ => by omega⟩
    · have cost := some (by simp [paid])
      have weight : (([⟨amount, drainScript⟩] : List TxOut).map fun o => 4 * o.size).sum = 172 := by
        simp only [List.map_cons, List.map_nil, List.sum_cons, List.sum_nil, TxOut.size]
        unfold serializedLen at size
        omega
      rw [paid, weight] at estimate
      rw [paid, estimate, product]
      exact ⟨by omega, fun _ => by omega, fun none => by simp at none⟩

theorem Steps.builds (consistent : w.Consistent env)
    (steps : Steps env order w params rng outgoing feeAmount target optional i drainScript r rng'
      psbt index) (selects : Selects [] optional params.feePolicy.rate target drainScript taken r) :
    ∃ coins, coins.Perm r.selected ∧
      Builds env w params coins (r.excess.drainOutput drainScript) psbt { w with index } := by
  obtain ⟨inputPerm, outputPerm⟩ := sortTxWithAuxRand_perm (selectedTx params drainScript r) rng'
  obtain ⟨coins, perm, input⟩ := exists_map_of_perm inputPerm
  obtain ⟨mature, distinct, _⟩ := consistent.selected_coins steps.listed selects perm
  obtain ⟨other, complete⟩ := consistent.completeTransaction (consistent.mature_held mature)
    perm.symm distinct input params.addGlobalXpubs
  obtain rfl := Except.ok.inj (complete.symm.trans steps.complete)
  obtain ⟨isDrain, dust, _⟩ := consistent.drain steps.drain
  obtain ⟨untaken, _, reached⟩ := drainSpk_ok consistent.indexed steps.drain
  refine ⟨coins, perm, rfl, rfl, input, outputPerm, rfl, rfl, rfl, mature, distinct, ?_⟩
  obtain ⟨remaining, _, excess⟩ := selects.balance
  have record := steps.record
  cases found : r.excess with
  | noChange threshold left fee =>
    rw [found] at record
    obtain rfl : w.index = index := Except.ok.inj record
    exact .inl ⟨rfl, rfl⟩
  | change amount fee =>
    rw [found] at record excess
    obtain ⟨high, _⟩ := excessOf_change excess.symm
    rw [UInt64.le_iff_toNat_le, dust] at high
    obtain ⟨advances, isTaken⟩ := recordChange_ok consistent.indexed consistent.distinct record
    exact .inr ⟨i, amount, index, by rw [Excess.drainOutput, isDrain], high, untaken, reached, rfl,
      advances, isTaken⟩

end Selection

theorem createTx_builds (consistent : w.Consistent env)
    (supply : ∀ optional, (w.filterUtxos env params.currentHeight : Outcome CreateTxError _) =
      .ok optional → worthOf optional ≤ maxMoney)
    (run : w.createTx env order params rng = .ok (psbt, w')) :
    ∃ coins change fee, Builds env w params coins change psbt w' ∧
      PaysFee params coins change fee ∧ exactSum (coins.map (·.txout.value)) ≤ maxMoney := by
  obtain ⟨outgoing, feeAmount, target, optional, i, drainScript, r, rng', index, steps, rfl⟩ :=
    createTx_eq_ok run
  have supply := supply optional steps.listed
  have size := (consistent.drain steps.drain).2.2
  obtain ⟨taken, selects⟩ := coinSelect_selects (by simpa using supply) (by omega) steps.select
  obtain ⟨coins, perm, builds⟩ := steps.builds consistent selects
  refine ⟨coins, _, _, builds, steps.paysFee consistent selects perm, ?_⟩
  rw [(consistent.selected_coins steps.listed selects perm).2.2.1]
  exact (worthOf_le_of_subperm selects.subset).trans supply

end Wallet

end Trinity.Watch
