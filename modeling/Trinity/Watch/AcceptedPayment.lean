import Trinity.Verify.Completeness
import Trinity.Watch.ReachableWallets

/-!
What the wallet builds, the verifier of the signing side accepts. The two derive
scripts and read transactions on their own; if they agree on the descriptors, the
verdict on a built payment is decided by the fee limits and the number of inputs
alone, and names the recipient, the amount, the change and the fee.
-/
namespace Trinity.Watch

open Outcome Word KeychainTxOutIndex

structure FeeAllowed (policy : VerifyPolicy) (tx : Transaction) (fee : UInt64) : Prop where
  positive : fee ≠ 0
  absolute : fee ≤ policy.maxAbsoluteFee
  pinned : ∀ pinned, policy.declaredFeeSats = some pinned → fee = pinned
  rate : feerate fee (max tx.vsize 1) ≤ policy.maxFeerate

/-- The verifier's policy is about this wallet: its descriptors derive the wallet's
    scripts below the limit, and all places in use lie there. -/
structure Describes (env : Primitives) (w : Wallet) (policy : VerifyPolicy) (descriptor : Str)
    (receive change : ParsedDescriptor) : Prop where
  parsed : parse env descriptor = .ok receive
  parsedChange : parseChange env policy.changeDescriptor = .ok (some change)
  children : ∀ key ∈ receive.keys, DerivesChildren env key policy.gapLimit
  changeChildren : ∀ key ∈ change.keys, DerivesChildren env key policy.gapLimit
  fingerprints : (change.keys.map KeyExpr.fingerprint).Nodup
  external : ∀ i, i < policy.gapLimit → DerivedAt env receive (w.derive .external i) i
  internal : ∀ i, i < policy.gapLimit → DerivedAt env change (w.derive .internal i) i
  entries : ∀ i, i < policy.gapLimit →
    HonestEntries env change i ⟨(w.definite .internal i).bip32Derivation, [], []⟩
  known : ∀ coins, (w.listUnspent env : Outcome CreateTxError _) = .ok coins →
    ∀ u ∈ coins, policy.knownUtxos.get? u.outpoint = some u.txout
  places : ∀ coins, (w.listUnspent env : Outcome CreateTxError _) = .ok coins →
    ∀ u ∈ coins, u.derivationIndex < policy.gapLimit
  revealed : w.index.nextReveal .internal < policy.gapLimit.toNat
  limit : policy.gapLimit.toNat ≤ bip32MaxIndex

/-- The policy declares the payment, and no change address reads like the recipient. -/
structure Declares (env : Primitives) (w : Wallet) (policy : VerifyPolicy) (recipient : Str)
    (script : Script) (amount : UInt64) : Prop where
  recipients : policy.declaredRecipients = [recipient]
  amount : policy.declaredAmountSats = amount
  address : script.hasAddress = true
  printed : eqIgnoreAsciiCase (env.addressToString policy.network script) recipient = true
  apart : ∀ i, eqIgnoreAsciiCase (env.addressToString policy.network (w.derive .internal i))
    recipient = false

variable {env : Primitives} {w w' : Wallet} {policy : VerifyPolicy} {descriptor : Str}
  {receive change : ParsedDescriptor} {params : TxParams} {coins : List LocalOutput}
  {back : List TxOut} {psbt : Psbt} {recipient : Str} {script : Script} {amount : UInt64}

theorem Declares.paysRecipient (declares : Declares env w policy recipient script amount)
    (value : UInt64) : PaysRecipient env policy ⟨value, script⟩ :=
  ⟨declares.address, recipient, by rw [declares.recipients]; exact List.mem_singleton_self _,
    declares.printed⟩

theorem Declares.not_paysRecipient (declares : Declares env w policy recipient script amount)
    (value : UInt64) (i : UInt32) : ¬ PaysRecipient env policy ⟨value, w.derive .internal i⟩ := by
  intro pays
  obtain ⟨_, r, member, printed⟩ := pays
  rw [declares.recipients, List.mem_singleton] at member
  subst member
  have apart := declares.apart i
  simp only at printed
  rw [printed] at apart
  contradiction

theorem forall₂_zipIdx_map {α β γ : Type} {R : β × ℕ → γ → Prop} {g : α → β} {f : α → γ}
    (each : ∀ a n, R (g a, n) (f a)) {l : List α} {n : ℕ} :
    List.Forall₂ R ((l.map g).zipIdx n) (l.map f) := by
  induction l generalizing n with
  | nil => exact .nil
  | cons a rest ih => exact .cons (each a n) ih

namespace Wallet

theorem Builds.unspent (builds : Builds env w params coins back psbt w') {u : LocalOutput}
    (member : u ∈ coins) :
    ∃ listed, (w.listUnspent env : Outcome CreateTxError _) = .ok listed ∧ u ∈ listed := by
  obtain ⟨unspents, listed, each⟩ := builds.mature
  obtain ⟨e, unspent, _, rfl⟩ := each u member
  refine ⟨unspents.map fun txo => newLocalUtxo txo.1 txo.2, ?_,
    List.mem_map_of_mem (f := fun txo => newLocalUtxo txo.1 txo.2) unspent⟩
  rw [listUnspent, listed, bind_ok, pure_ok]

theorem Builds.spentValue (builds : Builds env w params coins back psbt w')
    (describes : Describes env w policy descriptor receive change) :
    spentValue policy psbt.unsignedTx = exactSum (coins.map (·.txout.value)) := by
  rw [Trinity.spentValue, builds.input, exactSum, List.map_map, List.map_map]
  congr 1
  apply List.map_congr_left
  intro u member
  obtain ⟨listed, run, unspent⟩ := builds.unspent member
  simp [describes.known listed run u unspent]

theorem Builds.outputValue (builds : Builds env w params coins back psbt w') :
    exactSum (psbt.unsignedTx.output.map TxOut.value) =
      exactSum (params.recipients.map (·.2)) + exactSum (back.map TxOut.value) := by
  have values := ((builds.output.map TxOut.value).map UInt64.toNat).sum_eq
  rw [exactSum, values, List.map_append, ← exactSum, exactSum_append, List.map_map]
  rfl

theorem Builds.inputs_owned (consistent : w.Consistent env)
    (builds : Builds env w params coins back psbt w')
    (describes : Describes env w policy descriptor receive change) (n : Nat) (txin : TxIn)
    (input : Input) (spent : psbt.unsignedTx.input[n]? = some txin)
    (map : psbt.inputs[n]? = some input) : ∃ known, Spends policy txin input known ∧
      Owned env receive (some change) policy.gapLimit known.scriptPubkey := by
  rw [builds.input, List.getElem?_map, Option.map_eq_some_iff] at spent
  rw [builds.inputs, List.getElem?_map, Option.map_eq_some_iff] at map
  obtain ⟨u, isCoin, rfl⟩ := spent
  obtain ⟨u', isCoin', rfl⟩ := map
  obtain rfl : u = u' := Option.some.inj (isCoin.symm.trans isCoin')
  have member := List.mem_of_getElem? isCoin
  obtain ⟨listed, run, unspent⟩ := builds.unspent member
  refine ⟨u.txout, ⟨describes.known listed run u unspent, rfl⟩, ?_⟩
  have place := (consistent.mature_held builds.mature u member).place
  have derived := ((consistent.indexed.stores.indices _ _).mp place).2
  have inside := describes.places listed run u unspent
  cases kind : u.keychain with
  | external =>
    rw [kind] at derived
    exact ⟨receive, .inl rfl, _, inside, derived ▸ describes.external _ inside⟩
  | internal =>
    rw [kind] at derived
    exact ⟨change, .inr rfl, _, inside, derived ▸ describes.internal _ inside⟩

theorem Builds.outputs_named (consistent : w.Consistent env)
    (builds : Builds env w params coins back psbt w')
    (describes : Describes env w policy descriptor receive change)
    (declares : Declares env w policy recipient script amount)
    (single : params.recipients = [(script, amount)]) (n : Nat) (txout : TxOut) (output : Output)
    (paid : psbt.unsignedTx.output[n]? = some txout) (map : psbt.outputs[n]? = some output) :
    PaysRecipient env policy txout ∨ ∃ chg index, some change = some chg ∧
      index < policy.gapLimit ∧ DerivedAt env chg txout.scriptPubkey index ∧
        HonestEntries env chg index output := by
  rw [builds.outputs, List.getElem?_map, paid, Option.map_some, Option.some.injEq] at map
  subst map
  have member := builds.output.mem_iff.mp (List.mem_of_getElem? paid)
  rw [single, List.map_singleton, List.mem_append, List.mem_singleton] at member
  rcases member with rfl | member
  · exact .inl (declares.paysRecipient amount)
  · rcases builds.change with ⟨none, _⟩ | ⟨i, value, index, returned, _, _, reached, _⟩
    · simp [none] at member
    · rw [returned, List.mem_singleton] at member
      subst member
      have revealed := describes.revealed
      have limit := describes.limit
      have inside : i < policy.gapLimit := UInt32.lt_iff_toNat_lt.mpr (by omega)
      have place : w.index.inner.spkIndices.lookup (w.derive .internal i) =
          some ⟨.internal, i⟩ := by
        apply (consistent.indexed.stores.indices _ _).mpr
        refine ⟨?_, rfl⟩
        simp only [stopIndex, gapLimit]
        omega
      refine .inr ⟨change, i, rfl, inside, describes.internal i inside, ?_⟩
      rw [builtOutput, place]
      exact describes.entries i inside

theorem Builds.payments (builds : Builds env w params coins back psbt w')
    (declares : Declares env w policy recipient script amount)
    (single : params.recipients = [(script, amount)]) :
    exactSum ((psbt.unsignedTx.output.filter fun txout =>
      PaysRecipient env policy txout).map TxOut.value) = amount.toNat := by
  have values := (((builds.output.filter fun txout =>
    PaysRecipient env policy txout).map TxOut.value).map UInt64.toNat).sum_eq
  have none : back.filter (fun txout => PaysRecipient env policy txout) = [] := by
    rcases builds.change with ⟨none, _⟩ | ⟨i, value, index, returned, _⟩
    · simp [none]
    · simp [returned, declares.not_paysRecipient]
  rw [exactSum, values, List.filter_append, none, single, List.append_nil, List.map_singleton]
  simp [declares.paysRecipient]

theorem Builds.feeIdentity {fee : ℕ} (builds : Builds env w params coins back psbt w')
    (pays : PaysFee params coins back fee)
    (small : exactSum (coins.map (·.txout.value)) < UInt64.size) :
    ∃ total sumIn sumOut, feeIdentity psbt = .ok (total, sumIn, sumOut) ∧ total.toNat = fee ∧
      sumOut.toNat = exactSum (psbt.unsignedTx.output.map TxOut.value) := by
  have balance := pays.balance
  have outputs := builds.outputValue
  refine ⟨UInt64.ofNat fee, UInt64.ofNat (exactSum (coins.map (·.txout.value))),
    UInt64.ofNat (exactSum (psbt.unsignedTx.output.map TxOut.value)), ?_,
    UInt64.toNat_ofNat_of_lt' (by omega), UInt64.toNat_ofNat_of_lt' (by omega)⟩
  simp only [Watch.feeIdentity, bind_eq_ok, pure_eq_ok, okOr_eq_ok, checkedSub_eq_some]
  refine ⟨_, ?_, _, ?_, _, ?_, rfl⟩
  · have loop := @foldlM_checkedAdd WatchWalletError (Input × ℕ) UInt64
      (fun input => inputValue psbt input.1 input.2) id (.overflow (bytes "input sum"))
      psbt.inputs.zipIdx 0
    refine loop.mpr ⟨coins.map (·.txout.value), ?_, ?_⟩
    · rw [builds.inputs]
      exact forall₂_zipIdx_map fun u n => rfl
    · rw [UInt64.toNat_ofNat_of_lt' small]
      simp
  · have loop := @foldlM_checkedAdd WatchWalletError TxOut TxOut pure TxOut.value
      (.overflow (bytes "output sum")) psbt.unsignedTx.output 0
    refine loop.mpr ⟨psbt.unsignedTx.output, ?_, ?_⟩
    · exact List.forall₂_same.mpr fun _ _ => rfl
    · rw [UInt64.toNat_ofNat_of_lt' (by omega), UInt64.toNat_zero, Nat.zero_add]
  · rw [UInt64.toNat_ofNat_of_lt' small, UInt64.toNat_ofNat_of_lt' (by omega),
      UInt64.toNat_ofNat_of_lt' (by omega)]
    omega

theorem Builds.wellFormed {fee : ℕ} (builds : Builds env w params coins back psbt w')
    (pays : PaysFee params coins back fee) (single : params.recipients = [(script, amount)])
    (positive : 0 < fee) (few : psbt.unsignedTx.input.length ≤ 100) : WellFormed psbt := by
  have balance := pays.balance
  constructor
  case inputMaps => rw [builds.inputs, builds.input, List.length_map, List.length_map]
  case outputMaps => rw [builds.outputs, List.length_map]
  case nonempty =>
    intro none
    rw [builds.input, List.map_eq_nil_iff] at none
    rw [none, List.map_nil, exactSum_nil] at balance
    omega
  case inputLimit => exact few
  case outputLimit =>
    have length := builds.output.length_eq
    rw [List.length_append, single, List.map_singleton, List.length_singleton] at length
    rcases builds.change with ⟨none, _⟩ | ⟨i, value, index, returned, _⟩
    · rw [none, List.length_nil] at length
      omega
    · rw [returned, List.length_singleton] at length
      omega
  case unsigned =>
    intro txin member
    rw [builds.input] at member
    obtain ⟨u, _, rfl⟩ := List.mem_map.mp member
    exact ⟨rfl, rfl⟩
  case plain => exact builds.proprietary
  case plainInputs =>
    intro input member
    rw [builds.inputs] at member
    obtain ⟨u, _, rfl⟩ := List.mem_map.mp member
    rfl
  case plainOutputs =>
    intro output member
    rw [builds.outputs] at member
    obtain ⟨txout, _, rfl⟩ := List.mem_map.mp member
    unfold builtOutput
    split
    · rfl
    · rfl

theorem Builds.feeOf {fee : ℕ} (builds : Builds env w params coins back psbt w')
    (pays : PaysFee params coins back fee)
    (describes : Describes env w policy descriptor receive change) :
    feeOf policy psbt.unsignedTx = fee := by
  rw [Trinity.feeOf, builds.spentValue describes, builds.outputValue, pays.balance]
  omega

theorem Builds.honest {fee : UInt64} (consistent : w.Consistent env)
    (builds : Builds env w params coins back psbt w') (pays : PaysFee params coins back fee.toNat)
    (describes : Describes env w policy descriptor receive change)
    (declares : Declares env w policy recipient script amount)
    (single : params.recipients = [(script, amount)])
    (small : exactSum (coins.map (·.txout.value)) < UInt64.size)
    (few : psbt.unsignedTx.input.length ≤ 100)
    (allowed : FeeAllowed policy psbt.unsignedTx fee) :
    Honest env psbt policy receive (some change) := by
  have isFee := builds.feeOf pays describes
  have positive : 0 < fee.toNat := by
    rw [Nat.pos_iff_ne_zero]
    intro zero
    exact allowed.positive (UInt64.toNat_inj.mp zero)
  have vsize : max psbt.unsignedTx.vsize 1 = psbt.unsignedTx.vsize :=
    Nat.max_eq_left psbt.unsignedTx.vsize_pos
  constructor
  case wellFormed => exact builds.wellFormed pays single positive few
  case inputs => exact builds.inputs_owned consistent describes
  case outputs => exact builds.outputs_named consistent describes declares single
  case fits => rwa [builds.spentValue describes]
  case payments => rw [builds.payments declares single, declares.amount]
  case positive => rwa [isFee]
  case absolute =>
    rw [isFee]
    exact UInt64.le_iff_toNat_le.mp allowed.absolute
  case pinned =>
    intro pinned declared
    rw [isFee, allowed.pinned pinned declared]
  case rate =>
    have rate := UInt64.le_iff_toNat_le.mp allowed.rate
    rwa [vsize, feerate_toNat _ psbt.unsignedTx.vsize_pos, ← isFee] at rate
  case signatures =>
    intro input member
    rw [builds.inputs] at member
    obtain ⟨u, _, rfl⟩ := List.mem_map.mp member
    constructor
    · intro t none
      cases none
    · intro sig none
      cases none

end Wallet

theorem buildPsbtRaw_eq_ok {order : ValueOrder} {lib : WalletLibrary} {w w' : WatchWallet}
    {req : SendRequest} {rng : Shuffle.Draws}
    (address : lib.address (toBitcoinNetwork w.network) req.recipient = .ok script)
    (run : w.buildPsbtRawWithAuxRand env order lib req rng = .ok (psbt, w')) :
    ∃ (params : TxParams) (inner : Wallet), params.recipients = [(script, req.amountSats)] ∧
      params.currentHeight = w.inner.tip ∧
      w.inner.createTx env order params rng = .ok (psbt, inner) ∧ w' = { w with inner } := by
  simp only [WatchWallet.buildPsbtRawWithAuxRand, WatchWallet.txBuilderFor, bind_eq_ok, pure_eq_ok,
    mapErr_eq_ok, ofExcept_eq_ok] at run
  obtain ⟨params, ⟨script', isScript, _, _, feePolicy, _, rfl⟩, ⟨psbt', inner⟩, created, same⟩ :=
    run
  obtain ⟨rfl, rfl⟩ : psbt' = psbt ∧ { w with inner } = w' := by simpa using same
  obtain rfl : script = script' := Except.ok.inj (address.symm.trans isScript)
  exact ⟨_, inner, rfl, rfl, created, rfl⟩

theorem honest_verdict (compressed : CompressedPoints env)
    (describes : Describes env w policy descriptor receive change)
    (honest : Honest env psbt policy receive (some change))
    (recipients : policy.declaredRecipients = [recipient]) :
    ∃ changeSats : UInt64, policy.declaredAmountSats.toNat + changeSats.toNat =
        exactSum (psbt.unsignedTx.output.map TxOut.value) ∧
      verify env psbt descriptor policy = .ok ⟨true, recipient, policy.declaredAmountSats,
        changeSats, UInt64.ofNat (feeOf policy psbt.unsignedTx),
        feerate (UInt64.ofNat (feeOf policy psbt.unsignedTx)) (max psbt.unsignedTx.vsize 1)⟩ := by
  have known : ∀ (i : Nat) txin input, psbt.unsignedTx.input[i]? = some txin →
      psbt.inputs[i]? = some input → ∃ known, Spends policy txin input known := by
    intro i txin input spent map
    obtain ⟨known, spends, _⟩ := honest.inputs i txin input spent map
    exact ⟨known, spends⟩
  obtain ⟨text, _, parsedText⟩ := parseChange_some.mp describes.parsedChange
  obtain ⟨utxos, shown⟩ := known_utxos honest.wellFormed.inputMaps known
  have within := honest_fee honest shown
    (spentValue_of_known honest.wellFormed.inputMaps known shown)
  -- Each output is classified on its own.
  obtain ⟨classified, outputs⟩ := @forall₂_total _ _
    (fun (x : TxOut × Nat) c => Classified env psbt (some change) policy x.2 x.1 c)
    psbt.unsignedTx.output.zipIdx (by
      intro x member
      apply honest_classified honest _ _ (List.mem_zipIdx_iff_getElem?.mp member)
      · intro chg same
        exact Option.some.inj same ▸ describes.fingerprints
      · intro chg same
        exact Option.some.inj same ▸ parse_origins parsedText)
  have owned : checkV2 env psbt receive (some change) policy = .ok () := by
    apply checkV2_of_owned (derives_of_children compressed describes.children)
    · intro chg same
      exact Option.some.inj same ▸ derives_of_children compressed describes.changeChildren
    · intro i input map
      have inside := (List.getElem?_eq_some_iff.mp map).1
      obtain ⟨record, spends, own⟩ := honest.inputs i _ input
        (List.getElem?_eq_getElem (honest.wellFormed.inputMaps ▸ inside)) map
      exact ⟨record, spends.2, own⟩
  -- What is classified as payment and as change adds up to the outputs.
  have payments : exactSum (amountsOf classified false) = policy.declaredAmountSats.toNat := by
    rw [classified_payments outputs, honest.payments]
  have total := amounts_partition classified
  rw [classified_amounts outputs] at total
  have balance := within.balance
  have fits := within.fits
  have declared : satSum (amountsOf classified false) = policy.declaredAmountSats := by
    rw [← UInt64.toNat_inj, satSum_exact (by omega), payments]
  refine ⟨satSum (amountsOf classified true), ?_, ?_⟩
  · rw [satSum_exact (by omega)]
    omega
  · apply verify_eq_ok.mpr
    refine ⟨receive, some change, classified, utxos, describes.parsed, describes.parsedChange,
      honest.wellFormed, known, owned, outputs, within, declared,
      fun i input map => honest.signatures input (List.mem_of_getElem? map), ?_⟩
    rw [declared, recipientOf, recipients]
    rfl

theorem fee_allowed_of_verified {fee : UInt64} {v : PsbtVerdict}
    (builds : Wallet.Builds env w params coins back psbt w')
    (pays : Wallet.PaysFee params coins back fee.toNat)
    (accepted : verify env psbt descriptor policy = .ok v) :
    psbt.unsignedTx.input.length ≤ 100 ∧ FeeAllowed policy psbt.unsignedTx fee := by
  obtain ⟨receive, change, classified, utxos, ok⟩ := verify_eq_ok.mp accepted
  have shown := ok.fee.shown
  have coinsShown : List.Forall₂ (fun input utxo => input.witnessUtxo = some utxo) psbt.inputs
      (coins.map (·.txout)) := by
    rw [builds.inputs, List.forall₂_map_left_iff, List.forall₂_map_right_iff, List.forall₂_same]
    intro u _
    rfl
  have same : utxos = coins.map (·.txout) := by
    apply List.right_unique_forall₂' _ shown coinsShown
    intro input utxo utxo' shows shows'
    exact Option.some.inj (shows.symm.trans shows')
  have isFee : v.feeSats = fee := by
    have balance := ok.fee.balance
    rw [same, List.map_map, builds.outputValue] at balance
    have balance' := pays.balance
    rw [← UInt64.toNat_inj]
    simp only [Function.comp_def] at balance
    omega
  have within := ok.fee
  rw [isFee] at within
  exact ⟨ok.wellFormed.inputLimit, within.positive, within.absolute, within.pinned, within.rate⟩

/-- Whatever the random words, the verifier's answer on a payment the wallet has built
    depends only on the fee limits and the number of inputs, and its verdict names the
    payment. -/
theorem built_payment_accepted (env : Primitives) (compressed : CompressedPoints env)
    (graph : GraphLibrary) (order : ValueOrder) (lib : WalletLibrary) (w w' : WatchWallet)
    (req : SendRequest) (rng : Shuffle.Draws) (policy : VerifyPolicy) (descriptor : Str)
    (receive change : ParsedDescriptor) (script : Script) (psbt : Psbt)
    (reachable : w.inner.Reachable env graph order)
    (supply : ∀ coins, (w.inner.filterUtxos env w.inner.tip : Outcome CreateTxError _) =
      .ok coins → worthOf coins ≤ maxMoney)
    (describes : Describes env w.inner policy descriptor receive change)
    (address : lib.address (toBitcoinNetwork w.network) req.recipient = .ok script)
    (declares : Declares env w.inner policy req.recipient script req.amountSats)
    (run : w.buildPsbtRawWithAuxRand env order lib req rng = .ok (psbt, w')) :
    ∃ fee sumIn sumOut, feeIdentity psbt = .ok (fee, sumIn, sumOut) ∧
      ∀ v, verify env psbt descriptor policy = .ok v ↔
        psbt.unsignedTx.input.length ≤ 100 ∧ FeeAllowed policy psbt.unsignedTx fee ∧
          v = ⟨true, req.recipient, req.amountSats, sumOut - req.amountSats, fee,
            feerate fee (max psbt.unsignedTx.vsize 1)⟩ := by
  have consistent := reachable.consistent
  obtain ⟨params, inner, single, height, created, rfl⟩ := buildPsbtRaw_eq_ok address run
  obtain ⟨coins, back, paid, builds, pays, bound⟩ := Wallet.createTx_builds consistent
    (height ▸ supply) created
  have small : exactSum (coins.map (·.txout.value)) < UInt64.size := bound.trans_lt (by decide)
  obtain ⟨fee, sumIn, sumOut, identity, isFee, isOut⟩ := builds.feeIdentity pays small
  subst isFee
  refine ⟨fee, sumIn, sumOut, identity, ?_⟩
  have accepts : psbt.unsignedTx.input.length ≤ 100 → FeeAllowed policy psbt.unsignedTx fee →
      verify env psbt descriptor policy = .ok ⟨true, req.recipient, req.amountSats,
        sumOut - req.amountSats, fee, feerate fee (max psbt.unsignedTx.vsize 1)⟩ := by
    intro few allowed
    have honest := builds.honest consistent pays describes declares single small few allowed
    obtain ⟨changeSats, split, accepted⟩ := honest_verdict compressed describes honest
      declares.recipients
    rw [declares.amount, ← isOut] at split
    have isChange : changeSats = sumOut - req.amountSats := by
      rw [← UInt64.toNat_inj, UInt64.toNat_sub_of_le]
      · omega
      · exact UInt64.le_iff_toNat_le.mpr (by omega)
    rw [accepted, builds.feeOf pays describes, UInt64.ofNat_toNat, declares.amount, isChange]
  intro v
  constructor
  · intro accepted
    obtain ⟨few, allowed⟩ := fee_allowed_of_verified builds pays accepted
    rw [accepts few allowed] at accepted
    exact ⟨few, allowed, (Except.ok.inj accepted).symm⟩
  · intro expected
    obtain ⟨few, allowed, rfl⟩ := expected
    exact accepts few allowed

namespace Sample

def limits : VerifyPolicy :=
  { Trinity.Sample.policy with knownUtxos := ⟨[(⟨0, 0⟩, received)], by decide⟩ }

theorem only_zero {i : UInt32} (inside : i < limits.gapLimit) : i = 0 := by
  have below : i.toNat < 1 := UInt32.lt_iff_toNat_lt.mp inside
  rw [← UInt32.toNat_inj]
  exact Nat.lt_one_iff.mp below

theorem funded_describes : Describes Trinity.Sample.env funded limits
    Trinity.Sample.receiveDescriptor (Trinity.Sample.wallet .external)
    (Trinity.Sample.wallet .internal) := by
  have unspent : (funded.listUnspent Trinity.Sample.env : Outcome CreateTxError _) =
      .ok [⟨⟨0, 0⟩, received, .external, 0⟩] := by
    rw [Wallet.listUnspent, funded_unspents]
    rfl
  constructor
  case parsed => exact Trinity.Sample.parsed_receive
  case parsedChange => exact Trinity.Sample.parsed_policy
  case children => exact Trinity.Sample.derives_children Trinity.Sample.derived_receive
  case changeChildren => exact Trinity.Sample.derives_children Trinity.Sample.derived_change
  case fingerprints => decide
  case external =>
    intro i inside
    rw [only_zero inside]
    exact ⟨Trinity.Sample.receiveOutput, Trinity.Sample.derived_receive, rfl⟩
  case internal =>
    intro i inside
    rw [only_zero inside]
    exact ⟨Trinity.Sample.changeOutput, Trinity.Sample.derived_change, rfl⟩
  case entries =>
    intro i inside
    rw [only_zero inside]
    exact Trinity.Sample.honest_entries
  case known =>
    intro coins listed u member
    obtain rfl := Except.ok.inj (unspent.symm.trans listed)
    rw [List.mem_singleton.mp member]
    rfl
  case places =>
    intro coins listed u member
    obtain rfl := Except.ok.inj (unspent.symm.trans listed)
    rw [List.mem_singleton.mp member]
    decide
  case revealed =>
    rw [funded_nextReveal]
    decide
  case limit => decide

theorem request_declares : Declares Trinity.Sample.env funded limits request.recipient
    Trinity.Sample.recipientScript request.amountSats := by
  constructor
  case recipients => rfl
  case amount => rfl
  case address => decide
  case printed => decide
  case apart =>
    intro i
    have size : (funded.derive .internal i).length = 34 := by
      show (0x00 :: 0x20 :: beBytes 32 (KeychainTxOutIndex.Sample.hash ⟨.internal, i⟩)).length = 34
      rw [List.length_cons, List.length_cons, beBytes_length]
    have apart : ∀ script : Script, script.length ≠ 34 → funded.derive .internal i ≠ script := by
      intro script length same
      exact length (same ▸ size)
    show eqIgnoreAsciiCase ((Trinity.Sample.tables.addresses.lookup
      (funded.derive .internal i)).getD []) Trinity.Sample.recipientAddress = false
    unfold Trinity.Sample.tables
    rw [List.lookup_cons, beq_false_of_ne (apart _ (by decide)), List.lookup_cons,
      beq_false_of_ne (apart _ (by decide)), List.lookup_cons]
    dsimp only
    split
    · decide
    · rw [List.lookup_nil]
      decide

end Sample

theorem built_payment_accepted_funded : ∃ psbt w', WatchWallet.buildPsbtRawWithAuxRand
    Trinity.Sample.env Sample.order Sample.walletLibrary ⟨Sample.funded, .regtest⟩ Sample.request
      (fun _ => 7) = .ok (psbt, w') ∧
    ∃ fee sumIn sumOut, feeIdentity psbt = .ok (fee, sumIn, sumOut) ∧
      ∀ v, verify Trinity.Sample.env psbt Trinity.Sample.receiveDescriptor Sample.limits = .ok v ↔
        psbt.unsignedTx.input.length ≤ 100 ∧ FeeAllowed Sample.limits psbt.unsignedTx fee ∧
          v = ⟨true, Sample.request.recipient, Sample.request.amountSats,
            sumOut - Sample.request.amountSats, fee,
            feerate fee (max psbt.unsignedTx.vsize 1)⟩ := by
  obtain ⟨⟨psbt, after⟩, run⟩ := Sample.funded_builds fun _ => 7
  exact ⟨psbt, after, run, built_payment_accepted Trinity.Sample.env Trinity.Sample.compressed
    Sample.graph Sample.order Sample.walletLibrary ⟨Sample.funded, .regtest⟩ after Sample.request
    (fun _ => 7) Sample.limits Trinity.Sample.receiveDescriptor (Trinity.Sample.wallet .external)
    (Trinity.Sample.wallet .internal) Trinity.Sample.recipientScript psbt Sample.funded_reachable
    Sample.funded_ready.supply Sample.funded_describes rfl Sample.request_declares run⟩

end Trinity.Watch
