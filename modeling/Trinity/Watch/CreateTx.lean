import Trinity.Watch.Base64
import Trinity.Watch.Build
import Trinity.Watch.Canonical
import Trinity.Watch.CoinSelection
import Trinity.Watch.KeychainIndex

/-!
How the watch-only wallet builds a payment: `build_psbt` of the crate, and of the
wallet library the coins that can be spent, `create_tx` and the data it attaches
to the inputs and outputs. Descriptors at an index, address texts and serialization
are answers of outside libraries.
-/
namespace Trinity.Watch

open Outcome Word Shuffle

structure DefiniteDescriptor where
  scriptPubkey : Script
  witnessScript : Script
  bip32Derivation : OrderedMap SecpPublicKey Trinity.KeySource

structure DescriptorXKey where
  xkey : Str
  depth : UInt8
  origin : Option Trinity.KeySource
  rootFingerprint : Fingerprint

/-- The wallet of the library: its descriptors, the index of their scripts, the
    transactions it was shown and the chain. -/
structure Wallet where
  definite : KeychainKind → UInt32 → DefiniteDescriptor
  extendedKeys : KeychainKind → List DescriptorXKey
  xpubField : Str → Trinity.KeySource → Str × Str
  index : KeychainTxOutIndex
  graph : TxGraph
  chain : LocalChain

inductive CreateTxError where
  | outputBelowDustLimit (index : Nat)
  | coinSelection (e : InsufficientFunds)
  | noRecipients
  | missingKeyOrigin (xkey : Str)
  | unsignedTxHasScriptSigs
  | unsignedTxHasScriptWitnesses
  | utxoCheck
  | mismatchedInputScript
  | mismatchedOutputScript
  deriving DecidableEq, Repr

def coinbaseMaturity : UInt32 := 100

def ChainPosition.confirmationHeightUpperBound : ChainPosition → Option UInt32
  | .confirmed anchor _ => some anchor.blockId.height
  | .unconfirmed _ _ => none

def FullTxOut.isMature (txo : FullTxOut) (tip : UInt32) : Bool :=
  if txo.isOnCoinbase then
    match txo.chainPosition.confirmationHeightUpperBound with
    | some height =>
      let age := if tip < height then 0 else tip - height
      !decide (age + 1 < coinbaseMaturity)
    | none => false
  else true

/-- Weight of what satisfies an input: the stack varint does not grow, a script of
    two-of-three keys behind its length, a dummy and two signatures of 73 bytes. -/
def maxWeightToSatisfy : UInt64 :=
  let scriptSize := 1 + 1 + 1 + 3 * 34
  .ofNat
    ((varIntSize (2 + 2) - varIntSize 0) + varIntSize scriptSize + scriptSize + (1 + 73 * 2))

namespace Wallet

def derive (w : Wallet) : Derive := fun k i => (w.definite k i).scriptPubkey

def getTx (w : Wallet) (txid : Txid) : Option Transaction := w.graph.getTx txid

def tip (w : Wallet) : UInt32 := w.chain.tip.tip.height

def outpoints (w : Wallet) : List (KeychainIndex × OutPoint) :=
  w.index.inner.spkTxouts.insertionSort fun a b =>
    a.1.code < b.1.code ∨ a.1.code = b.1.code ∧ a.2.code ≤ b.2.code

variable {ε : Type}

def filterChainUnspents (w : Wallet) (env : Primitives) :
    Outcome ε (List (KeychainIndex × FullTxOut)) :=
  w.graph.filterChainUnspents env w.chain w.outpoints

def newLocalUtxo (i : KeychainIndex) (txo : FullTxOut) : LocalOutput :=
  ⟨txo.outpoint, txo.txout, i.keychain, i.index⟩

def listUnspent (w : Wallet) (env : Primitives) : Outcome ε (List LocalOutput) := do
  let unspents ← w.filterChainUnspents env
  return unspents.map fun txo => newLocalUtxo txo.1 txo.2

def matureUtxo (currentHeight : UInt32) (txo : KeychainIndex × FullTxOut) :
    Option WeightedUtxo :=
  if txo.2.isMature currentHeight then some ⟨maxWeightToSatisfy, newLocalUtxo txo.1 txo.2⟩
  else none

def filterUtxos (w : Wallet) (env : Primitives) (currentHeight : UInt32) :
    Outcome ε (List WeightedUtxo) := do
  let unspents ← w.filterChainUnspents env
  return unspents.filterMap (matureUtxo currentHeight)

end Wallet

def DescriptorXKey.keyOrigin (key : DescriptorXKey) : Outcome CreateTxError Trinity.KeySource :=
  match key.origin with
  | some origin => return origin
  | none => do
    rejectIf (¬ key.depth = 0) (.missingKeyOrigin key.xkey)
    return (key.rootFingerprint, [])

def insertXpub (xpubs : List (Str × Trinity.KeySource)) (xkey : Str) (origin : Trinity.KeySource) :
    List (Str × Trinity.KeySource) :=
  xpubs.filter (fun e => e.1 ≠ xkey) ++ [(xkey, origin)]

def emptyInput : Input := ⟨none, none, .empty, none, none, .empty, none, none, [], []⟩

def emptyOutput : Output := ⟨.empty, [], []⟩

def appendDerivation (m n : OrderedMap SecpPublicKey Trinity.KeySource) :
    OrderedMap SecpPublicKey Trinity.KeySource :=
  n.entries.foldl (fun m e => m.insert e.1 e.2) m

def updateInputItem (input : Input) (d : DefiniteDescriptor) : Input :=
  { input with
    bip32Derivation := appendDerivation input.bip32Derivation d.bip32Derivation
    witnessScript := some d.witnessScript }

/-- The witness script of an output is a field nothing here reads. -/
def updateOutputItem (output : Output) (d : DefiniteDescriptor) : Output :=
  { output with
    bip32Derivation := appendDerivation output.bip32Derivation d.bip32Derivation
    other := [([0x01], d.witnessScript)] }

def unsignedTxChecks (tx : Transaction) : Outcome CreateTxError Unit :=
  forM tx.input fun txin => do
    rejectIf (¬ txin.scriptSig = []) .unsignedTxHasScriptSigs
    rejectIf (¬ txin.witness = []) .unsignedTxHasScriptWitnesses

def utxoFor (env : Primitives) (txin : TxIn) (input : Input) : Option TxOut :=
  match input.witnessUtxo, input.nonWitnessUtxo with
  | some utxo, _ => some utxo
  | none, some prev =>
    if env.computeTxid prev ≠ txin.previousOutput.txid then none
    else prev.output[txin.previousOutput.vout.toNat]?
  | none, none => none

/-- The script `update_input_with_descriptor` holds the descriptor against. -/
def expectedSpk (txin : TxIn) (input : Input) : Outcome CreateTxError Script :=
  match input.witnessUtxo, input.nonWitnessUtxo with
  | some utxo, none => return utxo.scriptPubkey
  | none, some prev => do
    let utxo ← okOr prev.output[txin.previousOutput.vout.toNat]? .utxoCheck
    return utxo.scriptPubkey
  | some utxo, some prev => do
    let previous ← okOr prev.output[txin.previousOutput.vout.toNat]? .utxoCheck
    rejectIf (utxo ≠ previous) .utxoCheck
    return utxo.scriptPubkey
  | none, none => fail .utxoCheck

def updateInputWithDescriptor (env : Primitives) (txin : TxIn) (input : Input)
    (d : DefiniteDescriptor) : Outcome CreateTxError Input := do
  rejectIf (input.nonWitnessUtxo.any fun prev => txin.previousOutput.txid ≠ env.computeTxid prev)
    .utxoCheck
  let spk ← expectedSpk txin input
  rejectIf (spk ≠ d.scriptPubkey) .mismatchedInputScript
  return updateInputItem input d

def updateOutputWithDescriptor (txout : TxOut) (output : Output) (d : DefiniteDescriptor) :
    Outcome CreateTxError Output := do
  rejectIf (txout.scriptPubkey ≠ d.scriptPubkey) .mismatchedOutputScript
  return updateOutputItem output d

/-- `HashMap::get` of the selected coins, where a later coin replaces an earlier one. -/
def lookupOutput (selected : List LocalOutput) (op : OutPoint) : Option LocalOutput :=
  (selected.filter fun u => u.outpoint = op).getLast?

inductive FeePolicy where
  | feeRate (rate : UInt64)
  | feeAmount (fee : UInt64)
  deriving DecidableEq, Repr

structure TxParams where
  recipients : List (Script × UInt64)
  feePolicy : FeePolicy
  currentHeight : UInt32
  sequence : UInt32
  addGlobalXpubs : Bool
  deriving DecidableEq, Repr

def addRecipients : List (Script × UInt64) → Nat → UInt64 →
    Outcome CreateTxError (List TxOut × UInt64)
  | [], _, outgoing => return ([], outgoing)
  | (spk, value) :: rest, index, outgoing => do
    rejectIf (isDust value spk && !isOpReturn spk) (.outputBelowDustLimit index)
    let outgoing ← plus outgoing value
    let (outputs, outgoing) ← addRecipients rest (index + 1) outgoing
    return (⟨value, spk⟩ :: outputs, outgoing)

def FeePolicy.rate : FeePolicy → UInt64
  | .feeRate rate => rate
  | .feeAmount _ => 0

def FeePolicy.amount : FeePolicy → UInt64
  | .feeRate _ => 0
  | .feeAmount fee => fee

def Excess.drainOutput (drainScript : Script) : Excess → List TxOut
  | .change amount _ => [⟨amount, drainScript⟩]
  | .noChange _ _ _ => []

def sortTxWithAuxRand (tx : Transaction) (rng : Draws) : Transaction :=
  let (input, rng) := shuffleSlice tx.input rng
  let (output, _) := shuffleSlice tx.output rng
  { tx with input, output }

namespace Wallet

def psbtXpubs (w : Wallet) (addGlobalXpubs : Bool) :
    Outcome CreateTxError (List (Str × Trinity.KeySource)) :=
  if addGlobalXpubs then
    (w.extendedKeys .external ++ w.extendedKeys .internal).foldlM (fun xpubs key => do
      let origin ← key.keyOrigin
      return insertXpub xpubs key.xkey origin) []
  else return []

/-- The previous output is attached where the graph has the transaction. -/
def attachUtxo (w : Wallet) (op : OutPoint) (input : Input) : Outcome CreateTxError Input :=
  match w.getTx op.txid with
  | some prev => do
    let prevout ← okOr prev.output[op.vout.toNat]? .utxoCheck
    return { input with witnessUtxo := some prevout, nonWitnessUtxo := some prev }
  | none => return input

/-- `get_psbt_input`, with the empty input the caller takes for an unknown coin. -/
def getPsbtInput (w : Wallet) (u : LocalOutput) : Outcome CreateTxError Input :=
  match w.index.inner.spkIndices.lookup u.txout.scriptPubkey with
  | some i => w.attachUtxo u.outpoint (updateInputItem emptyInput (w.definite i.keychain i.index))
  | none => return emptyInput

def psbtInputFor (w : Wallet) : Option LocalOutput → Outcome CreateTxError Input
  | some u => w.getPsbtInput u
  | none => return emptyInput

def fillInputs (w : Wallet) : List TxIn → List LocalOutput → Outcome CreateTxError (List Input)
  | [], _ => return []
  | txin :: rest, selected => do
    let input ← w.psbtInputFor (lookupOutput selected txin.previousOutput)
    let inputs ← fillInputs w rest (selected.filter fun u => u.outpoint ≠ txin.previousOutput)
    return input :: inputs

def updateInput (w : Wallet) (env : Primitives) (txin : TxIn) (input : Input) :
    Outcome CreateTxError Input :=
  match (utxoFor env txin input).bind fun utxo =>
      w.index.inner.spkIndices.lookup utxo.scriptPubkey with
  | some i => updateInputWithDescriptor env txin input (w.definite i.keychain i.index)
  | none => return input

def updateOutput (w : Wallet) (txout : TxOut) : Outcome CreateTxError Output :=
  match w.index.inner.spkIndices.lookup txout.scriptPubkey with
  | some i => updateOutputWithDescriptor txout emptyOutput (w.definite i.keychain i.index)
  | none => return emptyOutput

def completeTransaction (w : Wallet) (env : Primitives) (tx : Transaction)
    (selected : List LocalOutput) (addGlobalXpubs : Bool) : Outcome CreateTxError Psbt := do
  unsignedTxChecks tx
  let xpubs ← w.psbtXpubs addGlobalXpubs
  let inputs ← w.fillInputs tx.input selected
  let inputs ← (tx.input.zip inputs).mapM fun (txin, input) => w.updateInput env txin input
  let outputs ← tx.output.mapM w.updateOutput
  return ⟨tx, inputs, outputs, [], xpubs.map fun e => w.xpubField e.1 e.2⟩

def recordExcess (w : Wallet) (excess : Excess) (i : UInt32) :
    Outcome CreateTxError KeychainTxOutIndex :=
  match excess with
  | .change _ _ => w.index.recordChange w.derive i
  | .noChange _ _ _ => return w.index

def createTx (env : Primitives) (order : ValueOrder) (w : Wallet) (params : TxParams)
    (rng : Draws) : Outcome CreateTxError (Psbt × Wallet) := do
  let (outputs, outgoing) ← addRecipients params.recipients 0 0
  let base : Transaction := ⟨2, params.currentHeight, [], outputs⟩
  let feeAmount ← plus params.feePolicy.amount
    (mulFeeRate (.ofNat base.weight) params.feePolicy.rate)
  let optional ← w.filterUtxos env params.currentHeight
  let (drainIndex, drainScript) ← w.index.drainSpk w.derive
  let target ← plus outgoing feeAmount
  let (selection, rng) ← mapErr .coinSelection (coinSelect order [] optional
    params.feePolicy.rate target drainScript rng)
  rejectIf (outputs = []) .noRecipients
  let tx := { base with
    input := selection.selected.map fun u => ⟨u.outpoint, [], params.sequence, []⟩
    output := outputs ++ selection.excess.drainOutput drainScript }
  let psbt ← w.completeTransaction env (sortTxWithAuxRand tx rng) selection.selected
    params.addGlobalXpubs
  let index ← w.recordExcess selection.excess drainIndex
  return (psbt, { w with index })

end Wallet

inductive FeeTarget where
  | feerateSatVb (vb : UInt64)
  | absoluteSats (sats : UInt64)
  deriving DecidableEq, Repr

structure SendRequest where
  recipient : Str
  amountSats : UInt64
  feeTarget : FeeTarget
  deriving DecidableEq, Repr

inductive WatchWalletError where
  | invalidAddress (text : Str)
  | invalidFee (text : Str)
  | build (text : Str)
  | overflow (text : Str)
  deriving DecidableEq, Repr

def toBitcoinNetwork : Network → Trinity.Network
  | .bitcoin => .bitcoin
  | .testnet => .testnet
  | .signet => .signet
  | .regtest => .regtest

structure WalletLibrary where
  address : Trinity.Network → Str → Except Str Script
  createTxErrorText : CreateTxError → Str
  psbt : PsbtLibrary

structure WatchWallet where
  inner : Wallet
  network : Network

def antiFeeSnipingSequence : UInt32 := 0xfffffffd

/-- Heights end where a lock time becomes a time. -/
def lockTimeThreshold : UInt32 := 500000000

def fromSatPerVb (vb : UInt64) : Option UInt64 :=
  if vb.toNat * 250 < 2 ^ 64 then some (vb * 250) else none

def feePolicyOf (target : FeeTarget) : Outcome WatchWalletError FeePolicy :=
  match target with
  | .feerateSatVb vb => do
    let rate ← okOr (fromSatPerVb vb)
      (.invalidFee (bytes "feerate " ++ decimal vb.toNat ++ bytes " sat/vB out of range"))
    return .feeRate rate
  | .absoluteSats sats => return .feeAmount sats

namespace WatchWallet

def txBuilderFor (lib : WalletLibrary) (w : WatchWallet) (req : SendRequest) :
    Outcome WatchWalletError TxParams := do
  let script ← ofExcept (lib.address (toBitcoinNetwork w.network) req.recipient) .invalidAddress
  abortUnless (w.inner.tip < lockTimeThreshold)
  let feePolicy ← feePolicyOf req.feeTarget
  return ⟨[(script, req.amountSats)], feePolicy, w.inner.tip, antiFeeSnipingSequence, true⟩

def buildPsbtRawWithAuxRand (env : Primitives) (order : ValueOrder) (lib : WalletLibrary)
    (w : WatchWallet) (req : SendRequest) (rng : Draws) :
    Outcome WatchWalletError (Psbt × WatchWallet) := do
  let params ← w.txBuilderFor lib req
  let (psbt, inner) ← mapErr (fun e => .build (lib.createTxErrorText e))
    (w.inner.createTx env order params rng)
  return (psbt, { w with inner })

/-- `build_psbt`, whose random words are those of the thread, and
    `build_psbt_with_aux_rand`. -/
def buildPsbt (env : Primitives) (order : ValueOrder) (lib : WalletLibrary) (w : WatchWallet)
    (req : SendRequest) (rng : Draws) : Outcome WatchWalletError (String × WatchWallet) := do
  let (psbt, w) ← w.buildPsbtRawWithAuxRand env order lib req rng
  return (psbtToB64 lib.psbt psbt, w)

end WatchWallet

def inputValue (psbt : Psbt) (input : Input) (index : Nat) : Outcome WatchWalletError UInt64 :=
  match input.witnessUtxo, input.nonWitnessUtxo with
  | some utxo, _ => return utxo.value
  | none, some prev => do
    let txin ← expect psbt.unsignedTx.input[index]?
    let utxo ← okOr prev.output[txin.previousOutput.vout.toNat]?
      (.build (bytes "vout OOB on non_witness_utxo"))
    return utxo.value
  | none, none => fail (.build (bytes "missing utxo on psbt input"))

def feeIdentity (psbt : Psbt) : Outcome WatchWalletError (UInt64 × UInt64 × UInt64) := do
  let sumIn ← psbt.inputs.zipIdx.foldlM (fun sum input => do
    let value ← inputValue psbt input.1 input.2
    okOr (checkedAdd sum value) (.overflow (bytes "input sum"))) 0
  let sumOut ← psbt.unsignedTx.output.foldlM (fun sum o =>
    okOr (checkedAdd sum o.value) (.overflow (bytes "output sum"))) 0
  let fee ← okOr (checkedSub sumIn sumOut) (.overflow (bytes "fee negative (out > in)"))
  return (fee, sumIn, sumOut)

end Trinity.Watch
