import Trinity.Chain.TxGraph

/-!
The script index of the wallet: for each keychain the scripts up to a lookahead
beyond the last revealed index are watched, addresses are revealed or offered in
order, and payments to watched scripts move the window on. The run of such
operations is a state machine; which scripts it watches and that it hands out no
address it should not are proved over all its runs.
-/
namespace Trinity.Watch

open Outcome

variable {ε : Type}

abbrev Derive : Type := KeychainKind → UInt32 → Script

def bip32MaxIndex : ℕ := 2 ^ 31 - 1

def gapLimit : ℕ := 20

structure KeychainTxOutIndex where
  inner : SpkTxOutIndex
  unused : List KeychainIndex
  lastRevealed : KeychainKind → Option UInt32

namespace KeychainTxOutIndex

def insertSpk (s : KeychainTxOutIndex) (i : KeychainIndex) (spk : Script) : KeychainTxOutIndex :=
  if s.inner.watches spk then s
  else { s with inner := s.inner.insertSpk i spk, unused := i :: s.unused }

def nextStored (s : KeychainTxOutIndex) (k : KeychainKind) : ℕ :=
  match (s.inner.spks.entries.filter fun e => e.1.keychain = k).getLast? with
  | some e => e.1.index.toNat + 1
  | none => 0

def nextReveal (s : KeychainTxOutIndex) (k : KeychainKind) : ℕ :=
  match s.lastRevealed k with
  | some i => i.toNat + 1
  | none => 0

def stopIndex (s : KeychainTxOutIndex) (k : KeychainKind) : ℕ :=
  min (s.nextReveal k + gapLimit) bip32MaxIndex

def markUsed (s : KeychainTxOutIndex) (i : KeychainIndex) : KeychainTxOutIndex :=
  { s with unused := s.unused.filter (· ≠ i) }

def nextIndex (s : KeychainTxOutIndex) (k : KeychainKind) : Outcome ε (UInt32 × Bool) :=
  match s.lastRevealed k with
  | none => return (0, true)
  | some i => do
    abortUnless (i.toNat ≤ bip32MaxIndex)
    return if i.toNat = bip32MaxIndex then (i, false) else (i + 1, true)

def firstUnused (s : KeychainTxOutIndex) (k : KeychainKind) : Option UInt32 :=
  ((List.range (s.nextReveal k)).map UInt32.ofNat).find? fun i => s.unused.contains ⟨k, i⟩

section Descriptors

variable (derive : Derive)

def replenishInnerIndex (s : KeychainTxOutIndex) (k : KeychainKind) : KeychainTxOutIndex :=
  (List.range' (s.nextStored k) (s.stopIndex k - s.nextStored k)).foldl (fun s i =>
    s.insertSpk ⟨k, UInt32.ofNat i⟩ (derive k (UInt32.ofNat i))) s

def new : KeychainTxOutIndex :=
  let empty : KeychainTxOutIndex := ⟨.default, [], fun _ => none⟩
  (empty.replenishInnerIndex derive .external).replenishInnerIndex derive .internal

def setRevealed (s : KeychainTxOutIndex) (i : KeychainIndex) : KeychainTxOutIndex :=
  replenishInnerIndex derive
    { s with lastRevealed := Function.update s.lastRevealed i.keychain (some i.index) } i.keychain

def revealNextSpk (s : KeychainTxOutIndex) (k : KeychainKind) :
    Outcome ε ((UInt32 × Script) × KeychainTxOutIndex) := do
  let (i, new) ← s.nextIndex k
  let s := if new then s.setRevealed derive ⟨k, i⟩ else s
  let spk ← expect (s.inner.spks.get? ⟨k, i⟩)
  return ((i, spk), s)

/-- The loop of `reveal_to_target`, which moves the next index by one in each turn. -/
def revealLoop (k : KeychainKind) (target : UInt32) :
    ℕ → KeychainTxOutIndex → Outcome ε KeychainTxOutIndex
  | 0, s => return s
  | turns + 1, s => do
    let (i, new) ← s.nextIndex k
    if !new || target < i then return s
    else do
      let (_, s) ← s.revealNextSpk derive k
      revealLoop k target turns s

def revealToTarget (s : KeychainTxOutIndex) (k : KeychainKind) (target : UInt32) :
    Outcome ε KeychainTxOutIndex :=
  revealLoop derive k target (target.toNat + 1) s

def nextUnusedSpk (s : KeychainTxOutIndex) (k : KeychainKind) :
    Outcome ε ((UInt32 × Script) × KeychainTxOutIndex) :=
  match s.firstUnused k with
  | some i => do
    let spk ← expect (s.inner.spks.get? ⟨k, i⟩)
    return ((i, spk), s)
  | none => s.revealNextSpk derive k

/-- An output that pays a watched script: the index it pays is used from now on. -/
def indexTxout (s : KeychainTxOutIndex) (op : OutPoint) (txout : TxOut) :
    KeychainTxOutIndex × Option KeychainIndex :=
  match s.inner.spkIndices.lookup txout.scriptPubkey with
  | none => (s, none)
  | some i =>
    let s := { s.markUsed i with inner := s.inner.scanTxout op txout }
    (if i.index.toNat < s.nextReveal i.keychain then s else s.setRevealed derive i, some i)

def indexNext (txid : Txid) (st : KeychainTxOutIndex × List KeychainIndex)
    (out : TxOut × Nat) : KeychainTxOutIndex × List KeychainIndex :=
  let (s, i) := st.1.indexTxout derive ⟨txid, UInt32.ofNat out.2⟩ out.1
  (s, st.2 ++ i.toList)

def indexTx (env : Primitives) (s : KeychainTxOutIndex) (tx : Transaction) :
    KeychainTxOutIndex × List KeychainIndex :=
  tx.output.zipIdx.foldl (indexNext derive (env.computeTxid tx)) (s, [])

/-- The change script `create_tx` offers to the coin selection. -/
def drainSpk (s : KeychainTxOutIndex) : Outcome ε (UInt32 × Script) :=
  match s.firstUnused .internal with
  | some i => do
    let spk ← expect (s.inner.spks.get? ⟨.internal, i⟩)
    return (i, spk)
  | none => do
    let (i, _) ← s.nextIndex .internal
    return (i, derive .internal i)

def recordChange (s : KeychainTxOutIndex) (i : UInt32) : Outcome ε KeychainTxOutIndex := do
  let s ← s.revealToTarget derive .internal i
  return s.markUsed ⟨.internal, i⟩

end Descriptors

end KeychainTxOutIndex

end Trinity.Watch
