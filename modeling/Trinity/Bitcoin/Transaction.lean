import Trinity.Lib.OrderedMap
import Trinity.Bitcoin.Text

/-!
Transactions of the `bitcoin` crate: the data the wallet code reads, their
serialized sizes and the scripts that have an address. Hash-like byte arrays
are bit vectors in big-endian order, so their numeric order is the byte order.
-/
namespace Trinity

instance bitVecLinearOrder (w : Nat) : LinearOrder (BitVec w) where
  le_refl a := BitVec.le_refl a
  le_trans _ _ _ := BitVec.le_trans
  le_antisymm _ _ := BitVec.le_antisymm
  le_total := BitVec.le_total
  lt_iff_le_not_ge a b := by
    simp only [BitVec.lt_def, BitVec.le_def]
    omega
  toDecidableLE := fun a b => inferInstanceAs (Decidable (a ≤ b))
  toDecidableEq := inferInstance

abbrev Script : Type := Str

structure OutPoint where
  txid : BitVec 256
  vout : UInt32
  deriving DecidableEq, Repr

def OutPoint.code (o : OutPoint) : Nat := o.txid.toNat * 2 ^ 32 + o.vout.toNat

theorem OutPoint.code_injective : Function.Injective OutPoint.code := by
  rintro ⟨t, v⟩ ⟨t', v'⟩ same
  have low := v.toNat_lt
  have low' := v'.toNat_lt
  simp only [OutPoint.code] at same
  have high : t.toNat = t'.toNat := by omega
  have index : v.toNat = v'.toNat := by omega
  rw [BitVec.eq_of_toNat_eq high, UInt32.toNat_inj.mp index]

instance : LinearOrder OutPoint := orderByCode OutPoint.code OutPoint.code_injective

structure TxOut where
  value : UInt64
  scriptPubkey : Script
  deriving DecidableEq, Repr

structure TxIn where
  previousOutput : OutPoint
  scriptSig : Script
  sequence : UInt32
  witness : List Str
  deriving DecidableEq, Repr

structure Transaction where
  version : BitVec 32
  lockTime : UInt32
  input : List TxIn
  output : List TxOut
  deriving DecidableEq, Repr

def varIntSize (n : Nat) : Nat :=
  if n ≤ 0xfc then 1 else if n ≤ 0xffff then 3 else if n ≤ 0xffffffff then 5 else 9

def witnessSize (w : List Str) : Nat :=
  varIntSize w.length + (w.map fun e => varIntSize e.length + e.length).sum

def TxIn.baseSize (i : TxIn) : Nat := 36 + varIntSize i.scriptSig.length + i.scriptSig.length + 4

def TxIn.totalSize (i : TxIn) : Nat := i.baseSize + witnessSize i.witness

def TxOut.size (o : TxOut) : Nat := 8 + varIntSize o.scriptPubkey.length + o.scriptPubkey.length

def Transaction.baseSize (tx : Transaction) : Nat :=
  4 + varIntSize tx.input.length + (tx.input.map TxIn.baseSize).sum +
    varIntSize tx.output.length + (tx.output.map TxOut.size).sum + 4

/-- A transaction without inputs is serialized with the segwit marker, too. -/
def Transaction.usesSegwitSerialization (tx : Transaction) : Bool :=
  tx.input.any (fun i => !i.witness.isEmpty) || tx.input.isEmpty

def Transaction.totalSize (tx : Transaction) : Nat :=
  let segwit := tx.usesSegwitSerialization
  4 + (if segwit then 2 else 0) + varIntSize tx.input.length +
    (tx.input.map fun i => if segwit then i.totalSize else i.baseSize).sum +
    varIntSize tx.output.length + (tx.output.map TxOut.size).sum + 4

def Transaction.weight (tx : Transaction) : Nat := tx.baseSize * 3 + tx.totalSize

def Transaction.vsize (tx : Transaction) : Nat := (tx.weight + 3) / 4

inductive Network where
  | bitcoin
  | testnet
  | testnet4
  | signet
  | regtest
  deriving DecidableEq, Repr

def Script.isP2pkh (s : Script) : Bool :=
  s.length == 25 && s[0]? == some 0x76 && s[1]? == some 0xa9 && s[2]? == some 0x14 &&
    s[23]? == some 0x88 && s[24]? == some 0xac

def Script.isP2sh (s : Script) : Bool :=
  s.length == 23 && s[0]? == some 0xa9 && s[1]? == some 0x14 && s[22]? == some 0x87

def witnessVersionOf (opcode : UInt8) : Option Nat :=
  if opcode = 0 then some 0
  else if 0x51 ≤ opcode && opcode ≤ 0x60 then some (opcode - 0x50).toNat
  else none

def Script.witnessVersion (s : Script) : Option Nat :=
  match s with
  | version :: push :: program =>
    if 4 ≤ s.length ∧ s.length ≤ 42 ∧ 2 ≤ push ∧ push ≤ 40 ∧ program.length = push.toNat then
      witnessVersionOf version
    else none
  | _ => none

/-- Whether `Address::from_script` accepts the script. -/
def Script.hasAddress (s : Script) : Bool :=
  if s.isP2pkh || s.isP2sh then true
  else
    match s.witnessVersion with
    | some 0 => s.length == 22 || s.length == 34
    | some _ => true
    | none => false

def p2wshScript (hash : BitVec 256) : Script := 0x00 :: 0x20 :: beBytes 32 hash

theorem p2wshScript_hasAddress (hash : BitVec 256) : (p2wshScript hash).hasAddress = true := by
  have version : (p2wshScript hash).witnessVersion = some 0 := by
    unfold Script.witnessVersion p2wshScript
    simp only [List.length_cons, beBytes_length]
    decide
  unfold Script.hasAddress
  split
  · rfl
  · rw [version]
    simp [p2wshScript]

end Trinity
