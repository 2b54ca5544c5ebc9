import Trinity.Lib.Codec
import Trinity.Watch.Build

/-!
The wire form of `descriptor.json`, and its text in the pretty layout of
`serde_json`: two blanks a level, the fields in the order of the records, no
`policy_id` where there is none.
-/
namespace Trinity

namespace Watch

structure WordCountMap where
  a : UInt8
  b : UInt8
  c : UInt8
  deriving DecidableEq, Repr

structure WireKey where
  slot : KeySlot
  fingerprint : Str
  originPath : Str
  xpub : Str
  birthdayHeight : UInt32
  source : KeySource
  policyId : Option Str
  deriving DecidableEq, Repr

structure WireDocument where
  formatVersion : UInt32
  network : Network
  createdAtUnix : UInt64
  receiveDescriptor : Str
  changeDescriptor : Str
  wordCount : WordCountMap
  keys : Triple WireKey
  deriving DecidableEq, Repr

/-- `serde_json` at the wire document. Errors are their texts. -/
structure SerdeJson where
  toStringPretty : WireDocument → Except Str Str
  fromStr : Str → Except Str WireDocument

def SerdeJson.ReadsBack (json : SerdeJson) : Prop :=
  ∀ wire, ∃ text, json.toStringPretty wire = .ok text ∧ json.fromStr text = .ok wire

namespace Text

open Codec

section Tokens

variable (stop : Str) (ends : ∀ d, ¬ stop <+: digitWord d ∧ ¬ digitWord d <+: stop)

def u8 : Codec UInt8 UInt8 :=
  (number (2 ^ 8) stop (digit_before ends)).as (fun n => some (.ofFin n)) UInt8.toFin
    fun _ => rfl

def u32 : Codec UInt8 UInt32 :=
  (number (2 ^ 32) stop (digit_before ends)).as (fun n => some (.ofFin n)) UInt32.toFin
    fun _ => rfl

def u64 : Codec UInt8 UInt64 :=
  (number (2 ^ 64) stop (digit_before ends)).as (fun n => some (.ofFin n)) UInt64.toFin
    fun _ => rfl

end Tokens

section Names

def slotWord : KeySlot → Str
  | .a => bytes "A\""
  | .b => bytes "B\""
  | .c => bytes "C\""

theorem slotWord_prefixFree : Framing.PrefixFree slotWord where
  inhabited x := by cases x <;> decide
  apart x y := by cases x <;> cases y <;> decide

def slot : Codec UInt8 KeySlot :=
  oneOf slotWord [.a, .b, .c] (fun x => by cases x <;> decide) slotWord_prefixFree

def networkWord : Network → Str
  | .bitcoin => bytes "bitcoin\""
  | .testnet => bytes "testnet\""
  | .signet => bytes "signet\""
  | .regtest => bytes "regtest\""

theorem networkWord_prefixFree : Framing.PrefixFree networkWord where
  inhabited x := by cases x <;> decide
  apart x y := by cases x <;> cases y <;> decide

def network : Codec UInt8 Network :=
  oneOf networkWord [.bitcoin, .testnet, .signet, .regtest] (fun x => by cases x <;> decide)
    networkWord_prefixFree

end Names

section Records

/-- Behind the opening quote of the `type`. -/
def keySource : Codec UInt8 KeySource :=
  (either (bytes "in_app\"\n      \x7d") (bytes "hardware\",\n        \"model\": \"") (by decide)
      nothing (string.before (bytes "\n      \x7d"))).as
    (fun s => some (s.elim (fun _ => .inApp) .hardware))
    (fun | .inApp => .inl () | .hardware model => .inr model)
    (fun source => by cases source <;> rfl)

/-- The end of a key record, with the `policy_id` where there is one. -/
def policyId : Codec UInt8 (Option Str) :=
  (either (bytes "\n    \x7d") (bytes ",\n      \"policy_id\": \"") (by decide)
      nothing (string.before (bytes "\n    \x7d"))).as
    (fun s => some (s.elim (fun _ => none) some))
    (fun | none => .inl () | some id => .inr id)
    (fun id => by cases id <;> rfl)

def wireKey : Codec UInt8 WireKey :=
  ((slot.after (bytes "\x7b\n      \"slot\": \"")).both <|
    (string.after (bytes ",\n      \"fingerprint\": \"")).both <|
    (string.after (bytes ",\n      \"origin_path\": \"")).both <|
    (string.after (bytes ",\n      \"xpub\": \"")).both <|
    ((u32 (bytes ",\n      \"source\": \x7b\n        \"type\": \"") (by decide)).after
      (bytes ",\n      \"birthday_height\": ")).both <|
    keySource.both policyId).as
    (fun t => some ⟨t.1, t.2.1, t.2.2.1, t.2.2.2.1, t.2.2.2.2.1, t.2.2.2.2.2.1, t.2.2.2.2.2.2⟩)
    (fun k => (k.slot, k.fingerprint, k.originPath, k.xpub, k.birthdayHeight, k.source, k.policyId))
    fun _ => rfl

def wordCountMap : Codec UInt8 WordCountMap :=
  (((u8 (bytes ",\n    \"B\": ") (by decide)).after (bytes "\x7b\n    \"A\": ")).both <|
    (u8 (bytes ",\n    \"C\": ") (by decide)).both (u8 (bytes "\n  \x7d") (by decide))).as
    (fun t => some ⟨t.1, t.2.1, t.2.2⟩) (fun m => (m.a, m.b, m.c)) fun _ => rfl

def wireKeys : Codec UInt8 (Triple WireKey) :=
  ((wireKey.after (bytes "[\n    ")).both <| (wireKey.after (bytes ",\n    ")).both <|
    (wireKey.after (bytes ",\n    ")).before (bytes "\n  ]")).as
    (fun t => some ⟨t.1, t.2.1, t.2.2⟩) (fun t => (t.first, t.second, t.third)) fun _ => rfl

def wireDocument : Codec UInt8 WireDocument :=
  (((u32 (bytes ",\n  \"network\": \"") (by decide)).after
      (bytes "\x7b\n  \"format_version\": ")).both <|
    network.both <|
    ((u64 (bytes ",\n  \"receive_descriptor\": \"") (by decide)).after
      (bytes ",\n  \"created_at_unix\": ")).both <|
    string.both <|
    (string.after (bytes ",\n  \"change_descriptor\": \"")).both <|
    (wordCountMap.after (bytes ",\n  \"word_count\": ")).both <|
    (wireKeys.after (bytes ",\n  \"keys\": ")).before (bytes "\n\x7d")).as
    (fun t => some ⟨t.1, t.2.1, t.2.2.1, t.2.2.2.1, t.2.2.2.2.1, t.2.2.2.2.2.1, t.2.2.2.2.2.2⟩)
    (fun d => (d.formatVersion, d.network, d.createdAtUnix, d.receiveDescriptor,
      d.changeDescriptor, d.wordCount, d.keys))
    fun _ => rfl

end Records

end Text

/-- The library at its own layout. It also reads other spacing, other orders of the
    fields and other escapes, and its error texts say where it stopped. -/
def SerdeJson.pretty : SerdeJson where
  toStringPretty wire := .ok (Text.wireDocument.write wire)
  fromStr text :=
    match Text.wireDocument.read text with
    | some (wire, []) => .ok wire
    | _ => .error []

theorem SerdeJson.pretty_readsBack : SerdeJson.pretty.ReadsBack := by
  intro wire
  have read := Text.wireDocument.inverse wire []
  rw [List.append_nil] at read
  refine ⟨_, rfl, ?_⟩
  simp only [SerdeJson.pretty, read]

end Watch

end Trinity
