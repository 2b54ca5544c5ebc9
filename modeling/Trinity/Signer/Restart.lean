import Trinity.Signer.CoreState
import Trinity.Signer.Local
import Trinity.Signer.Runs

/-!
The spend window across restarts of the app. A counter lives through spends,
passphrase changes and seal/open cycles; the format can hold every state it
reaches, so what is opened is what was sealed.
-/
namespace Trinity

open Outcome Word SlidingLedger

structure Observation.Known (obs : Observation) : Prop where
  boot : obs.bootId ≠ some unknownU64
  height : obs.tipHeight ≠ some unknownU32
  wall : obs.wallUnixNs ≠ some unknownU64

section Life

variable (env : StatePrimitives)

def Issued (approval : SpendApproval) : Prop :=
  ∃ policy request c live,
    SpendRequest.authorize env.toPrimitives request policy c = (.ok approval, live)

/-- Readings are known, and only approvals of `authorize` are committed. -/
def WindowOp.Regular : WindowOp → Prop
  | .authorize _ request => request.observation.Known
  | .commit approval => Issued env approval
  | .setPassphraseUsed _ => True
  | .signAb _ call => call.request.observation.Known

/-- The life of a counter. Policies may change from one operation to the next. -/
inductive Lifetime : WindowCounter → Prop where
  | new {kek : Str} {c : WindowCounter} (fresh : WindowCounter.new kek = .ok c) : Lifetime c
  | op {c : WindowCounter} (before : Lifetime c) (op : WindowOp) (regular : op.Regular env) :
      Lifetime (op.apply env.toPrimitives c)
  | restart {c reopened : WindowCounter} (before : Lifetime c) {drawn : Option (BitVec 192)}
      {blob : Str} (sealed : c.seal env drawn = .ok blob)
      (opened : WindowCounter.open env c.kek blob = .ok reopened) : Lifetime reopened

variable {env}

theorem Lifetime.signAb {c : WindowCounter} (before : Lifetime env c) (policy : SpendPolicy)
    {call : SignCall} (known : call.request.observation.Known) :
    Lifetime env (call.run env.toPrimitives policy c).counter :=
  .op before (.signAb policy call) known

structure Durable (c : WindowCounter) : Prop where
  key : c.kek.length = 32
  ledger : ∃ L, Refines c.state L
  storable : c.state.Storable

theorem newer_known {α : Type} {reported stored : Option α} {unknown : α}
    (known : reported ≠ some unknown) (before : stored ≠ some unknown) :
    newer reported stored ≠ some unknown := by
  cases reported with
  | none => exact before
  | some x => exact known

theorem storable_advance {s : CoreState} (storable : s.Storable) {obs : Observation}
    (known : obs.Known) : (s.advance obs).Storable := by
  have rows := advance_bookings s obs
  refine ⟨?_, ?_, ?_, rows ▸ storable.rows, rows ▸ storable.bounded⟩
  all_goals
    unfold CoreState.advance
    split
  · exact newer_known known.height storable.height
  · exact known.height
  · exact newer_known known.boot storable.boot
  · exact known.boot
  · exact newer_known known.wall storable.wall
  · exact known.wall

theorem storable_prune {s : CoreState} (storable : s.Storable) (window : Nat) :
    (s.prune window).Storable where
  height := storable.height
  boot := storable.boot
  wall := storable.wall
  rows b member := storable.rows b (List.mem_of_mem_filter member)
  bounded := (List.length_filter_le _ _).trans storable.bounded

theorem inputSet_storable {psbt : Psbt} {set : OrderedSet OutPoint}
    (collected : inputSet psbt = .ok set) : set.elems ≠ [] ∧ set.elems.length ≤ maxInputs := by
  simp only [inputSet, bind_eq_ok, rejectIf_eq_ok, pure_ok, Except.ok.injEq] at collected
  obtain ⟨_, inhabited, _, few, rfl⟩ := collected
  constructor
  · intro empty
    have none : ∀ o, o ∉ psbt.unsignedTx.input.map TxIn.previousOutput := by
      intro o member
      have : o ∈ (OrderedSet.collect (psbt.unsignedTx.input.map TxIn.previousOutput)).elems :=
        mem_collectSorted.mpr member
      rw [empty] at this
      simp at this
    exact inhabited (by simpa using List.eq_nil_iff_forall_not_mem.mpr none)
  · have shorter := collectSorted_length_le (psbt.unsignedTx.input.map TxIn.previousOutput)
    rw [List.length_map] at shorter
    exact shorter.trans (Nat.le_of_not_lt few)

theorem storable_commit {s : CoreState} (storable : s.Storable) {L : Ledger (Finset OutPoint)}
    (ref : Refines s L) {a : SpendApproval} {psbt : Psbt}
    (collected : inputSet psbt = .ok a.inputSet) : (s.commit a).Storable where
  height := storable.height
  boot := storable.boot
  wall := storable.wall
  rows b member := by
    rcases commit_member member with old | rfl | ⟨old, there, same, _⟩
    · exact storable.rows b old
    · exact inputSet_storable collected
    · have row := storable.rows old there
      rw [BookedSpend.Storable, ← same] at row
      exact row
  bounded := (refines_commit ref a).bounded

theorem durable_new {kek : Str} {c : WindowCounter} (fresh : WindowCounter.new kek = .ok c) :
    Durable c := by
  have ledger := new_refines fresh
  simp only [WindowCounter.new, bind_eq_ok, rejectIf_eq_ok, pure_ok, Except.ok.injEq] at fresh
  obtain ⟨_, key, rfl⟩ := fresh
  refine ⟨not_not.mp key, ⟨_, ledger⟩, ?_⟩
  exact ⟨by simp [CoreState.empty], by simp [CoreState.empty], by simp [CoreState.empty],
    by simp [CoreState.empty], ledger.bounded⟩

theorem durable_live {c : WindowCounter} (durable : Durable c) {policy : SpendPolicy}
    (valid : policy.validate = .ok policy) {obs : Observation} (known : obs.Known) :
    Durable (c.live policy obs) := by
  obtain ⟨L, ref⟩ := durable.ledger
  exact ⟨durable.key, ⟨_, refines_live ref valid obs⟩,
    storable_prune (storable_advance durable.storable known) policy.window⟩

theorem durable_commit {c : WindowCounter} (durable : Durable c) {a : SpendApproval} {psbt : Psbt}
    (collected : inputSet psbt = .ok a.inputSet) : Durable (c.commit a) := by
  obtain ⟨L, ref⟩ := durable.ledger
  exact ⟨durable.key, ⟨_, refines_commit ref a⟩, storable_commit durable.storable ref collected⟩

theorem durable_authorize {c : WindowCounter} (durable : Durable c) (policy : SpendPolicy)
    {request : SpendRequest} (known : request.observation.Known) :
    Durable (request.authorize env.toPrimitives policy c).2 := by
  unfold SpendRequest.authorize WindowCounter.authorize
  split
  · exact durable
  · rename_i q valid
    obtain ⟨same, _⟩ := validate_eq_ok valid
    exact durable_live durable (same ▸ valid) known

theorem approve_collected {s : CoreState} {env : Primitives} {policy : SpendPolicy} {psbt : Psbt}
    {descriptor : Str} {verify : VerifyPolicy} {balance : Balance} {a : SpendApproval}
    (approved : s.approve env policy psbt descriptor verify balance = .ok a) :
    inputSet psbt = .ok a.inputSet := by
  simp only [CoreState.approveIn, monadLift_self, bind_eq_ok, pure_ok, Except.ok.injEq] at approved
  obtain ⟨_, _, _, _, set, collected, _, _, _, _, rfl⟩ := approved
  exact collected

theorem durable_signAb {c : WindowCounter} (durable : Durable c) (policy : SpendPolicy)
    {call : SignCall} (known : call.request.observation.Known) :
    Durable (call.run env.toPrimitives policy c).counter := by
  cases result : (call.run env.toPrimitives policy c).result with
  | error e =>
    rw [SignCall.run, signAb_error result]
    exact durable_authorize durable policy known
  | ok signed =>
    obtain ⟨approval, _, _, valid, approved, _, _, _, _, booked⟩ := signAb_eq_ok result
    rw [SignCall.run, booked]
    exact durable_commit (durable_live durable valid known) (approve_collected approved)

theorem durable_apply {c : WindowCounter} (durable : Durable c) {op : WindowOp}
    (regular : op.Regular env) : Durable (op.apply env.toPrimitives c) := by
  cases op with
  | authorize policy request => exact durable_authorize durable policy regular
  | commit approval =>
    obtain ⟨policy, request, before, live, issued⟩ := regular
    obtain ⟨_, _, approved⟩ := authorize_eq_ok issued
    exact durable_commit durable (approve_collected approved)
  | setPassphraseUsed used =>
    obtain ⟨L, ref⟩ := durable.ledger
    have storable := durable.storable
    exact ⟨durable.key, ⟨L, refines_passphrase ref used⟩,
      ⟨storable.height, storable.boot, storable.wall, storable.rows, storable.bounded⟩⟩
  | signAb policy call => exact durable_signAb durable policy regular

theorem restart_same (cipher : AeadRoundTrip env) {c reopened : WindowCounter}
    (durable : Durable c) {drawn : Option (BitVec 192)} {blob : Str}
    (sealed : c.seal env drawn = .ok blob)
    (opened : WindowCounter.open env c.kek blob = .ok reopened) : reopened = c := by
  cases drawn with
  | none => simp [WindowCounter.seal, CoreState.encrypt, bind_eq_ok] at sealed
  | some nonce =>
    obtain ⟨blob', sealed', opened'⟩ := open_seal cipher durable.key durable.storable nonce
    obtain rfl : blob' = blob := Except.ok.inj (sealed'.symm.trans sealed)
    exact Except.ok.inj (opened.symm.trans opened')

theorem lifetime_durable (cipher : AeadRoundTrip env) {c : WindowCounter}
    (life : Lifetime env c) : Durable c := by
  induction life with
  | new fresh => exact durable_new fresh
  | op _ op regular ih => exact durable_apply ih regular
  | restart _ sealed opened ih => exact restart_same cipher ih sealed opened ▸ ih

/-- In every counter's life the ledger is well formed, sealing succeeds for
    every nonce drawn, and the blob opens to the very same counter: whatever is
    asked of it later, the answers are those of the counter that was sealed. -/
theorem restart_keeps_limit (cipher : AeadRoundTrip env) {c : WindowCounter}
    (life : Lifetime env c) :
    c.state.bookings.length ≤ 256 ∧
    (c.state.bookings.map fun b => b.inputs.toFinset).Nodup ∧
    (∀ b ∈ c.state.bookings, b.inputs ≠ [] ∧ b.inputs.Nodup ∧ b.inputs.length ≤ 100 ∧
      b.elapsedAtNs ≤ c.state.windowElapsedNs) ∧
    ∀ nonce : BitVec 192, ∃ blob, c.seal env (some nonce) = .ok blob ∧
      WindowCounter.open env c.kek blob = .ok c := by
  have durable := lifetime_durable cipher life
  obtain ⟨L, ref⟩ := durable.ledger
  refine ⟨ref.bounded, ref.distinct, ?_, ?_⟩
  · intro b member
    obtain ⟨inhabited, few⟩ := durable.storable.rows b member
    exact ⟨inhabited, sorted_nodup (ref.sorted b member), few, ref.past b member⟩
  · intro nonce
    exact open_seal cipher durable.key durable.storable nonce

end Life

namespace Sample

theorem stateEnv_roundTrip : AeadRoundTrip stateEnv := by
  intro kek nonce header message _ _ small
  obtain ⟨body, sealed⟩ := XChaCha.encrypt_total kek nonce header
    (show message.length / 64 < XChaCha.maxBlocks by unfold XChaCha.maxBlocks; omega)
  exact ⟨body, sealed, XChaCha.encrypt_length sealed, XChaCha.decrypt_eq_some.mpr sealed⟩

def bookedOnce : WindowCounter :=
  (unlocked.live spendPolicy (request 60).observation).commit approval

theorem bookedOnce_run : ((call 60).run env spendPolicy unlocked).counter = bookedOnce := by
  rw [call_run 60 unlocked rfl (by decide) (by decide)]
  rfl

theorem bookedOnce_lifetime : Lifetime stateEnv bookedOnce := by
  have alive : Lifetime stateEnv unlocked :=
    .op (.new installed_new) (.setPassphraseUsed true) trivial
  have known : (call 60).request.observation.Known := ⟨by decide, by decide, by decide⟩
  have signed := alive.signAb spendPolicy known
  have same : stateEnv.toPrimitives = env := rfl
  rw [same, bookedOnce_run] at signed
  exact signed

end Sample

theorem restart_keeps_limit_sample : Sample.bookedOnce.state.bookings.length = 1 ∧
    ∃ blob, Sample.bookedOnce.seal Sample.stateEnv (some 7) = .ok blob ∧
      WindowCounter.open Sample.stateEnv Sample.bookedOnce.kek blob = .ok Sample.bookedOnce :=
  ⟨by decide, (restart_keeps_limit Sample.stateEnv_roundTrip
    Sample.bookedOnce_lifetime).2.2.2 7⟩

end Trinity
