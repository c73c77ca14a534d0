import Userland.Proofs.CallRuns
import Userland.Proofs.Conveying
import Userland.Proofs.LockRuns

/-!
# Histories of channels

Threads that follow scripts keep to the ends of every channel, so whatever happens the state of a
channel agrees with the record (`SyncPlan.conveyed`), and what is recorded is what has been done. Who
uses an end up has it, and then has it no more (`SyncPlan.used_of_spends`, `SyncPlan.taken_of_spends`).
A thread that has come to a part of what it does goes on with it until that is over
(`SyncPlan.programAt_add`).
-/

namespace Userland

open ThreadProgram

namespace SyncPlan

variable (p : SyncPlan) (turns : ℕ → Turn) (c : ChannelId)

/-! ## What happens in a run -/

/-- What a thread has yet to do at each time. -/
def programAt (i : ℕ) (t : Tid) : ThreadProgram Unit := ((p.machineAt turns i).thread t).program

/-- What a thread is told at each time. -/
def toldAt (i : ℕ) (t : Tid) (a : Action) : Option a.Answer :=
  (p.machineAt turns i).told environment (turns i) t a

/-- A thread does something at a time, and gets an answer. -/
def Does (i : ℕ) (t : Tid) (a : Action) (answer : a.Answer) : Prop :=
  (∃ next, p.programAt turns i t = Program.ask a next) ∧ p.toldAt turns i t a = some answer

/-- A thread makes a step at a time, with a call as the next thing to do. -/
def Calls {α : Type} (i : ℕ) (t : Tid) (call : ThreadProgram α) : Prop :=
  (turns i = .step t ∧ ((p.machineAt turns i).thread t).status = .awake) ∧
    ∃ next, p.programAt turns i t = call >>= next

/-- What is left of a part of what a thread does after some turns, if it comes to it at time `i`. -/
def leftAt {α : Type} (t : Tid) (part : ThreadProgram α) (i : ℕ) : ℕ → ThreadProgram α
  | 0 => part
  | d + 1 => (leftAt t part i d).advance (p.toldAt turns (i + d) t)

/-- The call that a thread begins at time `i` has given a result by time `j`. -/
def Returns {α : Type} (t : Tid) (call : ThreadProgram α) (i : ℕ) (x : α) (j : ℕ) : Prop :=
  p.Calls turns i t call ∧ ∃ d, j = i + d ∧ p.leftAt turns t call i d = Program.pure x

/-- A thread uses the sender up: it sends, or drops it. -/
def SpendsSender (i : ℕ) (t : Tid) : Prop :=
  (∃ value, p.Calls turns i t (send c value)) ∨ p.Calls turns i t (dropSender c)

/-- A thread uses the receiver up: it receives, or drops it. -/
def SpendsReceiver (i : ℕ) (t : Tid) : Prop :=
  (∃ value, p.Does turns i t (.receive c) value) ∨ p.Does turns i t (.dropReceiver c) ()

/-- The channel has been settled before a time. -/
def SettledBefore (i : ℕ) : Prop :=
  ∃ k < i, ∃ t value waiter, p.Does turns k t (.settle c value) waiter

/-- What is recorded of a channel at each time. -/
def channelRecordAt : ℕ → ChannelRecord
  | 0 => .start
  | i + 1 => (channelRecordAt i).afterTurn environment c (p.machineAt turns i) (turns i)

/-! ## The record -/

/-- At first all channels are fresh, and their ends lie there. -/
theorem channels_machine : p.machine.channels = Array.replicate p.channels Oneshot.fresh ∧
    p.machine.loneSenders = List.range p.channels ∧ p.machine.loneReceivers = List.range p.channels := by
  rw [machine]
  induction p.threads using List.reverseRecOn with
  | nil => exact ⟨rfl, rfl, rfl⟩
  | append_singleton scripts script ih =>
    rw [List.foldl_append]
    exact ih

variable {c}

theorem conveyed_start (there : c.index < p.channels) : Conveyed c .start p.machine := by
  obtain ⟨stopped, -, -, threads⟩ := p.machine_start
  obtain ⟨channels, senders, receivers⟩ := p.channels_machine
  have channel : p.machine.channel c = Oneshot.fresh := by
    simp [Machine.channel, channels, Array.getD_eq_getD_getElem?, there]
  refine
    { running := stopped
      there := by simpa [channels]
      keeps := fun t => ?_
      lasts := fun t busy => ?_
      waking := by rintro _ _ ⟨⟩
      tells := ?_
      rests := fun t rests => ?_ }
  · rcases threads t with same | ⟨script, same⟩
    · rw [same]
      rfl
    · rw [same]
      exact SyncOp.keepsEnds_performAll ⟨[], []⟩ 0 script
  · rcases threads t with same | ⟨script, same⟩
    · rw [same] at busy
      exact absurd rfl busy
    · rw [same]
      rintro ⟨⟩
  · rw [channel, senders, receivers]
    exact ⟨⟨fun _ => ⟨by rintro ⟨⟩, by rintro _ ⟨⟩⟩, by rintro _ ⟨⟩⟩,
      ⟨fun _ => ⟨fun taken => taken rfl, by rintro _ ⟨⟩⟩, by rintro _ ⟨⟩⟩, by rintro _ ⟨⟩,
      fun _ => rfl, by rintro _ ⟨⟩, rfl, rfl⟩
  · rcases threads t with same | ⟨script, same⟩
    · rw [same] at rests
      exact absurd rfl rests.ne_ended
    · rw [same] at rests
      exact absurd rfl rests.ne_awake

theorem conveyed (there : c.index < p.channels) (i : ℕ) :
    Conveyed c (p.channelRecordAt turns c i) (p.machineAt turns i) := by
  induction i with
  | zero => exact p.conveyed_start there
  | succ i ih => exact ih.turn (turns i)

variable {p} {turns} {i j : ℕ} {t u : Tid} {a : Action}

theorem Does.goes {answer : a.Answer} (does : p.Does turns i t a answer) :
    turns i = .step t ∧ ((p.machineAt turns i).thread t).status = .awake ∧
      (p.machineAt turns i).answer? environment t a = some answer := by
  obtain ⟨-, told⟩ := does
  simp only [toldAt, Machine.told] at told
  split at told
  · rename_i u same
    split at told
    · rename_i goes
      obtain ⟨-, rfl, awake⟩ := goes
      exact ⟨same, awake, told⟩
    · cases told
  · cases told

theorem Does.aim {answer : a.Answer} (does : p.Does turns i t a answer) :
    ((p.machineAt turns i).thread t).aim = some a := by
  obtain ⟨next, does⟩ := does.1
  exact Sound.aim_eq does

/-- What a thread that makes a step is told. -/
theorem toldAt_of_goes (there : c.index < p.channels) (steps : turns i = .step t)
    (awake : ((p.machineAt turns i).thread t).status = .awake) (a : Action) :
    p.toldAt turns i t a = (p.machineAt turns i).answer? environment t a := by
  simp [toldAt, Machine.told, steps, (p.conveyed turns there i).running, awake]

/-- What is done is recorded. -/
theorem record_of_does {answer : a.Answer} (does : p.Does turns i t a answer) :
    p.channelRecordAt turns c (i + 1) = (p.channelRecordAt turns c i).note c t a answer := by
  obtain ⟨next, asks⟩ := does.1
  have told := does.2
  rw [toldAt, does.goes.1] at told
  simp only [channelRecordAt, ChannelRecord.afterTurn, does.goes.1,
    show ((p.machineAt turns i).thread t).program = Program.ask a next from asks, told, Option.elim_some]

variable (p turns c i) in
/-- What is recorded has been done. -/
theorem record_succ : p.channelRecordAt turns c (i + 1) = p.channelRecordAt turns c i ∨
    ∃ t a answer, p.Does turns i t a answer := by
  simp only [channelRecordAt, ChannelRecord.afterTurn]
  split
  · exact .inl rfl
  · rename_i t steps
    split
    · rename_i a next asks
      cases told : p.toldAt turns i t a with
      | some answer => exact .inr ⟨t, a, answer, ⟨next, asks⟩, told⟩
      | none =>
        rw [toldAt] at told
        rw [told]
        exact .inl rfl
    · exact .inl rfl

/-- What is recorded stays. -/
theorem record_le (there : c.index < p.channels) (le : i ≤ j) :
    (p.channelRecordAt turns c i).Extends (p.channelRecordAt turns c j) := by
  induction le with
  | refl => exact .refl _
  | @step j _ ih =>
    refine ih.trans ?_
    rcases record_succ p turns c j with same | ⟨t, a, answer, does⟩
    · exact same ▸ .refl _
    · rw [record_of_does does]
      exact (p.conveyed turns there j).extends_note does.aim answer

theorem phase_of_does {answer : a.Answer} (does : p.Does turns i t a answer) :
    (p.channelRecordAt turns c (i + 1)).phase t =
      ((p.channelRecordAt turns c i).phase t).after c a answer := by
  rw [record_of_does does, ChannelRecord.note_phase, Function.update_self]

theorem phase_of_idle (idle : ∀ a answer, ¬p.Does turns i t a answer) :
    (p.channelRecordAt turns c (i + 1)).phase t = (p.channelRecordAt turns c i).phase t := by
  rcases record_succ p turns c i with same | ⟨u, a, answer, does⟩
  · rw [same]
  · rw [record_of_does does, ChannelRecord.note_phase, Function.update_of_ne]
    rintro rfl
    exact idle a answer does

/-- How the channel has been settled has been done before. -/
theorem does_of_settled {value : Option Signal}
    (settled : (p.channelRecordAt turns c i).settled = some value) :
    ∃ k < i, ∃ t waiter, p.Does turns k t (.settle c value) waiter := by
  induction i with
  | zero => cases settled
  | succ i ih =>
    -- What was settled before stays so. Otherwise this turn has settled the channel, and only `settle` does that.
    have before (settled : (p.channelRecordAt turns c i).settled = some value) :
        ∃ k < i + 1, ∃ t waiter, p.Does turns k t (.settle c value) waiter :=
      have ⟨k, lt, does⟩ := ih settled
      ⟨k, Nat.lt_succ_of_lt lt, does⟩
    rcases record_succ p turns c i with same | ⟨t, a, answer, does⟩
    · exact before (same ▸ settled)
    · rw [record_of_does does] at settled
      cases a with
      | settle c' value' =>
        simp only [ChannelRecord.note] at settled
        split at settled
        · rename_i here
          subst here
          cases settled
          exact ⟨i, Nat.lt_succ_self i, t, answer, does⟩
        · exact before settled
      | hasReceiver | receive | dropReceiver =>
        simp only [ChannelRecord.note] at settled
        split at settled <;> exact before settled
      | _ => exact before settled

/-- How the receiver has been used up has been done before. -/
theorem does_of_taken {way : Option (Option Signal)}
    (taken : (p.channelRecordAt turns c i).taken = some way) : ∃ k < i, ∃ t,
      way.elim (p.Does turns k t (.dropReceiver c) ()) (p.Does turns k t (.receive c)) := by
  induction i with
  | zero => cases taken
  | succ i ih =>
    -- Only the two ways to use the receiver up change what is recorded of it.
    have before (taken : (p.channelRecordAt turns c i).taken = some way) : ∃ k < i + 1, ∃ t,
        way.elim (p.Does turns k t (.dropReceiver c) ()) (p.Does turns k t (.receive c)) :=
      have ⟨k, lt, does⟩ := ih taken
      ⟨k, Nat.lt_succ_of_lt lt, does⟩
    rcases record_succ p turns c i with same | ⟨t, a, answer, does⟩
    · exact before (same ▸ taken)
    · rw [record_of_does does] at taken
      cases a with
      | receive c' | dropReceiver c' =>
        simp only [ChannelRecord.note] at taken
        split at taken
        · rename_i here
          subst here
          cases taken
          exact ⟨i, Nat.lt_succ_self i, t, does⟩
        · exact before taken
      | hasReceiver | settle =>
        simp only [ChannelRecord.note] at taken
        split at taken <;> exact before taken
      | _ => exact before taken

/-- The channel has been settled if, and only if, that is recorded. -/
theorem settledBefore_iff (there : c.index < p.channels) :
    p.SettledBefore turns c i ↔ (p.channelRecordAt turns c i).settled ≠ none := by
  constructor
  · rintro ⟨k, lt, t, value, waiter, does⟩
    have settled : (p.channelRecordAt turns c (k + 1)).settled = some value := by
      rw [record_of_does does]
      simp [ChannelRecord.note]
    rw [(record_le there lt).settled value settled]
    simp
  · intro settled
    obtain ⟨value, settled⟩ := Option.ne_none_iff_exists'.1 settled
    obtain ⟨k, lt, t, waiter, does⟩ := does_of_settled settled
    exact ⟨k, lt, t, value, waiter, does⟩

/-- The receiver has been used up if, and only if, that is recorded. -/
theorem spendsReceiver_iff (there : c.index < p.channels) :
    (∃ k < i, ∃ t, p.SpendsReceiver turns c k t) ↔ (p.channelRecordAt turns c i).taken ≠ none := by
  constructor
  · rintro ⟨k, lt, t, ⟨value, does⟩ | does⟩
    · have taken : (p.channelRecordAt turns c (k + 1)).taken = some (some value) := by
        rw [record_of_does does]
        simp [ChannelRecord.note]
      rw [(record_le there lt).taken _ taken]
      simp
    · have taken : (p.channelRecordAt turns c (k + 1)).taken = some none := by
        rw [record_of_does does]
        simp [ChannelRecord.note]
      rw [(record_le there lt).taken _ taken]
      simp
  · intro taken
    obtain ⟨way, taken⟩ := Option.ne_none_iff_exists'.1 taken
    obtain ⟨k, lt, t, does⟩ := does_of_taken taken
    cases way with
    | none => exact ⟨k, lt, t, .inr does⟩
    | some value => exact ⟨k, lt, t, .inl ⟨value, does⟩⟩

/-! ## The ends are used once -/

theorem Calls.does {α : Type} {first : a.Answer → ThreadProgram α} (there : c.index < p.channels)
    (calls : p.Calls turns i t (Program.ask a first)) {answer : a.Answer}
    (answered : (p.machineAt turns i).answer? environment t a = some answer) :
    p.Does turns i t a answer :=
  have ⟨goes, _, here⟩ := calls
  ⟨⟨_, here⟩, (toldAt_of_goes there goes.1 goes.2 a).trans answered⟩

/-- Who sends asks first whether there is a receiver. -/
theorem Calls.asks (there : c.index < p.channels) {value : Signal}
    (calls : p.Calls turns i t (send c value)) :
    p.Does turns i t (.hasReceiver c) ((p.machineAt turns i).channel c).receiver :=
  Calls.does (a := .hasReceiver c) there calls rfl

/-- Who drops the sender settles the channel. -/
theorem Calls.settles (there : c.index < p.channels) (calls : p.Calls turns i t (dropSender c)) :
    p.Does turns i t (.settle c none) ((p.machineAt turns i).channel c).waiter :=
  Calls.does (a := .settle c none) there calls rfl

/-- Who uses the sender up has it, and then has it no more. -/
theorem used_of_spends (there : c.index < p.channels) (spends : p.SpendsSender turns c i t) :
    (p.channelRecordAt turns c i).used ≠ true ∧ (p.channelRecordAt turns c (i + 1)).used = true := by
  have conveyed := p.conveyed turns there i
  have unused (sender : (p.channelRecordAt turns c i).phase t = .sender) :=
    (conveyed.tells.sender.once t sender).1
  rcases spends with ⟨value, sends⟩ | drops
  · have does := sends.asks there
    refine ⟨unused (conveyed.phase_of_hasReceiver does.aim), ?_⟩
    rw [record_of_does does]
    simp [ChannelRecord.note]
  · have does := drops.settles there
    have sender := (conveyed.phase_of_settle does.aim).resolve_right fun sends => by
      cases sends.2.choose_spec
    refine ⟨unused sender.1, ?_⟩
    rw [record_of_does does]
    simp [ChannelRecord.note]

/-- Who uses the receiver up has it, and then has it no more. -/
theorem taken_of_spends (there : c.index < p.channels) (spends : p.SpendsReceiver turns c i t) :
    (p.channelRecordAt turns c i).taken = none ∧ (p.channelRecordAt turns c (i + 1)).taken ≠ none := by
  have conveyed := p.conveyed turns there i
  refine ⟨?_, (spendsReceiver_iff there).1 ⟨i, Nat.lt_succ_self i, t, spends⟩⟩
  rcases spends with ⟨value, does⟩ | does
  · exact conveyed.tells.untaken (conveyed.phase_of_receive does.aim)
  · exact conveyed.tells.untaken (conveyed.phase_of_dropReceiver does.aim)

theorem SpendsSender.steps (spends : p.SpendsSender turns c i t) :
    turns i = .step t := by
  rcases spends with ⟨value, sends⟩ | drops
  · exact sends.1.1
  · exact drops.1.1

theorem SpendsReceiver.steps (spends : p.SpendsReceiver turns c i t) : turns i = .step t := by
  rcases spends with ⟨value, does⟩ | does
  · exact does.goes.1
  · exact does.goes.1

/-! ## Parts of what a thread does -/

theorem programAt_succ (there : c.index < p.channels) :
    p.programAt turns (i + 1) t = (p.programAt turns i t).advance (p.toldAt turns i t) :=
  (p.conveyed turns there i).program_turn (turns i)

theorem programAt_of_does (there : c.index < p.channels) {next : a.Answer → ThreadProgram Unit}
    (asks : p.programAt turns i t = Program.ask a next) {answer : a.Answer}
    (does : p.Does turns i t a answer) : p.programAt turns (i + 1) t = next answer := by
  rw [programAt_succ there, asks, Program.advance, does.2, Option.elim_some]

theorem programAt_of_idle (there : c.index < p.channels)
    (idle : ∀ a answer, ¬p.Does turns i t a answer) :
    p.programAt turns (i + 1) t = p.programAt turns i t := by
  rw [programAt_succ there]
  cases does : p.programAt turns i t with
  | pure result => rfl
  | ask a next =>
    cases told : p.toldAt turns i t a with
    | some answer => exact absurd ⟨⟨next, does⟩, told⟩ (idle a answer)
    | none => rw [Program.advance, told, Option.elim_none]

/-- A thread that has come to a part of what it does goes on with it until that is over. -/
theorem programAt_add {α : Type} (there : c.index < p.channels) {part : ThreadProgram α}
    {next : α → ThreadProgram Unit} {d : ℕ} (here : p.programAt turns i t = part >>= next)
    (ongoing : ∀ e < d, ∀ x, p.leftAt turns t part i e ≠ Program.pure x) :
    p.programAt turns (i + d) t = p.leftAt turns t part i d >>= next := by
  induction d with
  | zero => exact here
  | succ d ih =>
    have before := ih fun e lt => ongoing e (Nat.lt_succ_of_lt lt)
    rw [← Nat.add_assoc, programAt_succ there, before, leftAt, Program.advance_bind (ongoing d (Nat.lt_succ_self d))]

theorem leftAt_of_pure {α : Type} {part : ThreadProgram α} {x : α} {d e : ℕ} (le : d ≤ e)
    (over' : p.leftAt turns t part i d = Program.pure x) :
    p.leftAt turns t part i e = Program.pure x := by
  induction le with
  | refl => exact over'
  | step _ ih =>
    rw [leftAt, ih]
    rfl

theorem only_leftAt {α : Type} {P : Action → Prop} {R : α → Prop} {part : ThreadProgram α} {d e : ℕ}
    (le : d ≤ e) (only : (p.leftAt turns t part i d).Only P R) :
    (p.leftAt turns t part i e).Only P R := by
  induction le with
  | refl => exact only
  | step _ ih => exact ih.advance

/-- What begins with an action is over only after that has been done. -/
theorem does_of_over {α : Type} (there : c.index < p.channels) {part : ThreadProgram α}
    {next : α → ThreadProgram Unit} {d e : ℕ} {x : α} {first : a.Answer → ThreadProgram α}
    (here : p.programAt turns i t = part >>= next)
    (left : p.leftAt turns t part i d = Program.ask a first)
    (over' : p.leftAt turns t part i (d + e) = Program.pure x) :
    ∃ f < e, ∃ answer, p.Does turns (i + (d + f)) t a answer := by
  induction e generalizing d with
  | zero => exact nomatch left.symm.trans over'
  | succ e ih =>
    -- What is over stays over, so the part was not over before it came to the action.
    have ongoing : ∀ f < d, ∀ x, p.leftAt turns t part i f ≠ Program.pure x := fun f lt x gone =>
      nomatch left.symm.trans (leftAt_of_pure (Nat.le_of_lt lt) gone)
    have asks : p.programAt turns (i + d) t = Program.ask a first >>= next :=
      left ▸ programAt_add there here ongoing
    cases told : p.toldAt turns (i + d) t a with
    | some answer => exact ⟨0, Nat.succ_pos e, answer, ⟨_, asks⟩, told⟩
    | none =>
      have still : p.leftAt turns t part i (d + 1) = Program.ask a first := by
        rw [leftAt, left, Program.advance, told, Option.elim_none]
      obtain ⟨f, lt, answer, does⟩ := ih still (by rwa [Nat.add_assoc, Nat.add_comm 1 e])
      exact ⟨f + 1, Nat.succ_lt_succ lt, answer, by rwa [Nat.add_assoc, Nat.add_comm 1 f] at does⟩

end SyncPlan

end Userland
