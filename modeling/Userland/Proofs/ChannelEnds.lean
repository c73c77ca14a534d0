import Userland.Proofs.Locking

/-!
# Keeping to the ends of a channel

A thread keeps to the ends of a channel if it sends, or drops the sender, only while it has the sender, and
receives, or drops the receiver, only while it has the receiver; either uses the end up. When it has settled
the channel it wakes at once whom it has to wake (`Program.KeepsEnds`). Where the thread is with the channel
is its `EndPhase`. The scripts for locks and channels keep to the ends of every channel, whatever their
operations are (`SyncOp.keepsEnds_performAll`).
-/

namespace Userland

open ThreadProgram

/-- Where a thread is with a channel. -/
inductive EndPhase where
  /-- It has neither end. -/
  | outside
  /-- It has the sender. -/
  | sender
  /-- It has the sender and is about to send: it has seen that there is a receiver. -/
  | committed
  /-- It has settled the channel, and is about to wake the thread that waits for that. -/
  | waking (waiter : Tid)
  /-- It has the receiver. -/
  | receiver
deriving DecidableEq

/-- The action does not concern the ends of a channel, makes neither a thread nor a channel, is not tried
    in vain, and stops neither the thread nor its program nor the machine. -/
def Action.IsAside (c : ChannelId) : Action → Prop
  | .spawn .. | .newChannel | .lockRegistry _ | .endThread | .goto _ | .stop _ => False
  | .hasReceiver c' | .settle c' _ | .receive c' | .dropReceiver c' | .claimSender c'
  | .claimReceiver c' => c' ≠ c
  | _ => True

theorem Action.TouchesOnly.isAside {lock : Option LockId} {channel : Option ChannelId} {c : ChannelId}
    {a : Action} (touches : a.TouchesOnly lock channel) (other : channel ≠ some c) : a.IsAside c := by
  cases a with
  | spawn | newChannel | lockRegistry | endThread | goto | stop => exact touches
  | hasReceiver c' | settle c' _ | receive c' | dropReceiver c' | claimSender c'
  | claimReceiver c' => exact fun here : c' = c => other (here ▸ touches)
  | _ => trivial

namespace EndPhase

/-- What a thread may do as it is with a channel. -/
def Allows (c : ChannelId) : EndPhase → Action → Prop
  | outside, a => a.IsAside c ∨ a = .claimSender c ∨ a = .claimReceiver c
  | sender, a => a = .hasReceiver c ∨ a = .settle c none
  | committed, a => ∃ value, a = .settle c (some value)
  | waking u, a => a = .unblock u
  | receiver, a => a = .receive c ∨ a = .dropReceiver c

section

variable {p : EndPhase} {c : ChannelId} {a : Action}

theorem allows_hasReceiver : p.Allows c (.hasReceiver c) ↔ p = .sender := by
  cases p <;> simp [Allows, Action.IsAside]

theorem allows_settle {value : Option Signal} : p.Allows c (.settle c value) ↔
    p = .sender ∧ value = none ∨ p = .committed ∧ ∃ signal, value = some signal := by
  cases p <;> simp [Allows, Action.IsAside]

theorem allows_receive : p.Allows c (.receive c) ↔ p = .receiver := by
  cases p <;> simp [Allows, Action.IsAside]

theorem allows_dropReceiver : p.Allows c (.dropReceiver c) ↔ p = .receiver := by
  cases p <;> simp [Allows, Action.IsAside]

theorem not_allows_spawn {name : String} {priority : UInt8} {start : NewProcess} :
    ¬p.Allows c (.spawn name priority start) := by
  cases p <;> simp [Allows, Action.IsAside]

theorem isAnswered_of_allows (allows : p.Allows c a) : a.isAnswered = true := by
  cases a with
  | endThread | goto | lockRegistry | stop => cases p <;> simp [Allows, Action.IsAside] at allows
  | _ => rfl

end

/-- Where the thread is after an action. -/
def after (c : ChannelId) : EndPhase → (a : Action) → a.Answer → EndPhase
  | outside, .claimSender c', there => if c' = c ∧ there = true then sender else outside
  | outside, .claimReceiver c', there => if c' = c ∧ there = true then receiver else outside
  | sender, .hasReceiver _, alive => if alive then committed else outside
  | sender, .settle .., waiter | committed, .settle .., waiter => Option.elim waiter outside waking
  | waking _, .unblock _, _ => outside
  | receiver, .receive _, _ | receiver, .dropReceiver _, _ => outside
  | p, _, _ => p

theorem after_of_isAside {c : ChannelId} {a : Action} (aside : a.IsAside c) (answer : a.Answer) :
    outside.after c a answer = outside := by
  cases a <;> first | rfl | exact if_neg fun same => aside same.1

/-- One comes to be about to send only by asking whether there is a receiver. -/
theorem asks_of_after_committed {p : EndPhase} {c : ChannelId} {a : Action} {answer : a.Answer}
    (allows : p.Allows c a) (committed : p.after c a answer = .committed) : p = .sender ∧ a = .hasReceiver c := by
  cases p with
  | sender =>
    refine ⟨rfl, allows.resolve_right ?_⟩
    rintro rfl
    cases answer <;> cases committed
  | outside =>
    rcases allows with aside | rfl | rfl
    · rw [after_of_isAside aside] at committed
      cases committed
    · simp only [after] at committed
      split at committed <;> cases committed
    · simp only [after] at committed
      split at committed <;> cases committed
  | committed =>
    obtain ⟨value, rfl⟩ := allows
    cases answer <;> cases committed
  | waking u =>
    obtain rfl : a = .unblock u := allows
    cases committed
  | receiver => rcases allows with rfl | rfl <;> cases committed

end EndPhase

/-- The program begins with the use of the sender: a value is sent, or the sender is dropped. -/
def Program.UsesSender {α : Type} (c : ChannelId) (p : ThreadProgram α) : Prop :=
  (∃ value rest, p = send c value >>= rest) ∨ ∃ rest, p = dropSender c >>= rest

/-- The program keeps to the ends of a channel, and ends as `Q` says. -/
def Program.KeepsEnds {α : Type} (c : ChannelId) (Q : α → EndPhase → Prop) :
    ThreadProgram α → EndPhase → Prop
  | Program.pure x, p => Q x p
  | Program.ask a next, p => p.Allows c a ∧ (p = .sender → Program.UsesSender c (Program.ask a next)) ∧
    ∀ answer, (next answer).KeepsEnds c Q (p.after c a answer)

namespace Program

variable {c : ChannelId} {p : EndPhase} {α β : Type} {Q : α → EndPhase → Prop}
  {Q' : β → EndPhase → Prop}

theorem UsesSender.bind {first : ThreadProgram α} (uses : UsesSender c first)
    (f : α → ThreadProgram β) : UsesSender c (first >>= f) := by
  obtain ⟨value, rest, rfl⟩ | ⟨rest, rfl⟩ := uses
  · exact .inl ⟨value, fun sent => rest sent >>= f, bind_assoc ..⟩
  · exact .inr ⟨fun u => rest u >>= f, bind_assoc ..⟩

theorem KeepsEnds.bind {first : ThreadProgram α} {f : α → ThreadProgram β}
    (h : first.KeepsEnds c Q p) (next : ∀ x p, Q x p → (f x).KeepsEnds c Q' p) :
    (first >>= f).KeepsEnds c Q' p := by
  induction first generalizing p with
  | pure x => exact next x p h
  | ask a rest ih =>
    exact ⟨h.1, fun here => (h.2.1 here).bind f, fun answer => ih answer (h.2.2 answer)⟩

/-- What does not concern the ends is done without them. -/
theorem KeepsEnds.of_only {program : ThreadProgram α} {R : α → Prop}
    (only : program.Only (Action.IsAside c) R) (result : ∀ x, R x → Q x .outside) :
    program.KeepsEnds c Q .outside := by
  induction program with
  | pure x => exact result x only
  | ask a next ih =>
    refine ⟨.inl only.1, nofun, fun answer => ?_⟩
    rw [EndPhase.after_of_isAside only.1]
    exact ih answer (only.2 answer)

/-- A thread that has settled the channel wakes whom it has to wake. -/
theorem keepsEnds_wake (waiter : Option Tid) {f : Unit → ThreadProgram β}
    (next : (f ()).KeepsEnds c Q' .outside) :
    (wake waiter >>= f).KeepsEnds c Q' (Option.elim waiter .outside .waking) := by
  cases waiter with
  | none => exact next
  | some u => exact ⟨rfl, nofun, fun _ => next⟩

/-- Whoever has the sender may send, and has it no more. -/
theorem keepsEnds_send {value : Signal} {f : Bool → ThreadProgram β}
    (next : ∀ sent, (f sent).KeepsEnds c Q' .outside) : (send c value >>= f).KeepsEnds c Q' .sender := by
  refine ⟨.inl rfl, fun _ => .inl ⟨value, f, rfl⟩, fun alive => ?_⟩
  cases alive with
  | false => exact next false
  | true =>
    refine ⟨⟨value, rfl⟩, nofun, fun waiter => ?_⟩
    change ((wake waiter >>= fun _ => pure true) >>= f).KeepsEnds c Q' _
    rw [LawfulMonad.bind_assoc]
    exact keepsEnds_wake waiter (next true)

/-- Whoever has the sender may drop it. -/
theorem keepsEnds_dropSender {f : Unit → ThreadProgram β} (next : (f ()).KeepsEnds c Q' .outside) :
    (dropSender c >>= f).KeepsEnds c Q' .sender :=
  ⟨.inr rfl, fun _ => .inr ⟨f, rfl⟩, fun waiter => keepsEnds_wake waiter next⟩

/-- Whoever takes the sender has it, if it lay there. -/
theorem keepsEnds_claimSender {f : Bool → ThreadProgram β}
    (gone : (f false).KeepsEnds c Q' .outside) (mine : (f true).KeepsEnds c Q' .sender) :
    (act (.claimSender c) >>= f).KeepsEnds c Q' .outside := by
  refine ⟨.inr (.inl rfl), nofun, fun there => ?_⟩
  change (f there).KeepsEnds c Q' (if c = c ∧ there = true then .sender else .outside)
  cases there with
  | false => simpa using gone
  | true => simpa using mine

/-- Whoever takes the receiver has it, if it lay there. -/
theorem keepsEnds_claimReceiver {f : Bool → ThreadProgram β}
    (gone : (f false).KeepsEnds c Q' .outside) (mine : (f true).KeepsEnds c Q' .receiver) :
    (act (.claimReceiver c) >>= f).KeepsEnds c Q' .outside := by
  refine ⟨.inr (.inr rfl), nofun, fun there => ?_⟩
  change (f there).KeepsEnds c Q' (if c = c ∧ there = true then .receiver else .outside)
  cases there with
  | false => simpa using gone
  | true => simpa using mine

end Program

/-! ## Scripts -/

namespace SyncOp

open Program

variable {c : ChannelId} (s : SyncState)

/-- Letting go of locks does not concern channels. -/
theorem only_letGo : (letGo s).Only (Action.IsAside c) fun _ => True := by
  have unlocks (l : LockId) : (ThreadProgram.unlock l).Only (Action.TouchesOnly (some l) none)
      fun _ => True := only_unlock rfl
  exact Only.bind (R := fun _ => True)
    (Only.forM (fun _ _ => only_ask trivial fun _ => trivial) trivial) fun _ _ =>
      Only.forM (fun l _ => (unlocks l).mono (fun _ touches => touches.isAside nofun) fun _ => id) trivial

/-- Whatever a script does, it has neither end afterwards. -/
theorem keepsEnds_perform (op : SyncOp) :
    (perform s op).KeepsEnds c (fun _ p => p = .outside) .outside := by
  by_cases own : op.channel? = some c
  · cases op with
    | send c' value =>
      obtain rfl := Option.some.inj own
      exact keepsEnds_claimSender rfl (keepsEnds_send fun sent => by cases sent <;> rfl)
    | receive c' =>
      obtain rfl := Option.some.inj own
      refine keepsEnds_claimReceiver rfl ⟨.inl rfl, nofun, fun value => ?_⟩
      rcases value with _ | ⟨_ | _⟩ <;> rfl
    | dropSender c' =>
      obtain rfl := Option.some.inj own
      exact keepsEnds_claimSender rfl (keepsEnds_dropSender rfl)
    | dropReceiver c' =>
      obtain rfl := Option.some.inj own
      exact keepsEnds_claimReceiver rfl ⟨.inr rfl, nofun, fun _ => rfl⟩
    | _ => cases own
  · exact .of_only ((only_perform s op).mono (fun a touches => touches.isAside own) fun _ => id)
      fun _ _ => rfl

/-- A script keeps to the ends of every channel. -/
theorem keepsEnds_performAll (i : Nat) (script : List SyncOp) :
    (performAll s i script).KeepsEnds c (fun _ p => p = .outside) .outside := by
  induction script generalizing s i with
  | nil => exact .of_only (only_letGo s) fun _ _ => rfl
  | cons op rest ih =>
    refine (keepsEnds_perform s op).bind fun done p outside => ?_
    subst outside
    exact ⟨.inl trivial, nofun, fun _ => ih done.2 (i + 1)⟩

end SyncOp

end Userland
