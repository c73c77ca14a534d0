import Userland.Proofs.ChannelEnds
import Userland.Proofs.LockSteps

/-!
# What passes through a channel

While a machine runs, a record is kept of each channel: where threads are with it, whether the sender has
been used up, how the channel was settled, and how the receiver was used up (`ChannelRecord`). The state of
the channel agrees with the record (`ChannelRecord.Tells`), and a receiver that rests is woken when the
channel has been settled (`Conveyed`), as long as all threads keep to the ends of the channel. Each step of a
thread and each wakeup keeps it so (`Conveyed.turn`).

Each end is in one place: it lies there for anyone, or one thread has it, or it has been used up (`Placed`).
So nobody settles the channel, or receives from it, twice. A receiver that finds the channel empty leaves its
name, and stays in it until it is woken; whoever settles the channel takes the name, and wakes it next.
-/

namespace Userland

open ThreadProgram

/-! ## Records -/

/-- What is in at most one place: it lies there, or somebody has it, or it has been used up. -/
structure Placed (lone : Prop) (has : Tid → Prop) (used : Prop) : Prop where
  /-- What lies there nobody has, and it has not been used up. -/
  lone : lone → ¬used ∧ ∀ t, ¬has t
  /-- What somebody has nobody else has, and it has not been used up. -/
  once : ∀ t, has t → ¬used ∧ ∀ u, has u → u = t

namespace Placed

variable {lone lone' used used' : Prop} {has has' : Tid → Prop} {t : Tid}

/-- What is in no new place. -/
theorem anti (h : Placed lone has used) (lies : lone' → lone) (had : ∀ t, has' t → has t)
    (before : used' → used) : Placed lone' has' used' :=
  ⟨fun there => ⟨fun gone => (h.lone (lies there)).1 (before gone),
      fun t mine => (h.lone (lies there)).2 t (had t mine)⟩,
    fun t mine => ⟨fun gone => (h.once t (had t mine)).1 (before gone),
      fun u other => (h.once t (had t mine)).2 u (had u other)⟩⟩

/-- Somebody takes what lies there. -/
theorem claim (h : Placed lone has used) (there : lone) (away : ¬lone') (mine : ∀ u, has' u → u = t)
    (before : used' → used) : Placed lone' has' used' :=
  ⟨fun there' => absurd there' away, fun u has =>
    ⟨fun gone => (h.lone there).1 (before gone), fun v has' => (mine v has').trans (mine u has).symm⟩⟩

/-- Who has it uses it up. -/
theorem spend (h : Placed lone has used) (mine : has t) (lies : lone' → lone)
    (had : ∀ u, has' u → u ≠ t ∧ has u) : Placed lone' has' used' :=
  ⟨fun there => absurd mine ((h.lone (lies there)).2 t),
    fun u other => absurd ((h.once t mine).2 u (had u other).2) (had u other).1⟩

end Placed

/-- What is recorded of a channel. -/
structure ChannelRecord where
  /-- Where each thread is with it. -/
  phase : Tid → EndPhase
  /-- Whether the sender has been used up, in a call to send or by being dropped. -/
  used : Bool
  /-- With what the channel has been settled. -/
  settled : Option (Option Signal)
  /-- How the receiver has been used up: what it has received, if it was not dropped. -/
  taken : Option (Option (Option Signal))

namespace ChannelRecord

/-- Nothing has happened yet. -/
def start : ChannelRecord := ⟨fun _ => .outside, false, none, none⟩

/-- The record after thread `t` has got an answer. -/
def note (c : ChannelId) (t : Tid) (r : ChannelRecord) (a : Action) (answer : a.Answer) : ChannelRecord :=
  let r := { r with phase := Function.update r.phase t ((r.phase t).after c a answer) }
  match a, answer with
  | .hasReceiver c', _ => if c' = c then { r with used := true } else r
  | .settle c' value, _ => if c' = c then { r with used := true, settled := some value } else r
  | .receive c', value => if c' = c then { r with taken := some (some value) } else r
  | .dropReceiver c', _ => if c' = c then { r with taken := some none } else r
  | _, _ => r

/-- The record after a turn. -/
def afterTurn (env : Environment) (c : ChannelId) (m : Machine) (turn : Turn) (r : ChannelRecord) :
    ChannelRecord :=
  match turn with
  | .wake _ => r
  | .step t =>
    match (m.thread t).program with
    | Program.ask a _ => (m.told env turn t a).elim r (r.note c t a)
    | Program.pure _ => r

/-- What has become of the value. -/
def state (r : ChannelRecord) : OneshotState Signal :=
  match r.settled, r.taken with
  | none, _ => .empty
  | some none, _ | some (some _), some (some _) => .closed
  | some (some value), _ => .full value

variable {c : ChannelId} {r : ChannelRecord} {t : Tid} {x : Channel} {lone lone' : Prop}

theorem note_phase (a : Action) (answer : a.Answer) :
    (r.note c t a answer).phase = Function.update r.phase t ((r.phase t).after c a answer) := by
  cases a <;> first | rfl | (simp only [note]; split <;> rfl)

theorem note_of_isAside {a : Action} (aside : a.IsAside c) (answer : a.Answer)
    (outside : r.phase t = .outside) : r.note c t a answer = r := by
  have same : Function.update r.phase t ((r.phase t).after c a answer) = r.phase := by
    rw [outside, EndPhase.after_of_isAside aside, ← outside, Function.update_eq_self]
  cases a <;> first | (simp only [note, same]; done) | (simp only [note, same]; exact if_neg aside)

theorem state_eq_empty : r.state = .empty ↔ r.settled = none := by
  unfold state
  rcases r with ⟨_, _, _ | _ | _, _ | _ | _⟩ <;> simp

/-- What is recorded stays. -/
structure Extends (r r' : ChannelRecord) : Prop where
  /-- A sender that has been used up stays so. -/
  used : r.used = true → r'.used = true
  /-- What the channel has been settled with stays. -/
  settled : ∀ value, r.settled = some value → r'.settled = some value
  /-- A receiver that has been used up stays so. -/
  taken : ∀ way, r.taken = some way → r'.taken = some way

theorem Extends.refl (r : ChannelRecord) : r.Extends r := ⟨id, fun _ => id, fun _ => id⟩

theorem Extends.trans {r r' r'' : ChannelRecord} (h : r.Extends r') (h' : r'.Extends r'') :
    r.Extends r'' :=
  ⟨h'.used ∘ h.used, fun value => h'.settled value ∘ h.settled value,
    fun way => h'.taken way ∘ h.taken way⟩

/-- What the state of the channel, and where its ends lie, have to do with the record. -/
structure Tells (r : ChannelRecord) (x : Channel) (loneSender loneReceiver : Prop) : Prop where
  /-- The sender is in one place. -/
  sender : Placed loneSender (r.phase · = .sender) (r.used = true)
  /-- The receiver is in one place. -/
  receiver : Placed loneReceiver (r.phase · = .receiver) (r.taken ≠ none)
  /-- Who is about to send has used the sender up, but has not settled the channel. -/
  committed : ∀ t, r.phase t = .committed →
    r.used = true ∧ r.settled = none ∧ ∀ u, r.phase u = .committed → u = t
  /-- The channel is settled by use of the sender only. -/
  unused : r.used = false → r.settled = none
  /-- What has been received is what the channel was settled with. -/
  received : ∀ value, r.taken = some (some value) → r.settled = some value
  /-- The state is as recorded. -/
  state : x.state = r.state
  /-- There is a receiver as long as it has not been used up. -/
  alive : x.receiver = r.taken.isNone

namespace Tells

variable {loneSender loneReceiver loneSender' loneReceiver' : Prop} {value : Option Signal}

theorem not_committed (h : r.Tells x loneSender loneReceiver) (unused : r.used ≠ true) (u : Tid) :
    r.phase u ≠ .committed := fun here => unused (h.committed u here).1

/-- Who drops the sender, or is about to send, has not settled the channel yet. -/
theorem unsettled (h : r.Tells x loneSender loneReceiver)
    (mine : r.phase t = .sender ∨ r.phase t = .committed) : r.settled = none :=
  mine.elim (fun sender => h.unused (by simpa using (h.sender.once t sender).1))
    fun committed => (h.committed t committed).2.1

theorem untaken (h : r.Tells x loneSender loneReceiver) (mine : r.phase t = .receiver) :
    r.taken = none := by
  simpa using (h.receiver.once t mine).1

/-- Who is elsewhere than where thread `t` comes to be was there before. -/
theorem phase_of_update {p q : EndPhase} {u : Tid} (here : Function.update r.phase t p u = q)
    (ne : p ≠ q) : u ≠ t ∧ r.phase u = q := by
  by_cases same : u = t
  · rw [same, Function.update_self] at here
    exact absurd here ne
  · exact ⟨same, by rwa [Function.update_of_ne same] at here⟩

/-- Who is where thread `t` comes to be is that thread, if nobody was there before. -/
theorem eq_of_update {p : EndPhase} {u : Tid} (here : Function.update r.phase t p u = p)
    (nobody : r.phase u ≠ p) : u = t := by
  by_contra other
  exact nobody (by rwa [Function.update_of_ne other] at here)

/-- What a thread does that has no end before and after leaves the ends where they are. -/
theorem aside (h : r.Tells x loneSender loneReceiver) {p : EndPhase} (noSender : p ≠ .sender)
    (noReceiver : p ≠ .receiver) (idle : p ≠ .committed) :
    Tells { r with phase := Function.update r.phase t p } x loneSender loneReceiver :=
  { h with
    sender := h.sender.anti id (fun _ here => (phase_of_update here noSender).2) id
    receiver := h.receiver.anti id (fun _ here => (phase_of_update here noReceiver).2) id
    committed := fun u here =>
      have ⟨used, pending, alone⟩ := h.committed u (phase_of_update here idle).2
      ⟨used, pending, fun v here => alone v (phase_of_update here idle).2⟩ }

/-- Thread `t` takes the sender that lies there. -/
theorem claimSender (h : r.Tells x loneSender loneReceiver) (there : loneSender) (away : ¬loneSender') :
    Tells { r with phase := Function.update r.phase t .sender } x loneSender' loneReceiver :=
  { h with
    sender := h.sender.claim there away
      (fun u here => eq_of_update here ((h.sender.lone there).2 u)) id
    receiver := h.receiver.anti id (fun _ here => (phase_of_update here nofun).2) id
    committed := fun u here =>
      absurd (phase_of_update here nofun).2 (h.not_committed (h.sender.lone there).1 u) }

/-- Thread `t` takes the receiver that lies there. -/
theorem claimReceiver (h : r.Tells x loneSender loneReceiver) (there : loneReceiver)
    (away : ¬loneReceiver') :
    Tells { r with phase := Function.update r.phase t .receiver } x loneSender loneReceiver' :=
  { h with
    sender := h.sender.anti id (fun _ here => (phase_of_update here nofun).2) id
    receiver := h.receiver.claim there away
      (fun u here => eq_of_update here ((h.receiver.lone there).2 u)) id
    committed := fun u here =>
      have ⟨used, pending, alone⟩ := h.committed u (phase_of_update here nofun).2
      ⟨used, pending, fun v here => alone v (phase_of_update here nofun).2⟩ }

/-- Thread `t`, which has the sender, sends in vain, or is about to settle the channel. -/
theorem send (h : r.Tells x loneSender loneReceiver) (mine : r.phase t = .sender) {p : EndPhase}
    (noSender : p ≠ .sender) (noReceiver : p ≠ .receiver) :
    Tells { r with phase := Function.update r.phase t p, used := true } x loneSender loneReceiver := by
  have unused := (h.sender.once t mine).1
  have own {u : Tid} (here : Function.update r.phase t p u = .committed) : u = t := by
    by_contra other
    rw [Function.update_of_ne other] at here
    exact h.not_committed unused u here
  exact
    { h with
      sender := h.sender.spend mine id fun _ here => phase_of_update here noSender
      receiver := h.receiver.anti id (fun _ here => (phase_of_update here noReceiver).2) id
      committed := fun u here =>
        ⟨rfl, h.unused (by simpa using unused), fun v here' => (own here').trans (own here).symm⟩
      unused := nofun }

/-- Thread `t`, which drops the sender, or is about to send, settles the channel. -/
theorem settle (h : r.Tells x loneSender loneReceiver)
    (mine : r.phase t = .sender ∨ r.phase t = .committed) {p : EndPhase} (noSender : p ≠ .sender)
    (noReceiver : p ≠ .receiver) (idle : p ≠ .committed) :
    Tells { r with phase := Function.update r.phase t p, used := true, settled := some value }
      (x.settle value).2 loneSender loneReceiver := by
  have unsettled := h.unsettled mine
  have empty : x.state = .empty := h.state.trans (state_eq_empty.2 unsettled)
  have unreceived (value' : Option Signal) : r.taken ≠ some (some value') := fun taken =>
    nomatch (h.received value' taken).symm.trans unsettled
  refine
    { sender := ?_
      receiver := h.receiver.anti id (fun _ here => (phase_of_update here noReceiver).2) id
      committed := fun u here => ?_
      unused := nofun
      received := fun value' taken => absurd taken (unreceived value')
      state := ?_
      alive := h.alive }
  · rcases mine with sender | committed
    · exact h.sender.spend sender id fun _ here => phase_of_update here noSender
    · have used := (h.committed t committed).1
      exact h.sender.anti id (fun _ here => (phase_of_update here noSender).2) fun _ => used
  · obtain ⟨other, old⟩ := phase_of_update here idle
    rcases mine with sender | committed
-- Nobody else is about to send: the sender is still there, or it was spent on the one who is.
    · exact absurd old (h.not_committed (h.sender.once t sender).1 u)
    · exact absurd ((h.committed t committed).2.2 u old) other
  · simp only [Oneshot.settle, empty]
    rcases value with _ | value
    · rfl
    · rcases taken : r.taken with _ | _ | value'
      · simp [ChannelRecord.state]
      · simp [ChannelRecord.state]
      · exact absurd taken (unreceived value')

/-- Thread `t`, which has the receiver, receives what the channel was settled with. -/
theorem receive (h : r.Tells x loneSender loneReceiver) (mine : r.phase t = .receiver)
    (settled : r.settled = some value) : (x.receive t).1 = some value ∧
      Tells { r with phase := Function.update r.phase t .outside, taken := some (some value) }
        (x.receive t).2 loneSender loneReceiver := by
  have untaken := h.untaken mine
  have received : x.receive t = (some value, { x with state := .closed, receiver := false }) := by
    have state := h.state
    rw [ChannelRecord.state, settled, untaken] at state
    rcases x with ⟨_, waiter, alive⟩
    cases value <;> cases state <;> rfl
  rw [received]
  refine ⟨rfl, ?_⟩
  exact
    { h with
      sender := h.sender.anti id (fun _ here => (phase_of_update here nofun).2) id
      receiver := h.receiver.spend mine id fun _ here => phase_of_update here nofun
      committed := fun u here =>
        absurd (h.committed u (phase_of_update here nofun).2).2.1 (by simp [settled])
      received := fun value' taken => by cases taken; exact settled
      state := by
        rw [ChannelRecord.state]
        simp only [settled]
        cases value <;> rfl
      alive := rfl }

/-- Thread `t`, which has the receiver, drops it. -/
theorem dropReceiver (h : r.Tells x loneSender loneReceiver) (mine : r.phase t = .receiver) :
    Tells { r with phase := Function.update r.phase t .outside, taken := some none }
      x.dropReceiver loneSender loneReceiver := by
  have untaken := h.untaken mine
  exact
    { h with
      sender := h.sender.anti id (fun _ here => (phase_of_update here nofun).2) id
      receiver := h.receiver.spend mine id fun _ here => phase_of_update here nofun
      committed := fun u here =>
        have ⟨used, pending, alone⟩ := h.committed u (phase_of_update here nofun).2
        ⟨used, pending, fun v here => alone v (phase_of_update here nofun).2⟩
      received := nofun
      state := by
        refine h.state.trans ?_
        simp only [ChannelRecord.state, untaken]
        rcases r.settled with _ | _ | value <;> rfl
      alive := rfl }

end Tells

end ChannelRecord

end Userland
