import Userland.Proofs.Conveying
import Userland.Proofs.Starting
import Userland.Proofs.Waits

/-!
# What children tell of their loads

The thread of a child loads its program first (`Kernel.loading`), and then tells its parent what that
has come to. So what the parent receives is what the load has come to (`Scenario.loadGives_of_receive`):
the channel is empty until the child has settled it, and until then the child is loading, or about to
settle it so (`Scenario.Reporting`).
-/

namespace Userland

open ThreadProgram

/-! ## Telling -/

/-- After the action a thread need not settle a channel any more: it has settled it, or knows that nobody
    receives from it. -/
def Action.Settles (c : ChannelId) : (a : Action) → a.Answer → Prop
  | .settle c' _, _ => c' = c
  | .hasReceiver c', alive => c' = c ∧ alive = false
  | _, _ => False

namespace Program

variable {α β : Type} {c : ChannelId} {ok : Bool}

/-- What the program tells first through a channel is that a program was loaded, or that none was. It goes on
    with no block before. -/
def Tells (c : ChannelId) (ok : Bool) : ThreadProgram α → Prop
  | pure _ => True
  | ask a next => (∀ value, a = .settle c value → value = some (.loaded ok)) ∧ (∀ block, a ≠ .goto block) ∧
    ∀ answer, ¬a.Settles c answer → (next answer).Tells c ok

theorem Tells.advance {p : ThreadProgram α} {told : ∀ a : Action, Option a.Answer} (h : p.Tells c ok)
    (unsettled : ∀ a next answer, p = ask a next → told a = some answer → ¬a.Settles c answer) :
    (p.advance told).Tells c ok := by
  cases p with
  | pure x => trivial
  | ask a next =>
    change ((told a).elim (ask a next) next).Tells c ok
    cases same : told a with
    | none => exact h
    | some answer => exact h.2.2 answer (unsettled a next answer rfl same)

/-- What does not concern the channel comes before what is told. -/
theorem tells_bind {R : α → Prop} {p : ThreadProgram α} {f : α → ThreadProgram β}
    (aside : p.Only (Action.IsAside c) R) (rest : ∀ x, R x → (f x).Tells c ok) : (p >>= f).Tells c ok := by
  change (p.bind f).Tells c ok
  induction p with
  | pure x => exact rest x aside
  | ask a next ih =>
    refine ⟨?_, ?_, fun answer _ => ih answer (aside.2 answer)⟩
    · rintro value rfl
      exact absurd rfl aside.1
    · rintro block rfl
      exact aside.1

theorem tells_send (f : Bool → ThreadProgram β) : (send c (.loaded ok) >>= f).Tells c ok := by
  refine ⟨nofun, nofun, fun alive still => ?_⟩
  cases alive with
  | false => exact absurd ⟨rfl, rfl⟩ still
  | true => exact ⟨fun value same => (Action.settle.inj same).2.symm, nofun, fun _ still => absurd rfl still⟩

end Program

/-- What is done to announce what a load has come to brings nothing into use. -/
theorem Action.acquires_of_announces {a : Action} (announces : a.announces = true) : a.acquires = false := by
  cases a with
  | device r => cases r <;> first | rfl | cases announces
  | goto => cases announces
  | _ => rfl

theorem Action.IsAside.goesOn {c : ChannelId} {a : Action} (aside : a.IsAside c) : a.goesOn = true := by
  cases a <;> first | rfl | exact aside.elim

/-! ## The thread of a child -/

namespace Kernel

variable {k : Kernel} {start : NewProcess} {c : ChannelId} {α : Type}

theorem aside_ask {r : DeviceRequest} : (ask r).Only (Action.IsAside c) fun _ => True :=
  only_ask trivial fun _ => trivial

theorem aside_withVolume (body : Routine α) : (withVolume body).Only (Action.IsAside c) fun _ => True := by
  refine only_withLock trivial trivial (fun _ => trivial) ?_
  induction body with
  | pure x => trivial
  | ask r next ih => exact ⟨trivial, ih⟩

theorem aside_bind {β : Type} {p : ThreadProgram α} {f : α → ThreadProgram β}
    (first : p.Only (Action.IsAside c) fun _ => True)
    (rest : ∀ x, (f x).Only (Action.IsAside c) fun _ => True) :
    (p >>= f).Only (Action.IsAside c) fun _ => True := first.bind fun x _ => rest x

/-- While a child loads its program it uses no channel, and does not leave the load. -/
theorem aside_loading : (loading k start).Only (Action.IsAside c) fun _ => True :=
  aside_bind aside_ask fun _ => aside_withVolume _

theorem remains_loading : (loading k start).Remains :=
  (@aside_loading k start start.loaded).mono (fun _ aside => aside.goesOn) fun _ => id

theorem aside_install (program : LoadedProgram) :
    (install program).Only (Action.IsAside c) fun _ => True := by
  refine aside_bind aside_ask fun _ => aside_bind ?_ fun _ => aside_bind aside_ask fun _ => ?_
  · exact aside_bind aside_ask fun _ => aside_bind aside_ask fun _ => aside_bind aside_ask fun _ => trivial
  · exact aside_bind aside_ask fun _ => aside_ask

/-- A child loads its program first. Then it tells what that has come to, and if there is no program it
    brings nothing into use any more. -/
theorem startProcess_eq (k : Kernel) (userMode : UserMode) (start : NewProcess) :
    ∃ after : Except LoadError LoadedProgram → ThreadProgram Unit,
      startProcess k userMode start = loading k start >>= after ∧
      (∀ result, (after result).Tells start.loaded result.isOk) ∧
      ∀ e, (after (.error e)).Only (fun a : Action => a.acquires = false) fun _ => True := by
  refine ⟨_, rfl, fun result => ?_, fun e => ?_⟩
  · have told (ok : Bool) (rest : ThreadProgram Unit) :
        (discard (send start.loaded (.loaded ok)) >>= fun _ => rest).Tells start.loaded ok := by
      change ((send start.loaded (.loaded ok) >>= fun _ => pure ()) >>= fun _ => rest).Tells start.loaded ok
      rw [bind_assoc]
      exact Program.tells_send _
    cases result with
    | ok loaded => exact Program.tells_bind (aside_install loaded) fun _ _ => told true _
    | error e =>
      dsimp only
      split
      · exact Program.tells_bind aside_ask fun _ _ => told false _
      · exact told false _
  · have sheds {p : ThreadProgram Unit} (h : p.Only (Action.Sheds (some (-1))) fun _ => True) :
        p.Only (fun a : Action => a.acquires = false) fun _ => True :=
      h.mono (fun _ sheds => sheds.1) fun _ => id
    have rest : (discard (send start.loaded (.loaded false)) >>= fun _ =>
        (exitProcess (-1) : ThreadProgram Unit)).Only (fun a : Action => a.acquires = false)
        fun _ => True := by
      have told : (discard (send start.loaded (.loaded false))).Only (fun a : Action => a.acquires = false)
          fun _ => True := announces_send.mono (fun _ => Action.acquires_of_announces) fun _ => id
      refine Program.Only.bind (R := fun _ => True) told fun _ _ => ?_
      exact ⟨rfl, fun hosted => sheds (sheds_exitProcess (-1) rfl hosted)⟩
    dsimp only
    split
    · exact Program.Only.bind (R := fun _ => True) ⟨rfl, fun _ => trivial⟩ fun _ _ => rest
    · exact rest

end Kernel

/-! ## Channels from turn to turn -/

/-- The action has to do with what is in a channel. -/
def Action.Concerns (c : ChannelId) : Action → Prop
  | .settle c' _ | .receive c' | .dropReceiver c' => c' = c
  | .spawn _ _ start => start.loaded = c ∨ start.exit = c
  | _ => False

/-- Whoever still has the receiver after an attempt to receive has found nothing. -/
theorem empty_of_receive {y : Channel} {t : Tid} (receives : (y.receive t).2.receiver = true) :
    y.state = .empty ∧ (y.receive t).2.state = .empty := by
  cases state : y.state with
  | empty => exact ⟨rfl, by rw [Oneshot.receive, state]⟩
  | full | closed =>
    rw [Oneshot.receive, state] at receives
    cases receives

namespace Machine

variable {env : Environment} {m : Machine} {t : Tid} {c : ChannelId} {a : Action}

/-- Actions that have nothing to do with a channel leave it as it is. -/
theorem channel_attempt (there : c.index < m.channels.size) (aside : ¬a.Concerns c) :
    (m.attempt env t a).machine.channel c = m.channel c := by
  cases a with
  | settle c' value => exact channel_setChannel_of_ne aside _
  | dropReceiver c' => exact channel_setChannel_of_ne aside _
  | receive c' =>
    simp only [attempt]
    split <;> exact channel_setChannel_of_ne aside _
  | spawn name priority start =>
    have others : start.loaded ≠ c ∧ start.exit ≠ c := not_or.1 aside
    have settled (m : Machine) :
        (((m.settleChannel start.loaded none).2.settleChannel start.exit none).2).channel c =
          m.channel c :=
      (channel_setChannel_of_ne others.2 _).trans (channel_setChannel_of_ne others.1 _)
    simp only [attempt, spawnThread]
    split
    · exact settled _
    · split
      · exact settled _
      · rfl
  | newChannel =>
    change (m.channels.push Oneshot.fresh).getD c.index Oneshot.fresh = _
    simp only [Array.getD_eq_getD_getElem?, Array.getElem?_push, Nat.ne_of_lt there, if_false, channel]
  | lock l | lockRegistry family =>
    simp only [attempt]
    split <;> rfl
  | unblock u =>
    change (m.wake u).1.channel c = _
    rw [channel, (m.wake_frame u).2.2.1]
    rfl
  | _ => rfl

/-- An attempt to receive leaves what receiving makes of the channel, whether or not the thread has to wait. -/
theorem channel_receive (there : c.index < m.channels.size) :
    (m.attempt env t (.receive c)).machine.channel c = ((m.channel c).receive t).2 := by
  simp only [attempt]
  split <;> rename_i received <;> rw [received] <;> exact channel_setChannel_of_lt there _

theorem channel_settle (there : c.index < m.channels.size) (value : Option Signal) :
    (m.attempt env t (.settle c value)).machine.channel c = ((m.channel c).settle value).2 :=
  channel_setChannel_of_lt there _

theorem channel_dropReceiver (there : c.index < m.channels.size) :
    (m.attempt env t (.dropReceiver c)).machine.channel c = (m.channel c).dropReceiver :=
  channel_setChannel_of_lt there _

theorem channel_settleAttempt {α : Type} (next : α → ThreadProgram Unit) (attempt : Attempt α) :
    (settleAttempt t next attempt).1.channel c = attempt.machine.channel c := by
  cases attempt <;> rfl

variable (env m) in
/-- At a turn a thread does something that has to do with a channel, or the channel stays as it is. -/
theorem channel_turn (there : c.index < m.channels.size) (what : Turn) :
    (∃ u a next, m.Attempts what u a next ∧ a.Concerns c ∧
      (m.turn env what).channel c = (m.attempt env u a).machine.channel c) ∨
    (m.turn env what).channel c = m.channel c ∧
      ∀ u a next, m.Attempts what u a next → ¬a.Concerns c := by
  rcases m.turn_cases env what with ⟨u, a, next, attempts, turned⟩ | ⟨same, nobody⟩
  · rw [turned, channel_settleAttempt]
    by_cases concerns : a.Concerns c
    · exact .inl ⟨u, a, next, attempts, concerns, rfl⟩
    · refine .inr ⟨channel_attempt there concerns, fun v a' next' attempts' => ?_⟩
      obtain ⟨-, rfl⟩ := attempts.unique attempts'
      exact concerns
  · refine .inr ⟨?_, fun u a next attempts => absurd attempts (nobody u a next)⟩
    rw [channel, same.channels]
    rfl

end Machine

/-! ## What the load comes to -/

namespace Scenario

variable (x : Scenario) (turns : ℕ → Turn)

/-- Thread `t` makes thread `u` from `start` at a time. -/
def Makes (i : ℕ) (t : Tid) (start : NewProcess) (u : Tid) : Prop :=
  ∃ name priority, x.Does turns i t (.spawn name priority start) (some u)

/-- The load of a program has come to a result by time `i` in thread `u`, which was made from `start` at
    time `k`. -/
def LoadGives (u : Tid) (start : NewProcess) (k : ℕ) (result : Except LoadError LoadedProgram) (i : ℕ) :
    Prop :=
  ∃ d, i = k + 1 + d ∧ x.leftAt turns u (x.kernel.loading start) (k + 1) d = Program.pure result

/-- Thread `u`, which was made from `start` at time `k`, is loading its program, or about to tell what
    that has come to. -/
inductive Reporting (u : Tid) (start : NewProcess) (k i : ℕ) : Prop where
  /-- It is loading its program. -/
  | loading (d : ℕ) (after : Except LoadError LoadedProgram → ThreadProgram Unit) : i = k + 1 + d →
    (∀ r, x.leftAt turns u (x.kernel.loading start) (k + 1) d ≠ Program.pure r) →
    x.programAt turns i u = x.leftAt turns u (x.kernel.loading start) (k + 1) d >>= after →
    (∀ result, (after result).Tells start.loaded result.isOk) → Reporting u start k i
  /-- It is about to tell. -/
  | telling (result : Except LoadError LoadedProgram) : x.LoadGives turns u start k result i →
    (x.programAt turns i u).Tells start.loaded result.isOk → Reporting u start k i

variable {x} {turns} {i j k : ℕ} {t u : Tid} {start : NewProcess}

/-- A load comes to one result. -/
theorem LoadGives.unique {result result' : Except LoadError LoadedProgram}
    (gives : x.LoadGives turns u start k result i) (gives' : x.LoadGives turns u start k result' j) :
    result = result' := by
  obtain ⟨d, -, left⟩ := gives
  obtain ⟨e, -, left'⟩ := gives'
  rcases Nat.le_total d e with le | le
  · exact Program.pure.inj ((leftAt_of_pure le left).symm.trans left')
  · exact Program.pure.inj (left.symm.trans (leftAt_of_pure le left'))

theorem LoadGives.mono {result : Except LoadError LoadedProgram}
    (gives : x.LoadGives turns u start k result i) (le : i ≤ j) :
    x.LoadGives turns u start k result j := by
  obtain ⟨d, rfl, left⟩ := gives
  obtain ⟨e, rfl⟩ := Nat.exists_eq_add_of_le le
  exact ⟨d + e, Nat.add_assoc .., leftAt_of_pure (Nat.le_add_right d e) left⟩

namespace Makes

theorem inside (makes : x.Makes turns k t start u) (later : k < i) :
    u < (x.machineAt turns i).threads.size := by
  obtain ⟨name, priority, does⟩ := makes
  exact Nat.lt_of_lt_of_le (Nat.lt_of_lt_of_eq (Nat.lt_succ_self u) (size_of_spawned does).2.symm)
    (x.size_le turns later)

/-- A thread that was just made is ready to do what it was made for. -/
theorem thread_eq (makes : x.Makes turns k t start u) :
    (x.machineAt turns (k + 1)).thread u = .ready u (x.environment.startProcess start) := by
  obtain ⟨name, priority, does⟩ := makes
  have goes := does.goes
  obtain ⟨rfl, -, program, spawns⟩ := spawns_of_does does
  have inside := Machine.lt_size_of_status (m := x.machineAt turns k) (t := t) (by simp [goes.2.2])
  exact spawns.child inside

/-- It has nothing yet. -/
theorem stands (makes : x.Makes turns k t start u) :
    x.standingAt turns (k + 1) u = ⟨.fresh u, .fresh (some start)⟩ := by
  have thread := makes.thread_eq
  obtain ⟨name, priority, does⟩ := makes
  rw [standingAt, Machine.standing, thread, (spawns_of_does does).2.1]
  rfl

/-- What a thread was made from, it remembers. -/
theorem start_eq (makes : x.Makes turns k t start u) (later : k < i) :
    (x.standingAt turns i u).duties.start = some start := by
  rw [(standingAt_lasts (makes.inside (Nat.lt_succ_self k)) later).start, makes.stands]
  rfl

theorem sources (makes : x.Makes turns k t start u) (later : k < i) :
    start.loaded ∈ (x.standingAt turns i u).duties.sources := by
  simp [Duties.sources, makes.start_eq later]

/-- It loads its program first. -/
theorem loads (makes : x.Makes turns k t start u) :
    ∃ after : Except LoadError LoadedProgram → ThreadProgram Unit,
    x.programAt turns (k + 1) u = x.kernel.loading start >>= after ∧
    (∀ result, (after result).Tells start.loaded result.isOk) ∧
    ∀ e, (after (.error e)).Only (fun a : Action => a.acquires = false) fun _ => True := by
  obtain ⟨after, split, tells, sheds⟩ := x.kernel.startProcess_eq
    (fun name context => (x.code start name context).program x.kernel) start
  refine ⟨after, ?_, tells, sheds⟩
  rw [programAt, makes.thread_eq]
  exact split

theorem reporting (makes : x.Makes turns k t start u) : x.Reporting turns u start k (k + 1) := by
  obtain ⟨after, here, tells, -⟩ := makes.loads
  exact .loading 0 after rfl nofun here tells

end Makes

/-- Whatever a thread does, unless it settles the channel, it goes on to load its program or to tell what
    that has come to. -/
theorem Reporting.next (reporting : x.Reporting turns u start k i)
    (inside : u < (x.machineAt turns i).threads.size)
    (unsettled : ∀ a next answer, x.programAt turns i u = Program.ask a next →
      x.toldAt turns i u a = some answer → ¬a.Settles start.loaded answer) :
    x.Reporting turns u start k (i + 1) := by
  rcases reporting with ⟨d, after, rfl, ongoing, here, tells⟩ | ⟨result, gives, tells⟩
  · have onward : x.programAt turns (k + 1 + (d + 1)) u =
        x.leftAt turns u (x.kernel.loading start) (k + 1) (d + 1) >>= after :=
      programAt_of_remains (d := 1) here inside (only_leftAt Kernel.remains_loading d) fun e before r => by
        obtain rfl := Nat.lt_one_iff.1 before
        exact ongoing r
    cases left : x.leftAt turns u (x.kernel.loading start) (k + 1) (d + 1) with
    | ask a first => exact .loading (d + 1) after rfl (by rw [left]; nofun) onward tells
    | pure result =>
      refine .telling result ⟨d + 1, rfl, left⟩ ?_
      rw [left] at onward
      exact onward ▸ tells result
  · refine .telling result (gives.mono (Nat.le_succ i)) ?_
    rcases programAt_succ inside with step | ⟨a, next, here, leaves, ends⟩
    · rw [step]
      exact tells.advance unsettled
    · rw [here] at tells
      cases a with
      | endThread =>
        rw [ends rfl]
        trivial
      | goto block => exact absurd rfl (tells.2.1 block)
      | _ => cases leaves

/-- What thread `u`, which loads a program, is about to do with the channel on which it tells of that: it
    settles the channel with what the load has come to. -/
theorem Reporting.settles {value : Option Signal} {next : Option Tid → ThreadProgram Unit}
    (reporting : x.Reporting turns u start k i)
    (here : x.programAt turns i u = Program.ask (Action.settle start.loaded value) next) :
    ∃ result, x.LoadGives turns u start k result i ∧ value = some (.loaded result.isOk) := by
  rcases reporting with ⟨d, after, rfl, ongoing, loads, -⟩ | ⟨result, gives, tells⟩
  · have only : (x.leftAt turns u (x.kernel.loading start) (k + 1) d).Only
        (Action.IsAside start.loaded) fun _ => True := only_leftAt Kernel.aside_loading d
    obtain ⟨first, left, -⟩ := Program.asks_of_bind ongoing (loads.symm.trans here)
    rw [left] at only
    exact absurd rfl only.1
  · rw [here] at tells
    exact ⟨result, gives, tells.1 value rfl⟩

/-- As long as somebody may receive what thread `u` tells of its load, the channel holds what the load
    has come to, or it is empty and the thread has yet to tell. -/
def Truthful (x : Scenario) (turns : ℕ → Turn) (u : Tid) (start : NewProcess) (k i : ℕ) : Prop :=
  let channel := (x.machineAt turns i).channel start.loaded
  channel.receiver = true → channel.state = .empty ∧ x.Reporting turns u start k i ∨
    ∃ result, channel.state = .full (.loaded result.isOk) ∧ x.LoadGives turns u start k result i

namespace Makes

variable (makes : x.Makes turns k t start u)

include makes

/-- At first the channel is empty. -/
theorem truthful_start : x.Truthful turns u start k (k + 1) := by
  have reporting := makes.reporting
  obtain ⟨name, priority, does⟩ := makes
  obtain ⟨rfl, -, program, spawns⟩ := spawns_of_does does
  obtain ⟨⟨next, here⟩, -⟩ := does
  obtain ⟨-, -, made⟩ : _ ∧ _ ∧ (x.standingAt turns k t).duties.made = [start.exit, start.loaded] :=
    allowed_at here
  have channels := (x.sound turns k).channels
  have mine : start.loaded ∈ (x.standingAt turns k t).duties.made := by simp [made]
  obtain ⟨y, found, -⟩ := channels.of_receivers (channels.receivers_of_made mine)
  have same : (x.machineAt turns (k + 1)).channel start.loaded = y := by
    rw [Machine.channel, spawns.channels]
    exact Machine.channel_eq found
  refine fun _ => .inl ⟨?_, reporting⟩
  rw [same]
  exact channels.unsettled t _ mine y found

/-- The thread goes on towards telling unless it settles the channel. -/
theorem reporting_next (later : k < i)
    (receives : ((x.machineAt turns i).channel start.loaded).receiver = true)
    (reporting : x.Reporting turns u start k i)
    (keeps : ∀ value next,
      ¬(x.machineAt turns i).Attempts (turns i) u (.settle start.loaded value) next) :
    x.Reporting turns u start k (i + 1) := by
  refine reporting.next (makes.inside later) fun a next answer here told settles => ?_
  have goes : x.Goes turns i u := Does.goes ⟨⟨next, here⟩, told⟩
  cases a with
  | settle c value =>
    obtain rfl : c = start.loaded := settles
    exact keeps value next ⟨goes.1, goes.2.1, goes.2.2, here⟩
  | hasReceiver c =>
    obtain ⟨rfl, gone⟩ : c = start.loaded ∧ answer = false := settles
    rw [goes.told] at told
    cases receives.symm.trans ((Option.some.inj told).trans gone)
  | _ => exact settles

/-- Nobody but the thread settles the channel, and it does so truthfully. -/
theorem truthful_succ (later : k < i) (truthful : x.Truthful turns u start k i) :
    x.Truthful turns u start k (i + 1) := by
  have source := makes.sources later
  have channels := (x.sound turns i).channels
  have there : start.loaded.index < (x.machineAt turns i).channels.size := by
    have known := channels.known u _ source
    simpa [Machine.channel?] using known
  intro receives
  have turned := Machine.channel_turn x.environment (x.machineAt turns i) there (turns i)
  change (∃ v a next, _ ∧ _ ∧ (x.machineAt turns (i + 1)).channel start.loaded = _) ∨
    (x.machineAt turns (i + 1)).channel start.loaded = _ ∧ _ at turned
  generalize (x.machineAt turns (i + 1)).channel start.loaded = channel at receives turned ⊢
  rcases turned with ⟨v, a, next, attempts, concerns, rfl⟩ | ⟨rfl, aside⟩
  · cases a with
    | spawn name priority start' =>
      -- Who makes a thread has both ends of the channels that it gives away.
      obtain ⟨-, -, made⟩ : _ ∧ _ ∧ (x.standingAt turns i v).duties.made = [start'.exit, start'.loaded] :=
        allowed_at attempts.does
      have mine : start.loaded ∈ (x.standingAt turns i v).duties.made := by
        rcases concerns with same | same <;> simp [made, ← same]
      exact absurd mine (channels.unmade u v _ source)
    | dropReceiver c =>
      obtain rfl : c = start.loaded := concerns
      rw [Machine.channel_dropReceiver there] at receives
      cases receives
    | receive c =>
      obtain rfl : c = start.loaded := concerns
      rw [Machine.channel_receive there] at receives ⊢
      obtain ⟨empty, still⟩ := empty_of_receive receives
      have live : ((x.machineAt turns i).channel start.loaded).receiver = true := by
        rwa [Oneshot.receive, empty] at receives
      rcases truthful live with ⟨-, reporting⟩ | ⟨result, full, -⟩
      · refine .inl ⟨still, makes.reporting_next later live reporting fun value next' attempts' => ?_⟩
        cases (attempts.unique attempts').2
      · cases empty.symm.trans full
    | settle c value =>
      obtain rfl : c = start.loaded := concerns
      rw [Machine.channel_settle there] at receives ⊢
      -- Nobody else was started with the channel.
      obtain ⟨-, -, fit⟩ : _ ∧ _ ∧ (x.standingAt turns i v).duties.MaySettle start.loaded value :=
        allowed_at attempts.does
      obtain rfl := channels.parted u v _ source fit.mem_sources
      rcases truthful receives with ⟨empty, reporting⟩ | ⟨result, full, gives⟩
      · obtain ⟨result, gives, rfl⟩ := reporting.settles attempts.does
        exact .inr ⟨result, by simp [Oneshot.settle, empty], gives.mono (Nat.le_succ i)⟩
      · exact .inr ⟨result, by simp [Oneshot.settle, full], gives.mono (Nat.le_succ i)⟩
    | _ => exact absurd concerns id
  · rcases truthful receives with ⟨empty, reporting⟩ | ⟨result, full, gives⟩
    · exact .inl ⟨empty, makes.reporting_next later receives reporting fun value next attempts =>
        aside u _ next attempts rfl⟩
    · exact .inr ⟨result, full, gives.mono (Nat.le_succ i)⟩

theorem truthful (later : k < i) : x.Truthful turns u start k i := by
  induction later with
  | refl => exact makes.truthful_start
  | step later ih => exact makes.truthful_succ later ih

/-- What a thread receives from the channel on which its child tells of its load is what the load has
    come to. -/
theorem loadGives_of_receive (later : k < i) {v : Tid} {answer : Option Signal}
    (receives : x.Does turns i v (.receive start.loaded) answer) :
    ∃ result, answer = some (.loaded result.isOk) ∧ x.LoadGives turns u start k result i := by
  obtain ⟨y, found, live, answered⟩ := receive_of_does receives
  have same := Machine.channel_eq found
  rcases makes.truthful later (by rwa [same]) with ⟨empty, -⟩ | ⟨result, full, gives⟩
  · rw [same] at empty
    simp [Oneshot.receive, empty] at answered
  · rw [same] at full
    exact ⟨result, by simpa [Oneshot.receive, full, eq_comm] using answered, gives⟩

end Makes

end Scenario

end Userland
