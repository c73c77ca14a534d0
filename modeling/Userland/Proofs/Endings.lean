import Userland.Proofs.Firing
import Userland.Proofs.LockSteps

/-!
# What comes about in the end

Programs may go on for ever, and a thread that wants the lock of the volume may find that others have taken
it, each time that it is woken. But if each thread makes steps again and again, and the machine is not
stopped, a thread gets an answer in the end to all that it does but these waits
(`Scenario.attains_of_isPrompt`), and it receives what is sent (`Scenario.attains_of_send`). So whatever
does not wait for the lock is over in the end (`Scenario.comes_to`). A process that exits fires its signal
(`Scenario.Begins.fires_in_time`), and ends if it gets the lock (`Scenario.Begins.ends_for_good`).
-/

namespace Userland

open ThreadProgram

-- Which words a line has does not matter for what is done with them.
attribute [local irreducible] Words.ofString

/-! ## Channels -/

/-- What becomes of a channel in time: it stays settled, and its receiving end does not come back. -/
structure Oneshot.Ages {τ α : Type} (y y' : Oneshot τ α) : Prop where
  /-- If it is settled it stays so. -/
  settled : y.state ≠ .empty → y'.state ≠ .empty
  /-- Its receiving end was there before. -/
  receiver : y'.receiver = true → y.receiver = true

namespace Oneshot.Ages

variable {τ α : Type} {y y' y'' : Oneshot τ α}

theorem refl (y : Oneshot τ α) : y.Ages y := ⟨id, id⟩

theorem trans (h : y.Ages y') (h' : y'.Ages y'') : y.Ages y'' :=
  ⟨h'.settled ∘ h.settled, h.receiver ∘ h'.receiver⟩

theorem settle (y : Oneshot τ α) (value : Option α) : y.Ages (y.settle value).2 where
  settled settled := by cases state : y.state <;> simp_all [Oneshot.settle]
  receiver := id

theorem receive (y : Oneshot τ α) (t : τ) : y.Ages (y.receive t).2 := by
  cases state : y.state with
  | empty => exact ⟨fun settled => absurd state settled, by simp only [Oneshot.receive, state, imp_self]⟩
  | full v => exact ⟨fun _ => by simp [Oneshot.receive, state], by simp [Oneshot.receive, state]⟩
  | closed => exact ⟨fun _ => by simp [Oneshot.receive, state], by simp [Oneshot.receive, state]⟩

theorem dropReceiver (y : Oneshot τ α) : y.Ages y.dropReceiver := ⟨id, nofun⟩

end Oneshot.Ages

namespace Machine

variable {env : Environment} {m : Machine} {t u : Tid} {c : ChannelId}

theorem ages_settleChannel (m : Machine) (c d : ChannelId) (value : Option Signal) :
    (m.channel c).Ages ((m.settleChannel d value).2.channel c) := by
  rcases m.channel_setChannel c d ((m.channel d).settle value).2 with same | ⟨rfl, same⟩
  · exact same.symm ▸ .refl _
  · exact same.symm ▸ .settle _ value

/-- A channel that is settled stays so, and a receiving end that is gone is gone for good. -/
theorem ages_turn (lives : env.stillborn = []) (there : c.index < m.channels.size) (what : Turn) :
    (m.channel c).Ages ((m.turn env what).channel c) := by
  rcases m.channel_turn env there what with ⟨u, a, next, -, concerns, same⟩ | ⟨same, -⟩
  swap
  · exact same.symm ▸ .refl _
  rw [same]
  cases a with
  | settle d value => exact m.ages_settleChannel c d value
  | receive d =>
    obtain rfl : d = c := concerns
    exact channel_receive there ▸ .receive _ u
  | dropReceiver d =>
    obtain rfl : d = c := concerns
    exact channel_dropReceiver there ▸ .dropReceiver _
  | spawn name priority start =>
    simp only [attempt, spawnThread, lives, List.not_mem_nil, if_false]
    split
    · exact .trans (ages_settleChannel _ c start.loaded none) (ages_settleChannel _ c start.exit none)
    · exact .refl _
  | _ => exact concerns.elim

/-! ## Turns of others -/

/-- A turn of another leaves a thread as it was, or wakes it. -/
theorem thread_turn (lives : env.stillborn = []) (inside : t < m.threads.size) {what : Turn}
    (other : what ≠ .step t) : (m.turn env what).thread t = m.thread t ∨
      (m.turn env what).thread t = (m.thread t).woken := by
  unfold turn
  split
  · exact .inl rfl
  cases what with
  | wake u => exact m.thread_wake_eq t u
  | step u => exact thread_step (fun same => other (same ▸ rfl)) fun _ _ _ _ _ _ _ => ⟨lives, inside⟩

/-- A turn of another leaves a thread that is awake awake, and one that is woken does not sleep. -/
theorem upholds_turn (lives : env.stillborn = []) (inside : t < m.threads.size) {what : Turn}
    (other : what ≠ .step t) : (m.thread t).Upholds ((m.turn env what).thread t) :=
  .of_woken (thread_turn lives inside other)

/-- A thread that has ended stays so. -/
theorem ended_turn (lives : env.stillborn = []) (inside : t < m.threads.size) {what : Turn}
    (ended : (m.thread t).status = .ended) : ((m.turn env what).thread t).status = .ended := by
  by_cases own : what = .step t
  · subst own
    unfold turn
    split
    · exact ended
    · simp only [step, ended]
  · rcases thread_turn lives inside own with same | same
    · rw [same, ended]
    · rw [same, Thread.woken, ended]
      exact ended

/-- What is prompt is done at once, if the locks on registries are to be had. -/
theorem answer?_of_isPrompt (lives : env.stillborn = []) {a : Action} (prompt : a.isPrompt = true)
    (free : ∀ family, a = .lockRegistry family → (t, family) ∉ m.registries) :
    ∃ answer, m.answer? env t a = some answer := by
  cases a with
  | lockRegistry family => exact ⟨(), answer?_lockRegistry (free family rfl)⟩
  | lock | receive | endThread | goto | stop => cases prompt
  | spawn name priority start => exact ⟨_, answer?_spawn lives name priority start⟩
  | _ => exact ⟨_, rfl⟩

end Machine

/-! ## Programs -/

theorem Action.isPrompt_of_announces {a : Action} (announces : a.announces = true) : a.isPrompt = true := by
  cases a with
  | lock | receive | endThread | goto | stop => cases announces
  | _ => rfl

theorem Action.goesOn_of_isPrompt {a : Action} (prompt : a.isPrompt = true) : a.goesOn = true := by
  cases a with
  | endThread | goto => cases prompt
  | _ => rfl

/-- A load waits for nothing but a lock. -/
theorem Action.locks_of_loads {a : Action} (loads : a.loads = true) :
    (∃ l, a = .lock l) ∨ a.isPrompt = true := by
  cases a with
  | lock l => exact .inl ⟨l, rfl⟩
  | receive | endThread | goto | stop => cases loads
  | _ => exact .inr rfl

/-- Neither does an exit, which ends the thread. -/
theorem Kernel.locks_of_inExit {status : Int32} {a : Action} (exits : InExit status a) :
    a = .endThread ∨ (∃ l, a = .lock l) ∨ a.isPrompt = true := by
  rcases exits with rfl | rfl | ⟨_, rfl⟩ | ⟨_, rfl⟩ | final
  on_goal 5 =>
    cases a with
    | endThread => exact .inl rfl
    | lock l => exact .inr (.inl ⟨l, rfl⟩)
    | receive | goto | stop => exact final.elim
    | _ => exact .inr (.inr rfl)
  all_goals exact .inr (.inr rfl)

theorem ThreadProgram.discard_bind {α β : Type} (p : ThreadProgram α) (rest : Unit → ThreadProgram β) :
    discard p >>= rest = p >>= fun _ => rest () := bind_assoc p (fun _ => pure ()) rest

/-- Before a child tells what its load has come to it installs its program, or shows why there is none. -/
theorem Kernel.announcing_sends {α : Type} (start : NewProcess) (result : Except LoadError LoadedProgram)
    (rest : Unit → ThreadProgram α) : ∃ (first : ThreadProgram Unit) (f : Bool → ThreadProgram α),
      announcing start result >>= rest =
        (first >>= fun _ => send start.loaded (.loaded result.isOk) >>= f) ∧
      first.Only (fun a : Action => a.isPrompt = true) fun _ => True := by
  cases result with
  | ok program =>
    refine ⟨install program, fun _ => ask (.note .enter) >>= rest, ?_, ?_⟩
    · simp only [announcing, bind_assoc, discard_bind]
      rfl
    · exact (announces_install program).mono (fun _ => Action.isPrompt_of_announces) fun _ => id
  | error e =>
    simp only [announcing]
    cases e.diagnostic? with
    | none => exact ⟨pure (), fun _ => rest (), discard_bind .., trivial⟩
    | some text =>
      refine ⟨putLine (loadLine (programName start) text), fun _ => rest (), ?_, rfl, fun _ => trivial⟩
      simp only [bind_assoc, discard_bind]
      rfl

namespace Scenario

variable {x : Scenario} {turns : ℕ → Turn} {i j k b : ℕ} {t u : Tid} {c : ChannelId} {a : Action}
  {start : NewProcess} {status : Int32}

/-! ## What threads attain -/

/-- The machine is never stopped. -/
def Unstopped (x : Scenario) (turns : ℕ → Turn) : Prop := ∀ i, (x.machineAt turns i).stopped = none

/-- Whenever a thread is about to do this, it does it in the end. -/
def Attains (x : Scenario) (turns : ℕ → Turn) (t : Tid) (a : Action) : Prop :=
  ∀ i next, x.programAt turns i t = Program.ask a next → ∃ j ≥ i, ∃ answer, x.Does turns j t a answer

/-- A part of what a thread does, to which it comes at time `b`, is over in the end. -/
def Completes (x : Scenario) (turns : ℕ → Turn) (t : Tid) {α : Type} (b : ℕ) (p : ThreadProgram α) : Prop :=
  ∃ d r, x.leftAt turns t p b d = Program.pure r

/-- A thread that does something goes on with the answer. -/
theorem Attains.next {next : a.Answer → ThreadProgram Unit} (attains : x.Attains turns t a)
    (here : x.programAt turns i t = Program.ask a next) :
    ∃ j ≥ i, ∃ answer, x.Does turns j t a answer ∧ x.programAt turns (j + 1) t = next answer := by
  obtain ⟨j, le, answer, does⟩ := attains i next here
  rcases goes_on here (Action.goesOn_of_answer answer) le with still | ⟨m, answer', after, -, -, rest⟩
  · exact ⟨j, le, answer, does, does.next still⟩
  · exact ⟨m, after, answer', rest⟩

/-- So does a part of what a thread does. -/
theorem Attains.proceeds {α : Type} {first : a.Answer → ThreadProgram α} {next : α → ThreadProgram Unit}
    (attains : x.Attains turns t a) (here : x.programAt turns b t = Program.ask a first >>= next) :
    ∃ e answer, x.Proceeds turns t first next b e answer := by
  obtain ⟨j, le, answer, does⟩ := attains b _ here
  obtain ⟨d, rfl⟩ := Nat.exists_eq_add_of_le le
  rcases stays_or_proceeds here (inside_of_asks here) (Action.goesOn_of_answer answer) (d + 1) with
    ⟨-, -, -, silent⟩ | ⟨e, _, answer', -, goes⟩
  · cases does.2.symm.trans (silent d (Nat.lt_succ_self d))
  · exact ⟨e, answer', goes⟩

/-- A part is over in the end if what follows its first action is. -/
theorem Proceeds.completes {α : Type} {first : a.Answer → ThreadProgram α} {next : α → ThreadProgram Unit} {e : ℕ}
    {answer : a.Answer} (proceeds : x.Proceeds turns t first next b e answer)
    (rest : x.Completes turns t (b + e + 1) (first answer)) : x.Completes turns t b (Program.ask a first) := by
  obtain ⟨d, r, left⟩ := rest
  exact ⟨e + 1 + d, r, (proceeds.onward d).trans left⟩

/-- A part of what a thread does comes to something that is so, or is over, if the thread does all the rest in
    the end. -/
theorem comes_to {α : Type} {P : Action → Prop} {R : α → Prop} {p : ThreadProgram α}
    {next : α → ThreadProgram Unit} (part : p.Only (fun a => P a ∨ x.Attains turns t a) R)
    (here : x.programAt turns b t = p >>= next) :
    ∃ d, x.programAt turns (b + d) t = x.leftAt turns t p b d >>= next ∧
      ((∃ r, x.leftAt turns t p b d = Program.pure r) ∨
        ∃ a first, P a ∧ x.leftAt turns t p b d = Program.ask a first) := by
  induction p generalizing b with
  | pure r => exact ⟨0, here, .inl ⟨r, rfl⟩⟩
  | ask a first ih =>
    rcases part.1 with so | attains
    · exact ⟨0, here, .inr ⟨a, first, so, rfl⟩⟩
    · obtain ⟨e, answer, proceeds⟩ := attains.proceeds here
      obtain ⟨d, there, ends⟩ := ih answer (part.2 answer) proceeds.here
      refine ⟨e + 1 + d, ?_, ?_⟩
      · rw [proceeds.onward d, ← there, Nat.add_assoc b, Nat.add_assoc b]
      · rwa [proceeds.onward d]

/-- If the thread does all of it in the end, it is over in the end, and the thread goes on. -/
theorem over_of_attains {α : Type} {R : α → Prop} {p : ThreadProgram α} {next : α → ThreadProgram Unit}
    (part : p.Only (x.Attains turns t) R) (here : x.programAt turns b t = p >>= next) :
    ∃ d r, x.leftAt turns t p b d = Program.pure r ∧ x.programAt turns (b + d) t = next r := by
  obtain ⟨d, there, ⟨r, left⟩ | ⟨a, first, ⟨⟩, -⟩⟩ :=
    comes_to (P := fun _ => False) (part.mono (fun _ => .inr) fun _ => id) here
  rw [left] at there
  exact ⟨d, r, left, there⟩

/-! ## Channels in runs -/

/-- A channel with which a thread was started exists from then on. -/
theorem there_of_source (source : c ∈ (x.standingAt turns i u).duties.sources)
    (inside : u < (x.machineAt turns i).threads.size) (le : i ≤ j) :
    c.index < (x.machineAt turns j).channels.size := by
  have known := (x.sound turns j).channels.known u c ((sources_lasts inside le).symm ▸ source)
  simpa [Machine.channel?] using known

theorem ages (source : c ∈ (x.standingAt turns i u).duties.sources)
    (inside : u < (x.machineAt turns i).threads.size) (le : i ≤ j) :
    ((x.machineAt turns i).channel c).Ages ((x.machineAt turns j).channel c) := by
  induction le with
  | refl => exact .refl _
  | step le ih => exact ih.trans (Machine.ages_turn rfl (there_of_source source inside le) _)

/-- A thread that settles a channel was started with it, and the channel stays settled. -/
theorem settled_of_does {value : Option Signal} {waiter : Option Tid}
    (settles : x.Does turns i u (.settle c value) waiter) (later : i < j) :
    ((x.machineAt turns j).channel c).state ≠ .empty := by
  have goes := settles.goes
  obtain ⟨next, here⟩ := settles.1
  obtain ⟨-, -, fit⟩ : _ ∧ _ ∧ (x.standingAt turns i u).duties.MaySettle c value := allowed_at here
  have source : c ∈ (x.standingAt turns (i + 1) u).duties.sources :=
    (sources_lasts goes.inside (Nat.le_succ i)).symm ▸ fit.mem_sources
  have inside := Nat.lt_of_lt_of_le goes.inside (x.size_le turns (Nat.le_succ i))
  refine (ages source inside later).settled ?_
  have does : ((x.machineAt turns i).thread u).program = _ := here
  rw [machineAt_of_goes goes, Machine.step_of_ask goes.2.2 does, Machine.channel_settleAttempt,
    Machine.channel_settle (there_of_source fit.mem_sources goes.inside (Nat.le_refl i))]
  cases state : ((x.machineAt turns i).channel c).state <;> cases value <;> simp [Oneshot.settle, state]

/-- Who waits to receive has the receiving end. -/
theorem receiver_of_asks {next : Option Signal → ThreadProgram Unit}
    (here : x.programAt turns i t = Program.ask (Action.receive c) next) :
    ((x.machineAt turns i).channel c).receiver = true := by
  obtain ⟨-, -, -, awaited, -⟩ : _ ∧ _ ∧ _ ∧ c ∈ (x.standingAt turns i t).duties.awaited ∧ _ := allowed_at here
  obtain ⟨y, found, live⟩ := (x.sound turns i).channels.of_receivers (List.mem_append_left _ awaited)
  rwa [Machine.channel_eq found]

/-- A thread that is to wake another is about to do so. -/
theorem unblocks_of_wakes (due : (x.dutiesAt turns i u).wakes = some t) :
    ∃ next, x.programAt turns i u = Program.ask (Action.unblock t) next := by
  cases here : x.programAt turns i u with
  | pure r =>
    have done := (x.sound turns i).keeps u
    rw [show ((x.machineAt turns i).thread u).program = _ from here] at done
    cases due.symm.trans done.free.wakes
  | ask a next =>
    have allowed := allowed_at here
    cases a with
    | unblock v =>
      obtain rfl : t = v := Option.some.inj (due.symm.trans allowed)
      exact ⟨next, rfl⟩
    | yield | newChannel | stop => cases due.symm.trans allowed
    | endThread => cases due.symm.trans allowed.free.wakes
    | goto =>
      obtain ⟨v, start, running⟩ := allowed
      cases due.symm.trans running.wakes
    | isReady | claimSender | claimReceiver | offersReceiver | isHeld | getCell | setCell => exact allowed.elim
    | _ => cases due.symm.trans allowed.1

/-! ## What comes about -/

section Fairly

variable (fair : Fair turns) (running : x.Unstopped turns)
include fair running

/-- Whoever can go on does so in the end. -/
theorem goes_of_runnable (runnable : ((x.machineAt turns i).thread t).Runnable) :
    ∃ j ≥ i, x.Goes turns j t := by
  let th (j : ℕ) := (x.machineAt turns j).thread t
  have upholds (j : ℕ) (up : (th j).Runnable) (other : turns j ≠ .step t) : (th j).Upholds (th (j + 1)) := by
    refine Machine.upholds_turn rfl (Machine.lt_size_of_status ?_) other
    rcases up with awake | ⟨parking, -⟩
    · exact fun ended => nomatch awake.symm.trans ended
    · exact fun ended => nomatch parking.symm.trans ended
  have stirs (j : ℕ) (kept : (th j).Stirs) (here : turns j = .step t) : (th (j + 1)).status = .awake := by
    change (((x.machineAt turns j).turn x.environment (turns j)).thread t).status = .awake
    rw [here, Machine.turn, if_neg (by simp [running j])]
    exact Machine.awake_step kept
  obtain ⟨j, le, awake, here⟩ := fair.awakes (fun j _ => upholds j) (fun j _ => stirs j) runnable
  exact ⟨j, le, running j, here, awake⟩

/-- What is prompt is done in the end. -/
theorem attains_of_isPrompt (prompt : a.isPrompt = true) : x.Attains turns t a := by
  intro i next here
  have other (b : Action) (waits : b.isPrompt = false) : a ≠ b := by
    rintro rfl
    cases prompt.symm.trans waits
  have awake := awake_of_asks here (other _ rfl) fun c => other _ rfl
  obtain ⟨j, le, goes⟩ := goes_of_runnable fair running (.inl awake)
  rcases goes_on here (Action.goesOn_of_isPrompt prompt) le with still | ⟨m, answer, after, -, -, does, -⟩
  · obtain ⟨answer, answered⟩ := Machine.answer?_of_isPrompt (m := x.machineAt turns j) (t := t) x.lawful.lives prompt
      fun family same => by
        subst same
        exact (x.sound turns j).registry_free still
    exact ⟨j, le, answer, ⟨next, still⟩, (goes.told a).trans answered⟩
  · exact ⟨m, after, answer, does⟩

/-- What a channel is settled with is received in the end. -/
theorem attains_receive {value : Option Signal} {waiter : Option Tid}
    (settles : x.Does turns k u (.settle c value) waiter) : x.Attains turns t (.receive c) := by
  intro i next here
  by_contra! never
  have still (j : ℕ) (le : i ≤ j) : x.programAt turns j t = Program.ask (Action.receive c) next := by
    refine (goes_on here rfl le).resolve_right ?_
    rintro ⟨m, answer, after, -, -, does, -⟩
    exact never m after answer does
  -- From the time on at which the channel is settled, a thread that can go on receives what is there.
  have stuck (j : ℕ) (le : i ≤ j) (later : k < j) : ¬((x.machineAt turns j).thread t).Runnable := fun runnable => by
    obtain ⟨n, le', goes⟩ := goes_of_runnable fair running runnable
    have settled := settled_of_does settles (Nat.lt_of_lt_of_le later le')
    obtain ⟨answer, told⟩ : ∃ answer, x.toldAt turns n t (.receive c) = some answer := by
      rw [goes.told, Machine.answer?, Machine.attempt]
      cases state : ((x.machineAt turns n).channel c).state with
      | empty => exact absurd state settled
      | full v => exact ⟨some v, by simp [Oneshot.receive, state]⟩
      | closed => exact ⟨none, by simp [Oneshot.receive, state]⟩
    have after := Nat.le_trans le le'
    exact never n after answer ⟨⟨next, still n after⟩, told⟩
  obtain ⟨j, le, later⟩ : ∃ j, i ≤ j ∧ k < j := ⟨max i (k + 1), Nat.le_max_left .., Nat.le_max_right ..⟩
  have sound := x.sound turns j
  have aim : ((x.machineAt turns j).thread t).aim = some (.receive c) := Sound.aim_eq (still j le)
  have left : ((x.machineAt turns j).thread t).status ≠ .ended := by
    intro ended
    cases (still j le).symm.trans (sound.ended t ended)
  have rests := (Thread.runnable_or_rests _ left).resolve_left (stuck j le later)
  rcases sound.sleepers.rests t rests with queued | ⟨d, receives, stirs | ⟨v, due, -⟩ | ⟨y, found, empty, -⟩⟩
  · cases aim.symm.trans (sound.sleepers.queues t queued).2
  · exact stuck j le later (.inr stirs)
  · -- Who is to wake the thread does so, and then it can go on.
    obtain ⟨next', wakes⟩ := unblocks_of_wakes due
    obtain ⟨m, after, answer, does⟩ := attains_of_isPrompt fair running (a := .unblock t) rfl j next' wakes
    have now := still m (Nat.le_trans le after)
    obtain ⟨next'', wakes⟩ := does.1
    refine stuck (m + 1) (by omega) (by omega) ?_
    rw [machineAt_of_goes does.goes]
    refine Machine.runnable_step ?_ does.goes.2.2 (Sound.aim_eq wakes) fun ended => ?_
    · rintro rfl
      cases now.symm.trans wakes
    · cases now.symm.trans ((x.sound turns m).ended t ended)
  · obtain rfl := Action.receive.inj (Option.some.inj (aim.symm.trans receives))
    exact settled_of_does settles later (Machine.channel_eq found ▸ empty)

/-- What is sent is received in the end, if it is waited for. -/
theorem attains_of_send {v : Signal} {f : Bool → ThreadProgram Unit}
    (sends : x.programAt turns k u = send c v >>= f) : x.Attains turns t (.receive c) := by
  obtain ⟨f', asks, settles⟩ : ∃ f' : Bool → ThreadProgram Unit,
      send c v >>= f = Program.ask (Action.hasReceiver c) f' ∧
      ∃ g, f' true = Program.ask (Action.settle c (some v)) g := ⟨_, rfl, _, rfl⟩
  obtain ⟨m, -, alive, does, here⟩ :=
    Attains.next (attains_of_isPrompt fair running rfl) (sends.trans asks)
  cases alive with
  | true =>
    obtain ⟨g, settles⟩ := settles
    obtain ⟨n, -, waiter, does', -⟩ :=
      Attains.next (attains_of_isPrompt fair running rfl) (here.trans settles)
    exact attains_receive fair running does'
  | false =>
    -- Nobody had the receiving end any more, so whoever waits to receive has received by then.
    intro i next asks'
    have gone : ((x.machineAt turns m).channel c).receiver = false :=
      Option.some.inj ((does.goes.told _).symm.trans does.2)
    rcases Nat.le_total m i with before | after
    · obtain ⟨next', there⟩ := does.1
      obtain ⟨-, given⟩ : _ ∧ c ∈ (x.standingAt turns m u).duties.given := allowed_at there
      have source := ((x.sound turns m).channels.consistent u).senders c (List.mem_append_left _ given)
      cases gone.symm.trans ((ages source does.goes.inside before).receiver (receiver_of_asks asks'))
    · rcases goes_on asks' rfl after with still | ⟨n, answer, le, -, -, receives, -⟩
      · cases gone.symm.trans (receiver_of_asks still)
      · exact ⟨n, le, answer, receives⟩

/-- There is one lock, and for all else a thread does not have to wait. -/
theorem attains_of_locks (granted : x.Attains turns t (.lock Kernel.volumeLock))
    (locks : (∃ l, a = .lock l) ∨ a.isPrompt = true) : x.Attains turns t a := by
  rcases locks with ⟨l, rfl⟩ | prompt
  · intro i next here
    obtain ⟨-, -, rfl, -⟩ : _ ∧ _ ∧ l = Kernel.volumeLock ∧ _ := allowed_at here
    exact granted i next here
  · exact attains_of_isPrompt fair running prompt

/-! ## Loads -/

/-- A child that gets the lock of the volume loads its program in the end, or fails to. -/
theorem Makes.loads_in_time (makes : x.Makes turns k t start u)
    (granted : x.Attains turns u (.lock Kernel.volumeLock)) :
    ∃ result j, x.LoadGives turns u start k result j := by
  obtain ⟨after, here, -⟩ := makes.loads
  have part : (x.kernel.loading start).Only (x.Attains turns u) fun _ => True :=
    Kernel.loads_loading.mono (fun _ loads => attains_of_locks fair running granted
      (Action.locks_of_loads loads)) fun _ => id
  obtain ⟨d, result, left, -⟩ := over_of_attains part here
  exact ⟨result, k + 1 + d, d, rfl, left⟩

/-- When the load has come to a result the child tells that in the end. -/
theorem LoadGives.sends {result : Except LoadError LoadedProgram} (gives : x.LoadGives turns u start k result i)
    (makes : x.Makes turns k t start u) :
    ∃ n f, x.programAt turns n u = send start.loaded (.loaded result.isOk) >>= f := by
  obtain ⟨d, rfl, left⟩ := gives
  obtain ⟨e, -, left, ongoing⟩ := leftAt_first left
  -- The child announces the result when the load is over.
  have here : x.programAt turns (k + 1) u = x.kernel.loading start >>= fun result =>
      (Kernel.announcing start result >>= fun _ => pure result) >>= x.proceeds start := by
    rw [makes.starts, Kernel.starting, bind_assoc]
  have here := programAt_of_remains here (makes.inside (Nat.lt_succ_self k)) Kernel.remains_loading ongoing
  rw [left] at here
  obtain ⟨first, f, shape, prompt⟩ := Kernel.announcing_sends start result fun _ => x.proceeds start result
  replace here : x.programAt turns (k + 1 + e) u =
      first >>= fun _ => send start.loaded (.loaded result.isOk) >>= f := by
    rw [here, ← shape]
    exact bind_assoc (Kernel.announcing start result) (fun _ => pure result) (x.proceeds start)
  obtain ⟨d, -, -, there⟩ := over_of_attains (prompt.mono (fun a prompt => attains_of_isPrompt fair running prompt)
    fun _ => id) here
  exact ⟨_, f, there⟩

/-! ## Exits -/

/-- A process that exits fires its exit signal in the end. -/
theorem Begins.fires_in_time (begins : x.Begins turns b u (.exit status)) :
    ∃ k t start m, x.Makes turns k t start u ∧ b < m ∧ x.Fires turns m u start.exit status := by
  obtain ⟨k, -, t, start, makes⟩ := begins.made
  -- The thread does one thing after the other until it takes the signal.
  have goesOn {i : ℕ} {a : Action} {next : a.Answer → ThreadProgram Unit} (prompt : a.isPrompt = true)
      (here : x.programAt turns i u = Program.ask a next) :
      ∃ j ≥ i, ∃ answer, x.Does turns j u a answer ∧ x.programAt turns (j + 1) u = next answer :=
    (attains_of_isPrompt fair running prompt).next here
  have leaves {m : ℕ} {p : Process} (after : b < m) (here : x.programAt turns m u = Kernel.leaving p status) :
      ∃ m > b, x.Fires turns m u start.exit status := by
    obtain ⟨text, f, shape, -⟩ := Kernel.leaving_opens (α := Unit) p status
    obtain ⟨m₁, after₁, -, -, here⟩ := goesOn rfl (here.trans shape)
    obtain ⟨m₂, after₂, -, -, here⟩ := goesOn rfl here
    obtain ⟨m₃, after₃, answer, takes, -⟩ := goesOn rfl here
    exact ⟨m₃, by omega, begins.fires makes (by omega) takes⟩
  suffices ∃ m > b, x.Fires turns m u start.exit status by
    obtain ⟨m, after, fires⟩ := this
    exact ⟨k, t, start, m, makes, after, fires⟩
  obtain ⟨-, -, -, rest, began, -⟩ := begins.composed
  obtain ⟨first, opens, -⟩ := Kernel.exitProcess_opens (α := Unit) status
  obtain ⟨m, after, found, finds, here⟩ := goesOn rfl (began.trans (Kernel.exitProcess_bind.trans opens))
  obtain ⟨p, rfl⟩ := finds.finds
  rw [Kernel.exitProcess_some opens] at here
  obtain ⟨m₁, after₁, -, -, here⟩ := goesOn rfl here
  split at here
  · obtain ⟨m₂, after₂, -, -, here⟩ := goesOn rfl here
    exact leaves (by omega) here
  · exact leaves (by omega) here

/-- So whoever waits for its exit status receives it. -/
theorem Fires.attains {c : ChannelId} (fires : x.Fires turns i u c status) : x.Attains turns t (.receive c) := by
  obtain ⟨-, rest, here⟩ := fires
  exact attains_of_send fair running (here.trans (discard_bind ..))

/-- A thread that is about to end does so in the end. -/
theorem ends_of_endThread {next : Empty → ThreadProgram Unit}
    (here : x.programAt turns i t = Program.ask Action.endThread next) :
    ∃ n, ∀ j ≥ n, ((x.machineAt turns j).thread t).status = .ended := by
  have inside {j : ℕ} (le : i ≤ j) := Nat.lt_of_lt_of_le (inside_of_asks here) (x.size_le turns le)
  have stays (j : ℕ) (le : i ≤ j) : x.programAt turns j t = Program.ask Action.endThread next ∨
      x.programAt turns j t = Program.pure () := by
    induction le with
    | refl => exact .inl here
    | @step j le ih =>
      rcases programAt_succ (inside le) with step | ⟨a, next', there, -, ends⟩
      · rw [step]
        refine ih.imp (fun same => ?_) fun same => by rw [same, Program.advance]
        rw [same, Program.advance, Action.eq_none_of_leaves rfl (x.toldAt turns j t .endThread)]
        rfl
      · rcases ih with same | gone
        · exact .inr (ends (Program.ask.inj (same.symm.trans there)).1.symm)
        · cases gone.symm.trans there
  have awake := awake_of_asks here (by rintro ⟨⟩) (by rintro _ ⟨⟩)
  obtain ⟨j, le, goes⟩ := goes_of_runnable fair running (.inl awake)
  have ends : x.machineAt turns (j + 1) = (x.machineAt turns j).finish t := by
    rw [machineAt_of_goes goes]
    rcases stays j le with same | same
    · have does : ((x.machineAt turns j).thread t).program = _ := same
      simp only [Machine.step, goes.2.2, does]
      rfl
    · have does : ((x.machineAt turns j).thread t).program = _ := same
      simp only [Machine.step, goes.2.2, does]
  refine ⟨j + 1, fun n later => ?_⟩
  induction later with
  | refl => rw [ends, Machine.thread_finish (inside le)]
  | step later ih => exact Machine.ended_turn rfl (inside (Nat.le_trans (Nat.le_succ_of_le le) later)) ih

/-- A process that exits ends, if it gets the lock of the volume. -/
theorem Begins.ends_for_good (begins : x.Begins turns b u (.exit status))
    (granted : x.Attains turns u (.lock Kernel.volumeLock)) :
    ∃ n, ∀ j ≥ n, ((x.machineAt turns j).thread u).status = .ended := by
  obtain ⟨-, -, -, rest, here, -⟩ := begins.composed
  have part : (Kernel.exitProcess status : ThreadProgram Empty).Only
      (fun a : Action => a = .endThread ∨ x.Attains turns u a) fun _ => True :=
    Kernel.exits_exitProcess.mono (fun _ exits => (Kernel.locks_of_inExit exits).imp_right
      (attains_of_locks fair running granted)) fun _ => id
  obtain ⟨d, there, ⟨r, -⟩ | ⟨a, first, rfl, left⟩⟩ := comes_to part here
  · cases r
  · rw [left] at there
    exact ends_of_endThread fair running there

end Fairly

end Scenario

end Userland
