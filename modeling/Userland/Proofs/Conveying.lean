import Userland.Proofs.Transfers

/-!
# Steps of threads that use a channel

Whatever a thread that keeps to the ends of a channel does, and whoever is woken, the state of the channel
goes on to agree with the record, and a receiver that rests is not forgotten (`Conveyed.turn`). An action that
does not concern the ends leaves the channel as it is, and its ends where they are (`Machine.SameEnds`).
-/

namespace Userland

open ThreadProgram

/-- A thread that rests and has been woken since is about to go on. -/
theorem Thread.Upholds.stirs_of_rests {th th' : Thread} (upholds : th.Upholds th') (stirs : th.Stirs)
    (rests : th'.Rests) : th'.Stirs :=
  (upholds.stirs stirs).resolve_left rests.ne_awake

/-- A thread that has been woken and yet rests is about to go on. -/
theorem Thread.stirs_of_woken {th : Thread} (rests : th.woken.Rests) : th.woken.Stirs := by
  rcases th.woken_up with awake | ⟨stirs, -⟩ | ⟨ended, -⟩
  · exact absurd awake rests.ne_awake
  · exact stirs
  · exact absurd ended rests.ne_ended

/-- Channel `c` and its ends are the same in two machines, and both go on if one does. -/
structure Machine.SameEnds (c : ChannelId) (m m' : Machine) : Prop where
  /-- They have stopped in the same way. -/
  stopped : m'.stopped = m.stopped
  /-- They have as many channels. -/
  size : m'.channels.size = m.channels.size
  /-- The channel is the same. -/
  channel : m'.channel c = m.channel c
  /-- The sender lies there in both. -/
  sender : c.index ∈ m'.loneSenders ↔ c.index ∈ m.loneSenders
  /-- The receiver lies there in both. -/
  receiver : c.index ∈ m'.loneReceivers ↔ c.index ∈ m.loneReceivers

namespace Machine

variable {env : Environment} {c c' : ChannelId} {m m' : Machine} {t : Tid} {a : Action}

theorem channel_setChannel_of_lt (inside : c.index < m.channels.size) (x : Channel) :
    (m.setChannel c x).channel c = x := by
  simp [channel, setChannel, Array.getD_eq_getD_getElem?, inside]

theorem channel_setChannel_of_ne (other : c' ≠ c) (x : Channel) :
    (m.setChannel c' x).channel c = m.channel c := by
  have index : c'.index ≠ c.index := fun same => other (by cases c'; cases c; cases same; rfl)
  simp [channel, setChannel, Array.getD_eq_getD_getElem?, index]

theorem size_setChannel (m : Machine) (c : ChannelId) (x : Channel) :
    (m.setChannel c x).channels.size = m.channels.size := by
  simp [setChannel]

namespace SameEnds

theorem refl (c : ChannelId) (m : Machine) : m.SameEnds c m := ⟨rfl, rfl, rfl, .rfl, .rfl⟩

theorem setThread (h : m.SameEnds c m') (t : Tid) (th : Thread) : m.SameEnds c (m'.setThread t th) :=
  ⟨h.stopped, h.size, h.channel, h.sender, h.receiver⟩

theorem wake (c : ChannelId) (m : Machine) (t : Tid) : m.SameEnds c (m.wake t).1 := by
  unfold Machine.wake
  dsimp only
  split
  · exact (refl c m).setThread ..
  · exact refl c m
  · exact (refl c m).setThread ..
  · exact (refl c m).setThread ..

theorem tells (h : m.SameEnds c m') {r : ChannelRecord}
    (tells : r.Tells (m.channel c) (c.index ∈ m.loneSenders) (c.index ∈ m.loneReceivers)) :
    r.Tells (m'.channel c) (c.index ∈ m'.loneSenders) (c.index ∈ m'.loneReceivers) := by
  rwa [h.channel, propext h.sender, propext h.receiver]

/-- An action that does not concern the ends of the channel leaves all as it is. -/
theorem attempt (aside : a.IsAside c) : m.SameEnds c (m.attempt env t a).machine := by
  have settled (c' : ChannelId) (other : c' ≠ c) (x : Channel) : m.SameEnds c (m.setChannel c' x) :=
    ⟨rfl, size_setChannel m c' x, channel_setChannel_of_ne other x, .rfl, .rfl⟩
  have index {c' : ChannelId} (other : c' ≠ c) : c.index ≠ c'.index := fun same =>
    other (by cases c'; cases c; cases same; rfl)
  cases a with
  | spawn | newChannel | lockRegistry | endThread | goto | stop => exact aside.elim
  | settle c' value => exact settled c' aside _
  | dropReceiver c' => exact settled c' aside _
  | receive c' =>
    simp only [Machine.attempt]
    rcases (m.channel c').receive t with ⟨_ | value, x⟩ <;> exact settled c' aside x
  | lock l =>
    simp only [Machine.attempt]
    rcases (m.lock l).tryLock t with ⟨_ | _, x⟩ <;> exact ⟨rfl, rfl, rfl, .rfl, .rfl⟩
  | claimSender c' =>
    exact ⟨rfl, rfl, rfl, by simp [Machine.attempt, Attempt.machine, index aside], .rfl⟩
  | claimReceiver c' =>
    exact ⟨rfl, rfl, rfl, .rfl, by simp [Machine.attempt, Attempt.machine, index aside]⟩
  | unblock u => exact .wake c m u
  | _ => exact ⟨rfl, rfl, rfl, .rfl, .rfl⟩

end SameEnds

end Machine

/-- A machine, as far as channel `c` is concerned. -/
structure Conveyed (c : ChannelId) (r : ChannelRecord) (m : Machine) : Prop where
  /-- The machine goes on. -/
  running : m.stopped = none
  /-- There is such a channel. -/
  there : c.index < m.channels.size
  /-- Each thread keeps to the ends of the channel. -/
  keeps : ∀ t, (m.thread t).program.KeepsEnds c (fun _ p => p = .outside) (r.phase t)
  /-- Who has something to do has not ended. -/
  lasts : ∀ t, (m.thread t).aim ≠ none → (m.thread t).status ≠ .ended
  /-- Who has somebody to wake is awake. -/
  waking : ∀ t u, r.phase t = .waking u → (m.thread t).status = .awake
  /-- The state of the channel agrees with the record. -/
  tells : r.Tells (m.channel c) (c.index ∈ m.loneSenders) (c.index ∈ m.loneReceivers)
  /-- Who rests to receive has left its name until the channel is settled; then a wakeup is kept for it, or
      somebody is about to wake it. -/
  rests : ∀ t, (m.thread t).Rests → (m.thread t).aim = some (.receive c) →
    (r.settled = none → (m.channel c).waiter = some t) ∧
      (r.settled ≠ none → (m.thread t).Stirs ∨ ∃ u, r.phase u = .waking t)

namespace Conveyed

variable {env : Environment} {c : ChannelId} {r r' : ChannelRecord} {m m' : Machine} {t u : Tid}
  {a : Action} {next : a.Answer → ThreadProgram Unit}

/-- A thread is at an end if it is about to use it. -/
theorem allows (h : Conveyed c r m) (aim : (m.thread t).aim = some a) : (r.phase t).Allows c a := by
  have keeps := h.keeps t
  cases does : (m.thread t).program with
  | pure result => simp [Thread.aim, does] at aim
  | ask b next =>
    rw [does] at keeps
    obtain rfl : b = a := by simpa [Thread.aim, does] using aim
    exact keeps.1

theorem phase_of_dropReceiver (h : Conveyed c r m)
    (aim : (m.thread t).aim = some (.dropReceiver c)) : r.phase t = .receiver :=
  EndPhase.allows_dropReceiver.1 (h.allows aim)

theorem phase_of_hasReceiver (h : Conveyed c r m)
    (aim : (m.thread t).aim = some (.hasReceiver c)) : r.phase t = .sender :=
  EndPhase.allows_hasReceiver.1 (h.allows aim)

theorem phase_of_receive (h : Conveyed c r m) (aim : (m.thread t).aim = some (.receive c)) :
    r.phase t = .receiver :=
  EndPhase.allows_receive.1 (h.allows aim)

/-- Who settles the channel has the sender, or is about to send. -/
theorem phase_of_settle (h : Conveyed c r m) {value : Option Signal}
    (aim : (m.thread t).aim = some (.settle c value)) :
    r.phase t = .sender ∧ value = none ∨ r.phase t = .committed ∧ ∃ signal, value = some signal :=
  EndPhase.allows_settle.1 (h.allows aim)

/-- Nobody settles the channel twice, or uses the receiver up twice. -/
theorem extends_note (h : Conveyed c r m) (aim : (m.thread t).aim = some a) (answer : a.Answer) :
    r.Extends (r.note c t a answer) := by
  cases a with
  | hasReceiver c' =>
    simp only [ChannelRecord.note]
    split
    · exact ⟨fun _ => rfl, fun _ => id, fun _ => id⟩
    · exact ⟨id, fun _ => id, fun _ => id⟩
  | settle c' value =>
    simp only [ChannelRecord.note]
    split
    · rename_i here
      subst here
      have unsettled := h.tells.unsettled ((h.phase_of_settle aim).imp And.left And.left)
      refine ⟨fun _ => rfl, fun _ settled => ?_, fun _ => id⟩
      cases unsettled.symm.trans settled
    · exact ⟨id, fun _ => id, fun _ => id⟩
  | receive c' =>
    simp only [ChannelRecord.note]
    split
    · rename_i here
      subst here
      refine ⟨id, fun _ => id, fun _ taken => ?_⟩
      cases (h.tells.untaken (h.phase_of_receive aim)).symm.trans taken
    · exact ⟨id, fun _ => id, fun _ => id⟩
  | dropReceiver c' =>
    simp only [ChannelRecord.note]
    split
    · rename_i here
      subst here
      refine ⟨id, fun _ => id, fun _ taken => ?_⟩
      cases (h.tells.untaken (h.phase_of_dropReceiver aim)).symm.trans taken
    · exact ⟨id, fun _ => id, fun _ => id⟩
  | _ => exact ⟨id, fun _ => id, fun _ => id⟩

/-- What is due to a thread that rests is still due if it is as it was, or has been woken. -/
theorem rests_of_upholds (h : Conveyed c r m) {th : Thread} (upholds : (m.thread t).Upholds th)
    (rests : th.Rests) (aim : th.aim = some (.receive c)) :
    (r.settled = none → (m.channel c).waiter = some t) ∧
      (r.settled ≠ none → th.Stirs ∨ ∃ u, r.phase u = .waking t) :=
  (h.rests t (upholds.rests rests) (upholds.aim ▸ aim)).imp id fun due settled =>
    (due settled).imp_left fun stirs => upholds.stirs_of_rests stirs rests

/-- All threads are as they were, or have been woken. -/
theorem uphold (h : Conveyed c r m) (same : m.SameEnds c m')
    (threads : ∀ u, (m.thread u).Upholds (m'.thread u)) : Conveyed c r m' where
  running := same.stopped ▸ h.running
  there := same.size ▸ h.there
  keeps u := (threads u).program ▸ h.keeps u
  lasts u busy := (threads u).ended (h.lasts u ((threads u).aim ▸ busy))
  waking t u leaving := (threads t).awake (h.waking t u leaving)
  tells := same.tells h.tells
  rests u rests aim := by
    rw [same.channel]
    exact h.rests_of_upholds (threads u) rests aim

/-- Thread `t` changes, and gets to phase `p`. All others are as they were, or have been woken. -/
theorem change (h : Conveyed c r m) {p : EndPhase} (phase : r'.phase = Function.update r.phase t p)
    (running : m'.stopped = m.stopped) (size : m'.channels.size = m.channels.size)
    (tells : r'.Tells (m'.channel c) (c.index ∈ m'.loneSenders) (c.index ∈ m'.loneReceivers))
    (others : ∀ u ≠ t, (m.thread u).Upholds (m'.thread u))
    (keeps : (m'.thread t).program.KeepsEnds c (fun _ p => p = .outside) p)
    (lasts : (m'.thread t).aim ≠ none → (m'.thread t).status ≠ .ended)
    (waking : ∀ u, p = .waking u → (m'.thread t).status = .awake)
    (rests : ∀ u, (m'.thread u).Rests → (m'.thread u).aim = some (.receive c) →
      (r'.settled = none → (m'.channel c).waiter = some u) ∧
        (r'.settled ≠ none → (m'.thread u).Stirs ∨ ∃ v, r'.phase v = .waking u)) : Conveyed c r' m' where
  running := running.trans h.running
  there := size ▸ h.there
  keeps u := by
    rw [phase]
    by_cases here : u = t
    · rwa [here, Function.update_self]
    · rw [Function.update_of_ne here, (others u here).program]
      exact h.keeps u
  lasts u busy := by
    by_cases here : u = t
    · subst here
      exact lasts busy
    · exact (others u here).ended (h.lasts u ((others u here).aim ▸ busy))
  waking u v leaving := by
    rw [phase] at leaving
    by_cases here : u = t
    · rw [here, Function.update_self] at leaving
      rw [here]
      exact waking v leaving
    · rw [Function.update_of_ne here] at leaving
      exact (others u here).awake (h.waking u v leaving)
  tells := tells
  rests := rests

/-- Thread `t` ends. -/
theorem finish (h : Conveyed c r m) (inside : t < m.threads.size) (out : r.phase t = .outside) :
    Conveyed c r (m.finish t) := by
  have ended := Machine.thread_finish inside
  refine h.change (t := t) (p := .outside) ?_ rfl rfl h.tells (fun u ne => ?_) ?_ ?_ nofun fun u rests aim => ?_
  · rw [← out, Function.update_eq_self]
  · rw [Machine.thread_finish_of_ne ne]
    exact .refl _
  · rw [ended]
    rfl
  · rw [ended]
    exact absurd rfl
  · by_cases here : u = t
    · rw [here, ended] at rests
      exact absurd rfl rests.ne_ended
    · rw [Machine.thread_finish_of_ne here] at *
      exact h.rests u rests aim

/-- A thread that keeps to the ends makes no thread. -/
theorem makesNone (h : Conveyed c r m) (aim : (m.thread t).aim = some a) (name : String)
    (priority : UInt8) (start : NewProcess) : a ≠ .spawn name priority start := by
  rintro rfl
  exact EndPhase.not_allows_spawn (h.allows aim)

/-- A thread that keeps to the ends gets answers. -/
theorem goesOn (h : Conveyed c r m) (aim : (m.thread t).aim = some a) : a.isAnswered = true :=
  EndPhase.isAnswered_of_allows (h.allows aim)

variable (env) in
/-- What has to be shown when thread `t` has got an answer. -/
theorem answered (h : Conveyed c r m) (awake : (m.thread t).status = .awake)
    (does : (m.thread t).program = Program.ask a next) {answer : a.Answer} {ready : List Tid}
    (attempted : m.attempt env t a = .done answer m' ready) (running : m'.stopped = m.stopped)
    (size : m'.channels.size = m.channels.size)
    (phase : r'.phase = Function.update r.phase t ((r.phase t).after c a answer))
    (tells : r'.Tells (m'.channel c) (c.index ∈ m'.loneSenders) (c.index ∈ m'.loneReceivers))
    (rests : ∀ u ≠ t, (m.thread u).Upholds (m'.thread u) → (m'.thread u).Rests →
      (m'.thread u).aim = some (.receive c) →
      (r'.settled = none → (m'.channel c).waiter = some u) ∧
        (r'.settled ≠ none → (m'.thread u).Stirs ∨ ∃ v, r'.phase v = .waking u)) :
    Conveyed c r' (Machine.settleAttempt t next (.done answer m' ready)).1 := by
  have aim := Sound.aim_eq does
  have noSpawn := h.makesNone aim
  have others (u : Tid) (ne : u ≠ t) : (m.thread u).Upholds (m'.thread u) := by
    have upholds := @Machine.upholds_attempt env m t u a noSpawn ne
    rwa [attempted] at upholds
  have still : (m'.thread t).status = .awake := by
    have still := @Machine.awake_attempt env m t a noSpawn (h.goesOn aim) awake
    rwa [attempted] at still
  have inside := m'.lt_size_of_status (t := t) (by simp [still])
  have self : (m'.setThread t { m'.thread t with program := next answer }).thread t =
      { m'.thread t with program := next answer } := by
    rw [Machine.thread_setThread inside, Function.update_self]
  have other (u : Tid) (ne : u ≠ t) :
      (m'.setThread t { m'.thread t with program := next answer }).thread u = m'.thread u :=
    Machine.thread_setThread_of_ne ne _
  rw [Machine.settleAttempt]
  refine h.change phase running size tells (fun u ne => ?_) ?_ (fun _ => ?_) (fun _ _ => ?_)
    fun u resting receives => ?_
  · rw [other u ne]
    exact others u ne
  · rw [self]
    have keeps := h.keeps t
    rw [does] at keeps
    exact keeps.2.2 answer
  · rw [self, still]
    simp
  · rw [self, still]
  · by_cases here : u = t
    · rw [here, self] at resting
      exact absurd still resting.ne_awake
    · rw [other u here] at resting receives ⊢
      exact rests u here (others u here) resting receives

/-- What is due to a thread that rests is still due after an action of another that neither settles the
    channel nor wakes anybody. -/
theorem rests_same (h : Conveyed c r m) {p : EndPhase} (phase : r'.phase = Function.update r.phase t p)
    (settled : r'.settled = r.settled) {x : Channel} (waiter : x.waiter = (m.channel c).waiter)
    (idle : ∀ u, r.phase t ≠ .waking u) (upholds : (m.thread u).Upholds (m'.thread u))
    (rests : (m'.thread u).Rests) (aim : (m'.thread u).aim = some (.receive c)) :
    (r'.settled = none → x.waiter = some u) ∧
      (r'.settled ≠ none → (m'.thread u).Stirs ∨ ∃ v, r'.phase v = .waking u) := by
  rw [settled, waiter, phase]
  refine (h.rests_of_upholds upholds rests aim).imp id fun due settled => (due settled).imp_right ?_
  rintro ⟨v, waking⟩
  refine ⟨v, ?_⟩
  rwa [Function.update_of_ne fun same : v = t => idle u (same ▸ waking)]

/-- What has to be shown when thread `t` has to wait. -/
theorem parked (h : Conveyed c r m) (awake : (m.thread t).status = .awake)
    (threads : m'.thread = m.thread) (running : m'.stopped = m.stopped)
    (size : m'.channels.size = m.channels.size) (idle : ∀ u, r.phase t ≠ .waking u)
    (tells : r.Tells (m'.channel c) (c.index ∈ m'.loneSenders) (c.index ∈ m'.loneReceivers))
    (named : (m.thread t).aim = some (.receive c) →
      r.settled = none ∧ (m'.channel c).waiter = some t)
    (others : ∀ u ≠ t, (m.thread u).Rests → (m.thread u).aim = some (.receive c) →
      (r.settled = none → (m'.channel c).waiter = some u) ∧
        (r.settled ≠ none → (m.thread u).Stirs ∨ ∃ v, r.phase v = .waking u)) :
    Conveyed c r (m'.setThread t { m'.thread t with status := .parking }) := by
  have inside : t < m'.threads.size := m'.lt_size_of_status (by simp [threads, awake])
  have self : (m'.setThread t { m'.thread t with status := .parking }).thread t =
      { m.thread t with status := .parking } := by
    rw [Machine.thread_setThread inside, Function.update_self, threads]
  have other (u : Tid) (ne : u ≠ t) :
      (m'.setThread t { m'.thread t with status := .parking }).thread u = m.thread u := by
    rw [Machine.thread_setThread_of_ne ne, threads]
  refine h.change (Function.update_eq_self t r.phase).symm running size tells (fun u ne => ?_) ?_ (fun _ => ?_)
    (fun u leaving => absurd leaving (idle u)) fun u resting receives => ?_
  · rw [other u ne]
    exact .refl _
  · rw [self]
    exact h.keeps t
  · rw [self]
    simp
  · by_cases here : u = t
    · rw [here, self] at receives
      obtain ⟨unsettled, waiter⟩ := named receives
      exact ⟨fun _ => here ▸ waiter, fun settled => absurd unsettled settled⟩
    · rw [other u here] at resting receives ⊢
      exact others u here resting receives

/-- Thread `t` does something that does not concern the ends. -/
theorem attempt_aside (h : Conveyed c r m) (awake : (m.thread t).status = .awake)
    (does : (m.thread t).program = Program.ask a next) (aside : a.IsAside c)
    (out : r.phase t = .outside) :
    Conveyed c r (Machine.settleAttempt t next (m.attempt env t a)).1 := by
  have agrees : m.SameEnds c (m.attempt env t a).machine := .attempt aside
  have aim := Sound.aim_eq does
  have same (answer : a.Answer) : r.phase = Function.update r.phase t ((r.phase t).after c a answer) := by
    rw [out, EndPhase.after_of_isAside aside, ← out, Function.update_eq_self]
  cases attempted : m.attempt env t a with
  | done answer m' ready =>
    replace agrees : m.SameEnds c m' := by rwa [attempted] at agrees
    refine h.answered env awake does attempted agrees.stopped agrees.size (same answer)
      (agrees.tells h.tells) ?_
    intro u _ upholds
    exact h.rests_same (same answer) rfl (by rw [agrees.channel]) (by simp [out]) upholds
  | wait m' =>
    have threads := Machine.thread_of_wait attempted
    replace agrees : m.SameEnds c m' := by rwa [attempted] at agrees
    refine h.parked awake threads agrees.stopped agrees.size (by simp [out]) (agrees.tells h.tells)
      (fun receives => ?_) fun u _ resting receives => ?_
    · obtain rfl := Option.some.inj (aim.symm.trans receives)
      exact absurd rfl aside
    · rw [agrees.channel]
      exact h.rests u resting receives
  | unanswered m' => exact absurd attempted (Machine.attempt_ne_unanswered (h.goesOn aim))

/-- Thread `t` takes the sender, if it lies there. -/
theorem attempt_claimSender (h : Conveyed c r m) (awake : (m.thread t).status = .awake)
    {next : Bool → ThreadProgram Unit} (does : (m.thread t).program = Program.ask (Action.claimSender c) next)
    (out : r.phase t = .outside) :
    Conveyed c (r.note c t (.claimSender c) (decide (c.index ∈ m.loneSenders)))
      (Machine.settleAttempt t next (m.attempt env t (.claimSender c))).1 := by
  have after (there : Bool) : (r.phase t).after c (.claimSender c) there =
      if there = true then .sender else .outside := by
    simp [out, EndPhase.after]
  refine h.answered env awake does rfl rfl rfl (r.note_phase _ _) ?_ fun u _ upholds =>
    h.rests_same (r.note_phase _ _) rfl rfl (by simp [out]) upholds
  simp only [ChannelRecord.note, after]
  by_cases there : c.index ∈ m.loneSenders
  · simp only [there, decide_true, if_true]
    exact h.tells.claimSender there (by simp)
  · simp only [there, decide_false, Bool.false_eq_true, if_false]
    have same : (c.index ∈ m.loneSenders.filter (· ≠ c.index)) = (c.index ∈ m.loneSenders) := by
      simp [there]
    rw [same]
    exact h.tells.aside (by simp) (by simp) (by simp)

/-- Thread `t` takes the receiver, if it lies there. -/
theorem attempt_claimReceiver (h : Conveyed c r m) (awake : (m.thread t).status = .awake)
    {next : Bool → ThreadProgram Unit}
    (does : (m.thread t).program = Program.ask (Action.claimReceiver c) next)
    (out : r.phase t = .outside) :
    Conveyed c (r.note c t (.claimReceiver c) (decide (c.index ∈ m.loneReceivers)))
      (Machine.settleAttempt t next (m.attempt env t (.claimReceiver c))).1 := by
  have after (there : Bool) : (r.phase t).after c (.claimReceiver c) there =
      if there = true then .receiver else .outside := by
    simp [out, EndPhase.after]
  refine h.answered env awake does rfl rfl rfl (r.note_phase _ _) ?_ fun u _ upholds =>
    h.rests_same (r.note_phase _ _) rfl rfl (by simp [out]) upholds
  simp only [ChannelRecord.note, after]
  by_cases there : c.index ∈ m.loneReceivers
  · simp only [there, decide_true, if_true]
    exact h.tells.claimReceiver there (by simp)
  · simp only [there, decide_false, Bool.false_eq_true, if_false]
    have same : (c.index ∈ m.loneReceivers.filter (· ≠ c.index)) = (c.index ∈ m.loneReceivers) := by
      simp [there]
    rw [same]
    exact h.tells.aside (by simp) (by simp) (by simp)

/-- Thread `t`, which has the sender, asks in a call to send whether there is a receiver. -/
theorem attempt_hasReceiver (h : Conveyed c r m) (awake : (m.thread t).status = .awake)
    {next : Bool → ThreadProgram Unit}
    (does : (m.thread t).program = Program.ask (Action.hasReceiver c) next)
    (mine : r.phase t = .sender) :
    Conveyed c (r.note c t (.hasReceiver c) (m.channel c).receiver)
      (Machine.settleAttempt t next (m.attempt env t (.hasReceiver c))).1 := by
  have note : r.note c t (.hasReceiver c) (m.channel c).receiver =
      { r with
        phase := Function.update r.phase t (if (m.channel c).receiver then .committed else .outside)
        used := true } := by
    simp [ChannelRecord.note, mine, EndPhase.after]
  refine h.answered env awake does rfl rfl rfl (r.note_phase _ _) ?_ fun u _ upholds =>
    h.rests_same (r.note_phase _ _) (by rw [note]) rfl (by simp [mine]) upholds
  rw [note]
  exact h.tells.send mine (by split <;> simp) (by split <;> simp)

/-- Thread `t`, which drops the sender, or is about to send, settles the channel. -/
theorem attempt_settle (h : Conveyed c r m) (awake : (m.thread t).status = .awake)
    {value : Option Signal} {next : Option Tid → ThreadProgram Unit}
    (does : (m.thread t).program = Program.ask (Action.settle c value) next)
    (mine : r.phase t = .sender ∨ r.phase t = .committed) :
    Conveyed c (r.note c t (.settle c value) (m.channel c).waiter)
      (Machine.settleAttempt t next (m.attempt env t (.settle c value))).1 := by
  have after : (r.phase t).after c (.settle c value) (m.channel c).waiter =
      Option.elim (m.channel c).waiter .outside .waking := by
    rcases mine with phase | phase <;> rw [phase] <;> rfl
  have note : r.note c t (.settle c value) (m.channel c).waiter =
      { r with
        phase := Function.update r.phase t (Option.elim (m.channel c).waiter .outside .waking)
        used := true
        settled := some value } := by
    simp [ChannelRecord.note, after]
  have unsettled := h.tells.unsettled mine
  refine h.answered env awake does rfl rfl (m.size_setChannel ..) (r.note_phase _ _) ?_
    fun u _ upholds resting receives => ?_
  · rw [note, Machine.channel_setChannel_of_lt h.there]
    cases waiter : (m.channel c).waiter <;> exact h.tells.settle mine (by simp) (by simp) (by simp)
  · -- Who waits has left its name, and the thread is about to wake it.
    have waiter := (h.rests_of_upholds upholds resting receives).1 unsettled
    rw [note]
    refine ⟨by simp, fun _ => .inr ⟨t, ?_⟩⟩
    change Function.update r.phase t _ t = _
    rw [Function.update_self, waiter]
    rfl

/-- Thread `t`, which has settled the channel, wakes the thread that waits for that. -/
theorem attempt_unblock (h : Conveyed c r m) (awake : (m.thread t).status = .awake)
    {next : Unit → ThreadProgram Unit} (does : (m.thread t).program = Program.ask (Action.unblock u) next)
    (leaving : r.phase t = .waking u) :
    Conveyed c (r.note c t (.unblock u) ())
      (Machine.settleAttempt t next (m.attempt env t (.unblock u))).1 := by
  have note : r.note c t (.unblock u) () = { r with phase := Function.update r.phase t .outside } := by
    simp [ChannelRecord.note, leaving, EndPhase.after]
  have same := Machine.SameEnds.wake c m u
  have attempted : m.attempt env t (.unblock u) = .done () (m.wake u).1 (m.wake u).2 := rfl
  rw [attempted]
  refine h.answered env awake does attempted same.stopped same.size (r.note_phase _ _) ?_
    fun v other upholds resting receives => ?_
  · rw [note]
    exact same.tells (h.tells.aside (by simp) (by simp) (by simp))
  · rw [note, same.channel]
    refine (h.rests_of_upholds upholds resting receives).imp id fun due settled => ?_
    rcases due settled with stirs | ⟨w, waking⟩
    · exact .inl stirs
    by_cases here : w = t
    · -- It is the thread that is woken now.
      obtain rfl : u = v := EndPhase.waking.inj (leaving.symm.trans (here ▸ waking))
      have woken : (m.wake u).1.thread u = (m.thread u).woken := by
        rw [Machine.thread_wake, Function.update_self]
      rw [woken] at resting ⊢
      exact .inl (Thread.stirs_of_woken resting)
    · exact .inr ⟨w, (Function.update_of_ne here ..).trans waking⟩

/-- Thread `t`, which has the receiver, drops it. -/
theorem attempt_dropReceiver (h : Conveyed c r m) (awake : (m.thread t).status = .awake)
    {next : Unit → ThreadProgram Unit}
    (does : (m.thread t).program = Program.ask (Action.dropReceiver c) next)
    (mine : r.phase t = .receiver) :
    Conveyed c (r.note c t (.dropReceiver c) ())
      (Machine.settleAttempt t next (m.attempt env t (.dropReceiver c))).1 := by
  have note : r.note c t (.dropReceiver c) () =
      { r with phase := Function.update r.phase t .outside, taken := some none } := by
    simp [ChannelRecord.note, mine, EndPhase.after]
  refine h.answered env awake does rfl rfl (m.size_setChannel ..) (r.note_phase _ _) ?_
    fun u _ upholds => h.rests_same (r.note_phase _ _) (by rw [note]) ?_ (by simp [mine]) upholds
  · rw [note, Machine.channel_setChannel_of_lt h.there]
    exact h.tells.dropReceiver mine
  · rw [Machine.channel_setChannel_of_lt h.there]
    rfl

/-- Thread `t`, which has the receiver, receives, or leaves its name to be woken. -/
theorem attempt_receive (h : Conveyed c r m) (awake : (m.thread t).status = .awake)
    {next : Option Signal → ThreadProgram Unit}
    (does : (m.thread t).program = Program.ask (Action.receive c) next)
    (mine : r.phase t = .receiver) :
    Conveyed c ((m.answer? env t (.receive c)).elim r (r.note c t (.receive c)))
      (Machine.settleAttempt t next (m.attempt env t (.receive c))).1 := by
  cases settled : r.settled with
  | some value =>
    obtain ⟨gets, tells⟩ := h.tells.receive mine settled
    have attempted : m.attempt env t (.receive c) =
        .done value (m.setChannel c ((m.channel c).receive t).2) [] := by
      simp only [Machine.attempt]
      rw [show (m.channel c).receive t = (some value, ((m.channel c).receive t).2) from
        Prod.ext gets rfl]
    have answered : m.answer? env t (.receive c) = some value := by
      simp only [Machine.answer?, attempted]
    have note : r.note c t (.receive c) value =
        { r with phase := Function.update r.phase t .outside, taken := some (some value) } := by
      simp [ChannelRecord.note, mine, EndPhase.after]
    have waiter : ((m.channel c).receive t).2.waiter = (m.channel c).waiter := by
      unfold Oneshot.receive at gets ⊢
      split at gets <;> first | rfl | cases gets
    rw [answered, attempted, Option.elim_some]
    refine h.answered env awake does attempted rfl (m.size_setChannel ..) (r.note_phase _ _) ?_
      fun u _ upholds => h.rests_same (r.note_phase _ _) (by rw [note]) ?_ (by simp [mine]) upholds
    · rw [note, Machine.channel_setChannel_of_lt h.there]
      exact tells
    · rw [Machine.channel_setChannel_of_lt h.there]
      exact waiter
  | none =>
    have empty : (m.channel c).state = .empty := h.tells.state.trans (ChannelRecord.state_eq_empty.2 settled)
    have attempted : m.attempt env t (.receive c) =
        .wait (m.setChannel c { m.channel c with waiter := some t }) := by
      simp only [Machine.attempt, Oneshot.receive, empty]
    have answered : m.answer? env t (.receive c) = none := by
      simp only [Machine.answer?, attempted]
    rw [answered, attempted]
    have channel := Machine.channel_setChannel_of_lt h.there { m.channel c with waiter := some t }
    refine h.parked awake rfl rfl (m.size_setChannel c _) (by simp [mine]) ?_
      (fun _ => ⟨settled, by rw [channel]⟩) fun u here _ receives => ?_
    · rw [channel]
      exact { h.tells with }
    · -- Nobody else has the receiver.
      exact absurd ((h.tells.receiver.once t mine).2 u (h.phase_of_receive receives)) here

/-- Whatever thread `t` tries, if it keeps to the ends. -/
theorem attempt (h : Conveyed c r m) (awake : (m.thread t).status = .awake)
    (does : (m.thread t).program = Program.ask a next) :
    Conveyed c ((m.answer? env t a).elim r (r.note c t a))
      (Machine.settleAttempt t next (m.attempt env t a)).1 := by
  have allows := h.allows (Sound.aim_eq does)
  cases phase : r.phase t with
  | outside =>
    rw [phase] at allows
    rcases allows with aside | rfl | rfl
    · have same : (m.answer? env t a).elim r (r.note c t a) = r := by
        cases m.answer? env t a with
        | none => rfl
        | some answer => exact ChannelRecord.note_of_isAside aside answer phase
      rw [same]
      exact h.attempt_aside awake does aside phase
    · exact h.attempt_claimSender awake does phase
    · exact h.attempt_claimReceiver awake does phase
  | sender =>
    rw [phase] at allows
    rcases allows with rfl | rfl
    · exact h.attempt_hasReceiver awake does phase
    · exact h.attempt_settle awake does (.inl phase)
  | committed =>
    rw [phase] at allows
    obtain ⟨value, rfl⟩ := allows
    exact h.attempt_settle awake does (.inr phase)
  | waking u =>
    rw [phase] at allows
    obtain rfl : a = .unblock u := allows
    exact h.attempt_unblock awake does phase
  | receiver =>
    rw [phase] at allows
    rcases allows with rfl | rfl
    · exact h.attempt_receive awake does phase
    · exact h.attempt_dropReceiver awake does phase

/-- Whoever makes a step, or is woken. -/
theorem turn (h : Conveyed c r m) (turn : Turn) :
    Conveyed c (r.afterTurn env c m turn) (m.turn env turn) := by
  have running : m.stopped.isSome = false := by rw [h.running]; rfl
  simp only [Machine.turn, running, Bool.false_eq_true, if_false]
  cases turn with
  | wake t => exact h.uphold (.wake c m t) (m.upholds_wake t)
  | step t =>
    have idle (asleep : (m.thread t).status ≠ .awake) : r.afterTurn env c m (.step t) = r := by
      simp only [ChannelRecord.afterTurn, Machine.told, asleep, and_false, if_false, Option.elim_none]
      split <;> rfl
    by_cases status : (m.thread t).status = .awake
    swap
    · obtain ⟨th, dozes, stepped⟩ := Machine.step_of_ne_awake env status
      rw [idle status]
      simp only [stepped]
      exact h.uphold ((Machine.SameEnds.refl c m).setThread ..) (Machine.upholds_dozes dozes)
    cases does : (m.thread t).program with
    | ask a next =>
      have told : r.afterTurn env c m (.step t) = (m.answer? env t a).elim r (r.note c t a) := by
        simp [ChannelRecord.afterTurn, does, Machine.told, h.running, status]
      rw [told]
      simp only [Machine.step, status, does]
      exact h.attempt status does
    | pure result =>
      have inside := m.lt_size_of_status (t := t) (by simp [status])
      have out := h.keeps t
      rw [does] at out
      simp only [ChannelRecord.afterTurn, Machine.step, status, does]
      exact h.finish inside out

/-! ## Other threads, and the thread itself -/

theorem going (h : Conveyed c r m) : m.Going where
  running := h.running
  makesNone _ name priority start aim := h.makesNone aim name priority start rfl

/-- A thread that gets an answer goes on with it, and stays awake. -/
theorem thread_of_answer (h : Conveyed c r m) (awake : (m.thread t).status = .awake)
    (does : (m.thread t).program = Program.ask a next) {answer : a.Answer}
    (answered : m.answer? env t a = some answer) :
    ((m.turn env (.step t)).thread t).program = next answer ∧
      ((m.turn env (.step t)).thread t).status = .awake := by
  have aim := Sound.aim_eq does
  have still := @Machine.awake_attempt env m t a (h.makesNone aim) (h.goesOn aim) awake
  rw [h.going.turn_step, Machine.step_of_ask awake does]
  unfold Machine.answer? at answered
  split at answered
  · rename_i answer' m' ready attempted
    obtain rfl := Option.some.inj answered
    rw [attempted] at still ⊢
    have still : (m'.thread t).status = .awake := still
    have inside := m'.lt_size_of_status (t := t) (by simp [still])
    rw [Machine.settleAttempt, Machine.thread_setThread inside, Function.update_self]
    exact ⟨rfl, still⟩
  · cases answered
  · cases answered

/-- A thread goes on with the answer that it is told. -/
theorem program_turn (h : Conveyed c r m) (turn : Turn) :
    ((m.turn env turn).thread t).program = (m.thread t).program.advance (m.told env turn t) := by
  have stays (same : ((m.turn env turn).thread t).program = (m.thread t).program)
      (silent : ∀ a next, (m.thread t).program = Program.ask a next → m.told env turn t a = none) :
      ((m.turn env turn).thread t).program = (m.thread t).program.advance (m.told env turn t) := by
    rw [same]
    cases does : (m.thread t).program with
    | pure result => rfl
    | ask a next => rw [Program.advance, silent a next does, Option.elim_none]
  by_cases own : turn = .step t
  swap
  · refine stays (h.going.upholds_turn own).program fun a next _ => ?_
    cases turn with
    | wake u => rfl
    | step u =>
      refine if_neg ?_
      rintro ⟨-, same, -⟩
      exact own (same ▸ rfl)
  subst own
  by_cases awake : (m.thread t).status = .awake
  swap
  · refine stays ?_ fun a next _ => if_neg fun goes => awake goes.2.2
    rw [h.going.turn_step]
    by_cases inside : t < m.threads.size
    · exact (Machine.resembles_step_of_ne_awake inside awake).program
    · have same : (m.step env t).1 = m := by
        have absent : m.thread t = .absent := Machine.thread_of_size_le (Nat.not_lt.1 inside)
        simp only [Machine.step, absent, Thread.absent]
      rw [same]
  cases does : (m.thread t).program with
  | pure result =>
    have inside := m.lt_size_of_status (t := t) (by simp [awake])
    rw [h.going.turn_step]
    simp only [Machine.step, awake, does, Machine.thread_finish inside, Program.advance]
  | ask a next =>
    have told : m.told env (.step t) t a = m.answer? env t a := by
      simp [Machine.told, h.running, awake]
    rw [Program.advance, told]
    cases answered : m.answer? env t a with
    | some answer => exact (h.thread_of_answer awake does answered).1
    | none =>
      have aim := Sound.aim_eq does
      rw [h.going.turn_step, Machine.step_of_ask awake does, Option.elim_none, ← does]
      cases attempted : m.attempt env t a with
      | done answer m' ready => simp [Machine.answer?, attempted] at answered
      | unanswered m' => exact absurd attempted (Machine.attempt_ne_unanswered (h.goesOn aim))
      | wait m' =>
        have threads := Machine.thread_of_wait attempted
        have inside : t < m'.threads.size := m'.lt_size_of_status (by rw [threads, awake]; simp)
        rw [Machine.settleAttempt, Machine.thread_setThread inside, Function.update_self, threads]

/-- Who is to wake a thread is about to do so. -/
theorem aim_of_waking (h : Conveyed c r m) (waking : r.phase u = .waking t) :
    (m.thread u).status = .awake ∧ (m.thread u).aim = some (.unblock t) := by
  refine ⟨h.waking u t waking, ?_⟩
  have keeps := h.keeps u
  rw [waking] at keeps
  cases does : (m.thread u).program with
  | pure result =>
    rw [does] at keeps
    exact nomatch (show EndPhase.waking t = .outside from keeps)
  | ask a next =>
    rw [does] at keeps
    rw [Sound.aim_eq does, show a = .unblock t from keeps.1]

end Conveyed

end Userland
