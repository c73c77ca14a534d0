import Userland.Proofs.ChannelHistories

/-!
# Runs of scripts for channels

Each end of a channel is used at most once; what is received is what was sent, and a receiver learns
that there is nothing only if the sender was dropped. Whoever sends learns whether there was a receiver;
if there was, what it has sent is received, or dropped with the receiver, or is still there. Nobody
sleeps for ever on a channel that has been settled. All this is so in whatever order threads make steps
(`SyncPlan.carries_once`).
-/

namespace Userland

open ThreadProgram

namespace SyncPlan

variable {p : SyncPlan} {turns : ℕ → Turn} {c : ChannelId} {i j : ℕ} {t u : Tid} {a : Action}

/-! ## Calls to send -/

/-- Who is about to send has begun a call to send, which it goes on with. -/
theorem calls_of_committed (there : c.index < p.channels)
    (committed : (p.channelRecordAt turns c j).phase t = .committed) :
    ∃ i < j, ∃ value, p.Calls turns i t (send c value) ∧ ∃ next : Unit → ThreadProgram Unit,
      p.programAt turns j t = settle c (some value) >>= next := by
  induction j with
  | zero => cases committed
  | succ j ih =>
    have conveyed := p.conveyed turns there j
    by_cases idle : ∀ a answer, ¬p.Does turns j t a answer
    · rw [phase_of_idle idle] at committed
      obtain ⟨i, lt, value, calls, next, here⟩ := ih committed
      exact ⟨i, Nat.lt_succ_of_lt lt, value, calls, next, (programAt_of_idle there idle).trans here⟩
    · push Not at idle
      obtain ⟨a, answer, does⟩ := idle
      rw [phase_of_does does] at committed
      obtain ⟨next, asks⟩ := does.1
      have keeps := conveyed.keeps t
      rw [show ((p.machineAt turns j).thread t).program = Program.ask a next from asks] at keeps
      obtain ⟨allows, uses, -⟩ := keeps
      obtain ⟨sender, rfl⟩ := EndPhase.asks_of_after_committed allows committed
      rw [sender] at committed
      have alive : answer = true := by
        change (if answer then EndPhase.committed else .outside) = .committed at committed
        cases answer
        · cases committed
        · rfl
      rcases uses sender with ⟨value, rest, same⟩ | ⟨rest, same⟩
      · refine ⟨j, Nat.lt_succ_self j, value,
          ⟨⟨does.goes.1, does.goes.2.1⟩, rest, asks.trans same⟩, fun _ => rest true, ?_⟩
        have sends : p.programAt turns j t = Program.ask (Action.hasReceiver c) fun alive =>
            (if alive then settle c (some value) >>= fun _ => pure true else pure false) >>= rest :=
          (asks.trans same).trans rfl
        rw [programAt_of_does there sends does, alive, if_pos rfl, bind_assoc]
        simp only [pure_bind]
      · cases same

/-- The channel is settled by dropping the sender, or in a call to send. -/
theorem calls_of_settle (there : c.index < p.channels) {value : Option Signal} {waiter : Option Tid}
    (does : p.Does turns j t (.settle c value) waiter) :
    (value = none ∧ p.Calls turns j t (dropSender c)) ∨
      ∃ signal, value = some signal ∧ ∃ i < j, p.Calls turns i t (send c signal) := by
  have conveyed := p.conveyed turns there j
  obtain ⟨next, asks⟩ := does.1
  rcases conveyed.phase_of_settle does.aim with ⟨sender, rfl⟩ | ⟨committed, signal, rfl⟩
  · have keeps := conveyed.keeps t
    rw [show ((p.machineAt turns j).thread t).program = _ from asks] at keeps
    refine .inl ⟨rfl, ⟨does.goes.1, does.goes.2.1⟩, ?_⟩
    rcases keeps.2.1 sender with ⟨value, rest, same⟩ | ⟨rest, same⟩
    · cases same
    · exact ⟨rest, asks.trans same⟩
  · obtain ⟨i, lt, value, calls, next', here⟩ := calls_of_committed there committed
    have same : Action.settle c (some signal) = .settle c (some value) :=
      (Program.ask.inj (asks.symm.trans here)).1
    cases same
    exact .inr ⟨signal, rfl, i, lt, calls⟩

theorem leftAt_send (there : c.index < p.channels) {value : Signal}
    (calls : p.Calls turns i t (send c value)) : p.leftAt turns t (send c value) i 1 =
      if ((p.machineAt turns i).channel c).receiver then settle c (some value) >>= fun _ => pure true
      else pure false := by
  change ((p.toldAt turns i t (.hasReceiver c)).elim _ fun alive => _) = _
  rw [(calls.asks there).2]
  rfl

/-- Whoever sends learns whether there was a receiver. -/
theorem Returns.eq_receiver (there : c.index < p.channels) {value : Signal} {sent : Bool}
    (returns : p.Returns turns t (send c value) i sent j) :
    sent = ((p.machineAt turns i).channel c).receiver := by
  obtain ⟨calls, d, rfl, over'⟩ := returns
  have first := leftAt_send there calls
  have le : 1 ≤ d := Nat.one_le_iff_ne_zero.2 fun zero => by
    subst zero
    cases over'
  cases alive : ((p.machineAt turns i).channel c).receiver with
  | false =>
    rw [alive] at first
    exact Program.pure.inj (over'.symm.trans (leftAt_of_pure le first))
  | true =>
    rw [alive, if_pos rfl] at first
    have only : (p.leftAt turns t (send c value) i 1).Only (fun _ => True) (· = true) := by
      rw [first]
      refine Program.Only.bind (R := fun _ => True) ?_ fun _ _ => rfl
      refine ⟨trivial, fun waiter => ?_⟩
      cases waiter
      · trivial
      · exact ⟨trivial, fun _ => trivial⟩
    have ends := only_leftAt le only
    rwa [over'] at ends

/-- Whoever has sent has settled the channel. -/
theorem Returns.does_settle (there : c.index < p.channels) {value : Signal}
    (returns : p.Returns turns t (send c value) i true j) :
    ∃ k < j, ∃ waiter, p.Does turns k t (.settle c (some value)) waiter := by
  have alive := returns.eq_receiver there
  obtain ⟨calls, d, rfl, over'⟩ := returns
  have first := leftAt_send there calls
  rw [← alive, if_pos rfl] at first
  obtain ⟨d, rfl⟩ : ∃ e, d = 1 + e := Nat.exists_eq_add_of_le <| Nat.one_le_iff_ne_zero.2 fun zero => by
    subst zero
    cases over'
  obtain ⟨next, here⟩ := calls.2
  obtain ⟨f, lt, waiter, does⟩ := does_of_over there here first over'
  exact ⟨i + (1 + f), by omega, waiter, does⟩

/-! ## Fair runs -/

/-- A thread that is awake and never has to wait for an answer goes on. -/
theorem goesOn_of_fair {α : Type} (there : c.index < p.channels) (fair : Fair turns)
    {part : ThreadProgram α} {next : α → ThreadProgram Unit} {d : ℕ}
    {first : a.Answer → ThreadProgram α} (here : p.programAt turns i t = part >>= next)
    (left : p.leftAt turns t part i d = Program.ask a first)
    (awake : ((p.machineAt turns (i + d)).thread t).status = .awake)
    (ready : ∀ m : Machine, ∃ answer, m.answer? environment t a = some answer) :
    ∃ e ≥ d, ∃ answer, p.leftAt turns t part i (e + 1) = first answer ∧
      ((p.machineAt turns (i + (e + 1))).thread t).status = .awake := by
  obtain ⟨k, -, ⟨e, rfl, le, left, awake⟩, steps⟩ := fair.leadsTo
    (fun k => ∃ e, k = i + e ∧ d ≤ e ∧ p.leftAt turns t part i e = Program.ask a first ∧
      ((p.machineAt turns k).thread t).status = .awake) ⟨d, rfl, Nat.le_refl d, left, awake⟩ t
    fun k _ waits other => by
      obtain ⟨e, rfl, le, left, awake⟩ := waits
      have silent : p.toldAt turns (i + e) t a = none := by
        cases what : turns (i + e) with
        | wake u => simp only [toldAt, what, Machine.told]
        | step u =>
          simp only [toldAt, what, Machine.told]
          refine if_neg ?_
          rintro ⟨-, same, -⟩
          exact other (what.trans (same ▸ rfl))
      refine ⟨e + 1, rfl, Nat.le_succ_of_le le, ?_,
        ((p.conveyed turns there (i + e)).going.upholds_turn other).awake awake⟩
      rw [leftAt, left, Program.advance, silent, Option.elim_none]
  obtain ⟨answer, answered⟩ := ready (p.machineAt turns (i + e))
  have told := (toldAt_of_goes there steps awake a).trans answered
  have ongoing : ∀ f < e, ∀ x, p.leftAt turns t part i f ≠ Program.pure x := by
    intro f lt x gone
    cases left.symm.trans (leftAt_of_pure (Nat.le_of_lt lt) gone)
  have asks : p.programAt turns (i + e) t = Program.ask a first >>= next :=
    left ▸ programAt_add there here ongoing
  refine ⟨e, le, answer, ?_, ?_⟩
  · rw [leftAt, left, Program.advance, told, Option.elim_some]
  · have after := (p.conveyed turns there (i + e)).thread_of_answer awake asks answered
    rw [← steps] at after
    exact after.2

/-- If each thread makes steps again and again, who sends is told whether there was a receiver. -/
theorem returns_of_fair (there : c.index < p.channels) (fair : Fair turns) {value : Signal}
    (calls : p.Calls turns i t (send c value)) :
    ∃ sent j, p.Returns turns t (send c value) i sent j := by
  have first := leftAt_send there calls
  obtain ⟨next, here⟩ := calls.2
  cases alive : ((p.machineAt turns i).channel c).receiver with
  | false =>
    rw [alive] at first
    exact ⟨false, i + 1, calls, 1, rfl, first⟩
  | true =>
    rw [alive, if_pos rfl] at first
    have does := calls.asks there
    obtain ⟨steps, awake, answered⟩ := does.goes
    have up : ((p.machineAt turns (i + 1)).thread t).status = .awake := by
      obtain ⟨asked, asks⟩ := does.1
      have after := (p.conveyed turns there i).thread_of_answer awake asks answered
      rw [← steps] at after
      exact after.2
    obtain ⟨e, -, waiter, left, up⟩ := goesOn_of_fair there fair here first up fun _ => ⟨_, rfl⟩
    cases waiter with
    | none => exact ⟨true, i + (e + 1), calls, e + 1, rfl, left⟩
    | some u =>
      obtain ⟨f, -, _, left, -⟩ := goesOn_of_fair (a := .unblock u) there fair here left up
        fun _ => ⟨(), rfl⟩
      exact ⟨true, i + (f + 1), calls, f + 1, rfl, left⟩

/-- If each thread makes steps again and again, who wants to receive does so once the channel is
  settled. -/
theorem receives_of_fair (there : c.index < p.channels) (fair : Fair turns)
    (wants : ((p.machineAt turns i).thread t).aim = some (.receive c))
    (settled : p.SettledBefore turns c i) :
    ∃ j ≥ i, ∃ value, p.Does turns j t (.receive c) value := by
  by_contra never
  have never (j : ℕ) (le : i ≤ j) (value : Option Signal) :
      ¬p.Does turns j t (.receive c) value := fun does => never ⟨j, le, value, does⟩
  have wants (j : ℕ) (le : i ≤ j) : ((p.machineAt turns j).thread t).aim = some (.receive c) := by
    induction le with
    | refl => exact wants
    | @step j le ih =>
      have idle (a : Action) (answer : a.Answer) : ¬p.Does turns j t a answer := fun does => by
        obtain rfl := Option.some.inj (does.aim.symm.trans ih)
        exact never j le answer does
      have same := programAt_of_idle there idle
      rw [Thread.aim] at ih ⊢
      rwa [show ((p.machineAt turns (j + 1)).thread t).program =
        ((p.machineAt turns j).thread t).program from same]
  have isSettled (j : ℕ) (le : i ≤ j) : (p.channelRecordAt turns c j).settled ≠ none :=
    (settledBefore_iff there).1 <| settled.imp fun _ before =>
      ⟨Nat.lt_of_lt_of_le before.1 le, before.2⟩
  have lasts (j : ℕ) (le : j ≥ i) : ((p.machineAt turns j).thread t).status ≠ .ended :=
    (p.conveyed turns there j).lasts t (by rw [wants j le]; simp)
  -- The thread can go on, or somebody is about to wake it.
  have conveyed := p.conveyed turns there i
  have due : ((p.machineAt turns i).thread t).Runnable ∨
      ∃ u, ((p.machineAt turns i).thread u).status = .awake ∧
        ((p.machineAt turns i).thread u).aim = some (.unblock t) := by
    rcases ((p.machineAt turns i).thread t).runnable_or_rests (lasts i (Nat.le_refl i)) with
      runnable | rests
    · exact .inl runnable
    · rcases (conveyed.rests t rests (wants i (Nat.le_refl i))).2 (isSettled i (Nat.le_refl i)) with
        stirs | ⟨u, waking⟩
      · exact .inl (.inr stirs)
      · exact .inr ⟨u, conveyed.aim_of_waking waking⟩
  obtain ⟨j, le, awake, here⟩ := awakes_of_fair (fun j => (p.conveyed turns there j).going) fair due
    (by rw [wants i (Nat.le_refl i)]; simp) lasts
  -- When it makes a step it receives.
  have conveyed := p.conveyed turns there j
  obtain ⟨value, isSettled⟩ := Option.ne_none_iff_exists'.1 (isSettled j le)
  have gets := (conveyed.tells.receive (conveyed.phase_of_receive (wants j le)) isSettled).1
  have answered : (p.machineAt turns j).answer? environment t (.receive c) = some value := by
    simp only [Machine.answer?, Machine.attempt]
    rw [show ((p.machineAt turns j).channel c).receive t =
      (some value, (((p.machineAt turns j).channel c).receive t).2) from Prod.ext gets rfl]
  have aim := wants j le
  cases does : ((p.machineAt turns j).thread t).program with
  | pure result => simp [Thread.aim, does] at aim
  | ask b next =>
    obtain rfl : b = .receive c := by simpa [Thread.aim, does] using aim
    exact never j le value ⟨⟨next, does⟩, (toldAt_of_goes there here awake _).trans answered⟩

/-! ## Once -/

variable (p) (turns) (c)

/-- A channel carries one value, from one sender to one receiver. -/
structure CarriesOnce : Prop where
  /-- The sender is used up at most once. -/
  sender : ∀ i j t u, p.SpendsSender turns c i t → p.SpendsSender turns c j u → i = j ∧ t = u
  /-- The receiver is used up at most once. -/
  receiver : ∀ i j t u, p.SpendsReceiver turns c i t → p.SpendsReceiver turns c j u → i = j ∧ t = u
  /-- What is received has been sent. -/
  received : ∀ j t value, p.Does turns j t (.receive c) (some value) →
    ∃ i < j, ∃ u, p.Calls turns i u (send c value)
  /-- A receiver learns that there is nothing only if the sender was dropped, and nothing is ever sent.
    -/
  closed : ∀ j t, p.Does turns j t (.receive c) none →
    (∃ i < j, ∃ u, p.Calls turns i u (dropSender c)) ∧ ∀ i u value, ¬p.Calls turns i u (send c value)
  /-- A value comes back exactly if the receiver was gone. -/
  returned : ∀ i j t value sent, p.Returns turns t (send c value) i sent j →
    (sent = false ↔ ∃ k < i, ∃ u, p.SpendsReceiver turns c k u)
  /-- What has been sent has been received since, or dropped with the receiver, or is still there with
    it. -/
  sent : ∀ i j t value, p.Returns turns t (send c value) i true j → ∀ k ≥ j,
    (∃ l, i ≤ l ∧ l < k ∧ ∃ u, p.Does turns l u (.receive c) (some value)) ∨
    (∃ l, i ≤ l ∧ l < k ∧ ∃ u, p.Does turns l u (.dropReceiver c) ()) ∨
    ((p.machineAt turns k).channel c).state = .full value ∧
      ((p.machineAt turns k).channel c).receiver = true
  /-- The channel is settled when the sender is dropped, or in a call to send. -/
  settles : ∀ j t value waiter, p.Does turns j t (.settle c value) waiter →
    (value = none ∧ p.Calls turns j t (dropSender c)) ∨
      ∃ signal, value = some signal ∧ ∃ i < j, p.Calls turns i t (send c signal)
  /-- From then on, and not before, it is ready. -/
  ready : ∀ j, ((p.machineAt turns j).channel c).isReady = true ↔ p.SettledBefore turns c j
  /-- It is ready when a call to send that was not in vain returns. -/
  readySent : ∀ i j t value, p.Returns turns t (send c value) i true j →
    ((p.machineAt turns j).channel c).isReady = true
  /-- It is ready as soon as the sender is dropped. -/
  readyDropped : ∀ i t, p.Calls turns i t (dropSender c) →
    ((p.machineAt turns (i + 1)).channel c).isReady = true
  /-- Whoever asks is told so. -/
  tells : ∀ j t answer, p.Does turns j t (.isReady c) answer →
    answer = ((p.machineAt turns j).channel c).isReady
  /-- Whoever rests to receive when the channel is ready is about to go on, or to be woken. -/
  woken : ∀ j t, ((p.machineAt turns j).channel c).isReady = true →
    ((p.machineAt turns j).thread t).aim = some (.receive c) →
    ((p.machineAt turns j).thread t).Rests → ((p.machineAt turns j).thread t).Stirs ∨
      ∃ u, ((p.machineAt turns j).thread u).status = .awake ∧
        ((p.machineAt turns j).thread u).aim = some (.unblock t)
  /-- If each thread makes steps again and again, calls to send return. -/
  returns : Fair turns → ∀ i t value, p.Calls turns i t (send c value) →
    ∃ sent j, p.Returns turns t (send c value) i sent j
  /-- If each thread makes steps again and again, who wants to receive does so when the channel is
    ready. -/
  receives : Fair turns → ∀ i t, ((p.machineAt turns i).channel c).isReady = true →
    ((p.machineAt turns i).thread t).aim = some (.receive c) →
    ∃ j ≥ i, ∃ value, p.Does turns j t (.receive c) value

variable {p} {turns} {c}

/-- What is so at one time only, and makes one thread go, is so of one thread only. -/
theorem eq_of_once {holds : ℕ → Tid → Prop} (mark : ℕ → Prop)
    (steps : ∀ i t, holds i t → turns i = .step t) (fresh : ∀ i t, holds i t → ¬mark i ∧ mark (i + 1))
    (stays : ∀ i j, i ≤ j → mark i → mark j) (first : holds i t) (second : holds j u) :
    i = j ∧ t = u := by
  rcases Nat.lt_trichotomy i j with lt | rfl | lt
  · exact absurd (stays _ _ lt (fresh i t first).2) (fresh j u second).1
  · have same := (steps i t first).symm.trans (steps i u second)
    cases same
    exact ⟨rfl, rfl⟩
  · exact absurd (stays _ _ lt (fresh j u second).2) (fresh i t first).1

theorem spendsSender_once (there : c.index < p.channels) (first : p.SpendsSender turns c i t)
    (second : p.SpendsSender turns c j u) : i = j ∧ t = u :=
  eq_of_once (fun k => (p.channelRecordAt turns c k).used = true)
    (fun _ _ => SpendsSender.steps) (fun _ _ => used_of_spends there)
    (fun _ _ le => (record_le there le).used) first second

theorem spendsReceiver_once (there : c.index < p.channels) (first : p.SpendsReceiver turns c i t)
    (second : p.SpendsReceiver turns c j u) : i = j ∧ t = u :=
  eq_of_once (fun k => (p.channelRecordAt turns c k).taken ≠ none)
    (fun _ _ => SpendsReceiver.steps)
    (fun _ _ spends => (taken_of_spends there spends).imp_left (not_not.2 ·))
    (fun _ _ le taken => by
      obtain ⟨way, taken⟩ := Option.ne_none_iff_exists'.1 taken
      rw [(record_le there le).taken way taken]
      nofun) first second

theorem isReady_iff (there : c.index < p.channels) :
    ((p.machineAt turns j).channel c).isReady = true ↔ p.SettledBefore turns c j := by
  have state := (p.conveyed turns there j).tells.state
  have ready : ((p.machineAt turns j).channel c).isReady = true ↔
      ((p.machineAt turns j).channel c).state ≠ .empty := by
    unfold Oneshot.isReady
    split <;> simp_all
  rw [ready, state, ne_eq, ChannelRecord.state_eq_empty, settledBefore_iff there]

/-- What is received is what the channel was settled with before. -/
theorem settled_of_receive (there : c.index < p.channels) {value : Option Signal}
    (does : p.Does turns j t (.receive c) value) :
    ∃ k < j, ∃ u waiter, p.Does turns k u (.settle c value) waiter := by
  have taken : (p.channelRecordAt turns c (j + 1)).taken = some (some value) := by
    rw [record_of_does does]
    simp [ChannelRecord.note]
  have settled := (p.conveyed turns there (j + 1)).tells.received value taken
  rw [record_of_does does] at settled
  refine does_of_settled (p := p) (c := c) ?_
  simpa [ChannelRecord.note] using settled

/-- What has been sent has been received since, or dropped with the receiver, or is still there. -/
theorem Returns.delivered (there : c.index < p.channels) {value : Signal}
    (returns : p.Returns turns t (send c value) i true j) {k : ℕ} (le : j ≤ k) :
    (∃ l, i ≤ l ∧ l < k ∧ ∃ u, p.Does turns l u (.receive c) (some value)) ∨
    (∃ l, i ≤ l ∧ l < k ∧ ∃ u, p.Does turns l u (.dropReceiver c) ()) ∨
    ((p.machineAt turns k).channel c).state = .full value ∧
      ((p.machineAt turns k).channel c).receiver = true := by
  have tells := (p.conveyed turns there k).tells
  have settled : (p.channelRecordAt turns c k).settled = some (some value) := by
    obtain ⟨l, lt, waiter, does⟩ := returns.does_settle there
    refine (record_le there (Nat.le_trans lt le)).settled _ ?_
    rw [record_of_does does]
    simp [ChannelRecord.note]
  have untaken : (p.channelRecordAt turns c i).taken = none := by
    have alive := (p.conveyed turns there i).tells.alive
    rw [← returns.eq_receiver there] at alive
    exact Option.isNone_iff_eq_none.1 alive.symm
  -- Nobody had used the receiver up when the call began.
  have since {l : ℕ} {u : Tid} (spends : p.SpendsReceiver turns c l u) : i ≤ l := by
    by_contra before
    exact (spendsReceiver_iff there).1 ⟨l, Nat.not_le.1 before, u, spends⟩ untaken
  cases taken : (p.channelRecordAt turns c k).taken with
  | none =>
    refine .inr (.inr ⟨?_, ?_⟩)
    · rw [tells.state, ChannelRecord.state, settled, taken]
    · rw [tells.alive, taken]
      rfl
  | some way =>
    obtain ⟨l, lt, u, does⟩ := does_of_taken taken
    cases way with
    | none => exact .inr (.inl ⟨l, since (.inr does), lt, u, does⟩)
    | some received =>
      obtain rfl := Option.some.inj (settled.symm.trans (tells.received received taken))
      exact .inl ⟨l, since (.inl ⟨_, does⟩), lt, u, does⟩

variable (turns) in
/-- Whatever the threads that use a channel do, in whatever order, and whoever is woken for no reason,
    the channel carries one value from one sender to one receiver. -/
theorem carries_once (there : c.index < p.channels) : p.CarriesOnce turns c where
  sender _ _ _ _ := spendsSender_once there
  receiver _ _ _ _ := spendsReceiver_once there
  received j t value does := by
    obtain ⟨k, lt, u, waiter, settles⟩ := settled_of_receive there does
    rcases calls_of_settle there settles with ⟨none, -⟩ | ⟨signal, same, i, before, calls⟩
    · cases none
    · cases same
      exact ⟨i, Nat.lt_trans before lt, u, calls⟩
  closed j t does := by
    obtain ⟨k, lt, u, waiter, settles⟩ := settled_of_receive there does
    rcases calls_of_settle there settles with ⟨-, drops⟩ | ⟨signal, some, -⟩
    · refine ⟨⟨k, lt, u, drops⟩, fun i v value sends => ?_⟩
      obtain ⟨rfl, rfl⟩ := spendsSender_once there (.inr drops) (.inl ⟨value, sends⟩)
      exact nomatch (settles.aim.symm.trans (sends.asks there).aim)
    · cases some
  returned i j t value sent returns := by
    rw [returns.eq_receiver there, (p.conveyed turns there i).tells.alive, spendsReceiver_iff there]
    cases (p.channelRecordAt turns c i).taken <;> simp
  sent i j t value returns k le := returns.delivered there le
  settles j t value waiter := calls_of_settle there
  ready j := isReady_iff there
  readySent i j t value returns :=
    have ⟨k, lt, waiter, does⟩ := returns.does_settle there
    (isReady_iff there).2 ⟨k, lt, t, some value, waiter, does⟩
  readyDropped i t drops := (isReady_iff there).2 ⟨i, Nat.lt_succ_self i, t, none, _, drops.settles there⟩
  tells j t answer does := (Option.some.inj does.goes.2.2).symm
  woken j t ready aim rests := by
    have conveyed := p.conveyed turns there j
    have settled := (settledBefore_iff there).1 ((isReady_iff there).1 ready)
    refine ((conveyed.rests t rests aim).2 settled).imp_right ?_
    rintro ⟨u, waking⟩
    exact ⟨u, conveyed.aim_of_waking waking⟩
  returns fair i t value := returns_of_fair there fair
  receives fair i t ready aim := receives_of_fair there fair aim ((isReady_iff there).1 ready)

/-- A receiver sleeps, and the sender has sent but not woken it yet. -/
theorem carries_once_asleep : ∃ (p : SyncPlan) (turns : ℕ → Turn), (⟨0⟩ : ChannelId).index < p.channels ∧
    ((p.machineAt turns 6).thread 2).status = .asleep ∧
    ((p.machineAt turns 6).channel ⟨0⟩).isReady = true ∧ p.CarriesOnce turns ⟨0⟩ := by
  let p : SyncPlan := ⟨1, 0, [[.send ⟨0⟩ 7], [.receive ⟨0⟩]]⟩
  -- Thread 2 takes the receiver, finds nothing, and sleeps; then thread 1 takes the sender, and sends.
  let turns (i : ℕ) : Turn := .step ([2, 2, 2, 1, 1, 1].getD i 1)
  have asleep : ((p.machineAt turns 6).thread 2).status = .asleep := by decide +kernel
  have ready : ((p.machineAt turns 6).channel ⟨0⟩).isReady = true := by decide +kernel
  have there : (⟨0⟩ : ChannelId).index < p.channels := by decide
  exact ⟨p, turns, there, asleep, ready, carries_once turns there⟩

end SyncPlan

end Userland
