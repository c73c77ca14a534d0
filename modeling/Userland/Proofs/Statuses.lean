import Userland.Proofs.CallRuns

/-!
# What comes through channels

What a thread receives from a channel was sent through it (`Scenario.sent_of_full`). A child tells its
exit status on a channel that no other thread settles, so what its parent receives there is the status with
which the child exits (`Scenario.exits_of_receive`).
-/

namespace Userland

namespace Machine

variable {env : Environment} {m : Machine} {t : Tid} {c d : ChannelId} {v : Signal}

theorem channel_setChannel (m : Machine) (c d : ChannelId) (x : Channel) :
    (m.setChannel d x).channel c = m.channel c ∨ c = d ∧ (m.setChannel d x).channel c = x := by
  simp only [channel, setChannel, Array.getD_eq_getD_getElem?, Array.getElem?_setIfInBounds]
  by_cases same : d.index = c.index
  · by_cases inside : d.index < m.channels.size
    · rw [if_pos same, if_pos inside]
      exact .inr ⟨by cases c; cases d; simp_all, rfl⟩
    · rw [if_pos same, if_neg inside, ← same, Array.getElem?_eq_none (Nat.not_lt.1 inside)]
      exact .inl rfl
  · rw [if_neg same]
    exact .inl rfl

/-- What is in a channel after a change of another was there before. -/
theorem full_setChannel {x : Channel} (kept : x.state = .full v → (m.channel d).state = .full v)
    (full : ((m.setChannel d x).channel c).state = .full v) : (m.channel c).state = .full v := by
  rcases m.channel_setChannel c d x with same | ⟨rfl, same⟩
  · rwa [same] at full
  · rw [same] at full
    exact kept full

/-- A channel that is settled without a value gets none. -/
theorem full_settle_none {x : Channel} (full : (x.settle none).2.state = .full v) : x.state = .full v := by
  cases state : x.state <;> simp_all [Oneshot.settle]

/-- What is in a channel after an attempt was there before, or is what the channel was settled with. -/
theorem full_attempt (lives : env.stillborn = []) (a : Action)
    (full : ((m.attempt env t a).machine.channel c).state = .full v) :
    (m.channel c).state = .full v ∨ a = .settle c (some v) := by
  cases a with
  | settle d value =>
    rcases m.channel_setChannel c d ((m.channel d).settle value).2 with same | ⟨rfl, same⟩
    · exact .inl (same ▸ full)
    · have full : ((m.setChannel c ((m.channel c).settle value).2).channel c).state = .full v := full
      rw [same] at full
      cases state : (m.channel c).state with
      | full | closed => simp_all [Oneshot.settle]
      | empty => cases value <;> simp_all [Oneshot.settle]
  | spawn name priority start =>
    refine .inl ?_
    simp only [attempt, spawnThread, lives, List.not_mem_nil, if_false] at full
    split at full
    · exact full_setChannel full_settle_none (full_setChannel full_settle_none full)
    · exact full
  | newChannel =>
    refine .inl ?_
    change ((m.channels.push Oneshot.fresh).getD c.index Oneshot.fresh).state = _ at full
    simp only [Array.getD_eq_getD_getElem?, Array.getElem?_push] at full
    split at full
    · cases full
    · simpa only [channel, Array.getD_eq_getD_getElem?] using full
  | receive d =>
    refine .inl ?_
    simp only [attempt] at full
    cases state : (m.channel d).state with
    | full value | closed | empty =>
      simp only [Oneshot.receive, state] at full
      exact full_setChannel (fun kept => by simp_all) full
  | dropReceiver d => exact .inl (full_setChannel (x := (m.channel d).dropReceiver) id full)
  | lock l =>
    refine .inl ?_
    simp only [attempt] at full
    revert full
    rcases (m.lock l).tryLock t with ⟨_ | _, x⟩ <;> exact id
  | lockRegistry family =>
    refine .inl ?_
    simp only [attempt] at full
    split at full <;> exact full
  | unblock u =>
    refine .inl ?_
    change ((m.wake u).1.channel c).state = _ at full
    rwa [channel, (m.wake_frame u).2.2.1] at full
  | _ => exact .inl full

/-- What is in a channel after a turn was there before, or was sent at that turn. -/
theorem full_turn (lives : env.stillborn = []) {what : Turn}
    (full : ((m.turn env what).channel c).state = .full v) : (m.channel c).state = .full v ∨
      ∃ u next, m.Attempts what u (.settle c (some v)) next := by
  rcases m.turn_cases env what with ⟨u, a, next, attempts, turned⟩ | ⟨same, -⟩
  · rw [turned] at full
    have full : ((m.attempt env u a).machine.channel c).state = .full v := by
      cases attempted : m.attempt env u a <;> (rw [attempted] at full; exact full)
    refine (full_attempt lives a full).imp_right fun settles => ?_
    subst settles
    exact ⟨u, next, attempts⟩
  · left
    rwa [channel, same.channels] at full

end Machine

namespace Scenario

variable {x : Scenario} {turns : ℕ → Turn} {i j : ℕ} {t u : Tid}

/-- What is in a channel was sent through it. -/
theorem sent_of_full {c : ChannelId} {v : Signal}
    (full : ((x.machineAt turns i).channel c).state = .full v) :
    ∃ j < i, ∃ u next, x.Goes turns j u ∧
      x.programAt turns j u = Program.ask (Action.settle c (some v)) next := by
  induction i with
  | zero => cases full
  | succ i ih =>
    rcases Machine.full_turn rfl full with before | ⟨u, next, sends⟩
    · obtain ⟨j, before, sent⟩ := ih before
      exact ⟨j, Nat.lt_succ_of_lt before, sent⟩
    · exact ⟨i, Nat.lt_succ_self i, u, next, goes_of_attempts sends, sends.does⟩

end Scenario

/-! ## What stays of threads -/

/-- What a thread was started from stays, and its children stay. -/
structure Standing.Lasts (s s' : Standing) : Prop where
  /-- What it was started from stays. -/
  start : s'.duties.start = s.duties.start
  /-- Its children stay. -/
  born : ∀ record ∈ s.duties.born, record ∈ s'.duties.born

namespace Standing.Lasts

variable {s s' s'' : Standing}

theorem refl (s : Standing) : s.Lasts s := ⟨rfl, fun _ => id⟩

theorem trans (h : s.Lasts s') (h' : s'.Lasts s'') : s.Lasts s'' :=
  ⟨h'.start.trans h.start, fun record mem => h'.born record (h.born record mem)⟩

theorem of_follows {a : Action} {answer : a.Answer} (follows : Follows a s answer s') :
    s.Lasts s' := by
  cases follows with
  | device r s d => exact ⟨by cases r <;> rfl, fun record mem => by cases r <;> exact mem⟩
  | act a s answer other promise =>
    cases a with
    | device r => exact absurd rfl (other r)
    | hasReceiver c => cases answer <;> exact ⟨rfl, fun _ => id⟩
    | spawn name priority start => exact ⟨rfl, fun record mem => List.mem_append_right _ mem⟩
    | _ => exact ⟨rfl, fun _ => id⟩

theorem of_advances {blocks : ℕ → ThreadProgram Unit} {told : ∀ a : Action, Option a.Answer}
    {p p' : ThreadProgram Unit} (advances : Advances blocks told p s p' s') : s.Lasts s' := by
  cases advances with
  | rest | goto | finish => exact .refl _
  | go _ _ follows => exact .of_follows follows

end Standing.Lasts

namespace Scenario

variable {x : Scenario} {turns : ℕ → Turn} {i j : ℕ} {t u : Tid}

theorem standingAt_lasts (inside : t < (x.machineAt turns i).threads.size) (le : i ≤ j) :
    (x.standingAt turns i t).Lasts (x.standingAt turns j t) := by
  induction le with
  | refl => exact .refl _
  | step le ih => exact ih.trans (.of_advances ((x.sound turns _).advances x.lawful (turns _)
      (Nat.lt_of_lt_of_le inside (x.size_le turns le))))

/-! ## Exit statuses -/

/-- What a thread may do at a time. -/
theorem allowed_at {a : Action} {next : a.Answer → ThreadProgram Unit}
    (here : x.programAt turns i t = Program.ask a next) : Allowed a (x.standingAt turns i t) :=
  ((x.sound turns i).allowed here).1

theorem sources_lasts (inside : t < (x.machineAt turns i).threads.size) (le : i ≤ j) :
    (x.standingAt turns j t).duties.sources = (x.standingAt turns i t).duties.sources := by
  rw [Duties.sources, Duties.sources, (standingAt_lasts inside le).start]

/-- Who receives from a channel receives what is in it. -/
theorem receive_of_does {c : ChannelId} {answer : Option Signal}
    (receives : x.Does turns i t (.receive c) answer) : ∃ y, (x.machineAt turns i).channel? c = some y ∧
      y.receiver = true ∧ (y.receive t).1 = some answer := by
  have goes := receives.goes
  obtain ⟨⟨next, here⟩, told⟩ := receives
  obtain ⟨-, -, -, awaited, -⟩ : _ ∧ _ ∧ _ ∧ c ∈ (x.standingAt turns i t).duties.awaited ∧ _ :=
    allowed_at here
  obtain ⟨y, found, live⟩ := (x.sound turns i).channels.of_receivers (List.mem_append_left _ awaited)
  refine ⟨y, found, live, ?_⟩
  rw [goes.told, Machine.answer?, Machine.attempt, Machine.channel_eq found] at told
  revert told
  rcases y.receive t with ⟨_ | value, y'⟩ <;> exact id

/-- What is received from a channel with which a thread was started is what that thread has sent. -/
theorem sends_of_receive {c : ChannelId} {v : Signal} (receives : x.Does turns i t (.receive c) (some v))
    (source : c ∈ (x.standingAt turns i u).duties.sources) :
    ∃ j < i, ∃ waiter, x.Does turns j u (.settle c (some v)) waiter := by
  obtain ⟨y, found, live, answered⟩ := receive_of_does receives
  have full : y.state = .full v := by
    revert answered
    simp only [Oneshot.receive]
    cases y.state <;> simp
  obtain ⟨j, before, w, next, goes, sends⟩ := @sent_of_full x turns i c v
    (by rw [Machine.channel_eq found]; exact full)
  -- Nobody else was started with the channel.
  obtain ⟨-, -, fit⟩ : _ ∧ _ ∧ (x.standingAt turns j w).duties.MaySettle c (some v) := allowed_at sends
  have source' := fit.mem_sources
  have inside : w < (x.machineAt turns j).threads.size := Machine.lt_size_of_status (by simp [goes.2.2])
  rw [← sources_lasts inside (Nat.le_of_lt before)] at source'
  obtain rfl := (x.sound turns i).channels.parted u w c source source'
  exact ⟨j, before, _, ⟨next, sends⟩, goes.told _⟩

/-- What a parent receives from the exit channel of a child is a status that the child has sent. -/
theorem status_of_receive {c : ChannelId} {answer : Option Signal}
    (receives : x.Does turns i t (.receive c) answer)
    (born : (u, c) ∈ (x.standingAt turns i t).duties.born) : ∃ status, answer = some (.status status) ∧
      ∃ j < i, ∃ waiter, x.Does turns j u (.settle c (some (.status status))) waiter := by
  have channels := (x.sound turns i).channels
  obtain ⟨y, found, live, answered⟩ := receive_of_does receives
  obtain ⟨-, start, started, exit⟩ := channels.born t u c born
  have source : c ∈ (x.standingAt turns i u).duties.sources := by
    simp [Duties.sources, standingAt, started, exit]
  rcases (channels.exits u start started).2 y (exit ▸ found) live with empty | ⟨status, full⟩
  · simp [Oneshot.receive, empty] at answered
  · obtain rfl : answer = some (.status status) := by
      simpa [Oneshot.receive, full, eq_comm] using answered
    exact ⟨status, rfl, sends_of_receive receives source⟩

/-- It is the status with which the child exits. -/
theorem exits_of_receive {c : ChannelId} {answer : Option Signal}
    (receives : x.Does turns i t (.receive c) answer)
    (born : (u, c) ∈ (x.standingAt turns i t).duties.born) :
    ∃ status, answer = some (.status status) ∧ ∃ j < i, x.Begins turns j u (.exit status) := by
  obtain ⟨status, rfl, j, before, waiter, sends⟩ := status_of_receive receives born
  obtain ⟨next, here⟩ := sends.1
  obtain ⟨k, before', begins⟩ := exits_of_settle here sends.goes
  exact ⟨status, rfl, k, Nat.lt_trans before' before, begins⟩

end Scenario

end Userland
