import Userland.Proofs.Ledger

/-!
# Who settles a channel, and who receives from it

Every channel has one receiving thread, until its receiving end is used up or dropped. The thread that
makes a channel first has both ends; the ends that it gives away are what a child is started from, and
nobody else settles these (`Channels`). So a channel from which a thread receives is settled, or there
is a thread that is yet to settle it, and that thread is the child of the one that receives.
-/

namespace Userland

/-! ## One thread -/

namespace Duties

/-- The channels that a thread was started with. -/
def sources (g : Duties) : List ChannelId :=
  match g.start with
  | some start => [start.loaded, start.exit]
  | none => []

/-- A thread settles only channels that it was started with. -/
theorem MaySettle.mem_sources {g : Duties} {c : ChannelId} {value : Option Signal}
    (fit : g.MaySettle c value) : c ∈ g.sources := by
  obtain ⟨start, started, ⟨rfl, -⟩ | ⟨rfl, -⟩⟩ := fit <;> simp [sources, started]

end Duties

namespace Standing

variable {s s' : Standing}

/-- The channels that a thread is to settle. -/
def senders (s : Standing) : List ChannelId := s.duties.given ++ s.own.exits

/-- The channels whose receiving ends a thread has. -/
def receivers (s : Standing) : List ChannelId := s.duties.awaited ++ s.own.records.map (·.2)

/-- What a thread has fits what it remembers. -/
structure Consistent (s : Standing) : Prop where
  /-- It may receive from the channels that it made. -/
  made : ∀ c ∈ s.duties.made, c ∈ s.duties.awaited
  /-- It is to settle only what it was started with. -/
  senders : ∀ c ∈ s.senders, c ∈ s.duties.sources
  /-- Children on record were born. -/
  recorded : ∀ record ∈ s.own.records, record ∈ s.duties.born
  /-- No child is on record twice. -/
  named : (s.own.records.map (·.1)).Nodup
  /-- Only threads that were started for a process host one. -/
  hosted : s.own.process ≠ none → s.duties.start ≠ none

end Standing

/-! ## All threads -/

/-- The channels of a machine, each by its number. -/
abbrev ChannelMap := ChannelId → Option Channel

/-- Whether a channel has a receiving end. -/
def alive (ch : ChannelMap) (c : ChannelId) : Bool := ((ch c).map (·.receiver)).getD false

/-- How a thread stands now, if it has made no child meanwhile, and has no ends of channels but those
    that it had and those of new channels. -/
structure Standing.Onward (ch : ChannelMap) (s s' : Standing) : Prop where
  /-- What it was started from stays. -/
  start : s'.duties.start = s.duties.start
  /-- Its children stay. -/
  born : s'.duties.born = s.duties.born
  /-- What it has made is new. -/
  made : ∀ c ∈ s'.duties.made, c ∈ s.duties.made ∨ ch c = none
  /-- The receiving ends that it has got are new. -/
  receivers : ∀ c ∈ s'.receivers, c ∈ s.receivers ∨ ch c = none

namespace Standing.Onward

variable {ch : ChannelMap} {s s' : Standing}

theorem refl (s : Standing) : s.Onward ch s := ⟨rfl, rfl, fun _ => .inl, fun _ => .inl⟩

theorem sources (h : s.Onward ch s') : s'.duties.sources = s.duties.sources := by
  rw [Duties.sources, Duties.sources, h.start]

end Standing.Onward

/-- How the channels of a machine and its `n` threads fit together. -/
structure Channels (S : Tid → Standing) (ch : ChannelMap) (n : Nat) : Prop where
  /-- What each thread has fits what it remembers. -/
  consistent : ∀ t, (S t).Consistent
  /-- Each receiving end is one thread's. -/
  receivers : Ledger (fun t => (S t).receivers) (alive ch)
  /-- A channel that is not settled and has a receiving end has somebody who is to settle it. -/
  pending : ∀ c x, ch c = some x → x.receiver = true → x.state = .empty →
    ∃ t, c ∈ (S t).duties.made ∨ c ∈ (S t).senders
  /-- Threads were started with channels that exist. -/
  known : ∀ t, ∀ c ∈ (S t).duties.sources, (ch c).isSome = true
  /-- No two threads were started with the same channel. -/
  parted : ∀ t u c, c ∈ (S t).duties.sources → c ∈ (S u).duties.sources → t = u
  /-- No thread has both ends of what a thread was started with. -/
  unmade : ∀ t u c, c ∈ (S t).duties.sources → c ∉ (S u).duties.made
  /-- A channel both of whose ends a thread has is not settled. -/
  unsettled : ∀ t, ∀ c ∈ (S t).duties.made, ∀ x, ch c = some x → x.state = .empty
  /-- The receiving ends of what a thread was started with are its parent's. -/
  kin : ∀ t u c, c ∈ (S u).duties.sources → c ∈ (S t).receivers → ∃ e, (u, e) ∈ (S t).duties.born
  /-- A thread tells two things on two channels, and on one of them its exit status. -/
  exits : ∀ t start, (S t).duties.start = some start → start.loaded ≠ start.exit ∧
    ∀ x, ch start.exit = some x → x.receiver = true →
      x.state = .empty ∨ ∃ status, x.state = .full (.status status)
  /-- Children are younger than their parents, and were started with the channels that those
      remember. -/
  born : ∀ t child exit, (child, exit) ∈ (S t).duties.born →
    t < child ∧ ∃ start, (S child).duties.start = some start ∧ start.exit = exit
  /-- Threads that were not made yet have nothing, and stand for nothing. -/
  beyond : ∀ t, n ≤ t → S t = ⟨.fresh 0, .fresh none⟩

namespace Channels

variable {S : Tid → Standing} {ch ch' : ChannelMap} {n : Nat} {t u : Tid} {s' : Standing}
  {c : ChannelId} {x x' : Channel}

/-- A receiving end that somebody has belongs to a channel that exists. -/
theorem of_receivers (h : Channels S ch n) (mem : c ∈ (S t).receivers) :
    ∃ x, ch c = some x ∧ x.receiver = true := by
  have live := (h.receivers.live c).2 ⟨t, mem⟩
  cases found : ch c with
  | none => simp [alive, found] at live
  | some x => exact ⟨x, rfl, by simpa [alive, found] using live⟩

theorem receivers_of_made (h : Channels S ch n) (mem : c ∈ (S t).duties.made) :
    c ∈ (S t).receivers := List.mem_append_left _ ((h.consistent t).made c mem)

/-- One thread moves on, and what becomes of the channels leaves nobody waiting in vain. -/
theorem onward (h : Channels S ch n) (consistent : s'.Consistent) (onward : (S t).Onward ch s')
    (receivers : Ledger (fun u => (Function.update S t s' u).receivers) (alive ch'))
    (pending : ∀ c x, ch' c = some x → x.receiver = true → x.state = .empty →
      c ∈ s'.duties.made ∨ (∃ x, ch c = some x ∧ x.receiver = true ∧ x.state = .empty) ∧
        (c ∈ (S t).duties.made ∨ c ∈ (S t).senders → c ∈ s'.duties.made ∨ c ∈ s'.senders))
    (unsettled : ∀ u, ∀ c ∈ (Function.update S t s' u).duties.made, ∀ x, ch' c = some x →
      x.state = .empty)
    (known : ∀ c, (ch c).isSome = true → (ch' c).isSome = true)
    (exits : ∀ u start x, (S u).duties.start = some start → ch' start.exit = some x →
      x.receiver = true → x.state = .empty ∨ ∃ status, x.state = .full (.status status))
    (inside : t < n) :
    Channels (Function.update S t s') ch' n := by
  -- All threads move on in this sense, most of them by staying where they are. So no field below has to ask
  -- whether the thread in it is `t`, unless the field speaks of what `t` has now.
  have moves (u : Tid) : (S u).Onward ch (Function.update S t s' u) := by
    by_cases same : u = t
    · rw [same, Function.update_self]
      exact onward
    · rw [Function.update_of_ne same]
      exact .refl _
  have sources (u : Tid) : (Function.update S t s' u).duties.sources = (S u).duties.sources :=
    (moves u).sources
  have old (u : Tid) (c : ChannelId) (mem : c ∈ (S u).duties.sources) : ch c ≠ none :=
    Option.isSome_iff_ne_none.1 (h.known u c mem)
  refine
    { consistent := fun u => ?_
      receivers := receivers
      pending := fun c x found receives empty => ?_
      known := fun u c mem => known c (h.known u c (sources u ▸ mem))
      parted := fun u v c mem mem' => h.parted u v c (sources u ▸ mem) (sources v ▸ mem')
      unmade := fun u v c mem made => ?_
      unsettled := unsettled
      kin := fun u v c mem mem' => ?_
      exits := fun u start started => ?_
      born := fun u child exit mem => ?_
      beyond := fun u le => ?_ }
  · by_cases same : u = t
    · rw [same, Function.update_self]
      exact consistent
    · rw [Function.update_of_ne same]
      exact h.consistent u
  · obtain made | ⟨⟨x, found, receives, empty⟩, kept⟩ := pending c x found receives empty
    · exact ⟨t, .inl (by rwa [Function.update_self])⟩
    obtain ⟨u, mem⟩ := h.pending c x found receives empty
    refine ⟨u, ?_⟩
    by_cases same : u = t
    · rw [same, Function.update_self]
      exact kept (same ▸ mem)
    · rwa [Function.update_of_ne same]
  · have mem := sources u ▸ mem
    rcases (moves v).made c made with made | new
    · exact h.unmade u v c mem made
    · exact old u c mem new
  · have mem := sources v ▸ mem
    rw [(moves u).born]
    rcases (moves u).receivers c mem' with mem' | new
    · exact h.kin u v c mem mem'
    · exact absurd new (old v c mem)
  · rw [(moves u).start] at started
    exact ⟨(h.exits u start started).1, fun x => exits u start x started⟩
  · rw [(moves u).born] at mem
    rw [(moves child).start]
    exact h.born u child exit mem
  · have other : u ≠ t := fun same => Nat.not_lt.2 (same ▸ le) inside
    rw [Function.update_of_ne other]
    exact h.beyond u le

/-! ## What threads do -/

theorem isSome_update {b : ChannelId} (exists' : (ch b).isSome = true) :
    (Function.update ch c (some x') b).isSome = true := by
  by_cases at' : b = c
  · rw [at', Function.update_self]
    rfl
  · rwa [Function.update_of_ne at']

theorem made_update (same : s'.duties.made = (S t).duties.made) (u : Tid) :
    (Function.update S t s' u).duties.made = (S u).duties.made := by
  by_cases at' : u = t
  · rw [at', Function.update_self, same]
  · rw [Function.update_of_ne at']

/-- A receiving thread has a channel alone. -/
theorem notMem_made (h : Channels S ch n) (mem : c ∈ (S t).receivers)
    (unmade : c ∉ (S t).duties.made) (u : Tid) : c ∉ (S u).duties.made := fun made => by
  obtain rfl := h.receivers.apart t u c mem (h.receivers_of_made made)
  exact unmade made

theorem alive_update (found : ch c = some x) (same : x'.receiver = x.receiver) :
    alive (Function.update ch c (some x')) = alive ch := by
  funext b
  by_cases at' : b = c
  · rw [at', alive, alive, Function.update_self, found, Option.map_some, Option.map_some, same]
  · rw [alive, alive, Function.update_of_ne at']

theorem receivers_update : (fun u => (Function.update S t s' u).receivers) =
    Function.update (fun u => (S u).receivers) t s'.receivers :=
  Function.comp_update Standing.receivers S t s'

/-- The thread has what it had, perhaps elsewhere. -/
theorem moves (h : Channels S ch n) (consistent : s'.Consistent) (onward : (S t).Onward ch s')
    (made : s'.duties.made = (S t).duties.made) (senders : ∀ c ∈ (S t).senders, c ∈ s'.senders)
    (receivers : s'.receivers.Perm (S t).receivers) (inside : t < n) :
    Channels (Function.update S t s') ch n := by
  refine h.onward consistent onward ?_ (fun c x found receives empty => ?_)
    (fun u => made_update made u ▸ h.unsettled u) (fun _ => id)
    (fun u start x started found => (h.exits u start started).2 x found) inside
  · rw [receivers_update]
    exact h.receivers.flow (.keep receivers fun _ => rfl)
  · exact .inr ⟨⟨x, found, receives, empty⟩, Or.imp (by rw [made]; exact id) (senders c)⟩

/-- What is left to a thread that need not settle a channel any more. -/
def unburdened (s : Standing) (c : ChannelId) (waiter : Option Tid) : Standing :=
  ⟨s.own, { s.duties with given := s.duties.given.erase c, wakes := waiter }⟩

theorem onward_unburdened (s : Standing) (c : ChannelId) (waiter : Option Tid) :
    s.Onward ch (unburdened s c waiter) := ⟨rfl, rfl, fun _ => .inl, fun _ => .inl⟩

theorem senders_of_unburdened {s : Standing} {b : ChannelId} {waiter : Option Tid}
    (mem : b ∈ (unburdened s c waiter).senders) : b ∈ s.senders :=
  (List.mem_append.1 mem).elim
    (fun given => List.mem_append_left _ (List.mem_of_mem_erase given)) (List.mem_append_right _)

theorem senders_unburdened {s : Standing} {b : ChannelId} {waiter : Option Tid} (other : b ≠ c)
    (mem : b ∈ s.senders) : b ∈ (unburdened s c waiter).senders :=
  (List.mem_append.1 mem).elim
    (fun given => List.mem_append_left _ ((List.mem_erase_of_ne other).2 given))
    (List.mem_append_right _)

theorem made_unburdened {waiter : Option Tid} (u : Tid) :
    (Function.update S t (unburdened (S t) c waiter) u).duties.made = (S u).duties.made := by
  rw [made_update]
  rfl

theorem consistent_unburdened {s : Standing} {waiter : Option Tid} (h : s.Consistent) :
    (unburdened s c waiter).Consistent :=
  ⟨h.made, fun b mem => h.senders b (senders_of_unburdened mem), h.recorded, h.named, h.hosted⟩

/-- A thread that has learned that nobody receives need not settle the channel. -/
theorem forget {waiter : Option Tid} (h : Channels S ch n) (dead : alive ch c = false)
    (inside : t < n) : Channels (Function.update S t (unburdened (S t) c waiter)) ch n := by
  refine h.onward (consistent_unburdened (h.consistent t)) (onward_unburdened ..) ?_
    (fun b x found receives empty => .inr ⟨⟨x, found, receives, empty⟩, ?_⟩)
    (fun u => by rw [made_unburdened]; exact h.unsettled u) (fun _ => id)
    (fun u start x started found => (h.exits u start started).2 x found) inside
  · rw [receivers_update]
    exact h.receivers.flow (.keep (.refl _) fun _ => rfl)
  · have other : b ≠ c := by
      rintro rfl
      simp [alive, found, receives] at dead
    exact Or.imp id (senders_unburdened other)

/-- A channel that is settled need not be settled any more. -/
theorem settle {waiter : Option Tid} (h : Channels S ch n) (found : ch c = some x)
    (source : c ∈ (S t).duties.sources) (same : x'.receiver = x.receiver)
    (settled : x'.state ≠ .empty)
    (value : ∀ start, (S t).duties.start = some start → start.exit = c → x'.receiver = true →
      ∃ status, x'.state = .full (.status status))
    (inside : t < n) :
    Channels (Function.update S t (unburdened (S t) c waiter)) (Function.update ch c (some x')) n := by
  refine h.onward (consistent_unburdened (h.consistent t)) (onward_unburdened ..) ?_
    (fun b y found' receives empty => ?_) (fun u b made y found' => ?_) (fun b => isSome_update)
    (fun u start y started found' receives => ?_) inside
  · rw [receivers_update, alive_update found same]
    exact h.receivers.flow (.keep (.refl _) fun _ => rfl)
  · by_cases at' : b = c
    · rw [at', Function.update_self] at found'
      obtain rfl := Option.some.inj found'
      exact absurd empty settled
    · rw [Function.update_of_ne at'] at found'
      exact .inr ⟨⟨y, found', receives, empty⟩, Or.imp id (senders_unburdened at')⟩
  · rw [made_unburdened] at made
    have other : b ≠ c := fun same => h.unmade t u b (same ▸ source) made
    rw [Function.update_of_ne other] at found'
    exact h.unsettled u b made y found'
  · by_cases at' : start.exit = c
    · rw [at', Function.update_self] at found'
      obtain rfl := Option.some.inj found'
      -- The channel tells of the exit of the thread that settles it, as no other was started with it.
      obtain rfl := h.parted u t c (by simp [Duties.sources, started, at']) source
      exact .inr (value start started at' receives)
    · rw [Function.update_of_ne at'] at found'
      exact (h.exits u start started).2 y found' receives

/-- It makes no difference who has left a name at a channel. -/
theorem leaveName (h : Channels S ch n) (found : ch c = some x) (receiver : x'.receiver = x.receiver)
    (state : x'.state = x.state) : Channels S (Function.update ch c (some x')) n := by
  -- Every channel has a former self with the same end and the same state.
  have before {b : ChannelId} {y : Channel} (found' : Function.update ch c (some x') b = some y) :
      ∃ y', ch b = some y' ∧ y.receiver = y'.receiver ∧ y.state = y'.state := by
    by_cases at' : b = c
    · rw [at', Function.update_self] at found'
      obtain rfl := Option.some.inj found'
      exact ⟨x, at' ▸ found, receiver, state⟩
    · rw [Function.update_of_ne at'] at found'
      exact ⟨y, found', rfl, rfl⟩
  refine { h with
    receivers := alive_update found receiver ▸ h.receivers
    pending := fun b y found' receives empty => ?_
    known := fun t b mem => isSome_update (h.known t b mem)
    unsettled := fun t b mem y found' => ?_
    exits := fun t start started =>
      ⟨(h.exits t start started).1, fun y found' receives => ?_⟩ }
  · obtain ⟨y', found', receiver', state'⟩ := before found'
    exact h.pending b y' found' (receiver' ▸ receives) (state' ▸ empty)
  · obtain ⟨y', found', -, state'⟩ := before found'
    exact state' ▸ h.unsettled t b mem y' found'
  · obtain ⟨y', found', receiver', state'⟩ := before found'
    exact state' ▸ (h.exits t start started).2 y' found' (receiver' ▸ receives)

/-- A receiving end that is used up or dropped is gone. -/
theorem drop (h : Channels S ch n) (gone : x'.receiver = false)
    (mem : c ∈ (S t).duties.awaited) (unmade : c ∉ (S t).duties.made) (inside : t < n) :
    Channels (Function.update S t
      ⟨(S t).own, { (S t).duties with awaited := (S t).duties.awaited.erase c }⟩)
      (Function.update ch c (some x')) n := by
  have before := h.consistent t
  have made (b : ChannelId) (made : b ∈ (S t).duties.made) : b ∈ (S t).duties.awaited.erase c :=
    (List.mem_erase_of_ne fun same : b = c => unmade (same ▸ made)).2 (before.made b made)
  have fewer (b : ChannelId) (mem : b ∈ (S t).duties.awaited.erase c ++ (S t).own.records.map (·.2)) :
      b ∈ (S t).receivers :=
    (List.mem_append.1 mem).elim
      (fun awaited => List.mem_append_left _ (List.mem_of_mem_erase awaited))
      (List.mem_append_right _)
  refine h.onward ⟨made, before.senders, before.recorded, before.named, before.hosted⟩
    ⟨rfl, rfl, fun _ => .inl, fun b mem => .inl (fewer b mem)⟩ ?_
    (fun b y found receives empty => ?_) (fun u b made y found => ?_) (fun b => isSome_update)
    (fun u start y started found receives => ?_) inside
  · rw [receivers_update]
    refine h.receivers.flow (.give c ((List.perm_cons_erase mem).append_right _) fun b => ?_)
    by_cases at' : b = c
    · simp [alive, at', gone]
    · simp [alive, at']
  · by_cases at' : b = c
    · rw [at', Function.update_self] at found
      obtain rfl := Option.some.inj found
      exact nomatch gone.symm.trans receives
    · rw [Function.update_of_ne at'] at found
      exact .inr ⟨⟨y, found, receives, empty⟩, id⟩
  · rw [made_update (by rfl)] at made
    -- Nobody has both ends of the channel, since its receiving end is the thread's and was not made by it.
    have other : b ≠ c := fun same =>
      h.notMem_made (List.mem_append_left _ mem) unmade u (same ▸ made)
    rw [Function.update_of_ne other] at found
    exact h.unsettled u b made y found
  · by_cases at' : start.exit = c
    · rw [at', Function.update_self] at found
      obtain rfl := Option.some.inj found
      exact nomatch gone.symm.trans receives
    · rw [Function.update_of_ne at'] at found
      exact (h.exits u start started).2 y found receives

/-- A new channel is its maker's, with both ends. -/
theorem newChannel (h : Channels S ch n) (new : ch c = none) (inside : t < n) :
    Channels (Function.update S t ⟨(S t).own,
      { (S t).duties with
        made := c :: (S t).duties.made, awaited := c :: (S t).duties.awaited }⟩)
      (Function.update ch c (some .fresh)) n := by
  have before := h.consistent t
  have made (b : ChannelId) (made : b ∈ c :: (S t).duties.made) :
      b ∈ c :: (S t).duties.awaited :=
    (List.mem_cons.1 made).elim (fun same => List.mem_cons.2 (.inl same))
      fun made => List.mem_cons_of_mem _ (before.made b made)
  refine h.onward ⟨made, before.senders, before.recorded, before.named, before.hosted⟩
    ⟨rfl, rfl, fun b made => ?_, fun b mem => ?_⟩ ?_
    (fun b y found receives empty => ?_) (fun u b made y found => ?_) (fun b => isSome_update)
    (fun u start y started found receives => ?_) inside
  · exact (List.mem_cons.1 made).elim (fun same => .inr (same ▸ new)) .inl
  · exact (List.mem_cons.1 mem).elim (fun same => .inr (same ▸ new)) .inl
  · rw [receivers_update]
    refine h.receivers.flow (.take c (.refl _) (by simp [alive, new]) fun b => ?_)
    by_cases at' : b = c
    · simp [alive, at', Oneshot.fresh]
    · simp [alive, at']
  · by_cases at' : b = c
    · exact .inl (at' ▸ List.mem_cons_self)
    · rw [Function.update_of_ne at'] at found
      exact .inr ⟨⟨y, found, receives, empty⟩, Or.imp_left (List.mem_cons_of_mem c)⟩
  · by_cases at' : b = c
    · rw [at', Function.update_self] at found
      exact Option.some.inj found ▸ rfl
    · rw [Function.update_of_ne at'] at found
      refine h.unsettled u b ?_ y found
      by_cases same : u = t
      · rw [same, Function.update_self] at made
        exact same ▸ (List.mem_cons.1 made).resolve_left at'
      · rwa [Function.update_of_ne same] at made
  · -- Nobody was started with a channel that is new.
    have other : start.exit ≠ c := fun same => by
      have known := h.known u start.exit (by simp [Duties.sources, started])
      rw [same, new] at known
      cases known
    rw [Function.update_of_ne other] at found
    exact (h.exits u start started).2 y found receives

/-- If no child is made, the ends that were to be given away are settled, and nobody waits for them in
    vain. -/
theorem spawnNothing (h : Channels S ch n) (alive' : alive ch' = alive ch)
    (settled : ∀ c ∈ (S t).duties.made, ∀ x, ch' c = some x → x.state ≠ .empty)
    (others : ∀ c ∉ (S t).duties.made, ch' c = ch c)
    (known : ∀ c, (ch c).isSome = true → (ch' c).isSome = true) (inside : t < n) :
    Channels (Function.update S t ⟨(S t).own, { (S t).duties with made := [] }⟩) ch' n := by
  have before := h.consistent t
  refine h.onward ⟨nofun, before.senders, before.recorded, before.named, before.hosted⟩
    ⟨rfl, rfl, nofun, fun _ => .inl⟩ ?_ (fun b y found receives empty => ?_)
    (fun u b mem y found => ?_) known (fun u start x started found => ?_) inside
  · rw [receivers_update, alive']
    exact h.receivers.flow (.keep (.refl _) fun _ => rfl)
  · have other : b ∉ (S t).duties.made := fun mem => settled b mem y found empty
    rw [others b other] at found
    exact .inr ⟨⟨y, found, receives, empty⟩, fun has => .inr (has.resolve_left other)⟩
  · by_cases same : u = t
    · rw [same, Function.update_self] at mem
      cases mem
    · rw [Function.update_of_ne same] at mem
      have other : b ∉ (S t).duties.made := fun mine => same
        (h.receivers.apart u t b (h.receivers_of_made mem) (h.receivers_of_made mine))
      rw [others b other] at found
      exact h.unsettled u b mem y found
  · have other : start.exit ∉ (S t).duties.made :=
      h.unmade u t _ (by simp [Duties.sources, started])
    rw [others _ other] at found
    exact (h.exits u start started).2 x found

end Channels

/-! ## Children -/

/-- How all threads stand when thread `t` has made thread `n`. -/
structure Spawned (S S' : Tid → Standing) (t n : Tid) (start : NewProcess) : Prop where
  /-- The child has what it was given. -/
  child : S' n = ⟨.fresh n, .fresh (some start)⟩
  /-- The parent remembers its child. -/
  parent : S' t = ⟨(S t).own,
    { (S t).duties with made := [], born := (n, start.exit) :: (S t).duties.born }⟩
  /-- Others stand as before. -/
  others : ∀ u, u ≠ n → u ≠ t → S' u = S u
  /-- The child is younger than its parent. -/
  younger : t < n
  /-- The parent had both ends of what it gave away. -/
  made : (S t).duties.made = [start.exit, start.loaded]
  /-- It gave two ends away. -/
  apart : start.loaded ≠ start.exit

namespace Spawned

variable {S S' : Tid → Standing} {ch : ChannelMap} {n : Nat} {t u : Tid} {c : ChannelId}
  {start : NewProcess} (h : Channels S ch n)
  (spawned : Spawned S S' t n start)

include spawned

theorem start_eq (notChild : u ≠ n) : (S' u).duties.start = (S u).duties.start := by
  by_cases same : u = t
  · rw [same, spawned.parent]
  · rw [spawned.others u notChild same]

theorem sources_eq (notChild : u ≠ n) : (S' u).duties.sources = (S u).duties.sources := by
  rw [Duties.sources, Duties.sources, spawned.start_eq notChild]

theorem made_of_childSources (mem : c ∈ (S' n).duties.sources) : c ∈ (S t).duties.made := by
  rw [spawned.child] at mem
  rw [spawned.made]
  have : c = start.loaded ∨ c = start.exit := by
    simpa [Duties.sources, Duties.fresh] using mem
  simpa using this.symm

theorem senders_child (mem : c ∈ (S t).duties.made) : c ∈ (S' n).senders := by
  rw [spawned.made] at mem
  rw [spawned.child, Standing.senders]
  refine List.mem_append_left _ ?_
  have : c = start.exit ∨ c = start.loaded := by simpa using mem
  simpa [Duties.fresh] using this.symm

theorem made_of_made (mem : c ∈ (S' u).duties.made) : u ≠ t ∧ c ∈ (S u).duties.made := by
  by_cases notChild : u = n
  · rw [notChild, spawned.child] at mem
    cases mem
  · by_cases notParent : u = t
    · rw [notParent, spawned.parent] at mem
      cases mem
    · exact ⟨notParent, spawned.others u notChild notParent ▸ mem⟩

include h

theorem receivers_eq (u : Tid) : (S' u).receivers = (S u).receivers := by
  by_cases notChild : u = n
  · rw [notChild, spawned.child, h.beyond n (Nat.le_refl n)]
    rfl
  · by_cases notParent : u = t
    · rw [notParent, spawned.parent]
      rfl
    · rw [spawned.others u notChild notParent]

theorem born_of_born {record : Tid × ChannelId} (mem : record ∈ (S u).duties.born) :
    record ∈ (S' u).duties.born := by
  by_cases notChild : u = n
  · rw [notChild, h.beyond n (Nat.le_refl n)] at mem
    cases mem
  · by_cases notParent : u = t
    · rw [notParent, spawned.parent]
      exact List.mem_cons_of_mem _ (notParent ▸ mem)
    · rwa [spawned.others u notChild notParent]

theorem consistent (u : Tid) : (S' u).Consistent := by
  by_cases notChild : u = n
  · rw [notChild, spawned.child]
    refine ⟨nofun, fun c mem => ?_, nofun, List.nodup_nil, fun hosts => absurd rfl hosts⟩
    simpa [Standing.senders, Duties.fresh, Duties.sources, Belongings.exits, Belongings.fresh]
      using mem
  · by_cases notParent : u = t
    · have before := h.consistent t
      rw [notParent, spawned.parent]
      exact ⟨nofun, before.senders,
        fun record mem => List.mem_cons_of_mem _ (before.recorded record mem), before.named,
        before.hosted⟩
    · rw [spawned.others u notChild notParent]
      exact h.consistent u

theorem pending (mem : c ∈ (S u).duties.made ∨ c ∈ (S u).senders) :
    ∃ v, c ∈ (S' v).duties.made ∨ c ∈ (S' v).senders := by
  by_cases notParent : u = t
  · rw [notParent] at mem
    rcases mem with mem | mem
    · exact ⟨n, .inr (spawned.senders_child mem)⟩
    · exact ⟨t, .inr (by rwa [spawned.parent])⟩
  · refine ⟨u, ?_⟩
    rwa [spawned.others u (fun notChild => ?_) notParent]
    rw [notChild, h.beyond n (Nat.le_refl n)] at mem
    rcases mem with mem | mem <;> cases mem

/-- What the child was started with is its own, and its parent has the other ends. -/
theorem not_shared (mem : c ∈ (S' n).duties.sources) (other : u ≠ n) :
    c ∉ (S' u).duties.sources := fun mem' =>
  h.unmade u t c (spawned.sources_eq other ▸ mem') (spawned.made_of_childSources mem)

/-- The ends that are given away are the child's, and its parent remembers it. -/
theorem channels : Channels S' ch (n + 1) where
  consistent := spawned.consistent h
  receivers := by simpa only [spawned.receivers_eq h] using h.receivers
  pending c x found receives empty :=
    have ⟨_, mem⟩ := h.pending c x found receives empty
    spawned.pending h mem
  known u c mem := by
    by_cases notChild : u = n
    · have made := spawned.made_of_childSources (notChild ▸ mem)
      obtain ⟨x, found, -⟩ := h.of_receivers (h.receivers_of_made made)
      rw [found]
      rfl
    · exact h.known u c (spawned.sources_eq notChild ▸ mem)
  parted u v c mem mem' := by
    by_cases atU : u = n <;> by_cases atV : v = n
    · rw [atU, atV]
    · exact absurd mem' (spawned.not_shared h (atU ▸ mem) atV)
    · exact absurd mem (spawned.not_shared h (atV ▸ mem') atU)
    · exact h.parted u v c (spawned.sources_eq atU ▸ mem) (spawned.sources_eq atV ▸ mem')
  unmade u v c mem made := by
    obtain ⟨notParent, made⟩ := spawned.made_of_made made
    by_cases notChild : u = n
    · have given := spawned.made_of_childSources (notChild ▸ mem)
      exact notParent
        (h.receivers.apart v t c (h.receivers_of_made made) (h.receivers_of_made given))
    · exact h.unmade u v c (spawned.sources_eq notChild ▸ mem) made
  unsettled u c mem := h.unsettled u c (spawned.made_of_made mem).2
  kin v u c mem mem' := by
    rw [spawned.receivers_eq h] at mem'
    by_cases notChild : u = n
    · have given := h.receivers_of_made (spawned.made_of_childSources (notChild ▸ mem))
      obtain rfl := h.receivers.apart v t c mem' given
      exact ⟨start.exit, by rw [spawned.parent, notChild]; exact List.mem_cons_self⟩
    · obtain ⟨e, born⟩ := h.kin v u c (spawned.sources_eq notChild ▸ mem) mem'
      exact ⟨e, spawned.born_of_born h born⟩
  exits u start' started := by
    by_cases notChild : u = n
    · rw [notChild, spawned.child] at started
      obtain rfl : start = start' := Option.some.inj started
      refine ⟨spawned.apart, fun x found _ => .inl (h.unsettled t _ ?_ x found)⟩
      rw [spawned.made]
      exact List.mem_cons_self
    · exact h.exits u start' (spawned.start_eq notChild ▸ started)
  born u v e mem := by
    -- Whoever was born before is still older than the child, which was nobody's so far.
    have starts {v : Tid} {e : ChannelId} (mem : (v, e) ∈ (S u).duties.born) :
        u < v ∧ ∃ start, (S' v).duties.start = some start ∧ start.exit = e := by
      obtain ⟨younger, start', started, same⟩ := h.born u v e mem
      refine ⟨younger, start', ?_, same⟩
      rw [spawned.start_eq fun notChild => ?_, started]
      rw [notChild, h.beyond n (Nat.le_refl n)] at started
      cases started
    by_cases notChild : u = n
    · rw [notChild, spawned.child] at mem
      cases mem
    · by_cases notParent : u = t
      · rw [notParent, spawned.parent] at mem
        rcases List.mem_cons.1 mem with same | mem
        · cases same
          exact ⟨notParent ▸ spawned.younger, start, by rw [spawned.child]; rfl, rfl⟩
        · exact starts (notParent ▸ mem)
      · exact starts (spawned.others u notChild notParent ▸ mem)
  beyond u le := by
    rw [spawned.others u (Nat.ne_of_gt le)
      (Nat.ne_of_gt (Nat.lt_trans spawned.younger le)), h.beyond u (Nat.le_of_succ_le le)]

end Spawned

end Userland
