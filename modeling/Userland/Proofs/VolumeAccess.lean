import Userland.Proofs.LockSteps
import Userland.Proofs.VolumeRequests
import Userland.Proofs.Waits

/-!
# Who may use the volume and the registries

The volume changes only when a thread makes a request that goes to it (`Machine.volume_turn`). In a run of the
kernel the thread that does so holds the lock on the volume. So it is with the registries of children, each of
which has a lock of its own. A thread takes no lock while it holds one, and does not sleep before it has freed
it (`Scenario.guards_volume`).
-/

namespace Userland

/-- The registry of children to which a request goes, if any. -/
def DeviceRequest.registry? : DeviceRequest → Option Family
  | .children family => some family
  | r => r.family?

namespace Machine

variable {env : Environment} {m : Machine}

variable (env m) in
/-- When the volume changes, a thread makes a request that goes to it. -/
theorem volume_turn (what : Turn) : (m.turn env what).devices.volume = m.devices.volume ∨
    ∃ t r next, m.Attempts what t (.device r) next ∧ r.onVolume = true ∧
      (m.turn env what).devices.volume = (r.serve (m.thread t).own m.devices).2.2.volume := by
  rcases m.serve_turn env what with ⟨t, r, next, attempts, turned⟩ | idle
  · rw [turned]
    cases goes : r.onVolume with
    | false => exact .inl (DeviceRequest.volume_serve goes _ _)
    | true => exact .inr ⟨t, r, next, attempts, goes, rfl⟩
  · exact .inl idle.volume

end Machine

/-! ## Runs -/

namespace Scenario

variable {x : Scenario} {turns : ℕ → Turn} {i : ℕ} {t : Tid}

/-- A thread holds the lock on the volume. -/
def HoldsVolume (x : Scenario) (turns : ℕ → Turn) (i : ℕ) (t : Tid) : Prop :=
  ((x.machineAt turns i).lock Kernel.volumeLock).holder = some t

theorem holdsVolume_iff : x.HoldsVolume turns i t ↔ (x.standingAt turns i t).duties.locked = true :=
  (x.sound turns i).sleepers.holder t

/-- The lock is held by the thread that makes a request to the volume. -/
theorem holdsVolume_of_onVolume {r : DeviceRequest} {next : r.Answer → ThreadProgram Unit}
    (here : x.programAt turns i t = Program.ask (Action.device r) next) (goes : r.onVolume = true) :
    x.HoldsVolume turns i t := by
  have permitted : r.Permitted (x.standingAt turns i t) := (allowed_at here).2
  rw [holdsVolume_iff]
  cases r with
  | create | remove | read | write | seek | tell | length => exact permitted
  | openFile | deny | allow | close => exact permitted.1
  | _ => cases goes

/-- A thread holds the lock on a registry. -/
def HoldsRegistry (x : Scenario) (turns : ℕ → Turn) (i : ℕ) (t : Tid) (family : Family) : Prop :=
  (t, family) ∈ (x.machineAt turns i).registries

theorem holdsRegistry_iff {family : Family} :
    x.HoldsRegistry turns i t family ↔ (x.standingAt turns i t).duties.registry = some family :=
  (x.sound turns i).registered t family

/-- The lock on a registry is held by the thread that makes a request to it. -/
theorem holdsRegistry_of_registry? {r : DeviceRequest} {family : Family}
    (permitted : r.Permitted (x.standingAt turns i t)) (goes : r.registry? = some family) :
    x.HoldsRegistry turns i t family := by
  rw [holdsRegistry_iff]
  cases r with
  | register family' child exit =>
    obtain rfl := Option.some.inj goes
    exact permitted.2.2.2.2.2
  | takeChild family' | takeChildren family' | children family' =>
    obtain rfl := Option.some.inj goes
    exact permitted
  | _ => cases goes

/-- A thread holds a lock, be it that on the volume or on a registry. -/
def HoldsLock (x : Scenario) (turns : ℕ → Turn) (i : ℕ) (t : Tid) : Prop :=
  x.HoldsVolume turns i t ∨ ∃ family, x.HoldsRegistry turns i t family

theorem not_holdsLock_iff : ¬x.HoldsLock turns i t ↔ (x.standingAt turns i t).duties.locked = false ∧
    (x.standingAt turns i t).duties.registry = none := by
  simp only [HoldsLock, holdsVolume_iff, holdsRegistry_iff, not_or, Bool.not_eq_true, not_exists,
    Option.eq_none_iff_forall_ne_some, ne_eq]

/-- Who is about to take the lock on the volume, or to receive, holds no lock. -/
theorem not_holdsLock {a : Action} {next : a.Answer → ThreadProgram Unit}
    (here : x.programAt turns i t = Program.ask a next)
    (waits : a = .lock Kernel.volumeLock ∨ ∃ c, a = .receive c) : ¬x.HoldsLock turns i t := by
  have allowed := allowed_at here
  rw [not_holdsLock_iff]
  obtain rfl | ⟨c, rfl⟩ := waits
  · exact ⟨allowed.2.1, allowed.2.2.2⟩
  · exact ⟨allowed.2.1, allowed.2.2.2.2⟩

/-- A thread that sleeps, or is about to, waits for the lock or for a channel. -/
theorem aim_of_rests (rests : ((x.machineAt turns i).thread t).Rests) :
    ((x.machineAt turns i).thread t).aim = some (.lock Kernel.volumeLock) ∨
      ∃ c, ((x.machineAt turns i).thread t).aim = some (.receive c) := by
  have sleepers := (x.sound turns i).sleepers
  rcases sleepers.rests t rests with queued | ⟨c, awaits⟩
  · exact .inl (sleepers.queues t queued).2
  · exact .inr ⟨c, awaits.receives⟩

/-- A thread that asks for the lock on a registry holds none on any, and gets it. -/
theorem takes_registry {family : Family} {next : Unit → ThreadProgram Unit}
    (here : x.programAt turns i t = Program.ask (Action.lockRegistry family) next) :
    (∀ other, ¬x.HoldsRegistry turns i t other) ∧ (x.Goes turns i t →
      x.HoldsRegistry turns (i + 1) t family ∧ x.programAt turns (i + 1) t = next ()) := by
  obtain ⟨-, outside⟩ : _ ∧ (x.standingAt turns i t).duties.registry = none := allowed_at here
  refine ⟨fun other holds => ?_, fun goes => ?_⟩
  · exact nomatch outside.symm.trans (holdsRegistry_iff.1 holds)
  have does : x.Does turns i t (.lockRegistry family) () := by
    refine ⟨⟨next, here⟩, (goes.told _).trans (Machine.answer?_lockRegistry ?_)⟩
    exact (x.sound turns i).registry_free here
  refine ⟨holdsRegistry_iff.2 ?_, does.next here⟩
  rw [does.follows.2.duties_eq]
  rfl

/-- A thread that frees the lock on a registry holds it, and then holds it no more. -/
theorem frees_registry {family : Family} {next : Unit → ThreadProgram Unit}
    (here : x.programAt turns i t = Program.ask (Action.unlockRegistry family) next) :
    x.HoldsRegistry turns i t family ∧
      (x.Goes turns i t → ∀ other, ¬x.HoldsRegistry turns (i + 1) t other) := by
  obtain ⟨-, holds⟩ : _ ∧ (x.standingAt turns i t).duties.registry = some family := allowed_at here
  refine ⟨holdsRegistry_iff.2 holds, fun goes other holds => ?_⟩
  have does : x.Does turns i t (.unlockRegistry family) () := ⟨⟨next, here⟩, goes.told _⟩
  rw [holdsRegistry_iff, does.follows.2.duties_eq] at holds
  cases holds

/-- The records of a thread change only while it holds the lock on their registry. -/
theorem holdsRegistry_of_alters {family : Family} (inside : t < (x.machineAt turns i).threads.size)
    (alters : ((x.machineAt turns (i + 1)).thread t).own.children family ≠
      ((x.machineAt turns i).thread t).own.children family) : x.HoldsRegistry turns i t family := by
  by_cases does : ∃ a answer, x.Does turns i t a answer
  swap
  · refine absurd (congrArg (·.own.children family) (standingAt_succ_of_silent inside fun a next here => ?_)) alters
    cases told : x.toldAt turns i t a with
    | none => rfl
    | some answer => exact absurd ⟨a, answer, ⟨next, here⟩, told⟩ does
  obtain ⟨a, answer, does⟩ := does
  obtain ⟨allowed, follows⟩ := does.follows
  by_cases device : ∃ r, a = .device r
  swap
  · exact absurd (congrArg (·.children family) (follows.own_eq fun r same => device ⟨r, same⟩)) alters
  obtain ⟨r, rfl⟩ := device
  obtain ⟨d, own⟩ := follows.own_serve
  have changes : (r.serve (x.standingAt turns i t).own d).2.1.children family ≠
      (x.standingAt turns i t).own.children family := own ▸ alters
  cases works : r.family? with
  | none =>
    refine absurd (DeviceRequest.children_serve ?_ allowed.2 family) changes
    cases r <;> first | rfl | cases works
  | some family' =>
    obtain ⟨f, served⟩ := DeviceRequest.own_of_family? works (x.standingAt turns i t).own d
    obtain rfl : family = family' := by
      by_contra other
      rw [served] at changes
      exact changes (Belongings.children_modifyChildren_of_ne other)
    refine holdsRegistry_of_registry? allowed.2 ?_
    cases r <;> first | exact works | cases works

/-- How threads use the volume, the registries and their locks in a run. -/
structure GuardsVolume (x : Scenario) (turns : ℕ → Turn) : Prop where
  /-- Who makes a request to the volume or a file holds the lock. -/
  requests : ∀ i t (r : DeviceRequest) next, x.Goes turns i t →
    x.programAt turns i t = Program.ask (Action.device r) next → r.onVolume = true →
    x.HoldsVolume turns i t
  /-- A request of another kind neither looks at the volume nor changes it. -/
  others : ∀ (r : DeviceRequest) b d v, r.onVolume = false → r.serve b { d with volume := v } =
    ((r.serve b d).1, (r.serve b d).2.1, { (r.serve b d).2.2 with volume := v })
  /-- The volume changes at no other time. -/
  changes : ∀ i, (x.machineAt turns (i + 1)).devices.volume ≠ (x.machineAt turns i).devices.volume →
    ∃ t r next, x.Goes turns i t ∧ x.programAt turns i t = Program.ask (Action.device r) next ∧
      r.onVolume = true
  /-- A thread whose handle is nobody's any more has just closed it, and holds the lock. -/
  closes : ∀ i t h, h ∈ ((x.machineAt turns i).thread t).own.handles →
    (∀ u, h ∉ ((x.machineAt turns (i + 1)).thread u).own.handles) →
    x.Goes turns i t ∧ (∃ next, x.programAt turns i t = Program.ask (Action.device (.close h)) next) ∧
      x.HoldsVolume turns i t
  /-- Who makes a request to a registry holds the lock on it. -/
  records : ∀ i t (r : DeviceRequest) family next, x.Goes turns i t →
    x.programAt turns i t = Program.ask (Action.device r) next → r.registry? = some family →
    x.HoldsRegistry turns i t family
  /-- The records in a registry change only while its thread holds the lock on it. -/
  alters : ∀ i t family, t < (x.machineAt turns i).threads.size →
    ((x.machineAt turns (i + 1)).thread t).own.children family ≠
      ((x.machineAt turns i).thread t).own.children family → x.HoldsRegistry turns i t family
  /-- Who asks for the lock on a registry holds none on any, and gets it at once. -/
  takes : ∀ i t family next, x.programAt turns i t = Program.ask (Action.lockRegistry family) next →
    (∀ other, ¬x.HoldsRegistry turns i t other) ∧ (x.Goes turns i t →
      x.HoldsRegistry turns (i + 1) t family ∧ x.programAt turns (i + 1) t = next ())
  /-- Who frees the lock on a registry holds it, and then none. -/
  frees : ∀ i t family next, x.programAt turns i t = Program.ask (Action.unlockRegistry family) next →
    x.HoldsRegistry turns i t family ∧
      (x.Goes turns i t → ∀ other, ¬x.HoldsRegistry turns (i + 1) t other)
  /-- Who asks for the lock on the volume holds neither it nor that on a registry. -/
  once : ∀ i t next, x.programAt turns i t = Program.ask (Action.lock Kernel.volumeLock) next →
    ¬x.HoldsLock turns i t
  /-- Who receives from a channel holds no lock. -/
  receives : ∀ i t c next, x.programAt turns i t = Program.ask (Action.receive c) next →
    ¬x.HoldsLock turns i t
  /-- Who sleeps, or is about to, holds no lock: it waits for the lock on the volume or for a channel. -/
  rests : ∀ i t, ((x.machineAt turns i).thread t).Rests → ¬x.HoldsLock turns i t ∧
    (((x.machineAt turns i).thread t).aim = some (.lock Kernel.volumeLock) ∨
      ∃ c, ((x.machineAt turns i).thread t).aim = some (.receive c))

/-- A handle that is open no more was closed by the thread that had it. -/
theorem closes_of_notMem {h : Handle} (has : h ∈ ((x.machineAt turns i).thread t).own.handles)
    (gone : ∀ u, h ∉ ((x.machineAt turns (i + 1)).thread u).own.handles) : x.Goes turns i t ∧
      ∃ next, x.programAt turns i t = Program.ask (Action.device (.close h)) next := by
  have before := (x.sound turns i).handles
  have live : (x.machineAt turns i).devices.volume.isOpen h = true := (before.live h).2 ⟨t, has⟩
  have closed : (x.machineAt turns (i + 1)).devices.volume.isOpen h = false := by
    by_contra still
    obtain ⟨u, mem⟩ := ((x.sound turns (i + 1)).handles.live h).1 (by simpa using still)
    exact gone u mem
  rcases Machine.volume_turn x.environment (x.machineAt turns i) (turns i) with
    same | ⟨u, r, next, attempts, -, volume⟩
  · exact nomatch closed.symm.trans ((congrArg (Volume.isOpen · h) same).trans live)
  obtain rfl : r = .close h := by
    by_contra other
    exact nomatch closed.symm.trans ((congrArg (Volume.isOpen · h) volume).trans
      (DeviceRequest.isOpen_serve other live))
  -- Only a thread that has the handle may close it.
  have permitted : _ ∧ h ∈ (x.standingAt turns i u).own.hands.files :=
    (allowed_at (x := x) (i := i) (t := u) attempts.does).2
  obtain rfl : u = t := before.apart u t h (List.mem_append_right _ permitted.2) has
  exact ⟨goes_of_attempts attempts, next, attempts.does⟩

/-- The volume is used by one thread at a time, and a registry by its thread, which holds the lock and does
    not sleep meanwhile. -/
theorem guards_volume (x : Scenario) (turns : ℕ → Turn) : x.GuardsVolume turns where
  requests _ _ _ _ _ here goes := holdsVolume_of_onVolume here goes
  others _ b d v other := DeviceRequest.serve_setVolume other b d v
  changes i changed := by
    obtain ⟨t, r, next, attempts, goes, -⟩ :=
      (Machine.volume_turn x.environment (x.machineAt turns i) (turns i)).resolve_left changed
    exact ⟨t, r, next, goes_of_attempts attempts, attempts.does, goes⟩
  closes i t h has gone := by
    obtain ⟨goes, next, here⟩ := closes_of_notMem has gone
    exact ⟨goes, ⟨next, here⟩, holdsVolume_of_onVolume here rfl⟩
  records _ _ _ _ _ _ here goes := holdsRegistry_of_registry? (allowed_at here).2 goes
  alters _ _ _ inside alters := holdsRegistry_of_alters inside alters
  takes _ _ _ _ here := takes_registry here
  frees _ _ _ _ here := frees_registry here
  once _ _ _ here := not_holdsLock here (.inl rfl)
  receives _ _ c _ here := not_holdsLock here (.inr ⟨c, rfl⟩)
  rests i t rests := by
    refine ⟨?_, aim_of_rests rests⟩
    obtain ⟨unlocked, -, outside⟩ := (x.sound turns i).idle_of_rests rests
    exact not_holdsLock_iff.2 ⟨unlocked, outside⟩

end Scenario

end Userland
