import Userland.Proofs.Custody
import Userland.Proofs.LoadSignals

/-!
# Children whose programs are not loaded

A child that cannot load its program has neither a frame nor a handle from then on, whatever it has yet
to tell and to take apart (`Scenario.Makes.bare_of_failed`): when its load is over all has been given
back, and what it does afterwards brings nothing into use (`Follows.bare`).
-/

namespace Userland

open ThreadProgram

/-- There is nothing that is in use. -/
structure Belongings.Bare (b : Belongings) : Prop where
  /-- There is no frame. -/
  frames : b.frames = []
  /-- There is no handle. -/
  handles : b.handles = []

/-- Who has nothing gets nothing if nothing comes into use. -/
theorem Flow.nil {α : Type} [DecidableEq α] {own' : List α} {live live' : α → Bool}
    (flow : Flow [] own' live live') (sheds : ∀ x, live' x = true → live x = true) : own' = [] := by
  cases flow with
  | keep same => exact same.eq_nil
  | take y _ new all => exact nomatch new.symm.trans (sheds y (by simp [all]))
  | give y lost => exact absurd lost.symm (List.cons_ne_nil y own' ·.eq_nil)

namespace DeviceRequest

variable {r : DeviceRequest} {f : Frame} {h : Handle}

/-- A frame comes into use when it is handed out. -/
theorem inUse_of_sheds (sheds : (Action.device r).acquires = false) (b : Belongings) (d : Devices)
    (used : (r.serve b d).2.2.pool.inUse f = true) : d.pool.inUse f = true := by
  refine ((r.inUse_serve b d f).1 used).1.resolve_right ?_
  cases r with
  | allocate => cases sheds
  | _ => exact List.not_mem_nil

/-- A handle comes into use when a file is opened. -/
theorem isOpen_of_sheds (sheds : (Action.device r).acquires = false) (b : Belongings) (d : Devices)
    (opened : (r.serve b d).2.2.volume.isOpen h = true) : d.volume.isOpen h = true := by
  cases moves : r.movesHandle with
  | false => exact (sameOpen_serve moves b d).isOpen h ▸ opened
  | true =>
    cases r with
    | openFile => cases sheds
    | close file =>
      change (d.volume.close file).isOpen h = true at opened
      rw [Volume.isOpen_close, Bool.and_eq_true] at opened
      exact opened.2
    | _ => cases moves

end DeviceRequest

/-- Who has nothing, and brings nothing into use, has nothing afterwards. -/
theorem Follows.bare {a : Action} {answer : a.Answer} {s s' : Standing} (follows : Follows a s answer s')
    (allowed : Allowed a s) (sheds : a.acquires = false) (bare : s.own.Bare) : s'.own.Bare := by
  cases follows with
  | act a s answer other promise => exact bare
  | device r s d =>
    have frames := DeviceRequest.frames_flow (d := d) allowed.2
    have handles := DeviceRequest.handles_flow (d := d) allowed.2 (bare.handles ▸ List.nodup_nil)
    rw [bare.frames] at frames
    rw [bare.handles] at handles
    exact ⟨frames.nil fun f => DeviceRequest.inUse_of_sheds sheds s.own d,
      handles.nil fun h => DeviceRequest.isOpen_of_sheds sheds s.own d⟩

/-- Who has nothing, and is to bring nothing into use, has nothing later. -/
theorem Advances.bare {blocks : ℕ → ThreadProgram Unit} {told : ∀ a : Action, Option a.Answer}
    {p p' : ThreadProgram Unit} {s s' : Standing} (advances : Advances blocks told p s p' s') (bare : s.own.Bare)
    (sheds : p.Only (fun a : Action => a.acquires = false) fun _ => True) :
    s'.own.Bare ∧ p'.Only (fun a : Action => a.acquires = false) fun _ => True := by
  cases advances with
  | rest => exact ⟨bare, sheds⟩
  | go _ allowed follows => exact ⟨follows.bare allowed sheds.1 bare, sheds.2 _⟩
  | goto => cases sheds.1
  | finish => exact ⟨bare, trivial⟩

namespace Scenario

variable {x : Scenario} {turns : ℕ → Turn} {i j k b : ℕ} {t u : Tid} {start : NewProcess}

/-- As long as a part of what a thread does lasts, the thread keeps to the rules in it. -/
theorem wp_at {α : Type} {p : ThreadProgram α} {next : α → ThreadProgram Unit} {Q : α → Standing → Prop}
    {d : ℕ} (here : x.programAt turns b t = p >>= next) (inside : t < (x.machineAt turns b).threads.size)
    (remains : p.Remains) (keeps : p.wp Q (x.standingAt turns b t))
    (ongoing : ∀ e < d, ∀ r, x.leftAt turns t p b e ≠ Program.pure r) :
    x.programAt turns (b + d) t = x.leftAt turns t p b d >>= next ∧
      wp (x.leftAt turns t p b d) Q (x.standingAt turns (b + d) t) := by
  have alive (e : ℕ) (le : e ≤ d) : x.programAt turns (b + e) t = x.leftAt turns t p b e >>= next :=
    programAt_of_remains here inside remains fun e' early => ongoing e' (Nat.lt_of_lt_of_le early le)
  exact ⟨alive d (Nat.le_refl d), part_at (K := (wp · Q)) inside keeps ongoing alive
    fun e _ _ answer s' keeps _ follows => (keeps ((x.sound turns (b + e)).handles.once t)).2 answer s' follows⟩

/-- A child that cannot load its program has nothing when its load is over, and brings nothing into use
    from then on. -/
theorem Makes.bare_of_failed (makes : x.Makes turns k t start u) {e : LoadError}
    (failed : x.LoadGives turns u start k (.error e) i) :
    (x.standingAt turns i u).own.Bare ∧
      (x.programAt turns i u).Only (fun a : Action => a.acquires = false) fun _ => True := by
  obtain ⟨d, rfl, left⟩ := failed
  obtain ⟨d₀, le, left, ongoing⟩ := leftAt_first left
  obtain ⟨after, here, -, sheds⟩ := makes.loads
  have inside {j : ℕ} (later : k < j) : u < (x.machineAt turns j).threads.size := makes.inside later
  -- When the load is over, nothing is left of it.
  obtain ⟨here, bare⟩ := wp_at (Q := fun result s => ∀ e, result = .error e → s.own.Bare) here
    (inside (Nat.lt_succ_self k)) Kernel.remains_loading
    (makes.stands ▸ Kernel.wp_loading (fun _ _ _ => ⟨rfl, rfl⟩) fun _ _ _ => nofun) ongoing
  rw [left] at here bare
  -- From then on nothing comes into use.
  obtain ⟨f, rfl⟩ := Nat.exists_eq_add_of_le le
  rw [← Nat.add_assoc]
  clear left le
  induction f with
  | zero => exact ⟨bare e rfl, here ▸ sheds e⟩
  | succ f ih =>
    have later := @inside (k + 1 + d₀ + f) (by omega)
    exact ((x.sound turns _).advances x.lawful (turns _) later).bare ih.1 ih.2

end Scenario

end Userland
