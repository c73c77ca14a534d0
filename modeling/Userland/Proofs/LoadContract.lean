import Userland.Executable.Loader
import Userland.Proofs.ExitContract

/-!
# Loading a program keeps to the rules

While a program is loaded its thread has the space and the handle on the executable in hand, and for
a while a frame (`wp_loadPages`). If the program is loaded that is what is in hand; if not, nothing is
(`wp_load`).
-/

namespace Userland.Loader

open ThreadProgram DeviceRequest Standing

variable {t : Tid} {p : Process} {g : Duties} {space : AddressSpace} {files : List Handle}

/-- What is in hand between one page and the next. -/
def filling (space : AddressSpace) (files : List Handle) : Hands := ⟨some space, none, files, none⟩

/-- A frame comes in hand, or there is none left. -/
theorem wp_allocate {Q : Bool → Standing → Prop} (loading : p.state = .loading)
    (free : g.wakes = none)
    (given : ∀ f, Q true (host t p { filling space files with frame := some f } g))
    (refused : Q false (host t p (filling space files) g)) :
    wp (ask allocate) Q (host t p (filling space files) g) := by
  refine wp_ask free fun _ => ⟨⟨⟨p, rfl, loading⟩, rfl⟩, fun d => ?_⟩
  simp only [serve, serveAllocate]
  split
  · exact given _
  · exact refused

/-- The frame in hand goes into the space in hand, or back to the pool. -/
theorem wp_mapFrame {f : Frame} {page : VirtAddr} {writable : Bool}
    {Q : Except MappingError Unit → Standing → Prop} (free : g.wakes = none)
    (next : ∀ result space, Q result (host t p (filling space files) g)) :
    wp (ask (mapFrame page writable)) Q
      (host t p { filling space files with frame := some f } g) := by
  refine wp_ask free fun _ => ⟨rfl, fun d => ?_⟩
  simp only [serve, serveMapFrame, host, filling]
  split
  · exact next _ _
  · exact next _ _

theorem wp_freeFrame {f : Frame} {Q : Unit → Standing → Prop} (free : g.wakes = none)
    (next : Q () (host t p (filling space files) g)) :
    wp (ask freeFrame) Q (host t p { filling space files with frame := some f } g) :=
  wp_ask free fun _ => ⟨rfl, fun _ => next⟩

/-- Whether or not all pages are mapped, no frame is left in hand. -/
theorem wp_loadPages {file : Handle} {writable : Bool} {page readBytes count : Nat}
    {Q : Except LoadError Unit → Standing → Prop} (loading : p.state = .loading)
    (free : g.wakes = none) (locked : g.locked = true)
    (next : ∀ result space, Q result (host t p (filling space files) g)) :
    wp (ofRoutine (loadPages file writable page readBytes count)) Q
      (host t p (filling space files) g) := by
  induction count generalizing page readBytes space with
  | zero => exact next _ _
  | succ count ih =>
    rw [loadPages, wp_routine_bind]
    refine wp_allocate loading free (fun f => ?_) (next _ _)
    rw [if_pos rfl]
    dsimp only
    rw [wp_routine_bind]
    refine wp_quiet rfl free locked fun data => ?_
    split
    · rw [wp_routine_bind]
      refine wp_quiet rfl free trivial fun _ => ?_
      rw [wp_routine_bind]
      refine wp_quiet rfl free trivial fun _ => ?_
      rw [wp_routine_bind]
      refine wp_mapFrame free fun result space => ?_
      cases result with
      | ok => exact ih
      | error e => exact next _ _
    · rw [wp_routine_bind]
      exact wp_freeFrame free (next _ _)

theorem wp_loadSegments {file : Handle} {fileLength : UInt32} {offset segments : Nat}
    {Q : Except LoadError Unit → Standing → Prop} (loading : p.state = .loading)
    (free : g.wakes = none) (locked : g.locked = true)
    (next : ∀ result space, Q result (host t p (filling space files) g)) :
    wp (ofRoutine (loadSegments file fileLength offset segments)) Q
      (host t p (filling space files) g) := by
  induction segments generalizing offset space with
  | zero => exact next _ _
  | succ segments ih =>
    rw [loadSegments]
    split
    · exact next _ _
    rw [wp_routine_bind]
    refine wp_quiet rfl free locked fun _ => ?_
    rw [wp_routine_bind]
    refine wp_quiet rfl free locked fun raw => ?_
    split
    · exact next _ _
    split
    · exact next _ _
    split
    · exact next _ _
    · rename_i header _
      split
      · exact next _ _
      split
      · split
        · exact next _ _
        · rw [wp_routine_bind, loadSegment, wp_routine_bind]
          refine wp_quiet rfl free locked fun _ => ?_
          refine wp_loadPages loading free locked fun result space => ?_
          cases result with
          | error e => exact next _ _
          | ok => exact ih
      · exact ih

theorem wp_loadStack {arguments : List String} {Q : Except LoadError VirtAddr → Standing → Prop}
    (loading : p.state = .loading) (free : g.wakes = none)
    (next : ∀ result space, Q result (host t p (filling space files) g)) :
    wp (ofRoutine (loadStack arguments)) Q (host t p (filling space files) g) := by
  rw [loadStack, wp_routine_bind]
  refine wp_allocate loading free (fun f => ?_) (next _ _)
  rw [if_pos rfl]
  split
  · rw [wp_routine_bind]
    exact wp_freeFrame free (next _ _)
  · rw [wp_routine_bind]
    refine wp_quiet rfl free trivial fun _ => ?_
    rw [wp_routine_bind]
    refine wp_mapFrame free fun result space => ?_
    cases result with
    | ok => exact next _ _
    | error e => exact next _ _

theorem wp_loadImage {file : Handle} {arguments : List String}
    {Q : Except LoadError (VirtAddr × VirtAddr) → Standing → Prop} (loading : p.state = .loading)
    (free : g.wakes = none) (locked : g.locked = true)
    (next : ∀ result space, Q result (host t p (filling space files) g)) :
    wp (ofRoutine (loadImage file arguments)) Q
      (host t p { Hands.empty with files := files } g) := by
  rw [loadImage, wp_routine_bind]
  refine wp_ask free fun _ => ⟨⟨⟨p, rfl, loading⟩, rfl⟩, fun d => ?_⟩
  change wp _ Q (host t p (filling (.empty d.spacesMade) files) g)
  rw [wp_routine_bind]
  refine wp_quiet rfl free locked fun raw => ?_
  split
  · exact next _ _
  split
  · exact next _ _
  · rw [wp_routine_bind]
    refine wp_quiet rfl free locked fun _ => ?_
    rw [wp_routine_bind]
    refine wp_loadSegments loading free locked fun result space => ?_
    cases result with
    | error e => exact next _ _
    | ok =>
      dsimp only
      rw [wp_routine_bind]
      refine wp_loadStack loading free fun result space => ?_
      cases result with
      | error e => exact next _ _
      | ok stack => exact next _ _

/-- If a file is opened its handle is in hand. -/
theorem wp_openFile {path : String} {Q : Option Handle → Standing → Prop} (free : g.wakes = none)
    (locked : g.locked = true) (missing : Q none (host t p .empty g))
    (opened : ∀ h, Q (some h) (host t p { Hands.empty with files := [h] } g)) :
    wp (ask (openFile path)) Q (host t p .empty g) := by
  refine wp_ask free fun _ => ⟨⟨locked, rfl, rfl⟩, fun d => ?_⟩
  simp only [serve]
  split
  · exact opened _
  · exact missing

/-- A loaded program is in hand; if none was loaded nothing is. -/
theorem wp_load {arguments : List String} {Q : Except LoadError LoadedProgram → Standing → Prop}
    (loading : p.state = .loading) (free : g.wakes = none) (locked : g.locked = true)
    (failed : ∀ e, Q (.error e) (host t p .empty g))
    (loaded : ∀ program space,
      Q (.ok program) (host t p (filling space [program.executable]) g)) :
    wp (ofRoutine (load arguments)) Q (host t p .empty g) := by
  unfold load
  split
  · exact failed _
  rw [wp_routine_bind]
  refine wp_openFile free locked (failed _) fun file => ?_
  dsimp only
  rw [wp_routine_bind]
  refine wp_quiet rfl free ⟨locked, List.mem_singleton_self file⟩ fun _ => ?_
  rw [wp_routine_bind]
  refine wp_loadImage loading free locked fun result space => ?_
  cases result with
  | ok image =>
    dsimp only
    rw [wp_routine_bind]
    refine wp_quiet rfl free trivial fun mapped => ?_
    rw [wp_routine_bind]
    exact wp_quiet rfl free trivial fun _ => loaded _ _
  | error e =>
    dsimp only
    rw [wp_routine_bind]
    refine Kernel.wp_releaseSpace { Hands.empty with files := [file] } free ?_
    rw [wp_routine_bind]
    refine wp_quiet rfl free trivial fun _ => ?_
    rw [wp_routine_bind]
    refine wp_quiet rfl free ⟨locked, List.mem_singleton_self file⟩ fun _ => ?_
    rw [wp_routine_bind]
    exact Kernel.wp_close .empty free locked (List.mem_singleton_self file)
      (fun distinct => Kernel.filter_ne_cons distinct) (failed e)

end Userland.Loader
