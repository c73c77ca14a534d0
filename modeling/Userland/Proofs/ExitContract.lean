import Userland.Kernel.Exit
import Userland.Proofs.Contract
import Userland.Proofs.Descriptors

/-!
# The end of a process keeps to the rules

Step by step a process is taken apart: what it has goes to the hands of its thread, and from there
back to the volume, the pool and the channels (`wp_closeFiles`, `wp_forgetChildren`,
`wp_releaseMemory`). The process that is destroyed at last is bare, and the thread ends with nothing
(`wp_exitProcess`).
-/

namespace Userland

namespace Kernel

open ThreadProgram DeviceRequest Standing Duties

variable {α : Type} {s : Standing} {t : Tid} {p : Process} {hands : Hands} {g : Duties}
  {born : List (Tid × ChannelId)} {start : Option NewProcess}

theorem wp_remark {level : LogLevel} {text : String} {Q : Unit → Standing → Prop}
    (free : s.duties.wakes = none) (next : Q () s) : wp (remark level text) Q s :=
  wp_quiet rfl free trivial fun _ => next

theorem wp_putLine {text : String} {Q : Unit → Standing → Prop} (free : s.duties.wakes = none)
    (next : Q () s) : wp (putLine text) Q s :=
  wp_quiet rfl free trivial fun _ => next

/-- Whether a line is shown or not makes no difference to the thread. -/
theorem wp_putLine_if {shown : Prop} [Decidable shown] {text : String} {rest : ThreadProgram α}
    {Q : α → Standing → Prop} (free : s.duties.wakes = none) (next : wp rest Q s) :
    wp (if shown then putLine text >>= fun _ => rest else rest) Q s := by
  split
  · rw [wp_bind]
    exact wp_putLine free next
  · exact next

/-- Afterwards the interrupt level is what it was. -/
theorem wp_withoutInterrupts {body : ThreadProgram α} {Q : α → Standing → Prop}
    (free : s.duties.wakes = none)
    (inside : wp body
      (fun x s' => s'.duties.wakes = none ∧
        Q x ⟨{ s'.own with interrupts := s.own.interrupts }, s'.duties⟩)
      ⟨{ s.own with interrupts := .off }, s.duties⟩) :
    wp (withoutInterrupts body) Q s := by
  rw [withoutInterrupts, wp_bind]
  refine wp_ask free fun _ => ⟨trivial, fun d => ?_⟩
  rw [wp_bind]
  refine wp_mono (fun x s' after => ?_) inside
  rw [wp_bind]
  exact wp_ask after.1 fun _ => ⟨trivial, fun _ => after.2⟩

/-- Receivers are dropped one after the other. -/
theorem wp_dropReceivers {channels : List ChannelId} {Q : Unit → Standing → Prop}
    (free : s.duties.wakes = none) (made : s.duties.made = [])
    (awaited : s.duties.awaited = channels)
    (next : Q () ⟨s.own, { s.duties with awaited := [] }⟩) :
    wp (dropReceivers channels) Q s := by
  unfold dropReceivers
  induction channels generalizing s with
  | nil =>
    change Q () s
    simpa [← awaited] using next
  | cons c rest ih =>
    change wp (act (.dropReceiver c) >>= fun _ => rest.forM _) Q s
    rw [wp_bind]
    refine wp_act (fun _ => nofun) ⟨free, by simp [awaited], by simp [made]⟩ fun _ _ => ?_
    exact ih free made (by simp [Action.after, awaited]) next

/-- Closing a handle in hand. -/
theorem wp_close (hands : Hands) {h : Handle} {files rest : List Handle} {Q : Unit → Standing → Prop}
    (free : g.wakes = none) (locked : g.locked = true) (mem : h ∈ files)
    (others : files.Nodup → files.filter (· ≠ h) = rest)
    (next : Q () (host t p { hands with files := rest } g)) :
    wp (ask (close h)) Q (host t p { hands with files := files } g) := by
  refine wp_ask free fun distinct => ⟨⟨locked, mem⟩, fun d => ?_⟩
  change Q () (host t p { hands with files := files.filter (· ≠ h) } g)
  rwa [others (List.nodup_append.1 distinct).2.1]

theorem filter_ne_cons {h : Handle} {rest : List Handle} (distinct : (h :: rest).Nodup) :
    (h :: rest).filter (· ≠ h) = rest := by
  have apart := (List.nodup_cons.1 distinct).1
  rw [List.filter_cons_of_neg (by simp)]
  exact List.filter_eq_self.2 fun g mem => by simpa using fun same : g = h => apart (same ▸ mem)

/-- All handles in hand are closed, one after the other. -/
theorem wp_closeAll {files : List Handle} {Q : Unit → Standing → Prop}
    (free : g.wakes = none) (locked : g.locked = true)
    (next : Q () (host t p { hands with files := [] } g)) :
    wp (ofRoutine (closeAll files)) Q (host t p { hands with files := files } g) := by
  unfold closeAll
  induction files with
  | nil => exact next
  | cons h rest ih =>
    change wp (ask (close h) >>= fun _ => ofRoutine (rest.forM _)) Q _
    rw [wp_bind]
    exact wp_close hands free locked List.mem_cons_self filter_ne_cons ih

/-- The executable and the open files are closed. -/
theorem wp_closeFiles {executable : Option Handle} {files : List Handle}
    {Q : Unit → Standing → Prop} (free : g.wakes = none) (unlocked : g.locked = false)
    (outside : g.registry = none) (next : Q () (host t p { hands with files := [] } g)) :
    wp (closeFiles executable files) Q
      (host t p { hands with files := files ++ executable.toList } g) := by
  refine wp_withLock free unlocked outside ?_
  have rest : wp (ofRoutine (closeAll files))
      (fun x s => s.duties.wakes = none ∧ s.duties.locked = true ∧
        Q x ⟨s.own, { s.duties with locked := false }⟩)
      (host t p { hands with files := files } { g with locked := true }) := by
    refine wp_closeAll free rfl ⟨free, rfl, ?_⟩
    have same : ({ g with locked := false } : Duties) = g := by rw [← unlocked]
    simpa [host, same] using next
  cases executable with
  | none =>
    rw [Option.toList_none, List.append_nil]
    exact rest
  | some h =>
    have mem : h ∈ files ++ (some h).toList := List.mem_append_right _ (List.mem_singleton_self h)
    change wp (ask (allow h) >>= fun _ => ask (close h) >>= fun _ => ofRoutine (closeAll files)) _ _
    rw [wp_bind]
    refine wp_quiet rfl free ⟨rfl, mem⟩ fun _ => ?_
    rw [wp_bind]
    refine wp_close hands free rfl mem (fun distinct => ?_) rest
    rw [Option.toList_some, List.nodup_append_comm] at distinct
    have := filter_ne_cons distinct
    rw [List.filter_append]
    simpa using this

/-- The pages in hand are freed one after the other, in order. -/
theorem wp_freePages {space : AddressSpace} {mapped : List VirtAddr} {Q : Unit → Standing → Prop}
    (free : g.wakes = none) (left : space.pages.map (·.1) = mapped)
    (next : ∀ empty : AddressSpace, empty.pages = [] →
      Q () (host t p { hands with space := some empty } g)) :
    wp (ofRoutine (mapped.forM fun page => Routine.ask (freePage page))) Q
      (host t p { hands with space := some space } g) := by
  induction mapped generalizing space with
  | nil => exact next space (List.map_eq_nil_iff.1 left)
  | cons page rest ih =>
    change wp (ask (freePage page) >>= fun _ => ofRoutine (rest.forM _)) Q _
    rw [wp_bind]
    obtain ⟨⟨a, e⟩, tail, listed, rfl, below⟩ := List.map_eq_cons_iff.1 left
    obtain ⟨found, others⟩ := AddressSpace.unmap_head listed
    refine wp_ask free fun _ => ⟨⟨rfl, space, e, tail, rfl, listed⟩, fun d => ?_⟩
    have served : ((freePage a).serve (host t p { hands with space := some space } g).own d).2.1 =
        (host t p { hands with space := some (space.unmap a) } g).own := by
      change (serveFreePage a _ d).2.1 = _
      simp only [serveFreePage, host, found]
    rw [served]
    exact ih (others ▸ below)

/-- The space in hand is given back. -/
theorem wp_releaseSpace (hands : Hands) {space : AddressSpace} {Q : Unit → Standing → Prop}
    (free : g.wakes = none) (next : Q () (host t p { hands with space := none } g)) :
    wp (ofRoutine Loader.releaseSpace) Q (host t p { hands with space := some space } g) := by
  change wp (ask spacePages >>= fun mapped =>
    ofRoutine ((mapped.forM fun page => Routine.ask (freePage page)) >>= fun _ => _)) Q _
  rw [wp_bind]
  refine wp_ask free fun _ => ⟨trivial, fun d => ?_⟩
  rw [ofRoutine_bind, wp_bind]
  refine wp_freePages free rfl fun empty nothing => ?_
  change wp (ask dropSpace >>= fun _ => ask (log _ _)) Q _
  rw [wp_bind]
  refine wp_ask free fun _ => ⟨fun space inHand => ?_, fun d => wp_quiet rfl free trivial fun _ => next⟩
  obtain rfl := Option.some.inj inHand
  exact nothing

/-- The records of children are dropped. -/
theorem wp_forgetChildren {Q : Unit → Standing → Prop}
    (next : Q () (host t { p with children := .empty } hands (idle born start))) :
    wp (forgetChildren .process) Q (host t p hands (idle born start)) := by
  rw [forgetChildren, wp_bind]
  refine wp_withRegistry rfl rfl (wp_ask rfl fun _ => ⟨rfl, fun d => ⟨rfl, rfl, ?_⟩⟩)
  change wp _ Q (host t { p with children := .empty } hands
    { idle born start with awaited := p.children.channels ++ [] })
  split
  · rename_i none
    have none : p.children.channels = [] := List.isEmpty_iff.1 none
    rw [none]
    exact next
  · rw [wp_bind]
    exact wp_remark rfl (wp_dropReceivers rfl rfl (List.append_nil _) next)

/-- The memory of the process is given back. -/
theorem wp_releaseMemory {Q : Unit → Standing → Prop} (exiting : p.state = .exiting)
    (free : g.wakes = none) (inHand : hands.space = none)
    (next : Q () (host t { p with space := none } hands g)) :
    wp releaseMemory Q (host t p hands g) := by
  rw [releaseMemory, wp_bind]
  refine wp_withoutInterrupts free ?_
  rw [wp_bind]
  refine wp_ask free fun _ => ⟨⟨⟨p, rfl, exiting⟩, inHand⟩, fun d => ?_⟩
  have none : { hands with space := none } = hands := by rw [← inHand]
  cases memory : p.space with
  | none =>
    have served : detachSpace.serve { (host t p hands g).own with interrupts := .off } d =
        (false, { (host t p hands g).own with interrupts := .off }, d) := by
      simp only [serve, host, Belongings.space?, Option.bind_some, memory]
    rw [served, wp_bind]
    have same : { p with space := Option.none } = p := by rw [← memory]
    rw [same] at next
    exact wp_quiet rfl free trivial fun _ => ⟨free, next⟩
  | some space =>
    have served : (detachSpace.serve { (host t p hands g).own with interrupts := .off } d) =
        (true, { (host t { p with space := Option.none } { hands with space := some space } g).own
          with interrupts := .off }, d) := by
      simp only [serve, host, Belongings.space?, Option.bind_some, memory]
      rfl
    rw [served, wp_bind]
    refine wp_quiet rfl free trivial fun _ => ⟨free, ?_⟩
    refine wp_releaseSpace hands (p := { p with space := Option.none }) free ?_
    rwa [none]

/-- A bare process is destroyed without more ado. -/
theorem wp_destroyInHand {b : Belongings} {Q : Unit → Standing → Prop} (bare : p.Bare)
    (inHand : b.hands = { Hands.empty with process := some p }) (free : g.wakes = none)
    (next : Q () ⟨{ b with hands := .empty }, g⟩) : wp destroyInHand Q ⟨b, g⟩ := by
  rw [destroyInHand, wp_bind]
  refine wp_ask free fun _ => ⟨fun q held => ?_, fun d => ?_⟩
  · rw [inHand] at held
    obtain rfl := Option.some.inj held
    exact bare
  · have served : destroyProcess.serve b d =
        (some ⟨false, [], none, [], none⟩, { b with hands := .empty }, d) := by
      change serveDestroyProcess b d = _
      simp only [serveDestroyProcess, inHand, bare.space, bare.files, bare.executable,
        bare.children, bare.exitSignal]
      rfl
    rw [served]
    exact next

theorem wp_exitThread (Q : α → Standing → Prop) (done : s.Done) : wp exitThread Q s := by
  rw [exitThread, wp_bind]
  refine wp_quiet rfl done.free.wakes trivial fun _ _ => ⟨done, fun answer => ?_⟩
  exact nomatch answer

/-- A process that has only its bare self left is detached and destroyed, and the thread ends. -/
theorem wp_endBare {born : List (Tid × ChannelId)} {start : Option NewProcess}
    (Q : α → Standing → Prop) (bare : p.Bare) :
    wp (withoutInterrupts (ask detachProcess) >>= fun _ => destroyInHand >>= fun _ => exitThread) Q
      (host t p .empty (idle born start)) := by
  rw [wp_bind]
  refine wp_withoutInterrupts rfl (wp_ask rfl fun _ => ⟨⟨rfl, fun q hosted => ?_⟩, fun d => ?_⟩)
  · obtain rfl := Option.some.inj hosted
    exact bare
  · refine ⟨rfl, ?_⟩
    rw [wp_bind]
    refine wp_destroyInHand bare rfl rfl (wp_exitThread Q ?_)
    exact ⟨rfl, rfl, rfl, rfl, free_idle born start⟩

/-- Whatever a process has, its end leaves the thread with nothing. -/
theorem wp_exitProcess {born : List (Tid × ChannelId)} {start : NewProcess}
    (told : p.exitSignal = some start.exit) (status : Int32) (Q : α → Standing → Prop) :
    wp (exitProcess status) Q (host t p .empty (idle born (some start))) := by
  unfold exitProcess
  rw [wp_bind]
  refine wp_ask rfl fun _ => ⟨trivial, fun d => ?_⟩
  dsimp only [serve, host]
  rw [wp_bind]
  refine wp_ask rfl fun _ => ⟨trivial, fun d => ?_⟩
  refine wp_putLine_if rfl ?_
  rw [wp_bind]
  refine wp_ask rfl fun _ => ⟨rfl, fun d => ?_⟩
  rw [wp_bind]
  refine wp_remark rfl ?_
  rw [wp_bind]
  refine wp_ask rfl fun _ => ⟨trivial, fun d => ?_⟩
  -- The process has an exit signal, and it is the thread's now.
  change wp _ Q
    (host t { p with exitStatus := some status, state := .exiting, exitSignal := none } .empty
      { idle born (some start) with given := p.exitSignal.toList ++ [] })
  rw [told]
  split
  swap
  · rename_i nothing
    cases nothing.symm.trans told
  rename_i c given
  obtain rfl : c = start.exit := Option.some.inj (given.symm.trans told)
  rw [wp_bind, wp_discard]
  refine wp_send rfl List.mem_cons_self ⟨start, rfl, .inr ⟨rfl, status, rfl⟩⟩ fun _ => ?_
  change wp _ Q (host t { p with exitStatus := some status, state := .exiting, exitSignal := none }
    .empty { idle born (some start) with given := [start.exit].erase start.exit })
  rw [List.erase_cons_head, wp_bind]
  refine wp_ask rfl fun _ => ⟨⟨_, rfl, rfl⟩, fun d => ?_⟩
  rw [wp_bind]
  refine wp_ask rfl fun _ => ⟨⟨_, rfl, rfl⟩, fun d => ?_⟩
  -- All handles are in hand now.
  change wp (closeFiles p.executable p.files.files >>= fun _ => _) Q
    (host t
      { p with
        exitStatus := some status, state := .exiting, exitSignal := none
        executable := none, files := p.files.drainAll.2 }
      { Hands.empty with files := p.files.files ++ (p.executable.toList ++ []) }
      (idle born (some start)))
  rw [List.append_nil, wp_bind]
  refine wp_closeFiles rfl rfl rfl ?_
  rw [wp_bind]
  refine wp_forgetChildren ?_
  rw [wp_bind]
  refine wp_releaseMemory rfl rfl rfl ?_
  exact wp_endBare Q ⟨rfl, DescriptorTable.files_drainAll _, rfl, rfl, rfl⟩

end Kernel

end Userland
