import Userland.Proofs.LoadContract
import Userland.Proofs.Registry
import Userland.Proofs.Scenario

/-!
# Processes keep to the rules

A thread that starts a child has in the end either the record of a loaded child or nothing new
(`starts_execute`), and a thread that waits gives the record of the child away (`wp_awaitChild`). Whatever
a program does, between two system calls its thread has nothing in hand and nothing to see to
(`Standing.Running`, `steady_syscall`). So the thread of a process keeps to the rules from its start to
its end (`wp_startProcess`), and so does the first thread (`boots_run`).
-/

namespace Userland

open ThreadProgram DeviceRequest Standing Duties

namespace Belongings

variable {b : Belongings} {family : Family}

/-- The registry of a family is what it was changed to. -/
theorem children_modifyChildren {f : Children → Children}
    (hosted : family = .process → b.process.isSome = true) :
    (b.modifyChildren f family).children family = f (b.children family) := by
  cases family with
  | process =>
    obtain ⟨p, hosts⟩ := Option.isSome_iff_exists.1 (hosted rfl)
    simp [modifyChildren, children, modifyProcess, hosts]
  | kin => rfl
  | initial => rfl

theorem modifyChildren_modifyChildren {f f' : Children → Children} :
    (b.modifyChildren f family).modifyChildren f' family =
      b.modifyChildren (fun r => f' (f r)) family := by
  cases family with
  | process => simp [modifyChildren, modifyProcess, Function.comp_def]
  | kin => rfl
  | initial => rfl

theorem modifyChildren_eq_self {f : Children → Children}
    (same : f (b.children family) = b.children family) : b.modifyChildren f family = b := by
  obtain ⟨tid, interrupts, process, hands, kin, initial⟩ := b
  cases family with
  | process =>
    cases process with
    | none => rfl
    | some p => simp_all [modifyChildren, modifyProcess, children]
  | kin => simp_all [modifyChildren, children]
  | initial => simp_all [modifyChildren, children]

/-- A child that was put on record can be taken from there again, and nothing is left of it. -/
theorem serve_takeChild_register {child : Tid} {exit : ChannelId}
    (hosted : family = .process → b.process.isSome = true) (new : child ∉ (b.children family).keys)
    (distinct : (b.children family).keys.Nodup) (small : child < threadLimit) (d : Devices) :
    (takeChild family child.toPid).serve (b.modifyChildren (·.register child exit) family) d =
      (some exit, b, d) := by
  have found : ((b.modifyChildren (·.register child exit) family).children family).find? child.toPid =
      some (child, exit) := by
    rw [children_modifyChildren hosted]
    exact Children.find?_register distinct new small
  simp only [serve, found]
  rw [modifyChildren_modifyChildren, modifyChildren_eq_self (Children.remove_register new)]

end Belongings

namespace Kernel

variable {α : Type} {k : Kernel} {b : Belongings} {born : List (Tid × ChannelId)}
  {start : Option NewProcess} {family : Family}

/-- A program that starts a child: if it does, the child is recorded, and if not, all is as it was. -/
structure Starts (family : Family) (p : ThreadProgram (Except ExecError Tid)) : Prop where
  /-- Whatever is to hold in the end holds in both cases. -/
  wp {b : Belongings} {born : List (Tid × ChannelId)} {start : Option NewProcess}
    {Q : Except ExecError Tid → Standing → Prop} :
    (family = .process → b.process.isSome = true) → (b.children family).keys.Nodup →
    (∀ e born', Q (.error e) ⟨b, idle born' start⟩) →
    (∀ child exit, child < threadLimit → child ∉ (b.children family).keys →
      Q (.ok child) ⟨b.modifyChildren (·.register child exit) family,
        idle ((child, exit) :: born) start⟩) →
    p.wp Q ⟨b, idle born start⟩

/-- What is started is a child on record. -/
theorem starts_execute {line : String} : Starts family (execute k family line) := by
  refine ⟨fun {b born start Q} hosted distinct failed started => ?_⟩
  unfold execute
  dsimp only
  split
  · exact failed _ _
  rw [wp_bind]
  refine wp_act (fun _ => nofun) rfl fun loaded _ => ?_
  rw [wp_bind]
  refine wp_act (fun _ => nofun) rfl fun exit apart => ?_
  have apart : loaded ≠ exit := fun same => apart (same ▸ List.mem_cons_self)
  rw [wp_bind]
  refine wp_act (fun _ => nofun) ⟨rfl, apart, rfl⟩ fun child small => ?_
  cases child with
  | none =>
    rw [wp_bind]
    exact wp_dropReceivers rfl rfl rfl (failed _ _)
  | some child =>
    obtain ⟨small, new⟩ := small child rfl
    have fresh := Belongings.notMem_keys new family
    dsimp only
    rw [wp_bind]
    refine wp_withRegistry rfl rfl (wp_ask rfl fun _ =>
      ⟨⟨hosted, List.mem_cons_self, List.mem_cons_self, List.not_mem_nil, new, rfl⟩, fun d =>
        ⟨rfl, rfl, ?_⟩⟩)
    change wp _ Q ⟨b.modifyChildren (·.register child exit) family,
      { idle ((child, exit) :: born) start with awaited := [exit, loaded].erase exit }⟩
    rw [List.erase_cons_head, wp_bind]
    refine wp_act (fun _ => nofun) ⟨rfl, rfl, rfl, List.mem_cons_self, rfl⟩ fun answer _ => ?_
    change wp _ Q ⟨b.modifyChildren (·.register child exit) family,
      { idle ((child, exit) :: born) start with awaited := [loaded].erase loaded }⟩
    rw [List.erase_cons_head]
    split
    · rw [wp_bind]
      exact wp_remark rfl (started child exit small fresh)
    · -- The record was there, and it is taken back.
      rw [wp_bind]
      refine wp_withRegistry rfl rfl ?_
      rw [wp_bind]
      refine wp_ask rfl fun _ => ⟨rfl, fun d => ?_⟩
      rw [Belongings.serve_takeChild_register hosted fresh distinct small]
      exact wp_dropReceivers rfl rfl rfl ⟨rfl, rfl, failed _ _⟩

/-- A child that is awaited is on record no more. If there is no record, all stays as it is. -/
theorem wp_awaitChild {pid : Int32} {Q : Except WaitError Int32 → Standing → Prop}
    (unknown : (b.children family).find? pid = none →
      Q (.error .notChild) ⟨b, idle born start⟩)
    (awaited : ∀ (child : Tid) status, (child : Int) = pid.toInt →
      Q (.ok status) ⟨b.modifyChildren (·.remove child) family, idle born start⟩) :
    wp (awaitChild family pid) Q ⟨b, idle born start⟩ := by
  rw [awaitChild, wp_bind]
  refine wp_withRegistry rfl rfl (wp_ask rfl fun _ => ⟨rfl, fun d => ?_⟩)
  cases found : (b.children family).find? pid with
  | none =>
    simp only [serve, found]
    exact ⟨rfl, rfl, unknown found⟩
  | some record =>
    obtain ⟨child, exit⟩ := record
    have number := (Children.mem_of_find? found).2
    simp only [serve, found]
    refine ⟨rfl, rfl, ?_⟩
    rw [wp_bind]
    refine wp_act (fun _ => by simp) ⟨rfl, rfl, rfl, List.mem_cons_self, rfl⟩ fun answer _ => ?_
    simp only [Action.after, DeviceRequest.after, Option.toList_some, List.cons_append,
      List.nil_append, List.erase_cons_head]
    split
    · exact awaited _ _ number
    · exact awaited _ _ number

theorem wp_wait {pid : Int32} {Q : Int32 → Standing → Prop}
    (unknown : (b.children family).find? pid = none → Q (-1) ⟨b, idle born start⟩)
    (awaited : ∀ (child : Tid) status, (child : Int) = pid.toInt →
      Q status ⟨b.modifyChildren (·.remove child) family, idle born start⟩) :
    wp (wait family pid) Q ⟨b, idle born start⟩ := by
  rw [wait, wp_bind]
  refine wp_awaitChild (fun missing => ?_) awaited
  dsimp only
  rw [wp_bind]
  exact wp_remark rfl (unknown missing)

end Kernel

/-! ## Between system calls -/

namespace Kernel

variable {α β : Type} {k : Kernel} {t : Tid} {start : NewProcess} {s : Standing}

/-- A program that leaves its thread in user mode. -/
structure Steady (t : Tid) (start : NewProcess) (p : ThreadProgram α) : Prop where
  /-- The thread is in user mode after the program if it was before. -/
  wp {s : Standing} : Running t start s → p.wp (fun _ s => Running t start s) s

theorem steady_pure (x : α) : Steady t start (pure x : ThreadProgram α) :=
  ⟨fun running => running⟩

theorem Steady.bind {p : ThreadProgram α} {next : α → ThreadProgram β}
    (first : Steady t start p) (rest : ∀ x, Steady t start (next x)) :
    Steady t start (p >>= next) := ⟨fun running => by
  rw [wp_bind]
  exact wp_mono (fun x s running => (rest x).wp running) (first.wp running)⟩

/-- A request that leaves the thread as it stands, and that is allowed without the lock. -/
theorem steady_ask {r : DeviceRequest} (quiet : r.isQuiet = true)
    (permitted : ∀ s, Running t start s → r.Permitted s) : Steady t start (ask r) :=
  ⟨fun running => wp_quiet quiet running.wakes (permitted _ running) fun _ => running⟩

theorem steady_remark {level : LogLevel} {text : String} : Steady t start (remark level text) :=
  steady_ask rfl fun _ _ => trivial

/-- A routine that leaves the thread in user mode while it holds the lock. -/
theorem steady_withVolume {body : Routine α}
    (inside : ∀ p born, p.Runs start →
      wp (ofRoutine body) (fun _ s => ∃ p, p.Runs start ∧
          s = host t p .empty { idle born (some start) with locked := true })
        (host t p .empty { idle born (some start) with locked := true })) :
    Steady t start (withVolume body) := ⟨fun running => by
  obtain ⟨p, born, rfl, runs⟩ := running
  refine wp_withLock rfl rfl rfl (wp_mono (fun x s after => ?_) (inside p born runs))
  obtain ⟨p, runs, rfl⟩ := after
  exact ⟨rfl, rfl, p, born, rfl, runs⟩⟩

/-- A request to the volume that leaves the thread as it stands. -/
theorem steady_useVolume {r : DeviceRequest} (quiet : r.isQuiet = true)
    (permitted : ∀ s : Standing, s.duties.locked = true → r.Permitted s) :
    Steady t start (withVolume (Routine.ask r)) :=
  steady_withVolume fun p _ runs => wp_quiet quiet rfl (permitted _ rfl) fun _ => ⟨p, runs, rfl⟩

theorem steady_userString {a : VirtAddr} : Steady t start (k.userString a) := by
  refine .bind (steady_ask rfl fun _ _ => trivial) fun read => ?_
  cases read <;> exact steady_pure _

theorem steady_withPath {a : VirtAddr} {failure : Outcome} {body : String → ThreadProgram Outcome}
    (inside : ∀ path, Steady t start (body path)) :
    Steady t start (k.withPath a failure body) := by
  refine .bind steady_userString fun read => ?_
  cases read with
  | error => exact steady_pure _
  | ok path =>
    cases path with
    | none =>
      exact .bind (steady_ask rfl fun _ _ => trivial) fun _ =>
        .bind steady_remark fun _ => steady_pure _
    | some path => exact .bind (inside path) fun _ => steady_pure _

theorem steady_withFile {fd : Int32} (body : Handle → Routine α)
    (inside : ∀ h, Steady t start (withVolume (body h))) :
    Steady t start (withFile fd body) := by
  unfold withFile
  split
  · exact steady_pure _
  · refine .bind (steady_ask rfl fun _ _ => trivial) fun found => ?_
    cases found with
    | error => exact steady_pure _
    | ok h => exact .bind (inside h) fun _ => steady_pure _

/-! ## System calls -/

/-- The file in hand gets a descriptor, or stays in hand. -/
theorem wp_keepFile {p : Process} {h : Handle} {g : Duties}
    {Q : Option Descriptor → Standing → Prop} (free : g.wakes = none)
    (kept : ∀ d files, Q (some d) (host t { p with files := files } .empty g))
    (refused : Q none (host t p { Hands.empty with files := [h] } g)) :
    wp (ask (keepFile h)) Q (host t p { Hands.empty with files := [h] } g) := by
  refine wp_ask free fun _ => ⟨List.mem_singleton_self h, fun d => ?_⟩
  have none : [h].filter (· ≠ h) = [] := filter_ne_cons (List.nodup_singleton h)
  cases inserted : p.files.insert h with
  | none =>
    simp only [serve, serveKeepFile, host, inserted]
    exact refused
  | some place =>
    simp only [serve, serveKeepFile, host, inserted, none]
    exact kept place.1 place.2

/-- A file that has a descriptor comes in hand. -/
theorem wp_takeFile {p : Process} {descriptor : Descriptor} {g : Duties}
    {Q : Except DescriptorError Handle → Standing → Prop} (free : g.wakes = none)
    (missing : ∀ e, Q (.error e) (host t p .empty g))
    (taken : ∀ h files,
      Q (.ok h) (host t { p with files := files } { Hands.empty with files := [h] } g)) :
    wp (ask (takeFile descriptor)) Q (host t p .empty g) := by
  refine wp_ask free fun _ => ⟨rfl, fun d => ?_⟩
  cases removed : p.files.remove descriptor with
  | error e =>
    simp only [serve, serveTakeFile, host, removed]
    exact missing e
  | ok file =>
    simp only [serve, serveTakeFile, host, removed]
    exact taken file.1 file.2

/-- A file that is opened gets a descriptor, or is closed again. -/
theorem steady_openPath {path : String} : Steady t start (openPath path) := by
  refine .bind (steady_withVolume fun p born runs => ?_) fun _ => steady_pure _
  rw [wp_routine_bind]
  refine Loader.wp_openFile rfl rfl ⟨p, runs, rfl⟩ fun h => ?_
  dsimp only
  rw [wp_routine_bind]
  refine wp_keepFile rfl (fun d files => ?_) ?_
  · exact ⟨{ p with files := files }, ⟨runs.state, runs.told, runs.distinct⟩, rfl⟩
  · dsimp only
    rw [wp_routine_bind]
    exact wp_close .empty rfl rfl (List.mem_singleton_self h)
      (fun distinct => filter_ne_cons distinct) ⟨p, runs, rfl⟩

/-- A file is in hand from when its descriptor is taken until it is closed. -/
theorem steady_closeDescriptor {fd : Int32} : Steady t start (closeDescriptor fd) := by
  unfold closeDescriptor
  split
  · exact steady_pure _
  refine ⟨fun ⟨p, born, same, runs⟩ => ?_⟩
  rw [same, wp_bind]
  refine wp_takeFile rfl (fun _ => ⟨p, born, rfl, runs⟩) fun h files => ?_
  refine wp_withLock rfl rfl rfl ?_
  refine wp_close .empty (p := { p with files := files }) rfl rfl
    (List.mem_singleton_self h) (fun distinct => filter_ne_cons distinct) ⟨rfl, rfl, ?_⟩
  exact ⟨{ p with files := files }, born, rfl, runs.state, runs.told, runs.distinct⟩

theorem steady_readKeyboard {done : Bytes} {n : Nat} :
    Steady t start (readKeyboard done n) := by
  induction n generalizing done with
  | zero => exact steady_pure _
  | succ n ih => exact .bind (steady_ask rfl fun _ _ => trivial) fun _ => ih

theorem steady_readDescriptor {fd : Int32} {n : Nat} :
    Steady t start (readDescriptor fd n) := by
  unfold readDescriptor
  split
  · exact steady_pure _
  split
  · refine ⟨fun running => ?_⟩
    rw [wp_map]
    exact steady_readKeyboard.wp running
  split
  · exact steady_pure _
  · exact steady_withFile _ fun h => steady_useVolume rfl fun _ locked => locked

theorem steady_readInto {fd : Int32} {buffer : VirtAddr} {size : UInt32} :
    Steady t start (readInto fd buffer size) := by
  refine .bind (steady_ask rfl fun _ _ => trivial) fun checked => ?_
  cases checked with
  | error => exact steady_pure _
  | ok =>
    refine .bind steady_readDescriptor fun data => ?_
    cases data with
    | none => exact steady_pure _
    | some data =>
      refine .bind (steady_ask rfl fun _ _ => trivial) fun copied => ?_
      cases copied <;> exact steady_pure _

theorem steady_writeDescriptor {fd : Int32} {data : Bytes} :
    Steady t start (writeDescriptor fd data) := by
  unfold writeDescriptor
  split
  · exact steady_pure _
  split
  · exact .bind (steady_ask rfl fun _ _ => trivial) fun _ => steady_pure _
  split
  · exact steady_pure _
  · exact .bind (steady_withFile _ fun h => steady_useVolume rfl fun _ locked => locked)
      fun _ => steady_pure _

theorem steady_writeFrom {fd : Int32} {buffer : VirtAddr} {size : UInt32} :
    Steady t start (writeFrom fd buffer size) := by
  refine .bind (steady_ask rfl fun _ _ => trivial) fun copied => ?_
  cases copied with
  | error => exact steady_pure _
  | ok data => exact .bind steady_writeDescriptor fun _ => steady_pure _

theorem steady_execute {line : String} : Steady t start (k.execute .process line) := by
  have starts : Starts .process (k.execute .process line) := starts_execute
  generalize k.execute .process line = program at starts ⊢
  refine ⟨fun ⟨p, born, same, runs⟩ => ?_⟩
  subst same
  refine starts.wp (fun _ => rfl) runs.distinct (fun e born' => ⟨p, born', rfl, runs⟩)
    fun child exit _ new => ?_
  exact ⟨{ p with children := p.children.register child exit }, _, rfl, runs.state, runs.told,
    Children.nodup_register runs.distinct new⟩

theorem steady_exec {a : VirtAddr} : Steady t start (k.exec a) := by
  refine .bind steady_userString fun read => ?_
  cases read with
  | error => exact steady_pure _
  | ok line =>
    cases line with
    | none => exact steady_pure _
    | some line =>
      refine .bind steady_execute fun result => ?_
      cases result with
      | ok child => exact steady_pure _
      | error e => exact .bind steady_remark fun _ => steady_pure _

theorem steady_wait {pid : Int32} : Steady t start (wait .process pid) := by
  refine ⟨fun ⟨p, born, same, runs⟩ => ?_⟩
  subst same
  refine wp_wait (fun _ => ⟨p, born, rfl, runs⟩) fun child status _ => ?_
  exact ⟨{ p with children := p.children.remove child }, born, rfl, runs.state, runs.told,
    runs.distinct.sublist Children.keys_remove_sublist⟩

/-- Whatever the call, the thread is in user mode after it if it was before. -/
theorem steady_dispatch (call : Syscall) : Steady t start (k.dispatch call) := by
  cases call with
  | halt => exact steady_pure _
  | exit => exact steady_pure _
  | exec => exact steady_exec
  | wait => exact .bind steady_wait fun _ => steady_pure _
  | create =>
    exact steady_withPath fun path =>
      .bind (steady_useVolume rfl fun _ locked => locked) fun _ => steady_pure _
  | remove =>
    exact steady_withPath fun path =>
      .bind (steady_useVolume rfl fun _ locked => locked) fun _ => steady_pure _
  | openFile => exact steady_withPath fun path => steady_openPath
  | filesize =>
    exact .bind (steady_withFile _ fun h => steady_useVolume rfl fun _ locked => locked)
      fun _ => steady_pure _
  | read => exact steady_readInto
  | write => exact steady_writeFrom
  | seek fd position =>
    refine .bind ⟨fun running => ?_⟩ fun _ => steady_pure _
    rw [wp_discard]
    exact (steady_withFile (fun h => Routine.ask (seek h position))
      fun h => steady_useVolume rfl fun _ locked => locked).wp running
  | tell =>
    exact .bind (steady_withFile _ fun h => steady_useVolume rfl fun _ locked => locked)
      fun _ => steady_pure _
  | close => exact .bind steady_closeDescriptor fun _ => steady_pure _
  | practice => exact steady_pure _

theorem steady_exitProcess {status : Int32} : Steady (α := α) t start (exitProcess status) := by
  refine ⟨fun ⟨p, born, same, runs⟩ => ?_⟩
  subst same
  exact wp_exitProcess runs.told status _

theorem steady_powerOff (stops : k.power = .stopsMachine) :
    Steady (α := α) t start (powerOff k) := by
  refine .bind (steady_ask rfl fun _ _ => trivial) fun _ => ?_
  rw [stops]
  exact ⟨fun running _ => ⟨running.wakes, fun answer => nomatch answer⟩⟩

/-- A process that makes a system call goes on in user mode, or not at all. -/
theorem steady_syscall (stops : k.power = .stopsMachine) (frame : TrapFrame) :
    Steady t start (k.syscall frame) := by
  refine .bind (steady_ask rfl fun _ _ => trivial) fun hosted => ?_
  cases hosted with
  | none => exact .bind steady_remark fun _ => steady_pure _
  | some p =>
    refine .bind (steady_ask rfl fun _ _ => trivial) fun decoded => ?_
    cases decoded with
    | error fault =>
      change Steady t start (remark _ _ >>= fun _ => exitProcess (-1))
      exact .bind steady_remark fun _ => steady_exitProcess
    | ok call =>
      refine .bind (steady_dispatch call) fun outcome => ?_
      beta_reduce
      split
      · exact steady_pure _
      · exact steady_pure _
      · exact steady_exitProcess
      · exact .bind steady_remark fun _ => steady_powerOff stops
      · exact .bind steady_remark fun _ => steady_exitProcess

end Kernel

/-! ## Whole threads -/

/-- Whatever a program does, its thread keeps to the rules. The program has no end of its own, so all
    that is asked of its end holds. -/
theorem UserCode.wp_program {k : Kernel} {t : Tid} {start : NewProcess} {s : Standing}
    {Q : Unit → Standing → Prop} (stops : k.power = .stopsMachine) (code : UserCode)
    (running : Running t start s) : wp (code.program k) Q s := by
  -- A fault ends the process, whatever was to come.
  have fault {α : Type} {s : Standing} {Q : α → Standing → Prop} {a : VirtAddr}
      {write present : Bool} (running : Running t start s) :
      wp (Kernel.userFault ⟨a, .user, write, present⟩) Q s := by
    rw [Kernel.userFault, wp_bind]
    refine Kernel.wp_remark running.wakes ?_
    obtain ⟨p, born, rfl, runs⟩ := running
    exact Kernel.wp_exitProcess runs.told _ _
  induction code generalizing s with
  | trap frame next ih =>
    rw [program, wp_bind]
    exact wp_mono (fun value s => ih value) ((Kernel.steady_syscall stops frame).wp running)
  | fault => exact fault running
  | load a n next ih =>
    rw [program, wp_bind, UserOp.loadBytes, wp_bind]
    refine wp_quiet rfl running.wakes trivial fun read => ?_
    cases read with
    | error => exact fault running
    | ok data => exact ih data running
  | store a data next ih =>
    rw [program, wp_bind, UserOp.storeBytes, wp_bind]
    refine wp_quiet rfl running.wakes trivial fun wrote => ?_
    cases wrote with
    | error => exact fault running
    | ok => exact ih running
  | goto block => exact fun _ => ⟨⟨_, _, running⟩, fun never => never.elim⟩

namespace Kernel

variable {k : Kernel} {t : Tid} {start : NewProcess}

/-- What was loaded goes to the process. -/
theorem wp_install {p : Process} {program : LoadedProgram} {space : AddressSpace} {g : Duties}
    {Q : Unit → Standing → Prop} (free : g.wakes = none) (noSpace : p.space = none)
    (noExecutable : p.executable = none)
    (next : Q () (host t
      { p with executable := some program.executable, space := some space, state := .running }
      .empty g)) :
    wp (install program) Q (host t p (Loader.filling space [program.executable]) g) := by
  rw [install, wp_bind]
  refine wp_ask free fun _ => ⟨⟨List.mem_singleton_self _, fun q hosts => ?_⟩, fun d => ?_⟩
  · obtain rfl := Option.some.inj hosts
    exact noExecutable
  have none : [program.executable].filter (· ≠ program.executable) = [] :=
    filter_ne_cons (List.nodup_singleton _)
  change wp _ Q (host t { p with executable := some program.executable }
    { Loader.filling space [] with
      files := [program.executable].filter (· ≠ program.executable) } g)
  rw [none, wp_bind]
  refine wp_withoutInterrupts free (wp_ask free fun _ => ⟨fun q hosts => ?_, fun d => ⟨free, ?_⟩⟩)
  · obtain rfl := Option.some.inj hosts
    exact noSpace
  change wp _ Q
    (host t { p with executable := some program.executable, space := some space } .empty g)
  rw [wp_bind]
  refine wp_ask free fun _ => ⟨rfl, fun d => ?_⟩
  rw [activateOwn, wp_bind]
  exact wp_quiet rfl free trivial fun _ => wp_quiet rfl free trivial fun _ => next

/-- Whether its program is loaded is all that a new thread has yet to tell, apart from its exit
    status. -/
theorem wp_tellLoaded {p : Process} {ok : Bool} {rest : ThreadProgram α}
    {Q : α → Standing → Prop} (next : wp rest Q (host t p .empty (idle [] (some start)))) :
    wp (discard (send start.loaded (.loaded ok)) >>= fun _ => rest) Q
      (host t p .empty { idle [] (some start) with given := [start.loaded] }) := by
  rw [wp_bind, wp_discard]
  refine wp_send rfl List.mem_cons_self ⟨start, rfl, .inl ⟨rfl, ok, rfl⟩⟩ fun _ => ?_
  change wp rest Q (host t p .empty
    { idle [] (some start) with given := [start.loaded].erase start.loaded })
  rwa [List.erase_cons_head]

/-- What the thread of a child does until its program is loaded, or cannot be loaded. -/
def loading (k : Kernel) (start : NewProcess) : ThreadProgram (Except LoadError LoadedProgram) := do
  let words := Words.ofString start.command
  ask (newProcess (words.head?.getD "") k.settings.maxOpenFiles start.exit)
  withVolume (Loader.load (words.take k.settings.maxArguments))

/-- The first word of a child's command line, by which its program is found. -/
def programName (start : NewProcess) : String := (Words.ofString start.command).head?.getD ""

/-- The process that a child hosts at first. -/
def child (k : Kernel) (start : NewProcess) (t : Tid) : Process :=
  { Process.fresh t.toPid (programName start) k.settings.maxOpenFiles with exitSignal := some start.exit }

/-- When its program is loaded a thread has it in hand; if it cannot be loaded, nothing is in hand. -/
theorem wp_loading {Q : Except LoadError LoadedProgram → Standing → Prop}
    (failed : ∀ e, Q (.error e) (host t (child k start t) .empty
      { idle [] (some start) with given := [start.loaded] }))
    (loaded : ∀ program space, Q (.ok program) (host t (child k start t)
      (Loader.filling space [program.executable])
      { idle [] (some start) with given := [start.loaded] })) :
    wp (loading k start) Q ⟨.fresh t, .fresh (some start)⟩ := by
  -- The channel for the exit status belongs to the process from now on.
  have left : [start.loaded, start.exit].erase start.exit = [start.loaded] := by
    by_cases same : start.loaded = start.exit
    · rw [same, List.erase_cons_head]
    · rw [List.erase_cons_tail (by simpa using same), List.erase_cons_head]
  unfold loading
  dsimp only
  rw [wp_bind]
  refine wp_ask rfl fun _ =>
    ⟨⟨rfl, rfl, List.mem_cons_of_mem _ (List.mem_singleton_self _)⟩, fun d => ?_⟩
  change wp _ Q (host t (child k start t) .empty
    { idle [] (some start) with given := [start.loaded, start.exit].erase start.exit })
  rw [left]
  exact wp_withLock rfl rfl rfl (Loader.wp_load rfl rfl rfl (fun e => ⟨rfl, rfl, failed e⟩)
    fun program space => ⟨rfl, rfl, loaded program space⟩)

/-- The thread of a child keeps to the rules from its start, whether or not its program is loaded. -/
theorem wp_startProcess {userMode : UserMode} {Q : Unit → Standing → Prop}
    (enters : ∀ name context s, Running t start s → wp (userMode name context) Q s) :
    wp (startProcess k userMode start) Q ⟨.fresh t, .fresh (some start)⟩ := by
  change wp (loading k start >>= _) Q _
  rw [wp_bind]
  refine wp_loading (fun e => ?_) fun program space => ?_
  · dsimp only
    split
    · rw [wp_bind]
      exact wp_putLine rfl (wp_tellLoaded (wp_exitProcess rfl _ _))
    · exact wp_tellLoaded (wp_exitProcess rfl _ _)
  · dsimp only
    rw [wp_bind]
    refine wp_install rfl rfl rfl (wp_tellLoaded ?_)
    rw [wp_bind]
    refine wp_quiet rfl rfl trivial fun _ => enters _ _ _ ⟨_, _, rfl, rfl, rfl, ?_⟩
    exact List.nodup_nil

/-- What the first thread does: it keeps to the rules, and in the end the thread has nothing. -/
structure Boots (p : ThreadProgram Unit) : Prop where
  /-- It does so from the start. -/
  wp {t : Tid} : p.wp (fun _ s => s.Done) ⟨.fresh t, .fresh none⟩

/-- The first thread starts a child and awaits it. -/
theorem boots_run {line : String} : Boots (discard (k.run line)) := by
  have starts : Starts .initial (k.execute .initial line) := starts_execute
  refine ⟨fun {t} => ?_⟩
  rw [wp_discard, run]
  generalize k.execute .initial line = program at starts ⊢
  rw [wp_bind]
  refine starts.wp nofun List.nodup_nil (fun e born => ?_) fun child exit small _ => ?_
  · exact ⟨rfl, rfl, rfl, rfl, free_idle born none⟩
  · -- The child is on record, so it is found, and then nobody is on record.
    dsimp only
    rw [wp_bind]
    refine wp_wait (fun missing => ?_) fun other status same => ?_
    · have found : (Children.empty.register child exit).find? (Tid.toPid child) =
          some (child, exit) :=
        Children.find?_register (r := .empty) List.nodup_nil List.not_mem_nil small
      exact nomatch missing.symm.trans found
    · rw [Tid.toInt_toPid small] at same
      obtain rfl := Int.ofNat_inj.1 same
      exact ⟨rfl, rfl, rfl, Children.remove_register List.not_mem_nil, free_idle _ none⟩

end Kernel

end Userland
