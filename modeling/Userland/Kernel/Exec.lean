import Userland.Kernel.Exit
import Userland.Text.Words

/-!
# Starting and awaiting processes

The parent makes a thread for the child and waits until the child tells whether its program is
loaded (`Kernel.execute`); the child loads, tells, and enters user mode (`Kernel.startProcess`). The
child is recorded once its thread is made, and forgotten if it could not load. A wait takes the record,
so each child is awaited once (`Kernel.wait`). The lock on a registry is held for as long as it takes to
look a record up or to change it, and no longer.
-/

namespace Userland

/-- What a program does in user mode: it gets the name of its process and the state in which it is
    started. -/
abbrev UserMode := String → UserContext → ThreadProgram Unit

namespace Kernel

open ThreadProgram DeviceRequest

/-- Most bytes of a command line. -/
abbrev maxCommandLength : Nat := pageSize - 1

/-- Start a command line as a child, and wait until it is loaded. -/
def execute (k : Kernel) (family : Family) (line : String) :
    ThreadProgram (Except ExecError Tid) := do
  let command := Utf8.truncate line maxCommandLength
  match (Words.ofString command).head? with
  | none => return .error .emptyCommand
  | some name =>
    let loaded ← act .newChannel
    let exit ← act .newChannel
    match ← act (.spawn (Utf8.truncate name maxNameLength) k.settings.defaultPriority
        ⟨command, loaded, exit⟩) with
    | none =>
      dropReceivers [exit, loaded]
      return .error .spawn
    | some child =>
      withRegistry family (ask (register family child exit))
      match ← act (.receive loaded) with
      | some (.loaded true) =>
        remark .debug ("[PROCESS] started " ++ name ++ " as pid " ++ toString child)
        return .ok child
      | _ =>
        withRegistry family do
          let record ← ask (takeChild family child.toPid)
          dropReceivers record.toList
        return .error .loadFailed

/-- Wait for a child: its exit status, or -1 if it never told one. -/
def awaitChild (family : Family) (pid : Int32) : ThreadProgram (Except WaitError Int32) := do
  match ← withRegistry family (ask (takeChild family pid)) with
  | none => return .error .notChild
  | some exit =>
    match ← act (.receive exit) with
    | some (.status status) => return .ok status
    | _ => return .ok (-1)

/-- Wait for a child: its exit status, or -1 if there is no such child. -/
def wait (family : Family) (pid : Int32) : ThreadProgram Int32 := do
  match ← awaitChild family pid with
  | .ok status => return status
  | .error e =>
    remark .debug ("[PROCESS] wait(" ++ toString pid.toInt ++ "): " ++ e.message)
    return -1

/-- Start a command line as the initial process and wait for it. -/
def run (k : Kernel) (line : String) : ThreadProgram (Except ExecError Int32) := do
  match ← k.execute .initial line with
  | .error e => return .error e
  | .ok child => return .ok (← wait .initial child.toPid)

/-- Give a loaded program to the process of the thread. -/
def install (p : LoadedProgram) : ThreadProgram Unit := do
  ask (installExecutable p.executable)
  withoutInterrupts (ask installSpace)
  ask (setState .running)
  activateOwn

/-- What the thread of a new process does. -/
def startProcess (k : Kernel) (userMode : UserMode) (start : NewProcess) : ThreadProgram Unit := do
  let words := Words.ofString start.command
  let name := words.head?.getD ""
  ask (newProcess name k.settings.maxOpenFiles start.exit)
  match ← withVolume (Loader.load (words.take k.settings.maxArguments)) with
  | .ok loaded =>
    install loaded
    discard (send start.loaded (.loaded true))
    ask (note .enter)
    userMode (Utf8.truncate name maxNameLength) (.ofEntry loaded.entry loaded.stack)
  | .error e =>
    match e.diagnostic? with
    | some text => putLine ("load: " ++ name ++ ": " ++ text)
    | none => pure ()
    discard (send start.loaded (.loaded false))
    exitProcess (-1)

end Kernel

end Userland
