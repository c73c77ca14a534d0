import Userland.Files.DescriptorTable
import Userland.Files.Volume
import Userland.Memory.AddressSpace
import Userland.Process.Children
import Userland.Text.Quoted
import Userland.Text.Utf8

/-!
# Processes

A process is an address space with the kernel's records about it. It is loading until its program
is in memory, then running, and exiting from the moment its end is decided. It owns its address
space, its open files, the handle on its executable, the registry of its children, and the sending
end of the channel on which its exit status goes to its parent.
-/

namespace Userland

/-- Where a process is in its life. -/
inductive ProcessState where
  /-- Its program is not in memory yet. -/
  | loading
  /-- Its program runs. -/
  | running
  /-- It is being taken apart. -/
  | exiting
deriving DecidableEq

/-- The name of a state. -/
def ProcessState.name : ProcessState → String
  | loading => "Loading"
  | running => "Running"
  | exiting => "Exiting"

/-- Why a program cannot be started. -/
inductive ExecError where
  /-- The command line has no word. -/
  | emptyCommand
  /-- There is no memory for another thread. -/
  | spawn
  /-- The child could not load its program. -/
  | loadFailed
deriving DecidableEq

/-- The refusal in words. -/
def ExecError.message : ExecError → String
  | emptyCommand => "empty command line"
  | spawn => "spawn failed: out of memory for new thread"
  | loadFailed => "load failed"

/-- Most bytes of a process name. -/
abbrev maxNameLength : Nat := 15

/-- A process. -/
structure Process where
  /-- Its number. -/
  pid : Int32
  /-- Its name. -/
  name : String
  /-- Where it is in its life. -/
  state : ProcessState
  /-- Its exit status, once that is decided. -/
  exitStatus : Option Int32
  /-- Its memory, from installation to detachment. -/
  space : Option AddressSpace
  /-- Its open files. -/
  files : DescriptorTable Handle
  /-- The handle that keeps its executable from being written. -/
  executable : Option Handle
  /-- Its children. -/
  children : Children
  /-- Where its exit status goes. -/
  exitSignal : Option ChannelId

namespace Process

/-- A process that has nothing yet. Its name is cut to `maxNameLength` bytes. -/
def fresh (pid : Int32) (name : String) (maxOpenFiles : Nat) : Process :=
  { pid := pid
    name := Utf8.truncate name maxNameLength
    state := .loading
    exitStatus := none
    space := none
    files := .empty maxOpenFiles
    executable := none
    children := .empty
    exitSignal := none }

/-- The fields that say most about a process. -/
def debugText (p : Process) : String :=
  let optional (text : Option String) : String := match text with
    | some t => "Some(" ++ t ++ ")"
    | none => "None"
  "Process \x7b pid: Tid(" ++ toString p.pid.toInt ++ "), name: " ++ Quoted.quote p.name ++
    ", state: " ++ p.state.name ++
    ", exit_status: " ++ optional (p.exitStatus.map fun s => toString s.toInt) ++
    ", address_space: " ++ optional (p.space.map AddressSpace.debugText) ++
    ", files: " ++ p.files.debugText ++ ", .. \x7d"

end Process

end Userland
