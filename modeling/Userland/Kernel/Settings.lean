import Userland.Memory.Address

/-!
# Limits of the kernel

The limits that can be set when the kernel starts, with the values that hold if nothing is said.
-/

namespace Userland

/-- The limits of the kernel. -/
structure Settings where
  /-- Capacity of each descriptor table. -/
  maxOpenFiles : Nat := 128
  /-- Most arguments of a program, its name included. -/
  maxArguments : Nat := 128
  /-- Most bytes of a string from user memory, the zero at its end included. -/
  maxUserString : Nat := pageSize
  /-- Priority of process threads. -/
  defaultPriority : UInt8 := 31

/-- The kernel, by its limits. -/
def Settings.debugText (s : Settings) : String :=
  "Kernel \x7b config: KernelConfig \x7b max_open_files: " ++ toString s.maxOpenFiles ++
    ", max_args: " ++ toString s.maxArguments ++
    ", max_user_string: " ++ toString s.maxUserString ++
    ", default_priority: " ++ toString s.defaultPriority.toNat ++ " \x7d, .. \x7d"

/-- What is logged when the kernel starts. -/
def Settings.greeting (s : Settings) : String :=
  "[PROCESS] manager up: " ++ toString s.maxOpenFiles ++ " fds/process, " ++
    toString s.maxArguments ++ " args max"

end Userland
