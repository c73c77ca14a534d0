import Userland.Memory.Address

/-!
# Entering and leaving user mode

A program is started from a made-up interrupt frame (`UserContext`): its entry point, its stack, the
user segment selectors, interrupts on, and a fresh floating-point unit. It comes back to the kernel
through a trap (`TrapFrame`), which takes arguments from the user stack and leaves a result in one
register, or through a page fault (`PageFault`).
-/

namespace Userland

/-- Registers that a system call uses. -/
structure TrapFrame where
  /-- The user stack pointer. -/
  esp : UInt32
  /-- The result register. -/
  eax : UInt32

/-- The frame of a trap with a stack pointer. -/
def TrapFrame.ofStack (esp : UInt32) : TrapFrame := ⟨esp, 0⟩

/-- The control word of a floating-point unit after a reset, with the precision and rounding fields
    cleared. -/
def initialFpuControl : UInt16 := 0x037F &&& ~~~0x0300 &&& ~~~0x0C00

/-- Selector of user code: descriptor 3, privilege 3. -/
def userCodeSelector : UInt16 := 8 * 3 + 3

/-- Selector of user data: descriptor 4, privilege 3. -/
def userDataSelector : UInt16 := 8 * 4 + 3

/-- The flag bit that is always set, and the one that lets interrupts in. -/
def initialFlags : UInt32 := 0x002 + 0x200

/-- The state in which a program starts. -/
structure UserContext where
  /-- The next instruction. -/
  eip : UInt32
  /-- The stack pointer. -/
  esp : UInt32
  /-- The code segment. -/
  cs : UInt16
  /-- The data segments. -/
  ds : UInt16
  /-- The flags register. -/
  eflags : UInt32
  /-- The floating-point control word. -/
  fpuControl : UInt16

/-- The state for an entry point and a stack. -/
def UserContext.ofEntry (entry stack : VirtAddr) : UserContext :=
  ⟨entry.toWord, stack.toWord, userCodeSelector, userDataSelector, initialFlags,
    initialFpuControl⟩

/-- Who was running when a page fault came. -/
inductive FaultMode where
  /-- User code. -/
  | user
  /-- The kernel. -/
  | kernel
deriving DecidableEq

/-- A page fault. -/
structure PageFault where
  /-- The address used. -/
  address : VirtAddr
  /-- Who used it. -/
  mode : FaultMode
  /-- Whether it was to be written. -/
  write : Bool
  /-- Whether its page is mapped. -/
  present : Bool

end Userland
