/-!
# Interrupt levels

Each thread runs with interrupts on or off. Turning them off gives the level that was in effect
before, and a section that runs with interrupts off ends by setting that level again, so sections
may be nested.
-/

namespace Userland

/-- Whether interrupts are let in. -/
inductive InterruptLevel where
  /-- They are. -/
  | on
  /-- They are not. -/
  | off
deriving DecidableEq

namespace InterruptLevel

/-- The name of a level. -/
def name : InterruptLevel → String
  | on => "On"
  | off => "Off"

/-- Whether interrupts are let in. -/
def isOn (l : InterruptLevel) : Bool := l = on

end InterruptLevel

end Userland
