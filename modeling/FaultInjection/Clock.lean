/-!
The two clocks that the parts of a cluster read.
-/

namespace FaultInjection

structure Clock where
  /-- Nanoseconds that have passed, by which timers run. -/
  now : Nat
  /-- The instant of the calendar, in nanoseconds since the start of 1970. -/
  instant : Int
  deriving DecidableEq, Repr

end FaultInjection
