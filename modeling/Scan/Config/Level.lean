/-!
# Log levels

The levels are switched on one by one; what is logged is everything up to the most talkative one
that is on.
-/

namespace Scan

/-- Which levels of messages are switched on. -/
structure Levels where
  debug : Bool := false
  info : Bool := false
  warning : Bool := false
  error : Bool := false
  deriving BEq, DecidableEq, Repr

/-- The most talkative level that is logged. -/
inductive Level where
  | off
  | error
  | warn
  | info
  | debug
  deriving BEq, DecidableEq, Repr

/-- The written name. -/
def Level.name : Level → String
  | .off => "off"
  | .error => "error"
  | .warn => "warn"
  | .info => "info"
  | .debug => "debug"

/-- The level that is logged; being verbose counts as debugging. -/
def Levels.effective (levels : Levels) (verbose : Bool) : Level :=
  if verbose || levels.debug then .debug
  else if levels.info then .info
  else if levels.warning then .warn
  else if levels.error then .error
  else .off

end Scan
