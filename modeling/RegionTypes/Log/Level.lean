/-!
# Log levels

Levels from the most urgent to the most detailed, and thresholds that let everything up to a level
pass.
-/

namespace RegionTypes.Log

inductive Level where
  | error | warn | info | debug | trace
  deriving DecidableEq, Repr

namespace Level

def detail : Level → Nat
  | error => 1
  | warn => 2
  | info => 3
  | debug => 4
  | trace => 5

def name : Level → String
  | error => "ERROR"
  | warn => "WARN"
  | info => "INFO"
  | debug => "DEBUG"
  | trace => "TRACE"

end Level

/-- The most detailed level that passes, or none at all. -/
inductive Threshold where
  | off
  | upTo (level : Level)
  deriving DecidableEq, Repr

namespace Threshold

def detail : Threshold → Nat
  | off => 0
  | upTo level => level.detail

def admits (t : Threshold) (level : Level) : Bool := level.detail ≤ t.detail

protected def max (s t : Threshold) : Threshold := if s.detail ≤ t.detail then t else s

def name : Threshold → String
  | off => "off"
  | upTo .error => "error"
  | upTo .warn => "warn"
  | upTo .info => "info"
  | upTo .debug => "debug"
  | upTo .trace => "trace"

def all : List Threshold :=
  [off, upTo .error, upTo .warn, upTo .info, upTo .debug, upTo .trace]

end Threshold

end RegionTypes.Log
