set_option autoImplicit false

namespace PipelineCompiler

inductive Level where
  | info
  | warning
  deriving Repr, DecidableEq

structure LogLine where
  level : Level
  text : String
  deriving Repr, DecidableEq

def Level.name : Level → String
  | .info => "INFO"
  | .warning => "WARNING"

def LogLine.labelled (l : LogLine) : String := l.level.name ++ ": " ++ l.text

/-- The most decimal digits that a number can have in a text. -/
def digitLimit : Nat := 4300

/-- The least number with too many digits. -/
@[irreducible]
def numeralBound : Nat := Nat.pow 10 digitLimit

def hasNumeral (n : Int) : Bool := n.natAbs < numeralBound

/-- What is said where a number has too many digits; a text that was read tells how many. -/
def digitLimitText (found : String) : String :=
  s!"Exceeds the limit ({digitLimit} digits) for integer string conversion{found}; " ++
    "use sys.set_int_max_str_digits() to increase the limit"

end PipelineCompiler
