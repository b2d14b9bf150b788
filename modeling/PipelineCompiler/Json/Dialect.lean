set_option autoImplicit false

namespace PipelineCompiler.Json

/-- Where readers of JSON differ. -/
class Dialect where
  /-- Whether surrogates that are no half of a pair are kept; if not, they are replaced. -/
  keepsSurrogates : Bool
  /-- How many objects and lists can be open at once, if there is a bound. -/
  room : Option Nat

instance (priority := low) Dialect.plain : Dialect := ⟨false, none⟩

inductive CodePoint where
  | char (c : Char)
  | surrogate (i : Fin 0x800)
  deriving Repr, DecidableEq

def CodePoint.ofUnit (unit : Nat) : CodePoint :=
  if h : 0xD800 ≤ unit ∧ unit < 0xE000 then .surrogate ⟨unit - 0xD800, by omega⟩
  else .char (Char.ofNat unit)

/-- The last code point of all, which is no character of any language. -/
def mark : Char := Char.ofNat 0x10FFFF

/-- The private character behind a mark that a surrogate is held as. -/
def surrogateChar (i : Fin 0x800) : Char := Char.ofNat (0x100000 + i.val)

/-- What stands for a code point in a text. A surrogate has no character: one that is kept follows a
mark, for which reason marks are doubled. -/
def CodePoint.held [Dialect] : CodePoint → List Char
  | .char c => if Dialect.keepsSurrogates && c = mark then [mark, mark] else [c]
  | .surrogate i => if Dialect.keepsSurrogates then [mark, surrogateChar i] else ['\uFFFD']

def hold [Dialect] (points : List CodePoint) : String :=
  String.ofList (points.flatMap CodePoint.held)

def CodePoint.marked (c : Char) : CodePoint :=
  if h : 0x100000 ≤ c.toNat ∧ c.toNat < 0x100800 then .surrogate ⟨c.toNat - 0x100000, by omega⟩
  else .char c

def pointsFrom [Dialect] : List Char → List CodePoint
  | [] => []
  | c :: rest =>
    if Dialect.keepsSurrogates && c = mark then
      match rest with
      | [] => [.char c]
      | d :: rest => .marked d :: pointsFrom rest
    else .char c :: pointsFrom rest

def points [Dialect] (s : String) : List CodePoint := pointsFrom s.toList

end PipelineCompiler.Json
