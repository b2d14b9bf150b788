import PipelineCompiler.Yaml.Scalar

set_option autoImplicit false

/- A pen that writes lines of YAML and knows its column, and the three styles of scalars. Long texts
are folded at blanks behind column 80. -/
namespace PipelineCompiler.Yaml

/-- The flag `blank` says that a blank or the start of a line precedes; `fresh` says that the line
so far holds only indentation and indicators. -/
structure Pen where
  text : String
  column : Nat
  blank : Bool
  fresh : Bool
  deriving Repr, DecidableEq

namespace Pen

def start : Pen := ⟨"", 0, true, true⟩

def write (p : Pen) (s : String) : Pen :=
  { p with text := p.text ++ s, column := p.column + s.length }

def writeChars (p : Pen) (s : List Char) : Pen := p.write (String.ofList s)

def breakLine (p : Pen) : Pen := ⟨p.text.push '\n', 0, true, true⟩

/-- To the given column, on a new line unless the line is still fresh and short enough. -/
def indent (p : Pen) (column : Nat) : Pen :=
  let used := !p.fresh || p.column > column || (p.column = column && !p.blank)
  let p := if used then p.breakLine else p
  if p.column < column then
    { p.writeChars (List.replicate (column - p.column) ' ') with blank := true }
  else p

/-- A mark of structure, with a blank before it where one is needed. -/
def indicator (p : Pen) (mark : String) (needsBlank keepsFresh : Bool) : Pen :=
  let q := p.write (if p.blank || !needsBlank then mark else " " ++ mark)
  { q with blank := false, fresh := p.fresh && keepsFresh }

/-- Behind a fold the line no longer counts as fresh. -/
def settled (p : Pen) : Pen := { p with blank := false, fresh := false }

end Pen

def bestWidth : Nat := 80

def sameRun (a b : Char) : Bool :=
  if a = ' ' || a = '\n' then a = b else !(b = ' ' || b = '\n')

def runs : List Char → List (List Char)
  | [] => []
  | c :: rest =>
    match runs rest with
    | (d :: run) :: more =>
      if sameRun c d then (c :: d :: run) :: more else [c] :: (d :: run) :: more
    | more => [c] :: more

/-- A single blank behind the best width becomes a line end. -/
def writePlainRuns (split : Bool) (column : Nat) : List (List Char) → Pen → Pen
  | [], p => p
  | run :: rest, p =>
    let q :=
      if run = [' '] && split && p.column > bestWidth then (p.indent column).settled
      else p.writeChars run
    writePlainRuns split column rest q

def writePlain (split : Bool) (column : Nat) (s : List Char) (p : Pen) : Pen :=
  if s.isEmpty then p
  else writePlainRuns split column (runs s) (if p.blank then p else p.write " ").settled

def doubleQuotes (s : List Char) : List Char :=
  s.flatMap fun c => if c = '\x27' then [c, c] else [c]

/-- As in plain style, but no fold at the ends of the text; of line ends one more is written. -/
def writeSingleRuns (split : Bool) (column : Nat) (isFirst : Bool) : List (List Char) → Pen → Pen
  | [], p => p
  | run :: rest, p =>
    let q :=
      if run.head? = some '\n' then
        (run.foldl (fun q _ => q.breakLine) p.breakLine).indent column
      else if run = [' '] && split && !isFirst && !rest.isEmpty && p.column > bestWidth then
        p.indent column
      else p.writeChars (doubleQuotes run)
    writeSingleRuns split column false rest q

def writeSingle (split : Bool) (column : Nat) (s : List Char) (p : Pen) : Pen :=
  (writeSingleRuns split column true (runs s) (p.indicator "\x27" true false)).indicator "\x27"
    false false

/-- Letters that stand for characters behind a backslash. -/
def escapeLetter? : Char → Option Char
  | '\x00' => some '0'
  | '\x07' => some 'a'
  | '\x08' => some 'b'
  | '\x09' => some 't'
  | '\x0a' => some 'n'
  | '\x0b' => some 'v'
  | '\x0c' => some 'f'
  | '\x0d' => some 'r'
  | '\x1b' => some 'e'
  | '"' => some '"'
  | '\\' => some '\\'
  | '\u0085' => some 'N'
  | '\u00a0' => some '_'
  | '\u2028' => some 'L'
  | '\u2029' => some 'P'
  | _ => none

def needsEscape (c : Char) : Bool := c = '"' || c = '\\' || !('\x20' ≤ c && c ≤ '\x7e')

def escape (c : Char) : List Char :=
  match escapeLetter? c with
  | some letter => ['\\', letter]
  | none =>
    if c.toNat ≤ 0xFF then '\\' :: 'x' :: Text.upperHexDigits 2 c.toNat
    else if c.toNat ≤ 0xFFFF then '\\' :: 'u' :: Text.upperHexDigits 4 c.toNat
    else '\\' :: 'U' :: Text.upperHexDigits 8 c.toNat

/-- A fold inside double quotes: a backslash ends the line, and another keeps a blank that begins
the next one. -/
def foldDouble (column : Nat) (next : Option Char) (p : Pen) : Pen :=
  let p := ((p.write "\\").indent column).settled
  if next = some ' ' then p.write "\\" else p

/-- The list `pending` holds, in reverse, the characters read and not yet written. -/
def writeDoubleFrom (split : Bool) (column : Nat) (isFirst : Bool) (pending : List Char) :
    List Char → Pen → Pen
  | [], p => p.writeChars pending.reverse
  | c :: rest, p =>
    let inside := split && !isFirst && !rest.isEmpty
    if needsEscape c then
      let p := (p.writeChars pending.reverse).writeChars (escape c)
      let p := if inside && p.column > bestWidth + 1 then foldDouble column rest.head? p else p
      writeDoubleFrom split column false [] rest p
    else if inside && (c = ' ' || pending.isEmpty) && p.column + pending.length > bestWidth then
      writeDoubleFrom split column false [c] rest
        (foldDouble column (some c) (p.writeChars pending.reverse))
    else writeDoubleFrom split column false (c :: pending) rest p

def writeDouble (split : Bool) (column : Nat) (s : List Char) (p : Pen) : Pen :=
  (writeDoubleFrom split column true [] s (p.indicator "\x22" true false)).indicator "\x22" false
    false

def writeScalar (style : Style) (split : Bool) (column : Nat) (s : List Char) (p : Pen) : Pen :=
  match style with
  | .plain => writePlain split column s p
  | .single => writeSingle split column s p
  | .double => writeDouble split column s p

end PipelineCompiler.Yaml
