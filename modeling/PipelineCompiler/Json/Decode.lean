import PipelineCompiler.Data.Value
import PipelineCompiler.Json.Dialect
import PipelineCompiler.Report
import PipelineCompiler.Text.Basic

set_option autoImplicit false

/- Besides the standard's texts, the words `NaN`, `Infinity` and `-Infinity` are numbers; of fields
with one name the last value counts, at the first place. A text that cannot be read is reported with
the first place where it goes wrong. -/
namespace PipelineCompiler.Json

inductive Bracket where
  | object
  | array
  deriving Repr, DecidableEq

def Bracket.name : Bracket → String
  | .object => "object"
  | .array => "array"

inductive Fault where
  | byteOrderMark
  | expectingValue
  | expectingName
  | expectingColon
  | expectingComma
  | extraData
  | unterminatedText
  | controlCharacter
  | badEscape
  | badCodeEscape
  | tooManyDigits (count : Nat)
  | tooDeep (b : Bracket)
  deriving Repr, DecidableEq

def Fault.message : Fault → String
  | .byteOrderMark => "Unexpected UTF-8 BOM (decode using utf-8-sig)"
  | .expectingValue => "Expecting value"
  | .expectingName => "Expecting property name enclosed in double quotes"
  | .expectingColon => "Expecting ':' delimiter"
  | .expectingComma => "Expecting ',' delimiter"
  | .extraData => "Extra data"
  | .unterminatedText => "Unterminated string starting at"
  | .controlCharacter => "Invalid control character at"
  | .badEscape => "Invalid \\escape"
  | .badCodeEscape => "Invalid \\uXXXX escape"
  | .tooManyDigits count => digitLimitText s!": value has {count} digits"
  | .tooDeep b =>
    s!"maximum recursion depth exceeded while decoding a JSON {b.name} from a unicode string"

/-- Whether the text is JSON so far, but more than the reader can take. -/
def Fault.isLimit : Fault → Bool
  | .tooManyDigits _ | .tooDeep _ => true
  | _ => false

/-- What is wrong and where: line and column count from one, the offset from zero. -/
structure Failure where
  fault : Fault
  line : Nat
  column : Nat
  offset : Nat
  deriving Repr, DecidableEq

def Failure.message (f : Failure) : String :=
  if f.fault.isLimit then f.fault.message
  else f.fault.message ++ s!": line {f.line} column {f.column} (char {f.offset})"

/-- A reader gives a result and the characters behind it, or a fault and the characters from the
faulty place on. -/
abbrev Reader (α : Type) := List Char → Except (Fault × List Char) (α × List Char)

def isBlank (c : Char) : Bool := c = ' ' || c = '\t' || c = '\n' || c = '\r'

def skipBlank (s : List Char) : List Char := s.dropWhile isBlank

/-- The code unit of the first four hexadecimal digits, when another character follows them. -/
def codeUnit? : List Char → Option Nat
  | a :: b :: c :: d :: _ :: _ => do
    let a ← Text.hexValue? a
    let b ← Text.hexValue? b
    let c ← Text.hexValue? c
    let d ← Text.hexValue? d
    some (((a * 16 + b) * 16 + c) * 16 + d)
  | _ => none

def plainEscape? : Char → Option Char
  | '"' => some '"'
  | '\\' => some '\\'
  | '/' => some '/'
  | 'b' => some '\x08'
  | 'f' => some '\x0c'
  | 'n' => some '\n'
  | 'r' => some '\r'
  | 't' => some '\t'
  | _ => none

def joinSurrogates? (high low : Nat) : Option Char :=
  if 0xD800 ≤ high ∧ high < 0xDC00 ∧ 0xDC00 ≤ low ∧ low < 0xE000 then
    some (Char.ofNat (0x10000 + (high - 0xD800) * 0x400 + (low - 0xDC00)))
  else none

/-- The code point of an escape whose backslash has been read, and the number of characters that
belong to it. -/
def readEscape (opening : List Char) (rest : List Char) :
    Except (Fault × List Char) (CodePoint × Nat) :=
  match rest with
  | [] => .error (.unterminatedText, opening)
  | 'u' :: digits =>
    match codeUnit? digits with
    | none => .error (.badCodeEscape, rest)
    | some high =>
      if 0xD800 ≤ high ∧ high < 0xDC00 then
        match digits.drop 4 with
        | '\\' :: 'u' :: second =>
          match codeUnit? second with
          | none => .error (.badCodeEscape, 'u' :: second)
          | some low =>
            match joinSurrogates? high low with
            | some c => .ok (.char c, 11)
            | none => .ok (.ofUnit high, 5)
        | _ => .ok (.ofUnit high, 5)
      else .ok (.ofUnit high, 5)
  | c :: _ =>
    match plainEscape? c with
    | some c => .ok (.char c, 1)
    | none => .error (.badEscape, '\\' :: rest)

/-- The code points of a text whose opening quote has been read; the first `skip` characters belong
to an escape already read. -/
def readText (opening : List Char) : Nat → Reader (List CodePoint)
  | _, [] => .error (.unterminatedText, opening)
  | skip + 1, _ :: rest => readText opening skip rest
  | 0, c :: rest =>
    if c = '"' then .ok ([], rest)
    else if c = '\\' then
      match readEscape opening rest with
      | .error e => .error e
      | .ok (d, width) => (readText opening width rest).map fun r => (d :: r.1, r.2)
    else if c < ' ' then .error (.controlCharacter, c :: rest)
    else (readText opening 0 rest).map fun r => (.char c :: r.1, r.2)

def digitsValue (digits : List Char) : Nat :=
  digits.foldl (fun n c => n * 10 + (c.toNat - 0x30)) 0

def isDigit (c : Char) : Bool := '0' ≤ c && c ≤ '9'

/-- The digits before point and exponent: one zero, or digits that start with no zero. -/
def wholeDigits : List Char → List Char
  | '0' :: _ => ['0']
  | s => s.takeWhile isDigit

def fractionDigits : List Char → List Char
  | '.' :: s => s.takeWhile isDigit
  | _ => []

def exponentPart : List Char → Option (Int × Nat)
  | e :: s =>
    if e = 'e' ∨ e = 'E' then
      let (negative, signs) := match s with
        | '+' :: _ => (false, 1)
        | '-' :: _ => (true, 1)
        | _ => (false, 0)
      let digits := (s.drop signs).takeWhile isDigit
      if digits.isEmpty then none
      else
        let n : Int := digitsValue digits
        some (if negative then -n else n, 1 + signs + digits.length)
    else none
  | [] => none

/-- A number: an integer unless it has a fraction or an exponent. -/
def readNumber : Reader Value := fun s =>
  let (negative, unsigned) := match s with
    | '-' :: rest => (true, rest)
    | _ => (false, s)
  let whole := wholeDigits unsigned
  if whole.isEmpty then .error (.expectingValue, s)
  else
    let afterWhole := unsigned.drop whole.length
    let fraction := fractionDigits afterWhole
    let afterFraction :=
      if fraction.isEmpty then afterWhole else afterWhole.drop (fraction.length + 1)
    match exponentPart afterFraction with
    | some (power, width) =>
      .ok (.float (Binary64.ofDecimal negative (digitsValue (whole ++ fraction))
        (power - fraction.length)), afterFraction.drop width)
    | none =>
      if fraction.isEmpty then
        let n : Int := digitsValue whole
        if whole.length ≤ digitLimit then .ok (.int (if negative then -n else n), afterFraction)
        else .error (.tooManyDigits whole.length, s)
      else
        .ok (.float (Binary64.ofDecimal negative (digitsValue (whole ++ fraction))
          (-fraction.length)), afterFraction)

def readWord : List Char → Option (Value × List Char)
  | 'n' :: 'u' :: 'l' :: 'l' :: rest => some (.null, rest)
  | 't' :: 'r' :: 'u' :: 'e' :: rest => some (.bool true, rest)
  | 'f' :: 'a' :: 'l' :: 's' :: 'e' :: rest => some (.bool false, rest)
  | 'N' :: 'a' :: 'N' :: rest => some (.float .notANumber, rest)
  | 'I' :: 'n' :: 'f' :: 'i' :: 'n' :: 'i' :: 't' :: 'y' :: rest =>
    some (.float (.infinite false), rest)
  | '-' :: 'I' :: 'n' :: 'f' :: 'i' :: 'n' :: 'i' :: 't' :: 'y' :: rest =>
    some (.float (.infinite true), rest)
  | _ => none

/-- The room inside of an object or a list, if it can be opened. -/
def roomInside : Option Nat → Option (Option Nat)
  | none => some none
  | some 0 => none
  | some (room + 1) => some (some room)

section

variable [Dialect]

mutual

/-- A value at the start of the characters. Of two steps in a row one reads a character at least,
so that fuel beyond twice the number of characters is never used up. -/
def readValue (room : Option Nat) : Nat → Reader Value
  | 0, s => .error (.expectingValue, s)
  | fuel + 1, s =>
    match s with
    | '"' :: rest => (readText s 0 rest).map fun r => (.str (hold r.1), r.2)
    | '\x7b' :: rest =>
      match roomInside room with
      | none => .error (.tooDeep .object, s)
      | some room =>
        match skipBlank rest with
        | '\x7d' :: rest => .ok (.object [], rest)
        | rest =>
          (readFields room fuel rest).map fun r => (.object (OrderedMap.ofList r.1).entries, r.2)
    | '[' :: rest =>
      match roomInside room with
      | none => .error (.tooDeep .array, s)
      | some room =>
        match skipBlank rest with
        | ']' :: rest => .ok (.list [], rest)
        | rest => (readItems room fuel rest).map fun r => (.list r.1, r.2)
    | _ =>
      match readWord s with
      | some r => .ok r
      | none => readNumber s

def readFields (room : Option Nat) : Nat → Reader (List (String × Value))
  | 0, s => .error (.expectingValue, s)
  | fuel + 1, s =>
    match s with
    | '"' :: rest => do
      let (name, rest) ← readText s 0 rest
      match skipBlank rest with
      | ':' :: rest =>
        let (v, rest) ← readValue room fuel (skipBlank rest)
        match skipBlank rest with
        | '\x7d' :: rest => .ok ([(hold name, v)], rest)
        | ',' :: rest =>
          let (fields, rest) ← readFields room fuel (skipBlank rest)
          .ok ((hold name, v) :: fields, rest)
        | rest => .error (.expectingComma, rest)
      | rest => .error (.expectingColon, rest)
    | _ => .error (.expectingName, s)

def readItems (room : Option Nat) : Nat → Reader (List Value)
  | 0, s => .error (.expectingValue, s)
  | fuel + 1, s => do
    let (v, rest) ← readValue room fuel s
    match skipBlank rest with
    | ']' :: rest => .ok ([v], rest)
    | ',' :: rest =>
      let (items, rest) ← readItems room fuel (skipBlank rest)
      .ok (v :: items, rest)
    | rest => .error (.expectingComma, rest)

end

def readDocument (s : List Char) : Except (Fault × List Char) Value :=
  match s with
  | '\uFEFF' :: _ => .error (.byteOrderMark, s)
  | _ => do
    let (v, rest) ← readValue Dialect.room (2 * s.length + 1) (skipBlank s)
    match skipBlank rest with
    | [] => .ok v
    | rest => .error (.extraData, rest)

def Failure.locate (s : List Char) (fault : Fault) (rest : List Char) : Failure :=
  let offset := s.length - rest.length
  ⟨fault, Text.lineOf (s.take offset), Text.columnOf (s.take offset), offset⟩

def decode (text : String) : Except Failure Value :=
  (readDocument text.toList).mapError fun e => Failure.locate text.toList e.1 e.2

end

end PipelineCompiler.Json
