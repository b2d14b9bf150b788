import PipelineCompiler.Data.Value

set_option autoImplicit false

namespace PipelineCompiler.Yaml

def isDigit (c : Char) : Bool := '0' ≤ c && c ≤ '9'

def isDigitOrLine (c : Char) : Bool := isDigit c || c = '_'

def dropSign : List Char → List Char
  | '-' :: s => s
  | '+' :: s => s
  | s => s

def isExponentOrEmpty : List Char → Bool
  | [] => true
  | e :: sign :: digits =>
    (e = 'e' || e = 'E') && (sign = '-' || sign = '+') && !digits.isEmpty && digits.all isDigit
  | _ => false

/-- One or two digits, of two the first at most five. -/
def isSixtieth : List Char → Bool
  | [a] => isDigit a
  | [a, b] => ('0' ≤ a && a ≤ '5') && isDigit b
  | _ => false

def splitColons : List Char → List (List Char)
  | [] => [[]]
  | ':' :: rest => [] :: splitColons rest
  | c :: rest =>
    match splitColons rest with
    | [] => [[c]]
    | part :: parts => (c :: part) :: parts

/-- A number in base sixty: a first part and at least one more. -/
def isSexagesimal (leads : Char → Bool) (s : List Char) : Bool :=
  match splitColons s with
  | (first :: more) :: part :: parts =>
    leads first && more.all isDigitOrLine && (part :: parts).all isSixtieth
  | _ => false

def isNonzeroDigit (c : Char) : Bool := '1' ≤ c && c ≤ '9'

def isInteger (s : List Char) : Bool :=
  match dropSign s with
  | [] => false
  | ['0'] => true
  | '0' :: 'b' :: rest => !rest.isEmpty && rest.all fun c => c = '0' || c = '1' || c = '_'
  | '0' :: 'x' :: rest => !rest.isEmpty && rest.all fun c => (Text.hexValue? c).isSome || c = '_'
  | '0' :: rest => rest.all fun c => ('0' ≤ c && c ≤ '7') || c = '_'
  | c :: rest =>
    (isNonzeroDigit c && rest.all isDigitOrLine) || isSexagesimal isNonzeroDigit (c :: rest)

/-- Digits, a point, digits and perhaps an exponent. -/
def isPointed (s : List Char) : Bool :=
  match s.head?, s.dropWhile isDigitOrLine with
  | some first, '.' :: rest => isDigit first && isExponentOrEmpty (rest.dropWhile isDigitOrLine)
  | _, _ => false

/-- A number in base sixty with a point behind its last part. -/
def isPointedSexagesimal (s : List Char) : Bool :=
  let whole := s.takeWhile (· ≠ '.')
  match s.dropWhile (· ≠ '.') with
  | '.' :: rest => isSexagesimal isDigit whole && rest.all isDigitOrLine
  | _ => false

def isFloating (s : List Char) : Bool :=
  let unsigned := dropSign s
  isPointed unsigned || isPointedSexagesimal unsigned
    || ([".inf", ".Inf", ".INF"].map String.toList).contains unsigned
    || ([".nan", ".NaN", ".NAN"].map String.toList).contains s
    || match s with
      | '.' :: d :: rest => isDigit d && isExponentOrEmpty (rest.dropWhile isDigitOrLine)
      | _ => false

/-- Between `least` and `most` digits are dropped, as many as there are. -/
def dropDigits (least most : Nat) (s : List Char) : Option (List Char) :=
  let count := ((s.take most).takeWhile isDigit).length
  if least ≤ count then some (s.drop count) else none

def dropChar (c : Char) : List Char → Option (List Char)
  | d :: rest => if c = d then some rest else none
  | [] => none

def isGap (c : Char) : Bool := c = ' ' || c = '\t'

/-- Z, or a sign and hours and perhaps minutes. -/
def isZone : List Char → Bool
  | ['Z'] => true
  | sign :: s =>
    (sign = '-' || sign = '+') &&
      match dropDigits 1 2 s with
      | some [] => true
      | some (':' :: rest) => dropDigits 2 2 rest == some []
      | _ => false
  | [] => false

def isDate (s : List Char) : Bool :=
  (do
    let s ← dropChar '-' (← dropDigits 4 4 s)
    let s ← dropChar '-' (← dropDigits 2 2 s)
    dropDigits 2 2 s) == some []

/-- What follows a date: a separator and the time of day, perhaps with a fraction and a zone. -/
def dropClock (s : List Char) : Option (List Char) := do
  let s ← match s with
    | 'T' :: rest => some rest
    | 't' :: rest => some rest
    | c :: rest => if isGap c then some (rest.dropWhile isGap) else none
    | [] => none
  let s ← dropChar ':' (← dropDigits 1 2 s)
  let s ← dropChar ':' (← dropDigits 2 2 s)
  let s ← dropDigits 2 2 s
  match s with
  | '.' :: rest => some (rest.dropWhile isDigit)
  | s => some s

def isMoment (s : List Char) : Bool :=
  match (do
    let s ← dropChar '-' (← dropDigits 4 4 s)
    let s ← dropChar '-' (← dropDigits 1 2 s)
    dropClock (← dropDigits 1 2 s)) with
  | some [] => true
  | some rest => isZone (rest.dropWhile isGap)
  | none => false

def reservedWords : List String :=
  ["yes", "Yes", "YES", "no", "No", "NO", "true", "True", "TRUE", "false", "False", "FALSE",
    "on", "On", "ON", "off", "Off", "OFF", "~", "null", "Null", "NULL", "", "<<", "="]

/-- Whether a plain text would be read as a truth value, a number, a time, nothing, or a special
key. -/
def readsAsOther (s : List Char) : Bool :=
  reservedWords.contains (String.ofList s) || isInteger s || isFloating s || isDate s || isMoment s

structure Analysis where
  multiline : Bool
  allowPlain : Bool
  allowSingle : Bool
  deriving Repr, DecidableEq

def isSpaceOrEnd : Option Char → Bool
  | none => true
  | some c => c = '\x00' || c = ' ' || c = '\t' || c = '\r' || c = '\n'

/-- Characters that cannot begin a plain text. -/
def leadingIndicators : List Char :=
  ['#', ',', '[', ']', '\x7b', '\x7d', '&', '*', '!', '|', '>', '\x27', '\x22', '%', '@', '\x60']

/-- Whether the first character would be taken for structure. -/
def indicatorFirst : List Char → Bool
  | [] => false
  | c :: rest =>
    leadingIndicators.contains c
      || ((c = '?' || c = ':' || c = '-') && isSpaceOrEnd rest.head?)

/-- Whether a later character would be taken for structure: a colon before a blank, or a number
sign behind one. -/
def indicatorLater : List Char → Bool
  | a :: b :: rest =>
    (b = ':' && isSpaceOrEnd rest.head?) || (b = '#' && isSpaceOrEnd (some a))
      || indicatorLater (b :: rest)
  | _ => false

def startsDocument (s : List Char) : Bool :=
  s.take 3 = ['-', '-', '-'] || s.take 3 = ['.', '.', '.']

def hasPair (a b : Char) : List Char → Bool
  | x :: y :: rest => (x = a && y = b) || hasPair a b (y :: rest)
  | _ => false

def isLineBreak (c : Char) : Bool := ['\n', '\u0085', '\u2028', '\u2029'].contains c

/-- A character that only double quotes can hold. -/
def isSpecial (c : Char) : Bool := !(c = '\n' || ('\x20' ≤ c && c ≤ '\x7e'))

def isEdge (c : Option Char) : Bool := c = some ' ' || c = some '\n'

def analyze (s : List Char) : Analysis :=
  let special := s.any isSpecial || hasPair ' ' '\n' s
  let edges := isEdge s.head? || isEdge s.getLast?
  let afterBreak := hasPair '\n' ' ' s
  let multiline := s.any isLineBreak
  { multiline := multiline
    allowPlain := !special && !edges && !afterBreak && !multiline && !startsDocument s
      && !indicatorFirst s && !indicatorLater s
    allowSingle := !special && !afterBreak }

inductive Style where
  | plain
  | single
  | double
  deriving Repr, DecidableEq

/-- The plainest style that holds the text and is read back as it should be. `implied` says that
the plain text is read back so. -/
def chooseStyle (implied simpleKey : Bool) (s : List Char) : Style :=
  let a := analyze s
  if implied && !(simpleKey && (s.isEmpty || a.multiline)) && a.allowPlain then .plain
  else if a.allowSingle && !(simpleKey && a.multiline) then .single
  else .double

end PipelineCompiler.Yaml
