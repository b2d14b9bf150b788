import PipelineCompiler.Data.Value
import PipelineCompiler.Report
import PipelineCompiler.Text.Basic

set_option autoImplicit false

/- Reading is lenient. Every fault is reported with the path of keys and indices that leads to it,
in the order in which the fields are declared. -/
namespace PipelineCompiler.Model

inductive Problem where
  | missing
  | notText
  | notInteger
  | notIntegerText
  | fractional
  | notFinite
  | tooLarge
  | negative
  | notTruthValue
  | notTruthValueKind
  | notList
  | notObject
  | notRecord (record : String)
  | badVersion (text : String)
  deriving Repr, DecidableEq

def Problem.message : Problem → String
  | .missing => "Field required [type=missing]"
  | .notText => "Input should be a valid string [type=string_type]"
  | .notInteger => "Input should be a valid integer [type=int_type]"
  | .notIntegerText =>
    "Input should be a valid integer, unable to parse string as an integer [type=int_parsing]"
  | .fractional =>
    "Input should be a valid integer, got a number with a fractional part [type=int_from_float]"
  | .notFinite => "Input should be a finite number [type=finite_number]"
  | .tooLarge =>
    "Unable to parse input string as an integer, exceeded maximum size [type=int_parsing_size]"
  | .negative => "Input should be greater than or equal to 0 [type=greater_than_equal]"
  | .notTruthValue =>
    "Input should be a valid boolean, unable to interpret input [type=bool_parsing]"
  | .notTruthValueKind => "Input should be a valid boolean [type=bool_type]"
  | .notList => "Input should be a valid list [type=list_type]"
  | .notObject => "Input should be a valid dictionary [type=dict_type]"
  | .notRecord record =>
    s!"Input should be a valid dictionary or instance of {record} [type=model_type]"
  | .badVersion text =>
    s!"Value error, Invalid CWL version: {text}. Expected a value like 'v1.2' [type=value_error]"

structure Issue where
  path : List String
  problem : Problem
  deriving Repr, DecidableEq

structure Report where
  record : String
  issues : List Issue
  deriving Repr, DecidableEq

/-- A key with points in it is set off from the points between keys. -/
def stepText (step : String) : String :=
  if step.toList.contains '.' then "`" ++ step ++ "`" else step

def Issue.lines (i : Issue) : List String :=
  (if i.path.isEmpty then [] else [".".intercalate (i.path.map stepText)]) ++
    ["  " ++ i.problem.message]

def Report.message (r : Report) : String :=
  let count := r.issues.length
  let noun := if count = 1 then "error" else "errors"
  "\n".intercalate (s!"{count} validation {noun} for {r.record}" :: r.issues.flatMap Issue.lines)

abbrev Reading (α : Type) := Except (List Issue) α

variable {α β : Type}

def fail (p : Problem) : Reading α := .error [⟨[], p⟩]

def within (step : String) (r : Reading α) : Reading α :=
  r.mapError fun issues => issues.map fun i => { i with path := step :: i.path }

/-- Both results, or the issues of the first followed by those of the second. -/
def pair (a : Reading α) (b : Reading β) : Reading (α × β) :=
  match a, b with
  | .ok x, .ok y => .ok (x, y)
  | .ok _, .error e => .error e
  | .error e, .ok _ => .error e
  | .error e, .error f => .error (e ++ f)

theorem pair_eq_ok_iff (a : Reading α) (b : Reading β) (x : α) (y : β) :
    pair a b = .ok (x, y) ↔ a = .ok x ∧ b = .ok y := by
  cases a <;> cases b <;> simp [pair]

/-- The results of all readings, or all their issues in order. -/
def sequence : List (Reading α) → Reading (List α)
  | [] => .ok []
  | r :: rest => (pair r (sequence rest)).map fun p => p.1 :: p.2

def readText : Value → Reading String
  | .str s => .ok s
  | _ => fail .notText

/-- A number from its first digit other than zero on, after zeros and low lines of which the last
is given. A minus may stand there too; before a point, the last of them is kept. -/
def afterZeros (last : Char) : List Char → Option (List Char)
  | [] => some [last]
  | c :: rest =>
    if c = '0' || c = '_' then afterZeros c rest
    else if c.isDigit || c = '-' then some (c :: rest)
    else if c = '.' then some (last :: c :: rest)
    else none

def withoutZerosBefore : List Char → Option (List Char)
  | [] => none
  | c :: rest =>
    if c = '0' then afterZeros c rest else if c.isDigit then some (c :: rest) else none

/-- What stands before a point that only zeros follow, one at least. -/
def beforeZeros (s : List Char) : List Char :=
  match s.dropWhile (· ≠ '.') with
  | '.' :: zeros => if !zeros.isEmpty && zeros.all (· = '0') then s.takeWhile (· ≠ '.') else s
  | _ => s

/-- Low lines stand between other characters; `between` says that another one came before. -/
def withoutLinesFrom (between : Bool) : List Char → Option (List Char)
  | [] => if between then some [] else none
  | '_' :: rest => if between then withoutLinesFrom false rest else none
  | c :: rest => (withoutLinesFrom true rest).map (c :: ·)

def naturalOfDigits (digits : List Char) : Nat :=
  digits.foldl (fun n c => n * 10 + (c.toNat - 0x30)) 0

def plainNatural (digits : List Char) : Option Nat :=
  match digits with
  | [] => none
  | first :: rest =>
    if digits.all Char.isDigit && (first ≠ '0' || rest.isEmpty) then some (naturalOfDigits digits)
    else none

def plainInteger : List Char → Option Int
  | '-' :: digits => (plainNatural digits).map fun n => -(n : Int)
  | digits => (plainNatural digits).map Int.ofNat

/-- A number as a person may write it, down to what counts. -/
def essentialNumber (s : List Char) : Option (List Char) := do
  withoutLinesFrom false (beforeZeros (← withoutZerosBefore s))

/-- An integer as a text: blanks around it, one sign, zeros before it, single low lines, and a point
with zeros are allowed. -/
def integerOfText (s : String) : Option Int := do
  match Text.trim s.toList with
  | '+' :: rest => plainInteger (← essentialNumber rest)
  | '-' :: rest => plainInteger ('-' :: (← essentialNumber rest))
  | rest => plainInteger (← essentialNumber rest)

/-- Whole floating numbers count as integers below this size. -/
def wholeBound : Nat := Nat.pow 2 63

def readInteger : Value → Reading Int
  | .int n => .ok n
  | .bool b => .ok (if b then 1 else 0)
  | .float x =>
    if !x.isFinite then fail .notFinite
    else
      match x.toInt? with
      | none => fail .fractional
      | some n => if n.natAbs < wholeBound then .ok n else fail .tooLarge
  | .str s =>
    match integerOfText s with
    | some n => if hasNumeral n then .ok n else fail .tooLarge
    | none => fail .notIntegerText
  | _ => fail .notInteger

def readIndex (v : Value) : Reading Nat :=
  match readInteger v with
  | .ok n => if n < 0 then fail .negative else .ok n.toNat
  | .error e => .error e

/-- Words for no and yes, in ASCII letters of either case. -/
def truthOfText (s : String) : Option Bool :=
  let word := String.ofList (s.toList.map Char.toLower)
  if ["0", "off", "f", "false", "n", "no"].contains word then some false
  else if ["1", "on", "t", "true", "y", "yes"].contains word then some true
  else none

/-- Integers of 64 bits other than 0 and 1 are refused as numbers, larger ones as no truth value
at all. -/
def readTruthOfInteger (n : Int) : Reading Bool :=
  if n = 0 then .ok false
  else if n = 1 then .ok true
  else if -(wholeBound : Int) ≤ n ∧ n < wholeBound then fail .notTruthValue
  else fail .notTruthValueKind

def readTruth : Value → Reading Bool
  | .bool b => .ok b
  | .int n => readTruthOfInteger n
  | .float x =>
    match x.toInt? with
    | some n => if n.natAbs < wholeBound then readTruthOfInteger n else fail .notTruthValueKind
    | none => fail .notTruthValueKind
  | .str s =>
    match truthOfText s with
    | some b => .ok b
    | none => fail .notTruthValue
  | _ => fail .notTruthValueKind

/-- Each item is read; issues stand below its index. -/
def readItems (read : Value → Reading α) (items : List Value) : Reading (List α) :=
  sequence (items.mapIdx fun i v => within (toString i) (read v))

def readList (read : Value → Reading α) : Value → Reading (List α)
  | .list items => readItems read items
  | _ => fail .notList

def readObject : Value → Reading (OrderedMap String Value)
  | .object fields => .ok ⟨fields⟩
  | _ => fail .notObject

/-- An object whose values are texts; issues stand below their keys. -/
def readTexts : Value → Reading (OrderedMap String String)
  | .object fields =>
    let entries := fields.map fun e => within e.1 ((readText e.2).map fun s => (e.1, s))
    (sequence entries).map OrderedMap.mk
  | _ => fail .notObject

def readOptional (read : Value → Reading α) : Value → Reading (Option α)
  | .null => .ok none
  | v => (read v).map some

/-- The names under which a field may be given; the first that is present counts. -/
abbrev Names := List String

def findField (fields : List (String × Value)) : Names → Option (String × Value)
  | [] => none
  | name :: rest =>
    match OrderedMap.lookup name fields with
    | some v => some (name, v)
    | none => findField fields rest

def required (names : Names) (read : Value → Reading α) (fields : List (String × Value)) :
    Reading α :=
  match findField fields names with
  | some (name, v) => within name (read v)
  | none => within (names.headD "") (fail .missing)

def optional (names : Names) (read : Value → Reading α) (default : α)
    (fields : List (String × Value)) : Reading α :=
  match findField fields names with
  | some (name, v) => within name (read v)
  | none => .ok default

def readRecord (record : String) (read : List (String × Value) → Reading α) : Value → Reading α
  | .object fields => read fields
  | _ => fail (.notRecord record)

def report (record : String) (r : Reading α) : Except Report α :=
  r.mapError fun issues => ⟨record, issues⟩

end PipelineCompiler.Model
