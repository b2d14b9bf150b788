import PipelineCompiler.Yaml.Pen

set_option autoImplicit false

namespace PipelineCompiler.Yaml

/-- Where a part of a document stands among the occurrences of one shared part. -/
inductive Mark where
  | unshared
  | anchor (number : Nat)
  | reference (number : Nat)
  deriving Repr, DecidableEq

/-- Numbers go to shared parts in the order in which they are met for the second time. -/
def anchorNumber {α : Type} [DecidableEq α] (label : α) :
    List (Option α) → List α → List α → Option Nat
  | [], _, numbered => if label ∈ numbered then some (numbered.idxOf label + 1) else none
  | none :: rest, seen, numbered => anchorNumber label rest seen numbered
  | some l :: rest, seen, numbered =>
    if l ∈ seen ∧ l ∉ numbered then anchorNumber label rest seen (numbered ++ [l])
    else anchorNumber label rest (l :: seen) numbered

/-- The marks of parts with the given labels; parts with one label are one shared part. -/
def marksFrom {α : Type} [DecidableEq α] (all : List (Option α)) (seen : List α) :
    List (Option α) → List Mark
  | [] => []
  | none :: rest => .unshared :: marksFrom all seen rest
  | some l :: rest =>
    (match anchorNumber l all [] [] with
      | none => .unshared
      | some n => if l ∈ seen then .reference n else .anchor n) :: marksFrom all (l :: seen) rest

def marks {α : Type} [DecidableEq α] (labels : List (Option α)) : List Mark :=
  marksFrom labels [] labels

/-- The flag `implied` says that the plain text is read back as the value it stands for. -/
inductive Node where
  | scalar (implied : Bool) (text : String)
  | list (anchor : Option Nat) (items : List Node)
  | map (anchor : Option Nat) (fields : List (String × Node))
  | reference (number : Nat)
  deriving Repr, Inhabited

/-- The text of a number: a point is put before an exponent that has none. -/
def floatText : Binary64 → String
  | .notANumber => ".nan"
  | .infinite negative => if negative then "-.inf" else ".inf"
  | x =>
    let text := x.toText.toList
    if text.contains '.' || !text.contains 'e' then x.toText
    else String.ofList (text.takeWhile (· ≠ 'e') ++ ['.', '0'] ++ text.dropWhile (· ≠ 'e'))

mutual

def Node.ofValue : Value → Node
  | .null => .scalar true "null"
  | .bool b => .scalar true (if b then "true" else "false")
  | .int n => .scalar true (toString n)
  | .float x => .scalar true (floatText x)
  | .str s => .scalar (!readsAsOther s.toList) s
  | .list items => .list none (Node.ofItems items)
  | .object fields => .map none (Node.ofFields fields)

def Node.ofItems : List Value → List Node
  | [] => []
  | v :: rest => Node.ofValue v :: Node.ofItems rest

def Node.ofFields : List (String × Value) → List (String × Node)
  | [] => []
  | (k, v) :: rest => (k, Node.ofValue v) :: Node.ofFields rest

end

/-- The node of a value at a place with a mark. Scalars are never shared. -/
def Node.marked (mark : Mark) (v : Value) : Node :=
  match mark, Node.ofValue v with
  | .anchor n, .list _ items => .list (some n) items
  | .anchor n, .map _ fields => .map (some n) fields
  | .reference n, .list _ _ => .reference n
  | .reference n, .map _ _ => .reference n
  | _, node => node

def anchorName (n : Nat) : String :=
  let digits := Nat.toDigits 10 n
  "id" ++ String.ofList (List.replicate (3 - digits.length) '0' ++ digits)

/-- A deeper column: two further, or none at the root of a collection. -/
def deeper : Option Nat → Nat
  | none => 0
  | some column => column + 2

def scalarColumn : Option Nat → Nat
  | none => 2
  | some column => column + 2

/-- The length of a text together with that of its type's mark. -/
def keyLength (key : String) : Nat := key.length + 5

/-- Whether a key fits in front of a colon: not empty, on one line, and short. -/
def isSimpleKey (key : String) : Bool :=
  keyLength key < 128 && key ≠ "" && !key.toList.any isLineBreak

def writeText (implied simpleKey : Bool) (column : Option Nat) (s : List Char) (p : Pen) : Pen :=
  writeScalar (chooseStyle implied simpleKey s) (!simpleKey) (scalarColumn column) s p

def writeAnchor : Option Nat → Pen → Pen
  | none, p => p
  | some n, p => p.indicator ("&" ++ anchorName n) true false

def writeKey (column : Nat) (key : String) (p : Pen) : Pen :=
  let implied := !readsAsOther key.toList
  let p := p.indent column
  if isSimpleKey key then
    (writeText implied true (some column) key.toList p).indicator ":" false false
  else
    let p := writeText implied false (some column) key.toList (p.indicator "?" true true)
    (p.indent column).indicator ":" true true

mutual

/-- A node inside a collection at the given column; `inMap` says that it is the value of a key. -/
def writeNode (inMap : Bool) (column : Option Nat) : Node → Pen → Pen
  | .scalar implied text, p => writeText implied false column text.toList p
  | .reference n, p => p.indicator ("*" ++ anchorName n) true false
  | .list anchor [], p => (writeAnchor anchor p).indicator "[]" true false
  | .list anchor (item :: rest), p =>
    let p := writeAnchor anchor p
    let inner := match column with
      | some c => if inMap && !p.fresh then c else deeper column
      | none => deeper column
    writeItems inner (item :: rest) p
  | .map anchor [], p => (writeAnchor anchor p).indicator "\x7b\x7d" true false
  | .map anchor (field :: rest), p =>
    writeFields (deeper column) (field :: rest) (writeAnchor anchor p)

def writeItems (column : Nat) : List Node → Pen → Pen
  | [], p => p
  | item :: rest, p =>
    writeItems column rest
      (writeNode false (some column) item ((p.indent column).indicator "-" true true))

def writeFields (column : Nat) : List (String × Node) → Pen → Pen
  | [], p => p
  | (key, v) :: rest, p =>
    writeFields column rest (writeNode true (some column) v (writeKey column key p))

end

/-- Whether the document is one plain scalar, which an end mark has to close. -/
def Node.isOpenEnded : Node → Bool
  | .scalar implied text => chooseStyle implied false text.toList = .plain
  | _ => false

def Node.render (n : Node) : String :=
  let p := (writeNode false none n Pen.start).indent 0
  if n.isOpenEnded then ((p.indicator "..." true false).indent 0).text else p.text

def encode (v : Value) : String := (Node.ofValue v).render

end PipelineCompiler.Yaml
