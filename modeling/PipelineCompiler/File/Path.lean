set_option autoImplicit false

namespace PipelineCompiler

/-- The root is empty, one slash, or two. -/
structure Path where
  root : List Char
  names : List (List Char)
  deriving Repr, DecidableEq

namespace Path

def splitSlashes : List Char → List (List Char)
  | [] => [[]]
  | '/' :: rest => [] :: splitSlashes rest
  | c :: rest =>
    match splitSlashes rest with
    | [] => [[c]]
    | part :: parts => (c :: part) :: parts

/-- Exactly two slashes at the start are a root of their own; any other number counts as one. -/
def rootOf (s : List Char) : List Char :=
  match (s.takeWhile (· = '/')).length with
  | 0 => []
  | 2 => ['/', '/']
  | _ => ['/']

def ofText (text : String) : Path :=
  ⟨rootOf text.toList, (splitSlashes text.toList).filter fun part => part ≠ [] && part ≠ ['.']⟩

def joinSlashes : List (List Char) → List Char
  | [] => []
  | [name] => name
  | name :: rest => name ++ '/' :: joinSlashes rest

def text (p : Path) : String :=
  match p.root, p.names with
  | [], [] => "."
  | root, names => String.ofList (root ++ joinSlashes names)

def name (p : Path) : List Char := p.names.getLast?.getD []

/-- The last point of the last name and what follows it; a point at either end does not count. -/
def suffix (p : Path) : String :=
  let ending := (p.name.reverse.takeWhile (· ≠ '.')).reverse
  let stem := p.name.length - ending.length - 1
  if ending.length < p.name.length ∧ ending ≠ [] ∧ 0 < stem then String.ofList ('.' :: ending)
  else ""

def parent (p : Path) : Path := { p with names := p.names.dropLast }

def child (p : Path) (name : String) : Path := { p with names := p.names ++ [name.toList] }

/-- The folder that is said to be a user's home. Slashes at its end do not count; a tilde at its
start would stand for a home that has to be looked up elsewhere. -/
def home? (text : String) : Option Path :=
  match (text.toList.reverse.dropWhile (· = '/')).reverse with
  | [] => some ⟨['/'], []⟩
  | '~' :: _ => none
  | kept => some (ofText (String.ofList kept))

/-- No name of a file holds a null character. -/
def isMalformed (p : Path) : Bool := p.names.any fun name => name.contains '\x00'

def byteLength (s : List Char) : Nat := (String.ofList s).utf8ByteSize

def nameLimit : Nat := 255

def textLimit : Nat := 4095

def isTooLong (p : Path) : Bool := textLimit < byteLength p.text.toList

def hasLongName (p : Path) : Bool := nameLimit < byteLength p.name

/-- The path ends with points, or in the root: it names a folder by its place. -/
def endsInPoints (p : Path) : Bool := p.name = [] || p.name = ['.', '.']

end Path

end PipelineCompiler
