set_option autoImplicit false

/- How alike two texts are: twice the number of characters they share, against the number they have
together. Shared characters are those of the longest common run, of the parts before it, and of the
parts behind it. -/
namespace PipelineCompiler.Text

def commonStart : List Char → List Char → Nat
  | a :: as, b :: bs => if a = b then commonStart as bs + 1 else 0
  | _, _ => 0

/-- A run of `length` characters that stands at `first` in one text and at `second` in another. -/
structure Run where
  first : Nat
  second : Nat
  length : Nat
  deriving Repr, DecidableEq

/-- The longer of two runs, the earlier one if they are equally long. -/
def Run.longer (earlier later : Run) : Run :=
  if earlier.length < later.length then later else earlier

/-- The longest run that starts at the head of `a`. -/
def longestRunAt (i : Nat) (a : List Char) : Nat → List Char → Run
  | _, [] => ⟨0, 0, 0⟩
  | j, b :: bs => Run.longer ⟨i, j, commonStart a (b :: bs)⟩ (longestRunAt i a (j + 1) bs)

def longestRunFrom (b : List Char) : Nat → List Char → Run
  | _, [] => ⟨0, 0, 0⟩
  | i, a :: as => Run.longer (longestRunAt i (a :: as) 0 b) (longestRunFrom b (i + 1) as)

/-- The first of the longest runs of two texts. -/
def longestRun (a b : List Char) : Run := longestRunFrom b 0 a

/-- The number of shared characters; each round looks at shorter parts of `a`. -/
def sharedWithin : Nat → List Char → List Char → Nat
  | 0, _, _ => 0
  | fuel + 1, a, b =>
    let run := longestRun a b
    if run.length = 0 then 0
    else
      sharedWithin fuel (a.take run.first) (b.take run.second) + run.length +
        sharedWithin fuel (a.drop (run.first + run.length)) (b.drop (run.second + run.length))

def shared (a b : List Char) : Nat := sharedWithin a.length a b

structure Likeness where
  shared : Nat
  total : Nat
  text : String
  deriving Repr, DecidableEq

def likeness (word candidate : String) : Likeness :=
  ⟨Text.shared candidate.toList word.toList, candidate.length + word.length, candidate⟩

/-- Six tenths of all characters are shared. -/
def Likeness.isClose (l : Likeness) : Bool := 3 * l.total ≤ 10 * l.shared

/-- Of equally alike texts the alphabetically later one comes first. -/
def Likeness.precedes (l k : Likeness) : Bool :=
  if l.shared * k.total = k.shared * l.total then k.text ≤ l.text
  else k.shared * l.total < l.shared * k.total

def closeTo (word : String) (candidates : List String) : List String :=
  let close := (candidates.map (likeness word)).filter Likeness.isClose
  let best := (close.mergeSort Likeness.precedes).take 3
  (best.map Likeness.text).mergeSort (· ≤ ·)

end PipelineCompiler.Text
