set_option autoImplicit false

namespace PipelineCompiler.Text

def escapeChar : Char := '\x1b'

def isControlParameter (c : Char) : Bool := '0' ≤ c && c ≤ '?'

def isControlIntermediate (c : Char) : Bool := ' ' ≤ c && c ≤ '/'

def isControlFinal (c : Char) : Bool := '@' ≤ c && c ≤ '~'

/-- The length of the control sequence at the start of a text, 0 if there is none. -/
def controlLength (s : List Char) : Nat :=
  match s with
  | c :: '[' :: rest =>
    let parameters := (rest.takeWhile isControlParameter).length
    let intermediates := ((rest.drop parameters).takeWhile isControlIntermediate).length
    match rest.drop (parameters + intermediates) with
    | final :: _ =>
      if c = escapeChar && isControlFinal final then parameters + intermediates + 3 else 0
    | [] => 0
  | _ => 0

/-- The text without its control sequences; the first characters, so many as the number says, belong
to one that has begun before. -/
def withoutControlsFrom : Nat → List Char → List Char
  | _, [] => []
  | n + 1, _ :: rest => withoutControlsFrom n rest
  | 0, c :: rest =>
    match controlLength (c :: rest) with
    | 0 => c :: withoutControlsFrom 0 rest
    | n + 1 => withoutControlsFrom n rest

def withoutControls (s : String) : String := String.ofList (withoutControlsFrom 0 s.toList)

theorem controlLength_eq_zero {c : Char} (rest : List Char) (h : c ≠ escapeChar) :
    controlLength (c :: rest) = 0 := by
  unfold controlLength
  split
  · next heq =>
    obtain ⟨rfl, _⟩ := List.cons.inj heq
    dsimp only
    split <;> simp [h]
  · rfl

theorem withoutControlsFrom_eq_self (s : List Char) (h : escapeChar ∉ s) :
    withoutControlsFrom 0 s = s := by
  induction s with
  | nil => rfl
  | cons c rest ih =>
    have hc : c ≠ escapeChar := fun e => h (e ▸ List.mem_cons_self)
    have hr : escapeChar ∉ rest := fun m => h (List.mem_cons_of_mem c m)
    simp only [withoutControlsFrom, controlLength_eq_zero rest hc, ih hr]

end PipelineCompiler.Text
