import PipelineCompiler.Data.Binary64
import PipelineCompiler.Data.OrderedMap
import PipelineCompiler.Text.Printable

set_option autoImplicit false

namespace PipelineCompiler

inductive Value where
  | null
  | bool (b : Bool)
  | int (n : Int)
  | float (x : Binary64)
  | str (s : String)
  | list (items : List Value)
  | object (fields : List (String × Value))
  deriving Repr, Inhabited

namespace Value

mutual

/-- Structural equality: `1` and `1.0` differ, and so do objects whose keys come in another
order. -/
def same : Value → Value → Bool
  | .null, .null => true
  | .bool a, .bool b => a == b
  | .int a, .int b => a == b
  | .float a, .float b => a == b
  | .str a, .str b => a == b
  | .list a, .list b => sameItems a b
  | .object a, .object b => sameFields a b
  | _, _ => false

def sameItems : List Value → List Value → Bool
  | [], [] => true
  | a :: as, b :: bs => same a b && sameItems as bs
  | _, _ => false

def sameFields : List (String × Value) → List (String × Value) → Bool
  | [], [] => true
  | (k, a) :: as, (l, b) :: bs => k == l && same a b && sameFields as bs
  | _, _ => false

end

mutual

theorem eq_of_same : ∀ (a b : Value), same a b = true → a = b
  | .null, b, h => by cases b <;> simp [same] at h ⊢
  | .bool a, b, h => by cases b <;> simp [same] at h ⊢; exact h
  | .int a, b, h => by cases b <;> simp [same] at h ⊢; exact h
  | .float a, b, h => by cases b <;> simp [same] at h ⊢; exact h
  | .str a, b, h => by cases b <;> simp [same] at h ⊢; exact h
  | .list a, b, h => by
    cases b <;> simp [same] at h ⊢
    exact eq_of_sameItems a _ h
  | .object a, b, h => by
    cases b <;> simp [same] at h ⊢
    exact eq_of_sameFields a _ h

theorem eq_of_sameItems : ∀ (a b : List Value), sameItems a b = true → a = b
  | [], b, h => by cases b <;> simp [sameItems] at h ⊢
  | a :: as, b, h => by
    cases b with
    | nil => simp [sameItems] at h
    | cons b bs =>
      simp only [sameItems, Bool.and_eq_true] at h
      rw [eq_of_same a b h.1, eq_of_sameItems as bs h.2]

theorem eq_of_sameFields : ∀ (a b : List (String × Value)), sameFields a b = true → a = b
  | [], b, h => by cases b <;> simp [sameFields] at h ⊢
  | (k, a) :: as, b, h => by
    cases b with
    | nil => simp [sameFields] at h
    | cons b bs =>
      obtain ⟨l, b⟩ := b
      simp only [sameFields, Bool.and_eq_true, beq_iff_eq] at h
      rw [h.1.1, eq_of_same a b h.1.2, eq_of_sameFields as bs h.2]

end

mutual

theorem same_self : ∀ a : Value, same a a = true
  | .null => rfl
  | .bool _ => by simp [same]
  | .int _ => by simp [same]
  | .float _ => by simp [same]
  | .str _ => by simp [same]
  | .list a => by simpa [same] using sameItems_self a
  | .object a => by simpa [same] using sameFields_self a

theorem sameItems_self : ∀ a : List Value, sameItems a a = true
  | [] => rfl
  | a :: as => by simp [sameItems, same_self a, sameItems_self as]

theorem sameFields_self : ∀ a : List (String × Value), sameFields a a = true
  | [] => rfl
  | (k, a) :: as => by simp [sameFields, same_self a, sameFields_self as]

end

theorem same_iff (a b : Value) : same a b = true ↔ a = b :=
  ⟨eq_of_same a b, fun h => h ▸ same_self a⟩

instance : DecidableEq Value := fun a b => decidable_of_iff _ (same_iff a b)

/-- The name of a value's kind, as suggestions print it. -/
def kindName : Value → String
  | .null => "NoneType"
  | .bool _ => "bool"
  | .int _ => "int"
  | .float _ => "float"
  | .str _ => "str"
  | .list _ => "list"
  | .object _ => "dict"

mutual

/-- The form in which messages quote a value. -/
def quoted : Value → String
  | .null => "None"
  | .bool b => if b then "True" else "False"
  | .int n => toString n
  | .float x => x.toText
  | .str s => Text.quoted s
  | .list items => "[" ++ ", ".intercalate (quotedItems items) ++ "]"
  | .object fields => "\x7b" ++ ", ".intercalate (quotedFields fields) ++ "\x7d"

def quotedItems : List Value → List String
  | [] => []
  | v :: rest => quoted v :: quotedItems rest

def quotedFields : List (String × Value) → List String
  | [] => []
  | (k, v) :: rest => (Text.quoted k ++ ": " ++ quoted v) :: quotedFields rest

end

/-- The form in which messages insert a value: text as it stands, all else quoted. -/
def plain : Value → String
  | .str s => s
  | v => quoted v

/-- The value of a key of an object. -/
def field? (v : Value) (key : String) : Option Value :=
  match v with
  | .object fields => OrderedMap.lookup key fields
  | _ => none

def strings (texts : List String) : Value := .list (texts.map .str)

end Value

end PipelineCompiler
