set_option autoImplicit false

namespace PipelineCompiler

/-- Entries in order of first arrival. -/
structure OrderedMap (κ α : Type) where
  entries : List (κ × α)
  deriving Repr, DecidableEq

namespace OrderedMap

variable {κ α β : Type}

/-- The entry of a key is replaced where it stands; a new key goes to the end. -/
def insertEntry [DecidableEq κ] (k : κ) (v : α) : List (κ × α) → List (κ × α)
  | [] => [(k, v)]
  | e :: rest => if e.1 = k then (k, v) :: rest else e :: insertEntry k v rest

/-- The value at the first entry of the key. -/
def lookup [DecidableEq κ] (k : κ) : List (κ × α) → Option α
  | [] => none
  | e :: rest => if e.1 = k then some e.2 else lookup k rest

def empty : OrderedMap κ α := ⟨[]⟩

def insert [DecidableEq κ] (d : OrderedMap κ α) (k : κ) (v : α) : OrderedMap κ α :=
  ⟨insertEntry k v d.entries⟩

def get? [DecidableEq κ] (d : OrderedMap κ α) (k : κ) : Option α := lookup k d.entries

def contains [DecidableEq κ] (d : OrderedMap κ α) (k : κ) : Bool := (d.get? k).isSome

def keys (d : OrderedMap κ α) : List κ := d.entries.map Prod.fst

def values (d : OrderedMap κ α) : List α := d.entries.map Prod.snd

def map (f : α → β) (d : OrderedMap κ α) : OrderedMap κ β := ⟨d.entries.map fun e => (e.1, f e.2)⟩

def size (d : OrderedMap κ α) : Nat := d.entries.length

/-- Entries written one after the other: of two with the same key the later value stays, at the
earlier place. -/
def ofList [DecidableEq κ] (entries : List (κ × α)) : OrderedMap κ α :=
  entries.foldl (fun d e => d.insert e.1 e.2) empty

theorem lookup_insertEntry_self [DecidableEq κ] (k : κ) (v : α) (entries : List (κ × α)) :
    lookup k (insertEntry k v entries) = some v := by
  induction entries with
  | nil => simp [insertEntry, lookup]
  | cons e rest ih => by_cases h : e.1 = k <;> simp [insertEntry, lookup, h, ih]

theorem lookup_insertEntry_of_ne [DecidableEq κ] (k k' : κ) (v : α) (entries : List (κ × α))
    (h : k' ≠ k) : lookup k' (insertEntry k v entries) = lookup k' entries := by
  induction entries with
  | nil => simp [insertEntry, lookup, Ne.symm h]
  | cons e rest ih =>
    by_cases he : e.1 = k
    · have hk : e.1 ≠ k' := fun hc => h (hc ▸ he)
      simp [insertEntry, lookup, he, Ne.symm h]
    · simp [insertEntry, lookup, he, ih]

@[simp] theorem get?_empty [DecidableEq κ] (k : κ) : (empty : OrderedMap κ α).get? k = none := rfl

@[simp] theorem get?_insert_self [DecidableEq κ] (d : OrderedMap κ α) (k : κ) (v : α) :
    (d.insert k v).get? k = some v :=
  lookup_insertEntry_self k v d.entries

theorem get?_insert_of_ne [DecidableEq κ] (d : OrderedMap κ α) (k k' : κ) (v : α) (h : k' ≠ k) :
    (d.insert k v).get? k' = d.get? k' :=
  lookup_insertEntry_of_ne k k' v d.entries h

theorem get?_insert [DecidableEq κ] (d : OrderedMap κ α) (k k' : κ) (v : α) :
    (d.insert k v).get? k' = if k' = k then some v else d.get? k' := by
  by_cases h : k' = k
  · simp [h]
  · simp [h, get?_insert_of_ne]

/-- Writing to a present key moves nothing. -/
theorem keys_insert_of_mem [DecidableEq κ] (d : OrderedMap κ α) (k : κ) (v : α) (h : k ∈ d.keys) :
    (d.insert k v).keys = d.keys := by
  obtain ⟨entries⟩ := d
  simp only [keys, insert] at h ⊢
  induction entries with
  | nil => simp at h
  | cons e rest ih =>
    by_cases he : e.1 = k
    · simp [insertEntry, he]
    · have hr : k ∈ rest.map Prod.fst := by
        rcases List.mem_cons.1 h with hk | hk
        · exact absurd hk.symm he
        · exact hk
      simp [insertEntry, he, ih hr]

/-- A new key goes to the end. -/
theorem keys_insert_of_not_mem [DecidableEq κ] (d : OrderedMap κ α) (k : κ) (v : α)
    (h : k ∉ d.keys) : (d.insert k v).keys = d.keys ++ [k] := by
  obtain ⟨entries⟩ := d
  simp only [keys, insert] at h ⊢
  induction entries with
  | nil => simp [insertEntry]
  | cons e rest ih =>
    simp only [List.map_cons, List.mem_cons, not_or] at h
    simp [insertEntry, Ne.symm h.1, ih h.2]

theorem nodup_keys_insert [DecidableEq κ] (d : OrderedMap κ α) (k : κ) (v : α) (h : d.keys.Nodup) :
    (d.insert k v).keys.Nodup := by
  by_cases hk : k ∈ d.keys
  · rw [keys_insert_of_mem d k v hk]; exact h
  · rw [keys_insert_of_not_mem d k v hk]
    rw [List.nodup_append]
    refine ⟨h, by simp, ?_⟩
    intro a ha b hb
    rw [List.mem_singleton.1 hb]
    exact fun hab => hk (hab ▸ ha)

theorem mem_keys_iff_contains [DecidableEq κ] (d : OrderedMap κ α) (k : κ) :
    k ∈ d.keys ↔ d.contains k = true := by
  obtain ⟨entries⟩ := d
  simp only [keys, contains, get?]
  induction entries with
  | nil => simp [lookup]
  | cons e rest ih =>
    by_cases h : e.1 = k
    · simp [lookup, h]
    · simp [lookup, h, Ne.symm h, ← ih]

end OrderedMap

end PipelineCompiler
