import Mathlib.Data.List.Nodup
import PipelineCompiler.Data.OrderedMap

set_option autoImplicit false

namespace PipelineCompiler.OrderedMap

variable {κ α β : Type} [DecidableEq κ]

def insertAll (d : OrderedMap κ α) (entries : List (κ × α)) : OrderedMap κ α :=
  entries.foldl (fun d e => d.insert e.1 e.2) d

/-- The values that go to one key. -/
def written (k : κ) (entries : List (κ × α)) : List α :=
  entries.filterMap fun e => if e.1 = k then some e.2 else none

theorem written_cons (k : κ) (e : κ × α) (rest : List (κ × α)) :
    written k (e :: rest) = if e.1 = k then e.2 :: written k rest else written k rest := by
  by_cases here : e.1 = k <;> simp [written, here]

theorem written_append (k : κ) (first second : List (κ × α)) :
    written k (first ++ second) = written k first ++ written k second :=
  List.filterMap_append

theorem written_map {γ : Type} (key : γ → κ) (value : γ → α) (k : κ) (xs : List γ) :
    written k (xs.map fun x => (key x, value x)) = (xs.filter fun x => key x = k).map value := by
  induction xs with
  | nil => rfl
  | cons x rest ih =>
    rw [List.map_cons, written_cons, ih, List.filter_cons]
    by_cases here : key x = k <;> simp [here]

@[simp] theorem insertAll_nil (d : OrderedMap κ α) : d.insertAll [] = d := rfl

@[simp] theorem insertAll_cons (d : OrderedMap κ α) (e : κ × α) (entries : List (κ × α)) :
    d.insertAll (e :: entries) = (d.insert e.1 e.2).insertAll entries := rfl

theorem insertAll_append (d : OrderedMap κ α) (first second : List (κ × α)) :
    d.insertAll (first ++ second) = (d.insertAll first).insertAll second :=
  List.foldl_append

theorem ofList_eq_insertAll (entries : List (κ × α)) :
    ofList entries = (empty : OrderedMap κ α).insertAll entries := rfl

/-- The last write to a key decides. -/
theorem get?_insertAll (d : OrderedMap κ α) (entries : List (κ × α)) (k : κ) :
    (d.insertAll entries).get? k = (written k entries).getLast?.or (d.get? k) := by
  induction entries generalizing d with
  | nil => rfl
  | cons e rest ih =>
    rw [insertAll_cons, ih, get?_insert, written_cons]
    by_cases here : e.1 = k
    · rw [if_pos here.symm, if_pos here, List.getLast?_cons]
      cases (written k rest).getLast? <;> rfl
    · rw [if_neg (Ne.symm here), if_neg here]

theorem mem_keys_insert (d : OrderedMap κ α) (k other : κ) (v : α) :
    other ∈ (d.insert k v).keys ↔ other = k ∨ other ∈ d.keys := by
  by_cases known : k ∈ d.keys
  · rw [keys_insert_of_mem d k v known]
    constructor
    · exact .inr
    · intro given
      rcases given with rfl | member
      · exact known
      · exact member
  · rw [keys_insert_of_not_mem d k v known, List.mem_append, List.mem_singleton, or_comm]

theorem mem_keys_insertAll (d : OrderedMap κ α) (entries : List (κ × α)) (k : κ) :
    k ∈ (d.insertAll entries).keys ↔ k ∈ d.keys ∨ k ∈ entries.map Prod.fst := by
  induction entries generalizing d with
  | nil => simp
  | cons e rest ih =>
    rw [insertAll_cons, ih, mem_keys_insert, List.map_cons, List.mem_cons]
    constructor
    · intro given
      rcases given with (rfl | old) | later
      · exact .inr (.inl rfl)
      · exact .inl old
      · exact .inr (.inr later)
    · intro given
      rcases given with old | rfl | later
      · exact .inl (.inr old)
      · exact .inl (.inl rfl)
      · exact .inr later

theorem mem_entries_insert (d : OrderedMap κ α) (k : κ) (v : α) (e : κ × α)
    (member : e ∈ (d.insert k v).entries) : e = (k, v) ∨ e ∈ d.entries := by
  obtain ⟨entries⟩ := d
  simp only [insert] at member ⊢
  induction entries with
  | nil => exact .inl (List.mem_singleton.1 member)
  | cons first rest ih =>
    rw [insertEntry] at member
    split at member
    · rcases List.mem_cons.1 member with rfl | later
      · exact .inl rfl
      · exact .inr (List.mem_cons_of_mem first later)
    · rcases List.mem_cons.1 member with rfl | later
      · exact .inr List.mem_cons_self
      · exact (ih later).imp id (List.mem_cons_of_mem first)

theorem mem_entries_insertAll (d : OrderedMap κ α) (entries : List (κ × α)) (e : κ × α)
    (member : e ∈ (d.insertAll entries).entries) : e ∈ entries ∨ e ∈ d.entries := by
  induction entries generalizing d with
  | nil => exact .inr member
  | cons first rest ih =>
    rcases ih (d.insert first.1 first.2) member with later | early
    · exact .inl (List.mem_cons_of_mem first later)
    · rcases mem_entries_insert d first.1 first.2 e early with rfl | old
      · exact .inl List.mem_cons_self
      · exact .inr old

theorem get?_ofList (entries : List (κ × α)) (k : κ) :
    (ofList entries).get? k = (written k entries).getLast? := by
  rw [ofList_eq_insertAll, get?_insertAll, get?_empty, Option.or_none]

theorem mem_keys_ofList (entries : List (κ × α)) (k : κ) :
    k ∈ (ofList entries).keys ↔ k ∈ entries.map Prod.fst := by
  rw [ofList_eq_insertAll, mem_keys_insertAll]
  constructor
  · intro known
    rcases known with old | written
    · cases old
    · exact written
  · exact .inr

theorem mem_of_mem_entries_ofList (entries : List (κ × α)) (e : κ × α)
    (member : e ∈ (ofList entries).entries) : e ∈ entries := by
  rcases mem_entries_insertAll empty entries e member with written | old
  · exact written
  · cases old

theorem entries_insert_of_not_mem (d : OrderedMap κ α) (k : κ) (v : α) (fresh : k ∉ d.keys) :
    (d.insert k v).entries = d.entries ++ [(k, v)] := by
  obtain ⟨entries⟩ := d
  simp only [keys, insert] at fresh ⊢
  induction entries with
  | nil => rfl
  | cons first rest ih =>
    rw [List.map_cons, List.mem_cons, not_or] at fresh
    rw [insertEntry, if_neg (Ne.symm fresh.1), ih fresh.2, List.cons_append]

/-- Writing to keys that are new and distinct appends. -/
theorem entries_insertAll_of_nodup (d : OrderedMap κ α) (entries : List (κ × α))
    (distinct : (d.keys ++ entries.map Prod.fst).Nodup) :
    (d.insertAll entries).entries = d.entries ++ entries := by
  induction entries generalizing d with
  | nil => simp
  | cons e rest ih =>
    have fresh : e.1 ∉ d.keys := by
      intro known
      rw [List.nodup_append] at distinct
      exact distinct.2.2 e.1 known e.1 (by simp) rfl
    have later : ((d.insert e.1 e.2).keys ++ rest.map Prod.fst).Nodup := by
      rw [keys_insert_of_not_mem d e.1 e.2 fresh]
      simpa using distinct
    rw [insertAll_cons, ih _ later, entries_insert_of_not_mem d e.1 e.2 fresh,
      List.append_assoc, List.singleton_append]

theorem entries_ofList_of_nodup (entries : List (κ × α))
    (distinct : (entries.map Prod.fst).Nodup) : (ofList entries).entries = entries :=
  entries_insertAll_of_nodup empty entries distinct

theorem get?_of_mem_entries (d : OrderedMap κ α) (distinct : d.keys.Nodup) (e : κ × α)
    (member : e ∈ d.entries) : d.get? e.1 = some e.2 := by
  obtain ⟨entries⟩ := d
  simp only [keys, get?] at distinct member ⊢
  induction entries with
  | nil => cases member
  | cons first rest ih =>
    obtain ⟨fresh, distinct⟩ := List.nodup_cons.1 distinct
    rw [lookup]
    rcases List.mem_cons.1 member with rfl | later
    · rw [if_pos rfl]
    · have apart : first.1 ≠ e.1 := fun same => fresh (same ▸ List.mem_map_of_mem later)
      rw [if_neg apart]
      exact ih distinct later

theorem mem_entries_of_get? (d : OrderedMap κ α) (k : κ) (v : α) (found : d.get? k = some v) :
    (k, v) ∈ d.entries := by
  obtain ⟨entries⟩ := d
  simp only [get?] at found
  induction entries with
  | nil => cases found
  | cons e rest ih =>
    rw [lookup] at found
    split at found
    · rename_i here
      cases found
      rw [← here]
      exact List.mem_cons_self
    · exact List.mem_cons_of_mem e (ih found)

/-- Looking up distinct keys in their order gives the entries back. -/
theorem filterMap_keys_get? (d : OrderedMap κ α) (distinct : d.keys.Nodup) :
    d.keys.filterMap (fun k => (d.get? k).map fun v => (k, v)) = d.entries := by
  rw [keys, List.filterMap_map]
  conv => rhs; rw [← List.filterMap_some (l := d.entries)]
  apply List.filterMap_congr
  intro e member
  rw [Function.comp_apply, d.get?_of_mem_entries distinct e member]
  rfl

theorem get?_map (f : α → β) (d : OrderedMap κ α) (k : κ) :
    (d.map f).get? k = (d.get? k).map f := by
  obtain ⟨entries⟩ := d
  simp only [map, get?]
  induction entries with
  | nil => rfl
  | cons e rest ih =>
    rw [List.map_cons, lookup, lookup]
    split
    · rfl
    · exact ih

theorem lookup_append (k : κ) (first second : List (κ × α)) :
    lookup k (first ++ second) = (lookup k first).or (lookup k second) := by
  induction first with
  | nil => rfl
  | cons e rest ih => by_cases here : e.1 = k <;> simp [lookup, here, ih]

theorem lookup_eq_none (k : κ) (entries : List (κ × α)) (absent : k ∉ entries.map Prod.fst) :
    lookup k entries = none := by
  have empty := mt (mem_keys_iff_contains ⟨entries⟩ k).2 absent
  rwa [contains, Option.not_isSome_iff_eq_none] at empty

/-- Of the elements that write to one key the last decides. -/
theorem get?_ofList_map {γ : Type} (key : γ → κ) (value : γ → α) (xs : List γ) (k : κ) :
    (ofList (xs.map fun x => (key x, value x))).get? k =
      (xs.filter fun x => key x = k).getLast?.map value := by
  rw [get?_ofList, written_map, List.getLast?_map]

theorem written_eq_nil (k : κ) (entries : List (κ × α)) (absent : k ∉ entries.map Prod.fst) :
    written k entries = [] := by
  rw [written, List.filterMap_eq_nil_iff]
  intro e member
  exact if_neg fun (here : e.1 = k) => absent (here ▸ List.mem_map_of_mem member)

theorem written_ne_nil (k : κ) (entries : List (κ × α)) (listed : k ∈ entries.map Prod.fst) :
    written k entries ≠ [] := by
  obtain ⟨e, member, here⟩ := List.mem_map.1 listed
  have value : e.2 ∈ written k entries :=
    List.mem_filterMap.2 ⟨e, member, if_pos here⟩
  exact List.ne_nil_of_mem value

/-- A key to which only one of several elements writes is left as that element writes it. -/
theorem get?_ofList_flatMap_of_alone {γ : Type} (entriesOf : γ → List (κ × α)) (xs : List γ)
    (once : xs.Nodup) (x : γ) (member : x ∈ xs) (k : κ)
    (alone : ∀ y ∈ xs, y ≠ x → k ∉ (entriesOf y).map Prod.fst) :
    (ofList (xs.flatMap entriesOf)).get? k = (ofList (entriesOf x)).get? k := by
  obtain ⟨before, after, rfl⟩ := List.append_of_mem member
  have silent : ∀ others : List γ, x ∉ others → (∀ y ∈ others, y ∈ before ++ x :: after) →
      written k (others.flatMap entriesOf) = [] := by
    intro others absent among
    apply written_eq_nil
    rw [List.map_flatMap, List.mem_flatMap]
    rintro ⟨y, other, writes⟩
    exact alone y (among y other) (fun same => absent (same ▸ other)) writes
  rw [List.nodup_middle, List.nodup_cons, List.mem_append, not_or] at once
  have early := silent before once.1.1 (by simp +contextual)
  have late := silent after once.1.2 (by simp +contextual)
  rw [get?_ofList, get?_ofList, List.flatMap_append, List.flatMap_cons, written_append,
    written_append, early, late, List.nil_append, List.append_nil]

theorem get?_ofList_eq_none (entries : List (κ × α)) (k : κ) (absent : k ∉ entries.map Prod.fst) :
    (ofList entries).get? k = none := by
  rw [get?_ofList, written_eq_nil k entries absent]
  rfl

/-- Elements that write to keys of their own may write in any order. -/
theorem get?_ofList_flatMap_perm {γ : Type} (entriesOf : γ → List (κ × α)) (xs ys : List γ)
    (same : xs.Perm ys) (once : xs.Nodup)
    (apart : ∀ x ∈ xs, ∀ y ∈ xs, y ≠ x → ∀ k ∈ (entriesOf x).map Prod.fst,
      k ∉ (entriesOf y).map Prod.fst) (k : κ) :
    (ofList (xs.flatMap entriesOf)).get? k = (ofList (ys.flatMap entriesOf)).get? k := by
  by_cases written : ∃ x ∈ xs, k ∈ (entriesOf x).map Prod.fst
  · obtain ⟨x, member, writes⟩ := written
    have alone : ∀ y ∈ xs, y ≠ x → k ∉ (entriesOf y).map Prod.fst := fun y among other =>
      apart x member y among other k writes
    rw [get?_ofList_flatMap_of_alone entriesOf xs once x member k alone,
      get?_ofList_flatMap_of_alone entriesOf ys (same.nodup_iff.1 once) x (same.mem_iff.1 member) k
        fun y among => alone y (same.mem_iff.2 among)]
  · have silent : k ∉ (xs.flatMap entriesOf).map Prod.fst := by
      rw [List.map_flatMap, List.mem_flatMap]
      exact written
    have silent' : k ∉ (ys.flatMap entriesOf).map Prod.fst := fun writes =>
      silent (((same.flatMap_right entriesOf).map Prod.fst).mem_iff.2 writes)
    rw [get?_ofList_eq_none _ k silent, get?_ofList_eq_none _ k silent']

/-- Writes to the same keys in the same order leave the same keys in the same order. -/
theorem keys_insertAll_congr (d : OrderedMap κ α) (e : OrderedMap κ β) (xs : List (κ × α))
    (ys : List (κ × β)) (start : d.keys = e.keys) (same : xs.map Prod.fst = ys.map Prod.fst) :
    (d.insertAll xs).keys = (e.insertAll ys).keys := by
  induction xs generalizing d e ys with
  | nil =>
    obtain rfl : ys = [] := by simpa using same.symm
    exact start
  | cons x xs ih =>
    cases ys with
    | nil => cases same
    | cons y ys =>
      rw [List.map_cons, List.map_cons, List.cons.injEq] at same
      obtain ⟨key, rest⟩ := same
      have next : (d.insert x.1 x.2).keys = (e.insert y.1 y.2).keys := by
        rw [← key]
        by_cases known : x.1 ∈ d.keys
        · rw [keys_insert_of_mem d x.1 x.2 known, keys_insert_of_mem e x.1 y.2 (start ▸ known),
            start]
        · rw [keys_insert_of_not_mem d x.1 x.2 known,
            keys_insert_of_not_mem e x.1 y.2 (start ▸ known), start]
      rw [insertAll_cons, insertAll_cons]
      exact ih _ _ ys next rest

theorem nodup_keys_insertAll (d : OrderedMap κ α) (entries : List (κ × α))
    (distinct : d.keys.Nodup) : (d.insertAll entries).keys.Nodup := by
  induction entries generalizing d with
  | nil => exact distinct
  | cons e rest ih => exact ih _ (nodup_keys_insert d e.1 e.2 distinct)

theorem nodup_keys_ofList (entries : List (κ × α)) : (ofList entries).keys.Nodup :=
  nodup_keys_insertAll empty entries List.nodup_nil

/-- A key that is written again is left as the later write has it. -/
theorem insert_insert_self (d : OrderedMap κ α) (k : κ) (v v' : α) :
    (d.insert k v).insert k v' = d.insert k v' := by
  obtain ⟨entries⟩ := d
  simp only [insert, mk.injEq]
  induction entries with
  | nil => simp [insertEntry]
  | cons e rest ih =>
    by_cases here : e.1 = k
    · simp [insertEntry, here]
    · simp [insertEntry, here, ih]

/-- Writes to different keys commute if one of the keys is there already: only a new key has to find
a place. -/
theorem insert_comm_of_mem (d : OrderedMap κ α) (k k' : κ) (v v' : α) (apart : k' ≠ k)
    (known : k ∈ d.keys) : (d.insert k v).insert k' v' = (d.insert k' v').insert k v := by
  obtain ⟨entries⟩ := d
  simp only [insert, keys, mk.injEq] at known ⊢
  induction entries with
  | nil => cases known
  | cons e rest ih =>
    by_cases here : e.1 = k
    · have other : e.1 ≠ k' := fun same => apart (same.symm.trans here)
      simp [insertEntry, here, Ne.symm apart]
    · have later : k ∈ rest.map Prod.fst := by
        rw [List.map_cons, List.mem_cons] at known
        exact known.resolve_left (Ne.symm here)
      by_cases there : e.1 = k'
      · simp [insertEntry, there, apart]
      · simp [insertEntry, here, there, ih later]

theorem insert_of_get? (d : OrderedMap κ α) (k : κ) (v : α) (found : d.get? k = some v) :
    d.insert k v = d := by
  obtain ⟨entries⟩ := d
  simp only [insert, get?, mk.injEq] at found ⊢
  induction entries with
  | nil => cases found
  | cons e rest ih =>
    rw [lookup] at found
    rw [insertEntry]
    split at found
    · rename_i here
      cases found
      rw [if_pos here, ← here]
    · rename_i other
      rw [if_neg other, ih found]

/-- What is read of all entries stays where nothing of it is written. -/
theorem map_entries_insert {γ : Type} (d : OrderedMap κ α) (k : κ) (v old : α) (f : κ × α → γ)
    (found : d.get? k = some old) (same : f (k, v) = f (k, old)) :
    (d.insert k v).entries.map f = d.entries.map f := by
  obtain ⟨entries⟩ := d
  simp only [insert, get?] at found ⊢
  induction entries with
  | nil => cases found
  | cons e rest ih =>
    rw [lookup] at found
    rw [insertEntry]
    split at found
    · rename_i here
      cases found
      rw [if_pos here, List.map_cons, List.map_cons, same, ← here]
    · rename_i other
      rw [if_neg other, List.map_cons, List.map_cons, ih found]

theorem mem_keys_of_get? (d : OrderedMap κ α) (k : κ) (v : α) (found : d.get? k = some v) :
    k ∈ d.keys :=
  List.mem_map_of_mem (mem_entries_of_get? d k v found)

/-- A write to a key that is there is lost when the key is written again later. -/
theorem insertAll_insert_of_mem (d : OrderedMap κ α) (entries : List (κ × α)) (k : κ) (v : α)
    (known : k ∈ d.keys) (again : k ∈ entries.map Prod.fst) :
    (d.insert k v).insertAll entries = d.insertAll entries := by
  induction entries generalizing d with
  | nil => cases again
  | cons e rest ih =>
    rw [insertAll_cons, insertAll_cons]
    by_cases here : e.1 = k
    · rw [here, insert_insert_self]
    · have later : k ∈ rest.map Prod.fst := by
        rw [List.map_cons, List.mem_cons] at again
        exact again.resolve_left (Ne.symm here)
      have still : k ∈ (d.insert e.1 e.2).keys := (mem_keys_insert d e.1 k e.2).2 (.inr known)
      rw [insert_comm_of_mem d k e.1 v e.2 here known]
      exact ih _ still later

/-- Writes that end with what is there already change nothing, whatever stands in between. -/
theorem insertAll_of_get? (d : OrderedMap κ α) (entries : List (κ × α))
    (there : ∀ k ∈ entries.map Prod.fst, (written k entries).getLast? = d.get? k) :
    d.insertAll entries = d := by
  induction entries with
  | nil => rfl
  | cons e rest ih =>
    have others : ∀ k ∈ rest.map Prod.fst, (written k rest).getLast? = d.get? k := by
      intro k later
      have whole := there k (List.mem_cons_of_mem e.1 later)
      rw [written_cons] at whole
      split at whole
      · have last : (written k rest).getLast? ≠ none := by
          rw [ne_eq, List.getLast?_eq_none_iff]
          exact written_ne_nil k rest later
        obtain ⟨v, found⟩ := Option.ne_none_iff_exists'.1 last
        rw [List.getLast?_cons, found, Option.getD_some] at whole
        rw [found, whole]
      · exact whole
    have first := there e.1 List.mem_cons_self
    by_cases again : e.1 ∈ rest.map Prod.fst
    · have known : e.1 ∈ d.keys := by
        rw [written_cons, if_pos rfl, List.getLast?_cons] at first
        exact d.mem_keys_of_get? e.1 _ first.symm
      rw [insertAll_cons, insertAll_insert_of_mem d rest e.1 e.2 known again, ih others]
    · have alone : d.get? e.1 = some e.2 := by
        rw [← first, written_cons, if_pos rfl, written_eq_nil e.1 rest again]
        rfl
      rw [insertAll_cons, d.insert_of_get? e.1 e.2 alone, ih others]

theorem insertAll_insertAll (d : OrderedMap κ α) (entries : List (κ × α)) :
    (d.insertAll entries).insertAll entries = d.insertAll entries := by
  apply insertAll_of_get?
  intro k written
  obtain ⟨v, found⟩ := Option.ne_none_iff_exists'.1
    (mt List.getLast?_eq_none_iff.1 (written_ne_nil k entries written))
  rw [get?_insertAll, found, Option.some_or]

/-- Without repeated keys, maps that answer alike have the same entries, in whatever order. -/
theorem entries_perm_of_get? (d e : OrderedMap κ α) (left : d.keys.Nodup) (right : e.keys.Nodup)
    (same : ∀ k, d.get? k = e.get? k) : d.entries.Perm e.entries := by
  rw [List.perm_ext_iff_of_nodup (List.Nodup.of_map Prod.fst left)
    (List.Nodup.of_map Prod.fst right)]
  intro entry
  constructor
  · intro member
    have found := d.get?_of_mem_entries left entry member
    exact e.mem_entries_of_get? entry.1 entry.2 ((same entry.1).symm.trans found)
  · intro member
    have found := e.get?_of_mem_entries right entry member
    exact d.mem_entries_of_get? entry.1 entry.2 ((same entry.1).trans found)

end PipelineCompiler.OrderedMap
