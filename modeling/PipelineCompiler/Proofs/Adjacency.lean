import Mathlib.Data.List.Induction
import PipelineCompiler.Ordering

set_option autoImplicit false

namespace PipelineCompiler

section Repetitions

variable {α : Type} [BEq α] [LawfulBEq α]

/-- An element at the end counts only if it is new. -/
theorem eraseDups_concat [DecidableEq α] (xs : List α) (a : α) :
    (xs ++ [a]).eraseDups = if a ∈ xs then xs.eraseDups else xs.eraseDups ++ [a] := by
  rw [List.eraseDups_append]
  by_cases known : a ∈ xs
  · simp [List.removeAll, known]
  · simp [List.removeAll, known, List.eraseDups_cons]

theorem nodup_eraseDups (xs : List α) : xs.eraseDups.Nodup := by
  cases xs with
  | nil => simp
  | cons a rest =>
    rw [List.eraseDups_cons, List.nodup_cons]
    constructor
    · simp
    · exact nodup_eraseDups (rest.filter fun b => !b == a)
termination_by xs.length
decreasing_by
  have shorter := List.length_filter_le (fun b => !b == a) rest
  simp only [List.length_cons]
  omega

theorem eraseDups_filter [DecidableEq α] (p : α → Bool) (xs : List α) :
    (xs.filter p).eraseDups = xs.eraseDups.filter p := by
  induction xs using List.reverseRecOn with
  | nil => rfl
  | append_singleton xs a ih =>
    rw [List.filter_append, eraseDups_concat]
    by_cases counts : p a = true <;> by_cases known : a ∈ xs <;>
      simp [eraseDups_concat, counts, known, ih]

end Repetitions

def Graph.ids (g : Graph) : List Int := g.nodes.map Node.id

/-- Both ends of a link are nodes. -/
def Link.Joins (ids : List Int) (l : Link) : Prop := l.source ∈ ids ∧ l.target ∈ ids

instance (ids : List Int) (l : Link) : Decidable (l.Joins ids) :=
  inferInstanceAs (Decidable (_ ∧ _))

/-- Some link leads from one node to another, or to itself. -/
def Graph.Feeds (g : Graph) (a b : Int) : Prop :=
  ∃ l ∈ g.links, l.Joins g.ids ∧ l.target = b ∧ l.source = a

namespace Adjacency

/-- The distinct far ends of the links whose near end is a node, in order of first occurrence. -/
def neighbours (ids : List Int) (near far : Link → Int) (links : List Link) (id : Int) :
    List Int :=
  ((links.filter fun l => l.Joins ids ∧ near l = id).map far).eraseDups

theorem mem_neighbours (ids : List Int) (near far : Link → Int) (links : List Link) (a b : Int) :
    a ∈ neighbours ids near far links b ↔ ∃ l ∈ links, l.Joins ids ∧ near l = b ∧ far l = a := by
  simp only [neighbours, List.mem_eraseDups, List.mem_map, List.mem_filter, decide_eq_true_eq,
    and_assoc]

theorem neighbours_concat (ids : List Int) (near far : Link → Int) (links : List Link) (l : Link)
    (id : Int) :
    neighbours ids near far (links ++ [l]) id =
      if l.Joins ids ∧ near l = id ∧ far l ∉ neighbours ids near far links id then
        neighbours ids near far links id ++ [far l]
      else neighbours ids near far links id := by
  by_cases counts : l.Joins ids ∧ near l = id
  · have last : [l].filter (fun l => l.Joins ids ∧ near l = id) = [l] := by simp [counts]
    simp only [neighbours, List.filter_append, last, List.map_append, List.map_cons, List.map_nil,
      eraseDups_concat, List.mem_eraseDups, counts, true_and]
    by_cases known : far l ∈ (links.filter fun l => l.Joins ids ∧ near l = id).map far
    · rw [if_pos known, if_neg (fun h => h known)]
    · rw [if_neg known, if_pos known]
  · have last : [l].filter (fun l => l.Joins ids ∧ near l = id) = [] := by simpa using counts
    rw [if_neg (fun h => counts ⟨h.1, h.2.1⟩)]
    simp only [neighbours, List.filter_append, last, List.append_nil]

/-- The record of an id: who feeds it and whom it feeds. -/
def record (ids : List Int) (links : List Link) (id : Int) : Adjacency :=
  ⟨id, neighbours ids Link.target Link.source links id,
    neighbours ids Link.source Link.target links id⟩

@[simp] theorem record_id (ids : List Int) (links : List Link) (id : Int) :
    (record ids links id).id = id := rfl

theorem mem_incoming (ids : List Int) (links : List Link) (a b : Int) :
    a ∈ (record ids links b).incoming ↔
      ∃ l ∈ links, l.Joins ids ∧ l.target = b ∧ l.source = a :=
  mem_neighbours ids Link.target Link.source links a b

theorem mem_outgoing_iff (ids : List Int) (links : List Link) (a b : Int) :
    b ∈ (record ids links a).outgoing ↔ a ∈ (record ids links b).incoming := by
  simp only [record, mem_neighbours]
  constructor <;> rintro ⟨l, member, joins, near, far⟩ <;> exact ⟨l, member, joins, far, near⟩

theorem mem_ids_of_mem_outgoing (ids : List Int) (links : List Link) (a b : Int)
    (feeds : b ∈ (record ids links a).outgoing) : b ∈ ids := by
  obtain ⟨l, -, joins, -, far⟩ := (mem_neighbours ids _ _ links b a).1 feeds
  exact far ▸ joins.2

theorem nodup_outgoing (ids : List Int) (links : List Link) (id : Int) :
    (record ids links id).outgoing.Nodup := nodup_eraseDups _

/-- Records for a list of ids; where an id comes again later, its record is empty. -/
def place (f : Int → Adjacency) : List Int → List Adjacency
  | [] => []
  | id :: rest => (if id ∈ rest then ⟨id, [], []⟩ else f id) :: place f rest

theorem place_of_nodup (f : Int → Adjacency) (ids : List Int) (distinct : ids.Nodup) :
    place f ids = ids.map f := by
  induction ids with
  | nil => rfl
  | cons id rest ih =>
    obtain ⟨fresh, distinct⟩ := List.nodup_cons.1 distinct
    rw [place, if_neg fresh, ih distinct, List.map_cons]

theorem place_congr (f g : Int → Adjacency) (ids : List Int) (same : ∀ id ∈ ids, f id = g id) :
    place f ids = place g ids := by
  induction ids with
  | nil => rfl
  | cons id rest ih =>
    rw [place, place, same id List.mem_cons_self,
      ih fun other member => same other (List.mem_cons_of_mem id member)]

theorem map_id_place (f : Int → Adjacency) (named : ∀ id, (f id).id = id) (ids : List Int) :
    (place f ids).map Adjacency.id = ids := by
  induction ids with
  | nil => rfl
  | cons id rest ih =>
    rw [place, List.map_cons, ih]
    split
    · rfl
    · rw [named]

/-- What a record holds depends on whether its id comes again behind it. -/
theorem eq_of_place_eq_append (f : Int → Adjacency) (named : ∀ id, (f id).id = id)
    (ids : List Int) (before : List Adjacency) (r : Adjacency) (after : List Adjacency)
    (cut : place f ids = before ++ r :: after) :
    r = if r.id ∈ after.map Adjacency.id then ⟨r.id, [], []⟩ else f r.id := by
  induction ids generalizing before with
  | nil => simp [place] at cut
  | cons id rest ih =>
    rw [place] at cut
    cases before with
    | nil =>
      obtain ⟨here, rfl⟩ := List.cons.inj cut
      rw [map_id_place f named]
      by_cases again : id ∈ rest
      · rw [if_pos again] at here
        subst here
        rw [if_pos again]
      · rw [if_neg again] at here
        subst here
        rw [named, if_neg again]
    | cons first before =>
      obtain ⟨-, cut⟩ := List.cons.inj cut
      exact ih before cut

theorem mem_place (f : Int → Adjacency) (named : ∀ id, (f id).id = id) (ids : List Int)
    (r : Adjacency) (member : r ∈ place f ids) : r = f r.id ∨ r = ⟨r.id, [], []⟩ := by
  obtain ⟨before, after, cut⟩ := List.append_of_mem member
  have held := eq_of_place_eq_append f named ids before r after cut
  by_cases again : r.id ∈ after.map Adjacency.id
  · rw [if_pos again] at held
    exact .inr held
  · rw [if_neg again] at held
    exact .inl held

theorem last?_place (f : Int → Adjacency) (named : ∀ id, (f id).id = id) (id : Int)
    (ids : List Int) : last? id (place f ids) = if id ∈ ids then some (f id) else none := by
  induction ids with
  | nil => rfl
  | cons first rest ih =>
    rw [place, last?, ih]
    by_cases later : id ∈ rest
    · simp [later]
    · by_cases here : first = id
      · subst here
        simp [later, named]
      · by_cases again : first ∈ rest <;>
          simp [later, again, named, here, Ne.symm here]

/-- Only the last record of an id is one that can be changed. -/
theorem updateLast_place (f : Int → Adjacency) (named : ∀ id, (f id).id = id) (id : Int)
    (change : Adjacency → Adjacency) (ids : List Int) :
    updateLast id change (place f ids) =
      place (fun other => if other = id then change (f other) else f other) ids := by
  induction ids with
  | nil => rfl
  | cons first rest ih =>
    rw [place, place, updateLast, ih, last?_place f named]
    by_cases here : first = id
    · subst here
      by_cases again : first ∈ rest
      · simp [again]
      · have later : place f rest =
            place (fun other => if other = first then change (f other) else f other) rest := by
          apply place_congr
          intro other member
          have apart : other ≠ first := fun same => again (same ▸ member)
          rw [if_neg apart]
        simp [again, named, ← later]
    · by_cases again : first ∈ rest <;> simp [again, named, here]

theorem neighbours_concat_of_new (ids : List Int) (near far : Link → Int) (links : List Link)
    (l : Link) (joins : l.Joins ids) (fresh : far l ∉ neighbours ids near far links (near l))
    (id : Int) :
    neighbours ids near far (links ++ [l]) id =
      if id = near l then neighbours ids near far links id ++ [far l]
      else neighbours ids near far links id := by
  rw [neighbours_concat]
  by_cases here : id = near l
  · subst here
    rw [if_pos ⟨joins, rfl, fresh⟩, if_pos rfl]
  · rw [if_neg fun h => here h.2.1.symm, if_neg here]

theorem neighbours_concat_of_known (ids : List Int) (near far : Link → Int) (links : List Link)
    (l : Link) (known : ¬ l.Joins ids ∨ far l ∈ neighbours ids near far links (near l)) (id : Int) :
    neighbours ids near far (links ++ [l]) id = neighbours ids near far links id := by
  rw [neighbours_concat, if_neg]
  intro given
  obtain ⟨joins, rfl, fresh⟩ := given
  exact known.elim (fun h => h joins) fresh

theorem addLink_place (ids : List Int) (links : List Link) (l : Link) :
    addLink (place (record ids links) ids) l = place (record ids (links ++ [l])) ids := by
  have named : ∀ id, (record ids links id).id = id := record_id ids links
  rw [addLink, last?_place _ named, last?_place _ named]
  by_cases joins : l.Joins ids
  · simp only [joins.1, joins.2, ↓reduceIte]
    by_cases known : l.target ∈ (record ids links l.source).outgoing
    · have known' := (mem_outgoing_iff ids links l.source l.target).1 known
      have same : record ids (links ++ [l]) = record ids links := by
        funext id
        rw [record, neighbours_concat_of_known _ _ _ _ _ (.inr known'),
          neighbours_concat_of_known _ _ _ _ _ (.inr known), record]
      rw [if_pos known, same]
    · have known' := fun h => known ((mem_outgoing_iff ids links l.source l.target).2 h)
      rw [if_neg known, updateLast_place _ named, updateLast_place]
      · apply place_congr
        intro id _
        simp only [record, neighbours_concat_of_new _ _ _ _ _ joins known',
          neighbours_concat_of_new _ _ _ _ _ joins known]
        split <;> split <;> rfl
      · intro id
        by_cases source : id = l.source <;> simp [source]
  · have same : record ids (links ++ [l]) = record ids links := by
      funext id
      simp only [record, neighbours_concat_of_known _ _ _ _ _ (.inl joins)]
    rw [same]
    by_cases source : l.source ∈ ids
    · have target : l.target ∉ ids := fun h => joins ⟨source, h⟩
      simp [source, target]
    · simp [source]

theorem foldl_addLink_place (ids : List Int) (links more : List Link) :
    more.foldl addLink (place (record ids links) ids) =
      place (record ids (links ++ more)) ids := by
  induction more generalizing links with
  | nil => simp
  | cons l rest ih =>
    rw [List.foldl_cons, addLink_place, ih, List.append_assoc, List.singleton_append]

/-- Without links every record is empty, whether its id comes again or not. -/
theorem place_record_nil (known ids : List Int) :
    place (record known []) ids = ids.map fun id => ⟨id, [], []⟩ := by
  induction ids with
  | nil => rfl
  | cons id rest ih =>
    rw [List.map_cons, place, ih]
    by_cases again : id ∈ rest <;> simp [again, record, neighbours]

theorem adjacency_eq_place (g : Graph) :
    adjacency g.nodes g.links = place (record g.ids g.links) g.ids := by
  have start := place_record_nil g.ids g.ids
  rw [Graph.ids, List.map_map] at start
  rw [adjacency, ← List.nil_append g.links, ← foldl_addLink_place, Graph.ids, start]
  rfl

theorem adjacency_of_nodup (g : Graph) (distinct : g.ids.Nodup) :
    adjacency g.nodes g.links = g.ids.map (record g.ids g.links) := by
  rw [adjacency_eq_place, place_of_nodup _ _ distinct]

end Adjacency

/-- A link is taken up as `addLink` does, if its ends are known or have numerals. -/
theorem takeLink_eq (records : List Adjacency) (l : Link) :
    Adjacency.takeLink records l =
      if ((Adjacency.last? l.source records).isSome ∧ (Adjacency.last? l.target records).isSome) ∨
          l.hasNumerals = true then .ok (Adjacency.addLink records l)
      else .error .noNumeral := by
  rw [Adjacency.takeLink, Adjacency.addLink]
  cases Adjacency.last? l.source records <;> cases Adjacency.last? l.target records <;> simp

/-- The ends of every dangling link have numerals. -/
def Graph.DanglingNumbered (g : Graph) : Prop :=
  ∀ l ∈ g.links, l.Joins g.ids ∨ l.hasNumerals = true

instance (g : Graph) : Decidable g.DanglingNumbered :=
  inferInstanceAs (Decidable (∀ l ∈ g.links, _))

namespace Adjacency

theorem takeLink_place (ids : List Int) (links : List Link) (l : Link) :
    takeLink (place (record ids links) ids) l =
      if l.Joins ids ∨ l.hasNumerals = true then .ok (place (record ids (links ++ [l])) ids)
      else .error .noNumeral := by
  have named := record_id ids links
  have known : ∀ id, (last? id (place (record ids links) ids)).isSome = true ↔ id ∈ ids := by
    intro id
    rw [last?_place _ named]
    by_cases inside : id ∈ ids <;> simp [inside]
  rw [takeLink_eq, addLink_place]
  exact if_congr (or_congr_left (and_congr (known l.source) (known l.target))) rfl rfl

/-- Taking up links one by one stops at the first that is dangling and has an end without a
numeral. -/
theorem foldlM_takeLink_place (ids : List Int) (links more : List Link) :
    more.foldlM takeLink (place (record ids links) ids) =
      if ∀ l ∈ more, l.Joins ids ∨ l.hasNumerals = true then
        .ok (place (record ids (links ++ more)) ids)
      else .error .noNumeral := by
  induction more generalizing links with
  | nil =>
    rw [List.append_nil, if_pos (List.forall_mem_nil _)]
    rfl
  | cons l rest ih =>
    rw [List.foldlM_cons, takeLink_place]
    by_cases passes : l.Joins ids ∨ l.hasNumerals = true
    · rw [if_pos passes]
      have later := ih (links ++ [l])
      rw [List.append_assoc, List.singleton_append] at later
      simp only [List.forall_mem_cons, passes, true_and]
      exact later
    · rw [if_neg passes, if_neg fun all => passes (all l List.mem_cons_self)]
      rfl

end Adjacency

/-- The records are those of the links that join nodes; only the notes on the others can fail. -/
theorem reportedAdjacency_eq (g : Graph) :
    reportedAdjacency g.nodes g.links =
      if g.DanglingNumbered then .ok (adjacency g.nodes g.links) else .error .noNumeral := by
  have start := Adjacency.place_record_nil g.ids g.ids
  have taken := Adjacency.foldlM_takeLink_place g.ids [] g.links
  rw [start, List.nil_append, ← Adjacency.adjacency_eq_place, Graph.ids, List.map_map] at taken
  exact taken

/-- The records that every graph has. The last record of an id lists the far ends of the links of
its id, each where it first occurs, and the earlier ones stay empty; so the lists of last records
mirror each other, and name nodes of the graph alone. -/
structure Graph.ListedBy (g : Graph) (records : List Adjacency) : Prop where
  ids : records.map Adjacency.id = g.nodes.map Node.id
  earlier : ∀ before r after, records = before ++ r :: after → r.id ∈ after.map Adjacency.id →
    r.incoming = [] ∧ r.outgoing = []
  last : ∀ before r after, records = before ++ r :: after → r.id ∉ after.map Adjacency.id →
    r.incoming =
      ((g.links.filter fun l => l.Joins g.ids ∧ l.target = r.id).map Link.source).eraseDups ∧
    r.outgoing =
      ((g.links.filter fun l => l.Joins g.ids ∧ l.source = r.id).map Link.target).eraseDups
  mirrored : ∀ a b left right, Adjacency.last? a records = some left →
    Adjacency.last? b records = some right → (b ∈ left.outgoing ↔ a ∈ right.incoming)
  known : ∀ r ∈ records, r.incoming ⊆ g.ids ∧ r.outgoing ⊆ g.ids

theorem listedBy_adjacency (g : Graph) : g.ListedBy (adjacency g.nodes g.links) := by
  have named := Adjacency.record_id g.ids g.links
  rw [Adjacency.adjacency_eq_place]
  refine ⟨Adjacency.map_id_place _ named g.ids, ?_, ?_, ?_, ?_⟩
  · intro before r after cut again
    have held := Adjacency.eq_of_place_eq_append _ named g.ids before r after cut
    rw [held, if_pos again]
    exact ⟨rfl, rfl⟩
  · intro before r after cut last
    have held := Adjacency.eq_of_place_eq_append _ named g.ids before r after cut
    rw [if_neg last] at held
    exact ⟨congrArg Adjacency.incoming held, congrArg Adjacency.outgoing held⟩
  · intro a b left right foundLeft foundRight
    rw [Adjacency.last?_place _ named] at foundLeft foundRight
    obtain ⟨-, sameLeft⟩ := Option.ite_none_right_eq_some.1 foundLeft
    obtain ⟨-, sameRight⟩ := Option.ite_none_right_eq_some.1 foundRight
    cases sameLeft
    cases sameRight
    exact Adjacency.mem_outgoing_iff g.ids g.links a b
  · intro r member
    rcases Adjacency.mem_place _ named g.ids r member with whole | empty
    · rw [whole]
      constructor
      · intro a fed
        obtain ⟨l, -, joins, -, rfl⟩ := (Adjacency.mem_incoming g.ids g.links a r.id).1 fed
        exact joins.1
      · intro b feeds
        exact Adjacency.mem_ids_of_mem_outgoing g.ids g.links r.id b feeds
    · rw [empty]
      exact ⟨List.nil_subset _, List.nil_subset _⟩

/-- Every graph has its records, unless a dangling link has an end without a numeral: the note that
it is passed over cannot be written then, and there is no result. -/
theorem adjacency_lists_first_occurrences (g : Graph) :
    (reportedAdjacency g.nodes g.links = .error .noNumeral ↔
      ∃ l ∈ g.links, ¬ l.Joins g.ids ∧ l.hasNumerals = false) ∧
    ((∀ l ∈ g.links, ¬ l.Joins g.ids → l.hasNumerals = true) → ∃ records,
      reportedAdjacency g.nodes g.links = .ok records ∧ g.ListedBy records) := by
  rw [reportedAdjacency_eq]
  constructor
  · by_cases numbered : g.DanglingNumbered
    · rw [if_pos numbered]
      refine ⟨fun failed => (by cases failed), ?_⟩
      rintro ⟨l, linked, dangling, without⟩
      have holds := (numbered l linked).resolve_left dangling
      rw [without] at holds
      cases holds
    · rw [if_neg numbered]
      refine ⟨fun _ => ?_, fun _ => rfl⟩
      obtain ⟨l, linked⟩ := not_forall.1 numbered
      obtain ⟨linked, fails⟩ := Classical.not_imp.1 linked
      obtain ⟨dangling, without⟩ := not_or.1 fails
      exact ⟨l, linked, dangling, Bool.eq_false_iff.2 without⟩
  · intro numerals
    have numbered : g.DanglingNumbered := fun l linked =>
      or_iff_not_imp_left.2 (numerals l linked)
    rw [if_pos numbered]
    exact ⟨_, rfl, listedBy_adjacency g⟩

/-- The id 1 comes twice; it feeds 3 over parallel links, 3 feeds itself, and 9 is no node. -/
def sharedIdGraph : Graph :=
  { nodes := [1, 2, 1, 3].map fun id => ⟨id, "tool", "Tool", false, none⟩
    links := [⟨3, 3, 0, 0⟩, ⟨9, 3, 0, 0⟩, ⟨1, 3, 0, 0⟩, ⟨1, 2, 0, 0⟩, ⟨1, 3, 1, 0⟩, ⟨2, 1, 0, 0⟩] }

theorem adjacency_lists_first_occurrences_sharedId :
    (∀ l ∈ sharedIdGraph.links, ¬ l.Joins sharedIdGraph.ids → l.hasNumerals = true) ∧
      reportedAdjacency sharedIdGraph.nodes sharedIdGraph.links =
        .ok [⟨1, [], []⟩, ⟨2, [1], [1]⟩, ⟨1, [2], [3, 2]⟩, ⟨3, [3, 1], [3]⟩] ∧
      ((sharedIdGraph.links.filter fun l =>
        l.Joins sharedIdGraph.ids ∧ l.source = 1).map Link.target).eraseDups = [3, 2] ∧
      ((3 : Int) ∈ [3, 2] ↔ (1 : Int) ∈ [3, 1]) ∧ [3, 1] ⊆ sharedIdGraph.ids := by
  have numerals : ∀ l ∈ sharedIdGraph.links,
      ¬ l.Joins sharedIdGraph.ids → l.hasNumerals = true := by decide +kernel
  have made : reportedAdjacency sharedIdGraph.nodes sharedIdGraph.links =
      .ok [⟨1, [], []⟩, ⟨2, [1], [1]⟩, ⟨1, [2], [3, 2]⟩, ⟨3, [3, 1], [3]⟩] := by decide +kernel
  obtain ⟨records, found, listed⟩ := (adjacency_lists_first_occurrences sharedIdGraph).2 numerals
  rw [made] at found
  cases found
  have outgoing := (listed.last [⟨1, [], []⟩, ⟨2, [1], [1]⟩] ⟨1, [2], [3, 2]⟩ [⟨3, [3, 1], [3]⟩]
    rfl (by decide)).2
  have fed := (listed.known ⟨3, [3, 1], [3]⟩ (by simp)).1
  exact ⟨numerals, made, outgoing.symm, listed.mirrored 1 3 _ _ rfl rfl, fed⟩

/-- One node, and a link into it from a number with one digit more than a text can hold. -/
def endlessLinkGraph : Graph :=
  { nodes := [⟨1, "relay", "Tool", false, none⟩]
    links := [⟨numeralBound, 1, 0, 0⟩] }

theorem dangling_link_without_numeral_fails :
    reportedAdjacency endlessLinkGraph.nodes endlessLinkGraph.links = .error .noNumeral ∧
      endlessLinkGraph.ListedBy [⟨1, [], []⟩] := by
  have records : adjacency endlessLinkGraph.nodes endlessLinkGraph.links = [⟨1, [], []⟩] := by
    decide +kernel
  refine ⟨by decide +kernel, ?_⟩
  rw [← records]
  exact listedBy_adjacency endlessLinkGraph

end PipelineCompiler
