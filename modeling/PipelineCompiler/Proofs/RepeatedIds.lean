import PipelineCompiler.Proofs.Draining
import PipelineCompiler.Proofs.Outcome

set_option autoImplicit false

/- Sequencing graphs that repeat ids. An empty record of a repeated id runs early and makes nodes
ready before the record that has the links has run; so a node can be queued more than once, and a
cycle can keep the queue filled for ever. Neither happens where a repeated id is the only one that
feeds what it feeds. -/
namespace PipelineCompiler

namespace Adjacency

variable (f : Int → Adjacency)

/-- Of the records of an id one alone feeds anything. -/
theorem count_place_le_one (named : ∀ id, (f id).id = id) (r : Adjacency)
    (live : r.outgoing ≠ []) (ids : List Int) : (place f ids).count r ≤ 1 := by
  induction ids with
  | nil => exact Nat.zero_le 1
  | cons id rest ih =>
    rw [place]
    by_cases again : id ∈ rest
    · have other : (⟨id, [], []⟩ : Adjacency) ≠ r := by
        rintro rfl
        exact live rfl
      rw [if_pos again, List.count_cons_of_ne other]
      exact ih
    · rw [if_neg again]
      by_cases here : f id = r
      · have absent : r ∉ place f rest := by
          intro later
          have inside := List.mem_map_of_mem (f := Adjacency.id) later
          rw [map_id_place f named, ← here, named] at inside
          exact again inside
        rw [here, List.count_cons_self, List.count_eq_zero_of_not_mem absent]
      · rw [List.count_cons_of_ne here]
        exact ih

theorem forall_incoming_place_iff (ids : List Int) :
    (∀ r ∈ place f ids, r.incoming ≠ []) ↔ ids.Nodup ∧ ∀ id ∈ ids, (f id).incoming ≠ [] := by
  induction ids with
  | nil => simp [place]
  | cons id rest ih =>
    rw [place, List.forall_mem_cons, ih, List.nodup_cons, List.forall_mem_cons]
    by_cases again : id ∈ rest <;> simp [again, and_left_comm]

end Adjacency

namespace Graph

variable (g : Graph)

/-- What a repeated id feeds has no other feeder. -/
def RepeatsFeedAlone : Prop :=
  ∀ a, 1 < g.ids.count a → ∀ b, g.Feeds a b → ∀ c, g.Feeds c b → c = a

theorem repeatsFeedAlone_of_nodup (distinct : g.ids.Nodup) : g.RepeatsFeedAlone := by
  intro a again
  have once := List.nodup_iff_count_le_one.1 distinct a
  omega

def records : List Adjacency := adjacency g.nodes g.links

variable {g}

theorem records_eq : g.records = Adjacency.place (Adjacency.record g.ids g.links) g.ids :=
  Adjacency.adjacency_eq_place g

theorem map_id_records : g.records.map Adjacency.id = g.ids := by
  rw [records_eq]
  exact Adjacency.map_id_place _ (Adjacency.record_id g.ids g.links) g.ids

theorem length_records : g.records.length = g.nodes.length := by
  rw [← List.length_map (f := Adjacency.id), map_id_records, ids, List.length_map]

/-- A record that feeds something has all the links of its id. -/
theorem eq_record_of_outgoing (r : Adjacency) (known : r ∈ g.records) (live : r.outgoing ≠ []) :
    r = Adjacency.record g.ids g.links r.id := by
  rw [records_eq] at known
  rcases Adjacency.mem_place _ (Adjacency.record_id g.ids g.links) _ r known with whole | empty
  · exact whole
  · rw [empty] at live
    exact absurd rfl live

theorem eq_record_of_last? (id : Int) (r : Adjacency)
    (found : Adjacency.last? id g.records = some r) :
    id ∈ g.ids ∧ r = Adjacency.record g.ids g.links id := by
  rw [records_eq, Adjacency.last?_place _ (Adjacency.record_id g.ids g.links)] at found
  split at found
  · rename_i inside
    cases found
    exact ⟨inside, rfl⟩
  · cases found

theorem feeds_of_mem_outgoing (r : Adjacency) (known : r ∈ g.records) (b : Int)
    (feeds : b ∈ r.outgoing) : g.Feeds r.id b := by
  rw [eq_record_of_outgoing r known (List.ne_nil_of_mem feeds), Adjacency.mem_outgoing_iff,
    Adjacency.mem_incoming] at feeds
  exact feeds

theorem feeds_of_leads (done : List Int) (a b : Adjacency)
    (leads : Sequence.Leads g.records done a b) : g.Feeds a.id b.id := by
  obtain ⟨known, release⟩ := leads
  obtain ⟨⟨id, feeds, found⟩, -⟩ := (Sequence.mem_released_iff done a b).1 release
  rw [(Sequence.mem_of_last? id b found).2]
  exact feeds_of_mem_outgoing a known id feeds

end Graph

namespace Sequence

variable {g : Graph}

/-- Records that lead back to themselves stand on a cycle of the graph. -/
theorem Circling.cyclic {s : State} (circling : Circling g.records s) : ¬ g.Acyclic := by
  obtain ⟨r, -, circle⟩ := circling
  intro acyclic
  exact acyclic r.id (circle.lift Adjacency.id fun a b => Graph.feeds_of_leads s.done a b)

variable (g) in
/-- What holds after any number of steps where repeated ids feed alone: what has run and what waits
are records, each as often as there are. -/
structure Thrifty (ran waiting : List Adjacency) : Prop where
  within : (ran ++ waiting).Subperm g.records
  ready : ∀ r ∈ ran ++ waiting, ∀ a ∈ r.incoming, a ∈ ran.map Adjacency.id
  queued : ∀ r ∈ ran ++ waiting, r.incoming ≠ [] → ∃ p ∈ ran, r.id ∈ p.outgoing

theorem thrifty_start : Thrifty g [] (start g.records).queue where
  within := (List.filter_sublist).subperm
  ready := by
    intro r queued a feeds
    have unfed := (List.mem_filter.1 queued).2
    rw [List.isEmpty_iff.1 unfed] at feeds
    cases feeds
  queued := by
    intro r queued fed
    have unfed := (List.mem_filter.1 queued).2
    exact absurd (List.isEmpty_iff.1 unfed) fed

section Step

variable {ran rest : List Adjacency} {p : Adjacency}

theorem Thrifty.count_id_le {waiting : List Adjacency} (thrifty : Thrifty g ran waiting)
    (id : Int) : ((ran ++ waiting).map Adjacency.id).count id ≤ g.ids.count id := by
  obtain ⟨among, perm, sub⟩ := thrifty.within
  rw [← (perm.map Adjacency.id).count_eq, ← Graph.map_id_records]
  exact (sub.map Adjacency.id).count_le id

theorem Thrifty.mem (thrifty : Thrifty g ran (p :: rest)) : p ∈ g.records :=
  thrifty.within.subset (by simp)

/-- What is queued has not been queued before. Else its feeder of now had run before it was queued
for the first time, and so the feeder's id is repeated; but it is the only feeder, and its one
record that feeds anything runs only now. -/
theorem Thrifty.fresh (alone : g.RepeatsFeedAlone) (thrifty : Thrifty g ran (p :: rest))
    (r : Adjacency) (release : r ∈ released g.records (ran.map Adjacency.id ++ [p.id]) p) :
    r ∉ ran ++ p :: rest := by
  intro early
  obtain ⟨⟨id, out, found⟩, -⟩ := (mem_released_iff _ p r).1 release
  obtain ⟨-, rfl⟩ := Graph.eq_record_of_last? id r found
  have feeds := Graph.feeds_of_mem_outgoing p thrifty.mem id out
  have incoming := (Adjacency.mem_incoming g.ids g.links p.id id).2 feeds
  have before := thrifty.ready _ early p.id incoming
  have again : 1 < g.ids.count p.id := by
    have ids := thrifty.count_id_le p.id
    have twice := List.count_pos_iff.2 before
    rw [List.map_append, List.map_cons, List.count_append, List.count_cons_self] at ids
    omega
  obtain ⟨q, ranBefore, outBefore⟩ := thrifty.queued _ early (List.ne_nil_of_mem incoming)
  have known : q ∈ g.records := thrifty.within.subset (List.mem_append_left _ ranBefore)
  have same : q.id = p.id :=
    alone p.id again id feeds q.id (Graph.feeds_of_mem_outgoing q known id outBefore)
  have equal : q = p := by
    rw [Graph.eq_record_of_outgoing q known (List.ne_nil_of_mem outBefore), same,
      ← Graph.eq_record_of_outgoing p thrifty.mem (List.ne_nil_of_mem out)]
  have once : g.records.count p ≤ 1 := by
    rw [Graph.records_eq]
    exact Adjacency.count_place_le_one _ (Adjacency.record_id g.ids g.links) p
      (List.ne_nil_of_mem out) g.ids
  have all := thrifty.within.count_le p
  have twice := List.count_pos_iff.2 (equal ▸ ranBefore)
  rw [List.count_append, List.count_cons_self] at all
  omega

theorem nodup_released (known : p ∈ g.records) (done : List Int) :
    (released g.records done p).Nodup := by
  by_cases live : p.outgoing = []
  · simp [released, live]
  · have once : p.outgoing.Nodup := by
      rw [Graph.eq_record_of_outgoing p known live]
      exact Adjacency.nodup_outgoing g.ids g.links p.id
    apply List.Nodup.filter
    apply once.filterMap
    intro a b r left right
    rw [← (mem_of_last? a r left).2, (mem_of_last? b r right).2]

theorem Thrifty.step (alone : g.RepeatsFeedAlone) (thrifty : Thrifty g ran (p :: rest)) :
    Thrifty g (ran ++ [p])
      (rest ++ released g.records (ran.map Adjacency.id ++ [p.id]) p) := by
  generalize queue : released g.records (ran.map Adjacency.id ++ [p.id]) p = fresh
  have split : ran ++ [p] ++ (rest ++ fresh) = (ran ++ p :: rest) ++ fresh := by simp
  have done : (ran ++ [p]).map Adjacency.id = ran.map Adjacency.id ++ [p.id] := by simp
  have release : ∀ r ∈ fresh, r ∈ released g.records (ran.map Adjacency.id ++ [p.id]) p :=
    fun r member => queue ▸ member
  refine ⟨?_, ?_, ?_⟩ <;> rw [split]
  · rw [List.subperm_ext_iff]
    intro r _
    rw [List.count_append]
    by_cases new : r ∈ fresh
    · have old := thrifty.fresh alone r (release r new)
      have known := Leads.mem ⟨thrifty.mem, release r new⟩
      have one := List.nodup_iff_count_le_one.1 (queue ▸ nodup_released thrifty.mem _) r
      have some := List.count_pos_iff.2 known
      rw [List.count_eq_zero_of_not_mem old]
      omega
    · rw [List.count_eq_zero_of_not_mem new, Nat.add_zero]
      exact thrifty.within.count_le r
  · intro r member a feeds
    rw [done]
    rcases List.mem_append.1 member with old | new
    · exact List.mem_append_left _ (thrifty.ready r old a feeds)
    · have ready := ((mem_released_iff _ p r).1 (release r new)).2
      simp only [isReady, List.all_eq_true, List.contains_iff_mem] at ready
      exact ready a feeds
  · intro r member fed
    rcases List.mem_append.1 member with old | new
    · obtain ⟨q, before, out⟩ := thrifty.queued r old fed
      exact ⟨q, List.mem_append_left _ before, out⟩
    · obtain ⟨⟨id, out, found⟩, -⟩ := (mem_released_iff _ p r).1 (release r new)
      refine ⟨p, by simp, ?_⟩
      rw [(mem_of_last? id r found).2]
      exact out

end Step

/-- The queue empties: each step takes one more of the records. -/
theorem Thrifty.drains (alone : g.RepeatsFeedAlone) {ran waiting : List Adjacency}
    (thrifty : Thrifty g ran waiting) :
    ∃ steps, ran.length + steps ≤ g.records.length ∧
      ((Sequence.step g.records)^[steps] ⟨waiting, ran.map Adjacency.id⟩).queue = [] := by
  induction room : g.records.length - ran.length generalizing ran waiting with
  | zero =>
    have bounded := thrifty.within.length_le
    rw [List.length_append] at bounded
    have none : waiting = [] := List.length_eq_zero_iff.1 (by omega)
    exact ⟨0, by omega, none⟩
  | succ left ih =>
    have bounded := thrifty.within.length_le
    rw [List.length_append] at bounded
    cases waiting with
    | nil => exact ⟨0, by omega, rfl⟩
    | cons p rest =>
      have shorter : g.records.length - (ran ++ [p]).length = left := by
        rw [List.length_append, List.length_singleton]
        omega
      obtain ⟨steps, enough, drained⟩ := ih (thrifty.step alone) shorter
      refine ⟨steps + 1, ?_, ?_⟩
      · rw [List.length_append, List.length_singleton] at enough
        omega
      · rw [Function.iterate_succ_apply]
        rw [List.map_append, List.map_singleton] at drained
        exact drained

end Sequence

namespace Graph

variable (g : Graph)

theorem start_records_eq_nil_iff :
    (Sequence.start g.records).queue = [] ↔ g.ids.Nodup ∧ ∀ id ∈ g.ids, ∃ a, g.Feeds a id := by
  have fed : ∀ id, (Adjacency.record g.ids g.links id).incoming ≠ [] ↔ ∃ a, g.Feeds a id := by
    intro id
    simp only [Ne, List.eq_nil_iff_forall_not_mem, not_forall, not_not, Adjacency.mem_incoming,
      Feeds]
  rw [Sequence.start, List.filter_eq_nil_iff, records_eq]
  simp only [List.isEmpty_iff, ← fed, ← Adjacency.forall_incoming_place_iff]

theorem sequence_records_eq_noEntryPoint_iff :
    sequence g.records = .error .noEntryPoint ↔ (Sequence.start g.records).queue = [] := by
  rw [sequence]
  split
  · rename_i empty
    simp [List.isEmpty_iff.1 empty]
  · rename_i entry
    split <;> simpa using entry

theorem not_acyclic_of_endless (endless : sequence g.records = .error .endless) : ¬ g.Acyclic := by
  rw [sequence_eq_endless_iff, Sequence.never_drained_iff] at endless
  obtain ⟨n, circling⟩ := endless
  exact circling.cyclic

theorem exists_order_of_repeatsFeedAlone (alone : g.RepeatsFeedAlone) :
    ∃ order, (Sequence.step g.records)^[order.length] (Sequence.start g.records) = ⟨[], order⟩ ∧
      order.length ≤ g.nodes.length := by
  obtain ⟨steps, enough, drained⟩ := (@Sequence.thrifty_start g).drains alone
  obtain ⟨order, last, short⟩ := Sequence.drained_at_length g.records steps drained
  refine ⟨order, last, ?_⟩
  rw [length_records] at enough
  simp only [List.length_nil] at enough
  omega

end Graph

/-- Sequencing fails at once where every node is fed and no id repeats. Else it goes on until the
queue is empty, and its order has an id for each step; it gives up on those graphs alone whose queue
never empties, and these have cycles. What comes back is that result, unless a note or the warning
cannot be written. Where a repeated id is the only one that feeds what it feeds, and so where no id
repeats, the queue is empty within as many steps as there are nodes. -/
theorem sequence_bounded_unless_repeats_share (g : Graph) :
    (sequence (adjacency g.nodes g.links) = .error .noEntryPoint ↔
      g.ids.Nodup ∧ ∀ id ∈ g.ids, ∃ a, g.Feeds a id) ∧
    (∀ order, sequence (adjacency g.nodes g.links) = .ok order ↔
      (Sequence.start (adjacency g.nodes g.links)).queue ≠ [] ∧
        (Sequence.step (adjacency g.nodes g.links))^[order.length]
          (Sequence.start (adjacency g.nodes g.links)) = ⟨[], order⟩) ∧
    (sequence (adjacency g.nodes g.links) = .error .endless ↔
      ∀ n, ((Sequence.step (adjacency g.nodes g.links))^[n]
        (Sequence.start (adjacency g.nodes g.links))).queue ≠ []) ∧
    (sequence (adjacency g.nodes g.links) = .error .endless → ¬ g.Acyclic) ∧
    ((reportedAdjacency g.nodes g.links >>= reportedSequence) =
        sequence (adjacency g.nodes g.links) ∨
      (reportedAdjacency g.nodes g.links >>= reportedSequence) = .error .noNumeral) ∧
    (g.ids.Nodup → g.RepeatsFeedAlone) ∧
    (g.RepeatsFeedAlone → ∃ order,
      (Sequence.step (adjacency g.nodes g.links))^[order.length]
        (Sequence.start (adjacency g.nodes g.links)) = ⟨[], order⟩ ∧
      order.length ≤ g.nodes.length ∧
      (sequence (adjacency g.nodes g.links) = .error .noEntryPoint ∨
        sequence (adjacency g.nodes g.links) = .ok order)) := by
  refine ⟨?_, sequence_eq_ok_iff g.records, sequence_eq_endless_iff g.records,
    g.not_acyclic_of_endless, reported_eq_sequence_or_noNumeral g, g.repeatsFeedAlone_of_nodup, ?_⟩
  · exact g.sequence_records_eq_noEntryPoint_iff.trans g.start_records_eq_nil_iff
  · intro alone
    obtain ⟨order, last, short⟩ := g.exists_order_of_repeatsFeedAlone alone
    refine ⟨order, last, short, ?_⟩
    by_cases entry : (Sequence.start g.records).queue = []
    · exact .inl (g.sequence_records_eq_noEntryPoint_iff.2 entry)
    · exact .inr ((sequence_eq_ok_iff g.records order).2 ⟨entry, last⟩)

/-- A graph of nodes that have nothing but ids, with links between first ports. -/
def plainGraph (ids : List Int) (links : List (Int × Int)) : Graph :=
  { nodes := ids.map fun id => ⟨id, "tool", "Tool", false, none⟩
    links := links.map fun ends => ⟨ends.1, ends.2, 0, 0⟩ }

/-- The first record of 1 is empty; the second waits for 2 and is alone in feeding 3. -/
def echoGraph : Graph := plainGraph [1, 2, 1, 3] [(2, 1), (1, 3)]

theorem sequence_bounded_unless_repeats_share_echo :
    echoGraph.RepeatsFeedAlone ∧ ¬ echoGraph.ids.Nodup ∧
      sequence (adjacency echoGraph.nodes echoGraph.links) = .ok [1, 2, 1, 3] ∧
      [1, 2, 1, 3].length ≤ echoGraph.nodes.length := by
  have alone : echoGraph.RepeatsFeedAlone := by
    rintro a again b ⟨l, left, -, rfl, rfl⟩ c ⟨m, right, -, same, rfl⟩
    simp only [echoGraph, plainGraph, List.map_cons, List.map_nil, List.mem_cons, List.not_mem_nil,
      or_false] at left right
    rcases left with rfl | rfl <;> rcases right with rfl | rfl <;> simp_all
  have found : sequence (adjacency echoGraph.nodes echoGraph.links) = .ok [1, 2, 1, 3] := by rfl
  obtain ⟨-, -, -, -, -, -, bounded⟩ := sequence_bounded_unless_repeats_share echoGraph
  obtain ⟨order, -, short, failed | made⟩ := bounded alone
  · rw [found] at failed
    cases failed
  · rw [found] at made
    cases made
    exact ⟨alone, by decide, found, short⟩

/-- The empty record of 1 makes 4 ready before the other record of 1 has run. -/
def earlyGraph : Graph := plainGraph [1, 2, 1, 4] [(1, 4), (2, 4)]

/-- The empty record of 1 lets 2 run, which feeds 1 and is fed by it. -/
def spinningGraph : Graph := plainGraph [1, 3, 1, 2] [(1, 2), (2, 1), (3, 2)]

/-- Where a repeated id shares what it feeds, nodes can run twice, or in turn for ever. -/
theorem repeated_id_outruns_graph :
    sequence (adjacency earlyGraph.nodes earlyGraph.links) = .ok [1, 2, 1, 4, 4] ∧
      earlyGraph.nodes.length < [1, 2, 1, 4, 4].length ∧
      sequence (adjacency spinningGraph.nodes spinningGraph.links) = .error .endless := by
  decide +kernel

end PipelineCompiler
