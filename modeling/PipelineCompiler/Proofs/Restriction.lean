import PipelineCompiler.Proofs.Sequence

set_option autoImplicit false

namespace PipelineCompiler

/-- The nodes of a graph that an order has, with all links. -/
def Graph.among (g : Graph) (order : List Int) : Graph :=
  { g with nodes := g.nodes.filter fun n => n.id ∈ order }

/-- The ids that an order has, in the order of the graph. -/
def Sequence.among (order ids : List Int) : List Int := ids.filter fun id => id ∈ order

theorem Graph.ids_among (g : Graph) (order : List Int) :
    (g.among order).ids = Sequence.among order g.ids := by
  rw [ids, ids, among, Sequence.among, List.filter_map]
  rfl

theorem Graph.nodup_ids_among (g : Graph) (distinct : g.ids.Nodup) (order : List Int) :
    (g.among order).ids.Nodup := by
  rw [g.ids_among]
  exact distinct.filter _

namespace Sequence

open Adjacency (record)

/-- Ids among which every id has all that feed it, and to which every id belongs all of whose
feeders do. -/
structure Closed (ids : List Int) (links : List Link) (order : List Int) : Prop where
  feeders : ∀ l ∈ links, l.Joins ids → l.target ∈ order → l.source ∈ order
  ready : ∀ id ∈ ids, (∀ a ∈ (record ids links id).incoming, a ∈ order) → id ∈ order

variable {ids : List Int} {links : List Link} {order : List Int}

theorem Reached.closed (reached : Reached ids links [] order) : Closed ids links order where
  feeders := by
    intro l linked joins ran
    have fed := (reached.ready l.target joins.2).1 (by simpa using ran) l.source
    exact fed ((Adjacency.mem_incoming ids links l.source l.target).2 ⟨l, linked, joins, rfl, rfl⟩)
  ready := by
    intro id inside fed
    simpa using (reached.ready id inside).2 fed

namespace Closed

variable (closed : Closed ids links order)

include closed

theorem joins_iff (l : Link) (linked : l ∈ links) (ran : l.target ∈ order) :
    l.Joins (among order ids) ↔ l.Joins ids := by
  simp only [Link.Joins, among, List.mem_filter, decide_eq_true_eq]
  constructor
  · rintro ⟨⟨source, -⟩, target, -⟩
    exact ⟨source, target⟩
  · rintro ⟨source, target⟩
    exact ⟨⟨source, closed.feeders l linked ⟨source, target⟩ ran⟩, target, ran⟩

theorem incoming_eq (id : Int) (ran : id ∈ order) :
    (record (among order ids) links id).incoming = (record ids links id).incoming := by
  have same : ∀ l ∈ links, decide (l.Joins (among order ids) ∧ l.target = id) =
      decide (l.Joins ids ∧ l.target = id) := by
    intro l linked
    by_cases here : l.target = id
    · simp only [here, and_true, closed.joins_iff l linked (here ▸ ran)]
    · simp only [here, and_false]
  simp only [record, Adjacency.neighbours, List.filter_congr same]

theorem outgoing_eq (id : Int) :
    (record (among order ids) links id).outgoing =
      (record ids links id).outgoing.filter fun next => next ∈ order := by
  have same : ∀ l ∈ links,
      decide (l.Joins (among order ids) ∧ l.source = id) =
        (decide (l.target ∈ order) && decide (l.Joins ids ∧ l.source = id)) := by
    intro l linked
    by_cases target : l.target ∈ order
    · simp only [target, closed.joins_iff l linked target, decide_true, Bool.true_and]
    · have outside : ¬ l.Joins (among order ids) := by simp [Link.Joins, among, target]
      simp [outside, target]
  simp only [record, Adjacency.neighbours, List.filter_congr same, ← eraseDups_filter,
    List.filter_map, List.filter_filter, Function.comp_def]

/-- The same nodes become ready in the same order. -/
theorem freed_eq (done : List Int) (id : Int) (early : done ⊆ order) (ran : id ∈ order) :
    freed (among order ids) links done id = freed ids links done id := by
  rw [freed, freed, closed.outgoing_eq id, List.filter_filter]
  apply List.filter_congr
  intro next feeds
  by_cases member : next ∈ order
  · simp only [isReady, closed.incoming_eq next member, member, decide_true, Bool.and_true]
  · -- Something that feeds it has no place in the order, and so has not run.
    have waits : isReady (done ++ [id]) (record ids links next) = false := by
      rw [← Bool.not_eq_true, isReady_iff]
      intro fed
      have inside := Adjacency.mem_ids_of_mem_outgoing ids links id next feeds
      refine member (closed.ready next inside fun a incoming => ?_)
      rcases List.mem_append.1 (fed a incoming) with before | last
      · exact early before
      · exact List.mem_singleton.1 last ▸ ran
    simp only [member, decide_false, Bool.and_false, waits]

theorem mem_of_mem_freed (done : List Int) (id next : Int) (early : done ⊆ order)
    (ran : id ∈ order) (released : next ∈ freed ids links done id) : next ∈ order := by
  rw [← closed.freed_eq done id early ran, freed, closed.outgoing_eq id] at released
  have member := (List.mem_filter.1 (List.mem_filter.1 released).1).2
  exact of_decide_eq_true member

/-- The queues take the same turns. -/
theorem iterate_step (distinct : ids.Nodup) (steps : Nat) (waiting done : List Int)
    (early : done ⊆ order) (queued : waiting ⊆ order) :
    ∃ waiting' done' : List Int,
      (step (ids.map (record ids links)))^[steps] ⟨waiting.map (record ids links), done⟩ =
        ⟨waiting'.map (record ids links), done'⟩ ∧
      (step ((among order ids).map (record (among order ids) links)))^[steps]
        ⟨waiting.map (record (among order ids) links), done⟩ =
          ⟨waiting'.map (record (among order ids) links), done'⟩ := by
  have distinct' : (among order ids).Nodup := distinct.filter _
  -- Both queues hold the same ids, and none but those of the order.
  induction steps generalizing waiting done with
  | zero => exact ⟨waiting, done, rfl, rfl⟩
  | succ steps ih =>
    cases waiting with
    | nil => exact ⟨[], done, Function.iterate_fixed rfl _, Function.iterate_fixed rfl _⟩
    | cons id waiting =>
      have ran : id ∈ order := queued List.mem_cons_self
      have later : waiting ++ freed ids links done id ⊆ order := by
        intro next member
        rcases List.mem_append.1 member with before | released
        · exact queued (List.mem_cons_of_mem id before)
        · exact closed.mem_of_mem_freed done id next early ran released
      have ran' : done ++ [id] ⊆ order := by
        intro a member
        rcases List.mem_append.1 member with before | last
        · exact early before
        · exact List.mem_singleton.1 last ▸ ran
      rw [Function.iterate_succ_apply, Function.iterate_succ_apply, step_cons distinct,
        step_cons distinct', closed.freed_eq done id early ran]
      exact ih _ _ ran' later

/-- What the queue starts with belongs to the members. -/
theorem start_among :
    (among order ids).filter (fun id => (record (among order ids) links id).incoming.isEmpty) =
      ids.filter fun id => (record ids links id).incoming.isEmpty := by
  rw [among, List.filter_filter]
  apply List.filter_congr
  intro id inside
  by_cases member : id ∈ order
  · have fed := closed.incoming_eq id member
    rw [among] at fed
    simp only [fed, member, decide_true, Bool.and_true]
  · have waits : (record ids links id).incoming.isEmpty = false := by
      rw [← Bool.not_eq_true, List.isEmpty_iff]
      intro none
      exact member (closed.ready id inside (by simp [none]))
    simp only [member, decide_false, Bool.and_false, waits]

end Closed

/-- The members alone run in the same order. -/
theorem sequence_members (ids : List Int) (links : List Link) (order : List Int)
    (distinct : ids.Nodup) (reached : Reached ids links [] order)
    (entry : (start (ids.map (record ids links))).queue.isEmpty = false)
    (drained : (step (ids.map (record ids links)))^[order.length]
      (start (ids.map (record ids links))) = ⟨[], order⟩) :
    sequence ((among order ids).map (record (among order ids) links)) = .ok order := by
  have closed := reached.closed
  have early : (ids.filter fun id => (record ids links id).incoming.isEmpty) ⊆ order := by
    intro id member
    obtain ⟨inside, none⟩ := List.mem_filter.1 member
    exact closed.ready id inside (by simp [List.isEmpty_iff.1 none])
  obtain ⟨waiting, done, turns, turns'⟩ :=
    closed.iterate_step distinct order.length _ [] (List.nil_subset order) early
  rw [start_eq] at entry drained
  rw [drained, State.mk.injEq] at turns
  obtain ⟨empty, rfl⟩ := turns
  rw [List.map_eq_nil_iff.1 empty.symm, ← closed.start_among, ← start_eq] at turns'
  have members : order ⊆ among order ids := by
    intro id ran
    have inside := reached.known id (List.mem_append_left [] ran)
    exact List.mem_filter.2 ⟨inside, decide_eq_true ran⟩
  have once : order.Nodup := by simpa using reached.once
  have short := (once.subperm members).length_le
  have enough := length_le_stepBound ((among order ids).map (record (among order ids) links))
  rw [List.length_map] at enough
  have goesOn : (start ((among order ids).map (record (among order ids) links))).queue.isEmpty =
      false := by
    rw [start_eq, closed.start_among, List.isEmpty_map]
    rwa [List.isEmpty_map] at entry
  rw [sequence, goesOn, run_of_drained _ order order.length _ _ turns' (by omega)]
  rfl

end Sequence

/-- The nodes that run, alone, run in the same order. -/
theorem sequence_among (g : Graph) (distinct : g.ids.Nodup) (order : List Int)
    (found : sequence (adjacency g.nodes g.links) = .ok order) :
    sequence (adjacency (g.among order).nodes g.links) = .ok order := by
  have entry : ¬ ∀ id ∈ g.ids, ∃ a, g.Feeds a id := by
    rw [← sequence_eq_noEntryPoint_iff g distinct, found]
    simp
  obtain ⟨other, found', reached, drained⟩ := sequence_of_entry g distinct entry
  rw [found] at found'
  cases found'
  have starts := mt (Sequence.start_isEmpty_iff distinct).1 entry
  rw [Adjacency.adjacency_of_nodup g distinct] at drained starts
  have records := Adjacency.adjacency_of_nodup (g.among order) (g.nodup_ids_among distinct order)
  rw [g.ids_among] at records
  exact records.symm ▸ Sequence.sequence_members g.ids g.links order distinct reached
    (Bool.eq_false_iff.2 starts) drained

end PipelineCompiler
