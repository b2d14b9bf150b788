import Mathlib.Data.Fintype.Card
import Mathlib.Data.List.Perm.Subperm
import Mathlib.Data.Set.Finite.Basic
import Mathlib.Logic.Function.Iterate
import Mathlib.Logic.Relation
import PipelineCompiler.Ordering
import PipelineCompiler.Proofs.Adjacency
import PipelineCompiler.Proofs.Except

set_option autoImplicit false

namespace PipelineCompiler

open Adjacency (record)

namespace Sequence

theorem step_of_empty (records : List Adjacency) (s : State) (empty : s.queue.isEmpty = true) :
    step records s = s := by
  obtain ⟨queue, done⟩ := s
  obtain rfl : queue = [] := by simpa using empty
  rfl

theorem run_eq_iterate (records : List Adjacency) (fuel : Nat) (s : State) :
    run records fuel s =
      if ((step records)^[fuel] s).queue.isEmpty then some ((step records)^[fuel] s).done
      else none := by
  induction fuel generalizing s with
  | zero => rfl
  | succ fuel ih =>
    rw [run]
    split
    · rename_i empty
      rw [Function.iterate_fixed (step_of_empty records s empty), if_pos empty]
    · rw [ih, Function.iterate_succ_apply]

/-- Fuel beyond the steps that empty the queue makes no difference. -/
theorem run_of_drained (records : List Adjacency) (order : List Int) (steps fuel : Nat) (s : State)
    (drained : (step records)^[steps] s = ⟨[], order⟩) (enough : steps ≤ fuel) :
    run records fuel s = some order := by
  have last : (step records)^[fuel] s = ⟨[], order⟩ := by
    rw [← Nat.sub_add_cancel enough, Function.iterate_add_apply, drained]
    exact Function.iterate_fixed rfl _
  rw [run_eq_iterate, last]
  rfl

variable (ids : List Int) (links : List Link)

/-- What holds after any number of steps: each node is queued once, at the step of the last node
that feeds it, and so it runs behind all that feed it. -/
structure Reached (waiting done : List Int) : Prop where
  once : (done ++ waiting).Nodup
  known : ∀ id ∈ done ++ waiting, id ∈ ids
  ready : ∀ id ∈ ids, id ∈ done ++ waiting ↔ ∀ a ∈ (record ids links id).incoming, a ∈ done
  ordered : ∀ before id after, done = before ++ id :: after →
    ∀ a ∈ (record ids links id).incoming, a ∈ before

/-- The nodes that become ready when a node runs. -/
def freed (done : List Int) (id : Int) : List Int :=
  (record ids links id).outgoing.filter fun next => isReady (done ++ [id]) (record ids links next)

variable {ids links}

theorem isReady_iff (done : List Int) (id : Int) :
    isReady done (record ids links id) = true ↔
      ∀ a ∈ (record ids links id).incoming, a ∈ done := by
  simp [isReady]

theorem mem_freed (done : List Int) (id next : Int) :
    next ∈ freed ids links done id ↔
      id ∈ (record ids links next).incoming ∧
        ∀ a ∈ (record ids links next).incoming, a ∈ done ++ [id] := by
  rw [freed, List.mem_filter, isReady_iff, Adjacency.mem_outgoing_iff]

theorem last?_map_record (distinct : ids.Nodup) (id : Int) :
    Adjacency.last? id (ids.map (record ids links)) =
      if id ∈ ids then some (record ids links id) else none := by
  rw [← Adjacency.place_of_nodup _ _ distinct]
  exact Adjacency.last?_place _ (Adjacency.record_id ids links) id ids

theorem step_cons (distinct : ids.Nodup) (waiting done : List Int) (id : Int) :
    step (ids.map (record ids links)) ⟨(id :: waiting).map (record ids links), done⟩ =
      ⟨(waiting ++ freed ids links done id).map (record ids links), done ++ [id]⟩ := by
  have found : (record ids links id).outgoing.filterMap
      (fun next => Adjacency.last? next (ids.map (record ids links))) =
        (record ids links id).outgoing.map (record ids links) := by
    rw [← List.filterMap_eq_map]
    apply List.filterMap_congr
    intro next feeds
    have known := Adjacency.mem_ids_of_mem_outgoing ids links id next feeds
    simp [last?_map_record distinct, known]
  simp only [step, released, List.map_cons, Adjacency.record_id, found, List.map_append, freed,
    List.filter_map, Function.comp_def]

theorem start_eq :
    start (ids.map (record ids links)) =
      ⟨(ids.filter fun id => (record ids links id).incoming.isEmpty).map
        (record ids links), []⟩ := by
  simp only [start, List.filter_map, Function.comp_def]

theorem reached_start (distinct : ids.Nodup) :
    Reached ids links (ids.filter fun id => (record ids links id).incoming.isEmpty) [] where
  once := by simpa using distinct.filter _
  known := by
    intro id entry
    exact (List.mem_filter.1 entry).1
  ready := by
    intro id inside
    simp [inside, List.eq_nil_iff_forall_not_mem]
  ordered := by simp

/-- What a step frees was neither queued nor had it run, since the node of the step feeds it. -/
theorem Reached.fresh {waiting done : List Int} {id : Int}
    (reached : Reached ids links (id :: waiting) done) (next : Int)
    (released : next ∈ freed ids links done id) : next ∉ done ++ id :: waiting := by
  intro early
  have feeds := ((mem_freed done id next).1 released).1
  have before := (reached.ready next (reached.known next early)).1 early id feeds
  have once := reached.once
  rw [List.nodup_append] at once
  exact once.2.2 id before id List.mem_cons_self rfl

theorem Reached.step {waiting done : List Int} {id : Int}
    (reached : Reached ids links (id :: waiting) done) :
    Reached ids links (waiting ++ freed ids links done id) (done ++ [id]) := by
  have split : done ++ [id] ++ (waiting ++ freed ids links done id) =
      (done ++ id :: waiting) ++ freed ids links done id := by simp
  have member : id ∈ done ++ id :: waiting := by simp
  have fed := (reached.ready id (reached.known id member)).1 member
  refine ⟨?_, ?_, ?_, ?_⟩
  · rw [split, List.nodup_append]
    refine ⟨reached.once, (Adjacency.nodup_outgoing ids links id).filter _, ?_⟩
    intro a early b late same
    exact reached.fresh b late (same ▸ early)
  · intro next later
    rw [split, List.mem_append] at later
    rcases later with early | late
    · exact reached.known next early
    · have feeds := (List.mem_filter.1 late).1
      exact Adjacency.mem_ids_of_mem_outgoing ids links id next feeds
  · intro next inside
    rw [split, List.mem_append, reached.ready next inside, mem_freed]
    constructor
    · intro given
      rcases given with early | ⟨-, late⟩
      · intro a feeds
        exact List.mem_append_left [id] (early a feeds)
      · exact late
    · intro all
      by_cases feeds : id ∈ (record ids links next).incoming
      · exact .inr ⟨feeds, all⟩
      · left
        intro a other
        rcases List.mem_append.1 (all a other) with ran | last
        · exact ran
        · rw [List.mem_singleton.1 last] at other
          exact absurd other feeds
  · intro before last after cut a feeds
    rcases List.eq_nil_or_concat after with rfl | ⟨after, final, rfl⟩
    · obtain ⟨rfl, same⟩ := List.append_inj' cut rfl
      obtain rfl : id = last := by simpa using same
      exact fed a feeds
    · have cut' : done ++ [id] = (before ++ last :: after) ++ [final] := by simpa using cut
      obtain ⟨same, -⟩ := List.append_inj' cut' rfl
      exact reached.ordered before last after same a feeds

/-- The queue empties: every step lengthens a list of distinct nodes. -/
theorem Reached.drains (distinct : ids.Nodup) {waiting done : List Int}
    (reached : Reached ids links waiting done) :
    ∃ (steps : Nat) (order : List Int), Reached ids links [] order ∧
      order.length = done.length + steps ∧
      (Sequence.step (ids.map (record ids links)))^[steps] ⟨waiting.map (record ids links), done⟩ =
        ⟨[], order⟩ := by
  induction room : ids.length - done.length generalizing waiting done with
  | zero =>
    have bounded := (reached.once.subperm reached.known).length_le
    rw [List.length_append] at bounded
    have none : waiting = [] := List.length_eq_zero_iff.1 (by omega)
    subst none
    exact ⟨0, done, reached, rfl, rfl⟩
  | succ left ih =>
    cases waiting with
    | nil => exact ⟨0, done, reached, rfl, rfl⟩
    | cons id waiting =>
      have shorter : ids.length - (done ++ [id]).length = left := by
        rw [List.length_append, List.length_singleton]
        omega
      obtain ⟨steps, order, final, length, drained⟩ := ih reached.step shorter
      refine ⟨steps + 1, order, final, ?_, ?_⟩
      · rw [length, List.length_append, List.length_singleton]
        omega
      · rw [Function.iterate_succ_apply, step_cons distinct]
        exact drained

/-- The bound on the number of steps leaves one step to every record. -/
theorem length_le_stepBound (records : List Adjacency) : records.length ≤ stepBound records := by
  rw [stepBound]
  exact Nat.le_mul_of_pos_right _ (Nat.pow_pos (Nat.succ_pos _))

end Sequence

/-- Some cycle leads to the node; a link from a node to itself is a cycle. -/
def Graph.Blocked (g : Graph) (id : Int) : Prop :=
  ∃ c, Relation.TransGen g.Feeds c c ∧ Relation.ReflTransGen g.Feeds c id

theorem Graph.not_blocked_of_acc (g : Graph) (id : Int) (grounded : Acc g.Feeds id) :
    ¬ g.Blocked id := by
  induction grounded with
  | intro id _ ih =>
    intro given
    obtain ⟨c, cycle, leads⟩ := given
    rcases Relation.ReflTransGen.cases_tail leads with rfl | ⟨b, leads, feeds⟩
    · obtain ⟨b, leads, feeds⟩ := Relation.TransGen.tail'_iff.1 cycle
      exact ih b feeds ⟨id, cycle, leads⟩
    · exact ih b feeds ⟨c, cycle, leads⟩

theorem Graph.mem_ids_of_feeds (g : Graph) (a b : Int) (feeds : g.Feeds a b) : a ∈ g.ids := by
  obtain ⟨l, -, joins, -, rfl⟩ := feeds
  exact joins.1

/-- Among finitely many nodes, chains backwards that meet no cycle come to an end. -/
theorem Graph.acc_of_not_blocked (g : Graph) (id : Int) (inside : id ∈ g.ids)
    (free : ¬ g.Blocked id) : Acc g.Feeds id := by
  let above : Set Int := {a | a ∈ g.ids ∧ Relation.ReflTransGen g.Feeds a id}
  let before (a b : above) : Prop := Relation.TransGen g.Feeds a.1 b.1
  have finite : Finite above := (g.ids.finite_toSet.subset fun _ member => member.1).to_subtype
  have transitive : IsTrans above before := ⟨fun _ _ _ => Relation.TransGen.trans⟩
  have noCycle : Std.Irrefl before := ⟨fun a cycle => free ⟨a.1, cycle, a.2.2⟩⟩
  have founded : WellFounded before := Finite.wellFounded_of_trans_of_irrefl before
  have all : ∀ a : above, Acc g.Feeds a.1 := by
    intro a
    induction a using founded.induction with
    | _ a ih =>
      refine ⟨_, fun b feeds => ?_⟩
      have leads := a.2.2.head feeds
      exact ih ⟨b, g.mem_ids_of_feeds b a.1 feeds, leads⟩ (.single feeds)
  exact all ⟨id, inside, .refl⟩

def Precedes {α : Type} (order : List α) (a b : α) : Prop :=
  ∃ before after, order = before ++ b :: after ∧ a ∈ before

theorem Precedes.mem {α : Type} {order : List α} {a b : α} (earlier : Precedes order a b) :
    a ∈ order := by
  obtain ⟨before, after, rfl, member⟩ := earlier
  exact List.mem_append_left _ member

theorem Precedes.filterMap {α β : Type} {order : List α} {a b : α} (earlier : Precedes order a b)
    (f : α → Option β) (a' b' : β) (left : f a = some a') (right : f b = some b') :
    Precedes (order.filterMap f) a' b' := by
  obtain ⟨before, after, rfl, member⟩ := earlier
  refine ⟨before.filterMap f, after.filterMap f, ?_, ?_⟩
  · rw [List.filterMap_append, List.filterMap_cons, right]
  · exact List.mem_filterMap.2 ⟨a, member, left⟩

/-- An execution order: it has each node that no cycle blocks once, behind all that feed it. -/
structure Graph.IsOrder (g : Graph) (order : List Int) : Prop where
  nodup : order.Nodup
  mem_iff : ∀ id, id ∈ order ↔ id ∈ g.ids ∧ ¬ g.Blocked id
  precedes : ∀ l ∈ g.links, l.Joins g.ids → l.target ∈ order → Precedes order l.source l.target

namespace Sequence

variable {g : Graph} {order : List Int}

/-- What has run is grounded: chains backwards from it lead towards the start of the order. -/
theorem Reached.acc (reached : Reached g.ids g.links [] order) (id : Int) (ran : id ∈ order) :
    Acc g.Feeds id := by
  obtain ⟨before, after, cut⟩ := List.append_of_mem ran
  induction length : before.length using Nat.strongRecOn generalizing id before after with
  | ind position ih =>
    refine ⟨id, fun a feeds => ?_⟩
    have earlier := reached.ordered before id after cut a
      ((Adjacency.mem_incoming g.ids g.links a id).2 feeds)
    obtain ⟨front, middle, split⟩ := List.append_of_mem earlier
    refine ih front.length ?_ a ?_ front (middle ++ id :: after) ?_ rfl
    · rw [← length, split, List.length_append, List.length_cons]
      omega
    · rw [cut]
      exact List.mem_append_left _ earlier
    · rw [cut, split, List.append_assoc, List.cons_append]

theorem Reached.mem_of_acc (reached : Reached g.ids g.links [] order) (id : Int)
    (inside : id ∈ g.ids) (grounded : Acc g.Feeds id) : id ∈ order := by
  induction grounded with
  | intro id _ ih =>
    have ran := (reached.ready id inside).2 fun a fed => by
      have feeds : g.Feeds a id := (Adjacency.mem_incoming g.ids g.links a id).1 fed
      exact ih a feeds (g.mem_ids_of_feeds a id feeds)
    simpa using ran

theorem Reached.isOrder (reached : Reached g.ids g.links [] order) : g.IsOrder order where
  nodup := by simpa using reached.once
  mem_iff := by
    intro id
    constructor
    · intro ran
      have inside := reached.known id (by simpa using ran)
      exact ⟨inside, g.not_blocked_of_acc id (reached.acc id ran)⟩
    · intro given
      obtain ⟨inside, free⟩ := given
      exact reached.mem_of_acc id inside (g.acc_of_not_blocked id inside free)
  precedes := by
    intro l member joins ran
    obtain ⟨before, after, cut⟩ := List.append_of_mem ran
    have fed := (Adjacency.mem_incoming g.ids g.links l.source l.target).2
      ⟨l, member, joins, rfl, rfl⟩
    exact ⟨before, after, cut, reached.ordered before l.target after cut l.source fed⟩

/-- The start queues nothing when every node is fed by some node. -/
theorem start_isEmpty_iff (distinct : g.ids.Nodup) :
    (start (adjacency g.nodes g.links)).queue.isEmpty = true ↔
      ∀ id ∈ g.ids, ∃ a, g.Feeds a id := by
  have fed : ∀ id, (record g.ids g.links id).incoming = [] ↔ ¬ ∃ a, g.Feeds a id := by
    intro id
    simp only [List.eq_nil_iff_forall_not_mem, Adjacency.mem_incoming, Graph.Feeds, not_exists]
  rw [Adjacency.adjacency_of_nodup g distinct, start_eq]
  simp only [List.isEmpty_iff, List.map_eq_nil_iff, List.filter_eq_nil_iff, fed, not_not]

theorem length_adjacency (distinct : g.ids.Nodup) :
    (adjacency g.nodes g.links).length = g.ids.length := by
  rw [Adjacency.adjacency_of_nodup g distinct, List.length_map]

/-- From the start the queue empties, and the order is what has run by then. -/
theorem drained_of_nodup (distinct : g.ids.Nodup) :
    ∃ order, Reached g.ids g.links [] order ∧ order.length ≤ g.ids.length ∧
      (step (adjacency g.nodes g.links))^[order.length] (start (adjacency g.nodes g.links)) =
        ⟨[], order⟩ := by
  obtain ⟨steps, order, reached, length, drained⟩ :=
    (@reached_start g.ids g.links distinct).drains distinct
  have steps_eq : steps = order.length := by simpa using length.symm
  have bounded := (reached.once.subperm reached.known).length_le
  rw [← start_eq, ← Adjacency.adjacency_of_nodup g distinct, steps_eq] at drained
  exact ⟨order, reached, by simpa using bounded, drained⟩

theorem run_adjacency (distinct : g.ids.Nodup) :
    ∃ order, Reached g.ids g.links [] order ∧
      run (adjacency g.nodes g.links) (stepBound (adjacency g.nodes g.links))
        (start (adjacency g.nodes g.links)) = some order ∧
      (step (adjacency g.nodes g.links))^[order.length] (start (adjacency g.nodes g.links)) =
        ⟨[], order⟩ := by
  obtain ⟨order, reached, bounded, drained⟩ := drained_of_nodup distinct
  refine ⟨order, reached, ?_, drained⟩
  apply run_of_drained _ _ _ _ _ drained
  rw [← length_adjacency distinct] at bounded
  exact bounded.trans (length_le_stepBound _)

end Sequence

theorem sequence_eq_noEntryPoint_iff (g : Graph) (distinct : g.ids.Nodup) :
    sequence (adjacency g.nodes g.links) = .error .noEntryPoint ↔
      ∀ id ∈ g.ids, ∃ a, g.Feeds a id := by
  rw [← Sequence.start_isEmpty_iff distinct]
  obtain ⟨order, -, ran, -⟩ := Sequence.run_adjacency distinct
  rw [sequence]
  split
  · rename_i empty
    simp [empty]
  · rename_i entry
    simp [entry, ran]

/-- A graph with a node that nothing feeds has an order, and sequencing finds it. -/
theorem sequence_of_entry (g : Graph) (distinct : g.ids.Nodup)
    (entry : ¬ ∀ id ∈ g.ids, ∃ a, g.Feeds a id) :
    ∃ order, sequence (adjacency g.nodes g.links) = .ok order ∧
      Sequence.Reached g.ids g.links [] order ∧
      (Sequence.step (adjacency g.nodes g.links))^[order.length]
        (Sequence.start (adjacency g.nodes g.links)) = ⟨[], order⟩ := by
  obtain ⟨order, reached, ran, drained⟩ := Sequence.run_adjacency distinct
  refine ⟨order, ?_, reached, drained⟩
  rw [← Sequence.start_isEmpty_iff distinct] at entry
  rw [sequence, if_neg entry, ran]

theorem isOrder_of_sequence (g : Graph) (distinct : g.ids.Nodup) (order : List Int)
    (made : sequence (adjacency g.nodes g.links) = .ok order) : g.IsOrder order := by
  have entry : ¬ ∀ id ∈ g.ids, ∃ a, g.Feeds a id := by
    rw [← sequence_eq_noEntryPoint_iff g distinct, made]
    simp
  obtain ⟨other, found, reached, -⟩ := sequence_of_entry g distinct entry
  rw [made] at found
  cases found
  exact reached.isOrder

open scoped Classical in
theorem Graph.IsOrder.missing_eq {g : Graph} {order : List Int} (valid : g.IsOrder order)
    (distinct : g.ids.Nodup) :
    missing (adjacency g.nodes g.links) order = g.ids.filter fun id => g.Blocked id := by
  have ids : (adjacency g.nodes g.links).map Adjacency.id = g.ids := by
    rw [Adjacency.adjacency_of_nodup g distinct, List.map_map]
    exact List.map_id' g.ids
  rw [missing, unsequenced, ids]
  apply List.filter_congr
  intro id inside
  simp [valid.mem_iff, inside]

theorem Graph.IsOrder.mem_missing_iff {g : Graph} {order : List Int} (valid : g.IsOrder order)
    (distinct : g.ids.Nodup) (id : Int) :
    id ∈ missing (adjacency g.nodes g.links) order ↔ id ∈ g.ids ∧ g.Blocked id := by
  classical
  rw [valid.missing_eq distinct, List.mem_filter, decide_eq_true_iff]

section Numerals

variable {g : Graph} {order : List Int}

/-- What is missing from an order leaves it incomplete. -/
theorem Graph.IsOrder.isIncomplete_of_mem_missing (valid : g.IsOrder order) (distinct : g.ids.Nodup)
    (id : Int) (absent : id ∈ missing (adjacency g.nodes g.links) order) :
    isIncomplete (adjacency g.nodes g.links) order = true := by
  obtain ⟨inside, blocked⟩ := (valid.mem_missing_iff distinct id).1 absent
  have outside : id ∉ order := fun ran => ((valid.mem_iff id).1 ran).2 blocked
  have known : id :: order ⊆ g.ids :=
    List.cons_subset.2 ⟨inside, fun a ran => ((valid.mem_iff a).1 ran).1⟩
  have longer := ((List.nodup_cons.2 ⟨outside, valid.nodup⟩).subperm known).length_le
  rw [isIncomplete, Sequence.length_adjacency distinct, decide_eq_true_iff]
  exact longer

/-- The notes and the warning do not touch the order; they are written or not. -/
theorem reported_eq_sequence_or_noNumeral (g : Graph) :
    (reportedAdjacency g.nodes g.links >>= reportedSequence) =
        sequence (adjacency g.nodes g.links) ∨
      (reportedAdjacency g.nodes g.links >>= reportedSequence) = .error .noNumeral := by
  rw [reportedAdjacency_eq]
  split
  · rw [ok_bind, reportedSequence]
    cases sequence (adjacency g.nodes g.links) with
    | error e => exact .inl rfl
    | ok order =>
      rw [ok_bind]
      split
      · exact .inr rfl
      · exact .inl rfl
  · exact .inr rfl

/-- Of an order only the warning on what it leaves out can fail. -/
theorem reportedSequence_of_order (distinct : g.ids.Nodup)
    (found : sequence (adjacency g.nodes g.links) = .ok order) :
    reportedSequence (adjacency g.nodes g.links) =
      if ∀ id ∈ missing (adjacency g.nodes g.links) order, hasNumeral id = true then .ok order
      else .error .noNumeral := by
  have valid := isOrder_of_sequence g distinct order found
  rw [reportedSequence, found, ok_bind]
  by_cases numerals : ∀ id ∈ missing (adjacency g.nodes g.links) order, hasNumeral id = true
  · rw [if_pos numerals, List.all_eq_true.2 numerals, Bool.not_true, Bool.and_false]
    rfl
  · obtain ⟨id, fails⟩ := not_forall.1 numerals
    obtain ⟨absent, -⟩ := Classical.not_imp.1 fails
    have some : (missing (adjacency g.nodes g.links) order).all hasNumeral = false := by
      rw [← Bool.not_eq_true, List.all_eq_true]
      exact numerals
    rw [if_neg numerals, valid.isIncomplete_of_mem_missing distinct id absent, some]
    rfl

/-- An id of the graph is in the order or missing from it. -/
theorem Graph.IsOrder.numerals_iff (valid : g.IsOrder order) (distinct : g.ids.Nodup) :
    (∀ id ∈ g.ids, hasNumeral id = true) ↔
      (∀ id ∈ missing (adjacency g.nodes g.links) order, hasNumeral id = true) ∧
        ∀ id ∈ order, hasNumeral id = true := by
  constructor
  · intro all
    exact ⟨fun id absent => all id ((valid.mem_missing_iff distinct id).1 absent).1,
      fun id ran => all id ((valid.mem_iff id).1 ran).1⟩
  · rintro ⟨left, ran⟩ id inside
    by_cases blocked : g.Blocked id
    · exact left id ((valid.mem_missing_iff distinct id).2 ⟨inside, blocked⟩)
    · exact ran id ((valid.mem_iff id).2 ⟨inside, blocked⟩)

/-- All texts on the order of a graph can be written. -/
structure Graph.Numbered (g : Graph) : Prop where
  dangling : g.DanglingNumbered
  ids : ∀ id ∈ g.ids, hasNumeral id = true

theorem Graph.Numbered.hasNumerals (numbered : g.Numbered) (l : Link) (linked : l ∈ g.links) :
    l.hasNumerals = true := by
  rcases numbered.dangling l linked with joins | noted
  · rw [Link.hasNumerals, numbered.ids _ joins.1, numbered.ids _ joins.2]
    rfl
  · exact noted

/-- What is missing is written in the warning, what runs in the note on the order. -/
theorem executionOrder_eq (distinct : g.ids.Nodup) :
    executionOrder g =
      if g.DanglingNumbered then
        match sequence (adjacency g.nodes g.links) with
        | .error e => .error e
        | .ok order =>
          if ∀ id ∈ g.ids, hasNumeral id = true then .ok (adjacency g.nodes g.links, order)
          else .error .noNumeral
      else .error .noNumeral := by
  rw [executionOrder, reportedAdjacency_eq]
  by_cases dangling : g.DanglingNumbered
  · rw [if_pos dangling, if_pos dangling, ok_bind]
    cases found : sequence (adjacency g.nodes g.links) with
    | error e =>
      rw [reportedSequence, found]
      rfl
    | ok order =>
      have valid := isOrder_of_sequence g distinct order found
      rw [reportedSequence_of_order distinct found]
      dsimp only
      by_cases left : ∀ id ∈ missing (adjacency g.nodes g.links) order, hasNumeral id = true
      · rw [if_pos left, ok_bind]
        refine if_congr ?_ rfl rfl
        rw [List.all_eq_true, valid.numerals_iff distinct]
        exact (and_iff_right left).symm
      · rw [if_neg left, if_neg fun all => left ((valid.numerals_iff distinct).1 all).1]
        rfl
  · rw [if_neg dangling, if_neg dangling]
    rfl

theorem executionOrder_eq_ok_iff (distinct : g.ids.Nodup) (records : List Adjacency) :
    executionOrder g = .ok (records, order) ↔
      g.Numbered ∧ records = adjacency g.nodes g.links ∧
        sequence (adjacency g.nodes g.links) = .ok order := by
  rw [executionOrder_eq distinct]
  constructor
  · intro made
    split at made
    · rename_i dangling
      split at made
      · cases made
      · rename_i found
        split at made
        · rename_i numerals
          cases made
          exact ⟨⟨dangling, numerals⟩, rfl, found⟩
        · cases made
    · cases made
  · rintro ⟨numbered, rfl, found⟩
    rw [if_pos numbered.dangling, found]
    exact if_pos numbered.ids

theorem reportedSequence_of_fed (distinct : g.ids.Nodup) (fed : ∀ id ∈ g.ids, ∃ a, g.Feeds a id) :
    reportedSequence (adjacency g.nodes g.links) = .error .noEntryPoint := by
  rw [reportedSequence, (sequence_eq_noEntryPoint_iff g distinct).2 fed]
  rfl

open scoped Classical in
theorem reportedSequence_of_entry (distinct : g.ids.Nodup)
    (entry : ¬ ∀ id ∈ g.ids, ∃ a, g.Feeds a id) : ∃ order, g.IsOrder order ∧
      (Sequence.step (adjacency g.nodes g.links))^[order.length]
        (Sequence.start (adjacency g.nodes g.links)) = ⟨[], order⟩ ∧
      reportedSequence (adjacency g.nodes g.links) =
        if ∀ id ∈ g.ids, g.Blocked id → hasNumeral id = true then .ok order
        else .error .noNumeral := by
  obtain ⟨order, made, reached, drained⟩ := sequence_of_entry g distinct entry
  refine ⟨order, reached.isOrder, drained, ?_⟩
  rw [reportedSequence_of_order distinct made]
  simp only [reached.isOrder.mem_missing_iff distinct, and_imp]

end Numerals

open scoped Classical in
/-- Sequencing comes to an end on every graph without repeated ids. If all it writes has numerals,
it fails when every node is fed by some node; else it lists what no cycle leads to, each node behind
all that feed it, and the missing nodes are the others in the order of the graph. Without numerals
for the ends of a dangling link, or for a missing node, there is no result. -/
theorem sequence_lists_unblocked (g : Graph) (distinct : g.ids.Nodup) :
    ((reportedAdjacency g.nodes g.links >>= reportedSequence) = .error .noEntryPoint ↔
      g.DanglingNumbered ∧ ∀ id ∈ g.ids, ∃ a, g.Feeds a id) ∧
    ((reportedAdjacency g.nodes g.links >>= reportedSequence) = .error .noNumeral ↔
      ¬ g.DanglingNumbered ∨
        (¬ ∀ id ∈ g.ids, ∃ a, g.Feeds a id) ∧
          ∃ id ∈ g.ids, g.Blocked id ∧ hasNumeral id = false) ∧
    (g.DanglingNumbered → (¬ ∀ id ∈ g.ids, ∃ a, g.Feeds a id) →
      (∀ id ∈ g.ids, g.Blocked id → hasNumeral id = true) → ∃ records order,
        reportedAdjacency g.nodes g.links = .ok records ∧
        reportedSequence records = .ok order ∧
        (Sequence.step records)^[order.length] (Sequence.start records) = ⟨[], order⟩ ∧
        g.IsOrder order ∧
        missing records order = g.ids.filter fun id => g.Blocked id) := by
  rw [reportedAdjacency_eq]
  by_cases dangling : g.DanglingNumbered
  · rw [if_pos dangling, ok_bind]
    by_cases fed : ∀ id ∈ g.ids, ∃ a, g.Feeds a id
    · rw [reportedSequence_of_fed distinct fed]
      refine ⟨iff_of_true rfl ⟨dangling, fed⟩, iff_of_false (by simp) ?_,
        fun _ entry => absurd fed entry⟩
      rintro (stray | ⟨entry, -⟩)
      · exact stray dangling
      · exact entry fed
    · obtain ⟨order, valid, drained, reported⟩ := reportedSequence_of_entry distinct fed
      by_cases numerals : ∀ id ∈ g.ids, g.Blocked id → hasNumeral id = true
      · rw [if_pos numerals] at reported
        rw [reported]
        refine ⟨by simp [fed], by simpa [dangling, fed] using numerals, fun _ _ _ => ?_⟩
        exact ⟨_, order, rfl, reported, drained, valid, valid.missing_eq distinct⟩
      · rw [if_neg numerals] at reported
        rw [reported]
        refine ⟨by simp [fed], ?_, fun _ _ all => absurd all numerals⟩
        simpa [dangling, fed] using numerals
  · rw [if_neg dangling]
    exact ⟨by simp [bind, Except.bind, dangling], by simp [bind, Except.bind, dangling],
      fun numbered => absurd numbered dangling⟩

/-- Parallel links from an entry, a link from nowhere, and a node that feeds itself and another. -/
def knottedGraph : Graph :=
  { nodes := [1, 2, 3, 4].map fun id => ⟨id, "tool", "Tool", false, none⟩
    links := [⟨1, 2, 0, 0⟩, ⟨1, 2, 1, 0⟩, ⟨9, 2, 0, 0⟩, ⟨3, 3, 0, 0⟩, ⟨3, 4, 0, 0⟩, ⟨1, 4, 0, 1⟩] }

theorem sequence_lists_unblocked_knotted :
    knottedGraph.ids.Nodup ∧ knottedGraph.DanglingNumbered ∧
      (¬ ∀ id ∈ knottedGraph.ids, ∃ a, knottedGraph.Feeds a id) ∧
      (∀ id ∈ knottedGraph.ids, knottedGraph.Blocked id → hasNumeral id = true) ∧
      (reportedAdjacency knottedGraph.nodes knottedGraph.links >>= reportedSequence) = .ok [1, 2] ∧
      knottedGraph.IsOrder [1, 2] ∧
      missing (adjacency knottedGraph.nodes knottedGraph.links) [1, 2] = [3, 4] := by
  have distinct : knottedGraph.ids.Nodup := by decide
  have dangling : knottedGraph.DanglingNumbered := by decide +kernel
  have numerals : ∀ id ∈ knottedGraph.ids, hasNumeral id = true := by decide +kernel
  have found : (reportedAdjacency knottedGraph.nodes knottedGraph.links >>= reportedSequence) =
      .ok [1, 2] := by decide +kernel
  obtain ⟨failure, -, success⟩ := sequence_lists_unblocked knottedGraph distinct
  have entry : ¬ ∀ id ∈ knottedGraph.ids, ∃ a, knottedGraph.Feeds a id := by
    intro fed
    have failed := failure.2 ⟨dangling, fed⟩
    rw [found] at failed
    cases failed
  have blocked : ∀ id ∈ knottedGraph.ids, knottedGraph.Blocked id → hasNumeral id = true :=
    fun id inside _ => numerals id inside
  obtain ⟨records, order, taken, made, -, valid, -⟩ := success dangling entry blocked
  rw [taken, ok_bind, made] at found
  cases found
  exact ⟨distinct, dangling, entry, blocked, by rw [taken, ok_bind, made], valid, rfl⟩

theorem no_order_with_dangling_link_without_numeral :
    endlessLinkGraph.ids.Nodup ∧ (¬ ∀ id ∈ endlessLinkGraph.ids, ∃ a, endlessLinkGraph.Feeds a id) ∧
      (reportedAdjacency endlessLinkGraph.nodes endlessLinkGraph.links >>= reportedSequence) =
        .error .noNumeral ∧
      endlessLinkGraph.IsOrder [1] := by
  have distinct : endlessLinkGraph.ids.Nodup := by decide
  have found : sequence (adjacency endlessLinkGraph.nodes endlessLinkGraph.links) = .ok [1] := by
    decide +kernel
  refine ⟨distinct, ?_, by decide +kernel, isOrder_of_sequence _ distinct _ found⟩
  intro fed
  rw [(sequence_eq_noEntryPoint_iff endlessLinkGraph distinct).2 fed] at found
  cases found

end PipelineCompiler
