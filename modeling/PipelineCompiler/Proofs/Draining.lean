import Mathlib.Algebra.GroupWithZero.Nat
import Mathlib.Data.List.Fold
import Mathlib.Data.List.MinMax
import PipelineCompiler.Proofs.Sequence

set_option autoImplicit false

/- When the queue empties, whatever the records are. A record that queues itself again, over any
number of steps, keeps the queue filled for ever. Otherwise the records that queued one another are
all different, and the queue empties within the bound on the number of steps. -/
namespace PipelineCompiler.Sequence

variable (records : List Adjacency)

/-- When the first record runs, now or later, it queues the second. -/
def Leads (done : List Int) (a b : Adjacency) : Prop :=
  a ∈ records ∧ b ∈ released records done a

/-- A record is queued that leads back to itself. -/
def Circling (s : State) : Prop :=
  ∃ r ∈ s.queue, Relation.TransGen (Leads records s.done) r r

variable {records}

theorem mem_released_iff (done : List Int) (a b : Adjacency) :
    b ∈ released records done a ↔
      (∃ id ∈ a.outgoing, Adjacency.last? id records = some b) ∧ isReady done b = true := by
  rw [released, List.mem_filter, List.mem_filterMap]

theorem isReady_append (done more : List Int) (r : Adjacency) (ready : isReady done r = true) :
    isReady (done ++ more) r = true := by
  simp only [isReady, List.all_eq_true, List.contains_iff_mem] at ready ⊢
  intro id feeds
  exact List.mem_append_left more (ready id feeds)

theorem Leads.append {done : List Int} {a b : Adjacency} (leads : Leads records done a b)
    (more : List Int) : Leads records (done ++ more) a b := by
  obtain ⟨known, release⟩ := leads
  obtain ⟨listed, ready⟩ := (mem_released_iff done a b).1 release
  exact ⟨known, (mem_released_iff _ a b).2 ⟨listed, isReady_append done more b ready⟩⟩

theorem transGen_leads_append {done : List Int} {a b : Adjacency}
    (leads : Relation.TransGen (Leads records done) a b) (more : List Int) :
    Relation.TransGen (Leads records (done ++ more)) a b :=
  leads.lift id fun _ _ one => one.append more

theorem mem_of_last? (id : Int) (r : Adjacency) (found : Adjacency.last? id records = some r) :
    r ∈ records ∧ r.id = id := by
  induction records with
  | nil => cases found
  | cons first rest ih =>
    rw [Adjacency.last?] at found
    cases later : Adjacency.last? id rest with
    | some s =>
      rw [later] at found
      cases found
      exact ⟨List.mem_cons_of_mem first (ih later).1, (ih later).2⟩
    | none =>
      rw [later] at found
      dsimp only at found
      split at found
      · rename_i here
        cases found
        exact ⟨List.mem_cons_self, here⟩
      · cases found

theorem Leads.mem {done : List Int} {a b : Adjacency} (leads : Leads records done a b) :
    b ∈ records := by
  obtain ⟨⟨id, -, found⟩, -⟩ := (mem_released_iff done a b).1 leads.2
  exact (mem_of_last? id b found).1

/-- The record that runs may be the one that leads back to itself; then the next on its way is
queued, and leads back to itself as well. -/
theorem Circling.step {s : State} (circling : Circling records s) :
    Circling records (step records s) := by
  obtain ⟨queue, done⟩ := s
  obtain ⟨r, queued, circle⟩ := circling
  cases queue with
  | nil => cases queued
  | cons first rest =>
    have circle' := transGen_leads_append circle [first.id]
    rcases List.mem_cons.1 queued with rfl | later
    · obtain ⟨next, leads, back⟩ := Relation.TransGen.head'_iff.1 circle'
      refine ⟨next, List.mem_append_right rest leads.2, ?_⟩
      exact Relation.TransGen.trans_right back (.single leads)
    · exact ⟨r, List.mem_append_left _ later, circle'⟩

theorem Circling.iterate {s : State} (circling : Circling records s) (n : Nat) :
    Circling records ((Sequence.step records)^[n] s) := by
  induction n with
  | zero => exact circling
  | succ n ih =>
    rw [Function.iterate_succ_apply']
    exact ih.step

theorem Circling.queue_ne_nil {s : State} (circling : Circling records s) : s.queue ≠ [] := by
  obtain ⟨r, queued, -⟩ := circling
  exact List.ne_nil_of_mem queued

/-- A record in the queue, and behind it the records that queued one another up to it, the last
first. -/
structure Lineage where
  record : Adjacency
  origins : List Adjacency

namespace Lineage

def line (l : Lineage) : List Adjacency := l.record :: l.origins

variable (records) in
/-- No record comes twice in a lineage, and each still leads to its end. -/
structure Traced (done : List Int) (l : Lineage) : Prop where
  known : ∀ r ∈ l.line, r ∈ records
  once : l.line.Nodup
  leads : ∀ r ∈ l.origins, Relation.TransGen (Leads records done) r l.record

variable (records) in
/-- What the run of the record queues. -/
def heirs (done : List Int) (l : Lineage) : List Lineage :=
  (released records done l.record).map fun r => ⟨r, l.line⟩

theorem map_record_heirs (done : List Int) (l : Lineage) :
    (l.heirs records done).map record = released records done l.record := by
  rw [heirs, List.map_map]
  exact List.map_id _

theorem Traced.append {done : List Int} {l : Lineage} (traced : l.Traced records done)
    (more : List Int) : l.Traced records (done ++ more) where
  known := traced.known
  once := traced.once
  leads := fun r origin => transGen_leads_append (traced.leads r origin) more

theorem Traced.leads_heir {done : List Int} {l : Lineage} (traced : l.Traced records done)
    (r heir : Adjacency) (member : r ∈ l.line) (release : heir ∈ released records done l.record) :
    Relation.TransGen (Leads records done) r heir := by
  have last : Leads records done l.record heir :=
    ⟨traced.known l.record List.mem_cons_self, release⟩
  rcases List.mem_cons.1 member with rfl | origin
  · exact .single last
  · exact (traced.leads r origin).tail last

/-- An heir that is in its own lineage leads back to itself. -/
theorem Traced.heir {done : List Int} {l : Lineage} (traced : l.Traced records done)
    (heir : Adjacency) (release : heir ∈ released records done l.record)
    (calm : ¬ Relation.TransGen (Leads records done) heir heir) :
    (⟨heir, l.line⟩ : Lineage).Traced records done where
  known := by
    intro r member
    rcases List.mem_cons.1 member with rfl | origin
    · exact Leads.mem ⟨traced.known l.record List.mem_cons_self, release⟩
    · exact traced.known r origin
  once := by
    refine List.nodup_cons.2 ⟨?_, traced.once⟩
    intro again
    exact calm (traced.leads_heir heir heir again release)
  leads := fun r origin => traced.leads_heir r heir origin release

end Lineage

/-- The most records that a record can queue. -/
def width (records : List Adjacency) : Nat :=
  (records.map fun r => r.outgoing.length).foldl max 0

theorem length_outgoing_le (r : Adjacency) (known : r ∈ records) :
    r.outgoing.length ≤ width records := by
  rw [width, List.foldl_eq_foldr]
  exact List.le_max_of_le' 0 (List.mem_map_of_mem known) (le_refl _)

theorem length_released_le (done : List Int) (r : Adjacency) (known : r ∈ records) :
    (released records done r).length ≤ width records :=
  calc (released records done r).length
      ≤ (r.outgoing.filterMap fun id => Adjacency.last? id records).length :=
        List.length_filter_le _ _
    _ ≤ r.outgoing.length := List.length_filterMap_le _ _
    _ ≤ width records := length_outgoing_le r known

/-- The steps that a record in the queue may still cost: one for itself, and no more than `width`
times as many for each further record of a lineage, which has no more records than there are. -/
def Lineage.weight (records : List Adjacency) (l : Lineage) : Nat :=
  (width records + 1) ^ (records.length - l.origins.length)

def weight (records : List Adjacency) (q : List Lineage) : Nat :=
  (q.map (Lineage.weight records)).sum

theorem weight_append (first second : List Lineage) :
    weight records (first ++ second) = weight records first + weight records second := by
  rw [weight, List.map_append, List.sum_append, weight, weight]

theorem weight_map (rs origins : List Adjacency) :
    weight records (rs.map fun r => ⟨r, origins⟩) =
      rs.length * (width records + 1) ^ (records.length - origins.length) := by
  simp only [weight, List.map_map, Function.comp_def, Lineage.weight, List.map_const',
    List.sum_replicate_nat]

theorem weight_heirs_lt (done : List Int) (l : Lineage) (traced : l.Traced records done) :
    weight records (l.heirs records done) < l.weight records := by
  have room : l.origins.length + 1 ≤ records.length := by
    have bounded := (traced.once.subperm traced.known).length_le
    simpa [Lineage.line] using bounded
  obtain ⟨rest, split⟩ := Nat.exists_eq_add_of_le room
  have few := length_released_le done l.record (traced.known l.record List.mem_cons_self)
  have each : weight records (l.heirs records done) =
      (released records done l.record).length * (width records + 1) ^ rest := by
    have deeper : records.length - l.line.length = rest := by
      rw [Lineage.line, List.length_cons]
      omega
    rw [Lineage.heirs, weight_map, deeper]
  have whole : l.weight records = (width records + 1) * (width records + 1) ^ rest := by
    have height : records.length - l.origins.length = rest + 1 := by omega
    rw [Lineage.weight, height, Nat.pow_succ, Nat.mul_comm]
  rw [each, whole]
  exact Nat.mul_lt_mul_of_pos_right (Nat.lt_succ_of_le few) (Nat.pow_pos (Nat.succ_pos _))

/-- Where no record ever leads back to itself, each step lowers the weight of the queue. -/
theorem drains_of_calm (q : List Lineage) (done : List Int)
    (traced : ∀ l ∈ q, l.Traced records done)
    (calm : ∀ n, ¬ Circling records ((step records)^[n] ⟨q.map Lineage.record, done⟩)) :
    ∃ steps ≤ weight records q,
      ((step records)^[steps] ⟨q.map Lineage.record, done⟩).queue = [] := by
  induction size : weight records q using Nat.strongRecOn generalizing q done with
  | ind total ih =>
    cases q with
    | nil => exact ⟨0, Nat.zero_le _, rfl⟩
    | cons l rest =>
      let after := done ++ [l.record.id]
      let next := rest ++ l.heirs records after
      have stepped : step records ⟨(l :: rest).map Lineage.record, done⟩ =
          ⟨next.map Lineage.record, after⟩ := by
        rw [List.map_append, Lineage.map_record_heirs]
        rfl
      have calmNext : ∀ n, ¬ Circling records
          ((step records)^[n] ⟨next.map Lineage.record, after⟩) := by
        intro n
        rw [← stepped, ← Function.iterate_succ_apply]
        exact calm (n + 1)
      have tracedNext : ∀ m ∈ next, m.Traced records after := by
        intro m member
        rcases List.mem_append.1 member with waiting | heir
        · exact (traced m (List.mem_cons_of_mem l waiting)).append _
        · obtain ⟨r, release, rfl⟩ := List.mem_map.1 heir
          refine ((traced l List.mem_cons_self).append _).heir r release ?_
          intro circle
          exact calmNext 0 ⟨r, List.mem_map_of_mem member, circle⟩
      have lighter : weight records next < total := by
        have lost := weight_heirs_lt after l ((traced l List.mem_cons_self).append _)
        have whole : weight records (l :: rest) = l.weight records + weight records rest :=
          List.sum_cons
        rw [weight_append]
        omega
      obtain ⟨steps, few, drained⟩ := ih _ lighter next after tracedNext calmNext rfl
      refine ⟨steps + 1, by omega, ?_⟩
      rw [Function.iterate_succ_apply, stepped]
      exact drained

/-- The queue at the start weighs no more than the bound on the number of steps. -/
theorem start_drains_of_calm
    (calm : ∀ n, ¬ Circling records ((step records)^[n] (start records))) :
    ∃ steps ≤ stepBound records, ((step records)^[steps] (start records)).queue = [] := by
  let q := (start records).queue.map fun r => (⟨r, []⟩ : Lineage)
  have same : start records = ⟨q.map Lineage.record, []⟩ := by
    rw [List.map_map]
    exact congrArg (State.mk · []) (List.map_id _).symm
  have traced : ∀ l ∈ q, l.Traced records [] := by
    intro l member
    obtain ⟨r, queued, rfl⟩ := List.mem_map.1 member
    have known : r ∈ records := List.mem_of_mem_filter queued
    refine ⟨?_, List.nodup_singleton r, by simp⟩
    intro other alone
    rw [List.mem_singleton.1 alone]
    exact known
  rw [same] at calm ⊢
  obtain ⟨steps, few, drained⟩ := drains_of_calm q [] traced calm
  refine ⟨steps, few.trans ?_, drained⟩
  have all : weight records q =
      (start records).queue.length * (width records + 1) ^ records.length :=
    weight_map _ []
  rw [all]
  exact Nat.mul_le_mul_right _ (List.length_filter_le _ _)

variable (records)

theorem queue_eq_nil_of_le (s : State) (m n : Nat) (drained : ((step records)^[m] s).queue = [])
    (later : m ≤ n) : ((step records)^[n] s).queue = [] := by
  rw [← Nat.sub_add_cancel later, Function.iterate_add_apply]
  have stays := step_of_empty records _ (List.isEmpty_iff.2 drained)
  rw [Function.iterate_fixed stays]
  exact drained

/-- The queue never empties exactly when at some time a queued record leads back to itself. -/
theorem never_drained_iff :
    (∀ n, ((step records)^[n] (start records)).queue ≠ []) ↔
      ∃ n, Circling records ((step records)^[n] (start records)) := by
  constructor
  · intro filled
    by_contra calm
    obtain ⟨steps, -, drained⟩ := start_drains_of_calm (not_exists.1 calm)
    exact filled steps drained
  · intro given n drained
    obtain ⟨m, circling⟩ := given
    have late := circling.iterate n
    rw [← Function.iterate_add_apply] at late
    exact late.queue_ne_nil (queue_eq_nil_of_le records _ n (n + m) drained (Nat.le_add_right n m))

/-- The bound on the number of steps is enough for every queue that empties. -/
theorem run_stepBound_eq_none_iff :
    run records (stepBound records) (start records) = none ↔
      ∀ n, ((step records)^[n] (start records)).queue ≠ [] := by
  rw [run_eq_iterate]
  constructor
  · intro failed n drained
    have calm : ¬ ∃ n, Circling records ((step records)^[n] (start records)) := by
      rw [← never_drained_iff]
      exact fun filled => filled n drained
    obtain ⟨steps, few, empty⟩ := start_drains_of_calm (not_exists.1 calm)
    rw [queue_eq_nil_of_le records _ steps _ empty few] at failed
    cases failed
  · intro filled
    exact if_neg fun empty => filled _ (List.isEmpty_iff.1 empty)

theorem length_done_iterate (n : Nat) (s : State)
    (filled : ∀ m < n, ((step records)^[m] s).queue ≠ []) :
    ((step records)^[n] s).done.length = s.done.length + n := by
  induction n with
  | zero => rfl
  | succ n ih =>
    have shorter := ih fun m below => filled m (below.trans (Nat.lt_succ_self n))
    rw [Function.iterate_succ_apply']
    cases state : (step records)^[n] s with
    | mk queue done =>
      have here := filled n (Nat.lt_succ_self n)
      rw [state] at here shorter
      cases queue with
      | nil => exact absurd rfl here
      | cons r rest =>
        simp only [step, List.length_append, List.length_singleton]
        dsimp only at shorter
        omega

/-- A queue that empties does so after as many steps as there are ids in the order by then. -/
theorem drained_at_length (n : Nat) (drained : ((step records)^[n] (start records)).queue = []) :
    ∃ order, (step records)^[order.length] (start records) = ⟨[], order⟩ ∧ order.length ≤ n := by
  classical
  let found : ∃ n, ((step records)^[n] (start records)).queue = [] := ⟨n, drained⟩
  have first := Nat.find_spec found
  have length := length_done_iterate records (Nat.find found) (start records)
    fun m below => Nat.find_min found below
  have bound : Nat.find found ≤ n := Nat.find_min' found drained
  cases state : (step records)^[Nat.find found] (start records) with
  | mk queue done =>
    rw [state] at first length
    obtain rfl : queue = [] := first
    have same : done.length = Nat.find found := by simpa [start] using length
    exact ⟨done, by rw [same, state], by omega⟩

/-- What the run gives is the order in which the ids have run when the queue is empty. -/
theorem run_stepBound_eq_some_iff (order : List Int) :
    run records (stepBound records) (start records) = some order ↔
      (step records)^[order.length] (start records) = ⟨[], order⟩ := by
  have forward : ∀ found, run records (stepBound records) (start records) = some found →
      (step records)^[found.length] (start records) = ⟨[], found⟩ := by
    intro found ran
    have drained : ((step records)^[stepBound records] (start records)).queue = [] := by
      rw [run_eq_iterate] at ran
      split at ran
      · rename_i empty
        exact List.isEmpty_iff.1 empty
      · cases ran
    obtain ⟨other, last, enough⟩ := drained_at_length records _ drained
    rw [run_of_drained records other _ _ _ last enough] at ran
    cases ran
    exact last
  constructor
  · exact forward order
  · intro last
    cases ran : run records (stepBound records) (start records) with
    | none =>
      have filled := (run_stepBound_eq_none_iff records).1 ran order.length
      rw [last] at filled
      exact absurd rfl filled
    | some found =>
      have left := run_of_drained records order _ _ _ last (Nat.le_add_right _ found.length)
      have right := run_of_drained records found _ _ _ (forward found ran)
        (Nat.le_add_left _ order.length)
      rw [← right, left]

end PipelineCompiler.Sequence

namespace PipelineCompiler

variable (records : List Adjacency)

/-- Sequencing gives up on those records alone whose queue never empties. -/
theorem sequence_eq_endless_iff :
    sequence records = .error .endless ↔
      ∀ n, ((Sequence.step records)^[n] (Sequence.start records)).queue ≠ [] := by
  rw [← Sequence.run_stepBound_eq_none_iff, sequence]
  split
  · rename_i empty
    have drained : Sequence.run records (Sequence.stepBound records) (Sequence.start records) ≠
        none := by
      rw [Ne, Sequence.run_stepBound_eq_none_iff]
      exact fun filled => filled 0 (List.isEmpty_iff.1 empty)
    simp [drained]
  · split
    · rename_i ran
      simp [ran]
    · rename_i stuck
      simp [stuck]

theorem sequence_eq_ok_iff (order : List Int) :
    sequence records = .ok order ↔
      (Sequence.start records).queue ≠ [] ∧
        (Sequence.step records)^[order.length] (Sequence.start records) = ⟨[], order⟩ := by
  rw [← Sequence.run_stepBound_eq_some_iff, sequence]
  split
  · rename_i empty
    simp [List.isEmpty_iff.1 empty]
  · rename_i entry
    split
    · rename_i ran
      simpa [ran] using fun _ => entry
    · rename_i stuck
      simp [stuck]

end PipelineCompiler
