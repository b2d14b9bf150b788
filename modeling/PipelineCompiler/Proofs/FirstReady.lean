import Mathlib.Data.Finset.Max
import PipelineCompiler.Proofs.Sequence

set_option autoImplicit false

namespace PipelineCompiler

open Adjacency (record)

section Precedes

variable {α : Type} {xs ys : List α} {a b c : α}

theorem precedes_iff_sublist : Precedes xs a b ↔ List.Sublist [a, b] xs := by
  constructor
  · rintro ⟨before, after, rfl, member⟩
    have first : List.Sublist [a] before := List.singleton_sublist.2 member
    exact first.append (List.singleton_sublist.2 List.mem_cons_self)
  · intro sub
    have parts : List.Sublist ([a] ++ [b]) xs := sub
    obtain ⟨front, back, rfl, left, right⟩ := List.append_sublist_iff.1 parts
    obtain ⟨middle, after, rfl⟩ := List.append_of_mem (List.singleton_sublist.1 right)
    refine ⟨front ++ middle, after, by simp, ?_⟩
    exact List.mem_append_left _ (List.singleton_sublist.1 left)

theorem Precedes.sublist (earlier : Precedes xs a b) (sub : xs.Sublist ys) : Precedes ys a b :=
  precedes_iff_sublist.2 ((precedes_iff_sublist.1 earlier).trans sub)

theorem Precedes.append (left : a ∈ xs) (right : b ∈ ys) : Precedes (xs ++ ys) a b := by
  rw [precedes_iff_sublist]
  exact (List.singleton_sublist.2 left).append (List.singleton_sublist.2 right)

theorem Precedes.filter (earlier : Precedes xs a b) (p : α → Bool) (left : p a = true)
    (right : p b = true) : Precedes (xs.filter p) a b := by
  have sub := (precedes_iff_sublist.1 earlier).filter p
  simp only [List.filter_cons, left, right, ↓reduceIte, List.filter_nil] at sub
  exact precedes_iff_sublist.2 sub

theorem Precedes.rel {r : α → α → Prop} (earlier : Precedes xs a b) (sorted : xs.Pairwise r) :
    r a b :=
  List.pairwise_iff_forall_sublist.1 sorted (precedes_iff_sublist.1 earlier)

theorem mem_iff_idxOf_lt [DecidableEq α] : a ∈ xs ↔ (xs ++ ys).idxOf a < xs.length := by
  by_cases member : a ∈ xs
  · have inside := List.idxOf_lt_length_of_mem member
    simp [member, List.idxOf_append_of_mem member, inside]
  · simp [member, List.idxOf_append_of_notMem member]

theorem idxOf_append_cons_self [DecidableEq α] (distinct : (xs ++ b :: ys).Nodup) :
    (xs ++ b :: ys).idxOf b = xs.length := by
  have fresh : b ∉ xs := by
    intro twice
    exact (List.nodup_append.1 distinct).2.2 b twice b List.mem_cons_self rfl
  rw [List.idxOf_append_of_notMem fresh, List.idxOf_cons_self, Nat.add_zero]

/-- In a list without repetition, what precedes has the smaller index. -/
theorem precedes_iff_idxOf [DecidableEq α] (distinct : xs.Nodup) :
    Precedes xs a b ↔ b ∈ xs ∧ xs.idxOf a < xs.idxOf b := by
  constructor
  · rintro ⟨before, after, rfl, member⟩
    refine ⟨by simp, ?_⟩
    rw [idxOf_append_cons_self distinct]
    exact mem_iff_idxOf_lt.1 member
  · rintro ⟨member, less⟩
    obtain ⟨before, after, rfl⟩ := List.append_of_mem member
    rw [idxOf_append_cons_self distinct] at less
    exact ⟨before, after, rfl, mem_iff_idxOf_lt.2 less⟩

theorem mem_of_precedes_append [DecidableEq α] (distinct : (xs ++ b :: ys).Nodup)
    (earlier : Precedes (xs ++ b :: ys) a b) : a ∈ xs := by
  obtain ⟨-, less⟩ := (precedes_iff_idxOf distinct).1 earlier
  rw [idxOf_append_cons_self distinct] at less
  exact mem_iff_idxOf_lt.2 less

theorem Precedes.asymm [DecidableEq α] (distinct : xs.Nodup) (earlier : Precedes xs a b) :
    ¬ Precedes xs b a := by
  rw [precedes_iff_idxOf distinct] at earlier ⊢
  omega

theorem Precedes.trans [DecidableEq α] (distinct : xs.Nodup) (first : Precedes xs a b)
    (second : Precedes xs b c) : Precedes xs a c := by
  rw [precedes_iff_idxOf distinct] at first second ⊢
  exact ⟨second.1, first.2.trans second.2⟩

theorem precedes_total [DecidableEq α] (distinct : xs.Nodup) (left : a ∈ xs) (right : b ∈ xs)
    (apart : a ≠ b) : Precedes xs a b ∨ Precedes xs b a := by
  rw [precedes_iff_idxOf distinct, precedes_iff_idxOf distinct]
  have indices : xs.idxOf a ≠ xs.idxOf b := fun same => apart ((List.idxOf_inj left).1 same)
  rcases Nat.lt_or_gt_of_ne indices with less | more
  · exact .inl ⟨right, less⟩
  · exact .inr ⟨left, more⟩

end Precedes

/-- Where the first link from one node to another stands. -/
def firstLink (links : List Link) (a b : Int) : Nat :=
  links.findIdx fun l => l.source = a ∧ l.target = b

section FirstLink

variable (links : List Link) (a b : Int)

theorem firstLink_lt_iff :
    firstLink links a b < links.length ↔ ∃ l ∈ links, l.source = a ∧ l.target = b := by
  simp [firstLink, List.findIdx_lt_length]

theorem exists_link_at_firstLink (linked : ∃ l ∈ links, l.source = a ∧ l.target = b) :
    ∃ l, links[firstLink links a b]? = some l ∧ l.source = a ∧ l.target = b := by
  have inside := (firstLink_lt_iff links a b).2 linked
  have found := List.findIdx_getElem (w := inside)
  exact ⟨_, List.getElem?_eq_getElem inside, of_decide_eq_true found⟩

theorem firstLink_concat (l : Link) :
    firstLink (links ++ [l]) a b =
      if firstLink links a b < links.length then firstLink links a b
      else firstLink [l] a b + links.length :=
  List.findIdx_append

end FirstLink

/-- Whom a node feeds is listed in the order of the first links. -/
theorem Adjacency.outgoing_sorted (ids : List Int) (links : List Link) (id : Int) :
    (record ids links id).outgoing.Pairwise fun a b =>
      firstLink links id a < firstLink links id b := by
  induction links using List.reverseRecOn with
  | nil => exact .nil
  | append_singleton links l ih =>
    rw [record] at ih ⊢
    have linked : ∀ a ∈ neighbours ids Link.source Link.target links id,
        firstLink links id a < links.length := by
      intro a known
      obtain ⟨m, member, -, source, target⟩ := (mem_neighbours ids _ _ links a id).1 known
      exact (firstLink_lt_iff links id a).2 ⟨m, member, source, target⟩
    have kept : (neighbours ids Link.source Link.target links id).Pairwise fun a b =>
        firstLink (links ++ [l]) id a < firstLink (links ++ [l]) id b := by
      refine ih.imp_of_mem ?_
      intro a b left right less
      rw [firstLink_concat, firstLink_concat, if_pos (linked a left), if_pos (linked b right)]
      exact less
    dsimp only
    rw [neighbours_concat]
    split
    · rename_i added
      obtain ⟨joins, source, fresh⟩ := added
      have absent : ¬ firstLink links id l.target < links.length := by
        rw [firstLink_lt_iff]
        rintro ⟨m, member, source', target'⟩
        have joins' : m.Joins ids := ⟨source' ▸ source ▸ joins.1, target' ▸ joins.2⟩
        exact fresh ((mem_neighbours ids _ _ links _ id).2 ⟨m, member, joins', source', target'⟩)
      refine List.pairwise_append.2 ⟨kept, List.pairwise_singleton _ _, ?_⟩
      intro a known b new
      rw [List.mem_singleton.1 new, firstLink_concat, firstLink_concat, if_pos (linked a known),
        if_neg absent]
      exact Nat.lt_add_left _ (linked a known)
    · exact kept

namespace Graph

variable (g : Graph) (order : List Int)

/-- Nothing feeds the node. -/
def IsEntry (id : Int) : Prop := ∀ a, ¬ g.Feeds a id

/-- Of all that feed a node, the one that stands last in the order. -/
structure FeedsLast (a id : Int) : Prop where
  feeds : g.Feeds a id
  last : ∀ b, g.Feeds b id → b = a ∨ Precedes order b a

/-- One node is ready before another, as the order goes. -/
inductive ReadyBefore (u v : Int) : Prop
  | entries (left : g.IsEntry u) (right : g.IsEntry v) (listed : Precedes g.ids u v)
  | entry (left : g.IsEntry u) (right : ¬ g.IsEntry v)
  | feeders (c d : Int) (left : g.FeedsLast order c u) (right : g.FeedsLast order d v)
      (earlier : Precedes order c d)
  | links (c : Int) (left : g.FeedsLast order c u) (right : g.FeedsLast order c v)
      (earlier : firstLink g.links c u < firstLink g.links c v)

/-- The nodes run as they become ready. -/
def FirstReadyFirst : Prop :=
  ∀ u ∈ order, ∀ v ∈ order, u ≠ v → (Precedes order u v ↔ g.ReadyBefore order u v)

variable {g order}

theorem isEntry_iff (id : Int) : g.IsEntry id ↔ (record g.ids g.links id).incoming = [] := by
  simp only [IsEntry, List.eq_nil_iff_forall_not_mem, Adjacency.mem_incoming, Feeds]

theorem FeedsLast.unique (distinct : order.Nodup) {c d id : Int} (left : g.FeedsLast order c id)
    (right : g.FeedsLast order d id) : c = d := by
  rcases right.last c left.feeds with same | earlier
  · exact same
  · rcases left.last d right.feeds with same | later
    · exact same.symm
    · exact absurd later (earlier.asymm distinct)

theorem exists_feedsLast (distinct : order.Nodup) (id : Int) (fed : ¬ g.IsEntry id)
    (ran : ∀ a, g.Feeds a id → a ∈ order) : ∃ c ∈ order, g.FeedsLast order c id := by
  have feeds : ∀ a, a ∈ (record g.ids g.links id).incoming ↔ g.Feeds a id := fun a =>
    Adjacency.mem_incoming g.ids g.links a id
  have some : (record g.ids g.links id).incoming.toFinset.Nonempty := by
    rw [List.toFinset_nonempty_iff, ne_eq, ← isEntry_iff]
    exact fed
  obtain ⟨c, member, greatest⟩ := Finset.exists_max_image _ order.idxOf some
  simp only [List.mem_toFinset, feeds] at member greatest
  refine ⟨c, ran c member, member, ?_⟩
  intro b other
  by_cases same : b = c
  · exact .inl same
  · have indices : order.idxOf b ≠ order.idxOf c := fun equal =>
      same ((List.idxOf_inj (ran b other)).1 equal)
    have bounded := greatest b other
    exact .inr ((precedes_iff_idxOf distinct).2 ⟨ran c member, by omega⟩)

theorem firstLink_ne (c u v : Int) (left : g.Feeds c u) (right : g.Feeds c v) (apart : u ≠ v) :
    firstLink g.links c u ≠ firstLink g.links c v := by
  intro same
  obtain ⟨l, member, -, target, source⟩ := left
  obtain ⟨m, member', -, target', source'⟩ := right
  obtain ⟨k, found, -, atU⟩ := exists_link_at_firstLink g.links c u ⟨l, member, source, target⟩
  obtain ⟨k', found', -, atV⟩ := exists_link_at_firstLink g.links c v ⟨m, member', source', target'⟩
  rw [same, found'] at found
  cases found
  exact apart (atU.symm.trans atV)

end Graph

namespace Sequence

variable (ids : List Int) (links : List Link)

/-- What holds after any number of steps: the queue began with the nodes that nothing feeds, and
each turn put what it freed behind all that was ready before it. -/
structure Queued (waiting done : List Int) : Prop where
  entries : (ids.filter fun id => (record ids links id).incoming.isEmpty) <+: done ++ waiting
  turns : ∀ before id after, done = before ++ id :: after → ∃ early late,
    done ++ waiting = early ++ freed ids links before id ++ late ∧
      ∀ next ∈ ids, (∀ a ∈ (record ids links next).incoming, a ∈ before) → next ∈ early

variable {ids links}

theorem queued_start :
    Queued ids links (ids.filter fun id => (record ids links id).incoming.isEmpty) [] where
  entries := List.prefix_rfl
  turns := by simp

theorem Queued.step {waiting done : List Int} {id : Int}
    (reached : Reached ids links (id :: waiting) done)
    (queued : Queued ids links (id :: waiting) done) :
    Queued ids links (waiting ++ freed ids links done id) (done ++ [id]) := by
  have split : done ++ [id] ++ (waiting ++ freed ids links done id) =
      (done ++ id :: waiting) ++ freed ids links done id := by simp
  refine ⟨?_, ?_⟩ <;> rw [split]
  · exact queued.entries.trans (List.prefix_append _ _)
  · intro before last after cut
    rcases List.eq_nil_or_concat after with rfl | ⟨after, final, rfl⟩
    · obtain ⟨rfl, same⟩ := List.append_inj' cut rfl
      obtain rfl : id = last := by simpa using same
      refine ⟨done ++ id :: waiting, [], by simp, ?_⟩
      intro next inside fed
      exact (reached.ready next inside).2 fed
    · have cut' : done ++ [id] = (before ++ last :: after) ++ [final] := by simpa using cut
      obtain ⟨same, -⟩ := List.append_inj' cut' rfl
      obtain ⟨early, late, queue, ready⟩ := queued.turns before last after same
      refine ⟨early, late ++ freed ids links done id, ?_, ready⟩
      rw [queue]
      simp only [List.append_assoc]

theorem queued_iterate (distinct : ids.Nodup) (n : Nat) : ∃ waiting done,
    (Sequence.step (ids.map (record ids links)))^[n] (start (ids.map (record ids links))) =
      ⟨waiting.map (record ids links), done⟩ ∧
    Reached ids links waiting done ∧ Queued ids links waiting done := by
  induction n with
  | zero => exact ⟨_, _, start_eq, reached_start distinct, queued_start⟩
  | succ n ih =>
    obtain ⟨waiting, done, state, reached, queued⟩ := ih
    rw [Function.iterate_succ_apply', state]
    cases waiting with
    | nil => exact ⟨[], done, rfl, reached, queued⟩
    | cons id waiting =>
      exact ⟨_, _, step_cons distinct waiting done id, reached.step, queued.step reached⟩

theorem queued_of_sequence (g : Graph) (distinct : g.ids.Nodup) (order : List Int)
    (found : sequence (adjacency g.nodes g.links) = .ok order) :
    Queued g.ids g.links [] order := by
  have entry : ¬ ∀ id ∈ g.ids, ∃ a, g.Feeds a id := by
    rw [← sequence_eq_noEntryPoint_iff g distinct, found]
    simp
  obtain ⟨other, found', -, drained⟩ := sequence_of_entry g distinct entry
  rw [found] at found'
  cases found'
  obtain ⟨waiting, done, state, -, queued⟩ :=
    @queued_iterate g.ids g.links distinct order.length
  rw [← Adjacency.adjacency_of_nodup g distinct, drained] at state
  obtain ⟨rfl, rfl⟩ : waiting = [] ∧ order = done := by simpa using state
  exact queued

end Sequence

namespace Graph

variable {g : Graph} {order : List Int}

theorem IsOrder.precedes_of_feeds (valid : g.IsOrder order) {a b : Int} (feeds : g.Feeds a b)
    (ran : b ∈ order) : Precedes order a b := by
  obtain ⟨l, linked, joins, rfl, rfl⟩ := feeds
  exact valid.precedes l linked joins ran

theorem IsOrder.exists_feedsLast (valid : g.IsOrder order) (id : Int) (ran : id ∈ order)
    (fed : ¬ g.IsEntry id) : ∃ c ∈ order, g.FeedsLast order c id :=
  Graph.exists_feedsLast valid.nodup id fed fun _ feeds => (valid.precedes_of_feeds feeds ran).mem

/-- By the turn behind its last feeder a node has all its feeders. -/
theorem FeedsLast.mem_before (distinct : order.Nodup) {before after : List Int} {c d id : Int}
    (last : g.FeedsLast order c id) (cut : order = before ++ d :: after) (ran : c ∈ before) :
    ∀ a ∈ (record g.ids g.links id).incoming, a ∈ before := by
  intro a incoming
  have feeds := (Adjacency.mem_incoming g.ids g.links a id).1 incoming
  rcases last.last a feeds with rfl | earlier
  · exact ran
  · subst cut
    exact mem_of_precedes_append distinct (earlier.trans distinct ⟨before, after, rfl, ran⟩)

theorem FeedsLast.mem_freed (distinct : order.Nodup) {before after : List Int} {c id : Int}
    (last : g.FeedsLast order c id) (cut : order = before ++ c :: after) :
    id ∈ Sequence.freed g.ids g.links before c := by
  rw [Sequence.mem_freed, Adjacency.mem_incoming]
  refine ⟨last.feeds, ?_⟩
  intro a incoming
  have feeds := (Adjacency.mem_incoming g.ids g.links a id).1 incoming
  rcases last.last a feeds with rfl | earlier
  · simp
  · subst cut
    exact List.mem_append_left _ (mem_of_precedes_append distinct earlier)

/-- What is ready earlier is queued earlier, and so it runs earlier. -/
theorem precedes_of_readyBefore (valid : g.IsOrder order)
    (queued : Sequence.Queued g.ids g.links [] order) {u v : Int} (left : u ∈ order)
    (right : v ∈ order) (apart : u ≠ v) (ready : g.ReadyBefore order u v) :
    Precedes order u v := by
  have known : ∀ id ∈ order, id ∈ g.ids := fun id ran => ((valid.mem_iff id).1 ran).1
  have entry : ∀ id, (record g.ids g.links id).incoming.isEmpty = true ↔ g.IsEntry id := by
    intro id
    rw [List.isEmpty_iff, isEntry_iff]
  have turns := queued.turns
  rw [List.append_nil] at turns
  cases ready with
  | entries first second listed =>
    have kept := listed.filter (fun id => (record g.ids g.links id).incoming.isEmpty)
      ((entry u).2 first) ((entry v).2 second)
    exact List.append_nil order ▸ kept.sublist queued.entries.sublist
  | entry first second =>
    obtain ⟨late, cut⟩ := queued.entries
    rw [List.append_nil] at cut
    have front : u ∈ g.ids.filter fun id => (record g.ids g.links id).incoming.isEmpty :=
      List.mem_filter.2 ⟨known u left, (entry u).2 first⟩
    have back : v ∈ late := by
      rw [← cut] at right
      refine (List.mem_append.1 right).resolve_left ?_
      intro unfed
      exact second ((entry v).1 (List.mem_filter.1 unfed).2)
    rw [← cut]
    exact .append front back
  | feeders c d first second earlier =>
    obtain ⟨before, after, cut, ran⟩ := earlier
    obtain ⟨early, late, queue, waits⟩ := turns before d after cut
    have front := waits u (known u left) (first.mem_before valid.nodup cut ran)
    have back := second.mem_freed valid.nodup cut
    rw [queue]
    exact (Precedes.append front back).sublist (List.sublist_append_left _ _)
  | links c first second earlier =>
    obtain ⟨before, after, cut⟩ := List.append_of_mem
      (valid.precedes_of_feeds first.feeds left).mem
    obtain ⟨early, late, queue, -⟩ := turns before c after cut
    obtain ⟨outU, readyU⟩ := List.mem_filter.1 (first.mem_freed valid.nodup cut)
    obtain ⟨outV, readyV⟩ := List.mem_filter.1 (second.mem_freed valid.nodup cut)
    have sorted := Adjacency.outgoing_sorted g.ids g.links c
    have listed : Precedes (record g.ids g.links c).outgoing u v := by
      rcases precedes_total (Adjacency.nodup_outgoing g.ids g.links c) outU outV apart with
        forward | backward
      · exact forward
      · exact absurd (backward.rel sorted) (Nat.lt_asymm earlier)
    have freed := listed.filter
      (fun next => Sequence.isReady (before ++ [c]) (record g.ids g.links next)) readyU readyV
    rw [queue]
    exact freed.sublist ((List.sublist_append_right _ _).trans (List.sublist_append_left _ _))

theorem readyBefore_total (distinct : g.ids.Nodup) (nodup : order.Nodup) {u v : Int}
    (left : u ∈ g.ids) (right : v ∈ g.ids) (apart : u ≠ v)
    (lastU : ¬ g.IsEntry u → ∃ c ∈ order, g.FeedsLast order c u)
    (lastV : ¬ g.IsEntry v → ∃ c ∈ order, g.FeedsLast order c v) :
    g.ReadyBefore order u v ∨ g.ReadyBefore order v u := by
  by_cases entryU : g.IsEntry u
  · by_cases entryV : g.IsEntry v
    · rcases precedes_total distinct left right apart with forward | backward
      · exact .inl (.entries entryU entryV forward)
      · exact .inr (.entries entryV entryU backward)
    · exact .inl (.entry entryU entryV)
  · by_cases entryV : g.IsEntry v
    · exact .inr (.entry entryV entryU)
    · obtain ⟨c, ranC, first⟩ := lastU entryU
      obtain ⟨d, ranD, second⟩ := lastV entryV
      by_cases same : c = d
      · subst same
        rcases Nat.lt_or_gt_of_ne (firstLink_ne c u v first.feeds second.feeds apart) with
          less | more
        · exact .inl (.links c first second less)
        · exact .inr (.links c second first more)
      · rcases precedes_total nodup ranC ranD same with forward | backward
        · exact .inl (.feeders c d first second forward)
        · exact .inr (.feeders d c second first backward)

theorem IsOrder.firstReadyFirst (valid : g.IsOrder order) (distinct : g.ids.Nodup)
    (queued : Sequence.Queued g.ids g.links [] order) : g.FirstReadyFirst order := by
  intro u left v right apart
  constructor
  · intro earlier
    have total := readyBefore_total distinct valid.nodup ((valid.mem_iff u).1 left).1
      ((valid.mem_iff v).1 right).1 apart (valid.exists_feedsLast u left)
      (valid.exists_feedsLast v right)
    refine total.resolve_right ?_
    intro backward
    have later := precedes_of_readyBefore valid queued right left (Ne.symm apart) backward
    exact later.asymm valid.nodup earlier
  · exact precedes_of_readyBefore valid queued left right apart

/-- Two arrangements of the nodes that obey the rule agree: by induction over what feeds a node, all
that it precedes in the one it precedes in the other. -/
theorem FirstReadyFirst.precedes {other : List Int} (valid : g.IsOrder order)
    (ruled : g.FirstReadyFirst order) (perm : other.Perm order) (obeys : g.FirstReadyFirst other)
    (u : Int) (grounded : Acc g.Feeds u) :
    u ∈ order → ∀ w, Precedes order u w → Precedes other u w := by
  have nodup : other.Nodup := perm.nodup_iff.2 valid.nodup
  induction grounded with
  | intro u _ ih =>
    intro left w earlier
    have right : w ∈ order := ((precedes_iff_idxOf valid.nodup).1 earlier).1
    have apart : u ≠ w := by
      rintro rfl
      exact earlier.asymm valid.nodup earlier
    have feeder : ∀ b, g.Feeds b u → ∀ w, Precedes order b w → Precedes other b w :=
      fun b feeds => ih b feeds (valid.precedes_of_feeds feeds left).mem
    have kept : ∀ c, g.FeedsLast order c u → g.FeedsLast other c u := by
      intro c last
      exact ⟨last.feeds, fun b feeds => (last.last b feeds).imp_right (feeder b feeds c)⟩
    have lastOf : ¬ g.IsEntry w → ∃ d ∈ other, g.FeedsLast other d w := by
      intro fed
      apply exists_feedsLast nodup w fed
      intro a feeds
      exact perm.mem_iff.2 (valid.precedes_of_feeds feeds right).mem
    refine (obeys u (perm.mem_iff.2 left) w (perm.mem_iff.2 right) apart).2 ?_
    cases (ruled u left w right apart).1 earlier with
    | entries first second listed => exact .entries first second listed
    | entry first second => exact .entry first second
    | feeders c d first second before =>
      obtain ⟨e, -, last⟩ := lastOf fun unfed => unfed d second.feeds
      have moved := feeder c first.feeds d before
      rcases last.last d second.feeds with rfl | later
      · exact .feeders c d (kept c first) last moved
      · exact .feeders c e (kept c first) last (moved.trans nodup later)
    | links c first second before =>
      obtain ⟨e, -, last⟩ := lastOf fun unfed => unfed c second.feeds
      rcases last.last c second.feeds with rfl | later
      · exact .links c (kept c first) last before
      · exact .feeders c e (kept c first) last later

theorem FirstReadyFirst.unique {other : List Int} (valid : g.IsOrder order)
    (ruled : g.FirstReadyFirst order) (perm : other.Perm order) (obeys : g.FirstReadyFirst other) :
    other = order := by
  have nodup : other.Nodup := perm.nodup_iff.2 valid.nodup
  have own : other.Pairwise (Precedes other) :=
    List.pairwise_iff_forall_sublist.2 fun sub => precedes_iff_sublist.2 sub
  have kept : order.Pairwise (Precedes other) := by
    rw [List.pairwise_iff_forall_sublist]
    intro u w sub
    have earlier : Precedes order u w := precedes_iff_sublist.2 sub
    obtain ⟨inside, free⟩ := (valid.mem_iff u).1 earlier.mem
    exact ruled.precedes valid perm obeys u (g.acc_of_not_blocked u inside free) earlier.mem w
      earlier
  refine perm.eq_of_pairwise ?_ own kept
  intro a b _ _ forward backward
  exact absurd backward (forward.asymm nodup)

end Graph

/-- The nodes of the order that something feeds have a last feeder each; of two nodes the one that
is ready before the other runs before it; and the nodes cannot be arranged in another way that obeys
this rule. -/
theorem sequence_first_ready_first_out (g : Graph) (distinct : g.ids.Nodup) (order : List Int)
    (found : sequence (adjacency g.nodes g.links) = .ok order) :
    (∀ id ∈ order, (∃ a, g.Feeds a id) → ∃! c, g.FeedsLast order c id) ∧
    g.FirstReadyFirst order ∧
    ∀ other : List Int, other.Perm order → g.FirstReadyFirst other → other = order := by
  have valid := isOrder_of_sequence g distinct order found
  have ruled := valid.firstReadyFirst distinct (Sequence.queued_of_sequence g distinct order found)
  refine ⟨?_, ruled, fun other perm obeys => ruled.unique valid perm obeys⟩
  rintro id ran ⟨a, feeds⟩
  obtain ⟨c, -, last⟩ := valid.exists_feedsLast id ran fun unfed => unfed a feeds
  exact ⟨c, last, fun d also => also.unique valid.nodup last⟩

/-- Both 5 and 3 wait for 2, and 4 for 1 alone; 2 has its link to 5 before the one to 3. -/
def braidedGraph : Graph :=
  { nodes := [3, 5, 4, 1, 2].map fun id => ⟨id, "tool", "Tool", false, none⟩
    links := [⟨2, 5, 0, 0⟩, ⟨1, 3, 0, 0⟩, ⟨2, 3, 0, 1⟩, ⟨1, 4, 0, 0⟩] }

theorem sequence_first_ready_first_out_braided :
    braidedGraph.ids.Nodup ∧
      sequence (adjacency braidedGraph.nodes braidedGraph.links) = .ok [1, 2, 4, 5, 3] ∧
      (∃! c, braidedGraph.FeedsLast [1, 2, 4, 5, 3] c 3) ∧
      braidedGraph.ReadyBefore [1, 2, 4, 5, 3] 5 3 ∧
      ¬ braidedGraph.FirstReadyFirst [1, 2, 4, 3, 5] := by
  have distinct : braidedGraph.ids.Nodup := by decide
  have found : sequence (adjacency braidedGraph.nodes braidedGraph.links) =
      .ok [1, 2, 4, 5, 3] := by rfl
  obtain ⟨feeder, ruled, unique⟩ := sequence_first_ready_first_out braidedGraph distinct _ found
  have fed : braidedGraph.Feeds 2 3 := ⟨⟨2, 3, 0, 1⟩, by decide, by decide, rfl, rfl⟩
  have earlier : Precedes [1, 2, 4, 5, 3] (5 : Int) 3 := ⟨[1, 2, 4, 5], [], rfl, by decide⟩
  refine ⟨distinct, found, feeder 3 (by decide) ⟨2, fed⟩, ?_, ?_⟩
  · exact (ruled 5 (by decide) 3 (by decide) (by decide)).1 earlier
  · intro obeys
    have same := unique [1, 2, 4, 3, 5] (by decide) obeys
    revert same
    decide

end PipelineCompiler
