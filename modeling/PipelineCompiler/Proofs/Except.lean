set_option autoImplicit false

namespace PipelineCompiler

variable {ε α σ : Type}

@[simp] theorem ok_bind {β : Type} (a : α) (f : α → Except ε β) :
    (Except.ok a >>= f) = f a := rfl

theorem bind_eq_ok {β : Type} (x : Except ε α) (f : α → Except ε β) (b : β) :
    x >>= f = .ok b ↔ ∃ a, x = .ok a ∧ f a = .ok b := by
  cases x with
  | error e => simp [bind, Except.bind]
  | ok a => simp [bind, Except.bind]

theorem map_eq_ok {β : Type} (x : Except ε α) (f : α → β) (b : β) :
    x.map f = .ok b ↔ ∃ a, x = .ok a ∧ f a = b := by
  cases x with
  | error e => simp [Except.map]
  | ok a => simp [Except.map]

theorem bind_eq_error {β : Type} (x : Except ε α) (f : α → Except ε β) (e : ε) :
    x >>= f = .error e ↔ x = .error e ∨ ∃ a, x = .ok a ∧ f a = .error e := by
  cases x with
  | error e => simp [bind, Except.bind]
  | ok a => simp [bind, Except.bind]

theorem bind_congr_of_ok {β : Type} (x : Except ε α) (f g : α → Except ε β)
    (same : ∀ a, x = .ok a → f a = g a) : x >>= f = x >>= g := by
  cases x with
  | error e => rfl
  | ok a => exact same a rfl

theorem map_eq_error {β : Type} (x : Except ε α) (f : α → β) (e : ε) :
    x.map f = .error e ↔ x = .error e := by
  cases x with
  | error e => simp [Except.map]
  | ok a => simp [Except.map]

@[simp] theorem mapError_ok {ε' : Type} (f : ε → ε') (a : α) :
    (Except.ok a : Except ε α).mapError f = .ok a := rfl

@[simp] theorem mapError_error {ε' : Type} (f : ε → ε') (e : ε) :
    (Except.error e : Except ε α).mapError f = .error (f e) := rfl

theorem mapError_eq_ok {ε' : Type} (x : Except ε α) (f : ε → ε') (a : α) :
    x.mapError f = .ok a ↔ x = .ok a := by
  cases x with
  | error e => simp
  | ok b => simp

theorem exists_eq_ok_of_isOk (x : Except ε α) (succeeds : x.isOk = true) : ∃ a, x = .ok a := by
  cases x with
  | error e => cases succeeds
  | ok a => exact ⟨a, rfl⟩

/-- A loop succeeds when each element passes its test, if success of one turn depends on the
element alone as long as the state keeps an invariant. -/
theorem foldlM_eq_ok_iff (f : σ → α → Except ε σ) (next : σ → α → σ) (passes : α → Prop)
    (keeps : σ → Prop) (kept : ∀ s a, keeps s → keeps (next s a))
    (turn : ∀ s a s', keeps s → (f s a = .ok s' ↔ passes a ∧ s' = next s a))
    (xs : List α) (s s' : σ) (good : keeps s) :
    xs.foldlM f s = .ok s' ↔ (∀ a ∈ xs, passes a) ∧ s' = xs.foldl next s := by
  induction xs generalizing s with
  | nil =>
    simp only [List.foldlM_nil, List.foldl_nil, List.not_mem_nil, false_implies, implies_true,
      true_and]
    exact ⟨fun h => (Except.ok.inj h).symm, fun h => h ▸ rfl⟩
  | cons a rest ih =>
    rw [List.foldlM_cons, bind_eq_ok, List.foldl_cons, List.forall_mem_cons]
    constructor
    · intro given
      obtain ⟨between, first, later⟩ := given
      obtain ⟨pass, rfl⟩ := (turn s a between good).1 first
      obtain ⟨others, last⟩ := (ih _ (kept s a good)).1 later
      exact ⟨⟨pass, others⟩, last⟩
    · intro given
      obtain ⟨⟨pass, others⟩, last⟩ := given
      exact ⟨next s a, (turn s a _ good).2 ⟨pass, rfl⟩, (ih _ (kept s a good)).2 ⟨others, last⟩⟩

/-- A loop fails at one of its turns, and up to that turn an invariant of the turns holds. -/
theorem exists_turn_of_foldlM_eq_error (f : σ → α → Except ε σ) (keeps : σ → Prop)
    (kept : ∀ s a s', keeps s → f s a = .ok s' → keeps s') (xs : List α) (s : σ) (e : ε)
    (good : keeps s) (failed : xs.foldlM f s = .error e) :
    ∃ a ∈ xs, ∃ s, keeps s ∧ f s a = .error e := by
  induction xs generalizing s with
  | nil => cases failed
  | cons a rest ih =>
    rw [List.foldlM_cons, bind_eq_error] at failed
    rcases failed with here | ⟨next, made, later⟩
    · exact ⟨a, List.mem_cons_self, s, good, here⟩
    · obtain ⟨b, member, t, still, there⟩ := ih next (kept s a next good made) later
      exact ⟨b, List.mem_cons_of_mem a member, t, still, there⟩

theorem foldlM_congr_of_mem (f g : σ → α → Except ε σ) (xs : List α)
    (same : ∀ a ∈ xs, ∀ s, f s a = g s a) (s : σ) : xs.foldlM f s = xs.foldlM g s := by
  induction xs generalizing s with
  | nil => rfl
  | cons a rest ih =>
    have here := same a List.mem_cons_self
    have later := ih fun b member => same b (List.mem_cons_of_mem a member)
    simp only [List.foldlM_cons, here, later]

/-- Elements at which a loop stands still can be left out. -/
theorem foldlM_filter_of_idle (f : σ → α → Except ε σ) (p : α → Bool) (keeps : σ → Prop)
    (kept : ∀ s a s', keeps s → f s a = .ok s' → keeps s') (xs : List α)
    (idle : ∀ a ∈ xs, p a = false → ∀ s, keeps s → f s a = .ok s) (s : σ) (good : keeps s) :
    (xs.filter p).foldlM f s = xs.foldlM f s := by
  induction xs generalizing s with
  | nil => rfl
  | cons a rest ih =>
    have later := ih fun b member => idle b (List.mem_cons_of_mem a member)
    by_cases counts : p a = true
    · rw [List.filter_cons_of_pos counts, List.foldlM_cons, List.foldlM_cons]
      cases turn : f s a with
      | error e => rfl
      | ok s' => exact later s' (kept s a s' good turn)
    · have still : f s a = .ok s :=
        idle a List.mem_cons_self (Bool.eq_false_iff.2 counts) s good
      rw [List.filter_cons_of_neg counts, List.foldlM_cons, still]
      exact later s good

end PipelineCompiler
