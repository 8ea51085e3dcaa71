import ViewCompiler.Text.Basic

/-!
# Steps that can fail

Success of a sequence of steps, taken apart: a sequence succeeds exactly when each of its steps
does. What comes of a step can be changed whichever way it ends (`bimap`).
-/

namespace ViewCompiler

variable {ε ε' α β : Type}

/-- Two steps succeed exactly when the first one does and the second one does with its result. -/
theorem bind_eq_ok_iff {x : Except ε α} {f : α → Except ε β} {b : β} :
    x >>= f = .ok b ↔ ∃ a, x = .ok a ∧ f a = .ok b := by
  cases x with
  | error e => simp [bind, Except.bind]
  | ok a => simp [bind, Except.bind]

/-- A failure of two steps is that of the first one, or that of the second one with its result. -/
theorem bind_eq_error_iff {x : Except ε α} {f : α → Except ε β} {e : ε} :
    x >>= f = .error e ↔ x = .error e ∨ ∃ a, x = .ok a ∧ f a = .error e := by
  cases x with
  | error e => simp [bind, Except.bind]
  | ok a => simp [bind, Except.bind]

/-- Changing the result of a step changes nothing about its success. -/
theorem map_eq_ok_iff {x : Except ε α} {f : α → β} {b : β} :
    f <$> x = .ok b ↔ ∃ a, x = .ok a ∧ f a = b := by
  cases x with
  | error e => simp [Functor.map, Except.map]
  | ok a => simp [Functor.map, Except.map]

/-- Changing the result of a step changes nothing about its failure. -/
theorem map_eq_error_iff {x : Except ε α} {f : α → β} {e : ε} :
    f <$> x = .error e ↔ x = .error e := by
  cases x with
  | error e => simp [Functor.map, Except.map]
  | ok a => simp [Functor.map, Except.map]

/-- What a step comes to, with its failure and its result changed. -/
def bimap (f : ε → ε') (g : α → β) : Except ε α → Except ε' β
  | .error e => .error (f e)
  | .ok a => .ok (g a)

@[simp]
theorem bimap_error {f : ε → ε'} {g : α → β} (e : ε) :
    bimap f g (.error e : Except ε α) = .error (f e) := rfl

@[simp]
theorem bimap_ok {f : ε → ε'} {g : α → β} (a : α) :
    bimap f g (.ok a : Except ε α) = .ok (g a) := rfl

theorem bimap_eq_ok_iff {x : Except ε α} {f : ε → ε'} {g : α → β} {b : β} :
    bimap f g x = .ok b ↔ ∃ a, x = .ok a ∧ g a = b := by
  cases x with
  | error e => simp
  | ok a => simp

/-- The first of two steps can be changed if the second one takes the change over. -/
theorem bimap_bind {α' β' : Type} {x : Except ε α} {f : ε → ε'} {g : α → α'} {g' : β → β'}
    {next : α → Except ε β} {next' : α' → Except ε' β'}
    (h : ∀ a, x = .ok a → next' (g a) = bimap f g' (next a)) :
    bimap f g x >>= next' = bimap f g' (x >>= next) := by
  cases x with
  | error e => rfl
  | ok a => exact h a rfl

theorem toOption_eq_some_iff {x : Except ε α} {a : α} : x.toOption = some a ↔ x = .ok a := by
  cases x with
  | error e => simp [Except.toOption]
  | ok b => simp [Except.toOption]

/-- Two steps agree in what they tell of their results if the first ones do, and the second ones
tell nothing more of the first results. -/
theorem toOption_bind_congr {γ δ : Type} {x x' : Except ε α} {f f' : α → Except ε β}
    {g : α → γ} {g' : β → δ}
    (h : x.toOption.map g = x'.toOption.map g)
    (hf : ∀ a a', g a = g a' → (f a).toOption.map g' = (f' a').toOption.map g') :
    (x >>= f).toOption.map g' = (x' >>= f').toOption.map g' := by
  cases x with
  | error e =>
    cases x' with
    | error e' => rfl
    | ok a' => cases h
  | ok a =>
    cases x' with
    | error e' => cases h
    | ok a' => exact hf a a' (Option.some.inj h)

/-- Rewording a failure changes no success. -/
theorem mapError_eq_ok_iff {x : Except ε α} {f : ε → ε'} {a : α} :
    x.mapError f = .ok a ↔ x = .ok a := by
  cases x with
  | error e =>
    refine iff_of_false (fun h => ?_) (fun h => by cases h)
    change Except.error (f e) = .ok a at h
    cases h
  | ok b =>
    change Except.ok b = .ok a ↔ _
    rw [Except.ok.injEq, Except.ok.injEq]

/-- A check of every item succeeds exactly when each check does. -/
theorem forM_eq_ok_iff {xs : List α} {f : α → Except ε Unit} :
    forM xs f = .ok () ↔ ∀ x ∈ xs, f x = .ok () := by
  induction xs with
  | nil => simp [pure, Except.pure]
  | cons x xs ih =>
    rw [List.forM_cons, bind_eq_ok_iff]
    simp only [ih, List.mem_cons, forall_eq_or_imp]
    constructor
    · rintro ⟨⟨⟩, hx, hxs⟩
      exact ⟨hx, hxs⟩
    · rintro ⟨hx, hxs⟩
      exact ⟨(), hx, hxs⟩

/-- A check of every item that fails does so with the failure of one of the checks. -/
theorem exists_error_of_forM_eq_error {xs : List α} {f : α → Except ε Unit} {e : ε}
    (h : forM xs f = .error e) : ∃ x ∈ xs, f x = .error e := by
  induction xs with
  | nil => simp [pure, Except.pure] at h
  | cons x xs ih =>
    rw [List.forM_cons, bind_eq_error_iff] at h
    rcases h with hx | ⟨-, -, hxs⟩
    · exact ⟨x, List.mem_cons_self, hx⟩
    · obtain ⟨y, hy, he⟩ := ih hxs
      exact ⟨y, List.mem_cons_of_mem _ hy, he⟩

/-- A fold of steps that all succeed is the fold of their results. -/
theorem foldlM_eq_ok {xs : List α} {f : β → α → Except ε β} {g : β → α → β}
    (h : ∀ x ∈ xs, ∀ s, f s x = .ok (g s x)) (s : β) : xs.foldlM f s = .ok (xs.foldl g s) := by
  induction xs generalizing s with
  | nil => rfl
  | cons x xs ih =>
    obtain ⟨hx, hxs⟩ := List.forall_mem_cons.1 h
    rw [List.foldlM_cons, hx s, List.foldl_cons]
    exact ih hxs (g s x)

/-- A traversal succeeds exactly when its first step and the others do. -/
theorem mapM_cons_eq_ok_iff {x : α} {xs : List α} {f : α → Except ε β} {ys : List β} :
    (x :: xs).mapM f = .ok ys ↔ ∃ z zs, f x = .ok z ∧ xs.mapM f = .ok zs ∧ ys = z :: zs := by
  rw [List.mapM_cons, bind_eq_ok_iff]
  constructor
  · rintro ⟨z, hz, h⟩
    obtain ⟨zs, hzs, h⟩ := bind_eq_ok_iff.1 h
    exact ⟨z, zs, hz, hzs, (Except.ok.inj h).symm⟩
  · rintro ⟨z, zs, hz, hzs, rfl⟩
    exact ⟨z, hz, bind_eq_ok_iff.2 ⟨zs, hzs, rfl⟩⟩

/-- Each result of a successful traversal is that of one of the items. -/
theorem exists_of_mem_mapM {xs : List α} {f : α → Except ε β} {ys : List β} {y : β}
    (h : xs.mapM f = .ok ys) (hy : y ∈ ys) : ∃ x ∈ xs, f x = .ok y := by
  induction xs generalizing ys with
  | nil =>
    obtain rfl : [] = ys := Except.ok.inj h
    cases hy
  | cons x xs ih =>
    obtain ⟨z, zs, hz, hzs, rfl⟩ := mapM_cons_eq_ok_iff.1 h
    rcases List.mem_cons.1 hy with rfl | hy
    · exact ⟨x, List.mem_cons_self, hz⟩
    · obtain ⟨w, hw, hfw⟩ := ih hzs hy
      exact ⟨w, List.mem_cons_of_mem _ hw, hfw⟩

/-- A traversal of steps that all succeed gives their results. -/
theorem mapM_eq_ok {xs : List α} {f : α → Except ε β} {g : α → β}
    (h : ∀ x ∈ xs, f x = .ok (g x)) : xs.mapM f = .ok (xs.map g) := by
  induction xs with
  | nil => rfl
  | cons x xs ih =>
    obtain ⟨hx, hxs⟩ := List.forall_mem_cons.1 h
    rw [List.mapM_cons, hx, ih hxs]
    rfl

/-- A test of items that all succeed is the test of their results. -/
theorem allM_eq_ok {xs : List α} {f : α → Except ε Bool} {g : α → Bool}
    (h : ∀ x ∈ xs, f x = .ok (g x)) : xs.allM f = .ok (xs.all g) := by
  induction xs with
  | nil => rfl
  | cons x xs ih =>
    obtain ⟨hx, hxs⟩ := List.forall_mem_cons.1 h
    rw [List.allM, hx, List.all_cons]
    cases g x with
    | false => rfl
    | true => exact ih hxs

end ViewCompiler
