import ViewCompiler.Compile.Reading

/-!
# What reading all templates leaves behind

Reading up to the first failure and reading on differ only when something fails
(`Reading.failures_untilFailure_eq_nil_iff`, `Reading.untilFailure_eq_all`). Every component ends
among the templates or among the failures, and a failure is that of a template which the parser
refuses.
-/

namespace ViewCompiler

theorem Problem.isAbort_eq_true_iff {p : Problem} : p.isAbort = true ↔ p = .abort := by
  cases p <;> simp [isAbort]

namespace Reading

variable {r : Reading} {cs : List Component}

/-- Reading the template of a component either adds the template or a failure. -/
theorem step_cases (r : Reading) (c : Component) :
    (∃ nodes, (r.step c).templates = r.templates ++ [(c.name, nodes)] ∧
      (r.step c).failures = r.failures) ∨
    ∃ p, parseTemplate c = .error p ∧ (r.step c).templates = r.templates ∧
      (r.step c).failures = r.failures ++ [(c.name, p)] := by
  unfold step
  split
  · rename_i nodes _ _
    exact .inl ⟨nodes, rfl, rfl⟩
  · split
    · rename_i nodes _
      exact .inl ⟨nodes, rfl, rfl⟩
    · rename_i p hp
      exact .inr ⟨p, hp, rfl, rfl⟩

theorem all_cons (r : Reading) (c : Component) (cs : List Component) :
    r.all (c :: cs) = (r.step c).all cs := rfl

/-- Failures are never forgotten. -/
theorem failures_prefix_all (r : Reading) (cs : List Component) :
    r.failures <+: (r.all cs).failures := by
  induction cs generalizing r with
  | nil => exact List.prefix_rfl
  | cons c cs ih =>
    refine List.IsPrefix.trans ?_ (ih (r.step c))
    rcases step_cases r c with ⟨_, -, h⟩ | ⟨p, -, -, h⟩
    · simp [h]
    · simp [h]

/-- Reading up to the first failure reads everything exactly when nothing fails. -/
theorem failures_untilFailure_eq_nil_iff (hr : r.failures = []) :
    (r.untilFailure cs).failures = [] ↔ (r.all cs).failures = [] := by
  induction cs generalizing r with
  | nil => rfl
  | cons c cs ih =>
    rw [untilFailure, all_cons]
    split
    · rename_i hempty
      exact ih (List.isEmpty_iff.1 hempty)
    · rename_i hempty
      have hstep : (r.step c).failures ≠ [] := fun h => hempty (List.isEmpty_iff.2 h)
      refine iff_of_false hstep fun h => hstep ?_
      have hprefix := failures_prefix_all (r.step c) cs
      rw [h] at hprefix
      exact List.prefix_nil.1 hprefix

theorem untilFailure_eq_all (h : (r.all cs).failures = []) : r.untilFailure cs = r.all cs := by
  induction cs generalizing r with
  | nil => rfl
  | cons c cs ih =>
    have hprefix := failures_prefix_all (r.step c) cs
    rw [← all_cons, h] at hprefix
    have hstep : (r.step c).failures = [] := List.prefix_nil.1 hprefix
    rw [untilFailure, if_pos (List.isEmpty_iff.2 hstep), all_cons]
    exact ih h

/-- What is read stays. -/
private theorem has_all_of_has {name : String} (h : r.has name = true) (cs : List Component) :
    (r.all cs).has name = true := by
  induction cs generalizing r with
  | nil => exact h
  | cons c cs ih =>
    refine ih ?_
    unfold has at h ⊢
    rcases step_cases r c with ⟨_, ht, -⟩ | ⟨_, -, ht, -⟩
    · rw [ht, List.any_append, h, Bool.true_or]
    · rw [ht, h]

/-- When nothing fails, every component is read. -/
theorem has_all_of_failures_eq_nil (h : (r.all cs).failures = []) {c : Component} (hc : c ∈ cs) :
    (r.all cs).has c.name = true := by
  induction cs generalizing r with
  | nil => cases hc
  | cons d ds ih =>
    rcases List.mem_cons.1 hc with rfl | hc
    · refine has_all_of_has ?_ ds
      rcases step_cases r c with ⟨_, ht, -⟩ | ⟨p, -, -, hf⟩
      · simp [has, ht]
      · have hprefix := failures_prefix_all (r.step c) ds
        rw [← all_cons, h, hf] at hprefix
        exact absurd (List.prefix_nil.1 hprefix) (List.append_ne_nil_of_right_ne_nil _ (by simp))
    · exact ih h hc

/-- A failure is that of the template of some component. -/
theorem exists_of_mem_failures_all {name : String} {p : Problem}
    (h : (name, p) ∈ (r.all cs).failures) :
    (name, p) ∈ r.failures ∨ ∃ c ∈ cs, c.name = name ∧ parseTemplate c = .error p := by
  induction cs generalizing r with
  | nil => exact .inl h
  | cons c cs ih =>
    rcases ih h with h | ⟨d, hd, hname, hp⟩
    · rcases step_cases r c with ⟨_, -, hf⟩ | ⟨q, hq, -, hf⟩
      · exact .inl (hf ▸ h)
      · rw [hf, List.mem_append, List.mem_singleton] at h
        rcases h with h | h
        · exact .inl h
        · obtain ⟨rfl, rfl⟩ := Prod.mk.inj h
          exact .inr ⟨c, List.mem_cons_self, rfl, hq⟩
    · exact .inr ⟨d, List.mem_cons_of_mem _ hd, hname, hp⟩

/-- Reading is given up exactly when something failed. -/
theorem refusal?_eq_none_iff : r.refusal? = none ↔ r.failures = [] := by
  unfold refusal?
  cases r.failures with
  | nil => simp
  | cons f fs =>
    refine iff_of_false (fun h => ?_) (List.cons_ne_nil f fs)
    split at h <;> cases h

/-- Reading is given up with one of the failures. -/
theorem exists_mem_of_refusal? {p : Problem} (h : r.refusal? = some p) :
    ∃ name, (name, p) ∈ r.failures := by
  unfold refusal? at h
  split at h
  · rename_i haborted
    obtain ⟨⟨name, q⟩, hmem, hq⟩ := List.any_eq_true.1 haborted
    obtain rfl := Option.some.inj h
    obtain rfl : q = .abort := Problem.isAbort_eq_true_iff.1 hq
    exact ⟨name, hmem⟩
  · obtain ⟨f, hf, rfl⟩ := Option.map_eq_some_iff.1 h
    exact ⟨f.1, List.mem_of_head? hf⟩

theorem has_eq_true_iff {name : String} :
    r.has name = true ↔ ∃ nodes, r.templates.lookup name = some nodes := by
  unfold has
  induction r.templates with
  | nil => simp
  | cons t ts ih =>
    rw [List.any_cons, List.lookup_cons]
    by_cases heq : t.1 = name
    · simp [heq]
    · rw [beq_false_of_ne (Ne.symm heq), decide_eq_false heq, Bool.false_or]
      exact ih

end Reading

end ViewCompiler
