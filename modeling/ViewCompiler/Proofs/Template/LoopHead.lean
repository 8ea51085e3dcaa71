import ViewCompiler.Proofs.Template.DirectiveSpec

/-!
# Variables of repeaters

The repeaters that are read are those with two different variables and with paths of identifiers,
and each of them is read back from its canonical text (`readRepeater_render_iff`). A variable may go
on with any number character and an identifier with decimal digits only, so a variable that was read
need not be an identifier (`not_isIdentifier_of_readRepeater`): it is one if its numbers may stand
in an identifier (`readRepeater_variables`).
-/

namespace ViewCompiler.Template

open ViewCompiler.Text

/-! ### What a head has for variables -/

private theorem isVariable_of_readVariable? {cs name rest : List Char}
    (h : readVariable? cs = some (name, rest)) : isVariable name = true := by
  unfold readVariable? at h
  split at h
  · cases h
  · split at h
    · rename_i c cs hstart
      obtain ⟨rfl, -⟩ := Prod.mk.inj (Option.some.inj h)
      rw [isVariable, hstart, Bool.true_and, List.all_takeWhile]
    · cases h

private theorem isVariable_of_readIndex {cs index rest : List Char}
    (h : (readIndex cs).getD ([], cs) = (index, rest)) : index = [] ∨ isVariable index = true := by
  cases hindex : readIndex cs with
  | none =>
    rw [hindex] at h
    exact .inl (Prod.mk.inj h).1.symm
  | some found =>
    rw [hindex] at h
    obtain rfl : found = (index, rest) := h
    unfold readIndex at hindex
    split at hindex
    · exact .inr (isVariable_of_readVariable? hindex)
    · cases hindex

private theorem isVariable_of_readVariables? {cs item index rest : List Char}
    (h : readVariables? cs = some (item, index, rest)) :
    isVariable item = true ∧ (index = [] ∨ isVariable index = true) := by
  unfold readVariables? at h
  split at h
  all_goals
    obtain ⟨⟨found, behind⟩, hitem, h⟩ := Option.bind_eq_some_iff.1 h
    obtain ⟨⟨i, after⟩, hindex⟩ : ∃ r, (readIndex behind).getD ([], behind) = r := ⟨_, rfl⟩
    simp only [hindex] at h
  · split at h
    · obtain ⟨rfl, hrest⟩ := Prod.mk.inj (Option.some.inj h)
      obtain ⟨rfl, -⟩ := Prod.mk.inj hrest
      exact ⟨isVariable_of_readVariable? hitem, isVariable_of_readIndex hindex⟩
    · cases h
  · obtain ⟨rfl, hrest⟩ := Prod.mk.inj (Option.some.inj h)
    obtain ⟨rfl, -⟩ := Prod.mk.inj hrest
    exact ⟨isVariable_of_readVariable? hitem, isVariable_of_readIndex hindex⟩

private theorem isVariable_of_readHead? {cs item index source : List Char}
    (h : readHead? cs = some (item, index, source)) :
    isVariable item = true ∧ (index = [] ∨ isVariable index = true) := by
  unfold readHead? at h
  obtain ⟨⟨i, j, first⟩, hvariables, h⟩ := Option.bind_eq_some_iff.1 h
  obtain ⟨second, -, h⟩ := Option.bind_eq_some_iff.1 h
  obtain ⟨third, -, h⟩ := Option.bind_eq_some_iff.1 h
  obtain ⟨fourth, -, h⟩ := Option.bind_eq_some_iff.1 h
  obtain ⟨line, -, h⟩ := Option.bind_eq_some_iff.1 h
  obtain ⟨rfl, hsource⟩ := Prod.mk.inj (Option.some.inj h)
  obtain ⟨rfl, -⟩ := Prod.mk.inj hsource
  exact isVariable_of_readVariables? hvariables

private theorem isIdentifier_of_readKeyPath {tail : List Char} {key : List String}
    (h : readKeyPath tail = .ok key) : ∀ s ∈ key, isIdentifier s.toList = true := by
  unfold readKeyPath at h
  simp only at h
  split at h
  · cases h
  · split at h
    · cases h
    · rename_i path hpath
      obtain rfl := Except.ok.inj h
      exact (render_of_readPath? hpath).2

/-- What is read has variables that differ and paths of identifiers. -/
theorem readable_of_readRepeater {spec : String} {l : Loop} (h : readRepeater spec = .ok l) :
    l.Readable := by
  obtain ⟨head, after, source, -, hhead, hdiffer, hpath, hafter⟩ := exists_of_readRepeater h
  obtain ⟨hitem, hindex⟩ := isVariable_of_readHead? hhead
  refine ⟨hitem, ?_, (render_of_readPath? hpath).2, ?_⟩
  · rcases hdiffer with hnone | hne
    · exact .inl hnone
    · exact hindex.imp String.toList_eq_nil_iff.1 fun hvariable => ⟨hvariable, hne⟩
  · rcases hafter with ⟨-, hkey⟩ | ⟨tail, -, hkey⟩
    · rw [hkey]
      exact List.forall_mem_nil _
    · exact isIdentifier_of_readKeyPath hkey

/-- The canonical text of a repeater is read as the repeater, if any text is. -/
theorem readRepeater_render_iff {l : Loop} : readRepeater l.render = .ok l ↔ l.Readable :=
  ⟨readable_of_readRepeater, readRepeater_render⟩

/-! ### Variables and identifiers -/

/-- An identifier is a variable whose numbers may stand in an identifier. -/
theorem isIdentifier_iff_isVariable {cs : List Char} : isIdentifier cs = true ↔
    isVariable cs = true ∧ ∀ c ∈ cs, isNumber c = true → isIdentRest c = true := by
  refine ⟨fun h => ⟨isVariable_of_isIdentifier h, fun c hc _ => isIdentRest_of_mem h hc⟩, ?_⟩
  rintro ⟨hvariable, hnumbers⟩
  cases cs with
  | nil => cases hvariable
  | cons c cs =>
    simp only [isVariable, isIdentifier, Bool.and_eq_true, List.all_eq_true] at hvariable ⊢
    refine ⟨hvariable.1, fun d hd => ?_⟩
    rcases Bool.or_eq_true_iff.1 (hvariable.2 d hd) with hstart | hnumber
    · rw [isIdentRest, hstart, Bool.true_or]
    · exact hnumbers d (List.mem_cons_of_mem c hd) hnumber

/-- The numbers in the variables of a repeater may stand in an identifier. -/
def Loop.NumbersIdentify (l : Loop) : Prop :=
  ∀ c ∈ l.item.toList ++ l.index.toList, isNumber c = true → isIdentRest c = true

private theorem Loop.Readable.valid_iff {l : Loop} (h : l.Readable) :
    l.Valid ↔ l.NumbersIdentify := by
  constructor
  · intro hvalid c hc _
    rcases List.mem_append.1 hc with hc | hc
    · exact isIdentRest_of_mem hvalid.item hc
    · rcases hvalid.index with hnone | ⟨hindex, -⟩
      · rw [hnone] at hc
        cases hc
      · exact isIdentRest_of_mem hindex hc
  · intro hnumbers
    obtain ⟨hitem, hindex⟩ := List.forall_mem_append.1 hnumbers
    refine ⟨isIdentifier_iff_isVariable.2 ⟨h.item, hitem⟩, ?_, h.source, h.key⟩
    exact h.index.imp_right fun ⟨hvariable, hne⟩ =>
      ⟨isIdentifier_iff_isVariable.2 ⟨hvariable, hindex⟩, hne⟩

/-- **Variables of a repeater.** Whatever text a repeater is read from, its variables differ, its
paths consist of identifiers and its canonical text reads back. Its variables are identifiers
exactly if their numbers may stand in one, and every repeater over identifiers is read from its
canonical text. -/
theorem readRepeater_variables (spec : String) (l : Loop) :
    (readRepeater spec = .ok l →
      l.Readable ∧ readRepeater l.render = .ok l ∧ (l.Valid ↔ l.NumbersIdentify)) ∧
    (l.Valid → l.render = spec → readRepeater spec = .ok l) := by
  constructor
  · intro h
    have hread := readable_of_readRepeater h
    exact ⟨hread, readRepeater_render hread, hread.valid_iff⟩
  · rintro hvalid rfl
    exact readRepeater_render hvalid.readable

/-- The repeater `(todo, n) of todos; key: meta.id`. -/
def todos : Loop where
  item := "todo"
  index := "n"
  source := ⟨"todos", []⟩
  key := ["meta", "id"]

private theorem valid_todos : todos.Valid where
  item := by decide
  index := .inr (by decide)
  source := (by decide : ∀ s ∈ ["todos"], isIdentifier s.toList = true)
  key := by decide

/-- A repeater over the todos is read back, with identifiers for its variables. -/
theorem readRepeater_variables_todos :
    readRepeater todos.render = .ok todos ∧ todos.Readable ∧ todos.NumbersIdentify := by
  have hread := (readRepeater_variables todos.render todos).2 valid_todos rfl
  obtain ⟨hreadable, -, hvalid⟩ := (readRepeater_variables todos.render todos).1 hread
  exact ⟨hread, hreadable, hvalid.1 valid_todos⟩

/-- The repeater over the items `x²`. -/
def squares : Loop where
  item := "x²"
  source := ⟨"xs", []⟩

private theorem readable_squares : squares.Readable where
  item := by decide +kernel
  index := .inl rfl
  source := (by decide : ∀ s ∈ ["xs"], isIdentifier s.toList = true)
  key := List.forall_mem_nil _

/-- A superscript is a number and no decimal digit, so a variable with one is read and is no
identifier. -/
theorem not_isIdentifier_of_readRepeater :
    readRepeater "(x²) of xs" = .ok squares ∧ isIdentifier squares.item.toList = false := by
  have hrender : squares.render = "(x²) of xs" := by decide
  exact ⟨hrender ▸ readRepeater_render readable_squares, by decide +kernel⟩

end ViewCompiler.Template
