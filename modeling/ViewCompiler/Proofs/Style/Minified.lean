import ViewCompiler.Proofs.Style.ScopedPrelude

/-!
# Scoped style sheets, read again

The output of `encapsulate` is read as the rules of the input, with scoped selectors
(`parse_encapsulate`): every rule that is written is one that is read as it is written, as scoping
makes preludes of preludes. Scoping does not know of strings where it looks for the bracket that
closes the argument of `:host`, and there a string can be left open (`exists_open_host_argument`).
-/

namespace ViewCompiler.Style

open ViewCompiler.Text

variable {bare : Bool}

/-! ### Style sheets -/

/-- Whether a selector list can be scoped in its place: trimming leaves a selector, and the
arguments of `:host` are cut where they end. Key frames have no `:host`. -/
structure IsScopable (confined : Bool) (selector : String) : Prop where
  start : hasPlainStart selector
  host : confined = true → ∀ c ∈ compoundsOf selector, ∀ rest ∈ Scoping.hostRest? c,
    hasWholeArgument rest = true

instance (confined : Bool) (selector : String) : Decidable (IsScopable confined selector) :=
  decidable_of_iff (hasPlainStart selector ∧ (confined = true → ∀ c ∈ compoundsOf selector,
    ∀ rest ∈ Scoping.hostRest? c, hasWholeArgument rest = true))
    ⟨fun h => ⟨h.1, h.2⟩, fun h => ⟨h.start, h.host⟩⟩

/-- The selector list that is written for another one. -/
def Scoping.written (s : Scoping) (confined : Bool) (selector : String) : String :=
  if confined then s.selectorList selector else join "," ((splitList selector).map String.ofList)

/-- What is written for a selector list that can be scoped is a prelude, and no at-rule. -/
theorem IsScopable.isPrelude_written {s : Scoping} (hs : s.IsPlain) {confined : Bool}
    {selector : String} (h : IsScopable confined selector)
    (hprelude : IsPrelude selector.toList bare) :
    IsPrelude (s.written confined selector).toList bare ∧
      (s.written confined selector).toList.head? ≠ some '@' := by
  cases confined with
  | false => exact isPrelude_join_splitList hprelude h.start rfl fun piece _ hpiece => ⟨hpiece, id⟩
  | true =>
    exact isPrelude_join_splitList hprelude h.start rfl fun piece hmem hpiece =>
      Scoping.isPrelude_complex hs hpiece fun text htext =>
        h.host rfl text (List.mem_flatMap.2 ⟨piece, hmem, List.mem_filterMap.2 ⟨_, htext, rfl⟩⟩)

/-- A scoped rule is read as it is written if the rule is. -/
theorem Rule.IsRead.scopeRule {s : Scoping} (hs : s.IsPlain) {confined : Bool} {r : Rule}
    (h : r.IsRead)
    (hselector : ∀ selector declarations, r = .qualified selector declarations →
      IsScopable confined selector) : (s.scopeRule confined r).IsRead := by
  cases h with
  | @qualified selector declarations hprelude hat hdeclarations =>
    obtain ⟨hscoped, hhead⟩ := (hselector selector declarations rfl).isPrelude_written hs hprelude
    exact .qualified hscoped hhead hdeclarations
  | statement hname hcondition => exact .statement hname hcondition
  | block hname hkind hcondition hdeclarations => exact .block hname hkind hcondition hdeclarations
  | group hname hkind hcondition => exact .group hname hkind hcondition

/-- For tags that are plain identifiers, the output of `encapsulate` is a style sheet without
comments that is read as the rules of the input, with scoped selectors: provided that at-rules
without a block close what they open, and that selectors can be scoped in their place. -/
theorem parse_encapsulate {css host : String} {id : Int} {childTag? : String → Option String}
    (hhost : IsIdentifier host.toList)
    (hchild : ∀ name tag, childTag? name = some tag → IsIdentifier tag.toList)
    {rules : List Rule} (hparse : parse css = .ok rules)
    (hclosed : ∀ confined name condition, Occurs rules confined (.statement name condition) →
      IsClosedText condition.toList)
    (hselectors : ∀ confined selector declarations,
      Occurs rules confined (.qualified selector declarations) → IsScopable confined selector) :
    ∃ out, encapsulate css host id childTag? = .ok out ∧
      stripComments out.toList = .ok out.toList ∧
      parse out = .ok ((scopingOf host id childTag?).scopeRules true rules) := by
  have hs : (scopingOf host id childTag?).IsPlain := ⟨isMark_markOf id, hhost, hchild _ _⟩
  have hread :
      ∀ confined r', Occurs ((scopingOf host id childTag?).scopeRules true rules) confined r' →
      r'.IsRead := by
    intro confined r' hr'
    obtain ⟨r, hr, rfl⟩ := Scoping.exists_of_occurs_scopeRules hr'
    refine (isRead_of_parse hparse hclosed hr).scopeRule hs fun selector declarations hqualified =>
      ?_
    exact hselectors confined selector declarations (hqualified ▸ hr)
  refine ⟨Rule.sheetText ((scopingOf host id childTag?).scopeRules true rules), ?_,
    parse_sheetText hread⟩
  rw [encapsulate, hparse, ← Scoping.writeRules_eq_text]
  rfl

namespace Sample

def last : String := ":host( b ) a\x7bx:y\x7d"

def keyframes : String := "0 ,1\x7b\x7d\x7d" ++ last

/-- A style sheet with a comment, key frames, and an at-rule without a block. -/
def sheet : String := "@a/**/b;@keyframes k\x7b" ++ keyframes

def sheetRules : List Rule :=
  [.statement "@a" "b", .group "@keyframes" "k" true [.qualified "0 ,1" []],
    .qualified ":host( b ) a" ["x:y"]]

theorem parse_sheet : parse sheet = .ok sheetRules := by
  have hstrip : stripComments sheet.toList =
      .ok ("@a b;" ++ ("@keyframes k\x7b" ++ keyframes)).toList := by decide
  have hstatement : step ⟨("@a b;" ++ ("@keyframes k\x7b" ++ keyframes)).toList, 0⟩ =
      .ok (some (.rule (.statement "@a" "b")), ⟨("@keyframes k\x7b" ++ keyframes).toList, 5⟩) := rfl
  have hopening : step ⟨("@keyframes k\x7b" ++ keyframes).toList, 5⟩ =
      .ok (some (.opening "@keyframes" "k" true), ⟨keyframes.toList, 18⟩) := rfl
  have hmoment : step ⟨keyframes.toList, 18⟩ =
      .ok (some (.rule (.qualified "0 ,1" [])), ⟨("\x7d" ++ last).toList, 24⟩) := rfl
  have hclosing : step ⟨("\x7d" ++ last).toList, 24⟩ =
      .ok (some (.closing 24), ⟨last.toList, 25⟩) := rfl
  have hrule : step ⟨last.toList, 25⟩ =
      .ok (some (.rule (.qualified ":host( b ) a" ["x:y"])), ⟨[], 42⟩) := rfl
  have hend : scanFrom ⟨[], 42⟩ = ⟨[], none, 42⟩ := by rw [scanFrom]; rfl
  rw [parse, hstrip]
  change parseRules ("@a b;" ++ ("@keyframes k\x7b" ++ keyframes)).toList = _
  rw [parseRules, scanFrom_of_step rfl hstatement (by decide),
    scanFrom_of_step rfl hopening (by decide),
    scanFrom_of_step rfl hmoment (by decide),
    scanFrom_of_step rfl hclosing (by decide),
    scanFrom_of_step rfl hrule (by decide), hend]
  rfl

/-- The at-rule without a block is closed, and the selectors can be scoped. -/
theorem every_sheetRules : ∀ r ∈ sheetRules, r.Every fun r =>
    (∀ name condition, r = .statement name condition → IsClosedText condition.toList) ∧
      ∀ selector declarations, r = .qualified selector declarations → ∀ confined,
        IsScopable confined selector := by
  refine List.forall_mem_cons.2 ⟨.intro ⟨?_, nofun⟩ nofun, List.forall_mem_cons.2
    ⟨.intro ⟨nofun, nofun⟩ (List.forall_mem_singleton.2 (.intro ⟨nofun, ?_⟩ nofun)),
      List.forall_mem_singleton.2 (.intro ⟨nofun, ?_⟩ nofun)⟩⟩
  · rintro name condition h
    obtain ⟨-, rfl⟩ := Rule.statement.inj h
    decide
  · rintro selector declarations h confined
    obtain ⟨rfl, -⟩ := Rule.qualified.inj h
    cases confined <;> decide
  · rintro selector declarations h confined
    obtain ⟨rfl, -⟩ := Rule.qualified.inj h
    cases confined <;> decide

theorem isClosedText_of_occurs (confined : Bool) (name condition : String)
    (h : Occurs sheetRules confined (.statement name condition)) :
    IsClosedText condition.toList := by
  obtain ⟨⟨hclosed, -⟩, -⟩ := h.every every_sheetRules
  exact hclosed name condition rfl

theorem isScopable_of_occurs (confined : Bool) (selector : String) (declarations : List String)
    (h : Occurs sheetRules confined (.qualified selector declarations)) :
    IsScopable confined selector := by
  obtain ⟨⟨-, hselector⟩, -⟩ := h.every every_sheetRules
  exact hselector selector declarations rfl confined

/-- The sample is read again as its rules with scoped selectors. -/
theorem parse_encapsulate_sheet :
    IsIdentifier "foo-cmp".toList ∧
    (∀ name tag, childTag? name = some tag → IsIdentifier tag.toList) ∧
    parse sheet = .ok sheetRules ∧
    (∀ confined name condition, Occurs sheetRules confined (.statement name condition) →
      IsClosedText condition.toList) ∧
    (∀ confined selector declarations,
      Occurs sheetRules confined (.qualified selector declarations) →
      IsScopable confined selector) ∧
    ∃ out, encapsulate sheet "foo-cmp" 1 childTag? = .ok out ∧
      stripComments out.toList = .ok out.toList ∧
      parse out = .ok ((scopingOf "foo-cmp" 1 childTag?).scopeRules true sheetRules) := by
  have hhost : IsIdentifier "foo-cmp".toList := by decide
  exact ⟨hhost, isIdentifier_childTag?, parse_sheet, isClosedText_of_occurs, isScopable_of_occurs,
    parse_encapsulate hhost isIdentifier_childTag? parse_sheet isClosedText_of_occurs
      isScopable_of_occurs⟩

end Sample

namespace Open

/-- An argument of `:host` with a string that has an escaped bracket. -/
def selector : String := ":host([a=\"\\)\"])"

def css : String := selector ++ "\x7bx:y\x7d"

def out : String := "foo-cmp[a=\"\\\"])\x7bx:y\x7d"

end Open

/-- The argument of `:host` is cut in a string, behind the backslash of an escape, and the string is
left open. -/
theorem exists_open_host_argument :
    IsIdentifier "foo-cmp".toList ∧ IsCompound Open.selector.toList ∧
    parse Open.css = .ok [.qualified Open.selector ["x:y"]] ∧
    encapsulate Open.css "foo-cmp" 1 (fun _ => none) = .ok Open.out ∧
    parse Open.out = .error ⟨0, .missingBlock Open.out⟩ := by
  have hstrip : stripComments Open.css.toList = .ok Open.css.toList := rfl
  have hrule : step ⟨Open.css.toList, 0⟩ =
      .ok (some (.rule (.qualified Open.selector ["x:y"])), ⟨[], 20⟩) := rfl
  have hend : scanFrom ⟨[], 20⟩ = ⟨[], none, 20⟩ := by rw [scanFrom]; rfl
  have hparse : parse Open.css = .ok [.qualified Open.selector ["x:y"]] := by
    rw [parse, hstrip]
    change parseRules Open.css.toList = _
    rw [parseRules, scanFrom_of_step rfl hrule (by decide), hend]
    rfl
  have hwrite : (scopingOf "foo-cmp" 1 fun _ => none).writeRules true
      [.qualified Open.selector ["x:y"]] = Open.out := by decide
  refine ⟨by decide, by decide, hparse, ?_, ?_⟩
  · rw [encapsulate, hparse]
    exact congrArg Except.ok hwrite
  · have hstrip : stripComments Open.out.toList = .ok Open.out.toList := rfl
    have hfails : step ⟨Open.out.toList, 0⟩ = .error ⟨0, .missingBlock Open.out⟩ := rfl
    rw [parse, hstrip]
    change parseRules Open.out.toList = _
    rw [parseRules, scanFrom]
    rfl
end ViewCompiler.Style
