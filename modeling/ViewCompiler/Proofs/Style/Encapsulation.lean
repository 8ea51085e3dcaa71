import Mathlib.Data.List.Forall2
import ViewCompiler.Proofs.Style.Origin
import ViewCompiler.Proofs.Style.SelectorList

/-!
# Scoped style sheets, rule by rule

The output of `encapsulate` is the text of a style sheet that has the rules of the input, at the
same nesting, and differs in selectors only (`writeRules_eq_text`). Its declarations, the heads of
its at-rules and the selectors of key frames are without the mark, and every other selector list
holds the compounds of the original, each of them confined, as far as scoping reads them as they are
meant (`encapsulate_scopes`); where it does not, a selector can get out
(`exists_escaping_selector`).

Three things have to fit together. A style sheet is read into rules (`Style/Reading`); of these, it
has to be known that none has the mark if the style sheet does not (`Style/Mark`, `Style/Origin`).
Each rule is written again with its selectors scoped, so what is written is the text of other rules,
those of `Scoping.scopeRules`: a rule as text is defined here for that. And the selectors of such a
rule are lists of compounds, with combinators in between, which are scoped one by one
(`Style/SelectorList`, `Style/Confinement`).

`Scopes` says of a rule and the one written for it that the selectors are confined where they name
nodes, and that nothing else has the mark. It is defined along the rules: an at-rule that holds
rules scopes those, and one that holds key frames scopes nothing.

The mark is an attribute that only the elements of the component have. So a confined compound
matches no element of another component, and a compound without the mark any.
-/

namespace ViewCompiler.Style

open ViewCompiler.Text

/-- The scoping of the component with the given tag and number. -/
def scopingOf (host : String) (id : Int) (childTag? : String → Option String) : Scoping :=
  { host, mark := markOf id, childTag? }

/-! ### The scoped style sheet -/

mutual

/-- The rule that is written for a rule. -/
def Scoping.scopeRule (s : Scoping) (confined : Bool) : Rule → Rule
  | .qualified selector declarations =>
    .qualified (if confined then s.selectorList selector
      else join "," ((splitList selector).map String.ofList)) declarations
  | .statement name condition => .statement name condition
  | .block name condition declarations => .block name condition declarations
  | .group name condition keyframes rules =>
    .group name condition keyframes (s.scopeRules (confined && !keyframes) rules)

/-- The rules that are written for several rules. -/
def Scoping.scopeRules (s : Scoping) (confined : Bool) : List Rule → List Rule
  | [] => []
  | r :: rs => s.scopeRule confined r :: s.scopeRules confined rs

end

mutual

/-- A rule as text. -/
def Rule.text : Rule → String
  | .qualified selector declarations => selector ++ writeDeclarations declarations
  | .statement name condition => writeHead name condition ++ ";"
  | .block name condition declarations => writeHead name condition ++ writeDeclarations declarations
  | .group name condition _ rules =>
    writeHead name condition ++ "\x7b" ++ Rule.sheetText rules ++ "\x7d"

/-- Several rules as text. -/
def Rule.sheetText : List Rule → String
  | [] => ""
  | r :: rs => r.text ++ Rule.sheetText rs

end

namespace Scoping

variable {s : Scoping}

mutual

/-- A rule is written as the text of the scoped rule. -/
private theorem writeRule_eq_text (confined : Bool) (r : Rule) :
    s.writeRule confined r = (s.scopeRule confined r).text := by
  cases r with
  | qualified selector declarations => rfl
  | statement name condition => rfl
  | block name condition declarations => rfl
  | group name condition keyframes rules =>
    rw [writeRule, writeRules_eq_text (confined && !keyframes) rules]
    rfl

/-- Rules are written as the sheet of the scoped rules. -/
theorem writeRules_eq_text (confined : Bool) (rules : List Rule) :
    s.writeRules confined rules = Rule.sheetText (s.scopeRules confined rules) := by
  cases rules with
  | nil => rfl
  | cons r rs =>
    rw [writeRules, writeRule_eq_text confined r, writeRules_eq_text confined rs]
    rfl

end

private theorem scopeRules_eq_map (confined : Bool) (rules : List Rule) :
    s.scopeRules confined rules = rules.map (s.scopeRule confined) := by
  induction rules with
  | nil => rfl
  | cons r rs ih => rw [scopeRules, ih, List.map_cons]

/-- Every rule of the scoped style sheet is written for one in the same place. -/
theorem exists_of_occurs_scopeRules {rules : List Rule} {confined : Bool} {r' : Rule}
    (h : Occurs (s.scopeRules true rules) confined r') :
    ∃ r, Occurs rules confined r ∧ r' = s.scopeRule confined r := by
  induction h with
  | top hr =>
    rw [scopeRules_eq_map] at hr
    obtain ⟨r, hmem, rfl⟩ := List.mem_map.1 hr
    exact ⟨r, .top hmem, rfl⟩
  | @inside confined name condition keyframes inner r' _ hr' ih =>
    obtain ⟨r, hr, hgroup⟩ := ih
    cases r with
    | group name' condition' keyframes' rules' =>
      rw [scopeRule] at hgroup
      obtain ⟨rfl, rfl, rfl, rfl⟩ := Rule.group.inj hgroup
      rw [scopeRules_eq_map] at hr'
      obtain ⟨r, hinner, rfl⟩ := List.mem_map.1 hr'
      exact ⟨r, .inside hr hinner, rfl⟩
    | qualified | statement | block => cases hgroup

/-! ### What scoping does to a rule -/

/-- Whether a selector list is another one, scoped. Each text that scoping takes for a compound, and
that is one, is confined exactly when scoping reads it as it is meant; if that holds of all of them,
the scoped list has no other compounds, and neither has the original one unless scoping trims what
does not separate. -/
structure ScopesList (s : Scoping) (selector result : String) : Prop where
  confines_iff : ∀ c ∈ compoundsOf selector, IsCompound c →
    (s.Confines c (s.compound c) ↔ isRegular c = true)
  confined : (∀ c ∈ compoundsOf selector, IsCompound c ∧ isRegular c = true) →
    List.Forall₂ s.Confines (compoundsOf selector) (compounds result.toList)
  compounds_eq : (∀ c ∈ compoundsOf selector, IsCompound c) →
    (∀ c ∈ selector.toList, isBlank c = true → isMarkupSpace c = true) →
    compounds selector.toList = compoundsOf selector

/-- Whether a text is without the mark. -/
def Unmarked (s : Scoping) (text : String) : Prop := ¬ s.mark.toList <:+: text.toList

/-- Whether a rule is another one, scoped: its selectors are confined where they name nodes, and
nothing else has the mark. -/
inductive Scopes (s : Scoping) : Bool → Rule → Rule → Prop
  | qualified {selector result declarations} (hresult : s.ScopesList selector result)
      (hdeclarations : s.Unmarked (writeDeclarations declarations)) :
      Scopes s true (.qualified selector declarations) (.qualified result declarations)
  | moment {selector written declarations} (hwritten : s.Unmarked written)
      (hdeclarations : s.Unmarked (writeDeclarations declarations)) :
      Scopes s false (.qualified selector declarations) (.qualified written declarations)
  | statement {confined name condition} (hhead : s.Unmarked (writeHead name condition)) :
      Scopes s confined (.statement name condition) (.statement name condition)
  | block {confined name condition declarations} (hhead : s.Unmarked (writeHead name condition))
      (hdeclarations : s.Unmarked (writeDeclarations declarations)) :
      Scopes s confined (.block name condition declarations) (.block name condition declarations)
  | group {confined name condition keyframes rules rules'}
      (hhead : s.Unmarked (writeHead name condition)) :
      Scopes s confined (.group name condition keyframes rules)
        (.group name condition keyframes rules')

section Unmarked

variable (hs : s.IsPlain)
include hs

private theorem unmarked_writeDeclarations {declarations : List String}
    (h : ∀ d ∈ declarations, s.Unmarked d) : s.Unmarked (writeDeclarations declarations) := by
  have hsemicolon : ';' ∉ s.mark.toList := hs.mark.notMem rfl (by decide) (by decide)
  have hclose : '\x7d' ∉ s.mark.toList := hs.mark.notMem rfl (by decide) (by decide)
  intro hmark
  rw [writeDeclarations, String.toList_append, String.toList_append, List.append_assoc] at hmark
  have hinner : s.mark.toList <:+: (join ";" declarations).toList ++ ['\x7d'] :=
    hs.mark.infix_of_infix_append (by decide) hmark
  rcases hs.mark.infix_of_infix_append_cons hclose hinner with hmark | hmark
  · obtain ⟨d, hd, hmark⟩ := hs.mark.infix_of_infix_join hsemicolon hmark
    exact h d hd hmark
  · exact hs.mark.ne_nil (List.infix_nil.1 hmark)

private theorem unmarked_writeHead {name condition : String} (hname : s.Unmarked name)
    (hcondition : s.Unmarked condition) : s.Unmarked (writeHead name condition) := by
  have hspace : ' ' ∉ s.mark.toList := hs.mark.notMem rfl (by decide) (by decide)
  have hsep : " ".toList = [' '] := rfl
  unfold writeHead
  split
  · exact hname
  · intro hmark
    rw [String.toList_append, String.toList_append, hsep, List.append_assoc,
      List.singleton_append] at hmark
    exact (hs.mark.infix_of_infix_append_cons hspace hmark).elim hname hcondition

private theorem unmarked_join_splitList {selector : String} (h : s.Unmarked selector) :
    s.Unmarked (join "," ((splitList selector).map String.ofList)) := by
  have hcomma : ',' ∉ s.mark.toList := hs.mark.notMem rfl (by decide) (by decide)
  intro hmark
  obtain ⟨t, ht, hmark⟩ := hs.mark.infix_of_infix_join hcomma hmark
  obtain ⟨piece, hpiece, rfl⟩ := List.mem_map.1 ht
  rw [String.toList_ofList] at hmark
  exact h (hmark.trans (infix_of_mem_splitList hpiece))

end Unmarked

/-- What confines a compound is a compound. -/
private theorem Confines.isCompound {c c' : List Char} (h : s.Confines c c') : IsCompound c' := by
  cases h <;> assumption

/-- A selector list is scoped compound by compound. -/
private theorem scopesList_selectorList (hs : s.IsPlain) {selector : String}
    (h : s.Unmarked selector) :
    s.ScopesList selector (s.selectorList selector) := by
  have hiff : ∀ c ∈ compoundsOf selector, IsCompound c →
      (s.Confines c (s.compound c) ↔ isRegular c = true) := fun c hc hcompound =>
    confines_compound_iff hs hcompound fun hmark => h (hmark.trans (infix_of_mem_compoundsOf hc))
  refine ⟨hiff, fun hregular => ?_,
    fun hcompounds hblank => compounds_eq_compoundsOf hblank hcompounds⟩
  have hconfines : ∀ c ∈ compoundsOf selector, s.Confines c (s.compound c) := by
    intro c hc
    obtain ⟨hcompound, hreg⟩ := hregular c hc
    exact (hiff c hc hcompound).2 hreg
  rw [compounds_selectorList fun c hc => (hconfines c hc).isCompound]
  exact List.forall₂_map_right_iff.2 (List.forall₂_same.2 hconfines)

/-- Scoping treats a rule without the mark as it should. -/
private theorem scopes_scopeRule (hs : s.IsPlain) {confined : Bool} {r : Rule}
    (h : ∀ t ∈ r.texts, s.Unmarked t) : s.Scopes confined r (s.scopeRule confined r) := by
  cases r with
  | qualified selector declarations =>
    obtain ⟨hselector, hdeclarations⟩ := List.forall_mem_cons.1 h
    have hdeclarations := unmarked_writeDeclarations hs hdeclarations
    cases confined with
    | true => exact .qualified (scopesList_selectorList hs hselector) hdeclarations
    | false => exact .moment (unmarked_join_splitList hs hselector) hdeclarations
  | statement name condition =>
    obtain ⟨hname, hcondition⟩ := List.forall_mem_cons.1 h
    exact .statement (unmarked_writeHead hs hname (hcondition _ List.mem_cons_self))
  | block name condition declarations =>
    obtain ⟨hname, hrest⟩ := List.forall_mem_cons.1 h
    obtain ⟨hcondition, hdeclarations⟩ := List.forall_mem_cons.1 hrest
    exact .block (unmarked_writeHead hs hname hcondition)
      (unmarked_writeDeclarations hs hdeclarations)
  | group name condition keyframes rules =>
    obtain ⟨hname, hcondition⟩ := List.forall_mem_cons.1 h
    exact .group (unmarked_writeHead hs hname (hcondition _ List.mem_cons_self))

end Scoping

/-- For tags that are plain identifiers, and a style sheet without the mark, `encapsulate` writes a
style sheet with the same rules, in which every selector that names nodes is confined as far as
scoping reads its compounds as they are meant, and nothing else has the mark. -/
theorem encapsulate_scopes {css host out : String} {id : Int} {childTag? : String → Option String}
    (hhost : IsIdentifier host.toList)
    (hchild : ∀ name tag, childTag? name = some tag → IsIdentifier tag.toList)
    (hunmarked : ¬ (markOf id).toList <:+: css.toList)
    (hout : encapsulate css host id childTag? = .ok out) :
    ∃ rules sheet, parse css = .ok rules ∧
      sheet = (scopingOf host id childTag?).scopeRules true rules ∧ out = Rule.sheetText sheet ∧
      ∀ confined r', Occurs sheet confined r' →
        ∃ r, Occurs rules confined r ∧ (scopingOf host id childTag?).Scopes confined r r' := by
  have hs : (scopingOf host id childTag?).IsPlain := ⟨isMark_markOf id, hhost, hchild _ _⟩
  obtain ⟨rules, hparse, hwrite⟩ := bind_eq_ok_iff.1 hout
  obtain rfl := Except.ok.inj hwrite
  refine ⟨rules, _, hparse, rfl, Scoping.writeRules_eq_text true rules, fun confined r' hr' => ?_⟩
  obtain ⟨r, hr, rfl⟩ := Scoping.exists_of_occurs_scopeRules hr'
  exact ⟨r, hr, Scoping.scopes_scopeRule hs fun t ht hmark =>
    hunmarked (infix_of_parse (isMark_markOf id) hparse hr ht hmark)⟩

namespace Sample

/-- A component that selectors of the sample may name. -/
def childTag? (name : String) : Option String := if name = "Child" then some "w-child" else none

def inner : String := ":host(.on) Child,[q=\"\"]>*::after"

/-- A style sheet with all sorts of compounds. -/
def css : String := "@media print\x7b" ++ inner ++ "\x7bx:y\x7d\x7d"

def rules : List Rule := [.group "@media" "print" false [.qualified inner ["x:y"]]]

def out : String :=
  "@media print\x7bfoo-cmp.on w-child[data-w-1],[q=\"\"][data-w-1]>[data-w-1]::after\x7bx:y\x7d\x7d"

theorem parse_css : parse css = .ok rules := by
  have hstrip : stripComments css.toList = .ok css.toList := rfl
  have hopening : step ⟨css.toList, 0⟩ = .ok (some (.opening "@media" "print" false),
      ⟨(inner ++ "\x7bx:y\x7d\x7d").toList, 13⟩) := rfl
  have hrule : step ⟨(inner ++ "\x7bx:y\x7d\x7d").toList, 13⟩ =
      .ok (some (.rule (.qualified inner ["x:y"])), ⟨['\x7d'], 50⟩) := rfl
  have hclosing : step ⟨['\x7d'], 50⟩ = .ok (some (.closing 50), ⟨[], 51⟩) := rfl
  have hend : scanFrom ⟨[], 51⟩ = ⟨[], none, 51⟩ := by rw [scanFrom]; rfl
  rw [parse, hstrip]
  change parseRules css.toList = _
  rw [parseRules, scanFrom_of_step rfl hopening (by decide),
    scanFrom_of_step rfl hrule (by decide),
    scanFrom_of_step rfl hclosing (by decide), hend]
  rfl

/-- What is written for the sample. -/
theorem encapsulate_css : encapsulate css "foo-cmp" 1 childTag? = .ok out := by
  have hwrite : (scopingOf "foo-cmp" 1 childTag?).writeRules true rules = out := by decide
  rw [encapsulate, parse_css]
  exact congrArg Except.ok hwrite

theorem isIdentifier_childTag? (name tag : String) (h : childTag? name = some tag) :
    IsIdentifier tag.toList := by
  unfold childTag? at h
  split at h
  · obtain rfl := Option.some.inj h
    decide
  · cases h

end Sample

/-- The sample is a style sheet whose compounds are all read as they are meant. -/
theorem Sample.scopes_css :
    IsIdentifier "foo-cmp".toList ∧ ¬ (markOf 1).toList <:+: css.toList ∧
    (∀ c ∈ compoundsOf inner, IsCompound c ∧ isRegular c = true) ∧
    encapsulate css "foo-cmp" 1 childTag? = .ok out ∧
    ∃ rules sheet, parse css = .ok rules ∧
      sheet = (scopingOf "foo-cmp" 1 childTag?).scopeRules true rules ∧ out = Rule.sheetText sheet ∧
      ∀ confined r', Occurs sheet confined r' →
        ∃ r, Occurs rules confined r ∧ (scopingOf "foo-cmp" 1 childTag?).Scopes confined r r' := by
  have hhost : IsIdentifier "foo-cmp".toList := by decide
  have hunmarked : ¬ (markOf 1).toList <:+: css.toList := by decide
  refine ⟨hhost, hunmarked, by decide, encapsulate_css, ?_⟩
  exact encapsulate_scopes hhost isIdentifier_childTag? hunmarked encapsulate_css

namespace Escaping

/-- An attribute selector whose value has a closing bracket. -/
def selector : String := "[a=\"]\"]"

def css : String := selector ++ "\x7bx:y\x7d"

def result : String := "[a=\"][data-w-1]\"]"

theorem parse_css : parse css = .ok [.qualified selector ["x:y"]] := by
  have hstrip : stripComments css.toList = .ok css.toList := rfl
  have hrule : step ⟨css.toList, 0⟩ = .ok (some (.rule (.qualified selector ["x:y"])), ⟨[], 12⟩) :=
    rfl
  have hend : scanFrom ⟨[], 12⟩ = ⟨[], none, 12⟩ := by rw [scanFrom]; rfl
  rw [parse, hstrip]
  change parseRules css.toList = _
  rw [parseRules, scanFrom_of_step rfl hrule (by decide), hend]
  rfl

end Escaping

/-- An attribute selector whose value has a closing bracket gets the mark inside the value, and is
not confined. -/
theorem exists_escaping_selector :
    IsIdentifier "foo-cmp".toList ∧ ¬ (markOf 1).toList <:+: Escaping.css.toList ∧
    encapsulate Escaping.css "foo-cmp" 1 (fun _ => none) =
      .ok (Escaping.result ++ "\x7bx:y\x7d") ∧
    compounds Escaping.selector.toList = [Escaping.selector.toList] ∧
    compounds Escaping.result.toList = [Escaping.result.toList] ∧
    Place.top.after "[a=\"]".toList = .string (.inside '"') [']'] ∧
    ¬ (scopingOf "foo-cmp" 1 fun _ => none).Confines Escaping.selector.toList
      Escaping.result.toList := by
  have hs : (scopingOf "foo-cmp" 1 fun _ => none).IsPlain :=
    ⟨isMark_markOf 1, by decide, nofun⟩
  have hresult : Escaping.result.toList =
      (scopingOf "foo-cmp" 1 fun _ => none).compound Escaping.selector.toList := by decide
  have hwrite : (scopingOf "foo-cmp" 1 fun _ => none).writeRules true
      [.qualified Escaping.selector ["x:y"]] = Escaping.result ++ "\x7bx:y\x7d" := by decide
  refine ⟨hs.host, by decide, ?_, by decide, by decide, by decide, ?_⟩
  · rw [encapsulate, Escaping.parse_css]
    exact congrArg Except.ok hwrite
  · rw [hresult, Scoping.confines_compound_iff hs (by decide) (by decide)]
    decide

end ViewCompiler.Style
