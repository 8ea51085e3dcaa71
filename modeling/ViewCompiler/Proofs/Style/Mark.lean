import Mathlib.Data.List.Infix
import ViewCompiler.Proofs.Outcome
import ViewCompiler.Proofs.Style.Reading
import ViewCompiler.Proofs.Text.Digits
import ViewCompiler.Proofs.Text.Pieces
import ViewCompiler.Style.Scoped

/-!
# Where a mark can come from

A mark is an attribute selector that names an attribute and nothing else, such as scoping adds to
every compound. A text that has it in one place has it there only, and what is read from a style
sheet (its selectors, conditions and declarations) has it only if the style sheet has it: blanks and
comments are dropped where no mark can close up, and texts are put together with characters that no
mark has.

A mark starts with a bracket and ends with one, and has none in between, so two occurrences never
overlap, and a mark that lies across the border of two texts shows in both of them
(`infix_of_infix_append`). It has no blank either. That is what makes it safe to collapse blanks and
to strip comments, each of which leaves a blank: a mark in what is left stood in one piece before
(`infix_of_infix_collapse`, `infix_of_infix_stripFrom`).

Style sheets without the mark are the ones that scoping is stated for, since a mark that was there
before cannot be told from one that scoping added. That it stays absent until scoping adds it is
needed of every text that a reader takes from the style sheet; `Style/Origin` follows the readers
with these lemmas.
-/

namespace ViewCompiler.Style

open ViewCompiler.Text

/-- An attribute selector without a value. -/
def IsMark (m : List Char) : Prop :=
  ∃ name, m = '[' :: name ++ [']'] ∧ ∀ c ∈ name, isNameChar c = true

/-- The attribute selector that scoping adds to the compounds of the component with the given
number. -/
def markOf (id : Int) : String := s!"[{attributeName id}]"

theorem isMark_markOf (id : Int) : IsMark (markOf id).toList := by
  refine ⟨(attributeName id).toList, ?_, fun c hc => ?_⟩
  · have hmark : markOf id = "[" ++ attributeName id ++ "]" := rfl
    rw [hmark, String.toList_append, String.toList_append]
    rfl
  · have hname : attributeName id = "data-w-" ++ toString id := rfl
    have hdigit : ∀ d, d.isDigit = true → isNameChar d = true := by
      intro d hd
      simp [isNameChar, Char.isAlphanum, hd]
    rw [hname, String.toList_append, toList_toString, List.mem_append, List.mem_append] at hc
    rcases hc with hc | hc | hc
    · have hprefix : "data-w-".toList.all isNameChar = true := by decide
      exact List.all_eq_true.1 hprefix c hc
    · split at hc
      · rw [List.mem_singleton.1 hc]
        rfl
      · cases hc
    · exact hdigit c (isDigit_of_mem_digits hc)

namespace IsMark

variable {m : List Char} (hm : IsMark m)
include hm

theorem ne_nil : m ≠ [] := by
  obtain ⟨name, rfl, -⟩ := hm
  exact List.cons_ne_nil _ _

theorem notMem {c : Char} (hname : isNameChar c = false) (hopen : c ≠ '[') (hclose : c ≠ ']') :
    c ∉ m := by
  obtain ⟨name, rfl, hchars⟩ := hm
  intro hc
  rw [List.cons_append, List.mem_cons, List.mem_append, List.mem_singleton] at hc
  rcases hc with hc | hc | hc
  · exact hopen hc
  · rw [hchars c hc] at hname
    cases hname
  · exact hclose hc

theorem isClosed : IsClosed m := by
  obtain ⟨name, rfl, hchars⟩ := hm
  have hname : (Place.code [']']).after name = .code [']'] := Place.after_of_isNameChar _ hchars
  refine ⟨?_, ?_⟩
  · have hwhole : Place.top.isWhole (['['] ++ (name ++ [']'])) = true := by
      rw [Place.isWhole_append, Place.isWhole_append, Place.isWhole_of_isNameChar _ hchars]
      change (true && (true && ((Place.code [']']).after name).isWhole [']'])) = true
      rw [hname]
      decide
    exact hwhole
  · have hafter : (Place.code [']']).after (name ++ [']']) = .top := by
      rw [Place.after_append, hname]
      decide
    exact hafter

/-- A mark that ends within a text and goes on behind it has started in it. -/
theorem eq_nil_or_isPrefix {k x y : List Char} (h : m ++ x = k ++ (m ++ y)) : k = [] ∨ m <+: k := by
  obtain ⟨name, rfl, hchars⟩ := hm
  rcases List.append_eq_append_iff.1 h with ⟨rest, hk, -⟩ | ⟨rest, hm', hrest⟩
  · exact .inr ⟨rest, hk.symm⟩
  · cases k with
    | nil => exact .inl rfl
    | cons c k =>
      -- the part of the mark behind `k` would have to start with a bracket
      have hname : name ++ [']'] = k ++ rest := (List.cons.inj hm').2
      cases rest with
      | nil => exact .inr ⟨[], by rw [List.append_nil] at hm' ⊢; exact hm'⟩
      | cons d rest =>
        obtain ⟨rfl, -⟩ := List.cons.inj hrest
        have hmem : '[' ∈ name ++ [']'] := by
          rw [hname]
          exact List.mem_append_right _ List.mem_cons_self
        rcases List.mem_append.1 hmem with hmem | hmem
        · exact absurd (hchars _ hmem) (by decide)
        · exact absurd (List.mem_singleton.1 hmem) (by decide)

/-- A text that has the mark between two texts without it has it nowhere else. -/
theorem eq_of_append_eq {before rest b a : List Char} (hbefore : ¬ m <:+: before)
    (hrest : ¬ m <:+: rest) (h : before ++ m ++ rest = b ++ m ++ a) : b = before := by
  rw [List.append_assoc, List.append_assoc] at h
  rcases List.append_eq_append_iff.1 h with ⟨k, rfl, hk⟩ | ⟨k, rfl, hk⟩
  · rcases hm.eq_nil_or_isPrefix hk with rfl | ⟨k', rfl⟩
    · rw [List.append_nil]
    · rw [List.append_assoc] at hk
      have hin : rest = k' ++ m ++ a := by
        rw [List.append_cancel_left hk, List.append_assoc]
      exact absurd ⟨k', a, hin.symm⟩ hrest
  · rcases hm.eq_nil_or_isPrefix hk with rfl | ⟨k', rfl⟩
    · rw [List.append_nil]
    · exact absurd ⟨b, k', by rw [List.append_assoc]⟩ hbefore

/-- A mark in a text that is put together from two with a character between them that it does not
have is in one of the two. -/
theorem infix_of_infix_append_cons {c : Char} (hc : c ∉ m) {a b : List Char}
    (h : m <:+: a ++ c :: b) : m <:+: a ∨ m <:+: b := by
  rcases List.infix_append_iff.1 h with h | h | ⟨l₁, l₂, rfl, h₁, h₂⟩
  · exact .inl h
  · rcases List.infix_cons_iff.1 h with h | h
    · rcases List.prefix_cons_iff.1 h with h | ⟨t, rfl, -⟩
      · exact absurd h hm.ne_nil
      · exact absurd List.mem_cons_self hc
    · exact .inr h
  · rcases List.prefix_cons_iff.1 h₂ with rfl | ⟨t, rfl, -⟩
    · rw [List.append_nil]
      exact .inl h₁.isInfix
    · exact absurd (List.mem_append_right _ List.mem_cons_self) hc

/-- The bracket that closes a mark closes nothing in what follows its beginning. -/
theorem not_isClosed_of_append_eq {c d : Char} {k l : List Char} (h : m = c :: k ++ d :: l)
    (rest : List Char) : ¬ IsClosed (d :: l ++ rest) := by
  obtain ⟨name, rfl, hchars⟩ := hm
  have hname : name ++ [']'] = k ++ d :: l := (List.cons.inj h).2
  obtain ⟨inner, hinner, hl⟩ :
      ∃ inner, (∀ c ∈ inner, isNameChar c = true) ∧ d :: l = inner ++ [']'] := by
    rcases List.append_eq_append_iff.1 hname with ⟨inner, -, hl⟩ | ⟨inner, rfl, hl⟩
    · cases inner with
      | nil => exact ⟨[], nofun, hl.symm⟩
      | cons e inner => exact absurd (congrArg List.length hl) (by simp)
    · exact ⟨inner, fun c hc => hchars c (List.mem_append_right _ hc), hl⟩
  rw [hl, List.append_assoc]
  rintro ⟨-, hafter⟩
  have hbroken : Place.top.after (inner ++ ([']'] ++ rest)) = .broken := by
    rw [Place.after_append, Place.top, Place.after_of_isNameChar [] hinner, Place.after_append]
    exact Place.after_broken rest
  rw [hbroken] at hafter
  cases hafter

/-- A mark starts with its bracket. -/
theorem infix_of_infix_append {a b : List Char} (ha : '[' ∉ a) (h : m <:+: a ++ b) : m <:+: b := by
  have hopen : '[' ∈ m := by
    obtain ⟨name, rfl, -⟩ := hm
    exact List.mem_cons_self
  rcases List.infix_append_iff.1 h with h | h | ⟨l₁, l₂, hsplit, h₁, h₂⟩
  · exact absurd (h.subset hopen) ha
  · exact h
  · cases l₁ with
    | nil =>
      rw [List.nil_append] at hsplit
      rw [hsplit]
      exact h₂.isInfix
    | cons c l₁ =>
      obtain ⟨name, hmark, -⟩ := hm
      obtain ⟨rfl, -⟩ := List.cons.inj (hmark.symm.trans hsplit)
      exact absurd (h₁.subset List.mem_cons_self) ha

/-- A mark in joined text stands in one of the pieces. -/
theorem infix_of_infix_join {sep : Char} (hsep : sep ∉ m) {ss : List String}
    (h : m <:+: (join (String.singleton sep) ss).toList) : ∃ s ∈ ss, m <:+: s.toList := by
  induction ss with
  | nil => exact absurd (List.infix_nil.1 h) hm.ne_nil
  | cons s ss ih =>
    by_cases hnil : ss = []
    · subst hnil
      exact ⟨s, List.mem_cons_self, h⟩
    · rw [join_cons _ _ hnil, String.toList_append, String.toList_append, String.toList_singleton,
        List.append_assoc, List.singleton_append] at h
      rcases hm.infix_of_infix_append_cons hsep h with h | h
      · exact ⟨s, List.mem_cons_self, h⟩
      · obtain ⟨t, ht, h⟩ := ih h
        exact ⟨t, List.mem_cons_of_mem _ ht, h⟩

end IsMark

/-! ### Blanks and comments

A text without a space closes up nowhere: where something is dropped between two characters, a space
comes to stand. -/

section Dropping

variable {w : List Char} (hw : ' ' ∉ w)
include hw

private theorem eq_nil_of_prefix_collapseFrom {cs : List Char}
    (h : w <+: collapseFrom .outside true true cs) : w = [] := by
  induction cs with
  | nil => exact List.prefix_nil.1 h
  | cons c cs ih =>
    rw [collapseFrom] at h
    split at h
    · exact ih h
    · rcases List.prefix_cons_iff.1 h with rfl | ⟨t, rfl, -⟩
      · rfl
      · exact absurd List.mem_cons_self hw

private theorem prefix_of_prefix_collapseFrom {quoting : Quoting} {cs : List Char}
    (h : w <+: collapseFrom quoting false true cs) : w <+: cs := by
  induction cs generalizing w quoting with
  | nil => exact h
  | cons c cs ih =>
    rw [collapseFrom] at h
    split at h
    · rw [eq_nil_of_prefix_collapseFrom hw h]
      exact List.nil_prefix
    · rcases List.prefix_cons_iff.1 h with rfl | ⟨t, rfl, ht⟩
      · exact List.nil_prefix
      · have htail : ' ' ∉ t := fun hmem => hw (List.mem_cons_of_mem _ hmem)
        exact (List.prefix_cons_inj c).2 (ih htail ht)

private theorem infix_of_infix_collapseFrom (hne : w ≠ []) {quoting : Quoting}
    {pending written : Bool}
    {cs : List Char} (h : w <:+: collapseFrom quoting pending written cs) : w <:+: cs := by
  induction cs generalizing quoting pending written with
  | nil => exact h
  | cons c cs ih =>
    have hkept : ∀ {q}, w <:+: c :: collapseFrom q false true cs → w <:+: c :: cs := by
      intro q h
      rcases List.infix_cons_iff.1 h with h | h
      · rcases List.prefix_cons_iff.1 h with rfl | ⟨t, rfl, ht⟩
        · exact absurd rfl hne
        · have htail : ' ' ∉ t := fun hmem => hw (List.mem_cons_of_mem _ hmem)
          have hprefix : t <+: cs := prefix_of_prefix_collapseFrom htail ht
          exact ((List.prefix_cons_inj c).2 hprefix).isInfix
      · exact (ih h).trans (List.suffix_cons c cs).isInfix
    rw [collapseFrom] at h
    split at h
    · exact (ih h).trans (List.suffix_cons c cs).isInfix
    · simp only at h
      split at h
      · rcases List.infix_cons_iff.1 h with h | h
        · rcases List.prefix_cons_iff.1 h with rfl | ⟨t, rfl, -⟩
          · exact absurd rfl hne
          · exact absurd List.mem_cons_self hw
        · exact hkept h
      · exact hkept h

/-- A text without blanks that stands in collapsed text stood there before. -/
theorem infix_of_infix_collapse (hne : w ≠ []) {cs : List Char} (h : w <:+: (collapse cs).toList) :
    w <:+: cs := by
  rw [collapse, String.toList_ofList] at h
  exact infix_of_infix_collapseFrom hw hne h

theorem prefix_of_prefix_stripFrom {quoting : Quoting} {offset : Nat} {cs out : List Char}
    (h : stripFrom (.code quoting) offset cs = .ok out) (hout : w <+: out) : w <+: cs := by
  induction cs generalizing w quoting offset out with
  | nil =>
    obtain rfl := Except.ok.inj h
    exact hout
  | cons c cs ih =>
    rw [stripFrom] at h
    split at h
    all_goals
      obtain ⟨out', hrest, rfl⟩ := map_eq_ok_iff.1 h
      rcases List.prefix_cons_iff.1 hout with rfl | ⟨t, rfl, ht⟩
      · exact List.nil_prefix
    · exact absurd List.mem_cons_self hw
    · have htail : ' ' ∉ t := fun hmem => hw (List.mem_cons_of_mem _ hmem)
      exact (List.prefix_cons_inj c).2 (ih htail hrest ht)

/-- A text that stands between comments stood there before they were stripped. -/
theorem infix_of_infix_stripFrom (hne : w ≠ []) {scan : CommentScan} {offset : Nat}
    {cs out : List Char} (h : stripFrom scan offset cs = .ok out) (hout : w <:+: out) :
    w <:+: cs := by
  induction cs generalizing scan offset out with
  | nil =>
    cases scan with
    | code quoting =>
      obtain rfl := Except.ok.inj h
      exact hout
    | opening start => cases h
    | comment start star => cases h
  | cons c cs ih =>
    have hbehind : ∀ {scan offset}, stripFrom scan offset cs = .ok out → w <:+: c :: cs :=
      fun h => (ih h hout).trans (List.suffix_cons c cs).isInfix
    cases scan with
    | opening start => exact hbehind h
    | comment start star =>
      rw [stripFrom] at h
      split at h <;> exact hbehind h
    | code quoting =>
      rw [stripFrom] at h
      split at h
      all_goals
        obtain ⟨out', hrest, rfl⟩ := map_eq_ok_iff.1 h
        rcases List.infix_cons_iff.1 hout with hout | hout
        swap
        · exact (ih hrest hout).trans (List.suffix_cons c cs).isInfix
        rcases List.prefix_cons_iff.1 hout with rfl | ⟨t, rfl, ht⟩
        · exact absurd rfl hne
      · -- A blank stands where a comment was, and the word has none.
        exact absurd List.mem_cons_self hw
      · have htail : ' ' ∉ t := fun hmem => hw (List.mem_cons_of_mem _ hmem)
        exact ((List.prefix_cons_inj c).2 (prefix_of_prefix_stripFrom htail hrest ht)).isInfix

end Dropping

end ViewCompiler.Style
