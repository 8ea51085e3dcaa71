import ViewCompiler.Proofs.Style.Mark

/-!
# Confining one compound

What it means that a compound selector is confined (`Scoping.Confines`), and for which compounds
scoping achieves it (`Scoping.confines_compound_iff`). Scoping ends the first simple selector of a
compound by scans of its own, which know neither strings nor escapes: an attribute selector ends at
the first closing bracket, a name at the first character that is none of a name, and an argument of
`:host` at the first parenthesis that no other one has opened. A compound is confined exactly when
these ends are the right ones (`isRegular`).

What this asks of a compound is said of its text: an argument of `:host`, say, ends where counting
parentheses has it end (`IsToldByCount`), which it does if its own parentheses balance, wherever
they stand (`isToldByCount_of_balancesByCount`).

A compound is confined if what was written for it is the same compound with the mark behind its
first simple selector, where that is determined by `firstSimple`, a reader of selectors that knows
strings, escapes and nested brackets; in a `:host` compound the name of the component has to stand
for the whole of `:host` and its argument. So both directions of the equivalence are shown for each
way in which a compound can start. In one direction the two cuts are at the same place. In the other
they are not, and then the mark stands elsewhere: the mark is not part of the compound, so a text
has it in one place only (`IsMark`).

Compounds are taken apart here one at a time. How a selector list falls into compounds is the
business of `Style/SelectorList`.
-/

namespace ViewCompiler.Style

open ViewCompiler.Text

/-- Whether a text is a plain identifier, as tags are. -/
def IsIdentifier (cs : List Char) : Prop := cs ≠ [] ∧ ∀ c ∈ cs, isNameChar c = true

instance (cs : List Char) : Decidable (IsIdentifier cs) :=
  decidable_of_iff (cs ≠ [] ∧ cs.all isNameChar = true) (and_congr_right' List.all_eq_true)

/-- Whether the parentheses of a text balance, counted wherever they stand, in strings and behind
backslashes, too: at no place more of them have been closed than opened, and in the end as many. -/
def BalancesByCount (cs : List Char) : Prop :=
  (∀ before ∈ cs.inits, before.count ')' ≤ before.count '(') ∧ cs.count ')' = cs.count '('

instance (cs : List Char) : Decidable (BalancesByCount cs) := inferInstanceAs (Decidable (_ ∧ _))

/-- Whether counting parentheses tells where the argument of `:host` ends: before some parenthesis
that closes they balance, and what is meant is left when the outer two are taken away. -/
def IsToldByCount (rest : List Char) : Prop :=
  match rest with
  | '(' :: cs => ∃ n < cs.length, cs[n]? = some ')' ∧ BalancesByCount (cs.take n) ∧
      trimBlank (cs.take n) ++ cs.drop (n + 1) = hostTail rest
  | _ => True

instance (rest : List Char) : Decidable (IsToldByCount rest) := by
  unfold IsToldByCount
  split <;> infer_instance

/-- Whether scoping reads a compound as it is meant: the argument of `:host` is told by counting and
goes on as a compound after a tag, an attribute selector that comes first has no other closing
bracket, a name that comes first has neither escapes nor a name space, and nothing else comes first
that is not all of the compound. -/
def isRegular (c : List Char) : Bool :=
  match Scoping.hostRest? c with
  | some rest =>
    IsToldByCount rest && continuesCompound (hostTail rest) && IsClosed (hostTail rest)
  | none =>
    match c with
    | '*' :: _ | ':' :: _ => true
    | '[' :: _ => ']' ∉ (firstSimple c).1.dropLast
    | first :: _ =>
      if first = '.' || first = '#' || isNameChar first then
        '\\' ∉ (firstSimple c).1 && '|' ∉ (firstSimple c).1
      else (firstSimple c).2 = []
    | [] => true

namespace Scoping

variable (s : Scoping)

/-- Where the mark goes in a compound that does not start with `:host`: in the place of a leading
`*` or before it, before a leading pseudo selector, and else right after the first simple selector,
which may name another component. -/
def Marks (c before after : List Char) : Prop :=
  match c with
  | '*' :: rest => before = [] ∧ (after = rest ∨ after = c)
  | ':' :: _ => before = [] ∧ after = c
  | _ => before = s.typeName (firstSimple c).1 ∧ after = (firstSimple c).2

/-- Whether `c'` is the compound `c`, confined. Either `c` starts with `:host`, and `c'` is the tag
of the component with what follows, and without the mark; or `c'` has the mark once, where nothing
is open, in the place where it belongs. -/
inductive Confines (c c' : List Char) : Prop
  | host {rest : List Char} (hhost : hostRest? c = some rest)
      (htext : c' = s.host.toList ++ hostTail rest)
      (hcontinues : continuesCompound (hostTail rest) = true) (hcompound : IsCompound c')
      (hunmarked : ¬ s.mark.toList <:+: c')
  | marked {before after : List Char} (hhost : hostRest? c = none)
      (htext : c' = before ++ s.mark.toList ++ after) (hmarks : s.Marks c before after)
      (hcompound : IsCompound c') (hopen : Place.top.after before = .top)
      (honce : ∀ b a, c' = b ++ s.mark.toList ++ a → b = before)

end Scoping

/-- What a scoping is made for: a mark, and tags that are plain identifiers. -/
structure Scoping.IsPlain (s : Scoping) : Prop where
  mark : IsMark s.mark.toList
  host : IsIdentifier s.host.toList
  child {name tag : String} : s.childTag? name = some tag → IsIdentifier tag.toList

namespace Scoping

variable {s : Scoping}

/-! ### Names -/

/-- A name stands for itself, or for the tag of a component. -/
theorem typeName_eq_or (hs : s.IsPlain) (name : List Char) :
    s.typeName name = name ∨ name ≠ [] ∧ IsIdentifier (s.typeName name) := by
  unfold typeName
  split
  · rename_i hupper
    cases htag : s.childTag? (String.ofList name) with
    | none => exact .inl rfl
    | some tag =>
      refine .inr ⟨?_, hs.child htag⟩
      rintro rfl
      cases hupper
  · exact .inl rfl

private theorem typeName_of_not_isNameChar {c : Char} (h : isNameChar c = false) (cs : List Char) :
    s.typeName (c :: cs) = c :: cs := by
  have hupper : isUpper c = false := by
    by_contra hne
    rw [isNameChar_of_isUpper (eq_true_of_ne_false hne)] at h
    cases h
  rw [typeName, List.head?_cons, Option.any_some, hupper, if_neg Bool.false_ne_true]

private theorem isClosed_typeName (hs : s.IsPlain) {name : List Char} (h : IsClosed name) :
    IsClosed (s.typeName name) := by
  rcases typeName_eq_or hs name with heq | ⟨-, -, htag⟩
  · rwa [heq]
  · exact isClosed_of_isNameChar htag

private theorem unmarked_typeName (hs : s.IsPlain) {name : List Char}
    (h : ¬ s.mark.toList <:+: name) :
    ¬ s.mark.toList <:+: s.typeName name := by
  rcases typeName_eq_or hs name with heq | ⟨-, -, htag⟩
  · rwa [heq]
  · intro hmark
    rw [← List.append_nil (s.typeName name)] at hmark
    have hopen : '[' ∉ s.typeName name := fun hmem => absurd (htag _ hmem) (by decide)
    exact hs.mark.ne_nil (List.infix_nil.1 (hs.mark.infix_of_infix_append hopen hmark))

/-! ### Compounds with the mark -/

/-- A mark between two closed texts confines a compound. -/
theorem Confines.of_isClosed (hs : s.IsPlain) {c before after : List Char}
    (hhost : hostRest? c = none)
    (hmarks : s.Marks c before after) (hbefore : IsClosed before) (hafter : IsClosed after)
    (hunmarked : ¬ s.mark.toList <:+: before) (hunmarked' : ¬ s.mark.toList <:+: after) :
    s.Confines c (s.markAfter before after) := by
  have hne : s.markAfter before after ≠ [] := by
    intro hnil
    obtain ⟨hnil, -⟩ := List.append_eq_nil_iff.1 hnil
    exact hs.mark.ne_nil (List.append_eq_nil_iff.1 hnil).2
  exact .marked hhost rfl hmarks ⟨hne, (hbefore.append hs.mark.isClosed).append hafter⟩ hbefore.2
    fun b a h => hs.mark.eq_of_append_eq hunmarked hunmarked' h

/-- A compound that scoping cuts in two, with the mark between, is confined exactly when the cut is
behind the first simple selector. -/
theorem confines_markAfter_iff (hs : s.IsPlain) {c head tail : List Char} (hc : IsCompound c)
    (hunmarked : ¬ s.mark.toList <:+: c) (hhost : hostRest? c = none) (hcut : head ++ tail = c)
    (hmarks : ∀ before after, s.Marks c before after ↔
      before = s.typeName (firstSimple c).1 ∧ after = (firstSimple c).2)
    (hopen : (firstSimple c).2 = tail → Place.top.after head = .top) :
    s.Confines c (s.markAfter (s.typeName head) tail) ↔ (firstSimple c).2 = tail := by
  have hhead : ¬ s.mark.toList <:+: s.typeName head :=
    unmarked_typeName hs fun h => hunmarked (hcut ▸ h.trans (List.prefix_append head tail).isInfix)
  have htail : ¬ s.mark.toList <:+: tail :=
    fun h => hunmarked (hcut ▸ h.trans (List.suffix_append head tail).isInfix)
  constructor
  · intro h
    cases h with
    | host hhost' => rw [hhost] at hhost'; cases hhost'
    | @marked before after _ htext hmarked _ _ honce =>
      obtain rfl := honce (s.typeName head) tail rfl
      have hafter : tail = after := List.append_cancel_left htext
      rw [hafter]
      exact ((hmarks _ _).1 hmarked).2.symm
  · intro h
    have hfirst : (firstSimple c).1 = head := by
      have happend := firstSimple_append c
      rw [h] at happend
      exact List.append_cancel_right (happend.trans hcut.symm)
    obtain ⟨hclosed, hclosed'⟩ := IsClosed.of_append (hcut.symm ▸ hc.2) (hopen h)
    exact .of_isClosed hs hhost ((hmarks _ _).2 ⟨by rw [hfirst], h.symm⟩)
      (isClosed_typeName hs hclosed) hclosed' hhead htail

/-! ### Where scoping cuts -/

private theorem confines_attribute_iff (hs : s.IsPlain) {cs : List Char}
    (hc : IsCompound ('[' :: cs)) (hunmarked : ¬ s.mark.toList <:+: '[' :: cs) :
    s.Confines ('[' :: cs) (s.compound ('[' :: cs)) ↔
      ']' ∉ (firstSimple ('[' :: cs)).1.dropLast := by
  have hhost : hostRest? ('[' :: cs) = none := rfl
  -- the first simple selector ends with the bracket that closes the first one
  obtain ⟨inner, htaken, hafter⟩ : ∃ inner,
      (firstSimple ('[' :: cs)).1 = '[' :: inner ++ [']'] ∧
        Place.top.after ('[' :: inner ++ [']']) = .top := by
    have hwithin : (Place.code [']']).IsWithin ']' := rfl
    have hclosed : (Place.code [']']).after cs = .top := hc.2.2
    obtain ⟨inner, htaken, hafter⟩ := Place.takeClosed_spec hwithin hclosed
    exact ⟨inner, congrArg ('[' :: ·) htaken, hafter⟩
  have happend := firstSimple_append ('[' :: cs)
  rw [htaken, List.append_assoc, List.singleton_append] at happend
  rw [htaken, List.dropLast_concat]
  have hmem : ']' ∈ '[' :: cs := by
    rw [← happend]
    exact List.mem_append_right _ List.mem_cons_self
  obtain ⟨before, after, hsplit, hbefore⟩ := List.eq_append_cons_of_mem hmem
  have hcut : cut? [']'] ('[' :: cs) = some (before, after) := by
    rw [hsplit, cut?_append hbefore]
  obtain ⟨before, rfl⟩ : ∃ rest, before = '[' :: rest := by
    cases before with
    | nil => cases hsplit
    | cons d rest => exact ⟨rest, by rw [(List.cons.inj hsplit).1]⟩
  have htext : s.compound ('[' :: cs) =
      s.markAfter (s.typeName ('[' :: before ++ [']'])) after := by
    rw [List.cons_append, typeName_of_not_isNameChar rfl]
    simp only [compound, hhost, hcut]
    rfl
  have hsame : (firstSimple ('[' :: cs)).2 = after → '[' :: inner = '[' :: before := by
    rintro rfl
    exact List.append_cancel_right (happend.trans hsplit)
  have hfirst : (firstSimple ('[' :: cs)).2 = after ↔ ']' ∉ '[' :: inner := by
    refine ⟨fun h => by rwa [hsame h], fun hinner => ?_⟩
    have hcut' := cut?_append hinner (firstSimple ('[' :: cs)).2
    rw [happend, hcut, Option.some.injEq, Prod.mk.injEq] at hcut'
    exact hcut'.2.symm
  rw [htext, confines_markAfter_iff hs hc hunmarked hhost
    (by rw [List.append_assoc, List.singleton_append, hsplit]) (fun _ _ => Iff.rfl)
    (fun h => by rwa [← hsame h]), hfirst]

/-- A compound that starts with none of the characters that scoping looks for first. -/
theorem compound_cons {first : Char} {cs : List Char} (hhost : hostRest? (first :: cs) = none)
    (hstar : first ≠ '*') (hcolon : first ≠ ':') (hbracket : first ≠ '[') :
    s.compound (first :: cs) =
      if first = '.' || first = '#' then
        s.markAfter (first :: cs.takeWhile isNameChar) (cs.dropWhile isNameChar)
      else if isNameChar first then
        s.markAfter (s.typeName ((first :: cs).takeWhile isNameChar))
          ((first :: cs).dropWhile isNameChar)
      else s.markAfter (first :: cs) [] := by
  unfold compound
  rw [hhost]
  simp only

/-- A sign with a name behind it, as of classes. -/
theorem confines_sign_iff (hs : s.IsPlain) {sign : Char} (hsign : sign = '.' ∨ sign = '#')
    {cs : List Char} (hc : IsCompound (sign :: cs)) (hunmarked : ¬ s.mark.toList <:+: sign :: cs) :
    s.Confines (sign :: cs) (s.compound (sign :: cs)) ↔
      '\\' ∉ (firstSimple (sign :: cs)).1 ∧ '|' ∉ (firstSimple (sign :: cs)).1 := by
  have hhost : hostRest? (sign :: cs) = none := by rcases hsign with rfl | rfl <;> rfl
  have hname : isNameChar sign = false := by rcases hsign with rfl | rfl <;> rfl
  have hfirst : firstSimple (sign :: cs) =
      (sign :: (Place.top.takeName false cs).1, (Place.top.takeName false cs).2) := by
    rcases hsign with rfl | rfl <;> rfl
  have htext : s.compound (sign :: cs) =
      s.markAfter (s.typeName (sign :: cs.takeWhile isNameChar)) (cs.dropWhile isNameChar) := by
    rw [typeName_of_not_isNameChar hname]
    rcases hsign with rfl | rfl <;> rfl
  have hmarks : ∀ before after, s.Marks (sign :: cs) before after ↔
      before = s.typeName (firstSimple (sign :: cs)).1 ∧ after = (firstSimple (sign :: cs)).2 := by
    rcases hsign with rfl | rfl <;> exact fun _ _ => Iff.rfl
  have hopen : Place.top.after (sign :: cs.takeWhile isNameChar) = .top := by
    have hrun : Place.top.after (cs.takeWhile isNameChar) = .top :=
      Place.after_of_isNameChar [] fun c h => List.all_eq_true.1 List.all_takeWhile c h
    rcases hsign with rfl | rfl <;> exact hrun
  have hbackslash : '\\' ≠ sign := by rcases hsign with rfl | rfl <;> decide
  have hbar : '|' ≠ sign := by rcases hsign with rfl | rfl <;> decide
  rw [htext, confines_markAfter_iff hs hc hunmarked hhost
    (by rw [List.cons_append, List.takeWhile_append_dropWhile]) hmarks fun _ => hopen, hfirst]
  simp only [List.mem_cons, hbackslash, hbar, false_or]
  exact Place.takeName_eq_iff false [] cs

/-- A name that comes first, as of types. -/
theorem confines_name_iff (hs : s.IsPlain) {first : Char} (hname : isNameChar first = true)
    {cs : List Char} (hc : IsCompound (first :: cs))
    (hunmarked : ¬ s.mark.toList <:+: first :: cs) :
    s.Confines (first :: cs) (s.compound (first :: cs)) ↔
      '\\' ∉ (firstSimple (first :: cs)).1 ∧ '|' ∉ (firstSimple (first :: cs)).1 := by
  have hne : ∀ d, isNameChar d = false → first ≠ d := fun d => ne_of_class hname
  have hhost : hostRest? (first :: cs) = none := by
    have hcolon : (':' = first) = False := by simp [(hne ':' rfl).symm]
    simp [hostRest?, dropPrefix?, hcolon]
  have hfirst : firstSimple (first :: cs) = Place.top.takeName true (first :: cs) := by
    rw [firstSimple]
    · rw [hname, Bool.true_or, if_pos rfl]
    · exact hne '[' rfl
  have htext : s.compound (first :: cs) = s.markAfter
      (s.typeName ((first :: cs).takeWhile isNameChar)) ((first :: cs).dropWhile isNameChar) := by
    have hsign : (first = '.' || first = '#') = false := by simp [hne '.' rfl, hne '#' rfl]
    rw [compound_cons hhost (hne '*' rfl) (hne ':' rfl) (hne '[' rfl), hsign,
      if_neg Bool.false_ne_true, if_pos hname]
  have hmarks : ∀ before after, s.Marks (first :: cs) before after ↔
      before = s.typeName (firstSimple (first :: cs)).1 ∧
        after = (firstSimple (first :: cs)).2 := by
    intro before after
    rw [Marks]
    · exact fun _ h => absurd (List.cons.inj h).1 (hne '*' rfl)
    · exact fun _ h => absurd (List.cons.inj h).1 (hne ':' rfl)
  have hopen : Place.top.after ((first :: cs).takeWhile isNameChar) = .top :=
    Place.after_of_isNameChar [] fun c h => List.all_eq_true.1 List.all_takeWhile c h
  rw [htext, confines_markAfter_iff hs hc hunmarked hhost List.takeWhile_append_dropWhile hmarks
    fun _ => hopen, hfirst]
  exact Place.takeName_eq_iff true [] (first :: cs)

/-- Something else that comes first: the mark goes to the end. -/
theorem confines_other_iff (hs : s.IsPlain) {first : Char} {cs : List Char}
    (hhost : hostRest? (first :: cs) = none) (hstar : first ≠ '*') (hcolon : first ≠ ':')
    (hbracket : first ≠ '[') (hsign : (first = '.' || first = '#') = false)
    (hname : isNameChar first = false) (hc : IsCompound (first :: cs))
    (hunmarked : ¬ s.mark.toList <:+: first :: cs) :
    s.Confines (first :: cs) (s.compound (first :: cs)) ↔ (firstSimple (first :: cs)).2 = [] := by
  have htext : s.compound (first :: cs) = s.markAfter (s.typeName (first :: cs)) [] := by
    rw [compound_cons hhost hstar hcolon hbracket, hsign, hname,
      typeName_of_not_isNameChar hname, if_neg Bool.false_ne_true, if_neg Bool.false_ne_true]
  rw [htext]
  refine confines_markAfter_iff hs hc hunmarked hhost (List.append_nil _) (fun _ _ => ?_)
    fun _ => hc.2.2
  rw [Marks]
  · exact fun _ h => absurd (List.cons.inj h).1 hstar
  · exact fun _ h => absurd (List.cons.inj h).1 hcolon

/-- A leading `*` and a leading pseudo selector leave nothing to find. -/
private theorem confines_star (hs : s.IsPlain) {cs : List Char} (hc : IsCompound ('*' :: cs))
    (hunmarked : ¬ s.mark.toList <:+: '*' :: cs) :
    s.Confines ('*' :: cs) (s.compound ('*' :: cs)) := by
  have hclosed : IsClosed cs := (IsClosed.of_append (a := ['*']) hc.2 rfl).2
  have htail : ¬ s.mark.toList <:+: cs :=
    fun h => hunmarked (h.trans (List.suffix_cons '*' cs).isInfix)
  exact .of_isClosed hs rfl ⟨rfl, .inl rfl⟩ ⟨rfl, rfl⟩ hclosed
    (fun h => hs.mark.ne_nil (List.infix_nil.1 h)) htail

private theorem confines_pseudo (hs : s.IsPlain) {cs : List Char}
    (hhost : hostRest? (':' :: cs) = none)
    (hc : IsCompound (':' :: cs)) (hunmarked : ¬ s.mark.toList <:+: ':' :: cs) :
    s.Confines (':' :: cs) (s.compound (':' :: cs)) := by
  have htext : s.compound (':' :: cs) = s.markAfter [] (':' :: cs) := by simp [compound, hhost]
  rw [htext]
  exact .of_isClosed hs hhost ⟨rfl, rfl⟩ ⟨rfl, rfl⟩ hc.2
    (fun h => hs.mark.ne_nil (List.infix_nil.1 h)) hunmarked

/-! ### The component itself -/

theorem eq_of_hostRest?_eq_some {c rest : List Char} (h : hostRest? c = some rest) :
    c = ":host".toList ++ rest := by
  unfold hostRest? at h
  split at h
  · rename_i rest' hrest
    split at h
    · cases h
    · obtain rfl := Option.some.inj h
      exact dropPrefix?_eq_some_iff.1 hrest
  · cases h

/-- One more character in front of a text, counted from a depth or from the depth behind it. -/
theorem count_cons_iff {depth : Nat} {c : Char} (hc : ¬(c = ')' ∧ depth = 0)) (cs : List Char) :
    ((c :: cs).count ')' ≤ depth + (c :: cs).count '(' ↔
      cs.count ')' ≤ (if c = '(' then depth + 1 else if c = ')' then depth - 1 else depth) +
        cs.count '(') ∧
    ((c :: cs).count ')' = depth + (c :: cs).count '(' ↔
      cs.count ')' = (if c = '(' then depth + 1 else if c = ')' then depth - 1 else depth) +
        cs.count '(') := by
  by_cases hopen : c = '('
  · subst hopen
    simp
    omega
  · by_cases hclose : c = ')'
    · subst hclose
      have hdepth : depth ≠ 0 := fun h => hc ⟨rfl, h⟩
      simp
      omega
    · simp [hopen, hclose]

/-- The argument that is cut ends at the first parenthesis before which the others balance. -/
theorem cutBracket?_eq_some_iff {depth : Nat} {cs argument after : List Char} :
    cutBracket? depth cs = some (argument, after) ↔ cs = argument ++ ')' :: after ∧
      (∀ before, before <+: argument → before.count ')' ≤ depth + before.count '(') ∧
      argument.count ')' = depth + argument.count '(' := by
  induction cs generalizing depth argument with
  | nil => simp [cutBracket?]
  | cons c cs ih =>
    rw [cutBracket?]
    by_cases hhere : c = ')' ∧ depth = 0
    · obtain ⟨rfl, rfl⟩ := hhere
      rw [if_pos (show (decide (')' = ')') && 0 == 0) = true from rfl), Option.some.injEq,
        Prod.mk.injEq]
      constructor
      · rintro ⟨rfl, rfl⟩
        simp
      · rintro ⟨heq, hbefore, -⟩
        cases argument with
        | nil => exact ⟨rfl, (List.cons.inj heq).2⟩
        | cons d argument =>
          -- An argument that starts with the parenthesis has closed too many.
          obtain ⟨rfl, -⟩ := List.cons.inj heq
          exact absurd (hbefore [')'] ⟨argument, rfl⟩) (by decide)
    · rw [if_neg (by simpa using hhere)]
      simp only [Option.map_eq_some_iff, Prod.exists, Prod.mk.injEq]
      constructor
      · rintro ⟨inner, rest, hcut, rfl, rfl⟩
        obtain ⟨rfl, hbefore, hall⟩ := ih.1 hcut
        refine ⟨rfl, fun before hprefix => ?_, (count_cons_iff hhere inner).2.2 hall⟩
        rcases List.prefix_cons_iff.1 hprefix with rfl | ⟨inside, rfl, hinside⟩
        · exact Nat.zero_le _
        · exact (count_cons_iff hhere inside).1.2 (hbefore inside hinside)
      · rintro ⟨heq, hbefore, hall⟩
        cases argument with
        | nil =>
          obtain ⟨rfl, -⟩ := List.cons.inj heq
          exact absurd ⟨rfl, hall.symm⟩ hhere
        | cons d argument =>
          obtain ⟨rfl, rfl⟩ := List.cons.inj heq
          refine ⟨argument, after, ih.2 ⟨rfl, fun before hprefix => ?_,
            (count_cons_iff hhere argument).2.1 hall⟩, rfl, rfl⟩
          exact (count_cons_iff hhere before).1.1 (hbefore (c :: before)
            ((List.prefix_cons_inj c).2 hprefix))

/-- An argument is cut where its parentheses balance. -/
theorem cutBracket?_zero_iff {cs argument after : List Char} :
    cutBracket? 0 cs = some (argument, after) ↔
      cs = argument ++ ')' :: after ∧ BalancesByCount argument := by
  simp only [cutBracket?_eq_some_iff, BalancesByCount, List.mem_inits, Nat.zero_add]

/-- A parenthesis before which the others balance is where the argument is cut. -/
theorem cutBracket?_eq_take {cs : List Char} {n : Nat} (hget : cs[n]? = some ')')
    (h : BalancesByCount (cs.take n)) :
    cutBracket? 0 cs = some (cs.take n, cs.drop (n + 1)) := by
  refine cutBracket?_zero_iff.2 ⟨?_, h⟩
  obtain ⟨_, hget⟩ := List.getElem?_eq_some_iff.1 hget
  rw [← hget, List.getElem_cons_drop, List.take_append_drop]

/-- What is meant to follow `:host` is shorter than what follows it with an opening parenthesis. -/
private theorem length_hostTail_lt (cs : List Char) :
    (hostTail ('(' :: cs)).length < cs.length + 1 := by
  change (trimBlank ((Place.top.takeClosed ('(' :: cs)).1.drop 1).dropLast ++
    (Place.top.takeClosed ('(' :: cs)).2).length < _
  have happend := Place.takeClosed_append .top ('(' :: cs)
  have htaken : (Place.top.takeClosed ('(' :: cs)).1 ≠ [] := by
    rw [Place.takeClosed]
    split <;> exact List.cons_ne_nil _ _
  generalize Place.top.takeClosed ('(' :: cs) = split at *
  obtain ⟨taken, outside⟩ := split
  have hlength := congrArg List.length happend
  have hpositive := List.length_pos_iff.2 htaken
  have htrimmed := (infix_trimBlank (taken.drop 1).dropLast).length_le
  simp only [List.length_append, List.length_cons, List.length_dropLast, List.length_drop] at *
  omega

/-- Scoping leaves what is meant of an argument exactly if counting tells where it ends. -/
theorem hostArgument_eq_hostTail_iff {rest : List Char} :
    hostArgument rest = hostTail rest ↔ IsToldByCount rest := by
  unfold IsToldByCount
  split
  · rename_i cs
    simp only [hostArgument]
    cases hcut : cutBracket? 0 cs with
    | some found =>
      obtain ⟨argument, after⟩ := found
      constructor
      · intro h
        obtain ⟨rfl, hbalanced⟩ := cutBracket?_zero_iff.1 hcut
        exact ⟨argument.length, by simp, by simp, by simpa using hbalanced, by simpa using h⟩
      · rintro ⟨n, -, hget, hbalanced, h⟩
        rw [cutBracket?_eq_take hget hbalanced] at hcut
        obtain ⟨rfl, rfl⟩ := Prod.mk.inj (Option.some.inj hcut)
        exact h
    | none =>
      refine iff_of_false (fun h => ?_) ?_
      · have hlength := length_hostTail_lt cs
        rw [← h] at hlength
        exact absurd hlength (Nat.lt_irrefl _)
      · rintro ⟨n, -, hget, hbalanced, -⟩
        rw [cutBracket?_eq_take hget hbalanced] at hcut
        cases hcut
  · rename_i hopen
    refine iff_of_true ?_ trivial
    rw [hostArgument, hostTail]
    · exact hopen
    · exact hopen

/-- Counting tells where an argument ends whose own parentheses balance, wherever they stand. -/
theorem isToldByCount_of_balancesByCount {argument after : List Char}
    (htaken : Place.top.takeClosed ('(' :: (argument ++ ')' :: after)) =
      ('(' :: (argument ++ [')']), after))
    (h : BalancesByCount argument) : IsToldByCount ('(' :: (argument ++ ')' :: after)) := by
  refine hostArgument_eq_hostTail_iff.1 ?_
  have hcut : cutBracket? 0 (argument ++ ')' :: after) = some (argument, after) :=
    cutBracket?_zero_iff.2 ⟨rfl, h⟩
  simp only [hostArgument, hcut, hostTail, htaken, List.drop_succ_cons, List.drop_zero,
    List.dropLast_concat]

/-- The argument of `:host` and what follows it close up to no mark. -/
private theorem unmarked_hostTail {m rest : List Char} (hm : IsMark m) (hrest : IsClosed rest)
    (hunmarked : ¬ m <:+: rest) : ¬ m <:+: hostTail rest := by
  unfold hostTail
  split
  · rename_i inside
    -- The argument goes up to the bracket that closes it, because the text closes all it opens.
    obtain ⟨inner, htaken, hafter⟩ : ∃ inner,
        (Place.top.takeClosed ('(' :: inside)).1 = '(' :: inner ++ [')'] ∧
          Place.top.after ('(' :: inner ++ [')']) = .top := by
      have hwithin : (Place.code [')']).IsWithin ')' := rfl
      have hclosed : (Place.code [')']).after inside = .top := hrest.2
      obtain ⟨inner, htaken, hafter⟩ := Place.takeClosed_spec hwithin hclosed
      exact ⟨inner, congrArg ('(' :: ·) htaken, hafter⟩
    have happend := Place.takeClosed_append .top ('(' :: inside)
    rcases htake : Place.top.takeClosed ('(' :: inside) with ⟨taken, outside⟩
    rw [htake] at htaken happend
    obtain rfl : taken = _ := htaken
    rw [← happend] at hrest hunmarked
    have houtside : IsClosed outside := (IsClosed.of_append hrest hafter).2
    have hinner : ∀ {w}, w <:+: trimBlank inner → w <:+: '(' :: inner ++ [')'] ++ outside := by
      intro w hw
      have hparts : inner <:+: '(' :: inner ++ [')'] ++ outside :=
        ⟨['('], [')'] ++ outside, by simp⟩
      exact (hw.trans (infix_trimBlank inner)).trans hparts
    simp only [List.cons_append, List.drop_succ_cons, List.drop_zero, List.dropLast_concat]
    intro h
    -- A mark would lie in the argument, or behind it, or across its end.
    rcases List.infix_append_iff.1 h with h | h | ⟨l₁, l₂, hsplit, h₁, h₂⟩
    · exact hunmarked (hinner h)
    · exact hunmarked (h.trans (List.suffix_append _ _).isInfix)
    · cases l₁ with
      | nil => exact hunmarked (hsplit ▸ h₂.isInfix.trans (List.suffix_append _ _).isInfix)
      | cons c l₁ =>
        cases l₂ with
        | nil => exact hunmarked (hinner (by rw [hsplit, List.append_nil]; exact h₁.isInfix))
        | cons d l₂ =>
          obtain ⟨rest, rfl⟩ := h₂
          -- What is left of a mark is not closed, but what follows the argument is.
          exact hm.not_isClosed_of_append_eq hsplit rest houtside
  · exact hunmarked

private theorem confines_host_iff (hs : s.IsPlain) {c rest : List Char}
    (hhost : hostRest? c = some rest) (hc : IsCompound c) (hunmarked : ¬ s.mark.toList <:+: c) :
    s.Confines c (s.compound c) ↔
      IsToldByCount rest ∧ continuesCompound (hostTail rest) = true ∧
        IsClosed (hostTail rest) := by
  rw [← hostArgument_eq_hostTail_iff]
  have htext : s.compound c = s.host.toList ++ hostArgument rest := by simp only [compound, hhost]
  have htag : IsClosed s.host.toList := isClosed_of_isNameChar hs.host.2
  constructor
  · intro h
    cases h with
    | @host rest' hhost' htext' hcontinues hcompound _ =>
      obtain rfl : rest = rest' := Option.some.inj (hhost.symm.trans hhost')
      rw [htext'] at hcompound
      exact ⟨List.append_cancel_left (htext.symm.trans htext'), hcontinues,
        (hcompound.2.of_append htag.2).2⟩
    | marked hhost' => rw [hhost] at hhost'; cases hhost'
  · rintro ⟨hargument, hcontinues, hclosed⟩
    rw [hargument] at htext
    obtain rfl := eq_of_hostRest?_eq_some hhost
    have hrest : IsClosed rest := (hc.2.of_append rfl).2
    have hunmarked' : ¬ s.mark.toList <:+: hostTail rest :=
      unmarked_hostTail hs.mark hrest
        fun h => hunmarked (h.trans (List.suffix_append _ _).isInfix)
    have hopen : '[' ∉ s.host.toList := fun h => absurd (hs.host.2 _ h) (by decide)
    refine .host hhost htext hcontinues ⟨?_, ?_⟩ ?_
    · rw [htext]
      exact List.append_ne_nil_of_left_ne_nil hs.host.1 _
    · rw [htext]
      exact htag.append hclosed
    · rw [htext]
      exact fun h => hunmarked' (hs.mark.infix_of_infix_append hopen h)

/-- Scoping confines a compound that does not have the mark exactly when it reads it as it is
meant. -/
theorem confines_compound_iff (hs : s.IsPlain) {c : List Char} (hc : IsCompound c)
    (hunmarked : ¬ s.mark.toList <:+: c) : s.Confines c (s.compound c) ↔ isRegular c = true := by
  unfold isRegular
  split
  · rename_i rest hhost
    rw [Bool.and_eq_true, Bool.and_eq_true, decide_eq_true_eq, decide_eq_true_eq, and_assoc]
    exact confines_host_iff hs hhost hc hunmarked
  · rename_i hhost
    split
    · exact iff_of_true (confines_star hs hc hunmarked) rfl
    · exact iff_of_true (confines_pseudo hs hhost hc hunmarked) rfl
    · rw [decide_eq_true_eq]
      exact confines_attribute_iff hs hc hunmarked
    · rename_i first cs hstar hcolon hbracket
      split
      · rename_i hfirst
        rw [Bool.or_eq_true, Bool.or_eq_true, decide_eq_true_eq, decide_eq_true_eq] at hfirst
        rw [Bool.and_eq_true, decide_eq_true_eq, decide_eq_true_eq]
        rcases hfirst with hsign | hname
        · exact confines_sign_iff hs hsign hc hunmarked
        · exact confines_name_iff hs hname hc hunmarked
      · rename_i hfirst
        rw [Bool.not_eq_true, Bool.or_eq_false_iff] at hfirst
        rw [decide_eq_true_eq]
        exact confines_other_iff hs hhost hstar hcolon hbracket hfirst.1 hfirst.2 hc hunmarked
    · exact absurd rfl hc.1

end Scoping

end ViewCompiler.Style
