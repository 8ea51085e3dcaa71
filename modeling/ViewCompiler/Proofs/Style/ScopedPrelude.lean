import Mathlib.Data.List.Chain
import ViewCompiler.Proofs.Style.Sheet

/-!
# Scoped selectors as preludes

A selector list is cut at its commas and combinators, and every part is rewritten by itself. What
stands between them is a prelude again (`IsPrelude.of_mem_splitList`, `IsPrelude.of_mem_parts`),
scoping makes a prelude of each compound (`Scoping.isPrelude_compound`), and puts the parts together
so that none runs into the next one (`Scoping.isPrelude_complex`, `isPrelude_join_splitList`).

The cuts are made outside of strings and brackets, while the readers of `Zone` go through the whole
text from left to right. So a part has to be read from another spot than the one at which it stands:
whether a blank or a slash comes before it no longer matters once a comma or a combinator has been
passed. The first section is about that. `IsWholeFrom`, `IsCompoundFrom` and `ArePartsFrom` then say
of a piece, of a compound and of the parts of a selector how they are read, and each is shown by
induction on the characters, with the state of the cutting function as the state of the reader.

The mark is put into a compound behind its first simple selector. Where that ends is found by scans
of different kinds, so the cases of `Scoping.compound` are gone through one by one. The argument of
`:host` is the only one that does not hold for every compound: the closing parenthesis is told by
counting, and the argument may be cut within a string (`hasWholeArgument`).

Last, a rule must not turn into an at-rule or lose its start on the way: what is written starts
neither with a blank nor with an `@` if what was read did not.
-/

namespace ViewCompiler.Style

open ViewCompiler.Text

/-! ### Reading from another spot -/

namespace Zone

variable {z : Zone} {s t t' : Spot} {c : Char} {cs : List Char}

private theorem advance_congr (hquoting : s.quoting = t.quoting) (hdepth : s.depth = t.depth) :
    z.advance s c = z.advance t c := by
  unfold advance
  rw [hquoting, hdepth]

/-- What stood before a text matters for its first character only. -/
theorem read_cons_congr (hquoting : s.quoting = t.quoting) (hdepth : s.depth = t.depth)
    (hstops : z.stops s c = false) (h : z.read t (c :: cs) = some t') :
    z.read s (c :: cs) = some t' := by
  refine read_cons_eq_some_iff.2 ⟨hstops, ?_⟩
  rw [advance_congr hquoting hdepth]
  exact (read_cons_eq_some_iff.1 h).2

/-- A text that is read behind a slash or a blank is read behind other characters too. -/
theorem read_of_plain (hquoting : s.quoting = t.quoting) (hdepth : s.depth = t.depth)
    (hslash : s.slash = false) (hblank : s.blank = false) (hne : cs ≠ [])
    (h : z.read t cs = some t') :
    z.read s cs = some t' := by
  obtain ⟨c, cs, rfl⟩ := List.exists_cons_of_ne_nil hne
  refine read_cons_congr hquoting hdepth ?_ h
  obtain ⟨hstops, -⟩ := read_cons_eq_some_iff.1 h
  unfold stops at hstops ⊢
  rw [hquoting, hdepth, hslash, hblank]
  revert hstops
  cases t.quoting.isOutside <;> cases z.ends t.depth c <;> cases z.neat <;>
    cases isMarkupSpace c <;>
    cases t.blank <;> simp

/-- Neither neatness nor bareness depends on the brackets that are open before a text. -/
theorem read_neat {bare : Bool} {s' : Spot} (h : (prelude true bare).read s cs = some t)
    (h' : (prelude false).read s' cs = some t') (hquoting : s.quoting = s'.quoting)
    (hblank : s.blank = s'.blank) :
    (prelude true bare).read s' cs = some t' ∧ t'.blank = t.blank := by
  induction cs generalizing s s' with
  | nil =>
    obtain rfl := Option.some.inj h
    obtain rfl := Option.some.inj h'
    exact ⟨rfl, hblank.symm⟩
  | cons c cs ih =>
    obtain ⟨hstops, h⟩ := read_cons_eq_some_iff.1 h
    obtain ⟨hstops', h'⟩ := read_cons_eq_some_iff.1 h'
    -- Strings and blanks are followed alike, whatever brackets are open.
    have hquoting' : ((prelude true bare).advance s c).quoting =
        ((prelude false).advance s' c).quoting := by
      rw [quoting_advance, quoting_advance, hquoting]
    have hblank' :
        ((prelude true bare).advance s c).blank = ((prelude false).advance s' c).blank := by
      unfold advance
      rw [hquoting]
      split <;> rfl
    obtain ⟨hread, htblank⟩ := ih h h' hquoting' hblank'
    refine ⟨read_cons_eq_some_iff.2 ⟨?_, hread⟩, htblank⟩
    cases hq : s'.quoting with
    | inside | escaped => simp [stops, hq, Quoting.isOutside]
    | outside =>
      rw [stops_of_isOutside (hquoting.trans hq), hblank, Bool.or_eq_false_iff,
        Bool.or_eq_false_iff] at hstops
      rw [stops_of_isOutside hq, Bool.or_eq_false_iff, Bool.or_eq_false_iff,
        ends_prelude] at hstops'
      have hends : (prelude true bare).ends s'.depth c = false := by
        cases bare with
        | false =>
          rw [ends_prelude]
          exact hstops'.1.1
        -- A bare prelude has no braces at any depth, and no semicolon ends it if none ends the
        -- prelude read with the other brackets open.
        | true =>
          have hbraces := hstops.1.1
          have hsemicolon := hstops'.1.1
          simp only [prelude, Bool.true_or, Bool.true_and, Bool.or_eq_false_iff] at hbraces ⊢
          refine ⟨hbraces.1, ?_⟩
          rw [hbraces.1.1, hbraces.1.2] at hsemicolon
          exact hsemicolon
      rw [stops_of_isOutside hq, Bool.or_eq_false_iff, Bool.or_eq_false_iff]
      exact ⟨⟨hends, hstops'.1.2⟩, hstops.2⟩

end Zone

variable {bare : Bool}

/-! ### Between commas -/

/-- Whether a reader outside strings and brackets is so again behind a text. -/
def IsWholeFrom (neat bare : Bool) (s : Spot) (cs : List Char) : Prop :=
  ∃ t, (Zone.prelude neat bare).read s cs = some t ∧ t.quoting = .outside ∧ t.depth = 0

/-- The pieces of a prelude are whole pieces, each read on its own. -/
private theorem forall_splitListFrom {neat : Bool} {s t : Spot} {cs : List Char}
    (h : (Zone.prelude neat bare).read s cs = some t) (ht : t.quoting = .outside)
    (hdepth : t.depth = 0) :
    ∃ first rest, splitListFrom s.quoting s.depth cs = first :: rest ∧
      IsWholeFrom neat bare s first ∧
      ∀ piece ∈ rest, IsWholeFrom neat bare {} piece := by
  induction cs generalizing s with
  | nil => exact ⟨[], [], rfl, ⟨t, h, ht, hdepth⟩, nofun⟩
  | cons c cs ih =>
    obtain ⟨hstops, h⟩ := Zone.read_cons_eq_some_iff.1 h
    obtain ⟨first, rest, hsplit, ⟨r, hfirst, hr⟩, hrest⟩ := ih h
    rw [splitListFrom]
    split
    · rename_i hcomma
      simp only [Bool.and_eq_true, decide_eq_true_eq, beq_iff_eq] at hcomma
      obtain ⟨⟨hout, hzero⟩, rfl⟩ := hcomma
      have hs := Quoting.eq_outside_of_isOutside hout
      have hadvance : (Zone.prelude neat bare).advance s ',' = {} := by
        rw [Zone.advance_of_isOutside hs, hzero]
        rfl
      rw [hadvance] at hsplit hfirst
      refine ⟨[], first :: rest, congrArg ([] :: ·) hsplit, ⟨s, rfl, hs, hzero⟩, ?_⟩
      exact List.forall_mem_cons.2 ⟨⟨r, hfirst, hr⟩, hrest⟩
    · rw [Zone.quoting_advance, Zone.depth_advance_prelude] at hsplit
      refine ⟨c :: first, rest, ?_, ⟨r, Zone.read_cons_eq_some_iff.2 ⟨hstops, hfirst⟩, hr⟩, hrest⟩
      dsimp only
      rw [hsplit]

/-- A whole piece is a prelude without the blanks around it. -/
theorem isPrelude_trimBlank {s : Spot} {cs : List Char} (h : IsWholeFrom true bare s cs)
    (hs : s.quoting = .outside) (hdepth : s.depth = 0) (hslash : s.slash = false)
    (hne : trimBlank cs ≠ []) : IsPrelude (trimBlank cs) bare := by
  obtain ⟨t, hread, ht, htdepth⟩ := h
  obtain ⟨t', htrim, ht', htdepth', hblank⟩ := Zone.exists_read_trimBlank hread hs hslash ht true
  have hstart : { s with blank := true } = ({ blank := true } : Spot) := by rw [hs, hdepth, hslash]
  rw [hstart] at htrim
  exact ⟨t', htrim, ht', htdepth'.trans htdepth, hblank hne⟩

/-- The texts between the commas of a prelude are preludes, if anything is left of them. -/
theorem IsPrelude.of_mem_splitList {selector : String} (h : IsPrelude selector.toList bare)
    {piece : List Char} (hpiece : piece ∈ splitList selector) (hne : piece ≠ []) :
    IsPrelude piece bare := by
  obtain ⟨s, hread, hs, hdepth, -⟩ := h
  obtain ⟨text, htext, rfl⟩ := List.mem_map.1 hpiece
  obtain ⟨first, rest, hsplit, hfirst, hrest⟩ := forall_splitListFrom hread hs hdepth
  rw [hsplit] at htext
  rcases List.mem_cons.1 htext with rfl | htext
  · exact isPrelude_trimBlank hfirst rfl rfl rfl hne
  · exact isPrelude_trimBlank (hrest text htext) rfl rfl rfl hne

/-! ### Between combinators -/

/-- Whether a text that is read from a spot on starts a compound there, and is whole. -/
def IsCompoundFrom (bare : Bool) (s : Spot) (text : List Char) : Prop :=
  (∃ t, (Zone.prelude true bare).read s text = some t ∧ t.quoting = .outside ∧ t.depth = 0 ∧
    t.blank = false) ∧
  ∃ c cs, text = c :: cs ∧ (s.quoting = .outside → s.depth = 0 → isCombining c = false)

/-- Whether the parts of a text that is read from a spot on are whole: each compound is a prelude by
itself, except that the first one may start where something is open. -/
def ArePartsFrom (bare : Bool) (s : Spot) : List Part → Prop
  | [] => s.quoting = .outside ∧ s.depth = 0
  | .combinator _ :: ps =>
    (s.quoting = .outside ∧ s.depth = 0) ∧ ∀ text, .compound text ∈ ps → IsPrelude text bare
  | .compound text :: ps => IsCompoundFrom bare s text ∧ ∀ text, .compound text ∈ ps →
        IsPrelude text bare

private theorem isMarkupSpace_of_isCombining {c : Char} (hc : isCombining c = false) :
    isMarkupSpace c = false := by
  simp only [isCombining, Bool.or_eq_false_iff] at hc
  exact hc.1.1.1

section

variable {s t : Spot} {c : Char} {text cs : List Char}

/-- A combinator leaves a reader outside strings and brackets where it is. -/
theorem advance_of_isCombining (hs : s.quoting = .outside) (hdepth : s.depth = 0)
    (hc : isCombining c = true) :
    (Zone.prelude true bare).advance s c = { blank := isMarkupSpace c } := by
  have hne : ∀ d, isCombining d = false → c ≠ d := fun d => ne_of_class hc
  rw [Zone.advance_of_isOutside hs, hdepth]
  simp [Zone.prelude, nesting, Quoting.next, hne '\'' rfl, hne '"' rfl, hne '(' rfl, hne '[' rfl,
    hne ')' rfl, hne ']' rfl, hne '/' rfl]

/-- Only a combinator can leave a blank behind where nothing is open. -/
private theorem blank_advance (hc : (s.quoting.isOutside && s.depth == 0 && isCombining c) = false)
    (hdepth : ((Zone.prelude true bare).advance s c).depth = 0) :
    ((Zone.prelude true bare).advance s c).blank = false := by
  rw [Zone.depth_advance_prelude] at hdepth
  unfold Zone.advance
  split
  · rename_i hout
    rw [if_pos hout] at hdepth
    by_contra hblank
    have hspace : isMarkupSpace c = true := by simpa using hblank
    have hne : ∀ d, isMarkupSpace d = false → c ≠ d := fun d => ne_of_class hspace
    have hnesting : nesting s.depth c = s.depth := by
      simp [nesting, hne '(' rfl, hne '[' rfl, hne ')' rfl, hne ']' rfl]
    rw [hnesting] at hdepth
    simp [hout, hdepth, isCombining, hspace] at hc
  · rfl

/-- A compound that is read on its own is a prelude. -/
theorem IsCompoundFrom.isPrelude (h : IsCompoundFrom bare s text) (hs : s.quoting = .outside)
    (hdepth : s.depth = 0) : IsPrelude text bare := by
  obtain ⟨⟨t, hread, ht⟩, c, cs, rfl, hfirst⟩ := h
  have hc := isMarkupSpace_of_isCombining (hfirst hs hdepth)
  obtain ⟨hstops, -⟩ := Zone.read_cons_eq_some_iff.1 hread
  refine ⟨t, Zone.read_cons_congr hs.symm hdepth.symm ?_ hread, ht⟩
  rw [Zone.stops_of_isOutside hs, hdepth, hc] at hstops
  rw [Zone.stops_of_isOutside rfl, hc]
  simp only [Bool.or_eq_false_iff] at hstops
  simp [hstops.1.1]

/-- Parts of a prelude stay such with one more character in front. -/
theorem ArePartsFrom.prepend {ps : List Part} (hstops : (Zone.prelude true bare).stops s c = false)
    (h : ArePartsFrom bare ((Zone.prelude true bare).advance s c) ps) :
    ArePartsFrom bare s
      (Part.prepend (s.quoting.isOutside && s.depth == 0 && isCombining c) c ps) := by
  cases hcombining : s.quoting.isOutside && s.depth == 0 && isCombining c with
  | true =>
    simp only [Bool.and_eq_true, beq_iff_eq] at hcombining
    obtain ⟨⟨hout, hdepth⟩, hc⟩ := hcombining
    have hs := Quoting.eq_outside_of_isOutside hout
    rw [advance_of_isCombining hs hdepth hc] at h
    obtain _ | ⟨text | run, ps⟩ := ps
    · exact ⟨⟨hs, hdepth⟩, fun _ htext => by cases htext⟩
    · refine ⟨⟨hs, hdepth⟩, fun text' htext' => ?_⟩
      rcases List.mem_cons.1 htext' with heq | htext'
      · obtain rfl := Part.compound.inj heq
        exact h.1.isPrelude rfl rfl
      · exact h.2 text' htext'
    · exact ⟨⟨hs, hdepth⟩, h.2⟩
  | false =>
    have hfirst : s.quoting = .outside → s.depth = 0 → isCombining c = false := by
      intro hs hdepth
      simpa [hs, hdepth, Quoting.isOutside] using hcombining
    -- On its own the character is the beginning of a compound.
    have hone : ((Zone.prelude true bare).advance s c).quoting = .outside ∧
        ((Zone.prelude true bare).advance s c).depth = 0 → IsCompoundFrom bare s [c] := fun hopen =>
      ⟨⟨_, Zone.read_cons_eq_some_iff.2 ⟨hstops, rfl⟩, hopen.1, hopen.2,
        blank_advance hcombining hopen.2⟩, c, [], rfl, hfirst⟩
    obtain _ | ⟨text | run, ps⟩ := ps
    · exact ⟨hone h, fun _ htext => by cases htext⟩
    · obtain ⟨⟨⟨t, hread, ht⟩, -⟩, hps⟩ := h
      exact ⟨⟨⟨t, Zone.read_cons_eq_some_iff.2 ⟨hstops, hread⟩, ht⟩, c, text, rfl, hfirst⟩, hps⟩
    · refine ⟨hone h.1, fun text htext => h.2 text ?_⟩
      exact (List.mem_cons.1 htext).resolve_left fun heq => by cases heq

/-- The parts of a prelude are read one by one. -/
private theorem arePartsFrom_partsFrom (h : (Zone.prelude true bare).read s cs = some t)
    (ht : t.quoting = .outside) (hdepth : t.depth = 0) :
    ArePartsFrom bare s (partsFrom s.quoting s.depth cs) := by
  induction cs generalizing s with
  | nil =>
    obtain rfl := Option.some.inj h
    exact ⟨ht, hdepth⟩
  | cons c cs ih =>
    obtain ⟨hstops, h⟩ := Zone.read_cons_eq_some_iff.1 h
    have hparts := (ih h).prepend hstops
    rwa [Zone.quoting_advance, Zone.depth_advance_prelude] at hparts

end

/-- The compounds of a complex selector that is a prelude are preludes. -/
theorem IsPrelude.of_mem_parts {cs text : List Char} (h : IsPrelude cs bare)
    (htext : .compound text ∈ parts cs) :
    IsPrelude text bare := by
  obtain ⟨s, hread, hs, hdepth, -⟩ := h
  have hparts : ArePartsFrom bare { blank := true } (parts cs) :=
    arePartsFrom_partsFrom hread hs hdepth
  cases hps : parts cs with
  | nil =>
    rw [hps] at htext
    cases htext
  | cons p ps =>
    rw [hps] at hparts htext
    cases p with
    | combinator run => exact hparts.2 text ((List.mem_cons.1 htext).resolve_left nofun)
    | compound first =>
      rcases List.mem_cons.1 htext with heq | htext
      · obtain rfl := Part.compound.inj heq
        exact hparts.1.isPrelude rfl rfl
      · exact hparts.2 text htext

/-! ### The mark -/

section

variable {s t : Spot} {cs : List Char}

/-- What neither closes a string nor escapes anything leaves a reader in it. -/
private theorem read_of_inside {quote : Char} (hs : s.quoting = .inside quote)
    (hcs : ∀ c ∈ cs, c ≠ '\\' ∧ c ≠ quote) (hne : cs ≠ []) :
    (Zone.prelude true bare).read s cs = some { quoting := .inside quote, depth := s.depth } := by
  induction cs generalizing s with
  | nil => exact absurd rfl hne
  | cons c cs ih =>
    obtain ⟨⟨hbackslash, hquote⟩, hcs⟩ := List.forall_mem_cons.1 hcs
    have hstops : (Zone.prelude true bare).stops s c = false := by
      simp [Zone.stops, hs, Quoting.isOutside]
    have hadvance :
        (Zone.prelude true bare).advance s c = { quoting := .inside quote, depth := s.depth } := by
      simp [Zone.advance, hs, Quoting.isOutside, Quoting.next, hbackslash, hquote]
    rw [Zone.read, hstops, if_neg Bool.false_ne_true, hadvance]
    cases cs with
    | nil => rfl
    | cons d cs => exact ih rfl hcs (List.cons_ne_nil d cs)

/-- A mark leaves a reader where it is, unless its bracket is escaped. -/
theorem read_of_isMark {m : List Char} (hm : IsMark m) (hreal : s.quoting.IsReal)
    (hescaped : ∀ quote, s.quoting ≠ .escaped quote) :
    (Zone.prelude true bare).read s m = some { quoting := s.quoting, depth := s.depth } := by
  cases hs : s.quoting with
  | escaped quote => exact absurd hs (hescaped quote)
  | inside quote =>
    rw [hs] at hreal
    have hquote : isNameChar quote = false ∧ quote ≠ '[' ∧ quote ≠ ']' := by
      rcases hreal with rfl | rfl <;> decide
    -- In a string nothing but its quotation mark and a backslash counts, and a mark has neither.
    refine read_of_inside hs (fun c hc => ⟨?_, ?_⟩) hm.ne_nil
    · rintro rfl
      exact hm.notMem rfl (by decide) (by decide) hc
    · rintro rfl
      exact hm.notMem hquote.1 hquote.2.1 hquote.2.2 hc
  | outside =>
    obtain ⟨name, rfl, hchars⟩ := hm
    have hname : ∀ neat, (Zone.prelude neat bare).read { depth := s.depth + 1 } name =
        some { depth := s.depth + 1 } := by
      intro neat
      by_cases hnil : name = []
      · subst hnil
        rfl
      · exact Zone.read_of_isNameChar hchars hnil rfl
    -- The mark opens one bracket and closes it again.
    have hopen : (Zone.prelude true bare).advance s '[' = { depth := s.depth + 1 } := by
      rw [Zone.advance_of_isOutside hs]
      rfl
    have hstops : (Zone.prelude true bare).stops s '[' = false := by
      rw [Zone.stops_of_isOutside hs]
      simp [Zone.prelude, isMarkupSpace]
    refine Zone.read_cons_eq_some_iff.2 ⟨hstops, ?_⟩
    rw [hopen]
    refine Zone.read_append_eq_some_iff.2 ⟨_, hname true, Zone.read_cons_eq_some_iff.2 ⟨?_, rfl⟩⟩
    rw [Zone.stops_of_isOutside rfl]
    simp [Zone.prelude, isMarkupSpace]

/-- A mark can be put anywhere into a prelude but behind a backslash in a string. -/
private theorem isPrelude_mark {m head tail : List Char} (hm : IsMark m) {r : Spot}
    (hhead : (Zone.prelude true bare).read { blank := true } head = some r)
    (hescaped : ∀ quote, r.quoting ≠ .escaped quote)
    (htail : (Zone.prelude true bare).read r tail = some t) (ht : t.quoting = .outside)
    (hdepth : t.depth = 0)
    (hblank : t.blank = false) : IsPrelude (head ++ m ++ tail) bare := by
  have hmark :
      (Zone.prelude true bare).read r m = some { quoting := r.quoting, depth := r.depth } :=
    read_of_isMark hm (Zone.isReal_of_read hhead trivial) hescaped
  rw [List.append_assoc]
  by_cases hnil : tail = []
  · subst hnil
    obtain rfl := Option.some.inj htail
    rw [ht, hdepth] at hmark
    refine ⟨{}, Zone.read_append_eq_some_iff.2 ⟨r, hhead, ?_⟩, rfl, rfl, rfl⟩
    rwa [List.append_nil]
  · refine ⟨t, Zone.read_append_eq_some_iff.2 ⟨r, hhead, ?_⟩, ht, hdepth, hblank⟩
    exact Zone.read_append_eq_some_iff.2
      ⟨_, hmark, Zone.read_of_plain (t := r) rfl rfl rfl rfl hnil htail⟩

end

/-! ### Compounds -/

/-- Whether the argument of `:host`, if there is one, is cut where it ends: the bracket stands
outside strings, and what is left without the brackets is whole. -/
def hasWholeArgument : List Char → Bool
  | '(' :: inner =>
    match cutBracket? 0 inner with
    | some (argument, after) =>
      argument.foldl Quoting.next .outside = .outside &&
        ((Zone.prelude false).read {} (trimBlank argument ++ after)).any fun t =>
          t.quoting = .outside && t.depth = 0
    | none => true
  | _ => true

namespace Scoping

variable {s : Scoping}

private theorem eq_of_cutBracket? {depth : Nat} {cs argument after : List Char}
    (h : cutBracket? depth cs = some (argument, after)) : cs = argument ++ ')' :: after := by
  induction cs generalizing depth argument with
  | nil => cases h
  | cons c cs ih =>
    rw [cutBracket?] at h
    split at h
    · rename_i hclose
      simp only [Bool.and_eq_true, decide_eq_true_eq] at hclose
      obtain ⟨rfl, rfl⟩ := Prod.mk.inj (Option.some.inj h)
      rw [hclose.1]
      rfl
    · obtain ⟨⟨inside, after'⟩, hinside, h⟩ := Option.map_eq_some_iff.1 h
      obtain ⟨rfl, rfl⟩ := Prod.mk.inj h
      rw [ih hinside]
      rfl

/-- What follows `:host` goes on behind a tag, if its argument is cut where it ends. -/
private theorem exists_read_hostArgument {rest : List Char} {t : Spot}
    (h : (Zone.prelude true bare).read {} rest = some t) (ht : t.quoting = .outside)
    (hdepth : t.depth = 0)
    (hblank : t.blank = false) (hwhole : hasWholeArgument rest = true) :
    ∃ t', (Zone.prelude true bare).read {} (hostArgument rest) = some t' ∧ t'.quoting = .outside ∧
      t'.depth = 0 ∧ t'.blank = false := by
  unfold hasWholeArgument at hwhole
  unfold hostArgument
  split
  · rename_i inner
    simp only at hwhole
    cases hcut : cutBracket? 0 inner with
    | none => exact ⟨t, h, ht, hdepth, hblank⟩
    | some cut =>
      obtain ⟨argument, after⟩ := cut
      rw [hcut] at hwhole
      simp only [Bool.and_eq_true, decide_eq_true_eq, Option.any_eq_true] at hwhole
      obtain ⟨hout, t', hread, ht', hdepth'⟩ := hwhole
      obtain rfl := eq_of_cutBracket? hcut
      -- the text up to the bracket is neat, and so is that behind it
      obtain ⟨-, h⟩ := Zone.read_cons_eq_some_iff.1 h
      obtain ⟨r, hargument, h⟩ := Zone.read_append_eq_some_iff.1 h
      obtain ⟨-, hafter⟩ := Zone.read_cons_eq_some_iff.1 h
      have hr : r.quoting = .outside := (Zone.quoting_of_read hargument).trans hout
      obtain ⟨r', htrim, hr', -, hrblank⟩ :=
        Zone.exists_read_trimBlank (s := { depth := 1 }) hargument rfl rfl hr false
      have hrblank' : r'.blank = false := by
        by_cases hnil : trimBlank argument = []
        · rw [hnil] at htrim
          exact Option.some.inj htrim ▸ rfl
        · exact hrblank hnil
      obtain ⟨u, hfirst, hsecond⟩ := Zone.read_append_eq_some_iff.1 hread
      obtain ⟨hfirst, hublank⟩ := Zone.read_neat htrim hfirst rfl rfl
      have hu : u.quoting = .outside :=
        (Zone.quoting_of_read hfirst).trans ((Zone.quoting_of_read htrim).symm.trans hr')
      have hclose : (Zone.prelude true bare).advance r ')' = { depth := r.depth - 1 } := by
        rw [Zone.advance_of_isOutside hr]
        rfl
      rw [hclose] at hafter
      obtain ⟨hsecond, htblank⟩ :=
        Zone.read_neat hafter hsecond hu.symm (hublank.trans hrblank').symm
      exact ⟨t', Zone.read_append_eq_some_iff.2 ⟨u, hfirst, hsecond⟩, ht', hdepth',
        htblank.trans hblank⟩
  · exact ⟨t, h, ht, hdepth, hblank⟩

/-- Scoping makes a prelude of a compound that is one. -/
theorem isPrelude_compound (hs : s.IsPlain) {c : List Char} (h : IsPrelude c bare)
    (hwhole : ∀ rest, hostRest? c = some rest → hasWholeArgument rest = true) :
    IsPrelude (s.compound c) bare := by
  obtain ⟨t, hread, ht, hdepth, hblank⟩ := h
  have hcut : ∀ {head tail : List Char} {r : Spot},
      (Zone.prelude true bare).read { blank := true } head = some r →
        (∀ quote, r.quoting ≠ .escaped quote) →
      (Zone.prelude true bare).read r tail = some t → IsPrelude (s.markAfter head tail) bare :=
    fun hhead hescaped htail => isPrelude_mark hs.mark hhead hescaped htail ht hdepth hblank
  have hend : IsPrelude (s.markAfter c []) bare :=
    hcut hread (fun quote hquote => by rw [ht] at hquote; cases hquote) rfl
  unfold compound
  split
  · rename_i rest hhost
    have htag : (Zone.prelude true bare).read { blank := true } s.host.toList = some {} :=
      Zone.read_of_isNameChar hs.host.2 hs.host.1 rfl
    rw [eq_of_hostRest?_eq_some hhost] at hread
    have hname : (Zone.prelude true bare).read { blank := true } ":host".toList = some {} := by
      have hcolon : (Zone.prelude true bare).stops { blank := true } ':' = false := by
        rw [Zone.stops_of_isOutside rfl]
        simp [Zone.prelude, isMarkupSpace]
      exact Zone.read_cons_eq_some_iff.2
        ⟨hcolon, Zone.read_of_isNameChar (List.all_eq_true.1 rfl) (List.cons_ne_nil 'h' _) rfl⟩
    obtain ⟨u, hfirst, hrest⟩ := Zone.read_append_eq_some_iff.1 hread
    rw [hname] at hfirst
    obtain rfl := Option.some.inj hfirst
    obtain ⟨t', hargument, ht'⟩ :=
      exists_read_hostArgument hrest ht hdepth hblank (hwhole rest hhost)
    exact ⟨t', Zone.read_append_eq_some_iff.2 ⟨{}, htag, hargument⟩, ht'⟩
  · split
    · rename_i rest
      have hmark : (Zone.prelude true bare).read { blank := true } s.mark.toList = some {} :=
        read_of_isMark hs.mark trivial fun _ hquote => by cases hquote
      obtain ⟨-, hrest⟩ := Zone.read_cons_eq_some_iff.1 hread
      exact ⟨t, Zone.read_append_eq_some_iff.2 ⟨{}, hmark, hrest⟩, ht, hdepth, hblank⟩
    · exact hcut rfl (fun _ hquote => by cases hquote) hread
    · split
      · rename_i before after hbracket
        rw [eq_of_cut?_eq_some hbracket] at hread
        obtain ⟨r, hhead, htail⟩ := Zone.read_append_eq_some_iff.1 hread
        refine hcut hhead (fun quote => ?_) htail
        -- a bracket does not escape what is behind it
        rw [Zone.quoting_of_read hhead, List.foldl_append]
        exact Quoting.next_ne_escaped (by decide) quote
      · exact hend
    · rename_i first rest _ _ _ _
      split
      · rename_i hsign
        have hname : ∀ d ∈ rest.takeWhile isNameChar, isNameChar d = true :=
          fun d hd => List.all_eq_true.1 List.all_takeWhile d hd
        rw [← List.takeWhile_append_dropWhile (p := isNameChar) (l := rest),
          ← List.cons_append] at hread
        obtain ⟨r, hhead, htail⟩ := Zone.read_append_eq_some_iff.1 hread
        have hr : r.quoting = .outside := by
          obtain ⟨-, hbare⟩ := Zone.read_cons_eq_some_iff.1 hhead
          refine Zone.quoting_of_read_isNameChar hbare hname ?_
          rw [Zone.quoting_advance]
          simp only [Bool.or_eq_true, decide_eq_true_eq] at hsign
          rcases hsign with rfl | rfl <;> rfl
        exact hcut hhead (fun quote hquote => by rw [hr] at hquote; cases hquote) htail
      · split
        · rename_i hfirst
          have hname : ∀ d ∈ (first :: rest).takeWhile isNameChar, isNameChar d = true :=
            fun d hd => List.all_eq_true.1 List.all_takeWhile d hd
          have hne : (first :: rest).takeWhile isNameChar ≠ [] := by
            rw [List.takeWhile_cons_of_pos hfirst]
            exact List.cons_ne_nil _ _
          rw [← List.takeWhile_append_dropWhile (p := isNameChar) (l := first :: rest)] at hread
          obtain ⟨r, hhead, htail⟩ := Zone.read_append_eq_some_iff.1 hread
          rw [Zone.read_of_isNameChar hname hne rfl] at hhead
          obtain rfl := Option.some.inj hhead
          -- a tag that stands for the name reads like it
          refine hcut ?_ (fun quote h => by cases h) htail
          rcases typeName_eq_or hs ((first :: rest).takeWhile isNameChar) with heq | ⟨-, htag⟩
          · rw [heq, Zone.read_of_isNameChar hname hne rfl]
          · exact Zone.read_of_isNameChar htag.2 htag.1 rfl
        · exact hend
    · exact hend

end Scoping

/-! ### Complex selectors -/

/-- Whether exactly one of two parts is a compound. -/
def Part.Differs (p r : Part) : Prop := p.text?.isSome ≠ r.text?.isSome

/-- Neighbouring parts differ in kind. -/
private theorem isChain_partsFrom (quoting : Quoting) (depth : Nat) (cs : List Char) :
    (partsFrom quoting depth cs).IsChain Part.Differs := by
  have hdiffers : ∀ text run, Part.Differs (.compound text) (.combinator run) ∧
      Part.Differs (.combinator run) (.compound text) := fun text run => ⟨nofun, nofun⟩
  -- A character that goes to the first part leaves its kind as it is.
  have hmerge : ∀ {p q : Part} {ps : List Part}, p.text?.isSome = q.text?.isSome →
      (p :: ps).IsChain Part.Differs → (q :: ps).IsChain Part.Differs := by
    intro p q ps hsame h
    refine h.imp_head fun {r} hdiffers => ?_
    rwa [Part.Differs, hsame] at hdiffers
  induction cs generalizing quoting depth with
  | nil => exact .nil
  | cons c cs ih =>
    have hrest := ih (quoting.next c) (if quoting.isOutside then nesting depth c else depth)
    rw [partsFrom]
    generalize partsFrom (quoting.next c) (if quoting.isOutside then nesting depth c else depth)
      cs = ps
      at hrest
    generalize (quoting.isOutside && depth == 0 && isCombining c) = combining
    cases combining with
    | true =>
      obtain _ | ⟨text | run, ps⟩ := ps
      · exact .singleton _
      · exact hrest.cons_cons (hdiffers _ _).2
      · exact hmerge (p := .combinator run) (q := .combinator (c :: run)) rfl hrest
    | false =>
      obtain _ | ⟨text | run, ps⟩ := ps
      · exact .singleton _
      · exact hmerge (p := .compound text) (q := .compound (c :: text)) rfl hrest
      · exact hrest.cons_cons (hdiffers _ _).1

private theorem Alternates.isCombining_of_mem {ps : List Part} (h : Alternates ps) {run : List Char}
    (hrun : .combinator run ∈ ps) : ∀ c ∈ run, isCombining c = true := by
  induction h with
  | nil => cases hrun
  | compound _ _ ih => exact ih ((List.mem_cons.1 hrun).resolve_left nofun)
  | combinator _ hchars _ ih =>
    rcases List.mem_cons.1 hrun with heq | hrun
    · obtain rfl := Part.combinator.inj heq
      exact hchars
    · exact ih hrun

/-- A run of blanks and combinators stands for a space or for one of its combinators. -/
theorem combinatorOf_eq_or {run : List Char} (h : ∀ c ∈ run, isCombining c = true) :
    combinatorOf run = ' ' ∧ (∀ c ∈ run, isMarkupSpace c = true) ∨
      isCombining (combinatorOf run) = true ∧ isMarkupSpace (combinatorOf run) = false := by
  unfold combinatorOf
  cases hlast : (run.filter (!isMarkupSpace ·)).getLast? with
  | none =>
    rw [List.getLast?_eq_none_iff, List.filter_eq_nil_iff] at hlast
    exact .inl ⟨rfl, fun c hc => by simpa using hlast c hc⟩
  | some c =>
    obtain ⟨hmem, hspace⟩ := List.mem_filter.1 (List.mem_of_getLast? hlast)
    exact .inr ⟨h c hmem, by simpa using hspace⟩

/-- A prelude is read wherever nothing is open and no comment can begin. -/
private theorem IsPrelude.exists_read {cs : List Char} (h : IsPrelude cs bare) {r : Spot}
    (hr : r.quoting = .outside)
    (hdepth : r.depth = 0) (hslash : r.slash = false) :
    ∃ t, (Zone.prelude true bare).read r cs = some t ∧ t.quoting = .outside ∧ t.depth = 0 ∧
      t.blank = false := by
  have hne := h.ne_nil
  obtain ⟨t, hread, ht⟩ := h
  refine ⟨t, ?_, ht⟩
  cases hblank : r.blank with
  | true =>
    obtain ⟨quoting, depth, slash, blank⟩ := r
    subst hr hdepth hslash hblank
    exact hread
  | false => exact Zone.read_of_plain (t := { blank := true }) hr hdepth hslash hblank hne hread

/-- The combinator that stands for a run can be written where nothing is open, if it is not a blank
behind another one. -/
private theorem read_combinatorOf {run : List Char} (h : ∀ c ∈ run, isCombining c = true) {r : Spot}
    (hr : r.quoting = .outside) (hdepth : r.depth = 0)
    (hblank : combinatorOf run = ' ' → r.blank = false) :
    (Zone.prelude true bare).stops r (combinatorOf run) = false ∧
      (Zone.prelude true bare).advance r (combinatorOf run) =
        { blank := isMarkupSpace (combinatorOf run) } := by
  have hspace : isCombining ' ' = true := rfl
  have hcombining : isCombining (combinatorOf run) = true := by
    rcases combinatorOf_eq_or h with ⟨heq, -⟩ | ⟨hcombining, -⟩
    · rw [heq, hspace]
    · exact hcombining
  have hne : ∀ d, isCombining d = false → combinatorOf run ≠ d := by
    rintro d hd heq
    rw [heq, hd] at hcombining
    cases hcombining
  refine ⟨?_, advance_of_isCombining hr hdepth hcombining⟩
  rw [Zone.stops_of_isOutside hr]
  rcases combinatorOf_eq_or h with ⟨heq, -⟩ | ⟨-, hmarkup⟩
  · rw [heq, hblank heq]
    simp [Zone.prelude]
  · simp [Zone.prelude, hmarkup, hne '\x7b' rfl, hne '\x7d' rfl, hne ';' rfl, hne '*' rfl]

namespace Scoping

variable {s : Scoping}

/-- What was written stays in front of what is written next. -/
theorem isPrefix_writeParts (written : List Char) (ps : List Part) :
    written <+: s.writeParts written ps := by
  induction ps generalizing written with
  | nil => exact List.prefix_rfl
  | cons p ps ih =>
    cases p with
    | compound text => exact (List.prefix_append written _).trans (ih _)
    | combinator run =>
      rw [writeParts]
      split
      · exact (List.prefix_append written _).trans (ih _)
      · exact ih written

/-- What is written for parts stays a prelude: a compound comes behind a combinator, and a blank
behind a compound and before another one. -/
private theorem exists_read_writeParts {ps : List Part} (hchain : ps.IsChain Part.Differs)
    (hruns : ∀ run, .combinator run ∈ ps → ∀ c ∈ run, isCombining c = true)
    (h : ∀ text, .compound text ∈ ps → IsPrelude (s.compound text) bare) {written : List Char}
    {r : Spot}
    (hread : (Zone.prelude true bare).read { blank := true } written = some r)
    (hr : r.quoting = .outside)
    (hdepth : r.depth = 0) (hslash : (∃ p ∈ ps.head?, p.text?.isSome = true) → r.slash = false)
    (hblank : (∀ p ∈ ps.head?, p.text?.isSome = false) → written ≠ [] → r.blank = false) :
    ∃ t, (Zone.prelude true bare).read { blank := true } (s.writeParts written ps) = some t ∧
      t.quoting = .outside ∧ t.depth = 0 ∧ (s.writeParts written ps ≠ [] → t.blank = false) := by
  induction ps generalizing written r with
  | nil => exact ⟨r, hread, hr, hdepth, hblank nofun⟩
  | cons p ps ih =>
    have hnext : ∀ q ∈ ps.head?, p.Differs q := hchain.rel_head?
    have ih := @ih hchain.tail (fun run hrun => hruns run (List.mem_cons_of_mem _ hrun))
      fun text htext => h text (List.mem_cons_of_mem _ htext)
    cases p with
    | compound text =>
      obtain ⟨u, hcompound, hu, hudepth, hublank⟩ :=
        (h text List.mem_cons_self).exists_read hr hdepth (hslash ⟨_, rfl, rfl⟩)
      refine ih (Zone.read_append_eq_some_iff.2 ⟨r, hread, hcompound⟩) hu hudepth ?_
        fun _ _ => hublank
      rintro ⟨q, hq, hsome⟩
      exact absurd hsome.symm (hnext q hq)
    | combinator run =>
      rw [writeParts]
      split
      · rename_i hwrites
        simp only [Bool.or_eq_true, decide_eq_true_eq, Bool.and_eq_true, Bool.not_eq_true',
          List.isEmpty_eq_false_iff] at hwrites
        obtain ⟨hstops, hadvance⟩ := read_combinatorOf (hruns run List.mem_cons_self) hr hdepth
          fun hspace => hblank (fun q hq => Option.some.inj hq ▸ rfl)
            (hwrites.resolve_left (absurd hspace)).1
        refine ih (Zone.read_append_eq_some_iff.2 ⟨r, hread, Zone.read_cons_eq_some_iff.2
          ⟨hstops, congrArg some hadvance⟩⟩) rfl rfl (fun _ => rfl) fun hlast _ => ?_
        -- the last run is not a blank
        have hnil : ps = [] := by
          by_contra hne
          obtain ⟨q, ps, rfl⟩ := List.exists_cons_of_ne_nil hne
          exact hnext q rfl (hlast q rfl).symm
        have hne := hwrites.resolve_right fun hboth => hboth.2 hnil
        have hcombining := (combinatorOf_eq_or (hruns run List.mem_cons_self)).resolve_left
          fun hspace => hne hspace.1
        exact hcombining.2
      · rename_i hdrops
        refine ih hread hr hdepth (fun hcompound => ?_) fun _ => hblank fun q hq =>
          Option.some.inj hq ▸ rfl
        obtain ⟨q, hq, -⟩ := hcompound
        have hnil : written = [] := by
          by_contra hne
          have hrest : ps ≠ [] := fun hnil => by rw [hnil] at hq; cases hq
          exact hdrops (by simp [hne, hrest])
        subst hnil
        exact Option.some.inj hread ▸ rfl

/-! ### How a selector starts -/

private theorem head?_markAfter (hs : s.IsPlain) {head tail : List Char}
    (h : head.head? ≠ some '@') :
    (s.markAfter head tail).head? ≠ some '@' := by
  obtain ⟨name, hmark, -⟩ := hs.mark
  cases head with
  | nil =>
    rw [markAfter, hmark]
    exact fun h => absurd (Option.some.inj h) (by decide)
  | cons c head => exact h

private theorem head?_of_isIdentifier {cs : List Char} (h : IsIdentifier cs) :
    cs.head? ≠ some '@' := by
  intro hat
  obtain ⟨rest, rfl⟩ := List.head?_eq_some_iff.1 hat
  exact absurd (h.2 '@' List.mem_cons_self) (by decide)

/-- Scoping does not make an at-rule of a compound. -/
private theorem head?_compound (hs : s.IsPlain) {c : List Char} (h : c.head? ≠ some '@') :
    (s.compound c).head? ≠ some '@' := by
  have hend : (s.markAfter c []).head? ≠ some '@' := head?_markAfter hs h
  unfold compound
  split
  · rw [List.head?_append_of_ne_nil _ hs.host.1]
    exact head?_of_isIdentifier hs.host
  · split
    · exact head?_markAfter hs nofun
    · exact head?_markAfter hs nofun
    · split
      · rename_i before after hcut
        refine head?_markAfter hs ?_
        rw [eq_of_cut?_eq_some hcut] at h
        rwa [List.head?_append_of_ne_nil _ (by simp)] at h
      · exact hend
    · rename_i first rest _ _ _ _
      split
      · exact head?_markAfter hs h
      · split
        · rename_i hfirst
          refine head?_markAfter hs ?_
          rcases typeName_eq_or hs ((first :: rest).takeWhile isNameChar) with heq | ⟨-, htag⟩
          · rwa [heq, List.takeWhile_cons_of_pos hfirst]
          · exact head?_of_isIdentifier htag
        · exact hend
    · exact hend

/-- A complex selector starts with a compound or with a combinator, as it is written. -/
private theorem exists_parts_cons (c : Char) (cs : List Char) :
    (∃ run ps, isCombining c = true ∧ parts (c :: cs) = .combinator (c :: run) :: ps) ∨
      ∃ text ps, isCombining c = false ∧ parts (c :: cs) = .compound (c :: text) :: ps := by
  have hsame : (Quoting.outside.isOutside && (0 : Nat) == 0 && isCombining c) = isCombining c := rfl
  rw [parts, partsFrom, hsame]
  generalize partsFrom (Quoting.outside.next c) _ cs = ps
  cases hc : isCombining c with
  | true =>
    obtain _ | ⟨text | run, ps⟩ := ps
    · exact .inl ⟨[], _, rfl, rfl⟩
    · exact .inl ⟨[], _, rfl, rfl⟩
    · exact .inl ⟨run, _, rfl, rfl⟩
  | false =>
    obtain _ | ⟨text | run, ps⟩ := ps
    · exact .inr ⟨[], _, rfl, rfl⟩
    · exact .inr ⟨text, _, rfl, rfl⟩
    · exact .inr ⟨[], _, rfl, rfl⟩

/-- Scoping makes a prelude of a complex selector that is one, and no at-rule. -/
theorem isPrelude_complex (hs : s.IsPlain) {cs : List Char} (h : IsPrelude cs bare)
    (hwhole : ∀ text, .compound text ∈ parts cs → ∀ rest, hostRest? text = some rest →
      hasWholeArgument rest = true) :
    IsPrelude (s.complex cs) bare ∧ (cs.head? ≠ some '@' → (s.complex cs).head? ≠ some '@') := by
  have hruns : ∀ run, .combinator run ∈ parts cs → ∀ c ∈ run, isCombining c = true :=
    fun run hrun => (alternates_partsFrom .outside 0 cs).isCombining_of_mem hrun
  have hcompounds : ∀ text, .compound text ∈ parts cs → IsPrelude (s.compound text) bare :=
    fun text htext => isPrelude_compound hs (h.of_mem_parts htext) (hwhole text htext)
  -- The parts are read one after the other, from a reader that has only seen blanks.
  have hstart : (Zone.prelude true bare).read { blank := true } [] = some { blank := true } := rfl
  obtain ⟨t, hread, ht, hdepth, hblank⟩ :=
    exists_read_writeParts (isChain_partsFrom .outside 0 cs) hruns hcompounds hstart rfl rfl
      (fun _ => rfl) fun _ hne => absurd rfl hne
  have hprelude : s.complex cs ≠ [] → IsPrelude (s.complex cs) bare :=
    fun hne => ⟨t, hread, ht, hdepth, hblank hne⟩
  have hstarts : ∀ {start : List Char}, start ≠ [] → start <+: s.complex cs →
      s.complex cs ≠ [] ∧ (s.complex cs).head? = start.head? := by
    rintro start hne ⟨rest, hrest⟩
    rw [← hrest, List.head?_append_of_ne_nil _ hne]
    exact ⟨List.append_ne_nil_of_left_ne_nil hne rest, rfl⟩
  obtain ⟨c, cs, rfl⟩ := List.exists_cons_of_ne_nil h.ne_nil
  obtain ⟨hspace, -⟩ := h.head?_eq c rfl
  rcases exists_parts_cons c cs with ⟨run, ps, hc, hparts⟩ | ⟨text, ps, hc, hparts⟩
  · -- A combinator in front is written as it is, and no combinator is a blank or an at sign.
    have hcombining : isCombining (combinatorOf (c :: run)) = true ∧
        isMarkupSpace (combinatorOf (c :: run)) = false := by
      refine (combinatorOf_eq_or (hruns _ (by rw [hparts]; exact List.mem_cons_self))).resolve_left
        ?_
      rintro ⟨-, hspaces⟩
      rw [hspaces c List.mem_cons_self] at hspace
      cases hspace
    have hne : combinatorOf (c :: run) ≠ ' ' := by
      intro heq
      rw [heq] at hcombining
      cases hcombining.2
    have hprefix : [combinatorOf (c :: run)] <+: s.complex (c :: cs) := by
      rw [complex, hparts, writeParts, if_pos (by simp [hne])]
      exact isPrefix_writeParts _ _
    obtain ⟨hsome, hhead⟩ := hstarts (List.cons_ne_nil _ _) hprefix
    refine ⟨hprelude hsome, fun _ hat => ?_⟩
    rw [hhead] at hat
    rw [Option.some.inj hat] at hcombining
    cases hcombining.1
  · -- A compound in front is scoped, and that leaves something in front of the mark.
    have hprefix : s.compound (c :: text) <+: s.complex (c :: cs) := by
      rw [complex, hparts, writeParts]
      exact isPrefix_writeParts _ _
    have hne := (hcompounds (c :: text) (by rw [hparts]; exact List.mem_cons_self)).ne_nil
    obtain ⟨hsome, hhead⟩ := hstarts hne hprefix
    exact ⟨hprelude hsome, fun hat => hhead ▸ head?_compound hs hat⟩

end Scoping

/-! ### Selector lists -/

/-- Trimming leaves the first character that is no blank in front. -/
private theorem head?_trimBlank (cs : List Char) :
    (trimBlank cs).head? = cs.find? (!isBlank ·) := by
  obtain ⟨leading, trailing, heq, hleading, htrailing⟩ := exists_append_trimBlank cs
  have hblanks :
      ∀ {run : List Char}, (∀ c ∈ run, isBlank c = true) → run.find? (!isBlank ·) = none :=
    fun h => List.find?_eq_none.2 fun c hc => by simp [h c hc]
  have hfirst : (trimBlank cs).find? (!isBlank ·) = (trimBlank cs).head? := by
    cases htrim : trimBlank cs with
    | nil => rfl
    | cons c rest =>
      have hc : isBlank c = false := not_isBlank_of_head?_trimBlank c (by rw [htrim]; rfl)
      exact List.find?_cons_of_pos (by simp [hc])
  conv_rhs => rw [heq, List.find?_append, List.find?_append, hblanks hleading,
    hblanks htrailing, hfirst]
  simp

/-- Preludes, some of them missing, make a prelude between commas if they make anything. -/
private theorem exists_read_join {texts : List (List Char)}
    (h : ∀ text ∈ texts, text = [] ∨ IsPrelude text bare) :
    ∃ t, (Zone.prelude true bare).read { blank := true }
    (join "," (texts.map String.ofList)).toList =
        some t ∧ t.quoting = .outside ∧ t.depth = 0 ∧
      (join "," (texts.map String.ofList) ≠ "" → t.blank = false) := by
  induction texts with
  | nil => exact ⟨_, rfl, rfl, rfl, fun hne => absurd rfl hne⟩
  | cons text texts ih =>
    obtain ⟨htext, hrest⟩ := List.forall_mem_cons.1 h
    obtain ⟨r, hread, hr, hdepth, hblank⟩ : ∃ r,
        (Zone.prelude true bare).read { blank := true } text = some r ∧ r.quoting = .outside ∧
          r.depth = 0 ∧
          (text ≠ [] → r.blank = false) := by
      rcases htext with rfl | ⟨r, hread, hr, hdepth, hblank⟩
      · exact ⟨_, rfl, rfl, rfl, fun hne => absurd rfl hne⟩
      · exact ⟨r, hread, hr, hdepth, fun _ => hblank⟩
    by_cases hnil : texts = []
    · subst hnil
      refine ⟨r, ?_, hr, hdepth, fun hne => hblank ?_⟩
      · change (Zone.prelude true bare).read _ (String.ofList text).toList = _
        rwa [String.toList_ofList]
      · rintro rfl
        exact hne rfl
    · -- A comma counts as a text of its own: behind it the reader has no more than a blank spot.
      have hcomma : (Zone.prelude true bare).stops r ',' = false ∧
          (Zone.prelude true bare).advance r ',' = {} := by
        rw [Zone.stops_of_isOutside hr, Zone.advance_of_isOutside hr, hdepth]
        exact ⟨by simp [Zone.prelude, isMarkupSpace], rfl⟩
      obtain ⟨t, hothers, ht, htdepth, htblank⟩ := ih hrest
      have hafter :
          ∃ t, (Zone.prelude true bare).read {} (join "," (texts.map String.ofList)).toList =
          some t ∧ t.quoting = .outside ∧ t.depth = 0 ∧ t.blank = false := by
        by_cases hempty : join "," (texts.map String.ofList) = ""
        · rw [hempty]
          exact ⟨{}, rfl, rfl, rfl, rfl⟩
        · refine ⟨t, Zone.read_of_plain (t := { blank := true }) rfl rfl rfl rfl ?_ hothers, ht,
            htdepth,
            htblank hempty⟩
          rwa [Ne, String.toList_eq_nil_iff]
      obtain ⟨t, hafter, ht, htdepth, htblank⟩ := hafter
      have hsep : ",".toList = [','] := rfl
      refine ⟨t, ?_, ht, htdepth, fun _ => htblank⟩
      rw [List.map_cons, join_cons _ _ (by simpa using hnil), String.toList_append,
        String.toList_append, String.toList_ofList, hsep, List.append_assoc, List.singleton_append]
      refine Zone.read_append_eq_some_iff.2 ⟨r, hread, Zone.read_cons_eq_some_iff.2 ⟨hcomma.1, ?_⟩⟩
      rw [hcomma.2]
      exact hafter

/-- Whether trimming leaves something of a selector list, and nothing that starts like an at-rule.
Blanks that are none of the style sheet are part of a selector until then. -/
def hasPlainStart (selector : String) : Prop :=
  trimBlank selector.toList ≠ [] ∧ (trimBlank selector.toList).head? ≠ some '@'

instance (selector : String) : Decidable (hasPlainStart selector) :=
  inferInstanceAs (Decidable (_ ∧ _))

/-- What becomes of the texts between the commas of a prelude makes a prelude, and no at-rule. -/
theorem isPrelude_join_splitList {selector : String} (h : IsPrelude selector.toList bare)
    (hstart : hasPlainStart selector) {f : List Char → List Char} (hnil : f [] = [])
    (hf : ∀ piece ∈ splitList selector, IsPrelude piece bare →
      IsPrelude (f piece) bare ∧ (piece.head? ≠ some '@' → (f piece).head? ≠ some '@')) :
    IsPrelude (join "," ((splitList selector).map fun c => String.ofList (f c))).toList bare ∧
      (join "," ((splitList selector).map fun c => String.ofList (f c))).toList.head? ≠
        some '@' := by
  obtain ⟨first, rest, hsplit, ⟨behind, hbehind⟩, -⟩ :=
    infix_splitListFrom .outside 0 selector.toList
  have hpieces : splitList selector = trimBlank first :: rest.map trimBlank := by
    rw [splitList, hsplit, List.map_cons]
  have htexts : ∀ text ∈ (splitList selector).map f, text = [] ∨ IsPrelude text bare := by
    intro text htext
    obtain ⟨piece, hpiece, rfl⟩ := List.mem_map.1 htext
    by_cases hempty : piece = []
    · exact .inl (hempty ▸ hnil)
    · exact .inr (hf piece hpiece (h.of_mem_splitList hpiece hempty)).1
  have hmap : (splitList selector).map (fun c => String.ofList (f c)) =
      ((splitList selector).map f).map String.ofList := by
    rw [List.map_map]
    rfl
  obtain ⟨t, hread, ht, hdepth, hblank⟩ := exists_read_join htexts
  rw [hmap]
  have hprelude : (join "," (((splitList selector).map f).map String.ofList)) ≠ "" →
      IsPrelude (join "," (((splitList selector).map f).map String.ofList)).toList bare :=
    fun hne => ⟨t, hread, ht, hdepth, hblank hne⟩
  have hmem : trimBlank first ∈ splitList selector := by
    rw [hpieces]
    exact List.mem_cons_self
  by_cases hlast : rest = []
  · subst hlast
    -- without a comma there is one text
    have hwhole : first = selector.toList := by
      have hjoin := toList_join_splitListFrom .outside 0 selector.toList
      rw [hsplit] at hjoin
      simpa [join] using hjoin
    subst hwhole
    obtain ⟨hfirst, hhead⟩ := hf _ hmem (h.of_mem_splitList hmem hstart.1)
    have htext : (join "," (((splitList selector).map f).map String.ofList)).toList =
        f (trimBlank selector.toList) := by
      rw [hpieces]
      exact String.toList_ofList
    rw [htext]
    exact ⟨hfirst, hhead hstart.2⟩
  · have htext : (join "," (((splitList selector).map f).map String.ofList)).toList =
        f (trimBlank first) ++
          ',' :: (join "," (((rest.map trimBlank).map f).map String.ofList)).toList := by
      rw [hpieces, List.map_cons, List.map_cons, join_cons _ _ (by simpa using hlast),
        String.toList_append, String.toList_append, String.toList_ofList, List.append_assoc]
      rfl
    refine ⟨hprelude fun hempty => ?_, ?_⟩
    · rw [hempty] at htext
      exact absurd htext.symm (by simp)
    · rw [htext]
      by_cases hempty : f (trimBlank first) = []
      · rw [hempty]
        exact fun hat => absurd (Option.some.inj hat) (by decide)
      · have hne : trimBlank first ≠ [] := fun heq => hempty (heq ▸ hnil)
        rw [List.head?_append_of_ne_nil _ hempty]
        refine (hf _ hmem (h.of_mem_splitList hmem hne)).2 fun hat => hstart.2 ?_
        rw [head?_trimBlank] at hat ⊢
        rw [← hbehind, List.find?_append, hat]
        rfl

end ViewCompiler.Style
