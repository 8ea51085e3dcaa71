import ViewCompiler.Proofs.Style.Origin

/-!
# Reading one text of a style sheet

The readers of preludes and of declarations go through a text and keep track of strings and of open
brackets, and comments are looked for outside strings. A `Zone` says which brackets count in a text
and what ends it, and a `Spot` what is known of the text so far; `Zone.read` goes through a text
that holds no end and no comment. Where it does, the readers of the style sheet go through that text
as well (`takePrelude_of_read`, `readDeclarations_of_read`, `opensComment_append_of_read`), and
reducing its blanks changes nothing that counts (`exists_read_collapseFrom`).

The point of a zone is that one statement about a text serves all readers. `Zone.read` is a fold
over the characters, so that two texts one behind the other are read one behind the other
(`read_append_eq_some_iff`), and everything later is put together from short texts: a name, a mark,
a string of declarations.

A zone may be neat: then a blank outside of strings is one space, and never comes after another
blank. A text whose blanks are reduced is read neatly from a spot that is alike up to blanks
(`Spot.Alike`), and what is read neatly is left as it is by reducing its blanks again
(`collapseFrom_of_read`). This is what makes writing and reading once more come to the same text.

A text is clear (`Spot.Clear`) if no comment opens in it. Stripping comments leaves clear text,
reading keeps it clear, and where the text is clear only an end of the zone stops the reading.
-/

namespace ViewCompiler.Text

/-- Whether the open string, if there is one, was opened by a quotation mark. -/
def Quoting.IsReal : Quoting → Prop
  | .outside => True
  | .inside quote | .escaped quote => quote = '\'' ∨ quote = '"'

/-- Only a backslash escapes what is behind it. -/
theorem Quoting.next_ne_escaped {q : Quoting} {c : Char} (hc : c ≠ '\\') (quote : Char) :
    q.next c ≠ .escaped quote := by
  cases q with
  | outside =>
    rw [Quoting.next]
    split <;> exact nofun
  | inside quote' =>
    rw [Quoting.next, if_neg hc]
    split <;> exact nofun
  | escaped quote' => exact nofun

namespace Quoting.IsReal

variable {q : Quoting} (h : q.IsReal)
include h

theorem next (c : Char) : (q.next c).IsReal := by
  cases q with
  | outside =>
    rw [Quoting.next]
    split
    · rename_i hc
      rwa [Bool.or_eq_true, decide_eq_true_eq, decide_eq_true_eq] at hc
    · trivial
  | inside quote =>
    rw [Quoting.next]
    split
    · exact h
    · split
      · trivial
      · exact h
  | escaped quote => exact h

/-- Blanks do not open or close a string, and are all the same to an escape. -/
theorem next_of_isBlank {c : Char} (hc : isBlank c = true) : q.next c = q.next ' ' := by
  have hne : ∀ d, isBlank d = false → c ≠ d := fun d => ne_of_class hc
  cases q with
  | outside => simp [Quoting.next, hne '\'' rfl, hne '"' rfl]
  | inside quote =>
    have hquote : c ≠ quote ∧ ' ' ≠ quote := by
      rcases h with rfl | rfl
      · exact ⟨hne _ rfl, by decide⟩
      · exact ⟨hne _ rfl, by decide⟩
    simp [Quoting.next, hne '\\' rfl, hquote]
  | escaped quote => rfl

/-- Blanks behind a blank change nothing about quotes. -/
private theorem next_blank_blank : (q.next ' ').next ' ' = q.next ' ' := by
  cases q with
  | outside => rfl
  | inside quote | escaped quote => rcases h with rfl | rfl <;> rfl

/-- Only a backslash leaves a string where a blank counts. -/
theorem next_next_blank {c : Char} (hc : c ≠ '\\') : (q.next c).next ' ' = q.next c := by
  have hinside : ∀ quote, quote = '\'' ∨ quote = '"' →
      (Quoting.inside quote).next ' ' = .inside quote := by
    rintro quote (rfl | rfl) <;> rfl
  cases q with
  | outside =>
    rw [Quoting.next]
    split
    · rename_i hquote
      exact hinside c (by simpa using hquote)
    · rfl
  | inside quote =>
    rw [Quoting.next, if_neg hc]
    split
    · rfl
    · exact hinside quote h
  | escaped quote => exact hinside quote h

/-- A blank ends no quotes. -/
theorem eq_outside_of_next_blank (hnext : q.next ' ' = .outside) : q = .outside := by
  cases q with
  | outside => rfl
  | inside quote | escaped quote => rcases h with rfl | rfl <;> cases hnext

end Quoting.IsReal

end ViewCompiler.Text

namespace ViewCompiler.Style

open ViewCompiler.Text

theorem isMarkupSpace_eq_false {c : Char} (hc : isBlank c = false) : isMarkupSpace c = false := by
  by_contra hne
  rw [isBlank_of_isMarkupSpace (by simpa using hne)] at hc
  cases hc

/-! ### Readers -/

/-- Where a reader of a text stands. -/
structure Spot where
  quoting : Quoting := .outside
  depth : Nat := 0
  /-- Just after a slash outside strings. -/
  slash : Bool := false
  /-- Where a blank outside strings would be dropped. -/
  blank : Bool := false
  deriving DecidableEq, Repr

/-- A kind of text: the brackets that count in it, and what ends it outside strings. A neat text has
no other blanks outside strings than single spaces within it. -/
structure Zone where
  nest : Nat → Char → Nat
  ends : Nat → Char → Bool
  neat : Bool
  /-- A blank is no bracket and ends nothing. -/
  blank : ∀ depth c, isBlank c = true → nest depth c = depth ∧ ends depth c = false

namespace Zone

/-- Selectors and the conditions of at-rules. A bare one has no braces in its brackets either. -/
def prelude (neat : Bool) (bare : Bool := false) : Zone where
  nest := nesting
  ends depth c := (bare || depth == 0) && (c = '\x7b' || c = '\x7d') || depth == 0 && c = ';'
  neat := neat
  blank depth c hc := by
    have hne : ∀ d, isBlank d = false → c ≠ d := fun d => ne_of_class hc
    simp [nesting, hne '(' rfl, hne '[' rfl, hne ')' rfl, hne ']' rfl, hne '\x7b' rfl,
      hne '\x7d' rfl, hne ';' rfl]

/-- Declarations, between their braces and semicolons. -/
def declaration (neat : Bool) : Zone where
  nest depth c := if c = '(' then depth + 1 else if c = ')' then depth - 1 else depth
  ends depth c := c = '\x7b' || c = '\x7d' || (depth == 0 && c = ';')
  neat := neat
  blank depth c hc := by
    have hne : ∀ d, isBlank d = false → c ≠ d := fun d => ne_of_class hc
    simp [hne '(' rfl, hne ')' rfl, hne '\x7b' rfl, hne '\x7d' rfl, hne ';' rfl]

/-- Whether a reader stops before a character: it ends the text or opens a comment, or is a blank
that a neat text does not have. -/
def stops (z : Zone) (s : Spot) (c : Char) : Bool :=
  s.quoting.isOutside &&
    (z.ends s.depth c || (s.slash && c = '*') ||
      (z.neat && isMarkupSpace c && (s.blank || c ≠ ' ')))

/-- The spot after one more character. -/
def advance (z : Zone) (s : Spot) (c : Char) : Spot :=
  if s.quoting.isOutside then
    { quoting := s.quoting.next c, depth := z.nest s.depth c, slash := c = '/',
      blank := isMarkupSpace c }
  else { quoting := s.quoting.next c, depth := s.depth }

/-- The spot after a text, if the reader does not stop in it. -/
def read (z : Zone) : Spot → List Char → Option Spot
  | s, [] => some s
  | s, c :: cs => if z.stops s c then none else read z (z.advance s c) cs

variable {z : Zone} {s s' t : Spot} {c : Char} {cs a b : List Char}

@[simp]
theorem read_nil (s : Spot) : z.read s [] = some s := rfl

/-- A text is read if its first character does not stop the reading and the rest is read. -/
theorem read_cons_eq_some_iff :
    z.read s (c :: cs) = some t ↔ z.stops s c = false ∧ z.read (z.advance s c) cs = some t := by
  rw [read]
  split
  · rename_i h
    simp [h]
  · rename_i h
    simp [h]

/-- Texts one behind the other are read one behind the other. -/
theorem read_append_eq_some_iff :
    z.read s (a ++ b) = some t ↔ ∃ r, z.read s a = some r ∧ z.read r b = some t := by
  induction a generalizing s with
  | nil => simp
  | cons c a ih =>
    rw [List.cons_append, read_cons_eq_some_iff, ih]
    simp only [read_cons_eq_some_iff, and_assoc, exists_and_left]

@[simp]
theorem quoting_advance : (z.advance s c).quoting = s.quoting.next c := by
  unfold advance
  split <;> rfl

/-- Quotes after reading are those after the characters. -/
theorem quoting_of_read (h : z.read s cs = some t) :
    t.quoting = cs.foldl Quoting.next s.quoting := by
  induction cs generalizing s with
  | nil =>
    obtain rfl := Option.some.inj h
    rfl
  | cons c cs ih =>
    rw [ih (read_cons_eq_some_iff.1 h).2, quoting_advance]
    rfl

/-- Between characters quotes stay of a kind that can be. -/
theorem isReal_of_read (h : z.read s cs = some t) (hs : s.quoting.IsReal) : t.quoting.IsReal := by
  induction cs generalizing s with
  | nil => exact Option.some.inj h ▸ hs
  | cons c cs ih =>
    refine ih (read_cons_eq_some_iff.1 h).2 ?_
    rw [quoting_advance]
    exact hs.next c

/-- Brackets count outside of quotes only. -/
theorem depth_advance :
    (z.advance s c).depth = if s.quoting.isOutside then z.nest s.depth c else s.depth := by
  unfold advance
  split <;> rfl

/-- A prelude is ended outside of brackets by a brace or a semicolon. -/
theorem ends_prelude (neat : Bool) (depth : Nat) (c : Char) :
    (prelude neat).ends depth c = (depth == 0 && (c = '\x7b' || c = '\x7d' || c = ';')) :=
  (Bool.and_or_distrib_left ..).symm

theorem depth_advance_prelude {neat bare : Bool} :
    ((prelude neat bare).advance s c).depth =
      if s.quoting.isOutside then nesting s.depth c else s.depth := depth_advance

/-- Outside of quotes a character counts for quotes, brackets, comments and blanks. -/
theorem advance_of_isOutside (hs : s.quoting = .outside) (c : Char) :
    z.advance s c = ⟨Quoting.outside.next c, z.nest s.depth c, c = '/', isMarkupSpace c⟩ := by
  rw [advance, hs, Quoting.isOutside, if_pos rfl]

/-- Outside of quotes reading stops at an ending, at a comment and, where it is neat, at a blank too
many. -/
theorem stops_of_isOutside (hs : s.quoting = .outside) (c : Char) :
    z.stops s c = (z.ends s.depth c || (s.slash && c = '*') ||
      (z.neat && isMarkupSpace c && (s.blank || c ≠ ' '))) := by
  rw [stops, hs, Quoting.isOutside, Bool.true_and]

/-- Where a text ends with something else than a blank, so does what is read. -/
private theorem blank_of_read_concat (h : z.read s (cs ++ [c]) = some t)
    (hc : isMarkupSpace c = false) :
    t.blank = false := by
  obtain ⟨r, -, h⟩ := read_append_eq_some_iff.1 h
  obtain ⟨-, h⟩ := read_cons_eq_some_iff.1 h
  obtain rfl := Option.some.inj h
  unfold advance
  split
  · exact hc
  · rfl

/-- A name leaves a reader outside strings where it is. -/
theorem read_of_isNameChar {neat bare : Bool} {name : List Char}
    (hname : ∀ c ∈ name, isNameChar c = true)
    (hne : name ≠ []) (hs : s.quoting = .outside) :
    (prelude neat bare).read s name = some { depth := s.depth } := by
  induction name generalizing s with
  | nil => exact absurd rfl hne
  | cons c name ih =>
    obtain ⟨hc, hname⟩ := List.forall_mem_cons.1 hname
    have hne : ∀ d, isNameChar d = false → c ≠ d := fun d => ne_of_class hc
    have hblank : isMarkupSpace c = false := by
      simp [isMarkupSpace, hne ' ' rfl, hne '\t' rfl, hne '\n' rfl, hne '\r' rfl, hne '\x0c' rfl]
    have hstops : (prelude neat bare).stops s c = false := by
      rw [stops_of_isOutside hs]
      simp [prelude, hblank, hne '\x7b' rfl, hne '\x7d' rfl, hne ';' rfl, hne '*' rfl]
    have hadvance : (prelude neat bare).advance s c = { depth := s.depth } := by
      rw [advance_of_isOutside hs]
      simp [prelude, nesting, Quoting.next, hblank, hne '\'' rfl, hne '"' rfl, hne '(' rfl,
        hne '[' rfl, hne ')' rfl, hne ']' rfl, hne '/' rfl]
    rw [read, hstops, if_neg Bool.false_ne_true, hadvance]
    cases name with
    | nil => rfl
    | cons d name => exact ih hname (List.cons_ne_nil d name) rfl

/-- A name leaves a reader outside strings. -/
theorem quoting_of_read_isNameChar {neat bare : Bool} (h : (prelude neat bare).read s cs = some t)
    (hcs : ∀ c ∈ cs, isNameChar c = true) (hs : s.quoting = .outside) : t.quoting = .outside := by
  by_cases hnil : cs = []
  · subst hnil
    exact Option.some.inj h ▸ hs
  · rw [read_of_isNameChar hcs hnil hs] at h
    exact Option.some.inj h ▸ rfl

/-! ### What the readers of the style sheet make of it -/

/-- A prelude that is read through goes up to the brace or semicolon behind it. -/
theorem takePrelude_of_read {neat : Bool} (h : (prelude neat).read s cs = some t)
    (ht : t.quoting = .outside) (hdepth : t.depth = 0) {stop : Char}
    (hstop : stop = '\x7b' ∨ stop = '\x7d' ∨ stop = ';') (rest : List Char) :
    takePrelude s.quoting s.depth (cs ++ stop :: rest) = (cs, stop :: rest) := by
  induction cs generalizing s with
  | nil =>
    obtain rfl := Option.some.inj h
    have hends : (stop = '\x7b' || stop = '\x7d' || stop = ';') = true := by
      simpa [or_assoc] using hstop
    rw [List.nil_append, takePrelude, ht, hdepth, hends]
    rfl
  | cons c cs ih =>
    obtain ⟨hstops, h⟩ := read_cons_eq_some_iff.1 h
    have hgoes : (s.quoting.isOutside && s.depth == 0 &&
        (c = '\x7b' || c = '\x7d' || c = ';')) = false := by
      by_contra hne
      rw [Bool.not_eq_false, Bool.and_assoc, Bool.and_eq_true] at hne
      rw [stops, ends_prelude, hne.1, hne.2] at hstops
      cases hstops
    have hrest := ih h
    rw [quoting_advance, depth_advance] at hrest
    rw [List.cons_append, takePrelude, hgoes, if_neg Bool.false_ne_true]
    exact congrArg (fun taken => (c :: taken.1, taken.2)) hrest

/-- Declarations that are read through are collected up to their end. -/
theorem readDeclarations_of_read {neat : Bool} (h : (declaration neat).read s cs = some t)
    (start here : Nat) (text : List Char) (offset : Nat) (rest : List Char) :
    readDeclarations start here text s.quoting s.depth offset (cs ++ rest) =
      readDeclarations start here (cs.reverse ++ text) t.quoting t.depth (offset + byteLength cs)
        rest := by
  induction cs generalizing s text offset with
  | nil =>
    obtain rfl := Option.some.inj h
    rfl
  | cons c cs ih =>
    obtain ⟨hstops, h⟩ := read_cons_eq_some_iff.1 h
    have hrest := ih h (c :: text) (offset + c.utf8Size)
    rw [quoting_advance, depth_advance] at hrest
    rw [List.cons_append, readDeclarations, List.reverse_cons, List.append_assoc, byteLength,
      ← Nat.add_assoc]
    by_cases hs : s.quoting.isOutside = true
    · have hends : c ≠ '\x7b' ∧ c ≠ '\x7d' ∧ ¬ (s.depth = 0 ∧ c = ';') := by
        simp only [stops, hs, declaration, Bool.true_and, Bool.or_eq_false_iff] at hstops
        simpa [and_assoc] using hstops.1.1
      have hsemicolon : (c = ';' && s.depth == 0) = false := by
        simpa [imp_not_comm] using fun hc hd => hends.2.2 ⟨hd, hc⟩
      simp only [hs, hends.1, hends.2.1, hsemicolon, Bool.not_true, if_false, if_true] at hrest ⊢
      exact hrest
    · simp only [hs, Bool.not_false, if_true] at hrest ⊢
      exact hrest

end Zone

/-! ### Blanks -/

/-- Whether two spots differ in nothing but blanks. -/
def Spot.Alike (s t : Spot) : Prop := s.quoting = t.quoting ∧ s.depth = t.depth ∧ s.slash = t.slash

/-- The spot after a blank. -/
def Spot.pastBlank (s : Spot) : Spot := { quoting := s.quoting.next ' ', depth := s.depth }

namespace Spot

variable {r s t : Spot}

theorem Alike.symm (h : s.Alike t) : t.Alike s := ⟨h.1.symm, h.2.1.symm, h.2.2.symm⟩

theorem Alike.trans (h : r.Alike s) (h' : s.Alike t) : r.Alike t :=
  ⟨h.1.trans h'.1, h.2.1.trans h'.2.1, h.2.2.trans h'.2.2⟩

private theorem Alike.pastBlank (h : s.Alike t) : s.pastBlank.Alike t.pastBlank :=
  ⟨congrArg (Quoting.next · ' ') h.1, h.2.1, rfl⟩

/-- Blanks behind one another are as one. -/
private theorem pastBlank_pastBlank (h : s.quoting.IsReal) :
    s.pastBlank.pastBlank = s.pastBlank := by
  rw [pastBlank, pastBlank, h.next_blank_blank]

end Spot

namespace Zone

variable {z : Zone} {s s' t : Spot} {c : Char} {cs : List Char} {neat : Bool}

/-- What comes of a spot does not depend on blanks. -/
private theorem advance_eq_of_alike (h : s.Alike t) (c : Char) :
    { z with neat := neat }.advance t c = z.advance s c := by
  unfold advance
  rw [h.1, h.2.1]

/-- Spots that are alike are stopped by the same characters, where blanks do not matter. -/
private theorem stops_of_alike (h : s.Alike t) (hc : z.stops s c = false)
    (hneat : neat = true → t.quoting = .outside → isMarkupSpace c = true →
      t.blank = false ∧ c = ' ') :
    { z with neat := neat }.stops t c = false := by
  cases hq : t.quoting with
  | inside | escaped => simp [stops, hq, Quoting.isOutside]
  | outside =>
    rw [stops_of_isOutside (h.1.trans hq)] at hc
    simp only [Bool.or_eq_false_iff] at hc
    rw [stops_of_isOutside hq, ← h.2.1, ← h.2.2, hc.1.1, hc.1.2, Bool.false_or, Bool.false_or]
    by_contra hne
    simp only [Bool.not_eq_false, Bool.and_eq_true, Bool.or_eq_true, decide_eq_true_eq] at hne
    obtain ⟨⟨hn, hspace⟩, hbad⟩ := hne
    obtain ⟨hblank, rfl⟩ := hneat hn hq hspace
    simp [hblank] at hbad

/-- A blank leads to a spot that differs from the one before in blanks only. -/
theorem advance_blank (hs : s.quoting.IsReal) (hc : isBlank c = true) :
    (z.advance s c).Alike s.pastBlank := by
  unfold advance
  split
  · rename_i hout
    refine ⟨hs.next_of_isBlank hc, (z.blank s.depth c hc).1, ?_⟩
    simpa [Spot.pastBlank] using ne_of_class hc rfl
  · exact ⟨hs.next_of_isBlank hc, rfl, rfl⟩

/-- A text that is read through is so when its blanks are reduced, whatever strings that goes by. If
it goes by those of the text, the result is neat. -/
theorem exists_read_collapseFrom {q : Quoting} {p w : Bool}
    (h : z.read s cs = some s') (hs : s.Alike (if p then t.pastBlank else t))
    (hreal : t.quoting.IsReal)
    (hwritten : w = false → t.slash = false ∧ t.quoting.next ' ' = t.quoting)
    (hneat : neat = true → q = s.quoting ∧ (p = true → t.quoting = .outside) ∧
      (w = true → t.blank = false)) :
    ∃ t', { z with neat := neat }.read t (collapseFrom q p w cs) = some t' ∧
      (s'.Alike t' ∨ s'.Alike t'.pastBlank ∧ (neat = true → t'.quoting = .outside)) ∧
      (neat = true → w = true ∨ collapseFrom q p w cs ≠ [] →
        t'.blank = false) := by
  induction cs generalizing s t q p w with
  | nil =>
    obtain rfl := Option.some.inj h
    refine ⟨t, rfl, ?_, fun hn hsome => (hneat hn).2.2 (hsome.resolve_right fun hne => hne rfl)⟩
    cases p with
    | false => exact .inl hs
    | true => exact .inr ⟨hs, fun hn => (hneat hn).2.1 rfl⟩
  | cons c cs ih =>
    obtain ⟨hstops, h⟩ := read_cons_eq_some_iff.1 h
    -- what is written for a character of the text itself
    have hwrite : ∀ {u : Spot}, s.Alike u → u.quoting.IsReal →
        (q.isOutside && isMarkupSpace c) = false →
        ∃ t', { z with neat := neat }.read u (c :: collapseFrom (q.next c) false true cs) =
            some t' ∧
          (s'.Alike t' ∨ s'.Alike t'.pastBlank ∧ (neat = true → t'.quoting = .outside)) ∧
          (neat = true → t'.blank = false) := by
      intro u hu hureal hc
      have hcode : neat = true → s.quoting = .outside → isMarkupSpace c = false := by
        intro hn hq
        rw [(hneat hn).1, hq] at hc
        exact hc
      obtain ⟨t', hread, halike, hblank⟩ := ih (t := z.advance s c) (q := q.next c)
        (p := false) (w := true) h ⟨rfl, rfl, rfl⟩
        (by rw [quoting_advance, hu.1]; exact hureal.next c) nofun
        (fun hn => ⟨by rw [quoting_advance, (hneat hn).1], nofun, fun _ => by
          unfold advance
          split
          · rename_i hout
            exact hcode hn (Quoting.eq_outside_of_isOutside hout)
          · rfl⟩)
      refine ⟨t', read_cons_eq_some_iff.2 ⟨?_, ?_⟩, halike, fun hn => hblank hn (.inl rfl)⟩
      · exact stops_of_alike hu hstops fun hn hq hspace =>
          absurd hspace (by rw [hcode hn (hu.1.trans hq)]; exact Bool.false_ne_true)
      · rw [advance_eq_of_alike hu]
        exact hread
    rw [collapseFrom]
    split
    · rename_i hc
      obtain ⟨hout, hspace⟩ := Bool.and_eq_true_iff.1 hc
      have hsreal : s.quoting.IsReal := by
        cases p with
        | false => exact hs.1 ▸ hreal
        | true => exact hs.1 ▸ hreal.next ' '
      have hpast : s.pastBlank.Alike t.pastBlank := by
        cases p with
        | false => exact hs.pastBlank
        | true => exact Spot.pastBlank_pastBlank hreal ▸ hs.pastBlank
      refine ih (p := true) h ((advance_blank hsreal (isBlank_of_isMarkupSpace hspace)).trans hpast)
        hreal hwritten fun hn => ?_
      obtain ⟨hquoting, hpending, hblank⟩ := hneat hn
      have hq : s.quoting = .outside := hquoting ▸ Quoting.eq_outside_of_isOutside hout
      refine ⟨?_, fun _ => ?_, hblank⟩
      · rw [quoting_advance, hsreal.next_of_isBlank (isBlank_of_isMarkupSpace hspace), hq]
        rfl
      · cases p with
        | false => exact hs.1.symm.trans hq
        | true => exact hpending rfl
    · rename_i hc
      rw [Bool.not_eq_true] at hc
      simp only
      split
      · rename_i hboth
        obtain ⟨rfl, rfl⟩ := Bool.and_eq_true_iff.1 hboth
        have hblank : ({ z with neat := neat }.advance t ' ').Alike t.pastBlank :=
          advance_blank hreal rfl
        obtain ⟨t', hread, halike, hneat'⟩ :=
          hwrite (hs.trans hblank.symm) (hblank.1 ▸ hreal.next ' ') hc
        refine ⟨t', read_cons_eq_some_iff.2 ⟨?_, hread⟩, halike, fun hn _ => hneat' hn⟩
        cases hq : t.quoting with
        | inside | escaped => simp [stops, hq, Quoting.isOutside]
        | outside =>
          rw [stops_of_isOutside hq]
          have hends : z.ends t.depth ' ' = false := (z.blank t.depth ' ' rfl).2
          cases neat with
          | false => simp [hends]
          | true => simp [hends, (hneat rfl).2.2 rfl]
      · rename_i hboth
        have hst : s.Alike t := by
          cases p with
          | false => exact hs
          | true =>
            obtain ⟨hslash, hnext⟩ := hwritten (by simpa using hboth)
            exact hs.trans ⟨hnext, rfl, hslash.symm⟩
        obtain ⟨t', hread, halike, hneat'⟩ := hwrite hst hreal hc
        exact ⟨t', hread, halike, fun hn _ => hneat' hn⟩

/-- What is read neatly is read without neatness. -/
private theorem read_of_neat (h : { z with neat := true }.read s cs = some t) :
    { z with neat := neat }.read s cs = some t := by
  induction cs generalizing s with
  | nil => exact h
  | cons c cs ih =>
    obtain ⟨hstops, h⟩ := read_cons_eq_some_iff.1 h
    refine read_cons_eq_some_iff.2 ⟨?_, ih h⟩
    cases neat with
    | true => exact hstops
    | false =>
      rw [stops, Bool.and_eq_false_iff] at hstops ⊢
      refine hstops.imp_right fun hbad => ?_
      rw [Bool.false_and, Bool.false_and, Bool.or_false]
      exact (Bool.or_eq_false_iff.1 hbad).1

/-- Outside strings, a text that is read through is so with its blanks reduced, which makes it
neat. -/
theorem exists_read_collapse (h : z.read s cs = some t) (hs : s.quoting = .outside)
    (hslash : s.slash = false) (neat blank : Bool) :
    ∃ t', { z with neat := neat }.read { s with blank := blank } (collapse cs).toList = some t' ∧
      t'.quoting = t.quoting ∧ t'.depth = t.depth ∧ (collapse cs ≠ "" → t'.blank = false) := by
  have hstart : ({ s with blank := blank } : Spot).quoting = .outside := hs
  obtain ⟨t', hread, halike, hblank⟩ : ∃ t',
      { z with neat := true }.read { s with blank := blank }
        (collapseFrom .outside false false cs) =
        some t' ∧
      (t.Alike t' ∨ t.Alike t'.pastBlank ∧ (true = true → t'.quoting = .outside)) ∧
      (true = true → false = true ∨ collapseFrom .outside false false cs ≠ [] → t'.blank = false) :=
    exists_read_collapseFrom (t := { s with blank := blank }) (p := false) (w := false) h
      ⟨rfl, rfl, rfl⟩ (hstart ▸ trivial) (fun _ => ⟨hslash, by rw [hstart]; rfl⟩)
      fun _ => ⟨hs.symm, nofun, nofun⟩
  rw [collapse, String.toList_ofList]
  refine ⟨t', read_of_neat hread, ?_, ?_, fun hne => hblank rfl (.inr fun hnil => hne ?_)⟩
  · rcases halike with halike | ⟨halike, hout⟩
    · exact halike.1.symm
    · rw [halike.1, Spot.pastBlank, hout rfl]
      rfl
  · exact halike.elim (fun h => h.2.1.symm) fun h => h.1.2.1.symm
  · rw [hnil]

/-- In a string as well, where that goes by other strings, if the text leads out of it. -/
theorem exists_read_collapse_of_isReal (h : z.read s cs = some t) (hz : z.neat = false)
    (hs : s.quoting.IsReal) (hnext : s.quoting.next ' ' = s.quoting) (hslash : s.slash = false)
    (ht : t.quoting = .outside) :
    ∃ t', z.read s (collapse cs).toList = some t' ∧ t'.quoting = .outside ∧ t'.depth = t.depth := by
  obtain ⟨t', hread, halike, -⟩ : ∃ t',
      { z with neat := false }.read s (collapseFrom .outside false false cs) = some t' ∧
      (t.Alike t' ∨ t.Alike t'.pastBlank ∧ (false = true → t'.quoting = .outside)) ∧
      (false = true → false = true ∨ collapseFrom .outside false false cs ≠ [] →
        t'.blank = false) :=
    exists_read_collapseFrom (p := false) (w := false) h ⟨rfl, rfl, rfl⟩ hs
      (fun _ => ⟨hslash, hnext⟩) fun hn => by cases hn
  have hsame : { z with neat := false } = z := by
    cases z
    cases hz
    rfl
  rw [hsame] at hread
  rw [collapse, String.toList_ofList]
  refine ⟨t', hread, ?_, halike.elim (fun h => h.2.1.symm) fun h => h.1.2.1.symm⟩
  rcases halike with halike | ⟨halike, -⟩
  · exact halike.1.symm.trans ht
  · exact (isReal_of_read hread hs).eq_outside_of_next_blank (halike.1.symm.trans ht)

/-- Reducing the blanks of a neat text changes nothing. -/
theorem collapseFrom_of_read {w : Bool} (hz : z.neat = true) (h : z.read s cs = some t)
    (ht : t.blank = false) :
    ((w = false → s.blank = true) → collapseFrom s.quoting false w cs = cs) ∧
      (s.quoting = .outside → s.blank = true → collapseFrom .outside true true cs = ' ' :: cs) := by
  induction cs generalizing s w with
  | nil =>
    obtain rfl := Option.some.inj h
    refine ⟨fun _ => rfl, fun _ hblank => ?_⟩
    rw [ht] at hblank
    cases hblank
  | cons c cs ih =>
    obtain ⟨hstops, h⟩ := read_cons_eq_some_iff.1 h
    by_cases hc : (s.quoting.isOutside && isMarkupSpace c) = true
    · obtain ⟨hout, hspace⟩ := Bool.and_eq_true_iff.1 hc
      have hq := Quoting.eq_outside_of_isOutside hout
      -- a blank is a single space behind something else
      obtain ⟨hblank, rfl⟩ : s.blank = false ∧ c = ' ' := by
        rw [stops_of_isOutside hq, hz, hspace] at hstops
        simpa using (Bool.or_eq_false_iff.1 hstops).2
      refine ⟨fun hwritten => ?_, fun _ hs => absurd (hblank.symm.trans hs) Bool.false_ne_true⟩
      obtain rfl : w = true := by
        by_contra hne
        exact absurd (hblank.symm.trans (hwritten (by simpa using hne))) Bool.false_ne_true
      rw [collapseFrom, if_pos hc]
      refine (ih (w := true) h).2 ?_ ?_
      · rw [quoting_advance, hq]
        rfl
      · rw [advance_of_isOutside hq]
        rfl
    · have hrest := (ih (w := true) h).1 fun hw => by cases hw
      rw [quoting_advance] at hrest
      refine ⟨fun _ => ?_, fun hq _ => ?_⟩
      · rw [collapseFrom, if_neg hc, hrest]
        rfl
      · rw [hq] at hc hrest
        rw [collapseFrom, if_neg hc, hrest]
        rfl

end Zone

/-- Reducing blanks a second time changes nothing. -/
private theorem collapseFrom_collapseFrom {q : Quoting} {p w : Bool}
    (h : p = true → q = .outside) (cs : List Char) :
    collapseFrom q false w (collapseFrom q p w cs) =
      collapseFrom q p w cs := by
  induction cs generalizing q p w with
  | nil => rfl
  | cons c cs ih =>
    by_cases hc : (q.isOutside && isMarkupSpace c) = true
    · obtain ⟨hout, -⟩ := Bool.and_eq_true_iff.1 hc
      obtain rfl := Quoting.eq_outside_of_isOutside hout
      rw [collapseFrom, if_pos hc]
      exact ih fun _ => rfl
    · have hrest : collapseFrom (q.next c) false true
          (collapseFrom (q.next c) false true cs) = collapseFrom (q.next c) false true cs :=
        ih fun hpending => absurd hpending Bool.false_ne_true
      rw [collapseFrom, if_neg hc]
      simp only
      split
      · rename_i hboth
        obtain ⟨rfl, rfl⟩ := Bool.and_eq_true_iff.1 hboth
        obtain rfl := h rfl
        have hspace : (Quoting.outside.isOutside && isMarkupSpace ' ') = true := rfl
        rw [collapseFrom, if_pos hspace, collapseFrom, if_neg hc, hrest]
        rfl
      · rw [collapseFrom, if_neg hc, hrest]
        rfl

/-- Collapsed text is not collapsed further. -/
theorem collapse_collapse (cs : List Char) : collapse (collapse cs).toList = collapse cs := by
  unfold collapse
  rw [String.toList_ofList]
  exact congrArg String.ofList (collapseFrom_collapseFrom (fun h => by cases h) cs)

/-- What is not a blank stays at the end. -/
theorem getLast?_collapseFrom {q : Quoting} {p w : Bool} {cs : List Char} {c : Char}
    (h : cs.getLast? = some c) (hc : isMarkupSpace c = false) :
    (collapseFrom q p w cs).getLast? = some c := by
  induction cs generalizing q p w with
  | nil => cases h
  | cons d cs ih =>
    rw [collapseFrom]
    cases cs with
    | nil =>
      have hd : d = c := Option.some.inj h
      rw [hd, hc, Bool.and_false, if_neg Bool.false_ne_true]
      cases p <;> cases w <;> rfl
    | cons e cs =>
      rw [List.getLast?_cons_cons] at h
      split
      · exact ih h
      · have hrest := ih (q := q.next d) (p := false) (w := true) h
        simp only
        split <;> simp [List.getLast?_cons, hrest]

/-! ### Comments -/

/-- Whether a comment begins in a text. -/
def opensComment : Quoting → List Char → Bool
  | _, [] => false
  | q, c :: cs => q.isOutside && c = '/' && cs.head? = some '*' || opensComment (q.next c) cs

/-- The open string of a scan for comments. -/
def CommentScan.quoting : CommentScan → Quoting
  | .code q => q
  | .opening _ | .comment .. => .outside

/-- Replacing the comments leaves none, and makes none. -/
theorem opensComment_of_stripFrom {scan : CommentScan} {offset : Nat} {cs out : List Char}
    (h : stripFrom scan offset cs = .ok out) :
    opensComment scan.quoting out = false := by
  induction cs generalizing scan offset out with
  | nil =>
    cases scan with
    | code q =>
      obtain rfl := Except.ok.inj h
      rfl
    | opening | comment => cases h
  | cons c cs ih =>
    cases scan with
    | opening start => exact (ih h :)
    | comment start star =>
      rw [stripFrom] at h
      split at h
      · exact (ih h :)
      · exact (ih h :)
    | code q =>
      rw [stripFrom] at h
      split at h
      · rename_i hopens
        simp only [Bool.and_eq_true] at hopens
        obtain ⟨out', hrest, rfl⟩ := map_eq_ok_iff.1 h
        have hout := Quoting.eq_outside_of_isOutside hopens.1.1
        rw [CommentScan.quoting, hout]
        exact ih hrest
      · rename_i hgoes
        obtain ⟨out', hrest, rfl⟩ := map_eq_ok_iff.1 h
        have hout : opensComment (q.next c) out' = false := ih hrest
        rw [CommentScan.quoting, opensComment, hout, Bool.or_false]
        by_contra hne
        simp only [Bool.not_eq_false, Bool.and_eq_true, decide_eq_true_eq] at hne hgoes
        refine hgoes ⟨hne.1, ?_⟩
        -- the star stood there before
        have hprefix : ['*'] <+: cs := by
          refine prefix_of_prefix_stripFrom (by decide) hrest ?_
          obtain ⟨d, out'', rfl⟩ :=
            List.exists_cons_of_ne_nil (l := out') (by rintro rfl; cases hne.2)
          rw [Option.some.inj hne.2]
          exact ⟨out'', rfl⟩
        obtain ⟨rest, rfl⟩ := hprefix
        rfl

/-- Text in which no comment opens is left as it is. -/
theorem stripFrom_of_opensComment {q : Quoting} {cs : List Char} (h : opensComment q cs = false)
    (offset : Nat) : stripFrom (.code q) offset cs = .ok cs := by
  induction cs generalizing q offset with
  | nil => rfl
  | cons c cs ih =>
    obtain ⟨hc, hcs⟩ := Bool.or_eq_false_iff.1 h
    rw [stripFrom, hc, if_neg Bool.false_ne_true, ih hcs]
    rfl

/-- No comment begins in a text that is read through, unless what follows completes its
beginning. -/
theorem Zone.opensComment_append_of_read {z : Zone} {s t : Spot} {cs rest : List Char}
    (h : z.read s cs = some t) (hrest : rest.head? ≠ some '*') :
    opensComment s.quoting (cs ++ rest) = opensComment t.quoting rest := by
  induction cs generalizing s with
  | nil =>
    obtain rfl := Option.some.inj h
    rfl
  | cons c cs ih =>
    obtain ⟨hstops, h⟩ := read_cons_eq_some_iff.1 h
    have hgoes : (s.quoting.isOutside && c = '/' && (cs ++ rest).head? = some '*') = false := by
      by_contra hne
      simp only [Bool.not_eq_false, Bool.and_eq_true, decide_eq_true_eq] at hne
      obtain ⟨⟨hs, rfl⟩, hstar⟩ := hne
      cases cs with
      | nil => exact hrest hstar
      | cons d cs =>
        obtain rfl := Option.some.inj hstar
        obtain ⟨hstops', -⟩ := read_cons_eq_some_iff.1 h
        rw [advance_of_isOutside (Quoting.eq_outside_of_isOutside hs)] at hstops'
        simp [stops, Quoting.next, Quoting.isOutside] at hstops'
    have hnext := ih h
    rw [quoting_advance] at hnext
    rw [List.cons_append, opensComment, hgoes, Bool.false_or, hnext]

/-- Whether no comment begins behind a spot. -/
structure Spot.Clear (s : Spot) (cs : List Char) : Prop where
  opensComment : opensComment s.quoting cs = false
  slash : s.slash = true → cs.head? ≠ some '*'

namespace Spot.Clear

variable {z : Zone} {s : Spot} {c : Char} {cs : List Char}

/-- A clear spot stays clear when the next character is read. -/
theorem advance (h : s.Clear (c :: cs)) : (z.advance s c).Clear cs := by
  have hopens := h.opensComment
  rw [Style.opensComment, Bool.or_eq_false_iff] at hopens
  refine ⟨by rw [Zone.quoting_advance]; exact hopens.2, fun hslash hstar => ?_⟩
  unfold Zone.advance at hslash
  split at hslash
  · rename_i hout
    simp [hout, hstar, of_decide_eq_true hslash] at hopens
  · cases hslash

/-- No character stops the reading of clear text outside of quotes, but an ending. -/
theorem stops (h : s.Clear (c :: cs)) (hz : z.neat = false)
    (hends : s.quoting = .outside → z.ends s.depth c = false) : z.stops s c = false := by
  cases hq : s.quoting with
  | inside | escaped => simp [Zone.stops, hq, Quoting.isOutside]
  | outside =>
    rw [Zone.stops_of_isOutside hq, hends hq, hz, Bool.false_and, Bool.false_and, Bool.or_false,
      Bool.false_or]
    by_contra hne
    simp only [Bool.not_eq_false, Bool.and_eq_true, decide_eq_true_eq] at hne
    exact h.slash hne.1 (congrArg some hne.2)

/-- A clear spot stays clear while a text is read. -/
theorem of_read {t : Spot} {a b : List Char} (h : s.Clear (a ++ b)) (hread : z.read s a = some t) :
    t.Clear b := by
  induction a generalizing s with
  | nil =>
    obtain rfl := Option.some.inj hread
    exact h
  | cons c a ih => exact ih h.advance (Zone.read_cons_eq_some_iff.1 hread).2

/-- Outside strings, it does not matter what stood before. -/
theorem restart (h : s.Clear cs) (hs : s.quoting = .outside) : ({} : Spot).Clear cs :=
  ⟨hs ▸ h.opensComment, nofun⟩

/-- A character outside of quotes can be left out in front of clear text. -/
theorem tail (h : ({} : Spot).Clear (c :: cs)) (hc : Quoting.outside.next c = .outside) :
    ({} : Spot).Clear cs :=
  (h.advance (z := Zone.prelude false)).restart (by rw [Zone.quoting_advance, hc])

/-- Blanks can be left out in front of clear text. -/
theorem dropWhile (h : ({} : Spot).Clear cs) : ({} : Spot).Clear (cs.dropWhile isMarkupSpace) := by
  induction cs with
  | nil => exact h
  | cons c cs ih =>
    by_cases hc : isMarkupSpace c = true
    · rw [List.dropWhile_cons_of_pos hc]
      refine ih (h.tail ?_)
      exact Quoting.IsReal.next_of_isBlank (q := .outside) trivial (isBlank_of_isMarkupSpace hc)
    · rwa [List.dropWhile_cons_of_neg hc]

end Spot.Clear

/-- A prelude without comments is read through, and leads outside strings and brackets unless the
text ends before. -/
theorem exists_read_takePrelude {s : Spot} {cs : List Char} (h : s.Clear cs) :
    ∃ t, (Zone.prelude false).read s (takePrelude s.quoting s.depth cs).1 = some t ∧
      t.Clear (takePrelude s.quoting s.depth cs).2 ∧
      ∀ c ∈ (takePrelude s.quoting s.depth cs).2.head?, t.quoting = .outside ∧ t.depth = 0 ∧
        (c = '\x7b' ∨ c = '\x7d' ∨ c = ';') := by
  induction cs generalizing s with
  | nil => exact ⟨s, rfl, h, nofun⟩
  | cons c cs ih =>
    rw [takePrelude]
    split
    · rename_i hends
      refine ⟨s, rfl, h, fun d hd => ?_⟩
      obtain rfl := Option.some.inj hd
      simp only [Bool.and_eq_true, Bool.or_eq_true, decide_eq_true_eq, beq_iff_eq] at hends
      exact ⟨Quoting.eq_outside_of_isOutside hends.1.1, hends.1.2, or_assoc.1 hends.2⟩
    · rename_i hgoes
      obtain ⟨t, hread, hclear, hstop⟩ := ih (h.advance (z := Zone.prelude false))
      rw [Zone.quoting_advance, Zone.depth_advance] at hread hclear hstop
      refine ⟨t, Zone.read_cons_eq_some_iff.2 ⟨h.stops rfl fun hs => ?_, hread⟩, hclear, hstop⟩
      rw [Zone.ends_prelude]
      simpa [hs, Quoting.isOutside] using hgoes

/-! ### Trimming -/

namespace Zone

variable {z : Zone} {s t : Spot} {cs : List Char}

/-- Blanks leave a reader outside strings where it is. -/
theorem read_of_isBlank (hs : s.quoting = .outside) (h : z.read s cs = some t)
    (hcs : ∀ c ∈ cs, isBlank c = true) :
    t.quoting = .outside ∧ t.depth = s.depth ∧ (s.slash = false → t.slash = false) := by
  induction cs generalizing s with
  | nil =>
    obtain rfl := Option.some.inj h
    exact ⟨hs, rfl, id⟩
  | cons c cs ih =>
    obtain ⟨hc, hcs⟩ := List.forall_mem_cons.1 hcs
    have hreal : s.quoting.IsReal := hs ▸ trivial
    obtain ⟨hquoting, hdepth, hslash⟩ := advance_blank (z := z) hreal hc
    have hout : (z.advance s c).quoting = .outside := by
      rw [hquoting, Spot.pastBlank, hs]
      rfl
    obtain ⟨hq, hd, hrest⟩ := ih hout (read_cons_eq_some_iff.1 h).2 hcs
    exact ⟨hq, hd.trans hdepth, fun _ => hrest hslash⟩

/-- Blanks lead from nowhere else to a spot outside strings. -/
private theorem of_read_isBlank (hreal : s.quoting.IsReal) (h : z.read s cs = some t)
    (ht : t.quoting = .outside)
    (hcs : ∀ c ∈ cs, isBlank c = true) : s.quoting = .outside := by
  induction cs generalizing s with
  | nil => exact Option.some.inj h ▸ ht
  | cons c cs ih =>
    obtain ⟨hc, hcs⟩ := List.forall_mem_cons.1 hcs
    have hadvance := advance_blank (z := z) hreal hc
    have hout : (z.advance s c).quoting = .outside :=
      ih (by rw [hadvance.1]; exact hreal.next ' ') (read_cons_eq_some_iff.1 h).2 hcs
    exact hreal.eq_outside_of_next_blank (hadvance.1.symm.trans hout)

/-- A text that is read through outside strings is so without the blanks around it, and ends with
something else if anything is left. -/
theorem exists_read_trimBlank (h : z.read s cs = some t) (hs : s.quoting = .outside)
    (hslash : s.slash = false) (ht : t.quoting = .outside) (blank : Bool) :
    ∃ t', z.read { s with blank := blank } (trimBlank cs) = some t' ∧ t'.quoting = .outside ∧
      t'.depth = t.depth ∧ (trimBlank cs ≠ [] → t'.blank = false) := by
  obtain ⟨leading, trailing, heq, hleading, htrailing⟩ := exists_append_trimBlank cs
  rw [heq, List.append_assoc] at h
  obtain ⟨r, hread, h⟩ := read_append_eq_some_iff.1 h
  obtain ⟨t', hmiddle, h⟩ := read_append_eq_some_iff.1 h
  obtain ⟨hrq, hrd, hrslash⟩ := read_of_isBlank hs hread hleading
  -- The blanks at the end were read outside strings, so what is in front of them ends outside
  -- strings.
  have htq : t'.quoting = .outside :=
    of_read_isBlank (isReal_of_read hmiddle (hrq ▸ trivial)) h ht htrailing
  obtain ⟨-, htd, -⟩ := read_of_isBlank htq h htrailing
  cases htrim : trimBlank cs with
  | nil =>
    rw [htrim] at hmiddle
    obtain rfl := Option.some.inj hmiddle
    exact ⟨_, rfl, hs, hrd.symm.trans htd.symm, fun hne => absurd rfl hne⟩
  | cons c rest =>
    rw [htrim] at hmiddle
    have hfirst : isMarkupSpace c = false :=
      isMarkupSpace_eq_false (not_isBlank_of_head?_trimBlank c (by rw [htrim]; rfl))
    obtain ⟨hstops, hrest⟩ := read_cons_eq_some_iff.1 hmiddle
    -- Whether a blank was read before makes no difference to a character that is none.
    refine ⟨t', read_cons_eq_some_iff.2 ⟨?_, ?_⟩, htq, htd.symm, fun _ => ?_⟩
    · rw [stops_of_isOutside hrq, hrd, hrslash hslash, hfirst] at hstops
      have hs' : ({ s with blank := blank } : Spot).quoting = .outside := hs
      rw [stops_of_isOutside hs', hslash, hfirst]
      simpa using hstops
    · rw [advance_of_isOutside hrq, hrd] at hrest
      have hs' : ({ s with blank := blank } : Spot).quoting = .outside := hs
      rwa [advance_of_isOutside hs']
    · obtain ⟨body, last, hlast⟩ := List.eq_nil_or_concat' (c :: rest) |>.resolve_left nofun
      rw [hlast] at hmiddle htrim
      refine blank_of_read_concat hmiddle (isMarkupSpace_eq_false ?_)
      exact not_isBlank_of_getLast?_trimBlank last (by rw [htrim, List.getLast?_concat]; rfl)

end Zone

end ViewCompiler.Style
