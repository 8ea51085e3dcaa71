import Mathlib.Tactic.SplitIfs
import ViewCompiler.Proofs.Text.Pieces
import ViewCompiler.Style.Selector

/-!
# Reading selectors

How a selector list falls into compound selectors, without regard to the cuts that scoping makes. A
reader goes through the text once and keeps track of strings, of open brackets with the character
that closes each, and of escapes: outside strings a backslash takes the next character along, or up
to six hexadecimal digits and one blank behind them. A compound is a text in which nothing separates
and at whose end nothing is open (`IsCompound`); `compounds` are the texts between the separators of
a list, and `firstSimple` is the first simple selector of a compound with all that belongs to it.
-/

namespace ViewCompiler.Style

open ViewCompiler.Text

/-- Where a reader of a selector stands. Open brackets are kept as the characters that close them,
the innermost one first. -/
inductive Place where
  | code (closers : List Char)
  /-- Just after a backslash outside strings. -/
  | escape (closers : List Char)
  /-- After some hexadecimal digits of an escape. -/
  | numeric (digits : Nat) (closers : List Char)
  | string (quoting : Quoting) (closers : List Char)
  /-- After a bracket that closes another one than is open. -/
  | broken
  deriving DecidableEq, Repr

namespace Place

/-- Outside everything. -/
def top : Place := .code []

/-- Whether a character is a hexadecimal digit. -/
def isHexDigit (c : Char) : Bool := c.isDigit || ('a' ≤ c && c ≤ 'f') || ('A' ≤ c && c ≤ 'F')

/-- The place after a character that belongs to no escape and no string. -/
def plain (closers : List Char) (c : Char) : Place :=
  if c = '\\' then .escape closers
  else if c = '\'' || c = '"' then .string (.inside c) closers
  else if c = '(' then .code (')' :: closers)
  else if c = '[' then .code (']' :: closers)
  else if c = ')' || c = ']' then
    match closers with
    | closer :: closers => if c = closer then .code closers else .broken
    | [] => .broken
  else .code closers

/-- The place after one more character. -/
def advance : Place → Char → Place
  | .code closers, c => plain closers c
  | .escape closers, c => if isHexDigit c then .numeric 1 closers else .code closers
  | .numeric digits closers, c =>
    if isHexDigit c && digits < 6 then .numeric (digits + 1) closers
    else if isMarkupSpace c then .code closers
    else plain closers c
  | .string quoting closers, c =>
    match quoting.next c with
    | .outside => .code closers
    | quoting => .string quoting closers
  | .broken, _ => .broken

/-- Whether a character separates two compounds. A blank behind a numeric escape belongs to the
escape. -/
def separates : Place → Char → Bool
  | .code [], c => c = ',' || isCombining c
  | .numeric _ [], c => c = ',' || (isCombining c && !isMarkupSpace c)
  | _, _ => false

/-- The place after a piece of text. -/
def after (p : Place) (cs : List Char) : Place := cs.foldl advance p

/-- Whether a piece of text holds no separator. -/
def isWhole : Place → List Char → Bool
  | _, [] => true
  | p, c :: cs => !p.separates c && (p.advance c).isWhole cs

/-- The pieces between the separators. -/
def pieces : Place → List Char → List (List Char)
  | _, [] => [[]]
  | p, c :: cs =>
    if p.separates c then [] :: pieces top cs
    else match pieces (p.advance c) cs with
      | [] => [[c]]
      | piece :: rest => (c :: piece) :: rest

/-- The text up to the character that closes everything, and what follows. -/
def takeClosed : Place → List Char → List Char × List Char
  | _, [] => ([], [])
  | p, c :: cs =>
    if p.advance c = top then ([c], cs)
    else
      let (taken, rest) := takeClosed (p.advance c) cs
      (c :: taken, rest)

/-- Whether a character continues a name: by its class, or as part of an escape. -/
def continuesName (qualified : Bool) : Place → Char → Bool
  | .escape _, _ => true
  | .numeric _ _, c => isNameChar c || c = '\\' || isMarkupSpace c
  | _, c => isNameChar c || c = '\\' || (qualified && c = '|')

/-- The name that stands here, and what follows. The name of a type may be qualified with a name
space. -/
def takeName (qualified : Bool) : Place → List Char → List Char × List Char
  | _, [] => ([], [])
  | p, c :: cs =>
    if p.continuesName qualified c then
      let (taken, rest) := takeName qualified (p.advance c) cs
      (c :: taken, rest)
    else ([], c :: cs)

end Place

/-- Whether nothing in a text separates, and everything that it opens is closed at its end. -/
def IsClosed (cs : List Char) : Prop := Place.top.isWhole cs = true ∧ Place.top.after cs = .top

instance (cs : List Char) : Decidable (IsClosed cs) := inferInstanceAs (Decidable (_ ∧ _))

/-- Whether a text is one compound selector. -/
def IsCompound (cs : List Char) : Prop := cs ≠ [] ∧ IsClosed cs

instance (cs : List Char) : Decidable (IsCompound cs) := inferInstanceAs (Decidable (_ ∧ _))

/-- The compound selectors of a selector list. -/
def compounds (cs : List Char) : List (List Char) := (Place.top.pieces cs).filter (!·.isEmpty)

/-- The first simple selector of a compound, and what follows: an attribute selector up to its
closing bracket, the name of a type, or a sign such as that of classes and the name behind it. -/
def firstSimple (c : List Char) : List Char × List Char :=
  match c with
  | [] => ([], [])
  | '[' :: _ => Place.top.takeClosed c
  | first :: rest =>
    if isNameChar first || first = '\\' then Place.top.takeName true c
    else
      let (name, rest) := Place.top.takeName false rest
      (first :: name, rest)

/-- What follows `:host` in a compound, with an argument in place of its brackets. -/
def hostTail (rest : List Char) : List Char :=
  match rest with
  | '(' :: _ =>
    let (argument, rest) := Place.top.takeClosed rest
    trimBlank (argument.drop 1).dropLast ++ rest
  | _ => rest

/-- Whether a text can follow a type selector in a compound: it is empty or starts another simple
selector. -/
def continuesCompound (cs : List Char) : Bool :=
  cs.head?.all fun c => c = '.' || c = '#' || c = '[' || c = ':'

/-! ### Characters of names -/

theorem isNameChar_of_isUpper {c : Char} (h : isUpper c = true) : isNameChar c = true := by
  unfold isUpper at h
  split at h
  · have halphanum : c.isAlphanum = (c.isUpper || c.isLower || c.isDigit) := rfl
    simp [isNameChar, halphanum, h]
  · rename_i hascii
    simp [isNameChar, hascii]

namespace Place

private theorem plain_of_isNameChar (closers : List Char) {c : Char} (h : isNameChar c = true) :
    plain closers c = .code closers := by
  have hne : ∀ d, isNameChar d = false → c ≠ d := fun d => ne_of_class h
  simp [plain, hne '\\' rfl, hne '\'' rfl, hne '"' rfl, hne '(' rfl, hne '[' rfl, hne ')' rfl,
    hne ']' rfl]

private theorem separates_of_isNameChar (p : Place) {c : Char} (h : isNameChar c = true) :
    p.separates c = false := by
  have hne : ∀ d, isNameChar d = false → c ≠ d := fun d => ne_of_class h
  have hcombining : isCombining c = false := by
    simp [isCombining, isMarkupSpace, hne ' ' rfl, hne '\t' rfl, hne '\n' rfl, hne '\r' rfl,
      hne '\x0c' rfl, hne '>' rfl, hne '+' rfl, hne '~' rfl]
  have hcomma := hne ',' rfl
  cases p with
  | code closers | numeric digits closers =>
    cases closers with
    | nil => simp [separates, hcombining, hcomma]
    | cons => rfl
  | escape | string | broken => rfl

/-! ### Reading one text after another -/

/-- Texts are gone through one behind the other. -/
theorem after_append (p : Place) (a b : List Char) : p.after (a ++ b) = (p.after a).after b :=
  List.foldl_append

/-- No piece ends within two texts exactly if none ends within either. -/
theorem isWhole_append (p : Place) (a b : List Char) :
    p.isWhole (a ++ b) = (p.isWhole a && (p.after a).isWhole b) := by
  induction a generalizing p with
  | nil => rfl
  | cons c a ih => simp only [List.cons_append, isWhole, ih, Bool.and_assoc, after, List.foldl_cons]

theorem after_broken (cs : List Char) : broken.after cs = .broken := by
  induction cs with
  | nil => rfl
  | cons c cs ih => exact ih

/-- A name leaves a reader where it is. -/
theorem after_of_isNameChar (closers : List Char) {cs : List Char}
    (h : ∀ c ∈ cs, isNameChar c = true) : (code closers).after cs = .code closers := by
  induction cs with
  | nil => rfl
  | cons c cs ih =>
    obtain ⟨hc, hcs⟩ := List.forall_mem_cons.1 h
    rw [after, List.foldl_cons, advance, plain_of_isNameChar closers hc]
    exact ih hcs

/-- No piece ends within a name. -/
theorem isWhole_of_isNameChar (p : Place) {cs : List Char} (h : ∀ c ∈ cs, isNameChar c = true) :
    p.isWhole cs = true := by
  induction cs generalizing p with
  | nil => rfl
  | cons c cs ih =>
    obtain ⟨hc, hcs⟩ := List.forall_mem_cons.1 h
    rw [isWhole, separates_of_isNameChar p hc, ih _ hcs]
    rfl

/-- A text without a separator is in one piece, and a separator behind it ends the piece. -/
private theorem pieces_append {p : Place} {a : List Char} (h : p.isWhole a = true) {c : Char}
    (hc : (p.after a).separates c = true) (b : List Char) :
    p.pieces (a ++ c :: b) = a :: top.pieces b := by
  induction a generalizing p with
  | nil =>
    have hc : p.separates c = true := hc
    rw [List.nil_append, pieces, if_pos hc]
  | cons d a ih =>
    obtain ⟨hd, ha⟩ := Bool.and_eq_true_iff.1 h
    rw [List.cons_append, pieces, if_neg (by simpa using hd), ih ha hc]

/-- A text within which no piece ends is one piece. -/
private theorem pieces_of_isWhole {p : Place} {a : List Char} (h : p.isWhole a = true) :
    p.pieces a = [a] := by
  induction a generalizing p with
  | nil => rfl
  | cons d a ih =>
    obtain ⟨hd, ha⟩ := Bool.and_eq_true_iff.1 h
    rw [pieces, if_neg (by simpa using hd), ih ha]

/-! ### Taking what belongs together -/

/-- A text is what is taken of it up to a closing bracket, and the rest. -/
theorem takeClosed_append (p : Place) (cs : List Char) :
    (p.takeClosed cs).1 ++ (p.takeClosed cs).2 = cs := by
  induction cs generalizing p with
  | nil => rfl
  | cons c cs ih =>
    rw [takeClosed]
    split
    · rfl
    · rw [List.cons_append, ih]

private theorem takeName_append (qualified : Bool) (p : Place) (cs : List Char) :
    (p.takeName qualified cs).1 ++ (p.takeName qualified cs).2 = cs := by
  induction cs generalizing p with
  | nil => rfl
  | cons c cs ih =>
    rw [takeName]
    split
    · rw [List.cons_append, ih]
    · rfl

/-- Whether a bracket is open that the given character closes, and that was opened before all
others. -/
def IsWithin (closer : Char) : Place → Prop
  | .code closers | .escape closers | .numeric _ closers | .string _ closers =>
    closers.getLast? = some closer
  | .broken => True

/-- Only the closing bracket leads out of the outermost brackets. -/
theorem IsWithin.advance {closer : Char} {p : Place} (h : p.IsWithin closer) (c : Char) :
    p.advance c = top ∧ c = closer ∨ (p.advance c).IsWithin closer := by
  have hplain : ∀ closers : List Char, closers.getLast? = some closer →
      plain closers c = top ∧ c = closer ∨ (plain closers c).IsWithin closer := by
    intro closers hclosers
    -- Only the innermost bracket can be closed, and the outermost one stays the last of the list.
    obtain ⟨d, ds, rfl⟩ := List.exists_cons_of_ne_nil
      (List.getLast?_isSome.1 (by rw [hclosers]; rfl))
    have hinner : ∀ d', (d' :: d :: ds).getLast? = some closer := fun d' => by
      rw [List.getLast?_cons_cons]
      exact hclosers
    simp only [plain]
    split_ifs with h₁ h₂ h₃ h₄ h₅ h₆
    · exact .inr hclosers
    · exact .inr hclosers
    · exact .inr (hinner _)
    · exact .inr (hinner _)
    · cases ds with
      | nil => exact .inl ⟨rfl, h₆.trans (Option.some.inj hclosers)⟩
      | cons e ds =>
        rw [List.getLast?_cons_cons] at hclosers
        exact .inr hclosers
    · exact .inr trivial
    · exact .inr hclosers
  cases p with
  | code closers => exact hplain closers h
  | escape closers =>
    simp only [Place.advance]
    split <;> exact .inr h
  | numeric digits closers =>
    simp only [Place.advance]
    split
    · exact .inr h
    · split
      · exact .inr h
      · exact hplain closers h
  | string quoting closers =>
    simp only [Place.advance]
    split <;> exact .inr h
  | broken => exact .inr trivial

/-- What is taken up to the closing bracket ends with it, and leaves nothing open. -/
theorem takeClosed_spec {closer : Char} {p : Place} (h : p.IsWithin closer) {cs : List Char}
    (hcs : p.after cs = top) :
    ∃ inner, (p.takeClosed cs).1 = inner ++ [closer] ∧ p.after (inner ++ [closer]) = top := by
  have hne : p ≠ top := by
    rintro rfl
    cases h
  induction cs generalizing p with
  | nil => exact absurd hcs hne
  | cons c cs ih =>
    rw [takeClosed]
    obtain ⟨htop, rfl⟩ | hwithin := h.advance c
    · rw [if_pos htop]
      exact ⟨[], rfl, htop⟩
    · have hnext : p.advance c ≠ top := by
        intro htop
        rw [htop] at hwithin
        cases hwithin
      obtain ⟨inner, htaken, hafter⟩ := ih hwithin hcs hnext
      rw [if_neg hnext]
      exact ⟨c :: inner, congrArg (c :: ·) htaken, hafter⟩

/-- A name without escapes and name space is a run of its class of characters. -/
theorem takeName_eq_iff (qualified : Bool) (closers cs : List Char) :
    ((code closers).takeName qualified cs).2 = cs.dropWhile isNameChar ↔
      '\\' ∉ ((code closers).takeName qualified cs).1 ∧
        '|' ∉ ((code closers).takeName qualified cs).1 := by
  induction cs with
  | nil => simp [takeName]
  | cons c cs ih =>
    by_cases hc : isNameChar c = true
    · have hcontinues : (code closers).continuesName qualified c = true := by
        simp [continuesName, hc]
      have hbackslash : '\\' ≠ c := (ne_of_class hc rfl).symm
      have hbar : '|' ≠ c := (ne_of_class hc rfl).symm
      rw [takeName, if_pos hcontinues, advance, plain_of_isNameChar closers hc,
        List.dropWhile_cons_of_pos hc]
      simp only [List.mem_cons, hbackslash, hbar, false_or]
      exact ih
    · rw [List.dropWhile_cons_of_neg hc]
      by_cases hcontinues : (code closers).continuesName qualified c = true
      · have hbad : c = '\\' ∨ c = '|' := by
          simp only [continuesName, hc, Bool.false_or, Bool.or_eq_true, Bool.and_eq_true,
            decide_eq_true_eq] at hcontinues
          exact hcontinues.imp_right And.right
        rw [takeName, if_pos hcontinues]
        refine iff_of_false (fun heq => ?_) ?_
        · have happend := takeName_append qualified ((code closers).advance c) cs
          have hlength := congrArg List.length happend
          rw [List.length_append] at hlength
          have hshort := congrArg List.length heq
          simp only [List.length_cons] at hshort
          omega
        · rintro ⟨hbackslash, hbar⟩
          rcases hbad with rfl | rfl
          · exact hbackslash List.mem_cons_self
          · exact hbar List.mem_cons_self
      · rw [takeName, if_neg hcontinues]
        simp

end Place

/-! ### Compounds -/

/-- Closed texts one behind the other are closed. -/
theorem IsClosed.append {a b : List Char} (ha : IsClosed a) (hb : IsClosed b) :
    IsClosed (a ++ b) := by
  refine ⟨?_, ?_⟩
  · rw [Place.isWhole_append, ha.1, ha.2, hb.1]
    rfl
  · rw [Place.after_append, ha.2, hb.2]

/-- Where nothing is open, a closed text falls into two. -/
theorem IsClosed.of_append {a b : List Char} (h : IsClosed (a ++ b))
    (ha : Place.top.after a = .top) :
    IsClosed a ∧ IsClosed b := by
  obtain ⟨hwhole, hafter⟩ := h
  rw [Place.isWhole_append, ha, Bool.and_eq_true_iff] at hwhole
  rw [Place.after_append, ha] at hafter
  exact ⟨⟨hwhole.1, ha⟩, hwhole.2, hafter⟩

theorem isClosed_of_isNameChar {cs : List Char} (h : ∀ c ∈ cs, isNameChar c = true) : IsClosed cs :=
  ⟨Place.isWhole_of_isNameChar _ h, Place.after_of_isNameChar _ h⟩

/-- A compound is its first simple selector and the rest. -/
theorem firstSimple_append (c : List Char) : (firstSimple c).1 ++ (firstSimple c).2 = c := by
  unfold firstSimple
  split
  · rfl
  · exact Place.takeClosed_append _ _
  · split
    · exact Place.takeName_append _ _ _
    · rename_i first rest _ _
      rw [List.cons_append, Place.takeName_append]

@[simp]
theorem compounds_nil : compounds [] = [] := rfl

/-- What separates compounds is none of them. -/
theorem compounds_cons {c : Char} (h : Place.top.separates c = true) (cs : List Char) :
    compounds (c :: cs) = compounds cs := by
  rw [compounds, Place.pieces, if_pos h, List.filter_cons_of_neg (by simp), compounds]

/-- A compound in front of what separates it is the first one. -/
theorem compounds_append {a : List Char} (ha : IsCompound a) {c : Char}
    (hc : Place.top.separates c = true) (cs : List Char) :
    compounds (a ++ c :: cs) = a :: compounds cs := by
  obtain ⟨hne, hwhole, hafter⟩ := ha
  rw [compounds, Place.pieces_append hwhole (by rwa [hafter]),
    List.filter_cons_of_pos (by simpa using hne), compounds]

/-- A compound has itself as its only one. -/
theorem compounds_of_isCompound {a : List Char} (ha : IsCompound a) : compounds a = [a] := by
  rw [compounds, Place.pieces_of_isWhole ha.2.1, List.filter_cons_of_pos (by simpa using ha.1),
    List.filter_nil]

end ViewCompiler.Style
