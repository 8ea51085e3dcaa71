import ViewCompiler.Proofs.Outcome
import ViewCompiler.Proofs.Template.DirectiveSpec
import ViewCompiler.Template.Expression

/-!
# Expressions read back

A value that was read is written in a form that is read as the same value (`readExpression_render`),
so no two values are written alike (`readExpression_written`). Literals and paths are written as
they stood, but for the blanks around them. The arguments of a call are written with a comma and a
blank between them: each of them closes its string literals and has no comma outside of them
(`isArgument`), so the list is split again where it was joined.

The splitting goes through the text with a state, which tells whether a string literal is open and
behind which quote. It starts a new argument behind a comma that it meets outside of literals. So an
argument is a text that takes the scan from the outside back to the outside and shows it no comma
there, and all that is needed of arguments are three facts about the scan: blanks around an argument
change nothing, an argument in front of a comma is split off as it is (`splitArguments_append`), and
what the splitting gives are arguments.

Blanks are taken from an argument when it is read, since it is trimmed then, so writing it does not
bring back those that it had. What is read is the same (`readArgument_congr`).

The three kinds of value exclude each other by how they start: a path and a call with an identifier,
a literal with a digit, a sign, a dot or a quote. Only the keywords among the literals start like an
identifier, and none of them goes on with a bracket (`not_isLiteral_of_isIdentStart`). So what is
written as a call is not read as anything else.
-/

namespace ViewCompiler.Template

open ViewCompiler.Text

/-! ### One argument -/

/-- Whether a text, scanned from a state, closes its string literals and has no comma outside of
them. -/
def isArgument : Quoting → List Char → Bool
  | state, [] => state = .outside
  | state, c :: cs => !(state = .outside && c = ',') && isArgument (state.next c) cs

/-- String literals are opened by one of the two quotes only. -/
def IsReached : Quoting → Prop
  | .outside => True
  | .inside q | .escaped q => q = '\'' ∨ q = '"'

theorem IsReached.next {state : Quoting} (h : IsReached state) (c : Char) :
    IsReached (state.next c) := by
  cases state with
  | outside =>
    simp only [Quoting.next, Bool.or_eq_true, decide_eq_true_eq]
    split
    · assumption
    · trivial
  | inside q =>
    simp only [Quoting.next]
    split
    · exact h
    · split
      · trivial
      · exact h
  | escaped q => exact h

private theorem ne_quote_of_isBlank {c : Char} (h : isBlank c = true) : c ≠ '\'' ∧ c ≠ '"' := by
  constructor
  · rintro rfl
    cases h
  · rintro rfl
    cases h

/-- A blank does not end a string literal. -/
private theorem eq_outside_of_next {state : Quoting} (h : IsReached state) {c : Char}
    (hc : isBlank c = true) (hnext : state.next c = .outside) : state = .outside := by
  obtain ⟨hsingle, hdouble⟩ := ne_quote_of_isBlank hc
  cases state with
  | outside => rfl
  | inside q =>
    have hq : c ≠ q := by
      rcases h with rfl | rfl
      · exact hsingle
      · exact hdouble
    simp only [Quoting.next, if_neg hq] at hnext
    split at hnext <;> cases hnext
  | escaped q => cases hnext

private theorem eq_outside_of_isArgument {state : Quoting} (h : IsReached state)
    {blanks : List Char}
    (hblanks : ∀ c ∈ blanks, isBlank c = true) (harg : isArgument state blanks = true) :
    state = .outside := by
  induction blanks generalizing state with
  | nil => simpa [isArgument] using harg
  | cons c blanks ih =>
    obtain ⟨hc, hrest⟩ := List.forall_mem_cons.1 hblanks
    simp only [isArgument, Bool.and_eq_true] at harg
    exact eq_outside_of_next h hc (ih (h.next c) hrest harg.2)

/-- Blanks behind an argument may be left out. -/
private theorem isArgument_of_append {state : Quoting} (h : IsReached state) {cs blanks : List Char}
    (hblanks : ∀ c ∈ blanks, isBlank c = true) (harg : isArgument state (cs ++ blanks) = true) :
    isArgument state cs = true := by
  induction cs generalizing state with
  | nil => simpa [isArgument] using eq_outside_of_isArgument h hblanks harg
  | cons c cs ih =>
    simp only [List.cons_append, isArgument, Bool.and_eq_true] at harg ⊢
    exact ⟨harg.1, ih (h.next c) harg.2⟩

/-- Blanks in front of an argument may be left out. -/
private theorem isArgument_dropWhile {cs : List Char} (h : isArgument .outside cs = true) :
    isArgument .outside (cs.dropWhile isBlank) = true := by
  induction cs with
  | nil => exact h
  | cons c cs ih =>
    rw [List.dropWhile_cons]
    split
    · rename_i hc
      obtain ⟨hsingle, hdouble⟩ := ne_quote_of_isBlank hc
      simp only [isArgument, Quoting.next, hsingle, hdouble, Bool.and_eq_true] at h
      exact ih h.2
    · exact h

/-- An argument stays one without the blanks around it. -/
private theorem isArgument_trimBlank {cs : List Char} (h : isArgument .outside cs = true) :
    isArgument .outside (trimBlank cs) = true := by
  obtain ⟨trailing, heq, htrailing⟩ := exists_append_dropTrailing isBlank (cs.dropWhile isBlank)
  refine isArgument_of_append (show IsReached .outside from trivial) htrailing ?_
  rw [trimBlank, ← heq]
  exact isArgument_dropWhile h

/-! ### Argument lists -/

/-- The pieces of an argument list are arguments; the first one goes on from where the scan
stands. -/
private theorem isArgument_of_splitArguments {state : Quoting} {cs : List Char}
    {pieces : List (List Char)} (h : splitArguments state cs = some pieces) :
    ∃ piece rest, pieces = piece :: rest ∧ isArgument state piece = true ∧
      ∀ p ∈ rest, isArgument .outside p = true := by
  induction cs generalizing state pieces with
  | nil =>
    simp only [splitArguments] at h
    split at h
    · rename_i hstate
      obtain rfl := Option.some.inj h
      exact ⟨[], [], rfl, by simpa [isArgument] using hstate, by simp⟩
    · cases h
  | cons c cs ih =>
    simp only [splitArguments] at h
    split at h
    · cases h
    · rename_i pieces' hsplit
      obtain ⟨piece, rest, rfl, hpiece, hrest⟩ := ih hsplit
      split at h
      · rename_i hcomma
        simp only [Bool.and_eq_true, decide_eq_true_eq] at hcomma
        obtain ⟨rfl, rfl⟩ := hcomma
        obtain rfl := Option.some.inj h
        exact ⟨[], _, rfl, rfl, List.forall_mem_cons.2 ⟨hpiece, hrest⟩⟩
      · rename_i hcomma
        obtain rfl := Option.some.inj h
        refine ⟨c :: piece, rest, rfl, ?_, hrest⟩
        rw [isArgument, Bool.of_not_eq_true hcomma, hpiece]
        rfl

/-- An argument is split into itself. -/
private theorem splitArguments_of_isArgument {state : Quoting} {piece : List Char}
    (h : isArgument state piece = true) : splitArguments state piece = some [piece] := by
  induction piece generalizing state with
  | nil => simpa [splitArguments, isArgument] using h
  | cons c piece ih =>
    simp only [isArgument, Bool.and_eq_true, Bool.not_eq_true'] at h
    simp only [splitArguments, ih h.2, h.1]
    rfl

/-- An argument in front of a comma is split off. -/
theorem splitArguments_append {state : Quoting} {piece cs : List Char}
    {pieces : List (List Char)}
    (h : isArgument state piece = true) (hcs : splitArguments .outside cs = some pieces) :
    splitArguments state (piece ++ ',' :: cs) = some (piece :: pieces) := by
  induction piece generalizing state with
  | nil =>
    obtain rfl : state = .outside := by simpa [isArgument] using h
    simp [splitArguments, Quoting.next, hcs]
  | cons c piece ih =>
    simp only [isArgument, Bool.and_eq_true, Bool.not_eq_true'] at h
    simp only [List.cons_append, splitArguments, ih h.2, h.1]
    rfl

private theorem splitArguments_space {cs piece : List Char} {rest : List (List Char)}
    (h : splitArguments .outside cs = some (piece :: rest)) :
    splitArguments .outside (' ' :: cs) = some ((' ' :: piece) :: rest) := by
  simp [splitArguments, Quoting.next, h]

/-- An argument is read without regard to the blanks around it. -/
theorem readArgument_congr {payload : Bool} {s t : List Char} (h : trimBlank s = trimBlank t) :
    readArgument payload s = readArgument payload t := by
  rw [readArgument, readArgument, h]

/-- An argument that was read is the payload where that is admitted, a literal or a path. -/
theorem cases_of_readArgument {payload : Bool} {source : List Char} {a : Argument}
    (h : readArgument payload source = .ok a) : trimBlank source ≠ [] ∧
      (payload = true ∧ trimBlank source = ['#'] ∧ a = .payload ∨
        a = .literal (String.ofList (trimBlank source)) ∨
        ∃ path, readPath? (trimBlank source) = some path ∧ a = .access path) := by
  unfold readArgument at h
  simp only at h
  split at h
  · cases h
  · rename_i hempty
    refine ⟨by simpa using hempty, ?_⟩
    split at h
    · rename_i hsign
      split at h
      · rename_i hpayload
        exact .inl ⟨hpayload, hsign, (Except.ok.inj h).symm⟩
      · cases h
    · split at h
      · exact .inr (.inl (Except.ok.inj h).symm)
      · split at h
        · rename_i path hpath
          exact .inr (.inr ⟨path, hpath, (Except.ok.inj h).symm⟩)
        · cases h

/-- Arguments that were read are none, or what stands between the commas. -/
theorem cases_of_readArguments {payload : Bool} {source : List Char} {arguments : List Argument}
    (h : readArguments payload source = .ok arguments) : arguments = [] ∨
      ∃ pieces, splitArguments .outside source = some pieces ∧
        pieces.mapM (readArgument payload) = .ok arguments := by
  unfold readArguments at h
  split at h
  · exact .inl (Except.ok.inj h).symm
  · split at h
    · cases h
    · rename_i pieces hsplit
      exact .inr ⟨pieces, hsplit, h⟩

/-- An argument is written as it stood, but for the blanks around it. -/
theorem render_of_readArgument {payload : Bool} {source : List Char} {a : Argument}
    (h : readArgument payload source = .ok a) :
    a.render.toList = trimBlank source ∧ trimBlank source ≠ [] := by
  obtain ⟨hne, ⟨-, hsign, rfl⟩ | rfl | ⟨path, hpath, rfl⟩⟩ := cases_of_readArgument h
  · rw [hsign]
    exact ⟨rfl, List.cons_ne_nil _ _⟩
  · exact ⟨String.toList_ofList, hne⟩
  · exact ⟨(render_of_readPath? hpath).1, hne⟩

/-- Arguments that were read are split and read again where they are joined. -/
theorem exists_splitArguments_join {payload : Bool} {pieces : List (List Char)}
    (hne : pieces ≠ []) (hpieces : ∀ p ∈ pieces, isArgument .outside p = true)
    {arguments : List Argument} (h : pieces.mapM (readArgument payload) = .ok arguments) :
    ∃ piece rest, splitArguments .outside (join ", " (arguments.map Argument.render)).toList =
      some (piece :: rest) ∧ (piece :: rest).mapM (readArgument payload) = .ok arguments := by
  induction pieces generalizing arguments with
  | nil => exact absurd rfl hne
  | cons p pieces ih =>
    obtain ⟨hp, hrest⟩ := List.forall_mem_cons.1 hpieces
    obtain ⟨a, as, ha, has, rfl⟩ := mapM_cons_eq_ok_iff.1 h
    obtain ⟨hrender, -⟩ := render_of_readArgument ha
    have harg : isArgument .outside a.render.toList = true := by
      rw [hrender]
      exact isArgument_trimBlank hp
    have hagain : readArgument payload a.render.toList = .ok a := by
      rw [← ha]
      exact readArgument_congr (by rw [hrender, trimBlank_trimBlank])
    -- Only between two arguments is there a comma.
    by_cases hnil : pieces = []
    · subst hnil
      obtain rfl : [] = as := Except.ok.inj has
      exact ⟨_, [], splitArguments_of_isArgument harg,
        mapM_cons_eq_ok_iff.2 ⟨a, [], hagain, rfl, rfl⟩⟩
    · obtain ⟨piece, rest, hsplit, hread⟩ := ih hnil hrest has
      obtain ⟨b, bs, hb, hbs, rfl⟩ := mapM_cons_eq_ok_iff.1 hread
      -- The blank after the comma goes to the next piece, which is read without it.
      have hspaced : readArgument payload (' ' :: piece) = .ok b := by
        rw [← hb]
        exact readArgument_congr (trimBlank_cons_of_isBlank rfl piece)
      refine ⟨_, (' ' :: piece) :: rest, ?_, mapM_cons_eq_ok_iff.2 ⟨a, b :: bs, hagain, ?_, rfl⟩⟩
      · rw [List.map_cons, join_cons _ _ (by simp), String.toList_append, String.toList_append,
          List.append_assoc]
        exact splitArguments_append harg (splitArguments_space hsplit)
      · exact mapM_cons_eq_ok_iff.2 ⟨b, bs, hspaced, hbs, rfl⟩

theorem trimBlank_join_ne_nil {payload : Bool} {source : List Char} {a : Argument}
    (ha : readArgument payload source = .ok a) (arguments : List Argument) :
    trimBlank (join ", " ((a :: arguments).map Argument.render)).toList ≠ [] := by
  obtain ⟨hrender, hne⟩ := render_of_readArgument ha
  obtain ⟨c, cs, hcs⟩ := List.exists_cons_of_ne_nil hne
  have hhead : c ∈ (trimBlank source).head? := by
    rw [hcs]
    rfl
  have hc := not_isBlank_of_head?_trimBlank c hhead
  have hmem : c ∈ a.render.toList := by
    rw [hrender, hcs]
    exact List.mem_cons_self
  exact List.ne_nil_of_mem (mem_trimBlank (mem_join_cons _ hmem) hc)

/-- Arguments are read back from their canonical texts. -/
private theorem readArguments_render {payload : Bool} {source : List Char}
    {arguments : List Argument} (h : readArguments payload source = .ok arguments) :
    readArguments payload (join ", " (arguments.map Argument.render)).toList = .ok arguments := by
  obtain rfl | ⟨pieces, hsplit, h⟩ := cases_of_readArguments h
  · rfl
  · obtain ⟨p, rest, rfl, hp, hrest⟩ := isArgument_of_splitArguments hsplit
    obtain ⟨piece, others, hjoin, hread⟩ := exists_splitArguments_join (List.cons_ne_nil _ _)
      (List.forall_mem_cons.2 ⟨hp, hrest⟩) h
    obtain ⟨a, as, ha, -, rfl⟩ := mapM_cons_eq_ok_iff.1 h
    rw [readArguments, if_neg, hjoin]
    · exact hread
    · rw [List.isEmpty_iff]
      exact trimBlank_join_ne_nil ha as

/-! ### Expressions -/

/-- An expression is read without regard to the blanks around it. -/
theorem readExpression_congr {payload : Bool} {s t : List Char} (h : trimBlank s = trimBlank t) :
    readExpression payload s = readExpression payload t := by
  rw [readExpression, readExpression, h]

private theorem not_isIdentStart_of_isDigit {c : Char} (h : c.isDigit = true) :
    isIdentStart c = false := by
  have hnone : ∀ n < 58, 48 ≤ n → isIdentStart (Char.ofNat n) = false := by decide
  simp only [Char.isDigit, Bool.and_eq_true, decide_eq_true_eq, ge_iff_le,
    UInt32.le_iff_toNat_le] at h
  rw [← Char.ofNat_toNat c]
  exact hnone c.toNat (Nat.lt_succ_of_le h.2) h.1

/-- The keywords are the only literals that start like an identifier. -/
theorem not_isLiteral_of_isIdentStart {c d : Char} {rest : List Char} (hc : isIdentStart c = true)
    (hkeyword : String.ofList (c :: d :: rest) ∉ ["true", "false", "null", "undefined"]) :
    isLiteral (c :: d :: rest) = false := by
  have hne : ∀ e, isIdentStart e = false → c ≠ e := fun e => ne_of_class hc
  have hdigit : c.isDigit = false := by
    cases hd : c.isDigit with
    | false => rfl
    | true =>
      rw [not_isIdentStart_of_isDigit hd] at hc
      cases hc
  rw [isLiteral, if_neg hkeyword]
  simp [hne '\'' (by decide), hne '"' (by decide), hne '-' (by decide), hne '.' (by decide), hdigit]

/-- A text that starts with an identifier and a bracket is no literal. -/
private theorem not_isLiteral_append {name : List Char} (h : isIdentifier name = true)
    (rest : List Char) :
    isLiteral (name ++ '(' :: rest) = false := by
  have hkeyword : String.ofList (name ++ '(' :: rest) ∉ ["true", "false", "null", "undefined"] := by
    intro hmem
    -- No keyword has a bracket.
    have hbracket : '(' ∈ (String.ofList (name ++ '(' :: rest)).toList := by simp
    simp only [List.mem_cons, List.not_mem_nil, or_false] at hmem
    rcases hmem with heq | heq | heq | heq <;> rw [heq] at hbracket <;> revert hbracket <;> decide
  match name, h with
  | [c], h =>
    exact not_isLiteral_of_isIdentStart (by simpa [isIdentifier] using h) hkeyword
  | c :: d :: name, h =>
    refine not_isLiteral_of_isIdentStart ?_ hkeyword
    simp only [isIdentifier, Bool.and_eq_true] at h
    exact h.1

/-- A call is read back from its canonical text. -/
theorem readCall_render {payload : Bool} {name : List Char} (hname : isIdentifier name = true)
    {source : List Char} {arguments : List Argument}
    (h : readArguments payload source = .ok arguments) :
    readExpression payload (Value.call (String.ofList name) arguments).render.toList =
      .ok (.call (String.ofList name) arguments) := by
  obtain ⟨text, htext⟩ : ∃ text, (join ", " (arguments.map Argument.render)).toList = text :=
    ⟨_, rfl⟩
  have hagain : readArguments payload text = .ok arguments := by
    rw [← htext]
    exact readArguments_render h
  have hrender : (Value.call (String.ofList name) arguments).render.toList =
      name ++ '(' :: (text ++ [')']) := by
    simp [Value.render, htext]
  have htrim : trimBlank (name ++ '(' :: (text ++ [')'])) = name ++ '(' :: (text ++ [')']) := by
    refine trimBlank_eq_self (fun c hc => ?_) (fun c hc => ?_)
    · obtain ⟨d, name, rfl⟩ := List.exists_cons_of_ne_nil (ne_nil_of_isIdentifier hname)
      obtain rfl := Option.some.inj hc
      exact not_isBlank_of_isIdentRest (isIdentRest_of_mem hname List.mem_cons_self)
    · rw [← List.cons_append, ← List.append_assoc, List.getLast?_concat] at hc
      obtain rfl := Option.some.inj hc
      rfl
  have hbracket : '(' ∉ name := notMem_of_isIdentifier hname (by decide)
  have hcall :
      readCall payload name (text ++ [')']) = .ok (.call (String.ofList name) arguments) := by
    have hself : trimBlank name = name :=
      trimBlank_eq_self_of_forall fun c hc =>
        not_isBlank_of_isIdentRest (isIdentRest_of_mem hname hc)
    simp [readCall, hself, hname, hagain]
  rw [hrender, readExpression, htrim]
  -- The bracket keeps a call from being taken for the payload.
  have hpayload : name ++ '(' :: (text ++ [')']) ≠ ['#'] := by
    intro heq
    have : '(' ∈ ['#'] := heq ▸ List.mem_append_right name List.mem_cons_self
    revert this
    decide
  simp [not_isLiteral_append hname, cut?_append hbracket, hcall, hpayload]

/-- A value that was read is a literal, a path or a call. -/
theorem cases_of_readExpression {payload : Bool} {source : List Char} {v : Value}
    (h : readExpression payload source = .ok v) :
    v = .literal (String.ofList (trimBlank source)) ∨
      (∃ path, readPath? (trimBlank source) = some path ∧ v = .access path) ∨
      ∃ name text arguments, isIdentifier name = true ∧
        readArguments payload text = .ok arguments ∧ v = .call (String.ofList name) arguments := by
  unfold readExpression at h
  simp only at h
  split at h
  · cases h
  · split at h
    · cases h
    · split at h
      · exact .inl (Except.ok.inj h).symm
      · split at h
        · rename_i before after hcut
          unfold readCall at h
          simp only at h
          split at h
          · cases h
          · rename_i hname
            split at h
            · cases h
            · split at h
              · cases h
              · rename_i arguments harguments
                exact .inr (.inr ⟨_, _, arguments, by simpa using hname, harguments,
                  (Except.ok.inj h).symm⟩)
        · split at h
          · rename_i path hpath
            exact .inr (.inl ⟨path, hpath, (Except.ok.inj h).symm⟩)
          · cases h

/-- A value that was read reads back from its written form. -/
theorem readExpression_render {payload : Bool} {source : List Char} {v : Value}
    (h : readExpression payload source = .ok v) :
    readExpression payload v.render.toList = .ok v := by
  have hsame : v.render.toList = trimBlank source →
      readExpression payload v.render.toList = .ok v := by
    intro heq
    rw [← h]
    exact readExpression_congr (by rw [heq, trimBlank_trimBlank])
  rcases cases_of_readExpression h with rfl | ⟨path, hpath, rfl⟩ | ⟨name, text, arguments, hname,
    harguments, rfl⟩
  · exact hsame (by simp [Value.render])
  · exact hsame (render_of_readPath? hpath).1
  · exact readCall_render hname harguments

/-- The values that are read are read back from their written forms, so no two of them are written
alike. -/
theorem readExpression_written {payload : Bool} {source : List Char} {v : Value}
    (h : readExpression payload source = .ok v) :
    readExpression payload v.render.toList = .ok v ∧
      ∀ source' w, readExpression payload source' = .ok w → w.render = v.render → w = v := by
  refine ⟨readExpression_render h, fun source' w hw hrender => ?_⟩
  have hagain := readExpression_render hw
  rw [hrender, readExpression_render h] at hagain
  exact (Except.ok.inj hagain).symm

/-- A call with blanks around its arguments: a string literal that has commas, brackets and quotes,
a literal that starts with a digit only, a path and the payload. -/
theorem readExpression_written_call :
    readExpression true " f ( 'a, \\'b)' ,1+(\", \",user.name , # )\n".toList =
        .ok (.call "f" [.literal "'a, \\'b)'", .literal "1+(\", \"", .access ⟨"user", ["name"]⟩,
          .payload]) ∧
      readExpression true "f('a, \\'b)', 1+(\", \", user.name, #)".toList =
        .ok (.call "f" [.literal "'a, \\'b)'", .literal "1+(\", \"", .access ⟨"user", ["name"]⟩,
          .payload]) := by
  have hread : readExpression true " f ( 'a, \\'b)' ,1+(\", \",user.name , # )\n".toList =
      .ok (.call "f" [.literal "'a, \\'b)'", .literal "1+(\", \"", .access ⟨"user", ["name"]⟩,
        .payload]) := by
    rfl
  exact ⟨hread, (readExpression_written hread).1⟩

end ViewCompiler.Template
