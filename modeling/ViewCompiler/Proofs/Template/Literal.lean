import Mathlib
import ViewCompiler.Proofs.Template.Steps
import ViewCompiler.Proofs.Template.Totality

/-!
# String literals

Escaped text between two quotes is a string literal, whatever the text. Three readers have to find
its end: the one that looks for the braces of an interpolation, the one that splits the arguments of
a call, and the one that tells literals from other expressions. Escaped text never leaves the state
of a scan that stands inside a literal (`hides_escape`), so all three find the end where it was
written, and the braces and commas of the text are hidden from them (`Hides`). A call of string
literals is therefore read from an interpolation as it was written (`stringLiterals_read`).

An escape is a backslash and one more character. Both quotes and the backslash itself are escaped,
and so are line ends and tabs, so it does not matter which of the quotes is used. A scan inside a
literal is in one of two states, behind a backslash or not, and escaped text starts and ends in the
second of them: a text is hidden character by character, each by its own escape
(`escapeChar_cases`).

What hides a character hides it wherever it stands, so a literal may be followed by commas and other
literals, and the whole call by the closing braces. Three different characters are hidden in this
way, by one lemma with the character as a parameter.

Reading the text back undoes each escape by its second character (`unescape_escape`). Character
references play no part, as nothing is decoded inside of an interpolation.
-/

namespace ViewCompiler.Template

open ViewCompiler.Text

/-! ### Escaped text -/

/-- The characters that an escape stands for: each has a form of two characters, the first one a
backslash. -/
theorem escapeChar_cases (c : Char) :
    (∃ d, escapeChar c = ['\\', d] ∧ ∀ cs, unescape ('\\' :: d :: cs) = c :: unescape cs) ∨
      escapeChar c = [c] ∧ c ≠ '\\' ∧ c ≠ '"' ∧ c ≠ '\'' := by
  unfold escapeChar
  split
  · exact .inl ⟨'\\', rfl, fun _ => rfl⟩
  · exact .inl ⟨'"', rfl, fun _ => rfl⟩
  · exact .inl ⟨'\'', rfl, fun _ => rfl⟩
  · exact .inl ⟨'n', rfl, fun _ => rfl⟩
  · exact .inl ⟨'r', rfl, fun _ => rfl⟩
  · exact .inl ⟨'t', rfl, fun _ => rfl⟩
  · rename_i hback hdouble hsingle _ _ _
    exact .inr ⟨rfl, hback, hdouble, hsingle⟩

private theorem unescape_cons {c : Char} (h : c ≠ '\\') (cs : List Char) :
    unescape (c :: cs) = c :: unescape cs := by
  rw [unescape] <;> rintro _ rfl <;> exact absurd rfl h

/-- Reading escaped text back undoes the escape. -/
theorem unescape_escape (s : String) : unescape (escape s).toList = s.toList := by
  have hchars : ∀ cs : List Char, unescape (cs.flatMap escapeChar) = cs := by
    intro cs
    induction cs with
    | nil => rfl
    | cons c cs ih =>
      rw [List.flatMap_cons]
      rcases escapeChar_cases c with ⟨d, hescape, hread⟩ | ⟨hplain, hback, -, -⟩
      · rw [hescape, List.cons_append, List.singleton_append, hread, ih]
      · rw [hplain, List.singleton_append, unescape_cons hback, ih]
  rw [escape, String.toList_ofList, hchars]

/-! ### The end of a literal -/

/-- The quotes that a string literal can stand between. -/
inductive QuoteMark where
  | single | double
  deriving DecidableEq, Repr

/-- The character of a quote. -/
def QuoteMark.char : QuoteMark → Char
  | single => '\''
  | double => '"'

/-- Escaped text between two quotes. -/
def stringLiteral (q : QuoteMark) (content : String) : String :=
  String.singleton q.char ++ escape content ++ String.singleton q.char

private theorem toList_stringLiteral (q : QuoteMark) (content : String) :
    (stringLiteral q content).toList =
      q.char :: (content.toList.flatMap escapeChar ++ [q.char]) := by
  simp [stringLiteral, escape]

private theorem QuoteMark.ne_char (q : QuoteMark) {c : Char} (hdouble : c ≠ '"')
    (hsingle : c ≠ '\'') :
    c ≠ q.char := by
  cases q with
  | single => exact hsingle
  | double => exact hdouble

private theorem closesAtEnd_escape (q : QuoteMark) (cs rest : List Char) :
    closesAtEnd q.char false (cs.flatMap escapeChar ++ rest) = closesAtEnd q.char false rest := by
  induction cs with
  | nil => rfl
  | cons c cs ih =>
    rw [List.flatMap_cons, List.append_assoc]
    rcases escapeChar_cases c with ⟨d, hescape, -⟩ | ⟨hplain, hback, hdouble, hsingle⟩
    · rw [hescape, ← ih]
      simp [closesAtEnd]
    · rw [hplain, List.singleton_append, closesAtEnd, if_neg Bool.false_ne_true, if_neg hback,
        if_neg (q.ne_char hdouble hsingle), ih]

/-- Escaped text between two quotes is a literal. -/
theorem isLiteral_stringLiteral (q : QuoteMark) (content : String) :
    isLiteral (stringLiteral q content).toList = true := by
  have hcloses :
      closesAtEnd q.char false (content.toList.flatMap escapeChar ++ [q.char]) = true := by
    rw [closesAtEnd_escape]
    cases q <;> rfl
  obtain ⟨d, ds, hcons⟩ : ∃ d ds, content.toList.flatMap escapeChar ++ [q.char] = d :: ds :=
    List.exists_cons_of_ne_nil (by simp)
  rw [toList_stringLiteral, hcons, isLiteral]
  rw [hcons] at hcloses
  split
  · rfl
  · rw [if_pos (by cases q <;> rfl)]
    exact hcloses

/-! ### What a literal hides -/

/-- A text, scanned from a state, closes its string literals and has a character only inside of
them. -/
def Hides (c : Char) : Quoting → List Char → Prop
  | state, [] => state = .outside
  | state, d :: ds => (state = .outside → d ≠ c) ∧ Hides c (state.next d) ds

section Hides

variable {c : Char} {state : Quoting} {cs ds : List Char}

theorem Hides.append (h : Hides c state cs) (h' : Hides c .outside ds) :
    Hides c state (cs ++ ds) := by
  induction cs generalizing state with
  | nil => exact h.symm ▸ h'
  | cons d cs ih => exact ⟨h.1, ih h.2⟩

/-- A text without the character and without quotes. -/
theorem hides_of_forall_ne (h : ∀ d ∈ cs, d ≠ c ∧ d ≠ '\'' ∧ d ≠ '"') : Hides c .outside cs := by
  induction cs with
  | nil => rfl
  | cons d cs ih =>
    obtain ⟨⟨hd, hsingle, hdouble⟩, hcs⟩ := List.forall_mem_cons.1 h
    refine ⟨fun _ => hd, ?_⟩
    rw [Quoting.next, if_neg (by simp [hsingle, hdouble])]
    exact ih hcs

theorem hides_escape (q : QuoteMark) (content : List Char) (h : Hides c (.inside q.char) cs) :
    Hides c (.inside q.char) (content.flatMap escapeChar ++ cs) := by
  induction content with
  | nil => exact h
  | cons d content ih =>
    rw [List.flatMap_cons, List.append_assoc]
    rcases escapeChar_cases d with ⟨e, hescape, -⟩ | ⟨hplain, hback, hdouble, hsingle⟩
    · rw [hescape]
      exact ⟨nofun, nofun, ih⟩
    · rw [hplain]
      refine ⟨nofun, ?_⟩
      rw [Quoting.next, if_neg hback, if_neg (q.ne_char hdouble hsingle)]
      exact ih

/-- A string literal hides every character but its quotes. -/
theorem hides_stringLiteral (q : QuoteMark) (hc : q.char ≠ c) (content : String) :
    Hides c .outside (stringLiteral q content).toList := by
  have hclose : Hides c (.inside q.char) [q.char] := by
    refine ⟨nofun, ?_⟩
    cases q <;> rfl
  rw [toList_stringLiteral]
  refine ⟨fun _ => hc, ?_⟩
  have hopen : Quoting.outside.next q.char = .inside q.char := by
    cases q <;> rfl
  rw [hopen]
  exact hides_escape q _ hclose

private theorem hides_join {sep : String} {ss : List String} (hsep : Hides c .outside sep.toList)
    (h : ∀ s ∈ ss, Hides c .outside s.toList) : Hides c .outside (join sep ss).toList := by
  induction ss with
  | nil => rfl
  | cons s ss ih =>
    obtain ⟨hs, hss⟩ := List.forall_mem_cons.1 h
    by_cases hnil : ss = []
    · rw [hnil]
      exact hs
    · rw [join_cons _ _ hnil, String.toList_append, String.toList_append]
      exact (hs.append hsep).append (ih hss)

private theorem isArgument_of_hides (h : Hides ',' state cs) : isArgument state cs = true := by
  induction cs generalizing state with
  | nil => exact decide_eq_true h
  | cons d cs ih =>
    rw [isArgument, ih h.2, Bool.and_true, Bool.not_eq_true', Bool.and_eq_false_imp]
    intro hstate
    exact decide_eq_false (h.1 (of_decide_eq_true hstate))

/-- The first braces outside of literals are those behind a text that hides its own. -/
private theorem cutInterpolation_of_hides (h : Hides '\x7d' state cs) (rest : List Char) :
    cutInterpolation state (cs ++ closeBraces ++ rest) = some (cs, rest) := by
  induction cs generalizing state with
  | nil =>
    obtain rfl : state = .outside := h
    rfl
  | cons d cs ih =>
    have hhere : ¬(state = .outside ∧ d = '\x7d') := fun ⟨hstate, hd⟩ => h.1 hstate hd
    rw [List.cons_append, List.cons_append, cutInterpolation, if_neg (by simp_all), ih h.2]
    rfl

end Hides

/-! ### A call of literals -/

private theorem readArgument_stringLiteral (payload : Bool) (q : QuoteMark) (content : String) :
    readArgument payload (stringLiteral q content).toList =
      .ok (.literal (stringLiteral q content)) := by
  have hquote : isBlank q.char = false ∧ q.char ≠ '#' := by
    cases q <;> decide
  have htrim : trimBlank (stringLiteral q content).toList = (stringLiteral q content).toList := by
    rw [toList_stringLiteral]
    refine trimBlank_eq_self (fun c hc => ?_) (fun c hc => ?_)
    · exact Option.some.inj hc ▸ hquote.1
    · rw [← List.cons_append, List.getLast?_concat] at hc
      exact Option.some.inj hc ▸ hquote.1
  have hpayload : (stringLiteral q content).toList ≠ ['#'] := by
    rw [toList_stringLiteral]
    exact fun heq => hquote.2 (List.cons.inj heq).1
  have hempty : (stringLiteral q content).toList.isEmpty = false := by
    rw [toList_stringLiteral]
    rfl
  rw [readArgument, htrim]
  simp only [hempty, hpayload, isLiteral_stringLiteral, String.ofList_toList, if_true, if_false,
    Bool.false_eq_true]

/-- Literals are read as arguments where they are joined. -/
private theorem readArguments_join {payload : Bool} {ss : List String}
    (h : ∀ s ∈ ss, Hides ',' .outside s.toList ∧ readArgument payload s.toList = .ok (.literal s)) :
    readArguments payload (join ", " ss).toList = .ok (ss.map .literal) := by
  have hrender : ∀ ss : List String, (ss.map Argument.literal).map Argument.render = ss := by
    intro ss
    rw [List.map_map]
    exact List.map_id ss
  cases ss with
  | nil => rfl
  | cons s ss =>
    have hread : ((s :: ss).map String.toList).mapM (readArgument payload) =
        .ok ((s :: ss).map Argument.literal) := by
      rw [List.mapM_map]
      exact mapM_eq_ok fun t ht => (h t ht).2
    obtain ⟨piece, rest, hsplit, hagain⟩ := exists_splitArguments_join (by simp)
      (List.forall_mem_map.2 fun t ht => isArgument_of_hides (h t ht).1) hread
    have hne := trimBlank_join_ne_nil (h s List.mem_cons_self).2 (ss.map .literal)
    rw [← List.map_cons, hrender] at hne
    rw [hrender] at hsplit
    rw [readArguments, if_neg (by simpa using hne), hsplit]
    exact hagain

/-- A template that is one interpolation, whose expression hides its braces, is read as one node. -/
private theorem parse_interpolation {source : List Char} {v : Value}
    (hsource : Hides '\x7d' .outside source)
    (hread : readExpression false source = .ok v) (component : String) {template : String}
    (htemplate : template.toList = openBraces ++ source ++ closeBraces) :
    parse component template =
      .ok [.interpolation ((Source.ofText template.toList).span 0 template.utf8ByteSize) v] := by
  have hcut : cutInterpolation .outside (source ++ closeBraces) = some (source, []) := by
    have hfound := cutInterpolation_of_hides hsource []
    rwa [List.append_nil] at hfound
  obtain ⟨size, hsize⟩ : ∃ size, byteLength template.toList = size := ⟨_, rfl⟩
  have hstep : step size ⟨openBraces ++ source ++ closeBraces ++ [], 0⟩ =
      .ok (some (.interpolation 0 size v), ⟨[], size⟩) := by
    have hdrop : (openBraces ++ (source ++ closeBraces)).drop 2 = source ++ closeBraces := rfl
    rw [htemplate, List.append_assoc] at hsize
    rw [List.append_nil, List.append_assoc, step_interpolation (c := ⟨_, 0⟩) rfl, readInterpolation]
    simp only [hdrop, hcut, hread, Cursor.past, ← hsize, Nat.zero_add]
    simp [step.some', Except.map, closeBraces]
  have hscan : scan template.toList = ⟨[.interpolation 0 size v], none⟩ := by
    have hfrom := scanFrom_of_step hstep (by simp [openBraces])
    have hend : scanFrom size ⟨[], size⟩ = ⟨[], none⟩ := by
      rw [scanFrom]
      rfl
    rw [List.append_nil, hend] at hfrom
    rw [scan, hsize, htemplate, hfrom]
    rfl
  -- Only text can be blank, so that the node is not pruned.
  have hblank : Node.isBlankText (.interpolation ((Source.ofText template.toList).span 0 size) v) =
      false := by
    rcases cases_of_readExpression hread with rfl | ⟨_, _, rfl⟩ | ⟨_, _, _, _, _, rfl⟩ <;> rfl
  refine parse_eq_ok_iff.2 ⟨by rw [hscan],
    [.interpolation ((Source.ofText template.toList).span 0 size) v], ?_, ?_⟩
  · rw [hscan]
    exact .single (.interpolation 0 size v) .nil
  · rw [pruneWhitespace, pruneFrom, hblank, utf8ByteSize_eq, hsize]
    rfl

/-- The string literals of some texts, each between the quotes given for it. -/
def stringLiterals (texts : List (QuoteMark × String)) : List String :=
  texts.map fun t => stringLiteral t.1 t.2

/-- An interpolation of a call whose arguments are string literals. -/
def interpolatedCall (method : String) (texts : List (QuoteMark × String)) : String :=
  "\x7b\x7b " ++ method ++ "(" ++ join ", " (stringLiterals texts) ++ ") \x7d\x7d"

private theorem readExpression_stringLiterals {method : String}
    (hmethod : isIdentifier method.toList = true)
    (texts : List (QuoteMark × String)) :
    readExpression false
        (' ' :: ((method ++ "(" ++ join ", " (stringLiterals texts) ++ ")").toList ++ [' '])) =
      .ok (.call method ((stringLiterals texts).map .literal)) := by
  have harguments : readArguments false (join ", " (stringLiterals texts)).toList =
      .ok ((stringLiterals texts).map .literal) := by
    refine readArguments_join (List.forall_mem_map.2 fun t _ => ⟨?_, ?_⟩)
    · exact hides_stringLiteral t.1 (by cases t.1 <;> decide) t.2
    · exact readArgument_stringLiteral false t.1 t.2
  have hcall := readCall_render hmethod harguments
  have hrender : ∀ ss : List String, (Value.call method (ss.map .literal)).render =
      method ++ "(" ++ join ", " ss ++ ")" := by
    intro ss
    rw [Value.render, List.map_map]
    exact congrArg (method ++ "(" ++ join ", " · ++ ")") (List.map_id ss)
  rw [String.ofList_toList, hrender] at hcall
  rw [← hcall]
  refine readExpression_congr ?_
  rw [trimBlank_cons_of_isBlank rfl, trimBlank_concat_of_isBlank rfl]

/-- A call of string literals hides the braces of their texts. -/
private theorem hides_stringLiterals {method : String} (hmethod : isIdentifier method.toList = true)
    (texts : List (QuoteMark × String)) : Hides '\x7d' .outside
      (' ' :: ((method ++ "(" ++ join ", " (stringLiterals texts) ++ ")").toList ++ [' '])) := by
  have hplain : ∀ cs : List Char, (cs.all fun c => c != '\x7d' && c != '\'' && c != '"') = true →
      Hides '\x7d' .outside cs :=
    fun cs h => hides_of_forall_ne fun c hc => by simpa [and_assoc] using List.all_eq_true.1 h c hc
  have hname : Hides '\x7d' .outside method.toList := by
    refine hides_of_forall_ne fun c hc => ?_
    have hrest := isIdentRest_of_mem hmethod hc
    refine ⟨?_, ?_, ?_⟩ <;> rintro rfl <;> revert hrest <;> decide
  have hliterals : Hides '\x7d' .outside (join ", " (stringLiterals texts)).toList := by
    refine hides_join (hplain _ rfl) (List.forall_mem_map.2 fun t _ => ?_)
    exact hides_stringLiteral t.1 (by cases t.1 <;> decide) t.2
  have hopen := hname.append (hplain "(".toList rfl)
  have hclose := (hplain ")".toList rfl).append (hplain [' '] rfl)
  have hcall := (hplain [' '] rfl).append (hopen.append (hliterals.append hclose))
  simpa [String.toList_append] using hcall

/-- Escaped text is read back as the text, stands as a literal between quotes of either kind, and an
interpolation that calls a method with such literals is read as the one node of that call, whatever
characters the texts have. -/
theorem stringLiterals_read {method : String} (hmethod : isIdentifier method.toList = true) :
    (∀ content, unescape (escape content).toList = content.toList) ∧
      (∀ q content, isLiteral (stringLiteral q content).toList = true) ∧
      ∀ component texts, parse component (interpolatedCall method texts) =
        .ok [.interpolation ((Source.ofText (interpolatedCall method texts).toList).span 0
            (interpolatedCall method texts).utf8ByteSize)
          (.call method ((stringLiterals texts).map .literal))] := by
  refine ⟨unescape_escape, isLiteral_stringLiteral, fun component texts => ?_⟩
  refine parse_interpolation (hides_stringLiterals hmethod texts)
    (readExpression_stringLiterals hmethod texts) component ?_
  simp [interpolatedCall, openBraces, closeBraces]

/-- Two texts whose characters would end a literal, a call or an interpolation. -/
theorem stringLiterals_read_braces : isIdentifier "f".toList = true ∧
    parse "Card" "\x7b\x7b f('\\'\x7d\x7d, <b>\\\\', \"a\\n\\\"\") \x7d\x7d" =
      .ok [.interpolation ⟨⟨0, 1, 1⟩, ⟨31, 1, 32⟩⟩
        (.call "f" [.literal "'\\'\x7d\x7d, <b>\\\\'", .literal "\"a\\n\\\"\""])] := by
  have hf : isIdentifier "f".toList = true := by decide
  have hcall : interpolatedCall "f" [(.single, "'\x7d\x7d, <b>\\"), (.double, "a\n\"")] =
      "\x7b\x7b f('\\'\x7d\x7d, <b>\\\\', \"a\\n\\\"\") \x7d\x7d" := by cbv
  have hliterals : stringLiterals [(.single, "'\x7d\x7d, <b>\\"), (.double, "a\n\"")] =
      ["'\\'\x7d\x7d, <b>\\\\'", "\"a\\n\\\"\""] := by cbv
  have hspan :
      (Source.ofText ("\x7b\x7b f('\\'\x7d\x7d, <b>\\\\', \"a\\n\\\"\") \x7d\x7d").toList).span 0
      ("\x7b\x7b f('\\'\x7d\x7d, <b>\\\\', \"a\\n\\\"\") \x7d\x7d").utf8ByteSize =
      ⟨⟨0, 1, 1⟩, ⟨31, 1, 32⟩⟩ := by cbv
  have hparse := (stringLiterals_read hf).2.2 "Card"
    [(.single, "'\x7d\x7d, <b>\\"), (.double, "a\n\"")]
  rw [hcall, hliterals, hspan] at hparse
  exact ⟨hf, hparse⟩

end ViewCompiler.Template
