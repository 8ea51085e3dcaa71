import ViewCompiler.Proofs.Outcome
import ViewCompiler.Proofs.Style.Braces

/-!
# Offsets in style sheets

Rules are read in the same way wherever they stand, and so is what is wrong with them: every offset
grows by as many bytes as stand before (`step_behind`, `scanFrom_behind`). But the text that rules
are read from is not the style sheet as it was given. Comments are looked for in that one, and each
of them is one blank in the text that is read afterwards (`parse_ofList_of_stripComments`). So a
comment in front moves an unterminated comment by the length of the comment, and every other fault
by one byte (`encapsulate_behind_comment`): the offset of such a fault leads to a place within the
comment, and not to the fault (`exists_offset_within_comment`).

The first half follows the readers, from a declaration to a whole scan. Each commutes with moving
its cursor on, where pieces, faults and cursors are moved in what comes out (`Piece.behind`,
`Error.behind`, `Cursor.behind`). An error says where it is by an offset alone, so nothing else has
to be carried along. The blank that a comment leaves is skipped at the start of a scan, and all that
remains of it is the one byte.

Which of the two amounts applies depends on the kind of the fault. The readers of rules never report
an unterminated comment, which is shown for each of them (`fault_of_scanFrom`, `fault_of_assemble`);
so that fault comes from stripping comments, which counts in the style sheet as it was given.
-/

namespace ViewCompiler.Style

open ViewCompiler.Text

/-! ### Offsets behind other text -/

/-- An error, `k` bytes further on. -/
def Error.behind (k : Nat) (e : Error) : Error := { e with offset := k + e.offset }

/-- A place of a style sheet, `k` bytes further on. -/
def Cursor.behind (k : Nat) (c : Cursor) : Cursor := { c with offset := k + c.offset }

/-- A piece, `k` bytes further on. -/
def Piece.behind (k : Nat) : Piece → Piece
  | .rule r => .rule r
  | .opening name condition keyframes => .opening name condition keyframes
  | .closing offset => .closing (k + offset)

/-- Pieces, and the end of them, `k` bytes further on. -/
def Scan.behind (k : Nat) (s : Scan) : Scan where
  pieces := s.pieces.map (·.behind k)
  error := s.error.map (·.behind k)
  stop := k + s.stop

private theorem Cursor.past_behind (k : Nat) (c : Cursor) (taken rest : List Char) :
    (c.behind k).past taken rest = (c.past taken rest).behind k :=
  congrArg (Cursor.mk rest) (Nat.add_assoc k c.offset (byteLength taken))

/-! ### Readers -/

variable (k : Nat)

/-- A declaration is read alike further on, and so is what is wrong with it. -/
private theorem readDeclaration_behind (start : Nat) (text : List Char) :
    readDeclaration (k + start) text = bimap (.behind k) id (readDeclaration start text) := by
  unfold readDeclaration
  simp only
  split
  · rfl
  · split <;> rfl

/-- Declarations are read in the same way wherever they stand. -/
private theorem readDeclarations_behind (start here : Nat) (text : List Char) (q : Quoting)
    (depth offset : Nat)
    (cs : List Char) :
    readDeclarations (k + start) (k + here) text q depth (k + offset) cs =
      bimap (.behind k) (Prod.map id (.behind k))
        (readDeclarations start here text q depth offset cs) := by
  induction cs generalizing here text q depth offset with
  | nil => rfl
  | cons c cs ih =>
    have hoffset : k + offset + c.utf8Size = k + (offset + c.utf8Size) := Nat.add_assoc ..
    simp only [readDeclarations, hoffset, readDeclaration_behind]
    split
    · exact ih ..
    · split
      · rfl
      · split
        · refine bimap_bind fun first _ => ?_
          rw [ih]
          exact bimap_bind fun _ _ => rfl
        · split
          · exact bimap_bind fun _ _ => rfl
          · exact ih ..

/-- A block is read alike further on. -/
theorem readBlock_behind (c : Cursor) :
    readBlock (c.behind k) = bimap (.behind k) (Prod.map id (.behind k)) (readBlock c) :=
  readDeclarations_behind k ..

/-- A qualified rule is read alike further on. -/
private theorem readQualified_behind (c : Cursor) :
    readQualified (c.behind k) =
      bimap (.behind k) (Prod.map (.behind k) (.behind k)) (readQualified c) := by
  have hrest : (c.behind k).rest = c.rest := rfl
  unfold readQualified
  rw [hrest]
  generalize takePrelude .outside 0 c.rest = taken
  obtain ⟨text, rest⟩ := taken
  simp only
  split
  · split
    · rfl
    · rw [Cursor.past_behind, readBlock_behind]
      exact bimap_bind fun _ _ => rfl
  · rfl

/-- An at-rule is read alike further on. -/
private theorem readAtRule_behind (c : Cursor) :
    readAtRule (c.behind k) =
      bimap (.behind k) (Prod.map (.behind k) (.behind k)) (readAtRule c) := by
  have hrest : (c.behind k).rest = c.rest := rfl
  unfold readAtRule
  simp only [hrest, Cursor.past_behind]
  split
  · rfl
  · generalize c.past _ _ = afterName
    have hrest' : (afterName.behind k).rest = afterName.rest := rfl
    rw [hrest']
    generalize takePrelude .outside 0 afterName.rest = taken
    obtain ⟨text, rest⟩ := taken
    simp only
    split
    · split
      · rfl
      · split
        · rfl
        · rw [readBlock_behind]
          exact bimap_bind fun _ _ => rfl
    · rfl
    · rfl

/-- A step is the same wherever it is taken. -/
theorem step_behind (c : Cursor) :
    step (c.behind k) =
      bimap (.behind k) (Prod.map (Option.map (.behind k)) (.behind k)) (step c) := by
  have hrest : (c.behind k).rest = c.rest := rfl
  unfold step
  rw [hrest]
  split
  · rw [Cursor.past_behind]
    rfl
  · rw [readAtRule_behind]
    cases readAtRule c <;> rfl
  · rw [Cursor.past_behind]
    rfl
  · rw [readQualified_behind]
    cases readQualified c <;> rfl

/-! ### Scans -/

private theorem Cursor.pastBlanks_behind (c : Cursor) :
    (c.behind k).pastBlanks = c.pastBlanks.behind k :=
  Cursor.past_behind k c ..

/-- A scan starts with what stands behind blanks. -/
private theorem scanFrom_congr {c c' : Cursor} (h : c.pastBlanks = c'.pastBlanks) :
    scanFrom c = scanFrom c' := by
  by_cases hempty : c.pastBlanks.rest.isEmpty = true
  · rw [scanFrom_of_isEmpty hempty]
    rw [h] at hempty ⊢
    rw [scanFrom_of_isEmpty hempty]
  · cases hstep : step c.pastBlanks with
    | error e =>
      rw [scanFrom_of_error hempty hstep]
      rw [h] at hempty hstep ⊢
      rw [scanFrom_of_error hempty hstep]
    | ok read =>
      obtain ⟨piece, next⟩ := read
      rw [scanFrom_of_ok hempty hstep]
      rw [h] at hempty hstep
      rw [scanFrom_of_ok hempty hstep]

/-- A scan finds the same pieces wherever it starts. -/
theorem scanFrom_behind (c : Cursor) : scanFrom (c.behind k) = (scanFrom c).behind k := by
  induction c using scan_induction with
  | empty c hempty =>
    have hempty' : (c.behind k).pastBlanks.rest.isEmpty = true := hempty
    rw [scanFrom_of_isEmpty hempty', scanFrom_of_isEmpty hempty, Cursor.pastBlanks_behind]
    rfl
  | error c e hempty hstep =>
    have hempty' : ¬ (c.behind k).pastBlanks.rest.isEmpty = true := hempty
    have hstep' : step (c.behind k).pastBlanks = .error (e.behind k) := by
      rw [Cursor.pastBlanks_behind, step_behind, hstep]
      rfl
    rw [scanFrom_of_error hempty' hstep', scanFrom_of_error hempty hstep, Cursor.pastBlanks_behind]
    rfl
  | ok c next piece hempty hstep ih =>
    have hempty' : ¬ (c.behind k).pastBlanks.rest.isEmpty = true := hempty
    have hstep' : step (c.behind k).pastBlanks = .ok (piece.map (.behind k), next.behind k) := by
      rw [Cursor.pastBlanks_behind, step_behind, hstep]
      rfl
    rw [scanFrom_of_ok hempty' hstep', scanFrom_of_ok hempty hstep, ih]
    cases piece <;> simp [Scan.behind]

/-- Pieces are put together in the same way wherever they stand. -/
theorem assemble_behind (error : Option Error) (stop : Nat) (pieces : List Piece)
    (groups : List OpenGroup) (rules : List Rule) :
    assemble (error.map (.behind k)) (k + stop) (pieces.map (.behind k)) groups rules =
      bimap (.behind k) id (assemble error stop pieces groups rules) := by
  induction pieces generalizing groups rules with
  | nil => cases error <;> cases groups <;> rfl
  | cons piece pieces ih =>
    cases piece with
    | rule | opening => exact ih ..
    | closing offset =>
      cases groups with
      | nil => rfl
      | cons g groups => exact ih ..

/-- A blank before a text moves what is read from it by one byte. -/
private theorem parseRules_cons_space (cs : List Char) :
    parseRules (' ' :: cs) = bimap (.behind 1) id (parseRules cs) := by
  have hblank : (Cursor.mk (' ' :: cs) 0).pastBlanks = ((Cursor.mk cs 0).behind 1).pastBlanks := by
    have hspace : isMarkupSpace ' ' = true := rfl
    have hsize : ' '.utf8Size = 1 := rfl
    simp [Cursor.pastBlanks, Cursor.past, Cursor.behind, hspace, byteLength, hsize]
  unfold parseRules
  simp only
  rw [scanFrom_congr hblank, scanFrom_behind]
  exact assemble_behind 1 ..

/-! ### Comments -/

/-- A scan for comments, `k` bytes further on. -/
def CommentScan.behind : CommentScan → CommentScan
  | .code q => .code q
  | .opening start => .opening (k + start)
  | .comment start star => .comment (k + start) star

/-- Comments are stripped alike further on. -/
private theorem stripFrom_behind (scan : CommentScan) (offset : Nat) (cs : List Char) :
    stripFrom (scan.behind k)
    (k + offset) cs = bimap (.behind k) id (stripFrom scan offset cs) := by
  have hmap : ∀ (c : Char) (x : Except Error (List Char)),
      (bimap (.behind k) id x : Except Error (List Char)).map (c :: ·) =
        bimap (.behind k) id (x.map (c :: ·)) := by
    intro c x
    cases x <;> rfl
  induction cs generalizing scan offset with
  | nil => cases scan <;> rfl
  | cons c cs ih =>
    have hoffset : ∀ n, k + offset + n = k + (offset + n) := fun _ => Nat.add_assoc ..
    cases scan with
    | code q =>
      simp only [CommentScan.behind, stripFrom, hoffset]
      split
      · rw [← hmap, ← ih]
        rfl
      · rw [← hmap, ← ih]
        rfl
    | opening start =>
      simp only [CommentScan.behind, stripFrom, hoffset]
      exact ih (.comment start false) _
    | comment start star =>
      simp only [CommentScan.behind, stripFrom, hoffset]
      split
      · exact ih (.code .outside) _
      · exact ih (.comment start _) _

/-- A comment goes up to the first slash behind an asterisk, which may be one that was read just
before. -/
private theorem stripFrom_comment (star : Bool) {text : List Char}
    (h : ¬ ['*', '/'] <:+: (if star then '*' :: text else text)) (start offset : Nat)
    (cs : List Char) :
    stripFrom (.comment start star) offset (text ++ '*' :: '/' :: cs) =
      stripFrom (.code .outside) (offset + byteLength text + 2) cs := by
  induction text generalizing star offset with
  | nil => cases star <;> rfl
  | cons c text ih =>
    have hopen : (star && decide (c = '/')) = false := by
      by_contra hne
      obtain ⟨rfl, hc⟩ := Bool.and_eq_true_iff.1 (eq_true_of_ne_false hne)
      obtain rfl := of_decide_eq_true hc
      exact h ⟨[], text, rfl⟩
    have htext : c :: text <:+: (if star then '*' :: c :: text else c :: text) := by
      cases star with
      | true => exact (List.suffix_cons '*' _).isInfix
      | false => exact List.infix_rfl
    have hrest : ¬ ['*', '/'] <:+: (if decide (c = '*') then '*' :: text else text) := by
      by_cases hc : c = '*'
      · subst hc
        exact fun hcloses => h (hcloses.trans htext)
      · rw [if_neg (by simpa using hc)]
        exact fun hcloses => h (hcloses.trans ((List.suffix_cons c _).isInfix.trans htext))
    rw [List.cons_append, stripFrom, hopen, if_neg Bool.false_ne_true, ih _ hrest, byteLength,
      ← Nat.add_assoc]

/-- A comment before a style sheet is a blank before it. -/
private theorem stripComments_comment {text : List Char} (h : ¬ ['*', '/'] <:+: text)
    (cs : List Char) :
    stripComments ('/' :: '*' :: (text ++ '*' :: '/' :: cs)) =
      bimap (.behind (byteLength text + 4)) (' ' :: ·) (stripComments cs) := by
  have hopening : stripComments ('/' :: '*' :: (text ++ '*' :: '/' :: cs)) =
      (stripFrom (.comment 0 false) 2 (text ++ '*' :: '/' :: cs)).map (' ' :: ·) := rfl
  have hoffset : 2 + byteLength text + 2 = byteLength text + 4 + 0 := by omega
  rw [hopening, stripFrom_comment false h, hoffset]
  have hbehind := stripFrom_behind (byteLength text + 4) (.code .outside) 0 cs
  rw [CommentScan.behind] at hbehind
  rw [hbehind, stripComments]
  cases stripFrom (.code .outside) 0 cs <;> rfl

/-! ### Faults -/

/-- Removing comments fails only at one that is not closed. -/
private theorem fault_of_stripFrom {scan : CommentScan} {offset : Nat} {cs : List Char} {e : Error}
    (h : stripFrom scan offset cs = .error e) : e.fault = .unterminatedComment := by
  induction cs generalizing scan offset with
  | nil =>
    cases scan with
    | code => cases h
    | opening | comment =>
      obtain rfl := Except.error.inj h
      rfl
  | cons c cs ih =>
    cases scan with
    | code q =>
      rw [stripFrom] at h
      split at h
      · exact ih (map_eq_error_iff.1 h)
      · exact ih (map_eq_error_iff.1 h)
    | opening start =>
      rw [stripFrom] at h
      exact ih h
    | comment start star =>
      rw [stripFrom] at h
      split at h
      · exact ih h
      · exact ih h

section

variable {e : Error}

/-- Reading a declaration never meets an unterminated comment. -/
theorem fault_of_readDeclaration {start : Nat} {text : List Char}
    (h : readDeclaration start text = .error e) : e.fault ≠ .unterminatedComment := by
  unfold readDeclaration at h
  simp only at h
  split at h
  · cases h
  · split at h
    · cases h
    · obtain rfl := Except.error.inj h
      exact fun hfault => by cases hfault

/-- Reading declarations never meets an unterminated comment. -/
theorem fault_of_readDeclarations {start here : Nat} {text : List Char} {q : Quoting}
    {depth offset : Nat}
    {cs : List Char} (h : readDeclarations start here text q depth offset cs = .error e) :
    e.fault ≠ .unterminatedComment := by
  induction cs generalizing here text q depth offset with
  | nil =>
    obtain rfl := Except.error.inj h
    exact fun hfault => by cases hfault
  | cons c cs ih =>
    rw [readDeclarations] at h
    simp only at h
    split at h
    · exact ih h
    · split at h
      · obtain rfl := Except.error.inj h
        exact fun hfault => by cases hfault
      · split at h
        · rcases bind_eq_error_iff.1 h with hfirst | ⟨first, -, h⟩
          · exact fault_of_readDeclaration hfirst
          · rcases bind_eq_error_iff.1 h with hothers | ⟨others, -, h⟩
            · exact ih hothers
            · cases h
        · split at h
          · rcases bind_eq_error_iff.1 h with hlast | ⟨last, -, h⟩
            · exact fault_of_readDeclaration hlast
            · cases h
          · exact ih h

private theorem fault_of_readQualified {c : Cursor} (h : readQualified c = .error e) :
    e.fault ≠ .unterminatedComment := by
  unfold readQualified at h
  simp only at h
  split at h
  · split at h
    · obtain rfl := Except.error.inj h
      exact fun hfault => by cases hfault
    · rcases bind_eq_error_iff.1 h with hblock | ⟨block, -, h⟩
      · exact fault_of_readDeclarations hblock
      · cases h
  · obtain rfl := Except.error.inj h
    exact fun hfault => by cases hfault

private theorem fault_of_readAtRule {c : Cursor} (h : readAtRule c = .error e) :
    e.fault ≠ .unterminatedComment := by
  unfold readAtRule at h
  simp only at h
  split at h
  · obtain rfl := Except.error.inj h
    exact fun hfault => by cases hfault
  · split at h
    · split at h
      · cases h
      · split at h
        · cases h
        · rcases bind_eq_error_iff.1 h with hblock | ⟨block, -, h⟩
          · exact fault_of_readDeclarations hblock
          · cases h
    · cases h
    · cases h

/-- No step meets an unterminated comment. -/
private theorem fault_of_step {c : Cursor} (h : step c = .error e) :
    e.fault ≠ .unterminatedComment := by
  unfold step at h
  split at h
  · cases h
  · exact fault_of_readAtRule (map_eq_error_iff.1 h)
  · cases h
  · exact fault_of_readQualified (map_eq_error_iff.1 h)

/-- No scan meets an unterminated comment. -/
theorem fault_of_scanFrom (c : Cursor) (h : (scanFrom c).error = some e) :
    e.fault ≠ .unterminatedComment := by
  induction c using scan_induction with
  | empty c hempty =>
    rw [scanFrom_of_isEmpty hempty] at h
    cases h
  | error c e' hempty hstep =>
    rw [scanFrom_of_error hempty hstep] at h
    obtain rfl := Option.some.inj h
    exact fault_of_step hstep
  | ok c next piece hempty hstep ih =>
    rw [scanFrom_of_ok hempty hstep] at h
    exact ih h

/-- Putting rules together finds no unterminated comment. -/
theorem fault_of_assemble {error : Option Error} {stop : Nat} {pieces : List Piece}
    {groups : List OpenGroup} {rules : List Rule}
    (herror : ∀ e, error = some e → e.fault ≠ .unterminatedComment)
    (h : assemble error stop pieces groups rules = .error e) : e.fault ≠ .unterminatedComment := by
  induction pieces generalizing groups rules with
  | nil =>
    cases error with
    | some e' =>
      obtain rfl := Except.error.inj h
      exact herror _ rfl
    | none =>
      cases groups with
      | nil => cases h
      | cons g groups =>
        obtain rfl := Except.error.inj h
        exact fun hfault => by cases hfault
  | cons piece pieces ih =>
    cases piece with
    | rule | opening => exact ih h
    | closing offset =>
      cases groups with
      | nil =>
        obtain rfl := Except.error.inj h
        exact fun hfault => by cases hfault
      | cons g groups => exact ih h

/-- A style sheet without comments has no unterminated one. -/
private theorem fault_of_parseRules {cs : List Char} (h : parseRules cs = .error e) :
    e.fault ≠ .unterminatedComment :=
  fault_of_assemble (fun _ he => fault_of_scanFrom _ he) h

end

/-! ### Style sheets -/

/-- What is wrong with a style sheet is what is wrong with it when its comments are blanks, where it
stands then. -/
theorem parse_ofList_of_stripComments {css : String} {cs : List Char}
    (h : stripComments css.toList = .ok cs) : parse css = parse (String.ofList cs) := by
  have hagain : stripComments cs = .ok cs :=
    stripFrom_of_opensComment (opensComment_of_stripFrom h) 0
  rw [parse, parse, String.toList_ofList, h, hagain]

/-- Scoping fails only where reading does. -/
theorem encapsulate_eq_error_iff {css host : String} {id : Int} {childTag? : String → Option String}
    {e : Error} : encapsulate css host id childTag? = .error e ↔ parse css = .error e := by
  unfold encapsulate
  cases parse css <;> simp [bind, Except.bind, pure, Except.pure]

/-- A style sheet that is refused is refused for the same fault with a comment before it. The offset
of the fault grows by the length of the comment exactly if the fault is an unterminated comment; it
grows by one otherwise. -/
theorem encapsulate_behind_comment {css text host : String} {id : Int}
    {childTag? : String → Option String}
    {e : Error} (h : encapsulate css host id childTag? = .error e)
    (htext : ¬ "*/".toList <:+: text.toList) :
    ∃ n, encapsulate ("/*" ++ text ++ "*/" ++ css) host id childTag? = .error ⟨n, e.fault⟩ ∧
      (n = byteLength ("/*" ++ text ++ "*/").toList + e.offset ↔ e.fault = .unterminatedComment) ∧
      (e.fault ≠ .unterminatedComment → n = 1 + e.offset) := by
  have hcss : ("/*" ++ text ++ "*/" ++ css).toList =
      '/' :: '*' :: (text.toList ++ '*' :: '/' :: css.toList) := by
    simp
  have hlength : byteLength ("/*" ++ text ++ "*/").toList = byteLength text.toList + 4 := by
    rw [String.toList_append, String.toList_append, byteLength_append, byteLength_append,
      Nat.add_comm (byteLength "/*".toList), Nat.add_assoc]
    rfl
  have hcomment := stripComments_comment htext css.toList
  rw [encapsulate_eq_error_iff, parse, bind_eq_error_iff] at h
  simp only [encapsulate_eq_error_iff, parse, hcss, hcomment, hlength]
  rcases h with hstrip | ⟨cs, hstrip, hrules⟩
  · have hfault := fault_of_stripFrom hstrip
    rw [hstrip]
    exact ⟨_, rfl, iff_of_true rfl hfault, fun hne => absurd hfault hne⟩
  · have hfault := fault_of_parseRules hrules
    rw [hstrip]
    refine ⟨1 + e.offset, ?_, iff_of_false (by omega) hfault, fun _ => rfl⟩
    change parseRules (' ' :: cs) = _
    rw [parseRules_cons_space, hrules]
    rfl

/-- A closing brace that closes nothing. -/
theorem parse_close : parse "\x7d" = .error ⟨0, .unexpectedClose⟩ := by
  have hstrip : stripComments "\x7d".toList = .ok ['\x7d'] := by decide
  have hstep : step (Cursor.mk ['\x7d'] 0).pastBlanks = .ok (some (.closing 0), ⟨[], 1⟩) := rfl
  rw [parse, hstrip]
  change parseRules ['\x7d'] = _
  rw [parseRules, scanFrom_of_ok (by decide) hstep]
  rfl

/-- A closing brace behind a comment, and a comment behind another one that is not closed. -/
theorem encapsulate_behind_comment_braces :
    encapsulate ("/*" ++ "ab" ++ "*/" ++ "\x7d") "foo-cmp" 1 (fun _ => none) =
        .error ⟨1, .unexpectedClose⟩ ∧
      encapsulate ("/*" ++ "ab" ++ "*/" ++ "a\x7b\x7d/*") "foo-cmp" 1 (fun _ => none) =
        .error ⟨9, .unterminatedComment⟩ := by
  have htext : ¬ "*/".toList <:+: "ab".toList := by decide
  have hopen : parse "a\x7b\x7d/*" = .error ⟨3, .unterminatedComment⟩ := by
    have hstrip : stripComments "a\x7b\x7d/*".toList = .error ⟨3, .unterminatedComment⟩ := by
      decide
    rw [parse, hstrip]
    rfl
  obtain ⟨n, hclosing, -, hn⟩ :=
    encapsulate_behind_comment (encapsulate_eq_error_iff.2 parse_close) htext
  obtain ⟨m, hcomment, hm, -⟩ := encapsulate_behind_comment (encapsulate_eq_error_iff.2 hopen) htext
  obtain rfl : n = 1 := hn fun hfault => by cases hfault
  obtain rfl : m = 9 := hm.2 rfl
  exact ⟨hclosing, hcomment⟩

/-- A closing brace is reported one byte behind a comment of six bytes. -/
theorem exists_offset_within_comment :
    encapsulate "\x7d" "foo-cmp" 1 (fun _ => none) = .error ⟨0, .unexpectedClose⟩ ∧
      ¬ "*/".toList <:+: "ab".toList ∧
      encapsulate ("/*" ++ "ab" ++ "*/" ++ "\x7d") "foo-cmp" 1 (fun _ => none) =
        .error ⟨1, .unexpectedClose⟩ ∧
      byteLength ("/*" ++ "ab" ++ "*/").toList + 0 ≠ 1 := by
  have hstrip : stripComments ("/*" ++ "ab" ++ "*/" ++ "\x7d").toList = .ok [' ', '\x7d'] := by
    decide
  refine ⟨encapsulate_eq_error_iff.2 parse_close, by decide,
    encapsulate_eq_error_iff.2 ?_, by decide⟩
  have hstep : step (Cursor.mk [' ', '\x7d'] 0).pastBlanks = .ok (some (.closing 1), ⟨[], 2⟩) := rfl
  rw [parse, hstrip]
  change parseRules [' ', '\x7d'] = _
  rw [parseRules, scanFrom_of_ok (by decide) hstep]
  rfl

end ViewCompiler.Style
