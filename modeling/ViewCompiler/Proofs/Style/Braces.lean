import ViewCompiler.Proofs.Style.Minified

/-!
# Braces

The braces of a style sheet that can be read, outside strings and comments, are those within the
brackets of its preludes and one pair for each block (`bracesFrom_of_parse`). Where preludes have
none, a style sheet with unbalanced braces is refused, and what scoping writes is balanced
(`encapsulate_braces`). A brace within the brackets of a prelude is taken for part of the text, and
goes unnoticed (`exists_unbalanced_prelude`).

`bracesFrom` is defined on the text alone: it goes through the characters, keeps track of quotes,
and notes the braces outside of them. `IsBalanced` counts them. Neither knows of rules, blocks or
brackets, so they can be asked of a style sheet that is refused and of one that is written.

Each reader passes some braces on its way (`Cursor.Passes`): a prelude passes its own, a block one
pair and nothing between, since declarations may have none. A scan passes the braces of its pieces,
and a piece that opens or closes a group passes one half of a pair. Putting the pieces together
pairs them up again, with the groups that are still open as the state of the induction
(`bracesBefore`).

What is written is read again (`Style/Sheet`), so its braces are those of the scoped rules, and
scoping adds none.

The samples are the sheet of `Style/Minified`, a sheet that ends within a block, and a selector with
an opening brace in its brackets.
-/

namespace ViewCompiler.Style

open ViewCompiler.Text

/-! ### Counting braces -/

/-- The braces of a text that stand outside strings. -/
def bracesFrom : Quoting → List Char → List Char
  | _, [] => []
  | q, c :: cs =>
    if q.isOutside && (c = '\x7b' || c = '\x7d') then c :: bracesFrom (q.next c) cs
    else bracesFrom (q.next c) cs

/-- The number of open braces behind some braces, if none of them closes what was not opened. -/
def openBraces : Nat → List Char → Option Nat
  | depth, [] => some depth
  | depth, c :: cs =>
    if c = '\x7b' then openBraces (depth + 1) cs
    else if depth = 0 then none
    else openBraces (depth - 1) cs

/-- Whether every brace in a list of braces has its partner. -/
def IsBalanced (bs : List Char) : Prop := openBraces 0 bs = some 0

instance (bs : List Char) : Decidable (IsBalanced bs) := inferInstanceAs (Decidable (_ = _))

private theorem openBraces_append (depth : Nat) (a b : List Char) :
    openBraces depth (a ++ b) = (openBraces depth a).bind fun d => openBraces d b := by
  induction a generalizing depth with
  | nil => rfl
  | cons c a ih =>
    rw [List.cons_append, openBraces, openBraces]
    split
    · exact ih (depth + 1)
    · split
      · rfl
      · exact ih (depth - 1)

/-- More braces that are open before stay open. -/
private theorem openBraces_add {depth d : Nat} {bs : List Char} (h : openBraces depth bs = some d)
    (k : Nat) :
    openBraces (depth + k) bs = some (d + k) := by
  induction bs generalizing depth with
  | nil => exact congrArg (fun d => some (d + k)) (Option.some.inj h)
  | cons c bs ih =>
    rw [openBraces] at h ⊢
    split at h
    · rename_i hopen
      rw [if_pos hopen, Nat.add_right_comm]
      exact ih h
    · rename_i hclose
      split at h
      · cases h
      · rename_i hdepth
        have hsub : depth + k - 1 = depth - 1 + k := by omega
        rw [if_neg hclose, if_neg (by omega), hsub]
        exact ih h

namespace IsBalanced

theorem nil : IsBalanced [] := rfl

theorem openBraces {bs : List Char} (h : IsBalanced bs) (depth : Nat) :
    openBraces depth bs = some depth := by
  have hadd := openBraces_add h depth
  rwa [Nat.zero_add] at hadd

theorem append {a b : List Char} (ha : IsBalanced a) (hb : IsBalanced b) : IsBalanced (a ++ b) := by
  rw [IsBalanced, openBraces_append, ha]
  exact hb

theorem block {bs : List Char} (h : IsBalanced bs) : IsBalanced ('\x7b' :: (bs ++ ['\x7d'])) := by
  have hopen :
      Style.openBraces 0 ('\x7b' :: (bs ++ ['\x7d'])) = Style.openBraces 1 (bs ++ ['\x7d']) := rfl
  rw [IsBalanced, hopen, openBraces_append, h.openBraces 1]
  rfl

end IsBalanced

/-! ### The braces of rules -/

/-- The text of a rule before its block. -/
def Rule.prelude : Rule → String
  | .qualified selector _ => selector
  | .statement _ condition | .block _ condition _ | .group _ condition _ _ => condition

mutual

/-- The braces of a rule: those of its prelude, and the pair around its block. -/
def Rule.braces : Rule → List Char
  | .qualified selector _ => bracesFrom .outside selector.toList ++ ['\x7b', '\x7d']
  | .statement _ condition => bracesFrom .outside condition.toList
  | .block _ condition _ => bracesFrom .outside condition.toList ++ ['\x7b', '\x7d']
  | .group _ condition _ rules =>
    bracesFrom .outside condition.toList ++ '\x7b' :: (Rule.sheetBraces rules ++ ['\x7d'])

/-- The braces of several rules. -/
def Rule.sheetBraces : List Rule → List Char
  | [] => []
  | r :: rs => r.braces ++ Rule.sheetBraces rs

end

private theorem Rule.sheetBraces_append (as bs : List Rule) :
    Rule.sheetBraces (as ++ bs) = Rule.sheetBraces as ++ Rule.sheetBraces bs := by
  induction as with
  | nil => rfl
  | cons r rs ih => rw [List.cons_append, sheetBraces, sheetBraces, ih, List.append_assoc]

private theorem isBalanced_sheetBraces {rules : List Rule} (h : ∀ r ∈ rules, IsBalanced r.braces) :
    IsBalanced (Rule.sheetBraces rules) := by
  induction rules with
  | nil => exact .nil
  | cons r rs ih =>
    obtain ⟨hr, hrs⟩ := List.forall_mem_cons.1 h
    exact hr.append (ih hrs)

/-- Blocks are balanced, so a rule is if the preludes in it are. -/
private theorem Rule.Every.isBalanced {r : Rule}
    (h : r.Every fun r => IsBalanced (bracesFrom .outside r.prelude.toList)) :
    IsBalanced r.braces := by
  induction h with
  | @intro r hr _ ih =>
    cases r with
    | qualified selector declarations => exact IsBalanced.append hr rfl
    | statement name condition => exact hr
    | block name condition declarations => exact IsBalanced.append hr rfl
    | group name condition keyframes rules =>
      exact IsBalanced.append hr (isBalanced_sheetBraces ih).block

/-! ### The braces of what is read -/

/-- A character that is no brace and opens no string does not count. -/
theorem bracesFrom_cons {c : Char} (hc : c ≠ '\x7b' ∧ c ≠ '\x7d' ∧ c ≠ '\'' ∧ c ≠ '"')
    (cs : List Char) :
    bracesFrom .outside (c :: cs) = bracesFrom .outside cs := by
  simp [bracesFrom, Quoting.next, hc]

/-- Leaving out characters that are neither braces nor quotes changes no braces. -/
theorem bracesFrom_dropWhile {p : Char → Bool}
    (hp : ∀ c, p c = true → c ≠ '\x7b' ∧ c ≠ '\x7d' ∧ c ≠ '\'' ∧ c ≠ '"') (cs : List Char) :
    bracesFrom .outside (cs.dropWhile p) = bracesFrom .outside cs := by
  induction cs with
  | nil => rfl
  | cons c cs ih =>
    by_cases hc : p c = true
    · rw [List.dropWhile_cons_of_pos hc, ih, bracesFrom_cons (hp c hc)]
    · rw [List.dropWhile_cons_of_neg hc]

private theorem bracesFrom_dropWhile_isMarkupSpace (cs : List Char) :
    bracesFrom .outside (cs.dropWhile isMarkupSpace) = bracesFrom .outside cs := by
  refine bracesFrom_dropWhile (fun c hc => ?_) cs
  have hne : ∀ d, isBlank d = false → c ≠ d := fun d => ne_of_class (isBlank_of_isMarkupSpace hc)
  exact ⟨hne _ rfl, hne _ rfl, hne _ rfl, hne _ rfl⟩

private theorem bracesFrom_dropWhile_isNameChar (cs : List Char) :
    bracesFrom .outside (cs.dropWhile isNameChar) = bracesFrom .outside cs := by
  refine bracesFrom_dropWhile (fun c hc => ?_) cs
  have hne : ∀ d, isNameChar d = false → c ≠ d := fun d => ne_of_class hc
  exact ⟨hne _ rfl, hne _ rfl, hne _ rfl, hne _ rfl⟩

/-- Reducing blanks keeps the braces. -/
private theorem bracesFrom_collapseFrom {q : Quoting} {p w : Bool} (h : p = true → q = .outside)
    (cs : List Char) : bracesFrom q (collapseFrom q p w cs) = bracesFrom q cs := by
  induction cs generalizing q p w with
  | nil => rfl
  | cons c cs ih =>
    rw [collapseFrom]
    split
    · rename_i hspace
      obtain ⟨hout, hc⟩ := Bool.and_eq_true_iff.1 hspace
      obtain rfl := Quoting.eq_outside_of_isOutside hout
      have hne : ∀ d, isBlank d = false → c ≠ d :=
        fun d => ne_of_class (isBlank_of_isMarkupSpace hc)
      rw [bracesFrom_cons ⟨hne _ rfl, hne _ rfl, hne _ rfl, hne _ rfl⟩]
      exact ih fun _ => rfl
    · have hrest : bracesFrom q (c :: collapseFrom (q.next c) false true cs) =
        bracesFrom q (c :: cs) := by
        rw [bracesFrom, bracesFrom, ih fun hp => Bool.noConfusion hp]
      simp only
      split
      · rename_i hpending
        obtain rfl := h (Bool.and_eq_true_iff.1 hpending).1
        exact hrest
      · exact hrest

/-- Collapsing changes no braces. -/
theorem bracesFrom_collapse (cs : List Char) :
    bracesFrom .outside (collapse cs).toList = bracesFrom .outside cs := by
  rw [collapse, String.toList_ofList]
  exact bracesFrom_collapseFrom (fun hp => Bool.noConfusion hp) cs

/-- The braces of a text are those of the prelude and those behind it. -/
theorem bracesFrom_takePrelude (q : Quoting) (depth : Nat) (cs : List Char) :
    bracesFrom q cs = bracesFrom q (takePrelude q depth cs).1 ++
      bracesFrom .outside (takePrelude q depth cs).2 := by
  induction cs generalizing q depth with
  | nil => rfl
  | cons c cs ih =>
    rw [takePrelude]
    split
    · rename_i hends
      simp only [Bool.and_eq_true] at hends
      rw [Quoting.eq_outside_of_isOutside hends.1.1]
      rfl
    · simp only
      rw [bracesFrom, bracesFrom, ih (q.next c) (if q.isOutside then nesting depth c else depth)]
      split <;> rfl

/-- Whether reading went on from one cursor to another past some braces. -/
def Cursor.Passes (c next : Cursor) (bs : List Char) : Prop :=
  bracesFrom .outside c.rest = bs ++ bracesFrom .outside next.rest ∧
    next.rest.length < c.rest.length

/-- Declarations have no braces. -/
theorem bracesFrom_of_readDeclarations {start here : Nat} {text : List Char} {q : Quoting}
    {depth offset : Nat} {cs : List Char} {ds : List String} {next : Cursor}
    (h : readDeclarations start here text q depth offset cs = .ok (ds, next)) :
    bracesFrom q cs = '\x7d' :: bracesFrom .outside next.rest ∧ next.rest.length < cs.length := by
  induction cs generalizing here text q depth offset ds next with
  | nil => cases h
  | cons c cs ih =>
    cases declaresOver_of_readDeclarations h with
    | goes hends hread =>
      have hbrace : (q.isOutside && (c = '\x7b' || c = '\x7d')) = false := by
        refine Bool.eq_false_iff.2 fun hbrace => ?_
        obtain ⟨hout, hbrace⟩ := Bool.and_eq_true_iff.1 hbrace
        obtain ⟨hopen, hclose, -⟩ := hends (Quoting.eq_outside_of_isOutside hout)
        simp [hopen, hclose] at hbrace
      obtain ⟨hbraces, hlength⟩ := ih hread
      rw [bracesFrom, hbrace, if_neg Bool.false_ne_true]
      exact ⟨hbraces, Nat.lt_succ_of_lt hlength⟩
    | separates hq hc _ _ hothers =>
      subst hq hc
      obtain ⟨hbraces, hlength⟩ := ih hothers
      exact ⟨hbraces, Nat.lt_succ_of_lt hlength⟩
    | closes hq hc =>
      subst hq hc
      exact ⟨rfl, Nat.lt_succ_self _⟩

/-- The braces of a piece. -/
def Piece.braces : Piece → List Char
  | .rule r => r.braces
  | .opening _ condition _ => bracesFrom .outside condition.toList ++ ['\x7b']
  | .closing _ => ['\x7d']

private theorem bracesFrom_open (inner : List Char) :
    bracesFrom .outside ('\x7b' :: inner) = '\x7b' :: bracesFrom .outside inner := rfl

/-- Reading a qualified rule passes the braces that it has. -/
private theorem passes_of_readQualified {c next : Cursor} {p : Piece}
    (h : readQualified c = .ok (p, next)) :
    c.Passes next p.braces := by
  obtain ⟨text, inner, ds, htake, -, rfl, hblock⟩ := exists_of_readQualified h
  have happend := takePrelude_append .outside 0 c.rest
  have hbraces := bracesFrom_takePrelude .outside 0 c.rest
  rw [htake] at happend hbraces
  obtain ⟨hinner, hlength⟩ : bracesFrom .outside inner = '\x7d' :: bracesFrom .outside next.rest ∧
    next.rest.length < inner.length := bracesFrom_of_readDeclarations hblock
  refine ⟨?_, ?_⟩
  · rw [hbraces, bracesFrom_open, hinner, Piece.braces, Rule.braces, bracesFrom_collapse,
      List.append_assoc]
    rfl
  · rw [← happend, List.length_append, List.length_cons]
    omega

/-- Reading an at-rule passes the braces that it has. -/
private theorem passes_of_readAtRule {c next : Cursor} {p : Piece} {text : List Char}
    (hrest : c.rest = '@' :: text)
    (h : readAtRule c = .ok (p, next)) : c.Passes next p.braces := by
  obtain ⟨-, head, rest, htake, hends⟩ := exists_of_readAtRule hrest h
  have happend := takePrelude_append .outside 0 (text.dropWhile isNameChar)
  have htext := bracesFrom_takePrelude .outside 0 (text.dropWhile isNameChar)
  rw [htake] at happend htext
  -- The name has no braces, and reading has gone past it.
  have hbraces :
      bracesFrom .outside c.rest = bracesFrom .outside head ++ bracesFrom .outside rest := by
    rw [hrest, ← htext, bracesFrom_dropWhile_isNameChar]
    exact bracesFrom_cons (by decide) text
  have hlength : head.length + rest.length < c.rest.length := by
    rw [hrest, ← List.length_append, happend]
    exact Nat.lt_succ_of_le (List.dropWhile_suffix isNameChar).length_le
  cases hends with
  | group =>
    rw [List.length_cons] at hlength
    refine ⟨?_, by simp only; omega⟩
    rw [hbraces, bracesFrom_open, Piece.braces, bracesFrom_collapse, List.append_assoc]
    rfl
  | @block inner _ ds _ _ hblock =>
    rw [List.length_cons] at hlength
    obtain ⟨hinner, hshorter⟩ : bracesFrom .outside inner =
      '\x7d' :: bracesFrom .outside next.rest ∧
      next.rest.length < inner.length := bracesFrom_of_readDeclarations hblock
    refine ⟨?_, by omega⟩
    rw [hbraces, bracesFrom_open, hinner, Piece.braces, Rule.braces, bracesFrom_collapse,
      List.append_assoc]
    rfl
  | closed =>
    rw [List.length_cons] at hlength
    refine ⟨?_, by simp only; omega⟩
    rw [hbraces, Piece.braces, Rule.braces, bracesFrom_collapse]
    rfl
  | unclosed =>
    refine ⟨?_, by simp only; omega⟩
    rw [hbraces, Piece.braces, Rule.braces, bracesFrom_collapse]

/-- Every step goes past the braces of the piece that it reads. -/
theorem passes_of_step {c next : Cursor} {p : Option Piece} (h : step c = .ok (p, next)) :
    c.Passes next (p.toList.flatMap Piece.braces) := by
  have hone : ∀ q : Piece, (some q).toList.flatMap Piece.braces = q.braces :=
    fun q => List.flatMap_singleton ..
  cases stepsTo_of_step h with
  | closing hrest | semicolon hrest =>
    rw [Cursor.Passes, hrest]
    exact ⟨rfl, Nat.lt_succ_self _⟩
  | atRule hrest hread =>
    rw [hone]
    exact passes_of_readAtRule hrest hread
  | qualified _ hread =>
    rw [hone]
    exact passes_of_readQualified hread

/-! ### Scans -/

/-- The place behind the blanks that stand here. -/
def Cursor.pastBlanks (c : Cursor) : Cursor :=
  c.past (c.rest.takeWhile isMarkupSpace) (c.rest.dropWhile isMarkupSpace)

private theorem Cursor.length_pastBlanks (c : Cursor) : c.pastBlanks.rest.length ≤ c.rest.length :=
  (List.dropWhile_suffix isMarkupSpace).length_le

/-- A scan ends where only blanks are left. -/
theorem scanFrom_of_isEmpty {c : Cursor} (hempty : c.pastBlanks.rest.isEmpty = true) :
    scanFrom c = ⟨[], none, c.pastBlanks.offset⟩ := by
  rw [scanFrom]
  exact if_pos hempty

/-- A scan ends at a step that fails. -/
theorem scanFrom_of_error {c : Cursor} {e : Error} (hempty : ¬ c.pastBlanks.rest.isEmpty = true)
    (hstep : step c.pastBlanks = .error e) : scanFrom c = ⟨[], some e, c.pastBlanks.offset⟩ := by
  rw [Cursor.pastBlanks] at hempty hstep
  rw [scanFrom, if_neg hempty, hstep]
  rfl

/-- Behind a step, which always leaves less to read, a scan goes on. -/
theorem scanFrom_of_ok {c next : Cursor} {piece : Option Piece}
    (hempty : ¬ c.pastBlanks.rest.isEmpty = true) (hstep : step c.pastBlanks = .ok (piece, next)) :
    scanFrom c =
      ⟨piece.toList ++ (scanFrom next).pieces, (scanFrom next).error, (scanFrom next).stop⟩ := by
  obtain ⟨-, hlength⟩ := passes_of_step hstep
  have hshorter : next.rest.length < c.rest.length := Nat.lt_of_lt_of_le hlength c.length_pastBlanks
  rw [Cursor.pastBlanks] at hempty hstep
  rw [scanFrom, if_neg hempty, hstep]
  exact if_pos hshorter

/-- A property holds wherever a scan can start if it holds where nothing is left and where a step
fails, and a step hands it back from where it leads. -/
theorem scan_induction {P : Cursor → Prop}
    (empty : ∀ c : Cursor, c.pastBlanks.rest.isEmpty = true → P c)
    (error : ∀ (c : Cursor) (e : Error), ¬ c.pastBlanks.rest.isEmpty = true →
      step c.pastBlanks = .error e → P c)
    (ok : ∀ (c next : Cursor) (piece : Option Piece), ¬ c.pastBlanks.rest.isEmpty = true →
      step c.pastBlanks = .ok (piece, next) → P next → P c) (c : Cursor) : P c := by
  induction c using scanFrom.induct with
  | case1 c here hempty => exact empty c hempty
  | case2 c here hempty e hstep => exact error c e hempty hstep
  | case3 c here hempty piece next hstep _ ih => exact ok c next piece hempty hstep ih
  | case4 c here hempty piece next hstep hlonger =>
    -- every step leaves less to read
    obtain ⟨-, hlength⟩ := passes_of_step hstep
    exact absurd (Nat.lt_of_lt_of_le hlength c.length_pastBlanks) hlonger

/-- What is read without an error has the braces of its pieces. -/
private theorem bracesFrom_of_scanFrom (c : Cursor) (h : (scanFrom c).error = none) :
    bracesFrom .outside c.rest = (scanFrom c).pieces.flatMap Piece.braces := by
  have hblanks : ∀ c : Cursor, bracesFrom .outside c.rest = bracesFrom .outside c.pastBlanks.rest :=
    fun c => (bracesFrom_dropWhile_isMarkupSpace c.rest).symm
  induction c using scan_induction with
  | empty c hempty =>
    rw [hblanks, List.isEmpty_iff.1 hempty, scanFrom_of_isEmpty hempty]
    rfl
  | error c e hempty hstep =>
    rw [scanFrom_of_error hempty hstep] at h
    cases h
  | ok c next piece hempty hstep ih =>
    obtain ⟨hbraces, -⟩ := passes_of_step hstep
    rw [scanFrom_of_ok hempty hstep] at h ⊢
    rw [hblanks, hbraces, ih h, List.flatMap_append]

/-- The braces before the current place, given the groups that are open there. -/
def bracesBefore : List OpenGroup → List Rule → List Char
  | [], before => Rule.sheetBraces before.reverse
  | g :: groups, before =>
    bracesBefore groups g.before ++ bracesFrom .outside g.condition.toList ++
      '\x7b' :: Rule.sheetBraces before.reverse

private theorem bracesBefore_cons (groups : List OpenGroup) (before : List Rule) (r : Rule) :
    bracesBefore groups (r :: before) = bracesBefore groups before ++ r.braces := by
  have hsheet :
      Rule.sheetBraces (r :: before).reverse = Rule.sheetBraces before.reverse ++ r.braces := by
    rw [List.reverse_cons, Rule.sheetBraces_append]
    exact congrArg (Rule.sheetBraces before.reverse ++ ·) (List.append_nil _)
  cases groups with
  | nil => exact hsheet
  | cons g groups =>
    rw [bracesBefore, bracesBefore, hsheet, List.append_assoc _ _ r.braces, List.cons_append]

/-- Putting pieces together keeps their braces. -/
private theorem sheetBraces_of_assemble {error : Option Error} {stop : Nat} {pieces : List Piece}
    {groups : List OpenGroup} {before rules : List Rule}
    (h : assemble error stop pieces groups before = .ok rules) :
    error = none ∧
      Rule.sheetBraces rules = bracesBefore groups before ++ pieces.flatMap Piece.braces := by
  induction pieces generalizing groups before with
  | nil =>
    obtain ⟨rfl, rfl, rfl⟩ := of_assemble_nil h
    exact ⟨rfl, (List.append_nil _).symm⟩
  | cons piece pieces ih =>
    rw [List.flatMap_cons, ← List.append_assoc]
    cases piece with
    | rule r =>
      rw [Piece.braces, ← bracesBefore_cons]
      exact ih h
    | opening name condition keyframes =>
      -- The open group is counted with the rules before it, so its opening brace comes last.
      have hopen : bracesBefore (⟨name, condition, keyframes, before⟩ :: groups) [] =
          bracesBefore groups before ++ (Piece.opening name condition keyframes).braces := by
        rw [Piece.braces, ← List.append_assoc]
        rfl
      rw [← hopen]
      exact ih h
    | closing offset =>
      cases groups with
      | nil => cases h
      | cons g groups =>
        have hclose : bracesBefore (g :: groups) before ++ (Piece.closing offset).braces =
            bracesBefore groups
              (.group g.name g.condition g.keyframes before.reverse :: g.before) := by
          rw [bracesBefore_cons, bracesBefore, Rule.braces, Piece.braces, List.append_assoc,
            List.append_assoc,
            List.cons_append]
        rw [hclose]
        exact ih h

/-- The braces of a style sheet are those of its rules. -/
theorem bracesFrom_of_parse {css : String} {cs : List Char}
    (hstrip : stripComments css.toList = .ok cs)
    {rules : List Rule} (h : parse css = .ok rules) :
    bracesFrom .outside cs = Rule.sheetBraces rules := by
  rw [parse, hstrip] at h
  have hrules :
      assemble (scanFrom ⟨cs, 0⟩).error (scanFrom ⟨cs, 0⟩).stop (scanFrom ⟨cs, 0⟩).pieces [] [] =
    .ok rules := h
  obtain ⟨hnone, hbraces⟩ := sheetBraces_of_assemble hrules
  rw [hbraces]
  exact bracesFrom_of_scanFrom ⟨cs, 0⟩ hnone

/-! ### Preludes without braces -/

/-- A prelude that is read without braces has none. -/
private theorem bracesFrom_of_read {neat : Bool} {s t : Spot} {cs : List Char}
    (h : (Zone.prelude neat true).read s cs = some t) : bracesFrom s.quoting cs = [] := by
  induction cs generalizing s with
  | nil => rfl
  | cons c cs ih =>
    obtain ⟨hstops, h⟩ := Zone.read_cons_eq_some_iff.1 h
    have hrest := ih h
    rw [Zone.quoting_advance] at hrest
    have hc : (s.quoting.isOutside && (c = '\x7b' || c = '\x7d')) = false := by
      by_contra hne
      rw [Bool.not_eq_false, Bool.and_eq_true] at hne
      simp [Zone.stops, Zone.prelude, hne] at hstops
    rw [bracesFrom, hc, if_neg Bool.false_ne_true, hrest]

/-- A prelude without braces is read even where braces stop the reading. -/
private theorem read_of_bracesFrom {neat : Bool} {s t : Spot} {cs : List Char}
    (h : (Zone.prelude neat).read s cs = some t) (hbraces : bracesFrom s.quoting cs = []) :
    (Zone.prelude neat true).read s cs = some t := by
  induction cs generalizing s with
  | nil => exact h
  | cons c cs ih =>
    obtain ⟨hstops, h⟩ := Zone.read_cons_eq_some_iff.1 h
    rw [bracesFrom] at hbraces
    split at hbraces
    · cases hbraces
    · rename_i hc
      refine Zone.read_cons_eq_some_iff.2 ⟨?_, ih h (by rwa [Zone.quoting_advance])⟩
      cases hq : s.quoting with
      | inside | escaped => simp [Zone.stops, hq, Quoting.isOutside]
      | outside =>
        rw [hq] at hc
        rw [Zone.stops_of_isOutside hq] at hstops ⊢
        simp only [Zone.prelude, Quoting.isOutside, Bool.true_and, Bool.not_eq_true] at hc hstops ⊢
        rw [hc, Bool.and_false, Bool.false_or] at hstops ⊢
        exact hstops

/-- Whether the braces of a style sheet outside strings and comments are balanced. -/
def HasBalancedBraces (css : String) : Prop :=
  ∃ cs, stripComments css.toList = .ok cs ∧ IsBalanced (bracesFrom .outside cs)

/-- A style sheet that can be read is balanced if its preludes are. -/
theorem hasBalancedBraces_of_parse {css : String} {rules : List Rule} (h : parse css = .ok rules)
    (hpreludes : ∀ confined r, Occurs rules confined r →
      IsBalanced (bracesFrom .outside r.prelude.toList)) : HasBalancedBraces css := by
  obtain ⟨cs, hstrip, -⟩ := bind_eq_ok_iff.1 h
  refine ⟨cs, hstrip, ?_⟩
  rw [bracesFrom_of_parse hstrip h]
  exact isBalanced_sheetBraces fun r hr => (Occurs.every_of_forall hpreludes (.top hr)).isBalanced

/-- Scoping adds no braces to a selector list without any. -/
private theorem bracesFrom_written {s : Scoping} (hs : s.IsPlain) {confined : Bool}
    {selector : String} (h : IsScopable confined selector) (hprelude : IsPrelude selector.toList)
    (hnone : bracesFrom .outside selector.toList = []) :
    bracesFrom .outside (s.written confined selector).toList = [] := by
  obtain ⟨t, hread, ht⟩ := hprelude
  have hbare : IsPrelude selector.toList true := ⟨t, read_of_bracesFrom hread hnone, ht⟩
  obtain ⟨⟨t', hread', -⟩, -⟩ := h.isPrelude_written hs hbare
  exact bracesFrom_of_read hread'

/-- Where the braces within the brackets of each prelude are balanced, a style sheet is refused if
its braces are not; and if moreover it is read again as it is written, and its selectors have no
such braces, the braces that are written are balanced. -/
theorem encapsulate_braces {css : String}
    (hbalanced : ∀ rules, parse css = .ok rules → ∀ confined r, Occurs rules confined r →
      IsBalanced (bracesFrom .outside r.prelude.toList)) :
    (¬ HasBalancedBraces css → ∀ host id childTag?, ∃ e,
      encapsulate css host id childTag? = .error e ∧
      e.problem.hasCode "invalid_style" = true) ∧
    ∀ host id childTag? out, IsIdentifier host.toList →
      (∀ name tag, childTag? name = some tag → IsIdentifier tag.toList) →
      (∀ rules, parse css = .ok rules →
        (∀ confined name condition, Occurs rules confined (.statement name condition) →
          IsClosedText condition.toList) ∧
        ∀ confined selector declarations, Occurs rules confined (.qualified selector declarations) →
          IsScopable confined selector ∧ bracesFrom .outside selector.toList = []) →
      encapsulate css host id childTag? = .ok out → HasBalancedBraces out := by
  refine ⟨fun hunbalanced host id childTag? => ?_,
    fun host id childTag? out hhost hchild hrules hout => ?_⟩
  · cases hparse : parse css with
    | error e =>
      refine ⟨e, ?_, rfl⟩
      rw [encapsulate, hparse]
      rfl
    | ok rules =>
      exact absurd (hasBalancedBraces_of_parse hparse (hbalanced rules hparse)) hunbalanced
  · obtain ⟨rules, hparse, -⟩ := bind_eq_ok_iff.1 hout
    obtain ⟨hclosed, hselectors⟩ := hrules rules hparse
    obtain ⟨out', hout', -, hagain⟩ := parse_encapsulate hhost hchild hparse hclosed
      fun confined selector declarations hr => (hselectors confined selector declarations hr).1
    obtain rfl : out = out' := Except.ok.inj (hout.symm.trans hout')
    refine hasBalancedBraces_of_parse hagain fun confined r' hr' => ?_
    obtain ⟨r, hr, rfl⟩ := Scoping.exists_of_occurs_scopeRules hr'
    have hs : (scopingOf host id childTag?).IsPlain := ⟨isMark_markOf id, hhost, hchild _ _⟩
    cases r with
    | qualified selector declarations =>
      obtain ⟨hscopable, hnone⟩ := hselectors _ _ _ hr
      cases isRead_of_parse hparse hclosed hr with
      | qualified hprelude => exact bracesFrom_written hs hscopable hprelude hnone ▸ .nil
    | statement | block | group =>
      have hsame := hbalanced rules hparse confined _ hr
      exact hsame

namespace Sample

/-- No rule of the sample sheet has a brace in its prelude. -/
theorem bracesFrom_prelude {confined : Bool} {r : Rule} (h : Occurs sheetRules confined r) :
    bracesFrom .outside r.prelude.toList = [] := by
  have hevery : ∀ r ∈ sheetRules, r.Every fun r => bracesFrom .outside r.prelude.toList = [] := by
    refine List.forall_mem_cons.2 ⟨.intro ?_ nofun, List.forall_mem_cons.2
      ⟨.intro ?_ (List.forall_mem_singleton.2 (.intro ?_ nofun)),
        List.forall_mem_singleton.2 (.intro ?_ nofun)⟩⟩
    all_goals decide
  obtain ⟨hnone, -⟩ := h.every hevery
  exact hnone

/-- What is written for the sample. -/
def sheetOut : String := "@a b;@keyframes k\x7b0,1\x7b\x7d\x7dfoo-cmpb a[data-w-1]\x7bx:y\x7d"

/-- The sample sheet is accepted, and this is what it becomes. -/
theorem encapsulate_sheet : encapsulate sheet "foo-cmp" 1 childTag? = .ok sheetOut := by
  have hwrite : (scopingOf "foo-cmp" 1 childTag?).writeRules true sheetRules = sheetOut := by
    decide
  rw [encapsulate, parse_sheet]
  exact congrArg Except.ok hwrite

/-- A style sheet that ends within a block. -/
def torn : String := "a\x7bx:y"

/-- The torn sheet does not close what it opens, and is refused. -/
theorem refused_torn : ¬ HasBalancedBraces torn ∧ ∃ e, parse torn = .error e := by
  have hstrip : stripComments torn.toList = .ok torn.toList := rfl
  constructor
  · rintro ⟨cs, hcs, hbalanced⟩
    obtain rfl := Except.ok.inj (hstrip.symm.trans hcs)
    revert hbalanced
    decide
  · obtain ⟨e, hstep⟩ : ∃ e, step (Cursor.mk torn.toList 0).pastBlanks = .error e := ⟨_, rfl⟩
    refine ⟨e, ?_⟩
    rw [parse, hstrip]
    change parseRules torn.toList = _
    rw [parseRules, scanFrom_of_error (by decide) hstep]
    rfl

/-- A style sheet that ends within a block is refused, and the sample is accepted and written with
balanced braces. -/
theorem encapsulate_sheet_braces :
    ((∀ rules, parse torn = .ok rules → ∀ confined r, Occurs rules confined r →
        IsBalanced (bracesFrom .outside r.prelude.toList)) ∧
      ¬ HasBalancedBraces torn ∧
      ∃ e, encapsulate torn "foo-cmp" 1 childTag? = .error e ∧
        e.problem.hasCode "invalid_style" = true) ∧
    (∀ rules, parse sheet = .ok rules → ∀ confined r, Occurs rules confined r →
      IsBalanced (bracesFrom .outside r.prelude.toList)) ∧
    encapsulate sheet "foo-cmp" 1 childTag? = .ok sheetOut ∧ HasBalancedBraces sheetOut := by
  have hhost : IsIdentifier "foo-cmp".toList := by decide
  have htorn : ∀ rules, parse torn = .ok rules → ∀ confined r, Occurs rules confined r →
      IsBalanced (bracesFrom .outside r.prelude.toList) := by
    intro rules hparse
    obtain ⟨-, e, herror⟩ := refused_torn
    rw [herror] at hparse
    cases hparse
  have hbalanced : ∀ rules, parse sheet = .ok rules → ∀ confined r, Occurs rules confined r →
      IsBalanced (bracesFrom .outside r.prelude.toList) := by
    intro rules hparse confined r hr
    obtain rfl := Except.ok.inj (parse_sheet.symm.trans hparse)
    rw [bracesFrom_prelude hr]
    exact .nil
  refine ⟨⟨htorn, refused_torn.1, ?_⟩, hbalanced, encapsulate_sheet, ?_⟩
  · exact (encapsulate_braces htorn).1 refused_torn.1 "foo-cmp" 1 childTag?
  · refine (encapsulate_braces hbalanced).2 "foo-cmp" 1 childTag? sheetOut hhost
      isIdentifier_childTag? (fun rules hparse => ?_) encapsulate_sheet
    obtain rfl := Except.ok.inj (parse_sheet.symm.trans hparse)
    exact ⟨isClosedText_of_occurs, fun confined selector declarations hr =>
      ⟨isScopable_of_occurs confined selector declarations hr, bracesFrom_prelude hr⟩⟩

end Sample

namespace Open

/-- A selector with an opening brace within its brackets. -/
def brace : String := "a(\x7b)"

def braceOut : String := "a[data-w-1](\x7b)"

end Open

/-- A brace within the brackets of a selector goes without a partner, in the style sheet and in what
is written for it. -/
theorem exists_unbalanced_prelude :
    ¬ HasBalancedBraces (Open.brace ++ "\x7bx:y\x7d") ∧
    encapsulate (Open.brace ++ "\x7bx:y\x7d") "foo-cmp" 1 (fun _ => none) =
      .ok (Open.braceOut ++ "\x7bx:y\x7d") ∧
    ¬ HasBalancedBraces (Open.braceOut ++ "\x7bx:y\x7d") := by
  have hstrip : ∀ selector, (selector = Open.brace ∨ selector = Open.braceOut) →
      stripComments (selector ++ "\x7bx:y\x7d").toList =
        .ok (selector ++ "\x7bx:y\x7d").toList := by
    rintro selector (rfl | rfl) <;> decide
  have hunbalanced : ∀ selector, (selector = Open.brace ∨ selector = Open.braceOut) →
      ¬ HasBalancedBraces (selector ++ "\x7bx:y\x7d") := by
    rintro selector h ⟨cs, hcs, hbalanced⟩
    obtain rfl := Except.ok.inj ((hstrip selector h).symm.trans hcs)
    revert hbalanced
    rcases h with rfl | rfl <;> decide
  have hrule : step ⟨(Open.brace ++ "\x7bx:y\x7d").toList, 0⟩ =
      .ok (some (.rule (.qualified Open.brace ["x:y"])), ⟨[], 9⟩) := rfl
  have hend : scanFrom ⟨[], 9⟩ = ⟨[], none, 9⟩ := by rw [scanFrom]; rfl
  have hparse : parse (Open.brace ++ "\x7bx:y\x7d") = .ok [.qualified Open.brace ["x:y"]] := by
    rw [parse, hstrip _ (.inl rfl)]
    change parseRules (Open.brace ++ "\x7bx:y\x7d").toList = _
    rw [parseRules, scanFrom_of_step rfl hrule (by decide), hend]
    rfl
  have hwrite :
      (scopingOf "foo-cmp" 1 fun _ => none).writeRules true [.qualified Open.brace ["x:y"]] =
      Open.braceOut ++ "\x7bx:y\x7d" := by decide
  refine ⟨hunbalanced _ (.inl rfl), ?_, hunbalanced _ (.inr rfl)⟩
  rw [encapsulate, hparse]
  exact congrArg Except.ok hwrite

end ViewCompiler.Style
