import Mathlib.Data.List.TakeWhile
import ViewCompiler.Proofs.Outcome
import ViewCompiler.Proofs.Template.Assembly
import ViewCompiler.Proofs.Template.Place

/-!
# Templates behind other text

What a reader does depends on what follows it, and on its place only through the offsets that it
records. So a piece of text is read in the same way wherever it stands: to the same tokens, with
every offset greater by as many bytes as stand before it (`scanFrom_shift`). The tokens are then put
together into the same forest, with every position behind the text before (`assemble_behind`).

Everything that has a place is shifted by a number of bytes: cursors, attributes, tags, tokens and
failures. Each reader commutes with shifting, and the lemmas follow the readers one by one, from a
value to a step. They all have the same shape: reading from the shifted cursor is reading, with
`bimap` shifting what comes out, be it a failure or a token and a cursor.

Nodes have positions, with a line and a column, and not offsets. What stands before a piece may end
within a line, so a position behind it is found from the position of its end (`Position.behind`),
and the lines of a text that is put together are those of its parts (`startsAfterNewlines_append`).

Later modules use this for templates in which something is left out or put in: what stands in front
and what stands behind are then read as they are on their own.
-/

namespace ViewCompiler.Template

open ViewCompiler.Text

/-! ### Positions -/

/-- A position of a template, when the text `pre` is put before it. The first line of the template
goes on where the last one of `pre` ends. -/
def Position.behind (pre : List Char) (p : Position) : Position :=
  let last := (Source.ofText pre).position (byteLength pre)
  { offset := byteLength pre + p.offset
    line := last.line + p.line - 1
    column := if p.line = 1 then last.column + p.column - 1 else p.column }

/-- A span of a template, when the text `pre` is put before it. -/
def Span.behind (pre : List Char) (s : Span) : Span := ⟨s.start.behind pre, s.stop.behind pre⟩

namespace Source

/-- The lines of a text that is put together start where those of its parts do. -/
theorem startsAfterNewlines_append (base : Nat) (pre cs : List Char) :
    startsAfterNewlines base (pre ++ cs) =
      startsAfterNewlines base pre ++ startsAfterNewlines (base + byteLength pre) cs := by
  induction pre generalizing base with
  | nil => rfl
  | cons c pre ih =>
    simp only [List.cons_append, startsAfterNewlines, byteLength, ih, ← Nat.add_assoc]
    split <;> rfl

/-- Lines start as many bytes later as stand before the text. -/
private theorem startsAfterNewlines_add (k base : Nat) (cs : List Char) :
    startsAfterNewlines (k + base) cs = (startsAfterNewlines base cs).map (k + ·) := by
  induction cs generalizing base with
  | nil => rfl
  | cons c cs ih =>
    simp only [startsAfterNewlines, Nat.add_assoc, ih]
    split <;> rfl

/-- The lines behind a text start as many bytes further on as it has; the first of them started in
it. -/
private theorem lineStarts_append (pre cs : List Char) : (ofText (pre ++ cs)).lineStarts =
    (ofText pre).lineStarts ++ (startsAfterNewlines 0 cs).map (byteLength pre + ·) := by
  have hadd := startsAfterNewlines_add (byteLength pre) 0 cs
  rw [Nat.add_zero] at hadd
  rw [ofText, startsAfterNewlines_append, Nat.zero_add, hadd]
  rfl

/-- No line starts behind the end of the text. -/
theorem le_of_mem_lineStarts {start : Nat} {cs : List Char} (h : start ∈ (ofText cs).lineStarts) :
    start ≤ byteLength cs := by
  have hbound : ∀ base, ∀ start ∈ startsAfterNewlines base cs, start ≤ base + byteLength cs := by
    clear h
    induction cs with
    | nil => exact fun _ _ hstart => absurd hstart List.not_mem_nil
    | cons c cs ih =>
      intro base start hstart
      rw [byteLength, ← Nat.add_assoc]
      rw [startsAfterNewlines] at hstart
      split at hstart
      · rcases List.mem_cons.1 hstart with rfl | hstart
        · exact Nat.le_add_right _ _
        · exact ih _ start hstart
      · exact ih _ start hstart
  rcases List.mem_cons.1 h with rfl | h
  · exact Nat.zero_le _
  · exact Nat.zero_add (byteLength cs) ▸ hbound 0 start h

/-- An offset behind a text has the position that it has in what follows, put behind the text. -/
theorem position_append (pre cs : List Char) (n : Nat) :
    (ofText (pre ++ cs)).position (byteLength pre + n) = ((ofText cs).position n).behind pre := by
  obtain ⟨starts, hstarts⟩ :
      ∃ starts, (startsAfterNewlines 0 cs).takeWhile (· ≤ n) = starts := ⟨_, rfl⟩
  have hcs : (ofText cs).lineStarts.takeWhile (· ≤ n) = 0 :: starts := by
    rw [← hstarts]
    exact List.takeWhile_cons_of_pos (by simp)
  have hpre : (ofText pre).lineStarts.takeWhile (· ≤ byteLength pre) = (ofText pre).lineStarts :=
    List.takeWhile_eq_self_iff.2 fun _ hstart => decide_eq_true (le_of_mem_lineStarts hstart)
  have hwhole : (ofText (pre ++ cs)).lineStarts.takeWhile (· ≤ byteLength pre + n) =
      (ofText pre).lineStarts ++ starts.map (byteLength pre + ·) := by
    rw [lineStarts_append, List.takeWhile_append_of_pos fun _ hstart =>
      decide_eq_true (Nat.le_trans (le_of_mem_lineStarts hstart) (Nat.le_add_right _ n)),
      List.takeWhile_map, ← hstarts]
    simp [Function.comp_def]
  obtain ⟨last, hlast, hle⟩ :
      ∃ last, (ofText pre).lineStarts.getLast? = some last ∧ last ≤ byteLength pre :=
    ⟨_, List.getLast?_eq_some_getLast (List.cons_ne_nil _ _),
     le_of_mem_lineStarts (List.getLast_mem _)⟩
  simp only [position, Position.behind, hwhole, hpre, hcs]
  -- The position is on the first line behind the text, which goes on its last one, or on a later
  -- one.
  rcases List.eq_nil_or_concat starts with rfl | ⟨more, start, rfl⟩
  · simp [hlast]
    omega
  · simp [List.getLast?_append, List.getLast?_cons]
    omega

/-- A span in a text behind another one is the span behind it. -/
theorem span_append (pre cs : List Char) (start stop : Nat) :
    (ofText (pre ++ cs)).span (byteLength pre + start) (byteLength pre + stop) =
      ((ofText cs).span start stop).behind pre := by
  rw [span, position_append, position_append]
  rfl

end Source

/-! ### Offsets -/

/-- The same text, `k` bytes further on. -/
def Cursor.shift (k : Nat) (c : Cursor) : Cursor := { c with offset := k + c.offset }

/-- An attribute `k` bytes further on. Where there is no value, none starts. -/
def Attribute.shift (k : Nat) (a : Attribute) : Attribute :=
  { a with
    start := k + a.start
    stop := k + a.stop
    valueStart := if a.value.isSome then k + a.valueStart else a.valueStart }

/-- A tag `k` bytes further on. -/
def Tag.shift (k : Nat) (t : Tag) : Tag :=
  { t with
    attributes := t.attributes.map (Attribute.shift k)
    start := k + t.start
    stop := k + t.stop }

/-- The tag of a directive `k` bytes further on. -/
def DirectiveTag.shift (k : Nat) (t : DirectiveTag) : DirectiveTag :=
  { t with
    start := k + t.start
    stop := k + t.stop
    specStart := k + t.specStart
    specStop := k + t.specStop }

/-- A token `k` bytes further on. -/
def Token.shift (k : Nat) : Token → Token
  | .text start stop raw => .text (k + start) (k + stop) raw
  | .interpolation start stop value => .interpolation (k + start) (k + stop) value
  | .opening tag => .opening (tag.shift k)
  | .leaf tag => .leaf (tag.shift k)
  | .verbatim tag bodyStart bodyStop body stop =>
    .verbatim (tag.shift k) (k + bodyStart) (k + bodyStop) body (k + stop)
  | .directive tag selfClosing => .directive (tag.shift k) selfClosing
  | .closing name start stop => .closing name (k + start) (k + stop)

/-- A failure `k` bytes further on. -/
def Failure.shift (k : Nat) : Failure → Failure
  | .fault start stop f => .fault (k + start) (k + stop) f
  | .overrun => .overrun

/-- The same tokens and the same failure, `k` bytes further on. -/
def Scan.shift (k : Nat) (s : Scan) : Scan :=
  ⟨s.tokens.map (Token.shift k), s.failure.map (Failure.shift k)⟩

theorem Tag.shift_zero (t : Tag) : t.shift 0 = t := by
  have h : Attribute.shift 0 = id := by
    funext a
    simp [Attribute.shift]
  simp [Tag.shift, h]

theorem Token.shift_zero (t : Token) : t.shift 0 = t := by
  cases t <;> simp [Token.shift, Tag.shift_zero, DirectiveTag.shift]

theorem Attribute.shift_shift (k l : Nat) (a : Attribute) :
    (a.shift l).shift k = a.shift (k + l) := by
  simp only [Attribute.shift, Nat.add_assoc]
  split <;> rfl

theorem Tag.shift_shift (k l : Nat) (t : Tag) : (t.shift l).shift k = t.shift (k + l) := by
  simp [Tag.shift, Nat.add_assoc, Attribute.shift_shift]

theorem Token.shift_shift (k l : Nat) (t : Token) : (t.shift l).shift k = t.shift (k + l) := by
  cases t <;> simp [Token.shift, Nat.add_assoc, Tag.shift_shift, DirectiveTag.shift]

section Readers

variable (k size : Nat) (c : Cursor)

@[simp]
theorem Cursor.rest_shift : (c.shift k).rest = c.rest := rfl

@[simp]
theorem Cursor.offset_shift : (c.shift k).offset = k + c.offset := rfl

/-- Going past a text commutes with shifting. -/
@[simp]
theorem Cursor.past_shift (taken rest : List Char) :
    (c.shift k).past taken rest = (c.past taken rest).shift k := by
  simp [Cursor.past, Cursor.shift, Nat.add_assoc]

/-- Skipping characters commutes with shifting. -/
@[simp]
theorem Cursor.skipWhile_shift (p : Char → Bool) :
    (c.shift k).skipWhile p = (c.skipWhile p).shift k :=
  c.past_shift k _ _

@[simp]
theorem Cursor.skipSpace_shift : (c.shift k).skipSpace = c.skipSpace.shift k :=
  c.skipWhile_shift k _

@[simp]
theorem Cursor.consume?_shift (s : List Char) :
    (c.shift k).consume? s = (c.consume? s).map (Cursor.shift k) := by
  rw [Cursor.consume?, Cursor.consume?, Cursor.rest_shift, Option.map_map]
  exact Option.map_congr fun rest _ => c.past_shift k s rest

/-! ### Attributes -/

/-- The value of an attribute is read alike wherever it stands. -/
private theorem readAttributeValue_shift (tag name : String) (start : Nat) :
    readAttributeValue (k + size) tag name (k + start) (c.shift k) =
      bimap (Failure.shift k) (Prod.map (Attribute.shift k) (Cursor.shift k))
        (readAttributeValue size tag name start c) := by
  unfold readAttributeValue
  rw [Cursor.rest_shift]
  split
  · rfl
  · split
    · split
      · rfl
      · simp [Attribute.shift, Nat.add_assoc]
    · simp only
      split
      · rfl
      · simp [Attribute.shift]

/-- An attribute is read alike wherever it stands. -/
private theorem readAttribute_shift (tag : String) :
    readAttribute (k + size) tag (c.shift k) =
      bimap (Failure.shift k) (Prod.map (Attribute.shift k) (Cursor.shift k))
        (readAttribute size tag c) := by
  have hafter :
      ∀ name here, readAttribute.afterName (k + size) tag (c.shift k) name (here.shift k) =
      bimap (Failure.shift k) (Prod.map (Attribute.shift k) (Cursor.shift k))
        (readAttribute.afterName size tag c name here) := by
    intro name here
    unfold readAttribute.afterName
    simp only [Cursor.skipSpace_shift, Cursor.consume?_shift]
    cases here.skipSpace.consume? ['='] with
    | none => rfl
    | some valued =>
      simp only [Option.map_some, Cursor.skipSpace_shift, Cursor.offset_shift]
      exact readAttributeValue_shift k size valued.skipSpace tag (String.ofList name) c.offset
  unfold readAttribute
  simp only [Cursor.rest_shift, Cursor.past_shift, hafter]
  split
  · split
    · rfl
    · rfl
  · rfl

/-- The attributes of a tag are read alike wherever they stand. -/
theorem readAttributes_shift (start : Nat) (tag : String) (c : Cursor) :
    readAttributes (k + size) (k + start) tag (c.shift k) =
      bimap (Failure.shift k)
        (Prod.map (List.map (Attribute.shift k)) (Prod.map id (Cursor.shift k)))
        (readAttributes size start tag c) := by
  rw [readAttributes, readAttributes.eq_def size]
  simp only [Cursor.skipSpace_shift, Cursor.rest_shift k c.skipSpace, Cursor.consume?_shift,
    readAttribute_shift]
  split
  · rfl
  · cases c.skipSpace.consume? ['/', '>'] with
    | some after => rfl
    | none =>
      cases c.skipSpace.consume? ['>'] with
      | some after => rfl
      | none =>
        simp only [Option.map_none]
        cases readAttribute size tag c.skipSpace with
        | error e => rfl
        | ok found =>
          obtain ⟨a, next⟩ := found
          simp only [bimap_ok, Prod.map]
          by_cases hlt : next.rest.length < c.rest.length
          · rw [if_pos (by exact hlt), if_pos hlt, readAttributes_shift start tag next]
            cases readAttributes size start tag next with
            | error e => rfl
            | ok r => rfl
          · rw [if_neg (by exact hlt), if_neg hlt]
            rfl
termination_by c.rest.length

/-! ### Tags -/

theorem Tag.name_shift (tag : Tag) : (tag.shift k).name = tag.name := rfl

/-- Raw text is read alike wherever it stands. -/
private theorem readRawText_shift (tag : Tag) :
    readRawText (k + size) (tag.shift k) (c.shift k) =
      bimap (Failure.shift k) (Prod.map (Token.shift k) (Cursor.shift k))
      (readRawText size tag c) := by
  have hskip : ∀ rest n, Cursor.skipSpace ⟨rest, k + n⟩ = (Cursor.skipSpace ⟨rest, n⟩).shift k :=
    fun rest n => Cursor.skipSpace_shift k ⟨rest, n⟩
  unfold readRawText
  simp only [Tag.name_shift, Cursor.rest_shift, Cursor.offset_shift, Nat.add_assoc, gt_iff_lt,
    Nat.add_lt_add_iff_left, hskip, Cursor.consume?_shift]
  cases cut? ('<' :: '/' :: tag.name.toList.map lowerChar) (c.rest.map lowerChar) with
  | none => rfl
  | some found =>
    simp only
    split
    · rfl
    · split
      · rfl
      · cases Cursor.consume? (Cursor.skipSpace _) ['>'] with
        | none => rfl
        | some after => rfl

/-- A directive is read alike wherever it stands. -/
private theorem readDirective_shift (start : Nat) (name : String) :
    readDirective (k + size) (k + start) name (c.shift k) =
      bimap (Failure.shift k) (Prod.map (Token.shift k) (Cursor.shift k))
        (readDirective size start name c) := by
  have hbody : ∀ read, readDirective.body (k + size) (k + start) name (c.shift k) read =
      bimap (Failure.shift k) (Prod.map (Token.shift k) (Cursor.shift k))
        (readDirective.body size start name c read) := by
    intro read
    unfold readDirective.body
    rw [Cursor.rest_shift]
    split
    · rfl
    · simp only [Cursor.past_shift, Cursor.offset_shift]
      split
      · simp [Failure.shift, Nat.add_assoc]
      · simp [Token.shift, DirectiveTag.shift, Nat.add_assoc]
  unfold readDirective
  simp only [hbody]
  split
  · rfl
  · split
    · rfl
    · rfl

/-- A tag is read alike wherever it stands. -/
private theorem readTag_shift :
    readTag (k + size) (c.shift k) =
      bimap (Failure.shift k) (Prod.map (Token.shift k) (Cursor.shift k)) (readTag size c) := by
  unfold readTag
  simp only [Cursor.rest_shift, Cursor.past_shift, Cursor.skipWhile_shift, Cursor.offset_shift,
    readDirective_shift, readAttributes_shift]
  generalize String.ofList _ = name
  generalize Cursor.skipWhile _ isNameChar = here
  split
  · rfl
  · cases readAttributes size c.offset name here with
    | error e => rfl
    | ok found =>
      obtain ⟨attributes, selfClosing, after⟩ := found
      have hraw := readRawText_shift k size after ⟨name, attributes, c.offset, after.offset⟩
      simp only [Tag.shift] at hraw
      simp only [bimap_ok, Prod.map, id, Cursor.offset_shift, hraw]
      split
      · rfl
      · split
        · rfl
        · rfl

/-! ### Steps -/

/-- A closing tag is read alike wherever it stands. -/
private theorem readClosing_shift :
    readClosing (c.shift k) =
      bimap (Failure.shift k) (Prod.map (Token.shift k) (Cursor.shift k)) (readClosing c) := by
  unfold readClosing
  simp only [Cursor.rest_shift, Cursor.past_shift, Cursor.skipWhile_shift, Cursor.skipSpace_shift,
    Cursor.consume?_shift, Cursor.offset_shift]
  cases Cursor.consume? _ ['>'] with
  | none => rfl
  | some after => rfl

/-- An interpolation is read alike wherever it stands. -/
private theorem readInterpolation_shift :
    readInterpolation (k + size) (c.shift k) =
      bimap (Failure.shift k) (Prod.map (Token.shift k) (Cursor.shift k))
        (readInterpolation size c) := by
  unfold readInterpolation
  simp only [Cursor.rest_shift, Cursor.past_shift, Cursor.offset_shift]
  split
  · rfl
  · split
    · rfl
    · rfl

/-- A step is the same wherever the cursor stands, with everything shifted. -/
private theorem step_shift :
    step (k + size) (c.shift k) =
      bimap (Failure.shift k) (Prod.map (Option.map (Token.shift k)) (Cursor.shift k))
        (step size c) := by
  have hsome :
      ∀ r, step.some' (bimap (Failure.shift k) (Prod.map (Token.shift k) (Cursor.shift k)) r) =
      bimap (Failure.shift k) (Prod.map (Option.map (Token.shift k)) (Cursor.shift k))
        (step.some' r) := by
    intro r
    cases r with
    | error e => rfl
    | ok found => rfl
  unfold step
  simp only [Cursor.rest_shift, Cursor.past_shift, Cursor.offset_shift, readClosing_shift,
    readTag_shift,
    readInterpolation_shift, hsome]
  split
  · split
    · rfl
    · simp [Cursor.shift, Nat.add_assoc]
  · split
    · split
      · rfl
      · rfl
    · split
      · rfl
      · split
        · rfl
        · split
          · rfl
          · rfl

/-- What stands behind `k` bytes is read to the same tokens, with every offset greater by `k`. -/
theorem scanFrom_shift (c : Cursor) :
    scanFrom (k + size) (c.shift k) = (scanFrom size c).shift k := by
  rw [scanFrom, scanFrom.eq_def size, step_shift, Cursor.rest_shift]
  split
  · rfl
  · cases step size c with
    | error e => rfl
    | ok found =>
      obtain ⟨token, next⟩ := found
      simp only [bimap_ok, Prod.map]
      by_cases hlt : next.rest.length < c.rest.length
      · rw [if_pos (by exact hlt), if_pos hlt, scanFrom_shift next]
        cases token with
        | none => rfl
        | some t => rfl
      · rw [if_neg (by exact hlt), if_neg hlt]
        cases token with
        | none => rfl
        | some t => rfl
termination_by c.rest.length

end Readers

/-! ### Bindings -/

section Behind

variable (k : Nat) (pre cs : List Char)

theorem Attribute.name_shift (a : Attribute) : (a.shift k).name = a.name := rfl

private theorem Attribute.value_shift (a : Attribute) : (a.shift k).value = a.value := rfl

private theorem Attribute.isDirective_shift (a : Attribute) :
    (a.shift k).isDirective = a.isDirective := rfl

private theorem Attribute.failure_shift (a : Attribute) (f : Fault) :
    (a.shift k).failure f = (a.failure f).shift k := rfl

private theorem Attribute.valueFailure_shift {a : Attribute} (h : a.value.isSome = true)
    (f : Fault) :
    (a.shift k).valueFailure f = (a.valueFailure f).shift k := by
  simp [Attribute.valueFailure, Attribute.valueStop, Attribute.shift, Failure.shift, h,
    Nat.add_assoc]

/-- What a dynamic attribute is bound to does not depend on where it stands. -/
private theorem dynamicTarget_shift (component : Bool) (a : Attribute) :
    dynamicTarget component (a.shift k) =
      bimap (Failure.shift k) id (dynamicTarget component a) := by
  unfold dynamicTarget
  rw [Attribute.name_shift, Attribute.value_shift]
  simp only [Attribute.failure_shift]
  split
  · rfl
  · split
    · rfl
    · split
      · rfl
      · split
        · rfl
        · rfl
        · split
          · rfl
          · split
            · rfl
            · split <;> rfl

private theorem isSome_of_dynamicTarget {component : Bool} {a : Attribute}
    {target : BindingKind × String}
    (h : dynamicTarget component a = .ok target) : a.value.isSome = true := by
  unfold dynamicTarget at h
  simp only at h
  split at h
  · cases h
  · split at h
    · cases h
    · rename_i hvalue
      simpa [Option.isSome_iff_ne_none] using hvalue

/-- A dynamic attribute is bound alike wherever it stands. -/
private theorem bindDynamic_shift (component : Bool) (a : Attribute) :
    bindDynamic component (a.shift k) = bimap (Failure.shift k) id (bindDynamic component a) := by
  unfold bindDynamic
  rw [dynamicTarget_shift]
  cases htarget : dynamicTarget component a with
  | error e => rfl
  | ok target =>
    have hfailure := Attribute.valueFailure_shift k (isSome_of_dynamicTarget htarget)
    rw [Attribute.name_shift, Attribute.value_shift]
    simp only [bimap_ok, id, bind, Except.bind, hfailure]
    split
    · rfl
    · split <;> rfl

/-- Behind another text an attribute gives the same binding, relocated. -/
private theorem bindAttribute_behind (component : Bool) (a : Attribute) :
    bindAttribute (.ofText (pre ++ cs)) component (a.shift (byteLength pre)) =
      bimap (Failure.shift (byteLength pre)) (Binding.relocate (Span.behind pre))
        (bindAttribute (.ofText cs) component a) := by
  have hliteral : bindLiteral component (a.shift (byteLength pre)) = bindLiteral component a := rfl
  have hspan : Source.span (.ofText (pre ++ cs)) (a.shift (byteLength pre)).start
      (a.shift (byteLength pre)).stop = _ := Source.span_append pre cs a.start a.stop
  unfold bindAttribute
  rw [Attribute.name_shift]
  simp only [hliteral, Attribute.failure_shift, hspan, bindDynamic_shift]
  split
  · cases bindDynamic component a with
    | error e => rfl
    | ok bound => rfl
  · split
    · rfl
    · split
      · rfl
      · rfl

/-- Behind another text the attributes of a tag give the same bindings, relocated. -/
private theorem bindAttributes_behind (component : Bool) (tag : String)
    (directive : Option Attribute) (attributes : List Attribute) :
    bindAttributes (.ofText (pre ++ cs)) component tag
        (directive.map (Attribute.shift (byteLength pre)))
        (attributes.map (Attribute.shift (byteLength pre))) =
      bimap (Failure.shift (byteLength pre))
        (Prod.map (List.map (Binding.relocate (Span.behind pre)))
          (Option.map (Attribute.shift (byteLength pre))))
        (bindAttributes (.ofText cs) component tag directive attributes) := by
  induction attributes generalizing directive with
  | nil => rfl
  | cons a attributes ih =>
    have hfound := ih (some a)
    rw [Option.map_some] at hfound
    rw [List.map_cons, bindAttributes, bindAttributes, Attribute.isDirective_shift,
      Attribute.value_shift,
      Option.isSome_map, hfound, bindAttribute_behind, ih]
    split
    · split
      · rfl
      · split <;> rfl
    · cases bindAttribute (.ofText cs) component a with
      | error e => rfl
      | ok binding =>
        cases bindAttributes (.ofText cs) component tag directive attributes with
        | error e => rfl
        | ok rest => rfl

/-! ### Tags -/

/-- Behind another text a shorthand wraps a node in the same way, relocated. -/
theorem wrapDirective_behind (node : Node) {a : Attribute} (h : a.value.isSome = true) :
    wrapDirective (.ofText (pre ++ cs)) (node.relocate (Span.behind pre))
    (a.shift (byteLength pre)) =
      bimap (Failure.shift (byteLength pre)) (Node.relocate (Span.behind pre))
        (wrapDirective (.ofText cs) node a) := by
  have hspan : Source.span (.ofText (pre ++ cs)) (a.shift (byteLength pre)).valueStart
      (a.shift (byteLength pre)).valueStop =
        (Source.span (.ofText cs) a.valueStart a.valueStop).behind pre := by
    rw [← Source.span_append]
    simp [Attribute.shift, Attribute.valueStop, h, Nat.add_assoc]
  unfold wrapDirective
  rw [Attribute.name_shift, Attribute.value_shift]
  simp only [hspan, Attribute.valueFailure_shift _ h, Node.span_relocate]
  split
  · rfl
  · rfl

/-- Behind another text a tag is finished to the same node, relocated. -/
theorem finishTag_behind (tag : Tag) (children : List Node) (stop : Nat) :
    finishTag (.ofText (pre ++ cs)) (tag.shift (byteLength pre))
    (relocateAll (Span.behind pre) children)
        (byteLength pre + stop) =
      bimap (Failure.shift (byteLength pre)) (Node.relocate (Span.behind pre))
        (finishTag (.ofText cs) tag children stop) := by
  have hattributes : (tag.shift (byteLength pre)).attributes =
      tag.attributes.map (Attribute.shift (byteLength pre)) := rfl
  have hspan : Source.span (.ofText (pre ++ cs)) (tag.shift (byteLength pre)).start
      (byteLength pre + stop) = _ := Source.span_append pre cs tag.start stop
  have hfind : (relocateAll (Span.behind pre) children).find? (!·.isBlankText) =
      (children.find? (!·.isBlankText)).map (Node.relocate (Span.behind pre)) := by
    simp only [relocateAll_eq_map, List.find?_map, Function.comp_def, Node.isBlankText_relocate]
  have hbind := bindAttributes_behind pre cs (isComponentName tag.name) tag.name none tag.attributes
  rw [Option.map_none] at hbind
  unfold finishTag
  simp only [Tag.name_shift, hattributes, hspan, hfind, hbind]
  have hsome : ∀ {bindings a}, bindAttributes (.ofText cs) (isComponentName tag.name) tag.name none
      tag.attributes = .ok (bindings, some a) → a.value.isSome = true := fun h =>
    (((binds_of_bindAttributes h).2 _ rfl).resolve_left (Option.not_mem_none _)).2
  split
  · cases children.find? (!·.isBlankText) with
    | some child =>
      simp only [Option.map_some, Node.span_relocate]
      rfl
    | none =>
      refine bimap_bind fun bound hbound => ?_
      obtain ⟨bindings, directive⟩ := bound
      cases directive with
      | none => rfl
      | some a =>
        exact wrapDirective_behind pre cs (.component _ tag.name bindings) (hsome hbound)
  · refine bimap_bind fun bound hbound => ?_
    obtain ⟨bindings, directive⟩ := bound
    cases directive with
    | none => rfl
    | some a =>
      exact wrapDirective_behind pre cs (.element _ tag.name bindings children) (hsome hbound)

/-- Behind another text a directive is finished to the same node, relocated. -/
theorem finishDirective_behind (tag : DirectiveTag) (children : List Node) (stop : Nat) :
    finishDirective (.ofText (pre ++ cs)) (tag.shift (byteLength pre))
        (relocateAll (Span.behind pre) children) (byteLength pre + stop) =
      (finishDirective (.ofText cs) tag children stop).relocate (Span.behind pre) := by
  simp only [finishDirective, DirectiveTag.shift, Source.span_append, Node.relocate]

/-! ### Forests -/

/-- An open tag `k` bytes further on. -/
def OpenTag.shift (k : Nat) : OpenTag → OpenTag
  | .tag t => .tag (t.shift k)
  | .directive t => .directive (t.shift k)

theorem OpenTag.name_shift (opened : OpenTag) : (opened.shift k).name = opened.name := by
  cases opened <;> rfl

/-- An open tag and the nodes before it, when the text `pre` is put before the template. -/
def Frame.behind (pre : List Char) (frame : Frame) : Frame :=
  ⟨frame.opened.shift (byteLength pre), relocateAll (Span.behind pre) frame.before⟩

/-- Behind another text whatever was opened is finished to the same node, relocated. -/
private theorem OpenTag.finish_behind (opened : OpenTag) (children : List Node) (stop : Nat) :
    (opened.shift (byteLength pre)).finish (.ofText (pre ++ cs))
        (relocateAll (Span.behind pre) children) (byteLength pre + stop) =
      bimap (Failure.shift (byteLength pre)) (Node.relocate (Span.behind pre))
        (opened.finish (.ofText cs) children stop) := by
  cases opened with
  | tag t => exact finishTag_behind pre cs t children stop
  | directive t => exact congrArg Except.ok (finishDirective_behind pre cs t children stop)

/-- Behind another text a raw body is the same text node, relocated. -/
private theorem verbatimBody_behind (start stop : Nat) (body : String) :
    verbatimBody (.ofText (pre ++ cs)) (byteLength pre + start) (byteLength pre + stop) body =
      relocateAll (Span.behind pre) (verbatimBody (.ofText cs) start stop body) := by
  simp only [verbatimBody, Nat.add_left_cancel_iff, Source.span_append]
  split
  · rfl
  · rfl

/-- Tokens that stand behind a text are put together into the same forest, with every position
behind the text. -/
theorem assemble_behind (failure : Option Failure) (tokens : List Token) (stack : List Frame)
    (nodes : List Node) :
    assemble (.ofText (pre ++ cs)) (failure.map (Failure.shift (byteLength pre)))
        (tokens.map (Token.shift (byteLength pre))) (stack.map (Frame.behind pre))
        (relocateAll (Span.behind pre) nodes) =
      bimap (Failure.shift (byteLength pre)) (relocateAll (Span.behind pre))
        (assemble (.ofText cs) failure tokens stack nodes) := by
  induction tokens generalizing stack nodes with
  | nil =>
    cases failure with
    | some e => rfl
    | none =>
      cases stack with
      | nil => exact congrArg Except.ok (relocateAll_reverse _ nodes)
      | cons frame stack =>
        obtain ⟨opened, before⟩ := frame
        cases opened with
        | tag t => rfl
        | directive t => rfl
  | cons token tokens ih =>
    have hspan := Source.span_append pre cs
    cases token with
    | text start stop raw =>
      simp only [List.map_cons, Token.shift, assemble, hspan]
      exact ih stack (.interpolation _ (.text (CharacterReference.decode raw)) :: nodes)
    | interpolation start stop v =>
      simp only [List.map_cons, Token.shift, assemble, hspan]
      exact ih stack (.interpolation _ v :: nodes)
    | opening tag => exact ih (⟨.tag tag, nodes⟩ :: stack) []
    | leaf tag =>
      have hfinish : finishTag _ (tag.shift _) [] (tag.shift _).stop = _ :=
        finishTag_behind pre cs tag [] tag.stop
      rw [List.map_cons, Token.shift, assemble_leaf, assemble_leaf, hfinish]
      exact bimap_bind fun n _ => ih stack (n :: nodes)
    | verbatim tag bodyStart bodyStop body stop =>
      rw [List.map_cons, Token.shift, assemble_verbatim, assemble_verbatim, verbatimBody_behind,
        finishTag_behind]
      exact bimap_bind fun n _ => ih stack (n :: nodes)
    | directive tag selfClosing =>
      cases selfClosing with
      | true =>
        have hfinish : finishDirective _ (tag.shift _) [] (tag.shift _).stop = _ :=
          finishDirective_behind pre cs tag [] tag.stop
        simp only [List.map_cons, Token.shift, assemble, hfinish]
        exact ih stack (finishDirective (.ofText cs) tag [] tag.stop :: nodes)
      | false => exact ih (⟨.directive tag, nodes⟩ :: stack) []
    | closing name start stop =>
      cases stack with
      | nil => rfl
      | cons frame stack =>
        obtain ⟨opened, before⟩ := frame
        have hfinish := OpenTag.finish_behind pre cs opened nodes.reverse stop
        rw [← relocateAll_reverse] at hfinish
        rw [List.map_cons, List.map_cons, Token.shift, Frame.behind]
        by_cases hname : opened.name = name
        · rw [assemble_closing hname, assemble_closing ((opened.name_shift _).trans hname), hfinish]
          exact bimap_bind fun n _ => ih stack (n :: before)
        · have hname' := mt (opened.name_shift (byteLength pre)).symm.trans hname
          rw [assemble_mismatched hname, assemble_mismatched hname', OpenTag.name_shift]
          rfl

/-- Tokens are put together alike behind another text, to the same forest relocated. -/
theorem assembles_behind_iff {tokens : List Token} {forest : List Node} :
    Assembles (.ofText (pre ++ cs)) (tokens.map (Token.shift (byteLength pre))) forest ↔
      ∃ nodes, Assembles (.ofText cs) tokens nodes ∧
        relocateAll (Span.behind pre) nodes = forest := by
  have hbehind := assemble_behind pre cs none tokens [] []
  have hiff : ∀ source tokens forest, Assembles source tokens forest ↔
      assemble source none tokens [] [] = .ok forest := by
    simp [assemble_eq_ok_iff]
  simp only [hiff]
  rw [← bimap_eq_ok_iff, ← hbehind]
  rfl

end Behind

/-- A template that starts with one token for a piece of markup is read exactly if what follows is,
and then as the node of the token and the nodes of what follows, with every position behind the
token. -/
theorem parse_append_iff {component pre source : String} {token : Token} {n : Node}
    (hscan : scan (pre ++ source).toList =
      ((scan source.toList).shift (byteLength pre.toList)).after [token])
    (hmakes : token.Makes (.ofText (pre ++ source).toList) n) (hn : n.kind.isStructural = true)
    {nodes : List Node} :
    parse component (pre ++ source) = .ok nodes ↔ ∃ after, parse component source = .ok after ∧
      nodes = n.prune :: relocateAll (Span.behind pre.toList) after := by
  have hprune : ∀ after, pruneWhitespace (n :: relocateAll (Span.behind pre.toList) after) =
      n.prune :: relocateAll (Span.behind pre.toList) (pruneWhitespace after) := by
    intro after
    rw [pruneWhitespace_cons hn, pruneWhitespace, pruneFrom_relocateAll, pruneWhitespace]
  rw [String.toList_append] at hscan hmakes
  simp only [parse_eq_ok_iff, String.toList_append, hscan, Scan.after, Scan.shift,
    Option.map_eq_none_iff, List.singleton_append, assembles_cons_iff hmakes, assembles_behind_iff]
  constructor
  · rintro ⟨hfailure, -, ⟨-, ⟨forest, hforest, rfl⟩, rfl⟩, rfl⟩
    exact ⟨pruneWhitespace forest, ⟨hfailure, forest, hforest, rfl⟩, hprune forest⟩
  · rintro ⟨-, ⟨hfailure, forest, hforest, rfl⟩, rfl⟩
    exact ⟨hfailure, _, ⟨_, ⟨forest, hforest, rfl⟩, rfl⟩, (hprune forest).symm⟩

end ViewCompiler.Template
