import ViewCompiler.Proofs.Outcome
import ViewCompiler.Proofs.Template.Assembly
import ViewCompiler.Proofs.Template.Binding
import ViewCompiler.Proofs.Template.Extent
import ViewCompiler.Proofs.Template.Forest

/-!
# Places in a template

A position is a place in a text when the text has its line and the line has its column
(`Position.IsIn`). Every offset that does not lie behind the text has such a position
(`Source.isIn_position`). Whatever is put together from the tokens of a template spans a stretch of
it, and so does the fault that keeps it from being put together (`assemblesWithin_scan`): the nodes
and bindings of a template that was read stand at places in it, and so does the fault of one that
was not (`isIn_of_parse`, `isIn_of_parse_eq_error`).

Lines and columns are found by looking for the last line that starts at or before an offset. That
this is right is shown by splitting the text at the offset: what stands before it has as many line
feeds as lines are passed, and the column is what stands behind the last of them.

Everything else is about offsets. Tokens lie in order (`Template/Extent`), so a node that spans the
tokens from one to another starts before it ends and ends within the text. The lemmas follow how a
node is put together: an attribute is bound, a tag is finished, a directive is wrapped around it,
and tokens are folded, each time either to something within the source or to a failure within the
source (`BindsWithin`, `CompletesWithin`, `AssemblesWithin`). The failure of a scan is passed
through.
-/

namespace ViewCompiler.Template

open ViewCompiler.Text

/-! ### Lines and columns -/

/-- The text has the line of the position, and the column is that of a byte of the line or the one
behind it. -/
def Position.IsIn (text : String) (p : Position) : Prop :=
  ∃ before line after, splitOn '\n' text.toList = before ++ line :: after ∧
    p.line = before.length + 1 ∧ 1 ≤ p.column ∧ p.column ≤ byteLength line + 1

namespace Source

/-- The next line starts behind the first character. -/
private theorem le_of_mem_startsAfterNewlines {base offset : Nat} {c : Char} {cs : List Char}
    (h : offset ∈ startsAfterNewlines base (c :: cs)) : base + c.utf8Size ≤ offset := by
  induction cs generalizing base c with
  | nil =>
    simp only [startsAfterNewlines] at h
    split at h
    · exact Nat.le_of_eq (List.mem_singleton.1 h).symm
    · cases h
  | cons d cs ih =>
    rw [startsAfterNewlines] at h
    split at h
    · rcases List.mem_cons.1 h with rfl | h
      · exact Nat.le_refl _
      · exact Nat.le_trans (Nat.le_add_right _ _) (ih h)
    · exact Nat.le_trans (Nat.le_add_right _ _) (ih h)

/-- No line starts up to an offset that does not lie behind the next character. -/
theorem takeWhile_startsAfterNewlines_eq_nil {base offset : Nat} {c : Char} {cs : List Char}
    (h : ¬base + c.utf8Size ≤ offset) :
    (startsAfterNewlines base (c :: cs)).takeWhile (· ≤ offset) = [] := by
  cases hstarts : startsAfterNewlines base (c :: cs) with
  | nil => rfl
  | cons first rest =>
    have hfirst := le_of_mem_startsAfterNewlines (hstarts ▸ List.mem_cons_self)
    exact List.takeWhile_cons_of_neg (by simp only [decide_eq_true_eq]; omega)

/-- The line that an offset falls on. `base` is the offset at which the rest of the text begins and
`start` the one at which the first line of it began. -/
private theorem exists_line {base start offset : Nat} {cs : List Char} (hstart : start ≤ base)
    (hbase : base ≤ offset) (hoffset : offset ≤ base + byteLength cs) :
    ∃ before line after, splitOn '\n' cs = before ++ line :: after ∧
      ((startsAfterNewlines base cs).takeWhile (· ≤ offset)).length = before.length ∧
      offset - ((startsAfterNewlines base cs).takeWhile (· ≤ offset)).getLast?.getD start ≤
        (if before = [] then base - start else 0) + byteLength line := by
  induction cs generalizing base start with
  | nil =>
    refine ⟨[], [], [], rfl, rfl, ?_⟩
    simp only [byteLength] at hoffset ⊢
    simp [startsAfterNewlines]
    omega
  | cons c cs ih =>
    simp only [byteLength] at hoffset
    by_cases hnext : base + c.utf8Size ≤ offset
    · by_cases hc : c = '\n'
      · -- The offset lies behind the newline, on a line that starts there or later.
        obtain ⟨before, line, after, hsplit, hlength, hcolumn⟩ :=
          ih (Nat.le_refl (base + c.utf8Size)) hnext (by omega)
        have hstarts : (startsAfterNewlines base (c :: cs)).takeWhile (· ≤ offset) =
            (base + c.utf8Size) ::
              (startsAfterNewlines (base + c.utf8Size) cs).takeWhile (· ≤ offset) := by
          simp [startsAfterNewlines, hc, hc ▸ hnext]
        refine ⟨[] :: before, line, after, ?_, ?_, ?_⟩
        · rw [splitOn, if_pos hc, hsplit, List.cons_append]
        · rw [hstarts, List.length_cons, List.length_cons, hlength]
        · rw [hstarts, List.getLast?_cons, Option.getD_some, if_neg (List.cons_ne_nil _ _)]
          simpa using hcolumn
      · -- The line that the character belongs to goes on.
        obtain ⟨before, line, after, hsplit, hlength, hcolumn⟩ :=
          ih (Nat.le_trans hstart (Nat.le_add_right base c.utf8Size)) hnext (by omega)
        rw [startsAfterNewlines, if_neg hc]
        cases before with
        | nil =>
          refine ⟨[], c :: line, after, ?_, hlength, ?_⟩
          · rw [splitOn, if_neg hc, hsplit]
            rfl
          · simp only [if_true, byteLength] at hcolumn ⊢
            omega
        | cons piece before =>
          refine ⟨(c :: piece) :: before, line, after, ?_, hlength, ?_⟩
          · rw [splitOn, if_neg hc, hsplit]
            rfl
          · exact hcolumn
    · -- The offset lies before the next character, so no line starts between them.
      rw [takeWhile_startsAfterNewlines_eq_nil hnext]
      by_cases hc : c = '\n'
      · have hsize : c.utf8Size = 1 := hc ▸ rfl
        refine ⟨[], [], splitOn '\n' cs, by rw [splitOn, if_pos hc]; rfl, rfl, ?_⟩
        simp only [List.getLast?_nil, Option.getD_none, if_true]
        omega
      · obtain ⟨piece, pieces, hsplit⟩ := List.exists_cons_of_ne_nil (splitOn_ne_nil '\n' cs)
        refine ⟨[], c :: piece, pieces, by rw [splitOn, if_neg hc, hsplit]; rfl, rfl, ?_⟩
        simp only [List.getLast?_nil, Option.getD_none, if_true, byteLength]
        omega

/-- Every offset up to the end of a text has a position that is a place in it. -/
theorem isIn_position {text : String} {offset : Nat} (h : offset ≤ (ofText text.toList).size) :
    ((ofText text.toList).position offset).IsIn text := by
  obtain ⟨before, line, after, hsplit, hlength, hcolumn⟩ :=
    exists_line (Nat.le_refl 0) (Nat.zero_le offset) (Nat.le_trans h (Nat.le_add_left _ 0))
  have hstarts : (ofText text.toList).lineStarts.takeWhile (· ≤ offset) =
      0 :: (startsAfterNewlines 0 text.toList).takeWhile (· ≤ offset) := by
    simp [ofText]
  refine ⟨before, line, after, hsplit, ?_, ?_, ?_⟩
  · rw [position, hstarts, List.length_cons, hlength]
  · exact Nat.le_add_left 1 _
  · rw [position, hstarts, List.getLast?_cons, Option.getD_some]
    simp only [Nat.sub_self, ite_self, Nat.zero_add] at hcolumn
    exact Nat.succ_le_succ hcolumn

end Source

/-! ### Bindings -/

/-- The span is that of a stretch of the text. -/
def Span.Within (source : Source) (s : Span) : Prop :=
  ∃ start stop, start ≤ stop ∧ stop ≤ source.size ∧ s = source.span start stop

/-- A node and its bindings span stretches of the text. -/
structure Node.Within (source : Source) (n : Node) : Prop where
  span : n.span.Within source
  bindings : ∀ b ∈ n.bindings, b.span.Within source

/-- All nodes of a forest span stretches of the text. -/
abbrev AllWithin (source : Source) (nodes : List Node) : Prop := AllNodes (Node.Within source) nodes

section Assembly

variable {source : Source}

/-- A span up to some offset lies within the source if the offset does. -/
theorem within_span {start stop : Nat} (h : start ≤ stop) (hstop : stop ≤ source.size) :
    (source.span start stop).Within source :=
  ⟨start, stop, h, hstop, rfl⟩

/-- The failure of an attribute is placed at the attribute. -/
theorem Attribute.Within.failure {a : Attribute} {size : Nat} (h : a.Within size) (f : Fault) :
    (a.failure f).Within size False :=
  ⟨h.start_le, h.stop_le⟩

/-- The failure of a value is placed within its attribute. -/
theorem Attribute.Within.valueFailure {a : Attribute} {size : Nat} (h : a.Within size) (f : Fault) :
    (a.valueFailure f).Within size False :=
  ⟨Nat.le_add_right _ _, h.value_le⟩

/-- What is wrong with the target of an attribute is placed at the attribute. -/
private theorem within_of_dynamicTarget {component : Bool} {a : Attribute} {e : Failure}
    (ha : a.Within source.size) (h : dynamicTarget component a = .error e) :
    e.Within source.size False := by
  unfold dynamicTarget at h
  simp only at h
  split at h
  · exact Except.error.inj h ▸ ha.failure _
  · split at h
    · exact Except.error.inj h ▸ ha.failure _
    · split at h
      · cases h
      · split at h
        · exact Except.error.inj h ▸ ha.failure _
        · cases h
        · split at h
          · exact Except.error.inj h ▸ ha.failure _
          · split at h
            · exact Except.error.inj h ▸ ha.failure _
            · split at h <;> cases h

/-- What is wrong with a dynamic attribute is placed at the attribute. -/
private theorem within_of_bindDynamic {component : Bool} {a : Attribute} {e : Failure}
    (ha : a.Within source.size) (h : bindDynamic component a = .error e) :
    e.Within source.size False := by
  unfold bindDynamic at h
  rcases bind_eq_error_iff.1 h with h | ⟨⟨kind, target⟩, -, h⟩
  · exact within_of_dynamicTarget ha h
  · simp only at h
    split at h
    · exact Except.error.inj h ▸ ha.valueFailure _
    · split at h
      · cases h
      · exact Except.error.inj h ▸ ha.valueFailure _
      · cases h

/-- A binding spans its attribute. -/
private theorem within_of_bindAttribute_eq_ok {component : Bool} {a : Attribute} {b : Binding}
    (ha : a.Within source.size) (h : bindAttribute source component a = .ok b) :
    b.span.Within source := by
  rw [span_of_bindAttribute h]
  exact within_span ha.start_le ha.stop_le

/-- What is wrong with an attribute is placed at the attribute. -/
private theorem within_of_bindAttribute {component : Bool} {a : Attribute} {e : Failure}
    (ha : a.Within source.size) (h : bindAttribute source component a = .error e) :
    e.Within source.size False := by
  unfold bindAttribute at h
  simp only at h
  split at h
  · rcases bind_eq_error_iff.1 h with h | ⟨⟨kind, target, v⟩, -, h⟩
    · exact within_of_bindDynamic ha h
    · cases h
  · split at h
    · obtain rfl := Except.error.inj h
      exact ha.failure _
    · split at h
      · obtain rfl := Except.error.inj h
        exact ha.failure _
      · cases h

/-- The bindings of a tag span stretches of the text, and the attribute that wraps it lies within
it. -/
def BindsWithin (source : Source) : Except Failure (List Binding × Option Attribute) → Prop
  | .ok (bs, directive) =>
    (∀ b ∈ bs, b.span.Within source) ∧ ∀ a ∈ directive, a.Within source.size
  | .error e => e.Within source.size False

/-- Attributes within the source give bindings within the source, or fail there. -/
private theorem bindsWithin_bindAttributes {component : Bool} {tag : String}
    {directive : Option Attribute}
    {attributes : List Attribute} (hdirective : ∀ a ∈ directive, a.Within source.size)
    (hattributes : ∀ a ∈ attributes, a.Within source.size) :
    BindsWithin source (bindAttributes source component tag directive attributes) := by
  induction attributes generalizing directive with
  | nil => exact ⟨by simp, hdirective⟩
  | cons a rest ih =>
    obtain ⟨ha, hrest⟩ := List.forall_mem_cons.1 hattributes
    rw [bindAttributes]
    split
    · split
      · exact ha.failure (.secondDirective tag)
      · split
        · exact ha.failure (.directiveWithoutValue a.name)
        · exact ih (fun b hb => Option.some.inj hb ▸ ha) hrest
    · split
      · rename_i e he
        exact within_of_bindAttribute ha he
      · rename_i b hb
        have hmore := ih hdirective hrest
        split
        · rename_i e he
          rw [he] at hmore
          exact hmore
        · rename_i bs directive' hbs
          rw [hbs] at hmore
          obtain ⟨hbindings, hdirective'⟩ := hmore
          have hb := within_of_bindAttribute_eq_ok ha hb
          exact ⟨List.forall_mem_cons.2 ⟨hb, hbindings⟩, hdirective'⟩

/-! ### Completing a tag -/

/-- A node that is completed spans a stretch of the text, and so does all its content. -/
def CompletesWithin (source : Source) : Except Failure Node → Prop
  | .ok n => AllWithin source [n]
  | .error e => e.Within source.size False

/-- A tree lies within the source if its root does and what stands below it. -/
theorem allWithin_singleton {n : Node} :
    AllWithin source [n] ↔ n.Within source ∧ AllWithin source n.children := by
  rw [AllWithin, allNodes_cons, and_iff_left allNodes_nil]

private theorem allWithin_directive {span specSpan : Span} {spec : String} {d : Directive}
    {children : List Node} (hspan : span.Within source) (hspec : specSpan.Within source)
    (hchildren : AllWithin source children) :
    AllWithin source [.directive span spec specSpan d children] :=
  allWithin_singleton.2 ⟨⟨hspan, List.forall_mem_singleton.2 hspec⟩, hchildren⟩

/-- A shorthand wraps a node within the source into one within the source, or fails there. -/
private theorem completesWithin_wrapDirective {n : Node} {a : Attribute} (hn : AllWithin source [n])
    (ha : a.Within source.size) : CompletesWithin source (wrapDirective source n a) := by
  unfold wrapDirective
  simp only
  split
  · rename_i e _
    exact ha.valueFailure (.directive e)
  · have hvalue := within_span (Nat.le_add_right a.valueStart _) ha.value_le
    exact allWithin_directive (allWithin_singleton.1 hn).1.span hvalue hn

/-- The attributes of a tag are bound, and the tag is wrapped if one of them is a directive. -/
theorem completesWithin_bound (node : List Binding → Node) {component : Bool} {tag : Tag}
    (htag : tag.Within source.size)
    (hnode : ∀ bs : List Binding, (∀ b ∈ bs, b.span.Within source) → AllWithin source [node bs]) :
    CompletesWithin source (bindAttributes source component tag.name none tag.attributes >>=
      fun x =>
      match x.2 with
      | none => pure (node x.1)
      | some a => wrapDirective source (node x.1) a) := by
  have hattributes : ∀ a ∈ tag.attributes, a.Within source.size := fun a ha =>
    (htag.attributes a ha).mono htag.stop_le
  have hbinds : BindsWithin source (bindAttributes source component tag.name none tag.attributes) :=
    bindsWithin_bindAttributes nofun hattributes
  generalize bindAttributes source component tag.name none tag.attributes = bound at hbinds ⊢
  cases bound with
  | error e => exact hbinds
  | ok bound =>
    obtain ⟨bs, directive⟩ := bound
    obtain ⟨hbs, hdirective⟩ := hbinds
    cases directive with
    | none => exact hnode bs hbs
    | some a => exact completesWithin_wrapDirective (hnode bs hbs) (hdirective a rfl)

theorem Tag.Within.mono {tag : Tag} {limit limit' : Nat} (h : tag.Within limit)
    (hle : limit ≤ limit') : tag.Within limit' :=
  ⟨h.start_le, Nat.le_trans h.stop_le hle, h.attributes⟩

/-- A tag is completed at an offset behind it. -/
theorem completesWithin_finishTag {tag : Tag} {children : List Node} {stop : Nat}
    (htag : tag.Within stop) (hstop : stop ≤ source.size) (hchildren : AllWithin source children) :
    CompletesWithin source (finishTag source tag children stop) := by
  have hwithin := htag.mono hstop
  have hspan : (source.span tag.start stop).Within source :=
    within_span (Nat.le_trans htag.start_le htag.stop_le) hstop
  unfold finishTag
  simp only
  split
  · split
    · rename_i child hfind
      obtain ⟨⟨⟨start, stop, hle, hstop, hspan⟩, -⟩, -⟩ :=
        allNodes_iff.1 hchildren child (List.mem_of_find?_eq_some hfind)
      change child.span.start.offset ≤ child.span.stop.offset ∧ child.span.stop.offset ≤ source.size
      rw [hspan]
      exact ⟨hle, hstop⟩
    · refine completesWithin_bound (.component _ tag.name ·) hwithin fun bs hbs => ?_
      exact allWithin_singleton.2 ⟨⟨hspan, hbs⟩, allNodes_nil⟩
  · refine completesWithin_bound (.element _ tag.name · children) hwithin fun bs hbs => ?_
    exact allWithin_singleton.2 ⟨⟨hspan, hbs⟩, hchildren⟩

/-- A finished directive lies within the source. -/
theorem allWithin_finishDirective {tag : DirectiveTag} {children : List Node} {stop : Nat}
    (htag : tag.Within stop) (hstop : stop ≤ source.size) (hchildren : AllWithin source children) :
    AllWithin source [finishDirective source tag children stop] := by
  have hspec := Nat.le_trans htag.specStop_le (Nat.le_trans htag.stop_le hstop)
  exact allWithin_directive (within_span (Nat.le_trans htag.start_le htag.stop_le) hstop)
    (within_span htag.spec_le hspec) hchildren

/-! ### Folding the tokens -/

/-- An open tag ends by the offset. -/
def OpenTag.Within (limit : Nat) : OpenTag → Prop
  | .tag t => t.Within limit
  | .directive d => d.Within limit

theorem OpenTag.Within.mono {opened : OpenTag} {limit limit' : Nat} (h : opened.Within limit)
    (hle : limit ≤ limit') : opened.Within limit' := by
  cases opened with
  | tag t => exact Tag.Within.mono h hle
  | directive d => exact ⟨h.start_le, Nat.le_trans h.stop_le hle, h.spec_le, h.specStop_le⟩

/-- Whatever was opened is finished to a node within the source, or fails there. -/
private theorem completesWithin_finish {opened : OpenTag} {children : List Node} {stop : Nat}
    (hopened : opened.Within stop) (hstop : stop ≤ source.size)
    (hchildren : AllWithin source children) :
    CompletesWithin source (opened.finish source children stop) := by
  cases opened with
  | tag t => exact completesWithin_finishTag hopened hstop hchildren
  | directive d => exact allWithin_finishDirective hopened hstop hchildren

/-- What was never closed is reported where it was opened. -/
private theorem within_unclosed {opened : OpenTag} (hopened : opened.Within source.size) :
    opened.unclosed.Within source.size False := by
  cases opened with
  | tag t => exact ⟨hopened.start_le, hopened.stop_le⟩
  | directive d => exact ⟨hopened.start_le, hopened.stop_le⟩

/-- Raw text lies within the source. -/
private theorem allWithin_verbatimBody {start stop : Nat} (body : String) (h : start ≤ stop)
    (hstop : stop ≤ source.size) : AllWithin source (verbatimBody source start stop body) := by
  have hspan := within_span h hstop
  unfold verbatimBody
  split
  · exact allNodes_nil
  · exact allWithin_singleton.2 ⟨⟨hspan, List.forall_mem_singleton.2 hspan⟩, allNodes_nil⟩

private theorem allWithin_interpolation {start stop : Nat} {v : Value} (h : start ≤ stop)
    (hstop : stop ≤ source.size) : AllWithin source [.interpolation (source.span start stop) v] :=
  have hspan := within_span h hstop
  allWithin_singleton.2 ⟨⟨hspan, List.forall_mem_singleton.2 hspan⟩, allNodes_nil⟩

/-- A forest lies within the source if its first tree and the others do. -/
theorem allWithin_concat {n : Node} {nodes : List Node} (hn : AllWithin source [n])
    (hnodes : AllWithin source nodes) : AllWithin source (n :: nodes) :=
  allNodes_cons.2 ⟨(allNodes_cons.1 hn).1, hnodes⟩

/-- A forest that is assembled spans stretches of the text, with all it contains, and what it fails
with does so too, unless the tokens did not go on. -/
def AssemblesWithin (source : Source) (overrun : Prop) : Except Failure (List Node) → Prop
  | .ok nodes => AllWithin source nodes
  | .error e => e.Within source.size overrun

/-- Putting tokens together goes on within the source behind a node that is complete. -/
theorem CompletesWithin.bind {result : Except Failure Node} {overrun : Prop}
    {next : Node → Except Failure (List Node)} (h : CompletesWithin source result)
    (hnext : ∀ n, AllWithin source [n] → AssemblesWithin source overrun (next n)) :
    AssemblesWithin source overrun (result >>= next) := by
  cases result with
  | error e => exact Failure.Within.imp False.elim h
  | ok n => exact hnext n h

/-- The invariant of folding the tokens: the open tags end by the offset from which the other tokens
lie, and the complete nodes, before and inside each of them, span stretches of the text. -/
private theorem assemblesWithin_assemble {failure : Option Failure} {tokens : List Token}
    {stack : List Frame} {nodes : List Node} {base : Nat}
    (hfailure : ∀ e ∈ failure, e.Within source.size (e = .overrun))
    (htokens : InOrder source.size base tokens)
    (hstack : ∀ f ∈ stack, f.opened.Within base ∧ AllWithin source f.before)
    (hnodes : AllWithin source nodes) :
    AssemblesWithin source (failure = some .overrun)
    (assemble source failure tokens stack nodes) := by
  induction tokens generalizing stack nodes base with
  | nil =>
    unfold assemble
    split
    · rename_i e
      exact (hfailure e rfl).imp fun heq => by rw [heq]
    · exact (within_unclosed ((List.forall_mem_cons.1 hstack).1.1.mono htokens)).imp False.elim
    · exact allNodes_reverse hnodes
  | cons token tokens ih =>
    obtain ⟨next, hnext, htoken, htail⟩ := htokens
    have hsize := htail.le
    have hlater : ∀ f ∈ stack, f.opened.Within next ∧ AllWithin source f.before := fun f hf =>
      ⟨(hstack f hf).1.mono hnext, (hstack f hf).2⟩
    cases token with
    | text start stop _ | interpolation start stop _ =>
      obtain ⟨-, hle, hstop⟩ := htoken
      have hstop := Nat.le_trans hstop hsize
      exact ih htail hlater (allWithin_concat (allWithin_interpolation hle hstop) hnodes)
    | opening tag =>
      exact ih htail (List.forall_mem_cons.2 ⟨⟨htoken.2, hnodes⟩, hlater⟩) allNodes_nil
    | leaf tag =>
      obtain ⟨-, htag⟩ := htoken
      have hown : tag.Within tag.stop := ⟨htag.start_le, Nat.le_refl _, htag.attributes⟩
      have hcomplete :=
        completesWithin_finishTag hown (Nat.le_trans htag.stop_le hsize) allNodes_nil
      rw [assemble_leaf]
      exact hcomplete.bind fun n hn => ih htail hlater (allWithin_concat hn hnodes)
    | verbatim tag bodyStart bodyStop body stop =>
      obtain ⟨-, htag, hbody, hbodyStop, hstop⟩ := htoken
      have hstop := Nat.le_trans hstop hsize
      have htag := htag.mono (Nat.le_trans hbody hbodyStop)
      have hchildren := allWithin_verbatimBody body hbody (Nat.le_trans hbodyStop hstop)
      rw [assemble_verbatim]
      exact (completesWithin_finishTag htag hstop hchildren).bind fun n hn =>
        ih htail hlater (allWithin_concat hn hnodes)
    | directive tag selfClosing =>
      obtain ⟨-, htag⟩ := htoken
      cases selfClosing with
      | true =>
        have hown : tag.Within tag.stop :=
          ⟨htag.start_le, Nat.le_refl _, htag.spec_le, htag.specStop_le⟩
        have hnode := allWithin_finishDirective hown (Nat.le_trans htag.stop_le hsize) allNodes_nil
        exact ih htail hlater (allWithin_concat hnode hnodes)
      | false =>
        exact ih htail (List.forall_mem_cons.2 ⟨⟨htag, hnodes⟩, hlater⟩) allNodes_nil
    | closing name start stop =>
      obtain ⟨hstart, hle, hstop⟩ := htoken
      have hfault : start ≤ stop ∧ stop ≤ source.size := ⟨hle, Nat.le_trans hstop hsize⟩
      cases stack with
      | nil => exact hfault
      | cons frame stack =>
        obtain ⟨opened, before⟩ := frame
        obtain ⟨⟨hopened, hbefore⟩, -⟩ := List.forall_mem_cons.1 hstack
        obtain ⟨-, hlater⟩ := List.forall_mem_cons.1 hlater
        have hopened := hopened.mono (Nat.le_trans hstart hle)
        by_cases hname : opened.name = name
        · rw [assemble_closing hname]
          exact (completesWithin_finish hopened hfault.2 (allNodes_reverse hnodes)).bind fun n hn =>
            ih htail hlater (allWithin_concat hn hbefore)
        · rw [assemble_mismatched hname]
          exact hfault

end Assembly

/-! ### Templates -/

/-- The tokens of a template are put together within it, or fail within it, or the scan overran. -/
theorem assemblesWithin_scan (text : List Char) :
    AssemblesWithin (Source.ofText text) ((scan text).failure = some .overrun)
      (assemble (Source.ofText text) (scan text).failure (scan text).tokens [] []) := by
  have hcursor : Cursor.Ends (Source.ofText text).size ⟨text, 0⟩ := Nat.zero_add _
  obtain ⟨last, hscans, -⟩ := exists_scans hcursor
  exact assemblesWithin_assemble (fun e he => within_of_failure hcursor he) (hscans.inOrder hcursor)
    (by simp) allNodes_nil

/-- The nodes of a template that was read, and their bindings, span stretches of it. -/
theorem allWithin_of_parse {component source : String} {nodes : List Node}
    (h : parse component source = .ok nodes) : AllWithin (Source.ofText source.toList) nodes := by
  have hassemble := assemblesWithin_scan source.toList
  obtain ⟨forest, hforest, rfl⟩ := parse_eq_ok_iff_assemble.1 h
  rw [hforest] at hassemble
  refine allNodes_pruneFrom (fun n hn => ?_) hassemble
  exact ⟨n.span_prune ▸ hn.span, n.bindings_prune ▸ hn.bindings⟩

/-- The nodes of a template that was read, and their bindings, start at places in it. -/
theorem isIn_of_parse {component source : String} {nodes : List Node}
    (h : parse component source = .ok nodes) :
    AllNodes (fun n => n.span.start.IsIn source ∧ ∀ b ∈ n.bindings, b.span.start.IsIn source)
      nodes := by
  have hplace : ∀ s : Span, s.Within (Source.ofText source.toList) → s.start.IsIn source := by
    rintro s ⟨start, stop, hle, hstop, rfl⟩
    exact Source.isIn_position (Nat.le_trans hle hstop)
  intro n hn
  obtain ⟨hspan, hbindings⟩ := allWithin_of_parse h n hn
  exact ⟨hplace _ hspan, fun b hb => hplace _ (hbindings b hb)⟩

/-- The fault of a template that cannot be read starts at a place in it. -/
theorem isIn_of_parse_eq_error {component source : String} {e : ParseError}
    (h : parse component source = .error (.error e)) :
    e.component = component ∧ e.span.start.IsIn source := by
  have hassemble := assemblesWithin_scan source.toList
  obtain ⟨start, stop, fault, hfault, rfl⟩ := parse_eq_error_iff.1 h
  rw [hfault] at hassemble
  exact ⟨rfl, Source.isIn_position (Nat.le_trans hassemble.1 hassemble.2)⟩

end ViewCompiler.Template
