import Mathlib
import ViewCompiler.Proofs.Template.Expression
import ViewCompiler.Proofs.Template.Steps
import ViewCompiler.Proofs.Template.Totality

/-!
# Nodes tile their template

The nodes of a template that was read stand in it one after the other, those of a tag between its
two ends, and what stands between two of them is not lost but says nothing: it is a remark, or text
that reads as white space (`Gap`, `Row`). A node is what stands at its span (`Node.Placed`): text is
decoded from exactly these characters, a value is read from the characters between the braces, a tag
starts with its name.

The proof follows the tokens. What is read from one cursor to another makes a row from the offset of
the one to that of the other (`standInRow_of_assembles`), and a blank text that is dropped leaves a
gap (`Row.pruneFrom`).

Places are offsets in bytes, and a `Slice` says that certain characters stand in the text between
two offsets. A cursor is such a place with everything that follows it, so that a token that was read
from one cursor to the next spans the slice between them. What a token of each kind says about its
slice is taken from `Token.ReadAt`, and no reader is opened here.

The spans of nodes have lines and columns as well; that these belong to the offsets is known from
`Template/Place`. `Node.Faithful` puts the two together, in terms of the source as a string.
-/

namespace ViewCompiler.Template

open ViewCompiler.Text

/-! ### Pieces of a text -/

/-- These characters of a text stand from one byte offset to another. -/
def Slice (text : List Char) (start : Nat) (piece : List Char) (stop : Nat) : Prop :=
  ∃ before after, text = before ++ piece ++ after ∧
    byteLength before = start ∧ byteLength (before ++ piece) = stop

/-- What says nothing between two nodes: a remark, or text that reads as white space. -/
def IsFiller (piece : List Char) : Prop :=
  IsRemark piece ∨ (CharacterReference.decode (String.ofList piece)).toList.all isBlank = true

/-- Between two offsets of a text there are only fillers. -/
inductive Gap (text : List Char) : Nat → Nat → Prop where
  | refl (n : Nat) : Gap text n n
  | filler {start middle stop : Nat} {piece : List Char} (hfiller : IsFiller piece)
    (hslice : Slice text start piece middle) (h : Gap text middle stop) : Gap text start stop

/-- Between two offsets of a text there are these nodes, in order, and gaps between and around
them. -/
inductive Row (text : List Char) : Nat → List Node → Nat → Prop where
  | nil {start stop : Nat} (hgap : Gap text start stop) : Row text start [] stop
  | cons {start stop : Nat} {n : Node} {nodes : List Node}
    (hgap : Gap text start n.span.start.offset) (hle : n.span.start.offset ≤ n.span.stop.offset)
    (h : Row text n.span.stop.offset nodes stop) : Row text start (n :: nodes) stop

/-- A span lies within another. -/
def Span.Covers (outer inner : Span) : Prop :=
  outer.start.offset ≤ inner.start.offset ∧ inner.stop.offset ≤ outer.stop.offset

/-- A node ends where another one begins, or before. -/
def Node.Precedes (m n : Node) : Prop := m.span.stop.offset ≤ n.span.start.offset

/-- A node is what stands at its span, and its bindings and its content stand within. -/
structure Node.Placed (text : List Char) (n : Node) : Prop where
  bindings : ∀ b ∈ n.bindings, n.span.Covers b.span
  row : ∃ start stop, n.span.start.offset ≤ start ∧ stop ≤ n.span.stop.offset ∧
    Row text start n.children stop
  /-- Text is decoded from the span. -/
  constant : ∀ span content, n = .interpolation span (.text content) →
    ∃ raw, Slice text span.start.offset raw span.stop.offset ∧
      content = CharacterReference.decode (String.ofList raw)
  /-- Any other value is read from what stands between the braces. -/
  expression : ∀ span v, n = .interpolation span v → (∀ content, v ≠ .text content) →
    ∃ e, Slice text span.start.offset (openBraces ++ e ++ closeBraces) span.stop.offset ∧
      readExpression false e = .ok v
  /-- A tag starts with its name. -/
  tag : n.kind = .element ∨ n.kind = .component →
    ∃ rest, Slice text n.span.start.offset ('<' :: (n.name.toList ++ rest)) n.span.stop.offset

section Rows

variable {text : List Char} {start middle stop : Nat} {nodes : List Node}

theorem Slice.le {piece : List Char} (h : Slice text start piece stop) : start ≤ stop := by
  obtain ⟨before, after, -, rfl, rfl⟩ := h
  rw [byteLength_append]
  exact Nat.le_add_right _ _

theorem Gap.le (h : Gap text start stop) : start ≤ stop := by
  induction h with
  | refl => exact Nat.le_refl _
  | filler _ hslice _ ih => exact Nat.le_trans hslice.le ih

/-- A gap behind a gap is one gap. -/
theorem Gap.trans (h : Gap text start middle) (h' : Gap text middle stop) :
    Gap text start stop := by
  induction h with
  | refl => exact h'
  | filler hfiller hslice _ ih => exact .filler hfiller hslice (ih h')

/-- A row may start behind a gap. -/
private theorem Row.of_gap (hgap : Gap text start middle) (h : Row text middle nodes stop) :
    Row text start nodes stop := by
  cases h with
  | nil hgap' => exact .nil (hgap.trans hgap')
  | cons hgap' hle h => exact .cons (hgap.trans hgap') hle h

theorem Row.le (h : Row text start nodes stop) : start ≤ stop := by
  induction h with
  | nil hgap => exact hgap.le
  | cons hgap hle _ ih => exact Nat.le_trans hgap.le (Nat.le_trans hle ih)

/-- The nodes of a row stand between its ends. -/
theorem Row.within (h : Row text start nodes stop) :
    ∀ n ∈ nodes, start ≤ n.span.start.offset ∧ n.span.stop.offset ≤ stop := by
  induction h with
  | nil => simp
  | cons hgap hle h ih =>
    refine List.forall_mem_cons.2 ⟨⟨hgap.le, h.le⟩, fun m hm => ?_⟩
    obtain ⟨hstart, hstop⟩ := ih m hm
    exact ⟨Nat.le_trans hgap.le (Nat.le_trans hle hstart), hstop⟩

/-- The nodes of a row stand one after the other. -/
theorem Row.pairwise (h : Row text start nodes stop) : nodes.Pairwise Node.Precedes := by
  induction h with
  | nil => exact .nil
  | cons hgap hle h ih => exact .cons (fun m hm => (h.within m hm).1) ih

/-- A node that stands between two offsets makes a row by itself. -/
private theorem row_singleton {n : Node} (h : n.span.start.offset ≤ n.span.stop.offset) :
    Row text n.span.start.offset [n] n.span.stop.offset :=
  .cons (.refl _) h (.nil (.refl _))

/-- Blank text is a filler. -/
theorem Node.Placed.gap {n : Node} (h : n.Placed text) (hblank : n.isBlankText = true) :
    Gap text n.span.start.offset n.span.stop.offset := by
  unfold Node.isBlankText at hblank
  split at hblank
  · obtain ⟨raw, hslice, rfl⟩ := h.constant _ _ rfl
    exact .filler (.inr hblank) hslice (.refl _)
  · cases hblank

/-- Dropping blank text leaves gaps. -/
theorem Row.pruneFrom (h : Row text start nodes stop) (hnodes : ∀ n ∈ nodes, n.Placed text)
    (structuralBefore : Bool) : Row text start (pruneFrom structuralBefore nodes) stop := by
  induction h generalizing structuralBefore with
  | nil hgap => exact .nil hgap
  | @cons start stop n nodes hgap hle h ih =>
    obtain ⟨hn, hrest⟩ := List.forall_mem_cons.1 hnodes
    rw [Template.pruneFrom]
    split
    · rename_i hdropped
      simp only [Bool.and_eq_true] at hdropped
      exact (ih hrest _).of_gap (hgap.trans (hn.gap hdropped.1.1))
    · rw [← n.span_prune] at hgap hle
      exact .cons hgap hle (n.span_prune.symm ▸ ih hrest _)

/-- A pruned node is placed where the node was. -/
theorem Node.Placed.prune {n : Node} (h : n.Placed text)
    (hchildren : ∀ c ∈ n.children, c.Placed text) :
    n.prune.Placed text := by
  cases n with
  | element span name bs cs =>
    obtain ⟨start, stop, hstart, hstop, hrow⟩ := h.row
    have hrow := hrow.pruneFrom hchildren true
    exact ⟨h.bindings, ⟨start, stop, hstart, hstop, hrow⟩, nofun, nofun, h.tag⟩
  | directive span spec specSpan d cs =>
    obtain ⟨start, stop, hstart, hstop, hrow⟩ := h.row
    have hrow := hrow.pruneFrom hchildren true
    exact ⟨h.bindings, ⟨start, stop, hstart, hstop, hrow⟩, nofun, nofun, h.tag⟩
  | _ => exact h

end Rows

/-! ### What is read -/

section Assembly

variable {text : List Char} {c next last : Cursor} {n : Node} {children nodes : List Node}

/-- What is taken from one cursor of a text to another stands between their offsets. -/
theorem slice_of_leads {piece : List Char} (hc : Cursor.Leads ⟨text, 0⟩ c) (hlead : c.Leads next)
    (h : c.rest = piece ++ next.rest) : Slice text c.offset piece next.offset := by
  obtain ⟨before, hbefore, hoffset⟩ := hc
  obtain ⟨taken, htaken, hnext⟩ := hlead
  obtain rfl : taken = piece := List.append_cancel_right (htaken.symm.trans h)
  rw [Nat.zero_add] at hoffset
  refine ⟨before, next.rest, ?_, hoffset.symm, ?_⟩
  · rw [List.append_assoc, ← htaken]
    exact hbefore
  · rw [byteLength_append, hnext, hoffset]

/-- Comments and declarations leave a gap. -/
theorem Remarks.gap (h : Remarks c last) (hc : Cursor.Leads ⟨text, 0⟩ c) :
    Gap text c.offset last.offset := by
  induction h with
  | stay c => exact .refl _
  | remark hpiece hrest hlead _ ih =>
    exact .filler (.inl hpiece) (slice_of_leads hc hlead hrest) (ih (hc.trans hlead))

/-- A node stands between two cursors, with all its content. -/
structure StandsBetween (text : List Char) (c next : Cursor) (n : Node) : Prop where
  span : n.span = (Source.ofText text).span c.offset next.offset
  placed : AllNodes (Node.Placed text) [n]

/-- Nodes that stand one after the other between two offsets, with all their content. -/
structure StandInRow (text : List Char) (start : Nat) (nodes : List Node) (stop : Nat) : Prop where
  row : Row text start nodes stop
  placed : AllNodes (Node.Placed text) nodes

private theorem standInRow_nil (start : Nat) : StandInRow text start [] start :=
  ⟨.nil (.refl _), allNodes_nil⟩

/-- A node that stands in front of a row makes a longer row. -/
theorem StandsBetween.standInRow {start stop : Nat} (h : StandsBetween text c next n)
    (hgap : Gap text start c.offset) (hlead : c.Leads next)
    (hnodes : StandInRow text next.offset nodes stop) :
    StandInRow text start (n :: nodes) stop := by
  have hstart : n.span.start.offset = c.offset := by rw [h.span]; rfl
  have hstop : n.span.stop.offset = next.offset := by rw [h.span]; rfl
  refine ⟨.cons (hstart ▸ hgap) ?_ (hstop ▸ hnodes.row),
    allNodes_cons.2 ⟨(allNodes_cons.1 h.placed).1, hnodes.placed⟩⟩
  rw [hstart, hstop]
  exact hlead.offset_le

/-- An interpolation is placed where its value is read from the text. -/
theorem placed_interpolation {span : Span} {v : Value}
    (hconstant : ∀ content, v = .text content →
      ∃ raw, Slice text span.start.offset raw span.stop.offset ∧
        content = CharacterReference.decode (String.ofList raw))
    (hexpression : (∀ content, v ≠ .text content) →
      ∃ e, Slice text span.start.offset (openBraces ++ e ++ closeBraces) span.stop.offset ∧
        readExpression false e = .ok v)
    (hle : span.start.offset ≤ span.stop.offset) : (Node.interpolation span v).Placed text where
  bindings := List.forall_mem_singleton.2 ⟨Nat.le_refl _, Nat.le_refl _⟩
  row := ⟨_, _, Nat.le_refl _, hle, .nil (.refl _)⟩
  constant span' content h := by
    obtain ⟨rfl, hv⟩ := Node.interpolation.inj h
    exact hconstant content hv
  expression span' v' h := by
    obtain ⟨rfl, rfl⟩ := Node.interpolation.inj h
    exact hexpression
  tag h := by rcases h with h | h <;> cases h

/-- A directive is placed around a row of nodes that are. -/
theorem placed_directive {span specSpan : Span} {spec : String} {d : Directive}
    (hspec : span.Covers specSpan) {start stop : Nat} (hstart : span.start.offset ≤ start)
    (hstop : stop ≤ span.stop.offset) (hrow : Row text start children stop) :
    (Node.directive span spec specSpan d children).Placed text where
  bindings := List.forall_mem_singleton.2 hspec
  row := ⟨start, stop, hstart, hstop, hrow⟩
  constant := nofun
  expression := nofun
  tag h := by rcases h with h | h <;> cases d <;> cases h

/-! ### Tags -/

/-- A tag with its content stands from where it is written to where the reader goes on. -/
theorem stands_of_finishTag {tag : Tag} {start stop : Nat} (hc : Cursor.Leads ⟨text, 0⟩ c)
    (hlead : c.Leads last) (hwritten : tag.WrittenAt c last) (hwithin : tag.Within start)
    (hchildren : StandInRow text start children stop) (hstop : stop ≤ last.offset)
    (h : finishTag (Source.ofText text) tag children last.offset = .ok n) :
    StandsBetween text c last n := by
  obtain ⟨bindings, directive, node, hbinds, hholds, hwraps⟩ := finishes_of_finishTag h
  obtain ⟨written, hname⟩ := hwritten.name
  have hslice := slice_of_leads hc hlead hname
  have htag : tag.stop ≤ last.offset :=
    Nat.le_trans hwithin.stop_le (Nat.le_trans hchildren.row.le hstop)
  have hattribute : ∀ a ∈ tag.attributes, tag.start ≤ a.start ∧ a.stop ≤ last.offset := fun a ha =>
    ⟨(hwritten.attributes a ha).start_le, Nat.le_trans (hwithin.attributes a ha).stop_le htag⟩
  have hbindings : ∀ b ∈ bindings,
      ((Source.ofText text).span tag.start last.offset).Covers b.span := by
    intro b hb
    obtain ⟨a, ha, hbound⟩ := hbinds.bound b hb
    rw [span_of_bindAttribute hbound]
    exact hattribute a ha
  -- The node itself covers the tag up to where the reader goes on.
  have hnode : node.span = (Source.ofText text).span tag.start last.offset ∧
      AllNodes (Node.Placed text) [node] := by
    rw [← hwritten.start] at hslice
    cases hholds with
    | component =>
      refine ⟨rfl, allNodes_singleton ?_ allNodes_nil⟩
      exact {
        bindings := hbindings
        row := ⟨tag.start, tag.start, Nat.le_refl _, hslice.le, .nil (.refl _)⟩
        constant := nofun, expression := nofun, tag := fun _ => ⟨written, hslice⟩ }
    | element =>
      refine ⟨rfl, allNodes_singleton ?_ hchildren.placed⟩
      exact {
        bindings := hbindings
        row := ⟨start, stop, Nat.le_trans hwithin.start_le hwithin.stop_le, hstop, hchildren.row⟩
        constant := nofun, expression := nofun, tag := fun _ => ⟨written, hslice⟩ }
  obtain ⟨hspan, hplaced⟩ := hnode
  rw [hwritten.start] at hspan
  cases hwraps with
  | bare => exact ⟨hspan, hplaced⟩
  -- A directive around it has the same place, and its specification lies in one of the attributes.
  | @wrapped a d hread =>
    obtain ⟨ha, hvalue⟩ := hbinds.directive a rfl
    have hcovers : node.span.Covers ((Source.ofText text).span a.valueStart a.valueStop) := by
      rw [hspan, ← hwritten.start]
      exact ⟨(hwritten.attributes a ha).value_le hvalue,
        Nat.le_trans (hwithin.attributes a ha).value_le htag⟩
    have hrow : Row text node.span.start.offset [node] node.span.stop.offset := by
      refine row_singleton ?_
      rw [hspan]
      exact hlead.offset_le
    refine ⟨hspan, allNodes_singleton ?_ hplaced⟩
    exact placed_directive hcovers (Nat.le_refl _) (Nat.le_refl _) hrow

/-- A finished directive stands where it was written, around what stands in a row. -/
theorem stands_finishDirective {tag : DirectiveTag} {start stop : Nat}
    (hwritten : tag.WrittenAt c) (hwithin : tag.Within start)
    (hchildren : StandInRow text start children stop) (hstop : stop ≤ last.offset) :
    StandsBetween text c last (finishDirective (Source.ofText text) tag children last.offset) := by
  have hspan : (Source.ofText text).span tag.start last.offset =
      (Source.ofText text).span c.offset last.offset := by rw [hwritten.start]
  have hend : tag.stop ≤ last.offset :=
    Nat.le_trans hwithin.stop_le (Nat.le_trans hchildren.row.le hstop)
  refine ⟨hspan, allNodes_singleton ?_ hchildren.placed⟩
  refine placed_directive ⟨hwritten.spec_le, Nat.le_trans hwithin.specStop_le hend⟩ ?_ hstop
    hchildren.row
  exact Nat.le_trans hwithin.start_le hwithin.stop_le

/-! ### Forests -/

private theorem standInRow_verbatimBody {start stop : Nat} (h : start ≤ stop) (body : String) :
    StandInRow text start (verbatimBody (Source.ofText text) start stop body) stop := by
  unfold verbatimBody
  split
  · rename_i heq
    exact heq ▸ standInRow_nil _
  · refine ⟨.cons (.refl _) h (.nil (.refl _)), allNodes_singleton ?_ allNodes_nil⟩
    exact {
      bindings := List.forall_mem_singleton.2 ⟨Nat.le_refl _, Nat.le_refl _⟩
      row := ⟨start, start, Nat.le_refl _, h, .nil (.refl _)⟩
      constant := nofun, expression := nofun
      tag := fun h => by rcases h with h | h <;> cases h }

/-- A token that makes a node of its own makes it where it was read. -/
private theorem stands_of_makes {token : Token} (hc : Cursor.Leads ⟨text, 0⟩ c)
    (hlead : c.Leads next)
    (hread : token.ReadAt c next) (hbetween : token.Between c.offset next.offset)
    (h : token.Makes (Source.ofText text) n) : StandsBetween text c next n := by
  cases h with
  | text start stop raw =>
    obtain ⟨rfl, rfl, hraw⟩ := hread
    refine ⟨rfl, allNodes_singleton (placed_interpolation ?_ ?_ hlead.offset_le) allNodes_nil⟩
    · intro content hcontent
      refine ⟨_, slice_of_leads hc hlead hraw, ?_⟩
      rw [String.ofList_toList]
      exact (Value.text.inj hcontent).symm
    · intro hne
      exact absurd rfl (hne _)
  | interpolation start stop v =>
    obtain ⟨rfl, rfl, e, he, hv⟩ := hread
    refine ⟨rfl, allNodes_singleton (placed_interpolation ?_ ?_ hlead.offset_le) allNodes_nil⟩
    · rintro content rfl
      rcases cases_of_readExpression hv with heq | ⟨_, _, heq⟩ | ⟨_, _, _, _, _, heq⟩ <;> cases heq
    · exact fun _ => ⟨e, slice_of_leads hc hlead he, hv⟩
  | leaf h =>
    obtain ⟨hwritten, hstop⟩ := hread
    rw [hstop] at h
    exact stands_of_finishTag hc hlead hwritten hbetween.2 (standInRow_nil _) (Nat.le_refl _) h
  | verbatim h =>
    obtain ⟨hwritten, rfl, -⟩ := hread
    obtain ⟨-, hwithin, hbody, hstop, -⟩ := hbetween
    exact stands_of_finishTag hc hlead hwritten hwithin (standInRow_verbatimBody hbody _) hstop h
  | directive tag =>
    obtain ⟨hwritten, hstop⟩ := hread
    rw [hstop]
    exact stands_finishDirective hwritten hbetween.2 (standInRow_nil _) (Nat.le_refl _)

/-- What a token opens stands where it was written, around what stands in a row. -/
private theorem stands_of_opens {token : Token} {opened : OpenTag} {stop : Nat}
    (hc : Cursor.Leads ⟨text, 0⟩ c) (hlead : c.Leads next) (hlast : next.Leads last)
    (hread : token.ReadAt c next) (hbetween : token.Between c.offset next.offset)
    (hopens : token.Opens opened) (hchildren : StandInRow text next.offset children stop)
    (hstop : stop ≤ last.offset)
    (h : opened.finish (Source.ofText text) children last.offset = .ok n) :
    StandsBetween text c last n := by
  cases hopens with
  | tag tag =>
    exact stands_of_finishTag hc (hlead.trans hlast) (hread.1.of_leads hlast) hbetween.2
      hchildren hstop h
  | directive tag =>
    obtain rfl := Except.ok.inj h
    exact stands_finishDirective hread.1 hbetween.2 hchildren hstop

/-- Whatever is assembled from tokens stands in a row where they were read. -/
theorem standInRow_of_assembles {tokens : List Token}
    (h : Assembles (Source.ofText text) tokens nodes) (hread : ReadInTurn c tokens last)
    (hc : Cursor.Leads ⟨text, 0⟩ c) : StandInRow text c.offset nodes last.offset := by
  induction h generalizing c last with
  | nil =>
    cases hread with
    | done hremarks => exact ⟨.nil (hremarks.gap hc), allNodes_nil⟩
  | single hmakes _ ih =>
    cases hread with
    | token hbefore hread hlead hbetween hmore =>
      have hhere := hc.trans hbefore.leads
      have hnode := stands_of_makes hhere hlead hread hbetween hmakes
      exact hnode.standInRow (hbefore.gap hc) hlead (ih hmore (hhere.trans hlead))
  | content start hopens _ hfinish _ ihcontent ihrest =>
    cases hread with
    | token hbefore hread hlead hbetween hmore =>
      have hhere := hc.trans hbefore.leads
      have hnext := hhere.trans hlead
      obtain ⟨middle, hcontent, hclosed⟩ := hmore.exists_of_append
      have hchildren := ihcontent hcontent hnext
      cases hclosed with
      | token hremarks hclosing hclosed _ hrest =>
        obtain ⟨-, rfl, -⟩ := hclosing
        have hlast := hcontent.leads.trans (hremarks.leads.trans hclosed)
        have hnode := stands_of_opens hhere hlead hlast hread hbetween hopens hchildren
          (hremarks.leads.trans hclosed).offset_le hfinish
        exact hnode.standInRow (hbefore.gap hc) (hlead.trans hlast)
          (ihrest hrest (hnext.trans hlast))

end Assembly

/-! ### Templates -/

/-- The span of a node, with the lines and columns of its ends, says where it stands: within the
template and around its bindings and its content, which stand there one after the other. -/
structure Node.Faithful (source : String) (n : Node) : Prop where
  span : n.span.LiesIn source
  bindings : ∀ b ∈ n.bindings, b.span.LiesIn source
  placed : n.Placed source.toList
  children : ∀ c ∈ n.children, n.span.Covers c.span
  order : n.children.Pairwise Node.Precedes

theorem Span.Within.liesIn {source : String} {s : Span}
    (h : s.Within (Source.ofText source.toList)) : s.LiesIn source := by
  obtain ⟨start, stop, hle, hstop, rfl⟩ := h
  refine ⟨Source.isAt_position source start, Source.isAt_position source stop, hle, ?_⟩
  rw [utf8ByteSize_eq]
  exact hstop

/-- A node is faithful to the source if its span lies within and it is placed there. -/
private theorem faithful_of_placed {source : String} {n : Node}
    (hwithin : n.Within (Source.ofText source.toList)) (hplaced : n.Placed source.toList) :
    n.Faithful source := by
  obtain ⟨start, stop, hstart, hstop, hrow⟩ := hplaced.row
  refine ⟨hwithin.span.liesIn, fun b hb => (hwithin.bindings b hb).liesIn, hplaced, fun c hc => ?_,
    hrow.pairwise⟩
  obtain ⟨hfirst, hlast⟩ := hrow.within c hc
  exact ⟨Nat.le_trans hstart hfirst, Nat.le_trans hlast hstop⟩

/-- The nodes of a template that was read tile it, and every one of them is what stands at its
span. -/
theorem faithful_of_parse {component source : String} {nodes : List Node}
    (h : parse component source = .ok nodes) :
    Row source.toList 0 nodes source.utf8ByteSize ∧ nodes.Pairwise Node.Precedes ∧
      AllNodes (Node.Faithful source) nodes := by
  have hwithin := allWithin_of_parse h
  obtain ⟨hfailure, forest, hassembles, rfl⟩ := parse_eq_ok_iff.1 h
  obtain ⟨last, hread, hend⟩ := readInTurn_of_scan hfailure
  obtain ⟨hrow, hplaced⟩ := standInRow_of_assembles hassembles hread (.refl _)
  have hlast : last.offset = source.utf8ByteSize := by
    have hends : last.Ends source.utf8ByteSize := hread.leads.ends (ends_start source)
    rwa [Cursor.Ends, hend] at hends
  have hforest : ∀ n ∈ forest, n.Placed source.toList := fun n hn => (allNodes_iff.1 hplaced n hn).1
  have hpruned : Row source.toList 0 (pruneWhitespace forest) source.utf8ByteSize :=
    hlast ▸ hrow.pruneFrom hforest true
  refine ⟨hpruned, hpruned.pairwise, fun n hn => faithful_of_placed (hwithin n hn) ?_⟩
  refine allNodes_pruneFrom_of_children (fun n hn hchildren => ?_) hplaced n hn
  exact hn.prune fun c hc => (allNodes_iff.1 hchildren c hc).1

namespace HeadedRow

/-- Two components with a line break and a comment between them. -/
def source : String := "<Head/>\n<!-- rows --><Row [x]=\"a\"/>"

def nodes : List Node :=
  [.component ⟨⟨0, 1, 1⟩, ⟨7, 1, 8⟩⟩ "Head" [],
    .component ⟨⟨21, 2, 14⟩, ⟨35, 2, 28⟩⟩ "Row"
      [⟨.input, "x", .access ⟨"a", []⟩, ⟨⟨26, 2, 19⟩, ⟨33, 2, 26⟩⟩⟩]]

/-- The tokens of the sample, with their places. -/
private theorem scan_source : scan source.toList =
    ⟨[.leaf ⟨"Head", [], 0, 7⟩, .text 7 8 "\n",
      .leaf ⟨"Row", [⟨"[x]", some "a", 26, 33, 31⟩], 21, 35⟩],
      none⟩ := by decide +kernel

/-- The sample is parsed to its nodes. -/
theorem parse_source : parse "List" source = .ok nodes := by
  rw [parse, scan_source]
  rfl

end HeadedRow

/-- The line break and the comment are the gap between the two components. -/
theorem faithful_headedRow :
    parse "List" HeadedRow.source = .ok HeadedRow.nodes ∧
      Row HeadedRow.source.toList 0 HeadedRow.nodes HeadedRow.source.utf8ByteSize ∧
      HeadedRow.nodes.Pairwise Node.Precedes ∧
      AllNodes (Node.Faithful HeadedRow.source) HeadedRow.nodes :=
  ⟨HeadedRow.parse_source, faithful_of_parse HeadedRow.parse_source⟩

end ViewCompiler.Template
