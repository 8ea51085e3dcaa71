import ViewCompiler.Proofs.Template.Unplaced
import ViewCompiler.Proofs.Template.Whitespace

/-!
# Text in pieces

Two forests have the same content if they differ in the places of their nodes, and in how many
pieces their running text comes in (`SameContent`). Somewhere in a forest a piece of text may be
replaced by two pieces of the same text (`Replaced`). That does not change the content, but it can
change what is pruned: blank text with structural neighbours only is dropped in one piece, and kept
in two, since then each piece has the other for a neighbour. Nothing else can happen
(`Replaced.joinedAll_pruneFrom`).

Joining goes through the siblings from the end: constant text is glued to the text behind it, if
there is any (`glue`). So it matters for the siblings of a node only what stands directly behind
them, and next to a structural node nothing is joined (`joinedAll_append`).

Pruning goes through them from the front, with a flag that tells whether structure stands before.
What it does to the siblings on one side of the replaced text depends on the other side only by that
flag and by the kind of the next node (`exists_pruneFrom_append`). These two lemmas reduce a forest
to the place where it was changed: one run of text there or two, with structure on both sides or
not.

`Replaced` carries this through the tags around (`Encloses`), since pruning and joining treat the
content of each tag on its own. A node that encloses another one tells what it encloses, so
different contents stay different.
-/

namespace ViewCompiler.Template

open ViewCompiler.Text

/-! ### Joining the pieces -/

/-- Puts a node before others. Constant text becomes one with the text behind it. -/
def glue : Node → List Node → List Node
  | .interpolation span (.text a), .interpolation _ (.text b) :: nodes =>
    .interpolation span (.text (a ++ b)) :: nodes
  | n, nodes => n :: nodes

mutual

/-- A node with the text of its content in as few pieces as possible. -/
def Node.joined : Node → Node
  | .element span name bindings children => .element span name bindings (joinedAll children)
  | .directive span spec specSpan d children => .directive span spec specSpan d (joinedAll children)
  | .text span content => .text span content
  | .interpolation span v => .interpolation span v
  | .component span name bindings => .component span name bindings

/-- A forest with its text in as few pieces as possible. -/
def joinedAll : List Node → List Node
  | [] => []
  | n :: nodes => glue n.joined (joinedAll nodes)

end

/-- Two forests are the same but for the places of their nodes and for the pieces their text comes
in. -/
def SameContent (nodes nodes' : List Node) : Prop :=
  joinedAll (unplacedAll nodes) = joinedAll (unplacedAll nodes')

/-- The node of a piece of text, without its place. -/
def run (content : String) : Node := .interpolation {} (.text content)

/-- The last one of the nodes is structural; without any node the flag tells. -/
def endsStructural (flag : Bool) : List Node → Bool
  | [] => flag
  | n :: nodes => endsStructural n.kind.isStructural nodes

section Joined

variable {n : Node} {nodes nodes' before rest : List Node} {a b : String}

private theorem Node.kind_joined (n : Node) : n.joined.kind = n.kind := by
  cases n <;> rfl

private theorem glue_of_isStructural (h : n.kind.isStructural = true) (nodes : List Node) :
    glue n nodes = n :: nodes := by
  cases n with
  | interpolation => cases h
  | text | element | component | directive => rfl

private theorem glue_of_head? (h : nodes.head?.all (·.kind.isStructural) = true) :
    glue n nodes = n :: nodes := by
  unfold glue
  split
  · cases h
  · rfl

/-- What stands behind the first of the other nodes is not touched. -/
private theorem glue_append (hne : nodes ≠ []) (rest : List Node) :
    glue n (nodes ++ rest) = glue n nodes ++ rest := by
  obtain ⟨m, nodes, rfl⟩ := List.exists_cons_of_ne_nil hne
  unfold glue
  split
  · rename_i heq
    obtain ⟨rfl, rfl⟩ := List.cons.inj heq
    rfl
  · rename_i hapart
    split
    · rename_i heq
      obtain ⟨rfl, rfl⟩ := List.cons.inj heq
      exact absurd rfl (hapart _ _ _ _ _ rfl)
    · rfl

/-- Text that is put before text as two pieces comes to the same as one piece. -/
private theorem glue_glue (a b : String) (nodes : List Node) :
    glue (run a) (glue (run b) nodes) = glue (run (a ++ b)) nodes := by
  match nodes with
  | .interpolation _ (.text c) :: nodes => simp only [run, glue, String.append_assoc]
  | [] | .text .. :: _ | .element .. :: _ | .component .. :: _ | .directive .. :: _ => rfl
  | .interpolation _ (.literal ..) :: _ | .interpolation _ (.access ..) :: _
  | .interpolation _ (.call ..) :: _ => rfl

private theorem joinedAll_ne_nil (hne : nodes ≠ []) : joinedAll nodes ≠ [] := by
  obtain ⟨n, nodes, rfl⟩ := List.exists_cons_of_ne_nil hne
  rw [joinedAll]
  unfold glue
  split <;> exact List.cons_ne_nil _ _

private theorem head?_joinedAll (nodes : List Node) :
    (joinedAll nodes).head?.all (·.kind.isStructural) = nodes.head?.all (·.kind.isStructural) := by
  cases nodes with
  | nil => rfl
  | cons n nodes =>
    rw [joinedAll, List.head?_cons, Option.all_some, ← n.kind_joined]
    unfold glue
    split
    · rename_i hn _
      rw [hn]
      rfl
    · rfl

/-- Forests that are joined alike are so behind the same nodes. -/
theorem joinedAll_append_congr (h : joinedAll nodes = joinedAll nodes') (before : List Node) :
    joinedAll (before ++ nodes) = joinedAll (before ++ nodes') := by
  induction before with
  | nil => exact h
  | cons n before ih => rw [List.cons_append, List.cons_append, joinedAll, joinedAll, ih]

/-- Next to a structural node nothing is joined. -/
theorem joinedAll_append
    (h : endsStructural true before = true ∨ rest.head?.all (·.kind.isStructural) = true) :
    joinedAll (before ++ rest) = joinedAll before ++ joinedAll rest := by
  induction before with
  | nil => rfl
  | cons n before ih =>
    rw [List.cons_append, joinedAll, joinedAll]
    cases before with
    | nil =>
      rw [List.nil_append, joinedAll, show glue n.joined [] = [n.joined] from glue_of_head? rfl]
      rcases h with h | h
      · exact glue_of_isStructural (n.kind_joined ▸ h) _
      · exact glue_of_head? ((head?_joinedAll rest).trans h)
    | cons m before => rw [ih h, glue_append (joinedAll_ne_nil (List.cons_ne_nil m before))]

end Joined

/-! ### Replacing text within a forest -/

/-- A node around its content: an element or a directive, or a directive that is wrapped around such
a node. -/
inductive Encloses : (List Node → Node) → Prop where
  | element (span : Span) (name : String) (bindings : List Binding) :
    Encloses (.element span name bindings)
  | directive (span : Span) (spec : String) (specSpan : Span) (d : Directive) :
    Encloses (.directive span spec specSpan d)
  | wrapped (span : Span) (spec : String) (specSpan : Span) (d : Directive)
    {enclose : List Node → Node}
    (h : Encloses enclose) : Encloses fun children =>
        .directive span spec specSpan d [enclose children]

/-- Two forests differ in one place, where the one has some siblings and the other one has others.
The flag tells whether what is there has structural neighbours only. -/
inductive Replaced (old new : List Node) : Bool → List Node → List Node → Prop where
  | here (before after : List Node) :
    Replaced old new (endsStructural true before && after.head?.all (·.kind.isStructural))
      (before ++ (old ++ after)) (before ++ (new ++ after))
  | inside {apart : Bool} {children children' : List Node} {enclose : List Node → Node}
    (before after : List Node) (henclose : Encloses enclose)
    (hchildren : Replaced old new apart children children') :
    Replaced old new apart (before ++ enclose children :: after)
        (before ++ enclose children' :: after)

section Enclosed

variable {enclose : List Node → Node}

theorem isStructural_directive (span : Span) (spec : String) (specSpan : Span) (d : Directive)
    (children : List Node) :
    (Node.directive span spec specSpan d children).kind.isStructural = true := by
  cases d <;> rfl

theorem Encloses.isStructural (h : Encloses enclose) (children : List Node) :
    (enclose children).kind.isStructural = true := by
  cases h with
  | element => rfl
  | directive => exact isStructural_directive ..
  | wrapped => exact isStructural_directive ..

theorem Encloses.isBlankText_eq (h : Encloses enclose) (children : List Node) :
    (enclose children).isBlankText = false := by
  cases h <;> rfl

/-- Pruning an enclosing node prunes what it encloses. -/
theorem Encloses.prune_eq (h : Encloses enclose) (children : List Node) :
    (enclose children).prune = enclose (pruneFrom true children) := by
  induction h with
  | element => rfl
  | directive => rfl
  | wrapped span spec specSpan d h ih =>
    rw [Node.prune, pruneFrom_cons_of_kept (.inl (h.isBlankText_eq children)), ih, pruneFrom]

/-- Joining within an enclosing node joins what it encloses. -/
theorem Encloses.joined_eq (h : Encloses enclose) (children : List Node) :
    (enclose children).joined = enclose (joinedAll children) := by
  induction h with
  | element => rfl
  | directive => rfl
  | wrapped span spec specSpan d h ih =>
    rw [Node.joined, joinedAll, ih, glue_of_isStructural (h.isStructural _), joinedAll]

/-- An enclosing node tells what it encloses. -/
private theorem Encloses.injective (h : Encloses enclose) {children children' : List Node}
    (heq : enclose children = enclose children') : children = children' := by
  induction h with
  | element => exact (Node.element.inj heq).2.2.2
  | directive => exact (Node.directive.inj heq).2.2.2.2
  | wrapped _ _ _ _ _ ih => exact ih (List.singleton_inj.1 (Node.directive.inj heq).2.2.2.2)

end Enclosed

/-! ### Pruning -/

section Pruning

variable {nodes nodes' : List Node} {apart : Bool} {a b : String}

/-- What stands before a node is pruned in the light of that node's kind, and it is pruned to
something that ends in the same kind of node if nothing can be dropped next to that one. -/
theorem exists_pruneFrom_append (structuralBefore structural : Bool) (before : List Node) :
    ∃ pruned,
      (structural = false → ∀ flag, endsStructural flag pruned = endsStructural flag before) ∧
      ∀ n nodes, n.kind.isStructural = structural →
        pruneFrom structuralBefore (before ++ n :: nodes) =
          pruned ++ pruneFrom (endsStructural structuralBefore before) (n :: nodes) := by
  induction before generalizing structuralBefore with
  | nil => exact ⟨[], fun _ _ => rfl, fun _ _ _ => rfl⟩
  | cons m before ih =>
    obtain ⟨pruned, hends, hpruned⟩ := ih m.kind.isStructural
    have hhead : ∀ (n : Node) nodes, n.kind.isStructural = structural →
        (before ++ n :: nodes).head?.all (·.kind.isStructural) =
          (before.head?.map (·.kind.isStructural)).getD structural := by
      rintro n nodes rfl
      cases before <;> rfl
    cases hdropped : m.isBlankText && structuralBefore &&
        (before.head?.map (·.kind.isStructural)).getD structural with
    | false =>
      refine ⟨m.prune :: pruned, fun h flag => ?_, fun n nodes hn => ?_⟩
      · rw [endsStructural, endsStructural, m.kind_prune, hends h]
      · rw [List.cons_append, pruneFrom, hhead n nodes hn, hdropped, hpruned n nodes hn]
        rfl
    | true =>
      refine ⟨pruned, fun h flag => ?_, fun n nodes hn => ?_⟩
      · -- What is dropped stands before a structural node, so not at the end.
        subst h
        cases before with
        | nil => simp at hdropped
        | cons k before => exact hends rfl flag
      · rw [List.cons_append, pruneFrom, hhead n nodes hn, hdropped, hpruned n nodes hn]
        rfl

/-- Two runs side by side are both kept. -/
private theorem pruneFrom_run_run (structuralBefore : Bool) (a b : String) (nodes : List Node) :
    pruneFrom structuralBefore (run a :: run b :: nodes) =
      run a :: run b :: pruneFrom false nodes := by
  have hfirst : pruneFrom structuralBefore (run a :: run b :: nodes) =
      run a :: pruneFrom false (run b :: nodes) := pruneFrom_cons_of_kept (.inr (.inr rfl))
  rw [hfirst, pruneFrom_cons_of_kept (.inr (.inl rfl))]
  rfl

/-- What pruning leaves of a piece of text. The flag tells whether it has structural neighbours
only. -/
def prunedRun (apart : Bool) (content : String) : List Node :=
  if (run content).isBlankText && apart then [] else [run content]

/-- A blank run is dropped between structure, and kept otherwise. -/
private theorem pruneFrom_run (structuralBefore : Bool) (content : String) (nodes : List Node) :
    pruneFrom structuralBefore (run content :: nodes) =
      prunedRun (structuralBefore && nodes.head?.all (·.kind.isStructural)) content ++
        pruneFrom false nodes := by
  rw [pruneFrom, prunedRun, Bool.and_assoc]
  split <;> rfl

/-- Pruning drops a piece of blank text that has structural neighbours only, but not two pieces. -/
theorem Replaced.prune (h : Replaced [run (a ++ b)] [run a, run b] apart nodes nodes') :
    Replaced (prunedRun apart (a ++ b)) [run a, run b] apart (pruneFrom true nodes)
      (pruneFrom true nodes') := by
  induction h with
  | here before after =>
    obtain ⟨pruned, hends, hpruned⟩ := exists_pruneFrom_append true false before
    rw [List.singleton_append, hpruned _ _ rfl, pruneFrom_run, List.cons_append,
      List.singleton_append,
      hpruned _ _ rfl, pruneFrom_run_run, ← hends rfl, ← head?_pruneFrom_false]
    exact .here pruned (pruneFrom false after)
  | inside before after henclose _ ih =>
    obtain ⟨pruned, -, hpruned⟩ := exists_pruneFrom_append true true before
    have hkept := fun children => henclose.isBlankText_eq children
    rw [hpruned _ _ (henclose.isStructural _), hpruned _ _ (henclose.isStructural _),
      pruneFrom_cons_of_kept (.inl (hkept _)), pruneFrom_cons_of_kept (.inl (hkept _)),
      henclose.isStructural, henclose.isStructural, henclose.prune_eq, henclose.prune_eq]
    exact .inside _ _ henclose ih

/-- Where one run is replaced by its two halves, the joined forest is the same. -/
private theorem Replaced.joinedAll_eq
    (h : Replaced [run (a ++ b)] [run a, run b] apart nodes nodes') :
    joinedAll nodes = joinedAll nodes' := by
  induction h with
  | here before after =>
    refine joinedAll_append_congr ?_ before
    exact (glue_glue a b (joinedAll after)).symm
  | inside before after henclose _ ih =>
    refine joinedAll_append_congr ?_ before
    rw [joinedAll, joinedAll, henclose.joined_eq, henclose.joined_eq, ih]

/-- Where two runs are dropped that stand apart, the joined forest is another one. -/
private theorem Replaced.joinedAll_ne (h : Replaced [] [run a, run b] apart nodes nodes')
    (hapart : apart = true) :
    joinedAll nodes ≠ joinedAll nodes' := by
  induction h with
  | here before after =>
    obtain ⟨hbefore, hafter⟩ := Bool.and_eq_true_iff.1 hapart
    have hsplit :
        joinedAll ([run a, run b] ++ after) = joinedAll [run a, run b] ++ joinedAll after :=
      joinedAll_append (.inr hafter)
    rw [joinedAll_append (.inl hbefore), joinedAll_append (.inl hbefore), hsplit, List.nil_append]
    intro heq
    have hpieces := List.self_eq_append_left.1 (List.append_cancel_left heq)
    exact joinedAll_ne_nil (List.cons_ne_nil (run a) [run b]) hpieces
  | @inside _ children children' enclose before after henclose _ ih =>
    have hsplit : ∀ children, joinedAll (before ++ enclose children :: after) =
        joinedAll before ++ enclose (joinedAll children) :: joinedAll after := by
      intro children
      have hhead : (enclose children :: after).head?.all (·.kind.isStructural) = true :=
        henclose.isStructural children
      rw [joinedAll_append (.inr hhead), joinedAll, henclose.joined_eq,
        glue_of_isStructural (henclose.isStructural _)]
    rw [hsplit, hsplit]
    intro heq
    exact ih hapart (henclose.injective (List.cons.inj (List.append_cancel_left heq)).1)

/-- Whether a piece of text comes in one or in two pieces makes a difference to what is pruned
exactly where it is blank and has structural neighbours only. -/
theorem Replaced.joinedAll_pruneFrom
    (h : Replaced [run (a ++ b)] [run a, run b] apart nodes nodes') :
    joinedAll (pruneFrom true nodes) = joinedAll (pruneFrom true nodes') ↔
      ¬((run (a ++ b)).isBlankText = true ∧ apart = true) := by
  have hpruned := h.prune
  rw [← Bool.and_eq_true_iff]
  unfold prunedRun at hpruned
  split at hpruned
  · rename_i hdropped
    have hapart := (Bool.and_eq_true_iff.1 hdropped).2
    exact iff_of_false (hpruned.joinedAll_ne hapart) (not_not_intro hdropped)
  · rename_i hkept
    exact iff_of_true hpruned.joinedAll_eq hkept

end Pruning

end ViewCompiler.Template
