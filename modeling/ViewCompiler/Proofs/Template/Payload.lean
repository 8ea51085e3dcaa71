import ViewCompiler.Proofs.Template.Binding
import ViewCompiler.Proofs.Template.Steps

/-!
# The event payload stays in handlers

The payload `#` is an argument that only the handler of an event can have. The reader refuses it
everywhere else, so no other binding of a template that was read mentions it
(`handlesPayload_of_parse`). The proof goes from expressions over bindings and tags up to the
forest.
-/

namespace ViewCompiler.Template

open ViewCompiler.Text

/-- Whether the payload is an argument of a value. -/
def Value.HasPayload : Value → Prop
  | .call _ arguments => .payload ∈ arguments
  | .text _ | .literal _ | .access _ => False

/-- A binding that mentions the payload is a handler. -/
def Binding.HandlesPayload (b : Binding) : Prop := b.value.HasPayload → b.kind.isHandler = true

/-! ### Expressions -/

private theorem payload_notMem_of_readArguments {source : List Char} {arguments : List Argument}
    (h : readArguments false source = .ok arguments) : .payload ∉ arguments := by
  obtain rfl | ⟨pieces, -, hread⟩ := cases_of_readArguments h
  · exact List.not_mem_nil
  · intro hmem
    obtain ⟨piece, -, hpiece⟩ := exists_of_mem_mapM hread hmem
    obtain ⟨-, ⟨hadmitted, -⟩ | hliteral | ⟨path, -, haccess⟩⟩ := cases_of_readArgument hpiece
    · cases hadmitted
    · cases hliteral
    · cases haccess

/-- Where the payload is not admitted, no expression has it. -/
theorem not_hasPayload_of_readExpression {source : List Char} {v : Value}
    (h : readExpression false source = .ok v) : ¬v.HasPayload := by
  obtain rfl | ⟨path, -, rfl⟩ | ⟨name, text, arguments, -, harguments, rfl⟩ :=
    cases_of_readExpression h
  · exact id
  · exact id
  · exact payload_notMem_of_readArguments harguments

/-! ### Attributes -/

/-- The expression of an attribute that is no handler is read without the payload. -/
private theorem handlesPayload_of_bindDynamic {component : Bool} {a : Attribute}
    {kind : BindingKind}
    {target : String} {v : Value} (h : bindDynamic component a = .ok (kind, target, v)) :
    v.HasPayload → kind.isHandler = true := by
  obtain ⟨-, hread, -⟩ := readExpression_of_bindDynamic h
  intro hpayload
  cases hk : kind.isHandler with
  | true => rfl
  | false =>
    rw [hk] at hread
    exact (not_hasPayload_of_readExpression hread hpayload).elim

theorem not_hasPayload_bindLiteral (component : Bool) (a : Attribute) :
    ¬(bindLiteral component a).2.2.HasPayload := by
  unfold bindLiteral
  simp only
  split
  · split <;> exact id
  · split <;> exact id

theorem handlesPayload_of_bindAttribute {source : Source} {component : Bool} {a : Attribute}
    {b : Binding} (h : bindAttribute source component a = .ok b) : b.HandlesPayload := by
  obtain ⟨kind, target, v, rfl, hbind | hbind⟩ := cases_of_bindAttribute h
  · exact handlesPayload_of_bindDynamic hbind
  · have hliteral := not_hasPayload_bindLiteral component a
    rw [hbind] at hliteral
    exact fun hpayload => (hliteral hpayload).elim

/-! ### Tags -/

/-- Only handlers of a forest mention the payload. -/
abbrev HandlesPayload (nodes : List Node) : Prop := AllBindings Binding.HandlesPayload nodes

private theorem handlesPayload_directive {span specSpan : Span} {spec : String} {d : Directive}
    {children : List Node} (h : HandlesPayload children) :
    HandlesPayload [.directive span spec specSpan d children] := by
  refine allBindings_cons.2 ⟨⟨fun b hb => ?_, h⟩, allBindings_nil⟩
  obtain rfl := List.mem_singleton.1 hb
  exact False.elim

private theorem handlesPayload_of_finishTag {source : Source} {tag : Tag} {children : List Node}
    {stop : Nat} {n : Node} (hchildren : HandlesPayload children)
    (h : finishTag source tag children stop = .ok n) : HandlesPayload [n] := by
  obtain ⟨bindings, directive, node, hbinds, hholds, hwraps⟩ := finishes_of_finishTag h
  have hbindings : ∀ b ∈ bindings, b.HandlesPayload := by
    intro b hb
    obtain ⟨a, -, hbind⟩ := hbinds.bound b hb
    exact handlesPayload_of_bindAttribute hbind
  have hnode : HandlesPayload [node] := by
    cases hholds with
    | component => exact allBindings_cons.2 ⟨⟨hbindings, allBindings_nil⟩, allBindings_nil⟩
    | element => exact allBindings_cons.2 ⟨⟨hbindings, hchildren⟩, allBindings_nil⟩
  cases hwraps with
  | bare => exact hnode
  | wrapped => exact handlesPayload_directive hnode

private theorem handlesPayload_of_finish {source : Source} {opened : OpenTag} {children : List Node}
    {stop : Nat} {n : Node} (hchildren : HandlesPayload children)
    (h : opened.finish source children stop = .ok n) : HandlesPayload [n] := by
  cases opened with
  | tag t => exact handlesPayload_of_finishTag hchildren h
  | directive d =>
    obtain rfl := Except.ok.inj h
    exact handlesPayload_directive hchildren

/-! ### Templates -/

private theorem allBindings_concat {P : Binding → Prop} {n : Node} {nodes : List Node}
    (hn : AllBindings P [n]) (hnodes : AllBindings P nodes) : AllBindings P (n :: nodes) :=
  allBindings_cons.2 ⟨(allBindings_cons.1 hn).1, hnodes⟩

private theorem handlesPayload_interpolation {span : Span} {v : Value} (hv : ¬v.HasPayload) :
    HandlesPayload [.interpolation span v] := by
  refine allBindings_cons.2 ⟨⟨fun b hb hpayload => ?_, allBindings_nil⟩, allBindings_nil⟩
  obtain rfl := List.mem_singleton.1 hb
  exact (hv hpayload).elim

private theorem handlesPayload_verbatimBody (source : Source) (start stop : Nat) (body : String) :
    HandlesPayload (verbatimBody source start stop body) := by
  unfold verbatimBody
  split
  · exact allBindings_nil
  · refine allBindings_cons.2 ⟨⟨fun b hb hpayload => ?_, allBindings_nil⟩, allBindings_nil⟩
    obtain rfl := List.mem_singleton.1 hb
    exact hpayload.elim

private theorem handlesPayload_of_makes {source : Source} {token : Token} {n : Node}
    {here next : Cursor}
    (hread : token.ReadAt here next) (h : token.Makes source n) : HandlesPayload [n] := by
  cases h with
  | text => exact handlesPayload_interpolation id
  | interpolation start stop v =>
    obtain ⟨-, -, e, -, he⟩ := hread
    exact handlesPayload_interpolation (not_hasPayload_of_readExpression he)
  | leaf hfinish => exact handlesPayload_of_finishTag allBindings_nil hfinish
  | verbatim hfinish =>
    exact handlesPayload_of_finishTag (handlesPayload_verbatimBody source _ _ _) hfinish
  | directive => exact handlesPayload_directive allBindings_nil

/-- Whatever is assembled from tokens that were read mentions the payload in handlers only. -/
private theorem handlesPayload_of_assembles {source : Source} {tokens : List Token}
    {nodes : List Node}
    (hread : ∀ t ∈ tokens, ∃ here next, t.ReadAt here next) (h : Assembles source tokens nodes) :
    HandlesPayload nodes := by
  induction h with
  | nil => exact allBindings_nil
  | single hmakes _ ih =>
    obtain ⟨⟨here, next, htoken⟩, hrest⟩ := List.forall_mem_cons.1 hread
    exact allBindings_concat (handlesPayload_of_makes htoken hmakes) (ih hrest)
  | content start _ _ hfinish _ ihcontent ihrest =>
    obtain ⟨-, hmore⟩ := List.forall_mem_cons.1 hread
    obtain ⟨hcontent, hclosed⟩ := List.forall_mem_append.1 hmore
    obtain ⟨-, hrest⟩ := List.forall_mem_cons.1 hclosed
    exact allBindings_concat (handlesPayload_of_finish (ihcontent hcontent) hfinish) (ihrest hrest)

/-- In a template that was read, only handlers mention the payload. -/
theorem handlesPayload_of_parse {component source : String} {nodes : List Node}
    (h : parse component source = .ok nodes) : HandlesPayload nodes := by
  obtain ⟨hscan, forest, hforest, rfl⟩ := parse_eq_ok_iff.1 h
  obtain ⟨last, hread, -⟩ := readInTurn_of_scan hscan
  exact allBindings_pruneFrom (handlesPayload_of_assembles hread.exists_readAt hforest)

end ViewCompiler.Template
