import ViewCompiler.Template.Copy
import ViewCompiler.Template.Parser

/-!
# Properties of forests

What holds of a forest holds of its nodes and of the forests below them: the components that it
mentions (`Mentions`) and the properties that all of its nodes (`AllNodes`) or bindings
(`AllBindings`) have. White space is dropped from a forest wherever it stands
(`pruneFrom_relocateAll`), and a copy of a forest is the forest (`copyForest_eq`).
-/

namespace ViewCompiler.Template

/-- The nodes of a tree are its root and those of the forest below it. -/
theorem Node.preorder_eq (n : Node) : n.preorder = n :: preorderForest n.children := by
  cases n with
  | text => rfl
  | interpolation => rfl
  | element => rfl
  | component => rfl
  | directive => rfl

/-- A node of a forest is one of its roots or lies below one. -/
theorem mem_preorderForest {nodes : List Node} {m : Node} :
    m ∈ preorderForest nodes ↔ ∃ n ∈ nodes, m = n ∨ m ∈ preorderForest n.children := by
  induction nodes with
  | nil => simp [preorderForest]
  | cons n nodes ih =>
    rw [preorderForest, List.mem_append, ih, Node.preorder_eq, List.mem_cons]
    simp

/-- The content of a node in a forest is part of the forest. -/
theorem preorderForest_children_subset {nodes : List Node} {n : Node}
    (h : n ∈ preorderForest nodes) : preorderForest n.children ⊆ preorderForest nodes := by
  obtain ⟨m, hm, rfl | hbelow⟩ := mem_preorderForest.1 h
  · exact fun k hk => mem_preorderForest.2 ⟨_, hm, .inr hk⟩
  · have hsub := preorderForest_children_subset hbelow
    exact fun k hk => mem_preorderForest.2 ⟨m, hm, .inr (hsub hk)⟩
termination_by sizeOf nodes
decreasing_by
  have hlt := List.sizeOf_lt_of_mem hm
  have hle : sizeOf m.children ≤ sizeOf m := by cases m <;> simp [Node.children] <;> omega
  omega

/-! ### Components -/

/-- A component with the given tag occurs in a forest, at any depth. -/
def Mentions (nodes : List Node) (tag : String) : Prop :=
  ∃ span bindings, .component span tag bindings ∈ preorderForest nodes

theorem not_mentions_nil (tag : String) : ¬Mentions [] tag := by
  rintro ⟨span, bindings, h⟩
  cases h

/-- A forest mentions a tag at its first root, below it or further on. -/
theorem mentions_cons {n : Node} {nodes : List Node} {tag : String} :
    Mentions (n :: nodes) tag ↔
      (∃ span bindings, n = .component span tag bindings) ∨ Mentions n.children tag ∨
        Mentions nodes tag := by
  constructor
  · rintro ⟨span, bindings, h⟩
    obtain ⟨m, hm, hat⟩ := mem_preorderForest.1 h
    rcases List.mem_cons.1 hm with rfl | hm
    · rcases hat with rfl | hbelow
      · exact .inl ⟨span, bindings, rfl⟩
      · exact .inr (.inl ⟨span, bindings, hbelow⟩)
    · exact .inr (.inr ⟨span, bindings, mem_preorderForest.2 ⟨m, hm, hat⟩⟩)
  · rintro (⟨span, bindings, rfl⟩ | ⟨span, bindings, h⟩ | ⟨span, bindings, h⟩)
    · exact ⟨span, bindings, mem_preorderForest.2 ⟨_, List.mem_cons_self, .inl rfl⟩⟩
    · exact ⟨span, bindings, mem_preorderForest.2 ⟨n, List.mem_cons_self, .inr h⟩⟩
    · obtain ⟨m, hm, h⟩ := mem_preorderForest.1 h
      exact ⟨span, bindings, mem_preorderForest.2 ⟨m, List.mem_cons_of_mem _ hm, h⟩⟩

/-! ### Nodes -/

/-- Every node in a forest satisfies `P`. -/
def AllNodes (P : Node → Prop) (nodes : List Node) : Prop := ∀ n ∈ preorderForest nodes, P n

section AllNodes

variable {P : Node → Prop}

/-- A property of all nodes in a forest, tree by tree. -/
theorem allNodes_iff {nodes : List Node} :
    AllNodes P nodes ↔ ∀ n ∈ nodes, P n ∧ AllNodes P n.children := by
  constructor
  · intro h n hn
    refine ⟨h n (mem_preorderForest.2 ⟨n, hn, .inl rfl⟩), fun m hm => ?_⟩
    exact h m (mem_preorderForest.2 ⟨n, hn, .inr hm⟩)
  · intro h m hm
    obtain ⟨n, hn, rfl | hm⟩ := mem_preorderForest.1 hm
    · exact (h m hn).1
    · exact (h n hn).2 m hm

theorem allNodes_nil : AllNodes P [] := allNodes_iff.2 (by simp)

/-- A property of all nodes is one of the first root, of what lies below it and of the rest. -/
theorem allNodes_cons {n : Node} {nodes : List Node} :
    AllNodes P (n :: nodes) ↔ (P n ∧ AllNodes P n.children) ∧ AllNodes P nodes := by
  rw [allNodes_iff, List.forall_mem_cons, ← allNodes_iff]

theorem allNodes_singleton {n : Node} (hown : P n) (hchildren : AllNodes P n.children) :
    AllNodes P [n] :=
  allNodes_cons.2 ⟨⟨hown, hchildren⟩, allNodes_nil⟩

theorem allNodes_reverse {nodes : List Node} (h : AllNodes P nodes) : AllNodes P nodes.reverse :=
  allNodes_iff.2 fun n hn => allNodes_iff.1 h n (List.mem_reverse.1 hn)

mutual

/-- A property that pruning keeps holds of all nodes below a pruned node. -/
private theorem allNodes_children_prune (hprune : ∀ n, P n → AllNodes P n.children → P n.prune)
    {n : Node} (h : AllNodes P n.children) : AllNodes P n.prune.children := by
  cases n with
  | text => exact h
  | interpolation => exact h
  | element s name bs cs => exact allNodes_pruneFrom_of_children hprune h
  | component => exact h
  | directive s spec ss d cs => exact allNodes_pruneFrom_of_children hprune h

/-- Dropping blank text keeps what it keeps of every node whose content has it too. -/
theorem allNodes_pruneFrom_of_children (hprune : ∀ n, P n → AllNodes P n.children → P n.prune)
    {structuralBefore : Bool} {nodes : List Node} (h : AllNodes P nodes) :
    AllNodes P (pruneFrom structuralBefore nodes) := by
  match nodes with
  | [] => exact allNodes_nil
  | n :: ns =>
    obtain ⟨⟨hown, hchildren⟩, hrest⟩ := allNodes_cons.1 h
    rw [pruneFrom]
    split
    · exact allNodes_pruneFrom_of_children hprune hrest
    · have hown := hprune n hown hchildren
      refine allNodes_cons.2 ⟨⟨hown, allNodes_children_prune hprune hchildren⟩, ?_⟩
      exact allNodes_pruneFrom_of_children hprune hrest

end

/-- Dropping blank text leaves the other nodes as they are, but for their content. -/
theorem allNodes_pruneFrom (hprune : ∀ n, P n → P n.prune) {structuralBefore : Bool}
    {nodes : List Node} (h : AllNodes P nodes) : AllNodes P (pruneFrom structuralBefore nodes) :=
  allNodes_pruneFrom_of_children (fun n hn _ => hprune n hn) h

end AllNodes

/-- A structural node in front is pruned on its own. -/
theorem pruneWhitespace_cons {n : Node} (h : n.kind.isStructural = true) (nodes : List Node) :
    pruneWhitespace (n :: nodes) = n.prune :: pruneWhitespace nodes := by
  have hblank : n.isBlankText = false := by
    cases n with
    | interpolation => cases h
    | text | element | component | directive => rfl
  rw [pruneWhitespace, pruneFrom, hblank, h]
  rfl

theorem Node.bindings_prune (n : Node) : n.prune.bindings = n.bindings := by
  cases n <;> rfl

theorem Node.span_prune (n : Node) : n.prune.span = n.span := by
  cases n <;> rfl

theorem Node.kind_prune (n : Node) : n.prune.kind = n.kind := by
  cases n <;> rfl

theorem Node.name_prune (n : Node) : n.prune.name = n.name := by
  cases n <;> rfl

theorem Node.children_prune (n : Node) : n.prune.children = pruneFrom true n.children := by
  cases n <;> simp [Node.prune, Node.children, pruneFrom]

/-! ### Bindings -/

/-- Every binding in a forest satisfies `P`. -/
def AllBindings (P : Binding → Prop) (nodes : List Node) : Prop :=
  ∀ n ∈ preorderForest nodes, ∀ b ∈ n.bindings, P b

section AllBindings

variable {P : Binding → Prop}

theorem allBindings_nil : AllBindings P [] := allNodes_nil

/-- A property of all bindings is one of those of the first root, below it and of the rest. -/
theorem allBindings_cons {n : Node} {nodes : List Node} :
    AllBindings P (n :: nodes) ↔
      ((∀ b ∈ n.bindings, P b) ∧ AllBindings P n.children) ∧ AllBindings P nodes :=
  allNodes_cons

/-- Dropping blank text keeps the bindings of what remains. -/
theorem allBindings_pruneFrom {structuralBefore : Bool} {nodes : List Node}
    (h : AllBindings P nodes) : AllBindings P (pruneFrom structuralBefore nodes) :=
  allNodes_pruneFrom (fun n hn => n.bindings_prune ▸ hn) h

end AllBindings

/-! ### Places -/

/-- A binding at another place. -/
def Binding.relocate (f : Span → Span) (b : Binding) : Binding := { b with span := f b.span }

mutual

/-- A node at another place, with everything below it. -/
def Node.relocate (f : Span → Span) : Node → Node
  | .text span content => .text (f span) content
  | .interpolation span value => .interpolation (f span) value
  | .element span name bindings children =>
    .element (f span) name (bindings.map (Binding.relocate f)) (relocateAll f children)
  | .component span name bindings => .component (f span) name (bindings.map (Binding.relocate f))
  | .directive span spec specSpan d children =>
    .directive (f span) spec (f specSpan) d (relocateAll f children)

/-- A forest at other places. -/
def relocateAll (f : Span → Span) : List Node → List Node
  | [] => []
  | n :: ns => n.relocate f :: relocateAll f ns

end

section Relocate

variable (f : Span → Span)

theorem relocateAll_eq_map (nodes : List Node) :
    relocateAll f nodes = nodes.map (Node.relocate f) := by
  induction nodes with
  | nil => rfl
  | cons n nodes ih => rw [relocateAll, ih, List.map_cons]

theorem relocateAll_reverse (nodes : List Node) :
    (relocateAll f nodes).reverse = relocateAll f nodes.reverse := by
  simp only [relocateAll_eq_map, List.map_reverse]

@[simp]
theorem Node.span_relocate (n : Node) : (n.relocate f).span = f n.span := by
  cases n <;> rfl

@[simp]
theorem Node.kind_relocate (n : Node) : (n.relocate f).kind = n.kind := by
  cases n <;> rfl

@[simp]
theorem Node.isBlankText_relocate (n : Node) : (n.relocate f).isBlankText = n.isBlankText := by
  cases n with
  | interpolation span value => cases value <;> rfl
  | text | element | component | directive => rfl

mutual

/-- Pruning does not look at positions. -/
private theorem Node.prune_relocate (n : Node) : (n.relocate f).prune = n.prune.relocate f := by
  cases n with
  | text span content => rfl
  | interpolation span value => rfl
  | component span name bindings => rfl
  | element span name bindings children =>
    simp only [Node.relocate, Node.prune, pruneFrom_relocateAll true children]
  | directive span spec specSpan d children =>
    simp only [Node.relocate, Node.prune, pruneFrom_relocateAll true children]

/-- White space is dropped wherever it stands. -/
theorem pruneFrom_relocateAll (structural : Bool) (nodes : List Node) :
    pruneFrom structural (relocateAll f nodes) = relocateAll f (pruneFrom structural nodes) := by
  cases nodes with
  | nil => rfl
  | cons n nodes =>
    have hhead : (relocateAll f nodes).head?.all (·.kind.isStructural) =
        nodes.head?.all (·.kind.isStructural) := by
      cases nodes with
      | nil => rfl
      | cons m nodes => simp [relocateAll]
    simp only [relocateAll, pruneFrom, Node.kind_relocate, Node.isBlankText_relocate, hhead,
      pruneFrom_relocateAll _ nodes, Node.prune_relocate n]
    split
    · rfl
    · rfl

end

end Relocate

/-! ### Copies -/

/-- The copy of an argument is the argument. -/
theorem Argument.copy_eq (a : Argument) : a.copy = a := by
  cases a <;> rfl

/-- The copy of a value is the value. -/
theorem Value.copy_eq (v : Value) : v.copy = v := by
  cases v with
  | call method arguments =>
    rw [Value.copy, List.map_congr_left fun a _ => a.copy_eq, List.map_id']
  | _ => rfl

/-- The copy of a binding is the binding. -/
theorem Binding.copy_eq (b : Binding) : b.copy = b := by
  rw [Binding.copy, b.value.copy_eq]

/-- The copy of a directive is the directive. -/
theorem Directive.copy_eq (d : Directive) : d.copy = d := by
  cases d <;> rfl

private theorem map_copy_eq (bs : List Binding) : bs.map Binding.copy = bs := by
  rw [List.map_congr_left fun b _ => b.copy_eq, List.map_id']

mutual

/-- The copy of a node is the node, as data. -/
theorem Node.copy_eq (n : Node) : n.copy = n := by
  match n with
  | .text _ _ => rfl
  | .interpolation _ v => rw [Node.copy, v.copy_eq]
  | .element _ _ bs cs => rw [Node.copy, map_copy_eq, copyForest_eq cs]
  | .component _ _ bs => rw [Node.copy, map_copy_eq]
  | .directive _ _ _ d cs => rw [Node.copy, d.copy_eq, copyForest_eq cs]

/-- The copy of a forest is the forest, as data. -/
theorem copyForest_eq (nodes : List Node) : copyForest nodes = nodes := by
  match nodes with
  | [] => rfl
  | n :: ns => rw [copyForest, n.copy_eq, copyForest_eq ns]

end

end ViewCompiler.Template
