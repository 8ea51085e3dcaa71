import ViewCompiler.Proofs.Scope.Resolution

/-!
# Where nodes stand

`Stands lib root fs n` states, without building anything, that the node `n` is part of what mounting
`root` leads to, and that the frames `fs` are around it: a node of the root template stands in the
frame of the root, the content of an element stands where the element does, and what is mounted at a
node stands one frame further in. A tree that is laid out saves exactly the nodes that stand
somewhere (`Placed.stands_of_mem_saved`, `Scope.exists_saved_of_stands`), up to the numbers and
names of the frames, on which no look-up depends (`Frames.admits_iff_of_roles_eq`).

In a tree a frame has a number and a name besides. Two frames of the same role declare the same
names, for the same kinds of things, and nothing that decides on a template looks at more than that.

So a statement about templates carries over to the tree and back. One direction goes along the tree,
from each scope to those mounted in it: what a scope saves is what its view consists of, and the
view stands in its frames. The other direction is an induction on `Stands`. A node of the view of a
scope is saved there, the content of an element is saved with the element, and at every saved node
at which something can be mounted a scope is mounted, with a frame of the right role.

The content of a directive is the one thing that the scope around it does not save. It is the view
of a scope of its own.
-/

namespace ViewCompiler

open ViewCompiler.Template

/-! ### Frames and what is mounted in them -/

/-- The frame is one of those that can be mounted at the node, with the given view. -/
inductive Frame.Mounts (lib : Library) : Frame → Node → List Node → Prop where
  | directive (owner : String) (id : Nat) {span spec specSpan directive inner} :
      Mounts lib
        (directiveFrame owner id (.directive span spec specSpan directive inner) directive)
        (.directive span spec specSpan directive inner) inner
  | component (id : Nat) {span tag bindings d m} (hfind : lib.find? tag = some d)
      (hmeta : d.metadata = some m) :
      Mounts lib ⟨id, d.name, .component m, feedsOf (.component span tag bindings)⟩
        (.component span tag bindings) d.template

namespace Frame.Mounts

variable {lib : Library} {f g : Frame} {n : Node} {view view' : List Node}

theorem feeds_eq (h : f.Mounts lib n view) : f.feeds = feedsOf n := by
  cases h with
  | directive => rfl
  | component => rfl

/-- What is mounted at a node differs in numbers and names only. -/
theorem role_eq (h : f.Mounts lib n view) (h' : g.Mounts lib n view') :
    f.role = g.role ∧ view = view' := by
  cases h with
  | directive =>
    cases h'
    exact ⟨rfl, rfl⟩
  | component id hfind hmeta =>
    cases h' with
    | component id' hfind' hmeta' =>
      obtain rfl := Option.some.inj (hfind.symm.trans hfind')
      obtain rfl := Option.some.inj (hmeta.symm.trans hmeta')
      exact ⟨rfl, rfl⟩

theorem isScope (h : f.Mounts lib n view) : n.kind.isScope = true := by
  cases h with
  | @directive _ _ _ _ _ directive => cases directive <;> rfl
  | component => rfl

end Frame.Mounts

/-- What happens to the frames around a node while the tree below a root is laid out. -/
inductive Stands (lib : Library) (root : Definition) : Frames → Node → Prop where
  | root (id : Nat) {m n} (hmeta : root.metadata = some m) (hn : n ∈ root.template) :
      Stands lib root [⟨id, root.name, .component m, []⟩] n
  | element {fs span name bindings inner n}
      (h : Stands lib root fs (.element span name bindings inner)) (hn : n ∈ inner) :
      Stands lib root fs n
  | mounted {fs f anchor view n} (h : Stands lib root fs anchor) (hf : f.Mounts lib anchor view)
      (hn : n ∈ view) : Stands lib root (f :: fs) n

/-! ### Frames that differ in numbers and names -/

/-- Frames of the same role declare the same names. -/
theorem Frame.declares?_of_role_eq {f g : Frame} (h : f.role = g.role) (name : String) :
    f.declares? name = g.declares? name := by
  unfold Frame.declares?
  rw [h]

namespace Frames

/-- The kind of what a name refers to depends on the roles of the frames alone. -/
theorem kind_resolve?_of_roles_eq {fs gs : Frames} (h : fs.map Frame.role = gs.map Frame.role)
    (name : String) : (fs.resolve? name).map Origin.kind = (gs.resolve? name).map Origin.kind := by
  induction fs generalizing gs with
  | nil =>
    cases gs with
    | nil => rfl
    | cons g gs => cases h
  | cons f fs ih =>
    cases gs with
    | nil => cases h
    | cons g gs =>
      obtain ⟨hrole, hroles⟩ := List.cons.inj h
      rw [resolve?, resolve?, Frame.declares?_of_role_eq hrole name]
      cases g.declares? name with
      | none => exact ih hroles
      | some kind => rfl

/-- A name is read where it refers to something that is no method. -/
theorem reads_iff_map_kind {fs : Frames} {name : String} :
    fs.Reads name ↔ ∃ kind, (fs.resolve? name).map Origin.kind = some kind ∧ kind ≠ .method := by
  constructor
  · rintro ⟨o, ho, hkind⟩
    exact ⟨o.kind, by rw [ho]; rfl, hkind⟩
  · rintro ⟨kind, hmap, hkind⟩
    obtain ⟨o, ho, rfl⟩ := Option.map_eq_some_iff.1 hmap
    exact ⟨o, ho, hkind⟩

/-- A name is called where it refers to a method. -/
theorem calls_iff_map_kind {fs : Frames} {name : String} :
    fs.Calls name ↔ (fs.resolve? name).map Origin.kind = some .method := by
  rw [Option.map_eq_some_iff]
  rfl

/-- Which values are admitted depends on the roles of the frames alone. -/
theorem admits_iff_of_roles_eq {fs gs : Frames} (h : fs.map Frame.role = gs.map Frame.role)
    (v : Value) : fs.Admits v ↔ gs.Admits v := by
  have hreads : ∀ name, fs.Reads name ↔ gs.Reads name := fun name => by
    rw [reads_iff_map_kind, reads_iff_map_kind, kind_resolve?_of_roles_eq h]
  cases v with
  | text => exact Iff.rfl
  | literal => exact Iff.rfl
  | access path => exact hreads path.root
  | call method arguments =>
    refine and_congr ?_ (forall₂_congr fun a _ => ?_)
    · rw [calls_iff_map_kind, calls_iff_map_kind, kind_resolve?_of_roles_eq h]
    · cases a with
      | literal => exact Iff.rfl
      | access path => exact hreads path.root
      | payload => exact Iff.rfl

end Frames

/-! ### What a layout saves -/

/-- The nodes of a forest that the scope around it saves: all but the content of directives. -/
def savedNodes : List Node → List Node
  | [] => []
  | .element span name bindings inner :: rest =>
    .element span name bindings inner :: (savedNodes inner ++ savedNodes rest)
  | n :: rest => n :: savedNodes rest
termination_by nodes => sizeOf nodes

theorem savedNodes_cons_of_ne_element {n : Node} (hn : n.kind ≠ .element) (rest : List Node) :
    savedNodes (n :: rest) = n :: savedNodes rest := by
  cases n with
  | element => exact (hn rfl).elim
  | text => simp [savedNodes]
  | interpolation => simp [savedNodes]
  | component => simp [savedNodes]
  | directive => simp [savedNodes]

/-- What holds of the nodes of a forest and passes into elements holds of all saved nodes. -/
theorem forall_savedNodes {P : Node → Prop} {nodes : List Node} (hnodes : ∀ n ∈ nodes, P n)
    (hinner : ∀ span name bindings inner, P (.element span name bindings inner) →
      ∀ n ∈ inner, P n) : ∀ n ∈ savedNodes nodes, P n := by
  fun_induction savedNodes nodes with
  | case1 => simp
  | case2 span name bindings inner rest ihInner ihRest =>
    obtain ⟨hnode, hrest⟩ := List.forall_mem_cons.1 hnodes
    refine List.forall_mem_cons.2 ⟨hnode, List.forall_mem_append.2 ⟨?_, ihRest hrest⟩⟩
    exact ihInner (hinner _ _ _ _ hnode)
  | case3 n rest _ ihRest =>
    obtain ⟨hnode, hrest⟩ := List.forall_mem_cons.1 hnodes
    exact List.forall_mem_cons.2 ⟨hnode, ihRest hrest⟩

private theorem subset_savedNodes (nodes : List Node) : nodes ⊆ savedNodes nodes := by
  fun_induction savedNodes nodes with
  | case1 => exact List.Subset.refl _
  | case2 span name bindings inner rest _ ihRest =>
    exact List.cons_subset_cons _ (List.subset_append_of_subset_right _ ihRest)
  | case3 n rest _ ihRest => exact List.cons_subset_cons _ ihRest

/-- The content of a saved element is saved with it. -/
private theorem subset_savedNodes_of_element {nodes : List Node} {span : Span} {name : String}
    {bindings : List Binding} {inner : List Node}
    (h : .element span name bindings inner ∈ savedNodes nodes) : inner ⊆ savedNodes nodes := by
  fun_induction savedNodes nodes with
  | case1 => cases h
  | case2 span' name' bindings' inner' rest ihInner ihRest =>
    refine List.subset_cons_of_subset _ ?_
    rcases List.mem_cons.1 h with heq | h
    · cases heq
      exact List.subset_append_of_subset_left _ (subset_savedNodes inner)
    · rcases List.mem_append.1 h with h | h
      · exact List.subset_append_of_subset_left _ (ihInner h)
      · exact List.subset_append_of_subset_right _ (ihRest h)
  | case3 n rest hn ihRest =>
    rcases List.mem_cons.1 h with rfl | h
    · exact (hn _ _ _ _ rfl).elim
    · exact List.subset_cons_of_subset _ (ihRest h)

namespace Laid

variable {lib : Library} {entered : List String} {owner : String} {index id : Nat}
  {nodes : List Node} {e : Expansion} (h : Laid lib entered owner index id nodes e)
include h

/-- A layout saves the nodes of the forest, in document order. -/
theorem map_node_saved : e.saved.map Slot.node = savedNodes nodes := by
  induction h with
  | nil => simp [savedNodes]
  | leaf hn _ ih =>
    rw [savedNodes_cons_of_ne_element (by rintro heq; rw [heq] at hn; cases hn), ← ih]
    rfl
  | element _ _ ihInner ihRest => simp [savedNodes, ihInner, ihRest]
  | directive _ _ _ _ ihRest => simp [savedNodes, ihRest]
  | component _ _ _ _ _ _ _ ihRest => simp [savedNodes, ihRest]

/-- The mounted scopes are those of the saved nodes at which a scope is mounted, in document
order. -/
theorem map_anchor_children :
    e.children.map (fun c => (c.anchor, some c.frame.id)) =
      (e.saved.filter (·.node.kind.isScope)).map fun s => (some s.node, s.mounted) := by
  induction h with
  | nil => rfl
  | @leaf _ _ _ _ node _ _ hn _ ih =>
    have hscope : node.kind.isScope = false := by
      cases hk : node.kind <;> rw [hk] at hn <;> first | rfl | cases hn
    rw [List.filter_cons_of_neg (by simpa using hscope)]
    exact ih
  | element _ _ ihInner ihRest => simp [Node.kind, NodeKind.isScope, ihInner, ihRest]
  | @directive _ _ _ _ _ _ _ directive _ _ _ _ _ hframe _ _ _ ihRest =>
    have hscope : directive.nodeKind.isScope = true := by cases directive <;> rfl
    subst hframe
    rw [List.filter_cons_of_pos (by exact hscope), List.map_cons, List.map_cons, ihRest]
    rfl
  | component _ _ _ hframe _ _ _ ihRest =>
    subst hframe
    rw [List.filter_cons_of_pos (by rfl), List.map_cons, List.map_cons, ihRest]
    rfl

/-- Every mounted scope has a frame that can be mounted at its anchor. -/
theorem mounts {c : Scope} (hc : c ∈ e.children) :
    ∃ n, c.anchor = some n ∧ c.frame.Mounts lib n c.view := by
  induction h with
  | nil => cases hc
  | leaf _ _ ih => exact ih hc
  | element _ _ ihInner ihRest => exact (List.mem_append.1 hc).elim ihInner ihRest
  | directive hframe _ _ _ ihRest =>
    rcases List.mem_cons.1 hc with rfl | hc
    · subst hframe
      exact ⟨_, rfl, .directive _ _⟩
    · exact ihRest hc
  | component hfind hmeta _ hframe _ _ _ ihRest =>
    rcases List.mem_cons.1 hc with rfl | hc
    · subst hframe
      exact ⟨_, rfl, .component _ hfind hmeta⟩
    · exact ihRest hc

end Laid

/-! ### What a tree saves -/

theorem Scope.mem_placed (root : Scope) : ⟨root, [root.frame]⟩ ∈ root.placed :=
  Scope.mem_placedIn.2 (.inl rfl)

/-- What holds of the first scope of a tree and passes from each scope to those mounted in it holds
of all scopes. -/
theorem Scope.forall_placed {root : Scope} {P : Placed → Prop} (hroot : P ⟨root, [root.frame]⟩)
    (hchild : ∀ p ∈ root.placed, P p → ∀ c ∈ p.scope.children, P (p.child c)) :
    ∀ p ∈ root.placed, P p := by
  intro p hp
  induction hlength : p.frames.length generalizing p with
  | zero =>
    rw [Placed.frames_eq hp] at hlength
    cases hlength
  | succ n ih =>
    rcases Placed.eq_or_exists_parent hp with rfl | ⟨q, hq, c, hc, rfl⟩
    · exact hroot
    · exact hchild q hq (ih q hq (Nat.succ.inj hlength)) c hc

/-- The root is around every scope. -/
theorem Scope.getLast?_frames {root : Scope} {p : Placed} (hp : p ∈ root.placed) :
    p.frames.getLast? = some root.frame := by
  refine Scope.forall_placed (P := fun p => p.frames.getLast? = some root.frame) rfl ?_ p hp
  intro p hp hlast c hc
  change (c.frame :: p.frames).getLast? = some root.frame
  rw [List.getLast?_cons, hlast]
  rfl

theorem Scope.frame_mem_of_suffix {root : Scope} {p : Placed} (hp : p ∈ root.placed) {f : Frame}
    {fs : Frames} (hs : (f :: fs) <:+ p.frames) : root.frame ∈ f :: fs := by
  obtain ⟨inner, hinner⟩ := hs
  have hlast := Scope.getLast?_frames hp
  rw [← hinner, List.getLast?_append_of_ne_nil _ (List.cons_ne_nil _ _)] at hlast
  exact List.mem_of_getLast? hlast

/-- Within a component there is a boundary. -/
theorem Frames.exists_boundary? {fs : Frames} {f : Frame} (hf : f ∈ fs)
    (hkind : f.kind = .component) : ∃ g rest, fs.boundary? = some (g :: rest) := by
  induction fs with
  | nil => cases hf
  | cons g outer ih =>
    rw [boundary?]
    split
    · exact ⟨g, outer, rfl⟩
    · rename_i hne
      rcases List.mem_cons.1 hf with rfl | hf
      · exact (hne hkind).elim
      · exact ih hf

section Laid

variable {lib : Library} {firstId nextId : Nat} {root : Definition} {scope : Scope}
  (h : Scope.ofDefinition lib firstId (some root) = .ok (scope, nextId))
include h

/-- The saved nodes of a scope are those of its view. -/
theorem Placed.map_node_saved {p : Placed} (hp : p ∈ scope.placed) :
    p.scope.saved.map Slot.node = savedNodes p.scope.view := by
  obtain ⟨entered, owner, next, hlaid⟩ := ((Scope.laidOut_of_ofDefinition h).isLaid p hp).content
  exact hlaid.map_node_saved

/-- A scope is mounted at a saved node of the scope around it. -/
theorem Placed.exists_anchor {p : Placed} (hp : p ∈ scope.placed) {c : Scope}
    (hc : c ∈ p.scope.children) :
    ∃ s ∈ p.scope.saved, s.mounted = some c.frame.id ∧ c.anchor = some s.node ∧
      c.frame.Mounts lib s.node c.view := by
  obtain ⟨entered, owner, next, hlaid⟩ := ((Scope.laidOut_of_ofDefinition h).isLaid p hp).content
  obtain ⟨n, hanchor, hmounts⟩ := hlaid.mounts hc
  have hpair : (c.anchor, some c.frame.id) ∈
      (p.scope.saved.filter (·.node.kind.isScope)).map fun s => (some s.node, s.mounted) := by
    rw [← hlaid.map_anchor_children]
    exact List.mem_map.2 ⟨c, hc, rfl⟩
  obtain ⟨s, hs, heq⟩ := List.mem_map.1 hpair
  obtain ⟨hnode, hmounted⟩ := Prod.mk.inj heq
  obtain rfl := Option.some.inj (hnode.trans hanchor)
  exact ⟨s, (List.mem_filter.1 hs).1, hmounted, hanchor, hmounts⟩

/-- At every saved node at which a scope can be mounted, one is. -/
theorem Placed.exists_child {p : Placed} (hp : p ∈ scope.placed) {s : Slot}
    (hs : s ∈ p.scope.saved) (hscope : s.node.kind.isScope = true) :
    ∃ c ∈ p.scope.children, s.mounted = some c.frame.id ∧ c.anchor = some s.node ∧
      c.frame.Mounts lib s.node c.view := by
  obtain ⟨entered, owner, next, hlaid⟩ := ((Scope.laidOut_of_ofDefinition h).isLaid p hp).content
  have hpair : (some s.node, s.mounted) ∈
      p.scope.children.map fun c => (c.anchor, some c.frame.id) := by
    rw [hlaid.map_anchor_children]
    exact List.mem_map.2 ⟨s, List.mem_filter.2 ⟨hs, hscope⟩, rfl⟩
  obtain ⟨c, hc, heq⟩ := List.mem_map.1 hpair
  obtain ⟨hanchor, hmounted⟩ := Prod.mk.inj heq
  obtain ⟨n, hn, hmounts⟩ := hlaid.mounts hc
  obtain rfl := Option.some.inj (hn.symm.trans hanchor)
  exact ⟨c, hc, hmounted.symm, hanchor, hmounts⟩

/-- The view of a scope stands in its frames. -/
private theorem Placed.stands_of_mem_view {p : Placed} (hp : p ∈ scope.placed) :
    ∀ n ∈ p.scope.view, Stands lib root p.frames n := by
  refine Scope.forall_placed (P := fun p => ∀ n ∈ p.scope.view, Stands lib root p.frames n)
    ?_ ?_ p hp
  · obtain ⟨d, m, content, hd, hmeta, -, rfl⟩ := Scope.exists_laid_of_ofDefinition h
    obtain rfl := Option.some.inj hd
    exact fun n hn => .root firstId hmeta hn
  · intro p hp hview c hc n hn
    obtain ⟨s, hs, -, -, hmounts⟩ := Placed.exists_anchor h hp hc
    have hsaved : s.node ∈ savedNodes p.scope.view := by
      rw [← Placed.map_node_saved h hp]
      exact List.mem_map_of_mem hs
    exact .mounted (forall_savedNodes hview (fun _ _ _ _ he _ => he.element) _ hsaved) hmounts hn

/-- What a scope saves stands in its frames. -/
theorem Placed.stands_of_mem_saved {p : Placed} (hp : p ∈ scope.placed) {s : Slot}
    (hs : s ∈ p.scope.saved) : Stands lib root p.frames s.node := by
  refine forall_savedNodes (Placed.stands_of_mem_view h hp) (fun _ _ _ _ he _ => he.element) _ ?_
  rw [← Placed.map_node_saved h hp]
  exact List.mem_map_of_mem hs

/-- Whatever stands somewhere is saved there, up to the numbers and names of the frames. -/
theorem Scope.exists_saved_of_stands {fs : Frames} {n : Node} (hn : Stands lib root fs n) :
    ∃ p ∈ scope.placed, p.frames.map Frame.role = fs.map Frame.role ∧
      ∃ s ∈ p.scope.saved, s.node = n := by
  -- A node that is part of the view of a scope, or of an element it saves, is saved by it.
  have hsaved :
      ∀ p ∈ scope.placed, ∀ n ∈ savedNodes p.scope.view, ∃ s ∈ p.scope.saved, s.node = n := by
    intro p hp n hn
    rw [← Placed.map_node_saved h hp] at hn
    exact List.mem_map.1 hn
  induction hn with
  | root id hmeta hn =>
    have hroot := scope.mem_placed
    obtain ⟨d, m, content, hd, hmeta', -, rfl⟩ := Scope.exists_laid_of_ofDefinition h
    obtain rfl := Option.some.inj hd
    obtain rfl := Option.some.inj (hmeta.symm.trans hmeta')
    exact ⟨_, hroot, rfl, hsaved _ hroot _ (subset_savedNodes _ hn)⟩
  | element _ hn ih =>
    obtain ⟨p, hp, hroles, s, hs, hnode⟩ := ih
    have helement : s.node ∈ savedNodes p.scope.view := by
      rw [← Placed.map_node_saved h hp]
      exact List.mem_map_of_mem hs
    rw [hnode] at helement
    exact ⟨p, hp, hroles, hsaved p hp _ (subset_savedNodes_of_element helement hn)⟩
  | mounted _ hf hn ih =>
    obtain ⟨p, hp, hroles, s, hs, rfl⟩ := ih
    obtain ⟨c, hc, -, -, hmounts⟩ := Placed.exists_child h hp hs hf.isScope
    obtain ⟨hrole, rfl⟩ := hf.role_eq hmounts
    have hchild := Placed.child_mem hp hc
    refine ⟨_, hchild, ?_, hsaved _ hchild _ (subset_savedNodes _ hn)⟩
    rw [List.map_cons, ← hroles, hrole]
    rfl

end Laid

end ViewCompiler
