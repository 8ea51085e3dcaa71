import Mathlib.Data.List.Chain
import ViewCompiler.Proofs.Compile.Lexical
import ViewCompiler.Proofs.Program.Projection

/-!
# Programs are closed

A program refers to its scopes by number, to their nodes by index and to definitions by the numbers
on the way there. Numbers are handed out while the tree is expanded, indexes while a view is saved,
changes are found out value by value, and style sheets are numbered last. `Program.IsClosed` states
what an emitter relies on, in terms of the program alone: whatever is referred to is there. Every
program that is projected from a compilation is closed (`Program.exists_project_isClosed`).

The statement is a structure with one field for each kind of reference, so that every one of them
can be read on its own: the numbers of scopes and of style sheets, the parent and the anchor of a
scope, the indexes of saved nodes, the updates of nodes and of children, and the operands of values
(`Operand.IsResolved`). An operand names its definition by the numbers of the scopes on the way to
it, and that way has to start at the scope itself and go from parent to parent.

The proof is about the scopes of the built tree, which the scopes of the program are made of one by
one (`scopeOf`). What is known of them comes from the modules on trees: their numbers ascend, their
nodes are numbered, a name resolves to a frame around the scope, and a child is mounted at the node
that holds its number. Updates come from the change maps, which were shown to speak only of saved
nodes and of children.

The sample is a page with a style sheet and a child that shows one of two inputs, with every part of
its program written out.
-/

namespace ViewCompiler

open ViewCompiler.Template

namespace Program

/-! ### Closed programs -/

/-- Nodes that are numbered one after the other, from the first index up to the next free one. -/
def Numbered : Int → List Node → Int → Prop
  | index, [], next => index = next
  | index, n :: ns, next => n.index = index ∧ Numbered (index + n.slots) ns next

/-- The scope with the first number is mounted in the one with the second number. -/
def ParentLink (ss : List Scope) (a b : Int) : Prop := ∃ s ∈ ss, s.id = a ∧ s.parent = some b

mutual

/-- A value without its arguments, and the same of all its arguments. -/
def Value.operands : Value → List Operand
  | ⟨operand, arguments⟩ => operand :: operandsAll arguments

/-- The operands of several values. -/
def operandsAll : List Value → List Operand
  | [] => []
  | v :: vs => v.operands ++ operandsAll vs

end

/-- What the operand refers to can be reached from the scope with the given number: the access
starts there, follows the parents, and ends at the definition. Only paths and calls refer to
anything. -/
def Operand.IsResolved (ss : List Scope) (start : Int) (o : Operand) : Prop :=
  match o.definition with
  | some d =>
    o.access.head? = some start ∧ o.access.getLast? = some d ∧ o.access.IsChain (ParentLink ss)
  | none => o.access = [] ∧ o.kind ≠ "property" ∧ o.kind ≠ "call"

/-- A scope is mounted in another one, at a node of its own kind. -/
structure Scope.IsMountedIn (s q : Scope) : Prop where
  parent : s.parent = some q.id
  lt : q.id < s.id
  listed : q.children.count s.id = 1
  anchor : ∃ n ∈ q.nodes, n.index = s.anchor ∧ n.kind = s.kind

/-- Everything that a scope refers to is there, among the scopes of the program. -/
structure Scope.IsClosed (ss : List Scope) (s : Scope) : Prop where
  kind : s.kind ∈ ["component", "conditional", "repeating"]
  parent_iff : s.parent = none ↔ s.id = 0
  anchor_iff : s.anchor = -1 ↔ s.id = 0
  mounted : s.id ≠ 0 → ∃ q ∈ ss, s.IsMountedIn q
  children : ∀ id ∈ s.children, ∃ q ∈ ss, q.id = id ∧ q.parent = some s.id
  numbered : Numbered 0 s.nodes s.slots
  own : ∀ n ∈ s.nodes, ∀ b ∈ n.bindings, ∀ o ∈ b.value.operands, o.IsResolved ss s.id
  fed : ∀ b ∈ s.selfBindings, ∃ parent, s.parent = some parent ∧
    ∀ o ∈ b.value.operands, o.IsResolved ss parent
  nodeUpdates : ∀ u ∈ s.nodeUpdates, ∃ n ∈ s.nodes, n.index = u.index
  childUpdates : ∀ u ∈ s.childUpdates, u.child ∈ s.children
  actions : s.actions =
    s.nodeUpdates.map (fun u =>
      { kind := "update_node", index := some u.index, values := u.values }) ++
    s.childUpdates.map fun u =>
      { kind := "update_child", child := some u.child
        values := u.triggers.map fun ts => ts.map (·.value) }

/-- A program with the given scopes in which everything that is referred to is there. -/
structure IsClosed (p : Program) (ss : List Scope) : Prop where
  scopes : p.scopes = some ss
  ne_nil : ss ≠ []
  ids : ss.map (·.id) = (List.range ss.length).map Int.ofNat
  closed : ∀ s ∈ ss, s.IsClosed ss
  styles : ∃ ids : List Int, p.styles.map (·.attributeName) = ids.map (fun id => s!"data-w-{id}") ∧
    ids.Nodup ∧ ∀ id ∈ ids, ∀ s ∈ ss, s.id < id

/-! ### Nodes -/

theorem Numbered.append {index mid next : Int} {ns ms : List Node} (h : Numbered index ns mid)
    (h' : Numbered mid ms next) : Numbered index (ns ++ ms) next := by
  induction ns generalizing index with
  | nil =>
    obtain rfl : index = mid := h
    exact h'
  | cons n ns ih => exact ⟨h.1, ih h.2⟩

/-- The saved nodes of a layout are numbered one after the other. -/
private theorem numbered_of_laid {lib : Library} {entered : List String} {owner : String}
    {index id : Nat}
    {nodes : List Template.Node} {e : Expansion} (h : Laid lib entered owner index id nodes e)
    (fs : Frames) : Numbered index (e.saved.map (ofSlot fs)) e.nextIndex := by
  induction h with
  | nil => exact rfl
  | leaf _ _ ih => exact ⟨rfl, ih⟩
  | element _ _ ihInner ihRest =>
    rw [List.map_cons, List.map_append]
    exact ⟨rfl, ihInner.append ihRest⟩
  | directive _ _ _ _ ihRest => exact ⟨rfl, ihRest⟩
  | component _ _ _ _ _ _ _ ihRest => exact ⟨rfl, ihRest⟩

end Program

/-- Where something is mounted, the node can have something mounted at it. -/
private theorem Laid.isScope_of_mounted {lib : Library} {entered : List String} {owner : String}
    {index id : Nat} {nodes : List Node} {e : Expansion}
    (h : Laid lib entered owner index id nodes e)
    {s : Slot} (hs : s ∈ e.saved) (hmounted : s.mounted ≠ none) : s.node.kind.isScope = true := by
  induction h with
  | nil => cases hs
  | leaf _ _ ih =>
    rcases List.mem_cons.1 hs with rfl | hs
    · exact (hmounted rfl).elim
    · exact ih hs
  | element _ _ ihInner ihRest =>
    rcases List.mem_cons.1 hs with rfl | hs
    · exact (hmounted rfl).elim
    · exact (List.mem_append.1 hs).elim ihInner ihRest
  | @directive _ _ _ _ _ _ _ directive _ _ _ _ _ _ _ _ _ ihRest =>
    rcases List.mem_cons.1 hs with rfl | hs
    · cases directive with
      | conditional => rfl
      | repeating => rfl
    · exact ihRest hs
  | component _ _ _ _ _ _ _ ihRest =>
    rcases List.mem_cons.1 hs with rfl | hs
    · rfl
    · exact ihRest hs

/-- What is mounted at a node is of its kind. -/
private theorem Frame.Mounts.kind_name {lib : Library} {f : Frame} {n : Node} {view : List Node}
    (h : f.Mounts lib n view) : n.kind.name = f.kind.name := by
  cases h with
  | @directive _ _ _ _ _ directive =>
    cases directive with
    | conditional => rfl
    | repeating => rfl
  | component => rfl

/-! ### Paths -/

/-- A path starts where it is looked for and ends with the number that is looked for. -/
private theorem Frames.ends_of_pathTo? {id : Nat} {fs path : Frames}
    (h : pathTo? id fs = some path) :
    path.head? = fs.head? ∧ path.getLast?.map Frame.id = some id := by
  induction fs generalizing path with
  | nil => cases h
  | cons f outer ih =>
    rw [pathTo?] at h
    split at h
    · rename_i hid
      obtain rfl := Option.some.inj h
      exact ⟨rfl, congrArg some hid⟩
    · obtain ⟨path', hpath, rfl⟩ := Option.map_eq_some_iff.1 h
      obtain ⟨last, hlast, hid⟩ := Option.map_eq_some_iff.1 (ih hpath).2
      refine ⟨rfl, ?_⟩
      rw [List.getLast?_cons, hlast]
      exact congrArg some hid

/-- The frames around a scope lead from each scope to the one that mounts it. -/
private theorem isChain_frames {root : Scope} {p : Placed} (hp : p ∈ root.placed) :
    p.frames.IsChain fun f g => ∃ q ∈ root.placed, q.id = f.id ∧ q.parent? = some g := by
  suffices ∀ fs, fs <:+ p.frames → fs.IsChain fun f g =>
      ∃ q ∈ root.placed, q.id = f.id ∧ q.parent? = some g from this _ (List.suffix_refl _)
  intro fs
  induction fs with
  | nil => exact fun _ => .nil
  | cons f outer ih =>
    intro hs
    cases outer with
    | nil => exact .singleton f
    | cons g outer =>
      obtain ⟨q, hq, hframes⟩ := exists_placed_of_suffix hp hs
      have hcons := hframes.symm.trans (Placed.frames_eq hq)
      obtain ⟨hf, houter⟩ := List.cons.inj hcons
      refine List.isChain_cons_cons.2 ⟨⟨q, hq, congrArg Frame.id hf.symm, ?_⟩, ?_⟩
      · rw [Placed.parent?, ← houter]
        rfl
      · exact ih ((List.suffix_cons f _).trans hs)

/-! ### The scopes of a program -/

namespace Program

/-- The scope that mounts a scope of a compilation. -/
def parentOf (c : Compilation) (p : Placed) : Option Placed :=
  p.parent?.bind fun f => c.tree.scopes.find? (·.id = f.id)

/-- A scope of a compilation as the program has it. -/
def scopeOf (c : Compilation) (p : Placed) : Scope :=
  ofPlaced (c.changes.of p.id) (parentOf c p) p

/-- The scopes of a compilation as the program has them. -/
def scopesOf (c : Compilation) : List Scope := c.tree.scopes.map (scopeOf c)

variable {c : Compilation} {p : Placed}

private theorem parent_scopeOf (p : Placed) :
    (scopeOf c p).parent = p.parent?.map fun f => (f.id : Int) := rfl

private theorem parentLink_scopesOf (hp : p ∈ c.tree.scopes) {f : Frame}
    (hparent : p.parent? = some f) :
    ParentLink (scopesOf c) p.id f.id := by
  refine ⟨scopeOf c p, List.mem_map_of_mem hp, rfl, ?_⟩
  rw [parent_scopeOf, hparent]
  rfl

/-! ### What values refer to -/

private theorem operandsAll_map_ofArgument (fs : Frames) (arguments : List Argument) :
    operandsAll (arguments.map fun a => ⟨ofArgument fs a, []⟩) = arguments.map (ofArgument fs) := by
  induction arguments with
  | nil => rfl
  | cons a arguments ih =>
    rw [List.map_cons, operandsAll, ih]
    rfl

/-- What is no path and no call refers to nothing. -/
theorem Operand.isResolved_of_kind {ss : List Scope} {start : Int} (kind : String)
    (hplain : kind ≠ "property" ∧ kind ≠ "call") {o : Operand} (hkind : o.kind = kind)
    (hdefinition : o.definition = none) (haccess : o.access = []) : o.IsResolved ss start := by
  rw [Operand.IsResolved, hdefinition, hkind]
  exact ⟨haccess, hplain⟩

section Resolved

variable {f : Frame} {outer : Frames} (hp : p ∈ c.tree.scopes) (hfs : (f :: outer) <:+ p.frames)
include hp hfs

/-- A name that is declared around a place is reached from there. -/
theorem isResolved_refer {name : String} {origin : Frames.Origin}
    (h : Frames.resolve? (f :: outer) name = some origin) (o : Operand) :
    (o.refer (f :: outer) (Frames.reference? (f :: outer) name)).IsResolved (scopesOf c) f.id := by
  have hmem : origin.frame ∈ f :: outer := (Frames.suffix_of_resolve? h).subset List.mem_cons_self
  obtain ⟨path, hpath⟩ := Frames.exists_pathTo? hmem
  obtain ⟨hhead, hlast⟩ := Frames.ends_of_pathTo? hpath
  obtain ⟨rest, hrest⟩ := Frames.prefix_of_pathTo? hpath
  have hchain := (isChain_frames hp).suffix hfs
  rw [← hrest] at hchain
  simp only [Operand.refer, Frames.reference?, h, Option.map_some, Operand.IsResolved,
    Frames.accessTo, hpath, Option.getD_some]
  refine ⟨?_, ?_, ?_⟩
  · rw [List.head?_map, List.head?_map, hhead]
    rfl
  · rw [List.getLast?_map, List.getLast?_map, hlast]
    rfl
  · rw [List.isChain_map, List.isChain_map]
    refine hchain.left_of_append.imp fun a b hlink => ?_
    obtain ⟨q, hq, hid, hparent⟩ := hlink
    rw [← hid]
    exact parentLink_scopesOf hq hparent

private theorem isResolved_ofArgument {a : Argument} (ha : Frames.AdmitsArgument (f :: outer) a) :
    (ofArgument (f :: outer) a).IsResolved (scopesOf c) f.id := by
  cases a with
  | literal => exact Operand.isResolved_of_kind "literal" (by decide) rfl rfl rfl
  | payload => exact Operand.isResolved_of_kind "placeholder" (by decide) rfl rfl rfl
  | access path =>
    obtain ⟨origin, horigin, -⟩ := ha
    exact isResolved_refer hp hfs horigin _

/-- Everything in a value that is admitted at a place is reached from there. -/
theorem isResolved_ofValue {v : Template.Value} (hv : Frames.Admits (f :: outer) v) :
    ∀ o ∈ (ofValue (f :: outer) v).operands, o.IsResolved (scopesOf c) f.id := by
  intro o ho
  cases v with
  | text =>
    obtain rfl := List.mem_singleton.1 ho
    exact Operand.isResolved_of_kind "constant" (by decide) rfl rfl rfl
  | literal =>
    obtain rfl := List.mem_singleton.1 ho
    exact Operand.isResolved_of_kind "literal" (by decide) rfl rfl rfl
  | access path =>
    obtain rfl := List.mem_singleton.1 ho
    obtain ⟨origin, horigin, -⟩ := hv
    exact isResolved_refer hp hfs horigin _
  | call method arguments =>
    obtain ⟨⟨origin, horigin, -⟩, harguments⟩ := hv
    rw [ofValue, Value.operands, operandsAll_map_ofArgument] at ho
    rcases List.mem_cons.1 ho with rfl | ho
    · exact isResolved_refer hp hfs horigin _
    · obtain ⟨a, ha, rfl⟩ := List.mem_map.1 ho
      exact isResolved_ofArgument hp hfs (harguments a ha)

end Resolved

/-! ### Scopes of a built tree -/

section Built

variable {lib : Library} {d : Option Definition} (h : Tree.build lib 0 d = .ok c.tree)
include h

/-- A scope is the root, which has number zero, or it is mounted in another one. -/
theorem root_or_child (hp : p ∈ c.tree.scopes) :
    (p.id = 0 ∧ p.parent? = none ∧ p.frame.feeds = []) ∨
      ∃ q ∈ c.tree.scopes, ∃ k ∈ q.scope.children, p = q.child k ∧ q.id < p.id := by
  rcases Placed.eq_or_exists_parent hp with rfl | ⟨q, hq, k, hk, rfl⟩
  · obtain ⟨d, m, content, -, -, -, hroot⟩ :=
      Scope.exists_laid_of_ofDefinition (Tree.build_eq_ok_iff.1 h).1
    refine .inl ⟨?_, rfl, ?_⟩
    · rw [Placed.id, Placed.frame, hroot]
      rfl
    · rw [Placed.frame, hroot]
      rfl
  · have hids := ((Tree.laidOut h).isLaid q hq).ids_children
    exact .inr ⟨q, hq, k, hk, rfl, hids.2 k hk⟩

/-- A mounted scope is found at a saved node of its parent, which is of its kind. -/
theorem exists_anchor_scopeOf {q : Placed} (hq : q ∈ c.tree.scopes) {k : ViewCompiler.Scope}
    (hk : k ∈ q.scope.children) :
    ∃ s ∈ q.scope.saved, (scopeOf c (q.child k)).anchor = s.index ∧
      s.node.kind.name = k.frame.kind.name := by
  obtain ⟨hlaid, -⟩ := Tree.build_eq_ok_iff.1 h
  obtain ⟨root, -, -, rfl, -⟩ := Scope.exists_laid_of_ofDefinition hlaid
  obtain ⟨s, hs, hmounted, -⟩ := Placed.exists_anchor hlaid hq hk
  obtain ⟨found, hmem, hfound, hfoundMounted⟩ := exists_find?_of_mem hs
    (P := fun s : Slot => s.mounted = some (q.child k).id) (decide_eq_true hmounted)
  have hfoundMounted := of_decide_eq_true hfoundMounted
  have hparent : parentOf c (q.child k) = some q := by
    have hhead : (q.child k).parent? = some q.frame := by
      change q.frames.head? = some q.frame
      rw [Placed.frames_eq hq]
      rfl
    rw [parentOf, hhead]
    exact Tree.find?_scopes h hq
  refine ⟨found, hmem, ?_, ?_⟩
  · change anchorOf (parentOf c (q.child k)) (q.child k) = found.index
    simp only [anchorOf, hparent, Option.bind_some, hfound]
  · -- The node that is found is the anchor of a child with the same number, which is the child
    -- itself.
    obtain ⟨entered, owner, nextId, hcontent⟩ := ((Tree.laidOut h).isLaid q hq).content
    have hscope :=
      hcontent.isScope_of_mounted hmem (by rw [hfoundMounted]; exact Option.some_ne_none _)
    obtain ⟨k', hk', hid, -, hmounts⟩ := Placed.exists_child hlaid hq hmem hscope
    have hsame : q.child k' = q.child k :=
      (Tree.laidOut h).eq_of_id_eq (Placed.child_mem hq hk') (Placed.child_mem hq hk)
        (Option.some.inj (hid.symm.trans hfoundMounted))
    have hframe : k'.frame = k.frame := congrArg Placed.frame hsame
    rw [hmounts.kind_name, hframe]

/-- A mounted scope is listed by its parent, and mounted there at a node of its kind. -/
theorem isMountedIn_scopeOf {q : Placed} (hq : q ∈ c.tree.scopes) {k : ViewCompiler.Scope}
    (hk : k ∈ q.scope.children) : (scopeOf c (q.child k)).IsMountedIn (scopeOf c q) := by
  obtain ⟨hnodup, hlt⟩ := ((Tree.laidOut h).isLaid q hq).ids_children
  obtain ⟨s, hs, hanchor, hkind⟩ := exists_anchor_scopeOf h hq hk
  refine ⟨?_, ?_, ?_, ⟨ofSlot q.frames s, List.mem_map_of_mem hs, hanchor.symm, hkind⟩⟩
  · rw [parent_scopeOf]
    change (q.frames.head?).map _ = _
    rw [Placed.frames_eq hq]
    rfl
  · exact Int.ofNat_lt.2 (hlt k hk)
  · have hinjective : Function.Injective Int.ofNat := fun a b hab => Int.ofNat.inj hab
    change ((q.scope.children.map (·.frame.id)).map Int.ofNat).count (Int.ofNat k.frame.id) = 1
    refine List.count_eq_one_of_mem (hnodup.map hinjective) ?_
    exact List.mem_map_of_mem (List.mem_map_of_mem hk)

/-- The root is the only scope without a parent and without an anchor. -/
theorem scopeOf_eq_none_iff (hp : p ∈ c.tree.scopes) :
    ((scopeOf c p).parent = none ↔ (scopeOf c p).id = 0) ∧
      ((scopeOf c p).anchor = -1 ↔ (scopeOf c p).id = 0) := by
  rcases root_or_child h hp with ⟨hid, hparent, -⟩ | ⟨q, hq, k, hk, rfl, hlt⟩
  · have hzero : (scopeOf c p).id = 0 := congrArg Int.ofNat hid
    have hanchor : (scopeOf c p).anchor = -1 := by
      change anchorOf (parentOf c p) p = -1
      rw [parentOf, hparent]
      rfl
    refine ⟨iff_of_true ?_ hzero, iff_of_true hanchor hzero⟩
    rw [parent_scopeOf, hparent]
    rfl
  · have hmounted := isMountedIn_scopeOf h hq hk
    obtain ⟨s, -, hanchor, -⟩ := exists_anchor_scopeOf h hq hk
    have hpositive : (scopeOf c (q.child k)).id ≠ 0 := by
      change ((q.child k).id : Int) ≠ 0
      omega
    refine ⟨iff_of_false ?_ hpositive, iff_of_false ?_ hpositive⟩
    · rw [hmounted.parent]
      exact Option.some_ne_none _
    · rw [hanchor]
      omega

/-- What a scope reads is reached from the scope, and what feeds it from its parent. -/
private theorem isResolved_scopeOf (hp : p ∈ c.tree.scopes) :
    (∀ n ∈ (scopeOf c p).nodes, ∀ b ∈ n.bindings, ∀ o ∈ b.value.operands,
      o.IsResolved (scopesOf c) (scopeOf c p).id) ∧
    ∀ b ∈ (scopeOf c p).selfBindings, ∃ parent, (scopeOf c p).parent = some parent ∧
      ∀ o ∈ b.value.operands, o.IsResolved (scopesOf c) parent := by
  have hcons := Placed.frames_eq hp
  constructor
  · intro n hn bound hbound
    obtain ⟨s, hs, rfl⟩ := List.mem_map.1 hn
    obtain ⟨b, hb, rfl⟩ := List.mem_map.1 hbound
    have hown : b ∈ p.bindings := List.mem_append_left _ (List.mem_flatMap.2 ⟨s, hs, hb⟩)
    have hadmits := (Tree.admits h hp hown).2
    rw [Placed.readingFrames, if_neg (by simpa using (List.mem_filter.1 hb).2)] at hadmits
    rw [hcons] at hadmits
    rw [hcons]
    exact isResolved_ofValue hp (hcons ▸ List.suffix_refl _) hadmits
  · intro bound hbound
    obtain ⟨b, hb, rfl⟩ := List.mem_map.1 hbound
    rcases root_or_child h hp with ⟨-, -, hfeeds⟩ | ⟨q, hq, k, hk, rfl, -⟩
    · rw [hfeeds] at hb
      cases hb
    · have hadmits := (Tree.admits h hp (List.mem_append_right _ hb)).2
      have hself := ((Tree.laidOut h).isLaid _ hp).fed.isSelf b hb
      rw [Placed.readingFrames, if_pos hself] at hadmits
      have houter : (q.child k).outer = q.frame :: q.outer := Placed.frames_eq hq
      rw [houter] at hadmits
      rw [houter]
      refine ⟨q.id, (isMountedIn_scopeOf h hq hk).parent, ?_⟩
      exact isResolved_ofValue hp (houter ▸ List.tail_suffix _) hadmits

/-- Only saved nodes and mounted scopes are updated, and the update routine does just that. -/
private theorem updates_scopeOf (hchanges : c.tree.changes = .ok c.changes)
    (hp : p ∈ c.tree.scopes) :
    (∀ u ∈ (scopeOf c p).nodeUpdates, ∃ n ∈ (scopeOf c p).nodes, n.index = u.index) ∧
    ∀ u ∈ (scopeOf c p).childUpdates, u.child ∈ (scopeOf c p).children := by
  obtain ⟨ms, hms, hmaps⟩ := Tree.changes_eq_ok h
  obtain rfl := Except.ok.inj (hchanges.symm.trans hms)
  constructor
  · intro update hupdate
    obtain ⟨u, hu, rfl⟩ := List.mem_map.1 hupdate
    obtain ⟨i, hi, rfl⟩ := List.mem_map.1 hu
    have hwritten := (ChangeMap.mem_indexes_iff _).1 hi
    obtain ⟨s, hs, hindex⟩ := (hmaps p hp).written_saved i hwritten
    exact ⟨ofSlot p.frames s, List.mem_map_of_mem hs, congrArg Int.ofNat hindex⟩
  · intro update hupdate
    obtain ⟨u, hu, rfl⟩ := List.mem_map.1 hupdate
    obtain ⟨id, hid, hsome⟩ := List.mem_filterMap.1 hu
    have hchild : u.child = id := by
      dsimp only at hsome
      split at hsome
      · cases hsome
      · obtain rfl := Option.some.inj hsome
        rfl
    exact List.mem_map.2 ⟨id, hid, congrArg Int.ofNat hchild.symm⟩

omit h in
private theorem actions_scopeOf (p : Placed) : (scopeOf c p).actions =
    (scopeOf c p).nodeUpdates.map (fun u =>
      { kind := "update_node", index := some u.index, values := u.values }) ++
    (scopeOf c p).childUpdates.map fun u =>
      { kind := "update_child", child := some u.child
        values := u.triggers.map fun ts => ts.map (·.value) } := by
  change (ChangeMap.actions _ _).map ofAction = (List.map _ _).map _ ++ (List.map _ _).map _
  rw [ChangeMap.actions, List.map_append, List.map_map, List.map_map, List.map_map, List.map_map]
  congr 1
  refine List.map_congr_left fun u _ => ?_
  simp only [Function.comp_apply, ofAction, texts, List.map_map, Option.map_some]
  rfl

/-- Every scope of the program of a built tree is closed. -/
private theorem isClosed_scopeOf (hchanges : c.tree.changes = .ok c.changes)
    (hp : p ∈ c.tree.scopes) :
    (scopeOf c p).IsClosed (scopesOf c) := by
  obtain ⟨hparent, hanchor⟩ := scopeOf_eq_none_iff h hp
  obtain ⟨hown, hfed⟩ := isResolved_scopeOf h hp
  obtain ⟨hnodes, hchildren⟩ := updates_scopeOf h hchanges hp
  refine ⟨?_, hparent, hanchor, ?_, ?_, ?_, hown, hfed, hnodes, hchildren, actions_scopeOf p⟩
  · change p.frame.kind.name ∈ _
    cases p.frame.kind with
    | component => decide
    | conditional => decide
    | repeating => decide
  · intro hne
    rcases root_or_child h hp with ⟨hid, -⟩ | ⟨q, hq, k, hk, rfl, -⟩
    · exact (hne (congrArg Int.ofNat hid)).elim
    · exact ⟨scopeOf c q, List.mem_map_of_mem hq, isMountedIn_scopeOf h hq hk⟩
  · intro id hid
    obtain ⟨n, hn, rfl⟩ := List.mem_map.1 hid
    obtain ⟨k, hk, rfl⟩ := List.mem_map.1 hn
    exact ⟨scopeOf c (p.child k), List.mem_map_of_mem (Placed.child_mem hp hk), rfl,
      (isMountedIn_scopeOf h hp hk).parent⟩
  · obtain ⟨entered, owner, nextId, hcontent⟩ := ((Tree.laidOut h).isLaid p hp).content
    exact numbered_of_laid hcontent p.frames

/-- The scopes of the program of a built tree are numbered from zero up to the next free number. -/
private theorem ids_scopesOf :
    (scopesOf c).map (·.id) = (List.range (scopesOf c).length).map Int.ofNat ∧
    (scopesOf c).length = c.tree.nextId ∧ scopesOf c ≠ [] := by
  obtain ⟨hpos, hids⟩ := Scope.ids_of_ofDefinition (Tree.build_eq_ok_iff.1 h).1
  rw [Nat.sub_zero, ← List.range_eq_range'] at hids
  have hlength : (scopesOf c).length = c.tree.nextId := by
    have hlengths := congrArg List.length hids
    rw [List.length_map, List.length_range] at hlengths
    rw [scopesOf, List.length_map]
    exact hlengths
  refine ⟨?_, hlength, List.ne_nil_of_length_pos (hlength ▸ hpos)⟩
  rw [hlength, ← hids, scopesOf, List.map_map, List.map_map]
  rfl

end Built

/-! ### Style sheets -/

/-- Style sheets are numbered one after the other. -/
private theorem ids_scopedStyles {reg : Registry} {id : Nat} {names : List String}
    {styles : List ScopedStyle} (h : reg.scopedStyles id names = .ok styles) :
    styles.map ScopedStyle.id = List.range' id styles.length := by
  induction names generalizing id styles with
  | nil =>
    obtain rfl : [] = styles := Except.ok.inj h
    rfl
  | cons name names ih =>
    rw [Registry.scopedStyles] at h
    split at h
    · exact ih h
    · split at h
      · exact ih h
      · split at h
        · cases h
        · obtain ⟨rest, hrest, rfl⟩ := map_eq_ok_iff.1 h
          rw [List.map_cons, ih hrest]
          rfl

/-! ### Compiled programs -/

/-- A compilation consists of a tree that was built, its changes, and style sheets with numbers
behind those of the scopes. -/
theorem parts_of_compile {cache : Option ParseCache} {reg : Registry} {root : String}
    {cancelled : Bool} {c : Compilation}
    (h : (compile cache reg root cancelled).outcome = .ok c) :
    (∃ lib d, Tree.build lib 0 d = .ok c.tree) ∧ c.tree.changes = .ok c.changes ∧
      c.styles.map ScopedStyle.id = List.range' c.tree.nextId c.styles.length := by
  cases hroot : reg.lookup? root with
  | none =>
    simp only [compile, hroot] at h
    cases h
  | some component =>
    cases cancelled with
    | true =>
      simp only [compile, hroot, if_true] at h
      cases h
    | false =>
      simp only [compile, hroot, Bool.false_eq_true, if_false] at h
      obtain ⟨-, hlaid⟩ := Registry.of_outcome_concluded_eq_ok h
      obtain ⟨hbuild, hchanges, hstyles⟩ := Registry.of_layOut_eq_ok hlaid
      exact ⟨⟨_, _, hbuild⟩, hchanges, ids_scopedStyles hstyles⟩

/-- The program of every compilation is closed. -/
theorem exists_project_isClosed {cache : Option ParseCache} {reg : Registry} {root : String}
    {cancelled : Bool} {c : Compilation}
    (h : (compile cache reg root cancelled).outcome = .ok c) :
    ∃ p ss, project c = .ok p ∧ p.IsClosed ss := by
  obtain ⟨⟨lib, d, hbuild⟩, hchanges, hstyles⟩ := parts_of_compile h
  obtain ⟨hids, hlength, hne⟩ := ids_scopesOf hbuild
  refine ⟨ofCompilation c, scopesOf c, project_eq hbuild, rfl, hne, hids, ?_, ?_⟩
  · intro s hs
    obtain ⟨p, hp, rfl⟩ := List.mem_map.1 hs
    exact isClosed_scopeOf hbuild hchanges hp
  · refine ⟨(c.styles.map ScopedStyle.id).map Int.ofNat, ?_, ?_, ?_⟩
    · change (c.styles.map _).map _ = _
      rw [List.map_map, List.map_map, List.map_map]
      rfl
    · rw [hstyles]
      have hnodup : (List.range' c.tree.nextId c.styles.length).Nodup := List.nodup_range'
      exact hnodup.map fun a b hab => Int.ofNat.inj hab
    · intro id hid s hs
      obtain ⟨n, hn, rfl⟩ := List.mem_map.1 hid
      rw [hstyles] at hn
      have hnext := (List.mem_range'_1.1 hn).1
      have hnumber : s.id ∈ (scopesOf c).map (·.id) := List.mem_map_of_mem hs
      rw [hids] at hnumber
      obtain ⟨m, hm, hs'⟩ := List.mem_map.1 hnumber
      have hlt := List.mem_range.1 hm
      rw [← hs']
      exact Int.ofNat_lt.2 (by omega)

/-! ### A page with a style sheet -/

namespace StyledPage

/-- The page whose child has two inputs, with a style sheet of its own. -/
def registry : Registry :=
  (({} : Registry).register { HiddenInput.pageComponent with style := "p\x7bx:y\x7d" }).register
    HiddenInput.childComponent

/-- What the page hands on to its child when `n` is assigned. -/
def handsOn : ChangeMap :=
  { passed := [(1, ⟨⟨1, 1, none, "n"⟩, { push := true, forward := true }⟩)] }

/-- The page as it is compiled: two scopes, and the style sheet numbered behind them. -/
def compilation : Compilation where
  root := "App"
  tree := HiddenInput.tree
  changes := ⟨[(0, handsOn), (1, {})]⟩
  styles := [⟨"App", "app", 2, "p[data-w-2]\x7bx:y\x7d"⟩]

/-- The scope of the page, which updates its child. -/
def outer : Scope where
  id := 0
  name := "App"
  kind := "component"
  anchor := noAnchor
  children := [1]
  slots := 1
  nodes := [{ index := 0, kind := "component", name := "C", slots := 1 }]
  childUpdates := [{ child := 1, triggers := some [⟨"n", "push+forward"⟩] }]
  actions := [{ kind := "update_child", child := some 1, values := some ["n"] }]

/-- The scope of the child, at the first node of the page. -/
def inner : Scope where
  id := 1
  name := "C"
  kind := "component"
  parent := some 0
  anchor := 0
  slots := 1
  selfBindings := [⟨"input", "x", .mk ⟨"property", "n", false, "property", some 0, [0]⟩ []⟩,
    ⟨"input", "x", .mk ⟨"literal", "1", true, "", none, []⟩ []⟩]
  nodes := [
    { index := 0, kind := "interpolation", name := "", slots := 1
      bindings :=
        [⟨"interpolation", "", .mk ⟨"property", "x", true, "property", some 1, [1]⟩ []⟩] }]

/-- The program of the page. -/
def program : Program where
  root := "App"
  scopes := some [outer, inner]
  styles := [⟨"App", "app", "data-w-2", "p[data-w-2]\x7bx:y\x7d"⟩]

/-- A style sheet does not matter for the templates. -/
private theorem untilFailure_registry :
    Reading.untilFailure { cache := none } registry.components = HiddenInput.reading := by
  have hcomponents : registry.components =
      [{ HiddenInput.pageComponent with style := "p\x7bx:y\x7d" }, HiddenInput.childComponent] := by
    cbv
  have hpage : Reading.parseTemplate { HiddenInput.pageComponent with style := "p\x7bx:y\x7d" } =
      .ok HiddenInput.page.template := HiddenInput.parseTemplate_pageComponent
  rw [hcomponents]
  simp only [Reading.untilFailure, Reading.step, Reading.lookup, hpage,
    HiddenInput.parseTemplate_childComponent]
  rfl

theorem compile_registry : (compile none registry "App" false).outcome = .ok compilation := by
  have hroot : registry.lookup? "App" =
      some { HiddenInput.pageComponent with style := "p\x7bx:y\x7d" } := by
    cbv
  have hconcluded : (registry.concluded { HiddenInput.pageComponent with style := "p\x7bx:y\x7d" }
      HiddenInput.reading).outcome = .ok compilation := by
    cbv
  unfold compile
  rw [hroot]
  simp only [Bool.false_eq_true, if_false]
  rw [untilFailure_registry]
  exact hconcluded

theorem project_compilation : project compilation = .ok program := by cbv

end StyledPage

/-- The page compiles to a closed program with accesses, an update of the child, an action and a
style sheet. -/
theorem exists_project_isClosed_page :
    (compile none StyledPage.registry "App" false).outcome = .ok StyledPage.compilation ∧
      project StyledPage.compilation = .ok StyledPage.program ∧
      ∃ ss, StyledPage.program.IsClosed ss := by
  obtain ⟨p, ss, hp, hclosed⟩ := exists_project_isClosed StyledPage.compile_registry
  obtain rfl := Except.ok.inj (StyledPage.project_compilation.symm.trans hp)
  exact ⟨StyledPage.compile_registry, StyledPage.project_compilation, ss, hclosed⟩

end Program

end ViewCompiler
