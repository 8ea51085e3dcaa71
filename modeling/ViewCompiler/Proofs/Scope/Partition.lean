import ViewCompiler.Proofs.Scope.Ledger

/-!
# Every node has one scope

The nodes that the scopes of a built tree save are the nodes of the views of its instances, each
saved once: by the scope that is mounted at the nearest conditional or repeater around it, and by
the instance itself where there is none (`Tree.build_partitioned`).

The view of a scope is a piece of the view of an instance, in document order (`View.Lies`). No node
that a scope saves lies in the content of a directive of its view (`standsFree_of_mem_zip`), so the
nearest directive around such a node is the one at which the scope is mounted.

Nodes are known by their place in document order. `Encloses nodes j i` says that the node at one
place has the other one below it, and `StandsFree` that a place is not within the content of a
directive. Both are about forests only. An entry of the ledger has its site, and so a place in the
view of an instance; that its node is the one at that place is shown view by view, along the anchors
at which views are mounted (`View.Lies`).

That every node is saved at all is found from the other end: a node of the view of an instance
either stands free there, and is saved by the instance, or is enclosed by a nearest directive, and
stands free in the view that is mounted at it.
-/

namespace ViewCompiler

open ViewCompiler.Template

/-! ### Positions in a forest -/

/-- Induction on a forest, along what stands below its first root and along the rest. -/
theorem forest_induction {motive : List Node → Prop} (nil : motive [])
    (cons : ∀ n rest, motive n.children → motive rest → motive (n :: rest)) (nodes : List Node) :
    motive nodes := by
  cases nodes with
  | nil => exact nil
  | cons n rest =>
      exact cons n rest (forest_induction nil cons n.children) (forest_induction nil cons rest)
termination_by sizeOf nodes
decreasing_by
  · cases n <;> simp [Node.children] <;> omega
  · simp

/-- A node is followed by what is below it. -/
theorem exists_drop_preorderForest {nodes : List Node} {j : Nat} {d : Node}
    (h : (preorderForest nodes)[j]? = some d) :
    ∃ back, (preorderForest nodes).drop j = d.preorder ++ back := by
  induction nodes using forest_induction generalizing j with
  | nil => cases h
  | cons n rest ihChildren ihRest =>
    rw [preorderForest] at h ⊢
    rcases Nat.lt_or_ge j n.preorder.length with hlt | hge
    · rw [List.getElem?_append_left hlt, Node.preorder_eq] at h
      rw [List.drop_append_of_le_length hlt.le, Node.preorder_eq]
      cases j with
      | zero =>
        obtain rfl : n = d := Option.some.inj h
        exact ⟨preorderForest rest, by rw [List.drop_zero, Node.preorder_eq]⟩
      | succ k =>
        obtain ⟨back, hback⟩ := ihChildren h
        exact ⟨back ++ preorderForest rest, by rw [List.drop_succ_cons, hback, List.append_assoc]⟩
    · rw [List.getElem?_append_right hge] at h
      obtain ⟨back, hback⟩ := ihRest h
      refine ⟨back, ?_⟩
      rw [List.drop_append, List.drop_eq_nil_of_le hge, List.nil_append, hback]

/-- A node that stands at some place of a forest has all its nodes within the forest. -/
private theorem length_le_of_getElem? {nodes : List Node} {j : Nat} {d : Node}
    (h : (preorderForest nodes)[j]? = some d) :
    j + d.preorder.length ≤ (preorderForest nodes).length := by
  obtain ⟨back, hback⟩ := exists_drop_preorderForest h
  have hlt := (List.getElem?_eq_some_iff.1 h).1
  have hlength := congrArg List.length hback
  rw [List.length_drop, List.length_append] at hlength
  omega

/-- The node at position `i` of a forest lies in the content of the conditional or repeater at
position `j`. -/
def Encloses (nodes : List Node) (j i : Nat) : Prop :=
  ∃ d, (preorderForest nodes)[j]? = some d ∧ (d.kind = .conditional ∨ d.kind = .repeating) ∧
    j < i ∧ i < j + d.preorder.length

/-- What encloses a node behind the first one stands behind the first one, too. -/
private theorem exists_of_encloses_add {n : Node} {rest : List Node} {j i : Nat}
    (h : Encloses (n :: rest) j (n.preorder.length + i)) :
    ∃ k, j = n.preorder.length + k ∧ Encloses rest k i := by
  obtain ⟨d, hd, hkind, hlt, hreach⟩ := h
  rw [preorderForest] at hd
  rcases Nat.lt_or_ge j n.preorder.length with hfirst | hge
  · have hsingle : (preorderForest [n])[j]? = some d := by
      rw [List.getElem?_append_left hfirst] at hd
      rwa [preorderForest, preorderForest, List.append_nil]
    have hle := length_le_of_getElem? hsingle
    rw [preorderForest, preorderForest, List.append_nil] at hle
    omega
  · rw [List.getElem?_append_right hge] at hd
    exact ⟨j - n.preorder.length, by omega, d, hd, hkind, by omega, by omega⟩

/-- What encloses a node below the first one is the first one or stands below it. -/
private theorem of_encloses_succ {n : Node} {rest : List Node} {j i : Nat}
    (h : Encloses (n :: rest) j (i + 1)) (hi : i < (preorderForest n.children).length) :
    (n.kind = .conditional ∨ n.kind = .repeating) ∨ ∃ k, Encloses n.children k i := by
  obtain ⟨d, hd, hkind, hlt, hreach⟩ := h
  rw [preorderForest, Node.preorder_eq, List.cons_append] at hd
  cases j with
  | zero =>
    obtain rfl : n = d := Option.some.inj hd
    exact .inl hkind
  | succ k =>
    rw [List.getElem?_cons_succ, List.getElem?_append_left (by omega)] at hd
    exact .inr ⟨k, d, hd, hkind, by omega, by omega⟩

private theorem not_encloses_zero {nodes : List Node} {j : Nat} : ¬Encloses nodes j 0 := by
  rintro ⟨d, -, -, hlt, -⟩
  exact Nat.not_lt_zero j hlt

/-- The node stands at the position, counted from the given one, and in no directive of the
forest. -/
def StandsFree (position : Nat) (nodes : List Node) (place : Nat) (n : Node) : Prop :=
  ∃ i, place = position + i ∧ (preorderForest nodes)[i]? = some n ∧ ∀ j, ¬Encloses nodes j i

private theorem standsFree_cons (position : Nat) (n : Node) (rest : List Node) :
    StandsFree position (n :: rest) position n := by
  refine ⟨0, rfl, ?_, fun j => not_encloses_zero⟩
  rw [preorderForest, Node.preorder_eq]
  rfl

/-- What stands free in the rest stands free behind a first root. -/
theorem StandsFree.cons {position next place : Nat} {n m : Node} {rest : List Node}
    (h : StandsFree next rest place m) (hnext : next = position + n.preorder.length) :
    StandsFree position (n :: rest) place m := by
  obtain ⟨i, rfl, hm, hfree⟩ := h
  refine ⟨n.preorder.length + i, by omega, ?_, fun j hj => ?_⟩
  · rw [preorderForest, List.getElem?_append_right (Nat.le_add_right _ _), Nat.add_sub_cancel_left,
      hm]
  · obtain ⟨k, -, hk⟩ := exists_of_encloses_add hj
    exact hfree k hk

/-- What stands free below an element stands free where the element does. -/
theorem StandsFree.below {position place : Nat} {n m : Node} {rest : List Node}
    (h : StandsFree (position + 1) n.children place m) (hkind : n.kind = .element) :
    StandsFree position (n :: rest) place m := by
  obtain ⟨i, rfl, hm, hfree⟩ := h
  have hi := (List.getElem?_eq_some_iff.1 hm).1
  refine ⟨i + 1, by omega, ?_, fun j hj => ?_⟩
  · rw [preorderForest, Node.preorder_eq, List.cons_append, List.getElem?_cons_succ,
      List.getElem?_append_left hi, hm]
  · rcases of_encloses_succ hj hi with hdirective | ⟨k, hk⟩
    · rw [hkind] at hdirective
      rcases hdirective with heq | heq <;> cases heq
    · exact hfree k hk

/-- What a scope saves stands in its view, and in no directive of the view. -/
theorem standsFree_of_mem_zip {position : Nat} {nodes : List Node} {place : Nat} {n : Node}
    (h : (place, n) ∈ (savedPositions position nodes).zip (savedNodes nodes)) :
    StandsFree position nodes place n := by
  fun_induction savedPositions position nodes with
  | case1 => cases h
  | case2 position span name bindings inner rest ihInner ihRest =>
    have hlength : (savedPositions (position + 1) inner).length = (savedNodes inner).length :=
      length_savedPositions _ inner
    rw [savedNodes, List.zip_cons_cons, List.zip_append hlength, List.mem_cons,
      List.mem_append] at h
    rcases h with heq | h | h
    · obtain ⟨rfl, rfl⟩ := Prod.mk.inj heq
      exact standsFree_cons _ _ _
    · exact (ihInner h).below rfl
    · exact (ihRest h).cons (by rw [Node.preorder, List.length_cons, Nat.add_comm 1])
  | case3 position m rest hm ihRest =>
    rw [savedNodes_cons_of_ne_element (kind_ne_element hm), List.zip_cons_cons, List.mem_cons] at h
    rcases h with heq | h
    · obtain ⟨rfl, rfl⟩ := Prod.mk.inj heq
      exact standsFree_cons _ _ _
    · exact (ihRest h).cons rfl

/-- The positions of what a scope saves ascend. -/
private theorem sublist_savedPositions (position : Nat) (nodes : List Node) :
    (savedPositions position nodes).Sublist
      (List.range' position (preorderForest nodes).length) := by
  fun_induction savedPositions position nodes with
  | case1 => exact List.nil_sublist _
  | case2 position span name bindings inner rest ihInner ihRest =>
    rw [preorderForest, Node.preorder, List.length_append, List.length_cons, Nat.add_right_comm,
      List.range'_succ, ← List.range'_append_1]
    rw [← Nat.add_assoc position 1] at ihRest ⊢
    exact (ihInner.append ihRest).cons_cons position
  | case3 position n rest hn ihRest =>
    rw [preorderForest, List.length_append, ← List.range'_append_1, Node.preorder_eq,
      List.length_cons,
      List.range'_succ, List.cons_append]
    rw [Node.preorder_eq, List.length_cons] at ihRest
    exact (ihRest.trans (List.sublist_append_right _ _)).cons_cons position

/-! ### Indexes -/

/-- Saved nodes with indexes one after the other, from the first one up to the next free one. -/
def Numbered : Nat → List Slot → Nat → Prop
  | index, [], next => index = next
  | index, s :: saved, next => s.index = index ∧ Numbered (index + s.node.slots) saved next

/-- Slots that are numbered one part behind the other are numbered throughout. -/
theorem Numbered.append {index mid next : Nat} {saved saved' : List Slot}
    (h : Numbered index saved mid)
    (h' : Numbered mid saved' next) : Numbered index (saved ++ saved') next := by
  induction saved generalizing index with
  | nil =>
    obtain rfl : index = mid := h
    exact h'
  | cons s saved ih => exact ⟨h.1, ih h.2⟩

/-- A layout leaves no gap between the nodes that it saves. -/
theorem Laid.numbered {lib : Library} {entered : List String} {owner : String} {index id : Nat}
    {nodes : List Node} {e : Expansion} (h : Laid lib entered owner index id nodes e) :
    Numbered index e.saved e.nextIndex := by
  induction h with
  | nil => exact rfl
  | leaf _ _ ih => exact ⟨rfl, ih⟩
  | element _ _ ihInner ihRest => exact ⟨rfl, ihInner.append ihRest⟩
  | directive _ _ _ _ ihRest => exact ⟨rfl, ihRest⟩
  | component _ _ _ _ _ _ _ ihRest => exact ⟨rfl, ihRest⟩

/-! ### Entries and views -/

/-- Lists that agree under two functions agree under them place by place. -/
private theorem eq_of_mem_zip {α β γ : Type} {f : α → γ} {g : β → γ} {xs : List α} {ys : List β}
    (h : xs.map f = ys.map g) {x : α} {y : β} (hmem : (x, y) ∈ xs.zip ys) : f x = g y := by
  induction xs generalizing ys with
  | nil => cases hmem
  | cons x' xs ih =>
    cases ys with
    | nil => cases hmem
    | cons y' ys =>
      obtain ⟨hhead, htail⟩ := List.cons.inj h
      rcases List.mem_cons.1 hmem with heq | hmem
      · obtain ⟨rfl, rfl⟩ := Prod.mk.inj heq
        exact hhead
      · exact ih htail hmem

/-- Of groups with values of their own, those with one value are one group. -/
private theorem filter_flatMap_of_nodup {α β ν : Type} [DecidableEq ν] {xs : List α}
    {f : α → List β} (group : α → ν) (part : β → ν) (hgroup : ∀ x ∈ xs, ∀ e ∈ f x, part e = group x)
    (hnodup : (xs.map group).Nodup) {x : α} (hx : x ∈ xs) :
    (xs.flatMap f).filter (part · = group x) = f x := by
  obtain ⟨front, back, rfl⟩ := List.append_of_mem hx
  rw [List.map_append, List.map_cons, List.nodup_middle, List.nodup_cons,
    ← List.map_append] at hnodup
  have hother : ∀ y ∈ front ++ back, (f y).filter (part · = group x) = [] := by
    intro y hy
    refine List.filter_eq_nil_iff.2 fun e he heq => hnodup.1 ?_
    have hmem : y ∈ front ++ x :: back :=
      List.perm_middle.mem_iff.2 (List.mem_cons_of_mem x hy)
    rw [← of_decide_eq_true heq, hgroup y hmem e he]
    exact List.mem_map_of_mem hy
  have hown : (f x).filter (part · = group x) = f x :=
    List.filter_eq_self.2 fun e he => decide_eq_true (hgroup x hx e he)
  obtain ⟨hfront, hback⟩ := List.forall_mem_append.1 hother
  rw [List.filter_flatMap, List.flatMap_append, List.flatMap_cons, hown,
    List.flatMap_eq_nil_iff.2 hfront, List.flatMap_eq_nil_iff.2 hback, List.nil_append,
    List.append_nil]

namespace Laid

variable {lib : Library} {entered : List String} {owner : String} {index id : Nat}
  {nodes : List Node} {e : Expansion} (h : Laid lib entered owner index id nodes e)
include h

/-- An entry of a scope is about one of its saved nodes, which stands in no directive of its
view. -/
theorem of_mem_entriesFrom {copy scope position : Nat} {entry : Ledger.Entry}
    (hentry : entry ∈ entriesFrom copy scope position nodes e.saved) :
    entry.site.copy = copy ∧ entry.scope = scope ∧ entry.slot ∈ e.saved ∧
      StandsFree position nodes entry.site.position entry.slot.node := by
  rw [entriesFrom, ← List.map_uncurry_zip_eq_zipWith] at hentry
  obtain ⟨⟨place, slot⟩, hzip, rfl⟩ := List.mem_map.1 hentry
  refine ⟨rfl, rfl, (List.of_mem_zip hzip).2, standsFree_of_mem_zip ?_⟩
  rw [← h.map_node_saved, List.zip_map_right]
  exact List.mem_map.2 ⟨_, hzip, rfl⟩

/-- The entries of a layout stand at the saved positions. -/
private theorem map_position_entriesFrom (copy scope position : Nat) :
    (entriesFrom copy scope position nodes e.saved).map (·.site.position) =
      savedPositions position nodes := by
  rw [entriesFrom, List.map_zipWith]
  refine List.ext_getElem ?_ ?_
  · rw [List.length_zipWith, h.length_positions, Nat.min_self]
  · intro i _ _
    rw [List.getElem_zipWith]

/-- The child at an anchor is mounted there. -/
private theorem of_mem_zip_anchors {copy scope position : Nat} {anchor : Ledger.Entry} {c : Scope}
    (hzip : (anchor, c) ∈ (anchorsOf (entriesFrom copy scope position nodes e.saved)).zip
      e.children) :
    c.anchor = some anchor.slot.node ∧ anchor.slot.mounted = some c.frame.id := by
  have hanchors : (anchorsOf (entriesFrom copy scope position nodes e.saved)).map
      (fun a => (some a.slot.node, a.slot.mounted)) =
        e.children.map fun c => (c.anchor, some c.frame.id) := by
    rw [h.map_anchor_children]
    conv_rhs => rw [← h.map_slot_entriesFrom copy scope position, List.filter_map, List.map_map]
    rfl
  obtain ⟨hnode, hmounted⟩ := Prod.mk.inj (eq_of_mem_zip hanchors hzip)
  exact ⟨hnode.symm, hmounted⟩

end Laid

/-- What is visited from a scope is what is seen in one of its views. -/
theorem Scope.mem_visits_iff {s : Scope} {start : Site} {e : Ledger.Entry} :
    e ∈ s.visits start ↔ ∃ v ∈ s.views start, e ∈ v.entries := by
  rw [Scope.visits_eq_flatMap, List.mem_flatMap]

/-- What is visited from a child is visited from its parent. -/
private theorem visits_subset_visitsAll {anchors : List Ledger.Entry} {cs : List Scope}
    {a : Ledger.Entry} {c : Scope} (h : (a, c) ∈ anchors.zip cs) :
    c.visits (c.start a.site) ⊆ visitsAll anchors cs := by
  induction anchors generalizing cs with
  | nil => cases h
  | cons anchor anchors ih =>
    cases cs with
    | nil => cases h
    | cons d cs =>
      rw [visitsAll]
      rcases List.mem_cons.1 h with heq | h
      · obtain ⟨rfl, rfl⟩ := Prod.mk.inj heq
        exact List.subset_append_left _ _
      · exact List.Subset.trans (ih h) (List.subset_append_right _ _)

/-- What is visited below a view is visited below the first one. -/
private theorem View.visits_subset {s : Scope} {start : Site} {v : View} (hv : v ∈ s.views start) :
    v.scope.visits v.start ⊆ s.visits start := by
  refine Scope.forall_views (P := fun v => v.scope.visits v.start ⊆ s.visits start) start s
    (List.Subset.refl _) (fun v _ hsub a c hzip => ?_) v hv
  have hmounted := visits_subset_visitsAll hzip
  rw [Scope.visits_eq] at hsub
  exact List.Subset.trans hmounted fun e he => hsub (List.mem_append_right _ he)

/-- The view of a scope is a piece of the view of an instance: all of it, or the content of a
directive at which the scope is mounted. -/
structure View.Lies (entries : List Ledger.Entry) (v : View) (w : Placed) : Prop where
  copy : v.start.copy = w.id
  piece : ∃ back, (preorderForest w.scope.view).drop v.start.position =
    preorderForest v.scope.view ++ back
  start : v.scope = w.scope ∧ v.start.position = 0 ∨ v.scope.frame.kind ≠ .component ∧
    ∃ a ∈ entries, a.site.copy = w.id ∧ v.start.position = a.site.position + 1 ∧
      a.slot.mounted = some v.scope.frame.id ∧
      (preorderForest w.scope.view)[a.site.position]? = some a.slot.node ∧
      (a.slot.node.kind = .conditional ∨ a.slot.node.kind = .repeating) ∧
      a.slot.node.children = v.scope.view

namespace View.Lies

variable {entries : List Ledger.Entry} {v : View} {w : Placed} (h : v.Lies entries w)
include h

private theorem getElem? {i : Nat} {n : Node} (hn : (preorderForest v.scope.view)[i]? = some n) :
    (preorderForest w.scope.view)[v.start.position + i]? = some n := by
  obtain ⟨back, hback⟩ := h.piece
  have hi := (List.getElem?_eq_some_iff.1 hn).1
  rw [← List.getElem?_drop, hback, List.getElem?_append_left hi, hn]

/-- A directive around a node of the piece that stands in the piece is one of the piece. -/
theorem encloses {j i : Nat} (hi : i < (preorderForest v.scope.view).length)
    (hj : v.start.position ≤ j) (henc : Encloses w.scope.view j (v.start.position + i)) :
    Encloses v.scope.view (j - v.start.position) i := by
  obtain ⟨back, hback⟩ := h.piece
  obtain ⟨d, hd, hkind, hlt, hreach⟩ := henc
  obtain ⟨k, rfl⟩ := Nat.exists_eq_add_of_le hj
  rw [← List.getElem?_drop, hback, List.getElem?_append_left (by omega)] at hd
  rw [Nat.add_sub_cancel_left]
  exact ⟨d, hd, hkind, by omega, by omega⟩

end View.Lies

/-- What is mounted at a directive shows its content. -/
private theorem Frame.Mounts.component_or_children {lib : Library} {f : Frame} {n : Node}
    {view : List Node} (h : f.Mounts lib n view) : f.kind = .component ∨
      f.kind ≠ .component ∧ (n.kind = .conditional ∨ n.kind = .repeating) ∧ n.children = view := by
  cases h with
  | @directive _ _ _ _ _ directive =>
    cases directive with
    | conditional => exact .inr ⟨nofun, .inl rfl, rfl⟩
    | repeating => exact .inr ⟨nofun, .inr rfl, rfl⟩
  | component => exact .inl rfl

/-- The number is that of the scope mounted at the nearest conditional or repeater around position
`i` of the view of an instance, or that of the instance where there is none. -/
def Placed.IsHome (p : Placed) (l : Ledger) (i scope : Nat) : Prop :=
  (∀ j, ¬Encloses p.scope.view j i) ∧ scope = p.id ∨
    ∃ j, Encloses p.scope.view j i ∧ (∀ k, Encloses p.scope.view k i → k ≤ j) ∧
      ∃ a ∈ l, a.site = ⟨p.id, j⟩ ∧ a.slot.mounted = some scope

/-- A home in a ledger is one in every larger ledger. -/
theorem Placed.IsHome.mono {p : Placed} {l l' : Ledger} {i scope : Nat} (h : p.IsHome l i scope)
    (hsub : l ⊆ l') : p.IsHome l' i scope :=
  h.imp_right fun ⟨j, hj, hnearest, a, ha, hanchor⟩ => ⟨j, hj, hnearest, a, hsub ha, hanchor⟩

section Build

variable {lib : Library} {firstId : Nat} {d : Option Definition} {t : Tree}
  (h : Tree.build lib firstId d = .ok t)
include h

/-- The views of a built tree are pieces of the views of its instances. -/
theorem Tree.exists_lies {v : View} (hv : v ∈ t.root.views ⟨t.root.frame.id, 0⟩) :
    ∃ w ∈ t.scopes, w.frame.kind = .component ∧ v.Lies (t.root.visits ⟨t.root.frame.id, 0⟩) w := by
  have hlaid := Tree.laidOut h
  refine Scope.forall_views (P := fun v => ∃ w ∈ t.scopes, w.frame.kind = .component ∧
    v.Lies (t.root.visits ⟨t.root.frame.id, 0⟩) w) _ t.root ?_ ?_ v hv
  · refine ⟨⟨t.root, [t.root.frame]⟩, t.root.mem_placed, hlaid.isInstance, rfl, ⟨[], ?_⟩,
      .inl ⟨rfl, rfl⟩⟩
    rw [List.append_nil, List.drop_zero]
  · rintro v hv ⟨w, hw, hkind, hlies⟩ a c hzip
    obtain ⟨p, hp, hscope⟩ := Scope.exists_placed (fun _ hq => Tree.isAnchored h hq) hv
    obtain ⟨entered, owner, nextId, hcontent⟩ := (hlaid.isLaid p hp).content
    rw [hscope] at hcontent
    obtain ⟨ha, hc⟩ := List.of_mem_zip hzip
    obtain ⟨hanchor, hmounted⟩ := hcontent.of_mem_zip_anchors hzip
    obtain ⟨n, hn, hmounts⟩ := hcontent.mounts hc
    obtain rfl := Option.some.inj (hanchor.symm.trans hn)
    have hentry : a ∈ v.entries := (List.mem_filter.1 ha).1
    obtain ⟨hcopy, -, -, i, hplace, hnode, -⟩ := hcontent.of_mem_entriesFrom hentry
    -- An instance starts a view of its own. A directive carries on the view that it stands in.
    rcases hmounts.component_or_children with hinstance | ⟨hne, hdirective, hview⟩
    · refine ⟨p.child c, Placed.child_mem hp (hscope ▸ hc), hinstance, ?_⟩
      rw [Scope.start, if_pos hinstance]
      exact ⟨rfl, ⟨[], (List.append_nil _).symm⟩, .inl ⟨rfl, rfl⟩⟩
    · have hat := hlies.getElem? hnode
      rw [← hplace] at hat
      obtain ⟨back, hback⟩ := exists_drop_preorderForest hat
      rw [Node.preorder_eq, hview, List.cons_append] at hback
      have hvisit := Scope.mem_visits_iff.2 ⟨v, hv, hentry⟩
      refine ⟨w, hw, hkind, ?_⟩
      rw [Scope.start, if_neg hne]
      refine ⟨hcopy.trans hlies.copy, ⟨back, ?_⟩, .inr ⟨hne, a, hvisit, hcopy.trans hlies.copy, rfl,
        hmounted, hat, hdirective, hview⟩⟩
      change (preorderForest w.scope.view).drop (a.site.position + 1) = _
      rw [← List.tail_drop, hback, List.tail_cons]

/-- A scope is placed once in a tree. -/
private theorem Tree.eq_of_scope_eq {p q : Placed} (hp : p ∈ t.scopes) (hq : q ∈ t.scopes)
    (hscope : p.scope = q.scope) : p = q :=
  (Tree.laidOut h).eq_of_id_eq hp hq (congrArg (·.frame.id) hscope)

/-- Every position of the view of an instance is visited. -/
private theorem Tree.exists_visit {p : Placed} (hp : p ∈ t.scopes)
    (hkind : p.frame.kind = .component) {i : Nat}
    (hi : i < (preorderForest p.scope.view).length) :
    ∃ e ∈ t.root.visits ⟨t.root.frame.id, 0⟩, e.site = ⟨p.id, i⟩ := by
  obtain ⟨⟨scope, start⟩, hv, hscope⟩ :=
    Scope.exists_view (fun _ hq => Tree.isAnchored h hq) ⟨t.root.frame.id, 0⟩ hp
  obtain ⟨w, hw, -, hlies⟩ := Tree.exists_lies h hv
  obtain rfl : scope = p.scope := hscope
  have hstart : start = ⟨p.id, 0⟩ := by
    rcases hlies.start with ⟨heq, hposition⟩ | ⟨hne, -⟩
    · obtain rfl := Tree.eq_of_scope_eq h hp hw heq
      exact congrArg₂ Site.mk hlies.copy hposition
    · exact (hne hkind).elim
  subst hstart
  obtain ⟨entered, owner, nextId, hcontent⟩ := ((Tree.laidOut h).isLaid p hp).content
  obtain ⟨others, hperm, -⟩ := (hcontent.fills p.id p.id 0).perm
  have hsite : (⟨p.id, i⟩ : Site) ∈ (p.scope.visits ⟨p.id, 0⟩).map Ledger.Entry.site := by
    rw [Scope.map_site_visits _ _ nextId]
    refine hperm.mem_iff.2 (List.mem_append_left _ (List.mem_map_of_mem ?_))
    exact List.mem_range'_1.2 ⟨Nat.zero_le i, by rwa [Nat.zero_add]⟩
  obtain ⟨e, he, hesite⟩ := List.mem_map.1 hsite
  exact ⟨e, View.visits_subset hv he, hesite⟩

/-- A visit is about a node of an instance, which is saved by the scope at the nearest directive. -/
theorem Tree.exists_home {e : Ledger.Entry} (he : e ∈ t.root.visits ⟨t.root.frame.id, 0⟩) :
    ∃ w ∈ t.scopes, w.frame.kind = .component ∧ e.site.copy = w.id ∧
      (preorderForest w.scope.view)[e.site.position]? = some e.slot.node ∧
      (∃ q ∈ t.scopes, q.id = e.scope ∧ e.slot ∈ q.scope.saved) ∧
      w.IsHome (t.root.visits ⟨t.root.frame.id, 0⟩) e.site.position e.scope := by
  obtain ⟨v, hv, hentry⟩ := Scope.mem_visits_iff.1 he
  obtain ⟨w, hw, hkind, hlies⟩ := Tree.exists_lies h hv
  obtain ⟨p, hp, hscope⟩ := Scope.exists_placed (fun _ hq => Tree.isAnchored h hq) hv
  obtain ⟨entered, owner, nextId, hcontent⟩ := ((Tree.laidOut h).isLaid p hp).content
  rw [hscope] at hcontent
  obtain ⟨hcopy, hid, hslot, i, hplace, hnode, hfree⟩ := hcontent.of_mem_entriesFrom hentry
  have hi := (List.getElem?_eq_some_iff.1 hnode).1
  refine ⟨w, hw, hkind, hcopy.trans hlies.copy, ?_, ⟨p, hp, ?_, ?_⟩, ?_⟩
  · rw [hplace]
    exact hlies.getElem? hnode
  · rw [hid, ← hscope]
    rfl
  · rwa [hscope]
  · rw [hplace, hid]
    -- The view starts with the instance itself, or behind the directive that the scope is anchored
    -- at.
    rcases hlies.start with ⟨heq, hposition⟩ | ⟨-, a, ha, hsite, hposition, hmounted, hat,
      hdirective, hview⟩
    · refine .inl ⟨fun j hj => ?_, congrArg (·.frame.id) heq⟩
      exact hfree _ (hlies.encloses hi (by omega) hj)
    · refine .inr ⟨a.site.position, ⟨_, hat, hdirective, by omega, ?_⟩, fun k hk => ?_, a, ha,
        ?_, hmounted⟩
      · rw [Node.preorder_eq, List.length_cons, hview]
        omega
      · by_contra hlt
        exact hfree _ (hlies.encloses hi (by omega) hk)
      · exact congrArg₂ Site.mk hsite rfl

/-- The visits of a scope are those of its view. -/
private theorem Tree.exists_filter_visits {p : Placed} (hp : p ∈ t.scopes) :
    ∃ start, (t.root.visits ⟨t.root.frame.id, 0⟩).filter (·.scope = p.id) =
      p.scope.entries start := by
  have hanchored : ∀ q ∈ t.root.placedIn [], q.scope.IsAnchored := fun _ hq => Tree.isAnchored h hq
  obtain ⟨⟨_, start⟩, hv, rfl⟩ := Scope.exists_view hanchored ⟨t.root.frame.id, 0⟩ hp
  have hnodup : ((t.root.views ⟨t.root.frame.id, 0⟩).map (·.scope.frame.id)).Nodup := by
    have hids := (Tree.laidOut h).nodup
    have hmap := congrArg (List.map (·.frame.id))
      (Scope.map_scope_views ⟨t.root.frame.id, 0⟩ [] t.root hanchored)
    rw [List.map_map, List.map_map] at hmap
    exact hmap ▸ hids
  have hentries :
      ∀ u ∈ t.root.views ⟨t.root.frame.id, 0⟩, ∀ e ∈ u.entries, e.scope = u.scope.frame.id := by
    intro u hu e he
    obtain ⟨q, hq, hqscope⟩ := Scope.exists_placed hanchored hu
    obtain ⟨entered, owner, nextId, hcontent⟩ := ((Tree.laidOut h).isLaid q hq).content
    rw [hqscope] at hcontent
    exact (hcontent.of_mem_entriesFrom he).2.1
  rw [Scope.visits_eq_flatMap]
  exact ⟨start,
    filter_flatMap_of_nodup (fun u : View => u.scope.frame.id) Ledger.Entry.scope hentries
    hnodup hv⟩

end Build

/-! ### The partition -/

/-- The ledger of a tree divides the nodes of its instances among its scopes. -/
structure Tree.IsPartitioned (lib : Library) (root : Definition) (t : Tree)
    (l : Ledger) : Prop where
  /-- The view of an instance is the template of its definition, and the view of any other scope the
  content of the directive at which it is mounted. -/
  rootView : t.root.view = root.template
  mounts : ∀ p ∈ t.scopes, ∀ c ∈ p.scope.children,
    ∃ n, c.anchor = some n ∧ c.frame.Mounts lib n c.view
  /-- What a scope mounts is mounted at its saved nodes, in the order of the nodes. -/
  anchors : ∀ p ∈ t.scopes, p.scope.children.map (fun c => (c.anchor, some c.frame.id)) =
    (p.scope.saved.filter (·.node.kind.isScope)).map fun s => (some s.node, s.mounted)
  numbered : ∀ p ∈ t.scopes, Numbered 0 p.scope.saved p.scope.slots
  /-- The entries of a scope are its saved nodes, in the order in which they stand in one copy. -/
  saved : ∀ p ∈ t.scopes, ∃ entries copy, l.reverse.filter (·.scope = p.id) = entries ∧
    entries.map Ledger.Entry.slot = p.scope.saved ∧ (∀ e ∈ entries, e.site.copy = copy) ∧
    (entries.map (·.site.position)).Pairwise (· < ·)
  /-- Every entry is about a node of an instance, and about a saved node of a scope. -/
  entry : ∀ e ∈ l, (∃ w ∈ t.scopes, w.frame.kind = .component ∧ e.site.copy = w.id ∧
    (preorderForest w.scope.view)[e.site.position]? = some e.slot.node) ∧
    ∃ q ∈ t.scopes, q.id = e.scope ∧ e.slot ∈ q.scope.saved
  /-- Every node of an instance has one entry, with the scope at the nearest directive around it. -/
  responsible : ∀ p ∈ t.scopes, p.frame.kind = .component → ∀ i n,
    (preorderForest p.scope.view)[i]? = some n → ∃ e, l.entry? ⟨p.id, i⟩ = some e ∧
        e.slot.node = n ∧
      (∀ e' ∈ l, e'.site = ⟨p.id, i⟩ → e' = e) ∧ p.IsHome l i e.scope

section Build

variable {lib : Library} {firstId : Nat} {root : Definition} {t : Tree}
  (h : Tree.build lib firstId (some root) = .ok t)
include h

/-- The visits of a built tree partition its nodes. -/
private theorem Tree.isPartitioned :
    t.IsPartitioned lib root (t.root.visits ⟨t.root.frame.id, 0⟩).reverse := by
  have hlaid := (Tree.laidOut h).isLaid
  obtain ⟨d, m, content, hd, -, -, hroot⟩ :=
    Scope.exists_laid_of_ofDefinition (Tree.build_eq_ok_iff.1 h).1
  constructor
  · rw [hroot, Option.some.inj hd]
    rfl
  · intro p hp c hc
    obtain ⟨entered, owner, nextId, hcontent⟩ := (hlaid p hp).content
    exact hcontent.mounts hc
  · intro p hp
    obtain ⟨entered, owner, nextId, hcontent⟩ := (hlaid p hp).content
    exact hcontent.map_anchor_children
  · intro p hp
    obtain ⟨entered, owner, nextId, hcontent⟩ := (hlaid p hp).content
    exact hcontent.numbered
  · intro p hp
    obtain ⟨start, hfilter⟩ := Tree.exists_filter_visits h hp
    obtain ⟨entered, owner, nextId, hcontent⟩ := (hlaid p hp).content
    rw [← List.reverse_reverse (t.root.visits ⟨t.root.frame.id, 0⟩)] at hfilter
    refine ⟨p.scope.entries start, start.copy, hfilter, ?_, ?_, ?_⟩
    · exact hcontent.map_slot_entriesFrom start.copy p.id start.position
    · exact fun e he => (hcontent.of_mem_entriesFrom he).1
    · rw [Scope.entries_eq, hcontent.map_position_entriesFrom]
      exact List.Pairwise.sublist (sublist_savedPositions _ _) List.pairwise_lt_range'
  · intro e he
    obtain ⟨w, hw, hkind, hcopy, hnode, hsaved, -⟩ := Tree.exists_home h (List.mem_reverse.1 he)
    exact ⟨⟨w, hw, hkind, hcopy, hnode⟩, hsaved⟩
  · intro p hp hkind i n hn
    have hnodup : ((t.root.visits ⟨t.root.frame.id, 0⟩).reverse.map Ledger.Entry.site).Nodup := by
      rw [List.map_reverse]
      exact List.nodup_reverse.2 (Tree.nodup_visits h)
    -- Some visit is about the node, and no other one, since no two visits have one site.
    obtain ⟨e, he, hsite⟩ := Tree.exists_visit h hp hkind (List.getElem?_eq_some_iff.1 hn).1
    obtain ⟨w, hw, -, hcopy, hnode, -, hhome⟩ := Tree.exists_home h he
    rw [hsite] at hcopy hnode hhome
    obtain rfl := (Tree.laidOut h).eq_of_id_eq hp hw hcopy
    have hmem := List.mem_reverse.2 he
    refine ⟨e, hsite ▸ Ledger.entry?_of_mem hnodup hmem, ?_, fun e' he' hsite' => ?_, ?_⟩
    · exact Option.some.inj (hnode.symm.trans hn)
    · exact List.inj_on_of_nodup_map hnodup he' hmem (hsite'.trans hsite.symm)
    · exact hhome.mono fun _ => List.mem_reverse.2

/-- **Every node has one scope.** Keeping the ledger of a built tree never fails, and it divides the
nodes of the instances among the scopes. -/
theorem Tree.build_partitioned : ∃ l, t.ledger = .ok l ∧ t.IsPartitioned lib root l :=
  ⟨_, Tree.ledger_eq h, Tree.isPartitioned h⟩

end Build

/-- The page is built, and its two saved nodes are divided between the scopes of the page and of the
child: each is saved once, by the scope that it stands in. -/
theorem HiddenInput.build_partitioned_page :
    Tree.build HiddenInput.library 0 (some HiddenInput.page) = .ok HiddenInput.tree ∧
    ∃ l, HiddenInput.tree.ledger = .ok l ∧
      HiddenInput.tree.IsPartitioned HiddenInput.library HiddenInput.page l :=
  ⟨HiddenInput.build_page, Tree.build_partitioned HiddenInput.build_page⟩

end ViewCompiler
