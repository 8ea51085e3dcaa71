import Mathlib.Data.List.Chain
import ViewCompiler.Proofs.Scope.Passing
import ViewCompiler.Proofs.Scope.Standing

/-!
# The tree of scopes

The scopes of a built tree are numbered one after the other in pre-order, each is mounted in one
scope only, and its boundary is the nearest instance on the way to the root (`Tree.IsPreorder`). So
"is or lies around" is what one gets by going from parents to children, the path from a scope to one
around it passes through all scopes in between, and the next scope on the way down is the only child
that leads there (`Placed.IsLinked`). Nothing else has a path or a next scope.

A placed scope has its frames with it, from its own out to that of the root. As numbers are never
given twice, a scope is determined by its frames, and a scope lies around another one exactly if its
frames are an end of those of the other (`isAncestorOf_iff_suffix`). This turns every question about
the tree into one about lists: a path is what is left of the frames when that end is taken away, and
the next scope on the way down is the last frame of the path.

The numbers themselves come from the layout, which hands them out as it goes (`Tree.ids_scopes`): a
scope gets its number before anything below it, and what is below it gets the numbers that follow.
-/

namespace ViewCompiler

open ViewCompiler.Template

/-- A scope in which the other one is mounted. -/
def Placed.IsParentOf (p q : Placed) : Prop := ∃ c ∈ p.scope.children, q = p.child c

/-- A scope and everything below it in pre-order. -/
def Placed.subtree (p : Placed) : List Placed := p.scope.placedIn p.outer

/-! ### The listing -/

private theorem placedAll_eq_flatMap (outer : Frames) (ss : List Scope) :
    placedAll outer ss = ss.flatMap (·.placedIn outer) := by
  induction ss with
  | nil => rfl
  | cons s ss ih => rw [placedAll, List.flatMap_cons, ih]

/-- What lies below a scope is what lies below its children, one after the other. -/
private theorem Placed.subtree_eq {s : Scope} {outer : Frames} {p : Placed}
    (h : p ∈ s.placedIn outer) :
    p.subtree = p :: p.scope.children.flatMap fun c => (p.child c).subtree := by
  have hframes : p.scope.frame :: p.outer = p.frames := (Placed.frames_eq h).symm
  rw [Placed.subtree, Scope.placedIn_eq, placedAll_eq_flatMap, hframes]
  rfl

/-- What lies below a listed scope is listed in one piece. -/
private theorem Placed.subtree_infix {s : Scope} {outer : Frames} {p : Placed}
    (h : p ∈ s.placedIn outer) :
    p.subtree <:+: s.placedIn outer := by
  induction s using Scope.induction generalizing outer with
  | step s ih =>
    rcases Scope.mem_placedIn.1 h with rfl | ⟨c, hc, hp⟩
    · exact List.infix_refl _
    · have hmounted : c.placedIn (s.frame :: outer) <:+: placedAll (s.frame :: outer)
        s.children := by
        obtain ⟨front, back, hsplit⟩ := List.append_of_mem hc
        rw [hsplit, placedAll_append, placedAll, ← List.append_assoc]
        exact ⟨_, _, rfl⟩
      rw [Scope.placedIn_eq]
      exact ((ih c hc hp).trans hmounted).trans (List.suffix_cons _ _).isInfix

private theorem Scope.tail_placed (root : Scope) :
    root.placed.tail = placedAll [root.frame] root.children := by
  rw [Scope.placed, Scope.placedIn_eq, List.tail_cons]

/-- What is mounted is listed behind the root. -/
private theorem Placed.child_mem_tail {root : Scope} {p : Placed} {c : Scope} (hp : p ∈ root.placed)
    (hc : c ∈ p.scope.children) : p.child c ∈ root.placed.tail := by
  have hchild := Placed.child_mem hp hc
  rw [Scope.placedIn_eq, List.mem_cons] at hchild
  rw [Scope.tail_placed]
  refine hchild.resolve_left fun heq => ?_
  have hframes : c.frame :: p.frames = [root.frame] := congrArg Placed.frames heq
  rw [Placed.frames_eq hp] at hframes
  cases (List.cons.inj hframes).2

/-- A scope that has others around it is mounted in the nearest one. -/
theorem exists_parent_of_frames {root : Scope} {q : Placed} (hq : q ∈ root.placed) {f g : Frame}
    {fs : Frames} (hframes : q.frames = f :: g :: fs) :
    ∃ p ∈ root.placed, p.IsParentOf q ∧ p.frames = g :: fs := by
  rcases Placed.eq_or_exists_parent hq with rfl | ⟨p, hp, c, hc, rfl⟩
  · cases hframes
  · exact ⟨p, hp, ⟨c, hc, rfl⟩, (List.cons.inj hframes).2⟩

/-- Every scope behind the root is mounted. -/
private theorem exists_parent_of_mem_tail {root : Scope} {q : Placed} (hq : q ∈ root.placed.tail) :
    ∃ p ∈ root.placed, p.IsParentOf q := by
  have hmem := List.mem_of_mem_tail hq
  rw [Scope.tail_placed, mem_placedAll] at hq
  obtain ⟨c, hc, hq⟩ := hq
  rcases Placed.eq_or_exists_parent hq with rfl | ⟨p, hp, d, hd, rfl⟩
  · exact ⟨_, root.mem_placed, c, hc, rfl⟩
  · exact ⟨p, Scope.mem_placedIn.2 (.inr ⟨c, hc, hp⟩), d, hd, rfl⟩

/-! ### Paths and boundaries -/

private theorem Frames.pathTo?_eq_none {id : Nat} {fs : Frames} (h : id ∉ fs.map Frame.id) :
    pathTo? id fs = none := by
  induction fs with
  | nil => rfl
  | cons f outer ih =>
    rw [List.map_cons, List.mem_cons, not_or] at h
    rw [pathTo?, if_neg (Ne.symm h.1), ih h.2, Option.map_none]

/-- No instance lies before the boundary. -/
private theorem Frames.exists_of_boundary? {fs gs : Frames} (h : boundary? fs = some gs) :
    ∃ inner f outer, fs = inner ++ f :: outer ∧ gs = f :: outer ∧ f.kind = .component ∧
      ∀ g ∈ inner, g.kind ≠ .component := by
  induction fs with
  | nil => cases h
  | cons f outer ih =>
    rw [boundary?] at h
    split at h
    · rename_i hkind
      exact ⟨[], f, outer, rfl, (Option.some.inj h).symm, hkind, List.forall_mem_nil _⟩
    · rename_i hkind
      obtain ⟨inner, g, rest, rfl, rfl, hg, hinner⟩ := ih h
      exact ⟨f :: inner, g, rest, rfl, rfl, hg, List.forall_mem_cons.2 ⟨hkind, hinner⟩⟩

/-! ### Ways between scopes -/

namespace Scope.LaidOut

variable {lib : Library} {root : Scope} (h : root.LaidOut lib) {p q : Placed} (hp : p ∈ root.placed)
  (hq : q ∈ root.placed)
include h hp hq

private theorem eq_of_frames_eq (hframes : p.frames = q.frames) : p = q := by
  rw [Placed.frames_eq hp, Placed.frames_eq hq] at hframes
  exact h.eq_of_id_eq hp hq (congrArg Frame.id (List.cons.inj hframes).1)

/-- A scope is an ancestor of another one exactly if its frames are around it. -/
theorem isAncestorOf_iff_suffix : p.isAncestorOf q = true ↔ p.frames <:+ q.frames := by
  rw [h.suffix_iff_mem_ids hp hq, Placed.isAncestorOf, List.any_eq_true, List.mem_map]
  simp only [decide_eq_true_eq]

/-- Between a scope and one around it, each scope is mounted in the next one. -/
theorem exists_chain {inner : Frames} (hframes : inner ++ p.frames = q.frames) :
    ∃ chain : List Placed, chain.head? = some q ∧ chain.getLast? = some p ∧
      chain.IsChain (fun q p => p.IsParentOf q) ∧ chain.map Placed.frame = inner ++ [p.frame] := by
  induction inner generalizing q with
  | nil =>
    obtain rfl := h.eq_of_frames_eq hp hq hframes
    exact ⟨[p], rfl, rfl, .singleton p, rfl⟩
  | cons f inner ih =>
    obtain ⟨g, fs, hrest⟩ : ∃ g fs, inner ++ p.frames = g :: fs := by
      refine List.exists_cons_of_ne_nil fun hnil => ?_
      rw [Placed.frames_eq hp] at hnil
      cases (List.append_eq_nil_iff.1 hnil).2
    rw [List.cons_append, hrest] at hframes
    obtain ⟨r, hr, hparent, hrframes⟩ := exists_parent_of_frames hq hframes.symm
    obtain ⟨chain, hhead, hlast, hchain, hmap⟩ := ih hr (hrest.trans hrframes.symm)
    refine ⟨q :: chain, rfl, ?_, ?_, ?_⟩
    · rw [List.getLast?_cons, hlast, Option.getD_some]
    · refine List.isChain_cons.2 ⟨fun r' hr' => ?_, hchain⟩
      rw [hhead] at hr'
      exact Option.some.inj hr' ▸ hparent
    · have hframe : q.frame = f :=
        (List.cons.inj ((Placed.frames_eq hq).symm.trans hframes.symm)).1
      rw [List.map_cons, hmap, hframe, List.cons_append]

/-- A scope is or lies around another one exactly if one gets there by going from parents to
children. -/
private theorem isAncestorOf_iff_reflTransGen :
    p.isAncestorOf q = true ↔ Relation.ReflTransGen Placed.IsParentOf p q := by
  rw [h.isAncestorOf_iff_suffix hp hq]
  constructor
  · rintro ⟨inner, hframes⟩
    obtain ⟨chain, hhead, hlast, hchain, -⟩ := h.exists_chain hp hq hframes
    obtain ⟨rest, rfl⟩ := List.head?_eq_some_iff.1 hhead
    have hway := List.relationReflTransGen_of_exists_isChain _ hchain (List.cons_ne_nil q rest)
    rw [List.getLast?_eq_some_getLast (List.cons_ne_nil q rest), Option.some.injEq] at hlast
    rw [hlast] at hway
    exact Relation.reflTransGen_swap.1 hway
  · intro hway
    clear hq
    induction hway with
    | refl => exact List.suffix_refl _
    | tail _ hparent ih =>
      obtain ⟨c, -, rfl⟩ := hparent
      exact ih.trans (List.suffix_cons _ _)

/-- The path to a scope around ends with it. -/
theorem pathTo_eq_ok {inner : Frames} (hframes : inner ++ p.frames = q.frames) :
    q.pathTo p = .ok (inner ++ [p.frame]) := by
  have hnodup := h.nodup_ids hq
  rw [← hframes, Placed.frames_eq hp] at hnodup
  have hpath := Frames.pathTo?_append hnodup
  rw [← Placed.frames_eq hp, hframes] at hpath
  rw [Placed.pathTo, show p.id = p.frame.id from rfl, hpath]

/-- There is no path to a scope that is no ancestor. -/
private theorem pathTo_eq_error (hnot : p.isAncestorOf q = false) :
    q.pathTo p = .error s!"{p.frame.text} is not an ancestor of {q.frame.text}" := by
  have hid : p.id ∉ q.frames.map Frame.id := by
    rw [← h.suffix_iff_mem_ids hp hq, ← h.isAncestorOf_iff_suffix hp hq, hnot]
    exact Bool.false_ne_true
  rw [Placed.pathTo, Frames.pathTo?_eq_none hid]

/-- The way down to a scope properly inside starts with the only child that leads there. -/
private theorem nextHop_eq_ok (hinside : p.isAncestorOf q = true) (hne : p ≠ q) :
    ∃ c ∈ p.scope.children, p.nextHop q = .ok c.frame ∧ (p.child c).isAncestorOf q = true ∧
      ∀ c' ∈ p.scope.children, (p.child c').isAncestorOf q = true → c' = c := by
  obtain ⟨inner, hframes⟩ := (h.isAncestorOf_iff_suffix hp hq).1 hinside
  rcases List.eq_nil_or_concat' inner with rfl | ⟨pre, f, rfl⟩
  · exact (hne (h.eq_of_frames_eq hp hq hframes)).elim
  · have hpath := h.pathTo_eq_ok hp hq hframes
    have hsplit : pre ++ f :: p.frames = q.frames := by rw [← hframes, List.append_assoc]; rfl
    obtain ⟨r, hr, hrframes⟩ := exists_placed_of_suffix hq ⟨pre, hsplit⟩
    have hpframes := Placed.frames_eq hp
    obtain ⟨p', hp', ⟨c, hc, rfl⟩, hp'frames⟩ := exists_parent_of_frames hr (hpframes ▸ hrframes)
    obtain rfl := h.eq_of_frames_eq hp' hp (hp'frames.trans hpframes.symm)
    obtain rfl : c.frame = f := (List.cons.inj hrframes).1
    have hchild : (p'.child c).frames <:+ q.frames := ⟨pre, hsplit⟩
    refine ⟨c, hc, ?_, (h.isAncestorOf_iff_suffix hr hq).2 hchild, fun c' hc' hinside' => ?_⟩
    · rw [Placed.nextHop, hpath]
      simp only [List.reverse_append, List.reverse_cons, List.reverse_nil, List.nil_append,
        List.cons_append]
    · have hr' := Placed.child_mem hp hc'
      have hchild' := (h.isAncestorOf_iff_suffix hr' hq).1 hinside'
      -- Both children are found at the same distance from the root.
      have hle : (p'.child c').frames.length ≤ (p'.child c).frames.length := Nat.le_refl _
      have heq := (List.suffix_of_suffix_length_le hchild' hchild hle).eq_of_length rfl
      exact congrArg Placed.scope (h.eq_of_frames_eq hr' hr heq)

omit hp in
/-- The boundary is the nearest instance that is the scope or lies around it. -/
private theorem exists_boundary :
    ∃ b ∈ root.placed, q.boundary? = some b.frame ∧ b.isAncestorOf q = true ∧
    b.frame.kind = .component ∧ ∀ p ∈ root.placed, p.isAncestorOf q = true →
      p.frame.kind = .component → p.isAncestorOf b = true := by
  have hroot : root.frame ∈ q.frames := List.mem_of_getLast? (Scope.getLast?_frames hq)
  obtain ⟨g, rest, hboundary⟩ := Frames.exists_boundary? hroot h.isInstance
  obtain ⟨inner, f, outer, hframes, hgs, hkind, hinner⟩ := Frames.exists_of_boundary? hboundary
  rw [hgs] at hboundary
  obtain ⟨b, hb, hbframes⟩ := exists_placed_of_suffix hq ⟨inner, hframes.symm⟩
  obtain rfl : b.frame = f := (List.cons.inj ((Placed.frames_eq hb).symm.trans hbframes)).1
  have hbsuffix : b.frames <:+ q.frames := ⟨inner, by rw [hbframes, hframes]⟩
  refine ⟨b, hb, ?_, (h.isAncestorOf_iff_suffix hb hq).2 hbsuffix, hkind,
    fun p hp hinside hp' => ?_⟩
  · rw [Placed.boundary?, hboundary]
    rfl
  · have hpsuffix := (h.isAncestorOf_iff_suffix hp hq).1 hinside
    rw [h.isAncestorOf_iff_suffix hp hb]
    rcases Nat.le_total p.frames.length b.frames.length with hle | hle
    · exact List.suffix_of_suffix_length_le hpsuffix hbsuffix hle
    · obtain ⟨mid, hmid⟩ := List.suffix_of_suffix_length_le hbsuffix hpsuffix hle
      cases mid with
      | nil => exact ⟨[], hmid.symm⟩
      | cons x mid =>
        -- The instance would stand before the boundary.
        obtain ⟨front, hfront⟩ := hpsuffix
        have hsplit : (front ++ x :: mid) ++ b.frames = inner ++ b.frames := by
          rw [List.append_assoc, hmid, hfront, hframes, hbframes]
        have hx : x = p.frame := (List.cons.inj (hmid.trans (Placed.frames_eq hp))).1
        refine (hinner x ?_ (hx ▸ hp')).elim
        rw [← List.append_cancel_right hsplit]
        exact List.mem_append_right _ List.mem_cons_self

end Scope.LaidOut

/-! ### Built trees -/

/-- The scopes of a tree in pre-order, with numbers from `firstId` on. -/
structure Tree.IsPreorder (t : Tree) (firstId : Nat) : Prop where
  /-- The scopes have the numbers from the first one on, in the order of the list. -/
  id : ∀ i p, t.scopes[i]? = some p → p.id = firstId + i
  nextId : t.nextId = firstId + t.scopes.length
  /-- The list starts with the root. -/
  root : t.scopes.head? = some ⟨t.root, [t.root.frame]⟩
  /-- A scope is followed by what lies below its children, one child after the other. -/
  subtree : ∀ p ∈ t.scopes, p.subtree <:+: t.scopes ∧
    p.subtree = p :: p.scope.children.flatMap fun c => (p.child c).subtree
  /-- The children of a scope are listed behind it, and the root is no child. -/
  child : ∀ p ∈ t.scopes, ∀ c ∈ p.scope.children, p.child c ∈ t.scopes.tail ∧ p.id < c.frame.id
  /-- Every scope but the root is mounted in one place of one scope, its parent. -/
  mounted : ∀ q ∈ t.scopes.tail, ∃ p ∈ t.scopes, ∃ i,
    q.parent? = some p.frame ∧ q = p.child q.scope ∧ p.scope.children[i]? = some q.scope ∧
    ∀ p' ∈ t.scopes, ∀ (j : Nat) (c : Scope), p'.scope.children[j]? = some c → c.frame.id = q.id →
        p' = p ∧ j = i
  /-- The boundary is the nearest instance among a scope and those around it. -/
  boundary : ∀ q ∈ t.scopes, ∃ b ∈ t.scopes, q.boundary? = some b.frame ∧ b.isAncestorOf q = true ∧
    b.frame.kind = .component ∧ ∀ p ∈ t.scopes, p.isAncestorOf q = true →
      p.frame.kind = .component → p.isAncestorOf b = true

/-- What there is to say about the way between two scopes of a tree. -/
structure Placed.IsLinked (p q : Placed) : Prop where
  isAncestorOf : p.isAncestorOf q = true ↔ Relation.ReflTransGen Placed.IsParentOf p q
  pathTo : p.isAncestorOf q = true ↔ ∃ path, q.pathTo p = .ok path
  /-- A path is the chain of parents from the one scope up to the other. -/
  path : ∀ path, q.pathTo p = .ok path → p.depth ≤ q.depth ∧ path.length = q.depth - p.depth + 1 ∧
    ∃ chain : List Placed, chain.head? = some q ∧ chain.getLast? = some p ∧
      chain.IsChain (fun q p => p.IsParentOf q) ∧ path = chain.map Placed.frame
  noPath : p.isAncestorOf q = false →
    q.pathTo p = .error s!"{p.frame.text} is not an ancestor of {q.frame.text}"
  nextHop : p.isAncestorOf q = true → p ≠ q → ∃ c ∈ p.scope.children, p.nextHop q = .ok c.frame ∧
    (p.child c).isAncestorOf q = true ∧
    ∀ c' ∈ p.scope.children, (p.child c').isAncestorOf q = true → c' = c
  noHop : p.isAncestorOf q = false ∨ p = q → ∃ message, p.nextHop q = .error message

section Build

variable {lib : Library} {firstId : Nat} {d : Option Definition} {t : Tree}
  (h : Tree.build lib firstId d = .ok t)
include h

/-- The scopes of a built tree are numbered one after the other. -/
theorem Tree.ids_scopes : t.nextId = firstId + t.scopes.length ∧
    t.scopes.map Placed.id = List.range' firstId t.scopes.length := by
  obtain ⟨hlt, hids⟩ := Scope.ids_of_ofDefinition (Tree.build_eq_ok_iff.1 h).1
  have hlength := congrArg List.length hids
  rw [List.length_map, List.length_range'] at hlength
  rw [← hlength] at hids
  refine ⟨?_, hids⟩
  change t.nextId = firstId + t.root.placed.length
  omega

/-- The numbers of a built tree are in pre-order. -/
private theorem Tree.isPreorder : t.IsPreorder firstId := by
  have hlaid := Tree.laidOut h
  obtain ⟨hnext, hids⟩ := Tree.ids_scopes h
  constructor
  · intro i p hp
    have hid := congrArg (·[i]?) hids
    simp only [List.getElem?_map, hp, Option.map_some] at hid
    rw [List.getElem?_range' (List.getElem?_eq_some_iff.1 hp).1, Nat.one_mul] at hid
    exact Option.some.inj hid
  · exact hnext
  · change t.root.placed.head? = _
    rw [Scope.placed, Scope.placedIn_eq, List.head?_cons]
  · exact fun p hp => ⟨Placed.subtree_infix hp, Placed.subtree_eq hp⟩
  · exact fun p hp c hc =>
      ⟨Placed.child_mem_tail hp hc, ((hlaid.isLaid p hp).ids_children).2 c hc⟩
  · intro q hq
    obtain ⟨p, hp, c, hc, rfl⟩ := exists_parent_of_mem_tail hq
    obtain ⟨i, hi⟩ := List.getElem?_of_mem hc
    refine ⟨p, hp, i, ?_, rfl, hi, fun p' hp' j c' hj hid => ?_⟩
    · change p.frames.head? = some p.frame
      rw [Placed.frames_eq hp, List.head?_cons]
    · -- A scope with this number among the children of any other parent would be the same scope.
      have hc' := List.mem_of_getElem? hj
      have heq := hlaid.eq_of_id_eq (Placed.child_mem hp' hc') (Placed.child_mem hp hc) hid
      obtain rfl := hlaid.eq_of_frames_eq hp' hp (List.cons.inj (congrArg Placed.frames heq)).2
      obtain rfl : c' = c := congrArg Placed.scope heq
      have hnodup := ((hlaid.isLaid p' hp).ids_children).1.of_map
      have hlt := (List.getElem?_eq_some_iff.1 hj).1
      exact ⟨rfl, (List.getElem?_inj hlt hnodup).1 (hj.trans hi.symm)⟩
  · exact fun q hq => hlaid.exists_boundary hq

/-- Any two scopes of a built tree are linked as their numbers say. -/
private theorem Tree.isLinked {p q : Placed} (hp : p ∈ t.scopes) (hq : q ∈ t.scopes) :
    p.IsLinked q := by
  have hlaid := Tree.laidOut h
  have hsuffix := hlaid.isAncestorOf_iff_suffix hp hq
  have hnoPath := hlaid.pathTo_eq_error hp hq
  have hinside : ∀ path, q.pathTo p = .ok path → p.isAncestorOf q = true := by
    intro path hpath
    by_contra hnot
    rw [hnoPath (Bool.eq_false_iff.2 hnot)] at hpath
    cases hpath
  constructor
  · exact hlaid.isAncestorOf_iff_reflTransGen hp hq
  · refine ⟨fun hin => ?_, fun ⟨path, hpath⟩ => hinside path hpath⟩
    obtain ⟨inner, hframes⟩ := hsuffix.1 hin
    exact ⟨_, hlaid.pathTo_eq_ok hp hq hframes⟩
  · intro path hpath
    obtain ⟨inner, hframes⟩ := hsuffix.1 (hinside path hpath)
    obtain rfl := Except.ok.inj ((hlaid.pathTo_eq_ok hp hq hframes).symm.trans hpath)
    -- The frames in between are those of the chain of parents, which gives the length.
    obtain ⟨chain, hhead, hlast, hchain, hmap⟩ := hlaid.exists_chain hp hq hframes
    have hlength := congrArg List.length hframes
    rw [Placed.frames_eq hp, Placed.frames_eq hq, List.length_append, List.length_cons,
      List.length_cons] at hlength
    have hdepth : inner.length + p.depth = q.depth := Nat.succ.inj hlength
    refine ⟨by omega, ?_, chain, hhead, hlast, hchain, hmap.symm⟩
    rw [List.length_append, List.length_singleton]
    omega
  · exact hnoPath
  · exact hlaid.nextHop_eq_ok hp hq
  · rintro (hnot | rfl)
    · exact ⟨_, by rw [Placed.nextHop, hnoPath hnot]⟩
    · exact ⟨_, by rw [Placed.nextHop, hlaid.pathTo_eq_ok hp hp (List.nil_append _)]; rfl⟩

/-- **The tree of scopes.** The scopes of a built tree are listed in pre-order with consecutive
numbers, and any two of them are linked. -/
theorem Tree.build_preorder :
    t.IsPreorder firstId ∧ ∀ p ∈ t.scopes, ∀ q ∈ t.scopes, p.IsLinked q :=
  ⟨Tree.isPreorder h, fun _ hp _ hq => Tree.isLinked h hp hq⟩

end Build

/-- The page is built, its scopes are numbered from nought in pre-order, and every two of them are
linked as their numbers say. -/
theorem HiddenInput.build_preorder_page :
    Tree.build HiddenInput.library 0 (some HiddenInput.page) = .ok HiddenInput.tree ∧
    HiddenInput.tree.IsPreorder 0 ∧
    ∀ p ∈ HiddenInput.tree.scopes, ∀ q ∈ HiddenInput.tree.scopes, p.IsLinked q :=
  ⟨HiddenInput.build_page, Tree.build_preorder HiddenInput.build_page⟩

end ViewCompiler
