import ViewCompiler.Proofs.Scope.Expansion
import ViewCompiler.Scope.Resolution
import Mathlib.Data.List.Nodup

/-!
# Scopes in a tree

Facts about the pre-order listing of a scope tree. The listing is closed under taking a mounted
scope (`Placed.child_mem`) and under taking a scope around (`exists_placed_of_suffix`); the numbers
of a laid out tree are consecutive, so that a scope is known by its number
(`Scope.LaidOut.eq_of_id_eq`); and then "is or lies around" is the suffix order on the frames
(`Scope.LaidOut.suffix_iff_mem_ids`).

A listed scope comes with its frames, from its own out to that of the root, so that what is known of
a place in the tree is in the listing and nobody has to go down from the root again. Induction over
a tree is induction over a scope and the scopes that are mounted in it (`Scope.induction`).

That a tree was laid out is kept in `Scope.LaidOut`, which is what later modules take as a
hypothesis: the scopes have numbers of their own, every scope was laid out from the template of its
component, and the root is an instance. It says nothing of names that resolve; that comes with
building (`Scope/Resolution`).

`Ascending` is about the nodes that one scope saves. Their indexes ascend, from the first free one
on, so that a node is known by its index as a scope is by its number. What feeds a mounted scope is
the binding of its anchor, or the source of its loop (`Frame.IsFed`).
-/

namespace ViewCompiler

open ViewCompiler.Template

/-! ### The pre-order listing -/

/-- Induction over a scope and the scopes mounted in it. -/
theorem Scope.induction {motive : Scope → Prop}
    (step : ∀ s : Scope, (∀ c ∈ s.children, motive c) → motive s) : ∀ s, motive s
  | .mk f a v saved n cs => step _ fun c (_hc : c ∈ cs) => Scope.induction step c
termination_by s => sizeOf s
decreasing_by
  have := List.sizeOf_lt_of_mem _hc
  simp
  omega

theorem mem_placedAll {outer : Frames} {ss : List Scope} {q : Placed} :
    q ∈ placedAll outer ss ↔ ∃ s ∈ ss, q ∈ s.placedIn outer := by
  induction ss with
  | nil => simp [placedAll]
  | cons s ss ih => simp [placedAll, ih]

/-- Scopes one part behind the other are placed one part behind the other. -/
theorem placedAll_append (outer : Frames) (ss ts : List Scope) :
    placedAll outer (ss ++ ts) = placedAll outer ss ++ placedAll outer ts := by
  induction ss with
  | nil => simp [placedAll]
  | cons s ss ih => simp [placedAll, ih]

/-- A scope is placed first, and then what is below it. -/
theorem Scope.placedIn_eq (s : Scope) (outer : Frames) :
    s.placedIn outer = ⟨s, s.frame :: outer⟩ :: placedAll (s.frame :: outer) s.children := by
  cases s
  rfl

/-- What is placed below some frames is the scope itself or is placed below it. -/
theorem Scope.mem_placedIn {s : Scope} {outer : Frames} {q : Placed} :
    q ∈ s.placedIn outer ↔
      q = ⟨s, s.frame :: outer⟩ ∨ ∃ c ∈ s.children, q ∈ c.placedIn (s.frame :: outer) := by
  rw [Scope.placedIn_eq, List.mem_cons, mem_placedAll]

/-- A scope mounted in `p`, with the frames around it. -/
def Placed.child (p : Placed) (c : Scope) : Placed := ⟨c, c.frame :: p.frames⟩

/-- The frames around a listed scope start with its own. -/
theorem Placed.frames_eq {s : Scope} {outer : Frames} {q : Placed} (h : q ∈ s.placedIn outer) :
    q.frames = q.frame :: q.outer := by
  induction s using Scope.induction generalizing outer with
  | step s ih =>
    rcases Scope.mem_placedIn.1 h with rfl | ⟨c, hc, hq⟩
    · rfl
    · exact ih c hc hq

/-- The listing holds everything mounted in a listed scope. -/
theorem Placed.child_mem {s : Scope} {outer : Frames} {p : Placed} {c : Scope}
    (hp : p ∈ s.placedIn outer) (hc : c ∈ p.scope.children) : p.child c ∈ s.placedIn outer := by
  induction s using Scope.induction generalizing outer with
  | step s ih =>
    refine Scope.mem_placedIn.2 (.inr ?_)
    rcases Scope.mem_placedIn.1 hp with rfl | ⟨d, hd, hp⟩
    · exact ⟨c, hc, Scope.mem_placedIn.2 (.inl rfl)⟩
    · exact ⟨d, hd, ih d hd hp⟩

/-- Every listed scope but the first is mounted in a listed one. -/
theorem Placed.eq_or_exists_parent {s : Scope} {outer : Frames} {q : Placed}
    (h : q ∈ s.placedIn outer) :
    q = ⟨s, s.frame :: outer⟩ ∨
      ∃ p ∈ s.placedIn outer, ∃ c ∈ p.scope.children, q = p.child c := by
  induction s using Scope.induction generalizing outer with
  | step s ih =>
    rcases Scope.mem_placedIn.1 h with rfl | ⟨d, hd, hq⟩
    · exact .inl rfl
    · right
      rcases ih d hd hq with rfl | ⟨p, hp, c, hc, rfl⟩
      · exact ⟨_, Scope.mem_placedIn.2 (.inl rfl), d, hd, rfl⟩
      · exact ⟨p, Scope.mem_placedIn.2 (.inr ⟨d, hd, hp⟩), c, hc, rfl⟩

/-- The listing holds every scope around a listed one, up to the first. -/
private theorem exists_placed_or_suffix {s : Scope} {outer : Frames} {q : Placed} {f : Frame}
    {fs : Frames} (h : q ∈ s.placedIn outer) (hf : (f :: fs) <:+ q.frames) :
    (∃ p ∈ s.placedIn outer, p.frames = f :: fs) ∨ (f :: fs) <:+ outer := by
  induction s using Scope.induction generalizing outer with
  | step s ih =>
    rcases Scope.mem_placedIn.1 h with rfl | ⟨d, hd, hq⟩
    · rcases List.suffix_cons_iff.1 hf with heq | hs
      · exact .inl ⟨_, h, heq.symm⟩
      · exact .inr hs
    · rcases ih d hd hq with ⟨p, hp, hpf⟩ | hs
      · exact .inl ⟨p, Scope.mem_placedIn.2 (.inr ⟨d, hd, hp⟩), hpf⟩
      · rcases List.suffix_cons_iff.1 hs with heq | hs
        · exact .inl ⟨⟨s, s.frame :: outer⟩, Scope.mem_placedIn.2 (.inl rfl), heq.symm⟩
        · exact .inr hs

/-- A listing of a whole tree holds every scope around a listed one. -/
theorem exists_placed_of_suffix {root : Scope} {q : Placed} {f : Frame} {fs : Frames}
    (h : q ∈ root.placed) (hf : (f :: fs) <:+ q.frames) :
    ∃ p ∈ root.placed, p.frames = f :: fs := by
  rcases exists_placed_or_suffix h hf with hp | hs
  · exact hp
  · simp at hs

/-! ### What a layout looks like -/

private theorem range'_append_sub {a b c : Nat} (hab : a ≤ b) (hbc : b ≤ c) :
    List.range' a (b - a) ++ List.range' b (c - b) = List.range' a (c - a) := by
  have h := List.range'_append_1 (s := a) (m := b - a) (n := c - b)
  rw [Nat.add_sub_cancel' hab] at h
  rw [h, show b - a + (c - b) = c - a by omega]

/-- The numbers of a scope and everything below it, given those of what is mounted in it. -/
private theorem ids_mounted {f : Frame} {anchor : Option Node} {view : List Node}
    {saved : List Slot} {slots next : Nat} {children : List Scope} (hle : f.id + 1 ≤ next)
    (hids : ∀ outer, (placedAll outer children).map Placed.id =
      List.range' (f.id + 1) (next - (f.id + 1))) (outer : Frames) :
    ((Scope.mk f anchor view saved slots children).placedIn outer).map Placed.id =
      List.range' f.id (next - f.id) := by
  rw [Scope.placedIn_eq, List.map_cons]
  change f.id :: (placedAll _ children).map Placed.id = _
  rw [hids, ← List.range'_succ, show next - (f.id + 1) + 1 = next - f.id by omega]

/-- The numbers of everything laid out are consecutive. -/
theorem Laid.ids {lib : Library} {entered : List String} {owner : String} {index id : Nat}
    {nodes : List Node} {e : Expansion} (h : Laid lib entered owner index id nodes e) :
    id ≤ e.nextId ∧ ∀ outer,
      (placedAll outer e.children).map Placed.id = List.range' id (e.nextId - id) := by
  induction h with
  | nil => simp [placedAll]
  | leaf _ _ ih => exact ih
  | element _ _ ihInner ihRest =>
    refine ⟨Nat.le_trans ihInner.1 ihRest.1, fun outer => ?_⟩
    rw [placedAll_append, List.map_append, ihInner.2, ihRest.2,
      range'_append_sub ihInner.1 ihRest.1]
  | directive hframe _ _ ihInner ihRest =>
    subst hframe
    refine ⟨Nat.le_trans (Nat.le_of_succ_le ihInner.1) ihRest.1, fun outer => ?_⟩
    rw [placedAll, List.map_append, ids_mounted ihInner.1 ihInner.2, ihRest.2]
    exact range'_append_sub (Nat.le_of_succ_le ihInner.1) ihRest.1
  | component _ _ _ hframe _ _ ihInner ihRest =>
    subst hframe
    refine ⟨Nat.le_trans (Nat.le_of_succ_le ihInner.1) ihRest.1, fun outer => ?_⟩
    rw [placedAll, List.map_append, ids_mounted ihInner.1 ihInner.2, ihRest.2]
    exact range'_append_sub (Nat.le_of_succ_le ihInner.1) ihRest.1

private theorem Template.Node.slots_pos (n : Node) : 0 < n.slots := by
  unfold Node.slots
  cases n.kind <;> decide

/-- Saved nodes with ascending indexes from `lo` on and below `hi`. -/
structure Ascending (lo hi : Nat) (saved : List Slot) : Prop where
  le : lo ≤ hi
  bounds : ∀ s ∈ saved, lo ≤ s.index ∧ s.index < hi
  pairwise : saved.Pairwise (·.index < ·.index)

namespace Ascending

variable {lo mid hi : Nat}

theorem nil (lo : Nat) : Ascending lo lo [] := ⟨Nat.le_refl lo, by simp, .nil⟩

theorem cons {node : Node} {mounted : Option Nat} {saved : List Slot}
    (h : Ascending (lo + node.slots) hi saved) :
    Ascending lo hi (⟨lo, node, mounted⟩ :: saved) := by
  have hpos := Node.slots_pos node
  have hle := h.le
  refine ⟨by omega, ?_, List.pairwise_cons.2 ⟨fun s hs => ?_, h.pairwise⟩⟩
  · intro s hs
    rcases List.mem_cons.1 hs with rfl | hs
    · exact ⟨Nat.le_refl _, by change lo < hi; omega⟩
    · obtain ⟨hlo, hhi⟩ := h.bounds s hs
      exact ⟨by omega, hhi⟩
  · have hlo := (h.bounds s hs).1
    change lo < s.index
    omega

theorem append {saved saved' : List Slot} (h : Ascending lo mid saved)
    (h' : Ascending mid hi saved') : Ascending lo hi (saved ++ saved') := by
  refine ⟨Nat.le_trans h.le h'.le, ?_, List.pairwise_append.2 ⟨h.pairwise, h'.pairwise, ?_⟩⟩
  · intro s hs
    have hle := h.le
    have hle' := h'.le
    rcases List.mem_append.1 hs with hs | hs
    · obtain ⟨hlo, hhi⟩ := h.bounds s hs
      exact ⟨hlo, by omega⟩
    · obtain ⟨hlo, hhi⟩ := h'.bounds s hs
      exact ⟨by omega, hhi⟩
  · intro s hs s' hs'
    have hhi := (h.bounds s hs).2
    have hlo := (h'.bounds s' hs').1
    omega

end Ascending

/-- Saved nodes have ascending indexes between the first and the next free one. -/
theorem Laid.ascending {lib : Library} {entered : List String} {owner : String} {index id : Nat}
    {nodes : List Node} {e : Expansion} (h : Laid lib entered owner index id nodes e) :
    Ascending index e.nextIndex e.saved := by
  induction h with
  | nil => exact .nil _
  | leaf _ _ ih => exact ih.cons
  | element _ _ ihInner ihRest => exact (ihInner.append ihRest).cons
  | directive _ _ _ _ ihRest => exact ihRest.cons
  | component _ _ _ _ _ _ _ ihRest => exact ihRest.cons

/-- What feeds the scopes that expansion mounts: bindings that feed a mounted scope, and for a loop
exactly its source. -/
structure Frame.IsFed (f : Frame) : Prop where
  isSelf : ∀ b ∈ f.feeds, b.kind.isSelf = true
  source : ∀ loop, f.role = .repeating loop → ∃ b, f.feeds = [b] ∧ b.kind = .repeatSource

/-- Only the bindings of a scope itself feed it. -/
theorem isSelf_of_mem_feedsOf {n : Node} {b : Binding} (h : b ∈ feedsOf n) : b.kind.isSelf = true :=
  (List.mem_filter.1 h).2

/-- The frame of a directive is fed by its directive. -/
private theorem isFed_directiveFrame (owner : String) (id : Nat) (span : Span) (spec : String)
    (specSpan : Span) (d : Directive) (inner : List Node) :
    (directiveFrame owner id (.directive span spec specSpan d inner) d).IsFed where
  isSelf _ hb := isSelf_of_mem_feedsOf hb
  source loop hrole := by
    cases d with
    | conditional => cases hrole
    | repeating l => exact ⟨_, rfl, rfl⟩

/-- A scope whose content was laid out by expansion. -/
structure Scope.IsLaid (lib : Library) (s : Scope) : Prop where
  content : ∃ entered owner nextId, Laid lib entered owner 0 (s.frame.id + 1) s.view
    ⟨s.saved, s.children, s.slots, nextId⟩
  fed : s.frame.IsFed

/-- Everything mounted by expansion was laid out by expansion. -/
theorem Laid.isLaid {lib : Library} {entered : List String} {owner : String} {index id : Nat}
    {nodes : List Node} {e : Expansion} (h : Laid lib entered owner index id nodes e)
    {outer : Frames} {p : Placed} (hp : p ∈ placedAll outer e.children) : p.scope.IsLaid lib := by
  induction h generalizing outer with
  | nil => simp [placedAll] at hp
  | leaf _ _ ih => exact ih hp
  | element _ _ ihInner ihRest =>
    rw [placedAll_append, List.mem_append] at hp
    exact hp.elim ihInner ihRest
  | directive hframe hinner _ ihInner ihRest =>
    rw [placedAll, List.mem_append, Scope.placedIn_eq, List.mem_cons] at hp
    subst hframe
    rcases hp with (rfl | hp) | hp
    · exact ⟨⟨_, _, _, hinner⟩, isFed_directiveFrame ..⟩
    · exact ihInner hp
    · exact ihRest hp
  | component _ _ _ hframe hinner _ ihInner ihRest =>
    rw [placedAll, List.mem_append, Scope.placedIn_eq, List.mem_cons] at hp
    subst hframe
    rcases hp with (rfl | hp) | hp
    · refine ⟨⟨_, _, _, hinner⟩, fun _ hb => isSelf_of_mem_feedsOf hb, ?_⟩
      intro loop hrole
      cases hrole
    · exact ihInner hp
    · exact ihRest hp

private theorem sublist_ids_placedAll (outer : Frames) (ss : List Scope) :
    (ss.map (·.frame.id)).Sublist ((placedAll outer ss).map Placed.id) := by
  induction ss with
  | nil => exact List.Sublist.slnil
  | cons s ss ih =>
    rw [placedAll, Scope.placedIn_eq, List.map_cons, List.cons_append, List.map_cons,
      List.map_append]
    exact (ih.trans (List.sublist_append_right _ _)).cons_cons _

/-- The scopes that are mounted in a scope have numbers of their own, greater than that of the
scope. -/
theorem Scope.IsLaid.ids_children {lib : Library} {s : Scope} (h : s.IsLaid lib) :
    (s.children.map (·.frame.id)).Nodup ∧ ∀ c ∈ s.children, s.frame.id < c.frame.id := by
  obtain ⟨entered, owner, nextId, hlaid⟩ := h.content
  obtain ⟨-, hids⟩ := hlaid.ids
  have hsub := sublist_ids_placedAll [] s.children
  rw [hids []] at hsub
  refine ⟨hsub.nodup List.nodup_range', fun c hc => ?_⟩
  have hmem := hsub.subset (List.mem_map_of_mem hc)
  exact Nat.lt_of_succ_le (List.mem_range'_1.1 hmem).1

/-! ### Laid out trees -/

/-- A tree as it is laid out for a root definition: its scopes have numbers of their own, expansion
laid out every one of them, and the root is a component instance. -/
structure Scope.LaidOut (lib : Library) (root : Scope) : Prop where
  nodup : (root.placed.map Placed.id).Nodup
  isLaid : ∀ p ∈ root.placed, p.scope.IsLaid lib
  isInstance : root.frame.kind = .component

/-- The scopes of a tree are numbered one after the other, up to the next free number. -/
theorem Scope.ids_of_ofDefinition {lib : Library} {firstId nextId : Nat} {d : Option Definition}
    {root : Scope} (h : Scope.ofDefinition lib firstId d = .ok (root, nextId)) :
    firstId < nextId ∧ root.placed.map Placed.id = List.range' firstId (nextId - firstId) := by
  obtain ⟨d, m, content, -, -, hlaid, rfl, rfl⟩ := Scope.exists_content_of_ofDefinition h
  obtain ⟨hle, hids⟩ := hlaid.ids
  exact ⟨hle, ids_mounted hle hids []⟩

/-- A root that is expanded is laid out. -/
theorem Scope.laidOut_of_ofDefinition {lib : Library} {firstId nextId : Nat}
    {d : Option Definition} {root : Scope}
    (h : Scope.ofDefinition lib firstId d = .ok (root, nextId)) : root.LaidOut lib := by
  have hids := (Scope.ids_of_ofDefinition h).2
  obtain ⟨d, m, content, -, -, hlaid, rfl⟩ := Scope.exists_laid_of_ofDefinition h
  refine ⟨?_, fun p hp => ?_, rfl⟩
  · rw [hids]
    exact List.nodup_range'
  · rcases List.mem_cons.1 hp with rfl | hp
    · exact ⟨⟨_, _, _, hlaid⟩, by simp [Scope.frame], by intro loop hrole; cases hrole⟩
    · exact hlaid.isLaid hp

/-- What is mounted directly below a scope around a listed one is listed. -/
theorem exists_child_of_suffix {root : Scope} {q : Placed} {f g : Frame} {fs : Frames}
    (hq : q ∈ root.placed) (hs : (f :: g :: fs) <:+ q.frames) :
    ∃ p ∈ root.placed, p.frames = g :: fs ∧ ∃ c ∈ p.scope.children, c.frame = f := by
  obtain ⟨r, hr, hframes⟩ := exists_placed_of_suffix hq hs
  rcases Placed.eq_or_exists_parent hr with rfl | ⟨p, hp, c, hc, rfl⟩
  · simp at hframes
  · obtain ⟨hf, hg⟩ := List.cons.inj hframes
    exact ⟨p, hp, hg, c, hc, hf⟩

namespace Scope.LaidOut

variable {lib : Library} {root : Scope} (h : root.LaidOut lib)
include h

/-- A scope is known by its number. -/
theorem eq_of_id_eq {p q : Placed} (hp : p ∈ root.placed) (hq : q ∈ root.placed)
    (hid : p.id = q.id) : p = q :=
  List.inj_on_of_nodup_map h.nodup hp hq hid

/-- A scope is or lies around another one exactly when its number occurs around that one. -/
theorem suffix_iff_mem_ids {p q : Placed} (hp : p ∈ root.placed) (hq : q ∈ root.placed) :
    p.frames <:+ q.frames ↔ p.id ∈ q.frames.map Frame.id := by
  constructor
  · intro hs
    rw [Placed.frames_eq hp] at hs
    exact List.mem_map_of_mem (hs.subset List.mem_cons_self)
  · intro hid
    obtain ⟨f, hf, hfid⟩ := List.mem_map.1 hid
    obtain ⟨inner, outer, hsplit⟩ := List.append_of_mem hf
    have hs : (f :: outer) <:+ q.frames := ⟨inner, hsplit.symm⟩
    obtain ⟨r, hr, hrf⟩ := exists_placed_of_suffix hq hs
    have hrid : r.id = p.id := by
      rw [← hfid]
      exact congrArg Frame.id (List.cons.inj ((Placed.frames_eq hr).symm.trans hrf)).1
    rw [← h.eq_of_id_eq hr hp hrid, hrf]
    exact hs

/-- The frames around a scope have numbers of their own. -/
theorem nodup_ids {q : Placed} (hq : q ∈ root.placed) : (q.frames.map Frame.id).Nodup := by
  suffices ∀ fs, fs <:+ q.frames → (fs.map Frame.id).Nodup from this _ (List.suffix_refl _)
  intro fs
  induction fs with
  | nil => simp
  | cons f fs ih =>
    intro hs
    refine List.nodup_cons.2 ⟨fun hid => ?_, ih ((List.suffix_cons f fs).trans hs)⟩
    obtain ⟨p, hp, hpf⟩ := exists_placed_of_suffix hq hs
    obtain ⟨g, hg, hgid⟩ := List.mem_map.1 hid
    obtain ⟨inner, outer, hsplit⟩ := List.append_of_mem hg
    have hg' : (g :: outer) <:+ p.frames := hpf ▸ ⟨f :: inner, by rw [hsplit]; rfl⟩
    obtain ⟨r, hr, hrf⟩ := exists_placed_of_suffix hp hg'
    have hid : p.id = r.id := by
      rw [Placed.frames_eq hp] at hpf
      rw [Placed.frames_eq hr] at hrf
      exact (congrArg Frame.id (List.cons.inj hpf).1).trans
        (hgid.symm.trans (congrArg Frame.id (List.cons.inj hrf).1.symm))
    have hlen := congrArg (fun x : Placed => x.frames.length) (h.eq_of_id_eq hp hr hid)
    simp only [hpf, hrf, hsplit, List.length_cons, List.length_append] at hlen
    omega

end Scope.LaidOut

end ViewCompiler
