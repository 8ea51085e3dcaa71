import ViewCompiler.Proofs.Scope.Constancy

/-!
# How values are passed down

The passes of one value, read off the frames of its consumer. A scope `P` forwards the value into
its child `c` when the consumer lies in `c` and the declaration is `P` or lies around it; it pushes
the value when it is the boundary of the declaration (`Scope.LaidOut.exists_passes`).

The frames of a consumer are the way from it out to the root. A declaration belongs to one of them,
and the passes go the other way, from that frame in to the consumer: they are the steps between
neighbours on that part of the way (`mem_hops`). So everything here is about a list of frames and an
end of it. Which scope makes the first step is told by the end (`head?_hopsFrom_iff`), and every
step leads from a scope into a child of it, as a frame is mounted in the next one further out.

Frames are looked for by number, since that is what a change map holds. That a number occurs once
around a scope makes the look-up the same as cutting the list (`frames_eq_of_ids`).

Pushing and forwarding are two passes, also where one scope does both. The change map has one entry
for them, in which the reasons are united.
-/

namespace ViewCompiler

open ViewCompiler.Template

/-! ### Steps along a path -/

namespace Frames

/-- The path to a frame ends with it. -/
theorem pathTo?_append {inner outer : Frames} {f : Frame}
    (hnodup : ((inner ++ f :: outer).map Frame.id).Nodup) :
    pathTo? f.id (inner ++ f :: outer) = some (inner ++ [f]) := by
  induction inner with
  | nil => simp [pathTo?]
  | cons g inner ih =>
    rw [List.cons_append, List.map_cons, List.nodup_cons] at hnodup
    have hne : g.id ≠ f.id := by
      intro heq
      exact hnodup.1 (List.mem_map.2 ⟨f, by simp, heq.symm⟩)
    rw [List.cons_append, pathTo?, if_neg hne, ih hnodup.2]
    rfl

/-- A path starts where it is looked for. -/
theorem prefix_of_pathTo? {id : Nat} {fs path : Frames} (h : pathTo? id fs = some path) :
    path <+: fs := by
  induction fs generalizing path with
  | nil => cases h
  | cons f outer ih =>
    rw [pathTo?] at h
    split at h
    · obtain rfl := Option.some.inj h
      exact ⟨outer, rfl⟩
    · obtain ⟨path', hpath, rfl⟩ := Option.map_eq_some_iff.1 h
      exact List.cons_prefix_cons.2 ⟨rfl, ih hpath⟩

/-- A step leads from a frame into the next one further in. -/
theorem mem_hops {path : Frames} {a b : Nat} :
    (a, b) ∈ hops path ↔
      ∃ pre f g post, path = pre ++ f :: g :: post ∧ g.id = a ∧ f.id = b := by
  induction path with
  | nil => simp [hops]
  | cons f path ih =>
    cases path with
    | nil =>
      simp only [hops, List.not_mem_nil, false_iff]
      rintro ⟨pre, f', g', post, hsplit, -⟩
      have hlen := congrArg List.length hsplit
      simp at hlen
      omega
    | cons g rest =>
      rw [hops, List.mem_append, ih, List.mem_singleton]
      constructor
      · rintro (⟨pre, f', g', post, hsplit, hids⟩ | heq)
        · exact ⟨f :: pre, f', g', post, by rw [hsplit]; rfl, hids⟩
        · exact ⟨[], f, g, rest, rfl, (congrArg Prod.fst heq).symm, (congrArg Prod.snd heq).symm⟩
      · rintro ⟨pre, f', g', post, hsplit, hids⟩
        cases pre with
        | nil =>
          obtain ⟨rfl, hrest⟩ := List.cons.inj hsplit
          obtain ⟨rfl, rfl⟩ := List.cons.inj hrest
          exact .inr (by rw [hids.1, hids.2])
        | cons x pre => exact .inl ⟨pre, f', g', post, (List.cons.inj hsplit).2, hids⟩

/-- The first step leaves the outermost frame. -/
private theorem head?_hops (inner : Frames) (g : Frame) :
    (hops (inner ++ [g])).head? = inner.getLast?.map fun f => (g.id, f.id) := by
  induction inner with
  | nil => rfl
  | cons f inner ih =>
    cases inner with
    | nil => rfl
    | cons f' rest =>
      rw [List.getLast?_cons_cons, ← ih]
      simp only [List.cons_append, hops, List.head?_append]
      rw [List.cons_append] at ih
      rw [ih, List.getLast?_cons]
      rfl

/-- The boundary is one of the frames. -/
theorem suffix_of_boundary? {fs gs : Frames} (h : boundary? fs = some gs) : gs <:+ fs := by
  induction fs with
  | nil => cases h
  | cons f outer ih =>
    rw [boundary?] at h
    split at h
    · obtain rfl := Option.some.inj h
      exact List.suffix_refl _
    · exact (ih h).trans (List.suffix_cons _ _)

end Frames

/-! ### Steps between scopes -/

/-- Every step leads from a scope into one of its children. -/
theorem exists_child_of_mem_hopsFrom {root : Scope} {k : Placed} (hk : k ∈ root.placed)
    {id a b : Nat} (h : (a, b) ∈ k.hopsFrom id) :
    ∃ p ∈ root.placed, ∃ c ∈ p.scope.children, p.id = a ∧ c.frame.id = b := by
  unfold Placed.hopsFrom at h
  cases hpath : Frames.pathTo? id k.frames with
  | none => simp [hpath, Frames.hops] at h
  | some path =>
    rw [hpath, Option.getD_some] at h
    obtain ⟨pre, f, g, post, rfl, rfl, rfl⟩ := Frames.mem_hops.1 h
    obtain ⟨rest, hrest⟩ := Frames.prefix_of_pathTo? hpath
    have hs : (f :: g :: (post ++ rest)) <:+ k.frames := ⟨pre, by rw [← hrest]; simp⟩
    obtain ⟨p, hp, hpf, c, hc, rfl⟩ := exists_child_of_suffix hk hs
    refine ⟨p, hp, c, hc, ?_, rfl⟩
    exact congrArg Frame.id (List.cons.inj ((Placed.frames_eq hp).symm.trans hpf)).1

namespace Scope.LaidOut

variable {lib : Library} {root : Scope} (h : root.LaidOut lib) {k p : Placed} {c : Scope}
  (hk : k ∈ root.placed) (hp : p ∈ root.placed) (hc : c ∈ p.scope.children)
include h hk hp

/-- A scope and its child are known by two consecutive numbers around a scope inside them. -/
theorem frames_eq_of_ids {f g : Frame} {rest : Frames} (hs : (f :: g :: rest) <:+ k.frames)
    (hc : c ∈ p.scope.children) (hg : g.id = p.id) (hf : f.id = c.frame.id) :
    p.frames = g :: rest ∧ (p.child c).frames = f :: g :: rest := by
  obtain ⟨q, hq, hqf⟩ := exists_placed_of_suffix hk ((List.suffix_cons f _).trans hs)
  obtain ⟨r, hr, hrf⟩ := exists_placed_of_suffix hk hs
  have hqid : q.id = p.id := by
    rw [← hg]
    exact congrArg Frame.id (List.cons.inj ((Placed.frames_eq hq).symm.trans hqf)).1
  have hrid : r.id = (p.child c).id := by
    change r.id = c.frame.id
    rw [← hf]
    exact congrArg Frame.id (List.cons.inj ((Placed.frames_eq hr).symm.trans hrf)).1
  constructor
  · rw [← h.eq_of_id_eq hq hp hqid, hqf]
  · rw [← h.eq_of_id_eq hr (Placed.child_mem hp hc) hrid, hrf]

include hc

/-- A step on the way from the frame `f` down to `k` leads from a scope that has `f` around it into
its child on the way to `k`. -/
theorem mem_hopsFrom_iff {f : Frame} {outer : Frames} (hs : (f :: outer) <:+ k.frames) :
    (p.id, c.frame.id) ∈ k.hopsFrom f.id ↔
      (p.child c).frames <:+ k.frames ∧ (f :: outer) <:+ p.frames := by
  obtain ⟨inner, hsplit⟩ := hs
  have hnodup := h.nodup_ids hk
  rw [← hsplit] at hnodup
  rw [Placed.hopsFrom, ← hsplit, Frames.pathTo?_append hnodup, Option.getD_some, Frames.mem_hops]
  constructor
  · rintro ⟨pre, f', g', post, hpath, hg, hf⟩
    have hframes : pre ++ f' :: g' :: (post ++ outer) = inner ++ f :: outer :=
      calc pre ++ f' :: g' :: (post ++ outer) = (pre ++ f' :: g' :: post) ++ outer := by simp
        _ = inner ++ f :: outer := by rw [← hpath]; simp
    have hsuffix : (f' :: g' :: (post ++ outer)) <:+ k.frames := ⟨pre, hframes.trans hsplit⟩
    obtain ⟨hpf, hcf⟩ := h.frames_eq_of_ids hk hp hsuffix hc hg hf
    rw [hcf, hpf, hsplit]
    refine ⟨hsuffix, ?_⟩
    -- The declaration ends the path, so it also ends what follows the step.
    have hlast : (g' :: post) <:+ inner ++ [f] := ⟨pre ++ [f'], by rw [hpath]; simp⟩
    rcases List.suffix_concat_iff.1 hlast with hnil | ⟨front, hfront, -⟩
    · cases hnil
    · exact ⟨front, by rw [← List.cons_append, hfront]; simp⟩
  · rintro ⟨⟨pre, hchild⟩, ⟨front, hdef⟩⟩
    have hinner : inner = pre ++ c.frame :: front := by
      have hframes : inner ++ f :: outer = (pre ++ c.frame :: front) ++ f :: outer := by
        rw [← hchild, Placed.child, ← hdef]
        simp
      exact List.append_cancel_right hframes
    have hhead : ∃ post, front ++ [f] = p.frame :: post := by
      rw [Placed.frames_eq hp] at hdef
      cases front with
      | nil => exact ⟨[], by rw [(List.cons.inj hdef).1]; rfl⟩
      | cons x front => exact ⟨front ++ [f], by rw [← (List.cons.inj hdef).1]; rfl⟩
    obtain ⟨post, hpost⟩ := hhead
    refine ⟨pre, c.frame, p.frame, post, ?_, rfl, rfl⟩
    rw [hinner, ← hpost]
    simp

/-- The first step on the way from the frame `g` down to `k` leads from its scope into the child on
the way to `k`. -/
theorem head?_hopsFrom_iff {g : Frame} {rest : Frames} (hs : (g :: rest) <:+ k.frames) :
    (k.hopsFrom g.id).head? = some (p.id, c.frame.id) ↔
      (p.child c).frames <:+ k.frames ∧ p.frames = g :: rest := by
  obtain ⟨inner, hsplit⟩ := hs
  have hnodup := h.nodup_ids hk
  rw [← hsplit] at hnodup
  rw [Placed.hopsFrom, ← hsplit, Frames.pathTo?_append hnodup, Option.getD_some, Frames.head?_hops]
  constructor
  · intro hhead
    -- Frames are known by their numbers, and so are the scopes that they belong to.
    obtain ⟨f, hlast, hids⟩ := Option.map_eq_some_iff.1 hhead
    obtain ⟨inner, rfl⟩ := List.getLast?_eq_some_iff.1 hlast
    have hframes : (f :: g :: rest) <:+ k.frames := ⟨inner, by rw [← hsplit]; simp⟩
    obtain ⟨hpf, hcf⟩ := h.frames_eq_of_ids hk hp hframes hc (congrArg Prod.fst hids)
      (congrArg Prod.snd hids)
    rw [hcf, hsplit]
    exact ⟨hframes, hpf⟩
  · rintro ⟨⟨pre, hchild⟩, hpf⟩
    have hinner : inner = pre ++ [c.frame] := by
      have hframes : inner ++ g :: rest = (pre ++ [c.frame]) ++ g :: rest := by
        rw [← hchild, Placed.child, hpf]
        simp
      exact List.append_cancel_right hframes
    have hid : g.id = p.id := by
      exact (congrArg Frame.id (List.cons.inj ((Placed.frames_eq hp).symm.trans hpf)).1).symm
    rw [hinner, List.getLast?_concat, Option.map_some, hid]

end Scope.LaidOut

/-! ### Passes -/

/-- The scope is the instance to which the declaration belongs, and can observe it. -/
def Placed.Observes (p : Placed) (o : Frames.Origin) : Prop :=
  o.frame.kind ≠ .repeating ∧ Frames.boundary? (o.frame :: o.outer) = some p.frames

/-- The scope declares the name itself or lies inside the scope that does. -/
def Placed.Inside (p : Placed) (o : Frames.Origin) : Prop := (o.frame :: o.outer) <:+ p.frames

theorem Frames.Origin.boundary?_eq_some_iff {o : Frames.Origin} {g : Frame} :
    o.boundary? = some g ↔ ∃ rest, Frames.boundary? (o.frame :: o.outer) = some (g :: rest) := by
  unfold Frames.Origin.boundary?
  rw [Option.bind_eq_some_iff]
  constructor
  · rintro ⟨gs, hgs, hhead⟩
    obtain ⟨rest, rfl⟩ := List.head?_eq_some_iff.1 hhead
    exact ⟨rest, hgs⟩
  · rintro ⟨rest, hgs⟩
    exact ⟨_, hgs, rfl⟩

namespace Scope.LaidOut

variable {lib : Library} {root : Scope} (h : root.LaidOut lib) {k : Placed} (hk : k ∈ root.placed)
include h hk

/-- The boundary of a declaration takes the first step down to a consumer inside it. -/
theorem observes_iff {o : Frames.Origin} (ho : k.Inside o) {p : Placed} (hp : p ∈ root.placed)
    {c : Scope} (hc : c ∈ p.scope.children) :
    ((if o.frame.kind = .repeating then none
      else o.boundary?.bind fun boundary => (k.hopsFrom boundary.id).head?) =
        some (p.id, c.frame.id)) ↔
      p.Observes o ∧ (p.child c).frames <:+ k.frames := by
  unfold Placed.Observes
  split
  · rename_i hloop
    simp [hloop]
  · rename_i hloop
    rw [Option.bind_eq_some_iff]
    constructor
    · rintro ⟨g, hg, hhead⟩
      obtain ⟨rest, hgs⟩ := Frames.Origin.boundary?_eq_some_iff.1 hg
      have hs := (Frames.suffix_of_boundary? hgs).trans ho
      obtain ⟨hchild, hpf⟩ := (h.head?_hopsFrom_iff hk hp hc hs).1 hhead
      exact ⟨⟨hloop, hpf ▸ hgs⟩, hchild⟩
    · rintro ⟨⟨-, hgs⟩, hchild⟩
      have hpf := Placed.frames_eq hp
      rw [hpf] at hgs
      have hs := (Frames.suffix_of_boundary? hgs).trans ho
      exact ⟨p.frame, Frames.Origin.boundary?_eq_some_iff.2 ⟨_, hgs⟩,
        (h.head?_hopsFrom_iff hk hp hc hs).2 ⟨hchild, hpf⟩⟩

omit h in
/-- Every pass leads from a scope into one of its children. -/
theorem exists_child_of_mem_passes {d : Placed.Dependency} {xs : List Pass}
    (hxs : k.passes d = .ok xs) {x : Pass} (hx : x ∈ xs) :
    ∃ p ∈ root.placed, ∃ c ∈ p.scope.children, p.id = x.scope ∧ c.frame.id = x.child := by
  unfold Placed.passes at hxs
  split at hxs
  · cases hxs
  · rename_i o _
    split at hxs
    · obtain rfl := Except.ok.inj hxs
      rw [List.mem_append, List.mem_map, List.mem_map] at hx
      rcases hx with ⟨⟨a, b⟩, hpush, rfl⟩ | ⟨⟨a, b⟩, hhop, rfl⟩
      · have hpush := Option.mem_toList.1 hpush
        split at hpush
        · cases hpush
        · obtain ⟨g, -, hhead⟩ := Option.bind_eq_some_iff.1 hpush
          exact exists_child_of_mem_hopsFrom hk (List.mem_of_head? hhead)
      · exact exists_child_of_mem_hopsFrom hk hhop
    · cases hxs

/-- A value whose declaration lies around its consumer is passed down: by the scope that observes
the declaration, and by every scope inside it, each into the child on the way to the consumer. -/
theorem exists_passes {v : Occurrence} {o : Frames.Origin} (ho : k.Inside o) :
    ∃ xs, k.passes ⟨v, some o⟩ = .ok xs ∧
      ∀ p ∈ root.placed, ∀ c ∈ p.scope.children, ∀ v' reason,
        (⟨p.id, c.frame.id, v', reason⟩ : Pass) ∈ xs ↔
          v' = v ∧ (p.child c).frames <:+ k.frames ∧
            (reason = .pushed ∧ p.Observes o ∨ reason = .forwarded ∧ p.Inside o) := by
  have hany : k.frames.any (·.id = o.frame.id) = true :=
    List.any_eq_true.2 ⟨o.frame, ho.subset List.mem_cons_self, by simp⟩
  refine ⟨_, if_pos hany, ?_⟩
  intro p hp c hc v' reason
  rw [List.mem_append, List.mem_map, List.mem_map]
  constructor
  · rintro (⟨⟨a, b⟩, hpush, heq⟩ | ⟨⟨a, b⟩, hhop, heq⟩)
    · obtain ⟨rfl, rfl, rfl, rfl⟩ := Pass.mk.inj heq
      obtain ⟨hobs, hchild⟩ := (h.observes_iff hk ho hp hc).1 (Option.mem_toList.1 hpush)
      exact ⟨rfl, hchild, .inl ⟨rfl, hobs⟩⟩
    · obtain ⟨rfl, rfl, rfl, rfl⟩ := Pass.mk.inj heq
      obtain ⟨hchild, hinside⟩ := (h.mem_hopsFrom_iff hk hp hc ho).1 hhop
      exact ⟨rfl, hchild, .inr ⟨rfl, hinside⟩⟩
  · rintro ⟨rfl, hchild, ⟨rfl, hobs⟩ | ⟨rfl, hinside⟩⟩
    · have hpush := (h.observes_iff hk ho hp hc).2 ⟨hobs, hchild⟩
      exact .inl ⟨_, Option.mem_toList.2 hpush, rfl⟩
    · have hhop := (h.mem_hopsFrom_iff hk hp hc ho).2 ⟨hchild, hinside⟩
      exact .inr ⟨_, hhop, rfl⟩

end Scope.LaidOut

end ViewCompiler
