import ViewCompiler.Proofs.Scope.Standing

/-!
# Layouts differ in their numbers only

The template of a component is laid out in the same way wherever the component is mounted: what
comes out differs in the numbers of the scopes, and all of them differ by the same amount
(`Laid.eq_shift`). So every scope below an instance occurs, with other numbers, in the tree of its
component as a root (`Placed.exists_own`).

Laying out depends on three things beside the forest: the component that it is done for, the number
that comes next, and the names of the components around. The first is the same for all instances of
a component. The last only matters for failing, as a component that is entered twice is refused. So
of two layouts that succeed the numbers are the only difference, and since they are handed out one
after the other, the difference is that of the first ones. `shift` adds it everywhere: to the number
of a frame, to the scopes that slots refer to, and to all that is mounted.

The scope of a directive has a name made from that of the owner, so that names do not depend on
numbers.

`Placed.Mirrors` says how a scope on the one side corresponds to one on the other: it is the same
scope renumbered, and the frames around it are those of the own tree, renumbered, and the frames
around the instance behind them. What resolves within the own tree resolves to the same frame in
either (`exists_resolve?_shift`).
-/

namespace ViewCompiler

open ViewCompiler.Template

/-! ### Shifting numbers -/

/-- The frame with a number that is `k` higher. -/
def Frame.shift (k : Nat) (f : Frame) : Frame := { f with id := f.id + k }

@[simp] theorem Frame.role_shift (k : Nat) (f : Frame) : (f.shift k).role = f.role := rfl

/-- The slot with the scope mounted in it renumbered. -/
def Slot.shift (k : Nat) (s : Slot) : Slot := { s with mounted := s.mounted.map (· + k) }

mutual

/-- A scope and all that is mounted in it, with numbers that are `k` higher. -/
def Scope.shift (k : Nat) : Scope → Scope
  | .mk f a v saved n children =>
    .mk (f.shift k) a v (saved.map (Slot.shift k)) n (shiftAll k children)

/-- Scopes with numbers that are `k` higher. -/
def shiftAll (k : Nat) : List Scope → List Scope
  | [] => []
  | c :: cs => c.shift k :: shiftAll k cs

end

private theorem shiftAll_append (k : Nat) (cs cs' : List Scope) :
    shiftAll k (cs ++ cs') = shiftAll k cs ++ shiftAll k cs' := by
  induction cs with
  | nil => rfl
  | cons c cs ih => rw [List.cons_append, shiftAll, shiftAll, ih, List.cons_append]

private theorem mem_shiftAll {k : Nat} {cs : List Scope} {c : Scope} :
    c ∈ shiftAll k cs ↔ ∃ c' ∈ cs, c = c'.shift k := by
  induction cs with
  | nil => simp [shiftAll]
  | cons d ds ih => simp [shiftAll, ih]

namespace Scope

variable (k : Nat) (s : Scope)

private theorem frame_shift : (s.shift k).frame = s.frame.shift k := by cases s; rfl

private theorem saved_shift : (s.shift k).saved = s.saved.map (Slot.shift k) := by cases s; rfl

private theorem children_shift : (s.shift k).children = shiftAll k s.children := by cases s; rfl

end Scope

/-- A layout with numbers that are `k` higher. -/
def Expansion.shift (k : Nat) (e : Expansion) : Expansion :=
  ⟨e.saved.map (Slot.shift k), shiftAll k e.children, e.nextIndex, e.nextId + k⟩

/-- A forest is laid out in one way, up to the first number. -/
theorem Laid.eq_shift {lib : Library} {entered entered' : List String} {owner : String}
    {index id k : Nat} {nodes : List Node} {e e' : Expansion}
    (h : Laid lib entered owner index id nodes e)
    (h' : Laid lib entered' owner index (id + k) nodes e') : e' = e.shift k := by
  -- The first node decides by which rule it is laid out, so both layouts are by the same one.
  induction h generalizing entered' e' with
  | nil =>
    cases h' with
    | nil => rfl
  | leaf hn hrest ih =>
    cases h' with
    | leaf hn' hrest' =>
      rw [ih hrest']
      rfl
    | element => cases hn
    | @directive _ _ _ _ _ _ _ directive => cases directive <;> cases hn
    | component => cases hn
  | element hinner hrest ihInner ihRest =>
    cases h' with
    | leaf hn' => cases hn'
    | element hinner' hrest' =>
      obtain rfl := ihInner hinner'
      obtain rfl := ihRest hrest'
      simp [Expansion.shift, shiftAll_append, Slot.shift]
  | directive hframe hinner hrest ihInner ihRest =>
    cases h' with
    | leaf hn' => rename_i directive _ _ _ _ _ _ _; cases directive <;> cases hn'
    | directive hframe' hinner' hrest' =>
      rw [Nat.add_right_comm] at hinner'
      obtain rfl := ihInner hinner'
      obtain rfl := ihRest hrest'
      subst hframe hframe'
      rfl
  | component hfind hmeta hnew hframe hinner hrest ihInner ihRest =>
    cases h' with
    | leaf hn' => cases hn'
    | component hfind' hmeta' hnew' hframe' hinner' hrest' =>
      obtain rfl := Option.some.inj (hfind.symm.trans hfind')
      obtain rfl := Option.some.inj (hmeta.symm.trans hmeta')
      rw [Nat.add_right_comm] at hinner'
      obtain rfl := ihInner hinner'
      obtain rfl := ihRest hrest'
      subst hframe hframe'
      rfl

/-- Below a renumbered scope are the renumbered scopes, with the renumbered frames around them. -/
private theorem Scope.exists_of_mem_placedIn_shift {k : Nat} {s : Scope}
    {outer : Frames} {p : Placed} (h : p ∈ (s.shift k).placedIn outer) :
    ∃ s' inner, p = ⟨s'.shift k, inner.map (Frame.shift k) ++ outer⟩ ∧
      ∀ outer', ⟨s', inner ++ outer'⟩ ∈ s.placedIn outer' := by
  induction s using Scope.induction generalizing outer with
  | step s ih =>
    rcases Scope.mem_placedIn.1 h with rfl | ⟨c, hc, hp⟩
    · refine ⟨s, [s.frame], ?_, fun outer' => Scope.mem_placedIn.2 (.inl rfl)⟩
      rw [Scope.frame_shift]
      rfl
    · rw [Scope.children_shift] at hc
      obtain ⟨d, hd, rfl⟩ := mem_shiftAll.1 hc
      obtain ⟨s', inner, rfl, hmem⟩ := ih d hd hp
      refine ⟨s', inner ++ [s.frame], ?_, fun outer' => ?_⟩
      · simp [Scope.frame_shift]
      · have hinner := hmem (s.frame :: outer')
        rw [List.append_assoc]
        exact Scope.mem_placedIn.2 (.inr ⟨d, hd, hinner⟩)

/-! ### Instances -/

/-- The scope is an instance of the component with the given definition. -/
structure Scope.Instantiates (lib : Library) (s : Scope) (d : Definition) : Prop where
  role : ∃ m, d.metadata = some m ∧ s.frame.role = .component m
  name : s.frame.name = d.name
  content : ∃ entered nextId, Laid lib entered d.name 0 (s.frame.id + 1) d.template
    ⟨s.saved, s.children, s.slots, nextId⟩

/-- Every component scope that is mounted by a layout is an instance of a definition that is
found. -/
theorem Laid.exists_instantiates {lib : Library} {entered : List String} {owner : String}
    {index id : Nat} {nodes : List Node} {e : Expansion}
    (h : Laid lib entered owner index id nodes e) {outer : Frames} {p : Placed}
    (hp : p ∈ placedAll outer e.children) (hkind : p.frame.kind = .component) :
    ∃ tag d, lib.find? tag = some d ∧ p.scope.Instantiates lib d := by
  induction h generalizing outer with
  | nil => simp [placedAll] at hp
  | leaf _ _ ih => exact ih hp
  | element _ _ ihInner ihRest =>
    rw [placedAll_append, List.mem_append] at hp
    exact hp.elim ihInner ihRest
  | @directive _ _ _ _ _ _ _ directive _ _ _ _ _ hframe hinner _ ihInner ihRest =>
    rw [placedAll, List.mem_append, Scope.placedIn_eq, List.mem_cons] at hp
    subst hframe
    rcases hp with (rfl | hp) | hp
    · cases directive <;> cases hkind
    · exact ihInner hp
    · exact ihRest hp
  | component hfind hmeta _ hframe hinner _ ihInner ihRest =>
    rw [placedAll, List.mem_append, Scope.placedIn_eq, List.mem_cons] at hp
    subst hframe
    rcases hp with (rfl | hp) | hp
    · exact ⟨_, _, hfind, ⟨_, hmeta, rfl⟩, rfl, _, _, hinner⟩
    · exact ihInner hp
    · exact ihRest hp

/-- Every component scope of a tree is an instance of the root or of a definition that is found. -/
theorem Scope.exists_instantiates {lib : Library} {firstId nextId : Nat} {root : Definition}
    {scope : Scope} (h : Scope.ofDefinition lib firstId (some root) = .ok (scope, nextId))
    {p : Placed} (hp : p ∈ scope.placed) (hkind : p.frame.kind = .component) :
    ∃ d, (d = root ∨ ∃ tag, lib.find? tag = some d) ∧ p.scope.Instantiates lib d := by
  obtain ⟨d, m, content, hd, hmeta, hlaid, rfl⟩ := Scope.exists_laid_of_ofDefinition h
  obtain rfl := Option.some.inj hd
  rcases List.mem_cons.1 hp with rfl | hp
  · exact ⟨root, .inl rfl, ⟨m, hmeta, rfl⟩, rfl, _, _, hlaid⟩
  · obtain ⟨tag, d, hfind, hinstance⟩ := hlaid.exists_instantiates hp hkind
    exact ⟨d, .inr ⟨tag, hfind⟩, hinstance⟩

/-- A listed scope is listed below every scope around it. -/
theorem Scope.exists_placedIn_or_suffix {s : Scope} {outer : Frames} {q : Placed} {f : Frame}
    {fs : Frames} (h : q ∈ s.placedIn outer) (hf : (f :: fs) <:+ q.frames) :
    (∃ p ∈ s.placedIn outer, p.frames = f :: fs ∧ q ∈ p.scope.placedIn fs) ∨
      (f :: fs) <:+ outer := by
  induction s using Scope.induction generalizing outer with
  | step s ih =>
    have hself : (s.frame :: outer = f :: fs) →
        ∃ p ∈ s.placedIn outer, p.frames = f :: fs ∧ q ∈ p.scope.placedIn fs := by
      intro heq
      refine ⟨⟨s, s.frame :: outer⟩, Scope.mem_placedIn.2 (.inl rfl), heq, ?_⟩
      rw [← (List.cons.inj heq).2]
      exact h
    rcases Scope.mem_placedIn.1 h with rfl | ⟨c, hc, hq⟩
    · rcases List.suffix_cons_iff.1 hf with heq | hs
      · exact .inl (hself heq.symm)
      · exact .inr hs
    · rcases ih c hc hq with ⟨p, hp, hpf, hbelow⟩ | hs
      · exact .inl ⟨p, Scope.mem_placedIn.2 (.inr ⟨c, hc, hp⟩), hpf, hbelow⟩
      · rcases List.suffix_cons_iff.1 hs with heq | hs
        · exact .inl (hself heq.symm)
        · exact .inr hs

/-! ### Scopes in the tree of their component -/

/-- The scope `q` is `p` as it occurs in the tree of a component, when that component is mounted
with the frame `g` in the frames `outer`. -/
structure Placed.Mirrors (q p : Placed) (g' g : Frame) (outer : Frames)
    (inner : Frames) : Prop where
  own : q.frames = inner ++ [g']
  frames : p.frames = inner.map (Frame.shift g.id) ++ g :: outer
  saved : p.scope.saved = q.scope.saved.map (Slot.shift g.id)

/-- Every scope below an instance occurs in the tree of its component. -/
theorem Placed.exists_own {lib : Library} {d : Definition} {s : Scope} (hs : s.Instantiates lib d)
    {own : Scope} {nextId : Nat} (hown : Scope.ofDefinition lib 0 (some d) = .ok (own, nextId))
    {outer : Frames} {p : Placed} (hp : p ∈ s.placedIn outer) :
    own.frame.role = s.frame.role ∧ own.frame.id = 0 ∧
      ∃ q ∈ own.placed, ∃ inner, q.Mirrors p own.frame s.frame outer inner := by
  obtain ⟨d', m, content, hd, hmeta, hlaid, rfl⟩ := Scope.exists_laid_of_ofDefinition hown
  obtain rfl := Option.some.inj hd
  obtain ⟨m', hmeta', hrole⟩ := hs.role
  obtain rfl := Option.some.inj (hmeta.symm.trans hmeta')
  obtain ⟨entered, nextId', hcontent⟩ := hs.content
  rw [Nat.add_comm s.frame.id 1, ← Nat.zero_add 1] at hcontent
  have hshift := hlaid.eq_shift hcontent
  have hsaved : s.saved = content.saved.map (Slot.shift s.frame.id) :=
    congrArg Expansion.saved hshift
  have hchildren : s.children = shiftAll s.frame.id content.children :=
    congrArg Expansion.children hshift
  refine ⟨hrole.symm, rfl, ?_⟩
  rcases Scope.mem_placedIn.1 hp with rfl | ⟨c, hc, hp⟩
  · exact ⟨_, Scope.mem_placed _, [], rfl, rfl, hsaved⟩
  · rw [hchildren] at hc
    obtain ⟨c', hc', rfl⟩ := mem_shiftAll.1 hc
    obtain ⟨s', inner, rfl, hmem⟩ := Scope.exists_of_mem_placedIn_shift hp
    refine ⟨⟨s', inner ++ [_]⟩, Scope.mem_placedIn.2 (.inr ⟨c', hc', hmem _⟩), inner, rfl, rfl, ?_⟩
    exact Scope.saved_shift s.frame.id s'

/-! ### Names -/

namespace Frames

variable {inner outer : Frames} {g g' : Frame} {k : Nat}

/-- A name that resolves within the tree of a component resolves to the same frame wherever the
component is mounted. -/
theorem exists_resolve?_shift (outer : Frames) (hrole : g'.role = g.role) (hid : g'.id + k = g.id)
    {name : String} {o' : Origin} (ho : (inner ++ [g']).resolve? name = some o') :
    ∃ o before after, resolve? (inner.map (Frame.shift k) ++ g :: outer) name = some o ∧
      o.kind = o'.kind ∧ o'.frame.id + k = o.frame.id ∧ inner = before ++ after ∧
      o.frame :: o.outer = after.map (Frame.shift k) ++ g :: outer := by
  induction inner with
  | nil =>
    rw [List.nil_append, resolve?] at ho
    rw [List.map_nil, List.nil_append, resolve?, ← Frame.declares?_of_role_eq hrole]
    cases hdeclares : g'.declares? name with
    | none =>
      rw [hdeclares] at ho
      cases ho
    | some kind =>
      rw [hdeclares] at ho
      obtain rfl := Option.some.inj ho
      exact ⟨_, [], [], rfl, rfl, hid, rfl, rfl⟩
  | cons f inner ih =>
    rw [List.cons_append, resolve?] at ho
    rw [List.map_cons, List.cons_append, resolve?,
      Frame.declares?_of_role_eq (Frame.role_shift k f)]
    cases hdeclares : f.declares? name with
    | none =>
      rw [hdeclares] at ho
      obtain ⟨o, before, after, ho, hkind, hid, rfl, hframes⟩ := ih ho
      exact ⟨o, f :: before, after, ho, hkind, hid, rfl, hframes⟩
    | some kind =>
      rw [hdeclares] at ho
      obtain rfl := Option.some.inj ho
      exact ⟨_, [], f :: inner, rfl, rfl, rfl, rfl, rfl⟩

theorem kind_of_boundary? {fs : Frames} (h : fs.boundary? = some (g :: outer)) :
    g.kind = .component := by
  induction fs with
  | nil => cases h
  | cons f fs ih =>
    rw [boundary?] at h
    split at h
    · rename_i hkind
      rw [← (List.cons.inj (Option.some.inj h)).1]
      exact hkind
    · exact ih h

/-- The frames up to the nearest instance have that instance as their nearest one. -/
theorem boundary?_of_append {before after : Frames}
    (h : (before ++ (after ++ g :: outer)).boundary? = some (g :: outer)) :
    (after ++ g :: outer).boundary? = some (g :: outer) := by
  induction before with
  | nil => exact h
  | cons f before ih =>
    rw [List.cons_append, boundary?] at h
    split at h
    · have hlength := congrArg List.length (Option.some.inj h)
      simp at hlength
      omega
    · exact ih h

end Frames

end ViewCompiler
