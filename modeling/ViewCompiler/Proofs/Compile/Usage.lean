import ViewCompiler.Compile.Basic
import ViewCompiler.Proofs.Compile.Reading
import ViewCompiler.Proofs.Registry
import ViewCompiler.Proofs.Scope.Expansion

/-!
# What components use, once it is recorded

Recording a reading changes nothing but what the components use (`Registry.recordReading_eq`): tags
still refer to the same definitions. An edge of the recorded usage leads from a component that was
read to one that its template mentions (`Registry.edge_recordReading_iff`). A layout enters every
component that is reached this way, and none inside itself, so no component that can be laid out
leads to itself (`Registry.cycleFrom?_eq_none_of_lays`).
-/

namespace ViewCompiler

open ViewCompiler.Template

namespace Registry

variable {reg : Registry} {r : Reading}

/-! ### Recording -/

/-- A component with what its template uses. -/
def recorded (reg : Registry) (r : Reading) (c : Component) : Component :=
  { c with uses := reg.usedIn ((r.templates.lookup c.name).getD []) }

private theorem foldl_recordUses (reg : Registry) (uses : String → List String)
    (cs : List Component) :
    cs.foldl (fun acc c => acc.recordUses c.name (uses c.name)) reg =
      { reg with
        components := reg.components.map fun c =>
          if c.name ∈ cs.map Component.name then { c with uses := uses c.name } else c } := by
  induction cs generalizing reg with
  | nil => simp
  | cons d ds ih =>
    rw [List.foldl_cons, ih, recordUses]
    simp only [List.map_map]
    congr 1
    refine List.map_congr_left fun c _ => ?_
    by_cases hd : c.name = d.name
    · simp [hd]
    · simp [hd]

/-- Recording a reading changes what the components use and nothing else. -/
theorem recordReading_eq (reg : Registry) (r : Reading) :
    reg.recordReading r = { reg with components := reg.components.map (reg.recorded r) } := by
  have huses := foldl_recordUses reg (fun name => reg.usedIn ((r.templates.lookup name).getD []))
    reg.components
  refine Eq.trans huses ?_
  congr 1
  refine List.map_congr_left fun c hc => ?_
  rw [if_pos (List.mem_map_of_mem hc)]
  rfl

theorem components_recordReading :
    (reg.recordReading r).components = reg.components.map (reg.recorded r) := by
  rw [recordReading_eq]

theorem get?_recordReading (name : String) :
    (reg.recordReading r).get? name = (reg.get? name).map (reg.recorded r) := by
  rw [get?, components_recordReading, List.find?_map]
  rfl

theorem lookup?_recordReading (tag : String) :
    (reg.recordReading r).lookup? tag = (reg.lookup? tag).map (reg.recorded r) := by
  have htags : (reg.recordReading r).tags = reg.tags := by rw [recordReading_eq]
  rw [lookup?, lookup?, htags, get?_recordReading]
  cases reg.get? tag with
  | some c => rfl
  | none =>
    cases reg.tags.lookup tag with
    | none => rfl
    | some name => exact get?_recordReading name

theorem names_recordReading : (reg.recordReading r).names = reg.names := by
  rw [names, components_recordReading, List.map_map]
  rfl

/-- Tags refer to the same definitions as before. -/
private theorem find?_library_recordReading (tag : String) :
    ((reg.recordReading r).library r).find? tag = (reg.library r).find? tag := by
  change ((reg.recordReading r).lookup? tag).bind r.definition? =
    (reg.lookup? tag).bind r.definition?
  rw [lookup?_recordReading, Option.bind_map]
  rfl

theorem library_recordReading : (reg.recordReading r).library r = reg.library r := by
  have hfind : ((reg.recordReading r).library r).find? = (reg.library r).find? :=
    funext find?_library_recordReading
  have hnames : ((reg.recordReading r).library r).names = (reg.library r).names :=
    names_recordReading
  generalize (reg.recordReading r).library r = l at hfind hnames
  generalize reg.library r = l' at hfind hnames
  cases l
  cases l'
  cases hfind
  cases hnames
  rfl

/-! ### Conclusions -/

/-- Compiling is refused with what reading is given up with. -/
theorem concluded_of_refusal? {root : Component} {p : Problem} (h : r.refusal? = some p) :
    reg.concluded root r = ⟨.error p, r, reg, false⟩ := by
  rw [concluded, h]

/-- When nothing fails, compiling lays out the root. -/
theorem concluded_of_failures_eq_nil {root : Component} (h : r.failures = []) :
    reg.concluded root r =
      ⟨(reg.recordReading r).layOut r root, r, reg.recordReading r, true⟩ := by
  rw [concluded, Reading.refusal?_eq_none_iff.2 h]

/-- A root that compiles was laid out, and everything was read. -/
theorem of_outcome_concluded_eq_ok {root : Component} {result : Compilation}
    (h : (reg.concluded root r).outcome = .ok result) :
    r.failures = [] ∧ (reg.recordReading r).layOut r root = .ok result := by
  cases hrefusal : r.refusal? with
  | some p =>
    rw [concluded_of_refusal? hrefusal] at h
    cases h
  | none =>
    have hread := Reading.refusal?_eq_none_iff.1 hrefusal
    rw [concluded_of_failures_eq_nil hread] at h
    exact ⟨hread, h⟩

/-! ### Edges -/

private theorem lookup_map_name (f : String → List String) (cs : List Component) (name : String) :
    (cs.map fun c => (c.name, f c.name)).lookup name =
      if name ∈ cs.map Component.name then some (f name) else none := by
  induction cs with
  | nil => rfl
  | cons c cs ih =>
    rw [List.map_cons, List.lookup_cons, List.map_cons]
    by_cases heq : name = c.name
    · simp [heq]
    · simp [heq, beq_false_of_ne heq, ih]

/-- The recorded usage leads from a component that was read to those that its template mentions. -/
theorem edge_recordReading_iff {a b : String} :
    (reg.recordReading r).usage.Edge a b ↔ a ∈ reg.names ∧ ∃ nodes tag c,
      r.templates.lookup a = some nodes ∧ Mentions nodes tag ∧ reg.lookup? tag = some c ∧
        c.name = b := by
  have hedges : (reg.recordReading r).usage.edges = reg.components.map fun c =>
      (c.name, reg.usedIn ((r.templates.lookup c.name).getD [])) := by
    rw [usage, components_recordReading, List.map_map]
    rfl
  rw [names, Graph.Edge, Graph.next, hedges,
    lookup_map_name fun name => reg.usedIn ((r.templates.lookup name).getD [])]
  by_cases ha : a ∈ reg.components.map Component.name
  · rw [if_pos ha, Option.getD_some, mem_usedIn_iff]
    cases hread : r.templates.lookup a with
    | none => simp [not_mentions_nil]
    | some nodes => simp [ha]
  · rw [if_neg ha]
    simp [ha]

end Registry

/-! ### Layouts -/

theorem Reading.definition?_eq_some_iff {r : Reading} {c : Component} {d : Definition} :
    r.definition? c = some d ↔
      r.templates.lookup c.name = some d.template ∧ d.name = c.name ∧ d.metadata = c.metadata := by
  rw [Reading.definition?, Option.map_eq_some_iff]
  constructor
  · rintro ⟨nodes, hread, rfl⟩
    exact ⟨hread, rfl, rfl⟩
  · rintro ⟨hread, hname, hmetadata⟩
    refine ⟨d.template, hread, ?_⟩
    rw [← hname, ← hmetadata]

theorem Reading.definition?_of_lookup {r : Reading} {c : Component} {nodes : List Node}
    (h : r.templates.lookup c.name = some nodes) :
    r.definition? c = some ⟨c.name, nodes, c.metadata⟩ :=
  definition?_eq_some_iff.2 ⟨h, rfl, rfl⟩

theorem Registry.find?_library_of_lookup? {reg : Registry} {r : Reading} {tag : String}
    {c : Component} (h : reg.lookup? tag = some c) :
    (reg.library r).find? tag = r.definition? c := by
  change (reg.lookup? tag).bind r.definition? = _
  rw [h]
  rfl

/-- A layout enters every component that its forest mentions, and none that is entered already. -/
theorem Laid.exists_of_mentions {lib : Library} {entered : List String} {owner : String}
    {index id : Nat} {nodes : List Node} {e : Expansion}
    (h : Laid lib entered owner index id nodes e) {tag : String} (htag : Mentions nodes tag) :
    ∃ d id' content, lib.find? tag = some d ∧ d.name ∉ entered ∧
      Laid lib (d.name :: entered) d.name 0 id' d.template content := by
  induction h with
  | nil => exact (not_mentions_nil tag htag).elim
  | @leaf _ _ _ _ node rest _ hn _ ihRest =>
    rcases mentions_cons.1 htag with ⟨span, bindings, rfl⟩ | hinner | hrest
    · cases hn
    · cases node with
      | text => exact (not_mentions_nil tag hinner).elim
      | interpolation => exact (not_mentions_nil tag hinner).elim
      | element => cases hn
      | component => cases hn
      | directive _ _ _ directive => cases directive <;> cases hn
    · exact ihRest hrest
  | element _ _ ihInner ihRest | directive _ _ _ ihInner ihRest =>
    rcases mentions_cons.1 htag with ⟨span, bindings, hnode⟩ | hinner | hrest
    · cases hnode
    · exact ihInner hinner
    · exact ihRest hrest
  | component hfind _ hnew _ hlaid _ _ ihRest =>
    rcases mentions_cons.1 htag with ⟨span, bindings, hnode⟩ | hinner | hrest
    · cases hnode
      exact ⟨_, _, _, hfind, hnew, hlaid⟩
    · exact (not_mentions_nil tag hinner).elim
    · exact ihRest hrest

/-- The template of a component is laid out below the components already entered. -/
def Reading.Lays (r : Reading) (lib : Library) (entered : List String) (name : String) : Prop :=
  ∃ nodes owner index id e, r.templates.lookup name = some nodes ∧
    Laid lib entered owner index id nodes e

namespace Registry

variable {reg : Registry} {r : Reading} {entered : List String} {a b : String}

/-- A layout goes along every edge, and never into a component it is in. -/
theorem lays_of_edge (h : r.Lays (reg.library r) entered a)
    (hab : (reg.recordReading r).usage.Edge a b) :
    b ∉ entered ∧ r.Lays (reg.library r) (b :: entered) b := by
  obtain ⟨nodes, owner, index, id, e, hread, hlaid⟩ := h
  obtain ⟨-, nodes', tag, c, hread', htag, hlookup, rfl⟩ := edge_recordReading_iff.1 hab
  obtain rfl : nodes = nodes' := Option.some.inj (hread.symm.trans hread')
  obtain ⟨d, id', content, hfind, hnew, hinner⟩ := hlaid.exists_of_mentions htag
  rw [find?_library_of_lookup? hlookup, Reading.definition?_eq_some_iff] at hfind
  obtain ⟨htemplate, hname, -⟩ := hfind
  rw [hname] at hnew hinner
  exact ⟨hnew, _, _, _, _, _, htemplate, hinner⟩

/-- A layout reaches everything that is used, further and further from the root. -/
theorem lays_of_reaches (h : r.Lays (reg.library r) entered a)
    (hab : (reg.recordReading r).usage.Reaches a b) :
    b ∉ entered ∧ ∃ entered', b ∈ entered' ∧ r.Lays (reg.library r) entered' b := by
  induction hab generalizing entered with
  | @edge a b hab =>
    obtain ⟨hnew, hlays⟩ := lays_of_edge h hab
    exact ⟨hnew, b :: entered, List.mem_cons_self, hlays⟩
  | step hab _ ih =>
    -- What is entered only grows, so the rest of the way avoids what was entered before.
    obtain ⟨-, hlays⟩ := lays_of_edge h hab
    obtain ⟨hnew, hfurther⟩ := ih hlays
    exact ⟨fun hmem => hnew (List.mem_cons_of_mem _ hmem), hfurther⟩

/-- No component whose template is laid out leads to itself. -/
theorem cycleFrom?_eq_none_of_lays (h : r.Lays (reg.library r) [a] a) :
    (reg.recordReading r).usage.cycleFrom? a = none := by
  cases hcycle : (reg.recordReading r).usage.cycleFrom? a with
  | none => rfl
  | some cycle =>
    obtain ⟨d, rfl | hreach, hself⟩ := Graph.exists_reaches_self_of_cycleFrom? hcycle
    · exact absurd List.mem_cons_self (lays_of_reaches h hself).1
    · obtain ⟨-, entered', hmem, hlays⟩ := lays_of_reaches h hreach
      exact absurd hmem (lays_of_reaches hlays hself).1

end Registry

end ViewCompiler
