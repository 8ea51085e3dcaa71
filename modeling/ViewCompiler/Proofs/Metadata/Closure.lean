import Mathlib
import ViewCompiler.Metadata.Basic
import ViewCompiler.Proofs.Graph
import ViewCompiler.Proofs.Outcome
import ViewCompiler.Proofs.Text.Order

/-!
# Metadata as the closure of a declaration

A declaration gives the direct edges of the methods of a component, and its metadata gives what
follows from them. A declaration is refused exactly when a member has no name or a name is declared
twice; otherwise its metadata lists, for each method, the methods reached by one or more calls and
everything that the method and those methods assign (`Metadata.closes_declaration`). Closing the
edges again changes nothing: what metadata declares has that metadata
(`Metadata.ofDeclaration_toDeclaration`).

A method is looked up by its name, so everything here is stated of declarations without repeated
names.

The specification uses the transitive closure of the direct calls, and the code searches the graph
of calls. That the search finds exactly what is reached is known of every graph
(`Graph.mem_reachable_iff`), so what is left is to tell the edges of the graph from those of the
declaration: a call of something that is no method is not an edge, since only methods have edges
(`Calls`). All lists of metadata are sorted and without repetition, which makes them equal where
they have the same members.

For the second statement the declaration that is written from metadata has, as the direct edges of a
method, all that it reaches. The closure of a transitive relation is the relation itself.

The sample is a counter with two methods that call each other and one that calls nothing.
-/

namespace ViewCompiler

open Relation ViewCompiler.Text

/-- Where no name occurs twice, looking up a name finds what is listed with it. -/
theorem lookup_eq_some_iff_mem {α : Type} {xs : List (String × α)} (h : (xs.map Prod.fst).Nodup)
    {k : String} {a : α} : xs.lookup k = some a ↔ (k, a) ∈ xs := by
  induction xs with
  | nil => simp
  | cons x xs ih =>
    obtain ⟨hnew, hxs⟩ := List.nodup_cons.1 h
    rw [List.lookup_cons, List.mem_cons]
    by_cases hk : k = x.1
    · subst hk
      have hnot : (x.1, a) ∉ xs := fun hmem => hnew (List.mem_map.2 ⟨_, hmem, rfl⟩)
      simp [hnot, Prod.ext_iff, eq_comm]
    · have hne : (k, a) ≠ x := fun heq => hk (heq ▸ rfl)
      simp [beq_false_of_ne hk, hne, ih hxs]

namespace Declaration

variable {d d' : Declaration} {m x p : String}

/-! ### Direct edges -/

/-- The names of the declared methods. -/
def methodNames (d : Declaration) : List String := d.methods.map (·.1)

/-- Every name that is declared, as often as it is. -/
def memberNames (d : Declaration) : List String := d.properties ++ d.getters ++ d.methodNames

/-- A method calls a declared method directly. -/
def Calls (d : Declaration) (m x : String) : Prop :=
  ∃ e, (m, e) ∈ d.methods ∧ x ∈ e.calls ∧ x ∈ d.methodNames

/-- A method assigns a name directly, whether that is declared or not. -/
def Assigns (d : Declaration) (m p : String) : Prop := ∃ e, (m, e) ∈ d.methods ∧ p ∈ e.assigns

/-- Every member has a name, and no two have the same. -/
structure IsWellFormed (d : Declaration) : Prop where
  named : "" ∉ d.memberNames
  nodup : d.memberNames.Nodup

theorem IsWellFormed.nodup_methods (h : d.IsWellFormed) : (d.methods.map Prod.fst).Nodup :=
  (List.nodup_append.1 h.nodup).2.1

/-- The names of methods are those that have edges. -/
theorem mem_methodNames_iff : m ∈ d.methodNames ↔ ∃ e, (m, e) ∈ d.methods := by
  simp [methodNames]

/-- Only methods call. -/
theorem Calls.left_mem (h : d.Calls m x) : m ∈ d.methodNames :=
  mem_methodNames_iff.2 (h.imp fun _ he => he.1)

/-- Only methods are called. -/
private theorem Calls.right_mem (h : d.Calls m x) : x ∈ d.methodNames := by
  obtain ⟨-, -, -, hx⟩ := h
  exact hx

/-- Only methods reach others. -/
theorem left_mem_of_transGen (h : TransGen d.Calls m x) : m ∈ d.methodNames := by
  obtain ⟨y, hmy, -⟩ := TransGen.head'_iff.1 h
  exact hmy.left_mem

/-- Only methods are reached. -/
private theorem right_mem_of_transGen (h : TransGen d.Calls m x) : x ∈ d.methodNames := by
  obtain ⟨y, -, hyx⟩ := TransGen.tail'_iff.1 h
  exact hyx.right_mem

/-- Only methods assign. -/
theorem Assigns.left_mem (h : d.Assigns m p) : m ∈ d.methodNames :=
  mem_methodNames_iff.2 (h.imp fun _ he => he.1)

/-! ### The check -/

private theorem map_fst_members (d : Declaration) : d.members.map Prod.fst = d.memberNames := by
  simp [members, memberNames, methodNames, Function.comp_def]

/-- The invariant of the check: what remains has names of its own, apart from those already seen. -/
theorem checkFrom_eq_ok_iff {component : String} {seen rest : List (String × MemberKind)} :
    checkFrom component seen rest = .ok () ↔
      "" ∉ rest.map Prod.fst ∧ (rest.map Prod.fst).Nodup ∧
        ∀ n ∈ rest.map Prod.fst, n ∉ seen.map Prod.fst := by
  induction rest generalizing seen with
  | nil => simp [checkFrom]
  | cons entry rest ih =>
    obtain ⟨n, kind⟩ := entry
    rw [checkFrom]
    by_cases hn : n = ""
    · simp [hn]
    · rw [if_neg hn]
      cases hseen : seen.lookup n with
      | some first =>
        have hmem : n ∈ seen.map Prod.fst := by
          obtain ⟨l, r, heq, -⟩ := List.lookup_eq_some_iff.1 hseen
          rw [heq]
          simp
        refine iff_of_false nofun ?_
        rintro ⟨-, -, hapart⟩
        exact hapart n List.mem_cons_self hmem
      | none =>
        -- The name joins those already seen, and the rest has to be apart from it as well.
        have hmem : n ∉ seen.map Prod.fst := by
          intro h
          obtain ⟨e, he, rfl⟩ := List.mem_map.1 h
          simpa using List.lookup_eq_none_iff.1 hseen e he
        rw [ih]
        simp only [List.map_cons, List.mem_cons, List.nodup_cons, not_or, forall_eq_or_imp]
        constructor
        · rintro ⟨hnamed, hnodup, hapart⟩
          have hnew : n ∉ rest.map Prod.fst := fun h => (hapart n h).1 rfl
          exact ⟨⟨Ne.symm hn, hnamed⟩, ⟨hnew, hnodup⟩, hmem, fun k hk => (hapart k hk).2⟩
        · rintro ⟨⟨-, hnamed⟩, ⟨hnew, hnodup⟩, -, hapart⟩
          exact ⟨hnamed, hnodup, fun k hk => ⟨fun heq => hnew (heq ▸ hk), hapart k hk⟩⟩

/-- A declaration is accepted exactly if it is well formed. -/
theorem check_eq_ok_iff : d.check = .ok () ↔ d.IsWellFormed := by
  rw [check, checkFrom_eq_ok_iff, map_fst_members]
  constructor
  · rintro ⟨hnamed, hnodup, -⟩
    exact ⟨hnamed, hnodup⟩
  · rintro ⟨hnamed, hnodup⟩
    exact ⟨hnamed, hnodup, by simp⟩

/-! ### Closing the edges of a method -/

/-- The edges of the call graph are the direct calls. -/
theorem edge_callGraph_iff (h : d.IsWellFormed) : d.callGraph.Edge m x ↔ d.Calls m x := by
  have hnodup : (d.callGraph.edges.map Prod.fst).Nodup := by
    simpa [callGraph, Function.comp_def] using h.nodup_methods
  have hnext : d.callGraph.Edge m x ↔ ∃ xs, (m, xs) ∈ d.callGraph.edges ∧ x ∈ xs := by
    rw [Graph.Edge, Graph.next]
    cases hlookup : d.callGraph.edges.lookup m with
    | none =>
      have hnone : ∀ xs, (m, xs) ∉ d.callGraph.edges := fun xs hmem => by
        rw [(lookup_eq_some_iff_mem hnodup).2 hmem] at hlookup
        cases hlookup
      simp [hnone]
    | some xs =>
      have hmem := (lookup_eq_some_iff_mem hnodup).1 hlookup
      refine ⟨fun hx => ⟨xs, hmem, hx⟩, ?_⟩
      rintro ⟨ys, hys, hx⟩
      obtain rfl : xs = ys :=
        Option.some.inj (hlookup.symm.trans ((lookup_eq_some_iff_mem hnodup).2 hys))
      exact hx
  rw [hnext]
  simp only [callGraph, List.mem_map, Prod.mk.injEq, Prod.exists, Calls]
  constructor
  · rintro ⟨_, ⟨n, e, he, rfl, rfl⟩, hx⟩
    obtain ⟨hcall, hdeclared⟩ := List.mem_filter.1 hx
    exact ⟨e, he, hcall, List.contains_iff_mem.1 hdeclared⟩
  · rintro ⟨e, he, hcall, hdeclared⟩
    exact ⟨_, ⟨m, e, he, rfl, rfl⟩, List.mem_filter.2 ⟨hcall, List.contains_iff_mem.2 hdeclared⟩⟩

/-- A method is closed under the calls. -/
theorem mem_reachable_close_iff (h : d.IsWellFormed) :
    x ∈ (d.close m).reachable ↔ TransGen d.Calls m x := by
  have hcalls : d.callGraph.Edge = d.Calls := by
    funext a b
    exact propext (edge_callGraph_iff h)
  rw [close, Graph.mem_reachable_iff, Graph.reaches_iff_transGen, hcalls]

/-- What a method of a well-formed declaration assigns is read off its edges. -/
theorem mem_assignsOf_iff (h : d.IsWellFormed) : p ∈ d.assignsOf m ↔ d.Assigns m p := by
  rw [assignsOf]
  cases hlookup : d.methods.lookup m with
  | none =>
    refine iff_of_false (by simp) ?_
    rintro ⟨e, he, -⟩
    rw [(lookup_eq_some_iff_mem h.nodup_methods).2 he] at hlookup
    cases hlookup
  | some e =>
    refine ⟨fun hp => ⟨e, (lookup_eq_some_iff_mem h.nodup_methods).1 hlookup, hp⟩, ?_⟩
    rintro ⟨f, hf, hp⟩
    obtain rfl : e = f :=
      Option.some.inj (hlookup.symm.trans ((lookup_eq_some_iff_mem h.nodup_methods).2 hf))
    exact hp

/-- What a method assigns is assigned by itself or by a method that it reaches. -/
theorem mem_mutates_close_iff (h : d.IsWellFormed) :
    p ∈ (d.close m).mutates ↔ d.Assigns m p ∨ ∃ x ∈ (d.close m).reachable, d.Assigns x p := by
  change p ∈ sortedSet (d.assignsOf m ++ (d.close m).reachable.flatMap d.assignsOf) ↔ _
  simp only [mem_sortedSet, List.mem_append, List.mem_flatMap, mem_assignsOf_iff h]

private theorem pairwise_reachable_close (d : Declaration) (m : String) :
    (d.close m).reachable.Pairwise (· < ·) := pairwise_sortedSet _

theorem pairwise_mutates_close (d : Declaration) (m : String) :
    (d.close m).mutates.Pairwise (· < ·) := pairwise_sortedSet _

/-- A closed method is known by what it reaches and what it assigns. -/
private theorem close_eq_close (hreach : ∀ x, x ∈ (d.close m).reachable ↔
    x ∈ (d'.close m).reachable)
    (hmutates : ∀ p, p ∈ (d.close m).mutates ↔ p ∈ (d'.close m).mutates) :
    d.close m = d'.close m := by
  have hreachable : (d.close m).reachable = (d'.close m).reachable :=
    (pairwise_reachable_close d m).eq_of_mem_iff (pairwise_reachable_close d' m) hreach
  have hmutated : (d.close m).mutates = (d'.close m).mutates :=
    (pairwise_mutates_close d m).eq_of_mem_iff (pairwise_mutates_close d' m) hmutates
  change Method.mk m (d.close m).reachable (d.close m).mutates =
    Method.mk m (d'.close m).reachable (d'.close m).mutates
  rw [hreachable, hmutated]

end Declaration

namespace Metadata

variable {d : Declaration} {md : Metadata} {m p : String}

/-! ### Closing a declaration -/

/-- A declaration is accepted exactly when it is well formed, and then its methods are closed. -/
theorem ofDeclaration_eq_ok_iff : ofDeclaration d = .ok md ↔
    d.IsWellFormed ∧ md = ⟨d.name, sortStrings d.properties, sortStrings d.getters,
      (sortStrings d.methodNames).map d.close⟩ := by
  rw [ofDeclaration, bind_eq_ok_iff]
  constructor
  · rintro ⟨⟨⟩, hcheck, h⟩
    exact ⟨Declaration.check_eq_ok_iff.1 hcheck, (Except.ok.inj h).symm⟩
  · rintro ⟨h, rfl⟩
    exact ⟨(), Declaration.check_eq_ok_iff.2 h, rfl⟩

/-- Metadata is that of a well-formed declaration where its members are those declared, in order,
and its methods the declared ones closed. The names of the methods in order are given beside
them. -/
theorem ofDeclaration_eq_ok (names : List String) (hwf : d.IsWellFormed) (hname : md.name = d.name)
    (hproperties : md.properties.Pairwise (· < ·) ∧ md.properties.Perm d.properties)
    (hgetters : md.getters.Pairwise (· < ·) ∧ md.getters.Perm d.getters)
    (hnames : names.Pairwise (· < ·) ∧ names.Perm d.methodNames)
    (hmethods : names.map d.close = md.methods) : ofDeclaration d = .ok md := by
  obtain ⟨name, properties, getters, methods⟩ := md
  obtain rfl : name = d.name := hname
  refine ofDeclaration_eq_ok_iff.2 ⟨hwf, ?_⟩
  rw [sortStrings_eq_of_perm hproperties.1 hproperties.2,
    sortStrings_eq_of_perm hgetters.1 hgetters.2, sortStrings_eq_of_perm hnames.1 hnames.2,
    hmethods]

/-- A declared method is found with its edges closed. -/
theorem method?_of_ofDeclaration (h : ofDeclaration d = .ok md) (hm : m ∈ d.methodNames) :
    md.method? m = some (d.close m) := by
  obtain ⟨-, rfl⟩ := ofDeclaration_eq_ok_iff.1 h
  have hm : m ∈ sortStrings d.methodNames := mem_sortStrings.2 hm
  rw [method?]
  generalize sortStrings d.methodNames = names at hm ⊢
  induction names with
  | nil => cases hm
  | cons n names ih =>
    by_cases hn : n = m
    · subst hn
      rw [List.map_cons, List.find?_cons_of_pos]
      exact beq_self_eq_true n
    · rw [List.map_cons, List.find?_cons_of_neg (by simpa [Declaration.close] using hn)]
      exact ih ((List.mem_cons.1 hm).resolve_left (Ne.symm hn))

/-- The metadata of a method say what it reaches by the closed declaration. -/
theorem reachable_of_ofDeclaration (h : ofDeclaration d = .ok md) (hm : m ∈ d.methodNames) :
    md.reachable m = (d.close m).reachable := by
  rw [reachable, method?_of_ofDeclaration h hm]
  rfl

/-- The metadata of a method say what it mutates by the closed declaration. -/
theorem mutates_of_ofDeclaration (h : ofDeclaration d = .ok md) (hm : m ∈ d.methodNames) :
    md.mutates m = (d.close m).mutates := by
  rw [mutates, method?_of_ofDeclaration h hm]
  rfl

/-- A property can change exactly if some method mutates it. -/
theorem canMutate_iff_of_ofDeclaration (h : ofDeclaration d = .ok md) :
    md.canMutate p = true ↔ ∃ m ∈ d.methodNames, p ∈ (d.close m).mutates := by
  obtain ⟨-, rfl⟩ := ofDeclaration_eq_ok_iff.1 h
  simp [canMutate, mem_sortStrings]

/-- Metadata that lists, for every declared method, what follows from the direct edges, and nothing
else. Of the methods that call each other in a circle, each reaches itself. -/
structure Closes (md : Metadata) (d : Declaration) : Prop where
  pairwise_reachable : ∀ m ∈ d.methodNames, (md.reachable m).Pairwise (· < ·)
  mem_reachable_iff : ∀ m ∈ d.methodNames, ∀ x, x ∈ md.reachable m ↔ TransGen d.Calls m x
  pairwise_mutates : ∀ m ∈ d.methodNames, (md.mutates m).Pairwise (· < ·)
  mem_mutates_iff : ∀ m ∈ d.methodNames, ∀ p,
    p ∈ md.mutates m ↔ d.Assigns m p ∨ ∃ x ∈ md.reachable m, d.Assigns x p
  canMutate_iff : ∀ p, md.canMutate p = true ↔ ∃ m ∈ d.methodNames, p ∈ md.mutates m

/-- A declaration is refused exactly when a member has no name or a name is declared twice. The
metadata of any other one is the transitive closure of its direct edges. -/
theorem closes_declaration (d : Declaration) :
    ((∃ e, ofDeclaration d = .error e) ↔ "" ∈ d.memberNames ∨ ¬d.memberNames.Nodup) ∧
      ∀ md, ofDeclaration d = .ok md → md.Closes d := by
  constructor
  · have hok : (∃ md, ofDeclaration d = .ok md) ↔ d.IsWellFormed := by
      simp only [ofDeclaration_eq_ok_iff, exists_and_left, exists_eq, and_true]
    have hwf : d.IsWellFormed ↔ "" ∉ d.memberNames ∧ d.memberNames.Nodup :=
      ⟨fun h => ⟨h.named, h.nodup⟩, fun h => ⟨h.1, h.2⟩⟩
    -- The reader decides: where it does not succeed it refuses.
    rw [hwf] at hok
    cases hd : ofDeclaration d with
    | error e =>
      rw [hd] at hok
      have hnot : ¬("" ∉ d.memberNames ∧ d.memberNames.Nodup) := fun h => by
        obtain ⟨md, hmd⟩ := hok.2 h
        cases hmd
      exact iff_of_true ⟨e, rfl⟩ (by tauto)
    | ok md =>
      rw [hd] at hok
      have hok := hok.1 ⟨md, rfl⟩
      exact iff_of_false nofun (by tauto)
  · intro md h
    have hwf := (ofDeclaration_eq_ok_iff.1 h).1
    refine ⟨fun m hm => ?_, fun m hm x => ?_, fun m hm => ?_, fun m hm p => ?_, fun p => ?_⟩
    · rw [reachable_of_ofDeclaration h hm]
      exact d.pairwise_reachable_close m
    · rw [reachable_of_ofDeclaration h hm]
      exact Declaration.mem_reachable_close_iff hwf
    · rw [mutates_of_ofDeclaration h hm]
      exact d.pairwise_mutates_close m
    · rw [mutates_of_ofDeclaration h hm, reachable_of_ofDeclaration h hm]
      exact Declaration.mem_mutates_close_iff hwf
    · rw [canMutate_iff_of_ofDeclaration h]
      refine exists_congr fun m => and_congr_right fun hm => ?_
      rw [mutates_of_ofDeclaration h hm]

/-- Two methods that call each other, one of which calls something else and assigns a name that is
not declared. -/
def Sample.counter : Declaration where
  name := "Counter"
  properties := ["value", "step"]
  getters := ["double"]
  methods := [("inc", ⟨["bump", "log"], []⟩), ("bump", ⟨["inc"], ["value", "total"]⟩),
    ("reset", ⟨[], ["step"]⟩)]

def Sample.closedCounter : Metadata where
  name := "Counter"
  properties := ["step", "value"]
  getters := ["double"]
  methods := [⟨"bump", ["bump", "inc"], ["total", "value"]⟩,
    ⟨"inc", ["bump", "inc"], ["total", "value"]⟩, ⟨"reset", [], ["step"]⟩]

/-- The counter is accepted, and these are its metadata. -/
theorem ofDeclaration_counter : ofDeclaration Sample.counter = .ok Sample.closedCounter := by
  have hmethods : ["bump", "inc", "reset"].map Sample.counter.close =
      Sample.closedCounter.methods := by
    -- The traversal does not reduce, so what it visits is found by its equations.
    have hbump : Sample.counter.callGraph.explore (Sample.counter.callGraph.next "bump") [] =
        ["bump", "inc"] := by
      simp [Graph.explore, Graph.next, Declaration.callGraph, Sample.counter, List.lookup]
    have hinc : Sample.counter.callGraph.explore (Sample.counter.callGraph.next "inc") [] =
        ["inc", "bump"] := by
      simp [Graph.explore, Graph.next, Declaration.callGraph, Sample.counter, List.lookup]
    have hreset : Sample.counter.callGraph.explore (Sample.counter.callGraph.next "reset") [] =
        [] := by
      simp [Graph.explore, Graph.next, Declaration.callGraph, Sample.counter, List.lookup]
    simp only [List.map_cons, List.map_nil, Declaration.close, Graph.reachable, hbump, hinc, hreset]
    decide
  exact ofDeclaration_eq_ok _ ⟨by decide, by decide⟩ rfl ⟨by decide, by decide⟩
    ⟨by decide, by decide⟩ ⟨by decide, by decide⟩ hmethods

/-- The metadata of the counter close its declaration: the two methods that call each other reach
both of them, and assign the same. -/
theorem closes_declaration_counter : ofDeclaration Sample.counter = .ok Sample.closedCounter ∧
    Sample.closedCounter.Closes Sample.counter :=
  ⟨ofDeclaration_counter, (closes_declaration Sample.counter).2 _ ofDeclaration_counter⟩

/-! ### Declaring what is closed -/

/-- The declared names of metadata are those of its declaration. -/
private theorem memberNames_toDeclaration (h : ofDeclaration d = .ok md) :
    md.toDeclaration.memberNames.Perm d.memberNames := by
  obtain ⟨-, rfl⟩ := ofDeclaration_eq_ok_iff.1 h
  have hmethods : ((sortStrings d.methodNames).map fun m => (d.close m).name) =
      sortStrings d.methodNames := List.map_id _
  simp only [Declaration.memberNames, Declaration.methodNames, toDeclaration, List.map_map,
    Function.comp_def] at hmethods ⊢
  rw [hmethods]
  exact ((sortStrings_perm _).append (sortStrings_perm _)).append (sortStrings_perm _)

/-- A declaration written from metadata has the same methods, sorted. -/
theorem methodNames_toDeclaration (h : ofDeclaration d = .ok md) :
    md.toDeclaration.methodNames = sortStrings d.methodNames := by
  obtain ⟨-, rfl⟩ := ofDeclaration_eq_ok_iff.1 h
  simp only [Declaration.methodNames, toDeclaration, List.map_map]
  exact List.map_id _

/-- A declaration written from metadata gives every method all that it reaches and mutates. -/
theorem mem_methods_toDeclaration_iff (h : ofDeclaration d = .ok md) {e : MethodEdges} :
    (m, e) ∈ md.toDeclaration.methods ↔
      m ∈ d.methodNames ∧ e = ⟨(d.close m).reachable, (d.close m).mutates⟩ := by
  obtain ⟨-, rfl⟩ := ofDeclaration_eq_ok_iff.1 h
  simp only [toDeclaration, List.map_map, List.mem_map, mem_sortStrings, Function.comp_apply,
    Prod.mk.injEq]
  constructor
  · rintro ⟨n, hn, rfl, rfl⟩
    exact ⟨hn, rfl⟩
  · rintro ⟨hm, rfl⟩
    exact ⟨m, hm, rfl, rfl⟩

/-- The direct calls of what is closed are the calls in one or more steps. -/
theorem calls_toDeclaration_iff (h : ofDeclaration d = .ok md) {m x : String} :
    md.toDeclaration.Calls m x ↔ TransGen d.Calls m x := by
  have hwf := (ofDeclaration_eq_ok_iff.1 h).1
  simp only [Declaration.Calls, methodNames_toDeclaration h, mem_sortStrings,
    mem_methods_toDeclaration_iff h]
  constructor
  · rintro ⟨_, ⟨-, rfl⟩, hx, -⟩
    exact (Declaration.mem_reachable_close_iff hwf).1 hx
  · intro hx
    exact ⟨_, ⟨Declaration.left_mem_of_transGen hx, rfl⟩,
      (Declaration.mem_reachable_close_iff hwf).2 hx, Declaration.right_mem_of_transGen hx⟩

/-- What is assigned directly in what is closed is all that is assigned. -/
theorem assigns_toDeclaration_iff (h : ofDeclaration d = .ok md) :
    md.toDeclaration.Assigns m p ↔ m ∈ d.methodNames ∧ p ∈ (d.close m).mutates := by
  simp only [Declaration.Assigns, mem_methods_toDeclaration_iff h]
  constructor
  · rintro ⟨_, ⟨hm, rfl⟩, hp⟩
    exact ⟨hm, hp⟩
  · rintro ⟨hm, hp⟩
    exact ⟨_, ⟨hm, rfl⟩, hp⟩

/-- Closing closed edges changes no method. -/
private theorem close_toDeclaration (h : ofDeclaration d = .ok md)
    (hwf : md.toDeclaration.IsWellFormed)
    (hm : m ∈ d.methodNames) : md.toDeclaration.close m = d.close m := by
  have hd := (ofDeclaration_eq_ok_iff.1 h).1
  have hcalls : md.toDeclaration.Calls = TransGen d.Calls := by
    funext a b
    exact propext (calls_toDeclaration_iff h)
  have hreach : ∀ x, x ∈ (md.toDeclaration.close m).reachable ↔ x ∈ (d.close m).reachable := by
    intro x
    rw [Declaration.mem_reachable_close_iff hwf, Declaration.mem_reachable_close_iff hd, hcalls,
      transGen_eq_self]
  -- A method that is reached assigns, once closed, what it and those behind it assigned before.
  refine Declaration.close_eq_close hreach fun p => ?_
  simp only [Declaration.mem_mutates_close_iff hwf, hreach, assigns_toDeclaration_iff h]
  constructor
  · rintro (⟨-, hp⟩ | ⟨x, hx, -, hp⟩)
    · exact hp
    · rcases (Declaration.mem_mutates_close_iff hd).1 hp with hp | ⟨y, hy, hp⟩
      · exact (Declaration.mem_mutates_close_iff hd).2 (.inr ⟨x, hx, hp⟩)
      · refine (Declaration.mem_mutates_close_iff hd).2 (.inr ⟨y, ?_, hp⟩)
        rw [Declaration.mem_reachable_close_iff hd] at hx hy ⊢
        exact hx.trans hy
  · exact fun hp => .inl ⟨hm, hp⟩

/-- Metadata is a fixed point: the declaration that it gives is accepted, and has the same metadata.
All that is asked of metadata is therefore answered alike: the kinds of names, the methods reached,
and what can be assigned. -/
theorem ofDeclaration_toDeclaration (h : ofDeclaration d = .ok md) :
    ofDeclaration md.toDeclaration = .ok md := by
  have hperm := memberNames_toDeclaration h
  obtain ⟨hd, hmd⟩ := ofDeclaration_eq_ok_iff.1 h
  have hwf : md.toDeclaration.IsWellFormed :=
    ⟨fun hmem => hd.named (hperm.mem_iff.1 hmem), hperm.nodup_iff.2 hd.nodup⟩
  refine ofDeclaration_eq_ok_iff.2 ⟨hwf, ?_⟩
  have hmethods : (sortStrings md.toDeclaration.methodNames).map md.toDeclaration.close =
      (sortStrings d.methodNames).map d.close := by
    rw [methodNames_toDeclaration h, sortStrings_sortStrings]
    exact List.map_congr_left fun m hm => close_toDeclaration h hwf (mem_sortStrings.1 hm)
  rw [hmethods]
  subst hmd
  simp only [toDeclaration, sortStrings_sortStrings]

/-- The metadata of the counter come back from the declaration that is written from them. -/
theorem ofDeclaration_toDeclaration_counter :
    ofDeclaration Sample.counter = .ok Sample.closedCounter ∧
      ofDeclaration Sample.closedCounter.toDeclaration = .ok Sample.closedCounter :=
  ⟨ofDeclaration_counter, ofDeclaration_toDeclaration ofDeclaration_counter⟩

end Metadata

end ViewCompiler
