import ViewCompiler.Proofs.Metadata.Writes

/-!
# Telling getters apart

The members of a component are closed twice: once with all methods, to see which of those that have
the shape of a getter assign nothing, and once with these declared as getters. The second time they
are missing from the call graph, and with them every way through them. No method loses an assignment
by that, however the methods call each other: whatever is reached through a method that assigns
nothing assigns nothing either, so what leads to an assignment leads to it without any getter
(`Declaration.mutates_withGetters_iff`).

The second pass therefore succeeds whenever the first one does, and the two agree on what is mutated
(`GoSource.separateGetters_keeps_mutations`). The metadata of every structure of a Go file come
about that way (`GoSource.exists_separates_of_metadata`).
-/

namespace ViewCompiler

open Relation ViewCompiler.Text

namespace Declaration

variable {d : Declaration} {getters : List String} {m x p : String}

/-! ### What a method mutates -/

/-- A method assigns a name, directly or through a method that it reaches. -/
def Mutates (d : Declaration) (m p : String) : Prop :=
  ∃ x, ReflTransGen d.Calls m x ∧ d.Assigns x p

theorem Mutates.left_mem (h : d.Mutates m p) : m ∈ d.methodNames := by
  obtain ⟨x, hmx, hx⟩ := h
  rcases reflTransGen_iff_eq_or_transGen.1 hmx with rfl | hmx
  · exact hx.left_mem
  · exact left_mem_of_transGen hmx

/-- Closing a well-formed declaration finds what its methods mutate. -/
theorem mem_mutates_close_iff_mutates (h : d.IsWellFormed) :
    p ∈ (d.close m).mutates ↔ d.Mutates m p := by
  rw [mem_mutates_close_iff h]
  simp only [mem_reachable_close_iff h]
  constructor
  · rintro (hm | ⟨x, hmx, hx⟩)
    · exact ⟨m, .refl, hm⟩
    · exact ⟨x, hmx.to_reflTransGen, hx⟩
  · rintro ⟨x, hmx, hx⟩
    rcases reflTransGen_iff_eq_or_transGen.1 hmx with rfl | hmx
    · exact .inl hx
    · exact .inr ⟨x, hmx, hx⟩

/-! ### Methods declared as getters -/

/-- The declaration with some of its methods declared as getters. -/
def withGetters (d : Declaration) (getters : List String) : Declaration :=
  { d with getters, methods := d.methods.filter fun e => !getters.contains e.1 }

private theorem withGetters_nil (h : d.getters = []) : d.withGetters [] = d := by
  obtain ⟨name, properties, getters, methods⟩ := d
  obtain rfl : getters = [] := h
  simp [withGetters]

private theorem mem_methods_withGetters_iff {e : String × MethodEdges} :
    e ∈ (d.withGetters getters).methods ↔ e ∈ d.methods ∧ e.1 ∉ getters := by
  simp [withGetters]

private theorem methodNames_withGetters (d : Declaration) (getters : List String) :
    (d.withGetters getters).methodNames = d.methodNames.filter (!getters.contains ·) := by
  simp only [methodNames, withGetters, List.filter_map, Function.comp_def]

/-- Getters neither call nor are called. -/
theorem calls_withGetters_iff :
    (d.withGetters getters).Calls m x ↔ d.Calls m x ∧ m ∉ getters ∧ x ∉ getters := by
  simp only [Calls, mem_methods_withGetters_iff, methodNames_withGetters, List.mem_filter]
  constructor
  · rintro ⟨e, ⟨he, hm⟩, hcall, hx, hkept⟩
    exact ⟨⟨e, he, hcall, hx⟩, hm, by simpa using hkept⟩
  · rintro ⟨⟨e, he, hcall, hx⟩, hm, hkept⟩
    exact ⟨e, ⟨he, hm⟩, hcall, hx, by simpa using hkept⟩

/-- Getters assign nothing. -/
theorem assigns_withGetters_iff :
    (d.withGetters getters).Assigns m p ↔ d.Assigns m p ∧ m ∉ getters := by
  simp only [Assigns, mem_methods_withGetters_iff]
  constructor
  · rintro ⟨e, ⟨he, hm⟩, hp⟩
    exact ⟨⟨e, he, hp⟩, hm⟩
  · rintro ⟨⟨e, he, hp⟩, hm⟩
    exact ⟨e, ⟨he, hm⟩, hp⟩

/-- Getters that mutate nothing may be left out of the call graph. -/
theorem mutates_withGetters_iff (hpure : ∀ g ∈ getters, ∀ p, ¬d.Mutates g p) :
    (d.withGetters getters).Mutates m p ↔ d.Mutates m p := by
  have hkept : ∀ {n}, d.Mutates n p → n ∉ getters := fun hn hmem => hpure _ hmem p hn
  constructor
  · rintro ⟨x, hmx, hx⟩
    have hcalls : ∀ a b, (d.withGetters getters).Calls a b → d.Calls a b :=
      fun _ _ h => (calls_withGetters_iff.1 h).1
    exact ⟨x, ReflTransGen.mono hcalls _ _ hmx, (assigns_withGetters_iff.1 hx).1⟩
  · rintro ⟨x, hmx, hx⟩
    -- Every method on the way to the assignment mutates the name, so none of them is a getter.
    induction hmx using ReflTransGen.head_induction_on with
    | refl => exact ⟨x, .refl, assigns_withGetters_iff.2 ⟨hx, hkept ⟨x, .refl, hx⟩⟩⟩
    | head hmy hyx ih =>
      obtain ⟨z, hyz, hz⟩ := ih
      have hcall := calls_withGetters_iff.2 ⟨hmy, hkept ⟨x, .head hmy hyx, hx⟩, hkept ⟨x, hyx, hx⟩⟩
      exact ⟨z, .head hcall hyz, hz⟩

/-- The same names are declared as before, in another order. -/
private theorem memberNames_withGetters (h : d.methodNames.Nodup) (hnone : d.getters = [])
    (hgetters : getters.Sublist d.methodNames) :
    (d.withGetters getters).memberNames.Perm d.memberNames := by
  have hmoved : getters.Perm (d.methodNames.filter getters.contains) := by
    refine (List.perm_ext_iff_of_nodup (hgetters.nodup h) (h.filter _)).2 fun g => ?_
    rw [List.mem_filter, List.contains_iff_mem]
    exact ⟨fun hg => ⟨hgetters.subset hg, hg⟩, And.right⟩
  have hmethods : (getters ++ d.methodNames.filter (!getters.contains ·)).Perm d.methodNames :=
    (hmoved.append_right _).trans (List.filter_append_perm _ _)
  rw [memberNames, memberNames, methodNames_withGetters, hnone, List.append_nil, List.append_assoc]
  exact hmethods.append_left d.properties

/-- A declaration stays well formed when some of its methods become getters. -/
theorem IsWellFormed.withGetters (h : d.IsWellFormed) (hnone : d.getters = [])
    (hgetters : getters.Sublist d.methodNames) : (d.withGetters getters).IsWellFormed := by
  have hperm := memberNames_withGetters h.nodup_methods hnone hgetters
  exact ⟨fun hmem => h.named (hperm.mem_iff.1 hmem), hperm.nodup_iff.2 h.nodup⟩

end Declaration

namespace Metadata

variable {d : Declaration} {md : Metadata} {m p : String}

/-! ### The metadata of a declaration -/

/-- The metadata of a declaration say what its methods mutate. -/
theorem mem_mutates_iff (h : ofDeclaration d = .ok md) : p ∈ md.mutates m ↔ d.Mutates m p := by
  have hwf := (ofDeclaration_eq_ok_iff.1 h).1
  by_cases hm : m ∈ d.methodNames
  · rw [mutates_of_ofDeclaration h hm, Declaration.mem_mutates_close_iff_mutates hwf]
  · refine iff_of_false (fun hp => ?_) fun hp => hm hp.left_mem
    have hnone : md.method? m = none := by
      obtain ⟨-, rfl⟩ := ofDeclaration_eq_ok_iff.1 h
      simp only [method?, List.find?_eq_none, List.mem_map, mem_sortStrings]
      rintro _ ⟨n, hn, rfl⟩ heq
      exact hm (beq_iff_eq.1 heq ▸ hn)
    rw [mutates, hnone] at hp
    cases hp

theorem pairwise_mutates (h : ofDeclaration d = .ok md) (m : String) :
    (md.mutates m).Pairwise (· < ·) := by
  obtain ⟨-, rfl⟩ := ofDeclaration_eq_ok_iff.1 h
  rw [mutates]
  cases hmethod : method? _ m with
  | none => exact .nil
  | some f =>
    obtain ⟨n, -, rfl⟩ := List.mem_map.1 (List.mem_of_find?_eq_some hmethod)
    exact Declaration.pairwise_mutates_close d n

/-- A property can change exactly if some method mutates it. -/
theorem canMutate_iff (h : ofDeclaration d = .ok md) :
    md.canMutate p = true ↔ ∃ m, d.Mutates m p := by
  have hwf := (ofDeclaration_eq_ok_iff.1 h).1
  rw [canMutate_iff_of_ofDeclaration h]
  simp only [Declaration.mem_mutates_close_iff_mutates hwf]
  exact exists_congr fun m => and_iff_right_of_imp Declaration.Mutates.left_mem

private theorem map_name_methods (h : ofDeclaration d = .ok md) :
    md.methods.map (·.name) = sortStrings d.methodNames := by
  obtain ⟨-, rfl⟩ := ofDeclaration_eq_ok_iff.1 h
  rw [List.map_map]
  exact List.map_id _

/-! ### Two passes -/

/-- Metadata that differs from `all` in that the methods of getter shape that mutate nothing are
getters: what a method mutates and what can be mutated is the same. -/
structure Separates (md all : Metadata) (shaped : List String) : Prop where
  properties_eq : md.properties = all.properties
  mem_getters_iff : ∀ g, g ∈ md.getters ↔ g ∈ shaped ∧ all.mutates g = []
  mem_methods_iff : ∀ m,
    m ∈ md.methods.map (·.name) ↔ m ∈ all.methods.map (·.name) ∧ m ∉ md.getters
  mutates_eq : ∀ m, md.mutates m = all.mutates m
  canMutate_eq : ∀ p, md.canMutate p = all.canMutate p

/-- The second pass finds what the first pass found. -/
private theorem separates_withGetters {all : Metadata} {shaped : List String}
    (hall : ofDeclaration d = .ok all)
    (h : ofDeclaration (d.withGetters (shaped.filter fun m => (all.mutates m).isEmpty)) = .ok md) :
    md.Separates all shaped := by
  have hpure : ∀ g ∈ shaped.filter (fun m => (all.mutates m).isEmpty), ∀ p, ¬d.Mutates g p := by
    intro g hg p hp
    have hmem := (mem_mutates_iff hall).2 hp
    rw [List.isEmpty_iff.1 (List.mem_filter.1 hg).2] at hmem
    cases hmem
  have hsame : ∀ {m p}, (d.withGetters _).Mutates m p ↔ d.Mutates m p :=
    Declaration.mutates_withGetters_iff hpure
  have hgetters : ∀ g, g ∈ md.getters ↔ g ∈ shaped.filter fun m => (all.mutates m).isEmpty := by
    obtain ⟨-, rfl⟩ := ofDeclaration_eq_ok_iff.1 h
    exact fun g => mem_sortStrings
  refine ⟨?_, fun g => ?_, fun m => ?_, fun m => ?_, fun p => ?_⟩
  · obtain ⟨-, rfl⟩ := ofDeclaration_eq_ok_iff.1 h
    obtain ⟨-, rfl⟩ := ofDeclaration_eq_ok_iff.1 hall
    rfl
  · rw [hgetters, List.mem_filter, List.isEmpty_iff]
  · rw [map_name_methods h, map_name_methods hall, mem_sortStrings, mem_sortStrings,
      Declaration.methodNames_withGetters, List.mem_filter, hgetters, Bool.not_eq_true',
      ← Bool.not_eq_true, List.contains_iff_mem]
  · refine (pairwise_mutates h m).eq_of_mem_iff (pairwise_mutates hall m) fun p => ?_
    rw [mem_mutates_iff h, mem_mutates_iff hall, hsame]
  · rw [Bool.eq_iff_iff, canMutate_iff h, canMutate_iff hall]
    exact exists_congr fun m => hsame

end Metadata

namespace GoSource

variable {d : Declaration} {shaped : List String}

/-- The second pass, which is the first one again where there are no getters. -/
theorem separateGetters_eq {all : Metadata} (hnone : d.getters = [])
    (hall : Metadata.ofDeclaration d = .ok all) : separateGetters d shaped =
      Metadata.ofDeclaration (d.withGetters (shaped.filter fun m => (all.mutates m).isEmpty)) := by
  have hunfold : separateGetters d shaped =
      if (shaped.filter fun m => (all.mutates m).isEmpty).isEmpty then .ok all
      else Metadata.ofDeclaration
        (d.withGetters (shaped.filter fun m => (all.mutates m).isEmpty)) := by
    rw [separateGetters, hall]
    rfl
  rw [hunfold]
  split
  · rename_i hempty
    rw [List.isEmpty_iff.1 hempty, Declaration.withGetters_nil hnone, hall]
  · rfl

/-- Where the first pass succeeds, so does the second one. -/
theorem exists_separates {all : Metadata} (hnone : d.getters = [])
    (hshaped : shaped.Sublist d.methodNames) (hall : Metadata.ofDeclaration d = .ok all) :
    ∃ md, separateGetters d shaped = .ok md ∧ md.Separates all shaped := by
  have hwf := (Metadata.ofDeclaration_eq_ok_iff.1 hall).1
  have hgetters : (shaped.filter fun m => (all.mutates m).isEmpty).Sublist d.methodNames :=
    List.filter_sublist.trans hshaped
  obtain ⟨md, hmd⟩ : ∃ md, Metadata.ofDeclaration
      (d.withGetters (shaped.filter fun m => (all.mutates m).isEmpty)) = .ok md :=
    ⟨_, Metadata.ofDeclaration_eq_ok_iff.2 ⟨hwf.withGetters hnone hgetters, rfl⟩⟩
  exact ⟨md, (separateGetters_eq hnone hall).trans hmd, Metadata.separates_withGetters hall hmd⟩

/-- The metadata of a structure of a file separate the methods of getter shape that mutate nothing
from all its methods. -/
theorem exists_separates_of_metadata {f : File} {typeName : String} {md : Metadata}
    (h : metadata f typeName = .ok md) :
    ∃ s all, Structure.find? f typeName = some s ∧
      Metadata.ofDeclaration (declarationOf f s) = .ok all ∧
        md.Separates all (((methodsOf f s).filter (·.isGetterShaped)).map (·.name)) := by
  rw [metadata] at h
  cases hfind : Structure.find? f typeName with
  | none =>
    rw [hfind] at h
    cases h
  | some s =>
    rw [hfind] at h
    have hseparate : separateGetters (declarationOf f s)
        (((methodsOf f s).filter (·.isGetterShaped)).map (·.name)) = .ok md :=
          mapError_eq_ok_iff.1 h
    obtain ⟨all, -, hall, -⟩ := separateGetters_cases hseparate
    have hshaped : (((methodsOf f s).filter (·.isGetterShaped)).map (·.name)).Sublist
        (declarationOf f s).methodNames := by
      have hnames : (declarationOf f s).methodNames = (methodsOf f s).map (·.name) := by
        simp [Declaration.methodNames, declarationOf]
      rw [hnames]
      exact List.filter_sublist.map _
    obtain ⟨md', hmd', hseparates⟩ := exists_separates rfl hshaped hall
    obtain rfl := Except.ok.inj (hmd'.symm.trans hseparate)
    exact ⟨s, all, rfl, hall, hseparates⟩

/-- Whatever methods have the shape of a getter, telling the getters apart fails only where the
members cannot be declared at all, and it changes nothing of what the methods mutate. -/
theorem separateGetters_keeps_mutations (hnone : d.getters = [])
    (hshaped : shaped.Sublist d.methodNames) :
    (∀ e, Metadata.ofDeclaration d = .error e → separateGetters d shaped = .error e) ∧
      ∀ all, Metadata.ofDeclaration d = .ok all →
        ∃ md, separateGetters d shaped = .ok md ∧ md.Separates all shaped := by
  refine ⟨fun e he => ?_, fun all hall => exists_separates hnone hshaped hall⟩
  rw [separateGetters, he]
  rfl

/-- Two methods that call each other, one of them of getter shape, and two getters that one of the
methods reads. -/
def Sample.tally : Declaration where
  name := "Tally"
  properties := ["n"]
  methods := [("Next", ⟨["Add", "Twice"], []⟩), ("Add", ⟨["Next"], ["n"]⟩), ("Twice", ⟨["N"], []⟩),
    ("N", ⟨[], []⟩)]

def Sample.closedTally : Metadata where
  name := "Tally"
  properties := ["n"]
  getters := []
  methods := [⟨"Add", ["Add", "N", "Next", "Twice"], ["n"]⟩, ⟨"N", [], []⟩,
    ⟨"Next", ["Add", "N", "Next", "Twice"], ["n"]⟩, ⟨"Twice", ["N"], []⟩]

def Sample.separatedTally : Metadata where
  name := "Tally"
  properties := ["n"]
  getters := ["N", "Twice"]
  methods := [⟨"Add", ["Add", "Next"], ["n"]⟩, ⟨"Next", ["Add", "Next"], ["n"]⟩]

/-- Of three methods of getter shape two become getters; the third one calls a method that assigns,
on a ring, and stays a method. -/
theorem separateGetters_keeps_mutations_tally :
    Metadata.ofDeclaration Sample.tally = .ok Sample.closedTally ∧
      separateGetters Sample.tally ["Next", "Twice", "N"] = .ok Sample.separatedTally ∧
        Sample.separatedTally.Separates Sample.closedTally ["Next", "Twice", "N"] := by
  have hclosed : ["Add", "N", "Next", "Twice"].map Sample.tally.close =
      Sample.closedTally.methods := by
    have hadd : Sample.tally.callGraph.explore (Sample.tally.callGraph.next "Add") [] =
        ["N", "Twice", "Add", "Next"] := by
      simp [Graph.explore, Graph.next, Declaration.callGraph, Sample.tally, List.lookup]
    have hn : Sample.tally.callGraph.explore (Sample.tally.callGraph.next "N") [] = [] := by
      simp [Graph.explore, Graph.next, Declaration.callGraph, Sample.tally, List.lookup]
    have hnext : Sample.tally.callGraph.explore (Sample.tally.callGraph.next "Next") [] =
        ["N", "Twice", "Next", "Add"] := by
      simp [Graph.explore, Graph.next, Declaration.callGraph, Sample.tally, List.lookup]
    have htwice :
        Sample.tally.callGraph.explore (Sample.tally.callGraph.next "Twice") [] = ["N"] := by
      simp [Graph.explore, Graph.next, Declaration.callGraph, Sample.tally, List.lookup]
    simp only [List.map_cons, List.map_nil, Declaration.close, Graph.reachable, hadd, hn, hnext,
      htwice]
    decide
  -- Without the getters, the methods that remain call each other.
  have hseparated : ["Add", "Next"].map (Sample.tally.withGetters ["Twice", "N"]).close =
      Sample.separatedTally.methods := by
    have hadd : (Sample.tally.withGetters ["Twice", "N"]).callGraph.explore
        ((Sample.tally.withGetters ["Twice", "N"]).callGraph.next "Add") [] = ["Add", "Next"] := by
      simp [Graph.explore, Graph.next, Declaration.callGraph, Declaration.withGetters, Sample.tally,
        List.lookup]
    have hnext : (Sample.tally.withGetters ["Twice", "N"]).callGraph.explore
        ((Sample.tally.withGetters ["Twice", "N"]).callGraph.next "Next") [] = ["Next", "Add"] := by
      simp [Graph.explore, Graph.next, Declaration.callGraph, Declaration.withGetters, Sample.tally,
        List.lookup]
    simp only [List.map_cons, List.map_nil, Declaration.close, Graph.reachable, hadd, hnext]
    decide
  have hall : Metadata.ofDeclaration Sample.tally = .ok Sample.closedTally :=
    Metadata.ofDeclaration_eq_ok _ ⟨by decide, by decide⟩ rfl ⟨by decide, by decide⟩
      ⟨by decide, by decide⟩ ⟨by decide, by decide⟩ hclosed
  have hseparate : separateGetters Sample.tally ["Next", "Twice", "N"] =
      .ok Sample.separatedTally := by
    have hgetters :
        (["Next", "Twice", "N"].filter fun m => (Sample.closedTally.mutates m).isEmpty) =
        ["Twice", "N"] := by decide
    rw [separateGetters_eq rfl hall, hgetters]
    exact Metadata.ofDeclaration_eq_ok _ ⟨by decide, by decide⟩ rfl ⟨by decide, by decide⟩
      ⟨by decide, by decide⟩ ⟨by decide, by decide⟩ hseparated
  have hshaped : ["Next", "Twice", "N"].Sublist Sample.tally.methodNames := by decide
  obtain ⟨md, hmd, hkeeps⟩ := (separateGetters_keeps_mutations rfl hshaped).2 _ hall
  obtain rfl := Except.ok.inj (hmd.symm.trans hseparate)
  exact ⟨hall, hseparate, hkeeps⟩

end GoSource

end ViewCompiler
