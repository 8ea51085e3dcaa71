import Mathlib.Data.String.Basic
import ViewCompiler.Proofs.Graph
import ViewCompiler.Proofs.Template.Forest
import ViewCompiler.Proofs.Text.Order
import ViewCompiler.Registry.Usage

/-!
# Registries that can come about

A registry starts empty and changes by a few operations. All of them keep the components sorted by
name without repetitions (`Registry.Reachable.sorted`), so a component is known by its name.
-/

namespace ViewCompiler.Registry

open ViewCompiler.Text ViewCompiler.Template

/-! ### Operations -/

/-- The registries that can come about. -/
inductive Reachable : Registry → Prop where
  | empty : Reachable {}
  | register {r} (c : Component) (h : Reachable r) : Reachable (r.register c)
  | remove {r} (name : String) (h : Reachable r) : Reachable (r.remove name)
  | removeAt {r} (path : String) (h : Reachable r) : Reachable (r.removeAt path).2
  | recordUses {r} (name : String) (uses : List String) (h : Reachable r) :
      Reachable (r.recordUses name uses)
  | watch {r} (h : Reachable r) : Reachable r.watch
  | unwatch {r} (number : Nat) (h : Reachable r) : Reachable (r.unwatch number)
  | drain {r} (h : Reachable r) : Reachable r.drain.2

/-- The names of the components ascend. -/
def Sorted (r : Registry) : Prop := r.names.Pairwise (· < ·)

theorem place_eq_placeBy (c : Component) (cs : List Component) :
    place c cs = placeBy Component.name c cs := by
  induction cs with
  | nil => rfl
  | cons d ds ih => rw [place, placeBy, ih]

/-- A component is put in its place. -/
private theorem pairwise_names_place {c : Component} {cs : List Component}
    (h : (cs.map Component.name).Pairwise (· < ·)) :
    ((place c cs).map Component.name).Pairwise (· < ·) := by
  rw [place_eq_placeBy]
  exact List.pairwise_map.2 (pairwise_placeBy (List.pairwise_map.1 h))

theorem components_register (r : Registry) (c : Component) :
    (r.register c).components = place c.withTag r.components := by
  simp only [register]
  cases r.get? c.withTag.name with
  | none => rfl
  | some o => rfl

theorem Sorted.register {r : Registry} (h : r.Sorted) (c : Component) : (r.register c).Sorted := by
  rw [Sorted, names, components_register]
  exact pairwise_names_place h

theorem Sorted.remove {r : Registry} (h : r.Sorted) (name : String) : (r.remove name).Sorted := by
  unfold Registry.remove
  split
  · exact h
  · exact List.Pairwise.sublist (List.Sublist.map _ List.filter_sublist) h

theorem Sorted.removeAt {r : Registry} (h : r.Sorted) (path : String) :
    (r.removeAt path).2.Sorted := by
  change ((r.namesAt path).foldl Registry.remove r).Sorted
  generalize r.namesAt path = removed
  induction removed generalizing r with
  | nil => exact h
  | cons n ns ih => exact ih (h.remove n)

/-- Every registry that can come about is sorted. -/
theorem Reachable.sorted {r : Registry} (h : r.Reachable) : r.Sorted := by
  induction h with
  | empty => exact List.Pairwise.nil
  | register c _ ih => exact ih.register c
  | remove name _ ih => exact ih.remove name
  | removeAt path _ ih => exact ih.removeAt path
  | recordUses name uses _ ih =>
    rw [Sorted, names, Registry.recordUses, List.map_map]
    refine (congrArg (List.Pairwise (· < ·)) ?_).mpr ih
    refine List.map_congr_left fun c _ => ?_
    simp only [Function.comp]
    split <;> rfl
  | watch _ ih => exact ih
  | unwatch _ _ ih => exact ih
  | drain _ ih => exact ih

/-- A component is found by its name. -/
theorem get?_name {r : Registry} (h : r.Sorted) {c : Component} (hc : c ∈ r.components) :
    r.get? c.name = some c := by
  unfold get?
  unfold Sorted names at h
  generalize r.components = cs at h hc
  induction cs with
  | nil => cases hc
  | cons d ds ih =>
    rw [List.map_cons, List.pairwise_cons] at h
    rcases List.mem_cons.1 hc with rfl | hc
    · rw [List.find?_cons_of_pos]
      exact decide_eq_true rfl
    · have hlt := h.1 c.name (List.mem_map_of_mem hc)
      rw [List.find?_cons_of_neg (by simpa using hlt.ne)]
      exact ih h.2 hc

theorem mem_of_get? {r : Registry} {name : String} {c : Component} (h : r.get? name = some c) :
    c ∈ r.components ∧ c.name = name := by
  have hname := List.find?_some h
  exact ⟨List.mem_of_find?_eq_some h, of_decide_eq_true hname⟩

theorem lookup?_of_get? {r : Registry} {name : String} {c : Component}
    (h : r.get? name = some c) : r.lookup? name = some c := by
  rw [lookup?, h]
  rfl

theorem mem_of_lookup? {r : Registry} {tag : String} {c : Component} (h : r.lookup? tag = some c) :
    c ∈ r.components := by
  rw [lookup?, Option.or_eq_some_iff] at h
  rcases h with h | ⟨-, h⟩
  · exact (mem_of_get? h).1
  · obtain ⟨name, -, h⟩ := Option.bind_eq_some_iff.1 h
    exact (mem_of_get? h).1

/-! ### Usage -/

/-- A template uses the components that the tags in it refer to. -/
theorem mem_usedIn_iff {r : Registry} {nodes : List Node} {name : String} :
    name ∈ r.usedIn nodes ↔
      ∃ tag c, Mentions nodes tag ∧ r.lookup? tag = some c ∧ c.name = name := by
  rw [usedIn, mem_sortedSet, List.mem_filterMap]
  constructor
  · rintro ⟨node, hnode, hname⟩
    cases node with
    | component span tag bindings =>
      obtain ⟨c, hc, rfl⟩ := Option.map_eq_some_iff.1 hname
      exact ⟨tag, c, ⟨span, bindings, hnode⟩, hc, rfl⟩
    | text => cases hname
    | interpolation => cases hname
    | element => cases hname
    | directive => cases hname
  · rintro ⟨tag, c, ⟨span, bindings, hnode⟩, hc, rfl⟩
    exact ⟨_, hnode, by simp [hc]⟩

end ViewCompiler.Registry
