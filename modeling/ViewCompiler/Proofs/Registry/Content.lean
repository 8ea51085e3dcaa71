import Mathlib.Data.List.Sort
import ViewCompiler.Proofs.Registry.TagIndex

/-!
# What is registered

A registry keeps traces of how it came about: the order of its index, the digests of its components,
and what was recorded of their uses. Two registries are alike when they differ in nothing else
(`Registry.Alike`); the same is then found in them under every name and tag. As long as no two
components carry one tag at the same time, none of them is lost from the index
(`Registry.Indexed.apply`), and registries in which the same is registered under every name are
alike (`Registry.alike_of_content`).
-/

namespace ViewCompiler

/-- What a component is registered with, without its digest and without what was recorded of it. -/
def Component.content (c : Component) : Component := { c with hash := "", uses := [] }

theorem Component.content_eq_iff {c c' : Component} :
    c.content = c'.content ↔ c.name = c'.name ∧ c.tag = c'.tag ∧ c.template = c'.template ∧
      c.style = c'.style ∧ c.metadata = c'.metadata ∧ c.file = c'.file ∧ c.source = c'.source ∧
      c.stylePath = c'.stylePath := by
  simp [content]

namespace Registry

/-! ### Registries with the same contents -/

/-- Two registries in which the same is registered and tags stand for the same names. -/
structure Alike (reg reg' : Registry) : Prop where
  components : reg.components.map Component.content = reg'.components.map Component.content
  tags : ∀ t, reg.tags.lookup t = reg'.tags.lookup t

theorem content_get?_congr {reg reg' : Registry}
    (h : reg.components.map Component.content = reg'.components.map Component.content)
    (name : String) :
    (reg.get? name).map Component.content = (reg'.get? name).map Component.content := by
  have hfind : ∀ cs : List Component, (cs.find? (·.name = name)).map Component.content =
      (cs.map Component.content).find? (·.name = name) := by
    intro cs
    rw [List.find?_map]
    rfl
  rw [get?, get?, hfind, hfind, h]

namespace Alike

variable {reg reg' : Registry} (h : reg.Alike reg')
include h

theorem content_get?_eq (name : String) :
    (reg.get? name).map Component.content = (reg'.get? name).map Component.content :=
  content_get?_congr h.components name

theorem content_lookup?_eq (t : String) :
    (reg.lookup? t).map Component.content = (reg'.lookup? t).map Component.content := by
  rw [lookup?, lookup?, Option.map_or, Option.map_or, Option.map_bind, Option.map_bind,
    h.content_get?_eq, h.tags]
  congr 2
  funext name
  exact h.content_get?_eq name

theorem tag?_eq : reg.tag? = reg'.tag? := by
  funext name
  have htag := congrArg (Option.map Component.tag) (h.content_get?_eq name)
  rwa [Option.map_map, Option.map_map] at htag

theorem names_eq : reg.names = reg'.names := by
  have hnames := congrArg (List.map Component.name) h.components
  rwa [List.map_map, List.map_map] at hnames

end Alike

/-! ### The index -/

/-- Components with the same tag have the same name. -/
def TagsApart (r : Registry) : Prop :=
  ∀ c ∈ r.components, ∀ d ∈ r.components, c.tag = d.tag → c.name = d.name

/-- Every component is found under its tag. -/
def Indexed (r : Registry) : Prop := ∀ c ∈ r.components, r.tags.lookup c.tag = some c.name

/-- No component is lost from the index while tags stay apart. -/
theorem Indexed.apply {r : Registry} (h : r.Indexed) (hsorted : r.Sorted) {op : Operation}
    (happart : r.TagsApart) (happart' : (op.apply r).TagsApart) : (op.apply r).Indexed := by
  intro c hc
  rw [lookup_tags_apply_iff hsorted]
  rcases (mem_components_apply hsorted op).1 hc with hadded | ⟨hbefore, hkept⟩
  · exact .inl ⟨c, hadded, rfl, rfl⟩
  · by_cases hgives : op.Gives c.tag
    · obtain ⟨d, hadded, htag⟩ := hgives
      have hd : d ∈ (op.apply r).components := (mem_components_apply hsorted op).2 (.inl hadded)
      exact .inl ⟨d, hadded, htag, happart' d hd c hc htag⟩
    · refine .inr ⟨hgives, ?_, h c hbefore⟩
      rintro ⟨d, hd, hdrops, htag⟩
      -- The tag goes with the component itself, which was kept.
      have hget := get?_name hsorted hd
      rw [happart d hd c hbefore htag, get?_name hsorted hbefore] at hget
      obtain rfl := Option.some.inj hget
      exact hkept hdrops

private theorem mem_map_content_iff {r : Registry} (hsorted : r.Sorted) {c : Component} :
    c ∈ r.components.map Component.content ↔ (r.get? c.name).map Component.content = some c := by
  rw [List.mem_map, Option.map_eq_some_iff]
  constructor
  · rintro ⟨d, hd, rfl⟩
    exact ⟨d, get?_name hsorted hd, rfl⟩
  · rintro ⟨d, hd, hcontent⟩
    exact ⟨d, (mem_of_get? hd).1, hcontent⟩

private theorem lookup_tags_iff {r : Registry} (hsound : r.IndexSound) (hindexed : r.Indexed)
    {t n : String} :
    r.tags.lookup t = some n ↔ ∃ c ∈ r.components.map Component.content, c.name = n ∧
      c.tag = t := by
  constructor
  · intro hlookup
    obtain ⟨c, hc, hname, htag⟩ := hsound t n hlookup
    exact ⟨c.content, List.mem_map_of_mem hc, hname, htag⟩
  · rintro ⟨_, hmem, rfl, rfl⟩
    obtain ⟨c, hc, rfl⟩ := List.mem_map.1 hmem
    exact hindexed c hc

/-- In two registries with complete indices in which the same is registered under every name, tags
stand for the same names. -/
theorem alike_of_content {r r' : Registry} (hsorted : r.Sorted) (hsorted' : r'.Sorted)
    (hsound : r.IndexSound) (hsound' : r'.IndexSound) (hindexed : r.Indexed)
    (hindexed' : r'.Indexed)
    (hsame : ∀ name, (r.get? name).map Component.content = (r'.get? name).map Component.content) :
    r.Alike r' := by
  have hirrefl : Std.Irrefl fun c d : Component => c.name < d.name := ⟨fun c => lt_irrefl c.name⟩
  have hantisymm : Std.Antisymm fun c d : Component => c.name < d.name :=
    ⟨fun c d h h' => (lt_asymm h h').elim⟩
  have hascending : ∀ r : Registry, r.Sorted →
      (r.components.map Component.content).Pairwise fun c d => c.name < d.name :=
    fun r hr => List.pairwise_map.2 (List.pairwise_map.1 hr)
  have hcomponents : r.components.map Component.content = r'.components.map Component.content := by
    refine (hascending r hsorted).eq_of_mem_iff (hascending r' hsorted') fun c => ?_
    rw [mem_map_content_iff hsorted, mem_map_content_iff hsorted', hsame]
  refine ⟨hcomponents, fun t => Option.ext fun n => ?_⟩
  rw [lookup_tags_iff hsound hindexed, lookup_tags_iff hsound' hindexed', hcomponents]

end Registry

end ViewCompiler
