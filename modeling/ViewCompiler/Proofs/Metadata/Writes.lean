import ViewCompiler.Metadata.GoSource.Edges
import ViewCompiler.Proofs.Metadata.Body
import ViewCompiler.Proofs.Metadata.Closure

/-!
# Writes through the fields of a receiver

What a method assigns is over-approximated from its source. A value is reached through a field by
any nesting of selectors, indices, slices, dereferences, brackets, type assertions and calls of
methods (`ReachedFrom`). Where such a value is assigned, stepped, looped over, has its address taken
or has a method called on it, anywhere in a method, the method is known to mutate the field, or else
every property (`mem_mutates_of_write`).

This holds of the values that the extraction can follow back to the receiver (`Expr.isFollowed`),
and of no others: behind a type assertion, and behind a method that stands in brackets, a value
counts as something else (`ReachedFrom.rootOf_eq`). A method that writes through an assertion is
therefore missed (`exists_missed_write`).

Three steps lead from a statement to the metadata. The effects of a body are those of all nodes
within it, however deeply nested in closures, loops and blocks (`Within`, `writes_effects`). The
effects of a method are the edges of its declaration, one to each property that it writes
(`mem_assigns_edgesOf`). And the metadata close these edges, which keeps them
(`mem_mutates_of_separateGetters`): a method of getter shape that writes is no getter.

Writing everything counts as writing the field. This is what the extraction falls back to when the
receiver itself is stored, copied or handed on, since then nothing can be said about where a write
may come from.
-/

namespace ViewCompiler.GoSource

open ViewCompiler.Text

/-! ### Reaching a value -/

/-- The receiver itself, possibly dereferenced or in brackets. -/
inductive Denotes (receiver : String) : Expr → Prop where
  | ident : Denotes receiver (.ident receiver)
  | paren {x : Expr} : Denotes receiver x → Denotes receiver (.paren x)
  | star {x : Expr} : Denotes receiver x → Denotes receiver (.star x)

/-- An expression reaches a value through the value of another one. A method that is called may
stand in brackets. -/
inductive ReachedFrom (base : Expr) : Expr → Prop where
  | base : ReachedFrom base base
  | selector {x : Expr} (name : String) : ReachedFrom base x → ReachedFrom base (.selector x name)
  | index {x : Expr} (arguments : List Expr) : ReachedFrom base x →
      ReachedFrom base (.index x arguments)
  | slice {x : Expr} (bounds : List Expr) : ReachedFrom base x → ReachedFrom base (.slice x bounds)
  | star {x : Expr} : ReachedFrom base x → ReachedFrom base (.star x)
  | paren {x : Expr} : ReachedFrom base x → ReachedFrom base (.paren x)
  | assertion {x : Expr} (type : List Expr) : ReachedFrom base x →
      ReachedFrom base (.assertion x type)
  | call {x callee : Expr} {name : String} (arguments : List Expr) : ReachedFrom base x →
      unparen callee = .selector x name → ReachedFrom base (.call callee arguments)

/-- Whether an expression is followed back to where its value comes from: on the way there is no
type assertion, and no call but that of a method without brackets around it. -/
def Expr.isFollowed : Expr → Bool
  | .selector x _ | .index x _ | .slice x _ | .star x | .paren x => x.isFollowed
  | .call (.selector x _) _ => x.isFollowed
  | .call _ _ | .assertion _ _ => false
  | _ => true

section Roots

variable {receiver field : String} {x e : Expr}

theorem Denotes.rootOf_eq (h : Denotes receiver x) : rootOf receiver x = .receiver := by
  induction h with
  | ident => simp [rootOf]
  | paren _ ih => rwa [rootOf]
  | star _ ih => rwa [rootOf]

theorem Denotes.isFollowed (h : Denotes receiver x) : x.isFollowed = true := by
  induction h with
  | ident => rfl
  | paren _ ih => rwa [Expr.isFollowed]
  | star _ ih => rwa [Expr.isFollowed]

/-- Only a selector on a bare name is looked at as a whole. -/
theorem rootOf_selector (hx : ∀ n, x ≠ .ident n) (name : String) :
    rootOf receiver (.selector x name) = rootOf receiver x := by
  cases x with
  | ident n => exact absurd rfl (hx n)
  | _ => rfl

/-- A field counts as that field on the bare receiver, and as all of the receiver otherwise. -/
theorem Denotes.rootOf_selector (h : Denotes receiver x) (field : String) :
    rootOf receiver (.selector x field) = .field field ∧ x = .ident receiver ∨
      rootOf receiver (.selector x field) = .receiver := by
  cases h with
  | ident => exact .inl ⟨by simp [rootOf], rfl⟩
  | paren h => exact .inr h.paren.rootOf_eq
  | star h => exact .inr h.star.rootOf_eq

private theorem ReachedFrom.ne_ident (h : ReachedFrom (.selector x field) e) (n : String) :
    e ≠ .ident n := by
  cases h <;> nofun

/-- What is reached through a field has the root of the field if it is followed, and counts as
something else if not. -/
theorem ReachedFrom.rootOf_eq (hx : x.isFollowed = true) (h : ReachedFrom (.selector x field) e) :
    rootOf receiver e =
      if e.isFollowed then rootOf receiver (.selector x field) else .elsewhere := by
  induction h with
  | base =>
    have hbase : (Expr.selector x field).isFollowed = true := hx
    rw [if_pos hbase]
  | selector name hreach ih => exact (rootOf_selector hreach.ne_ident name).trans ih
  | index _ _ ih => exact ih
  | slice _ _ ih => exact ih
  | star _ ih => exact ih
  | paren _ ih => exact ih
  | assertion => rfl
  | @call y callee name _ hreach hcallee ih =>
    cases callee with
    | selector z n =>
      obtain ⟨rfl, rfl⟩ := Expr.selector.inj hcallee
      exact ih
    -- The method behind brackets is looked for no further.
    | paren => rfl
    | _ => cases hcallee

end Roots

/-! ### Places that write -/

/-- A node stores into the value of an expression: by an assignment that declares nothing, a step, a
loop that assigns its targets, or by whoever is given its address. -/
inductive Node.Stores : Node → Expr → Prop where
  | assign {targets values : List Expr} {e : Expr} :
      e ∈ targets → Stores (.stmt (.assign targets values false)) e
  | step {e : Expr} : Stores (.stmt (.step e)) e
  | range {targets source : List Expr} {body : List Stmt} {e : Expr} :
      e ∈ targets → Stores (.stmt (.range targets source true body)) e
  | address {e : Expr} : Stores (.expr (.address e)) e

/-- A node calls a method on the value of an expression. -/
inductive Node.CallsOn : Node → Expr → Prop where
  | call {callee e : Expr} {name : String} {arguments : List Expr} :
      unparen callee = .selector e name → CallsOn (.expr (.call callee arguments)) e

/-- A body writes through a field of the receiver, by what is stored or by a method that is
called. -/
def WritesThrough (receiver field : String) (body : List Stmt) : Prop :=
  ∃ e n, ReachedFrom (.selector (.ident receiver) field) e ∧ Within body n ∧
    (n.Stores e ∨ n.CallsOn e)

/-- A write through a field that is followed back to the receiver. A value that a method is called
on has to be reached from the bare receiver. -/
inductive FollowedWrite (receiver field : String) (body : List Stmt) : Prop where
  | store {x e : Expr} {n : Node} : Denotes receiver x → ReachedFrom (.selector x field) e →
      e.isFollowed = true → Within body n → n.Stores e → FollowedWrite receiver field body
  | call {e y : Expr} : ReachedFrom (.selector (.ident receiver) field) e → y.isFollowed = true →
      Within body (.expr y) → (Node.expr y).CallsOn e → FollowedWrite receiver field body

/-! ### Effects -/

namespace Effects

/-- Something has the effect that a name is assigned, possibly together with everything else. -/
def Writes (e : Effects) (p : String) : Prop := e.all = true ∨ p ∈ e.assigns

variable {p : String}

private theorem writes_union {a b : Effects} : (a.union b).Writes p ↔ a.Writes p ∨ b.Writes p := by
  simp only [Writes, union, Bool.or_eq_true, List.mem_append]
  tauto

private theorem writes_unions {es : List Effects} :
    (unions es).Writes p ↔ ∃ e ∈ es, e.Writes p := by
  have hfold : ∀ a : Effects, (es.foldl union a).Writes p ↔ a.Writes p ∨ ∃ e ∈ es, e.Writes p := by
    induction es with
    | nil => simp
    | cons e es ih =>
      intro a
      rw [List.foldl_cons, ih, writes_union, List.exists_mem_cons_iff, or_assoc]
  rw [unions, hfold]
  simp [Writes]

end Effects

namespace Surroundings

variable {s : Surroundings} {p : String} {e : Expr} {body : List Stmt}

private theorem writes_store_iff :
    (s.store e).Writes p ↔ rootOf s.receiver e = .receiver ∨ rootOf s.receiver e = .field p := by
  rw [store]
  cases rootOf s.receiver e with
  | elsewhere => simp [Effects.Writes]
  | receiver => simp [Effects.Writes]
  | field f => simp [Effects.Writes, eq_comm]

/-- Whatever stands in a body has its effect. -/
theorem writes_effects {n : Node} {site : Site} (hn : Within body n) (hsite : site ∈ n.own)
    (h : (s.effectOf site).Writes p) : (s.effects body).Writes p :=
  Effects.writes_unions.2 ⟨_, List.mem_map_of_mem (hn.own_subset hsite), h⟩

private theorem writes_effects_of_stores {n : Node} (hn : Within body n) (hstores : n.Stores e)
    (h : (s.store e).Writes p) : (s.effects body).Writes p := by
  have htargets : ∀ {targets : List Expr}, e ∈ targets →
      (Effects.unions (targets.map s.store)).Writes p :=
    fun he => Effects.writes_unions.2 ⟨_, List.mem_map_of_mem he, h⟩
  cases hstores with
  | assign he =>
    refine writes_effects hn List.mem_cons_self ?_
    exact Effects.writes_union.2 (.inl (htargets he))
  | step => exact writes_effects hn List.mem_cons_self h
  | range he =>
    refine writes_effects hn List.mem_cons_self ?_
    exact Effects.writes_union.2 (.inl (htargets he))
  | address => exact writes_effects hn List.mem_cons_self h

/-- A method that is called on a value writes to the field through which the value is reached. -/
private theorem writes_effects_of_call {name : String} {arguments : List Expr}
    (hn : Within body (.expr (.call (.selector e name) arguments)))
    (hroot : rootOf s.receiver e = .field p) (hp : p ∉ s.methods) : (s.effects body).Writes p := by
  -- The method is none of the receiver itself, whose calls are edges and no writes.
  have hname : isName s.receiver e = false := by
    cases e with
    | ident n =>
      rw [rootOf] at hroot
      split at hroot <;> cases hroot
    | _ => rfl
  refine writes_effects hn List.mem_cons_self ?_
  change (s.call (.selector e name) arguments).Writes p
  rw [call, Effects.writes_union]
  simp [hname, hroot, hp, Effects.Writes]

/-- Every write that is followed has its effect. -/
private theorem writes_effects_of_followedWrite (h : FollowedWrite s.receiver p body)
    (hp : p ∉ s.methods) :
    (s.effects body).Writes p := by
  cases h with
  | store hx hreach hfollowed hn hstores =>
    refine writes_effects_of_stores hn hstores (writes_store_iff.2 ?_)
    rw [hreach.rootOf_eq hx.isFollowed, if_pos hfollowed]
    rcases hx.rootOf_selector p with ⟨hroot, -⟩ | hroot
    · exact .inr hroot
    · exact .inl hroot
  | @call e y hreach hfollowed hn hcalls =>
    cases hcalls with
    | @call callee _ name _ hcallee =>
      cases callee with
      | selector z n =>
        obtain ⟨rfl, rfl⟩ := Expr.selector.inj hcallee
        have hz : z.isFollowed = true := hfollowed
        refine writes_effects_of_call hn ?_ hp
        rw [hreach.rootOf_eq rfl, if_pos hz]
        simp [rootOf]
      | paren => cases hfollowed
      | _ => cases hcallee

end Surroundings

/-! ### From edges to metadata -/

section Metadata

variable {d : Declaration} {md : Metadata} {shaped : List String} {m p : String}

/-- Getters are told apart by what all methods together are known to mutate. If there are any, the
others are closed without them. -/
theorem separateGetters_cases (h : separateGetters d shaped = .ok md) :
    ∃ all getters, Metadata.ofDeclaration d = .ok all ∧
      getters = shaped.filter (fun n => (all.mutates n).isEmpty) ∧
      (md = all ∨ Metadata.ofDeclaration { d with
        getters, methods := d.methods.filter fun e => !getters.contains e.1 } = .ok md) := by
  obtain ⟨all, hall, h⟩ := bind_eq_ok_iff.1 h
  refine ⟨all, _, hall, rfl, ?_⟩
  by_cases hgetters : (shaped.filter fun n => (all.mutates n).isEmpty).isEmpty = true
  · have hok : (Except.ok all : Except DeclarationError Metadata) = .ok md :=
      (if_pos hgetters).symm.trans h
    exact .inl (Except.ok.inj hok).symm
  · exact .inr ((if_neg hgetters).symm.trans h)

/-- What a method assigns directly it mutates, also when getters are told apart. -/
theorem mem_mutates_of_separateGetters (h : separateGetters d shaped = .ok md)
    (hp : d.Assigns m p) : p ∈ md.mutates m := by
  have hmutates : ∀ {d' : Declaration} {md' : Metadata}, Metadata.ofDeclaration d' = .ok md' →
      d'.Assigns m p → p ∈ md'.mutates m := by
    intro d' md' hd' hassigns
    rw [Metadata.mutates_of_ofDeclaration hd' hassigns.left_mem]
    have hwf := (Metadata.ofDeclaration_eq_ok_iff.1 hd').1
    exact (Declaration.mem_mutates_close_iff hwf).2 (.inl hassigns)
  obtain ⟨all, getters, hall, hgetters, rfl | hrest⟩ := separateGetters_cases h
  · exact hmutates hall hp
  · refine hmutates hrest ?_
    -- A method that assigns something is no getter.
    have hnot : m ∉ getters := by
      rw [hgetters]
      intro hm
      have hmem := hmutates hall hp
      rw [List.isEmpty_iff.1 (List.mem_filter.1 hm).2] at hmem
      cases hmem
    obtain ⟨e, he, hassigns⟩ := hp
    exact ⟨e, List.mem_filter.2 ⟨he, by simpa using hnot⟩, hassigns⟩

private theorem properties_of_separateGetters (h : separateGetters d shaped = .ok md) :
    d.IsWellFormed ∧ md.properties = sortStrings d.properties := by
  obtain ⟨all, getters, hall, -, rfl | hrest⟩ := separateGetters_cases h
  · obtain ⟨hwf, rfl⟩ := Metadata.ofDeclaration_eq_ok_iff.1 hall
    exact ⟨hwf, rfl⟩
  · obtain ⟨-, rfl⟩ := Metadata.ofDeclaration_eq_ok_iff.1 hrest
    exact ⟨(Metadata.ofDeclaration_eq_ok_iff.1 hall).1, rfl⟩

/-- The declaration of a structure: its fields, and its methods with their edges. -/
def declarationOf (f : File) (s : Structure) : Declaration where
  name := s.name
  properties := s.fieldNames
  methods := (methodsOf f s).map fun m => (m.name, edgesOf s ((methodsOf f s).map (·.name)) m)

private theorem exists_separateGetters_of_metadata {f : File} {typeName : String}
    (h : metadata f typeName = .ok md) : ∃ s shaped, Structure.find? f typeName = some s ∧
      separateGetters (declarationOf f s) shaped = .ok md := by
  rw [metadata] at h
  cases hfind : Structure.find? f typeName with
  | none =>
    rw [hfind] at h
    cases h
  | some s =>
    rw [hfind] at h
    exact ⟨s, _, rfl, mapError_eq_ok_iff.1 h⟩

end Metadata

/-- The edges of a method with a named receiver hold what its body writes. -/
theorem mem_assigns_edgesOf {s : Structure} {methods : List String} {m : Function}
    {receiver p : String} {type : Expr} {body : List Stmt}
    (hreceiver : m.receiver = some (receiver, type)) (hnamed : receiver ≠ "" ∧ receiver ≠ "_")
    (hbody : m.body = some body)
    (h : ((Surroundings.mk s methods receiver).effects body).Writes p) :
    p ∈ (edgesOf s methods m).assigns ∨ ∀ q ∈ s.fieldNames, q ∈ (edgesOf s methods m).assigns := by
  have hedges : (edgesOf s methods m).assigns =
      if ((Surroundings.mk s methods receiver).effects body).all then s.fieldNames
      else sortedSet ((Surroundings.mk s methods receiver).effects body).assigns := by
    rw [edgesOf, hreceiver, hbody]
    simp [hnamed]
  rw [hedges]
  split
  · exact .inr fun _ hq => hq
  · rename_i hall
    exact .inl (mem_sortedSet.2 (h.resolve_left hall))

/-- The methods of a structure mutate what they write. For every method with a named receiver, and
every field: if a value that is reached through the field is written anywhere in the method, and is
followed back to the receiver, then the field is among what the method mutates, or every property
is. The name of a field that is embedded counts as well, if no method has it. -/
theorem mem_mutates_of_write {f : File} {typeName : String} {md : Metadata}
    (h : metadata f typeName = .ok md) :
    ∃ s, Structure.find? f typeName = some s ∧ ∀ m ∈ methodsOf f s, ∀ receiver type body,
      m.receiver = some (receiver, type) → receiver ≠ "" ∧ receiver ≠ "_" → m.body = some body →
      ∀ field, field ∈ s.fieldNames ∨ field ∉ (methodsOf f s).map (·.name) →
        FollowedWrite receiver field body →
        field ∈ md.mutates m.name ∨ ∀ p ∈ md.properties, p ∈ md.mutates m.name := by
  obtain ⟨s, shaped, hfind, hgetters⟩ := exists_separateGetters_of_metadata h
  obtain ⟨hwf, hproperties⟩ := properties_of_separateGetters hgetters
  refine ⟨s, hfind, fun m hm receiver type body hreceiver hnamed hbody field hfield hwrite => ?_⟩
  have hmethod : field ∉ (methodsOf f s).map (·.name) := by
    rcases hfield with hfield | hfield
    · -- A method with the name of a field would have been refused.
      intro hmem
      have hdisjoint := (List.nodup_append.1 hwf.nodup).2.2
      refine hdisjoint field (List.mem_append_left _ hfield) field ?_ rfl
      simpa [Declaration.methodNames, declarationOf] using hmem
    · exact hfield
  have hassigns : ∀ {p}, p ∈ (edgesOf s ((methodsOf f s).map (·.name)) m).assigns →
      p ∈ md.mutates m.name := fun hp =>
    mem_mutates_of_separateGetters hgetters ⟨_, List.mem_map_of_mem hm, hp⟩
  have heffects :
      ((Surroundings.mk s ((methodsOf f s).map (·.name)) receiver).effects body).Writes field :=
    Surroundings.writes_effects_of_followedWrite hwrite hmethod
  -- Either the field is assigned, or the receiver itself is and with it every property.
  rcases mem_assigns_edgesOf hreceiver hnamed hbody heffects with hp | hall
  · exact .inl (hassigns hp)
  · refine .inr fun p hp => hassigns (hall p ?_)
    rw [hproperties] at hp
    exact mem_sortStrings.1 hp

/-! ### A structure with one field -/

namespace Sample

/-- The structure `Box` with a field `Item` of any type, and one method. -/
def boxWith (m : Function) : File where
  functions := [m]
  declarations := [.typeSpec "Box" [] (.structType [.mk ["Item"] (.ident "any")]),
    .group [] (m.body.getD [])]

/-- The field of the receiver `b`. -/
def item : Expr := .selector (.ident "b") "Item"

/-- A loop that assigns its elements to the field. -/
def loop : Stmt := .range [.ident "_", item] [.ident "items"] true []

/-- The loop in a function that is deferred. -/
def swapBody : List Stmt := [.expr (.call (.closure [] [loop]) [])]

/-- A method that is called on what a type assertion makes of the field. -/
def setItem : Expr := .call (.selector (.assertion item [.star (.ident "item")]) "Set") []

def touchBody : List Stmt := [.expr setItem]

/-- A method of `Box` whose receiver is `b`. -/
def method (name : String) (body : List Stmt) : Function :=
  ⟨name, some ("b", .star (.ident "Box")), 0, 0, some body⟩

def metadataWith (name : String) (mutates : List String) : Metadata :=
  ⟨"Box", ["Item"], [], [⟨name, [], mutates⟩]⟩

/-- The structure is found under its name, whatever the method. -/
private theorem find?_boxWith (m : Function) :
    Structure.find? (boxWith m) "box" = some ⟨"Box", [("Item", .ident "any")]⟩ := by
  cbv

end Sample

open Sample

/-- A store into an item from within a loop of a closure counts as a write of the method around
it. -/
theorem mem_mutates_of_write_swap :
    metadata (boxWith (method "Swap" swapBody)) "box" = .ok (metadataWith "Swap" ["Item"]) ∧
      FollowedWrite "b" "Item" swapBody ∧
        "Item" ∈ (metadataWith "Swap" ["Item"]).mutates "Swap" := by
  have hmetadata :
      metadata (boxWith (method "Swap" swapBody)) "box" = .ok (metadataWith "Swap" ["Item"]) := by
    cbv
  have hcall : Within swapBody (.expr (.call (.closure [] [loop]) [])) :=
    .part (.stmt List.mem_cons_self) List.mem_cons_self
  have hloop : Within swapBody (.stmt loop) :=
    .part (.part hcall List.mem_cons_self) List.mem_cons_self
  have hwrite : FollowedWrite "b" "Item" swapBody :=
    .store .ident .base rfl hloop (.range (List.mem_cons_of_mem _ List.mem_cons_self))
  obtain ⟨s, hs, hmethods⟩ := mem_mutates_of_write hmetadata
  obtain rfl := Option.some.inj ((find?_boxWith _).symm.trans hs)
  have hmem :=
    hmethods (method "Swap" swapBody) List.mem_cons_self "b" _ swapBody rfl (by decide) rfl
    "Item" (.inl List.mem_cons_self) hwrite
  exact ⟨hmetadata, hwrite, hmem.elim id fun hall => hall "Item" List.mem_cons_self⟩

/-- A write through a type assertion is missed: the field looks as if nothing could change it. -/
theorem exists_missed_write :
    metadata (boxWith (method "Touch" touchBody)) "box" = .ok (metadataWith "Touch" []) ∧
      WritesThrough "b" "Item" touchBody ∧ "Item" ∉ (metadataWith "Touch" []).mutates "Touch" ∧
        ¬∀ p ∈ (metadataWith "Touch" []).properties,
        p ∈ (metadataWith "Touch" []).mutates "Touch" := by
  refine ⟨by cbv, ?_, by simp [metadataWith, Metadata.mutates, Metadata.method?], ?_⟩
  · have hcall : Within touchBody (.expr setItem) :=
      .part (.stmt List.mem_cons_self) List.mem_cons_self
    have hcalls : (Node.expr setItem).CallsOn (.assertion item [.star (.ident "item")]) := .call rfl
    exact ⟨_, _, .assertion _ .base, hcall, .inr hcalls⟩
  · simp [metadataWith, Metadata.mutates, Metadata.method?]

end ViewCompiler.GoSource
