import Mathlib.Data.List.Chain
import ViewCompiler.ParseCache.Linked
import ViewCompiler.Proofs.ParseCache.Recency

/-!
# The linked cache is a list in the order of use

Whatever requests come to a linked cache, no cell points nowhere where it has to point at another
one: every request gives a result. From `front` to `back` the cells hold exactly the entries that
the index knows, each once, and neighbours point at each other (`LinkedCache.IsLinked`). Read in
this order they are the entries of the cache that is kept as a list, which answers every request
alike (`LinkedCache.Represents`), so that the rules of recency hold of both
(`LinkedCache.exists_run_eq_some`).

Memory is a row of cells, and a pointer is a place in it. A request follows and changes only a few
pointers, and every one of these steps may fail. So each small operation has a lemma that says when
it gives a result and what it leaves as it was: `exists_update?` for one cell, `exists_unlink?` and
`exists_linkFirst?` for a cell and its neighbours.

What the operations do to the list of addresses is stated beside the cache that they represent: a
cell moves to the front, is taken out, or is put in. `Represents` has the addresses as an argument,
so that the invariant of one request is the list before and the list after it, and a history of
requests is an induction over them with the addresses carried along (`exists_run?`).
-/

namespace ViewCompiler

open ViewCompiler.Template

/-! ### Cells -/

namespace Memory

variable {m : Memory} {a b x : Nat} {before behind : List Nat}

/-- Two cells that point at each other. -/
def Neighbours (m : Memory) (a b : Nat) : Prop := m.next? a = some b ∧ m.previous? b = some a

private theorem lt_size_of_next? (h : m.next? a = some b) : a < m.size := by
  obtain ⟨c, hc, -⟩ := Option.bind_eq_some_iff.1 h
  exact (Array.getElem?_eq_some_iff.1 hc).1

private theorem lt_size_of_previous? (h : m.previous? a = some b) : a < m.size := by
  obtain ⟨c, hc, -⟩ := Option.bind_eq_some_iff.1 h
  exact (Array.getElem?_eq_some_iff.1 hc).1

private theorem lt_size_of_entryAt? {e : ParseCache.Entry} (h : m.entryAt? a = some e) :
    a < m.size := by
  obtain ⟨c, hc, -⟩ := Option.map_eq_some_iff.1 h
  exact (Array.getElem?_eq_some_iff.1 hc).1

/-- A cell in memory can be changed, and nothing else changes with it. -/
theorem exists_update? (ha : a < m.size) (change : Cell → Cell) :
    ∃ m' : Memory, m.update? a change = some m' ∧ m'.size = m.size ∧
      m'[a]? = m[a]?.map change ∧ ∀ x, x ≠ a → m'[x]? = m[x]? := by
  refine ⟨m.modify a change, if_pos ha, Array.size_modify, ?_, fun x hx => ?_⟩
  · rw [Array.getElem?_modify, if_pos rfl]
  · rw [Array.getElem?_modify, if_neg hx.symm]

/-- Pointing a cell at the one behind it changes nothing else. -/
theorem exists_setNext? (ha : a < m.size) (v : Option Nat) :
    ∃ m' : Memory, m.setNext? a v = some m' ∧ m'.size = m.size ∧ m'.entryAt? = m.entryAt? ∧
      m'.previous? = m.previous? ∧ ∀ x, m'.next? x = if x = a then v else m.next? x := by
  obtain ⟨m', hupdate, hsize, hchanged, hsame⟩ := exists_update? ha fun c => { c with next := v }
  obtain ⟨c, hc⟩ : ∃ c, m[a]? = some c := ⟨m[a], Array.getElem?_eq_getElem ha⟩
  rw [hc] at hchanged
  refine ⟨m', hupdate, hsize, funext fun x => ?_, funext fun x => ?_, fun x => ?_⟩ <;>
    by_cases hx : x = a
  · rw [hx, entryAt?, entryAt?, hc, hchanged]
    rfl
  · rw [entryAt?, entryAt?, hsame x hx]
  · rw [hx, previous?, previous?, hc, hchanged]
    rfl
  · rw [previous?, previous?, hsame x hx]
  · rw [if_pos hx, hx, next?, hchanged]
    rfl
  · rw [if_neg hx, next?, next?, hsame x hx]

/-- Pointing a cell at the one in front of it changes nothing else. -/
theorem exists_setPrevious? (ha : a < m.size) (v : Option Nat) :
    ∃ m' : Memory, m.setPrevious? a v = some m' ∧ m'.size = m.size ∧ m'.entryAt? = m.entryAt? ∧
      m'.next? = m.next? ∧ ∀ x, m'.previous? x = if x = a then v else m.previous? x := by
  obtain ⟨m', hupdate, hsize, hchanged, hsame⟩ :=
    exists_update? ha fun c => { c with previous := v }
  obtain ⟨c, hc⟩ : ∃ c, m[a]? = some c := ⟨m[a], Array.getElem?_eq_getElem ha⟩
  rw [hc] at hchanged
  refine ⟨m', hupdate, hsize, funext fun x => ?_, funext fun x => ?_, fun x => ?_⟩ <;>
    by_cases hx : x = a
  · rw [hx, entryAt?, entryAt?, hc, hchanged]
    rfl
  · rw [entryAt?, entryAt?, hsame x hx]
  · rw [hx, next?, next?, hc, hchanged]
    rfl
  · rw [next?, next?, hsame x hx]
  · rw [if_pos hx, hx, previous?, hchanged]
    rfl
  · rw [if_neg hx, previous?, previous?, hsame x hx]

/-- Changing the entry of a cell changes no pointer and no other entry. -/
private theorem exists_updateEntry? (ha : a < m.size)
    (change : ParseCache.Entry → ParseCache.Entry) :
    ∃ m' : Memory, m.update? a (fun c => { c with entry := change c.entry }) = some m' ∧
      m'.next? = m.next? ∧ m'.previous? = m.previous? ∧
      m'.entryAt? a = (m.entryAt? a).map change ∧ ∀ x, x ≠ a → m'.entryAt? x = m.entryAt? x := by
  obtain ⟨m', hupdate, -, hchanged, hsame⟩ :=
    exists_update? ha fun c => { c with entry := change c.entry }
  obtain ⟨c, hc⟩ : ∃ c, m[a]? = some c := ⟨m[a], Array.getElem?_eq_getElem ha⟩
  rw [hc] at hchanged
  refine ⟨m', hupdate, funext fun x => ?_, funext fun x => ?_, ?_, fun x hx => ?_⟩
  · by_cases hx : x = a
    · rw [hx, next?, next?, hc, hchanged]
      rfl
    · rw [next?, next?, hsame x hx]
  · by_cases hx : x = a
    · rw [hx, previous?, previous?, hc, hchanged]
      rfl
    · rw [previous?, previous?, hsame x hx]
  · rw [entryAt?, entryAt?, hc, hchanged]
    rfl
  · rw [entryAt?, entryAt?, hsame x hx]

/-- Taking a cell out of the list joins its neighbours and leaves everything else. -/
theorem exists_unlink? (hchain : (before ++ a :: behind).IsChain m.Neighbours)
    (hnodup : (before ++ a :: behind).Nodup) (hbefore : before ≠ []) (hbehind : behind ≠ []) :
    ∃ m' : Memory, m.unlink? a = some m' ∧ m'.size = m.size ∧ m'.entryAt? = m.entryAt? ∧
      (before ++ behind).IsChain m'.Neighbours := by
  obtain ⟨before, p, rfl⟩ := (List.eq_nil_or_concat' before).resolve_left hbefore
  obtain ⟨q, behind, rfl⟩ := List.exists_cons_of_ne_nil hbehind
  rw [List.append_assoc, List.singleton_append] at hchain hnodup ⊢
  obtain ⟨hfirst, hpa, hrest⟩ := List.isChain_append_cons_cons.1 hchain
  obtain ⟨haq, hlast⟩ := List.isChain_cons_cons.1 hrest
  obtain ⟨-, hnodup', hapart⟩ := List.nodup_append.1 hnodup
  have hpa' : p ≠ a := fun h => (List.nodup_cons.1 hnodup').1 (h ▸ List.mem_cons_self)
  have hq : q ∉ before ++ [p] := by
    intro hq
    rcases List.mem_append.1 hq with hq | hq
    · exact hapart q hq q (by simp) rfl
    · obtain rfl := List.mem_singleton.1 hq
      exact (List.nodup_cons.1 hnodup').1 (by simp)
  have hp : p ∉ q :: behind := fun hp => (List.nodup_cons.1 hnodup').1 (List.mem_cons_of_mem a hp)
  have ha : a ∉ before ++ [p] ∧ a ∉ q :: behind := by
    refine ⟨fun ha => ?_, (List.nodup_cons.1 (List.nodup_cons.1 hnodup').2).1⟩
    rcases List.mem_append.1 ha with ha | ha
    · exact hapart a ha a (by simp) rfl
    · exact hpa' (List.mem_singleton.1 ha).symm
  obtain ⟨m₁, hset₁, hsize₁, hentry₁, hprevious₁, hnext₁⟩ :=
    exists_setNext? (lt_size_of_next? hpa.1) (m.next? a)
  have hq₁ : q < m₁.size := hsize₁ ▸ lt_size_of_previous? haq.2
  obtain ⟨m₂, hset₂, hsize₂, hentry₂, hnext₂, hprevious₂⟩ :=
    exists_setPrevious? hq₁ (m₁.previous? a)
  rw [haq.1] at hnext₁
  rw [hprevious₁, hpa.2] at hprevious₂
  refine ⟨m₂, ?_, hsize₂.trans hsize₁, hentry₂.trans hentry₁, ?_⟩
  · rw [unlink?, hpa.2]
    change (m.setNext? p (m.next? a)).bind _ = _
    rw [hset₁]
    change (m₁.next? a).bind (fun b => m₁.setPrevious? b (m₁.previous? a)) = _
    rw [hnext₁, if_neg hpa'.symm, haq.1]
    exact hset₂
  · -- No other cell has pointed at `a`, and only `p` and `q` point elsewhere now.
    have hkept : ∀ x y, x ≠ p → y ≠ q → m.Neighbours x y → m₂.Neighbours x y := by
      rintro x y hx hy ⟨hnext, hprevious⟩
      refine ⟨?_, ?_⟩
      · rw [hnext₂, hnext₁, if_neg hx, hnext]
      · rw [hprevious₂, if_neg hy, hprevious]
    refine List.isChain_append_cons_cons.2 ⟨?_, ⟨?_, ?_⟩, ?_⟩
    · refine hfirst.imp_of_mem_imp fun x y hx hy hxy => hkept x y ?_ ?_ hxy
      · rintro rfl
        obtain rfl := Option.some.inj (hxy.1.symm.trans hpa.1)
        exact ha.1 hy
      · rintro rfl
        exact hq hy
    · rw [hnext₂, hnext₁, if_pos rfl]
    · rw [hprevious₂, if_pos rfl]
    · refine hlast.imp_of_mem_imp fun x y hx hy hxy => hkept x y ?_ ?_ hxy
      · rintro rfl
        exact hp hx
      · rintro rfl
        obtain rfl := Option.some.inj (hxy.2.symm.trans haq.2)
        exact ha.2 hx

/-- Putting a cell in front joins it with what was in front before, and leaves everything else. -/
theorem exists_linkFirst? (hchain : (front :: behind).IsChain m.Neighbours)
    (hnodup : (front :: a :: behind).Nodup) (hbehind : behind ≠ []) (ha : a < m.size) :
    ∃ m' : Memory, m.linkFirst? a = some m' ∧ m'.size = m.size ∧ m'.entryAt? = m.entryAt? ∧
      (front :: a :: behind).IsChain m'.Neighbours := by
  obtain ⟨q, behind, rfl⟩ := List.exists_cons_of_ne_nil hbehind
  obtain ⟨hjoined, hrest⟩ := List.isChain_cons_cons.1 hchain
  obtain ⟨hfront, hnodup'⟩ := List.nodup_cons.1 hnodup
  obtain ⟨ha', hnodup''⟩ := List.nodup_cons.1 hnodup'
  have hfa : front ≠ a := fun h => hfront (h ▸ List.mem_cons_self)
  have hfq : front ∉ q :: behind := fun h => hfront (List.mem_cons_of_mem a h)
  have hqa : q ≠ a := fun h => ha' (h ▸ List.mem_cons_self)
  -- Four writes: both links of the new cell, and the two that led past it.
  obtain ⟨m₁, hset₁, hsize₁, hentry₁, hnext₁, hprevious₁⟩ := exists_setPrevious? ha (some front)
  obtain ⟨m₂, hset₂, hsize₂, hentry₂, hprevious₂, hnext₂⟩ :=
    exists_setNext? (hsize₁ ▸ ha) (m₁.next? front)
  have hq : q < m₂.size := hsize₂ ▸ hsize₁ ▸ lt_size_of_previous? hjoined.2
  obtain ⟨m₃, hset₃, hsize₃, hentry₃, hnext₃, hprevious₃⟩ := exists_setPrevious? hq (some a)
  have hf : front < m₃.size := hsize₃ ▸ hsize₂ ▸ hsize₁ ▸ lt_size_of_next? hjoined.1
  obtain ⟨m₄, hset₄, hsize₄, hentry₄, hprevious₄, hnext₄⟩ := exists_setNext? hf (some a)
  rw [hnext₁, hjoined.1] at hnext₂
  have hnext : ∀ x, m₄.next? x =
      if x = front then some a else if x = a then some q else m.next? x := by
    intro x
    rw [hnext₄, hnext₃, hnext₂]
  have hprevious : ∀ x, m₄.previous? x =
      if x = q then some a else if x = a then some front else m.previous? x := by
    intro x
    rw [hprevious₄, hprevious₃, hprevious₂, hprevious₁]
  refine ⟨m₄, ?_, by omega, by rw [hentry₄, hentry₃, hentry₂, hentry₁], ?_⟩
  · rw [linkFirst?, hset₁]
    change (m₁.setNext? a (m₁.next? front)).bind _ = _
    rw [hset₂]
    change (m₂.next? front).bind (fun b => (m₂.setPrevious? b (some a)).bind _) = _
    rw [hnext₂, if_neg hfa, hjoined.1]
    change (m₂.setPrevious? q (some a)).bind _ = _
    rw [hset₃]
    exact hset₄
  · refine List.isChain_cons_cons.2 ⟨⟨?_, ?_⟩, List.isChain_cons_cons.2 ⟨⟨?_, ?_⟩, ?_⟩⟩
    · rw [hnext, if_pos rfl]
    · rw [hprevious, if_neg hqa.symm, if_pos rfl]
    · rw [hnext, if_neg hfa.symm, if_pos rfl]
    · rw [hprevious, if_pos rfl]
    · refine hrest.imp_of_mem_tail_imp fun x y hx hy hxy => ⟨?_, ?_⟩
      · have hxf : x ≠ front := fun h => hfq (h ▸ hx)
        have hxa : x ≠ a := fun h => ha' (h ▸ hx)
        rw [hnext, if_neg hxf, if_neg hxa, hxy.1]
      · have hyq : y ≠ q := fun h => (List.nodup_cons.1 hnodup'').1 (h ▸ hy)
        have hya : y ≠ a := fun h => ha' (h ▸ List.mem_of_mem_tail hy)
        rw [hprevious, if_neg hyq, if_neg hya, hxy.2]

/-- Moving a cell to the front changes the order of the list and nothing else. -/
private theorem exists_moveFirst? (hchain : (front :: before ++ a :: behind).IsChain m.Neighbours)
    (hnodup : (front :: before ++ a :: behind).Nodup) (hbehind : behind ≠ []) :
    ∃ m' : Memory, m.moveFirst? a = some m' ∧ m'.size = m.size ∧ m'.entryAt? = m.entryAt? ∧
      (front :: a :: (before ++ behind)).IsChain m'.Neighbours := by
  obtain ⟨m₁, hunlink, hsize₁, hentry₁, hchain₁⟩ :=
    exists_unlink? hchain hnodup (List.cons_ne_nil _ _) hbehind
  have hperm : (front :: before ++ a :: behind).Perm (front :: a :: (before ++ behind)) :=
    List.perm_middle.cons front
  have ha : a < m.size := by
    obtain ⟨-, hrest⟩ := List.isChain_append.1 hchain
    obtain ⟨q, behind, rfl⟩ := List.exists_cons_of_ne_nil hbehind
    exact lt_size_of_next? (List.isChain_cons_cons.1 hrest.1).1.1
  obtain ⟨m₂, hlink, hsize₂, hentry₂, hchain₂⟩ := exists_linkFirst? hchain₁
    (hperm.nodup_iff.1 hnodup) (List.append_ne_nil_of_right_ne_nil before hbehind) (hsize₁ ▸ ha)
  refine ⟨m₂, ?_, hsize₂.trans hsize₁, hentry₂.trans hentry₁, hchain₂⟩
  rw [moveFirst?, hunlink]
  exact hlink

/-- Every cell of a list but the first one has another one in front. -/
private theorem exists_neighbours (hchain : (x :: behind).IsChain m.Neighbours) (hb : b ∈ behind) :
    ∃ a, m.Neighbours a b := by
  induction behind generalizing x with
  | nil => cases hb
  | cons y behind ih =>
    obtain ⟨hjoined, hrest⟩ := List.isChain_cons_cons.1 hchain
    rcases List.mem_cons.1 hb with rfl | hb
    · exact ⟨x, hjoined⟩
    · exact ih hrest hb

/-- All cells of a list stand in the memory. -/
private theorem lt_size_of_mem (hchain : (front :: behind).IsChain m.Neighbours)
    (hbehind : behind ≠ []) (hb : b ∈ front :: behind) : b < m.size := by
  rcases List.mem_cons.1 hb with rfl | hb
  · obtain ⟨q, behind, rfl⟩ := List.exists_cons_of_ne_nil hbehind
    exact lt_size_of_next? (List.isChain_cons_cons.1 hchain).1.1
  · obtain ⟨a, -, hprevious⟩ := exists_neighbours hchain hb
    exact lt_size_of_previous? hprevious

end Memory

/-! ### The cache -/

namespace LinkedCache

open Memory

variable {c : LinkedCache} {p : ParseCache} {addresses before behind : List Nat} {a : Nat}
  {name hash : String} {nodes : List Node} {e : ParseCache.Entry}
  {entries entries' : List ParseCache.Entry}

/-- What a request finds, and the cache after it. -/
def answer? (c : LinkedCache) : ParseCache.Request → Option (Option (List Node) × LinkedCache)
  | .get name hash => c.get? name hash
  | .set name hash nodes => (c.set? name hash nodes).map (none, ·)
  | .erase name => (c.erase? name).map (none, ·)

/-- What requests find one after the other, and the cache after them. -/
def run? (c : LinkedCache) :
    List ParseCache.Request → Option (List (Option (List Node)) × LinkedCache)
  | [] => some ([], c)
  | r :: rs => (c.answer? r).bind fun first =>
    (first.2.run? rs).map fun rest => (first.1 :: rest.1, rest.2)

/-- The cells of a cache, from front to back: none comes twice, neighbours point at each other, and
the index leads from the name of each to it and nowhere else. -/
structure IsLinked (c : LinkedCache) (addresses : List Nat) : Prop where
  nodup : (front :: (addresses ++ [back])).Nodup
  isChain : (front :: (addresses ++ [back])).IsChain c.memory.Neighbours
  index_iff : ∀ name a, c.index[name]? = some a ↔
    a ∈ addresses ∧ ∃ e, c.memory.entryAt? a = some e ∧ e.name = name

/-- What stands before and behind a cell, the ends included. -/
theorem IsLinked.parts (h : c.IsLinked (before ++ a :: behind)) :
    (front :: before ++ a :: (behind ++ [back])).Nodup ∧
      (front :: before ++ a :: (behind ++ [back])).IsChain c.memory.Neighbours := by
  have hassoc : front :: (before ++ a :: behind ++ [back]) =
      front :: before ++ a :: (behind ++ [back]) := by simp
  exact ⟨hassoc ▸ h.nodup, hassoc ▸ h.isChain⟩

/-- The cells hold the entries of a cache that is kept as a list, in the same order, and both count
alike. -/
structure Represents (c : LinkedCache) (addresses : List Nat) (p : ParseCache) : Prop
    extends c.IsLinked addresses where
  entries : addresses.map c.memory.entryAt? = p.entries.map some
  room : c.room = p.room
  hits : c.hits = p.hits
  misses : c.misses = p.misses
  evictions : c.evictions = p.evictions

namespace Represents

/-- Every cell of the list holds an entry of the cache. -/
theorem exists_entry (h : c.Represents addresses p) (ha : a ∈ addresses) :
    ∃ e ∈ p.entries, c.memory.entryAt? a = some e := by
  have hmem : c.memory.entryAt? a ∈ p.entries.map some := h.entries ▸ List.mem_map_of_mem ha
  obtain ⟨e, he, heq⟩ := List.mem_map.1 hmem
  exact ⟨e, he, heq.symm⟩

/-- Every entry of the cache is in some cell of the list. -/
private theorem exists_address (h : c.Represents addresses p) (he : e ∈ p.entries) :
    ∃ a ∈ addresses, c.memory.entryAt? a = some e := by
  have hmem : some e ∈ addresses.map c.memory.entryAt? := h.entries ▸ List.mem_map_of_mem he
  exact List.mem_map.1 hmem

/-- The index has no other names than those of the entries. -/
theorem mem_index_iff (h : c.Represents addresses p) :
    name ∈ c.index ↔ name ∈ p.entries.map (·.name) := by
  rw [Std.HashMap.mem_iff_isSome_getElem?, Option.isSome_iff_exists, List.mem_map]
  simp only [h.index_iff]
  constructor
  · rintro ⟨a, ha, e, he, hname⟩
    obtain ⟨d, hd, hentry⟩ := h.exists_entry ha
    obtain rfl := Option.some.inj (he.symm.trans hentry)
    exact ⟨e, hd, hname⟩
  · rintro ⟨e, he, hname⟩
    obtain ⟨a, ha, hentry⟩ := h.exists_address he
    exact ⟨a, ha, e, hentry, hname⟩

private theorem nodup_names (h : c.Represents addresses p) : (p.entries.map (·.name)).Nodup := by
  have haddresses : addresses.Nodup :=
    (List.nodup_append.1 (List.nodup_cons.1 h.nodup).2).1
  have hnames : (addresses.map (Option.map (·.name) ∘ c.memory.entryAt?)).Nodup := by
    refine haddresses.map_on fun a ha b hb heq => ?_
    obtain ⟨d, -, hd⟩ := h.exists_entry ha
    obtain ⟨e, -, he⟩ := h.exists_entry hb
    rw [Function.comp_apply, Function.comp_apply, hd, he] at heq
    have hname : d.name = e.name := Option.some.inj heq
    have hda := (h.index_iff d.name a).2 ⟨ha, d, hd, rfl⟩
    have heb := (h.index_iff d.name b).2 ⟨hb, e, he, hname.symm⟩
    exact Option.some.inj (hda.symm.trans heb)
  rw [← List.map_map, h.entries, List.map_map] at hnames
  refine List.Nodup.of_map some ?_
  rw [List.map_map]
  exact hnames

private theorem size_eq (h : c.Represents addresses p) : c.size = p.entries.length := by
  have hperm : c.index.keys.Perm (p.entries.map (·.name)) := by
    refine (List.perm_ext_iff_of_nodup Std.HashMap.nodup_keys h.nodup_names).2 fun name => ?_
    rw [Std.HashMap.mem_keys, h.mem_index_iff]
  rw [size, ← Std.HashMap.length_keys, hperm.length_eq, List.length_map]

/-- A name that the index does not know is that of no entry. -/
theorem forall_ne (h : c.Represents addresses p) (hindex : c.index[name]? = none) :
    ∀ e ∈ p.entries, e.name ≠ name := by
  rintro e he rfl
  have hmem := h.mem_index_iff.2 (List.mem_map_of_mem he)
  rw [Std.HashMap.mem_iff_isSome_getElem?, hindex] at hmem
  cases hmem

/-- An address stands in the list where its entry stands among the entries. -/
theorem exists_parts (h : c.Represents addresses p) (ha : a ∈ addresses) :
    ∃ before behind ahead e rest, addresses = before ++ a :: behind ∧
      p.entries = ahead ++ e :: rest ∧ c.memory.entryAt? a = some e ∧
      before.map c.memory.entryAt? = ahead.map some ∧
        behind.map c.memory.entryAt? = rest.map some := by
  obtain ⟨before, behind, rfl⟩ := List.append_of_mem ha
  have hentries := h.entries
  rw [List.map_append, List.map_cons] at hentries
  obtain ⟨ahead, others, heq, hahead, hothers⟩ := List.map_eq_append_iff.1 hentries.symm
  obtain ⟨e, rest, rfl, he, hrest⟩ := List.map_eq_cons_iff.1 hothers
  exact ⟨before, behind, ahead, e, rest, rfl, heq, he.symm, hahead.symm, hrest.symm⟩

/-! ### What requests do to the cells -/

/-- A cell that has moved to the front. -/
theorem moved (h : c.Represents (before ++ a :: behind) p) (hentry : c.memory.entryAt? a = some e)
    (hbefore : before.map c.memory.entryAt? = entries.map some)
    (hbehind : behind.map c.memory.entryAt? = entries'.map some) :
    ∃ m, c.memory.moveFirst? a = some m ∧
      { c with memory := m }.Represents (a :: (before ++ behind))
        { p with entries := e :: (entries ++ entries') } := by
  obtain ⟨hnodup, hchain⟩ := h.parts
  obtain ⟨m, hm, -, hsame, hchain'⟩ :=
    exists_moveFirst? hchain hnodup
      (List.append_ne_nil_of_right_ne_nil behind (List.cons_ne_nil _ _))
  have hperm : (front :: before ++ a :: (behind ++ [back])).Perm
      (front :: a :: (before ++ (behind ++ [back]))) := List.perm_middle.cons front
  refine ⟨m, hm, ⟨⟨?_, ?_, fun name x => ?_⟩, ?_, h.room, h.hits, h.misses, h.evictions⟩⟩
  · rw [List.cons_append, List.append_assoc]
    exact hperm.nodup_iff.1 hnodup
  · rw [List.cons_append, List.append_assoc]
    exact hchain'
  · rw [h.index_iff, hsame, List.mem_append, List.mem_cons, List.mem_cons, List.mem_append,
      or_left_comm]
  · rw [hsame, List.map_cons, List.map_append, hentry, hbefore, hbehind, List.map_cons,
      List.map_append]

/-- A cell whose entry is exchanged for another one of the same name. -/
theorem exchanged (h : c.Represents (before ++ a :: behind) p)
    (hentry : c.memory.entryAt? a = some e)
    (hbefore : before.map c.memory.entryAt? = entries.map some)
    (hbehind : behind.map c.memory.entryAt? = entries'.map some)
    (change : ParseCache.Entry → ParseCache.Entry) (hchange : (change e).name = e.name) :
    ∃ m, c.memory.update? a (fun cell => { cell with entry := change cell.entry }) = some m ∧
      m.entryAt? a = some (change e) ∧ before.map m.entryAt? = entries.map some ∧
      behind.map m.entryAt? = entries'.map some ∧
      { c with memory := m }.Represents (before ++ a :: behind)
        { p with entries := entries ++ change e :: entries' } := by
  obtain ⟨m, hm, hnext, hprevious, hsame, hothers⟩ :=
    exists_updateEntry? (lt_size_of_entryAt? hentry) change
  rw [hentry] at hsame
  have hnodup : (before ++ a :: behind).Nodup :=
    (List.nodup_append.1 (List.nodup_cons.1 h.nodup).2).1
  obtain ⟨ha, -⟩ := List.nodup_cons.1 (List.nodup_middle.1 hnodup)
  have hbefore' : before.map m.entryAt? = entries.map some := by
    rw [← hbefore]
    exact List.map_congr_left fun x hx =>
      hothers x fun heq => ha (List.mem_append_left _ (heq ▸ hx))
  have hbehind' : behind.map m.entryAt? = entries'.map some := by
    rw [← hbehind]
    exact List.map_congr_left fun x hx =>
      hothers x fun heq => ha (List.mem_append_right _ (heq ▸ hx))
  refine ⟨m, hm, hsame, hbefore', hbehind',
    ⟨⟨h.nodup, ?_, fun name x => ?_⟩, ?_, h.room, h.hits, h.misses, h.evictions⟩⟩
  · refine h.isChain.imp fun x y hxy => ?_
    rw [Neighbours, hnext, hprevious]
    exact hxy
  · rw [h.index_iff]
    refine and_congr_right fun _ => ?_
    -- The index goes by names, and the exchanged entry keeps its own.
    by_cases hx : x = a
    · subst hx
      rw [hentry, hsame]
      simp [hchange]
    · rw [hothers x hx]
  · rw [List.map_append, List.map_cons, hbefore', hbehind', hsame, List.map_append, List.map_cons]
    rfl

/-- A cell that is taken out, together with its name. -/
theorem unlinked (h : c.Represents (before ++ a :: behind) p)
    (hentry : c.memory.entryAt? a = some e)
    (hbefore : before.map c.memory.entryAt? = entries.map some)
    (hbehind : behind.map c.memory.entryAt? = entries'.map some) :
    ∃ m, c.memory.unlink? a = some m ∧
      { c with memory := m, index := c.index.erase e.name }.Represents (before ++ behind)
        { p with entries := entries ++ entries' } := by
  obtain ⟨hnodup, hchain⟩ := h.parts
  obtain ⟨m, hm, -, hsame, hchain'⟩ := exists_unlink? hchain hnodup (List.cons_ne_nil _ _)
    (List.append_ne_nil_of_right_ne_nil behind (List.cons_ne_nil _ _))
  have hperm : (front :: before ++ a :: (behind ++ [back])).Perm
      (a :: (front :: before ++ (behind ++ [back]))) := List.perm_middle
  obtain ⟨ha, hrest⟩ := List.nodup_cons.1 (hperm.nodup_iff.1 hnodup)
  refine ⟨m, hm, ⟨⟨?_, ?_, fun name x => ?_⟩, ?_, h.room, h.hits, h.misses, h.evictions⟩⟩
  · rw [List.append_assoc]
    exact hrest
  · rw [List.append_assoc]
    exact hchain'
  · have haddress : (c.index.erase e.name)[name]? = some x ↔
      e.name ≠ name ∧ c.index[name]? = some x := by
      rw [Std.HashMap.getElem?_erase]
      by_cases hne : e.name = name <;> simp [hne]
    have hindex := (h.index_iff e.name a).2 ⟨by simp, e, hentry, rfl⟩
    rw [haddress, h.index_iff, hsame, List.mem_append, List.mem_append, List.mem_cons]
    constructor
    · rintro ⟨hne, hx | rfl | hx, d, hd, hname⟩
      · exact ⟨.inl hx, d, hd, hname⟩
      · obtain rfl := Option.some.inj (hentry.symm.trans hd)
        exact absurd hname hne
      · exact ⟨.inr hx, d, hd, hname⟩
    · rintro ⟨hx, d, hd, hname⟩
      refine ⟨fun hne => ha ?_, hx.imp_right .inr, d, hd, hname⟩
      -- The index leads from a name to one cell only.
      have hx' : x ∈ before ++ a :: behind := by
        rcases hx with hx | hx <;> simp [hx]
      have hindex' := (h.index_iff e.name x).2 ⟨hx', d, hd, hname.trans hne.symm⟩
      obtain rfl := Option.some.inj (hindex.symm.trans hindex')
      rcases hx with hx | hx <;> simp [hx]
  · rw [hsame, List.map_append, hbefore, hbehind, List.map_append]

/-- A new cell in front of all others. -/
theorem added (h : c.Represents addresses p) (hname : ∀ d ∈ p.entries, d.name ≠ e.name) :
    ∃ m, linkFirst? (c.memory.push { entry := e }) c.memory.size = some m ∧
      { c with memory := m, index := c.index.insert e.name c.memory.size }.Represents
        (c.memory.size :: addresses) { p with entries := e :: p.entries } := by
  have hne : addresses ++ [back] ≠ [] := List.append_ne_nil_of_right_ne_nil _ (List.cons_ne_nil _ _)
  have hlt : ∀ x ∈ front :: (addresses ++ [back]), x < c.memory.size :=
    fun x hx => lt_size_of_mem h.isChain hne hx
  have hold : ∀ x < c.memory.size, (c.memory.push { entry := e })[x]? = c.memory[x]? := by
    intro x hx
    rw [Array.getElem?_push, if_neg hx.ne]
  have hnew : entryAt? (c.memory.push { entry := e }) c.memory.size = some e := by
    rw [entryAt?, Array.getElem?_push, if_pos rfl]
    rfl
  have hnodup : (front :: c.memory.size :: (addresses ++ [back])).Nodup := by
    have hperm := List.Perm.swap front c.memory.size (addresses ++ [back])
    exact hperm.nodup_iff.1 (List.nodup_cons.2 ⟨fun hx => (hlt _ hx).ne rfl, h.nodup⟩)
  have hchain : (front :: (addresses ++ [back])).IsChain
      (Neighbours (c.memory.push { entry := e })) := by
    refine h.isChain.imp_of_mem_imp fun x y hx hy hxy => ?_
    rw [Neighbours, next?, previous?, hold x (hlt x hx), hold y (hlt y hy)]
    exact hxy
  obtain ⟨m, hm, -, hsame, hchain'⟩ := exists_linkFirst? hchain hnodup hne (by simp)
  have hentries : ∀ x ∈ addresses, m.entryAt? x = c.memory.entryAt? x := by
    intro x hx
    rw [hsame, entryAt?, entryAt?, hold x (hlt x (by simp [hx]))]
  refine ⟨m, hm, ⟨⟨hnodup, hchain', fun name x => ?_⟩, ?_, h.room, h.hits, h.misses, h.evictions⟩⟩
  · change (c.index.insert e.name c.memory.size)[name]? = some x ↔
      x ∈ c.memory.size :: addresses ∧ ∃ d, m.entryAt? x = some d ∧ d.name = name
    rw [List.mem_cons]
    -- The index goes by names, and no cell had the name of the new one.
    by_cases hne : e.name = name
    · subst hne
      rw [Std.HashMap.getElem?_insert_self, Option.some.injEq]
      constructor
      · rintro rfl
        exact ⟨.inl rfl, e, hsame ▸ hnew, rfl⟩
      · rintro ⟨rfl | hx, d, hd, hdname⟩
        · rfl
        · obtain ⟨d', hd', hentry⟩ := h.exists_entry hx
          obtain rfl := Option.some.inj (((hentries x hx).symm.trans hd).symm.trans hentry)
          exact absurd hdname (hname d hd')
    · have hindex : (c.index.insert e.name c.memory.size)[name]? = c.index[name]? := by
        rw [Std.HashMap.getElem?_insert, if_neg (by simpa using hne)]
      rw [hindex, h.index_iff]
      constructor
      · rintro ⟨hx, d, hd, hdname⟩
        exact ⟨.inr hx, d, (hentries x hx).trans hd, hdname⟩
      · rintro ⟨rfl | hx, d, hd, hdname⟩
        · rw [hsame, hnew] at hd
          obtain rfl := Option.some.inj hd
          exact absurd hdname hne
        · exact ⟨hx, d, (hentries x hx).symm.trans hd, hdname⟩
  · change m.entryAt? c.memory.size :: addresses.map m.entryAt? = _
    rw [hsame, hnew, ← hsame, List.map_congr_left hentries, h.entries]
    rfl

/-! ### Requests -/

/-- A request for a template is answered as the cache answers it, and represents it afterwards. -/
private theorem exists_get? (h : c.Represents addresses p) (name hash : String) :
    ∃ c' addresses', c.get? name hash = some ((p.get name hash).1, c') ∧
      c'.Represents addresses' (p.get name hash).2 := by
  rw [get?]
  cases hindex : c.index[name]? with
  | none =>
    rw [ParseCache.get_of_forall_ne (h.forall_ne hindex)]
    exact ⟨c.miss.2, addresses, rfl, { h with misses := congrArg (· + 1) h.misses }⟩
  | some a =>
    obtain ⟨ha, d, hd, rfl⟩ := (h.index_iff name a).1 hindex
    obtain ⟨before, behind, ahead, e, rest, rfl, hentries, hentry, hahead, hrest⟩ :=
      h.exists_parts ha
    obtain rfl := Option.some.inj (hentry.symm.trans hd)
    rw [ParseCache.get_of_entries_eq hentries h.nodup_names]
    by_cases hdigest : hash = "" ∨ e.hash ≠ hash
    · rw [if_pos hdigest]
      refine ⟨c.miss.2, _, ?_, { h with misses := congrArg (· + 1) h.misses }⟩
      simp only [hentry, Option.bind_eq_bind, Option.bind_some, if_pos hdigest]
      rfl
    · rw [if_neg hdigest]
      obtain ⟨m, hm, hmoved⟩ := h.moved hentry hahead hrest
      refine ⟨{ c with memory := m, hits := c.hits + 1 }, _, ?_,
        { hmoved with hits := congrArg (· + 1) h.hits }⟩
      simp only [hentry, hm, Option.bind_eq_bind, Option.bind_some, if_neg hdigest]
      rfl

/-- The cell in front of `back` is that of the last entry. -/
private theorem previous?_back (h : c.Represents (before ++ [a]) p) :
    c.memory.previous? back = some a ∧ a ≠ front := by
  obtain ⟨hnodup, hchain⟩ := IsLinked.parts h.toIsLinked
  refine ⟨(List.isChain_append_cons_cons.1 hchain).2.1.2, ?_⟩
  rintro rfl
  exact (List.nodup_append.1 hnodup).2.2 front List.mem_cons_self front List.mem_cons_self rfl

/-- Giving up the least recently used entries leaves those that there is room for beside a new
one. -/
private theorem exists_makeRoom? (h : c.Represents addresses p) (hroom : 0 < p.room) :
    ∃ c' addresses', c.makeRoom? (p.entries.length + 1) = some c' ∧ c'.Represents addresses'
      { p with
        entries := p.entries.take (p.room - 1)
        evictions := p.evictions + (p.entries.length - (p.room - 1)) } := by
  induction hlength : p.entries.length generalizing c p addresses with
  | zero =>
    refine ⟨c, addresses, ?_, ?_⟩
    · rw [makeRoom?, h.size_eq, h.room, hlength, if_pos hroom]
      rfl
    · rw [List.take_of_length_le (by omega), Nat.zero_sub]
      exact h
  | succ n ih =>
    rw [makeRoom?]
    by_cases hlt : n + 1 < p.room
    · have hfree : c.size < c.room := by rwa [h.size_eq, h.room, hlength]
      rw [if_pos hfree]
      refine ⟨c, addresses, rfl, ?_⟩
      rw [List.take_of_length_le (by omega), Nat.sub_eq_zero_of_le (by omega)]
      exact h
    · -- The last cell goes, and its name with it.
      obtain ⟨before, a, rfl⟩ : ∃ before a, addresses = before ++ [a] := by
        refine (List.eq_nil_or_concat' addresses).resolve_left fun hnil => ?_
        have heq := congrArg List.length h.entries
        rw [hnil, List.length_map, List.length_map, hlength] at heq
        cases heq
      obtain ⟨kept, e, hentries⟩ : ∃ kept e, p.entries = kept ++ [e] := by
        refine (List.eq_nil_or_concat' p.entries).resolve_left fun hnil => ?_
        rw [hnil] at hlength
        cases hlength
      have hmap := h.entries
      rw [hentries, List.map_append, List.map_append] at hmap
      obtain ⟨hkept, hlast⟩ := List.append_inj' hmap rfl
      have hentry : c.memory.entryAt? a = some e := List.singleton_injective hlast
      obtain ⟨hprevious, hne⟩ := h.previous?_back
      have hnil : ([] : List Nat).map c.memory.entryAt? = ([] : List ParseCache.Entry).map some :=
        rfl
      obtain ⟨m, hm, hunlinked⟩ := h.unlinked hentry hkept hnil
      rw [List.append_nil, List.append_nil] at hunlinked
      have hkeptLength : kept.length = n := by
        rw [hentries, List.length_append] at hlength
        exact Nat.succ.inj hlength
      obtain ⟨c', addresses', hc', hrepresents⟩ := ih
        (c := { c with
          memory := m, index := c.index.erase e.name, evictions := c.evictions + 1 })
        (p := { p with entries := kept, evictions := p.evictions + 1 })
        { hunlinked with evictions := congrArg (· + 1) h.evictions } hroom hkeptLength
      refine ⟨c', addresses', ?_, ?_⟩
      · have hfull : ¬ c.size < c.room := by rwa [h.size_eq, h.room, hlength]
        rw [if_neg hfull, hprevious]
        simp only [Option.bind_eq_bind, Option.bind_some, if_neg hne, hentry, hm]
        exact hc'
      · rw [hentries, List.take_append_of_le_length (by omega)]
        rw [show p.evictions + (n + 1 - (p.room - 1)) =
          p.evictions + 1 + (n - (p.room - 1)) by omega]
        exact hrepresents

/-- Keeping a template represents the cache afterwards. -/
private theorem exists_set? (h : c.Represents addresses p) (hroom : 0 < p.room) (name hash : String)
    (nodes : List Node) :
    ∃ c' addresses', c.set? name hash nodes = some c' ∧
      c'.Represents addresses' (p.set name hash nodes) := by
  rw [set?]
  by_cases hhash : hash = ""
  · rw [if_pos hhash, ParseCache.set, if_pos hhash]
    exact ⟨c, addresses, rfl, h⟩
  rw [if_neg hhash]
  cases hindex : c.index[name]? with
  | none =>
    have hname := h.forall_ne hindex
    rw [ParseCache.set_of_forall_ne hname hhash]
    -- Where there is no room, the last cell goes before the new one is put in front.
    obtain ⟨c', addresses', hc', hrepresents⟩ := h.exists_makeRoom? hroom
    rw [← h.size_eq] at hc'
    obtain ⟨m, hm, hadded⟩ := hrepresents.added (e := ⟨name, hash, nodes⟩)
      fun d hd => hname d (List.mem_of_mem_take hd)
    refine ⟨_, _, ?_, hadded⟩
    simp only [hc', hm, Option.bind_eq_bind, Option.bind_some]
    rfl
  | some a =>
    obtain ⟨ha, d, hd, rfl⟩ := (h.index_iff name a).1 hindex
    obtain ⟨before, behind, ahead, e, rest, rfl, hentries, hentry, hahead, hrest⟩ :=
      h.exists_parts ha
    obtain rfl := Option.some.inj (hentry.symm.trans hd)
    rw [ParseCache.set_of_entries_eq hentries h.nodup_names hhash]
    obtain ⟨m, hm, hentry', hahead', hrest', hexchanged⟩ := h.exchanged hentry hahead hrest
      (fun e => { e with hash, nodes }) rfl
    obtain ⟨m', hm', hmoved⟩ := hexchanged.moved hentry' hahead' hrest'
    refine ⟨_, _, ?_, hmoved⟩
    simp only [hm, hm', Option.bind_eq_bind, Option.bind_some]
    rfl

/-- Forgetting a template represents the cache afterwards. -/
private theorem exists_erase? (h : c.Represents addresses p) (name : String) :
    ∃ c' addresses', c.erase? name = some c' ∧ c'.Represents addresses' (p.erase name) := by
  rw [erase?]
  cases hindex : c.index[name]? with
  | none =>
    rw [ParseCache.erase_of_forall_ne (h.forall_ne hindex)]
    exact ⟨c, addresses, rfl, h⟩
  | some a =>
    obtain ⟨ha, d, hd, rfl⟩ := (h.index_iff name a).1 hindex
    obtain ⟨before, behind, ahead, e, rest, rfl, hentries, hentry, hahead, hrest⟩ :=
      h.exists_parts ha
    obtain rfl := Option.some.inj (hentry.symm.trans hd)
    rw [ParseCache.erase_of_entries_eq hentries h.nodup_names]
    obtain ⟨m, hm, hunlinked⟩ := h.unlinked hentry hahead hrest
    refine ⟨_, _, ?_, hunlinked⟩
    simp only [hm, Option.bind_eq_bind, Option.bind_some]
    rfl

/-- A request is answered as by the list, and keeps the cells in its order. -/
private theorem exists_answer? (h : c.Represents addresses p) (hroom : 0 < p.room)
    (r : ParseCache.Request) :
    ∃ c' addresses', c.answer? r = some ((p.answer r).1, c') ∧
      c'.Represents addresses' (p.answer r).2 := by
  cases r with
  | get name hash => exact h.exists_get? name hash
  | set name hash nodes =>
    obtain ⟨c', addresses', hc', hrepresents⟩ := h.exists_set? hroom name hash nodes
    exact ⟨c', addresses', by rw [answer?, hc']; rfl, hrepresents⟩
  | erase name =>
    obtain ⟨c', addresses', hc', hrepresents⟩ := h.exists_erase? name
    exact ⟨c', addresses', by rw [answer?, hc']; rfl, hrepresents⟩

/-- Every list of requests is answered as the cache answers it. -/
theorem exists_run? (h : c.Represents addresses p) (hbounded : p.IsBounded) (hroom : 0 < p.room)
    (requests : List ParseCache.Request) :
    ∃ c' addresses', c.run? requests = some ((p.run requests).1, c') ∧
      c'.Represents addresses' (p.run requests).2 := by
  induction requests generalizing c p addresses with
  | nil => exact ⟨c, addresses, rfl, h⟩
  | cons r rs ih =>
    obtain ⟨c₁, addresses₁, hc₁, h₁⟩ := h.exists_answer? hroom r
    obtain ⟨hbounded₁, hroom₁⟩ := (hbounded.serves hroom r).isBounded hbounded
    obtain ⟨c₂, addresses₂, hc₂, h₂⟩ := ih h₁ hbounded₁ (hroom₁ ▸ hroom)
    refine ⟨c₂, addresses₂, ?_, h₂⟩
    rw [run?, hc₁, Option.bind_some, hc₂]
    rfl

end Represents

private theorem represents_ofSize (size : Int) :
    (ofSize size).Represents [] (ParseCache.ofSize size) where
  nodup := by decide
  isChain := by
    refine List.isChain_cons_cons.2 ⟨⟨?_, ?_⟩, .singleton _⟩ <;> rfl
  index_iff name a := by
    have hindex : (ofSize size).index[name]? = none := Std.HashMap.getElem?_empty
    rw [hindex]
    simp
  entries := rfl
  room := rfl
  hits := rfl
  misses := rfl
  evictions := rfl

/-- Every history of requests to a new cache gives a result. It is the one of a list in which the
most recently used entry comes first, which has room for one entry at least, keeps no name twice,
and keeps for each name what was last set for it. The cells hold this list from front to back. -/
theorem exists_run_eq_some (size : Int) (requests : List ParseCache.Request) :
    ∃ answers p c addresses,
      (ofSize size).run? requests = some (answers, c) ∧
      (ParseCache.ofSize size).ServesAll requests answers p ∧
      p.IsBounded ∧ p.room = max 1 size.toNat ∧
      (∀ e ∈ p.entries, ParseCache.lastFor? e.name requests = some e) ∧
      c.Represents addresses p := by
  have hbounded := ParseCache.isBounded_ofSize size
  have hroom : 0 < (ParseCache.ofSize size).room := by
    change 0 < max 1 size.toNat
    omega
  obtain ⟨c, addresses, hrun, hrepresents⟩ :=
    (represents_ofSize size).exists_run? hbounded hroom requests
  obtain ⟨hserves, hbounded', hroom'⟩ := hbounded.servesAll hroom requests
  refine ⟨_, _, c, addresses, hrun, hserves, hbounded', hroom', fun e he => ?_, hrepresents⟩
  exact (hserves.lastFor?_eq_or hbounded he).resolve_right fun h => List.not_mem_nil h.2

end LinkedCache

end ViewCompiler
