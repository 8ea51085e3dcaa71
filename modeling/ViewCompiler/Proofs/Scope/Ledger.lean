import ViewCompiler.Proofs.Scope.Change
import ViewCompiler.Proofs.Scope.Standing
import ViewCompiler.Scope.Ledger

/-!
# No node is saved twice

The scopes of a laid-out tree save the nodes of every copy of a template exactly once: the sites
they enter are, in some order, all positions of all copies (`Laid.fills`). So keeping the ledger of
a tree never fails (`Tree.exists_ledger`), and every binding of a scope is found to be read by that
scope (`Tree.consumer_eq`).

A site is a position in one copy of a template: whenever a component is mounted its template is
copied, and the views of its directives are pieces of that copy. So a scope that is mounted at a
component starts a new copy, and one that is mounted at a directive goes on in the copy around it,
one position further in (`Scope.start`).

What a tree enters is written down without the ledger first: `Scope.entries` for one scope and
`Scope.visits` for a scope and everything below it, each entry with its site. `Fills` says that
sites are exactly the positions of a range in one copy and all positions of the copies with numbers
in a range. Two parts of a forest fill two ranges, one behind the other, and a component fills a
copy of its own. So the sites of a tree are different, and no entry is refused.

`Scope.views` lists the same visits by scopes. It is what later modules take apart when they ask
where the nodes of one scope stand.
-/

namespace ViewCompiler

open ViewCompiler.Template

/-! ### Positions -/

/-- A node that is no element is saved at its own position. -/
private theorem savedPositions_cons_of_ne_element {n : Node} (hn : n.kind ≠ .element)
    (position : Nat) (rest : List Node) :
    savedPositions position (n :: rest) =
      position :: savedPositions (position + n.preorder.length) rest := by
  cases n with
  | element => exact (hn rfl).elim
  | text => simp [savedPositions]
  | interpolation => simp [savedPositions]
  | component => simp [savedPositions]
  | directive => simp [savedPositions]

theorem kind_ne_element {n : Node}
    (h : ∀ span name bindings inner, n = .element span name bindings inner → False) :
    n.kind ≠ .element := by
  intro heq
  cases n with
  | element => exact h _ _ _ _ rfl
  | directive _ _ _ directive => cases directive <;> cases heq
  | text => cases heq
  | interpolation => cases heq
  | component => cases heq

/-- There are as many saved positions as saved nodes. -/
theorem length_savedPositions (position : Nat) (nodes : List Node) :
    (savedPositions position nodes).length = (savedNodes nodes).length := by
  fun_induction savedPositions position nodes with
  | case1 => simp [savedNodes]
  | case2 position span name bindings inner rest ihInner ihRest =>
    simp [savedNodes, ihInner, ihRest]
  | case3 position n rest hn ihRest =>
    rw [savedNodes_cons_of_ne_element (kind_ne_element hn), List.length_cons,
      List.length_cons, ihRest]

/-! ### Entries -/

/-- The entries of the nodes of a forest that starts at the given position of a copy. -/
def entriesFrom (copy scope position : Nat) (nodes : List Node) (saved : List Slot) :
    List Ledger.Entry :=
  (savedPositions position nodes).zipWith (fun n slot => ⟨⟨copy, n⟩, scope, slot⟩) saved

/-- A node that is no element takes the next slot, at its own position. -/
theorem entriesFrom_cons_of_ne_element {n : Node} (hn : n.kind ≠ .element)
    (copy scope position : Nat) (rest : List Node) (slot : Slot) (saved : List Slot) :
    entriesFrom copy scope position (n :: rest) (slot :: saved) =
      ⟨⟨copy, position⟩, scope, slot⟩ ::
        entriesFrom copy scope (position + n.preorder.length) rest saved := by
  rw [entriesFrom, savedPositions_cons_of_ne_element hn]
  rfl

theorem Scope.entries_eq (start : Site) (s : Scope) :
    s.entries start = entriesFrom start.copy s.frame.id start.position s.view s.saved := rfl

/-- The anchors among the entries. -/
def anchorsOf (entries : List Ledger.Entry) : List Ledger.Entry :=
  entries.filter (·.slot.node.kind.isScope)

mutual

/-- The entries of a scope whose view starts at the given site, and of all that is mounted in it. -/
def Scope.visits (start : Site) : Scope → List Ledger.Entry
  | .mk f a v saved n children =>
    Scope.entries start (.mk f a v saved n children) ++
      visitsAll (anchorsOf (Scope.entries start (.mk f a v saved n children))) children

/-- The entries of scopes that are mounted one by one at the given nodes. -/
def visitsAll : List Ledger.Entry → List Scope → List Ledger.Entry
  | _, [] => []
  | [], _ :: _ => []
  | anchor :: anchors, c :: cs => c.visits (c.start anchor.site) ++ visitsAll anchors cs

end

theorem Scope.visits_eq (start : Site) (s : Scope) :
    s.visits start = s.entries start ++ visitsAll (anchorsOf (s.entries start)) s.children := by
  cases s
  rfl

/-- Scopes are visited part by part, if their anchors are divided in the same way. -/
private theorem visitsAll_append {anchors anchors' : List Ledger.Entry} {cs cs' : List Scope}
    (h : anchors.length = cs.length) :
    visitsAll (anchors ++ anchors') (cs ++ cs') = visitsAll anchors cs ++
      visitsAll anchors' cs' := by
  induction cs generalizing anchors with
  | nil =>
    obtain rfl := List.eq_nil_of_length_eq_zero h
    simp [visitsAll]
  | cons c cs ih =>
    cases anchors with
    | nil => cases h
    | cons anchor anchors => simp [visitsAll, ih (Nat.succ.inj h)]

/-- A scope, and the site at which its view starts. -/
structure View where
  scope : Scope
  start : Site

/-- The entries of the nodes that the scope saves. -/
def View.entries (v : View) : List Ledger.Entry := v.scope.entries v.start

mutual

/-- A scope whose view starts at the given site and everything below it, in pre-order. -/
def Scope.views (start : Site) : Scope → List View
  | .mk f a v saved n children =>
    ⟨.mk f a v saved n children, start⟩ ::
      viewsAll (anchorsOf (Scope.entries start (.mk f a v saved n children))) children

/-- Scopes that are mounted one by one at the given nodes, and everything below them. -/
def viewsAll : List Ledger.Entry → List Scope → List View
  | _, [] => []
  | [], _ :: _ => []
  | anchor :: anchors, c :: cs => c.views (c.start anchor.site) ++ viewsAll anchors cs

end

mutual

/-- The scopes below a scope are visited one after the other. -/
theorem Scope.visits_eq_flatMap (start : Site) :
    ∀ s : Scope, s.visits start = (s.views start).flatMap View.entries
  | .mk _ _ _ _ _ children => by
    rw [Scope.visits, Scope.views, List.flatMap_cons, visitsAll_eq_flatMap _ children]
    rfl

/-- What is visited below is what is seen there, view by view. -/
theorem visitsAll_eq_flatMap :
    ∀ (anchors : List Ledger.Entry) (cs : List Scope),
      visitsAll anchors cs = (viewsAll anchors cs).flatMap View.entries
  | _, [] => by rw [visitsAll, viewsAll, List.flatMap_nil]
  | [], _ :: _ => by rw [visitsAll, viewsAll, List.flatMap_nil]
  | anchor :: anchors, c :: cs => by
    rw [visitsAll, viewsAll, List.flatMap_append, Scope.visits_eq_flatMap _ c,
      visitsAll_eq_flatMap anchors cs]

end

mutual

/-- What holds of a view and passes from each view to those mounted in it holds of all views
below. -/
theorem Scope.forall_views {P : View → Prop} (start : Site) : ∀ s : Scope, P ⟨s, start⟩ →
    (∀ v ∈ s.views start, P v → ∀ a c, (a, c) ∈ (anchorsOf v.entries).zip v.scope.children →
      P ⟨c, c.start a.site⟩) → ∀ v ∈ s.views start, P v
  | .mk f a view saved n children, hself, hmounted => by
    rw [Scope.views] at hmounted ⊢
    obtain ⟨hfirst, hrest⟩ := List.forall_mem_cons.1 hmounted
    exact List.forall_mem_cons.2 ⟨hself, forall_viewsAll _ children (hfirst hself) hrest⟩

/-- A property holds of all views below if it holds of the first ones and is passed on to their
children. -/
theorem forall_viewsAll {P : View → Prop} : ∀ (anchors : List Ledger.Entry) (cs : List Scope),
    (∀ a c, (a, c) ∈ anchors.zip cs → P ⟨c, c.start a.site⟩) →
    (∀ v ∈ viewsAll anchors cs, P v → ∀ a c, (a, c) ∈ (anchorsOf v.entries).zip v.scope.children →
      P ⟨c, c.start a.site⟩) → ∀ v ∈ viewsAll anchors cs, P v
  | _, [], _, _ => by
    rw [viewsAll]
    exact List.forall_mem_nil _
  | [], _ :: _, _, _ => by
    rw [viewsAll]
    exact List.forall_mem_nil _
  | anchor :: anchors, c :: cs, hself, hmounted => by
    rw [viewsAll] at hmounted ⊢
    obtain ⟨hfirst, hrest⟩ := List.forall_mem_append.1 hmounted
    refine List.forall_mem_append.2 ⟨?_, ?_⟩
    · exact Scope.forall_views _ c (hself anchor c List.mem_cons_self) hfirst
    · exact forall_viewsAll anchors cs (fun a d h => hself a d (List.mem_cons_of_mem _ h)) hrest

end

/-- Every mounted scope has its anchor among the entries, in order. -/
def Scope.IsAnchored (s : Scope) : Prop :=
  ∀ start, (anchorsOf (s.entries start)).length = s.children.length

mutual

/-- The views of a tree are those of its scopes. -/
theorem Scope.map_scope_views (start : Site) (outer : Frames) : ∀ s : Scope,
    (∀ q ∈ s.placedIn outer, q.scope.IsAnchored) →
      (s.views start).map View.scope = (s.placedIn outer).map Placed.scope
  | .mk f a view saved n children, hs => by
    rw [Scope.placedIn] at hs ⊢
    obtain ⟨hself, hbelow⟩ := List.forall_mem_cons.1 hs
    rw [Scope.views, List.map_cons, List.map_cons,
      map_scope_viewsAll _ _ children (hself start) hbelow]

/-- Where every scope is anchored, the views below are the placed scopes in order. -/
theorem map_scope_viewsAll (outer : Frames) : ∀ (anchors : List Ledger.Entry) (cs : List Scope),
    anchors.length = cs.length → (∀ q ∈ placedAll outer cs, q.scope.IsAnchored) →
      (viewsAll anchors cs).map View.scope = (placedAll outer cs).map Placed.scope
  | _, [], _, _ => by rw [viewsAll, placedAll, List.map_nil, List.map_nil]
  | [], _ :: _, hlength, _ => by cases hlength
  | anchor :: anchors, c :: cs, hlength, hs => by
    rw [placedAll] at hs ⊢
    obtain ⟨hfirst, hrest⟩ := List.forall_mem_append.1 hs
    rw [viewsAll, List.map_append, List.map_append, Scope.map_scope_views _ _ c hfirst,
      map_scope_viewsAll outer anchors cs (Nat.succ.inj hlength) hrest]

end

/-- Every placed scope is seen in some view. -/
theorem Scope.exists_view {s : Scope} {outer : Frames}
    (hs : ∀ q ∈ s.placedIn outer, q.scope.IsAnchored) (start : Site) {q : Placed}
    (hq : q ∈ s.placedIn outer) : ∃ v ∈ s.views start, v.scope = q.scope := by
  have hscope := List.mem_map_of_mem (f := Placed.scope) hq
  rw [← Scope.map_scope_views start outer s hs] at hscope
  exact List.mem_map.1 hscope

/-- What is seen in a view is a placed scope. -/
theorem Scope.exists_placed {s : Scope} {outer : Frames}
    (hs : ∀ q ∈ s.placedIn outer, q.scope.IsAnchored) {start : Site} {v : View}
    (hv : v ∈ s.views start) : ∃ q ∈ s.placedIn outer, q.scope = v.scope := by
  have hscope := List.mem_map_of_mem (f := View.scope) hv
  rw [Scope.map_scope_views start outer s hs] at hscope
  exact List.mem_map.1 hscope

section Laid

variable {lib : Library} {entered : List String} {owner : String} {index id : Nat}
  {nodes : List Node} {e : Expansion} (h : Laid lib entered owner index id nodes e)
include h

/-- A layout has as many slots as its forest has saved positions. -/
theorem Laid.length_positions (position : Nat) :
    (savedPositions position nodes).length = e.saved.length := by
  rw [length_savedPositions, ← h.map_node_saved, List.length_map]

/-- Entering a layout uses every slot once, in order. -/
theorem Laid.map_slot_entriesFrom (copy scope position : Nat) :
    (entriesFrom copy scope position nodes e.saved).map Ledger.Entry.slot = e.saved := by
  rw [entriesFrom, List.map_zipWith]
  refine List.ext_getElem ?_ ?_
  · rw [List.length_zipWith, h.length_positions, Nat.min_self]
  · intro i _ _
    rw [List.getElem_zipWith]

/-- A layout has as many anchors as children. -/
theorem Laid.length_anchors (copy scope position : Nat) :
    (anchorsOf (entriesFrom copy scope position nodes e.saved)).length = e.children.length := by
  have hslots := h.map_slot_entriesFrom copy scope position
  have hchildren := congrArg List.length h.map_anchor_children
  rw [List.length_map, List.length_map, ← hslots, List.filter_map, List.length_map] at hchildren
  exact hchildren.symm

end Laid

/-- A scope that is laid out is anchored. -/
theorem Scope.IsLaid.isAnchored {lib : Library} {s : Scope} (h : s.IsLaid lib) : s.IsAnchored := by
  intro start
  obtain ⟨entered, owner, nextId, hlaid⟩ := h.content
  exact hlaid.length_anchors start.copy s.frame.id start.position

/-- Every saved node has an entry. -/
theorem Scope.IsLaid.exists_entry {lib : Library} {s : Scope} (h : s.IsLaid lib) (start : Site)
    {slot : Slot} (hslot : slot ∈ s.saved) :
    ∃ e ∈ s.entries start, e.scope = s.frame.id ∧ e.slot = slot := by
  obtain ⟨entered, owner, nextId, hlaid⟩ := h.content
  have hslots : (s.entries start).map Ledger.Entry.slot = s.saved :=
    hlaid.map_slot_entriesFrom start.copy s.frame.id start.position
  rw [← hslots] at hslot
  obtain ⟨e, he, rfl⟩ := List.mem_map.1 hslot
  refine ⟨e, he, ?_, rfl⟩
  rw [Scope.entries, ← List.map_uncurry_zip_eq_zipWith] at he
  obtain ⟨_, -, rfl⟩ := List.mem_map.1 he
  rfl

/-! ### Sites -/

/-- The sites are `count` positions of a copy, from the given one on, and distinct sites in the
copies numbered from `lo` on and below `hi`. -/
structure Fills (copy position count lo hi : Nat) (sites : List Site) : Prop where
  le : lo ≤ hi
  perm : ∃ others : List Site,
    sites.Perm ((List.range' position count).map (Site.mk copy) ++ others) ∧ others.Nodup ∧
      ∀ s ∈ others, lo ≤ s.copy ∧ s.copy < hi

namespace Fills

variable {copy position count count' lo mid hi : Nat} {sites sites' : List Site}

theorem nil : Fills copy position 0 lo lo [] := ⟨Nat.le_refl lo, [], .refl _, .nil, by simp⟩

theorem single : Fills copy position 1 lo lo [⟨copy, position⟩] :=
  ⟨Nat.le_refl lo, [], .refl _, .nil, by simp⟩

private theorem of_perm (h : Fills copy position count lo hi sites) (hperm : sites'.Perm sites) :
    Fills copy position count lo hi sites' := by
  obtain ⟨others, hsites, hothers⟩ := h.perm
  exact ⟨h.le, others, hperm.trans hsites, hothers⟩

/-- Sites of two parts, one behind the other, fill both parts. -/
theorem append (h : Fills copy position count lo mid sites)
    (h' : Fills copy (position + count) count' mid hi sites') :
    Fills copy position (count + count') lo hi (sites ++ sites') := by
  obtain ⟨others, hsites, hnodup, hbounds⟩ := h.perm
  obtain ⟨others', hsites', hnodup', hbounds'⟩ := h'.perm
  have hle := h.le
  have hle' := h'.le
  refine ⟨hle.trans hle', others ++ others', ?_, ?_, ?_⟩
  -- The sites of other copies in the first part change places with the positions of the second.
  · rw [← List.range'_append_1, List.map_append, List.append_assoc]
    refine (hsites.append hsites').trans ?_
    rw [List.append_assoc]
    refine List.Perm.append_left _ ?_
    rw [← List.append_assoc, ← List.append_assoc]
    exact List.Perm.append_right _ List.perm_append_comm
  · refine List.nodup_append'.2 ⟨hnodup, hnodup', ?_⟩
    intro s hs hs'
    have hlt := (hbounds s hs).2
    have hge := (hbounds' s hs').1
    omega
  · intro s hs
    rcases List.mem_append.1 hs with hs | hs
    · have hbound := hbounds s hs
      omega
    · have hbound := hbounds' s hs
      omega

/-- Sites that fill a range of copies fill a larger one. -/
theorem mono (h : Fills copy position count mid hi sites) (hle : lo ≤ mid) :
    Fills copy position count lo hi sites := by
  obtain ⟨others, hsites, hnodup, hbounds⟩ := h.perm
  refine ⟨hle.trans h.le, others, hsites, hnodup, ?_⟩
  exact fun s hs => ⟨hle.trans (hbounds s hs).1, (hbounds s hs).2⟩

/-- Sites that fill a range are different, if the copy itself lies before the range. -/
theorem nodup (h : Fills copy position count lo hi sites) (hlt : copy < lo) : sites.Nodup := by
  obtain ⟨others, hsites, hnodup, hbounds⟩ := h.perm
  refine hsites.nodup_iff.2 (List.nodup_append'.2 ⟨?_, hnodup, ?_⟩)
  · exact List.Nodup.map (fun _ _ heq => (Site.mk.inj heq).2) List.nodup_range'
  · intro s hs hs'
    obtain ⟨n, -, rfl⟩ := List.mem_map.1 hs
    have hge : lo ≤ copy := (hbounds _ hs').1
    omega

/-- What fills a copy of its own takes no position of another one. -/
theorem copied (h : Fills lo 0 count (lo + 1) hi sites) : Fills copy position 0 lo hi sites := by
  have hle := h.le
  have hnodup := h.nodup (Nat.lt_succ_self lo)
  obtain ⟨others, hsites, -, hbounds⟩ := h.perm
  refine ⟨by omega, sites, .refl _, hnodup, ?_⟩
  intro s hs
  rcases List.mem_append.1 (hsites.mem_iff.1 hs) with hs | hs
  · obtain ⟨n, -, rfl⟩ := List.mem_map.1 hs
    exact ⟨Nat.le_refl lo, by change lo < hi; omega⟩
  · have hbound := hbounds s hs
    omega

end Fills

/-- The sites that a layout enters into the ledger for its scope and all that is mounted in it. -/
def Expansion.sites (e : Expansion) (copy scope position : Nat) (nodes : List Node) : List Site :=
  (entriesFrom copy scope position nodes e.saved ++
    visitsAll (anchorsOf (entriesFrom copy scope position nodes e.saved)) e.children).map
      Ledger.Entry.site

/-- The sites of a scope are those of its layout. -/
theorem Scope.map_site_visits (start : Site) (s : Scope) (nextId : Nat) :
    (s.visits start).map Ledger.Entry.site =
      Expansion.sites ⟨s.saved, s.children, s.slots, nextId⟩ start.copy s.frame.id start.position
        s.view := by
  rw [Scope.visits_eq, Scope.entries_eq]
  rfl

namespace Expansion

variable {e : Expansion} {index : Nat} {n : Node} {mounted : Option Nat} {rest : List Node}
  (copy scope position : Nat) (after : Expansion)

private theorem sites_eq_nil (hsaved : e.saved = []) (hchildren : e.children = []) :
    e.sites copy scope position [] = [] := by
  simp [sites, entriesFrom, hsaved, hchildren, visitsAll]

/-- The sites below a node at which nothing is mounted. -/
private theorem sites_leaf (hsaved : e.saved = ⟨index, n, mounted⟩ :: after.saved)
    (hchildren : e.children = after.children) (hn : n.kind.isStructural = false) :
    e.sites copy scope position (n :: rest) =
      ⟨copy, position⟩ :: after.sites copy scope (position + n.preorder.length) rest := by
  have hkind : n.kind ≠ .element := by
    intro heq
    rw [heq] at hn
    cases hn
  have hscope : n.kind.isScope = false := by
    cases hk : n.kind <;> rw [hk] at hn <;> first | rfl | cases hn
  rw [sites, hsaved, hchildren, entriesFrom_cons_of_ne_element hkind, anchorsOf,
    List.filter_cons_of_neg (by simp [hscope])]
  rfl

/-- The sites below a node at which a scope is mounted. -/
theorem sites_mounted {c : Scope} (hsaved : e.saved = ⟨index, n, mounted⟩ :: after.saved)
    (hchildren : e.children = c :: after.children) (hn : n.kind.isScope = true) :
    (e.sites copy scope position (n :: rest)).Perm
      ([⟨copy, position⟩] ++ (c.visits (c.start ⟨copy, position⟩)).map Ledger.Entry.site ++
        after.sites copy scope (position + n.preorder.length) rest) := by
  have hkind : n.kind ≠ .element := by
    intro heq
    rw [heq] at hn
    cases hn
  rw [sites, hsaved, hchildren, entriesFrom_cons_of_ne_element hkind, anchorsOf,
    List.filter_cons_of_pos (by exact hn), visitsAll, sites]
  simp only [List.cons_append, List.map_cons, List.map_append, List.nil_append]
  refine List.Perm.cons _ ?_
  rw [← List.append_assoc, ← List.append_assoc]
  exact List.Perm.append_right _ List.perm_append_comm

/-- The sites below an element are those of its content and those after it. -/
private theorem sites_element {content : Expansion} {span : Span} {name : String}
    {bindings : List Binding} {inner : List Node}
    (hlength : ∀ position, (savedPositions position inner).length = content.saved.length)
    (hanchors : (anchorsOf (entriesFrom copy scope (position + 1) inner content.saved)).length =
      content.children.length)
    (hsaved : e.saved = ⟨index, .element span name bindings inner, mounted⟩ ::
      (content.saved ++ after.saved))
    (hchildren : e.children = content.children ++ after.children) :
    (e.sites copy scope position (.element span name bindings inner :: rest)).Perm
      ([⟨copy, position⟩] ++ content.sites copy scope (position + 1) inner ++
        after.sites copy scope (position + (1 + (preorderForest inner).length)) rest) := by
  have hentries : entriesFrom copy scope position (.element span name bindings inner :: rest)
      e.saved =
        ⟨⟨copy, position⟩, scope, ⟨index, .element span name bindings inner, mounted⟩⟩ ::
        (entriesFrom copy scope (position + 1) inner content.saved ++
          entriesFrom copy scope (position + (1 + (preorderForest inner).length)) rest
            after.saved) := by
    rw [entriesFrom, savedPositions, hsaved, List.zipWith_cons_cons,
      List.zipWith_append (hlength _)]
    rfl
  rw [sites, hentries, hchildren, anchorsOf, List.filter_cons_of_neg (by simp [Node.kind,
    NodeKind.isScope]), List.filter_append]
  change (List.map _ (_ ++ visitsAll (anchorsOf _ ++ anchorsOf _) _)).Perm _
  rw [visitsAll_append hanchors, sites, sites]
  simp only [List.cons_append, List.map_cons, List.map_append, List.nil_append, List.append_assoc]
  refine List.Perm.cons _ (List.Perm.append_left _ ?_)
  rw [← List.append_assoc, ← List.append_assoc]
  exact List.Perm.append_right _ List.perm_append_comm

end Expansion

section Laid

variable {lib : Library} {entered : List String} {owner : String} {index id : Nat}
  {nodes : List Node} {e : Expansion}

/-- A layout enters every position of its forest once, and every copy of a template that is mounted
in it. -/
theorem Laid.fills (h : Laid lib entered owner index id nodes e) (copy scope position : Nat) :
    Fills copy position (preorderForest nodes).length id e.nextId
      (e.sites copy scope position nodes) := by
  induction h generalizing copy scope position with
  | nil =>
    rw [Expansion.sites_eq_nil copy scope position rfl rfl]
    exact .nil
  | @leaf _ _ _ _ node rest after hn hrest ih =>
    have hlength : node.preorder.length = 1 := by
      cases node with
      | text => rfl
      | interpolation => rfl
      | element => cases hn
      | component => cases hn
      | directive _ _ _ directive => cases directive <;> cases hn
    refine Fills.of_perm ?_ (.of_eq (Expansion.sites_leaf copy scope position after rfl rfl hn))
    rw [preorderForest, List.length_append, hlength]
    exact Fills.single.append (ih _ _ _)
  | element hinner hrest ihInner ihRest =>
    refine Fills.of_perm ?_ (Expansion.sites_element copy scope position _ hinner.length_positions
      (hinner.length_anchors copy scope (position + 1)) rfl rfl)
    rw [preorderForest, List.length_append, Node.preorder, List.length_cons, Nat.add_comm _ 1]
    exact (Fills.single.append (ihInner _ _ _)).append (ihRest _ _ _)
  | @directive _ _ _ _ span spec specSpan directive inner rest content after frame
        hframe hinner hrest
      ihInner ihRest =>
    -- The content of a directive belongs to the same copy of the template as the directive.
    have hscope : directive.nodeKind.isScope = true := by cases directive <;> rfl
    have hstart : (Scope.mk frame (some (.directive span spec specSpan directive inner)) inner
        content.saved content.nextIndex content.children).start ⟨copy, position⟩ =
          ⟨copy, position + 1⟩ := by
      subst hframe
      cases directive <;> rfl
    refine Fills.of_perm ?_ (Expansion.sites_mounted copy scope position after rfl rfl hscope)
    rw [preorderForest, List.length_append, Node.preorder, List.length_cons, Nat.add_comm _ 1,
      Scope.map_site_visits _ _ content.nextId, hstart]
    exact (Fills.single.append ((ihInner _ _ _).mono (Nat.le_succ _))).append (ihRest _ _ _)
  | @component _ _ _ id span name bindings rest content after frame d m hfind hmeta hnew
        hframe hinner
      hrest ihInner ihRest =>
    -- The content of a component is a copy of its own, with the number of the new scope.
    have hstart : (Scope.mk frame (some (.component span name bindings)) d.template content.saved
        content.nextIndex content.children).start ⟨copy, position⟩ = ⟨id, 0⟩ := by
      subst hframe
      rfl
    refine Fills.of_perm ?_ (Expansion.sites_mounted copy scope position after rfl rfl rfl)
    rw [preorderForest, List.length_append, Node.preorder, Scope.map_site_visits _ _ content.nextId,
      hstart]
    exact (Fills.single.append (ihInner _ _ _).copied).append (ihRest _ _ _)

end Laid

/-! ### Keeping the ledger -/

/-- A site that was not entered has no entry. -/
private theorem Ledger.entry?_eq_none {l : Ledger} {site : Site} (h : site ∉ l.map Entry.site) :
    l.entry? site = none := by
  refine List.find?_eq_none.2 fun e he heq => h ?_
  rw [← of_decide_eq_true heq]
  exact List.mem_map_of_mem he

/-- A search finds something where there is something. -/
theorem exists_find?_of_mem {α : Type} {xs : List α} {x : α} (hx : x ∈ xs) {P : α → Bool}
    (hP : P x = true) : ∃ found ∈ xs, xs.find? P = some found ∧ P found = true := by
  obtain ⟨found, hfound⟩ := Option.isSome_iff_exists.1 (List.find?_isSome.2 ⟨x, hx, hP⟩)
  exact ⟨found, List.mem_of_find?_eq_some hfound, hfound, List.find?_some hfound⟩

/-- An entry is found at its site, if no site was entered twice. -/
theorem Ledger.entry?_of_mem {l : Ledger} (h : (l.map Entry.site).Nodup) {e : Entry} (he : e ∈ l) :
    l.entry? e.site = some e := by
  obtain ⟨found, hmem, hfound, hsite⟩ :=
    exists_find?_of_mem he (P := fun e' : Entry => e'.site = e.site) (decide_eq_true rfl)
  rw [Ledger.entry?, hfound, List.inj_on_of_nodup_map h hmem he (of_decide_eq_true hsite)]

/-- Entries with distinct sites can be added one after the other. -/
private theorem Ledger.foldlM_assign {l : Ledger} {entries : List Ledger.Entry}
    (h : ((entries.reverse ++ l).map Entry.site).Nodup) :
    entries.foldlM Ledger.assign l = .ok (entries.reverse ++ l) := by
  induction entries generalizing l with
  | nil => rfl
  | cons e entries ih =>
    rw [List.reverse_cons, List.append_assoc, List.singleton_append] at h ⊢
    have hnew : e.site ∉ l.map Entry.site := by
      rw [List.map_append, List.map_cons] at h
      exact (List.nodup_cons.1 h.of_append_right).1
    rw [List.foldlM_cons, Ledger.assign, Ledger.entry?_eq_none hnew]
    exact ih h

/-- Entering a scope assigns its entries and then enters what is below. -/
private theorem Scope.enter_eq_bind (start : Site) (l : Ledger) (s : Scope) :
    s.enter start l = (s.entries start).foldlM Ledger.assign l >>= fun l =>
      enterAll (anchorsOf (s.entries start)) l s.children := by
  cases s
  rfl

/-- A scope in which everything is anchored is entered without fail when its sites are new. -/
private theorem Scope.enter_eq {s : Scope} {outer : Frames}
    (hs : ∀ q ∈ s.placedIn outer, q.scope.IsAnchored) {start : Site} {l : Ledger}
    (h : (((s.visits start).reverse ++ l).map Ledger.Entry.site).Nodup) :
    s.enter start l = .ok ((s.visits start).reverse ++ l) := by
  induction s using Scope.induction generalizing outer start l with
  | step s ih =>
    -- What is mounted is entered from left to right, so the ledger changes on the way.
    have hall : ∀ (cs : List Scope) (anchors : List Ledger.Entry) (l : Ledger), cs ⊆ s.children →
        anchors.length = cs.length →
        (((visitsAll anchors cs).reverse ++ l).map Ledger.Entry.site).Nodup →
        enterAll anchors l cs = .ok ((visitsAll anchors cs).reverse ++ l) := by
      intro cs
      induction cs with
      | nil =>
        intro anchors l _ hlength _
        obtain rfl := List.eq_nil_of_length_eq_zero hlength
        rfl
      | cons c cs ihAll =>
        intro anchors l hsub hlength hnodup
        obtain ⟨hc, hcs⟩ := List.cons_subset.1 hsub
        cases anchors with
        | nil => cases hlength
        | cons anchor anchors =>
          rw [visitsAll, List.reverse_append, List.append_assoc] at hnodup ⊢
          have hchild : c.enter (c.start anchor.site) l = _ :=
            ih c hc (fun q hq => hs q (Scope.mem_placedIn.2 (.inr ⟨c, hc, hq⟩)))
              (by rw [List.map_append] at hnodup; exact hnodup.of_append_right)
          rw [enterAll, hchild]
          exact ihAll anchors _ hcs (Nat.succ.inj hlength) hnodup
    rw [Scope.visits_eq, List.reverse_append, List.append_assoc] at h ⊢
    have hown : (s.entries start).foldlM Ledger.assign l = _ :=
      Ledger.foldlM_assign (by rw [List.map_append] at h; exact h.of_append_right)
    rw [Scope.enter_eq_bind, hown]
    exact hall s.children _ _ (List.Subset.refl _)
      (hs _ (Scope.mem_placedIn.2 (.inl rfl)) start) h

/-- A binding that a scope reads stands on one of its saved nodes or feeds it. -/
private theorem Placed.exists_slot_or_feed {p : Placed} {r : Read} (hr : r ∈ p.reads) :
    (∃ s ∈ p.scope.saved, r.node = some s.index) ∨ r.node = none ∧ r.binding ∈ p.frame.feeds := by
  have hpair : (r.node, r.binding) ∈ p.readPairs := by
    rw [← Placed.map_node_binding_reads]
    exact List.mem_map_of_mem hr
  rcases List.mem_append.1 hpair with hown | hfed
  · obtain ⟨s, hs, hown⟩ := List.mem_flatMap.1 hown
    obtain ⟨b, -, heq⟩ := List.mem_map.1 hown
    exact .inl ⟨s, hs, (Prod.mk.inj heq).1.symm⟩
  · obtain ⟨b, hb, heq⟩ := List.mem_map.1 hfed
    obtain ⟨hnode, rfl⟩ := Prod.mk.inj heq
    exact .inr ⟨hnode.symm, hb⟩

section Build

variable {lib : Library} {firstId : Nat} {d : Option Definition} {t : Tree}
  (h : Tree.build lib firstId d = .ok t)
include h

/-- Every scope of a built tree is anchored. -/
theorem Tree.isAnchored {p : Placed} (hp : p ∈ t.root.placedIn []) : p.scope.IsAnchored :=
  ((Tree.laidOut h).isLaid p hp).isAnchored

/-- No site of a built tree is visited twice. -/
theorem Tree.nodup_visits :
    ((t.root.visits ⟨t.root.frame.id, 0⟩).map Ledger.Entry.site).Nodup := by
  obtain ⟨entered, owner, nextId, hcontent⟩ := ((Tree.laidOut h).isLaid _ t.root.mem_placed).content
  rw [Scope.map_site_visits _ _ nextId]
  exact (hcontent.fills _ _ _).nodup (Nat.lt_succ_self _)

/-- The ledger of a built tree is kept, the latest visit first. -/
theorem Tree.ledger_eq : t.ledger = .ok (t.root.visits ⟨t.root.frame.id, 0⟩).reverse := by
  rw [Tree.ledger, Scope.enter_eq fun _ hq => Tree.isAnchored h hq, List.append_nil]
  rw [List.append_nil, List.map_reverse]
  exact List.nodup_reverse.2 (Tree.nodup_visits h)

/-- The ledger of a built tree has distinct sites, and an entry for every saved node. -/
theorem Tree.exists_ledger :
    ∃ l, t.ledger = .ok l ∧ (l.map Ledger.Entry.site).Nodup ∧
      ∀ p ∈ t.scopes, ∀ s ∈ p.scope.saved, ∃ e ∈ l, e.scope = p.id ∧ e.slot = s := by
  refine ⟨_, Tree.ledger_eq h, ?_, fun p hp s hs => ?_⟩
  · rw [List.map_reverse]
    exact List.nodup_reverse.2 (Tree.nodup_visits h)
  · obtain ⟨⟨_, start⟩, hv, rfl⟩ :=
      Scope.exists_view (fun _ hq => Tree.isAnchored h hq) ⟨t.root.frame.id, 0⟩ hp
    obtain ⟨e, he, hentry⟩ := ((Tree.laidOut h).isLaid p hp).exists_entry start hs
    rw [Scope.visits_eq_flatMap]
    exact ⟨e, List.mem_reverse.2 (List.mem_flatMap.2 ⟨_, hv, he⟩), hentry⟩

/-- Every binding of a built tree is read by the scope it is a binding of. -/
theorem Tree.consumer_eq {l : Ledger} (hl : t.ledger = .ok l) {p : Placed} (hp : p ∈ t.scopes)
    {r : Read} (hr : r ∈ p.reads) : l.consumer p r = .ok p.id := by
  obtain ⟨l', hl', hnodup, hentries⟩ := Tree.exists_ledger h
  obtain rfl := Except.ok.inj (hl.symm.trans hl')
  rw [Ledger.consumer]
  rcases Placed.exists_slot_or_feed hr with ⟨s, hs, hnode⟩ | ⟨hnode, hfed⟩
  · obtain ⟨e, he, hscope, rfl⟩ := hentries p hp s hs
    obtain ⟨found, hmem, hfound, hpred⟩ := exists_find?_of_mem he
      (P := fun e' : Ledger.Entry => e'.scope = p.id ∧ e'.slot.index = e.slot.index)
      (decide_eq_true ⟨hscope, rfl⟩)
    have hid := (of_decide_eq_true hpred).1
    simp only [hnode, hfound, Option.bind_eq_bind, Option.bind_some, Option.pure_def, hid,
      Ledger.entry?_of_mem hnodup hmem]
  · -- A scope that is fed is mounted, and its anchor is saved by the scope around it.
    obtain ⟨hlaid, -⟩ := Tree.build_eq_ok_iff.1 h
    obtain ⟨root, m, content, rfl, -, -, hroot⟩ := Scope.exists_laid_of_ofDefinition hlaid
    obtain ⟨q, hq, s, hs, hmounted⟩ :
        ∃ q ∈ t.scopes, ∃ s ∈ q.scope.saved, s.mounted = some p.id := by
      rcases Placed.eq_or_exists_parent hp with rfl | ⟨q, hq, c, hc, rfl⟩
      · rw [Placed.frame, hroot] at hfed
        cases hfed
      · obtain ⟨s, hs, hmounted, -⟩ := Placed.exists_anchor hlaid hq hc
        exact ⟨q, hq, s, hs, hmounted⟩
    obtain ⟨e, he, -, rfl⟩ := hentries q hq s hs
    obtain ⟨found, hmem, hfound, hpred⟩ := exists_find?_of_mem he
      (P := fun e' : Ledger.Entry => e'.slot.mounted = some p.id) (decide_eq_true hmounted)
    simp only [hnode, hfound, Option.bind_eq_bind, Option.bind_some,
      Ledger.entry?_of_mem hnodup hmem, of_decide_eq_true hpred]

end Build

end ViewCompiler
