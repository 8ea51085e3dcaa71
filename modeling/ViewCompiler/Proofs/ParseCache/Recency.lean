import Mathlib.Data.List.Nodup
import ViewCompiler.ParseCache

/-!
# The cache in the order of use

What a request does to a cache, said by where entries stand: `ParseCache.Serves` has one rule for
every outcome. A cache answers by these rules as long as its names are distinct and there is room
for its entries (`ParseCache.IsBounded.serves`), and the rules keep it so
(`ParseCache.Serves.isBounded`).

The rules are those of a list in which the most recently used entry comes first. A request for a
name with its digest moves the entry to the front and gives its template. A request with another
digest, or for a name that is not kept, finds nothing and moves nothing. A template that is kept
goes to the front, in place of the entry of its name if there is one, and the last entries give way
if there are too many now. Without a digest nothing is found and nothing is kept.

A history of requests is a row of such rules (`ServesAll`). By induction on it, what is kept after a
history is the last template that the history has given for its name (`ServesAll.lastFor?_eq_or`),
which is what makes a cache usable at all.

Here the cache is a list. That the cells and pointers which are searched and relinked behave as this
list does is the subject of `ParseCache/Linked`.
-/

namespace ViewCompiler.ParseCache

open ViewCompiler.Template

/-! ### Requests -/

/-- A request to a cache. -/
inductive Request where
  | get (name hash : String)
  | set (name hash : String) (nodes : List Node)
  | erase (name : String)

/-- What a request finds, and the cache after it. Only a look-up finds something. -/
def answer (p : ParseCache) : Request → Option (List Node) × ParseCache
  | .get name hash => p.get name hash
  | .set name hash nodes => (none, p.set name hash nodes)
  | .erase name => (none, p.erase name)

/-- What the requests find one after the other, and the cache after them. -/
def run (p : ParseCache) : List Request → List (Option (List Node)) × ParseCache
  | [] => ([], p)
  | r :: rs => ((p.answer r).1 :: ((p.answer r).2.run rs).1, ((p.answer r).2.run rs).2)

/-- The entry that a request makes for a name. -/
def Request.entryFor? (name : String) : Request → Option Entry
  | .set name' hash nodes => if name' = name ∧ hash ≠ "" then some ⟨name', hash, nodes⟩ else none
  | _ => none

/-- The last entry that requests made for a name. -/
def lastFor? (name : String) : List Request → Option Entry
  | [] => none
  | r :: rs => (lastFor? name rs).or (r.entryFor? name)

/-- The rules of a list in which the most recently used entry comes first. -/
inductive Serves (p : ParseCache) : Request → Option (List Node) → ParseCache → Prop
  /-- An entry with the digest is found and moves to the front. -/
  | hit {e before behind} (hentries : p.entries = before ++ e :: behind) (hhash : e.hash ≠ "") :
      Serves p (.get e.name e.hash) (some e.nodes)
        { p with entries := e :: (before ++ behind), hits := p.hits + 1 }
  /-- Where no entry has the name and the digest, or there is no digest, nothing moves. -/
  | miss {name hash} (h : ∀ e ∈ p.entries, e.name = name → e.hash = hash → hash = "") :
      Serves p (.get name hash) none { p with misses := p.misses + 1 }
  /-- Nothing is kept without a digest. -/
  | withoutHash {name nodes} : Serves p (.set name "" nodes) none p
  /-- The entry of a name is exchanged and moves to the front. -/
  | exchanged {e before behind hash nodes} (hentries : p.entries = before ++ e :: behind)
      (hhash : hash ≠ "") :
      Serves p (.set e.name hash nodes) none
        { p with entries := ⟨e.name, hash, nodes⟩ :: (before ++ behind) }
  /-- A new name comes to the front. -/
  | added {name hash nodes} (hname : ∀ e ∈ p.entries, e.name ≠ name) (hhash : hash ≠ "")
      (hroom : p.entries.length < p.room) :
      Serves p (.set name hash nodes) none { p with entries := ⟨name, hash, nodes⟩ :: p.entries }
  /-- If there is no room for a new name, the last entry goes. -/
  | evicted {name hash nodes kept last} (hname : ∀ e ∈ p.entries, e.name ≠ name) (hhash : hash ≠ "")
      (hentries : p.entries = kept ++ [last]) (hfull : p.entries.length = p.room) :
      Serves p (.set name hash nodes) none
        { p with entries := ⟨name, hash, nodes⟩ :: kept, evictions := p.evictions + 1 }
  /-- The entry of a name is taken out. -/
  | erased {e before behind} (hentries : p.entries = before ++ e :: behind) :
      Serves p (.erase e.name) none { p with entries := before ++ behind }
  /-- There is nothing to take out. -/
  | unknown {name} (hname : ∀ e ∈ p.entries, e.name ≠ name) : Serves p (.erase name) none p

/-- Requests that are answered by the rules one after the other. -/
inductive ServesAll : ParseCache → List Request → List (Option (List Node)) → ParseCache → Prop
  | nil {p} : ServesAll p [] [] p
  | cons {p p' q r rs found founds} (hfirst : p.Serves r found p')
      (hrest : ServesAll p' rs founds q) :
      ServesAll p (r :: rs) (found :: founds) q

/-- No name is kept twice, and there is room for all that is kept. -/
structure IsBounded (p : ParseCache) : Prop where
  nodup : (p.entries.map (·.name)).Nodup
  length_le : p.entries.length ≤ p.room

/-! ### Entries by their names -/

variable {p q : ParseCache} {name hash : String} {nodes : List Node} {e : Entry}
  {before behind : List Entry}

private theorem entry?_eq_none_iff : p.entry? name = none ↔ ∀ e ∈ p.entries, e.name ≠ name := by
  rw [ParseCache.entry?, List.find?_eq_none]
  simp only [decide_eq_true_eq]

private theorem others_eq_self (h : ∀ e ∈ p.entries, e.name ≠ name) :
    p.others name = p.entries := by
  rw [others, List.filter_eq_self]
  simpa using h

section

variable (hentries : p.entries = before ++ e :: behind)
  (hnodup : (p.entries.map (·.name)).Nodup)
include hentries hnodup

/-- The other entries have other names. -/
theorem forall_name_ne : (∀ d ∈ before, d.name ≠ e.name) ∧ ∀ d ∈ behind, d.name ≠ e.name := by
  rw [hentries, List.map_append, List.map_cons] at hnodup
  obtain ⟨-, hbehind, hapart⟩ := List.nodup_append.1 hnodup
  refine ⟨fun d hd => ?_, fun d hd heq => ?_⟩
  · exact hapart d.name (List.mem_map_of_mem hd) e.name List.mem_cons_self
  · exact (List.nodup_cons.1 hbehind).1 (heq ▸ List.mem_map_of_mem hd)

private theorem entry?_of_entries_eq : p.entry? e.name = some e := by
  have hbefore := (forall_name_ne hentries hnodup).1
  rw [ParseCache.entry?, hentries, List.find?_append, List.find?_eq_none.2 (by simpa using hbefore)]
  simp

private theorem others_of_entries_eq : p.others e.name = before ++ behind := by
  obtain ⟨hbefore, hbehind⟩ := forall_name_ne hentries hnodup
  rw [others, hentries, List.filter_append, List.filter_cons_of_neg (by simp),
    List.filter_eq_self.2 (by simpa using hbefore), List.filter_eq_self.2 (by simpa using hbehind)]

/-- A request for a name that is kept is answered if the digest is the same, and makes it the most
recent. -/
theorem get_of_entries_eq : p.get e.name hash =
    if hash = "" ∨ e.hash ≠ hash then (none, { p with misses := p.misses + 1 })
    else (some e.nodes, { p with entries := e :: (before ++ behind), hits := p.hits + 1 }) := by
  have hhit : p.hit? e.name hash = if hash = "" ∨ e.hash ≠ hash then none else some e := by
    rw [hit?, entry?_of_entries_eq hentries hnodup, Option.filter_some]
    by_cases hhash : hash = "" <;> by_cases heq : e.hash = hash <;> simp [hhash, heq]
  rw [get, hhit]
  split
  · rename_i hfound
    split at hfound
    · cases hfound
    · rename_i hdigest
      obtain rfl := Option.some.inj hfound
      rw [if_neg hdigest, others_of_entries_eq hentries hnodup]
  · rename_i hnone
    split at hnone
    · rename_i hdigest
      rw [if_pos hdigest]
    · cases hnone

/-- A template under a name that is kept replaces the one there and becomes the most recent. -/
theorem set_of_entries_eq (hhash : hash ≠ "") : p.set e.name hash nodes =
    { p with entries := ⟨e.name, hash, nodes⟩ :: (before ++ behind) } := by
  rw [set, if_neg hhash, entry?_of_entries_eq hentries hnodup,
    others_of_entries_eq hentries hnodup]
  rfl

theorem erase_of_entries_eq : p.erase e.name = { p with entries := before ++ behind } := by
  rw [erase, others_of_entries_eq hentries hnodup]

end

theorem get_of_forall_ne (h : ∀ e ∈ p.entries, e.name ≠ name) :
    p.get name hash = (none, { p with misses := p.misses + 1 }) := by
  rw [get, hit?, entry?_eq_none_iff.2 h]
  rfl

/-- A template under a new name becomes the most recent one, and the oldest ones give way. -/
theorem set_of_forall_ne (h : ∀ e ∈ p.entries, e.name ≠ name) (hhash : hash ≠ "") :
    p.set name hash nodes =
      { p with
        entries := ⟨name, hash, nodes⟩ :: p.entries.take (p.room - 1)
        evictions := p.evictions + (p.entries.length - (p.room - 1)) } := by
  have hlength : p.entries.length - min (p.room - 1) p.entries.length =
      p.entries.length - (p.room - 1) := by omega
  rw [set, if_neg hhash, entry?_eq_none_iff.2 h]
  simp [hlength]

theorem erase_of_forall_ne (h : ∀ e ∈ p.entries, e.name ≠ name) : p.erase name = p := by
  rw [erase, others_eq_self h]

/-! ### The rules -/

/-- A name is that of an entry, or of none. -/
theorem exists_entries_eq_or (p : ParseCache) (name : String) :
    (∃ e before behind, p.entries = before ++ e :: behind ∧ e.name = name) ∨
      ∀ e ∈ p.entries, e.name ≠ name := by
  by_cases h : ∃ e ∈ p.entries, e.name = name
  · obtain ⟨e, he, hname⟩ := h
    obtain ⟨before, behind, hentries⟩ := List.append_of_mem he
    exact .inl ⟨e, before, behind, hentries, hname⟩
  · exact .inr fun e he hname => h ⟨e, he, hname⟩

/-- A bounded cache with room for an entry answers by the rules. -/
theorem IsBounded.serves (h : p.IsBounded) (hroom : 0 < p.room) (r : Request) :
    p.Serves r (p.answer r).1 (p.answer r).2 := by
  cases r with
  | get name hash =>
    change p.Serves _ (p.get name hash).1 (p.get name hash).2
    obtain ⟨e, before, behind, hentries, rfl⟩ | hnone := p.exists_entries_eq_or name
    · rw [get_of_entries_eq hentries h.nodup]
      split
      · rename_i hdigest
        refine .miss fun d hd hname hhash => hdigest.resolve_right fun hne => hne ?_
        rw [List.inj_on_of_nodup_map h.nodup (hentries ▸ by simp) hd hname.symm, hhash]
      · rename_i hdigest
        obtain ⟨hhash, heq⟩ := not_or.1 hdigest
        obtain rfl := not_not.1 heq
        exact .hit hentries hhash
    · rw [get_of_forall_ne hnone]
      exact .miss fun e he hname => absurd hname (hnone e he)
  | set name hash nodes =>
    change p.Serves _ none (p.set name hash nodes)
    by_cases hhash : hash = ""
    · subst hhash
      exact .withoutHash
    obtain ⟨e, before, behind, hentries, rfl⟩ | hnone := p.exists_entries_eq_or name
    · rw [set_of_entries_eq hentries h.nodup hhash]
      exact .exchanged hentries hhash
    · rw [set_of_forall_ne hnone hhash]
      -- A full cache gives up the entry that was asked for least recently.
      rcases Nat.lt_or_eq_of_le h.length_le with hlt | hfull
      · rw [List.take_of_length_le (by omega), Nat.sub_eq_zero_of_le (by omega), Nat.add_zero]
        exact .added hnone hhash hlt
      · obtain ⟨kept, last, hentries⟩ :
            ∃ kept last, p.entries = kept ++ [last] := by
          refine (List.eq_nil_or_concat' p.entries).resolve_left fun hnil => ?_
          rw [hnil, List.length_nil] at hfull
          omega
        have hkept : kept.length = p.room - 1 := by
          rw [← hfull, hentries, List.length_append, List.length_singleton, Nat.add_sub_cancel]
        rw [hfull, Nat.sub_sub_self hroom, ← hkept, hentries, List.take_left]
        exact .evicted hnone hhash hentries hfull
  | erase name =>
    change p.Serves _ none (p.erase name)
    obtain ⟨e, before, behind, hentries, rfl⟩ | hnone := p.exists_entries_eq_or name
    · rw [erase_of_entries_eq hentries h.nodup]
      exact .erased hentries
    · rw [erase_of_forall_ne hnone]
      exact .unknown hnone

/-- The rules keep names distinct and never need more room. -/
theorem Serves.isBounded {r : Request} {found : Option (List Node)} (h : p.Serves r found q)
    (hp : p.IsBounded) : q.IsBounded ∧ q.room = p.room := by
  obtain ⟨hnodup, hlength⟩ := hp
  cases h with
  | @hit e before behind hentries =>
    have hperm : (e :: (before ++ behind)).Perm p.entries := hentries ▸ List.perm_middle.symm
    exact ⟨⟨(hperm.map _).nodup_iff.2 hnodup, hperm.length_eq ▸ hlength⟩, rfl⟩
  | miss | withoutHash | unknown => exact ⟨⟨hnodup, hlength⟩, rfl⟩
  | @exchanged e before behind hash nodes hentries =>
    have hperm : (e :: (before ++ behind)).Perm p.entries := hentries ▸ List.perm_middle.symm
    exact ⟨⟨(hperm.map (·.name)).nodup_iff.2 hnodup, hperm.length_eq ▸ hlength⟩, rfl⟩
  | added hname _ hroom =>
    exact ⟨⟨List.nodup_cons.2 ⟨by simpa using hname, hnodup⟩, hroom⟩, rfl⟩
  | evicted hname _ hentries hfull =>
    rw [hentries] at hname hnodup hfull
    rw [List.map_append, List.nodup_append] at hnodup
    rw [List.length_append, List.length_singleton] at hfull
    refine ⟨⟨List.nodup_cons.2 ⟨?_, hnodup.1⟩, Nat.le_of_eq hfull⟩, rfl⟩
    simpa using (List.forall_mem_append.1 hname).1
  | @erased e before behind hentries =>
    have hsub : (before ++ behind).Sublist p.entries :=
      hentries ▸ (List.sublist_cons_self e behind).append_left before
    exact ⟨⟨(hsub.map _).nodup hnodup, Nat.le_trans hsub.length_le hlength⟩, rfl⟩

/-- What is kept after a request was made by it, or was kept before and the request made nothing
else for that name. -/
private theorem Serves.entryFor?_eq_or {r : Request} {found : Option (List Node)}
    (h : p.Serves r found q) (hp : p.IsBounded) {d : Entry} (hd : d ∈ q.entries) :
    r.entryFor? d.name = some d ∨ r.entryFor? d.name = none ∧ d ∈ p.entries := by
  cases h with
  | hit hentries => exact .inr ⟨rfl, hentries ▸ List.perm_middle.mem_iff.2 hd⟩
  | miss | unknown => exact .inr ⟨rfl, hd⟩
  | withoutHash => exact .inr ⟨if_neg (by simp), hd⟩
  | @exchanged e before behind hash nodes hentries hhash =>
    rcases List.mem_cons.1 hd with rfl | hd
    · exact .inl (if_pos ⟨rfl, hhash⟩)
    · obtain ⟨hbefore, hbehind⟩ := forall_name_ne hentries hp.nodup
      have hne : d.name ≠ e.name := (List.mem_append.1 hd).elim (hbefore d) (hbehind d)
      refine .inr ⟨if_neg fun h => hne h.1.symm, ?_⟩
      exact hentries ▸ List.perm_middle.mem_iff.2 (List.mem_cons_of_mem e hd)
  | added hname hhash =>
    rcases List.mem_cons.1 hd with rfl | hd
    · exact .inl (if_pos ⟨rfl, hhash⟩)
    · exact .inr ⟨if_neg fun h => hname d hd h.1.symm, hd⟩
  | evicted hname hhash hentries =>
    rcases List.mem_cons.1 hd with rfl | hd
    · exact .inl (if_pos ⟨rfl, hhash⟩)
    · have hmem := hentries ▸ List.mem_append_left _ hd
      exact .inr ⟨if_neg fun h => hname d hmem h.1.symm, hmem⟩
  | erased hentries =>
    exact .inr ⟨rfl, hentries ▸ List.perm_middle.mem_iff.2 (List.mem_cons_of_mem _ hd)⟩

theorem isBounded_ofSize (size : Int) : (ofSize size).IsBounded :=
  ⟨.nil, Nat.zero_le _⟩

/-- A history of requests is answered by the rules. -/
theorem IsBounded.servesAll (h : p.IsBounded) (hroom : 0 < p.room) (requests : List Request) :
    p.ServesAll requests (p.run requests).1 (p.run requests).2 ∧
      (p.run requests).2.IsBounded ∧ (p.run requests).2.room = p.room := by
  induction requests generalizing p with
  | nil => exact ⟨.nil, h, rfl⟩
  | cons r rs ih =>
    have hserves := h.serves hroom r
    obtain ⟨hbounded, hsame⟩ := hserves.isBounded h
    obtain ⟨hrest, hlast, hroom'⟩ := ih hbounded (hsame ▸ hroom)
    exact ⟨.cons hserves hrest, hlast, hroom'.trans hsame⟩

/-- What is kept after requests is the last that they made for its name, if they made anything for
it. -/
theorem ServesAll.lastFor?_eq_or {requests : List Request} {answers : List (Option (List Node))}
    (h : p.ServesAll requests answers q) (hp : p.IsBounded) {d : Entry} (hd : d ∈ q.entries) :
    lastFor? d.name requests = some d ∨ lastFor? d.name requests = none ∧ d ∈ p.entries := by
  induction h with
  | nil => exact .inr ⟨rfl, hd⟩
  | cons hfirst hrest ih =>
    rw [lastFor?]
    obtain hlast | ⟨hnone, hkept⟩ := ih (hfirst.isBounded hp).1 hd
    · exact .inl (by rw [hlast]; rfl)
    · rw [hnone, Option.none_or]
      exact hfirst.entryFor?_eq_or hp hkept

end ViewCompiler.ParseCache
