import ViewCompiler.Document.Shape
import ViewCompiler.Document.Yaml.Scalar
import ViewCompiler.Proofs.Outcome

/-!
# Reading back what a document holds

The readers of a format are applied to its nodes. `Document.Holds` states that a format can hold
documents in its nodes: what each reader gives is what the document holds. For such a format, lists
and records are read back item by item and field by field, whatever their readers are. A record is
described by its *entries*, one for each known name, with nothing for a field that is left out
(`Document.present`); a reader of one field needs to know its entry alone (`Document.field_eq_ok`).
-/

namespace ViewCompiler.Document

open Readable

/-- Induction over a document and what is nested in it. -/
theorem induction {motive : Document → Prop} (absent : motive .absent)
    (flag : ∀ b, motive (.flag b)) (number : ∀ n, motive (.number n))
    (text : ∀ s, motive (.text s)) (moment : ∀ s, motive (.moment s))
    (list : ∀ items, (∀ d ∈ items, motive d) → motive (.list items))
    (record : ∀ fields, (∀ f ∈ fields, motive f.2) → motive (.record fields)) : ∀ d, motive d
  | .absent => absent
  | .flag b => flag b
  | .number n => number n
  | .text s => text s
  | .moment s => moment s
  | .list items => list items fun d (_hd : d ∈ items) =>
      induction absent flag number text moment list record d
  | .record fields => record fields fun f (_hf : f ∈ fields) =>
      induction absent flag number text moment list record f.2
termination_by d => sizeOf d
decreasing_by
  · have := List.sizeOf_lt_of_mem _hd
    simp
    omega
  · have := List.sizeOf_lt_of_mem _hf
    cases f
    simp at this ⊢
    omega

mutual

/-- Whether all numbers of a document are of 64 bits. -/
def fits : Document → Bool
  | .number n => Word.fits n
  | .list items => fitsAll items
  | .record fields => fitsFields fields
  | .absent | .flag _ | .text _ | .moment _ => true

/-- Whether all numbers of several documents are of 64 bits. -/
def fitsAll : List Document → Bool
  | [] => true
  | d :: ds => d.fits && fitsAll ds

/-- Whether all numbers of several fields are of 64 bits. -/
def fitsFields : List (String × Document) → Bool
  | [] => true
  | (_, d) :: fs => d.fits && fitsFields fs

end

/-- A list fits if all its items do. -/
theorem fits_list {items : List Document} :
    (list items).fits = true ↔ ∀ d ∈ items, d.fits = true := by
  change fitsAll items = true ↔ _
  induction items with
  | nil => simp [fitsAll]
  | cons d ds ih => rw [fitsAll, Bool.and_eq_true, ih, List.forall_mem_cons]

/-- A record fits if the values of all its fields do. -/
private theorem fits_record {fields : List (String × Document)} :
    (record fields).fits = true ↔ ∀ f ∈ fields, f.2.fits = true := by
  change fitsFields fields = true ↔ _
  induction fields with
  | nil => simp [fitsFields]
  | cons f fs ih =>
    obtain ⟨name, d⟩ := f
    rw [fitsFields, Bool.and_eq_true, ih, List.forall_mem_cons]

/-! ### Named values -/

theorem lookup_map_snd {α β : Type} (f : α → β) (xs : List (String × α)) (name : String) :
    (xs.map fun x => (x.1, f x.2)).lookup name = (xs.lookup name).map f := by
  induction xs with
  | nil => rfl
  | cons x xs ih =>
    rw [List.map_cons, List.lookup_cons, List.lookup_cons, ih]
    split
    · rfl
    · rfl

/-- Where no name occurs twice, it does not matter from which end a name is looked up. -/
theorem lookup_reverse {α : Type} {xs : List (String × α)} (h : (xs.map Prod.fst).Nodup)
    (name : String) : xs.reverse.lookup name = xs.lookup name := by
  induction xs with
  | nil => rfl
  | cons x xs ih =>
    rw [List.map_cons, List.nodup_cons] at h
    obtain ⟨hnew, hxs⟩ := h
    rw [List.reverse_cons, List.lookup_append, ih hxs, List.lookup_cons, List.lookup_cons]
    by_cases hname : name = x.1
    · have hnone : xs.lookup name = none := by
        rw [List.lookup_eq_none_iff]
        intro y hy
        rw [bne_iff_ne]
        rintro rfl
        exact hnew (hname ▸ List.mem_map_of_mem hy)
      rw [hnone, hname, beq_self_eq_true]
      rfl
    · rw [beq_false_of_ne hname]
      exact Option.or_none

/-! ### Entries -/

/-- The fields of the entries that are given. -/
def present (entries : List (String × Option Document)) : List (String × Document) :=
  entries.filterMap fun e => e.2.map (e.1, ·)

/-- The value of a field fits if the record does. -/
private theorem fits_of_lookup {fields : List (String × Document)} (h : (record fields).fits = true)
    {name : String} {d : Document} (hd : fields.lookup name = some d) : d.fits = true := by
  obtain ⟨before, after, rfl, -⟩ := List.lookup_eq_some_iff.1 hd
  exact fits_record.1 h _ (List.mem_append_right _ List.mem_cons_self)

/-- The fields that are written are some of those that can be, in the same order. -/
theorem names_present_sublist (entries : List (String × Option Document)) :
    ((present entries).map Prod.fst).Sublist (entries.map Prod.fst) := by
  induction entries with
  | nil => exact List.Sublist.slnil
  | cons e es ih =>
    obtain ⟨name, d⟩ := e
    cases d with
    | none => exact ih.cons _
    | some d => exact ih.cons_cons _

/-- A field is there if its entry is given. -/
theorem lookup_present {entries : List (String × Option Document)}
    (h : (entries.map Prod.fst).Nodup) (name : String) :
    (present entries).lookup name = (entries.lookup name).join := by
  induction entries with
  | nil => rfl
  | cons e es ih =>
    obtain ⟨n, d⟩ := e
    rw [List.map_cons, List.nodup_cons] at h
    obtain ⟨hnew, hes⟩ := h
    rw [List.lookup_cons]
    by_cases hname : name = n
    · subst hname
      rw [beq_self_eq_true]
      cases d with
      | some d =>
        change List.lookup name ((name, d) :: present es) = _
        rw [List.lookup_cons, beq_self_eq_true]
        rfl
      -- No later entry has the name of one that is left out.
      | none =>
        change List.lookup name (present es) = none
        rw [List.lookup_eq_none_iff]
        intro f hf
        have hmem := (names_present_sublist es).subset (List.mem_map_of_mem hf)
        refine bne_iff_ne.2 fun heq => hnew ?_
        change name ∈ es.map Prod.fst
        rw [heq]
        exact hmem
    · rw [beq_false_of_ne hname]
      cases d with
      | some d =>
        change List.lookup name ((n, d) :: present es) = _
        rw [List.lookup_cons, beq_false_of_ne hname]
        exact ih hes
      | none => exact ih hes

/-- The entry of a text that is left out when it is empty. -/
def textEntry (s : String) : Option Document := if s = "" then none else some (.text s)

/-- The entry of a list that is left out when it is empty. -/
def listEntry (items : List Document) : Option Document :=
  if items.isEmpty then none else some (.list items)

/-- The items of a list that is written unless it is empty fit if the list does. -/
theorem fits_listEntry {items : List Document} (h : ∀ d ∈ listEntry items, d.fits = true) :
    ∀ d ∈ items, d.fits = true := by
  cases items with
  | nil => exact fun d hd => nomatch hd
  | cons d ds => exact fits_list.1 (h _ rfl)

theorem present_nil : present [] = [] := rfl

theorem present_cons (name : String) (entry : Option Document)
    (entries : List (String × Option Document)) :
    present ((name, entry) :: entries) = (entry.map (name, ·)).toList ++ present entries := by
  cases entry with
  | none => rfl
  | some d => rfl

theorem textUnlessEmpty_eq (name s : String) :
    textUnlessEmpty name s = ((textEntry s).map (name, ·)).toList := by
  unfold textUnlessEmpty textEntry
  split
  · rfl
  · rfl

theorem listUnlessEmpty_eq (name : String) (items : List Document) :
    listUnlessEmpty name items = ((listEntry items).map (name, ·)).toList := by
  unfold listUnlessEmpty listEntry
  split
  · rfl
  · rfl

theorem numberIfSome_eq (name : String) (n : Option Int) :
    numberIfSome name n = ((n.map Document.number).map (name, ·)).toList := by
  cases n with
  | none => rfl
  | some n => rfl

/-! ### Fields -/

section Fields

variable {ν α : Type} {hold : Document → ν} {named : List (String × ν)} {name : String}
  {entry : Option Document} {read : ν → Except ReadError (Option α)}
  (hlookup : named.lookup name = entry.map hold)
include hlookup

/-- A field that may be missing is read back from its entry. -/
theorem field?_eq_ok {x : Option α} (hread : ∀ d ∈ entry, read (hold d) = .ok x)
    (hnone : entry = none → x = none) : field? named name read = .ok x := by
  unfold field?
  rw [hlookup]
  cases entry with
  | none =>
    rw [hnone rfl]
    rfl
  | some d => exact hread d rfl

/-- A field with a default is read back from its entry. -/
theorem field_eq_ok {x default : α} (hread : ∀ d ∈ entry, read (hold d) = .ok (some x))
    (hnone : entry = none → x = default) : field named name default read = .ok x := by
  unfold field
  cases entry with
  | none =>
    have hmissing : field? named name read = .ok none :=
      field?_eq_ok hlookup (fun d hd => nomatch hd) fun _ => rfl
    rw [hmissing, hnone rfl]
    rfl
  | some d =>
    have hgiven : field? named name read = .ok (some x) :=
      field?_eq_ok hlookup hread fun hnone => nomatch hnone
    rw [hgiven]
    rfl

end Fields

/-! ### Formats -/

/-- A format can hold documents in its nodes, and its readers give back what they hold. A field has
to be known, and its name must not stand for a missing value. -/
structure Holds {ν : Type} [Readable ν] (hold : Document → ν) : Prop where
  string? : ∀ s, Readable.string? (hold (.text s)) = .ok (some s)
  integer? : ∀ n, Word.fits n = true → Readable.integer? (hold (.number n)) = .ok (some n)
  flag? : ∀ b, Readable.flag? (hold (.flag b)) = .ok (some b)
  items? : ∀ items, Readable.items? (hold (.list items)) = .ok (some (items.map hold))
  fields? : ∀ known fields, (∀ f ∈ fields, f.1 ∈ known) →
    (∀ f ∈ fields, Yaml.Scalar.resolve f.1 ≠ .absent) → (fields.map Prod.fst).Nodup →
    ∃ named, Readable.fields? known (hold (.record fields)) = .ok (some named) ∧
      ∀ name, named.lookup name = (fields.lookup name).map hold

namespace Holds

variable {ν : Type} [Readable ν] {hold : Document → ν} (h : Holds hold) {α : Type}
include h

/-- A list is read back if its items are. -/
theorem list? {default : α} {read : ν → Except ReadError (Option α)} {write : α → Document}
    {xs : List α} (hread : ∀ x ∈ xs, read (hold (write x)) = .ok (some x)) :
    Readable.list? default read (hold (.list (xs.map write))) = .ok (some xs) := by
  have hitems : ((xs.map write).map hold).mapM read = .ok (xs.map some) := by
    clear h
    induction xs with
    | nil => rfl
    | cons x xs ih =>
      obtain ⟨hx, hxs⟩ := List.forall_mem_cons.1 hread
      exact mapM_cons_eq_ok_iff.2 ⟨some x, xs.map some, hx, ih hxs, rfl⟩
  unfold Readable.list?
  rw [h.items?]
  refine bind_eq_ok_iff.2 ⟨_, rfl, bind_eq_ok_iff.2 ⟨_, hitems, ?_⟩⟩
  -- No item is without a value, so that it does not matter what happens to those.
  cases dropsEmptyItems ν with
  | true => simp [List.filterMap_map, pure, Except.pure]
  | false => simp [Function.comp_def, pure, Except.pure]

/-- The fields of a record are found by their entries, and their numbers fit if all do. -/
theorem record? (entries : List (String × Option Document)) {known : List String}
    (hknown : entries.map Prod.fst = known) (hnodup : known.Nodup)
    (hnames : ∀ name ∈ known, Yaml.Scalar.resolve name ≠ .absent)
    (hfits : (record (present entries)).fits = true)
    {build : List (String × ν) → Except ReadError α} {x : α}
    (hbuild : ∀ named : List (String × ν),
      (∀ name, named.lookup name = (entries.lookup name).join.map hold) →
      (∀ name, ∀ d ∈ (entries.lookup name).join, d.fits = true) → build named = .ok x) :
    Readable.record? known build (hold (.record (present entries))) = .ok (some x) := by
  subst hknown
  have hsub := names_present_sublist entries
  obtain ⟨named, hnamed, hlookup⟩ := h.fields? (entries.map Prod.fst) (present entries)
    (fun f hf => hsub.subset (List.mem_map_of_mem hf))
    (fun f hf => hnames _ (hsub.subset (List.mem_map_of_mem hf))) (hsub.nodup hnodup)
  have hx := hbuild named (fun name => by rw [hlookup, lookup_present hnodup]) fun name d hd =>
    fits_of_lookup hfits (by rw [lookup_present hnodup]; exact hd)
  unfold Readable.record?
  rw [hnamed]
  exact bind_eq_ok_iff.2 ⟨_, rfl, bind_eq_ok_iff.2 ⟨x, hx, rfl⟩⟩

variable {named : List (String × ν)} {name : String}

/-- A text is read back from its field. -/
theorem field_text {s : String} (hlookup : named.lookup name = (some (.text s)).map hold) :
    field named name "" Readable.string? = .ok s := by
  refine field_eq_ok hlookup (fun d hd => ?_) fun hnone => nomatch hnone
  obtain rfl := Option.some.inj hd
  exact h.string? s

/-- A text that is written unless it is empty is read back, and empty where there is no field. -/
theorem field_textEntry {s : String} (hlookup : named.lookup name = (textEntry s).map hold) :
    field named name "" Readable.string? = .ok s := by
  unfold textEntry at hlookup
  split at hlookup
  · rename_i hempty
    exact field_eq_ok hlookup (fun d hd => nomatch hd) fun _ => hempty
  · exact h.field_text hlookup

/-- A truth value is read back from its field. -/
theorem field_flag {b : Bool} (hlookup : named.lookup name = (some (.flag b)).map hold) :
    field named name false Readable.flag? = .ok b := by
  refine field_eq_ok hlookup (fun d hd => ?_) fun hnone => nomatch hnone
  obtain rfl := Option.some.inj hd
  exact h.flag? b

/-- A number is read back from its field. -/
theorem field_number {n : Int} (hlookup : named.lookup name = (some (.number n)).map hold)
    (hfits : ∀ d ∈ some (number n), d.fits = true) :
    field named name 0 Readable.integer? = .ok n := by
  refine field_eq_ok hlookup (fun d hd => ?_) fun hnone => nomatch hnone
  obtain rfl := Option.some.inj hd
  exact h.integer? n (hfits _ rfl)

/-- A number that may be missing is read back, and missing where there is no field. -/
theorem field?_number {n : Option Int} (hlookup : named.lookup name = (n.map .number).map hold)
    (hfits : ∀ d ∈ n.map number, d.fits = true) :
    field? named name Readable.integer? = .ok n := by
  cases n with
  | none => exact field?_eq_ok hlookup (fun d hd => nomatch hd) fun _ => rfl
  | some n =>
    refine field?_eq_ok hlookup (fun d hd => ?_) fun hnone => nomatch hnone
    obtain rfl := Option.some.inj hd
    exact h.integer? n (hfits _ rfl)

variable {default : α} {read : ν → Except ReadError (Option α)} {write : α → Document} {xs : List α}

/-- A list that is written unless it is empty is read back, and empty where there is no field. -/
theorem field_listEntry (hlookup : named.lookup name = (listEntry (xs.map write)).map hold)
    (hread : ∀ x ∈ xs, read (hold (write x)) = .ok (some x)) :
    field named name [] (Readable.list? default read) = .ok xs := by
  cases xs with
  | nil => exact field_eq_ok hlookup (fun d hd => nomatch hd) fun _ => rfl
  | cons x xs =>
    refine field_eq_ok hlookup (fun d hd => ?_) fun hnone => nomatch hnone
    obtain rfl := Option.some.inj hd
    exact h.list? hread

/-- A list that is always written is read back. -/
theorem field?_list (hlookup : named.lookup name = (some (.list (xs.map write))).map hold)
    (hread : ∀ x ∈ xs, read (hold (write x)) = .ok (some x)) :
    field? named name (Readable.list? default read) = .ok (some xs) := by
  refine field?_eq_ok hlookup (fun d hd => ?_) fun hnone => nomatch hnone
  obtain rfl := Option.some.inj hd
  exact h.list? hread

theorem field?_texts {xs : List String}
    (hlookup : named.lookup name = (some (.list (xs.map .text))).map hold) :
    field? named name strings? = .ok (some xs) :=
  h.field?_list hlookup fun x _ => h.string? x

end Holds

end ViewCompiler.Document
