import ViewCompiler.Proofs.Template.Scanning
import ViewCompiler.Template.Parser

/-!
# Where tokens lie

Each reader goes forward: the cursor it leaves has behind it what the one it was given had, less
what was read (`Cursor.Leads`), and its offset has grown by just these bytes. So every step leaves
less to read (`shortens_step`), all that is read lies where it was read, one token after the other
(`Scans.inOrder`), and every fault lies within the template. The one reader that does not take its
offsets from what it has read is that of raw text: it searches in the lower case form of the
template, and may find the closing tag behind the end (`step_eq_overrun_iff`).

What a reader does is stated in one form for all of them. `ReadsFrom size c P overrun result` says
of a result that, if it is one, the cursor leads on and `P` holds of what was read, and that a
failure lies within a template of that size, or else that `overrun` holds. The readers are followed
from the inside out: the value of an attribute, an attribute, the attributes of a tag, raw text,
directives and tags, and at last a whole step (`reads_step`). Each of these is used in the next one
by name.

That a template can be left is a property of the cursor alone (`Cursor.Overruns`): a tag with raw
text stands there, and what closes it, placed where it stands in the lower case form, ends behind
the template.

`Scans` is the form in which the rest of the theory uses a scan: tokens that steps have read one
after the other, from one cursor to another.
-/

namespace ViewCompiler.Template

open ViewCompiler.Text

/-! ### Cursors -/

namespace Cursor

/-- The template, of so many bytes, ends where the rest of it does. -/
def Ends (size : Nat) (c : Cursor) : Prop := c.offset + byteLength c.rest = size

/-- `next` stands at `c` or behind it. -/
def Leads (c next : Cursor) : Prop :=
  ∃ taken, c.rest = taken ++ next.rest ∧ next.offset = c.offset + byteLength taken

theorem Leads.refl (c : Cursor) : c.Leads c := ⟨[], rfl, rfl⟩

theorem Leads.trans {a b c : Cursor} (h : a.Leads b) (h' : b.Leads c) : a.Leads c := by
  obtain ⟨taken, hrest, hoffset⟩ := h
  obtain ⟨taken', hrest', hoffset'⟩ := h'
  refine ⟨taken ++ taken', by rw [hrest, hrest', List.append_assoc], ?_⟩
  rw [hoffset', hoffset, byteLength_append, Nat.add_assoc]

/-- A cursor leads to wherever a beginning of its rest was taken. -/
theorem leads_past {c : Cursor} {taken rest : List Char} (h : c.rest = taken ++ rest) :
    c.Leads (c.past taken rest) :=
  ⟨taken, h, rfl⟩

/-- A cursor leads to where it stops skipping characters. -/
theorem leads_skipWhile (c : Cursor) (p : Char → Bool) : c.Leads (c.skipWhile p) :=
  leads_past List.takeWhile_append_dropWhile.symm

theorem leads_skipSpace (c : Cursor) : c.Leads c.skipSpace := c.leads_skipWhile _

/-- A cursor leads to where a text that it starts with ends. -/
theorem leads_of_consume? {c next : Cursor} {s : List Char} (h : c.consume? s = some next) :
    c.Leads next := by
  obtain ⟨rest, hrest, rfl⟩ := Option.map_eq_some_iff.1 h
  exact leads_past (dropPrefix?_eq_some_iff.1 hrest)

variable {size : Nat} {c next : Cursor}

/-- Offsets never become smaller on the way. -/
theorem Leads.offset_le (h : c.Leads next) : c.offset ≤ next.offset := by
  obtain ⟨taken, -, hoffset⟩ := h
  exact hoffset ▸ Nat.le_add_right _ _

/-- A cursor leads only to cursors that end where it does. -/
theorem Leads.ends (h : c.Leads next) (hc : c.Ends size) : next.Ends size := by
  obtain ⟨taken, hrest, hoffset⟩ := h
  rw [Ends, hrest, byteLength_append] at hc
  rw [Ends, hoffset, Nat.add_assoc]
  exact hc

theorem Ends.offset_le (h : c.Ends size) : c.offset ≤ size := h ▸ Nat.le_add_right _ _

/-- A cursor further on has less before it. -/
theorem Leads.length_lt (h : c.Leads next) (hlt : c.offset < next.offset) :
    next.rest.length < c.rest.length := by
  obtain ⟨taken, hrest, hoffset⟩ := h
  have htaken : taken ≠ [] := by
    rintro rfl
    exact absurd hoffset (Nat.ne_of_gt hlt)
  have hlength := List.length_pos_iff.2 htaken
  rw [hrest, List.length_append]
  omega

end Cursor

theorem byteLength_pos {cs : List Char} (h : cs ≠ []) : 0 < byteLength cs := by
  cases cs with
  | nil => exact absurd rfl h
  | cons c cs => exact Nat.add_pos_left c.utf8Size_pos _

/-- Taking something moves the offset on. -/
theorem offset_lt_past {c : Cursor} {taken rest : List Char} (h : taken ≠ []) :
    c.offset < (c.past taken rest).offset :=
  Nat.lt_add_of_pos_right (byteLength_pos h)

private theorem Cursor.offset_lt_of_consume? {c next : Cursor} {s : List Char} (hs : s ≠ [])
    (h : c.consume? s = some next) : c.offset < next.offset := by
  obtain ⟨rest, -, rfl⟩ := Option.map_eq_some_iff.1 h
  exact offset_lt_past hs

/-! ### What is read -/

/-- A fault lies within the template; the template is left only if it is `overrun`. -/
def Failure.Within (size : Nat) (overrun : Prop) : Failure → Prop
  | .fault start stop _ => start ≤ stop ∧ stop ≤ size
  | .overrun => overrun

theorem Failure.Within.imp {size : Nat} {p q : Prop} (hpq : p → q) {e : Failure}
    (h : e.Within size p) : e.Within size q := by
  cases e with
  | fault => exact h
  | overrun => exact hpq h

/-- An attribute and its value end by the offset. -/
structure Attribute.Within (limit : Nat) (a : Attribute) : Prop where
  start_le : a.start ≤ a.stop
  stop_le : a.stop ≤ limit
  value_le : a.valueStop ≤ limit

/-- A tag ends by the offset, and its attributes end by its end. -/
structure Tag.Within (limit : Nat) (t : Tag) : Prop where
  start_le : t.start ≤ t.stop
  stop_le : t.stop ≤ limit
  attributes : ∀ a ∈ t.attributes, a.Within t.stop

/-- A directive tag ends by the offset, and its specification by its end. -/
structure DirectiveTag.Within (limit : Nat) (t : DirectiveTag) : Prop where
  start_le : t.start ≤ t.stop
  stop_le : t.stop ≤ limit
  spec_le : t.specStart ≤ t.specStop
  specStop_le : t.specStop ≤ t.stop

/-- A token lies between two offsets, with all it remembers. -/
def Token.Between (lower upper : Nat) : Token → Prop
  | .text start stop _ => lower ≤ start ∧ start ≤ stop ∧ stop ≤ upper
  | .interpolation start stop _ => lower ≤ start ∧ start ≤ stop ∧ stop ≤ upper
  | .opening tag => lower ≤ tag.start ∧ tag.Within upper
  | .leaf tag => lower ≤ tag.start ∧ tag.Within upper
  | .verbatim tag bodyStart bodyStop _ stop =>
    lower ≤ tag.start ∧ tag.Within bodyStart ∧ bodyStart ≤ bodyStop ∧ bodyStop ≤ stop ∧ stop ≤ upper
  | .directive tag _ => lower ≤ tag.start ∧ tag.Within upper
  | .closing _ start stop => lower ≤ start ∧ start ≤ stop ∧ stop ≤ upper

/-- A reader goes from one cursor to another with something that satisfies `P` there, or fails
within the template; it leaves the template only if it is `overrun`. -/
def ReadsFrom {α : Type} (size : Nat) (c : Cursor) (P : α → Cursor → Prop) (overrun : Prop) :
    Except Failure (α × Cursor) → Prop
  | .ok (a, next) => c.Leads next ∧ P a next
  | .error e => e.Within size overrun

/-- A reader that starts further on reads the same. -/
theorem ReadsFrom.of_leads {α : Type} {size : Nat} {c next : Cursor} {P : α → Cursor → Prop}
    {overrun : Prop} {result : Except Failure (α × Cursor)}
    (h : ReadsFrom size next P overrun result)
    (hlead : c.Leads next) : ReadsFrom size c P overrun result := by
  cases result with
  | error e => exact h
  | ok result => exact ⟨hlead.trans h.1, h.2⟩

/-- What is known about a result of reading may be weakened. -/
theorem ReadsFrom.imp {α : Type} {size : Nat} {c : Cursor} {P Q : α → Cursor → Prop} {p q : Prop}
    {result : Except Failure (α × Cursor)} (h : ReadsFrom size c P p result)
    (hPQ : ∀ a next, c.Leads next → P a next → Q a next) (hpq : p → q) :
    ReadsFrom size c Q q result := by
  cases result with
  | error e => exact Failure.Within.imp hpq h
  | ok result => exact ⟨h.1, hPQ _ _ h.1 h.2⟩

theorem utf8ByteSize_ofList (cs : List Char) : (String.ofList cs).utf8ByteSize = byteLength cs := by
  induction cs with
  | nil => rfl
  | cons c cs ih =>
    rw [String.ofList_cons, String.utf8ByteSize_append, String.utf8ByteSize_singleton,
      ih, byteLength]

/-- A text is what was taken before the stop, and the rest. -/
theorem takeUntil_append_eq (stops : List Char → Bool) (cs : List Char) :
    (takeUntil stops cs).1 ++ (takeUntil stops cs).2 = cs := by
  induction cs with
  | nil => rfl
  | cons c cs ih =>
    rw [takeUntil]
    split
    · rfl
    · rw [List.cons_append, ih]

/-- A text is the run of text at its beginning, and the rest. -/
theorem takeText_append_eq (cs : List Char) : (takeText cs).1 ++ (takeText cs).2 = cs := by
  induction cs with
  | nil => rfl
  | cons c cs ih =>
    rw [takeText]
    split
    · rfl
    · rw [List.cons_append, ih]

section Readers

variable {size : Nat} {c : Cursor}

/-! ### Attributes -/

/-- What is read of an attribute ends where the reader goes on. -/
private theorem reads_readAttributeValue {tag name : String} {start : Nat} (h : c.Ends size)
    (hstart : start ≤ c.offset) :
    ReadsFrom size c (fun a next => a.Within next.offset) False
      (readAttributeValue size tag name start c) := by
  have hsize : c.offset ≤ size := h.offset_le
  unfold readAttributeValue
  split
  · exact ⟨hstart, hsize⟩
  · rename_i q rest hrest
    split
    · split
      · exact ⟨Nat.le_trans hstart hsize, Nat.le_refl _⟩
      · rename_i value after hcut
        have hnext : c.Leads (c.past (q :: value ++ [q]) after) := by
          refine Cursor.leads_past ?_
          rw [hrest, eq_of_cut?_eq_some hcut]
          simp
        refine ⟨hnext, Nat.le_trans hstart hnext.offset_le, Nat.le_refl _, ?_⟩
        simp only [Attribute.valueStop, Option.getD_some, utf8ByteSize_ofList, Cursor.past,
          byteLength_append, byteLength]
        omega
    · split
      rename_i value after hvalue
      split
      · exact ⟨hstart, hsize⟩
      · have heq := takeUntil_append_eq endsUnquoted c.rest
        rw [hvalue] at heq
        have hnext : c.Leads (c.past value after) := Cursor.leads_past heq.symm
        refine ⟨hnext, Nat.le_trans hstart hnext.offset_le, Nat.le_refl _, ?_⟩
        simp only [Attribute.valueStop, Option.getD_some, utf8ByteSize_ofList, Cursor.past]
        exact Nat.le_refl _

/-- What follows the name of an attribute gives an attribute that lies before the next cursor. -/
private theorem reads_afterName {tag : String} {name : List Char} {here : Cursor}
    (hhere : here.Ends size) (hstart : c.offset ≤ here.offset) :
    ReadsFrom size here (fun a next => a.Within next.offset) False
      (readAttribute.afterName size tag c name here) := by
  have hspace := here.leads_skipSpace
  unfold readAttribute.afterName
  simp only
  split
  · rename_i valued hvalued
    have hvalue := (hspace.trans (Cursor.leads_of_consume? hvalued)).trans valued.leads_skipSpace
    exact (reads_readAttributeValue (hvalue.ends hhere)
      (Nat.le_trans hstart hvalue.offset_le)).of_leads hvalue
  · exact ⟨hspace, Nat.le_trans hstart hspace.offset_le, Nat.le_refl _, Nat.zero_le _⟩

private theorem utf8Size_le_of_cons {d : Char} {cs : List Char} (h : c.Ends size)
    (hrest : c.rest = d :: cs) :
    c.offset + 1 ≤ size := by
  have hpos := d.utf8Size_pos
  rw [Cursor.Ends, hrest, byteLength] at h
  omega

/-- An attribute is read, and where there is something to read the reader goes on. -/
theorem reads_readAttribute (tag : String) (h : c.Ends size) :
    ReadsFrom size c (fun a next => a.Within next.offset ∧ (c.rest ≠ [] → c.offset < next.offset))
      False
      (readAttribute size tag c) := by
  unfold readAttribute
  split
  rename_i name rest hname
  have heq := takeUntil_append_eq
    (fun cs => endsAttributeName cs || cs.head?.any isForbiddenInName) c.rest
  rw [hname] at heq
  have hhere : c.Leads (c.past name rest) := Cursor.leads_past heq.symm
  have hafter : ReadsFrom size (c.past name rest) (fun a next => a.Within next.offset) False
      (readAttribute.afterName size tag c name (c.past name rest)) :=
    reads_afterName (hhere.ends h) hhere.offset_le
  -- A name that is not empty takes the reader further.
  have hnamed : (c.rest ≠ [] → name ≠ []) →
      ReadsFrom size c (fun a next => a.Within next.offset ∧ (c.rest ≠ [] → c.offset < next.offset))
        False
        (readAttribute.afterName size tag c name (c.past name rest)) := by
    intro hne
    refine (hafter.imp (fun a next hlead ha => ⟨ha, fun hrest => ?_⟩) id).of_leads hhere
    exact Nat.lt_of_lt_of_le (offset_lt_past (hne hrest)) hlead.offset_le
  split
  · rename_i d cs
    split
    · exact ⟨Nat.le_succ _, utf8Size_le_of_cons (hhere.ends h) rfl⟩
    · rename_i hexpected
      refine hnamed fun _ hempty => hexpected ?_
      rw [hempty, List.isEmpty_nil, Bool.or_true]
  · refine hnamed fun hrest hempty => hrest ?_
    rw [← heq, hempty, List.append_nil]

/-- The attributes of a tag end by its end, where the reader goes on. -/
def ReadsAttributes (size : Nat) (c : Cursor) :
    Except Failure (List Attribute × Bool × Cursor) → Prop
  | .ok (attributes, _, next) =>
    c.Leads next ∧ c.offset < next.offset ∧ ∀ a ∈ attributes, a.Within next.offset
  | .error e => e.Within size False

theorem Attribute.Within.mono {a : Attribute} {limit limit' : Nat} (h : a.Within limit)
    (hle : limit ≤ limit') : a.Within limit' :=
  ⟨h.start_le, Nat.le_trans h.stop_le hle, Nat.le_trans h.value_le hle⟩

/-- Behind the blanks before it, an attribute takes the reader further. -/
theorem reads_skipSpace_readAttribute {tag : String} (h : c.Ends size)
    (hrest : ¬c.skipSpace.rest.isEmpty = true) {result : Except Failure (Attribute × Cursor)}
    (hresult : readAttribute size tag c.skipSpace = result) :
    ReadsFrom size c (fun a next => a.Within next.offset ∧ c.offset < next.offset)
      False result := by
  subst hresult
  have hspace := c.leads_skipSpace
  refine ((reads_readAttribute tag (hspace.ends h)).imp (fun a next _ ha => ⟨ha.1, ?_⟩) id).of_leads
    hspace
  exact Nat.lt_of_le_of_lt hspace.offset_le (ha.2 fun hnil => hrest (List.isEmpty_iff.2 hnil))

/-- Reading attributes gives attributes that lie one behind the other, or fails within the
template. -/
theorem readsAttributes_readAttributes {start : Nat} {tag : String} (h : c.Ends size)
    (hstart : start ≤ c.offset) {result : Except Failure (List Attribute × Bool × Cursor)}
    (hresult : readAttributes size start tag c = result) : ReadsAttributes size c result := by
  subst hresult
  have hend : ∀ {c after : Cursor} {s : List Char} (selfClosing : Bool), s ≠ [] →
      c.skipSpace.consume? s = some after →
        ReadsAttributes size c (.ok ([], selfClosing, after)) := by
    intro c after s selfClosing hs hclose
    have hspace := c.leads_skipSpace
    refine ⟨hspace.trans (Cursor.leads_of_consume? hclose), ?_, by simp⟩
    exact Nat.lt_of_le_of_lt hspace.offset_le (Cursor.offset_lt_of_consume? hs hclose)
  fun_induction readAttributes size start tag c with
  | case1 c here hnone =>
    have hspace := c.leads_skipSpace
    exact ⟨Nat.le_trans hstart hspace.offset_le, (hspace.ends h).offset_le⟩
  | case2 c here hne after hclose => exact hend true (by simp) hclose
  | case3 c here hne after hclose _ => exact hend false (by simp) hclose
  | case4 c here hne hopen hself e hattribute =>
      exact reads_skipSpace_readAttribute h hne hattribute
  | case5 c here hne hopen hself a next hattribute hlt e hrest ih =>
    obtain ⟨hlead, -, -⟩ := reads_skipSpace_readAttribute h hne hattribute
    have hmore := ih (hlead.ends h) (Nat.le_trans hstart hlead.offset_le)
    rw [hrest] at hmore
    exact hmore
  | case6 c here hne hopen hself a next hattribute hlt attributes selfClosing after hrest ih =>
    obtain ⟨hlead, ha, -⟩ := reads_skipSpace_readAttribute h hne hattribute
    have hmore := ih (hlead.ends h) (Nat.le_trans hstart hlead.offset_le)
    rw [hrest] at hmore
    obtain ⟨hlead', hforward, hattributes⟩ := hmore
    refine ⟨hlead.trans hlead', Nat.lt_of_le_of_lt hlead.offset_le hforward, ?_⟩
    exact List.forall_mem_cons.2 ⟨ha.mono (Nat.le_of_lt hforward), hattributes⟩
  | case7 c here hne hopen hself a next hattribute hlt =>
    -- The reader always goes on, so it never gives up here.
    obtain ⟨hlead, -, hforward⟩ := reads_skipSpace_readAttribute h hne hattribute
    exact absurd (hlead.length_lt hforward) hlt

/-! ### Raw text -/

/-- As long as there are so many bytes, they are those before what follows them. -/
private theorem append_of_cutBytes {n : Nat} {cs rest : List Char}
    (h : (cutBytes n cs).2 = some rest)
    (hn : n ≤ byteLength cs) : ∃ taken, cs = taken ++ rest ∧ byteLength taken = n := by
  fun_induction cutBytes n cs with
  | case1 cs =>
    obtain rfl := Option.some.inj h
    exact ⟨[], rfl, rfl⟩
  | case2 n => exact absurd hn (Nat.not_succ_le_zero n)
  | case3 n c cs hfits taken rest' hcut ih =>
    rw [hcut] at ih
    rw [byteLength] at hn
    obtain ⟨taken', rfl, hlength⟩ := ih h (by omega)
    refine ⟨c :: taken', rfl, ?_⟩
    rw [byteLength, hlength]
    omega
  | case4 => cases h

/-- What closes a raw text element, in the lower case form in which it is searched. -/
def Tag.rawClosing (t : Tag) : List Char := '<' :: '/' :: t.name.toList.map lowerChar

/-- The closing tag of a raw text element, placed where it stands in the lower case form of what
follows the opening tag, ends behind the template. -/
def RunsOver (size : Nat) (tag : Tag) (after : Cursor) : Prop :=
  ∃ before rest, cut? tag.rawClosing (after.rest.map lowerChar) = some (before, rest) ∧
    size < after.offset + byteLength before + byteLength tag.rawClosing

/-- Reading raw text overruns exactly where its closing tag is told from an offset too far
behind. -/
theorem readRawText_eq_overrun_iff {tag : Tag} :
    readRawText size tag c = .error .overrun ↔ RunsOver size tag c := by
  unfold readRawText RunsOver Tag.rawClosing
  simp only
  split
  · rename_i hcut
    simp [hcut]
  · rename_i before rest hcut
    split
    · rename_i hover
      exact iff_of_true rfl ⟨before, rest, hcut, hover⟩
    · rename_i hfits
      refine iff_of_false (fun hread => ?_) ?_
      · split at hread
        · cases hread
        · split at hread <;> cases hread
      · rintro ⟨before', rest', hcut', hover⟩
        obtain ⟨rfl, -⟩ := Prod.mk.inj (Option.some.inj (hcut.symm.trans hcut'))
        exact hfits hover

/-- A raw text element whose closing tag lies within the template is read up to its end. -/
theorem reads_readRawText {tag : Tag} (h : c.Ends size) (htag : tag.Within c.offset) :
    ReadsFrom size c (fun token next => token.Between tag.start next.offset) (RunsOver size tag c)
      (readRawText size tag c) := by
  unfold readRawText
  simp only
  split
  · exact ⟨htag.start_le, Nat.le_trans htag.stop_le h.offset_le⟩
  · rename_i before rest hcut
    split
    · rename_i hover
      exact ⟨before, rest, hcut, hover⟩
    · rename_i hfits
      have hstop : c.offset + byteLength before + byteLength tag.rawClosing ≤ size :=
        Nat.not_lt.1 hfits
      split
      · exact ⟨Nat.le_add_right _ _, hstop⟩
      · rename_i taken rest' hcutBytes
        -- What is cut off has as many bytes as were found in the lower case form.
        obtain ⟨taken', hrest, hlength⟩ := append_of_cutBytes (congrArg Prod.snd hcutBytes) (by
          rw [Cursor.Ends] at h
          rw [Tag.rawClosing] at hstop
          omega)
        have hclosed :
            c.Leads ⟨rest', c.offset + byteLength before + byteLength tag.rawClosing⟩ := by
          refine ⟨taken', hrest, ?_⟩
          rw [hlength, ← Nat.add_assoc]
          rfl
        have hspace := hclosed.trans (Cursor.leads_skipSpace _)
        have hbody : c.offset + byteLength before ≤ _ :=
          Nat.le_trans (Nat.le_add_right _ _) (Cursor.leads_skipSpace
            ⟨rest', c.offset + byteLength before + byteLength tag.rawClosing⟩).offset_le
        split
        · exact ⟨hbody, (hspace.ends h).offset_le⟩
        · rename_i next hclose
          have hnext := Cursor.leads_of_consume? hclose
          exact ⟨hspace.trans hnext, Nat.le_refl _, htag, Nat.le_add_right _ _,
            Nat.le_trans hbody hnext.offset_le, Nat.le_refl _⟩

/-! ### Tags -/

private theorem byteLength_dropLast_le (cs : List Char) :
    byteLength cs.dropLast ≤ byteLength cs := by
  obtain ⟨last, hlast⟩ := List.dropLast_prefix cs
  have hlength := byteLength_append cs.dropLast last
  rw [hlast] at hlength
  omega

/-- A directive is read as a token between the cursor and the next one, or fails within the
template. -/
private theorem reads_readDirective {start : Nat} (name : String) (h : c.Ends size)
    (hstart : start ≤ c.offset) :
    ReadsFrom size c (fun token next => token.Between start next.offset ∧ c.offset < next.offset)
      False
      (readDirective size start name c) := by
  have hsize : start ≤ size := Nat.le_trans hstart h.offset_le
  have hbody : ∀ read, ReadsFrom size c
      (fun token next => token.Between start next.offset ∧ c.offset < next.offset) False
      (readDirective.body size start name c read) := by
    intro read
    unfold readDirective.body
    split
    · exact ⟨hsize, Nat.le_refl _⟩
    · rename_i raw rest hcut
      have hnext : c.Leads (c.past (raw ++ ['>']) rest) :=
        Cursor.leads_past (eq_of_cut?_eq_some hcut)
      have hforward : c.offset < (c.past (raw ++ ['>']) rest).offset := offset_lt_past (by simp)
      simp only
      generalize hspec : (if raw.getLast? = some '/' then raw.dropLast else raw) = spec
      have hle : byteLength spec ≤ byteLength raw := by
        subst hspec
        split
        · exact byteLength_dropLast_le raw
        · exact Nat.le_refl _
      have hstop : c.offset + byteLength spec ≤ (c.past (raw ++ ['>']) rest).offset := by
        simp only [Cursor.past, byteLength_append]
        omega
      split
      · exact ⟨Nat.le_add_right _ _, Nat.le_trans hstop (hnext.ends h).offset_le⟩
      · exact ⟨hnext, ⟨Nat.le_refl _, Nat.le_trans hstart hnext.offset_le, Nat.le_refl _,
          Nat.le_add_right _ _, hstop⟩, hforward⟩
  unfold readDirective
  split
  · exact hbody _
  · split
    · exact hbody _
    · exact ⟨hstart, h.offset_le⟩

/-- The name of the tag at the cursor. -/
def Cursor.tagName (c : Cursor) : String := String.ofList ((c.rest.drop 1).takeWhile isNameChar)

/-- The cursor behind the name of the tag at the cursor. -/
def Cursor.behindTagName (c : Cursor) : Cursor :=
  (c.past ['<'] (c.rest.drop 1)).skipWhile isNameChar

/-- The opening tag of a raw text element stands at the cursor, up to another one. -/
structure OpensRawText (size : Nat) (c : Cursor) (tag : Tag) (after : Cursor) : Prop where
  atTag : atTag c.rest = true
  name : tag.name = c.tagName
  isRawText : isRawTextElement tag.name = true
  attributes :
    readAttributes size c.offset tag.name c.behindTagName = .ok (tag.attributes, false, after)
  start : tag.start = c.offset
  stop : tag.stop = after.offset

/-- The reader leaves the template in a raw text element at the cursor. -/
def Cursor.Overruns (size : Nat) (c : Cursor) : Prop :=
  ∃ tag after, OpensRawText size c tag after ∧ RunsOver size tag after

theorem Cursor.leads_behindTagName (htag : atTag c.rest = true) : c.Leads c.behindTagName := by
  obtain ⟨d, rest, hrest, -⟩ := exists_of_atTag htag
  have hinner : c.Leads (c.past ['<'] (c.rest.drop 1)) := Cursor.leads_past (by rw [hrest]; rfl)
  exact hinner.trans (Cursor.leads_skipWhile _ _)

/-- A tag is read as a token between the cursor and the next one; only raw text can overrun. -/
private theorem reads_readTag (h : c.Ends size) (htag : atTag c.rest = true) :
    ReadsFrom size c (fun token next => token.Between c.offset next.offset ∧ c.offset < next.offset)
      (c.Overruns size) (readTag size c) := by
  have hhere : c.Leads c.behindTagName := Cursor.leads_behindTagName htag
  have hforward : c.offset < c.behindTagName.offset :=
    Nat.lt_of_lt_of_le (offset_lt_past (by simp)) (Cursor.leads_skipWhile _ _).offset_le
  unfold readTag
  simp only
  split
  · have hdirective := reads_readDirective c.tagName (hhere.ends h) hhere.offset_le
    refine (hdirective.imp (fun token next _ ht => ⟨ht.1, ?_⟩) False.elim).of_leads hhere
    exact Nat.lt_trans hforward ht.2
  · split
    · rename_i e hread
      exact (readsAttributes_readAttributes (hhere.ends h) hhere.offset_le hread).imp False.elim
    · rename_i attributes selfClosing after hread
      obtain ⟨hlead, hlt, hattributes⟩ :=
        readsAttributes_readAttributes (hhere.ends h) hhere.offset_le hread
      have hafter : c.Leads after := hhere.trans hlead
      have hlt := Nat.lt_trans hforward hlt
      have hwithin : Tag.Within after.offset ⟨c.tagName, attributes, c.offset, after.offset⟩ :=
        ⟨hafter.offset_le, Nat.le_refl _, hattributes⟩
      split
      · exact ⟨hafter, ⟨Nat.le_refl _, hwithin⟩, hlt⟩
      · rename_i hcontent
        obtain rfl : selfClosing = false := by
          cases selfClosing with
          | false => rfl
          | true => exact absurd rfl hcontent
        split
        · rename_i hraw
          -- The only way to leave the template is through the body of a raw text element.
          have hread : OpensRawText size c ⟨c.tagName, attributes, c.offset, after.offset⟩ after :=
            ⟨htag, rfl, hraw, hread, rfl, rfl⟩
          refine ((reads_readRawText (hafter.ends h) hwithin).imp (fun token next hnext ht => ?_)
            fun hover => ⟨_, after, hread, hover⟩).of_leads hafter
          exact ⟨ht, Nat.lt_of_lt_of_le hlt hnext.offset_le⟩
        · exact ⟨hafter, ⟨Nat.le_refl _, hwithin⟩, hlt⟩

/-- A closing tag is read as a token between the cursor and the next one. -/
private theorem reads_readClosing {rest : List Char} (h : c.Ends size)
    (hrest : c.rest = '<' :: '/' :: rest) :
    ReadsFrom size c (fun token next => token.Between c.offset next.offset ∧ c.offset < next.offset)
      False
      (readClosing c) := by
  have hinner : c.Leads (c.past ['<', '/'] (c.rest.drop 2)) :=
    Cursor.leads_past (by rw [hrest]; rfl)
  have hhere :=
    (hinner.trans (Cursor.leads_skipWhile _ isNameChar)).trans (Cursor.leads_skipSpace _)
  unfold readClosing
  simp only
  split
  · exact ⟨hhere.offset_le, (hhere.ends h).offset_le⟩
  · rename_i next hclose
    have hnext := hhere.trans (Cursor.leads_of_consume? hclose)
    refine ⟨hnext, ⟨Nat.le_refl _, hnext.offset_le, Nat.le_refl _⟩, ?_⟩
    exact Nat.lt_of_le_of_lt hhere.offset_le (Cursor.offset_lt_of_consume? (by simp) hclose)

/-! ### Steps -/

/-- An interpolation is read as a token between the cursor and the next one. -/
private theorem reads_readInterpolation {rest : List Char} (h : c.Ends size)
    (hrest : c.rest = openBraces ++ rest) :
    ReadsFrom size c (fun token next => token.Between c.offset next.offset ∧ c.offset < next.offset)
      False
      (readInterpolation size c) := by
  unfold readInterpolation
  split
  · exact ⟨h.offset_le, Nat.le_refl _⟩
  · rename_i source after hcut
    rw [hrest] at hcut
    have heq : rest = source ++ ['\x7d', '\x7d'] ++ after := eq_of_cutInterpolation hcut
    have hnext : c.Leads (c.past (openBraces ++ source ++ ['\x7d', '\x7d']) after) :=
      Cursor.leads_past (by rw [hrest, heq]; simp)
    simp only
    split
    · exact ⟨hnext.offset_le, (hnext.ends h).offset_le⟩
    · exact ⟨hnext, ⟨Nat.le_refl _, hnext.offset_le, Nat.le_refl _⟩, offset_lt_past (by simp)⟩

/-- Where neither markup nor an interpolation starts, there is some text. -/
private theorem takeText_ne_nil {cs : List Char} (hne : cs ≠ []) (htag : ¬atTag cs = true)
    (hbraces : ¬startsWith openBraces cs = true) : (takeText cs).1 ≠ [] := by
  cases cs with
  | nil => exact absurd rfl hne
  | cons d cs =>
    rw [takeText, if_neg (by simp [htag, hbraces])]
    exact List.cons_ne_nil _ _

/-- What a reader of one token reads, a step reads. -/
theorem reads_some' {p q : Prop} {r : Except Failure (Token × Cursor)} (hpq : p → q)
    (hr : ReadsFrom size c (fun token next => token.Between c.offset next.offset ∧
      c.offset < next.offset)
      p r) :
    ReadsFrom size c (fun token next => (∀ t ∈ token, t.Between c.offset next.offset) ∧
      (c.rest ≠ [] → c.offset < next.offset)) q (step.some' r) := by
  cases r with
  | error e => exact Failure.Within.imp hpq hr
  | ok result => exact ⟨hr.1, fun t ht => Option.some.inj ht ▸ hr.2.1, fun _ => hr.2.2⟩

/-- Whatever stands at the cursor, one step reads at most a token there and goes on behind it. -/
theorem reads_step (h : c.Ends size) :
    ReadsFrom size c (fun token next => (∀ t ∈ token, t.Between c.offset next.offset) ∧
      (c.rest ≠ [] → c.offset < next.offset)) (c.Overruns size) (step size c) := by
  cases ahead c with
  | comment hrest =>
    rw [step_comment hrest]
    split
    · exact ⟨h.offset_le, Nat.le_refl _⟩
    · rename_i text after hcut
      have heq := eq_of_cut?_eq_some hcut
      rw [← past_comment]
      exact ⟨Cursor.leads_past (by rw [hrest, heq]; simp), by simp,
        fun _ => offset_lt_past (by simp)⟩
  | declaration hcomment hrest =>
    rw [step_declaration hcomment hrest]
    split
    · exact ⟨h.offset_le, Nat.le_refl _⟩
    · rename_i text after hcut
      exact ⟨Cursor.leads_past (eq_of_cut?_eq_some hcut), by simp,
        fun _ => offset_lt_past (by simp)⟩
  | closing hrest =>
    rw [step_closing hrest]
    exact reads_some' False.elim (reads_readClosing h hrest)
  | tag hrest hd =>
    rw [step_tag hrest hd]
    exact reads_some' id (reads_readTag h (atTag_of_isNameStart hrest hd))
  | interpolation hrest =>
    rw [step_interpolation hrest]
    exact reads_some' False.elim (reads_readInterpolation h hrest)
  | text hmarkup =>
    obtain ⟨htag, hbraces⟩ := Bool.or_eq_false_iff.1 hmarkup
    have hnext : c.Leads (c.past (takeText c.rest).1 (takeText c.rest).2) :=
      Cursor.leads_past (takeText_append_eq c.rest).symm
    rw [step_eq_text hmarkup]
    refine ⟨hnext, fun t ht => ?_, fun hne => offset_lt_past ?_⟩
    · obtain rfl := Option.some.inj ht
      exact ⟨Nat.le_refl _, hnext.offset_le, Nat.le_refl _⟩
    · exact takeText_ne_nil hne (Bool.eq_false_iff.1 htag) (Bool.eq_false_iff.1 hbraces)

/-- A step that succeeds leads on, its token lies where it has read, and unless nothing is left it
has read something. -/
theorem of_step_eq_ok {token : Option Token} {next : Cursor} (h : c.Ends size)
    (hstep : step size c = .ok (token, next)) :
    c.Leads next ∧ (∀ t ∈ token, t.Between c.offset next.offset) ∧
      (c.rest ≠ [] → c.offset < next.offset) := by
  have hreads := reads_step h
  rw [hstep] at hreads
  exact hreads

end Readers

/-- Where there is something to read within the template, a reader that succeeds leaves less of
it. -/
def Shortens {α : Type} (size : Nat) (read : Cursor → Except Failure (α × Cursor)) : Prop :=
  ∀ c : Cursor, c.Ends size → c.rest ≠ [] → ∀ a next, read c = .ok (a, next) →
    next.rest.length < c.rest.length

/-- Reading an attribute leaves less to be read. -/
theorem shortens_readAttribute (size : Nat) (tag : String) :
    Shortens size (readAttribute size tag) := by
  intro c hc hne a next hread
  have hreads := reads_readAttribute tag hc
  rw [hread] at hreads
  exact hreads.1.length_lt (hreads.2.2 hne)

/-- Every step leaves less to be read. -/
theorem shortens_step (size : Nat) : Shortens size (step size) := by
  intro c hc hne token next hstep
  obtain ⟨hlead, -, hforward⟩ := of_step_eq_ok hc hstep
  exact hlead.length_lt (hforward hne)

/-! ### Leaving the template -/

section Overrun

variable {size : Nat} {c after : Cursor} {tag : Tag}

/-- The elements with raw text are `script` and `style`. -/
theorem lowercase_of_isRawTextElement {name : String} (h : isRawTextElement name = true) :
    lowercase name = "script" ∨ lowercase name = "style" := by
  have hmem := (Bool.and_eq_true_iff.1 h).2
  simpa [rawTextElements] using hmem

theorem not_isVoidElement_of_isRawTextElement {name : String} (h : isRawTextElement name = true) :
    isVoidElement name = false := by
  unfold isVoidElement
  rcases lowercase_of_isRawTextElement h with heq | heq
  · rw [heq, Bool.and_eq_false_iff]
    exact .inr (by decide)
  · rw [heq, Bool.and_eq_false_iff]
    exact .inr (by decide)

/-- The name of an element with raw text starts with an `s`. -/
theorem head_of_isRawTextElement {name : String} {d : Char} {cs : List Char}
    (h : isRawTextElement name = true) (hname : name.toList = d :: cs) : lowerChar d = 's' := by
  have hlower : (lowercase name).toList = lowerChar d :: cs.map lowerChar := by
    rw [lowercase, String.toList_ofList, hname, List.map_cons]
  rcases lowercase_of_isRawTextElement h with heq | heq
  · rw [heq] at hlower
    exact (List.cons.inj hlower).1.symm
  · rw [heq] at hlower
    exact (List.cons.inj hlower).1.symm

private theorem not_hasPrefix_of_isRawTextElement {name : String}
    (h : isRawTextElement name = true) :
    ¬hasPrefix "w:" name = true := by
  intro hpre
  obtain ⟨rest, hrest⟩ := exists_of_startsWith hpre
  exact absurd (head_of_isRawTextElement h hrest) (by decide)

/-- A tag that opens raw text leads to the text behind it. -/
theorem OpensRawText.leads (h : OpensRawText size c tag after) (hc : c.Ends size) :
    c.Leads after := by
  have hname : c.Leads c.behindTagName := Cursor.leads_behindTagName h.atTag
  obtain ⟨hlead, -, -⟩ :=
    readsAttributes_readAttributes (hname.ends hc) hname.offset_le h.attributes
  exact hname.trans hlead

/-- What stands at the opening tag of a raw text element starts a tag. -/
theorem OpensRawText.exists_isNameStart (h : OpensRawText size c tag after) :
    ∃ d rest, c.rest = '<' :: d :: rest ∧ isNameStart d = true := by
  obtain ⟨htag, hname, hraw, -, -, -⟩ := h
  obtain ⟨d, rest, hrest, hd⟩ := exists_of_atTag htag
  have hlist : tag.name.toList = (d :: rest).takeWhile isNameChar := by
    rw [hname, Cursor.tagName, String.toList_ofList, hrest]
    rfl
  refine ⟨d, rest, hrest, ?_⟩
  by_cases hchar : isNameChar d = true
  · rw [List.takeWhile_cons_of_pos hchar] at hlist
    have hfirst := head_of_isRawTextElement hraw hlist
    rcases hd with rfl | rfl | hd
    · exact absurd hfirst (by decide)
    · exact absurd hfirst (by decide)
    · exact hd
  · rw [List.takeWhile_cons_of_neg hchar, String.toList_eq_nil_iff] at hlist
    rw [hlist] at hraw
    exact absurd hraw (by decide)

/-- Reading such a tag goes on as reading its raw text. -/
theorem OpensRawText.readTag_eq (h : OpensRawText size c tag after) :
    readTag size c = readRawText size tag after := by
  obtain ⟨-, hname, hraw, hread, hstart, hstop⟩ := h
  have hdirective := not_hasPrefix_of_isRawTextElement hraw
  have hvoid := not_isVoidElement_of_isRawTextElement hraw
  have htag : tag = ⟨tag.name, tag.attributes, c.offset, after.offset⟩ := by rw [← hstart, ← hstop]
  rw [htag]
  rw [hname, Cursor.tagName] at hdirective hvoid hraw hread ⊢
  rw [Cursor.behindTagName] at hread
  have hinner : (c.past ['<'] (c.rest.drop 1)).rest = c.rest.drop 1 := rfl
  unfold readTag
  simp only [hinner]
  rw [if_neg hdirective, hread]
  simp only [hvoid, hraw, Bool.or_false, Bool.false_eq_true, if_false, if_true]

/-- The reader leaves the template exactly in a raw text element at the cursor. -/
theorem step_eq_overrun_iff (hc : c.Ends size) :
    step size c = .error .overrun ↔ c.Overruns size := by
  constructor
  · intro hstep
    have hreads := reads_step hc
    rw [hstep] at hreads
    exact hreads
  · rintro ⟨tag, after, hopens, hover⟩
    obtain ⟨d, rest, hrest, hd⟩ := hopens.exists_isNameStart
    have htag := hopens.readTag_eq
    rw [step_tag hrest hd, htag, readRawText_eq_overrun_iff.2 hover]
    rfl

end Overrun

/-! ### Templates -/

/-- From one cursor to another the reader reads some tokens. -/
inductive Scans (size : Nat) : Cursor → List Token → Cursor → Prop where
  | stay (c : Cursor) : Scans size c [] c
  | step {c next last : Cursor} {token : Option Token} {tokens : List Token} (hne : c.rest ≠ [])
    (hstep : step size c = .ok (token, next)) (h : Scans size next tokens last) :
    Scans size c (token.toList ++ tokens) last

/-- Tokens that lie one after the other, from an offset up to the end of the template. -/
def InOrder (size : Nat) : Nat → List Token → Prop
  | base, [] => base ≤ size
  | base, t :: ts => ∃ next, base ≤ next ∧ t.Between base next ∧ InOrder size next ts

section Scans

variable {size : Nat} {c last : Cursor} {tokens : List Token}

theorem Token.Between.mono {t : Token} {lower lower' upper : Nat} (h : t.Between lower upper)
    (hle : lower' ≤ lower) : t.Between lower' upper := by
  cases t with
  | text => exact ⟨Nat.le_trans hle h.1, h.2⟩
  | interpolation => exact ⟨Nat.le_trans hle h.1, h.2⟩
  | opening => exact ⟨Nat.le_trans hle h.1, h.2⟩
  | leaf => exact ⟨Nat.le_trans hle h.1, h.2⟩
  | verbatim => exact ⟨Nat.le_trans hle h.1, h.2⟩
  | directive => exact ⟨Nat.le_trans hle h.1, h.2⟩
  | closing => exact ⟨Nat.le_trans hle h.1, h.2⟩

theorem InOrder.mono {base base' : Nat} (h : InOrder size base tokens) (hle : base' ≤ base) :
    InOrder size base' tokens := by
  cases tokens with
  | nil => exact Nat.le_trans hle h
  | cons t ts =>
    obtain ⟨next, hnext, ht, hts⟩ := h
    exact ⟨next, Nat.le_trans hle hnext, ht.mono hle, hts⟩

theorem InOrder.le {base : Nat} (h : InOrder size base tokens) : base ≤ size := by
  induction tokens generalizing base with
  | nil => exact h
  | cons t ts ih =>
    obtain ⟨next, hnext, -, hts⟩ := h
    exact Nat.le_trans hnext (ih hts)

/-- A scan leads to the cursor at which it stops. -/
theorem Scans.leads (h : Scans size c tokens last) (hc : c.Ends size) : c.Leads last := by
  induction h with
  | stay c => exact .refl c
  | step hne hstep _ ih =>
    obtain ⟨hlead, -, -⟩ := of_step_eq_ok hc hstep
    exact hlead.trans (ih (hlead.ends hc))

/-- The tokens that are read lie one after the other. -/
theorem Scans.inOrder (h : Scans size c tokens last) (hc : c.Ends size) :
    InOrder size c.offset tokens := by
  induction h with
  | stay c => exact hc.offset_le
  | @step c next last token tokens hne hstep _ ih =>
    obtain ⟨hlead, htoken, -⟩ := of_step_eq_ok hc hstep
    have hmore := ih (hlead.ends hc)
    cases token with
    | none => exact hmore.mono hlead.offset_le
    | some t => exact ⟨next.offset, hlead.offset_le, htoken t rfl, hmore⟩

/-- What is left of a scan is put behind the tokens that were read already. -/
theorem Scans.scanFrom_eq (h : Scans size c tokens last) (hc : c.Ends size) :
    scanFrom size c = (scanFrom size last).after tokens := by
  induction h with
  | stay c => rfl
  | @step c next last token tokens hne hstep _ ih =>
    obtain ⟨hlead, -, -⟩ := of_step_eq_ok hc hstep
    rw [scanFrom, if_neg (by simpa using hne), hstep]
    simp only
    rw [if_pos (shortens_step size c hc hne token next hstep), ih (hlead.ends hc)]
    simp [Scan.after]

/-- The reader reads up to where it fails. -/
theorem exists_scans (hc : c.Ends size) : ∃ last, Scans size c (scanFrom size c).tokens last ∧
    ∀ e ∈ (scanFrom size c).failure, step size last = .error e := by
  fun_induction scanFrom size c with
  | case1 c => exact ⟨c, .stay c, by simp⟩
  | case2 c hne e hstep =>
    refine ⟨c, .stay c, fun e' he => ?_⟩
    rw [hstep, Option.some.inj he]
  | case3 c hne token next hstep hlt scan ih =>
    obtain ⟨hlead, -, -⟩ := of_step_eq_ok hc hstep
    obtain ⟨last, hscans, hfailure⟩ := ih (hlead.ends hc)
    exact ⟨last, .step (by simpa using hne) hstep hscans, hfailure⟩
  | case4 c hne token next hstep hlt =>
    -- A step always leaves less to read, so the reader never gives up here.
    exact absurd (shortens_step size c hc (by simpa using hne) token next hstep) hlt

/-- Reading leaves the template exactly where a raw text element runs over it. -/
theorem scanFrom_eq_overrun_iff (hc : c.Ends size) :
    scanFrom size c = ⟨tokens, some .overrun⟩ ↔
      ∃ last, Scans size c tokens last ∧ last.Overruns size := by
  constructor
  · intro hscan
    obtain ⟨last, hscans, hfailure⟩ := exists_scans hc
    rw [hscan] at hscans hfailure
    exact ⟨last, hscans, (step_eq_overrun_iff (hscans.leads hc |>.ends hc)).1 (hfailure _ rfl)⟩
  · rintro ⟨last, hscans, hover⟩
    have hne : last.rest ≠ [] := by
      obtain ⟨tag, after, hopens, -⟩ := hover
      obtain ⟨d, rest, hrest, -⟩ := hopens.exists_isNameStart
      rw [hrest]
      exact List.cons_ne_nil _ _
    have hstep := (step_eq_overrun_iff (hscans.leads hc |>.ends hc)).2 hover
    rw [hscans.scanFrom_eq hc, scanFrom, if_neg (by simpa using hne), hstep]
    simp [Scan.after]

/-- What reading a template fails with lies within it, unless the template is left. -/
theorem within_of_failure (hc : c.Ends size) {e : Failure} (he : e ∈ (scanFrom size c).failure) :
    e.Within size (e = .overrun) := by
  obtain ⟨last, hscans, hfailure⟩ := exists_scans hc
  have hreads := reads_step ((hscans.leads hc).ends hc)
  rw [hfailure e he] at hreads
  cases e with
  | fault => exact hreads
  | overrun => rfl

end Scans

end ViewCompiler.Template
