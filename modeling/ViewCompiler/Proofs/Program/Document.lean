import ViewCompiler.Program.Reader
import ViewCompiler.Proofs.Document.Shape

/-!
# Programs are read back from documents

Every part of a program is written as a record with one entry for each field that its reader knows,
in which an empty text, an empty list or a missing number is left out. Whatever the format, the
readers give the program back from a document that holds it (`Program.readProgram_hold`), provided
that no list is missing altogether, which is not always told from an empty one.

A part is written as the record of its `entries`, of which those that say nothing are left out. Its
reader takes the fields that it knows, in any order, and gives each missing one the value that is
left out. So for each part there is one lemma, and all of them are alike: the entries fit the fields
of the reader, by name and by shape (`Document/Shape`), each field is read back from the document
that holds it, and a field that was left out is read as what it was.

What is asked of a format is `Document.Holds`: texts, flags and numbers of 64 bits are read as what
they were, and so are lists and records of what is held. The nodes of the formats are different, and
each shows this for its own (`Document/Json`, `Document/Yaml`).

Values are the one part that is nested. An argument of a value is a value again, and reading goes
down as far as it is told to, which must be as far as the values of the program go (`Value.height`).
-/

namespace ViewCompiler.Program

open ViewCompiler.Document

/-! ### Entries -/

/-- The entries of a value. -/
def valueEntries (o : Operand) (arguments : List Value) : List (String × Option Document) :=
  [("kind", some (.text o.kind)), ("text", some (.text o.text)),
   ("constant", some (.flag o.constant)),
   ("ref_kind", textEntry o.refKind), ("definition", o.definition.map .number),
   ("access", listEntry (o.access.map .number)),
     ("args", listEntry (arguments.map Value.toDocument))]

private theorem argumentDocuments_eq (arguments : List Value) :
    argumentDocuments arguments = arguments.map Value.toDocument := by
  induction arguments with
  | nil => rfl
  | cons v vs ih => rw [argumentDocuments, ih, List.map_cons]

/-- A value is written as the record of those of its fields that say something. -/
theorem Value.toDocument_eq (o : Operand) (arguments : List Value) :
    (⟨o, arguments⟩ : Value).toDocument = .record (present (valueEntries o arguments)) := by
  have haccess : (if o.access.isEmpty then [] else [("access", numbers o.access)]) =
      listUnlessEmpty "access" (o.access.map .number) := by
    unfold listUnlessEmpty numbers
    rw [List.isEmpty_map]
  rw [Value.toDocument, Operand.fields, haccess, argumentDocuments_eq, valueEntries]
  simp only [present_cons, present_nil, textUnlessEmpty_eq, listUnlessEmpty_eq, numberIfSome_eq,
    Option.map_some, Option.toList_some, List.append_assoc, List.cons_append, List.nil_append,
    List.append_nil]

/-- The entries of a binding. -/
def Binding.entries (b : Binding) : List (String × Option Document) :=
  [("kind", some (.text b.kind)), ("name", textEntry b.name), ("value", some b.value.toDocument)]

theorem Binding.toDocument_eq (b : Binding) : b.toDocument = .record (present b.entries) := by
  simp only [Binding.toDocument, Binding.entries, present_cons, present_nil, textUnlessEmpty_eq,
    Option.map_some, Option.toList_some, List.cons_append, List.nil_append]

/-- The entries of a node. -/
def Node.entries (n : Node) : List (String × Option Document) :=
  [("index", some (.number n.index)), ("kind", some (.text n.kind)), ("name", textEntry n.name),
   ("slots", some (.number n.slots)), ("bindings", listEntry (n.bindings.map Binding.toDocument))]

theorem Node.toDocument_eq (n : Node) : n.toDocument = .record (present n.entries) := by
  simp only [Node.toDocument, Node.entries, present_cons, present_nil, textUnlessEmpty_eq,
    listUnlessEmpty_eq, Option.map_some, Option.toList_some, List.append_assoc, List.cons_append,
    List.nil_append, List.append_nil]

/-- The entries of a step of an update routine. -/
def Action.entries (a : Action) : List (String × Option Document) :=
  [("kind", some (.text a.kind)), ("index", a.index.map .number), ("child", a.child.map .number),
   ("values", some (ofOption (a.values.map (·.map .text))))]

theorem Action.toDocument_eq (a : Action) : a.toDocument = .record (present a.entries) := by
  simp only [Action.toDocument, Action.entries, present_cons, present_nil, numberIfSome_eq,
    Option.map_some, Option.toList_some, List.append_assoc, List.cons_append, List.nil_append]

/-- The entries of a scope. -/
def Scope.entries (s : Scope) : List (String × Option Document) :=
  [("id", some (.number s.id)), ("name", some (.text s.name)), ("kind", some (.text s.kind)),
   ("parent", s.parent.map .number), ("anchor", some (.number s.anchor)),
     ("spec", textEntry s.spec),
   ("children", listEntry (s.children.map .number)), ("slots", some (.number s.slots)),
   ("self_bindings", listEntry (s.selfBindings.map Binding.toDocument)),
   ("nodes", listEntry (s.nodes.map Node.toDocument)),
   ("dom_diff", listEntry (s.nodeUpdates.map NodeUpdate.toDocument)),
   ("factory_diff", listEntry (s.childUpdates.map ChildUpdate.toDocument)),
   ("actions", listEntry (s.actions.map Action.toDocument))]

theorem Scope.toDocument_eq (s : Scope) : s.toDocument = .record (present s.entries) := by
  simp only [Scope.toDocument, Scope.entries, present_cons, present_nil, textUnlessEmpty_eq,
    listUnlessEmpty_eq, numberIfSome_eq, Option.map_some, Option.toList_some, List.append_assoc,
    List.cons_append, List.nil_append, List.append_nil]

/-- The entries of a program. -/
def entries (p : Program) : List (String × Option Document) :=
  [("root", some (.text p.root)),
   ("factories", some (ofOption (p.scopes.map (·.map Scope.toDocument)))),
   ("styles", listEntry (p.styles.map Style.toDocument))]

theorem toDocument_eq (p : Program) : p.toDocument = .record (present p.entries) := by
  simp only [toDocument, entries, present_cons, present_nil, listUnlessEmpty_eq, Option.map_some,
    Option.toList_some, List.cons_append, List.nil_append, List.append_nil]

/-! ### Programs without missing lists -/

mutual

/-- How deeply arguments are nested in a value. -/
def Value.height : Value → Nat
  | ⟨_, arguments⟩ => heightAll arguments + 1

/-- How deeply arguments are nested in several values. -/
def heightAll : List Value → Nat
  | [] => 0
  | v :: vs => max v.height (heightAll vs)

end

private theorem height_le_heightAll {v : Value} {vs : List Value} (h : v ∈ vs) :
    v.height ≤ heightAll vs := by
  induction vs with
  | nil => cases h
  | cons w ws ih =>
    rw [heightAll]
    rcases List.mem_cons.1 h with rfl | h
    · exact Nat.le_max_left _ _
    · exact Nat.le_trans (ih h) (Nat.le_max_right _ _)

/-- No list of a scope is missing, and arguments are nested at most as deeply as given. -/
structure Scope.IsGiven (height : Nat) (s : Scope) : Prop where
  own : ∀ n ∈ s.nodes, ∀ b ∈ n.bindings, b.value.height ≤ height
  fed : ∀ b ∈ s.selfBindings, b.value.height ≤ height
  nodeUpdates : ∀ u ∈ s.nodeUpdates, u.values ≠ none
  childUpdates : ∀ u ∈ s.childUpdates, u.triggers ≠ none
  actions : ∀ a ∈ s.actions, a.values ≠ none

/-! ### Readers -/

section Readers

variable {ν : Type} [Readable ν] {hold : Document → ν} (h : Holds hold)
include h

/-- Numbers are read back. -/
theorem readNumbers_hold {ns : List Int} (hfits : ∀ d ∈ ns.map number, d.fits = true) :
    ∀ n ∈ ns, Readable.integer? (hold (.number n)) = .ok (some n) :=
  fun n hn => h.integer? n (hfits _ (List.mem_map_of_mem hn))

/-- A value is read back, if reading may go as deep as the value does. -/
private theorem readValue_hold {v : Value} {fuel : Nat} (hheight : v.height ≤ fuel)
    (hfits : v.toDocument.fits = true) : readValue (hold v.toDocument) fuel = .ok (some v) := by
  induction fuel generalizing v with
  | zero =>
    obtain ⟨o, arguments⟩ := v
    rw [Value.height] at hheight
    omega
  | succ fuel ih =>
    obtain ⟨o, arguments⟩ := v
    rw [Value.height] at hheight
    rw [Value.toDocument_eq] at hfits ⊢
    rw [readValue]
    refine h.record? (valueEntries o arguments) (by rfl) (by decide) (by decide) hfits
      fun named hlookup hfit => ?_
    have harguments : ∀ a ∈ arguments, readValue (hold a.toDocument) fuel = .ok (some a) := by
      intro a ha
      have hheightArgument := height_le_heightAll ha
      exact ih (by omega) (fits_listEntry (hfit "args") _ (List.mem_map_of_mem ha))
    rw [h.field_text (hlookup "kind"), h.field_text (hlookup "text"),
      h.field_flag (hlookup "constant"),
      h.field_textEntry (hlookup "ref_kind"),
      h.field?_number (hlookup "definition") (hfit "definition"),
      h.field_listEntry (hlookup "access") (readNumbers_hold h (fits_listEntry (hfit "access"))),
      h.field_listEntry (hlookup "args") harguments]
    rfl

/-- A binding is read back, if reading may go as deep as its value does. -/
private theorem readBinding_hold {b : Binding} {fuel : Nat} (hheight : b.value.height ≤ fuel)
    (hfits : b.toDocument.fits = true) : readBinding fuel (hold b.toDocument) = .ok (some b) := by
  rw [Binding.toDocument_eq] at hfits ⊢
  refine h.record? b.entries (by rfl) (by decide) (by decide) hfits fun named hlookup hfit => ?_
  have hvalue :
      Readable.field named "value" ⟨{}, []⟩ (fun n => readValue n fuel) = .ok b.value := by
    refine field_eq_ok (hlookup "value") (fun d hd => ?_) fun hnone => nomatch hnone
    obtain rfl : b.value.toDocument = d := Option.some.inj hd
    exact readValue_hold h hheight (hfit "value" _ rfl)
  rw [h.field_text (hlookup "kind"), h.field_textEntry (hlookup "name"), hvalue]
  rfl

/-- Bindings are read back, if reading may go as deep as their values do. -/
theorem readBindings_hold {bs : List Binding} {fuel : Nat}
    (hheight : ∀ b ∈ bs, b.value.height ≤ fuel)
    (hfits : ∀ d ∈ listEntry (bs.map Binding.toDocument), d.fits = true) :
    ∀ b ∈ bs, readBinding fuel (hold b.toDocument) = .ok (some b) :=
  fun b hb => readBinding_hold h (hheight b hb) (fits_listEntry hfits _ (List.mem_map_of_mem hb))

/-- A saved node is read back. -/
private theorem readNode_hold {n : Node} {fuel : Nat}
    (hheight : ∀ b ∈ n.bindings, b.value.height ≤ fuel)
    (hfits : n.toDocument.fits = true) : readNode fuel (hold n.toDocument) = .ok (some n) := by
  rw [Node.toDocument_eq] at hfits ⊢
  refine h.record? n.entries (by rfl) (by decide) (by decide) hfits fun named hlookup hfit => ?_
  rw [h.field_number (hlookup "index") (hfit "index"), h.field_text (hlookup "kind"),
    h.field_textEntry (hlookup "name"), h.field_number (hlookup "slots") (hfit "slots"),
    h.field_listEntry (hlookup "bindings") (readBindings_hold h hheight (hfit "bindings"))]
  rfl

/-- The update of a node is read back. -/
private theorem readNodeUpdate_hold {u : NodeUpdate} (hvalues : u.values ≠ none)
    (hfits : u.toDocument.fits = true) : readNodeUpdate (hold u.toDocument) = .ok (some u) := by
  obtain ⟨index, values⟩ := u
  obtain ⟨values, rfl⟩ := Option.ne_none_iff_exists'.1 hvalues
  refine h.record? [("index", some (.number index)), ("values", some (.list (values.map .text)))]
    (by rfl) (by decide) (by decide) hfits fun named hlookup hfit => ?_
  rw [h.field_number (hlookup "index") (hfit "index"),
    h.field?_texts (hlookup "values")]
  rfl

/-- A trigger is read back. -/
private theorem readTrigger_hold (t : Trigger) :
    readTrigger (hold t.toDocument) = .ok (some t) := by
  refine h.record? [("value", some (.text t.value)), ("reason", some (.text t.reason))] (by rfl)
    (by decide) (by decide) rfl fun named hlookup _ => ?_
  rw [h.field_text (hlookup "value"), h.field_text (hlookup "reason")]
  rfl

/-- The update of a child is read back. -/
private theorem readChildUpdate_hold {u : ChildUpdate} (htriggers : u.triggers ≠ none)
    (hfits : u.toDocument.fits = true) : readChildUpdate (hold u.toDocument) = .ok (some u) := by
  obtain ⟨child, triggers⟩ := u
  obtain ⟨triggers, rfl⟩ := Option.ne_none_iff_exists'.1 htriggers
  refine h.record? [("child", some (.number child)),
    ("triggers", some (.list (triggers.map Trigger.toDocument)))] (by rfl) (by decide)
      (by decide) hfits
    fun named hlookup hfit => ?_
  rw [h.field_number (hlookup "child") (hfit "child"),
    h.field?_list (hlookup "triggers") fun t _ => readTrigger_hold h t]
  rfl

/-- An action is read back. -/
private theorem readAction_hold {a : Action} (hvalues : a.values ≠ none)
    (hfits : a.toDocument.fits = true) :
    readAction (hold a.toDocument) = .ok (some a) := by
  obtain ⟨kind, index, child, values⟩ := a
  obtain ⟨values, rfl⟩ := Option.ne_none_iff_exists'.1 hvalues
  rw [Action.toDocument_eq] at hfits ⊢
  refine h.record? _ (by rfl) (by decide) (by decide) hfits fun named hlookup hfit => ?_
  rw [h.field_text (hlookup "kind"), h.field?_number (hlookup "index") (hfit "index"),
    h.field?_number (hlookup "child") (hfit "child"),
    h.field?_texts (hlookup "values")]
  rfl

/-- A scope of a compiled program is read back. -/
private theorem readScope_hold {s : Scope} {fuel : Nat} (hgiven : s.IsGiven fuel)
    (hfits : s.toDocument.fits = true) : readScope fuel (hold s.toDocument) = .ok (some s) := by
  rw [Scope.toDocument_eq] at hfits ⊢
  refine h.record? s.entries (by rfl) (by decide) (by decide) hfits fun named hlookup hfit => ?_
  have hnodes : ∀ n ∈ s.nodes, readNode fuel (hold n.toDocument) = .ok (some n) := fun n hn =>
    readNode_hold h (hgiven.own n hn) (fits_listEntry (hfit "nodes") _ (List.mem_map_of_mem hn))
  have hnodeUpdates : ∀ u ∈ s.nodeUpdates, readNodeUpdate (hold u.toDocument) = .ok (some u) :=
    fun u hu => readNodeUpdate_hold h (hgiven.nodeUpdates u hu)
      (fits_listEntry (hfit "dom_diff") _ (List.mem_map_of_mem hu))
  have hchildUpdates : ∀ u ∈ s.childUpdates, readChildUpdate (hold u.toDocument) = .ok (some u) :=
    fun u hu => readChildUpdate_hold h (hgiven.childUpdates u hu)
      (fits_listEntry (hfit "factory_diff") _ (List.mem_map_of_mem hu))
  have hactions : ∀ a ∈ s.actions, readAction (hold a.toDocument) = .ok (some a) := fun a ha =>
    readAction_hold h (hgiven.actions a ha)
      (fits_listEntry (hfit "actions") _ (List.mem_map_of_mem ha))
  rw [h.field_number (hlookup "id") (hfit "id"), h.field_text (hlookup "name"),
    h.field_text (hlookup "kind"), h.field?_number (hlookup "parent") (hfit "parent"),
    h.field_number (hlookup "anchor") (hfit "anchor"), h.field_textEntry (hlookup "spec"),
    h.field_listEntry (hlookup "children") (readNumbers_hold h (fits_listEntry (hfit "children"))),
    h.field_number (hlookup "slots") (hfit "slots"),
    h.field_listEntry (hlookup "self_bindings")
      (readBindings_hold h hgiven.fed (hfit "self_bindings")),
    h.field_listEntry (hlookup "nodes") hnodes, h.field_listEntry (hlookup "dom_diff") hnodeUpdates,
    h.field_listEntry (hlookup "factory_diff") hchildUpdates,
    h.field_listEntry (hlookup "actions") hactions]
  rfl

/-- A style sheet of a program is read back. -/
private theorem readStyle_hold (s : Style) : readStyle (hold s.toDocument) = .ok (some s) := by
  refine h.record? [("component", some (.text s.component)), ("tag", some (.text s.tag)),
    ("attribute", some (.text s.attributeName)), ("css", some (.text s.css))] (by rfl) (by decide)
    (by decide) rfl fun named hlookup _ => ?_
  rw [h.field_text (hlookup "component"), h.field_text (hlookup "tag"),
    h.field_text (hlookup "attribute"), h.field_text (hlookup "css")]
  rfl

/-- A program without missing lists is read back from the document that holds it. -/
theorem readProgram_hold {p : Program} {ss : List Scope} {fuel : Nat} (hscopes : p.scopes = some ss)
    (hgiven : ∀ s ∈ ss, s.IsGiven fuel) (hfits : p.toDocument.fits = true) :
    readProgram fuel (hold p.toDocument) = .ok (some p) := by
  obtain ⟨root, scopes, styles⟩ := p
  obtain rfl : scopes = some ss := hscopes
  rw [toDocument_eq] at hfits ⊢
  refine h.record? _ (by rfl) (by decide) (by decide) hfits fun named hlookup hfit => ?_
  have hread : ∀ s ∈ ss, readScope fuel (hold s.toDocument) = .ok (some s) := fun s hs =>
    readScope_hold h (hgiven s hs)
      (fits_list.1 (hfit "factories" _ rfl) _ (List.mem_map_of_mem hs))
  rw [h.field_text (hlookup "root"), h.field?_list (hlookup "factories") hread,
    h.field_listEntry (hlookup "styles") fun s _ => readStyle_hold h s]
  rfl

end Readers

end ViewCompiler.Program
