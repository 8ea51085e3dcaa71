import ViewCompiler.Document.Yaml.Printer
import ViewCompiler.Document.Yaml.Shape
import ViewCompiler.Proofs.Document.Shape
import ViewCompiler.Proofs.Text.Digits

/-!
# Documents as YAML nodes

The readers of nodes give back what a document holds (`Yaml.holds_ofDocument`). A number and a truth
value are plain scalars, and a text is one exactly where it was written without quotes. Two facts
make that safe: a plain scalar made of a sign and digits stands for its number
(`Yaml.Scalar.resolve_toString`), and a text is written without quotes only if it reads as text.
-/

namespace ViewCompiler.Document.Yaml

open ViewCompiler.Text

/-! ### The node of a document -/

mutual

/-- The node that holds a document. -/
def Node.ofDocument : Document → Node
  | .absent => .sequence []
  | .flag true => .scalar "" true "true"
  | .flag false => .scalar "" true "false"
  | .number n => .scalar "" true (toString n)
  | .text s => .scalar "" (formOf s = .plain) s
  | .moment s => .scalar "" true s
  | .list items => .sequence (nodesOf items)
  | .record fields => .mapping (entriesOf fields)

/-- The nodes that hold several documents. -/
def nodesOf : List Document → List Node
  | [] => []
  | d :: ds => .ofDocument d :: nodesOf ds

/-- The entries that hold the fields of a record. -/
def entriesOf : List (String × Document) → List (Node × Node)
  | [] => []
  | (name, d) :: fs => (.scalar "" true name, .ofDocument d) :: entriesOf fs

end

private theorem nodesOf_eq_map (items : List Document) : nodesOf items = items.map .ofDocument := by
  induction items with
  | nil => rfl
  | cons d ds ih => rw [nodesOf, ih, List.map_cons]

private theorem entriesOf_eq_map (fields : List (String × Document)) :
    entriesOf fields = fields.map fun f => (.scalar "" true f.1, .ofDocument f.2) := by
  induction fields with
  | nil => rfl
  | cons f fs ih =>
    obtain ⟨name, d⟩ := f
    rw [entriesOf, ih, List.map_cons]

mutual

/-- Decides whether two nodes are the same. -/
def Node.decEq : (a b : Node) → Decidable (a = b)
  | .scalar t p s, .scalar t' p' s' =>
    decidable_of_iff (t = t' ∧ p = p' ∧ s = s') (by rw [Node.scalar.injEq])
  | .sequence as, .sequence bs =>
    haveI := decEqNodes as bs
    decidable_of_iff (as = bs) (by rw [Node.sequence.injEq])
  | .mapping as, .mapping bs =>
    haveI := decEqEntries as bs
    decidable_of_iff (as = bs) (by rw [Node.mapping.injEq])
  | .scalar .., .sequence _ | .scalar .., .mapping _ | .sequence _, .scalar ..
  | .sequence _, .mapping _
  | .mapping _, .scalar .. | .mapping _, .sequence _ => isFalse nofun

/-- Decides whether two lists of nodes are the same. -/
def decEqNodes : (as bs : List Node) → Decidable (as = bs)
  | [], [] => isTrue rfl
  | [], _ :: _ | _ :: _, [] => isFalse nofun
  | a :: as, b :: bs =>
    haveI := a.decEq b
    haveI := decEqNodes as bs
    decidable_of_iff (a = b ∧ as = bs) (by rw [List.cons.injEq])

/-- Decides whether two lists of entries are the same. -/
def decEqEntries : (as bs : List (Node × Node)) → Decidable (as = bs)
  | [], [] => isTrue rfl
  | [], _ :: _ | _ :: _, [] => isFalse nofun
  | (k, v) :: as, (l, w) :: bs =>
    haveI := k.decEq l
    haveI := v.decEq w
    haveI := decEqEntries as bs
    decidable_of_iff ((k = l ∧ v = w) ∧ as = bs) (by rw [List.cons.injEq, Prod.mk.injEq])

end

instance : DecidableEq Node := Node.decEq

/-! ### Written documents -/

private theorem length_le_assemble (out : List Char) (ps : List Piece) :
    out.length ≤ (assemble out ps).length := by
  induction ps generalizing out with
  | nil => exact Nat.le_refl _
  | cons piece ps ih =>
    cases piece with
    | text s =>
      have hstep := ih (s.toList.reverse ++ out)
      rw [List.length_append] at hstep
      exact Nat.le_trans (Nat.le_add_left _ _) hstep
    | line indent =>
      cases out with
      | nil => exact Nat.zero_le _
      | cons c cs =>
        have hbroken :
            (c :: cs).length ≤ (if isBreak c then c :: cs else '\n' :: c :: cs).length := by
          split
          · exact Nat.le_refl _
          · exact Nat.le_succ _
        have hstep := ih (blanks indent ++ if isBreak c then c :: cs else '\n' :: c :: cs)
        rw [List.length_append] at hstep
        exact Nat.le_trans hbroken (Nat.le_trans (Nat.le_add_left _ _) hstep)

/-- The text of a record holds at least the name of its first field. -/
theorem length_lt_render (step : Nat) (name : String) (value : Document)
    (fields : List (String × Document)) :
    name.length < (render step (.record ((name, value) :: fields))).length := by
  have hname := length_le_assemble (name ++ ":").toList.reverse
    (writeValue step (deeper step 0) false value ++ writeFields step 0 fields ++ [.line 0])
  have hlength : (name ++ ":").length = name.length + 1 := String.length_append name ":"
  rw [List.length_reverse, String.length_toList, hlength] at hname
  rw [render, pieces, writeFields, String.length_ofList, List.length_reverse, List.cons_append,
    List.cons_append, assemble, assemble, blanks, List.replicate_zero, List.nil_append,
    List.append_nil]
  exact hname

/-! ### Integers -/

namespace Scalar

private theorem digitIn_ten {c : Char} (h : c.isDigit = true) :
    digitIn 10 c = some (digitValue c) := by
  have hlt : digitValue c < 10 := by
    have hbound : c.toNat ≤ 57 := (Char.isDigit_iff_toNat.1 h).2
    change c.toNat - 48 < 10
    omega
  unfold digitIn
  simp only [h, if_true, hlt]

private theorem natural?_digits (n : Nat) : natural? 10 (digits n) = some n := by
  have hfold : ∀ (cs : List Char) (m : Nat), (∀ c ∈ cs, c.isDigit = true) →
      cs.foldlM (fun m c => (digitIn 10 c).map (10 * m + ·)) m =
        some (cs.foldl (fun m c => 10 * m + digitValue c) m) := by
    intro cs
    induction cs with
    | nil => exact fun m _ => rfl
    | cons c cs ih =>
      intro m hcs
      obtain ⟨hc, hcs⟩ := List.forall_mem_cons.1 hcs
      rw [List.foldlM_cons, digitIn_ten hc]
      exact ih _ hcs
  unfold natural?
  rw [if_neg, hfold _ 0 fun c hc => isDigit_of_mem_digits hc, foldl_digits]
  rw [List.isEmpty_iff]
  exact digits_ne_nil n

/-- Only zero has a zero in front, which would tell of another base. -/
private theorem unsigned?_digits (n : Nat) : unsigned? (digits n) = some n := by
  by_cases hn : n = 0
  · subst hn
    rfl
  · have hread := natural?_digits n
    obtain ⟨d, ds, hds, -, hzero⟩ := exists_digits_eq_cons n
    rw [hds] at hread ⊢
    unfold unsigned?
    simp only [List.cons.injEq, hzero hn, false_and, imp_self, implies_true]
    exact hread

private theorem sign_toString (n : Int) :
    sign (toString n).toList = (decide (n < 0), digits n.natAbs) := by
  rw [toList_toString]
  by_cases hneg : n < 0
  · rw [if_pos hneg, decide_eq_true hneg]
    rfl
  · rw [if_neg hneg, decide_eq_false hneg, List.nil_append]
    obtain ⟨d, ds, hds, hdigit, -⟩ := exists_digits_eq_cons n.natAbs
    have hminus : d ≠ '-' := ne_of_class hdigit rfl
    have hplus : d ≠ '+' := ne_of_class hdigit rfl
    rw [hds]
    unfold sign
    simp only [List.cons.injEq, hminus, hplus, false_and, imp_self, implies_true]

/-- An integer of 64 bits is read back from its text. -/
private theorem integer?_toString {n : Int} (h : Word.fits n = true) :
    integer? (toString n).toList = some n := by
  have hsigned : signed (decide (n < 0)) n.natAbs = n := by
    unfold signed
    by_cases hneg : n < 0
    · rw [if_pos (decide_eq_true hneg)]
      omega
    · rw [decide_eq_false hneg, if_neg Bool.false_ne_true]
      omega
  unfold integer?
  rw [sign_toString]
  simp only [unsigned?_digits, hsigned]
  rw [if_pos h]

/-! ### Resolution -/

private theorem word?_eq_none {s : String} (hne : s ≠ "")
    (hs : ∀ c ∈ s.toList, isNumeral c = true) :
    word? s = none := by
  -- Each word is empty or has a character that does not occur in an integer.
  have hcontains : ∀ ws : List String,
      (ws.all fun w => w = "" || w.toList.any (!isNumeral ·)) = true → ws.contains s = false := by
    intro ws hws
    rw [Bool.eq_false_iff, ne_eq, List.contains_iff_mem]
    intro hmem
    have hword := List.all_eq_true.1 hws s hmem
    rw [Bool.or_eq_true, List.any_eq_true] at hword
    rcases hword with hempty | ⟨c, hc, hnot⟩
    · exact hne (of_decide_eq_true hempty)
    · rw [hs c hc] at hnot
      cases hnot
  unfold word?
  rw [hcontains _ (by decide), hcontains _ (by decide), hcontains _ (by decide),
    hcontains _ (by decide)]
  rfl

/-- A date has a hyphen behind its year. -/
private theorem matches_eq_false {c : Char} {cs : List Char} (h : ∀ d ∈ cs, d.isDigit = true) :
    Timestamp.matches_ (c :: cs) = false := by
  unfold Timestamp.matches_
  split
  · rename_i heq
    obtain ⟨-, rfl⟩ := List.cons.inj heq
    have hhyphen := h '-' (by simp)
    cases hhyphen
  · rfl

/-- The text of an integer stands for the integer. -/
theorem resolve_toString {n : Int} (h : Word.fits n = true) : resolve (toString n) = .number n := by
  obtain ⟨c, cs, hcs, hc, hdigits⟩ := exists_toList_toString n
  have hnumerals : ∀ d ∈ c :: cs, isNumeral d = true :=
    List.forall_mem_cons.2 ⟨hc, fun d hd => isNumeral_of_isDigit (hdigits d hd)⟩
  have hword : word? (toString n) = none := by
    refine word?_eq_none ?_ (hcs ▸ hnumerals)
    intro hempty
    rw [hempty] at hcs
    cases hcs
  -- There are no underscores that could be dropped.
  have hfilter : (c :: cs).filter (· ≠ '_') = c :: cs := by
    rw [List.filter_eq_self]
    exact fun d hd => decide_eq_true (ne_of_class (hnumerals d hd) rfl)
  have hread := integer?_toString h
  rw [hcs] at hread
  have hnumber : number (c :: cs) = .number n := by
    unfold number
    simp only [matches_eq_false hdigits, hfilter, hread, Bool.false_eq_true, if_false]
  have hstart : (c.isDigit || c = '+' || c = '-') = true := by
    rw [isNumeral, Bool.or_eq_true] at hc
    rw [Bool.or_eq_true, Bool.or_eq_true]
    exact hc.imp_left .inl
  unfold resolve
  simp only [hword, hcs, ne_of_class (d := '.') hc rfl, imp_self, hstart, if_true, hnumber]

end Scalar

/-! ### Shapes -/

/-- A text that is written without quotes reads as text. -/
private theorem resolve_of_plain {s : String} (h : formOf s = .plain) :
    Scalar.resolve s = .text := by
  by_contra hresolve
  have hreads : Scalar.readsAsText s = false := by
    unfold Scalar.readsAsText
    rw [decide_eq_false hresolve, Bool.false_and, Bool.false_and]
  unfold formOf at h
  simp only [hreads, Bool.not_false, if_true] at h
  split at h
  · split at h
    · cases h
    · cases h
  · cases h

private theorem hasRepeatedKey_eq_false {fields : List (String × Document)}
    (h : (fields.map Prod.fst).Nodup) : Node.hasRepeatedKey (entriesOf fields) = false := by
  induction fields with
  | nil => rfl
  | cons f fs ih =>
    obtain ⟨name, d⟩ := f
    rw [List.map_cons, List.nodup_cons] at h
    obtain ⟨hnew, hfs⟩ := h
    rw [entriesOf, Node.hasRepeatedKey, ih hfs, Bool.or_false, List.any_eq_false, entriesOf_eq_map,
      List.forall_mem_map]
    intro g hg hsame
    have hname : g.1 = name := of_decide_eq_true hsame
    have hmem : g.1 ∈ fs.map Prod.fst := List.mem_map_of_mem hg
    exact hnew (hname ▸ hmem)

private theorem readString_scalar {plain : Bool} {s : String}
    (h : (if plain then Scalar.resolve s else .text) ≠ .absent) :
    (Node.scalar "" plain s).readString = .ok (some s) :=
  bind_eq_ok_iff.2 ⟨_, rfl, by rw [if_neg h]; rfl⟩

/-- The entries of a record are read by their names. -/
private theorem readEntries_mapping {fields : List (String × Document)}
    (hnames : ∀ f ∈ fields, Scalar.resolve f.1 ≠ .absent) (hnodup : (fields.map Prod.fst).Nodup) :
    (Node.mapping (entriesOf fields)).readEntries =
      .ok (some (fields.map fun f => (f.1, .ofDocument f.2))) := by
  have hread : (entriesOf fields).mapM (fun e => do return (← e.1.readString).map (·, e.2)) =
      Except.ok (ε := ReadError) ((fields.map fun f => (f.1, Node.ofDocument f.2)).map some) := by
    clear hnodup
    induction fields with
    | nil => rfl
    | cons f fs ih =>
      obtain ⟨hf, hfs⟩ := List.forall_mem_cons.1 hnames
      refine mapM_cons_eq_ok_iff.2 ⟨_, _, ?_, ih hfs, rfl⟩
      exact bind_eq_ok_iff.2 ⟨_, readString_scalar hf, rfl⟩
  simp only [Node.readEntries, hasRepeatedKey_eq_false hnodup, Bool.false_eq_true, if_false]
  refine bind_eq_ok_iff.2 ⟨_, hread, ?_⟩
  rw [List.filterMap_map, Function.id_comp, List.filterMap_some]
  rfl

/-- The readers of nodes give back what a document holds. -/
theorem holds_ofDocument : Holds Node.ofDocument where
  string? s := by
    refine readString_scalar ?_
    by_cases hplain : formOf s = .plain
    · rw [if_pos (decide_eq_true hplain), resolve_of_plain hplain]
      decide
    · rw [decide_eq_false hplain, if_neg Bool.false_ne_true]
      decide
  integer? n hn := by
    have hmeaning : Node.meaning "" true (toString n) = .ok (.number n) :=
      congrArg Except.ok (Scalar.resolve_toString hn)
    change Node.readInteger (Node.ofDocument (.number n)) = _
    rw [Node.ofDocument, Node.readInteger, hmeaning]
    exact if_pos hn
  flag? b := by
    cases b with
    | true => rfl
    | false => rfl
  items? items := by
    rw [← nodesOf_eq_map]
    rfl
  fields? known fields hknown hnames hnodup := by
    refine ⟨_, bind_eq_ok_iff.2 ⟨_, readEntries_mapping hnames hnodup, ?_⟩,
      lookup_map_snd Node.ofDocument fields⟩
    have hall :
        (fields.map fun f => (f.1, Node.ofDocument f.2)).any (fun e => !known.contains e.1) =
        false := by
      rw [List.any_eq_false, List.forall_mem_map]
      intro f hf
      rw [List.contains_iff_mem.2 (hknown f hf)]
      decide
    simp only [Option.any_some, hall]
    rfl

end ViewCompiler.Document.Yaml
