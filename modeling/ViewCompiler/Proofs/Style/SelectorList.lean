import ViewCompiler.Proofs.Style.Confinement

/-!
# Selector lists, scoped

Scoping cuts a selector list at its commas and combinators and scopes each text between them
(`compoundsOf`). Where every such text becomes a compound, a reader of the scoped list finds just
these compounds, in order (`Scoping.compounds_selectorList`): nothing closes up across a combinator
or a comma.

The reader goes through the scoped text with its own idea of what is open (`Place`), and knows
nothing of the parts that the text was put together from. A compound leaves it outside of
everything, by definition, and a combinator or comma behind it separates. So if the parts alternate,
compound and what combines them, each compound ends where the next part begins (`EndsCompound`).
That they alternate comes from the way in which the list is cut: characters of one kind are taken
together (`alternates_partsFrom`).

A combinator is written back as one sign or one blank, whatever blanks stood around it. These
separate like the ones they stand for (`compounds_append_of_separates`).

Blanks around a selector are trimmed when the list is cut. A reader sees them as separators with
nothing in between, unless the blank belongs to a numeric escape in front of it; this is the one
condition under which trimming changes what the compounds are (`compounds_eq_compoundsOf`).
-/

namespace ViewCompiler.Style

open ViewCompiler.Text

/-- The text of a part that is a compound. -/
def Part.text? : Part → Option (List Char)
  | .compound text => some text
  | .combinator _ => none

/-- The texts that scoping takes for the compounds of a selector list. -/
def compoundsOf (selector : String) : List (List Char) :=
  (splitList selector).flatMap fun complex => (parts complex).filterMap Part.text?

/-! ### Cuts lose nothing -/

/-- The characters of a part. -/
def Part.chars : Part → List Char
  | .compound text => text
  | .combinator run => run

private theorem Part.flatMap_chars_prepend (combining : Bool) (c : Char) (ps : List Part) :
    (Part.prepend combining c ps).flatMap Part.chars = c :: ps.flatMap Part.chars := by
  match combining, ps with
  | true, [] | false, [] => rfl
  | true, .compound _ :: _ | false, .compound _ :: _ => rfl
  | true, .combinator _ :: _ | false, .combinator _ :: _ => rfl

/-- The parts of a selector are all of it. -/
theorem flatMap_chars_partsFrom (quoting : Quoting) (depth : Nat) (cs : List Char) :
    (partsFrom quoting depth cs).flatMap Part.chars = cs := by
  induction cs generalizing quoting depth with
  | nil => rfl
  | cons c cs ih => rw [partsFrom, Part.flatMap_chars_prepend, ih]

/-- A compound of a selector stands in it. -/
private theorem infix_of_mem_parts {cs text : List Char} (h : .compound text ∈ parts cs) :
    text <:+: cs := by
  obtain ⟨before, after, hsplit⟩ := List.append_of_mem h
  have hchars := flatMap_chars_partsFrom .outside 0 cs
  rw [← parts, hsplit, List.flatMap_append, List.flatMap_cons, ← List.append_assoc] at hchars
  exact ⟨_, _, hchars⟩

/-- The pieces of a selector list stand in it, the first one at its start. -/
theorem infix_splitListFrom (quoting : Quoting) (depth : Nat) (cs : List Char) :
    ∃ first rest, splitListFrom quoting depth cs = first :: rest ∧ first <+: cs ∧
      ∀ piece ∈ rest, piece <:+: cs := by
  induction cs generalizing quoting depth with
  | nil => exact ⟨[], [], rfl, List.prefix_rfl, nofun⟩
  | cons c cs ih =>
    rw [splitListFrom]
    split
    · obtain ⟨first, rest, hsplit, hfirst, hrest⟩ := ih .outside 0
      refine ⟨[], splitListFrom .outside 0 cs, rfl, List.nil_prefix, fun piece hpiece => ?_⟩
      rw [hsplit] at hpiece
      rcases List.mem_cons.1 hpiece with rfl | hpiece
      · exact hfirst.isInfix.trans (List.suffix_cons c cs).isInfix
      · exact (hrest piece hpiece).trans (List.suffix_cons c cs).isInfix
    · obtain ⟨first, rest, hsplit, hfirst, hrest⟩ :=
        ih (quoting.next c) (if quoting.isOutside then nesting depth c else depth)
      refine ⟨c :: first, rest, by dsimp only; rw [hsplit], (List.prefix_cons_inj c).2 hfirst,
        fun piece h => ?_⟩
      exact (hrest piece h).trans (List.suffix_cons c cs).isInfix

/-- A selector of a list stands in the list. -/
theorem infix_of_mem_splitList {selector : String} {complex : List Char}
    (h : complex ∈ splitList selector) : complex <:+: selector.toList := by
  obtain ⟨piece, hpiece, rfl⟩ := List.mem_map.1 h
  obtain ⟨first, rest, hsplit, hfirst, hrest⟩ := infix_splitListFrom .outside 0 selector.toList
  rw [hsplit] at hpiece
  rcases List.mem_cons.1 hpiece with rfl | hpiece
  · exact (infix_trimBlank _).trans hfirst.isInfix
  · exact (infix_trimBlank _).trans (hrest piece hpiece)

/-- A compound of a selector list stands in the list. -/
theorem infix_of_mem_compoundsOf {selector : String} {c : List Char}
    (h : c ∈ compoundsOf selector) :
    c <:+: selector.toList := by
  obtain ⟨complex, hcomplex, h⟩ := List.mem_flatMap.1 h
  obtain ⟨part, hpart, htext⟩ := List.mem_filterMap.1 h
  cases part with
  | compound text =>
    obtain rfl := Option.some.inj htext
    exact (infix_of_mem_parts hpart).trans (infix_of_mem_splitList hcomplex)
  | combinator run => cases htext

/-! ### Parts -/

/-- Whether no two compounds stand side by side, and what is between them is a run of combinators
and blanks. -/
inductive Alternates : List Part → Prop
  | nil : Alternates []
  | compound {text ps} (hnext : ∀ p ∈ ps.head?, p.text? = none) (hps : Alternates ps) :
      Alternates (.compound text :: ps)
  | combinator {run ps} (hne : run ≠ []) (hrun : ∀ c ∈ run, isCombining c = true)
      (hps : Alternates ps) : Alternates (.combinator run :: ps)

/-- Parts still alternate when one more character is put in front. -/
theorem Alternates.prepend {ps : List Part} (h : Alternates ps) {combining : Bool} {c : Char}
    (hc : combining = true → isCombining c = true) : Alternates (Part.prepend combining c ps) := by
  cases combining with
  | true =>
    have hrun : ∀ d ∈ [c], isCombining d = true := by simpa using hc
    have hne : ∀ {run : List Char}, c :: run ≠ [] := List.cons_ne_nil _ _
    cases h with
    | nil => exact .combinator hne hrun .nil
    | compound hnext hps => exact .combinator hne hrun (.compound hnext hps)
    | combinator _ hrest hps =>
      exact .combinator hne (List.forall_mem_cons.2 ⟨hc rfl, hrest⟩) hps
  | false =>
    cases h with
    | nil => exact .compound nofun .nil
    | compound hnext hps => exact .compound hnext hps
    | combinator hne hrun hps =>
      exact .compound (fun p hp => by rw [← Option.some.inj hp]; rfl) (.combinator hne hrun hps)

/-- Compounds and what combines them alternate. -/
theorem alternates_partsFrom (quoting : Quoting) (depth : Nat) (cs : List Char) :
    Alternates (partsFrom quoting depth cs) := by
  induction cs generalizing quoting depth with
  | nil => exact .nil
  | cons c cs ih =>
    rw [partsFrom]
    refine (ih _ _).prepend fun hcombining => ?_
    rw [Bool.and_eq_true] at hcombining
    exact hcombining.2

private theorem separates_of_isCombining {c : Char} (h : isCombining c = true) :
    Place.top.separates c = true := by
  simp [Place.top, Place.separates, h]

/-- A run of blanks and combinators stands for something that separates. -/
private theorem separates_combinatorOf {run : List Char} (h : ∀ c ∈ run, isCombining c = true) :
    Place.top.separates (combinatorOf run) = true := by
  unfold combinatorOf
  cases hlast : (run.filter (!isMarkupSpace ·)).getLast? with
  | none => rfl
  | some c =>
    have hmem : c ∈ run := List.mem_of_mem_filter (List.mem_of_getLast? hlast)
    exact separates_of_isCombining (h c hmem)

/-! ### Compounds between separators -/

/-- Whether a text ends what stands before it: it is empty or starts with something that
separates. -/
def EndsCompound (cs : List Char) : Prop := ∀ c ∈ cs.head?, Place.top.separates c = true

private theorem endsCompound_nil : EndsCompound [] := fun _ hc => by cases hc

private theorem endsCompound_cons {c : Char} (h : Place.top.separates c = true) (cs : List Char) :
    EndsCompound (c :: cs) :=
  fun _ hd => Option.some.inj hd ▸ h

/-- What separates compounds ends one, in front of whatever ends one. -/
theorem EndsCompound.append {run cs : List Char} (hrun : ∀ c ∈ run, Place.top.separates c = true)
    (hcs : EndsCompound cs) : EndsCompound (run ++ cs) := by
  cases run with
  | nil => exact hcs
  | cons c run => exact endsCompound_cons (hrun c List.mem_cons_self) _

/-- What separates compounds can be left out in front of them. -/
theorem compounds_append_of_separates {run : List Char}
    (hrun : ∀ c ∈ run, Place.top.separates c = true) (cs : List Char) :
    compounds (run ++ cs) = compounds cs := by
  induction run with
  | nil => rfl
  | cons c run ih =>
    obtain ⟨hc, hrun⟩ := List.forall_mem_cons.1 hrun
    rw [List.cons_append, compounds_cons hc, ih hrun]

/-- A compound is the first one in front of whatever ends it. -/
theorem compounds_append_of_endsCompound {a : List Char} (ha : IsCompound a) {cs : List Char}
    (hcs : EndsCompound cs) : compounds (a ++ cs) = a :: compounds cs := by
  cases cs with
  | nil => rw [List.append_nil, compounds_of_isCompound ha, compounds_nil]
  | cons c cs => rw [compounds_append ha (hcs c rfl), compounds_cons (hcs c rfl)]

/-- The texts of the parts are the compounds of a complex selector when they are compounds at
all. -/
private theorem compounds_flatMap_chars {ps : List Part} (hps : Alternates ps)
    (h : ∀ c ∈ ps.filterMap Part.text?, IsCompound c) {next : List Char}
    (hnext : EndsCompound next) :
    compounds (ps.flatMap Part.chars ++ next) = ps.filterMap Part.text? ++ compounds next ∧
      ((∀ p ∈ ps.head?, p.text? = none) → EndsCompound (ps.flatMap Part.chars ++ next)) := by
  induction hps with
  | nil => exact ⟨rfl, fun _ => hnext⟩
  | @compound text ps hfirst hps ih =>
    obtain ⟨htext, hothers⟩ := List.forall_mem_cons.1 h
    obtain ⟨hcompounds, hends⟩ := ih hothers
    refine ⟨?_, fun hnone => absurd (hnone _ rfl) nofun⟩
    rw [List.flatMap_cons, List.append_assoc]
    change compounds (text ++ _) = text :: (_ ++ _)
    rw [compounds_append_of_endsCompound htext (hends hfirst), hcompounds]
  | @combinator run ps hne hrun hps ih =>
    have hseparates : ∀ c ∈ run, Place.top.separates c = true :=
      fun c hc => separates_of_isCombining (hrun c hc)
    obtain ⟨hcompounds, -⟩ := ih h
    rw [List.flatMap_cons, List.append_assoc]
    change compounds (run ++ _) = _ ∧ (_ → EndsCompound (run ++ _))
    refine ⟨(compounds_append_of_separates hseparates _).trans hcompounds, fun _ => ?_⟩
    obtain ⟨c, run, rfl⟩ := List.exists_cons_of_ne_nil hne
    exact endsCompound_cons (hseparates c List.mem_cons_self) _

/-- The pieces of a selector list are joined to the list. -/
theorem toList_join_splitListFrom (quoting : Quoting) (depth : Nat) (cs : List Char) :
    (join "," ((splitListFrom quoting depth cs).map String.ofList)).toList = cs := by
  have hprepend : ∀ (c : Char) (piece : List Char) (pieces : List String),
      (join "," (String.ofList (c :: piece) :: pieces)).toList =
        c :: (join "," (String.ofList piece :: pieces)).toList := by
    intro c piece pieces
    cases pieces <;> simp [join]
  induction cs generalizing quoting depth with
  | nil => rfl
  | cons c cs ih =>
    rw [splitListFrom]
    split
    · rename_i hcomma
      obtain ⟨-, rfl⟩ : _ ∧ c = ',' := by simpa using hcomma
      obtain ⟨first, rest, hsplit, -⟩ := infix_splitListFrom .outside 0 cs
      rw [List.map_cons, join_cons _ _ (by simp [hsplit]), String.toList_append, ih]
      rfl
    · obtain ⟨first, rest, hsplit, -⟩ := infix_splitListFrom (quoting.next c)
        (if quoting.isOutside then nesting depth c else depth) cs
      have hrest := ih (quoting.next c) (if quoting.isOutside then nesting depth c else depth)
      dsimp only
      rw [hsplit] at hrest ⊢
      rw [List.map_cons, hprepend, ← List.map_cons, hrest]

/-- The compounds of a selector are those of its parts, with the blanks around it or without. -/
theorem compounds_trimBlank_append {piece : List Char}
    (hblank : ∀ c ∈ piece, isBlank c = true → isMarkupSpace c = true)
    (h : ∀ c ∈ (parts (trimBlank piece)).filterMap Part.text?, IsCompound c) {next : List Char}
    (hnext : EndsCompound next) :
    compounds (piece ++ next) = (parts (trimBlank piece)).filterMap Part.text? ++
      compounds next := by
  obtain ⟨leading, trailing, heq, hleading, htrailing⟩ := exists_append_trimBlank piece
  have hseparates : ∀ c ∈ piece, isBlank c = true → Place.top.separates c = true := by
    intro c hc hspace
    exact separates_of_isCombining (by simp [isCombining, hblank c hc hspace])
  have hlead : ∀ c ∈ leading, Place.top.separates c = true := by
    intro c hc
    exact hseparates c (by rw [heq]; simp [hc]) (hleading c hc)
  have htrail : ∀ c ∈ trailing, Place.top.separates c = true := by
    intro c hc
    exact hseparates c (by rw [heq]; simp [hc]) (htrailing c hc)
  have hparts := (compounds_flatMap_chars (alternates_partsFrom .outside 0 (trimBlank piece)) h
    (EndsCompound.append htrail hnext)).1
  rw [flatMap_chars_partsFrom, compounds_append_of_separates htrail] at hparts
  rw [heq, List.append_assoc, List.append_assoc, compounds_append_of_separates hlead, ← heq, hparts,
    parts]

/-- Where the texts that scoping takes for compounds are compounds, they are those of the selector
list, unless scoping trims blanks that do not separate. -/
theorem compounds_eq_compoundsOf {selector : String}
    (hblank : ∀ c ∈ selector.toList, isBlank c = true → isMarkupSpace c = true)
    (h : ∀ c ∈ compoundsOf selector, IsCompound c) :
    compounds selector.toList = compoundsOf selector := by
  rw [← toList_join_splitListFrom .outside 0 selector.toList] at hblank ⊢
  unfold compoundsOf splitList at *
  generalize splitListFrom .outside 0 selector.toList = pieces at h hblank ⊢
  induction pieces with
  | nil => rfl
  | cons piece rest ih =>
    rw [List.map_cons, List.flatMap_cons, List.forall_mem_append] at h
    obtain ⟨hfirst, hrest⟩ := h
    rw [List.map_cons, List.map_cons, List.flatMap_cons]
    by_cases hnil : rest = []
    · subst hnil
      have hpiece : ∀ c ∈ piece, isBlank c = true → isMarkupSpace c = true := by
        simpa [join] using hblank
      have hcompounds := compounds_trimBlank_append hpiece hfirst endsCompound_nil
      rw [List.append_nil] at hcompounds
      simpa [join] using hcompounds
    · have hsep : ",".toList = [','] := rfl
      rw [List.map_cons, join_cons _ _ (by simpa using hnil), String.toList_append,
        String.toList_append, String.toList_ofList, hsep, List.append_assoc, List.singleton_append,
        List.forall_mem_append, List.forall_mem_cons] at hblank
      rw [join_cons _ _ (by simpa using hnil), String.toList_append, String.toList_append,
        String.toList_ofList, hsep, List.append_assoc, List.singleton_append,
        compounds_trimBlank_append hblank.1 hfirst (endsCompound_cons rfl _), compounds_cons rfl,
        ih hrest hblank.2.2]

/-! ### What scoping writes -/

namespace Scoping

variable {s : Scoping}

/-- What is written for the parts of a complex selector reads as its compounds, scoped, before
anything that ends a compound. Behind a compound it ends that compound first. -/
private theorem exists_writeParts {ps : List Part} (hps : Alternates ps)
    (h : ∀ c ∈ ps.filterMap Part.text?, IsCompound (s.compound c)) (written : List Char) :
    ∃ new, s.writeParts written ps = written ++ new ∧
      (∀ next, EndsCompound next →
        compounds (new ++ next) = (ps.filterMap Part.text?).map s.compound ++ compounds next) ∧
      (written ≠ [] → (∀ p ∈ ps.head?, p.text? = none) → ∀ next, EndsCompound next →
        EndsCompound (new ++ next)) := by
  induction hps generalizing written with
  | nil => exact ⟨[], (List.append_nil _).symm, fun _ _ => rfl, fun _ _ _ hnext => hnext⟩
  | @compound text ps hnext hps ih =>
    obtain ⟨htext, hothers⟩ := List.forall_mem_cons.1 h
    have hwritten : written ++ s.compound text ≠ [] := List.append_ne_nil_of_right_ne_nil _ htext.1
    obtain ⟨new, hnew, hcompounds, hends⟩ := ih hothers (written ++ s.compound text)
    refine ⟨s.compound text ++ new, by rw [writeParts, hnew, List.append_assoc], fun next h => ?_,
      fun _ hfirst => absurd (hfirst _ rfl) nofun⟩
    rw [List.append_assoc, compounds_append_of_endsCompound htext (hends hwritten hnext next h),
      hcompounds next h]
    rfl
  | @combinator run ps _ hrun hps ih =>
    have hseparates := separates_combinatorOf hrun
    rw [writeParts]
    split
    · obtain ⟨new, hnew, hcompounds, -⟩ := ih h (written ++ [combinatorOf run])
      refine ⟨combinatorOf run :: new, by rw [hnew, List.append_assoc]; rfl, fun next hnext => ?_,
        fun _ _ next _ => endsCompound_cons hseparates _⟩
      rw [List.cons_append, compounds_cons hseparates, hcompounds next hnext]
      rfl
    · rename_i hdropped
      obtain ⟨new, hnew, hcompounds, hends⟩ := ih h written
      refine ⟨new, hnew, hcompounds, fun hwritten _ next hnext => ?_⟩
      -- only the last run is dropped behind something
      have hlast : ps = [] := by
        by_contra hps
        exact hdropped (by simp [hwritten, hps])
      exact hends hwritten (by rw [hlast]; nofun) next hnext

/-- The compounds of a scoped selector are its compounds, each of them scoped. -/
theorem compounds_complex_append {complex : List Char}
    (h : ∀ c ∈ (parts complex).filterMap Part.text?, IsCompound (s.compound c)) {next : List Char}
    (hnext : EndsCompound next) :
    compounds (s.complex complex ++ next) =
      ((parts complex).filterMap Part.text?).map s.compound ++ compounds next := by
  obtain ⟨new, hnew, hcompounds, -⟩ :=
    exists_writeParts (alternates_partsFrom .outside 0 complex) h []
  rw [Scoping.complex, parts, hnew, List.nil_append]
  exact hcompounds next hnext

/-- Where scoping turns every text between the commas and combinators of a list into a compound,
these are the compounds of the scoped list. -/
theorem compounds_selectorList {selector : String}
    (h : ∀ c ∈ compoundsOf selector, IsCompound (s.compound c)) :
    compounds (s.selectorList selector).toList = (compoundsOf selector).map s.compound := by
  unfold selectorList compoundsOf at *
  generalize splitList selector = pieces at h ⊢
  induction pieces with
  | nil => rfl
  | cons complex rest ih =>
    rw [List.flatMap_cons, List.forall_mem_append] at h
    obtain ⟨hfirst, hrest⟩ := h
    rw [List.map_cons, List.flatMap_cons, List.map_append]
    by_cases hnil : rest = []
    · subst hnil
      have hcompounds := compounds_complex_append hfirst endsCompound_nil
      rw [List.append_nil] at hcompounds
      simpa [join] using hcompounds
    · have hsep : ",".toList = [','] := rfl
      rw [join_cons _ _ (by simpa using hnil), String.toList_append, String.toList_append,
        String.toList_ofList, hsep, List.append_assoc, List.singleton_append,
        compounds_complex_append hfirst (endsCompound_cons rfl _), compounds_cons rfl, ih hrest]

end Scoping

end ViewCompiler.Style
