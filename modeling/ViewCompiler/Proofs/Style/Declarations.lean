import ViewCompiler.Proofs.Style.Zone

/-!
# Declarations, read and written

Declarations that are read from a block are read again when they are written behind one another
(`areDeclarations_of_readDeclarations`, `readDeclarations_join`). A declaration is cut at its first
colon, even if that stands in a string; the blanks of both parts are then reduced by strings that
are none, but where the text stands in a string of its own, a blank is as good as several
(`exists_read_declaration`).
-/

namespace ViewCompiler.Style

open ViewCompiler.Text

/-- Declarations that can be written one after the other between semicolons. Only the last one may
leave brackets open. -/
inductive AreDeclarations : List String → Prop
  | nil : AreDeclarations []
  | cons {d ds s} (hread : (Zone.declaration false).read {} d.toList = some s)
      (hquoting : s.quoting = .outside) (hdepth : ds ≠ [] → s.depth = 0)
      (hagain : ∀ start, readDeclaration start d.toList = .ok [d]) (hrest : AreDeclarations ds) :
      AreDeclarations (d :: ds)

/-! ### One declaration -/

section

variable {s t : Spot} {name value text : List Char} {start : Nat}

/-- A declaration is read through as far as the text is that it is made of. -/
theorem exists_read_declaration
    (h : (Zone.declaration false).read {} (name ++ ':' :: value) = some s)
    (hs : s.quoting = .outside) :
    ∃ t, (Zone.declaration false).read {} (collapse name ++ ":" ++ collapse value).toList = some t ∧
      t.quoting = .outside ∧ t.depth = s.depth := by
  obtain ⟨r, hname, h⟩ := Zone.read_append_eq_some_iff.1 h
  obtain ⟨hstops, hvalue⟩ := Zone.read_cons_eq_some_iff.1 h
  have hrreal : r.quoting.IsReal := Zone.isReal_of_read hname trivial
  obtain ⟨r', hname', hquoting, hdepth, -⟩ := Zone.exists_read_collapse hname rfl rfl false false
  -- The colon leads to the same place, and out of every escape.
  have hcolon :
      (Zone.declaration false).advance r' ':' = (Zone.declaration false).advance r ':' := by
    unfold Zone.advance
    rw [hquoting, hdepth]
  have hstops' : (Zone.declaration false).stops r' ':' = false := by
    have hstar : ∀ slash : Bool, (slash && ':' = '*') = false := fun slash => by simp
    simp only [Zone.stops, hquoting, hdepth, hstar] at hstops ⊢
    exact hstops
  have hreal : ((Zone.declaration false).advance r ':').quoting.IsReal := by
    rw [Zone.quoting_advance]
    exact hrreal.next ':'
  have hslash : ((Zone.declaration false).advance r ':').slash = false := by
    unfold Zone.advance
    split <;> rfl
  have hnext : ((Zone.declaration false).advance r ':').quoting.next ' ' =
      ((Zone.declaration false).advance r ':').quoting := by
    rw [Zone.quoting_advance]
    exact hrreal.next_next_blank (by decide)
  obtain ⟨t, hvalue', hout, htdepth⟩ :=
    Zone.exists_read_collapse_of_isReal hvalue rfl hreal hnext hslash hs
  refine ⟨t, ?_, hout, htdepth⟩
  rw [String.toList_append, String.toList_append, List.append_assoc]
  refine Zone.read_append_eq_some_iff.2 ⟨r', hname', ?_⟩
  exact Zone.read_cons_eq_some_iff.2 ⟨hstops', hcolon ▸ hvalue'⟩

/-- What stands first stays there, unless it is a blank. -/
theorem collapse_cons {c : Char} (hc : isMarkupSpace c = false) (cs : List Char) :
    (collapse (c :: cs)).toList = c :: collapseFrom (Quoting.outside.next c) false true cs := by
  rw [collapse, String.toList_ofList, collapseFrom, hc, Bool.and_false, if_neg Bool.false_ne_true]
  rfl

/-- Reducing blanks adds no other character. -/
private theorem mem_of_mem_collapse {c : Char} (hc : c ≠ ' ') {cs : List Char}
    (h : c ∈ (collapse cs).toList) :
    c ∈ cs := by
  rw [← List.singleton_infix_iff] at h ⊢
  exact infix_of_infix_collapse (by simpa using hc.symm) (List.cons_ne_nil c []) h

/-- A declaration is read as it is written. -/
private theorem readDeclaration_declaration (hname : ∀ c ∈ name.head?, isBlank c = false)
    (hne : name ≠ [])
    (hcolon : ':' ∉ name) (hvalue : ∀ c ∈ value.getLast?, isBlank c = false) (start : Nat) :
    readDeclaration start (collapse name ++ ":" ++ collapse value).toList =
      .ok [collapse name ++ ":" ++ collapse value] := by
  obtain ⟨c, name, rfl⟩ := List.exists_cons_of_ne_nil hne
  have hc : isBlank c = false := hname c rfl
  have hfirst := collapse_cons (isMarkupSpace_eq_false hc) name
  have htext : (collapse (c :: name) ++ ":" ++ collapse value).toList =
      (collapse (c :: name)).toList ++ ':' :: (collapse value).toList := by
    rw [String.toList_append, String.toList_append, List.append_assoc]
    rfl
  have htrim : trimBlank ((collapse (c :: name)).toList ++ ':' :: (collapse value).toList) =
      (collapse (c :: name)).toList ++ ':' :: (collapse value).toList := by
    refine trimBlank_eq_self ?_ ?_
    · rw [hfirst]
      exact fun d hd => Option.some.inj hd ▸ hc
    · -- The last character is that of the value, or the colon if there is no value.
      intro d hd
      rw [List.getLast?_append, List.getLast?_cons] at hd
      cases hlast : value.getLast? with
      | none =>
        rw [List.getLast?_eq_none_iff.1 hlast] at hd
        obtain rfl := Option.some.inj hd
        rfl
      | some e =>
        have he := hvalue e hlast
        have hlast' : (collapse value).toList.getLast? = some e := by
          rw [collapse, String.toList_ofList]
          exact getLast?_collapseFrom hlast (isMarkupSpace_eq_false he)
        rw [hlast'] at hd
        obtain rfl := Option.some.inj hd
        exact he
  -- The first colon is the one that was written: the name has none.
  have hcut : cut? [':'] ((collapse (c :: name)).toList ++ ':' :: (collapse value).toList) =
      some ((collapse (c :: name)).toList, (collapse value).toList) :=
    cut?_append (fun hmem => hcolon (mem_of_mem_collapse (by decide) hmem)) _
  have hread :
      readDeclaration start ((collapse (c :: name)).toList ++ ':' :: (collapse value).toList) =
      .ok [collapse (collapse (c :: name)).toList ++ ":" ++ collapse (collapse value).toList] := by
    rw [readDeclaration, htrim, hcut]
    simp only [hfirst]
    rfl
  rw [htext, hread, collapse_collapse, collapse_collapse]

/-- What a declaration is read from, it is read from again. -/
theorem exists_of_readDeclaration {ds : List String}
    (htext : (Zone.declaration false).read {} text = some s)
    (hs : s.quoting = .outside) (h : readDeclaration start text = .ok ds) :
    ds = [] ∨ ∃ d t, ds = [d] ∧ (Zone.declaration false).read {} d.toList = some t ∧
      t.quoting = .outside ∧ t.depth = s.depth ∧ ∀ start, readDeclaration start d.toList =
        .ok [d] := by
  refine (cases_of_readDeclaration h).imp_right ?_
  rintro ⟨c, name, value, hcut, rfl⟩
  obtain ⟨r, htrim, hr, hdepth, -⟩ := Zone.exists_read_trimBlank htext rfl rfl hs false
  have hsplit := eq_of_cut?_eq_some hcut
  rw [List.append_assoc, List.singleton_append] at hsplit
  rw [hsplit] at htrim
  obtain ⟨t, hread, ht, htdepth⟩ := exists_read_declaration htrim hr
  refine ⟨_, t, rfl, hread, ht, htdepth.trans hdepth, fun start => ?_⟩
  refine readDeclaration_declaration (fun d hd => ?_) (List.cons_ne_nil c name)
    (notMem_of_cut? hcut) (fun d hd => ?_) start
  · exact not_isBlank_of_head?_trimBlank d (by rw [hsplit]; exact hd)
  · have hlast : (trimBlank text).getLast? = some d := by
      rw [hsplit, List.getLast?_append, List.getLast?_cons, Option.mem_def.1 hd]
      rfl
    exact not_isBlank_of_getLast?_trimBlank d hlast

end

/-! ### Blocks -/

/-- The declarations of a block can be written again, and what follows the block has no comment. -/
theorem areDeclarations_of_readDeclarations {start here : Nat} {text : List Char} {s : Spot}
    {offset : Nat}
    {cs : List Char} {ds : List String} {next : Cursor}
    (htext : (Zone.declaration false).read {} text.reverse = some s) (hclear : s.Clear cs)
    (h : readDeclarations start here text s.quoting s.depth offset cs = .ok (ds, next)) :
    AreDeclarations ds ∧ ({} : Spot).Clear next.rest := by
  induction cs generalizing here text s offset ds next with
  | nil => cases h
  | cons c cs ih =>
    -- No string begins at the end of a declaration, so what follows is read from its start.
    have hrest : s.quoting = .outside → Quoting.outside.next c = .outside → ({} : Spot).Clear cs :=
      fun hq hnext => (hclear.advance (z := Zone.declaration false)).restart
        (by rw [Zone.quoting_advance, hq, hnext])
    cases declaresOver_of_readDeclarations h with
    | goes hends hread =>
      have hends : s.quoting = .outside → (Zone.declaration false).ends s.depth c = false := by
        intro hq
        obtain ⟨hopen, hclose, hsemicolon⟩ := hends hq
        simpa [Zone.declaration, hopen, hclose] using hsemicolon
      have hquoting : ((Zone.declaration false).advance s c).quoting = s.quoting.next c :=
        Zone.quoting_advance
      have hdepth := Zone.depth_advance (z := Zone.declaration false) (s := s) (c := c)
      refine ih (s := (Zone.declaration false).advance s c) ?_ hclear.advance
        (by rwa [hquoting, hdepth])
      rw [List.reverse_cons]
      refine Zone.read_append_eq_some_iff.2 ⟨s, htext, ?_⟩
      exact Zone.read_cons_eq_some_iff.2 ⟨hclear.stops rfl hends, rfl⟩
    | separates hq hc hdepth hfirst hothers =>
      subst hc
      obtain ⟨hdeclarations, hnext⟩ := ih (s := {}) rfl (hrest hq rfl) hothers
      refine ⟨?_, hnext⟩
      obtain rfl | ⟨d, t, rfl, hread, ht, htdepth, hagain⟩ :=
        exists_of_readDeclaration htext hq hfirst
      · exact hdeclarations
      · exact .cons hread ht (fun _ => htdepth.trans hdepth) hagain hdeclarations
    | closes hq hc hlast =>
      subst hc
      refine ⟨?_, hrest hq rfl⟩
      obtain rfl | ⟨d, t, rfl, hread, ht, -, hagain⟩ := exists_of_readDeclaration htext hq hlast
      · exact .nil
      · exact .cons hread ht (fun hne => absurd rfl hne) hagain .nil

/-- Declarations that are written between semicolons are read up to the closing brace. -/
theorem readDeclarations_join {ds : List String} (h : AreDeclarations ds) (start here offset : Nat)
    (rest : List Char) :
    ∃ offset', readDeclarations start here [] .outside 0 offset
      ((join ";" ds).toList ++ '\x7d' :: rest) = .ok (ds, ⟨rest, offset'⟩) := by
  induction h generalizing here offset with
  | nil => exact ⟨_, rfl⟩
  | @cons d ds s hread hquoting hdepth hagain _ ih =>
    have hthrough := Zone.readDeclarations_of_read hread start here [] offset
    rw [hquoting, List.append_nil] at hthrough
    by_cases hnil : ds = []
    · subst hnil
      refine ⟨offset + byteLength d.toList + 1, ?_⟩
      change readDeclarations start here [] .outside 0 offset (d.toList ++ '\x7d' :: rest) = _
      rw [hthrough, readDeclarations]
      simp only [List.reverse_reverse, hagain]
      rfl
    · obtain ⟨offset', hrest⟩ :=
        ih (offset + byteLength d.toList + 1) (offset + byteLength d.toList + 1)
      refine ⟨offset', ?_⟩
      have hsep : ";".toList = [';'] := rfl
      rw [join_cons _ _ hnil, String.toList_append, String.toList_append, hsep, List.append_assoc,
        List.append_assoc, hthrough, hdepth hnil, List.singleton_append, readDeclarations]
      simp only [List.reverse_reverse, hagain]
      change (readDeclarations start (offset + byteLength d.toList + 1) [] .outside 0
          (offset + byteLength d.toList + 1) ((join ";" ds).toList ++ '\x7d' :: rest)).bind
        (fun p => .ok ([d] ++ p.1, p.2)) = _
      rw [hrest]
      rfl

end ViewCompiler.Style
