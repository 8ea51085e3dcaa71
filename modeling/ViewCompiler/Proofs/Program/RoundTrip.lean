import ViewCompiler.Proofs.Document.Json
import ViewCompiler.Proofs.Document.Yaml
import ViewCompiler.Proofs.Program.Closure
import ViewCompiler.Proofs.Program.Document

/-!
# Decoding undoes encoding

The program of a compilation has no missing lists, and its arguments are not nested any deeper
(`Program.isGiven_scopeOf`). Whatever format it is encoded in, it is therefore decoded to itself
(`Program.exists_decode_encode`): fields that were left out are empty again, and a zero that was
written is read. In JSON this holds of the text as it stands. In YAML it rests on the text being
read as the nodes that hold the program, which a string with an empty first line prevents.
-/

namespace ViewCompiler.Program

open ViewCompiler.Document ViewCompiler.Template

/-! ### Programs of compilations -/

private theorem heightAll_le {vs : List Value} {height : Nat} (h : ∀ v ∈ vs, v.height ≤ height) :
    heightAll vs ≤ height := by
  induction vs with
  | nil => exact Nat.zero_le _
  | cons v vs ih =>
    obtain ⟨hv, hvs⟩ := List.forall_mem_cons.1 h
    rw [heightAll]
    exact Nat.max_le.2 ⟨hv, ih hvs⟩

private theorem height_ofValue (fs : Frames) (v : Template.Value) : (ofValue fs v).height ≤ 2 := by
  cases v with
  | text content => exact Nat.le_succ 1
  | literal text => exact Nat.le_succ 1
  | access path => exact Nat.le_succ 1
  | call path arguments =>
    have harguments : heightAll (arguments.map fun a => ⟨ofArgument fs a, []⟩) ≤ 1 := by
      refine heightAll_le fun v hv => ?_
      obtain ⟨a, -, rfl⟩ := List.mem_map.1 hv
      exact Nat.le_refl 1
    exact Nat.succ_le_succ harguments

theorem Scope.IsGiven.mono {s : Scope} {m n : Nat} (h : s.IsGiven m) (hmn : m ≤ n) :
    s.IsGiven n where
  own node hnode b hb := Nat.le_trans (h.own node hnode b hb) hmn
  fed b hb := Nat.le_trans (h.fed b hb) hmn
  nodeUpdates := h.nodeUpdates
  childUpdates := h.childUpdates
  actions := h.actions

/-- No list of a scope is missing, and arguments have no arguments themselves. -/
theorem isGiven_scopeOf (c : Compilation) (p : Placed) : (scopeOf c p).IsGiven 2 where
  own n hn b hb := by
    obtain ⟨s, -, rfl⟩ := List.mem_map.1 hn
    obtain ⟨read, -, rfl⟩ := List.mem_map.1 hb
    exact height_ofValue p.frames read.value
  fed b hb := by
    obtain ⟨read, -, rfl⟩ := List.mem_map.1 hb
    exact height_ofValue p.outer read.value
  nodeUpdates u hu := by
    obtain ⟨update, -, rfl⟩ := List.mem_map.1 hu
    exact Option.some_ne_none _
  childUpdates u hu := by
    obtain ⟨update, -, rfl⟩ := List.mem_map.1 hu
    exact Option.some_ne_none _
  actions a ha := by
    obtain ⟨action, -, rfl⟩ := List.mem_map.1 ha
    cases action with
    | node index values => exact Option.some_ne_none _
    | child id values => exact Option.some_ne_none _

/-! ### Texts -/

theorem two_le_length_render (p : Program) (format : Format) : 2 ≤ (p.render format).length := by
  cases format with
  | json => exact Json.two_le_length_render p.toDocument
  | yaml =>
    -- The first field is always given, and its name has four letters.
    have hroot := Yaml.length_lt_render 2 "root" (.text p.root)
      (("factories", ofOption (p.scopes.map (·.map Scope.toDocument))) ::
        listUnlessEmpty "styles" (p.styles.map Style.toDocument))
    exact Nat.le_trans (by decide) hroot

/-- Reading undoes writing, if a text in YAML is read as the nodes that hold the program. -/
theorem read_render {p : Program} {ss : List Scope} (hscopes : p.scopes = some ss)
    (hgiven : ∀ s ∈ ss, s.IsGiven 2) (hfits : p.toDocument.fits = true) {format : Format}
    (hyaml : format = .yaml →
      Yaml.read (Yaml.render 2 p.toDocument) = .ok (Yaml.Node.ofDocument p.toDocument)) :
    read format (p.render format) = .ok p := by
  -- The reader goes as deep as the text is long.
  have hdeep : ∀ s ∈ ss, s.IsGiven (p.render format).length := fun s hs =>
    (hgiven s hs).mono (two_le_length_render p format)
  cases format with
  | json =>
    have hprogram := readProgram_hold Json.holds_ofDocument hscopes hdeep hfits
    exact bind_eq_ok_iff.2 ⟨_, Json.read_render p.toDocument, bind_eq_ok_iff.2 ⟨_, hprogram, rfl⟩⟩
  | yaml =>
    have hprogram := readProgram_hold Yaml.holds_ofDocument hscopes hdeep hfits
    exact bind_eq_ok_iff.2 ⟨_, hyaml rfl, bind_eq_ok_iff.2 ⟨_, hprogram, rfl⟩⟩

private theorem decode_render {p : Program} {name : String} {format : Format}
    (hname : Format.ofName name = .ok format) (h : read format (p.render format) = .ok p) :
    ∃ text, p.encode name = .ok text ∧ decode text name = .ok p := by
  refine ⟨p.render format, map_eq_ok_iff.2 ⟨format, hname, rfl⟩, ?_⟩
  refine bind_eq_ok_iff.2 ⟨format, hname, ?_⟩
  rw [h]
  rfl

/-- The program of a compilation, encoded in any format, is decoded to itself. Its numbers are of 64
bits, and its text in YAML is read as the nodes that hold it. -/
theorem exists_decode_encode {cache : Option ParseCache} {reg : Registry} {root : String}
    {cancelled : Bool} {c : Compilation} {p : Program}
    (hcompile : (compile cache reg root cancelled).outcome = .ok c)
    (hproject : project c = .ok p) (hfits : p.toDocument.fits = true) {format : String}
    (hformat : format ∈ ["yaml", "yml", "json"])
    (hyaml : format ≠ "json" →
      Yaml.read (Yaml.render 2 p.toDocument) = .ok (Yaml.Node.ofDocument p.toDocument)) :
    ∃ text, p.encode format = .ok text ∧ decode text format = .ok p := by
  obtain ⟨⟨lib, d, hbuild⟩, -, -⟩ := parts_of_compile hcompile
  obtain rfl := Except.ok.inj (hproject.symm.trans (project_eq hbuild))
  have hgiven : ∀ s ∈ scopesOf c, s.IsGiven 2 := by
    intro s hs
    obtain ⟨q, -, rfl⟩ := List.mem_map.1 hs
    exact isGiven_scopeOf c q
  have hread : ∀ f : Format, (f = .yaml → format ≠ "json") →
      read f ((ofCompilation c).render f) = .ok (ofCompilation c) := fun f hf =>
    read_render rfl hgiven hfits fun hf' => hyaml (hf hf')
  simp only [List.mem_cons, List.not_mem_nil, or_false] at hformat
  rcases hformat with rfl | rfl | rfl
  · exact decode_render rfl (hread .yaml fun _ => by decide)
  · exact decode_render rfl (hread .yaml fun _ => by decide)
  · exact decode_render rfl (hread .json nofun)

/-! ### A page with a style sheet -/

namespace StyledPage

private theorem fits_program : program.toDocument.fits = true := by decide

private theorem read_render_yaml : Yaml.read (Yaml.render 2 program.toDocument) =
    .ok (Yaml.Node.ofDocument program.toDocument) := by
  -- The characters that are written are read as they are, without a text in between.
  rw [Yaml.read, Yaml.tokens, Yaml.render, String.toList_ofList]
  decide +kernel

end StyledPage

open StyledPage in
/-- The program of the page is decoded from each of its texts, with its scopes, its updates and its
style sheet. -/
theorem exists_decode_encode_page :
    (∃ text, program.encode "yaml" = .ok text ∧ decode text "yaml" = .ok program) ∧
    (∃ text, program.encode "yml" = .ok text ∧ decode text "yml" = .ok program) ∧
    ∃ text, program.encode "json" = .ok text ∧ decode text "json" = .ok program := by
  have hdecode {format : String} (hformat : format ∈ ["yaml", "yml", "json"]) :=
    exists_decode_encode compile_registry project_compilation fits_program hformat
      fun _ => read_render_yaml
  exact ⟨hdecode (by decide), hdecode (by decide), hdecode (by decide)⟩

end ViewCompiler.Program
