import ViewCompiler.Proofs.Outcome
import ViewCompiler.Proofs.Path
import ViewCompiler.Proofs.Registry.History
import ViewCompiler.Proofs.Text.Order
import ViewCompiler.Watch.Session

/-!
# Excluded templates that a watch lets in

A scan leaves out a template if a pattern matches its name or the way to it from the directory that
is scanned. A watch asks less: it tests the name of the file that has changed, which need not be the
template, and it does not test the way at all. Between the two stand the files of a component, which
share a stem and so the directory they lie in (`SourceFile.liesBelow_template`).

What the watch overlooks is just that (`SourceFile.isExcluded_template_iff`): the name of the
template where another file has changed, and the way where there is a directory between. The
template is then scanned anew, and nothing on the way from the change to the registry asks the
patterns again, so a component is registered that a scan leaves out
(`Watch.Session.registers_overlooked_iff`).

Paths are texts, and patterns are matched against texts: against the base of a path, and against
what leads to it from the scanned directory. So it has to be known of a file and of its template
what their bases and their relative paths are. A path is taken into its parts, the last of which
carries the ending; the template has the same parts with another ending, and resolving dots leaves
the last part alone (`Path.LiesBelow`).

The second half follows one change through a session: the filter that looks at the name, the scan of
the one file, and the registration of what it finds. Each of these is a function of the files and
the configuration, and the patterns are used in the first of them only.
-/

namespace ViewCompiler

open ViewCompiler.Text

namespace Path

variable {path root stem ext name : String} {above directories : List String}

/-! ### The last part of a path -/

/-- The parts of a path are joined to the path. -/
theorem join_parts (path : String) : join "/" (parts path) = path :=
  String.toList_injective (toList_join_splitOn '/' path.toList)

/-- A path has a last part. -/
theorem exists_parts_eq_concat (path : String) : ∃ above name, parts path = above ++ [name] := by
  have hne : parts path ≠ [] := by simp [parts, split, splitOn_ne_nil]
  exact ⟨_, _, (List.dropLast_append_getLast hne).symm⟩

/-- What stands behind a path without a slash belongs to its last part. -/
private theorem parts_append (hext : '/' ∉ ext.toList) (h : parts stem = above ++ [name]) :
    parts (stem ++ ext) = above ++ [name ++ ext] := by
  have hpart : ∀ part ∈ above ++ [name], '/' ∉ part.toList := fun part hpart =>
    notMem_of_mem_parts (h ▸ hpart)
  obtain ⟨habove, hname⟩ := List.forall_mem_append.1 hpart
  have hlast : '/' ∉ (name ++ ext).toList := by
    rw [String.toList_append, List.mem_append, not_or]
    exact ⟨hname name List.mem_cons_self, hext⟩
  have hstem : stem ++ ext = join "/" (above ++ [name ++ ext]) := by
    rw [join_concat_append, ← h, join_parts]
  rw [hstem, parts_join (by simp)]
  exact List.forall_mem_append.2 ⟨habove, List.forall_mem_singleton.2 hlast⟩

/-- The base of a path is its last part, unless that is empty. -/
private theorem base_of_parts (h : parts path = above ++ [name]) (hname : name ≠ "") :
    base path = name := by
  have hslash : ∀ c ∈ name.toList, c ≠ '/' := fun c hc heq => by
    have hmem : name ∈ parts path := h ▸ List.mem_append_right _ List.mem_cons_self
    exact notMem_of_mem_parts hmem (heq ▸ hc)
  obtain ⟨before, hbefore, htoList⟩ : ∃ before : List Char,
      (∀ c ∈ before.reverse.head?, c = '/') ∧ path.toList = before ++ name.toList := by
    rw [← join_parts path, h]
    by_cases hnil : above = []
    · subst hnil
      exact ⟨[], by simp, rfl⟩
    · refine ⟨(join "/" above).toList ++ ['/'], by simp, ?_⟩
      rw [join_concat _ _ hnil, String.toList_append, String.toList_append]
      rfl
  have hnil : name.toList.reverse ≠ [] := by simpa using hname
  have hreverse : path.toList.reverse = name.toList.reverse ++ before.reverse := by
    rw [htoList, List.reverse_append]
  have hpath : path ≠ "" := fun heq => by
    rw [heq] at hreverse
    exact hnil (List.append_eq_nil_iff.1 hreverse.symm).1
  -- The last part is read from the end of the path, up to the slash before it.
  have htrailing : path.toList.reverse.dropWhile (· = '/') = path.toList.reverse := by
    refine dropWhile_eq_self_of_head? fun c hc => ?_
    rw [hreverse, List.head?_append_of_ne_nil _ hnil] at hc
    simpa using hslash c (List.mem_reverse.1 (List.mem_of_head? hc))
  have htaken : path.toList.reverse.takeWhile (· ≠ '/') = name.toList.reverse := by
    rw [hreverse]
    refine takeWhile_append (fun c hc => ?_) fun c hc => ?_
    · simpa using hslash c (List.mem_reverse.1 hc)
    · simpa using hbefore c hc
  have hempty : name.toList.isEmpty = false := by simpa using hname
  rw [base, if_neg hpath]
  simp only [dropTrailing, htrailing, List.reverse_reverse, htaken, hempty, if_neg,
    Bool.false_eq_true, not_false_eq_true, String.ofList_toList]

/-- An entry at the end of a path is what is left of it at the end. -/
private theorem resolved_of_parts (h : parts path = above ++ [name]) (hname : isEntry name = true) :
    resolved path = (above.foldl (step (isAbsolute path)) []).reverse ++ [name] := by
  simp only [isEntry, Bool.and_eq_true, decide_eq_true_eq] at hname
  obtain ⟨⟨hempty, hdot⟩, hdots⟩ := hname
  rw [resolved, h, List.foldl_append, List.foldl_cons, List.foldl_nil, ← List.reverse_cons]
  simp [step, hempty, hdot, hdots]

private theorem isAbsolute_append (stem : String) (hext : isAbsolute ext = false) :
    isAbsolute (stem ++ ext) = isAbsolute stem := by
  have hslash : "/".toList = ['/'] := rfl
  rw [isAbsolute, hasPrefix, hslash] at hext
  rw [isAbsolute, isAbsolute, hasPrefix, hasPrefix, hslash, String.toList_append]
  cases stem.toList with
  | nil => exact hext
  | cons c cs =>
    simp only [List.cons_append, startsWith, dropPrefix?]
    split <;> rfl

/-- What is appended to the last part is appended to the path. -/
private theorem ofParts_concat_append (absolute : Bool) (ps : List String) (a b : String) :
    ofParts absolute (ps ++ [a ++ b]) = ofParts absolute (ps ++ [a]) ++ b := by
  cases absolute with
  | false => simp [ofParts, join_concat_append]
  | true => simp [ofParts, join_concat_append, String.append_assoc]

/-! ### Files below a directory -/

/-- A file stands in a directory that is reached from `root` through the given ones. -/
structure LiesBelow (root : String) (directories : List String) (path : String) : Prop where
  isAbsolute_eq : isAbsolute path = isAbsolute root
  resolved_eq : resolved path = resolved root ++ directories ++ [base path]

/-- A list has everything in common with one that goes on. -/
private theorem afterCommon_append (as bs : List String) :
    afterCommon as (as ++ bs) = ([], bs) := by
  induction as with
  | nil => cases bs <;> rfl
  | cons a as ih => rw [List.cons_append, afterCommon, if_pos rfl, ih]

/-- The way down to a file. -/
private theorem LiesBelow.relative?_eq (h : LiesBelow root directories path) :
    relative? root path = some (join "/" (directories ++ [base path])) := by
  rw [relative?, h.isAbsolute_eq, h.resolved_eq, List.append_assoc, afterCommon_append]
  simp [ofParts]

end Path

namespace SourceFile

variable {path file root : String} {directories patterns : List String}

/-! ### The files of a component -/

private theorem dropSuffix?_eq_some_iff {suffix s r : String} :
    dropSuffix? suffix s = some r ↔ s = r ++ suffix := by
  simp only [dropSuffix?, Option.map_eq_some_iff, dropPrefix?_eq_some_iff]
  constructor
  · rintro ⟨rest, hrest, rfl⟩
    have hs : s.toList = rest.reverse ++ suffix.toList := by
      rw [← s.toList.reverse_reverse, hrest, List.reverse_append, List.reverse_reverse]
    exact String.toList_injective (by simpa using hs)
  · rintro rfl
    exact ⟨r.toList.reverse, by simp, by simp⟩

/-- The endings of the files of a component. -/
def endings : List String := [template, manifest, style, source]

/-- A file and the template of its component differ in their endings. -/
theorem exists_stem_of_templateFor? (h : templateFor? path = some file) :
    ∃ stem, ∃ ending ∈ endings, path = stem ++ ending ∧ file = stem ++ template := by
  unfold templateFor? at h
  split at h
  · rename_i stem hstem
    obtain ⟨ending, hending, hdrop⟩ := List.exists_of_findSome?_eq_some hstem
    refine ⟨stem, ending, ?_, dropSuffix?_eq_some_iff.1 hdrop, (Option.some.inj h).symm⟩
    exact List.mem_of_mem_dropLast hending
  · split at h
    · cases h
    · obtain ⟨stem, hdrop, rfl⟩ := Option.map_eq_some_iff.1 h
      exact ⟨stem, source, by simp [endings], dropSuffix?_eq_some_iff.1 hdrop, rfl⟩

/-- A name with an ending names an entry. -/
theorem isEntry_append {ending : String} (h : ending ∈ endings) (name : String) :
    Path.isEntry (name ++ ending) = true := by
  have hlong : ∀ ending ∈ endings, 3 ≤ ending.length := by decide
  have hlength : 3 ≤ (name ++ ending).length := by
    rw [String.length_append]
    exact le_add_left (hlong ending h)
  have hne : ∀ part : String, part.length < 3 → name ++ ending ≠ part := by
    rintro part hpart rfl
    omega
  simp [Path.isEntry, hne "" (by decide), hne "." (by decide), hne ".." (by decide)]

section Stem

variable {stem name ending : String} {above : List String}

private theorem isAbsolute_stem (stem : String) (hending : ending ∈ endings) :
    Path.isAbsolute (stem ++ ending) = Path.isAbsolute stem := by
  have hrelative : ∀ ending ∈ endings, Path.isAbsolute ending = false := by decide
  exact Path.isAbsolute_append stem (hrelative ending hending)

/-- An ending belongs to the last part of a path. -/
theorem parts_stem (h : Path.parts stem = above ++ [name]) (hending : ending ∈ endings) :
    Path.parts (stem ++ ending) = above ++ [name ++ ending] := by
  have hslash : ∀ ending ∈ endings, '/' ∉ ending.toList := by decide
  exact Path.parts_append (hslash ending hending) h

/-- The base of a path with an ending has the ending. -/
theorem base_stem (h : Path.parts stem = above ++ [name]) (hending : ending ∈ endings) :
    Path.base (stem ++ ending) = name ++ ending := by
  refine Path.base_of_parts (parts_stem h hending) fun hempty => ?_
  have hentry := isEntry_append hending name
  rw [hempty] at hentry
  cases hentry

/-- Resolving the dots of a path leaves an ending at the last part. -/
theorem resolved_stem (h : Path.parts stem = above ++ [name]) (hending : ending ∈ endings) :
    Path.resolved (stem ++ ending) =
      (above.foldl (Path.step (Path.isAbsolute stem)) []).reverse ++ [name ++ ending] := by
  rw [Path.resolved_of_parts (parts_stem h hending) (isEntry_append hending name),
    isAbsolute_stem stem hending]

/-- A clean path has a stem that does not depend on its ending. -/
theorem clean_stem (h : Path.parts stem = above ++ [name]) (hending : ending ∈ endings) :
    Path.clean (stem ++ ending) = Path.ofParts (Path.isAbsolute stem)
      ((above.foldl (Path.step (Path.isAbsolute stem)) []).reverse ++ [name]) ++ ending := by
  rw [Path.clean, resolved_stem h hending, isAbsolute_stem stem hending, Path.ofParts_concat_append]

end Stem

/-- The template beside a file lies in the same directory. -/
theorem liesBelow_template (h : Path.LiesBelow root directories path)
    (htemplate : templateFor? path = some file) : Path.LiesBelow root directories file where
  isAbsolute_eq := by
    obtain ⟨stem, ending, hending, rfl, rfl⟩ := exists_stem_of_templateFor? htemplate
    rw [← h.isAbsolute_eq, isAbsolute_stem stem hending, isAbsolute_stem stem List.mem_cons_self]
  resolved_eq := by
    obtain ⟨stem, ending, hending, rfl, rfl⟩ := exists_stem_of_templateFor? htemplate
    obtain ⟨above, name, hstem⟩ := Path.exists_parts_eq_concat stem
    have hpath := h.resolved_eq
    rw [resolved_stem hstem hending, base_stem hstem hending, List.append_left_inj] at hpath
    rw [resolved_stem hstem List.mem_cons_self, base_stem hstem List.mem_cons_self, hpath]

/-- The template beside a file with a clean path has a clean path. -/
private theorem clean_template (h : Path.clean path = path)
    (htemplate : templateFor? path = some file) :
    Path.clean file = file := by
  obtain ⟨stem, ending, hending, rfl, rfl⟩ := exists_stem_of_templateFor? htemplate
  obtain ⟨above, name, hstem⟩ := Path.exists_parts_eq_concat stem
  rw [clean_stem hstem hending, String.append_left_inj] at h
  rw [clean_stem hstem List.mem_cons_self, h]

/-! ### What the filter of a watch overlooks -/

/-- A pattern matches the name of a template that is not the changed file itself, or it matches the
way to the template through directories below the root. The filter of a watch tests neither. -/
def Overlooked (patterns directories : List String) (path file : String) : Prop :=
  (path ≠ file ∧ ∃ p ∈ patterns, matchesPattern p (Path.base file) = true) ∨
    (directories ≠ [] ∧
      ∃ p ∈ patterns, matchesPattern p (join "/" (directories ++ [Path.base file])) = true)

/-- A file is excluded if some pattern matches its base or its path below the root. -/
theorem isExcluded_iff (h : Path.LiesBelow root directories file) :
    isExcluded patterns root file = true ↔
      ∃ p ∈ patterns, matchesPattern p (Path.base file) = true ∨
      matchesPattern p (join "/" (directories ++ [Path.base file])) = true := by
  simp [isExcluded, h.relative?_eq]

/-- A watch takes notice of a file if no pattern matches its base. -/
theorem isIncluded_iff :
    isIncluded patterns path = true ↔
      ∀ p ∈ patterns, ¬matchesPattern p (Path.base path) = true := by
  simp [isIncluded]

/-- Of the changed files that pass the filter, those that belong to an excluded template are just
those that a pattern excludes unnoticed. -/
theorem isExcluded_template_iff (h : Path.LiesBelow root directories path)
    (hpass : isIncluded patterns path = true) (htemplate : templateFor? path = some file) :
    isExcluded patterns root file = true ↔ Overlooked patterns directories path file := by
  rw [isExcluded_iff (liesBelow_template h htemplate)]
  constructor
  · rintro ⟨p, hp, hname | hway⟩
    · refine .inl ⟨?_, p, hp, hname⟩
      rintro rfl
      exact isIncluded_iff.1 hpass p hp hname
    · by_cases hnil : directories = []
      · subst hnil
        refine .inl ⟨?_, p, hp, hway⟩
        rintro rfl
        exact isIncluded_iff.1 hpass p hp hway
      · exact .inr ⟨hnil, p, hp, hway⟩
  · rintro (⟨-, p, hp, hname⟩ | ⟨-, p, hp, hway⟩)
    · exact ⟨p, hp, .inl hname⟩
    · exact ⟨p, hp, .inr hway⟩

end SourceFile

namespace Scan

variable {files : FileTree} {patterns ts : List String} {root path : String}

/-- A component is read from a template that is there. -/
private theorem file_of_loadComponent {c : Component} (hclean : Path.clean path = path)
    (h : loadComponent files path = .ok c) : c.file = path ∧ files.contains path = true := by
  obtain ⟨q, hconfine, h⟩ := bind_eq_ok_iff.1 h
  obtain ⟨-, -, rfl⟩ := Path.confine_eq_ok_iff.1 (mapError_eq_ok_iff.1 hconfine)
  rw [hclean] at h
  split at h
  · cases h
  · obtain ⟨e, hlook, h⟩ := bind_eq_ok_iff.1 h
    obtain ⟨text, -, h⟩ := bind_eq_ok_iff.1 h
    obtain ⟨⟨metadata, source, metadataText⟩, -, h⟩ := bind_eq_ok_iff.1 h
    obtain ⟨style, -, h⟩ := bind_eq_ok_iff.1 h
    refine ⟨(congrArg Component.file (Except.ok.inj h)).symm, ?_⟩
    obtain ⟨found, hfound, -⟩ := map_eq_ok_iff.1 (mapError_eq_ok_iff.1 (mapError_eq_ok_iff.1 hlook))
    rw [FileTree.contains, hfound]
    rfl

/-- A scan finds no excluded template. -/
private theorem isExcluded_of_mem_templates (h : templates files patterns root = .ok ts)
    (hpath : path ∈ ts) :
    SourceFile.isExcluded patterns root path = false := by
  obtain ⟨entries, -, rfl⟩ := map_eq_ok_iff.1 h
  obtain ⟨⟨found, e⟩, -, hkept⟩ := List.mem_filterMap.1 (mem_sortStrings.1 hpath)
  cases e with
  | directory => cases hkept
  | file content =>
    obtain ⟨hkeep, heq⟩ := Option.ite_none_right_eq_some.1 hkept
    obtain rfl := Option.some.inj heq
    simpa using (Bool.and_eq_true_iff.1 hkeep).2

end Scan

namespace Watch.Session

variable {s : Session} {files : FileTree} {path template : String}

/-- No component of a template is left when the template has been forgotten. -/
private theorem file_ne_of_mem_removeAt {r : Registry} {c : Component}
    (h : c ∈ (r.removeAt template).2.components) : c.file ≠ template := by
  rintro rfl
  obtain ⟨hc, hname⟩ := Registry.mem_components_foldl_remove.1 h
  exact hname (List.mem_map_of_mem (List.mem_filter.2 ⟨hc, by simp [Component.livesAt]⟩))

/-- A template that is scanned anew is registered if its component can be read, whatever the
patterns. -/
theorem exists_mem_rescan_iff (hclean : Path.clean template = template) :
    (∃ c ∈ (s.rescan files template).1.registry.components, c.file = template) ↔
      ∃ c, Scan.loadComponent files template = .ok c := by
  have hgone : ¬∃ c ∈ (s.registry.removeAt template).2.components, c.file = template :=
    fun ⟨_, hc, hfile⟩ => file_ne_of_mem_removeAt hc hfile
  cases hload : Scan.loadComponent files template with
  | error p =>
    have hrest : (s.rescan files template).1.registry = (s.registry.removeAt template).2 := by
      simp only [rescan, Scan.file, hload, Except.map]
      split <;> rfl
    rw [hrest]
    exact iff_of_false hgone nofun
  | ok c =>
    obtain ⟨hfile, hcontains⟩ := Scan.file_of_loadComponent hclean hload
    have hregistered : (s.rescan files template).1.registry =
        (s.registry.removeAt template).2.register c := by
      simp [rescan, Scan.file, hload, hcontains, Except.map]
    rw [hregistered, Registry.components_register, Registry.place_eq_placeBy]
    exact iff_of_true ⟨c.withTag, mem_placeBy_self, c.file_withTag.trans hfile⟩ ⟨c, rfl⟩

/-- A changed file has the template of its component scanned anew, and nothing else. -/
private theorem registry_apply_singleton (h : SourceFile.templateFor? path = some template) :
    (s.apply files [path]).1.registry = (s.rescan files template).1.registry := by
  have haffected : affected [path] = [template] := by simp [affected, h]
  simp only [apply, haffected, List.foldl_cons, List.foldl_nil]

/-- A changed file that passes the filter of a watch belongs to a template that a scan leaves out
just if the filter overlooks a pattern. The template is registered all the same: that takes no more
than a component that can be read. -/
theorem registers_overlooked_iff {root : String} {directories : List String}
    (hbelow : Path.LiesBelow root directories path)
    (hpass : SourceFile.isIncluded s.config.excludePatterns path = true)
    (htemplate : SourceFile.templateFor? path = some template) :
    (SourceFile.isExcluded s.config.excludePatterns root template = true ↔
        SourceFile.Overlooked s.config.excludePatterns directories path template) ∧
      (SourceFile.Overlooked s.config.excludePatterns directories path template →
        ∀ ts, Scan.templates files s.config.excludePatterns root = .ok ts → template ∉ ts) ∧
      (Path.clean path = path →
        ((∃ c ∈ (s.apply files [path]).1.registry.components, c.file = template) ↔
          ∃ c, Scan.loadComponent files template = .ok c)) := by
  have hexcluded := SourceFile.isExcluded_template_iff hbelow hpass htemplate
  refine ⟨hexcluded, fun hoverlooked ts hts hmem => ?_, fun hclean => ?_⟩
  · exact ne_true_of_eq_false (Scan.isExcluded_of_mem_templates hts hmem) (hexcluded.2 hoverlooked)
  · rw [registry_apply_singleton htemplate]
    exact exists_mem_rescan_iff (SourceFile.clean_template hclean htemplate)

private theorem config_start (config : Config) (logger : Log.Logger) (files : FileTree)
    (cancelled : Bool) :
    (start config logger files cancelled).1.config = config := rfl

/-- A directory with the files of one component. -/
def cardFiles : FileTree :=
  (({} : FileTree).write "components/card.w.html" "<p>Hi</p>").write "components/card.meta.yaml"
    "name: Card"

/-- The patterns exclude the template of the component. -/
def cardConfig : Config := { excludePatterns := ["card.w.html"] }

/-- A watch of the directory. -/
def cardSession : Session := (start cardConfig {} cardFiles false).1

/-- The style sheet of the sample lies directly in the directory of components. -/
private theorem liesBelow_card : Path.LiesBelow "./components" [] "components/card.css" where
  isAbsolute_eq := by decide +kernel
  resolved_eq := by decide +kernel

/-- The style sheet of the component passes the filter. Its template is left out by a scan, and
registered when the style sheet changes. -/
theorem registers_overlooked_iff_card :
    SourceFile.isIncluded cardConfig.excludePatterns "components/card.css" = true ∧
      SourceFile.isExcluded cardConfig.excludePatterns "./components" "components/card.w.html" =
        true ∧
      (∀ ts, Scan.templates cardFiles cardConfig.excludePatterns "./components" = .ok ts →
        "components/card.w.html" ∉ ts) ∧
      ∃ c ∈ (cardSession.apply cardFiles ["components/card.css"]).1.registry.components,
        c.file = "components/card.w.html" := by
  have hpass : SourceFile.isIncluded cardConfig.excludePatterns "components/card.css" = true := by
    decide +kernel
  have htemplate :
      SourceFile.templateFor? "components/card.css" = some "components/card.w.html" := by
    decide +kernel
  have hoverlooked : SourceFile.Overlooked cardConfig.excludePatterns [] "components/card.css"
      "components/card.w.html" :=
    .inl ⟨by decide, "card.w.html", List.mem_cons_self, by decide +kernel⟩
  have hread : (Scan.loadComponent cardFiles "components/card.w.html").isOk = true := by
    decide +kernel
  have hconfig : cardSession.config = cardConfig := by rw [cardSession, config_start]
  rw [← hconfig] at hpass hoverlooked ⊢
  obtain ⟨hexcluded, hskipped, hregistered⟩ :=
    registers_overlooked_iff liesBelow_card hpass htemplate
  refine ⟨hpass, hexcluded.2 hoverlooked, hskipped hoverlooked, ?_⟩
  refine (hregistered (by decide +kernel)).2 ?_
  cases hload : Scan.loadComponent cardFiles "components/card.w.html" with
  | error p =>
    rw [hload] at hread
    cases hread
  | ok c => exact ⟨c, rfl⟩

/-- A component that the first scan has left out is there after a change of its style sheet. -/
theorem registers_excluded_card :
    SourceFile.isIncluded cardConfig.excludePatterns "components/card.css" = true ∧
      SourceFile.templateFor? "components/card.css" = some "components/card.w.html" ∧
      SourceFile.isExcluded cardConfig.excludePatterns "./components" "components/card.w.html" =
        true ∧
      cardSession.registry.names = [] ∧
      (cardSession.apply cardFiles ["components/card.css"]).1.registry.names = ["Card"] := by
  decide +kernel

end Watch.Session

end ViewCompiler
