import ViewCompiler.Config.Load
import ViewCompiler.Config.Report
import ViewCompiler.Proofs.Outcome

/-!
# The two judgements on a configuration

A configuration is judged twice: refused at the first thing that is wrong with it, or reported on,
with everything that is wrong. Section by section, the first error of the report is about what the
configuration is refused for (`firstSubject?_report`), but for the name of the root, which only the
report looks at. So the two judgements agree on every configuration with a root, and a configuration
that was loaded has one (`validate_iff_report`).

The two do not share their rules, nor the words in which they put things. What they share is the
subject: a field and the value that it is shown with (`Fault.subject`, `Issue.subject`). Comparing
subjects is enough, since a section is refused for its first fault and the report lists its issues
in the same order.

Only errors count. The report also warns, of a path that does not exist for example, and a
configuration with warnings is valid. What exists is given to the report from outside, and the
comparison holds whatever it is.
-/

namespace ViewCompiler.Config

open ViewCompiler.Text

/-! ### Subjects -/

/-- What a fault is about: a field, and the value it is shown with. -/
def Fault.subject : Fault → String × String
  | noScanPaths => ("components.scan_paths", shownList [])
  | scanPath path _ => ("components.scan_paths", path)
  | excludePattern pattern => ("components.exclude_patterns", pattern)
  | format name => ("compile.format", name)
  | workers n => ("compile.workers", toString n)
  | output path _ => ("compile.output", path)
  | debounce d => ("watch.debounce", d.text)
  | logLevel name => ("log.level", name)
  | logFormat name => ("log.format", name)

/-- What an issue is about. -/
def Issue.subject (i : Issue) : String × String := (i.field, i.value)

namespace Report

/-- What the first error of a report is about. -/
def firstSubject? (r : Report) : Option (String × String) := r.errors.head?.map Issue.subject

@[simp]
theorem firstSubject?_empty : ({} : Report).firstSubject? = none := rfl

@[simp]
theorem firstSubject?_error (i : Issue) : (error i).firstSubject? = some i.subject := rfl

@[simp]
theorem firstSubject?_warning (i : Issue) : (warning i).firstSubject? = none := rfl

@[simp]
theorem firstSubject?_append (a b : Report) :
    (a ++ b).firstSubject? = a.firstSubject?.or b.firstSubject? := by
  rw [firstSubject?, errors_append, List.head?_append, Option.map_or]
  rfl

private theorem firstSubject?_join (rs : List Report) :
    (join rs).firstSubject? = rs.findSome? firstSubject? := by
  induction rs with
  | nil => rfl
  | cons r rs ih =>
    have hcons : join (r :: rs) = r ++ join rs := rfl
    rw [hcons, firstSubject?_append, ih, List.findSome?_cons]
    cases r.firstSubject? <;> rfl

/-- There is no first subject exactly if there are no errors. -/
theorem firstSubject?_eq_none_iff {r : Report} : r.firstSubject? = none ↔ r.errors = [] := by
  rw [firstSubject?, Option.map_eq_none_iff, List.head?_eq_none_iff]

end Report

/-! ### Sections -/

/-- The report on a scan path names what the first fault of the path names. -/
private theorem firstSubject?_scanPathReport (exists_ : String → Bool) (path : String) :
    (scanPathReport exists_ path).firstSubject? =
      (pathFault? path).map fun fault => (Fault.scanPath path fault).subject := by
  unfold scanPathReport
  cases pathFault? path with
  | some fault => rfl
  | none => cases exists_ path <;> rfl

/-- The report on a pattern names the pattern exactly if it is malformed. -/
private theorem firstSubject?_patternReport (pattern : String) :
    (patternReport pattern).firstSubject? =
      if (Glob.ofString? pattern).isNone then some (Fault.excludePattern pattern).subject
        else none := by
  unfold patternReport
  cases Glob.ofString? pattern <;> rfl

variable (c : Config)

/-- The report on components names what their first fault names. -/
private theorem firstSubject?_componentsReport (exists_ : String → Bool) :
    (c.componentsReport exists_).firstSubject? = c.componentsFault?.map Fault.subject := by
  have hpaths : (Report.join (c.scanPaths.map (scanPathReport exists_))).firstSubject? =
      (c.scanPaths.findSome? fun p => (pathFault? p).map (.scanPath p)).map Fault.subject := by
    rw [Report.firstSubject?_join, List.findSome?_map, List.map_findSome?]
    congr 1
    funext path
    rw [Function.comp_apply, firstSubject?_scanPathReport, Function.comp_apply, Option.map_map]
    rfl
  have hpatterns : (Report.join (c.excludePatterns.map patternReport)).firstSubject? =
      ((c.excludePatterns.find? fun p => (Glob.ofString? p).isNone).map Fault.excludePattern).map
        Fault.subject := by
    rw [Report.firstSubject?_join, List.findSome?_map, List.find?_eq_findSome?_guard,
      List.map_findSome?,
      List.map_findSome?]
    congr 1
    funext pattern
    rw [Function.comp_apply, firstSubject?_patternReport]
    cases hpattern : (Glob.ofString? pattern).isNone <;> simp [Option.guard, hpattern]
  have htests : ∀ i, (if c.excludePatterns.any (contains "_test.w.html") then {} else
      Report.warning i : Report).firstSubject? = none := by
    intro i
    split <;> rfl
  unfold componentsReport componentsFault?
  simp only [Report.firstSubject?_append, hpaths, hpatterns, htests, Option.or_none]
  split
  · rename_i hnone
    rw [List.isEmpty_iff.1 hnone]
    rfl
  · rw [Option.map_or]
    rfl

/-- The report on compilation names what its first fault names. -/
private theorem firstSubject?_compileReport (hroot : c.root ≠ "") :
    c.compileReport.firstSubject? = c.compileFault?.map Fault.subject := by
  unfold compileReport compileFault?
  simp only [Report.firstSubject?_append, if_pos hroot]
  cases formats.contains c.format with
  | false => rfl
  | true =>
    by_cases hfew : c.workers < 1
    · simp [hfew, Fault.subject, Issue.subject]
    · -- too many workers are no error
      have hmany : ∀ i, (if c.workers > 64 then Report.warning i else {}).firstSubject? = none := by
        intro i
        split <;> rfl
      simp only [if_true, if_neg hfew, Report.firstSubject?_empty, hmany, Option.none_or]
      by_cases hstandard : c.output = ""
      · simp [hstandard]
      · cases hfault : pathFault? c.output <;> simp [hstandard, Fault.subject, Issue.subject]

/-- The report on watching names what its first fault names. -/
private theorem firstSubject?_watchReport :
    c.watchReport.firstSubject? = c.watchFault?.map Fault.subject := by
  unfold watchReport watchFault?
  split
  · rfl
  · split <;> rfl

/-- The report on logging names what its first fault names. -/
private theorem firstSubject?_logReport :
    c.logReport.firstSubject? = c.logFault?.map Fault.subject := by
  unfold logReport logFault?
  cases isLevel c.logLevel <;> cases isLogFormat c.logFormat <;> rfl

/-- The first error of a report is about what the configuration is refused for. -/
theorem firstSubject?_report (hroot : c.root ≠ "") (exists_ : String → Bool) :
    (c.report exists_).firstSubject? = c.fault?.map Fault.subject := by
  -- Settling whether the report is valid changes nothing about its errors.
  change Report.firstSubject? (c.componentsReport exists_ ++ c.compileReport ++ c.watchReport ++
    c.logReport) = _
  simp only [fault?, Report.firstSubject?_append, Option.map_or, c.firstSubject?_componentsReport,
    c.firstSubject?_compileReport hroot, c.firstSubject?_watchReport, c.firstSubject?_logReport]

/-! ### The two judgements -/

/-- A report says that it is valid exactly if it has no error. -/
theorem isValid_report_iff (exists_ : String → Bool) :
    (c.report exists_).isValid = true ↔ (c.report exists_).errors = [] := by
  have hsettled : (c.report exists_).isValid = !(c.report exists_).hasErrors := rfl
  rw [hsettled, Report.hasErrors, Bool.not_not, List.isEmpty_iff]

/-- Validation succeeds exactly where there is no fault, and changes nothing. -/
theorem validate_eq_ok_iff {c c' : Config} : c.validate = .ok c' ↔ c.fault? = none ∧ c' = c := by
  unfold validate
  cases c.fault? <;> simp [eq_comm]

/-- A configuration that was loaded has a root, and nothing is wrong with it. -/
private theorem of_load_eq_ok {s : Sources} {c : Config} (h : load s = .ok c) :
    c.root ≠ "" ∧ c.fault? = none := by
  unfold load at h
  simp only at h
  split at h
  · cases h
  obtain ⟨scanPaths, -, h⟩ := bind_eq_ok_iff.1 h
  obtain ⟨excludePatterns, -, h⟩ := bind_eq_ok_iff.1 h
  obtain ⟨root, hroot, h⟩ := bind_eq_ok_iff.1 h
  obtain ⟨output, -, h⟩ := bind_eq_ok_iff.1 h
  obtain ⟨format, -, h⟩ := bind_eq_ok_iff.1 h
  obtain ⟨workers, -, h⟩ := bind_eq_ok_iff.1 h
  obtain ⟨debounce, -, h⟩ := bind_eq_ok_iff.1 h
  obtain ⟨logLevel, -, h⟩ := bind_eq_ok_iff.1 h
  obtain ⟨logFormat, -, h⟩ := bind_eq_ok_iff.1 h
  obtain ⟨hfault, rfl⟩ := validate_eq_ok_iff.1 (mapError_eq_ok_iff.1 h)
  refine ⟨?_, hfault⟩
  obtain ⟨v, -, hv⟩ := bind_eq_ok_iff.1 hroot
  obtain rfl := Except.ok.inj hv
  change (if v = "" then "App" else v) ≠ ""
  split
  · decide
  · assumption

/-- A configuration with a root is accepted exactly if no error is reported on it, whatever exists.
One that was loaded has a root, and no error is reported on it either. A report is valid if it has
no error. -/
theorem validate_iff_report (c : Config) (exists_ : String → Bool) :
    (c.root ≠ "" → (c.validate = .ok c ↔ (c.report exists_).errors = [])) ∧
      (∀ s, load s = .ok c → c.root ≠ "" ∧ (c.report exists_).errors = []) ∧
      ((c.report exists_).isValid = true ↔ (c.report exists_).errors = []) := by
  have herrors : c.root ≠ "" → (c.fault? = none ↔ (c.report exists_).errors = []) := by
    intro hroot
    rw [← Report.firstSubject?_eq_none_iff, c.firstSubject?_report hroot, Option.map_eq_none_iff]
  refine ⟨fun hroot => ?_, fun s hload => ?_, isValid_report_iff c exists_⟩
  · rw [validate_eq_ok_iff, and_iff_left rfl, herrors hroot]
  · obtain ⟨hroot, hfault⟩ := of_load_eq_ok hload
    exact ⟨hroot, (herrors hroot).1 hfault⟩

namespace Sample

/-- Settings of a file, one of them overruled by a flag. -/
def sources : Sources :=
  { file := .group [("Compile", .group [("workers", .number 80), ("root", .text "")]),
      ("components",
        .group [("scan_paths", .text "./cards,./pages"), ("exclude_patterns", .text "*.[ab]")])]
    flags := [⟨"compile", "format", "json", true⟩] }

def config : Config :=
  { scanPaths := ["./cards", "./pages"], excludePatterns := ["*.[ab]"], format := "json",
    workers := 80 }

end Sample

/-- A report on a loaded configuration warns of what does not exist, but has no error. -/
theorem validate_iff_report_sample :
    load Sample.sources = .ok Sample.config ∧ Sample.config.root ≠ "" ∧
      (Sample.config.validate = .ok Sample.config ↔
        (Sample.config.report fun path => path = "./cards").errors = []) ∧
      (Sample.config.report fun path => path = "./cards").errors = [] ∧
      (Sample.config.report fun path => path = "./cards").warnings.length = 3 := by
  have hload : load Sample.sources = .ok Sample.config := toOption_eq_some_iff.1 (by decide +kernel)
  obtain ⟨hiff, hloaded, -⟩ := validate_iff_report Sample.config fun path => path = "./cards"
  obtain ⟨hroot, herrors⟩ := hloaded Sample.sources hload
  exact ⟨hload, hroot, hiff hroot, herrors, by decide +kernel⟩

end ViewCompiler.Config
