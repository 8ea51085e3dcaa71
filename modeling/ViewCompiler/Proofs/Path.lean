import Mathlib.Data.List.Infix
import ViewCompiler.Config.Basic
import ViewCompiler.Proofs.Text.Pieces

/-!
# Paths that leave their directory

A path that is read part by part goes down with every entry it names and up with every `..`, and
leaves the directory it starts from (`Leaves`) where it has gone up more often than down, whatever
comes behind. The scanner and the watcher look only for a `..` in the cleaned path. Resolving keeps
one just for a relative path that leaves (`dotDot_mem_resolved_iff`): what is left of the parts that
have been read is then headed by a `..` that nothing takes away, and until then it is as long as the
path is deep (`IsLeft`). So they refuse the paths that leave and no others (`confine_iff_leaves`).

`IsLeft` is the invariant of resolving: it tells what is left of the parts read so far from how
often they go up and down. One more part changes both in the same way, with one lemma for each kind
of part: one that stays, an entry that goes down, a `..` behind an entry, and a `..` that nothing
stands before.

An absolute path starts from the root, where `..` stays: nothing is left of its `..`, and it is
never refused for leaving.

Looking for `..` anywhere in the uncleaned path would refuse more, among it paths that come back
before they leave. Looking for it in front only is the same as looking for it anywhere, once a path
is clean.
-/

namespace ViewCompiler.Path

open ViewCompiler.Text

/-! ### Leaving a directory -/

/-- Whether a part of a path leads to an entry of the directory reached so far. Empty parts and `.`
stay there, and `..` goes up. -/
def isEntry (part : String) : Bool := part ≠ "" && part ≠ "." && part ≠ ".."

/-- Whether parts lead out of the directory they start from: up to some part, they have gone up more
often than down. -/
def Leaves (ps : List String) : Prop :=
  ∃ followed, followed <+: ps ∧ followed.countP isEntry < followed.count ".."

instance (ps : List String) : Decidable (Leaves ps) :=
  decidable_of_iff (∃ followed ∈ ps.inits, followed.countP isEntry < followed.count "..")
    (exists_congr fun _ => and_congr_left' (List.mem_inits _ _))

private theorem not_leaves_nil : ¬ Leaves [] := by
  rintro ⟨followed, hprefix, hlt⟩
  obtain rfl := List.prefix_nil.1 hprefix
  exact absurd hlt (Nat.lt_irrefl 0)

private theorem leaves_concat_iff {ps : List String} {part : String} :
    Leaves (ps ++ [part]) ↔
      Leaves ps ∨ (ps ++ [part]).countP isEntry < (ps ++ [part]).count ".." := by
  constructor
  · rintro ⟨followed, hprefix, hlt⟩
    rcases List.prefix_concat_iff.1 hprefix with rfl | hprefix
    · exact .inr hlt
    · exact .inl ⟨followed, hprefix, hlt⟩
  · rintro (⟨followed, hprefix, hlt⟩ | hlt)
    · exact ⟨followed, hprefix.trans (List.prefix_append _ _), hlt⟩
    · exact ⟨_, List.prefix_rfl, hlt⟩

/-- A part behind which the path is not above its directory does not lead out of it. -/
theorem leaves_concat_iff_leaves {ps : List String} {part : String}
    (h : ¬ Leaves ps → (ps ++ [part]).count ".." ≤ (ps ++ [part]).countP isEntry) :
    Leaves (ps ++ [part]) ↔ Leaves ps := by
  rw [leaves_concat_iff]
  exact ⟨fun hor => by_contra fun hps => hor.elim hps (h hps).not_gt, .inl⟩

/-! ### Resolving -/

/-- What is left of the parts of a relative path: a `..` once the path has left its directory, and
as many parts as the path is below it until then. -/
structure IsLeft (ps left : List String) : Prop where
  dotDot_mem_iff : ".." ∈ left ↔ Leaves ps
  level : ".." ∉ left → left.length + ps.count ".." = ps.countP isEntry

private theorem isLeft_nil : IsLeft [] [] where
  dotDot_mem_iff := iff_of_false List.not_mem_nil not_leaves_nil
  level _ := rfl

namespace IsLeft

variable {ps left : List String} (h : IsLeft ps left) {part : String}
include h

/-- A path that has not left its directory goes at least as often down as up. -/
theorem count_le (hps : ¬ Leaves ps) : ps.count ".." ≤ ps.countP isEntry := by
  have hlevel := h.level fun hmem => hps (h.dotDot_mem_iff.1 hmem)
  omega

/-- A part that changes nothing. -/
theorem stay (hentry : isEntry part = false) (hdots : part ≠ "..") :
    IsLeft (ps ++ [part]) left := by
  have hcount : (ps ++ [part]).count ".." = ps.count ".." := by simp [hdots]
  have hcountP : (ps ++ [part]).countP isEntry = ps.countP isEntry := by simp [hentry]
  have hsame : Leaves (ps ++ [part]) ↔ Leaves ps := leaves_concat_iff_leaves fun hps => by
    rw [hcount, hcountP]
    exact h.count_le hps
  exact ⟨h.dotDot_mem_iff.trans hsame.symm, fun hleft => by rw [hcount, hcountP, h.level hleft]⟩

/-- A part that leads to an entry. -/
theorem down (hentry : isEntry part = true) (hdots : part ≠ "..") :
    IsLeft (ps ++ [part]) (part :: left) := by
  have hcount : (ps ++ [part]).count ".." = ps.count ".." := by simp [hdots]
  have hcountP : (ps ++ [part]).countP isEntry = ps.countP isEntry + 1 := by simp [hentry]
  have hmem : ".." ∈ part :: left ↔ ".." ∈ left := by simp [hdots.symm]
  have hsame : Leaves (ps ++ [part]) ↔ Leaves ps := leaves_concat_iff_leaves fun hps => by
    rw [hcount, hcountP]
    exact Nat.le_succ_of_le (h.count_le hps)
  refine ⟨hmem.trans (h.dotDot_mem_iff.trans hsame.symm), fun hleft => ?_⟩
  have := h.level fun hmem' => hleft (hmem.2 hmem')
  rw [hcount, hcountP, List.length_cons]
  omega

/-- A `..` behind an entry takes it away. -/
theorem up {last : String} {rest : List String} (hcons : left = last :: rest)
    (hlast : last ≠ "..") :
    IsLeft (ps ++ [".."]) rest := by
  subst hcons
  have hcount : (ps ++ [".."]).count ".." = ps.count ".." + 1 := by simp
  have hcountP : (ps ++ [".."]).countP isEntry = ps.countP isEntry := by
    rw [List.countP_append]
    rfl
  have hmem : ".." ∈ last :: rest ↔ ".." ∈ rest := by simp [hlast.symm]
  have hlevel : ".." ∉ rest → rest.length + 1 + ps.count ".." = ps.countP isEntry :=
    fun hrest => h.level fun hmem' => hrest (hmem.1 hmem')
  have hsame : Leaves (ps ++ [".."]) ↔ Leaves ps := leaves_concat_iff_leaves fun hps => by
    have := hlevel fun hrest => hps (h.dotDot_mem_iff.1 (hmem.2 hrest))
    omega
  refine ⟨hmem.symm.trans (h.dotDot_mem_iff.trans hsame.symm), fun hrest => ?_⟩
  have := hlevel hrest
  omega

/-- A `..` that nothing stands before stays. -/
theorem leave (hleft : ∀ last ∈ left.head?, last = "..") :
    IsLeft (ps ++ [".."]) (".." :: left) := by
  refine ⟨iff_of_true List.mem_cons_self (leaves_concat_iff.2 ?_),
    fun hnot => absurd List.mem_cons_self hnot⟩
  cases left with
  | nil =>
    have hlevel := h.level List.not_mem_nil
    right
    rw [List.count_append, List.countP_append, ← hlevel]
    simp [isEntry]
  | cons last rest =>
    obtain rfl := hleft last rfl
    exact .inl (h.dotDot_mem_iff.1 List.mem_cons_self)

/-- One more part is taken as resolving takes it. -/
theorem concat (part : String) : IsLeft (ps ++ [part]) (step false left part) := by
  unfold step
  split
  · rename_i hstay
    simp only [Bool.or_eq_true, decide_eq_true_eq] at hstay
    rcases hstay with rfl | rfl <;> exact h.stay rfl (by decide)
  · rename_i hmove
    simp only [Bool.or_eq_true, decide_eq_true_eq, not_or] at hmove
    split
    · rename_i hdots
      subst hdots
      split
      · exact h.leave fun _ hlast => by cases hlast
      · rename_i last rest
        split
        · rename_i hlast
          rw [hlast] at h ⊢
          exact h.leave fun _ hlast => (Option.some.inj hlast).symm
        · rename_i hlast
          exact h.up rfl hlast
    · rename_i hdots
      exact h.down (by simp [isEntry, hmove, hdots]) hdots

end IsLeft

/-- What is left of a relative path. -/
private theorem isLeft_foldl_step (ps : List String) : IsLeft ps (ps.foldl (step false) []) := by
  induction ps using List.reverseRecOn with
  | nil => exact isLeft_nil
  | append_singleton ps part ih =>
    rw [List.foldl_append]
    exact ih.concat part

/-- Nothing is left of a `..` in an absolute path. -/
private theorem dotDot_notMem_foldl_step (ps : List String) : ".." ∉ ps.foldl (step true) [] := by
  induction ps using List.reverseRecOn with
  | nil => exact List.not_mem_nil
  | append_singleton ps part ih =>
    rw [List.foldl_append, List.foldl_cons, List.foldl_nil]
    generalize ps.foldl (step true) [] = left at ih ⊢
    unfold step
    grind

private theorem mem_of_mem_step {absolute : Bool} {left : List String} {part p : String}
    (h : p ∈ step absolute left part) : p ∈ left ∨ p = part := by
  unfold step at h
  grind

private theorem mem_of_mem_foldl_step {absolute : Bool} {ps left : List String} {p : String}
    (h : p ∈ ps.foldl (step absolute) left) : p ∈ left ∨ p ∈ ps := by
  induction ps generalizing left with
  | nil => exact .inl h
  | cons part ps ih =>
    rcases ih h with h | h
    · exact (mem_of_mem_step h).imp_right fun hp : p = part => hp ▸ List.mem_cons_self
    · exact .inr (List.mem_cons_of_mem _ h)

/-- Whatever is left of a path is one of its parts. -/
private theorem mem_parts_of_mem_resolved {path p : String} (h : p ∈ resolved path) :
    p ∈ parts path :=
  (mem_of_mem_foldl_step (List.mem_reverse.1 h)).resolve_left List.not_mem_nil

theorem dotDot_mem_resolved_iff {path : String} :
    ".." ∈ resolved path ↔ isAbsolute path = false ∧ Leaves (parts path) := by
  unfold resolved
  rw [List.mem_reverse]
  cases isAbsolute path with
  | true => exact iff_of_false (dotDot_notMem_foldl_step _) fun h => by cases h.1
  | false => exact (isLeft_foldl_step _).dotDot_mem_iff.trans (and_iff_right rfl).symm

/-! ### Clean paths -/

theorem notMem_of_mem_parts {path part : String} (h : part ∈ parts path) : '/' ∉ part.toList := by
  obtain ⟨piece, hpiece, rfl⟩ := List.mem_map.1 h
  rw [String.toList_ofList]
  exact notMem_of_mem_splitOn hpiece

theorem parts_join {ps : List String} (hps : ps ≠ []) (h : ∀ part ∈ ps, '/' ∉ part.toList) :
    parts (join "/" ps) = ps := by
  have hsplit : splitOn '/' (join "/" ps).toList = ps.map String.toList := splitOn_join hps h
  rw [parts, split, hsplit, List.map_map]
  simp [Function.comp_def]

/-- A clean path has the parts that it is made of; an empty part or `.` beside them is no `..`. -/
theorem dotDot_mem_parts_ofParts_iff {absolute : Bool} {ps : List String}
    (h : ∀ part ∈ ps, '/' ∉ part.toList) : ".." ∈ parts (ofParts absolute ps) ↔ ".." ∈ ps := by
  by_cases hnil : ps = []
  · subst hnil
    cases absolute <;> decide
  · cases absolute with
    | true =>
      have hroot : parts ("/" ++ join "/" ps) = "" :: parts (join "/" ps) := by
        simp [parts, split, splitOn]
      rw [ofParts, if_pos rfl, hroot, parts_join hnil h]
      simp
    | false =>
        rw [ofParts, if_neg Bool.false_ne_true, if_neg (by simpa using hnil), parts_join hnil h]

/-- The paths that have a `..` after cleaning are those that leave their directory. -/
theorem escapes_iff {path : String} :
    escapes path = true ↔ isAbsolute path = false ∧ Leaves (parts path) := by
  rw [escapes, List.contains_iff_mem, clean, dotDot_mem_parts_ofParts_iff fun part hpart =>
    notMem_of_mem_parts (mem_parts_of_mem_resolved hpart), dotDot_mem_resolved_iff]

/-- A configured path that is accepted stays in its directory. -/
private theorem escapes_of_pathFault? {path : String} (h : Config.pathFault? path = none) :
    escapes path = false := by
  unfold Config.pathFault? at h
  split at h
  · cases h
  · split at h
    · cases h
    · split at h
      · cases h
      · exact eq_false_of_ne_true ‹_›

/-- Paths that leave their directory are refused, and all others are cleaned; a configuration
accepts no path that is refused. -/
theorem confine_iff_leaves {path : String} (hnul : hasNul path = false) :
    ((∃ fault, confine path = .error fault) ↔ isAbsolute path = false ∧ Leaves (parts path)) ∧
      (¬ (isAbsolute path = false ∧ Leaves (parts path)) → confine path = .ok (clean path)) ∧
      (Config.pathFault? path = none → confine path = .ok (clean path)) := by
  rw [← escapes_iff]
  have hconfine : escapes path = false → confine path = .ok (clean path) :=
    fun hescapes => confine_eq_ok_iff.2 ⟨hnul, hescapes, rfl⟩
  refine ⟨⟨?_, fun hescapes => ⟨.escape path, ?_⟩⟩, ?_, ?_⟩
  · rintro ⟨fault, hfault⟩
    refine eq_true_of_ne_false fun hescapes => ?_
    cases hfault.symm.trans (hconfine hescapes)
  · rw [confine, hnul, if_neg Bool.false_ne_true, if_pos hescapes]
  · exact fun hescapes => hconfine (eq_false_of_ne_true hescapes)
  · exact fun haccepted => hconfine (escapes_of_pathFault? haccepted)

/-- A path that leaves its directory and comes back is refused; one that stays in it is cleaned. -/
theorem confine_iff_leaves_cards :
    (Leaves (parts "cards//../../app/cards") ∧
      ∃ fault, confine "cards//../../app/cards" = .error fault) ∧
    (¬ Leaves (parts "cards/./a/../b//") ∧ Config.pathFault? "cards/./a/../b//" = none ∧
      confine "cards/./a/../b//" = .ok "cards/b") := by
  have hleaves : Leaves (parts "cards//../../app/cards") := by decide
  have hstays : ¬ Leaves (parts "cards/./a/../b//") := by decide
  have haccepted : Config.pathFault? "cards/./a/../b//" = none := by decide
  exact ⟨⟨hleaves, (confine_iff_leaves rfl).1.2 ⟨rfl, hleaves⟩⟩,
    hstays, haccepted, (confine_iff_leaves rfl).2.2 haccepted⟩

end ViewCompiler.Path
