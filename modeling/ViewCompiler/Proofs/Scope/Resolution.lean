import ViewCompiler.Proofs.Scope.Tree

/-!
# Resolved trees

What a successful build guarantees about names. A value is admitted by the frames in which it is
read when every name in it has a nearest declaration of the right kind; a built tree is laid out by
expansion and admits every value it reads (`Tree.build_eq_ok_iff`).
-/

namespace ViewCompiler

open ViewCompiler.Template

/-! ### Declarations -/

/-- What a frame declares: the members of its component, or its loop variables. -/
theorem Frame.declares?_eq_some {f : Frame} {name : String} {kind : RefKind}
    (h : f.declares? name = some kind) :
    (∃ m, f.role = .component m ∧
      (kind = .property ∧ m.member? name = some .property ∨
        kind = .getter ∧ m.member? name = some .getter ∨
        kind = .method ∧ m.member? name = some .method)) ∨
    ∃ loop, f.role = .repeating loop ∧ (kind = .item ∨ kind = .index) := by
  unfold Frame.declares? at h
  split at h
  · rename_i m hrole
    left
    refine ⟨m, hrole, ?_⟩
    split at h <;> simp_all
  · cases h
  · rename_i loop hrole
    right
    refine ⟨loop, hrole, ?_⟩
    split at h
    · exact .inl (Option.some.inj h).symm
    · split at h
      · exact .inr (Option.some.inj h).symm
      · cases h

/-- A member is a property exactly when it is listed as one. -/
theorem Metadata.member?_eq_property_iff {m : Metadata} {name : String} :
    m.member? name = some .property ↔ name ∈ m.properties := by
  unfold Metadata.member?
  by_cases hp : name ∈ m.properties
  · simp [hp]
  · simp only [List.contains_eq_mem, hp, decide_false, Bool.false_eq_true, ↓reduceIte, iff_false]
    split
    · simp
    · split <;> simp

theorem Frame.metadata?_eq_some_iff {f : Frame} {m : Metadata} :
    f.metadata? = some m ↔ f.role = .component m := by
  unfold Frame.metadata?
  split <;> simp_all

namespace Frames

/-- The declaration of a name is the first one from the inside out. -/
theorem resolve?_eq_some_iff {fs : Frames} {name : String} {o : Origin} :
    fs.resolve? name = some o ↔
      ∃ inner, fs = inner ++ o.frame :: o.outer ∧ (∀ f ∈ inner, f.declares? name = none) ∧
        o.frame.declares? name = some o.kind := by
  induction fs with
  | nil => simp [resolve?]
  | cons f outer ih =>
    unfold resolve?
    split
    · rename_i kind hf
      -- The innermost frame declares the name, so nothing stands inside its frame.
      constructor
      · intro ho
        obtain rfl := Option.some.inj ho
        exact ⟨[], rfl, by simp, hf⟩
      · rintro ⟨inner, hsplit, hnone, hdecl⟩
        cases inner with
        | nil =>
          obtain ⟨rfl, rfl⟩ := List.cons.inj hsplit
          rw [hf] at hdecl
          cases hdecl
          rfl
        | cons g inner =>
          obtain ⟨rfl, -⟩ := List.cons.inj hsplit
          rw [hnone f List.mem_cons_self] at hf
          cases hf
    · rename_i hf
      rw [ih]
      constructor
      · rintro ⟨inner, rfl, hnone, hdecl⟩
        exact ⟨f :: inner, rfl, List.forall_mem_cons.2 ⟨hf, hnone⟩, hdecl⟩
      · rintro ⟨inner, hsplit, hnone, hdecl⟩
        cases inner with
        | nil =>
          obtain ⟨rfl, -⟩ := List.cons.inj hsplit
          rw [hf] at hdecl
          cases hdecl
        | cons g inner =>
          obtain ⟨rfl, rfl⟩ := List.cons.inj hsplit
          exact ⟨inner, rfl, (List.forall_mem_cons.1 hnone).2, hdecl⟩

/-- The frames from a declaration outwards are around every place that refers to it. -/
theorem suffix_of_resolve? {fs : Frames} {name : String} {o : Origin}
    (h : fs.resolve? name = some o) : (o.frame :: o.outer) <:+ fs := by
  obtain ⟨inner, rfl, -, -⟩ := resolve?_eq_some_iff.1 h
  exact List.suffix_append _ _

theorem declares?_of_resolve? {fs : Frames} {name : String} {o : Origin}
    (h : fs.resolve? name = some o) : o.frame.declares? name = some o.kind := by
  obtain ⟨_, -, -, hdecl⟩ := resolve?_eq_some_iff.1 h
  exact hdecl

/-! ### Admitted values -/

/-- The name can be read here: its nearest declaration is no method. -/
def Reads (fs : Frames) (name : String) : Prop := ∃ o, fs.resolve? name = some o ∧ o.kind ≠ .method

/-- The name can be called here: its nearest declaration is a method. -/
def Calls (fs : Frames) (name : String) : Prop := ∃ o, fs.resolve? name = some o ∧ o.kind = .method

/-- Every name in an argument resolves here. -/
def AdmitsArgument (fs : Frames) : Argument → Prop
  | .access path => fs.Reads path.root
  | .literal _ | .payload => True

/-- Every name in a value resolves here. -/
def Admits (fs : Frames) : Value → Prop
  | .text _ | .literal _ => True
  | .access path => fs.Reads path.root
  | .call method arguments => fs.Calls method ∧ ∀ a ∈ arguments, fs.AdmitsArgument a

end Frames

/-- A check accepts exactly the mentions whose nearest declaration has an accepted kind. -/
theorem Mention.check_eq_ok_iff {m : Mention} {accept : RefKind → Option String} :
    m.check accept = .ok () ↔ ∃ o, m.frames.resolve? m.name = some o ∧ accept o.kind = none := by
  unfold Mention.check
  cases hr : m.frames.resolve? m.name with
  | none => simp
  | some o =>
    cases ha : accept o.kind with
    | none => simp [ha]
    | some reason => simp [ha]

private theorem checkAccess_eq_ok_iff {m : Mention} :
    m.checkAccess = .ok () ↔ m.frames.Reads m.name := by
  rw [Mention.checkAccess, Mention.check_eq_ok_iff]
  refine exists_congr fun o => and_congr_right fun _ => ?_
  by_cases hk : o.kind = .method <;> simp [hk]

private theorem checkCall_eq_ok_iff {m : Mention} :
    m.checkCall = .ok () ↔ m.frames.Calls m.name := by
  rw [Mention.checkCall, Mention.check_eq_ok_iff]
  refine exists_congr fun o => and_congr_right fun _ => ?_
  by_cases hk : o.kind = .method <;> simp [hk]

private theorem checkArgument_eq_ok_iff {b : Binding} {fs : Frames} {a : Argument} :
    checkArgument b fs a = .ok () ↔ fs.AdmitsArgument a := by
  cases a with
  | access path => exact checkAccess_eq_ok_iff
  | literal => simp [checkArgument, Frames.AdmitsArgument]
  | payload => simp [checkArgument, Frames.AdmitsArgument]

private theorem checkValue_eq_ok_iff {b : Binding} {fs : Frames} :
    checkValue b fs = .ok () ↔ fs.Admits b.value := by
  unfold checkValue
  cases hv : b.value with
  | text => simp [Frames.Admits]
  | literal => simp [Frames.Admits]
  | access path => exact checkAccess_eq_ok_iff
  | call method arguments =>
    simp only [List.forM_eq_forM]
    rw [bind_eq_ok_iff]
    simp only [forM_eq_ok_iff, checkArgument_eq_ok_iff, Frames.Admits, ← checkCall_eq_ok_iff (m :=
      ⟨method, (Value.call method arguments).render, b, fs⟩)]
    constructor
    · rintro ⟨⟨⟩, hcall, hargs⟩
      exact ⟨hcall, hargs⟩
    · rintro ⟨hcall, hargs⟩
      exact ⟨(), hcall, hargs⟩

/-- An input or output names a property of the component it feeds. -/
def Placed.Targets (p : Placed) (b : Binding) : Prop :=
  b.kind = .input ∨ b.kind = .output →
    ∀ m, p.frame.metadata? = some m → m.member? b.name = some .property

private theorem checkTarget_eq_ok_iff {p : Placed} {b : Binding} :
    checkTarget p b = .ok () ↔ p.Targets b := by
  unfold checkTarget Placed.Targets
  split
  · rename_i m hk hm
    by_cases hp : m.member? b.name = some .property <;> simp [hk, hm, hp]
  · rename_i m hk hm
    by_cases hp : m.member? b.name = some .property <;> simp [hk, hm, hp]
  · rename_i hin hout
    simp only [true_iff]
    rintro (hk | hk) m hm
    · exact (hin m hk hm).elim
    · exact (hout m hk hm).elim

/-! ### Built trees -/

/-- Every name that a scope reads resolves, and what feeds it names its properties. -/
structure Placed.Resolves (p : Placed) : Prop where
  own : ∀ b ∈ p.ownBindings, p.frames.Admits b.value
  fed : ∀ b ∈ p.frame.feeds, p.outer.Admits b.value
  targets : ∀ b ∈ p.frame.feeds, p.Targets b

theorem Placed.check_eq_ok_iff {p : Placed} : p.check = .ok () ↔ p.Resolves := by
  unfold Placed.check
  simp only [List.forM_eq_forM]
  rw [bind_eq_ok_iff]
  constructor
  · rintro ⟨⟨⟩, hown, hfed⟩
    have hfed := forM_eq_ok_iff.1 hfed
    refine ⟨fun b hb => ?_, fun b hb => ?_, fun b hb => ?_⟩
    · exact checkValue_eq_ok_iff.1 (forM_eq_ok_iff.1 hown b hb)
    · obtain ⟨-, -, hv⟩ := bind_eq_ok_iff.1 (hfed b hb)
      exact checkValue_eq_ok_iff.1 hv
    · obtain ⟨⟨⟩, ht, -⟩ := bind_eq_ok_iff.1 (hfed b hb)
      exact checkTarget_eq_ok_iff.1 ht
  · rintro ⟨hown, hfed, htargets⟩
    refine ⟨(), forM_eq_ok_iff.2 fun b hb => ?_, forM_eq_ok_iff.2 fun b hb => ?_⟩
    · exact checkValue_eq_ok_iff.2 (hown b hb)
    · exact bind_eq_ok_iff.2
        ⟨(), checkTarget_eq_ok_iff.2 (htargets b hb), checkValue_eq_ok_iff.2 (hfed b hb)⟩

/-- A build succeeds exactly when the root is laid out and every name in it resolves. -/
theorem Tree.build_eq_ok_iff {lib : Library} {firstId : Nat} {d : Option Definition} {t : Tree} :
    Tree.build lib firstId d = .ok t ↔
      Scope.ofDefinition lib firstId d = .ok (t.root, t.nextId) ∧ ∀ p ∈ t.scopes, p.Resolves := by
  unfold Tree.build
  rw [bind_eq_ok_iff]
  constructor
  · rintro ⟨⟨root, nextId⟩, hlaid, h⟩
    obtain ⟨⟨⟩, hcheck, h⟩ := bind_eq_ok_iff.1 h
    obtain rfl : _ = t := Except.ok.inj h
    rw [List.forM_eq_forM, forM_eq_ok_iff] at hcheck
    exact ⟨hlaid, fun p hp => Placed.check_eq_ok_iff.1 (hcheck p hp)⟩
  · rintro ⟨hlaid, hresolves⟩
    refine ⟨_, hlaid, bind_eq_ok_iff.2 ⟨(), ?_, rfl⟩⟩
    rw [List.forM_eq_forM, forM_eq_ok_iff]
    exact fun p hp => Placed.check_eq_ok_iff.2 (hresolves p hp)

end ViewCompiler
