import ViewCompiler.Proofs.Scope.Change
import ViewCompiler.Scope.Classification

/-!
# Classifying never fails

In frames that admit a value, and whose feeds resolve further out, classifying the value succeeds
and gives the answer of `Frames.valueConstant` (`Frames.classify_eq`). So all values of a built tree
are classified, and every value that a scope reads is found in the classification
(`Tree.get_constants`).

Classifying can fail in three places: where a name does not resolve, where a method is read or
something else is called, and where an input is fed by a value that cannot be classified itself. The
first two are what the frames of a built tree exclude, since every value in them is admitted
(`Frames.Admits`). For the third the frames have to be fed, from each frame outwards
(`Frames.Fed`): an input is classified by classifying the value that feeds it, in the frames
around the instance, and those are fewer. The induction is on the number of frames.

The classification of a tree is one long list of entries, made scope by scope and binding by
binding. An entry is looked for by the number of its scope, the index of its node and its place
there. As a scope stands in the tree once, the entries of a scope are those that its own bindings
have made, and as a node is saved once, the same holds within a scope (`lookup_flatMap_of_nodup`).
-/

namespace ViewCompiler

open ViewCompiler.Template

/-! ### Names -/

/-- Classifies what a declaration stands for, read as a path or `called` as a method. -/
def Frames.Origin.classify (called : Bool) (o : Frames.Origin) (name : String) :
    Except Problem Bool :=
  match called, o.kind, o.frame.role with
  | true, _, .component m => Frames.classifyInstance o.outer.classify o.frame m
  | true, _, _ => .error (.violation s!"call {name} resolved to a scope without metadata")
  | false, .property, .component m => Frames.classifyProperty o.outer.classify o.frame m name
  | false, .getter, .component m => Frames.classifyInstance o.outer.classify o.frame m
  | false, .item, .repeating _ | false, .index, .repeating _ =>
    match o.frame.feeds.find? (·.kind = .repeatSource) with
    | some b => o.outer.classify b.value
    | none => .error (.violation s!"{o.frame.text} has no source")
  | false, kind, _ => .error (.violation s!"property access {name} resolved to {kind.name}")

/-- A name is classified by its nearest declaration. -/
theorem Frames.classifyName_of_resolve? {called : Bool} {fs : Frames} {name : String}
    {o : Frames.Origin} (h : fs.resolve? name = some o) :
    classifyName called fs name = o.classify called name := by
  induction fs with
  | nil => cases h
  | cons f outer ih =>
    unfold Frames.resolve? at h
    unfold Frames.classifyName
    split at h
    · rename_i kind hd
      obtain rfl := Option.some.inj h
      simp only [hd]
      rfl
    · rename_i hd
      simp only [hd]
      exact ih h

section Declaration

variable {f : Frame} {outer : Frames}
  (hout : ∀ b ∈ f.feeds, outer.classify b.value = .ok (outer.valueConstant b.value))
include hout

private theorem Frames.classifyProperty_eq (m : Metadata) (q : String) :
    classifyProperty outer.classify f m q = .ok (propertyConstant f outer m q) := by
  unfold classifyProperty propertyConstant propertyConstantWith
  cases m.canMutate q with
  | true => rfl
  | false =>
    cases hinput : f.input? q with
    | none => rfl
    | some b => exact hout b (anyInput_of_lastInput hinput).1

private theorem Frames.classifyInstance_eq (m : Metadata) :
    classifyInstance outer.classify f m = .ok (m.properties.all (propertyConstant f outer m)) :=
  allM_eq_ok fun q _ => classifyProperty_eq hout m q

/-- A method is called through an instance, whose properties can be classified. -/
private theorem Frames.classifyName_call {fs : Frames} {name : String}
    (ho : fs.resolve? name = some ⟨.method, f, outer⟩) :
    classifyName true fs name = .ok (fs.nameConstant name) := by
  obtain ⟨m, hm, hconstant⟩ := nameConstant_instance (.inr rfl) ho
  rw [classifyName_of_resolve? ho, hconstant, ← classifyInstance_eq hout m]
  simp only [Origin.classify, Frame.metadata?_eq_some_iff.1 hm]

/-- What is read and no method is a property, a getter or a loop variable, and can be classified. -/
private theorem Frames.classifyName_read {fs : Frames} {name : String} {kind : RefKind}
    (hfed : f.IsFed) (hkind : kind ≠ .method) (ho : fs.resolve? name = some ⟨kind, f, outer⟩) :
    classifyName false fs name = .ok (fs.nameConstant name) := by
  rw [classifyName_of_resolve? ho]
  -- The one binding that feeds a loop is its source.
  have hloop (hk : kind = .item ∨ kind = .index) :
      Origin.classify false ⟨kind, f, outer⟩ name = .ok (fs.nameConstant name) := by
    obtain ⟨loop, hrole, hconstant⟩ := nameConstant_loop hk ho
    obtain ⟨b, hb, hsource⟩ := hfed.source loop hrole
    have hmem : b ∈ f.feeds := hb ▸ List.mem_singleton_self b
    have hvalue := hout b hmem
    rcases hk with rfl | rfl <;>
      simp [Origin.classify, hrole, hb, hsource, hvalue, hconstant]
  cases kind with
  | method => exact (hkind rfl).elim
  | property =>
    obtain ⟨m, hm, -, hconstant⟩ := nameConstant_property ho
    rw [hconstant, ← classifyProperty_eq hout m]
    simp only [Origin.classify, Frame.metadata?_eq_some_iff.1 hm]
  | getter =>
    obtain ⟨m, hm, hconstant⟩ := nameConstant_instance (.inl rfl) ho
    rw [hconstant, ← classifyInstance_eq hout m]
    simp only [Origin.classify, Frame.metadata?_eq_some_iff.1 hm]
  | item => exact hloop (.inl rfl)
  | index => exact hloop (.inr rfl)

end Declaration

/-! ### Values -/

namespace Frames

variable {fs : Frames}

/-- A value is classified when its names are. -/
theorem classify_eq_of_names {v : Value} (hv : fs.Admits v)
    (hreads : ∀ name, fs.Reads name → classifyName false fs name = .ok (fs.nameConstant name))
    (hcalls : ∀ name, fs.Calls name → classifyName true fs name = .ok (fs.nameConstant name)) :
    fs.classify v = .ok (fs.valueConstant v) := by
  cases v with
  | text => rfl
  | literal => rfl
  | access path => exact hreads path.root hv
  | call method arguments =>
    have harguments : arguments.mapM (classifyArgument fs) =
        .ok (arguments.map (argumentConstant fs)) := by
      refine mapM_eq_ok fun a ha => ?_
      cases a with
      | literal => rfl
      | access path => exact hreads path.root (hv.2 _ ha)
      | payload => rfl
    have hcall := hcalls method hv.1
    rw [classify, harguments]
    change classifyName true fs method >>= _ = _
    rw [hcall]
    change Except.ok (_ && _) = Except.ok (_ && _)
    rw [List.all_map, Bool.and_comm]
    rfl

/-- In frames that are fed, names that resolve are classified. -/
theorem classifyName_eq (hfed : fs.Fed) (name : String) :
    (fs.Reads name → classifyName false fs name = .ok (fs.nameConstant name)) ∧
      (fs.Calls name → classifyName true fs name = .ok (fs.nameConstant name)) := by
  induction hlength : fs.length using Nat.strong_induction_on generalizing fs name with
  | _ n ih =>
    -- What feeds the declaration is read in fewer frames.
    have hout : ∀ o, fs.resolve? name = some o → ∀ b ∈ o.frame.feeds,
        o.outer.classify b.value = .ok (o.outer.valueConstant b.value) := by
      intro o ho b hb
      have hsuffix := suffix_of_resolve? ho
      have hlt : o.outer.length < n := by
        have hle := hsuffix.length_le
        rw [List.length_cons, hlength] at hle
        exact hle
      have houter := hfed.of_suffix hsuffix |>.tail
      exact classify_eq_of_names ((hfed _ _ hsuffix).2 b hb)
        (fun inner => (ih _ hlt houter inner rfl).1) fun inner => (ih _ hlt houter inner rfl).2
    constructor
    · rintro ⟨o, ho, hkind⟩
      exact classifyName_read (hout o ho) (hfed _ _ (suffix_of_resolve? ho)).1 hkind ho
    · rintro ⟨⟨kind, f, outer⟩, ho, rfl⟩
      exact classifyName_call (hout _ ho) ho

/-- In frames that are fed, a value whose names resolve is classified. -/
theorem classify_eq (hfed : fs.Fed) {v : Value} (hv : fs.Admits v) :
    fs.classify v = .ok (fs.valueConstant v) :=
  classify_eq_of_names hv (fun name => (classifyName_eq hfed name).1)
    fun name => (classifyName_eq hfed name).2

private theorem classifyArgument_eq (hfed : fs.Fed) {a : Argument} (ha : fs.AdmitsArgument a) :
    fs.classifyArgument a = .ok (fs.argumentConstant a) := by
  cases a with
  | literal => rfl
  | access path => exact (classifyName_eq hfed path.root).1 ha
  | payload => rfl

end Frames

/-! ### The classification of a tree -/

/-- Entries grouped by a part of their keys: the entry of a key stands in the group of its part. -/
theorem lookup_flatMap_of_nodup {α κ ν β : Type} [BEq κ] [LawfulBEq κ] {xs : List α}
    {f : α → List (κ × β)} (group : α → ν) (part : κ → ν)
    (hgroup : ∀ x ∈ xs, ∀ e ∈ f x, part e.1 = group x) (hnodup : (xs.map group).Nodup) {x : α}
    (hx : x ∈ xs) {k : κ} (hk : part k = group x) : (xs.flatMap f).lookup k = (f x).lookup k := by
  induction xs with
  | nil => cases hx
  | cons y ys ih =>
    obtain ⟨hy, hys⟩ := List.forall_mem_cons.1 hgroup
    obtain ⟨hnew, hnodup⟩ := List.nodup_cons.1 hnodup
    -- A group of another part does not have the key.
    have hnone : ∀ es : List (κ × β), (∀ e ∈ es, part e.1 ≠ group x) → es.lookup k = none := by
      intro es hes
      refine List.lookup_eq_none_iff.2 fun e he => ?_
      have hne : k ≠ e.1 := fun heq => hes e he (heq ▸ hk)
      exact bne_iff_ne.2 hne
    rw [List.flatMap_cons, List.lookup_append]
    rcases List.mem_cons.1 hx with rfl | hx
    · have hrest : (ys.flatMap f).lookup k = none := by
        refine hnone _ fun e he heq => hnew ?_
        obtain ⟨z, hz, he⟩ := List.mem_flatMap.1 he
        rw [← heq, hys z hz e he]
        exact List.mem_map_of_mem hz
      rw [hrest, Option.or_none]
    · have hfirst : (f y).lookup k = none := by
        refine hnone _ fun e he heq => hnew ?_
        rw [← hy e he, heq]
        exact List.mem_map_of_mem hx
      rw [hfirst, Option.none_or]
      exact ih hys hnodup hx

namespace Placed

/-- The classification of the value of a binding and of its arguments. -/
def constantsOf (p : Placed) (r : Read) : Constants :=
  (p.occurrence r, p.isConstant r.binding) :: r.binding.value.arguments.zipIdx.map fun (a, i) =>
    (p.argumentOccurrence r a i, (p.readingFrames r.binding).argumentConstant a)

private theorem consumer_of_mem_constantsOf {p : Placed} {r : Read} :
    ∀ e ∈ p.constantsOf r, e.1.consumer = p.id ∧ e.1.binding = r.number := by
  refine List.forall_mem_cons.2 ⟨⟨rfl, rfl⟩, fun e he => ?_⟩
  obtain ⟨_, -, rfl⟩ := List.mem_map.1 he
  exact ⟨rfl, rfl⟩

/-- A binding whose value is admitted is classified. -/
private theorem classifyRead_eq {p : Placed} {r : Read} (hfed : (p.readingFrames r.binding).Fed)
    (hv : (p.readingFrames r.binding).Admits r.binding.value) :
    p.classifyRead r = .ok (p.constantsOf r) := by
  have harguments : ∀ a ∈ r.binding.value.arguments,
      (p.readingFrames r.binding).AdmitsArgument a := by
    intro a ha
    cases hvalue : r.binding.value with
    | call method arguments =>
      rw [hvalue] at ha hv
      exact hv.2 a ha
    | text => rw [hvalue] at ha; cases ha
    | literal => rw [hvalue] at ha; cases ha
    | access => rw [hvalue] at ha; cases ha
  -- Only the arguments of a call have rows, and an admitted call admits each of them.
  have hrows : (r.binding.value.arguments.zipIdx.mapM fun (a, i) => do
      return (p.argumentOccurrence r a i, ← (p.readingFrames r.binding).classifyArgument a)) =
        .ok (r.binding.value.arguments.zipIdx.map fun (a, i) =>
          (p.argumentOccurrence r a i, (p.readingFrames r.binding).argumentConstant a)) := by
    refine mapM_eq_ok fun (a, i) ha => ?_
    dsimp only
    rw [Frames.classifyArgument_eq hfed (harguments a (List.fst_mem_of_mem_zipIdx ha))]
    rfl
  rw [classifyRead, Frames.classify_eq hfed hv]
  change _ >>= _ = _
  rw [hrows]
  rfl

end Placed

section Build

variable {lib : Library} {firstId : Nat} {d : Option Definition} {t : Tree}
  (h : Tree.build lib firstId d = .ok t)
include h

theorem Tree.constants_eq :
    t.constants = .ok (t.scopes.flatMap fun p => p.reads.flatMap p.constantsOf) := by
  have hscope : ∀ p ∈ t.scopes, (do
      let rows ← p.reads.mapM p.classifyRead
      return rows.flatten : Except Problem Constants) = .ok (p.reads.flatMap p.constantsOf) := by
    intro p hp
    rw [mapM_eq_ok fun r hr => ?_]
    · rfl
    · obtain ⟨hfed, hv⟩ := Tree.admits h hp (Placed.binding_mem_of_mem_reads hr)
      exact Placed.classifyRead_eq hfed hv
  rw [Tree.constants, mapM_eq_ok hscope]
  rfl

/-- Every value that a scope of a built tree reads is found in the classification. -/
theorem Tree.get_constants {cs : Constants} (hcs : t.constants = .ok cs) {p : Placed}
    (hp : p ∈ t.scopes) {r : Read} (hr : r ∈ p.reads) :
    cs.get (p.occurrence r) = .ok (p.isConstant r.binding) ∧
      ∀ a i, (a, i) ∈ r.binding.value.arguments.zipIdx →
        cs.get (p.argumentOccurrence r a i) =
          .ok ((p.readingFrames r.binding).argumentConstant a) := by
  obtain rfl := Except.ok.inj (hcs.symm.trans (Tree.constants_eq h))
  -- The table is concatenated by scopes, then by reads, and each part has keys of its own.
  have hlookup : ∀ k : Occurrence, k.consumer = p.id → k.binding = r.number →
      (t.scopes.flatMap fun p => p.reads.flatMap p.constantsOf).lookup k =
        (p.constantsOf r).lookup k := by
    intro k hconsumer hbinding
    have hscopes : ∀ q ∈ t.scopes, ∀ e ∈ q.reads.flatMap q.constantsOf, e.1.consumer = q.id := by
      intro q _ e he
      obtain ⟨r', _, he⟩ := List.mem_flatMap.1 he
      exact (Placed.consumer_of_mem_constantsOf e he).1
    have hreads : ∀ r' ∈ p.reads, ∀ e ∈ p.constantsOf r', e.1.binding = r'.number :=
      fun r' _ e he => (Placed.consumer_of_mem_constantsOf e he).2
    exact (lookup_flatMap_of_nodup Placed.id Occurrence.consumer hscopes (Tree.laidOut h).nodup hp
      hconsumer).trans
        (lookup_flatMap_of_nodup Read.number Occurrence.binding hreads p.nodup_numbers hr hbinding)
  constructor
  · rw [Constants.get, hlookup _ rfl rfl, Placed.constantsOf, List.lookup_cons, beq_self_eq_true]
  · intro a i ha
    have hne : (p.argumentOccurrence r a i == p.occurrence r) = false := by
      refine beq_false_of_ne fun heq => ?_
      cases congrArg Occurrence.argument heq
    have hpositions : ((r.binding.value.arguments.zipIdx.map Prod.snd).map some).Nodup := by
      rw [List.zipIdx_map_snd]
      exact List.Nodup.map (Option.some_injective _) List.nodup_range'
    rw [List.map_map] at hpositions
    rw [Constants.get, hlookup _ rfl rfl, Placed.constantsOf, List.lookup_cons, hne,
      List.map_eq_flatMap]
    dsimp only
    rw [lookup_flatMap_of_nodup (fun e : Argument × Nat => some e.2) Occurrence.argument
      (fun e _ e' he' => by rw [List.mem_singleton.1 he']; rfl) hpositions ha rfl,
      List.lookup_cons, beq_self_eq_true]

end Build

end ViewCompiler
