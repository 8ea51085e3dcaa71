import Mathlib
import ViewCompiler.Proofs.Scope.Resolution
import ViewCompiler.Scope.Change
import ViewCompiler.Template.Parser

/-!
# What may change

`MayChange` is the least relation that lets change spread: from properties that a method can assign,
and from the payload of an event, through inputs, getters, calls and loop sources to the values that
read them. It has one parameter, the inputs of an instance that decide about a property.

The classification of values is exact for the last input of each property. When every input counts
it can miss a change: an input that may change is hidden by a constant one for the same property
that follows it. It fails exactly where a value depends on a property that hides a change
(`Tree.classification_exact_iff`).

The relation is about subjects: a value, one of its arguments, or a name, each read in some frames.
The classification is a function of the same subjects (`Subject.isConstant`). That the two agree is
shown in two steps. One is by induction on the relation: whatever may change is not classified as
constant. The other follows the recursion of the classification, which goes from a name to the frame
that declares it, and from there to what feeds that frame, always further out; so it ends, and what
it finds not to be constant has a derivation.

For the relation in which every input counts the second step still goes through, and the first one
fails only where the last input of a property is constant and another one is not. Such a property
hides a change (`Frame.Hides`), and the values that depend on one are found by following names alone
(`Frames.DependsOn`).

The sample is a page that gives a child the same input twice, first a property that a method assigns
and then a constant.
-/

namespace ViewCompiler

open ViewCompiler.Template

/-! ### The relation -/

/-- Which inputs of an instance decide about one of its properties. -/
abbrev Feeding := Frame → String → Binding → Prop

/-- Every input for the property counts. -/
def anyInput : Feeding := fun f property b => b ∈ f.feeds ∧ b.kind = .input ∧ b.name = property

/-- Of several inputs for the property the last one counts. -/
def lastInput : Feeding := fun f property b => f.input? property = some b

/-- Something that may change or not. -/
inductive Subject where
  /-- A value read in the given frames. -/
  | value (fs : Frames) (v : Value)
  /-- An argument read in the given frames. -/
  | argument (fs : Frames) (a : Argument)
  /-- A property of the instance with the given frame. -/
  | property (f : Frame) (outer : Frames) (name : String)

/-- Change spreads from what methods can assign and from event payloads to everything that reads
it. -/
inductive MayChange (feeding : Feeding) : Subject → Prop where
  | payload {fs} : MayChange feeding (.argument fs .payload)
  | assigned {f outer m q} (hm : f.metadata? = some m) (hq : m.canMutate q = true) :
      MayChange feeding (.property f outer q)
  | fed {f outer q b} (hb : feeding f q b) (hv : MayChange feeding (.value outer b.value)) :
      MayChange feeding (.property f outer q)
  | property {fs path f outer} (ho : fs.resolve? path.root = some ⟨.property, f, outer⟩)
      (hq : MayChange feeding (.property f outer path.root)) :
      MayChange feeding (.value fs (.access path))
  | getter {fs path f outer m q} (ho : fs.resolve? path.root = some ⟨.getter, f, outer⟩)
      (hm : f.metadata? = some m) (hq : q ∈ m.properties)
      (hc : MayChange feeding (.property f outer q)) : MayChange feeding (.value fs (.access path))
  | loop {fs path kind f outer b} (ho : fs.resolve? path.root = some ⟨kind, f, outer⟩)
      (hk : kind = .item ∨ kind = .index) (hb : b ∈ f.feeds) (hs : b.kind = .repeatSource)
      (hv : MayChange feeding (.value outer b.value)) : MayChange feeding (.value fs (.access path))
  | argument {fs path} (hv : MayChange feeding (.value fs (.access path))) :
      MayChange feeding (.argument fs (.access path))
  | callArgument {fs method arguments a} (ha : a ∈ arguments)
      (hc : MayChange feeding (.argument fs a)) :
      MayChange feeding (.value fs (.call method arguments))
  | callInstance {fs method arguments f outer m q}
      (ho : fs.resolve? method = some ⟨.method, f, outer⟩) (hm : f.metadata? = some m)
      (hq : q ∈ m.properties) (hc : MayChange feeding (.property f outer q)) :
      MayChange feeding (.value fs (.call method arguments))

/-- The more inputs count, the more may change. -/
theorem MayChange.mono {feeding feeding' : Feeding}
    (hle : ∀ f q b, feeding f q b → feeding' f q b) {s : Subject} (h : MayChange feeding s) :
    MayChange feeding' s := by
  induction h with
  | payload => exact .payload
  | assigned hm hq => exact .assigned hm hq
  | fed hb _ ih => exact .fed (hle _ _ _ hb) ih
  | property ho _ ih => exact .property ho ih
  | getter ho hm hq _ ih => exact .getter ho hm hq ih
  | loop ho hk hb hs _ ih => exact .loop ho hk hb hs ih
  | argument _ ih => exact .argument ih
  | callArgument ha _ ih => exact .callArgument ha ih
  | callInstance ho hm hq _ ih => exact .callInstance ho hm hq ih

/-- The last input of a property is one of its inputs. -/
theorem anyInput_of_lastInput {f : Frame} {q : String} {b : Binding} (h : lastInput f q b) :
    anyInput f q b := by
  obtain ⟨hb, hk⟩ := List.mem_filter.1 (List.mem_of_getLast? h)
  simp only [decide_eq_true_eq] at hk
  exact ⟨hb, hk⟩

/-! ### Frames of a built tree -/

/-- What feeds the frames resolves further out. -/
def Frames.Fed (fs : Frames) : Prop :=
  ∀ f outer, (f :: outer) <:+ fs → f.IsFed ∧ ∀ b ∈ f.feeds, Frames.Admits outer b.value

/-- Frames around others are fed as they are. -/
theorem Frames.Fed.of_suffix {fs gs : Frames} (h : fs.Fed) (hs : gs <:+ fs) : gs.Fed :=
  fun f outer hf => h f outer (hf.trans hs)

/-- The frames from a declaration outwards. -/
theorem Frames.Fed.of_resolve? {fs : Frames} {name : String} {o : Frames.Origin} (h : fs.Fed)
    (ho : fs.resolve? name = some o) : Frames.Fed (o.frame :: o.outer) :=
  h.of_suffix (Frames.suffix_of_resolve? ho)

theorem Frames.Fed.tail {f : Frame} {outer : Frames} (h : Frames.Fed (f :: outer)) :
    Frames.Fed outer := h.of_suffix (List.suffix_cons f outer)

/-- A built tree is laid out by expansion. -/
theorem Tree.laidOut {lib : Library} {firstId : Nat} {d : Option Definition} {t : Tree}
    (h : Tree.build lib firstId d = .ok t) : t.root.LaidOut lib :=
  Scope.laidOut_of_ofDefinition (Tree.build_eq_ok_iff.1 h).1

/-- Around every scope of a built tree, what feeds the frames resolves. -/
theorem Tree.fed {lib : Library} {firstId : Nat} {d : Option Definition} {t : Tree}
    (h : Tree.build lib firstId d = .ok t) {p : Placed} (hp : p ∈ t.scopes) : p.frames.Fed := by
  intro f outer hs
  obtain ⟨q, hq, hframes⟩ := exists_placed_of_suffix hp hs
  have hcons := Placed.frames_eq hq
  rw [hframes] at hcons
  obtain ⟨hf, ho⟩ := List.cons.inj hcons
  subst hf ho
  exact ⟨((Tree.laidOut h).isLaid q hq).fed, ((Tree.build_eq_ok_iff.1 h).2 q hq).fed⟩

/-- Every binding of a built tree is read in frames that admit its value. -/
theorem Tree.admits {lib : Library} {firstId : Nat} {d : Option Definition} {t : Tree}
    (h : Tree.build lib firstId d = .ok t) {p : Placed} (hp : p ∈ t.scopes) {b : Binding}
    (hb : b ∈ p.bindings) :
    (p.readingFrames b).Fed ∧ (p.readingFrames b).Admits b.value := by
  have hr := (Tree.build_eq_ok_iff.1 h).2 p hp
  have hfed := Tree.fed h hp
  have hcons := Placed.frames_eq hp
  unfold Placed.readingFrames
  rcases List.mem_append.1 hb with hb | hb
  · obtain ⟨s, -, hbs⟩ := List.mem_flatMap.1 hb
    have hself := (List.mem_filter.1 hbs).2
    rw [Bool.not_eq_true'] at hself
    rw [hself, if_neg Bool.false_ne_true]
    exact ⟨hfed, hr.own b hb⟩
  · have hself := ((Tree.laidOut h).isLaid p hp).fed.isSelf b hb
    rw [hself, if_pos rfl]
    rw [hcons] at hfed
    exact ⟨hfed.tail, hr.fed b hb⟩

/-! ### The classification, name by name -/

/-- Whether a property of an instance can never change, by the classification. -/
def Frames.propertyConstant (f : Frame) (outer : Frames) (m : Metadata) (q : String) : Bool :=
  propertyConstantWith outer.valueConstant f m q

/-- Whether what a declaration stands for can never change, by the classification. -/
def Frames.Origin.isConstant (o : Frames.Origin) (name : String) : Bool :=
  match o.kind, o.frame.role with
  | .property, .component m => Frames.propertyConstant o.frame o.outer m name
  | .getter, .component m => m.properties.all (Frames.propertyConstant o.frame o.outer m)
  | .method, .component m => m.properties.all (Frames.propertyConstant o.frame o.outer m)
  | _, .repeating _ => o.frame.feeds.all fun b => o.outer.valueConstant b.value
  | _, _ => false

/-- A name is classified by its nearest declaration. -/
theorem Frames.nameConstant_of_resolve? {fs : Frames} {name : String} {o : Frames.Origin}
    (h : fs.resolve? name = some o) : fs.nameConstant name = o.isConstant name := by
  induction fs with
  | nil => cases h
  | cons f outer ih =>
    unfold Frames.resolve? at h
    unfold Frames.nameConstant
    split at h
    · rename_i kind hd
      obtain rfl := Option.some.inj h
      simp only [hd]
      rfl
    · rename_i hd
      simp only [hd]
      exact ih h

/-- A name that refers to a property is classified by that property. -/
theorem Frames.nameConstant_property {fs outer : Frames} {name : String} {f : Frame}
    (h : fs.resolve? name = some ⟨.property, f, outer⟩) :
    ∃ m, f.metadata? = some m ∧ name ∈ m.properties ∧
      fs.nameConstant name = Frames.propertyConstant f outer m name := by
  rcases Frame.declares?_eq_some (declares?_of_resolve? h) with ⟨m, hrole, hk⟩ | ⟨_, _, hk⟩
  · have hmem : m.member? name = some .property := by simpa using hk
    change f.role = .component m at hrole
    refine ⟨m, Frame.metadata?_eq_some_iff.2 hrole, Metadata.member?_eq_property_iff.1 hmem, ?_⟩
    rw [nameConstant_of_resolve? h]
    simp only [Origin.isConstant, hrole]
  · simp at hk

/-- A name that refers to a getter or method is classified by all properties of its instance. -/
theorem Frames.nameConstant_instance {fs outer : Frames} {name : String} {f : Frame}
    {kind : RefKind} (hk : kind = .getter ∨ kind = .method)
    (h : fs.resolve? name = some ⟨kind, f, outer⟩) :
    ∃ m, f.metadata? = some m ∧
      fs.nameConstant name = m.properties.all (Frames.propertyConstant f outer m) := by
  rcases Frame.declares?_eq_some (declares?_of_resolve? h) with ⟨m, hrole, -⟩ | ⟨_, _, hkind⟩
  · change f.role = .component m at hrole
    refine ⟨m, Frame.metadata?_eq_some_iff.2 hrole, ?_⟩
    rw [nameConstant_of_resolve? h]
    rcases hk with rfl | rfl <;> simp only [Origin.isConstant, hrole]
  · rcases hk with rfl | rfl <;> simp at hkind

/-- A loop variable is classified by what feeds its loop. -/
theorem Frames.nameConstant_loop {fs outer : Frames} {name : String} {f : Frame} {kind : RefKind}
    (hk : kind = .item ∨ kind = .index) (h : fs.resolve? name = some ⟨kind, f, outer⟩) :
    ∃ loop, f.role = .repeating loop ∧
      fs.nameConstant name = f.feeds.all fun b => outer.valueConstant b.value := by
  rcases Frame.declares?_eq_some (declares?_of_resolve? h) with ⟨m, _, hkind⟩ | ⟨loop, hrole, -⟩
  · rcases hk with rfl | rfl <;> simp at hkind
  · change f.role = .repeating loop at hrole
    refine ⟨loop, hrole, ?_⟩
    rw [nameConstant_of_resolve? h]
    rcases hk with rfl | rfl <;> simp only [Origin.isConstant, hrole]

/-- A property is not constant exactly if it can be assigned or if its input is not constant
outside. -/
theorem Frames.propertyConstant_eq_false_iff {f : Frame} {outer : Frames} {m : Metadata}
    {q : String} :
    Frames.propertyConstant f outer m q = false ↔
      m.canMutate q = true ∨ ∃ b, f.input? q = some b ∧ outer.valueConstant b.value = false := by
  unfold Frames.propertyConstant Frames.propertyConstantWith
  cases f.input? q with
  | none => simp
  | some b => cases m.canMutate q <;> simp

/-! ### The classification is the relation -/

namespace Subject

/-- The frames in which a subject is looked up; those of a property start with its instance. -/
def frames : Subject → Frames
  | value fs _ => fs
  | argument fs _ => fs
  | property f outer _ => f :: outer

/-- Whether a subject can never change, by the classification. -/
def isConstant : Subject → Bool
  | value fs v => fs.valueConstant v
  | argument fs a => fs.argumentConstant a
  | property f outer q => f.metadata?.all fun m => Frames.propertyConstant f outer m q

/-- Every name that a subject depends on directly resolves. -/
def Resolves : Subject → Prop
  | value fs v => fs.Fed ∧ fs.Admits v
  | argument fs a => fs.Fed ∧ fs.AdmitsArgument a
  | property f outer _ => Frames.Fed (f :: outer) ∧ f.metadata?.isSome

end Subject

/-- A property that is not classified as constant may change, if that holds for the values further
out. -/
private theorem mayChange_property {f : Frame} {outer : Frames} {m : Metadata} {q : String}
    (hfed : Frames.Fed (f :: outer)) (hm : f.metadata? = some m)
    (hout : ∀ v, outer.Admits v → outer.valueConstant v = false →
      MayChange lastInput (.value outer v))
    (h : Frames.propertyConstant f outer m q = false) :
    MayChange lastInput (.property f outer q) := by
  rcases Frames.propertyConstant_eq_false_iff.1 h with hq | ⟨b, hb, hv⟩
  · exact .assigned hm hq
  · have hmem := (anyInput_of_lastInput hb).1
    exact .fed hb (hout _ ((hfed f outer (List.suffix_refl _)).2 b hmem) hv)

/-- A loop variable that is not classified as constant may change, if that holds for the values
further out. -/
private theorem mayChange_loop {fs outer : Frames} {path : Path} {f : Frame} {kind : RefKind}
    (hk : kind = .item ∨ kind = .index) (ho : fs.resolve? path.root = some ⟨kind, f, outer⟩)
    (hfed : Frames.Fed (f :: outer))
    (hout : ∀ v, outer.Admits v → outer.valueConstant v = false →
      MayChange lastInput (.value outer v))
    (h : fs.nameConstant path.root = false) : MayChange lastInput (.value fs (.access path)) := by
  obtain ⟨loop, hrole, hconst⟩ := Frames.nameConstant_loop hk ho
  obtain ⟨hf, hadm⟩ := hfed f outer (List.suffix_refl _)
  obtain ⟨b, hfeeds, hs⟩ := hf.source loop hrole
  have hb : b ∈ f.feeds := by rw [hfeeds]; exact List.mem_cons_self
  have hv : outer.valueConstant b.value = false := by
    rw [hconst, hfeeds] at h
    simpa using h
  exact .loop ho hk hb hs (hout _ (hadm b hb) hv)

/-- A name that is read and not classified as constant may change, if that holds for the values
further out than its declaration. -/
private theorem mayChange_access {fs : Frames} {path : Path} (hfed : fs.Fed)
    (hread : fs.Reads path.root)
    (hout : ∀ f (outer : Frames), (f :: outer) <:+ fs → ∀ v, outer.Admits v →
      outer.valueConstant v = false → MayChange lastInput (.value outer v))
    (h : fs.nameConstant path.root = false) : MayChange lastInput (.value fs (.access path)) := by
  obtain ⟨⟨kind, f, outer⟩, ho, hkind⟩ := hread
  have hs := Frames.suffix_of_resolve? ho
  have hfed' := hfed.of_resolve? ho
  cases kind with
  | property =>
    obtain ⟨m, hm, -, hconst⟩ := Frames.nameConstant_property ho
    exact .property ho (mayChange_property hfed' hm (hout f outer hs) (hconst.symm.trans h))
  | getter =>
    obtain ⟨m, hm, hconst⟩ := Frames.nameConstant_instance (.inl rfl) ho
    obtain ⟨q, hq, hc⟩ := List.all_eq_false.1 (hconst.symm.trans h)
    rw [Bool.not_eq_true] at hc
    exact .getter ho hm hq (mayChange_property hfed' hm (hout f outer hs) hc)
  | method => exact (hkind rfl).elim
  | item => exact mayChange_loop (.inl rfl) ho hfed' (hout f outer hs) h
  | index => exact mayChange_loop (.inr rfl) ho hfed' (hout f outer hs) h

/-- An argument that is not classified as constant may change, if that holds for the paths that are
read here. -/
private theorem mayChange_argument {fs : Frames} {a : Argument} (hadm : fs.AdmitsArgument a)
    (haccess : ∀ path : Path, fs.Reads path.root → fs.nameConstant path.root = false →
      MayChange lastInput (.value fs (.access path)))
    (h : fs.argumentConstant a = false) : MayChange lastInput (.argument fs a) := by
  cases a with
  | literal => cases h
  | access path => exact .argument (haccess path hadm h)
  | payload => exact .payload

/-- A value that is not classified as constant may change. The recursion follows the frames: what a
value depends on is read further out than its declaration. -/
theorem mayChange_value {fs : Frames} {v : Value} (hfed : fs.Fed) (hadm : fs.Admits v)
    (h : fs.valueConstant v = false) : MayChange lastInput (.value fs v) := by
  have hout : ∀ f (outer : Frames), (f :: outer) <:+ fs → ∀ v, outer.Admits v →
      outer.valueConstant v = false → MayChange lastInput (.value outer v) :=
    fun f outer hs _ hadm h =>
      mayChange_value (hfed.of_suffix ((List.suffix_cons f outer).trans hs)) hadm h
  have haccess : ∀ path : Path, fs.Reads path.root → fs.nameConstant path.root = false →
      MayChange lastInput (.value fs (.access path)) :=
    fun _ hread h => mayChange_access hfed hread hout h
  cases v with
  | text => cases h
  | literal => cases h
  | access path => exact haccess path hadm h
  | call method arguments =>
    obtain ⟨⟨⟨kind, f, outer⟩, ho, rfl⟩, hargs⟩ := hadm
    -- The method may read a property that changes, or an argument changes.
    rcases Bool.and_eq_false_iff.1 h with hname | hall
    · obtain ⟨m, hm, hconst⟩ := Frames.nameConstant_instance (.inr rfl) ho
      obtain ⟨q, hq, hc⟩ := List.all_eq_false.1 (hconst.symm.trans hname)
      rw [Bool.not_eq_true] at hc
      exact .callInstance ho hm hq
        (mayChange_property (hfed.of_resolve? ho) hm (hout f outer (Frames.suffix_of_resolve? ho))
          hc)
    · obtain ⟨a, ha, hc⟩ := List.all_eq_false.1 hall
      rw [Bool.not_eq_true] at hc
      exact .callArgument ha (mayChange_argument (hargs a ha) haccess hc)
termination_by fs.length
decreasing_by
  have hle := hs.length_le
  rw [List.length_cons] at hle
  omega

/-- What is not classified as constant may change, also when only the last inputs count. -/
theorem Subject.mayChange_of_isConstant {s : Subject} (hs : s.Resolves)
    (h : s.isConstant = false) : MayChange lastInput s := by
  cases s with
  | value fs v => exact mayChange_value hs.1 hs.2 h
  | argument fs a =>
    exact mayChange_argument hs.2 (fun path hread h => mayChange_value hs.1 hread h) h
  | property f outer q =>
    obtain ⟨m, hm⟩ := Option.isSome_iff_exists.1 hs.2
    simp only [Subject.isConstant, hm, Option.all_some] at h
    exact mayChange_property hs.1 hm (fun v hadm h => mayChange_value hs.1.tail hadm h) h

/-! ### Hidden changes -/

/-- An input that counts for a property may change, and the property is classified as constant. -/
def Frame.Hides (feeding : Feeding) (f : Frame) (outer : Frames) (q : String) : Prop :=
  ∃ b, feeding f q b ∧ Frames.valueConstant outer b.value = false ∧
    ∃ m, f.metadata? = some m ∧ Frames.propertyConstant f outer m q = true

/-- The last input for a property is never hidden. -/
theorem Frame.not_hides_lastInput {f : Frame} {outer : Frames} {q : String} :
    ¬f.Hides lastInput outer q := by
  rintro ⟨b, hb, hv, m, -, hconst⟩
  rw [Frames.propertyConstant_eq_false_iff.2 (.inr ⟨b, hb, hv⟩)] at hconst
  cases hconst

/-- A name depends on a property of an instance: it is that property, or a getter or method next to
it. -/
inductive Frames.DependsOn (fs : Frames) (name : String) (f : Frame) (outer : Frames) :
    String → Prop where
  | property (ho : fs.resolve? name = some ⟨.property, f, outer⟩) : DependsOn fs name f outer name
  | member {kind m q} (ho : fs.resolve? name = some ⟨kind, f, outer⟩)
      (hk : kind = .getter ∨ kind = .method) (hm : f.metadata? = some m) (hq : q ∈ m.properties) :
      DependsOn fs name f outer q

/-- A subject depends directly on a property that hides a change. -/
def Subject.ReadsHidden (feeding : Feeding) : Subject → Prop
  | value fs (.access path) | argument fs (.access path) =>
    ∃ f outer q, fs.DependsOn path.root f outer q ∧ f.Hides feeding outer q
  | value fs (.call method _) => ∃ f outer q, fs.DependsOn method f outer q ∧
        f.Hides feeding outer q
  | property f outer q => f.Hides feeding outer q
  | _ => False

private theorem Subject.not_readsHidden_lastInput {s : Subject} : ¬s.ReadsHidden lastInput := by
  intro h
  unfold ReadsHidden at h
  split at h
  · obtain ⟨_, _, _, -, hhides⟩ := h
    exact Frame.not_hides_lastInput hhides
  · obtain ⟨_, _, _, -, hhides⟩ := h
    exact Frame.not_hides_lastInput hhides
  · obtain ⟨_, _, _, -, hhides⟩ := h
    exact Frame.not_hides_lastInput hhides
  · exact Frame.not_hides_lastInput h
  · exact h

/-- The values that a scope reads: those of its bindings, and the arguments of the calls among
them. -/
inductive Placed.Reads (p : Placed) : Subject → Prop where
  | value {b} (hb : b ∈ p.bindings) : p.Reads (.value (p.readingFrames b) b.value)
  | argument {b method arguments a} (hb : b ∈ p.bindings) (hv : b.value = .call method arguments)
      (ha : a ∈ arguments) : p.Reads (.argument (p.readingFrames b) a)
  /-- A path that is an argument is read like any other path. -/
  | path {fs path} (ha : p.Reads (.argument fs (.access path))) : p.Reads (.value fs (.access path))

/-- The values that some scope of a tree reads. -/
def Tree.Reads (t : Tree) (s : Subject) : Prop := ∃ p ∈ t.scopes, p.Reads s

/-- The subjects of a tree: the values it reads, and the properties of its instances. -/
def Tree.Contains (t : Tree) : Subject → Prop
  | .property f outer _ => (∃ p ∈ t.scopes, p.frames = f :: outer) ∧ f.metadata?.isSome
  | s => t.Reads s

/-- Some value of a tree is classified as constant and depends directly on a property that hides a
change. -/
def Tree.ExposesHidden (feeding : Feeding) (t : Tree) : Prop :=
  ∃ s, t.Reads s ∧ s.isConstant = true ∧ s.ReadsHidden feeding

/-- What reads a call reads its arguments. -/
private theorem Tree.reads_argument {t : Tree} {fs : Frames} {method : String}
    {arguments : List Argument}
    {a : Argument} (hs : t.Reads (.value fs (.call method arguments))) (ha : a ∈ arguments) :
    t.Reads (.argument fs a) := by
  obtain ⟨p, hp, hs⟩ := hs
  generalize hcall : Subject.value fs (.call method arguments) = s at hs
  cases hs with
  | value hb =>
    obtain ⟨rfl, hv⟩ := Subject.value.inj hcall
    exact ⟨p, hp, .argument hb hv.symm ha⟩
  | argument => cases hcall
  | path => cases hcall

section Built

variable {lib : Library} {firstId : Nat} {d : Option Definition} {t : Tree}
  (h : Tree.build lib firstId d = .ok t)
include h

/-- Whatever a built tree reads resolves. -/
theorem Tree.resolves_of_reads {s : Subject} (hs : t.Reads s) : s.Resolves := by
  obtain ⟨p, hp, hs⟩ := hs
  induction hs with
  | value hb => exact Tree.admits h hp hb
  | argument hb hv ha =>
    obtain ⟨hfed, hadm⟩ := Tree.admits h hp hb
    rw [hv] at hadm
    exact ⟨hfed, hadm.2 _ ha⟩
  | path _ ih => exact ih

/-- What feeds a scope is read around it. -/
theorem Tree.reads_feed {p : Placed} (hp : p ∈ t.scopes) {b : Binding} (hb : b ∈ p.frame.feeds) :
    t.Reads (.value p.outer b.value) := by
  have hself := ((Tree.laidOut h).isLaid p hp).fed.isSelf b hb
  have hread : p.Reads (.value (p.readingFrames b) b.value) := .value (List.mem_append_right _ hb)
  rw [Placed.readingFrames, if_pos hself] at hread
  exact ⟨p, hp, hread⟩

omit h in
/-- The scope that declares what a subject of a tree refers to. -/
theorem Tree.exists_placed_of_reads {s : Subject} (hs : t.Reads s) {f : Frame} {outer : Frames}
    (hsuffix : (f :: outer) <:+ s.frames) : ∃ p ∈ t.scopes, p.frames = f :: outer := by
  obtain ⟨p, hp, hs⟩ := hs
  have hframes : s.frames <:+ p.frames := by
    induction hs with
    | value hb =>
      rw [Subject.frames, Placed.readingFrames]
      split
      · exact List.tail_suffix _
      · exact List.suffix_refl _
    | argument hb _ _ =>
      rw [Subject.frames, Placed.readingFrames]
      split
      · exact List.tail_suffix _
      · exact List.suffix_refl _
    | path _ ih => exact ih hsuffix
  exact exists_placed_of_suffix hp (hsuffix.trans hframes)

omit h in
/-- The properties of an instance that is classified as constant. -/
private theorem property_isConstant {f : Frame} {outer : Frames} {m : Metadata} {q : String}
    (hm : f.metadata? = some m) (hq : q ∈ m.properties)
    (hall : m.properties.all (Frames.propertyConstant f outer m) = true) :
    (Subject.property f outer q).isConstant = true := by
  simp only [Subject.isConstant, hm, Option.all_some]
  exact List.all_eq_true.1 hall q hq

/-- A subject of a tree that may change and is classified as constant exposes a hidden change. The
induction follows the change back to where it is hidden. -/
private theorem Tree.readsHidden_of_mayChange {feeding : Feeding}
    (hle : ∀ f q b, feeding f q b → anyInput f q b) {s : Subject} (hc : MayChange feeding s)
    (hs : t.Contains s) (hconst : s.isConstant = true) :
    s.ReadsHidden feeding ∨ t.ExposesHidden feeding := by
  induction hc with
  | payload => cases hconst
  | @assigned f outer m q hm hq =>
    simp only [Subject.isConstant, hm, Option.all_some] at hconst
    rw [Frames.propertyConstant_eq_false_iff.2 (.inl hq)] at hconst
    cases hconst
  | @fed f outer q b hb _ ih =>
    obtain ⟨⟨p, hp, hframes⟩, hm⟩ := hs
    obtain ⟨rfl, rfl⟩ := List.cons.inj ((Placed.frames_eq hp).symm.trans hframes)
    have hread := Tree.reads_feed h hp (hle _ _ _ hb).1
    -- What is fed in either counts as constant itself, so that the search goes on further out, or
    -- is hidden by the input here.
    cases hv : p.outer.valueConstant b.value with
    | true => exact .inr ((ih hread hv).elim (fun hhidden => ⟨_, hread, hv, hhidden⟩) id)
    | false =>
      obtain ⟨m, hm⟩ := Option.isSome_iff_exists.1 hm
      simp only [Subject.isConstant, hm, Option.all_some] at hconst
      exact .inl ⟨b, hb, hv, m, hm, hconst⟩
  | @property fs path f outer ho _ ih =>
    obtain ⟨m, hm, -, hname⟩ := Frames.nameConstant_property ho
    have hplaced := Tree.exists_placed_of_reads hs (Frames.suffix_of_resolve? ho)
    have hproperty : (Subject.property f outer path.root).isConstant = true := by
      simp only [Subject.isConstant, hm, Option.all_some]
      exact hname.symm.trans hconst
    refine (ih ⟨hplaced, by simp [hm]⟩ hproperty).imp_left fun hhidden => ?_
    exact ⟨f, outer, _, .property ho, hhidden⟩
  | @getter fs path f outer m q ho hm hq _ ih =>
    obtain ⟨m', hm', hname⟩ := Frames.nameConstant_instance (.inl rfl) ho
    obtain rfl : m = m' := Option.some.inj (hm.symm.trans hm')
    have hplaced := Tree.exists_placed_of_reads hs (Frames.suffix_of_resolve? ho)
    have hproperty := property_isConstant hm hq (hname.symm.trans hconst)
    refine (ih ⟨hplaced, by simp [hm]⟩ hproperty).imp_left fun hhidden => ?_
    exact ⟨f, outer, q, .member ho (.inl rfl) hm hq, hhidden⟩
  | @loop fs path kind f outer b ho hk hb _ _ ih =>
    obtain ⟨-, -, hname⟩ := Frames.nameConstant_loop hk ho
    obtain ⟨p, hp, hframes⟩ := Tree.exists_placed_of_reads hs (Frames.suffix_of_resolve? ho)
    obtain ⟨rfl, rfl⟩ := List.cons.inj ((Placed.frames_eq hp).symm.trans hframes)
    have hread := Tree.reads_feed h hp hb
    have hv := List.all_eq_true.1 (hname.symm.trans hconst) b hb
    exact .inr ((ih hread hv).elim (fun hhidden => ⟨_, hread, hv, hhidden⟩) id)
  | argument _ ih =>
    obtain ⟨p, hp, hs⟩ := hs
    exact ih ⟨p, hp, .path hs⟩ hconst
  | @callArgument fs method arguments a ha _ ih =>
    have hread := Tree.reads_argument hs ha
    have ha : fs.argumentConstant a = true :=
      List.all_eq_true.1 (Bool.and_eq_true_iff.1 hconst).2 a ha
    exact .inr ((ih hread ha).elim (fun hhidden => ⟨_, hread, ha, hhidden⟩) id)
  | @callInstance fs method arguments f outer m q ho hm hq _ ih =>
    obtain ⟨m', hm', hname⟩ := Frames.nameConstant_instance (.inr rfl) ho
    obtain rfl : m = m' := Option.some.inj (hm.symm.trans hm')
    have hplaced := Tree.exists_placed_of_reads hs (Frames.suffix_of_resolve? ho)
    have hproperty :=
      property_isConstant hm hq (hname.symm.trans (Bool.and_eq_true_iff.1 hconst).1)
    refine (ih ⟨hplaced, by simp [hm]⟩ hproperty).imp_left fun hhidden => ?_
    exact ⟨f, outer, q, .member ho (.inr rfl) hm hq, hhidden⟩

end Built

/-- A property that hides a change may change. -/
theorem Frame.Hides.mayChange {f : Frame} {outer : Frames} {q : String}
    (hfed : Frames.Fed (f :: outer)) (h : f.Hides anyInput outer q) :
    MayChange anyInput (.property f outer q) := by
  obtain ⟨b, hb, hv, -⟩ := h
  have hadm := (hfed f outer (List.suffix_refl _)).2 b hb.1
  exact .fed hb ((mayChange_value hfed.tail hadm hv).mono fun _ _ _ => anyInput_of_lastInput)

namespace Frames.DependsOn

variable {fs outer : Frames} {name q : String} {f : Frame}

/-- Frames around a declaration are fed as the frames that it is seen from. -/
theorem fed (h : fs.DependsOn name f outer q) (hfed : fs.Fed) : Frames.Fed (f :: outer) := by
  cases h with
  | property ho => exact hfed.of_resolve? ho
  | member ho _ _ _ => exact hfed.of_resolve? ho

/-- A path changes with every property it depends on. -/
theorem mayChange_access {feeding : Feeding} {path : Path} (h : fs.DependsOn path.root f outer q)
    (hread : fs.Reads path.root) (hq : MayChange feeding (.property f outer q)) :
    MayChange feeding (.value fs (.access path)) := by
  cases h with
  | property ho => exact .property ho hq
  | member ho hk hm hmem =>
    rcases hk with rfl | rfl
    · exact .getter ho hm hmem hq
    · obtain ⟨o, ho', hkind⟩ := hread
      rw [ho] at ho'
      exact (hkind (Option.some.inj ho' ▸ rfl)).elim

/-- A call changes with every property its method depends on. -/
private theorem mayChange_call {feeding : Feeding} {arguments : List Argument}
    (h : fs.DependsOn name f outer q) (hcall : fs.Calls name)
    (hq : MayChange feeding (.property f outer q)) :
    MayChange feeding (.value fs (.call name arguments)) := by
  obtain ⟨o, ho', hkind⟩ := hcall
  cases h with
  | property ho =>
    rw [ho] at ho'
    rw [← Option.some.inj ho'] at hkind
    cases hkind
  | member ho hk hm hmem =>
    rw [ho] at ho'
    rw [← Option.some.inj ho'] at hkind
    change _ = RefKind.method at hkind
    subst hkind
    exact .callInstance ho hm hmem hq

end Frames.DependsOn

/-- A subject that depends directly on a property that hides a change may change. -/
theorem Subject.ReadsHidden.mayChange {s : Subject} (hs : s.Resolves)
    (h : s.ReadsHidden anyInput) : MayChange anyInput s := by
  cases s with
  | value fs v =>
    obtain ⟨hfed, hadm⟩ := hs
    cases v with
    | text => exact h.elim
    | literal => exact h.elim
    | access path =>
      obtain ⟨f, outer, q, hdep, hhides⟩ := h
      exact hdep.mayChange_access hadm (hhides.mayChange (hdep.fed hfed))
    | call method arguments =>
      obtain ⟨f, outer, q, hdep, hhides⟩ := h
      exact hdep.mayChange_call hadm.1 (hhides.mayChange (hdep.fed hfed))
  | argument fs a =>
    obtain ⟨hfed, hadm⟩ := hs
    cases a with
    | literal => exact h.elim
    | payload => exact h.elim
    | access path =>
      obtain ⟨f, outer, q, hdep, hhides⟩ := h
      exact .argument (hdep.mayChange_access hadm (hhides.mayChange (hdep.fed hfed)))
  | property f outer q => exact Frame.Hides.mayChange hs.1 h

/-! ### Exactness -/

section Built

variable {lib : Library} {firstId : Nat} {d : Option Definition} {t : Tree}
  (h : Tree.build lib firstId d = .ok t)
include h

/-- A value that may change and is classified as constant is one of those that expose a hidden
change. -/
theorem Tree.exposesHidden_of_mayChange {feeding : Feeding}
    (hle : ∀ f q b, feeding f q b → anyInput f q b) {s : Subject} (hs : t.Reads s)
    (hc : MayChange feeding s) (hconst : s.isConstant = true) : t.ExposesHidden feeding := by
  have hcontains : t.Contains s := by
    cases s with
    | value => exact hs
    | argument => exact hs
    | property =>
      obtain ⟨p, -, hs⟩ := hs
      cases hs
  rcases Tree.readsHidden_of_mayChange h hle hc hcontains hconst with hhidden | hexposes
  · exact ⟨s, hs, hconst, hhidden⟩
  · exact hexposes

/-- A value is not classified as constant exactly if it may change when of several inputs for one
property the last one counts. -/
theorem Tree.isConstant_eq_false_iff {s : Subject} (hs : t.Reads s) :
    s.isConstant = false ↔ MayChange lastInput s := by
  constructor
  · exact Subject.mayChange_of_isConstant (Tree.resolves_of_reads h hs)
  · intro hc
    by_contra hconst
    rw [Bool.not_eq_false] at hconst
    obtain ⟨s', -, -, hhidden⟩ :=
      Tree.exposesHidden_of_mayChange h (fun _ _ _ => anyInput_of_lastInput) hs hc hconst
    exact Subject.not_readsHidden_lastInput hhidden

/-- What is not classified as constant may change. -/
theorem Tree.mayChange_of_isConstant {s : Subject} (hs : t.Reads s)
    (hconst : s.isConstant = false) :
    MayChange anyInput s :=
  ((Tree.isConstant_eq_false_iff h hs).1 hconst).mono fun _ _ _ => anyInput_of_lastInput

/-- The values of a tree are classified exactly if of several inputs for one property the last one
counts. If every input counts, the classification is exact if and only if no value that it calls
constant depends on a property that hides a change. -/
theorem Tree.classification_exact_iff :
    (∀ s, t.Reads s → (s.isConstant = false ↔ MayChange lastInput s)) ∧
    ((∀ s, t.Reads s → (s.isConstant = false ↔ MayChange anyInput s)) ↔
      ∀ s, t.Reads s → s.isConstant = true → ¬s.ReadsHidden anyInput) := by
  refine ⟨fun s hs => Tree.isConstant_eq_false_iff h hs, ?_, ?_⟩
  · intro hexact s hs hconst hhidden
    have hc := hhidden.mayChange (Tree.resolves_of_reads h hs)
    rw [(hexact s hs).2 hc] at hconst
    cases hconst
  · intro hnone s hs
    refine ⟨Tree.mayChange_of_isConstant h hs, fun hc => ?_⟩
    by_contra hconst
    rw [Bool.not_eq_false] at hconst
    obtain ⟨s', hs', hconst', hhidden⟩ :=
      Tree.exposesHidden_of_mayChange h (fun _ _ _ => id) hs hc hconst
    exact hnone s' hs' hconst' hhidden

end Built

/-! ### A hidden change -/

namespace HiddenInput

def pageMetadata : Metadata := ⟨"App", ["n"], [], [⟨"inc", [], ["n"]⟩]⟩

def childMetadata : Metadata := ⟨"C", ["x"], [], []⟩

/-- Two inputs for one property: the first can change, the second cannot. -/
def inputs : List Binding :=
  [⟨.input, "x", .access ⟨"n", []⟩, ⟨⟨3, 1, 4⟩, ⟨10, 1, 11⟩⟩⟩,
    ⟨.input, "x", .literal "1", ⟨⟨11, 1, 12⟩, ⟨18, 1, 19⟩⟩⟩]

def anchor : Node := .component ⟨⟨0, 1, 1⟩, ⟨20, 1, 21⟩⟩ "C" inputs

def shown : Node := .interpolation ⟨⟨0, 1, 1⟩, ⟨7, 1, 8⟩⟩ (.access ⟨"x", []⟩)

def page : Definition := ⟨"App", [anchor], some pageMetadata⟩

def child : Definition := ⟨"C", [shown], some childMetadata⟩

def library : Library := .ofList [("App", page), ("C", child)]

/-- The frames around what the child shows. -/
def frames : Frames :=
  [⟨1, "C", .component childMetadata, inputs⟩, ⟨0, "App", .component pageMetadata, []⟩]

/-- The page as it is laid out. -/
def tree : Tree where
  root := .mk ⟨0, "App", .component pageMetadata, []⟩ none [anchor] [⟨0, anchor, some 1⟩] 1
    [.mk ⟨1, "C", .component childMetadata, inputs⟩ (some anchor) [shown] [⟨0, shown, none⟩] 1 []]
  nextId := 2

private theorem scan_page : scan "<C [x]=\"n\" [x]=\"1\"/>".toList =
    ⟨[.leaf ⟨"C", [⟨"[x]", some "n", 3, 10, 8⟩, ⟨"[x]", some "1", 11, 18, 16⟩], 0, 20⟩], none⟩ := by
  decide +kernel

/-- The template of the page has two inputs of one name. -/
theorem parse_page : parse "App" "<C [x]=\"n\" [x]=\"1\"/>" = .ok page.template := by
  have hsource : Source.ofText "<C [x]=\"n\" [x]=\"1\"/>".toList = ⟨[0], 20⟩ := rfl
  have hfinish : finishTag ⟨[0], 20⟩
      ⟨"C", [⟨"[x]", some "n", 3, 10, 8⟩, ⟨"[x]", some "1", 11, 18, 16⟩], 0, 20⟩ [] 20 =
        .ok anchor := rfl
  rw [parse, scan_page, hsource]
  simp only [assemble, hfinish]
  rfl

private theorem scan_child : scan "\x7b\x7b x \x7d\x7d".toList =
    ⟨[.interpolation 0 7 (.access ⟨"x", []⟩)], none⟩ := by decide +kernel

/-- The template of the child shows its property. -/
theorem parse_child : parse "C" "\x7b\x7b x \x7d\x7d" = .ok child.template := by
  rw [parse, scan_child]
  rfl

theorem eq_of_find? {tag : String} {d : Definition} (h : library.find? tag = some d) :
    d = page ∨ d = child := by
  simp only [library, Library.ofList, List.lookup_cons, List.lookup_nil] at h
  split at h
  · exact .inl (Option.some.inj h).symm
  · split at h
    · exact .inr (Option.some.inj h).symm
    · cases h

/-- The page is built to the tree below. -/
theorem build_page : Tree.build library 0 (some page) = .ok tree := by cbv

/-- What the child shows may change with the first input. -/
private theorem mayChange_shown : MayChange anyInput (.value frames (.access ⟨"x", []⟩)) := by
  refine .property (by rfl) (.fed ⟨List.mem_cons_self, rfl, rfl⟩ ?_)
  exact .property (by rfl) (.assigned (by rfl) (by decide))

/-- The tree reads the property that the child shows. -/
private theorem reads_shown : tree.Reads (.value frames (.access ⟨"x", []⟩)) := by
  refine ⟨⟨_, frames⟩, List.mem_cons_of_mem _ List.mem_cons_self, ?_⟩
  exact .value (b := ⟨.interpolation, "", .access ⟨"x", []⟩, ⟨⟨0, 1, 1⟩, ⟨7, 1, 8⟩⟩⟩)
    List.mem_cons_self

end HiddenInput

/-- On the page with two inputs, the classification is exact for the last one. -/
theorem Tree.classification_exact_page :
    Tree.build HiddenInput.library 0 (some HiddenInput.page) = .ok HiddenInput.tree ∧
    (∀ s, HiddenInput.tree.Reads s → (s.isConstant = false ↔ MayChange lastInput s)) ∧
    ((∀ s, HiddenInput.tree.Reads s → (s.isConstant = false ↔ MayChange anyInput s)) ↔
      ∀ s, HiddenInput.tree.Reads s → s.isConstant = true → ¬s.ReadsHidden anyInput) :=
  ⟨HiddenInput.build_page, Tree.classification_exact_iff HiddenInput.build_page⟩

/-- A page and its child, read from templates and declarations, where what the child shows is
classified as constant and may change. -/
theorem Tree.exists_constant_mayChange :
    parse "App" "<C [x]=\"n\" [x]=\"1\"/>" = .ok HiddenInput.page.template ∧
    parse "C" "\x7b\x7b x \x7d\x7d" = .ok HiddenInput.child.template ∧
    Metadata.ofDeclaration { name := "App", properties := ["n"]
                             methods := [("inc", { assigns := ["n"] })] } =
      .ok HiddenInput.pageMetadata ∧
    Metadata.ofDeclaration { name := "C", properties := ["x"] } =
      .ok HiddenInput.childMetadata ∧
    ∃ t s, Tree.build HiddenInput.library 0 (some HiddenInput.page) = .ok t ∧
      t.Reads s ∧ s.isConstant = true ∧ MayChange anyInput s := by
  refine ⟨HiddenInput.parse_page, HiddenInput.parse_child, by cbv, by cbv, HiddenInput.tree, _,
    HiddenInput.build_page, HiddenInput.reads_shown, ?_⟩
  exact ⟨by cbv, HiddenInput.mayChange_shown⟩

end ViewCompiler
