import ViewCompiler.Proofs.Compile.Content

/-!
# A cache changes no answer

A compiler keeps parsed templates from one run to the next, while components come and go in its
registry. Nothing leaves the cache together with a component, so what is kept under a name may be
older than the component of that name. As long as a name and a digest always stand for the same
template, it is faithful nevertheless to everything that is registered in the course of a session,
and a compiler with a cache of any size then answers like one without
(`Workspace.sameAnswers_without_cache`).

A session is told by its steps, by the order in which the workers come back at each of them, and by
its answers (`Workspace.MayAnswer`). For the same orders the answers are the same with the cache and
without it, step by step, and the same orders are possible. That is as much as can be said: two
sessions in which the workers come back in different orders may have different templates refused,
with a cache or without. Nothing else can differ, since neither what a run leaves of the registry
nor the result of a run that is not refused depends on the order.
-/

namespace ViewCompiler

open ViewCompiler.Template

/-! ### What is registered in a session -/

/-- The component is one of the given ones, but for what was recorded of it. -/
def Component.IsOneOf (c : Component) (cs : List Component) : Prop :=
  ∃ d ∈ cs, c = { d with uses := c.uses }

namespace Component.IsOneOf

variable {c : Component} {cs : List Component}

theorem of_mem (h : c ∈ cs) : c.IsOneOf cs := ⟨c, h, rfl⟩

theorem isKnown (h : c.IsOneOf cs) : c.IsKnown cs := by
  obtain ⟨d, hd, heq⟩ := h
  rw [heq]
  exact ⟨d, hd, rfl, rfl, rfl⟩

/-- What is recorded of a component does not matter for its template. -/
theorem exists_parseTemplate {p : Problem} (h : c.IsOneOf cs)
    (hp : Reading.parseTemplate c = .error p) : ∃ d ∈ cs, Reading.parseTemplate d = .error p := by
  obtain ⟨d, hd, heq⟩ := h
  refine ⟨d, hd, ?_⟩
  rw [heq] at hp
  exact hp

end Component.IsOneOf

private theorem Registry.IsRecordOf.isOneOf {reg reg' : Registry} (h : reg'.IsRecordOf reg)
    {cs : List Component} (hone : ∀ c ∈ reg.components, c.IsOneOf cs) :
    ∀ c ∈ reg'.components, c.IsOneOf cs := by
  rcases h with rfl | ⟨r, rfl⟩
  · exact hone
  · intro c hc
    rw [Registry.components_recordReading] at hc
    obtain ⟨d, hd, rfl⟩ := List.mem_map.1 hc
    obtain ⟨e, he, heq⟩ := hone d hd
    refine ⟨e, he, ?_⟩
    rw [Registry.recorded, heq]

/-! ### Sessions -/

/-- A registry and the compiler that works on it. -/
structure Workspace where
  cache : Option ParseCache
  registry : Registry := {}

namespace Workspace

/-- What can be asked for in a session. -/
inductive Step where
  | change (op : Registry.Operation)
  | compile (root : String) (cancelled : Bool)
  | check (cancelled : Bool)

/-- The component that a step registers. -/
def Step.added? : Step → Option Component
  | change op => op.added?
  | compile .. | check _ => none

/-- What comes back. -/
inductive Answer where
  | done
  | removed (names : List String)
  | compiled (outcome : Except Problem Compilation)
  | checked (outcome : Except Problem Collector)

/-- What comes back from a change of the registry. -/
def changed (w : Workspace) : Registry.Operation → Answer
  | .removeAt path => .removed (w.registry.removeAt path).1
  | .register _ | .remove _ => .done

/-- One step of a session with one worker. A run leaves its cache and what it recorded behind. -/
def step (w : Workspace) : Step → Answer × Workspace
  | .change op => (w.changed op, { w with registry := op.apply w.registry })
  | .compile root cancelled =>
    let run := ViewCompiler.compile w.cache w.registry root cancelled
    (.compiled run.outcome, ⟨run.reading.cache, run.registry⟩)
  | .check cancelled =>
    let run := ViewCompiler.check w.cache w.registry cancelled
    (.checked run.outcome, ⟨run.reading.cache, run.registry⟩)

/-- What comes back from the steps of a session with one worker, the earliest first. -/
def answers (w : Workspace) : List Step → List Answer
  | [] => []
  | s :: steps => (w.step s).1 :: (w.step s).2.answers steps

/-- What can come back from the steps of a session with several workers, which come back in the
given orders, one for every step. -/
inductive MayAnswer (workers : Nat) :
    Workspace → List Step → List (List String) → List Answer → Prop
  | done {w} : MayAnswer workers w [] [] []
  | change {w op steps orders answers}
      (h : MayAnswer workers { w with registry := op.apply w.registry } steps orders answers) :
      MayAnswer workers w (.change op :: steps) ([] :: orders) (w.changed op :: answers)
  | compile {w root cancelled steps order orders run answers}
      (hrun : Compiles workers w.cache w.registry root cancelled order run)
      (h : MayAnswer workers ⟨run.reading.cache, run.registry⟩ steps orders answers) :
      MayAnswer workers w (.compile root cancelled :: steps) (order :: orders)
        (.compiled run.outcome :: answers)
  | check {w cancelled steps order orders run answers}
      (hrun : Checks workers w.cache w.registry cancelled order run)
      (h : MayAnswer workers ⟨run.reading.cache, run.registry⟩ steps orders answers) :
      MayAnswer workers w (.check cancelled :: steps) (order :: orders)
        (.checked run.outcome :: answers)

/-- Two answers are the same, or both are the problem of a template among the given components. -/
def Answer.AgreesWith (cs : List Component) (a a' : Answer) : Prop :=
  a = a' ∨ ∃ p p', (∃ c ∈ cs, Reading.parseTemplate c = .error p) ∧
    (∃ c ∈ cs, Reading.parseTemplate c = .error p') ∧ a = .compiled (.error p) ∧
    a' = .compiled (.error p')

/-- Two workspaces cannot be told apart by what comes back from the steps of a session, with so many
workers each, but for the orders in which the workers come back. -/
structure SameAnswers (workers : Nat) (w w' : Workspace) (steps : List Step) : Prop where
  /-- In the same orders the same can come back from both. -/
  mayAnswer_iff : ∀ orders answers,
    w.MayAnswer workers steps orders answers ↔ w'.MayAnswer workers steps orders answers
  /-- Nothing but the orders decides what comes back. -/
  eq_of_mayAnswer : ∀ orders answers answers', w.MayAnswer workers steps orders answers →
    w'.MayAnswer workers steps orders answers' → answers = answers'
  /-- In different orders it is only the template that is refused which can be another one. -/
  agree_of_mayAnswer : ∀ orders orders' answers answers',
    w.MayAnswer workers steps orders answers → w'.MayAnswer workers steps orders' answers' →
    List.Forall₂ (Answer.AgreesWith (steps.filterMap Step.added?)) answers answers'
  /-- What comes back with one worker is among what can come back with any number of them. -/
  exists_mayAnswer : 0 < workers → ∃ orders, w.MayAnswer workers steps orders (w.answers steps)
  /-- With one worker nothing else can. -/
  eq_answers_of_one : workers = 1 → ∀ orders answers,
    w.MayAnswer workers steps orders answers → answers = w.answers steps
  /-- With one worker the same comes back from both. -/
  answers_eq : w.answers steps = w'.answers steps

/-! ### One worker -/

/-- With one worker nothing else can come back. -/
theorem MayAnswer.eq_answers {w : Workspace} {steps : List Step} {orders : List (List String)}
    {answers : List Answer} (h : w.MayAnswer 1 steps orders answers) :
    answers = w.answers steps := by
  induction h with
  | done => rfl
  | change _ ih => rw [ih]; rfl
  | compile hrun _ ih =>
    obtain rfl := hrun.eq_compile
    rw [ih]
    rfl
  | check hrun _ ih =>
    obtain rfl := hrun.eq_check
    rw [ih]
    rfl

/-- What comes back with one worker can come back with any number of them. -/
theorem exists_mayAnswer_answers {workers : Nat} (hworkers : 0 < workers) (w : Workspace)
    (steps : List Step) : ∃ orders, w.MayAnswer workers steps orders (w.answers steps) := by
  induction steps generalizing w with
  | nil => exact ⟨[], .done⟩
  | cons s steps ih =>
    obtain ⟨orders, h⟩ := ih (w.step s).2
    cases s with
    | change op => exact ⟨_, .change h⟩
    | compile root cancelled =>
      obtain ⟨order, hrun⟩ := exists_compiles_compile w.cache w.registry root cancelled hworkers
      exact ⟨order :: orders, .compile hrun h⟩
    | check cancelled =>
      obtain ⟨order, hrun⟩ := exists_checks_check w.cache w.registry cancelled hworkers
      exact ⟨order :: orders, .check hrun h⟩

/-! ### All runs of a session -/

/-- Two workspaces with the same registry that differ in what they keep of the given components. -/
structure Twins (w w' : Workspace) (cs : List Component) : Prop where
  registry : w.registry = w'.registry
  sorted : w.registry.Sorted
  registered : ∀ c ∈ w.registry.components, c.IsOneOf cs
  faithful : ∀ k ∈ w.cache, k.Faithful cs
  faithful' : ∀ k ∈ w'.cache, k.Faithful cs

private theorem forall_mem_filterMap_cons {s : Step} {steps : List Step} {P : Component → Prop} :
    (∀ c ∈ (s :: steps).filterMap Step.added?, P c) ↔
      (∀ c ∈ s.added?, P c) ∧ ∀ c ∈ steps.filterMap Step.added?, P c := by
  rw [List.filterMap_cons]
  cases s.added? with
  | none => simp
  | some c => simp

namespace Twins

variable {w w' : Workspace} {cs : List Component} {workers : Nat}

theorem symm (h : w.Twins w' cs) : w'.Twins w cs :=
  ⟨h.registry.symm, h.registry ▸ h.sorted, h.registry ▸ h.registered, h.faithful', h.faithful⟩

theorem counterparts (h : w.Twins w' cs) (hcs : Consistent cs) :
    Counterparts cs cs w.cache w'.cache w.registry w'.registry := by
  have hknown : ∀ c ∈ w.registry.components, c.IsKnown cs := fun c hc => (h.registered c hc).isKnown
  refine ⟨h.registry ▸ ⟨rfl, fun _ => rfl⟩, h.sorted, h.registry ▸ h.sorted, hcs, hcs, hknown,
    h.registry ▸ hknown, h.faithful, h.faithful'⟩

/-- A change of the registry gives the same answer, and leaves twins. -/
theorem change (h : w.Twins w' cs) {op : Registry.Operation} (hadded : ∀ c ∈ op.added?, c ∈ cs) :
    w.changed op = w'.changed op ∧
      Twins { w with registry := op.apply w.registry } { w' with registry := op.apply w'.registry }
        cs := by
  obtain ⟨cache, reg⟩ := w
  obtain ⟨cache', reg'⟩ := w'
  obtain ⟨rfl, hsorted, hone, hfaithful, hfaithful'⟩ := h
  refine ⟨by cases op <;> rfl, rfl, hsorted.apply op, fun c hc => ?_, hfaithful, hfaithful'⟩
  rcases (Registry.mem_components_apply hsorted op).1 hc with hnew | ⟨hkept, -⟩
  · exact .of_mem (hadded c hnew)
  · exact hone c hkept

/-- Runs that leave the same registry leave twins. -/
theorem left (h : w.Twins w' cs) {reg reg' : Registry} {cache cache' : Option ParseCache}
    (hregistry : reg = reg') (hrecord : reg.IsRecordOf w.registry)
    (hcache : ∀ k ∈ cache, k.Faithful cs) (hcache' : ∀ k ∈ cache', k.Faithful cs) :
    Twins ⟨cache, reg⟩ ⟨cache', reg'⟩ cs :=
  ⟨hregistry, hrecord.sorted h.sorted, hrecord.isOneOf h.registered, hcache, hcache'⟩

section Runs

variable (h : w.Twins w' cs) (hcs : Consistent cs) {order order' : List String} {cancelled : Bool}
include h hcs

/-- Compiling gives answers that agree, the same in the same order, and leaves twins. -/
theorem compiles {root : String} {run run' : CompileRun}
    (hrun : Compiles workers w.cache w.registry root cancelled order run)
    (hrun' : Compiles workers w'.cache w'.registry root cancelled order' run') :
    (Answer.compiled run.outcome).AgreesWith cs (.compiled run'.outcome) ∧
      (order = order' → run.outcome = run'.outcome) ∧
      Twins ⟨run.reading.cache, run.registry⟩ ⟨run'.reading.cache, run'.registry⟩ cs := by
  have hpair := h.counterparts hcs
  obtain ⟨houtcome, hregistry⟩ := hpair.compiles_agree hrun hrun'
  obtain ⟨hrecord, hleft⟩ := hrun.left hcs hpair.known hpair.faithful
  obtain ⟨-, hleft'⟩ := hrun'.left hcs hpair.known' hpair.faithful'
  refine ⟨?_, ?_, h.left (hregistry h.registry) hrecord hleft hleft'⟩
  · rcases houtcome with heq | ⟨-, p, p', ⟨c, hc, hp⟩, ⟨c', hc', hp'⟩, heq, heq'⟩
    · exact .inl (congrArg Answer.compiled heq)
    · rw [← h.registry] at hc'
      exact .inr ⟨p, p', (h.registered c hc).exists_parseTemplate hp,
        (h.registered c' hc').exists_parseTemplate hp', congrArg Answer.compiled heq,
        congrArg Answer.compiled heq'⟩
  · exact fun horder => houtcome.resolve_right fun hother => hother.1 horder

/-- Checking gives the same answer in any order, and leaves twins. -/
theorem checks {run run' : CheckRun}
    (hrun : Checks workers w.cache w.registry cancelled order run)
    (hrun' : Checks workers w'.cache w'.registry cancelled order' run') :
    run.outcome = run'.outcome ∧
      Twins ⟨run.reading.cache, run.registry⟩ ⟨run'.reading.cache, run'.registry⟩ cs := by
  have hpair := h.counterparts hcs
  obtain ⟨houtcome, hregistry⟩ := hpair.checks_agree hrun hrun'
  obtain ⟨hrecord, hleft⟩ := hrun.left hcs hpair.known hpair.faithful
  obtain ⟨-, hleft'⟩ := hrun'.left hcs hpair.known' hpair.faithful'
  exact ⟨houtcome, h.left (hregistry h.registry) hrecord hleft hleft'⟩

end Runs

section Sessions

variable {steps : List Step} {orders orders' : List (List String)} {answers answers' : List Answer}

/-- Whatever can come back from one twin can come back from the other in the same orders. -/
theorem mayAnswer (h : w.Twins w' cs) (hcs : Consistent cs)
    (hsteps : ∀ c ∈ steps.filterMap Step.added?, c ∈ cs)
    (hmay : w.MayAnswer workers steps orders answers) :
    w'.MayAnswer workers steps orders answers := by
  induction hmay generalizing w' with
  | done => exact .done
  | @change w op steps orders answers hmay ih =>
    obtain ⟨hadded, hsteps⟩ := forall_mem_filterMap_cons.1 hsteps
    obtain ⟨hanswer, htwins⟩ := h.change hadded
    rw [hanswer]
    exact .change (ih htwins hsteps)
  | @compile w root cancelled steps order orders run answers hrun hmay ih =>
    obtain ⟨-, hsteps⟩ := forall_mem_filterMap_cons.1 hsteps
    obtain ⟨run', hrun'⟩ := (h.counterparts hcs).exists_compiles hrun
    obtain ⟨-, houtcome, htwins⟩ := h.compiles hcs hrun hrun'
    rw [houtcome rfl]
    exact .compile hrun' (ih htwins hsteps)
  | @check w cancelled steps order orders run answers hrun hmay ih =>
    obtain ⟨-, hsteps⟩ := forall_mem_filterMap_cons.1 hsteps
    obtain ⟨run', hrun'⟩ := (h.counterparts hcs).exists_checks hrun
    obtain ⟨houtcome, htwins⟩ := h.checks hcs hrun hrun'
    rw [houtcome]
    exact .check hrun' (ih htwins hsteps)

/-- What comes back from twins agrees step by step, and is the same in the same orders. -/
theorem agree (h : w.Twins w' cs) (hcs : Consistent cs)
    (hsteps : ∀ c ∈ steps.filterMap Step.added?, c ∈ cs)
    (hmay : w.MayAnswer workers steps orders answers)
    (hmay' : w'.MayAnswer workers steps orders' answers') :
    List.Forall₂ (Answer.AgreesWith cs) answers answers' ∧
      (orders = orders' → answers = answers') := by
  induction hmay generalizing w' orders' answers' with
  | done =>
    cases hmay'
    exact ⟨.nil, fun _ => rfl⟩
  | @change w op steps orders answers hmay ih =>
    cases hmay' with
    | @change _ _ _ orders' answers' hmay' =>
      obtain ⟨hadded, hsteps⟩ := forall_mem_filterMap_cons.1 hsteps
      obtain ⟨hanswer, htwins⟩ := h.change hadded
      obtain ⟨hagree, hsame⟩ := ih htwins hsteps hmay'
      rw [hanswer]
      exact ⟨.cons (.inl rfl) hagree,
        fun horders => congrArg _ (hsame (List.cons.inj horders).2)⟩
  | @compile w root cancelled steps order orders run answers hrun hmay ih =>
    cases hmay' with
    | @compile _ _ _ _ order' orders' run' answers' hrun' hmay' =>
      obtain ⟨-, hsteps⟩ := forall_mem_filterMap_cons.1 hsteps
      obtain ⟨hanswer, houtcome, htwins⟩ := h.compiles hcs hrun hrun'
      obtain ⟨hagree, hsame⟩ := ih htwins hsteps hmay'
      refine ⟨.cons hanswer hagree, fun horders => ?_⟩
      obtain ⟨horder, horders⟩ := List.cons.inj horders
      rw [houtcome horder, hsame horders]
  | @check w cancelled steps order orders run answers hrun hmay ih =>
    cases hmay' with
    | @check _ _ _ order' orders' run' answers' hrun' hmay' =>
      obtain ⟨-, hsteps⟩ := forall_mem_filterMap_cons.1 hsteps
      obtain ⟨houtcome, htwins⟩ := h.checks hcs hrun hrun'
      obtain ⟨hagree, hsame⟩ := ih htwins hsteps hmay'
      rw [houtcome]
      exact ⟨.cons (.inl rfl) hagree,
        fun horders => congrArg _ (hsame (List.cons.inj horders).2)⟩

end Sessions

end Twins

/-- A compiler with a cache of any size cannot be told from one without, as long as a name and a
digest stand for the same template throughout. -/
theorem sameAnswers_without_cache (size : Int) (workers : Nat) (steps : List Step)
    (h : Consistent (steps.filterMap Step.added?)) :
    SameAnswers workers { cache := some (.ofSize size) } { cache := none } steps := by
  -- Nothing is registered in the beginning, and nothing is kept.
  have htwins : Twins { cache := some (.ofSize size) } { cache := none }
      (steps.filterMap Step.added?) := by
    refine ⟨rfl, List.Pairwise.nil, fun c hc => (nomatch hc), fun k hk => ?_,
      fun k hk => nomatch hk⟩
    obtain rfl := Option.some.inj hk
    exact ParseCache.faithful_ofSize size _
  have hall : ∀ c ∈ steps.filterMap Step.added?, c ∈ steps.filterMap Step.added? := fun _ => id
  refine ⟨fun orders answers => ⟨htwins.mayAnswer h hall, htwins.symm.mayAnswer h hall⟩,
    fun _ _ _ hmay hmay' => (htwins.agree h hall hmay hmay').2 rfl,
    fun _ _ _ _ hmay hmay' => (htwins.agree h hall hmay hmay').1,
    fun hworkers => exists_mayAnswer_answers hworkers _ steps, ?_, ?_⟩
  · rintro rfl _ _ hmay
    exact hmay.eq_answers
  · obtain ⟨orders, hmay⟩ := exists_mayAnswer_answers Nat.one_pos { cache := some (.ofSize size) }
      steps
    exact (htwins.mayAnswer h hall hmay).eq_answers

/-- A session in which a component comes back with another template, and therefore another digest,
and later with its first one. In the end there are two templates that cannot be read. -/
def revisions : List Step :=
  [.change (.register { name := "Card", template := "<p>old</p>", hash := "1" }),
   .change (.register { name := "Page", template := "<w-card></w-card>", hash := "1" }),
   .compile "Page" false, .change (.remove "Card"), .check false,
   .change (.register { name := "Card", template := "<p>new</p>", hash := "2" }),
   .compile "Page" false,
   .change (.register { name := "Card", template := "<p>old</p>", hash := "1" }), .check false,
   .compile "Page" false,
   .change (.register { name := "Card", template := "<p>", hash := "3" }),
   .change (.register { name := "Page", template := "</p>", hash := "2" }), .compile "Page" false]

/-- Neither a cache with room for one template nor a second worker shows in these answers, but for
which of the two templates is refused in the end. -/
theorem answers_revisions_eq : Consistent (revisions.filterMap Step.added?) ∧
    SameAnswers 2 { cache := some (.ofSize 1) } { cache := none } revisions := by
  have hconsistent : Consistent (revisions.filterMap Step.added?) := by
    unfold Consistent
    decide
  exact ⟨hconsistent, sameAnswers_without_cache 1 2 revisions hconsistent⟩

end Workspace

end ViewCompiler
