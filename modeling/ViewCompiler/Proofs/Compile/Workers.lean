import Mathlib
import ViewCompiler.Compile.Workers
import ViewCompiler.Proofs.Compile.Caching
import ViewCompiler.Proofs.Registry.Content

/-!
# What several workers read

Workers that read templates always come to an end: as long as there is something to do one of them
can go on (`Crew.exists_step`), and every step leaves less to do (`Crew.Step.remaining_lt`). A
single worker has no choice, and reads the templates one after the other (`reads_one_iff`); several
workers may do the same (`reads_inTurn`).

What is read depends on the order in which the workers come back, and on nothing else. With a
faithful cache each of them comes back with what the parser makes of its template, so the templates
and the failures are those of the components in that order; every component is among them, unless
reading was given up (`Reads.exists_told`). Which orders there are does not depend on the cache
either: workers whose cache answers something else, or nothing at all, can still follow every step
(`Crew.Trails.step`), the only difference being that one of them may have to read what another one
finds. So the same orders are possible with every faithful cache and with none, and for components
that differ in nothing but their digests (`Reads.exists_reads`).
-/

namespace ViewCompiler

open ViewCompiler.Template

/-! ### The steps of a worker -/

namespace Stage

/-- What a worker has to come back with is what the parser makes of the template. -/
def Truthful (c : Component) : Stage → Prop
  | .finished result => result.map Prod.fst = Reading.parseTemplate c
  | .taken | .begun | .missed => True

end Stage

namespace Reading

variable {r r' : Reading} {cs : List Component} {c : Component}

/-- Two readings have the same templates and failures. -/
def SameAs (r r' : Reading) : Prop := r.templates = r'.templates ∧ r.failures = r'.failures

private theorem SameAs.givenUp_eq (h : r.SameAs r') (failFast : Bool) :
    r.givenUp failFast = r'.givenUp failFast := by
  rw [givenUp, givenUp, h.2]

/-- Asking a faithful cache gives the template or nothing. -/
theorem look_of_faithful (h : r.Faithful cs) (hc : c.IsKnown cs) :
    (r.look c).1.Faithful cs ∧ (r.look c).1.SameAs r ∧
      ((r.look c).2 = .missed ∨
        ∃ result, (r.look c).2 = .finished result ∧ result.map Prod.fst = parseTemplate c) := by
  obtain ⟨hkept, hread⟩ := lookup_of_faithful h hc
  unfold look
  split
  · rename_i nodes cache heq
    rw [heq] at hkept hread
    exact ⟨hkept, ⟨rfl, rfl⟩, .inr ⟨_, rfl, (hread nodes rfl).symm⟩⟩
  · rename_i cache heq
    rw [heq] at hkept
    exact ⟨hkept, ⟨rfl, rfl⟩, .inl rfl⟩

/-- Reading anew gives what the parser makes of the template, and leaves a faithful cache. -/
theorem parseAnew_of_faithful (h : r.Faithful cs) (hcs : Consistent cs) (hc : c.IsKnown cs) :
    (r.parseAnew c).1.Faithful cs ∧ (r.parseAnew c).1.SameAs r ∧
      ∃ result, (r.parseAnew c).2 = .finished result ∧ result.map Prod.fst = parseTemplate c := by
  unfold parseAnew
  cases hparse : parseTemplate c with
  | ok nodes => exact ⟨faithful_map_set h hcs hc hparse, ⟨rfl, rfl⟩, _, rfl, rfl⟩
  | error p => exact ⟨h, ⟨rfl, rfl⟩, _, rfl, rfl⟩

/-- What a worker comes back with is added behind the rest. -/
theorem tell_of_truthful {result : Result} (h : result.map Prod.fst = parseTemplate c) :
    (r.tell c result).cache = r.cache ∧
      (r.tell c result).templates = r.templates ++ templateOf c ∧
      (r.tell c result).failures = r.failures ++ failureOf c := by
  rw [templateOf, failureOf, ← h]
  rcases result with p | ⟨nodes, _ | _⟩
  · exact ⟨rfl, (List.append_nil _).symm, rfl⟩
  · exact ⟨rfl, rfl, (List.append_nil _).symm⟩
  · exact ⟨rfl, rfl, (List.append_nil _).symm⟩

/-- What is told does not touch the cache. -/
theorem faithful_tell {result : Result} (hfaithful : r.Faithful cs)
    (h : result.map Prod.fst = parseTemplate c) : (r.tell c result).Faithful cs :=
  fun k hk => hfaithful k ((tell_of_truthful (r := r) h).1 ▸ hk)

/-- Failures are never forgotten. -/
theorem givenUp_tell {result : Result} (h : result.map Prod.fst = parseTemplate c) {failFast : Bool}
    (hgivenUp : r.givenUp failFast = true) : (r.tell c result).givenUp failFast = true := by
  rw [givenUp, Bool.and_eq_true, Bool.not_eq_true', List.isEmpty_eq_false_iff] at hgivenUp ⊢
  rw [(tell_of_truthful h).2.2]
  exact ⟨hgivenUp.1, List.append_ne_nil_of_left_ne_nil hgivenUp.2 _⟩

/-- What was missed and what is told stands for one step of reading. -/
def finish (r : Reading) (c : Component) : Stage → Reading
  | .taken | .begun => r.step c
  | .missed =>
    match parseTemplate c with
    | .ok nodes =>
      { r with cache := r.cache.map (·.set c.name c.hash nodes)
               templates := r.templates ++ [(c.name, nodes)]
               parsed := r.parsed + 1 }
    | .error p => { r with failures := r.failures ++ [(c.name, p)] }
  | .finished result => r.tell c result

/-- Asking the cache leads to the same end. -/
theorem finish_look (r : Reading) (c : Component) :
    (r.look c).1.finish c (r.look c).2 = r.step c := by
  unfold look step
  cases r.lookup c with
  | mk found cache =>
    cases found with
    | none => rfl
    | some nodes => rfl

/-- Reading anew leads to the same end. -/
theorem finish_parseAnew (r : Reading) (c : Component) :
    (r.parseAnew c).1.finish c (r.parseAnew c).2 = r.finish c .missed := by
  unfold parseAnew finish
  cases parseTemplate c <;> rfl

/-- Reading anew always comes to something. -/
theorem exists_parseAnew (r : Reading) (c : Component) :
    ∃ result, (r.parseAnew c).2 = .finished result := by
  unfold parseAnew
  cases parseTemplate c with
  | ok nodes => exact ⟨_, rfl⟩
  | error p => exact ⟨_, rfl⟩

/-- Asking the cache gives a template, or the worker has to read it. -/
theorem look_cases (r : Reading) (c : Component) :
    (r.look c).2 = .missed ∨ ∃ result, (r.look c).2 = .finished result := by
  unfold look
  split
  · exact .inr ⟨_, rfl⟩
  · exact .inl rfl

end Reading

/-! ### Coming to an end -/

namespace Stage

/-- How many more steps a worker has to do at most. -/
def remaining : Stage → Nat
  | .taken => 4
  | .begun => 3
  | .missed => 2
  | .finished _ => 1

end Stage

namespace Crew

variable {workers : Nat} {failFast : Bool} {s t : Crew}

/-- How many more steps can be done at most. -/
def remaining (s : Crew) : Nat :=
  5 * s.waiting.length + (s.busy.map fun worker => worker.2.remaining).sum

/-- Every step leaves less to do. -/
theorem Step.remaining_lt (h : Step workers failFast s t) : t.remaining < s.remaining := by
  cases h with
  | take =>
    simp only [remaining, List.length_cons, List.map_append, List.sum_append, List.map_cons,
      List.map_nil, List.sum_cons, List.sum_nil, Stage.remaining]
    omega
  | drop | begin | come =>
    simp only [remaining, List.map_append, List.sum_append, List.map_cons, List.sum_cons,
      Stage.remaining]
    omega
  | @look r cs before c after back =>
    have hless : (r.look c).2.remaining < 3 := by
      rcases r.look_cases c with h | ⟨result, h⟩
      · rw [h]; decide
      · rw [h, Stage.remaining]; decide
    simp only [remaining, List.map_append, List.sum_append, List.map_cons, List.sum_cons]
    rw [show Stage.begun.remaining = 3 from rfl]
    omega
  | @parse r cs before c after back =>
    obtain ⟨result, h⟩ := r.exists_parseAnew c
    simp only [remaining, List.map_append, List.sum_append, List.map_cons, List.sum_cons, h,
      Stage.remaining]
    omega

/-- A worker that is busy can always go on. -/
private theorem exists_step_of_busy {worker : Component × Stage} (h : worker ∈ s.busy) :
    ∃ t, Step workers failFast s t := by
  obtain ⟨r, cs, busy, back⟩ := s
  obtain ⟨c, stage⟩ := worker
  obtain ⟨before, after, hbusy⟩ := List.append_of_mem h
  obtain rfl : busy = before ++ (c, stage) :: after := hbusy
  cases stage with
  | taken =>
    cases hgiven : r.givenUp failFast with
    | true => exact ⟨_, .drop hgiven⟩
    | false => exact ⟨_, .begin hgiven⟩
  | begun => exact ⟨_, .look⟩
  | missed => exact ⟨_, .parse⟩
  | finished result => exact ⟨_, .come⟩

/-- As long as something is left to do, something can be done. -/
theorem exists_step (hworkers : 0 < workers) (h : s.waiting ≠ [] ∨ s.busy ≠ []) :
    ∃ t, Step workers failFast s t := by
  cases hbusy : s.busy with
  | cons worker busy => exact exists_step_of_busy (hbusy ▸ List.mem_cons_self)
  | nil =>
    obtain ⟨r, cs, busy, back⟩ := s
    obtain rfl : busy = [] := hbusy
    obtain ⟨c, cs', rfl⟩ := List.exists_cons_of_ne_nil (h.resolve_right fun hne => hne rfl)
    exact ⟨_, .take hworkers⟩

/-- However far workers have come, they come to an end. -/
theorem exists_end (hworkers : 0 < workers) (s : Crew) :
    ∃ r order, Relation.ReflTransGen (Step workers failFast) s
      { reading := r, waiting := [], back := order } := by
  induction hremaining : s.remaining using Nat.strong_induction_on generalizing s with
  | _ n ih =>
    by_cases hleft : s.waiting ≠ [] ∨ s.busy ≠ []
    · obtain ⟨t, ht⟩ : ∃ t, Step workers failFast s t := exists_step hworkers hleft
      obtain ⟨r, order, hend⟩ := ih t.remaining (hremaining ▸ ht.remaining_lt) t rfl
      exact ⟨r, order, .head ht hend⟩
    · obtain ⟨r, cs, busy, back⟩ := s
      obtain ⟨hwaiting, hbusy⟩ := not_or.1 hleft
      obtain rfl : cs = [] := not_not.1 hwaiting
      obtain rfl : busy = [] := not_not.1 hbusy
      exact ⟨r, back, .refl⟩

end Crew

/-! ### One after the other -/

namespace Reading

variable {r : Reading} {failFast : Bool}

/-- Reads the templates one after the other, and notes which ones. -/
def inTurn (failFast : Bool) : List Component → Reading × List String → Reading × List String
  | [], x => x
  | c :: cs, (r, order) =>
    if r.givenUp failFast then (r, order)
    else inTurn failFast cs (r.step c, order ++ [c.name])

private theorem inTurn_of_givenUp (h : r.givenUp failFast = true) (cs : List Component)
    (order : List String) : inTurn failFast cs (r, order) = (r, order) := by
  cases cs with
  | nil => rfl
  | cons c cs => rw [inTurn, if_pos h]

/-- Reading on reads everything. -/
theorem inTurn_false (r : Reading) (cs : List Component) (order : List String) :
    inTurn false cs (r, order) = (r.all cs, order ++ cs.map Component.name) := by
  induction cs generalizing r order with
  | nil => rw [inTurn, List.map_nil, List.append_nil]; rfl
  | cons c cs ih =>
    have hgiven : r.givenUp false = false := rfl
    rw [inTurn, hgiven, if_neg Bool.false_ne_true, ih, List.append_assoc]
    rfl

/-- Reading up to the first failure is given up there. -/
theorem inTurn_true (h : r.failures = []) (cs : List Component) (order : List String) :
    (inTurn true cs (r, order)).1 = r.untilFailure cs := by
  induction cs generalizing r order with
  | nil => rfl
  | cons c cs ih =>
    have hgiven : r.givenUp true = false := by rw [givenUp, h]; rfl
    rw [inTurn, hgiven, if_neg Bool.false_ne_true, untilFailure]
    split
    · rename_i hempty
      exact ih (List.isEmpty_iff.1 hempty) _
    · rename_i hempty
      have hgiven' : (r.step c).givenUp true = true := by
        rw [givenUp, Bool.eq_false_iff.2 hempty]
        rfl
      rw [inTurn_of_givenUp hgiven']

end Reading

namespace Crew

variable {workers : Nat} {failFast : Bool} {r : Reading} {cs : List Component} {back : List String}

/-- A worker alone comes back with its component. -/
private theorem reaches_step (hworkers : 0 < workers) (h : r.givenUp failFast = false)
    (c : Component) :
    Relation.ReflTransGen (Step workers failFast) ⟨r, c :: cs, [], back⟩
      ⟨r.step c, cs, [], back ++ [c.name]⟩ := by
  have hbegin : Relation.ReflTransGen (Step workers failFast) ⟨r, c :: cs, [], back⟩
      ⟨(r.look c).1, cs, [(c, (r.look c).2)], back⟩ :=
    .head (.take hworkers) <| .head (@Step.begin _ _ r cs [] c [] back h) <|
      .single (@Step.look _ _ r cs [] c [] back)
  rw [← r.finish_look c]
  refine hbegin.trans ?_
  rcases r.look_cases c with hmissed | ⟨result, hfound⟩
  · obtain ⟨result, hread⟩ := (r.look c).1.exists_parseAnew c
    have hparse := @Step.parse workers failFast (r.look c).1 cs [] c [] back
    have hcome := @Step.come workers failFast ((r.look c).1.parseAnew c).1 cs [] c result [] back
    rw [hmissed, ← Reading.finish_parseAnew]
    rw [hread] at hparse ⊢
    exact .head hparse (.single hcome)
  · rw [hfound]
    exact .single (@Step.come _ _ _ cs [] c result [] back)

/-- Workers that have been given up drop whatever is waiting. -/
private theorem reaches_of_givenUp (hworkers : 0 < workers) (h : r.givenUp failFast = true)
    (cs : List Component) :
    Relation.ReflTransGen (Step workers failFast) ⟨r, cs, [], back⟩ ⟨r, [], [], back⟩ := by
  induction cs with
  | nil => exact .refl
  | cons c cs ih =>
    exact .head (.take hworkers) (.head (@Step.drop _ _ r cs [] c [] back h) ih)

/-- Workers may read the templates one after the other. -/
private theorem reaches_inTurn (hworkers : 0 < workers) (cs : List Component) (r : Reading)
    (back : List String) :
    Relation.ReflTransGen (Step workers failFast) ⟨r, cs, [], back⟩
      ⟨(Reading.inTurn failFast cs (r, back)).1, [], [],
        (Reading.inTurn failFast cs (r, back)).2⟩ := by
  induction cs generalizing r back with
  | nil => exact .refl
  | cons c cs ih =>
    cases hgiven : r.givenUp failFast with
    | true =>
      rw [Reading.inTurn_of_givenUp hgiven]
      exact reaches_of_givenUp hworkers hgiven (c :: cs)
    | false =>
      rw [Reading.inTurn, hgiven, if_neg Bool.false_ne_true]
      exact (reaches_step hworkers hgiven c).trans (ih _ _)

/-- Where a single worker will end. -/
def destination (failFast : Bool) (s : Crew) : Reading × List String :=
  match s.busy with
  | [] => Reading.inTurn failFast s.waiting (s.reading, s.back)
  | (c, .taken) :: _ => Reading.inTurn failFast (c :: s.waiting) (s.reading, s.back)
  | (c, stage) :: _ =>
    Reading.inTurn failFast s.waiting (s.reading.finish c stage, s.back ++ [c.name])

private theorem destination_of_ne_taken {c : Component} {stage : Stage} (h : stage ≠ .taken) :
    destination failFast ⟨r, cs, [(c, stage)], back⟩ =
      Reading.inTurn failFast cs (r.finish c stage, back ++ [c.name]) := by
  cases stage with
  | taken => exact absurd rfl h
  | begun | missed | finished => rfl

/-- A single worker cannot change where it will end. -/
private theorem Step.destination_eq {s t : Crew} (h : Step 1 failFast s t)
    (hone : s.busy.length ≤ 1) :
    t.busy.length ≤ 1 ∧ t.destination failFast = s.destination failFast := by
  have halone : ∀ {before after : List (Component × Stage)} {worker : Component × Stage},
      (before ++ worker :: after).length ≤ 1 → before = [] ∧ after = [] := by
    intro before after worker h
    rw [List.length_append, List.length_cons] at h
    exact ⟨List.eq_nil_of_length_eq_zero (by omega), List.eq_nil_of_length_eq_zero (by omega)⟩
  cases h with
  | @take r c cs busy back hfew =>
    obtain rfl : busy = [] := List.eq_nil_of_length_eq_zero (Nat.lt_one_iff.1 hfew)
    exact ⟨Nat.le_refl 1, rfl⟩
  | @drop r cs before c after back hgiven =>
    obtain ⟨rfl, rfl⟩ := halone hone
    refine ⟨Nat.zero_le 1, ?_⟩
    simp only [destination, List.nil_append, Reading.inTurn_of_givenUp hgiven]
  | @begin r cs before c after back hgiven =>
    obtain ⟨rfl, rfl⟩ := halone hone
    refine ⟨Nat.le_refl 1, ?_⟩
    simp only [destination, List.nil_append, Reading.inTurn, hgiven, Bool.false_eq_true, if_false]
    rfl
  | @look r cs before c after back =>
    obtain ⟨rfl, rfl⟩ := halone hone
    have hon : (r.look c).2 ≠ .taken := by
      rcases r.look_cases c with h | ⟨result, h⟩
      · exact h ▸ Stage.noConfusion
      · exact h ▸ Stage.noConfusion
    refine ⟨Nat.le_refl 1, ?_⟩
    rw [List.nil_append, List.nil_append, destination_of_ne_taken hon, r.finish_look c]
    rfl
  | @parse r cs before c after back =>
    obtain ⟨rfl, rfl⟩ := halone hone
    have hon : (r.parseAnew c).2 ≠ .taken := by
      obtain ⟨result, h⟩ := r.exists_parseAnew c
      exact h ▸ Stage.noConfusion
    refine ⟨Nat.le_refl 1, ?_⟩
    rw [List.nil_append, List.nil_append, destination_of_ne_taken hon, r.finish_parseAnew c]
    rfl
  | @come r cs before c result after back =>
    obtain ⟨rfl, rfl⟩ := halone hone
    exact ⟨Nat.zero_le 1, rfl⟩

end Crew

section Reads

variable {workers : Nat} {failFast : Bool} {cache : Option ParseCache} {cs : List Component}
  {order : List String} {r : Reading}

/-- Workers may read the templates one after the other. -/
theorem reads_inTurn (failFast : Bool) (cache : Option ParseCache) (cs : List Component)
    (hworkers : 0 < workers) :
    Reads workers failFast cache cs (Reading.inTurn failFast cs ({ cache }, [])).2
      (Reading.inTurn failFast cs ({ cache }, [])).1 :=
  Crew.reaches_inTurn hworkers cs { cache } []

/-- A single worker reads the templates one after the other. -/
theorem reads_one_iff :
    Reads 1 failFast cache cs order r ↔
      (r, order) = Reading.inTurn failFast cs ({ cache }, []) := by
  constructor
  · intro h
    -- Where the worker will end is settled from the beginning.
    have hkept : ∀ {s t : Crew}, Relation.ReflTransGen (Crew.Step 1 failFast) s t →
        s.busy.length ≤ 1 → t.busy.length ≤ 1 ∧
          t.destination failFast = s.destination failFast := by
      intro s t hst hone
      induction hst with
      | refl => exact ⟨hone, rfl⟩
      | tail _ hstep ih =>
        obtain ⟨hone', heq⟩ := hstep.destination_eq ih.1
        exact ⟨hone', heq.trans ih.2⟩
    exact (hkept h (Nat.zero_le 1)).2
  · intro h
    have hturn := reads_inTurn failFast cache cs Nat.one_pos
    rwa [← h] at hturn

/-- A worker without a cache that has a template which cannot be read may go ahead of all others. -/
theorem Crew.reaches_refused (before after : List (Component × Stage)) {back : List String}
    {c : Component} {p : Problem} (hnone : r.cache = none) (hgiven : r.givenUp failFast = false)
    (hc : Reading.parseTemplate c = .error p) :
    Relation.ReflTransGen (Step workers failFast) ⟨r, cs, before ++ (c, .taken) :: after, back⟩
      ⟨{ r with failures := r.failures ++ [(c.name, p)] }, cs, before ++ after,
       back ++ [c.name]⟩ := by
  have hlook := @Step.look workers failFast r cs before c after back
  have hparse := @Step.parse workers failFast r cs before c after back
  have hmissed : r.look c = (r, .missed) := by
    obtain ⟨cache, templates, failures, parsed, cached⟩ := r
    obtain rfl : cache = none := hnone
    rfl
  rw [hmissed] at hlook
  rw [Reading.parseAnew, hc] at hparse
  exact .head (.begin hgiven) (.head hlook (.head hparse (.single .come)))

/-- Of two templates that cannot be read, two workers may come back with either first. The other one
is dropped, since its worker has not begun by then. -/
theorem reads_either {a b : Component} {p q : Problem} (ha : Reading.parseTemplate a = .error p)
    (hb : Reading.parseTemplate b = .error q) :
    Reads 2 true none [a, b] [a.name] { cache := none, failures := [(a.name, p)] } ∧
      Reads 2 true none [a, b] [b.name] { cache := none, failures := [(b.name, q)] } := by
  have htaken : Relation.ReflTransGen (Crew.Step 2 true) ⟨{ cache := none }, [a, b], [], []⟩
      ⟨{ cache := none }, [], [(a, .taken), (b, .taken)], []⟩ :=
    .head (.take Nat.two_pos) (.single (.take Nat.one_lt_two))
  constructor
  · refine htaken.trans ((Crew.reaches_refused [] [(b, .taken)] rfl rfl ha).trans ?_)
    exact .single (@Crew.Step.drop _ _ _ [] [] b [] _ rfl)
  · refine htaken.trans ((Crew.reaches_refused [(a, .taken)] [] rfl rfl hb).trans ?_)
    exact .single (@Crew.Step.drop _ _ _ [] [] a [] _ rfl)

/-- Compiling with several workers may go as it goes with one. -/
theorem exists_compiles_compile (cache : Option ParseCache) (reg : Registry) (root : String)
    (cancelled : Bool) (hworkers : 0 < workers) :
    ∃ order,
      Compiles workers cache reg root cancelled order (compile cache reg root cancelled) := by
  unfold Compiles compile
  cases reg.lookup? root with
  | none => exact ⟨[], rfl, rfl⟩
  | some c =>
    cases cancelled with
    | true => exact ⟨[], rfl, rfl⟩
    | false =>
      have hreads := reads_inTurn true cache reg.components hworkers
      rw [Reading.inTurn_true rfl] at hreads
      exact ⟨_, _, hreads, rfl⟩

/-- Checking with several workers may go as it goes with one. -/
theorem exists_checks_check (cache : Option ParseCache) (reg : Registry) (cancelled : Bool)
    (hworkers : 0 < workers) :
    ∃ order, Checks workers cache reg cancelled order (check cache reg cancelled) := by
  unfold Checks check
  split
  · exact ⟨[], rfl, rfl⟩
  · have hreads := reads_inTurn false cache reg.components hworkers
    rw [Reading.inTurn_false] at hreads
    exact ⟨_, _, hreads, rfl⟩

variable {reg : Registry} {root : String} {cancelled : Bool}

/-- Compiling with one worker goes one way. -/
theorem Compiles.eq_compile {run : CompileRun}
    (h : Compiles 1 cache reg root cancelled order run) :
    run = compile cache reg root cancelled := by
  unfold Compiles at h
  unfold compile
  cases hc : reg.lookup? root with
  | none =>
    rw [hc] at h
    exact h.2
  | some c =>
    rw [hc] at h
    cases cancelled with
    | true => exact h.2
    | false =>
      obtain ⟨r, hreads, rfl⟩ := h
      have hread := congrArg Prod.fst (reads_one_iff.1 hreads)
      rw [Reading.inTurn_true rfl] at hread
      exact congrArg (reg.concluded c) hread

/-- Checking with one worker goes one way. -/
theorem Checks.eq_check {run : CheckRun} (h : Checks 1 cache reg cancelled order run) :
    run = check cache reg cancelled := by
  unfold Checks at h
  unfold check
  split at h
  · rename_i hstopped
    rw [if_pos hstopped]
    exact h.2
  · rename_i hstopped
    obtain ⟨r, hreads, rfl⟩ := h
    have hread := congrArg Prod.fst (reads_one_iff.1 hreads)
    rw [Reading.inTurn_false] at hread
    rw [if_neg hstopped]
    exact congrArg reg.checked hread

end Reads

/-! ### What the workers come back with -/

/-- What has become of the components `ds`: those that workers have come back with, in that order,
and those that were dropped. What is read is what the parser makes of the former. The caches are
faithful to the components `cs`. -/
structure Crew.Accounts (failFast : Bool) (cs ds : List Component) (s : Crew)
    (told dropped : List Component) : Prop where
  known : ∀ d ∈ ds, d.IsKnown cs
  faithful : s.reading.Faithful cs
  back : s.back = told.map Component.name
  templates : s.reading.templates = told.flatMap Reading.templateOf
  failures : s.reading.failures = told.flatMap Reading.failureOf
  truthful : ∀ worker ∈ s.busy, worker.2.Truthful worker.1
  perm : (told ++ s.busy.map Prod.fst ++ s.waiting ++ dropped).Perm ds
  givenUp : dropped ≠ [] → s.reading.givenUp failFast = true

namespace Crew.Accounts

variable {workers : Nat} {failFast : Bool} {cs ds told dropped : List Component} {s t : Crew}

theorem isKnown (h : s.Accounts failFast cs ds told dropped) {worker : Component × Stage}
    (hworker : worker ∈ s.busy) : worker.1.IsKnown cs :=
  h.known _ <| h.perm.subset <| List.mem_append_left _ <| List.mem_append_left _ <|
    List.mem_append_right _ (List.mem_map_of_mem hworker)

/-- A step of a worker that neither drops its component nor comes back with it. -/
theorem work {r : Reading} {waiting : List Component} {before after : List (Component × Stage)}
    {c : Component} {stage : Stage} {back : List String}
    (h : Accounts failFast cs ds ⟨r, waiting, before ++ (c, stage) :: after, back⟩ told dropped)
    {r' : Reading} {stage' : Stage} (hfaithful : r'.Faithful cs) (hsame : r'.SameAs r)
    (htruthful : stage'.Truthful c) :
    Accounts failFast cs ds ⟨r', waiting, before ++ (c, stage') :: after, back⟩ told dropped := by
  obtain ⟨hknown, -, hback, htemplates, hfailures, hbusy, hperm, hgiven⟩ := h
  refine ⟨hknown, hfaithful, hback, hsame.1.trans htemplates, hsame.2.trans hfailures, ?_, ?_, ?_⟩
  · rw [List.forall_mem_append, List.forall_mem_cons] at hbusy ⊢
    exact ⟨hbusy.1, htruthful, hbusy.2.2⟩
  · rw [List.map_append, List.map_cons] at hperm ⊢
    exact hperm
  · intro hne
    exact (hsame.givenUp_eq failFast).trans (hgiven hne)

/-- It does not matter at which place a component is counted. -/
theorem perm_of_append_eq {front rest front' rest' : List Component}
    (h : front ++ rest = front' ++ rest') (c : Component) :
    (front ++ c :: rest).Perm (front' ++ c :: rest') := by
  refine List.perm_middle.trans ?_
  rw [h]
  exact List.perm_middle.symm

/-- A component that is dropped is counted among the dropped ones. -/
theorem drop {r : Reading} {waiting : List Component} {before after : List (Component × Stage)}
    {c : Component} {stage : Stage} {back : List String}
    (h : Accounts failFast cs ds ⟨r, waiting, before ++ (c, stage) :: after, back⟩ told dropped)
    (hgivenUp : r.givenUp failFast = true) :
    Accounts failFast cs ds ⟨r, waiting, before ++ after, back⟩ told (c :: dropped) := by
  obtain ⟨hknown, hfaithful, hback, htemplates, hfailures, hbusy, hperm, -⟩ := h
  refine ⟨hknown, hfaithful, hback, htemplates, hfailures, ?_, ?_, fun _ => hgivenUp⟩
  · rw [List.forall_mem_append, List.forall_mem_cons] at hbusy
    exact List.forall_mem_append.2 ⟨hbusy.1, hbusy.2.2⟩
  · have heq : told ++ (before ++ after).map Prod.fst ++ waiting ++ dropped =
        told ++ before.map Prod.fst ++ (after.map Prod.fst ++ waiting ++ dropped) := by
      simp only [List.map_append, List.append_assoc]
    refine (perm_of_append_eq heq c).trans ?_
    simpa only [List.map_append, List.map_cons, List.append_assoc, List.cons_append] using hperm

/-- A component that a worker comes back with is the last one told. -/
theorem come {r : Reading} {waiting : List Component} {before after : List (Component × Stage)}
    {c : Component} {result : Result} {back : List String}
    (h : Accounts failFast cs ds ⟨r, waiting, before ++ (c, .finished result) :: after, back⟩ told
      dropped) :
    Accounts failFast cs ds ⟨r.tell c result, waiting, before ++ after, back ++ [c.name]⟩
      (told ++ [c]) dropped := by
  obtain ⟨hknown, hfaithful, hback, htemplates, hfailures, hbusy, hperm, hgivenUp⟩ := h
  rw [List.forall_mem_append, List.forall_mem_cons] at hbusy
  obtain ⟨hbefore, hresult, hafter⟩ := hbusy
  obtain ⟨-, htold, hfailed⟩ := Reading.tell_of_truthful (r := r) hresult
  refine ⟨hknown, Reading.faithful_tell hfaithful hresult, ?_, ?_, ?_,
    List.forall_mem_append.2 ⟨hbefore, hafter⟩, ?_,
    fun hne => Reading.givenUp_tell hresult (hgivenUp hne)⟩
  · rw [List.map_append, List.map_cons, List.map_nil]
    exact congrArg (· ++ [c.name]) hback
  · rw [List.flatMap_append, List.flatMap_singleton, htold]
    exact congrArg (· ++ Reading.templateOf c) htemplates
  · rw [List.flatMap_append, List.flatMap_singleton, hfailed]
    exact congrArg (· ++ Reading.failureOf c) hfailures
  · have heq : told ++ ((before ++ after).map Prod.fst ++ waiting ++ dropped) =
        told ++ before.map Prod.fst ++ (after.map Prod.fst ++ waiting ++ dropped) := by
      simp only [List.map_append, List.append_assoc]
    rw [List.append_assoc, List.append_assoc, List.append_assoc, List.singleton_append,
      ← List.append_assoc _ waiting]
    refine (perm_of_append_eq heq c).trans ?_
    simpa only [List.map_append, List.map_cons, List.append_assoc, List.cons_append] using hperm

/-- Every step accounts for what it does. -/
theorem step (h : s.Accounts failFast cs ds told dropped) (hcs : Consistent cs)
    (hstep : Step workers failFast s t) :
    ∃ told' dropped', t.Accounts failFast cs ds told' dropped' := by
  cases hstep with
  | take _ =>
    obtain ⟨hknown, hfaithful, hback, htemplates, hfailures, hbusy, hperm, hgivenUp⟩ := h
    refine ⟨told, dropped, hknown, hfaithful, hback, htemplates, hfailures, ?_, ?_, hgivenUp⟩
    · exact List.forall_mem_append.2 ⟨hbusy, List.forall_mem_singleton.2 trivial⟩
    · simpa only [List.map_append, List.map_cons, List.map_nil, List.append_assoc,
        List.cons_append, List.nil_append] using hperm
  | drop hgivenUp => exact ⟨told, _, h.drop hgivenUp⟩
  | begin _ => exact ⟨told, dropped, h.work h.faithful ⟨rfl, rfl⟩ trivial⟩
  | look =>
    have hc := h.isKnown (List.mem_append_right _ List.mem_cons_self)
    obtain ⟨hfaithful, hsame, hlook⟩ := Reading.look_of_faithful h.faithful hc
    refine ⟨told, dropped, h.work hfaithful hsame ?_⟩
    rcases hlook with hmissed | ⟨result, hfound, hresult⟩
    · exact hmissed ▸ trivial
    · rw [hfound]
      exact hresult
  | parse =>
    have hc := h.isKnown (List.mem_append_right _ List.mem_cons_self)
    obtain ⟨hfaithful, hsame, result, hread, hresult⟩ :=
      Reading.parseAnew_of_faithful h.faithful hcs hc
    refine ⟨told, dropped, h.work hfaithful hsame ?_⟩
    rw [hread]
    exact hresult
  | come => exact ⟨_, dropped, h.come⟩

/-- Whatever the workers do, what has become of each component is known. -/
theorem run (h : s.Accounts failFast cs ds told dropped) (hcs : Consistent cs)
    (hrun : Relation.ReflTransGen (Step workers failFast) s t) :
    ∃ told' dropped', t.Accounts failFast cs ds told' dropped' := by
  induction hrun with
  | refl => exact ⟨told, dropped, h⟩
  | tail _ hstep ih =>
    obtain ⟨told', dropped', haccounts⟩ := ih
    exact haccounts.step hcs hstep

end Crew.Accounts

/-- What is read is what the parser makes of the templates of some components, in the order in which
the workers came back with them. The others were dropped. -/
theorem Reads.exists_told {workers : Nat} {failFast : Bool} {cache : Option ParseCache}
    {cs ds : List Component} {order : List String} {r : Reading}
    (h : Reads workers failFast cache ds order r) (hcs : Consistent cs)
    (hds : ∀ d ∈ ds, d.IsKnown cs) (hcache : ∀ k ∈ cache, k.Faithful cs) :
    ∃ told dropped, Crew.Accounts failFast cs ds { reading := r, waiting := [], back := order } told
      dropped := by
  have hstart : Crew.Accounts failFast cs ds { reading := { cache }, waiting := ds } [] [] := by
    refine ⟨hds, hcache, rfl, rfl, rfl, List.forall_mem_nil _, ?_, fun hne => absurd rfl hne⟩
    rw [List.append_nil]
    exact .refl ds
  exact hstart.run hcs h

/-! ### Other caches and other digests -/

/-- Two components with the same contents, each of them known on its side. -/
structure Component.Twins (cs cs' : List Component) (c c' : Component) : Prop where
  content : c.content = c'.content
  known : c.IsKnown cs
  known' : c'.IsKnown cs'

/-- Components with the same contents are twins, one by one. -/
theorem Component.twins_of_content {cs cs' ds ds' : List Component}
    (h : ds.map Component.content = ds'.map Component.content) (hds : ∀ d ∈ ds, d.IsKnown cs)
    (hds' : ∀ d ∈ ds', d.IsKnown cs') : List.Forall₂ (Component.Twins cs cs') ds ds' := by
  induction ds generalizing ds' with
  | nil =>
    obtain rfl := List.map_eq_nil_iff.1 h.symm
    exact .nil
  | cons d ds ih =>
    obtain ⟨d', rest, rfl, hd, hrest⟩ := List.map_eq_cons_iff.1 h.symm
    obtain ⟨hknown, hds⟩ := List.forall_mem_cons.1 hds
    obtain ⟨hknown', hds'⟩ := List.forall_mem_cons.1 hds'
    exact .cons ⟨hd.symm, hknown, hknown'⟩ (ih hrest.symm hds hds')

namespace Reading

variable {c c' : Component} (h : c.content = c'.content)
include h

/-- What a template reads as depends on the contents of its component. -/
theorem parseTemplate_eq_of_content : parseTemplate c = parseTemplate c' :=
  show parseTemplate c.content = parseTemplate c'.content from congrArg parseTemplate h

private theorem templateOf_eq_of_content : templateOf c = templateOf c' :=
  show templateOf c.content = templateOf c'.content from congrArg templateOf h

private theorem failureOf_eq_of_content : failureOf c = failureOf c' :=
  show failureOf c.content = failureOf c'.content from congrArg failureOf h

/-- Readings that are the same stay so when they are told what one template reads as. -/
theorem SameAs.tell {r r' : Reading} (hsame : r.SameAs r') {result result' : Result}
    (hresult : result.map Prod.fst = parseTemplate c)
    (hresult' : result'.map Prod.fst = parseTemplate c') :
    (r.tell c result).SameAs (r'.tell c' result') := by
  obtain ⟨-, htold, hfailed⟩ := tell_of_truthful (r := r) hresult
  obtain ⟨-, htold', hfailed'⟩ := tell_of_truthful (r := r') hresult'
  constructor
  · rw [htold, htold', hsame.1, templateOf_eq_of_content h]
  · rw [hfailed, hfailed', hsame.2, failureOf_eq_of_content h]

end Reading

/-- One worker is as far as another one with the same template, except that the other one has not
asked its cache while the one reads what its own cache did not have. -/
inductive Stage.Trails (c : Component) : Stage → Stage → Prop
  | taken : Trails c .taken .taken
  | begun : Trails c .begun .begun
  | missed : Trails c .missed .begun
  | finished {result result' : Result} (h : result.map Prod.fst = Reading.parseTemplate c)
      (h' : result'.map Prod.fst = Reading.parseTemplate c) :
      Trails c (.finished result) (.finished result')

namespace Crew

variable {workers : Nat} {failFast : Bool} {cs cs' : List Component}

/-- Of two crews with faithful caches, the one has come as far as the other except for what the
other one has still to look up. -/
structure Trails (cs cs' : List Component) (s s' : Crew) : Prop where
  faithful : s.reading.Faithful cs
  faithful' : s'.reading.Faithful cs'
  same : s.reading.SameAs s'.reading
  waiting : List.Forall₂ (Component.Twins cs cs') s.waiting s'.waiting
  busy : List.Forall₂ (fun x y => x.1.Twins cs cs' y.1 ∧ x.2.Trails x.1 y.2) s.busy s'.busy
  back : s.back = s'.back

/-- A worker that has begun can get as far as having something to come back with. -/
theorem reaches_finished {r : Reading} (waiting : List Component)
    (before after : List (Component × Stage)) {c : Component} (back : List String)
    (h : r.Faithful cs) (hcs : Consistent cs) (hc : c.IsKnown cs) :
    ∃ r' result, Relation.ReflTransGen (Step workers failFast)
        ⟨r, waiting, before ++ (c, .begun) :: after, back⟩
        ⟨r', waiting, before ++ (c, .finished result) :: after, back⟩ ∧
      r'.Faithful cs ∧ r'.SameAs r ∧ result.map Prod.fst = Reading.parseTemplate c := by
  have hlook := @Step.look workers failFast r waiting before c after back
  obtain ⟨hfaithful, hsame, hmissed | ⟨result, hfound, hresult⟩⟩ := Reading.look_of_faithful h hc
  · rw [hmissed] at hlook
    obtain ⟨hfaithful', hsame', result, hread, hresult⟩ :=
      Reading.parseAnew_of_faithful hfaithful hcs hc
    have hparse := @Step.parse workers failFast (r.look c).1 waiting before c after back
    rw [hread] at hparse
    exact ⟨_, result, .head hlook (.single hparse), hfaithful',
      ⟨hsame'.1.trans hsame.1, hsame'.2.trans hsame.2⟩, hresult⟩
  · rw [hfound] at hlook
    exact ⟨_, result, .single hlook, hfaithful, hsame, hresult⟩

/-- Two lists that correspond can be cut at corresponding places. -/
theorem exists_of_forall₂_append_cons {α β : Type} {R : α → β → Prop} {before after : List α}
    {x : α} {l : List β} (h : List.Forall₂ R (before ++ x :: after) l) :
    ∃ before' y after', l = before' ++ y :: after' ∧ List.Forall₂ R before before' ∧ R x y ∧
      List.Forall₂ R after after' := by
  induction before generalizing l with
  | nil =>
    obtain ⟨y, after', hxy, hafter, rfl⟩ := List.forall₂_cons_left_iff.1 h
    exact ⟨[], y, after', rfl, .nil, hxy, hafter⟩
  | cons z before ih =>
    obtain ⟨z', rest, hz, hrest, rfl⟩ := List.forall₂_cons_left_iff.1 h
    obtain ⟨before', y, after', rfl, hbefore, hxy, hafter⟩ := ih hrest
    exact ⟨z' :: before', y, after', rfl, .cons hz hbefore, hxy, hafter⟩

/-- A worker of a crew has a counterpart in the one that trails it. -/
theorem Trails.exists_worker {r : Reading} {waiting : List Component}
    {before after : List (Component × Stage)} {c : Component} {stage : Stage} {back : List String}
    {s' : Crew} (h : Trails cs cs' ⟨r, waiting, before ++ (c, stage) :: after, back⟩ s') :
    ∃ r' waiting' before' c' stage' after',
      s' = ⟨r', waiting', before' ++ (c', stage') :: after', back⟩ ∧ r'.Faithful cs' ∧
        r.SameAs r' ∧ c.Twins cs cs' c' ∧ stage.Trails c stage' ∧
        ∀ {r₁ r₁' : Reading}, r₁.Faithful cs → r₁'.Faithful cs' → r₁.SameAs r₁' →
          (∀ {stage₁ stage₁' : Stage}, stage₁.Trails c stage₁' →
            Trails cs cs' ⟨r₁, waiting, before ++ (c, stage₁) :: after, back⟩
              ⟨r₁', waiting', before' ++ (c', stage₁') :: after', back⟩) ∧
          ∀ back₁, Trails cs cs' ⟨r₁, waiting, before ++ after, back₁⟩
            ⟨r₁', waiting', before' ++ after', back₁⟩ := by
  obtain ⟨r', waiting', busy', back'⟩ := s'
  obtain ⟨-, hfaithful', hsame, hwaiting, hbusy, hback⟩ := h
  obtain rfl : back = back' := hback
  obtain ⟨before', ⟨c', stage'⟩, after', rfl, hbefore, ⟨htwins, hstage⟩, hafter⟩ :=
    exists_of_forall₂_append_cons hbusy
  refine ⟨r', waiting', before', c', stage', after', rfl, hfaithful', hsame, htwins, hstage, ?_⟩
  intro r₁ r₁' hr₁ hr₁' hsame₁
  refine ⟨fun hstage₁ => ⟨hr₁, hr₁', hsame₁, hwaiting, ?_, rfl⟩, fun back₁ =>
    ⟨hr₁, hr₁', hsame₁, hwaiting, List.rel_append hbefore hafter, rfl⟩⟩
  exact List.rel_append hbefore (.cons ⟨htwins, hstage₁⟩ hafter)

/-- While one worker gets a result, its counterpart, which has only begun, can get one as well. -/
theorem Trails.exists_finished {r r₁ : Reading} {waiting : List Component}
    {before after : List (Component × Stage)} {c : Component} {stage : Stage} {back : List String}
    {s' : Crew} (h : Trails cs cs' ⟨r, waiting, before ++ (c, stage) :: after, back⟩ s')
    (hbegun : ∀ stage', stage.Trails c stage' → stage' = .begun) (hcs' : Consistent cs')
    (hfaithful : r₁.Faithful cs) (hsame : r₁.SameAs r) {result : Result}
    (hresult : result.map Prod.fst = Reading.parseTemplate c) :
    ∃ t', Relation.ReflTransGen (Step workers failFast) s' t' ∧
      Trails cs cs' ⟨r₁, waiting, before ++ (c, .finished result) :: after, back⟩ t' := by
  obtain ⟨r', waiting', before', c', stage', after', rfl, hfaithful', hread, htwins, hstage, hgo⟩ :=
    h.exists_worker
  obtain rfl := hbegun stage' hstage
  obtain ⟨r₁', result', hreach, hkept', hread', hresult'⟩ :=
    reaches_finished waiting' before' after' back hfaithful' hcs' htwins.known'
  rw [← Reading.parseTemplate_eq_of_content htwins.content] at hresult'
  have hsame' : r₁.SameAs r₁' :=
    ⟨(hsame.1.trans hread.1).trans hread'.1.symm, (hsame.2.trans hread.2).trans hread'.2.symm⟩
  exact ⟨_, hreach, (hgo hfaithful hkept' hsame').1 (.finished hresult hresult')⟩

/-- A crew that trails another one can follow every step. -/
theorem Trails.step {s s' t : Crew} (h : s.Trails cs cs' s') (hcs : Consistent cs)
    (hcs' : Consistent cs') (hstep : Step workers failFast s t) :
    ∃ t', Relation.ReflTransGen (Step workers failFast) s' t' ∧ t.Trails cs cs' t' := by
  cases hstep with
  | @take r c waiting busy back hfew =>
    obtain ⟨r', waiting', busy', back'⟩ := s'
    obtain ⟨hfaithful, hfaithful', hsame, hwaiting, hbusy, hback⟩ := h
    obtain ⟨c', waiting', htwins, hrest, rfl⟩ := List.forall₂_cons_left_iff.1 hwaiting
    have hfew' : busy'.length < workers := hbusy.length_eq ▸ hfew
    refine ⟨_, .single (.take hfew'), hfaithful, hfaithful', hsame, hrest, ?_, hback⟩
    exact List.rel_append hbusy (.cons ⟨htwins, .taken⟩ .nil)
  | drop hgivenUp =>
    obtain ⟨r', waiting', before', c', stage', after', rfl, hfaithful', hsame, -, ⟨⟩, hgo⟩ :=
      h.exists_worker
    refine ⟨_, .single (.drop (hsame.givenUp_eq failFast ▸ hgivenUp)), ?_⟩
    exact (hgo h.faithful hfaithful' hsame).2 _
  | begin hgivenUp =>
    obtain ⟨r', waiting', before', c', stage', after', rfl, hfaithful', hsame, -, ⟨⟩, hgo⟩ :=
      h.exists_worker
    refine ⟨_, .single (.begin (hsame.givenUp_eq failFast ▸ hgivenUp)), ?_⟩
    exact (hgo h.faithful hfaithful' hsame).1 .begun
  | @look r waiting before c after back =>
    obtain ⟨r', waiting', before', c', stage', after', rfl, hfaithful', hsame, htwins, ⟨⟩, hgo⟩ :=
      h.exists_worker
    obtain ⟨hkept, hread, hmissed | ⟨result, hfound, hresult⟩⟩ :=
      Reading.look_of_faithful h.faithful htwins.known
    · -- The other one waits until it is settled whether anything will be found.
      rw [hmissed]
      exact ⟨_, .refl, (hgo hkept hfaithful' ⟨hread.1.trans hsame.1, hread.2.trans hsame.2⟩).1
        .missed⟩
    · rw [hfound]
      exact h.exists_finished (fun _ hstage => by cases hstage; rfl) hcs' hkept hread hresult
  | @parse r waiting before c after back =>
    obtain ⟨r', waiting', before', c', stage', after', rfl, -, -, htwins, -, -⟩ := h.exists_worker
    obtain ⟨hkept, hread, result, hfound, hresult⟩ :=
      Reading.parseAnew_of_faithful h.faithful hcs htwins.known
    rw [hfound]
    exact h.exists_finished (fun _ hstage => by cases hstage; rfl) hcs' hkept hread hresult
  | @come r waiting before c result after back =>
    obtain ⟨r', waiting', before', c', stage', after', rfl, hfaithful', hsame, htwins, hstage,
      hgo⟩ := h.exists_worker
    cases hstage with
    | @finished _ result' hresult hresult' =>
    rw [Reading.parseTemplate_eq_of_content htwins.content] at hresult'
    refine ⟨_, .single .come, ?_⟩
    rw [(Component.content_eq_iff.1 htwins.content).1]
    exact (hgo (Reading.faithful_tell h.faithful hresult)
      (Reading.faithful_tell hfaithful' hresult')
      (Reading.SameAs.tell htwins.content hsame hresult hresult')).2 _

/-- A crew that trails another one can follow it wherever it gets. -/
theorem Trails.run {s s' t : Crew} (h : s.Trails cs cs' s') (hcs : Consistent cs)
    (hcs' : Consistent cs') (hrun : Relation.ReflTransGen (Step workers failFast) s t) :
    ∃ t', Relation.ReflTransGen (Step workers failFast) s' t' ∧ t.Trails cs cs' t' := by
  induction hrun with
  | refl => exact ⟨s', .refl, h⟩
  | tail _ hstep ih =>
    obtain ⟨t', hreach, htrails⟩ := ih
    obtain ⟨u', hreach', htrails'⟩ := htrails.step hcs hcs' hstep
    exact ⟨u', hreach.trans hreach', htrails'⟩

end Crew

/-- The workers can come back in the same order whatever their cache has, and whatever the digests
of the components are. -/
theorem Reads.exists_reads {workers : Nat} {failFast : Bool} {cache cache' : Option ParseCache}
    {cs cs' ds ds' : List Component} {order : List String} {r : Reading}
    (h : Reads workers failFast cache ds order r)
    (hcontent : ds.map Component.content = ds'.map Component.content)
    (hcs : Consistent cs) (hds : ∀ d ∈ ds, d.IsKnown cs) (hcache : ∀ k ∈ cache, k.Faithful cs)
    (hcs' : Consistent cs') (hds' : ∀ d ∈ ds', d.IsKnown cs')
    (hcache' : ∀ k ∈ cache', k.Faithful cs') :
    ∃ r', Reads workers failFast cache' ds' order r' := by
  have hstart : Crew.Trails cs cs' { reading := { cache }, waiting := ds }
      { reading := { cache := cache' }, waiting := ds' } :=
    ⟨hcache, hcache', ⟨rfl, rfl⟩, Component.twins_of_content hcontent hds hds', .nil, rfl⟩
  obtain ⟨⟨r', waiting', busy', back'⟩, hreach, -, -, -, hwaiting, hbusy, hback⟩ :=
    hstart.run hcs hcs' h
  obtain rfl : waiting' = [] := List.forall₂_nil_left_iff.1 hwaiting
  obtain rfl : busy' = [] := List.forall₂_nil_left_iff.1 hbusy
  obtain rfl : order = back' := hback
  exact ⟨r', hreach⟩

end ViewCompiler
