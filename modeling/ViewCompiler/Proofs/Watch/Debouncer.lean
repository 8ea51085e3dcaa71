import Mathlib.Data.List.Induction
import Mathlib.Data.String.Basic
import ViewCompiler.Proofs.Text.Order
import ViewCompiler.Watch.Debouncer

/-!
# What a debouncer hands on and what it loses

A batch holds one change for every path, the last one, and lists them by path (`IsBatch`). A flush
hands on such a batch if the queue has room for it. If there is none, the changes are gone all the
same: nothing is pending afterwards, and nothing has been queued.

A path that has changed is therefore pending or in a batch that waits until it is received, unless a
flush has found the queue full (`Debouncer.flush_cases_and_holds_run`). Ten batches that nobody
takes are enough to lose a change (`Debouncer.flush_loses_change`).

What happens to a debouncer is a row of steps (`Debouncer.Step`): a change is noted, the timer runs
out and what is pending is flushed, or somebody receives the oldest batch. They come in any order,
since the timer and the receiver are not in step with each other. What is proved of a run is proved
of one step first: what is held before a step is held after it, or the step delivers it, or it drops
it (`Debouncer.Holds`).

A path counts as held whatever the change was. A later change of the same path takes the place of an
earlier one that is pending, so of the changes of a file only the last one is handed on.
-/

namespace ViewCompiler.Watch

open ViewCompiler.Text

variable {e f : Event} {es : List Event}

/-! ### Batches -/

/-- An event that is not followed by another one for its path. -/
def IsLast (es : List Event) (e : Event) : Prop :=
  ∃ before after, es = before ++ e :: after ∧ ∀ f ∈ after, f.path ≠ e.path

/-- The last event of a path is the newest one, or an older one of another path. -/
theorem isLast_concat_iff : IsLast (es ++ [e]) f ↔ f = e ∨ IsLast es f ∧ f.path ≠ e.path := by
  constructor
  · rintro ⟨before, after, heq, hafter⟩
    rcases List.eq_nil_or_concat after with rfl | ⟨after, g, rfl⟩
    · exact .inl (List.singleton_inj.1 (List.append_inj' heq rfl).2).symm
    · rw [List.concat_eq_append, ← List.cons_append, ← List.append_assoc] at heq
      obtain ⟨rfl, hlast⟩ := List.append_inj' heq rfl
      obtain rfl := List.singleton_inj.1 hlast
      rw [List.concat_eq_append, List.forall_mem_append] at hafter
      exact .inr ⟨⟨before, after, rfl, hafter.1⟩, (hafter.2 e List.mem_cons_self).symm⟩
  · rintro (rfl | ⟨⟨before, after, rfl, hafter⟩, hne⟩)
    · exact ⟨es, [], rfl, List.forall_mem_nil _⟩
    · refine ⟨before, after ++ [e], by simp, ?_⟩
      exact List.forall_mem_append.2 ⟨hafter, List.forall_mem_singleton.2 hne.symm⟩

/-- Every path with an event has a last one. -/
private theorem exists_isLast (h : e ∈ es) : ∃ f, IsLast es f ∧ f.path = e.path := by
  induction es using List.reverseRecOn with
  | nil => cases h
  | append_singleton es g ih =>
    by_cases hpath : g.path = e.path
    · exact ⟨g, isLast_concat_iff.2 (.inl rfl), hpath⟩
    · have hmem : e ∈ es := by
        rcases List.mem_append.1 h with hmem | hmem
        · exact hmem
        · exact absurd (congrArg Event.path (List.mem_singleton.1 hmem)).symm hpath
      obtain ⟨f, hf, hfe⟩ := ih hmem
      exact ⟨f, isLast_concat_iff.2 (.inr ⟨hf, fun heq => hpath (heq.symm.trans hfe)⟩), hfe⟩

/-- The batch of some events: one event for every path, the last one, in the order of the paths. -/
structure IsBatch (es b : List Event) : Prop where
  sorted : b.Pairwise (·.path < ·.path)
  mem_iff : ∀ e, e ∈ b ↔ IsLast es e

private theorem placeEvent_eq_placeBy (e : Event) (es : List Event) :
    placeEvent e es = placeBy Event.path e es := by
  induction es with
  | nil => rfl
  | cons f fs ih => rw [placeEvent, placeBy, ih]

/-- A batch holds the last event of every path. -/
theorem isBatch_batch (es : List Event) : IsBatch es (batch es) := by
  induction es using List.reverseRecOn with
  | nil =>
    refine ⟨.nil, fun e => iff_of_false List.not_mem_nil ?_⟩
    rintro ⟨before, after, heq, -⟩
    simp at heq
  | append_singleton es g ih =>
    have hplace : batch (es ++ [g]) = placeBy Event.path g (batch es) := by
      rw [← placeEvent_eq_placeBy, batch, List.foldl_append]
      rfl
    rw [hplace]
    exact ⟨pairwise_placeBy ih.sorted, fun e => by
      rw [mem_placeBy ih.sorted, ih.mem_iff, isLast_concat_iff]⟩

namespace Debouncer

/-! ### Flushing -/

variable {d : Debouncer}

private theorem flush_of_pending_eq_nil (h : d.pending = []) : d.flush = d := by
  rw [flush, h]
  rfl

/-- Where there is room, a flush queues what is pending. -/
theorem flush_of_lt (h : d.pending ≠ []) (hroom : d.queue.length < d.capacity) :
    d.flush = { d with pending := [], queue := d.queue ++ [batch d.pending] } := by
  rw [flush, if_neg (by simpa using h), if_pos hroom]

/-- A flush that finds the queue full loses what is pending. -/
theorem flush_of_le (h : d.pending ≠ []) (hfull : d.capacity ≤ d.queue.length) :
    d.flush = { d with pending := [] } := by
  rw [flush, if_neg (by simpa using h), if_neg hfull.not_gt]

/-! ### Runs -/

/-- What can happen to a debouncer. -/
inductive Step where
  | add (e : Event)
  | flush
  | receive
  deriving DecidableEq

/-- Makes a step. A receiver waits for a batch. -/
def next (d : Debouncer) : Step → Debouncer
  | .add e => d.add e
  | .flush => d.flush
  | .receive => d.receive.elim d Prod.snd

/-- The debouncer after some steps. -/
def run (d : Debouncer) (steps : List Step) : Debouncer := steps.foldl next d

variable {path : String} {s : Step} {steps : List Step}

/-- A change of the path is pending, or it is in a batch that waits. -/
def Holds (d : Debouncer) (path : String) : Prop :=
  (∃ e ∈ d.pending, e.path = path) ∨ ∃ b ∈ d.queue, ∃ e ∈ b, e.path = path

instance : Decidable (d.Holds path) := inferInstanceAs (Decidable (_ ∨ _))

/-- The step receives a batch with a change of the path. -/
def Delivers (d : Debouncer) (path : String) (s : Step) : Prop :=
  s = .receive ∧ ∃ b ∈ d.queue.head?, ∃ e ∈ b, e.path = path

/-- The step flushes a pending change of the path while the queue is full. -/
def Drops (d : Debouncer) (path : String) (s : Step) : Prop :=
  s = .flush ∧ d.capacity ≤ d.queue.length ∧ ∃ e ∈ d.pending, e.path = path

/-- Some step of a run is of the given kind, with the debouncer as it is by then. -/
def Meets (kind : Debouncer → Step → Prop) (d : Debouncer) (steps : List Step) : Prop :=
  ∃ before s after, steps = before ++ s :: after ∧ kind (d.run before) s

theorem Meets.head {kind : Debouncer → Step → Prop} (h : kind d s) : Meets kind d (s :: steps) :=
  ⟨[], s, steps, rfl, h⟩

theorem Meets.tail {kind : Debouncer → Step → Prop} (h : Meets kind (d.next s) steps) :
    Meets kind d (s :: steps) := by
  obtain ⟨before, s', after, rfl, hkind⟩ := h
  exact ⟨s :: before, s', after, rfl, hkind⟩

private theorem holds_add (d : Debouncer) (e : Event) : (d.add e).Holds e.path :=
  .inl ⟨e, List.mem_append_right _ List.mem_cons_self, rfl⟩

/-- A batch has a change for every path with a pending one. -/
private theorem exists_mem_batch {e : Event} (h : e ∈ d.pending) :
    ∃ f ∈ batch d.pending, f.path = e.path := by
  obtain ⟨f, hf, hpath⟩ := exists_isLast h
  exact ⟨f, ((isBatch_batch _).mem_iff f).2 hf, hpath⟩

/-- A flush keeps what is held, or drops it for want of room. -/
private theorem holds_flush (h : d.Holds path) : d.flush.Holds path ∨ d.Drops path .flush := by
  by_cases hpending : d.pending = []
  · rw [flush_of_pending_eq_nil hpending]
    exact .inl h
  · rcases Nat.lt_or_ge d.queue.length d.capacity with hroom | hfull
    · rw [flush_of_lt hpending hroom]
      left
      rcases h with ⟨e, he, rfl⟩ | ⟨b, hb, he⟩
      · exact .inr ⟨_, List.mem_append_right _ List.mem_cons_self, exists_mem_batch he⟩
      · exact .inr ⟨b, List.mem_append_left _ hb, he⟩
    · rw [flush_of_le hpending hfull]
      rcases h with he | hb
      · exact .inr ⟨rfl, hfull, he⟩
      · exact .inl (.inr hb)

/-- Receiving keeps what is held, or delivers it. -/
private theorem holds_receive (h : d.Holds path) :
    (d.next .receive).Holds path ∨ d.Delivers path .receive := by
  obtain ⟨capacity, pending, queue⟩ := d
  cases queue with
  | nil => exact .inl h
  | cons b queue =>
    rcases h with he | ⟨c, hc, he⟩
    · exact .inl (.inl he)
    · rcases List.mem_cons.1 hc with rfl | hc
      · exact .inr ⟨rfl, c, rfl, he⟩
      · exact .inl (.inr ⟨c, hc, he⟩)

/-- A path that waits goes on to wait unless the step receives or drops it. -/
private theorem holds_next (h : d.Holds path) (s : Step) :
    (d.next s).Holds path ∨ d.Delivers path s ∨ d.Drops path s := by
  cases s with
  | add e =>
    left
    rcases h with ⟨f, hf, hpath⟩ | hb
    · exact .inl ⟨f, List.mem_append_left _ hf, hpath⟩
    · exact .inr hb
  | flush => exact (holds_flush h).imp_right .inr
  | receive => exact (holds_receive h).imp_right .inl

/-- Whatever is done, what is held stays held until it is delivered or dropped. -/
private theorem holds_run (h : d.Holds path) (steps : List Step) : (d.run steps).Holds path ∨
    d.Meets (Delivers · path) steps ∨ d.Meets (Drops · path) steps := by
  induction steps generalizing d with
  | nil => exact .inl h
  | cons s steps ih =>
    rcases holds_next h s with h | h | h
    · exact (ih h).imp_right (.imp .tail .tail)
    · exact .inr (.inl (.head h))
    · exact .inr (.inr (.head h))

private theorem run_append (d : Debouncer) (before after : List Step) :
    d.run (before ++ after) = (d.run before).run after := List.foldl_append

/-- A flush changes nothing where nothing is pending. Otherwise nothing is pending afterwards: the
changes are queued as one batch, or lost where the queue is full. So a path that has changed is
pending or in a batch that waits until one with it is received, or a flush loses it. -/
theorem flush_cases_and_holds_run (d : Debouncer) :
    (d.pending = [] ∧ d.flush = d ∨
      d.pending ≠ [] ∧ d.queue.length < d.capacity ∧ (∃ b, IsBatch d.pending b ∧
        d.flush = { d with pending := [], queue := d.queue ++ [b] }) ∨
      d.pending ≠ [] ∧ d.capacity ≤ d.queue.length ∧ d.flush = { d with pending := [] }) ∧
    ∀ before e after, (d.run (before ++ .add e :: after)).Holds e.path ∨
      (d.run (before ++ [.add e])).Meets (Delivers · e.path) after ∨
      (d.run (before ++ [.add e])).Meets (Drops · e.path) after := by
  constructor
  · by_cases hpending : d.pending = []
    · exact .inl ⟨hpending, flush_of_pending_eq_nil hpending⟩
    · rcases Nat.lt_or_ge d.queue.length d.capacity with hroom | hfull
      · exact .inr (.inl ⟨hpending, hroom, _, isBatch_batch _, flush_of_lt hpending hroom⟩)
      · exact .inr (.inr ⟨hpending, hfull, flush_of_le hpending hfull⟩)
  · intro before e after
    have hadded : (d.run (before ++ [.add e])).Holds e.path := by
      rw [run_append]
      exact holds_add _ e
    have hsteps : before ++ .add e :: after = before ++ [.add e] ++ after := by simp
    rw [hsteps, run_append]
    exact holds_run hadded after

namespace Sample

def card : Event := ⟨.modified, "card.css", 12⟩

def page : Event := ⟨.modified, "page.css", 9⟩

/-- Ten changes of one file, each in a batch of its own. -/
def busy : List Step := (List.replicate 10 [.add card, .flush]).flatten

end Sample

/-- While ten batches wait, a flush loses what is pending: the page has changed and nobody has
received anything, but its path neither is pending nor waits in a batch. -/
theorem flush_loses_change :
    let d := run {} (Sample.busy ++ [.add Sample.page])
    (∀ s ∈ Sample.busy, s ≠ .receive) ∧ d.pending = [Sample.page] ∧ d.queue.length = d.capacity ∧
      d.flush = { d with pending := [] } ∧ ¬d.flush.Holds Sample.page.path := by
  decide

end Debouncer

end ViewCompiler.Watch
