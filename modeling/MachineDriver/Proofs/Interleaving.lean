import MachineDriver.Proofs.Trace

set_option autoImplicit false

/-!
# Programs beside each other

Several programs run beside each other against one state: the next call of any of them may be
answered at any time, and the state goes on from there. A `Crew` is what is left of each program
together with the state, and a history is the list of all calls, each with the program that made it.

`path_crew_iff` takes a history apart: it is possible exactly when the calls of each program, on
their own, are a beginning of a trace of this program, and all calls together lead the state from
one end to the other. -/

namespace MachineDriver

/-! ## Beginnings of traces -/

namespace Program

variable {α β : Type}

/-- `q` is what is left of `p` after a call with its answer. -/
def Step (p : Program α) (e : Event) (q : Program α) : Prop :=
  ∃ next, p = .ask e.call next ∧ q = next e.answer

@[simp] theorem step_ask_iff {c : Call} {next : c.Answer → Program α} {e : Event} {q : Program α} :
    (Program.ask c next).Step e q ↔ ∃ answer, e = ⟨c, answer⟩ ∧ q = next answer := by
  constructor
  · rintro ⟨next', hask, rfl⟩
    obtain ⟨call, answer⟩ := e
    cases hask
    exact ⟨answer, rfl, rfl⟩
  · rintro ⟨answer, rfl, rfl⟩
    exact ⟨next, rfl, rfl⟩

theorem not_step_pure {v : α} {e : Event} {q : Program α} : ¬ (pure v : Program α).Step e q := by
  rintro ⟨next, hask, _⟩
  cases hask

/-- A program that is done goes no further. -/
@[simp] theorem path_pure_iff {v : α} {events : List Event} {q : Program α} :
    Path Step (pure v : Program α) events q ↔ events = [] ∧ q = pure v := by
  constructor
  · intro h
    cases events with
    | nil => exact ⟨rfl, h⟩
    | cons e rest =>
        obtain ⟨_, hstep, _⟩ := h
        exact absurd hstep not_step_pure
  · rintro ⟨rfl, rfl⟩
    exact rfl

/-- A trace is what leaves nothing of a program but its value. -/
theorem path_done_iff {p : Program α} {events : List Event} {v : α} :
    Path Step p events (.done v) ↔ p.Runs events v := by
  induction events generalizing p with
  | nil =>
      constructor
      · intro h
        cases path_nil_iff.mp h
        exact .done v
      · intro h
        cases h
        exact rfl
  | cons e rest ih =>
      constructor
      · rintro ⟨q, ⟨next, rfl, rfl⟩, hrest⟩
        exact .ask e.answer (ih.mp hrest)
      · intro h
        cases h with
        | ask answer hrest => exact ⟨_, ⟨_, rfl, rfl⟩, ih.mpr hrest⟩

theorem nonempty_answer (c : Call) : Nonempty c.Answer := by
  cases c with
  | now => exact ⟨(0 : Nat)⟩
  | sleep d => exact ⟨()⟩
  | _ => exact ⟨.error default⟩

/-- Every beginning of a program goes on to a value or a crash. -/
theorem exists_halts_of_path {p q : Program α} {events : List Event} (h : Path Step p events q) :
    ∃ rest outcome, p.Halts (events ++ rest) outcome := by
  induction events generalizing p with
  | nil =>
      clear h
      induction p with
      | done v => exact ⟨[], some v, .done v⟩
      | crash => exact ⟨[], none, .crash⟩
      | ask c next ih =>
          obtain ⟨answer⟩ := nonempty_answer c
          obtain ⟨rest, outcome, hrest⟩ := ih answer
          exact ⟨⟨c, answer⟩ :: rest, outcome, hrest.ask answer⟩
  | cons e events ih =>
      obtain ⟨_, ⟨next, rfl, rfl⟩, hrest⟩ := h
      obtain ⟨rest, outcome, hhalts⟩ := ih hrest
      exact ⟨rest, outcome, hhalts.ask e.answer⟩

/-- The beginning of a sequence lies within its first part, or goes on after it. -/
theorem cases_of_path_bind {p : Program α} {f : α → Program β} {events : List Event}
    {q : Program β} (h : Path Step (p >>= f) events q) :
    (∃ p', Path Step p events p')
      ∨ ∃ first rest u, events = first ++ rest ∧ p.Runs first u ∧ Path Step (f u) rest q := by
  induction events generalizing p with
  | nil => exact .inl ⟨p, rfl⟩
  | cons e rest ih =>
      cases p with
      | done u => exact .inr ⟨[], e :: rest, u, rfl, .done u, h⟩
      | crash =>
          obtain ⟨_, ⟨_, hask, _⟩, _⟩ := h
          cases hask
      | ask c next =>
          obtain ⟨q', hstep, hrest⟩ := h
          obtain ⟨answer, rfl, rfl⟩ := step_ask_iff.mp hstep
          rcases ih hrest with ⟨p', hp'⟩ | ⟨first, last, u, rfl, hfirst, hlast⟩
          · exact .inl ⟨p', _, step_ask_iff.mpr ⟨answer, rfl, rfl⟩, hp'⟩
          · exact .inr ⟨⟨c, answer⟩ :: first, last, u, rfl, .ask answer hfirst, hlast⟩

/-- The beginning of a program that begins with a call. -/
theorem path_call_bind_iff {c : Call} {f : c.Answer → Program β} {events : List Event}
    {q : Program β} :
    Path Step (call c >>= f) events q
      ↔ (events = [] ∧ q = call c >>= f)
        ∨ ∃ answer rest, events = ⟨c, answer⟩ :: rest ∧ Path Step (f answer) rest q := by
  rw [call_bind]
  cases events with
  | nil => simp
  | cons e rest =>
      simp only [path_cons_iff, step_ask_iff, List.cons.injEq, reduceCtorEq, false_and, false_or]
      constructor
      · rintro ⟨_, ⟨answer, rfl, rfl⟩, hrest⟩
        exact ⟨answer, rest, ⟨rfl, rfl⟩, hrest⟩
      · rintro ⟨answer, _, ⟨rfl, rfl⟩, hrest⟩
        exact ⟨f answer, ⟨answer, rfl, rfl⟩, hrest⟩

theorem MakesOnly.of_step {sort : Call → Prop} {p q : Program α} {e : Event}
    (hp : p.MakesOnly sort) (h : p.Step e q) : sort e.call ∧ q.MakesOnly sort := by
  obtain ⟨next, rfl, rfl⟩ := h
  exact ⟨hp.1, hp.2 e.answer⟩

/-- The beginning of a program that makes calls of one sort only holds no other call. -/
theorem MakesOnly.sort_of_path {sort : Call → Prop} {p q : Program α} {events : List Event}
    (hp : p.MakesOnly sort) (h : Path Step p events q) : ∀ e ∈ events, sort e.call := by
  induction events generalizing p with
  | nil => simp
  | cons e rest ih =>
      obtain ⟨p', hstep, hrest⟩ := h
      obtain ⟨he, hp'⟩ := hp.of_step hstep
      intro e' he'
      rcases List.mem_cons.mp he' with rfl | he'
      · exact he
      · exact ih hp' hrest e' he'

end Program

/-! ## Crews -/

/-- Programs that run beside each other against one state. -/
@[ext]
structure Crew (ι α σ : Type) where
  /-- What is left of each program. -/
  programs : ι → Program α
  state : σ

section Crew

variable {ι α σ : Type} {step : σ → Event → σ → Prop}

/-- What may become of a crew by a call of one of its programs: the state answers, and the other
    programs stay as they are. -/
def Crew.Step (step : σ → Event → σ → Prop) (s : Crew ι α σ) (x : ι × Event) (t : Crew ι α σ) :
    Prop :=
  (s.programs x.1).Step x.2 (t.programs x.1) ∧ (∀ i, i ≠ x.1 → t.programs i = s.programs i)
    ∧ step s.state x.2 t.state

variable [DecidableEq ι]

/-- The calls of one program among those of all. -/
def eventsOf (i : ι) (history : List (ι × Event)) : List Event :=
  (history.filter fun x => x.1 = i).map Prod.snd

@[simp] theorem mem_eventsOf_iff {i : ι} {history : List (ι × Event)} {e : Event} :
    e ∈ eventsOf i history ↔ (i, e) ∈ history := by
  simp only [eventsOf, List.mem_map, List.mem_filter, decide_eq_true_eq]
  constructor
  · rintro ⟨⟨j, e⟩, ⟨hmem, rfl⟩, rfl⟩
    exact hmem
  · intro hmem
    exact ⟨(i, e), ⟨hmem, rfl⟩, rfl⟩

theorem eventsOf_cons_self (i : ι) (e : Event) (history : List (ι × Event)) :
    eventsOf i ((i, e) :: history) = e :: eventsOf i history := by
  simp [eventsOf]

theorem eventsOf_cons_of_ne {i j : ι} (h : i ≠ j) (e : Event) (history : List (ι × Event)) :
    eventsOf i ((j, e) :: history) = eventsOf i history := by
  simp [eventsOf, h.symm]

/-- **A history of a crew** is a beginning of a trace for each of its programs, and a path of the
    state. -/
theorem path_crew_iff {s t : Crew ι α σ} {history : List (ι × Event)} :
    Path (Crew.Step step) s history t
      ↔ (∀ i, Path Program.Step (s.programs i) (eventsOf i history) (t.programs i))
        ∧ Path (fun u (x : ι × Event) w => step u x.2 w) s.state history t.state := by
  induction history generalizing s with
  | nil =>
      constructor
      · intro h
        cases h
        exact ⟨fun _ => rfl, rfl⟩
      · rintro ⟨hprograms, hstate⟩
        exact Crew.ext (funext hprograms) hstate
  | cons x rest ih =>
      obtain ⟨i, e⟩ := x
      constructor
      · rintro ⟨u, ⟨hown, hothers, hstep⟩, hrest⟩
        obtain ⟨hprograms, hstate⟩ := ih.mp hrest
        refine ⟨fun j => ?_, u.state, hstep, hstate⟩
        by_cases hj : j = i
        · subst hj
          rw [eventsOf_cons_self]
          exact ⟨u.programs j, hown, hprograms j⟩
        · rw [eventsOf_cons_of_ne hj, ← hothers j hj]
          exact hprograms j
      · rintro ⟨hprograms, w, hstep, hstate⟩
        have hi := hprograms i
        rw [eventsOf_cons_self] at hi
        obtain ⟨p, hown, hi⟩ := hi
        let u : Crew ι α σ := ⟨fun j => if j = i then p else s.programs j, w⟩
        have hself : u.programs i = p := if_pos rfl
        have hother (j : ι) (hj : j ≠ i) : u.programs j = s.programs j := if_neg hj
        refine ⟨u, ⟨by rw [hself]; exact hown, hother, hstep⟩, ih.mpr ⟨fun j => ?_, hstate⟩⟩
        by_cases hj : j = i
        · subst hj
          rw [hself]
          exact hi
        · rw [hother j hj, ← eventsOf_cons_of_ne hj e rest]
          exact hprograms j

end Crew

end MachineDriver
