import MachineDriver.Machine.Program

set_option autoImplicit false

/-!
# Traces of programs

What a program does, whatever its calls are answered. `Program.Runs` relates a program to the calls
that it makes, each with its answer, and to the value that it ends with, and `Program.Crashes`
relates it to the calls after which it crashes; nothing is said of where the answers come from, so
that a statement about all traces holds of every cluster and of every failure. `runs_bind_iff` and
`crashes_bind_iff` cut the trace of a sequence into the traces of its parts.

A cluster comes in through its steps: `Path` says that a list of labels leads from one state to
another. `exists_halts_run` ties both to the runs of programs against a state that answers. -/

namespace MachineDriver

/-- A call with the answer to it. -/
structure Event where
  call : Call
  answer : call.Answer

namespace Program

variable {α β : Type}

/-! ## Traces -/

/-- `p.Runs events v`: `p` makes the calls of `events`, in this order, and ends with `v` when it is
    answered as `events` tells. -/
inductive Runs {α : Type} : Program α → List Event → α → Prop where
  | done (v : α) : Runs (.done v) [] v
  | ask {call : Call} {next : call.Answer → Program α} {events : List Event} {v : α}
      (answer : call.Answer) (rest : Runs (next answer) events v) :
      Runs (.ask call next) (⟨call, answer⟩ :: events) v

@[simp] theorem runs_pure_iff {v u : α} {events : List Event} :
    (pure v : Program α).Runs events u ↔ events = [] ∧ u = v := by
  constructor
  · intro h
    cases h
    exact ⟨rfl, rfl⟩
  · rintro ⟨rfl, rfl⟩
    exact .done u

theorem runs_ask_iff {call : Call} {next : call.Answer → Program α} {events : List Event} {v : α} :
    (Program.ask call next).Runs events v
      ↔ ∃ answer rest, events = ⟨call, answer⟩ :: rest ∧ (next answer).Runs rest v := by
  constructor
  · intro h
    cases h with
    | ask answer rest => exact ⟨answer, _, rfl, rest⟩
  · rintro ⟨answer, rest, rfl, h⟩
    exact .ask answer h

@[simp] theorem runs_call_iff {c : Call} {events : List Event} {answer : c.Answer} :
    (call c).Runs events answer ↔ events = [⟨c, answer⟩] := by
  unfold call
  rw [runs_ask_iff]
  constructor
  · rintro ⟨a, rest, rfl, h⟩
    cases h
    rfl
  · rintro rfl
    exact ⟨answer, [], rfl, .done answer⟩

/-- **A trace of a sequence** is a trace of its first part and then one of the rest. -/
theorem runs_bind_iff {p : Program α} {f : α → Program β} {events : List Event} {v : β} :
    (p >>= f).Runs events v
      ↔ ∃ first rest u, events = first ++ rest ∧ p.Runs first u ∧ (f u).Runs rest v := by
  induction p generalizing events with
  | done u =>
      constructor
      · intro h
        exact ⟨[], events, u, rfl, .done u, h⟩
      · rintro ⟨first, rest, u', rfl, hfirst, hrest⟩
        cases hfirst
        exact hrest
  | crash => exact ⟨nofun, fun ⟨_, _, _, _, hfirst, _⟩ => nomatch hfirst⟩
  | ask c next ih =>
      rw [ask_bind, runs_ask_iff]
      constructor
      · rintro ⟨answer, tail, rfl, h⟩
        obtain ⟨first, rest, u, rfl, hfirst, hrest⟩ := (ih answer).mp h
        exact ⟨⟨c, answer⟩ :: first, rest, u, rfl, .ask answer hfirst, hrest⟩
      · rintro ⟨first, rest, u, rfl, hfirst, hrest⟩
        cases hfirst with
        | @ask _ _ tail _ answer hfirst =>
            exact ⟨answer, tail ++ rest, rfl, (ih answer).mpr ⟨tail, rest, u, rfl, hfirst, hrest⟩⟩

/-- What a program does that begins with a call. -/
theorem runs_call_bind_iff {c : Call} {f : c.Answer → Program β} {events : List Event} {v : β} :
    (call c >>= f).Runs events v
      ↔ ∃ answer rest, events = ⟨c, answer⟩ :: rest ∧ (f answer).Runs rest v := by
  rw [call_bind, runs_ask_iff]

/-! ## Crashes -/

/-- `p.Crashes events`: `p` makes the calls of `events`, in this order, and crashes after them when
    it is answered as `events` tells. -/
inductive Crashes {α : Type} : Program α → List Event → Prop where
  | crash : Crashes .crash []
  | ask {call : Call} {next : call.Answer → Program α} {events : List Event}
      (answer : call.Answer) (rest : Crashes (next answer) events) :
      Crashes (.ask call next) (⟨call, answer⟩ :: events)

@[simp] theorem not_crashes_pure {v : α} {events : List Event} :
    ¬ (pure v : Program α).Crashes events :=
  nofun

theorem crashes_ask_iff {call : Call} {next : call.Answer → Program α} {events : List Event} :
    (Program.ask call next).Crashes events
      ↔ ∃ answer rest, events = ⟨call, answer⟩ :: rest ∧ (next answer).Crashes rest := by
  constructor
  · intro h
    cases h with
    | ask answer rest => exact ⟨answer, _, rfl, rest⟩
  · rintro ⟨answer, rest, rfl, h⟩
    exact .ask answer h

/-- **A sequence crashes** in its first part, or in the rest after a trace of the first part. -/
theorem crashes_bind_iff {p : Program α} {f : α → Program β} {events : List Event} :
    (p >>= f).Crashes events
      ↔ p.Crashes events
        ∨ ∃ first rest u, events = first ++ rest ∧ p.Runs first u ∧ (f u).Crashes rest := by
  induction p generalizing events with
  | done u =>
      constructor
      · intro h
        exact .inr ⟨[], events, u, rfl, .done u, h⟩
      · rintro (hfirst | ⟨first, rest, u', rfl, hfirst, hrest⟩)
        · cases hfirst
        · cases hfirst
          exact hrest
  | crash =>
      constructor
      · intro h
        cases h
        exact .inl .crash
      · rintro (hfirst | ⟨_, _, _, _, hfirst, _⟩)
        · cases hfirst
          exact .crash
        · cases hfirst
  | ask c next ih =>
      rw [ask_bind, crashes_ask_iff, crashes_ask_iff]
      constructor
      · rintro ⟨answer, tail, rfl, h⟩
        rcases (ih answer).mp h with hfirst | ⟨first, rest, u, rfl, hfirst, hrest⟩
        · exact .inl ⟨answer, tail, rfl, hfirst⟩
        · exact .inr ⟨⟨c, answer⟩ :: first, rest, u, rfl, .ask answer hfirst, hrest⟩
      · rintro (⟨answer, tail, rfl, hfirst⟩ | ⟨first, rest, u, rfl, hfirst, hrest⟩)
        · exact ⟨answer, tail, rfl, (ih answer).mpr (.inl hfirst)⟩
        · cases hfirst with
          | @ask _ _ tail _ answer hfirst =>
              exact ⟨answer, tail ++ rest, rfl,
                (ih answer).mpr (.inr ⟨tail, rest, u, rfl, hfirst, hrest⟩)⟩

/-- How a program that begins with a call crashes. -/
theorem crashes_call_bind_iff {c : Call} {f : c.Answer → Program β} {events : List Event} :
    (call c >>= f).Crashes events
      ↔ ∃ answer rest, events = ⟨c, answer⟩ :: rest ∧ (f answer).Crashes rest := by
  rw [call_bind, crashes_ask_iff]

/-- A program that does not crash, whatever its calls are answered. -/
def NeverCrashes (p : Program α) : Prop :=
  ∀ events, ¬ p.Crashes events

theorem NeverCrashes.pure (v : α) : (pure v : Program α).NeverCrashes :=
  fun _ => not_crashes_pure

theorem NeverCrashes.call (c : Call) : (Program.call c).NeverCrashes := by
  intro events h
  obtain ⟨_, _, _, hrest⟩ := crashes_ask_iff.mp h
  cases hrest

theorem NeverCrashes.bind {p : Program α} {f : α → Program β} (hp : p.NeverCrashes)
    (hf : ∀ v, (f v).NeverCrashes) : (p >>= f).NeverCrashes := by
  intro events h
  rcases crashes_bind_iff.mp h with hfirst | ⟨_, rest, u, _, _, hrest⟩
  · exact hp events hfirst
  · exact hf u rest hrest

/-- What the calls of a program lead to: a value, or a crash. -/
def Halts (p : Program α) (events : List Event) : Option α → Prop
  | some v => p.Runs events v
  | none => p.Crashes events

theorem Halts.ask {call : Call} {next : call.Answer → Program α} {events : List Event}
    {outcome : Option α} (answer : call.Answer) (h : (next answer).Halts events outcome) :
    (Program.ask call next).Halts (⟨call, answer⟩ :: events) outcome := by
  cases outcome with
  | some v => exact Runs.ask answer h
  | none => exact Crashes.ask answer h

theorem Halts.exists_runs {p : Program α} {events : List Event} {outcome : Option α}
    (h : p.Halts events outcome) (hp : p.NeverCrashes) : ∃ v, p.Runs events v := by
  cases outcome with
  | some v => exact ⟨v, h⟩
  | none => exact absurd h (hp events)

/-! ## Programs that make calls of one sort only -/

/-- All calls that a program can make are of some sort. -/
def MakesOnly (sort : Call → Prop) : Program α → Prop
  | .done _ => True
  | .crash => True
  | .ask c next => sort c ∧ ∀ answer, (next answer).MakesOnly sort

theorem MakesOnly.pure {sort : Call → Prop} (v : α) : (pure v : Program α).MakesOnly sort :=
  trivial

theorem MakesOnly.crash {sort : Call → Prop} : (Program.crash : Program α).MakesOnly sort :=
  trivial

theorem MakesOnly.call {sort : Call → Prop} {c : Call} (h : sort c) :
    (Program.call c).MakesOnly sort :=
  ⟨h, fun _ => trivial⟩

theorem MakesOnly.bind {sort : Call → Prop} {p : Program α} {f : α → Program β}
    (hp : p.MakesOnly sort) (hf : ∀ v, (f v).MakesOnly sort) : (p >>= f).MakesOnly sort := by
  induction p with
  | done v => exact hf v
  | crash => trivial
  | ask c next ih => exact ⟨hp.1, fun answer => ih answer (hp.2 answer)⟩

theorem MakesOnly.mono {sort wider : Call → Prop} {p : Program α} (hp : p.MakesOnly sort)
    (h : ∀ c, sort c → wider c) : p.MakesOnly wider := by
  induction p with
  | done v => trivial
  | crash => trivial
  | ask c next ih => exact ⟨h c hp.1, fun answer => ih answer (hp.2 answer)⟩

/-- A trace of a program that makes calls of one sort only holds no other call. -/
theorem Runs.sort_of_mem {sort : Call → Prop} {p : Program α} {events : List Event} {v : α}
    (h : p.Runs events v) (hp : p.MakesOnly sort) : ∀ e ∈ events, sort e.call := by
  induction h with
  | done v => simp
  | ask answer rest ih =>
      intro e he
      rcases List.mem_cons.mp he with rfl | he
      · exact hp.1
      · exact ih (hp.2 answer) e he

/-- Nor does a program that makes calls of one sort only make another call before it crashes. -/
theorem Crashes.sort_of_mem {sort : Call → Prop} {p : Program α} {events : List Event}
    (h : p.Crashes events) (hp : p.MakesOnly sort) : ∀ e ∈ events, sort e.call := by
  induction h with
  | crash => simp
  | ask answer rest ih =>
      intro e he
      rcases List.mem_cons.mp he with rfl | he
      · exact hp.1
      · exact ih (hp.2 answer) e he

theorem Halts.sort_of_mem {sort : Call → Prop} {p : Program α} {events : List Event}
    {outcome : Option α} (h : p.Halts events outcome) (hp : p.MakesOnly sort) :
    ∀ e ∈ events, sort e.call := by
  cases outcome with
  | some v => exact Runs.sort_of_mem h hp
  | none => exact Crashes.sort_of_mem h hp

end Program

/-! ## Paths -/

section Path

variable {σ ε : Type} {step : σ → ε → σ → Prop}

/-- A list of labels leads from one state to another, step by step. -/
def Path (step : σ → ε → σ → Prop) : σ → List ε → σ → Prop
  | s, [], t => t = s
  | s, e :: rest, t => ∃ u, step s e u ∧ Path step u rest t

@[simp] theorem path_nil_iff {s t : σ} : Path step s [] t ↔ t = s := Iff.rfl

theorem path_cons_iff {s t : σ} {e : ε} {rest : List ε} :
    Path step s (e :: rest) t ↔ ∃ u, step s e u ∧ Path step u rest t := Iff.rfl

theorem path_append_iff {s t : σ} {first rest : List ε} :
    Path step s (first ++ rest) t ↔ ∃ u, Path step s first u ∧ Path step u rest t := by
  induction first generalizing s with
  | nil =>
      constructor
      · intro h
        exact ⟨s, rfl, h⟩
      · rintro ⟨u, rfl, h⟩
        exact h
  | cons e first ih =>
      simp only [List.cons_append, path_cons_iff, ih]
      constructor
      · rintro ⟨u, he, w, hfirst, hrest⟩
        exact ⟨w, ⟨u, he, hfirst⟩, hrest⟩
      · rintro ⟨w, ⟨u, he, hfirst⟩, hrest⟩
        exact ⟨u, he, w, hfirst, hrest⟩

/-- What every step of a path keeps holds at its end. -/
theorem Path.invariant {I : σ → Prop} {s t : σ} {labels : List ε} (h : Path step s labels t)
    (hstep : ∀ e ∈ labels, ∀ u w, step u e w → I u → I w) (hs : I s) : I t := by
  induction labels generalizing s with
  | nil =>
      rw [path_nil_iff.mp h]
      exact hs
  | cons e rest ih =>
      obtain ⟨u, he, hrest⟩ := h
      have hu : I u := hstep e List.mem_cons_self s u he hs
      exact ih hrest (fun e' he' => hstep e' (List.mem_cons_of_mem _ he')) hu

/-- Every label of a path is a step somewhere on it, from a state with what every step keeps. -/
theorem Path.step_of_mem_of_invariant {I : σ → Prop} {s t : σ} {labels : List ε}
    (h : Path step s labels t) (hstep : ∀ e ∈ labels, ∀ u w, step u e w → I u → I w) (hs : I s)
    {e : ε} (he : e ∈ labels) : ∃ u w, I u ∧ step u e w := by
  obtain ⟨before, after, rfl⟩ := List.append_of_mem he
  obtain ⟨u, hbefore, hrest⟩ := path_append_iff.mp h
  obtain ⟨w, he, -⟩ := path_cons_iff.mp hrest
  exact ⟨u, w, hbefore.invariant (fun e' he' => hstep e' (List.mem_append_left _ he')) hs, he⟩

/-- Every label of a path is a step somewhere on it. -/
theorem Path.step_of_mem {s t : σ} {labels : List ε} (h : Path step s labels t) {e : ε}
    (he : e ∈ labels) : ∃ u w, step u e w := by
  obtain ⟨u, w, -, hstep⟩ :=
    h.step_of_mem_of_invariant (I := fun _ => True) (fun _ _ _ _ _ hu => hu) trivial he
  exact ⟨u, w, hstep⟩

/-- A path is carried over to other states step by step, as far as an invariant holds. -/
theorem Path.map {τ : Type} {step' : τ → ε → τ → Prop} {f : σ → τ} {I : σ → Prop} {s t : σ}
    {labels : List ε} (h : Path step s labels t)
    (hstep : ∀ u e w, I u → step u e w → step' (f u) e (f w) ∧ I w) (hs : I s) :
    Path step' (f s) labels (f t) ∧ I t := by
  induction labels generalizing s with
  | nil =>
      cases h
      exact ⟨rfl, hs⟩
  | cons e rest ih =>
      obtain ⟨u, he, hrest⟩ := h
      obtain ⟨he', hu⟩ := hstep s e u hs he
      obtain ⟨hrest', ht⟩ := ih hrest hu
      exact ⟨⟨f u, he', hrest'⟩, ht⟩

end Path

/-- Every run of a program against a state that answers leads to a value or a crash, and the state
    goes along with its calls. -/
theorem Program.exists_halts_run {α σ : Type} (answer : (c : Call) → σ → c.Answer × σ)
    (p : Program α) (s : σ) :
    ∃ events, p.Halts events (p.run answer s).1
      ∧ Path (fun s e t => answer e.call s = (e.answer, t)) s events (p.run answer s).2 := by
  induction p generalizing s with
  | done v => exact ⟨[], .done v, rfl⟩
  | crash => exact ⟨[], .crash, rfl⟩
  | ask c next ih =>
      obtain ⟨events, hhalts, hpath⟩ := ih (answer c s).1 (answer c s).2
      exact ⟨⟨c, (answer c s).1⟩ :: events, hhalts.ask _, (answer c s).2, rfl, hpath⟩

/-- A run that leads to a value takes a trace with this value. -/
theorem Program.exists_runs_of_run_eq {α σ : Type} {answer : (c : Call) → σ → c.Answer × σ}
    {p : Program α} {s : σ} {v : α} (h : (p.run answer s).1 = some v) :
    ∃ events, p.Runs events v
      ∧ Path (fun s e t => answer e.call s = (e.answer, t)) s events (p.run answer s).2 := by
  obtain ⟨events, hhalts, hpath⟩ := p.exists_halts_run answer s
  rw [h] at hhalts
  exact ⟨events, hhalts, hpath⟩

/-- A program that never crashes has a value in every run. -/
theorem Program.NeverCrashes.exists_run_eq {α σ : Type} {p : Program α} (hp : p.NeverCrashes)
    (answer : (c : Call) → σ → c.Answer × σ) (s : σ) : ∃ v, (p.run answer s).1 = some v := by
  obtain ⟨events, hhalts, -⟩ := p.exists_halts_run answer s
  cases hvalue : (p.run answer s).1 with
  | some v => exact ⟨v, rfl⟩
  | none =>
      rw [hvalue] at hhalts
      exact absurd hhalts (hp events)

end MachineDriver
