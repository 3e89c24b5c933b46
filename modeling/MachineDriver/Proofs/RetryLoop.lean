import Mathlib.Data.Nat.Find
import MachineDriver.Proofs.Attempts
import MachineDriver.Proofs.Rounding

set_option autoImplicit false

/-!
# The loop of attempts

An operation is retried by a loop with a counter of 32 bits, which has no bound of its own and turns
numbers of seconds into spans of time where they are some. `Loops` lists the courses in which such a
loop ends, with neither the counter nor a span out of range. For a policy of moderate delays there
is exactly one, for every sequence of outcomes and every allowed number of attempts, and it is what
`RetryPolicy.run` does, which does not crash: as many calls as `LastCall` says, with one pause
between any two (`run_follows_loop`).

Without jitter all pauses but the first are bounded by the longest delay, as delays are compared
with it only once they have grown (`pauses_bounded_iff`). -/

namespace MachineDriver

namespace RetryPolicy

open Binary64 Duration

variable {α : Type}

/-! ## Calls and pauses -/

/-- The outcome is a conflict. -/
def conflicts : Except StoreError α → Bool
  | .error e => e.isConflict
  | .ok _ => false

/-- What retrying does: it calls the operation or pauses. -/
inductive Move where
  | call
  | pause (d : Duration)
  deriving DecidableEq, Repr

/-- Keeps a record of what is done until a result is there or the retrying crashes. -/
abbrev Recorded :=
  OptionT (StateM (List Move))

/-- Keeps a record of a move. -/
def record (m : Move) : Recorded Unit :=
  modify (· ++ [m])

/-- An operation whose calls have the outcomes of a sequence, in the order in which they are made:
    the first call has the outcome of the number one. -/
def scripted (outcomes : ℕ → Except StoreError α) : Recorded (Except StoreError α) := do
  record .call
  return outcomes ((← get).count .call)

/-- The outcome of retrying such an operation, if it does not crash, and the moves that were
    made. -/
def course (p : RetryPolicy) (outcomes : ℕ → Except StoreError α) :
    Option (Except StoreError α) × List Move :=
  (p.run failure (fun d => record (.pause d)) fun _ => scripted outcomes).run.run []

/-- Calls with a pause between any two. -/
def alternating : List Duration → List Move
  | [] => [.call]
  | d :: rest => .call :: .pause d :: alternating rest

/-- The pauses among moves. -/
def pauses : List Move → List Duration :=
  List.filterMap fun
    | .call => none
    | .pause d => some d

/-- The pauses after calls that meet conflicts, from the one of a number on: the delay grows from
    each to the next. -/
inductive PausesFrom (p : RetryPolicy) : ℕ → Duration → List Duration → Prop where
  | nil (n : ℕ) (delay : Duration) : PausesFrom p n delay []
  | cons {n : ℕ} {delay d grown : Duration} {rest : List Duration}
      (hpause : p.pause n delay = some d) (hgrown : p.nextDelay delay = some grown)
      (h : PausesFrom p (n + 1) grown rest) : PausesFrom p n delay (d :: rest)

@[simp]
theorem count_call_alternating (ds : List Duration) :
    (alternating ds).count .call = ds.length + 1 := by
  induction ds with
  | nil => rfl
  | cons d rest ih => simp [alternating, ih]

/-- Where a policy lasts, there are as many pauses as are needed. -/
theorem exists_pausesFrom {p : RetryPolicy} {n left more : ℕ} {delay : Duration}
    (h : p.lasts left n delay = true) (hle : more ≤ left) :
    ∃ ds, p.PausesFrom n delay ds ∧ ds.length = more := by
  induction more generalizing left n delay with
  | zero => exact ⟨[], .nil n delay, rfl⟩
  | succ more ih =>
      obtain ⟨left, rfl⟩ : ∃ k, left = k + 1 := ⟨left - 1, by omega⟩
      rw [lasts] at h
      split at h
      · rename_i d grown hpause hgrown
        obtain ⟨ds, hds, hlength⟩ := ih h (by omega)
        exact ⟨d :: ds, .cons hpause hgrown hds, congrArg Nat.succ hlength⟩
      · cases h

@[simp]
theorem pauses_alternating (ds : List Duration) : pauses (alternating ds) = ds := by
  induction ds with
  | nil => rfl
  | cons d rest ih => simpa [pauses, alternating] using ih

/-! ## The last call -/

/-- The first outcome that is no conflict has this number. -/
structure FirstOther (outcomes : ℕ → Except StoreError α) (k : ℕ) : Prop where
  pos : 1 ≤ k
  before : ∀ i, 1 ≤ i → i < k → conflicts (outcomes i) = true
  other : conflicts (outcomes k) = false

/-- The call of this number is the last one within a budget: the ones before it met conflicts, and
    it is followed by none as it met no conflict or the budget is spent. -/
structure LastCall (outcomes : ℕ → Except StoreError α) (budget calls : ℕ) : Prop where
  pos : 1 ≤ calls
  le : calls ≤ budget
  before : ∀ i, 1 ≤ i → i < calls → conflicts (outcomes i) = true
  spent : conflicts (outcomes calls) = true → calls = budget

section LastCall

variable {outcomes : ℕ → Except StoreError α} {budget calls : ℕ}

theorem FirstOther.lastCall {k : ℕ} (h : FirstOther outcomes k) (hbudget : 1 ≤ budget) :
    LastCall outcomes budget (min k budget) where
  pos := le_min h.pos hbudget
  le := min_le_right k budget
  before i hi hlt := h.before i hi (by omega)
  spent hconflict := by
    rcases Nat.lt_or_ge budget k with hlt | hle
    · exact min_eq_right hlt.le
    · rw [min_eq_left hle, h.other] at hconflict
      cases hconflict

theorem lastCall_of_conflicts (h : ∀ i, 1 ≤ i → conflicts (outcomes i) = true)
    (hbudget : 1 ≤ budget) : LastCall outcomes budget budget where
  pos := hbudget
  le := le_refl budget
  before i hi _ := h i hi
  spent _ := rfl

theorem exists_lastCall (outcomes : ℕ → Except StoreError α) (hbudget : 1 ≤ budget) :
    ∃ calls, LastCall outcomes budget calls := by
  by_cases h : ∃ i, 1 ≤ i ∧ conflicts (outcomes i) = false
  · have hfirst : FirstOther outcomes (Nat.find h) :=
      { pos := (Nat.find_spec h).1
        before := fun i hi hlt => by simpa [hi] using Nat.find_min h hlt
        other := (Nat.find_spec h).2 }
    exact ⟨_, hfirst.lastCall hbudget⟩
  · exact ⟨budget, lastCall_of_conflicts (by simpa using h) hbudget⟩

/-- There is one last call. -/
theorem LastCall.unique {other : ℕ} (h : LastCall outcomes budget calls)
    (hother : LastCall outcomes budget other) : calls = other := by
  rcases Nat.lt_trichotomy calls other with hlt | heq | hgt
  · have := h.spent (hother.before calls h.pos hlt)
    have := hother.le
    omega
  · exact heq
  · have := hother.spent (h.before other hother.pos hgt)
    have := h.le
    omega

end LastCall

/-! ## What is run -/

theorem conflicts_iff {r : Except StoreError α} :
    conflicts r = true ↔ ∃ reason, r = .error (.conflict reason) := by
  rcases r with (_ | _ | _) | _ <;> simp [conflicts, StoreError.isConflict]

theorem run_bind_of_some {β γ : Type} {x : Recorded β} {f : β → Recorded γ} {v : β}
    {log after : List Move} (h : x.run.run log = (some v, after)) :
    (x >>= f).run.run log = (f v).run.run after := by
  rw [OptionT.run_bind, Option.elimM, StateT.run_bind, h]
  rfl

theorem run_record (m : Move) (log : List Move) :
    (record m).run.run log = (some (), log ++ [m]) :=
  rfl

/-- The attempts after some were made, where the operation follows a sequence of outcomes. -/
abbrev Going (p : RetryPolicy) (outcomes : ℕ → Except StoreError α) (left n : ℕ)
    (delay : Duration) : Recorded (Except StoreError α) :=
  p.attemptFrom failure (fun d => record (.pause d)) (fun _ => scripted outcomes) left n delay

section Going

variable {p : RetryPolicy} {outcomes : ℕ → Except StoreError α} {left n : ℕ} {delay : Duration}
  {log : List Move}

theorem run_scripted (hlog : log.count .call + 1 = n) :
    (scripted outcomes).run.run log = (some (outcomes n), log ++ [.call]) := by
  subst hlog
  have hget : (get : Recorded (List Move)).run.run (log ++ [.call])
      = (some (log ++ [.call]), log ++ [.call]) := rfl
  rw [scripted, run_bind_of_some (run_record .call log), run_bind_of_some hget, List.count_append]
  rfl

/-- An outcome that is no conflict ends the attempts. -/
theorem run_going_of_other (hlog : log.count .call + 1 = n)
    (h : conflicts (outcomes n) ≠ true) :
    (p.Going outcomes left n delay).run.run log = (some (outcomes n), log ++ [.call]) := by
  cases left with
  | zero => exact run_scripted hlog
  | succ left =>
      unfold Going attemptFrom
      rw [run_bind_of_some (run_scripted hlog)]
      cases hresult : outcomes n with
      | ok => rfl
      | error e =>
          cases e with
          | notFound => rfl
          | conflict reason => exact absurd (conflicts_iff.mpr ⟨reason, hresult⟩) h
          | api => rfl

/-- A conflict is followed by a pause and another attempt. -/
theorem run_going_of_conflict {d grown : Duration} (hlog : log.count .call + 1 = n)
    (h : conflicts (outcomes n) = true) (hpause : p.pause n delay = some d)
    (hgrown : p.nextDelay delay = some grown) :
    (p.Going outcomes (left + 1) n delay).run.run log
      = (p.Going outcomes left (n + 1) grown).run.run (log ++ [.call, .pause d]) := by
  obtain ⟨reason, hreason⟩ := conflicts_iff.mp h
  conv => lhs; unfold Going attemptFrom
  rw [run_bind_of_some (run_scripted hlog), hreason]
  simp only [hpause, hgrown]
  rw [run_bind_of_some (run_record (.pause d) _), List.append_assoc]
  rfl

/-- Attempts go on up to the last call, and pause after each but the last. -/
theorem run_going {ds : List Duration} (h : LastCall outcomes (n + left) (n + ds.length))
    (hlog : log.count .call + 1 = n) (hds : p.PausesFrom n delay ds) :
    (p.Going outcomes left n delay).run.run log
      = (some (outcomes (n + ds.length)), log ++ alternating ds) := by
  -- The induction is on the pauses, each of which is followed by a further call.
  induction hds generalizing left log with
  | nil n delay =>
      by_cases hconflict : conflicts (outcomes n) = true
      · have hleft : left = 0 := by
          have := h.spent hconflict
          simp at this
          omega
        subst hleft
        exact run_scripted hlog
      · exact run_going_of_other hlog hconflict
  | @cons n delay d grown rest hpause hgrown _ ih =>
      obtain ⟨left, rfl⟩ : ∃ k, left = k + 1 := by
        have := h.le
        exact ⟨left - 1, by simp at this; omega⟩
      have hnumber : n + 1 + rest.length = n + (d :: rest).length := by
        rw [List.length_cons]
        omega
      have hconflict := h.before n (by omega) (by omega)
      have hnext : LastCall outcomes (n + 1 + left) (n + 1 + rest.length) := by
        rwa [hnumber, Nat.add_right_comm, Nat.add_assoc]
      rw [run_going_of_conflict hlog hconflict hpause hgrown, ih hnext (by simp [hlog]), hnumber]
      simp [alternating]

end Going

/-- A sound policy has the pauses for all calls up to the last one. -/
theorem LastCall.exists_pauses {p : RetryPolicy} {outcomes : ℕ → Except StoreError α} {calls : ℕ}
    (h : LastCall outcomes (max 1 p.attempts.toNat) calls) (hp : p.IsSound) :
    ∃ ds, p.PausesFrom 1 p.initialDelay ds ∧ ds.length + 1 = calls := by
  have hpos := h.pos
  have hle := h.le
  rw [← p.retries_succ] at hle
  obtain ⟨ds, hds, hlength⟩ := exists_pausesFrom hp (show calls - 1 ≤ p.retries by omega)
  exact ⟨ds, hds, by omega⟩

/-- The course of retrying an operation, of which one call is always made. -/
theorem course_eq {p : RetryPolicy} {outcomes : ℕ → Except StoreError α} {ds : List Duration}
    (h : LastCall outcomes (max 1 p.attempts.toNat) (ds.length + 1))
    (hds : p.PausesFrom 1 p.initialDelay ds) :
    p.course outcomes = (some (outcomes (ds.length + 1)), alternating ds) := by
  have hbudget : 1 + p.retries = max 1 p.attempts.toNat := by
    rw [Nat.add_comm, p.retries_succ]
  rw [Nat.add_comm] at h ⊢
  rw [← hbudget] at h
  exact run_going h rfl hds

/-! ## The loop with a counter -/

/-- The seconds of the pause after an attempt, whose delay is lengthened by some share. -/
def pauseSeconds (delay : Duration) (share : Binary64) : Binary64 :=
  delay.seconds.mul ((Binary64.ofNat 1).add share)

/-- The seconds of the delay that follows a delay. -/
def nextSeconds (p : RetryPolicy) (delay : Duration) : Binary64 :=
  (delay.seconds.mul p.multiplier).lesser p.maxDelay.seconds

theorem pause_eq {p : RetryPolicy} {attempt : ℕ} {share : Binary64}
    (h : p.jitter attempt = some share) (delay : Duration) :
    p.pause attempt delay = ofSeconds? (pauseSeconds delay share) := by
  rw [pause, h]
  rfl

/-- The courses of the loop of attempts, from a number of attempts made and a delay on: the moves
    and the outcome with which it ends. A course needs room in the counter for each attempt, and
    spans of time for its pauses and delays. -/
inductive Loops (p : RetryPolicy) (outcomes : ℕ → Except StoreError α) :
    UInt32 → Duration → List Move → Except StoreError α → Prop where
  | ends {made : UInt32} {delay : Duration} (room : made.toNat + 1 < 2 ^ 32)
      (last : conflicts (outcomes (made + 1).toNat) = true → p.attempts ≤ made + 1) :
      Loops p outcomes made delay [.call] (outcomes (made + 1).toNat)
  | goesOn {made : UInt32} {delay d grown : Duration} {moves : List Move}
      {result : Except StoreError α}
      (room : made.toNat + 1 < 2 ^ 32)
      (conflict : conflicts (outcomes (made + 1).toNat) = true)
      (left : made + 1 < p.attempts)
      (paused : p.pause (made + 1).toNat delay = some d)
      (grows : p.nextDelay delay = some grown)
      (rest : Loops p outcomes (made + 1) grown moves result) :
      Loops p outcomes made delay (.call :: .pause d :: moves) result

/-- The loop has one course. -/
theorem Loops.unique {p : RetryPolicy} {outcomes : ℕ → Except StoreError α} {made : UInt32}
    {delay : Duration} {moves other : List Move} {result otherResult : Except StoreError α}
    (h : p.Loops outcomes made delay moves result)
    (hother : p.Loops outcomes made delay other otherResult) :
    other = moves ∧ otherResult = result := by
  induction h generalizing other otherResult with
  | ends _ last =>
      cases hother with
      | ends => exact ⟨rfl, rfl⟩
      | goesOn _ conflict left => exact absurd (last conflict) (UInt32.not_le.mpr left)
  | goesOn _ conflict left paused grows _ ih =>
      cases hother with
      | ends _ last => exact absurd (last conflict) (UInt32.not_le.mpr left)
      | goesOn _ _ _ paused' grows' rest =>
          cases paused.symm.trans paused'
          cases grows.symm.trans grows'
          obtain ⟨rfl, rfl⟩ := ih rest
          exact ⟨rfl, rfl⟩

theorem toNat_succ {made : UInt32} (h : made.toNat + 1 < 2 ^ 32) :
    (made + 1).toNat = made.toNat + 1 := by
  rw [UInt32.toNat_add]
  exact Nat.mod_eq_of_lt h

/-- The allowed number of attempts is one of the counter's, so that each of them has room. -/
theorem room_of_lastCall {p : RetryPolicy} {outcomes : ℕ → Except StoreError α} {made : UInt32}
    {more : ℕ} (h : LastCall outcomes (max 1 p.attempts.toNat) (made.toNat + 1 + more)) :
    made.toNat + 1 < 2 ^ 32 := by
  have hle := h.le
  have hbudget := p.attempts.toNat_lt
  omega

/-- The loop reaches the last call with room in the counter, if there are the pauses for it. -/
theorem loops_of_pausesFrom {p : RetryPolicy} {outcomes : ℕ → Except StoreError α} {n : ℕ}
    {made : UInt32} {delay : Duration} {ds : List Duration} (hn : n = made.toNat + 1)
    (h : LastCall outcomes (max 1 p.attempts.toNat) (n + ds.length))
    (hds : p.PausesFrom n delay ds) :
    p.Loops outcomes made delay (alternating ds) (outcomes (n + ds.length)) := by
  induction hds generalizing made with
  | nil n delay =>
      subst hn
      have hroom := room_of_lastCall h
      rw [List.length_nil, Nat.add_zero] at h ⊢
      rw [← toNat_succ hroom] at h ⊢
      refine .ends hroom fun hconflict => UInt32.le_iff_toNat_le.mpr ?_
      have := h.spent hconflict
      omega
  | @cons n delay d grown rest hpause hgrown _ ih =>
      subst hn
      have hle := h.le
      have hroom := room_of_lastCall h
      have hsucc := toNat_succ hroom
      have hnumber : made.toNat + 1 + 1 + rest.length = made.toNat + 1 + (d :: rest).length := by
        rw [List.length_cons]
        omega
      have hconflict := h.before (made.toNat + 1) (by omega) (by simp)
      have hleft : made + 1 < p.attempts := by
        rw [UInt32.lt_iff_toNat_lt]
        rw [List.length_cons] at hle
        omega
      rw [← hnumber] at h ⊢
      rw [← hsucc] at hconflict hpause
      exact .goesOn hroom hconflict hleft hpause hgrown (ih (by rw [hsucc]) h)

/-! ## Moderate delays -/

/-- The delays of the policy are spans of time of up to `2 ^ 32` seconds, they are multiplied by a
    finite number that is not below zero, and are lengthened by up to their own length. -/
structure Moderate (p : RetryPolicy) : Prop where
  initialDelay : p.initialDelay.nanoseconds ≤ 2 ^ 32 * perSecond
  maxDelay : p.maxDelay.nanoseconds ≤ 2 ^ 32 * perSecond
  multiplier : ∃ v, p.multiplier.IsSize v
  jitter : ∀ n, ∃ share, p.jitter n = some share ∧ ∃ v ≤ 1, share.IsSize v

/-- A delay does not grow beyond the longest one. -/
theorem nextSeconds_isSize {p : RetryPolicy} {delay : Duration} {v w : ℚ}
    (hdelay : delay.seconds.IsSize v) (hmultiplier : p.multiplier.NotNegative)
    (hmax : p.maxDelay.seconds.IsSize w) : ∃ u ≤ w, (p.nextSeconds delay).IsSize u := by
  unfold nextSeconds
  rcases hmultiplier with hinfinite | ⟨m, hm⟩
  · rw [hinfinite, lesser_mul_infinite hdelay hmax]
    exact ⟨w, le_refl w, hmax⟩
  · rcases mul_isNearest hdelay hm with ⟨u, -, hu⟩ | ⟨hinfinite, -⟩
    · exact ⟨_, min_le_right u w, lesser_isSize hu hmax⟩
    · rw [hinfinite, lesser_infinite hmax]
      exact ⟨w, le_refl w, hmax⟩

/-- A pause is up to twice as long as its delay. -/
theorem pauseSeconds_isSize {delay : Duration} {share : Binary64} {v j : ℚ}
    (hdelay : delay.seconds.IsSize v) (hv : v ≤ 2 ^ 32) (hshare : share.IsSize j) (hj : j ≤ 1) :
    ∃ u ≤ 2 ^ 33, (pauseSeconds delay share).IsSize u := by
  have hone : (Binary64.ofNat 1).IsSize (1 : ℕ) := ofNat_isSize (by norm_num)
  have hsum : (1 : ℕ) + j ≤ 2 := by
    push_cast
    linarith
  obtain ⟨w, hw, hw_size⟩ := (add_isNearest hone hshare).isSize (hsum.trans (by norm_num))
  have hw_le : w ≤ 2 := hw.le (fits_natCast (n := 2) (by norm_num)) hsum
  have hprod : v * w ≤ 2 ^ 33 := by
    calc v * w ≤ 2 ^ 32 * 2 := mul_le_mul hv hw_le hw_size.nonneg (by norm_num)
      _ = 2 ^ 33 := by norm_num
  obtain ⟨u, hu, hu_size⟩ := (mul_isNearest hdelay hw_size).isSize (hprod.trans (by norm_num))
  exact ⟨u, hu.le (fits_two_zpow (e := 33) (by decide)) hprod, hu_size⟩

namespace Moderate

variable {p : RetryPolicy} {delay : Duration}

theorem exists_pause (hp : p.Moderate) (hdelay : delay.nanoseconds ≤ 2 ^ 32 * perSecond) (n : ℕ) :
    ∃ d, p.pause n delay = some d := by
  obtain ⟨v, hv, -, hv_le, -⟩ := seconds_isSize (by norm_num) hdelay
  obtain ⟨share, hshare, j, hj_le, hj⟩ := hp.jitter n
  obtain ⟨u, hu_le, hu⟩ := pauseSeconds_isSize hv hv_le hj hj_le
  rw [pause_eq hshare]
  exact exists_ofSeconds?_eq hu (hu_le.trans (by norm_num))

theorem exists_nextDelay (hp : p.Moderate) (hdelay : delay.nanoseconds ≤ 2 ^ 32 * perSecond) :
    ∃ grown, p.nextDelay delay = some grown ∧ grown.nanoseconds ≤ 2 ^ 32 * perSecond := by
  obtain ⟨v, hv, -⟩ := seconds_isSize (by norm_num) hdelay
  obtain ⟨w, hw, -, hw_le, -⟩ := seconds_isSize (by norm_num) hp.maxDelay
  obtain ⟨u, hu_le, hu⟩ := nextSeconds_isSize hv (.inr hp.multiplier) hw
  have hu_le : u ≤ 2 ^ 32 := hu_le.trans hw_le
  obtain ⟨grown, hgrown⟩ := exists_ofSeconds?_eq hu (hu_le.trans (by norm_num))
  exact ⟨grown, hgrown, ofSeconds?_le hu hgrown (by exact_mod_cast hu_le)⟩

/-- Delays stay within their bound, so that a policy of moderate delays lasts. -/
theorem lasts (hp : p.Moderate) (hdelay : delay.nanoseconds ≤ 2 ^ 32 * perSecond) (left n : ℕ) :
    p.lasts left n delay = true := by
  induction left generalizing n delay with
  | zero => rfl
  | succ left ih =>
      obtain ⟨d, hd⟩ := hp.exists_pause hdelay n
      obtain ⟨grown, hgrown, hle⟩ := hp.exists_nextDelay hdelay
      simp only [RetryPolicy.lasts, hd, hgrown]
      exact ih hle (n + 1)

theorem isSound (hp : p.Moderate) : p.IsSound :=
  hp.lasts hp.initialDelay p.retries 1

end Moderate

/-- **Retrying is the loop of attempts.** For every policy of moderate delays and every sequence of
    outcomes the loop has one course, which is that of the retried operation: it makes as many calls
    as there are up to the first outcome that is no conflict, but no more than are allowed, and at
    least one; it ends with the outcome of the last one; and it makes one pause between any two. -/
theorem run_follows_loop (p : RetryPolicy) (hp : p.Moderate) (outcomes : ℕ → Except StoreError α) :
    ∃ calls,
      (∀ k, FirstOther outcomes k → calls = min k (max 1 p.attempts.toNat))
        ∧ ((∀ i, 1 ≤ i → conflicts (outcomes i) = true) → calls = max 1 p.attempts.toNat)
        ∧ (p.course outcomes).1 = some (outcomes calls)
        ∧ (p.course outcomes).2.count .call = calls
        ∧ (p.course outcomes).2 = alternating (pauses (p.course outcomes).2)
        ∧ ∀ moves result, p.Loops outcomes 0 p.initialDelay moves result
            ↔ (some result, moves) = p.course outcomes := by
  have hbudget : 1 ≤ max 1 p.attempts.toNat := le_max_left _ _
  obtain ⟨calls, hlast⟩ := exists_lastCall outcomes hbudget
  obtain ⟨ds, hds, rfl⟩ := hlast.exists_pauses hp.isSound
  have hloop : p.Loops outcomes 0 p.initialDelay (alternating ds) (outcomes (1 + ds.length)) :=
    loops_of_pausesFrom rfl (Nat.add_comm _ 1 ▸ hlast) hds
  rw [Nat.add_comm] at hloop
  rw [course_eq hlast hds]
  refine ⟨ds.length + 1, fun k hk => hlast.unique (hk.lastCall hbudget),
    fun h => hlast.unique (lastCall_of_conflicts h hbudget), rfl, ?_, ?_, fun moves result => ?_⟩
  · rw [count_call_alternating]
  · rw [pauses_alternating]
  · constructor
    · intro h
      obtain ⟨rfl, rfl⟩ := hloop.unique h
      rfl
    · intro h
      cases h
      exact hloop

/-- The usual delays are moderate, whatever the jitter and the number of attempts. -/
theorem moderate_usual {n : UInt32} {jitter : ℕ → Option Binary64}
    (h : ∀ n, ∃ share, jitter n = some share ∧ ∃ v ≤ 1, share.IsSize v) :
    ({ attempts := n, jitter := jitter } : RetryPolicy).Moderate where
  initialDelay := show (Duration.ofMilliseconds 10).nanoseconds ≤ 2 ^ 32 * perSecond by decide
  maxDelay := show (Duration.ofMilliseconds 1000).nanoseconds ≤ 2 ^ 32 * perSecond by decide
  multiplier := ⟨(5 : ℕ), ofNat_isSize (by norm_num)⟩
  jitter := h

/-- Two conflicts and then a result. -/
def thirdSucceeds (n : ℕ) : Except StoreError ℕ :=
  if n < 3 then .error (.conflict "the object has been modified") else .ok 7

theorem firstOther_thirdSucceeds : FirstOther thirdSucceeds 3 where
  pos := by decide
  before i _ hlt := by simp [thirdSucceeds, hlt, conflicts, StoreError.isConflict]
  other := rfl

/-- The greatest number of attempts there is, of which three are made. -/
theorem run_follows_loop_of_thirdSucceeds :
    ({ attempts := 0xFFFFFFFF } : RetryPolicy).Moderate
      ∧ (course { attempts := 0xFFFFFFFF } thirdSucceeds).1 = some (.ok 7)
      ∧ (course { attempts := 0xFFFFFFFF } thirdSucceeds).2.count .call = 3
      ∧ Loops { attempts := 0xFFFFFFFF } thirdSucceeds 0 (.ofMilliseconds 10)
          (course { attempts := 0xFFFFFFFF } thirdSucceeds).2 (.ok 7) := by
  have hp : ({ attempts := 0xFFFFFFFF } : RetryPolicy).Moderate :=
    moderate_usual fun _ => ⟨_, rfl, 0, by norm_num, zero_isSize false⟩
  obtain ⟨calls, hcalls, -, hresult, hcount, -, hloops⟩ := run_follows_loop _ hp thirdSucceeds
  obtain rfl : calls = 3 := hcalls 3 firstOther_thirdSucceeds
  generalize course { attempts := 0xFFFFFFFF } thirdSucceeds = made at hresult hcount hloops ⊢
  exact ⟨hp, hresult, hcount, (hloops _ _).mpr (Prod.ext hresult.symm rfl)⟩

/-! ## The bound on pauses -/

/-- Without jitter the pause after an attempt is the delay. -/
theorem pause_eq_delay {p : RetryPolicy} {n : ℕ} {delay : Duration}
    (hjitter : p.jitter n = some (zero false)) (hdelay : delay.nanoseconds ≤ 2 ^ 23 * perSecond) :
    p.pause n delay = some delay := by
  obtain ⟨v, hv, hv_fits, hv_le, -⟩ := seconds_isSize (by norm_num) hdelay
  have hone : (Binary64.ofNat 1).IsSize (1 : ℕ) := ofNat_isSize (by norm_num)
  have hone_fits : Fits ((1 : ℕ) + 0) := by simpa using fits_natCast (n := 1) (by norm_num)
  obtain ⟨w, hw, hw_size⟩ := (add_isNearest hone (zero_isSize false)).isSize (by norm_num)
  have hw_one : w = 1 := by simpa using hw.eq_of_fits hone_fits
  have hprod : v * w = v := by rw [hw_one, mul_one]
  have hpause := mul_isNearest hv hw_size
  rw [hprod] at hpause
  obtain ⟨u, hu, hu_size⟩ := hpause.isSize (hv_le.trans (by norm_num))
  rw [hu.eq_of_fits hv_fits] at hu_size
  calc p.pause n delay = ofSeconds? (pauseSeconds delay (zero false)) := pause_eq hjitter delay
    _ = ofSeconds? delay.seconds := ofSeconds?_congr hu_size hv
    _ = some delay := ofSeconds?_seconds hdelay

section Unvaried

variable {p : RetryPolicy} (hjitter : ∀ n, p.jitter n = some (zero false))
  (hmultiplier : p.multiplier.NotNegative) (hmax : p.maxDelay.nanoseconds ≤ 2 ^ 23 * perSecond)

include hmultiplier hmax

/-- A delay that follows another is bounded by the longest one. -/
theorem exists_nextDelay_le {delay : Duration} (hdelay : delay.nanoseconds ≤ 2 ^ 23 * perSecond) :
    ∃ grown, p.nextDelay delay = some grown ∧ grown.nanoseconds ≤ p.maxDelay.nanoseconds := by
  obtain ⟨v, hv, -⟩ := seconds_isSize (by norm_num) hdelay
  obtain ⟨w, hw, -, hw_le, -⟩ := seconds_isSize (by norm_num) hmax
  obtain ⟨u, hu_le, hu⟩ := nextSeconds_isSize hv hmultiplier hw
  obtain ⟨grown, hgrown⟩ := exists_ofSeconds?_eq hu ((hu_le.trans hw_le).trans (by norm_num))
  exact ⟨grown, hgrown, ofSeconds?_mono hu hw hgrown (ofSeconds?_seconds hmax) hu_le⟩

include hjitter

/-- Pauses that begin with a bounded delay are bounded. -/
theorem PausesFrom.forall_le {n : ℕ} {delay : Duration} {ds : List Duration}
    (hds : p.PausesFrom n delay ds) (hdelay : delay.nanoseconds ≤ p.maxDelay.nanoseconds) :
    ∀ d ∈ ds, d.nanoseconds ≤ p.maxDelay.nanoseconds := by
  induction hds with
  | nil => simp
  | @cons n delay d grown rest hpause hgrown _ ih =>
      rw [pause_eq_delay (hjitter n) (hdelay.trans hmax), Option.some.injEq] at hpause
      subst hpause
      obtain ⟨_, hnext, hle⟩ := exists_nextDelay_le hmultiplier hmax (hdelay.trans hmax)
      cases hnext.symm.trans hgrown
      exact List.forall_mem_cons.mpr ⟨hdelay, ih hle⟩

theorem lasts_of_unvaried {delay : Duration} (hdelay : delay.nanoseconds ≤ 2 ^ 23 * perSecond)
    (left n : ℕ) : p.lasts left n delay = true := by
  induction left generalizing n delay with
  | zero => rfl
  | succ left ih =>
      obtain ⟨grown, hgrown, hle⟩ := exists_nextDelay_le hmultiplier hmax hdelay
      simp only [lasts, pause_eq_delay (hjitter n) hdelay, hgrown]
      exact ih (hle.trans hmax) (n + 1)

end Unvaried

/-- The pauses that are made stand before each call but the first. -/
theorem exists_pauses_course {p : RetryPolicy} {outcomes : ℕ → Except StoreError α} {calls : ℕ}
    (h : LastCall outcomes (max 1 p.attempts.toNat) calls) (hp : p.IsSound) :
    ∃ ds, p.PausesFrom 1 p.initialDelay ds ∧ ds.length + 1 = calls
      ∧ pauses (p.course outcomes).2 = ds := by
  obtain ⟨ds, hds, rfl⟩ := h.exists_pauses hp
  exact ⟨ds, hds, rfl, by rw [course_eq h hds, pauses_alternating]⟩

/-- **What bounds the pauses.** Without jitter, and with delays that are exact as seconds, the first
    pause is the initial delay, however long it is, and every later one is no longer than the
    longest delay. So all pauses are bounded by the longest delay exactly if the initial delay is,
    or if no second attempt is allowed. -/
theorem pauses_bounded_iff (α : Type) (p : RetryPolicy)
    (hjitter : ∀ n, p.jitter n = some (zero false)) (hmultiplier : p.multiplier.NotNegative)
    (hinitial : p.initialDelay.nanoseconds ≤ 2 ^ 23 * perSecond)
    (hmax : p.maxDelay.nanoseconds ≤ 2 ^ 23 * perSecond) :
    (∀ outcomes : ℕ → Except StoreError α, pauses (p.course outcomes).2 = []
        ∨ ∃ later, pauses (p.course outcomes).2 = p.initialDelay :: later
          ∧ ∀ d ∈ later, d.nanoseconds ≤ p.maxDelay.nanoseconds)
      ∧ ((∀ outcomes : ℕ → Except StoreError α, ∀ d ∈ pauses (p.course outcomes).2,
            d.nanoseconds ≤ p.maxDelay.nanoseconds)
          ↔ p.attempts ≤ 1 ∨ p.initialDelay.nanoseconds ≤ p.maxDelay.nanoseconds) := by
  have hbudget : 1 ≤ max 1 p.attempts.toNat := le_max_left _ _
  have hsound : p.IsSound := lasts_of_unvaried hjitter hmultiplier hmax hinitial _ _
  have hcons {d : Duration} {rest : List Duration} (h : p.PausesFrom 1 p.initialDelay (d :: rest)) :
      d = p.initialDelay ∧ ∀ e ∈ rest, e.nanoseconds ≤ p.maxDelay.nanoseconds := by
    cases h with
    | cons hpause hgrown hrest =>
        rw [pause_eq_delay (hjitter 1) hinitial] at hpause
        obtain ⟨_, hnext, hle⟩ := exists_nextDelay_le hmultiplier hmax hinitial
        cases hnext.symm.trans hgrown
        exact ⟨(Option.some.inj hpause).symm, hrest.forall_le hjitter hmultiplier hmax hle⟩
  refine ⟨fun outcomes => ?_, fun hall => ?_, fun hcause outcomes => ?_⟩
  · obtain ⟨calls, hlast⟩ := exists_lastCall outcomes hbudget
    obtain ⟨ds, hds, -, hpauses⟩ := exists_pauses_course hlast hsound
    rw [hpauses]
    cases ds with
    | nil => exact .inl rfl
    | cons d rest =>
        obtain ⟨rfl, hrest⟩ := hcons hds
        exact .inr ⟨rest, rfl, hrest⟩
  · -- An operation that always meets a conflict is called a second time if that is allowed.
    refine or_iff_not_imp_left.mpr fun hmany => ?_
    have hlast : LastCall (fun _ => (.error (.conflict "") : Except StoreError α)) _ _ :=
      lastCall_of_conflicts (fun _ _ => rfl) hbudget
    obtain ⟨ds, hds, hcalls, hpauses⟩ := exists_pauses_course hlast hsound
    have hbound := hall fun _ => .error (.conflict "")
    rw [hpauses] at hbound
    cases ds with
    | nil =>
        rw [UInt32.not_le, UInt32.lt_iff_toNat_lt] at hmany
        have : (1 : UInt32).toNat = 1 := rfl
        rw [List.length_nil] at hcalls
        omega
    | cons d rest =>
        obtain ⟨rfl, -⟩ := hcons hds
        exact hbound _ List.mem_cons_self
  · obtain ⟨calls, hlast⟩ := exists_lastCall outcomes hbudget
    obtain ⟨ds, hds, hcalls, hpauses⟩ := exists_pauses_course hlast hsound
    rw [hpauses]
    rcases hcause with hone | hbounded
    · have hnone : ds.length = 0 := by
        rw [UInt32.le_iff_toNat_le] at hone
        have : (1 : UInt32).toNat = 1 := rfl
        have := hlast.le
        omega
      rw [List.eq_nil_of_length_eq_zero hnone]
      simp
    · exact hds.forall_le hjitter hmultiplier hmax hbounded

/-- An initial delay that is longer than the longest delay. -/
def slowStart : RetryPolicy where
  attempts := 2
  initialDelay := .ofMilliseconds 10
  maxDelay := .ofMilliseconds 5
  multiplier := Binary64.ofNat 1

/-- The pause before a second attempt is twice as long as the longest delay. -/
theorem first_pause_unbounded :
    slowStart.course (fun n => if n = 1 then .error (.conflict "") else .ok 2)
        = (some (.ok 2), [.call, .pause (.ofMilliseconds 10), .call])
      ∧ slowStart.maxDelay.nanoseconds < (Duration.ofMilliseconds 10).nanoseconds := by
  decide +kernel

theorem pauses_bounded_iff_of_slowStart :
    (∀ n, slowStart.jitter n = some (zero false)) ∧ slowStart.multiplier.NotNegative
      ∧ slowStart.initialDelay.nanoseconds ≤ 2 ^ 23 * perSecond
      ∧ slowStart.maxDelay.nanoseconds ≤ 2 ^ 23 * perSecond
      ∧ ¬ ∀ outcomes : ℕ → Except StoreError ℕ, ∀ d ∈ pauses (slowStart.course outcomes).2,
          d.nanoseconds ≤ slowStart.maxDelay.nanoseconds := by
  have hmultiplier : slowStart.multiplier.NotNegative :=
    .inr ⟨(1 : ℕ), ofNat_isSize (by norm_num)⟩
  have hinitial : slowStart.initialDelay.nanoseconds ≤ 2 ^ 23 * perSecond := by decide
  have hmax : slowStart.maxDelay.nanoseconds ≤ 2 ^ 23 * perSecond := by decide
  have hiff := (pauses_bounded_iff ℕ slowStart (fun _ => rfl) hmultiplier hinitial hmax).2
  exact ⟨fun _ => rfl, hmultiplier, hinitial, hmax, hiff.not.mpr (by decide)⟩

end RetryPolicy

end MachineDriver
