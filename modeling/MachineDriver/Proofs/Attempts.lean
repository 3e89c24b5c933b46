import MachineDriver.Proofs.Calls

set_option autoImplicit false

/-!
# Attempts after conflicts

An attempt is some calls and how they ended. Attempts go on exactly as long as the last one met a
conflict and fewer were made than are allowed: `Tries` says so, and `runs_attemptFrom_iff` that the
traces of retried programs are those of such attempts, with a pause after each but the last. The
other way in which they can end is `crashes_attemptFrom_iff`: after a conflict, where the next pause
or the delay after it is no span of time. A policy is sound if it never comes to such a place.

A shutdown makes such attempts to stop a machine. `ShutdownCourse` lists all courses that it can
take to an outcome, and `ShutdownCrash` those that lead to a crash; the main statement is
`shutdownMachine_follows_answers`. -/

namespace MachineDriver

open Program

/-! ## Attempts -/

/-- The calls of one attempt with their answers, and how it ended. -/
structure Attempt (α : Type) where
  events : List Event
  result : Except StoreError α

/-- The attempt ended with a conflict. -/
def Attempt.Conflicts {α : Type} (a : Attempt α) : Prop :=
  ∃ reason, a.result = .error (.conflict reason)

/-- Attempts of which the first has the number `first`: each met a conflict, and another one may
    follow, as fewer than `budget` were made. -/
structure Conflicting {α : Type} (makes : Nat → Attempt α → Prop) (first budget : Nat)
    (attempts : List (Attempt α)) : Prop where
  made : ∀ i a, attempts[i]? = some a → makes (first + i) a
  conflicts : ∀ a ∈ attempts, a.Conflicts
  bounded : attempts.length < budget

/-- Attempts of which the first has the number `first`: each of `earlier` met a conflict and was
    followed by another one, as fewer than `budget` had been made; `last` was not followed, as it
    met no conflict or the budget was spent. -/
structure Tries {α : Type} (makes : Nat → Attempt α → Prop) (first budget : Nat)
    (earlier : List (Attempt α)) (last : Attempt α) : Prop
    extends Conflicting makes first budget earlier where
  made_last : makes (first + earlier.length) last
  spent : last.Conflicts → earlier.length + 1 = budget

section Tries

variable {α : Type} {makes : Nat → Attempt α → Prop} {first budget : Nat} {a last : Attempt α}
  {earlier : List (Attempt α)}

theorem conflicting_nil_iff : Conflicting makes first budget [] ↔ 0 < budget :=
  ⟨fun h => h.bounded, fun h => ⟨nofun, nofun, h⟩⟩

/-- An attempt that met a conflict, and those that followed. -/
theorem conflicting_cons_iff :
    Conflicting makes first (budget + 1) (a :: earlier)
      ↔ makes first a ∧ a.Conflicts ∧ Conflicting makes (first + 1) budget earlier := by
  have hnumber (i : Nat) : first + 1 + i = first + (i + 1) := by omega
  constructor
  · intro h
    refine ⟨h.made 0 a rfl, h.conflicts a List.mem_cons_self, ?_⟩
    exact
      { made := fun i b hb => hnumber i ▸ h.made (i + 1) b hb
        conflicts := fun b hb => h.conflicts b (List.mem_cons_of_mem a hb)
        bounded := Nat.lt_of_succ_lt_succ h.bounded }
  · rintro ⟨hmade, hconflicts, h⟩
    refine ⟨fun i b hb => ?_, List.forall_mem_cons.mpr ⟨hconflicts, h.conflicts⟩,
      Nat.succ_lt_succ h.bounded⟩
    cases i with
    | zero => cases hb; exact hmade
    | succ i => exact hnumber i ▸ h.made i b hb

theorem conflicting_singleton_iff :
    Conflicting makes first (budget + 1 + 1) [a] ↔ makes first a ∧ a.Conflicts := by
  rw [conflicting_cons_iff, conflicting_nil_iff]
  exact and_congr_right fun _ => and_iff_left (Nat.succ_pos budget)

/-- Where one attempt is allowed, none is followed by another one. -/
theorem Conflicting.eq_nil (h : Conflicting makes first 1 earlier) : earlier = [] :=
  List.eq_nil_of_length_eq_zero (Nat.lt_one_iff.mp h.bounded)

/-- A single attempt. -/
theorem tries_nil_iff :
    Tries makes first (budget + 1) [] last
      ↔ makes first last ∧ (last.Conflicts → budget = 0) := by
  constructor
  · intro h
    exact ⟨h.made_last, fun hlast => (Nat.succ.inj (h.spent hlast)).symm⟩
  · rintro ⟨hmade, hspent⟩
    exact ⟨conflicting_nil_iff.mpr (Nat.succ_pos budget), hmade,
      fun hlast => by rw [hspent hlast]; rfl⟩

/-- An attempt that met a conflict, and those that followed up to the last one. -/
theorem tries_cons_iff :
    Tries makes first (budget + 1) (a :: earlier) last
      ↔ makes first a ∧ a.Conflicts ∧ Tries makes (first + 1) budget earlier last := by
  have hnumber : first + 1 + earlier.length = first + (earlier.length + 1) := by omega
  constructor
  · intro h
    obtain ⟨hmade, hconflicts, hrest⟩ := conflicting_cons_iff.mp h.toConflicting
    exact ⟨hmade, hconflicts, hrest, hnumber ▸ h.made_last,
      fun hlast => Nat.succ.inj (h.spent hlast)⟩
  · rintro ⟨hmade, hconflicts, h⟩
    exact ⟨conflicting_cons_iff.mpr ⟨hmade, hconflicts, h.toConflicting⟩, hnumber ▸ h.made_last,
      fun hlast => congrArg Nat.succ (h.spent hlast)⟩

end Tries

/-! ## Pauses between attempts -/

namespace RetryPolicy

variable {α : Type} (p : RetryPolicy)

/-- Whether up to some number of further attempts may follow the attempt of a number, as all pauses
    and delays on the way are spans of time. -/
def lasts : Nat → Nat → Duration → Bool
  | 0, _, _ => true
  | left + 1, n, delay =>
    match p.pause n delay, p.nextDelay delay with
    | some _, some grown => lasts left (n + 1) grown
    | _, _ => false

/-- All pauses that a policy can come to are spans of time. -/
def IsSound : Prop :=
  p.lasts p.retries 1 p.initialDelay = true

instance : Decidable p.IsSound :=
  inferInstanceAs (Decidable (_ = true))

/-- The calls of attempts that are all followed by another one: a pause comes after each. The first
    attempt has the number `n`, and the delay has grown to `delay`. -/
inductive Paused : Nat → Duration → List (Attempt α) → List Event → Prop where
  | nil (n : Nat) (delay : Duration) : Paused n delay [] []
  | cons {n : Nat} {delay d grown : Duration} {a : Attempt α} {rest : List (Attempt α)}
      {events : List Event} (hpause : p.pause n delay = some d)
      (hgrown : p.nextDelay delay = some grown) (h : Paused (n + 1) grown rest events) :
      Paused n delay (a :: rest) (a.events ++ ⟨.sleep d, ()⟩ :: events)

/-- The calls of attempts after the last of which the policy breaks: the pause is no span of time,
    or the pause is made, and the delay that follows is none. -/
inductive Breaks : Nat → Duration → List (Attempt α) → List Event → Prop where
  | noPause {n : Nat} {delay : Duration} {a : Attempt α} (hpause : p.pause n delay = none) :
      Breaks n delay [a] a.events
  | noDelay {n : Nat} {delay d : Duration} {a : Attempt α} (hpause : p.pause n delay = some d)
      (hgrown : p.nextDelay delay = none) :
      Breaks n delay [a] (a.events ++ [⟨.sleep d, ()⟩])
  | later {n : Nat} {delay d grown : Duration} {a : Attempt α} {rest : List (Attempt α)}
      {events : List Event} (hpause : p.pause n delay = some d)
      (hgrown : p.nextDelay delay = some grown) (h : Breaks (n + 1) grown rest events) :
      Breaks n delay (a :: rest) (a.events ++ ⟨.sleep d, ()⟩ :: events)

variable {p} {attempt : Nat → Program (Except StoreError α)} {events : List Event}
  {result : Except StoreError α} {left n : Nat} {delay : Duration}

/-- What an attempt that is not the last allowed one is followed by. -/
theorem runs_attemptFrom_succ_iff :
    (p.attemptFrom .crash (fun d => call (.sleep d)) attempt (left + 1) n delay).Runs events result
      ↔ (∃ a : Attempt α, (attempt n).Runs a.events a.result ∧ ¬ a.Conflicts
          ∧ events = a.events ∧ result = a.result)
        ∨ ∃ (a : Attempt α) (d grown : Duration) (rest : List Event),
          (attempt n).Runs a.events a.result ∧ a.Conflicts
          ∧ p.pause n delay = some d ∧ p.nextDelay delay = some grown
          ∧ events = a.events ++ ⟨.sleep d, ()⟩ :: rest
          ∧ (p.attemptFrom .crash (fun d => call (.sleep d)) attempt left (n + 1) grown).Runs rest
              result := by
  constructor
  · intro h
    obtain ⟨first, rest, outcome, rfl, hfirst, hrest⟩ := runs_bind_iff.mp h
    split at hrest
    · rename_i reason
      split at hrest
      · cases hrest
      · rename_i d hpause
        obtain ⟨_, more, rfl, hmore⟩ := runs_call_bind_iff.mp hrest
        split at hmore
        · cases hmore
        · rename_i grown hgrown
          exact .inr ⟨⟨first, _⟩, d, grown, more, hfirst, ⟨reason, rfl⟩, hpause, hgrown, rfl, hmore⟩
    · rename_i hother
      obtain ⟨rfl, rfl⟩ := runs_pure_iff.mp hrest
      exact .inl ⟨⟨first, _⟩, hfirst, fun ⟨reason, hreason⟩ => hother reason hreason,
        List.append_nil first, rfl⟩
  · rintro (⟨⟨first, outcome⟩, hfirst, hother, rfl, rfl⟩
      | ⟨⟨first, outcome⟩, d, grown, rest, hfirst, ⟨reason, rfl⟩, hpause, hgrown, rfl, hrest⟩)
    · refine runs_bind_iff.mpr ⟨_, [], _, (List.append_nil _).symm, hfirst, ?_⟩
      split
      · rename_i reason hreason
        exact absurd ⟨reason, hreason⟩ hother
      · exact .done _
    · refine runs_bind_iff.mpr ⟨first, _, _, rfl, hfirst, ?_⟩
      simp only [hpause]
      refine runs_call_bind_iff.mpr ⟨(), rest, rfl, ?_⟩
      simp only [hgrown]
      exact hrest

/-- **The traces of a retried program** are those of attempts that go on as long as they meet
    conflicts and may go on. -/
theorem runs_attemptFrom_iff :
    (p.attemptFrom .crash (fun d => call (.sleep d)) attempt left n delay).Runs events result
      ↔ ∃ earlier last paused,
        Tries (fun i a => (attempt i).Runs a.events a.result) n (left + 1) earlier last
          ∧ p.Paused n delay earlier paused ∧ events = paused ++ last.events
          ∧ result = last.result := by
  -- The induction is on how many attempts may still follow: each conflict uses up one of them.
  induction left generalizing n delay events with
  | zero =>
      constructor
      · intro h
        exact ⟨[], ⟨events, result⟩, [], tries_nil_iff.mpr ⟨h, fun _ => rfl⟩, .nil n delay, rfl,
          rfl⟩
      · rintro ⟨earlier, last, paused, htries, hpaused, rfl, rfl⟩
        obtain rfl := htries.eq_nil
        cases hpaused
        exact (tries_nil_iff.mp htries).1
  | succ left ih =>
      rw [runs_attemptFrom_succ_iff]
      constructor
      · rintro (⟨last, hlast, hother, rfl, rfl⟩
          | ⟨a, d, grown, rest, ha, hconflicts, hpause, hgrown, rfl, hrest⟩)
        · exact ⟨[], last, [], tries_nil_iff.mpr ⟨hlast, fun h => absurd h hother⟩, .nil n delay,
            rfl, rfl⟩
        · obtain ⟨earlier, last, paused, htries, hpaused, rfl, rfl⟩ := ih.mp hrest
          exact ⟨a :: earlier, last, _, tries_cons_iff.mpr ⟨ha, hconflicts, htries⟩,
            .cons hpause hgrown hpaused, by simp, rfl⟩
      · rintro ⟨earlier, last, paused, htries, hpaused, rfl, rfl⟩
        cases hpaused with
        | nil =>
            obtain ⟨hlast, hspent⟩ := tries_nil_iff.mp htries
            exact .inl ⟨last, hlast, fun h => absurd (hspent h) (Nat.succ_ne_zero left), rfl, rfl⟩
        | @cons _ _ d grown a rest paused hpause hgrown hpaused =>
            obtain ⟨ha, hconflicts, htries⟩ := tries_cons_iff.mp htries
            exact .inr ⟨a, d, grown, _, ha, hconflicts, hpause, hgrown, by simp,
              ih.mpr ⟨rest, last, paused, htries, hpaused, rfl, rfl⟩⟩

/-- How attempts crash that do not crash themselves: after one that is not the last allowed one. -/
theorem crashes_attemptFrom_succ_iff (hattempt : ∀ n, (attempt n).NeverCrashes) :
    (p.attemptFrom .crash (fun d => call (.sleep d)) attempt (left + 1) n delay).Crashes events
      ↔ ∃ a : Attempt α, (attempt n).Runs a.events a.result ∧ a.Conflicts
        ∧ ((p.pause n delay = none ∧ events = a.events)
          ∨ (∃ d, p.pause n delay = some d ∧ p.nextDelay delay = none
            ∧ events = a.events ++ [⟨.sleep d, ()⟩])
          ∨ ∃ (d grown : Duration) (rest : List Event),
            p.pause n delay = some d ∧ p.nextDelay delay = some grown
            ∧ events = a.events ++ ⟨.sleep d, ()⟩ :: rest
            ∧ (p.attemptFrom .crash (fun d => call (.sleep d)) attempt left (n + 1)
                grown).Crashes rest) := by
  constructor
  · intro h
    rcases crashes_bind_iff.mp h with hfirst | ⟨first, rest, outcome, rfl, hfirst, hrest⟩
    · exact absurd hfirst (hattempt n events)
    split at hrest
    · rename_i reason
      refine ⟨⟨first, _⟩, hfirst, ⟨reason, rfl⟩, ?_⟩
      split at hrest
      · rename_i hpause
        cases hrest
        exact .inl ⟨hpause, List.append_nil first⟩
      · rename_i d hpause
        obtain ⟨_, more, rfl, hmore⟩ := crashes_call_bind_iff.mp hrest
        split at hmore
        · rename_i hgrown
          cases hmore
          exact .inr (.inl ⟨d, hpause, hgrown, rfl⟩)
        · rename_i grown hgrown
          exact .inr (.inr ⟨d, grown, more, hpause, hgrown, rfl, hmore⟩)
    · exact absurd hrest not_crashes_pure
  · rintro ⟨⟨first, outcome⟩, hfirst, ⟨reason, rfl⟩, hends⟩
    rcases hends with ⟨hpause, rfl⟩ | ⟨d, hpause, hgrown, rfl⟩
      | ⟨d, grown, rest, hpause, hgrown, rfl, hrest⟩
    · refine crashes_bind_iff.mpr (.inr ⟨_, [], _, (List.append_nil _).symm, hfirst, ?_⟩)
      simp only [hpause]
      exact .crash
    · refine crashes_bind_iff.mpr (.inr ⟨first, _, _, rfl, hfirst, ?_⟩)
      simp only [hpause]
      refine crashes_call_bind_iff.mpr ⟨(), [], rfl, ?_⟩
      simp only [hgrown]
      exact .crash
    · refine crashes_bind_iff.mpr (.inr ⟨first, _, _, rfl, hfirst, ?_⟩)
      simp only [hpause]
      refine crashes_call_bind_iff.mpr ⟨(), rest, rfl, ?_⟩
      simp only [hgrown]
      exact hrest

/-- **A retried program crashes** after attempts that all met conflicts, where the policy breaks. -/
theorem crashes_attemptFrom_iff (hattempt : ∀ n, (attempt n).NeverCrashes) :
    (p.attemptFrom .crash (fun d => call (.sleep d)) attempt left n delay).Crashes events
      ↔ ∃ attempts,
        Conflicting (fun i a => (attempt i).Runs a.events a.result) n (left + 1) attempts
          ∧ p.Breaks n delay attempts events := by
  induction left generalizing n delay events with
  | zero =>
      refine ⟨fun h => absurd h (hattempt n events), ?_⟩
      rintro ⟨attempts, hconflicting, hbreaks⟩
      obtain rfl := hconflicting.eq_nil
      cases hbreaks
  | succ left ih =>
      rw [crashes_attemptFrom_succ_iff hattempt]
      constructor
      · rintro ⟨a, ha, hconflicts, hends⟩
        rcases hends with ⟨hpause, rfl⟩ | ⟨d, hpause, hgrown, rfl⟩
          | ⟨d, grown, rest, hpause, hgrown, rfl, hrest⟩
        · exact ⟨[a], conflicting_singleton_iff.mpr ⟨ha, hconflicts⟩, .noPause hpause⟩
        · exact ⟨[a], conflicting_singleton_iff.mpr ⟨ha, hconflicts⟩, .noDelay hpause hgrown⟩
        · obtain ⟨attempts, hconflicting, hbreaks⟩ := ih.mp hrest
          exact ⟨a :: attempts, conflicting_cons_iff.mpr ⟨ha, hconflicts, hconflicting⟩,
            .later hpause hgrown hbreaks⟩
      · rintro ⟨attempts, hconflicting, hbreaks⟩
        cases hbreaks with
        | noPause hpause =>
            obtain ⟨ha, hconflicts, -⟩ := conflicting_cons_iff.mp hconflicting
            exact ⟨_, ha, hconflicts, .inl ⟨hpause, rfl⟩⟩
        | noDelay hpause hgrown =>
            obtain ⟨ha, hconflicts, -⟩ := conflicting_cons_iff.mp hconflicting
            exact ⟨_, ha, hconflicts, .inr (.inl ⟨_, hpause, hgrown, rfl⟩)⟩
        | later hpause hgrown hbreaks =>
            obtain ⟨ha, hconflicts, hrest⟩ := conflicting_cons_iff.mp hconflicting
            exact ⟨_, ha, hconflicts, .inr (.inr ⟨_, _, _, hpause, hgrown, rfl,
              ih.mpr ⟨_, hrest, hbreaks⟩⟩)⟩

/-- A policy breaks after some attempts, as many of which as are needed meet conflicts, exactly if
    it does not last. -/
theorem exists_breaks_iff {makes : Nat → Attempt α → Prop}
    (hmakes : ∀ n, ∃ a, makes n a ∧ a.Conflicts) :
    (∃ attempts events, Conflicting makes n (left + 1) attempts
        ∧ p.Breaks n delay attempts events) ↔ p.lasts left n delay = false := by
  induction left generalizing n delay with
  | zero =>
      refine ⟨?_, nofun⟩
      rintro ⟨attempts, events, hconflicting, hbreaks⟩
      obtain rfl := hconflicting.eq_nil
      cases hbreaks
  | succ left ih =>
      constructor
      · rintro ⟨attempts, events, hconflicting, hbreaks⟩
        cases hbreaks with
        | noPause hpause => simp [lasts, hpause]
        | noDelay hpause hgrown => simp [lasts, hpause, hgrown]
        | later hpause hgrown hbreaks =>
            simp only [lasts, hpause, hgrown]
            exact ih.mp ⟨_, _, (conflicting_cons_iff.mp hconflicting).2.2, hbreaks⟩
      · intro hlasts
        obtain ⟨a, ha, hconflicts⟩ := hmakes n
        have hsingle : Conflicting makes n (left + 1 + 1) [a] :=
          conflicting_singleton_iff.mpr ⟨ha, hconflicts⟩
        cases hpause : p.pause n delay with
        | none => exact ⟨[a], _, hsingle, .noPause hpause⟩
        | some d =>
            cases hgrown : p.nextDelay delay with
            | none => exact ⟨[a], _, hsingle, .noDelay hpause hgrown⟩
            | some grown =>
                simp only [lasts, hpause, hgrown] at hlasts
                obtain ⟨attempts, events, hrest, hbreaks⟩ := ih.mpr hlasts
                exact ⟨a :: attempts, _, conflicting_cons_iff.mpr ⟨ha, hconflicts, hrest⟩,
                  .later hpause hgrown hbreaks⟩

end RetryPolicy

/-! ## Attempts to stop a machine -/

/-- What an attempt to stop a machine does: the first one writes with the version that was read
    already; a later one reads the machine, and writes with the version that it read, if it did. -/
inductive StopAttempt (ns name : String) (version : Option String) :
    Nat → Attempt VirtualMachine → Prop where
  | first (answer : Except StoreError VirtualMachine) :
      StopAttempt ns name version 1 ⟨[⟨.setRunning ns name version false, answer⟩], answer⟩
  | unread {n : Nat} (hn : n ≠ 1) (fault : StoreError) :
      StopAttempt ns name version n
        ⟨[⟨.getVirtualMachine ns name, .error fault⟩], .error fault⟩
  | again {n : Nat} (hn : n ≠ 1) (vm : VirtualMachine) (answer : Except StoreError VirtualMachine) :
      StopAttempt ns name version n
        ⟨[⟨.getVirtualMachine ns name, .ok vm⟩,
          ⟨.setRunning ns name vm.metadata.resourceVersion false, answer⟩], answer⟩

theorem runs_stopAttempt_iff {ns name : String} {version : Option String} {n : Nat}
    {events : List Event} {result : Except StoreError VirtualMachine} :
    (stopAttempt ns name version n).Runs events result
      ↔ StopAttempt ns name version n ⟨events, result⟩ := by
  by_cases hn : n = 1
  · subst hn
    refine Iff.trans (runs_call_iff (c := .setRunning ns name version false)) ?_
    constructor
    · rintro rfl
      exact .first result
    · intro h
      cases h with
      | first => rfl
      | unread hn => exact absurd rfl hn
      | again hn => exact absurd rfl hn
  · rw [stopAttempt_of_ne_one ns name version hn, runs_call_bind_iff]
    constructor
    · rintro ⟨answer, rest, rfl, hanswer⟩
      cases answer with
      | error fault =>
          obtain ⟨rfl, rfl⟩ := runs_pure_iff.mp hanswer
          exact .unread hn fault
      | ok vm =>
          have hrest := runs_call_iff.mp hanswer
          subst hrest
          exact .again hn vm result
    · intro h
      cases h with
      | first => exact absurd rfl hn
      | unread _ fault => exact ⟨.error fault, [], rfl, .done _⟩
      | again _ vm => exact ⟨.ok vm, _, rfl, runs_call_iff.mpr rfl⟩

theorem stopAttempt_never_crashes (ns name : String) (version : Option String) (n : Nat) :
    (stopAttempt ns name version n).NeverCrashes := by
  by_cases hn : n = 1
  · subst hn
    exact .call _
  · rw [stopAttempt_of_ne_one ns name version hn]
    refine .bind (.call _) fun answer => ?_
    split
    · exact .pure _
    · exact .call _

/-- Every attempt to stop a machine may meet a conflict. -/
theorem exists_conflicting_stopAttempt (ns name : String) (version : Option String) (n : Nat) :
    ∃ a, StopAttempt ns name version n a ∧ a.Conflicts := by
  by_cases hn : n = 1
  · subst hn
    exact ⟨_, .first (.error (.conflict "")), "", rfl⟩
  · exact ⟨_, .unread hn (.conflict ""), "", rfl⟩

/-! ## The courses of a shutdown -/

/-- The courses that a shutdown can take to an outcome: its calls with their answers, and the
    outcome. -/
inductive ShutdownCourse (policy : RetryPolicy) (name : String) (credentials : Credentials) :
    List Event → Outcome String → Prop where
  | noClient (e : DriverError) :
      ShutdownCourse policy name credentials [⟨.client credentials, .error e⟩] (.error e)
  | missing (ns : String) :
      ShutdownCourse policy name credentials
        [⟨.client credentials, .ok ns⟩, ⟨.getVirtualMachine ns name, .error .notFound⟩]
        (.error (.machineNotFound name))
  | unread (ns : String) (fault : StoreError) (h : fault ≠ .notFound) :
      ShutdownCourse policy name credentials
        [⟨.client credentials, .ok ns⟩, ⟨.getVirtualMachine ns name, .error fault⟩]
        (.error (.object .get "VirtualMachine" name fault))
  | stopped (ns : String) (vm stored : VirtualMachine) (earlier : List (Attempt VirtualMachine))
      (paused last : List Event)
      (tries : Tries (StopAttempt ns vm.metadata.shownName vm.metadata.resourceVersion) 1
        (max 1 policy.attempts.toNat) earlier ⟨last, .ok stored⟩)
      (pauses : policy.Paused 1 policy.initialDelay earlier paused) :
      ShutdownCourse policy name credentials
        (⟨.client credentials, .ok ns⟩ :: ⟨.getVirtualMachine ns name, .ok vm⟩ :: (paused ++ last))
        (.ok (ProviderId.encode vm.metadata.shownName))
  | refused (ns : String) (vm : VirtualMachine) (fault : StoreError)
      (earlier : List (Attempt VirtualMachine)) (paused last : List Event)
      (tries : Tries (StopAttempt ns vm.metadata.shownName vm.metadata.resourceVersion) 1
        (max 1 policy.attempts.toNat) earlier ⟨last, .error fault⟩)
      (pauses : policy.Paused 1 policy.initialDelay earlier paused) :
      ShutdownCourse policy name credentials
        (⟨.client credentials, .ok ns⟩ :: ⟨.getVirtualMachine ns name, .ok vm⟩ :: (paused ++ last))
        (.error (.object .update "VirtualMachine" vm.metadata.shownName fault))

/-- The calls after which a shutdown crashes: the machine was read, and all attempts met conflicts
    up to where the policy breaks. -/
inductive ShutdownCrash (policy : RetryPolicy) (name : String) (credentials : Credentials) :
    List Event → Prop where
  | broken (ns : String) (vm : VirtualMachine) (attempts : List (Attempt VirtualMachine))
      (calls : List Event)
      (conflicting : Conflicting (StopAttempt ns vm.metadata.shownName vm.metadata.resourceVersion)
        1 (max 1 policy.attempts.toNat) attempts)
      (breaks : policy.Breaks 1 policy.initialDelay attempts calls) :
      ShutdownCrash policy name credentials
        (⟨.client credentials, .ok ns⟩ :: ⟨.getVirtualMachine ns name, .ok vm⟩ :: calls)

variable {policy : RetryPolicy} {name : String} {credentials : Credentials} {ns : String}
  {version : Option String} {events : List Event}

theorem RetryPolicy.retries_succ (policy : RetryPolicy) :
    policy.retries + 1 = max 1 policy.attempts.toNat := by
  unfold RetryPolicy.retries
  omega

/-- Attempts to stop a machine, up to as many as are allowed, and one if none are. -/
theorem runs_stopAttempts_iff {result : Except StoreError VirtualMachine} :
    (policy.run .crash (fun d => call (.sleep d)) (stopAttempt ns name version)).Runs events result
      ↔ ∃ earlier last paused,
        Tries (StopAttempt ns name version) 1 (max 1 policy.attempts.toNat) earlier last
          ∧ policy.Paused 1 policy.initialDelay earlier paused ∧ events = paused ++ last.events
          ∧ result = last.result := by
  refine RetryPolicy.runs_attemptFrom_iff.trans ?_
  rw [policy.retries_succ]
  simp only [runs_stopAttempt_iff]

theorem crashes_stopAttempts_iff :
    (policy.run .crash (fun d => call (.sleep d)) (stopAttempt ns name version)).Crashes events
      ↔ ∃ attempts,
        Conflicting (StopAttempt ns name version) 1 (max 1 policy.attempts.toNat) attempts
          ∧ policy.Breaks 1 policy.initialDelay attempts events := by
  refine (RetryPolicy.crashes_attemptFrom_iff (stopAttempt_never_crashes ns name version)).trans ?_
  rw [policy.retries_succ]
  simp only [runs_stopAttempt_iff]

/-- The traces of a shutdown are its courses. -/
theorem runs_shutdownMachine_iff {events : List Event} {outcome : Outcome String} :
    (shutdownMachine policy name credentials).Runs events outcome
      ↔ ShutdownCourse policy name credentials events outcome := by
  unfold shutdownMachine
  rw [runs_call_bind_iff]
  constructor
  · rintro ⟨client, rest, rfl, hclient⟩
    cases client with
    | error e =>
        obtain ⟨rfl, rfl⟩ := runs_pure_iff.mp hclient
        exact .noClient e
    | ok ns =>
        obtain ⟨read, rest, found, rfl, hread, hrest⟩ := runs_bind_iff.mp hclient
        rcases runs_getMachine_iff.mp hread with ⟨vm, rfl, rfl⟩ | ⟨rfl, rfl⟩
          | ⟨fault, hfault, rfl, rfl⟩
        · obtain ⟨attempts, rest, result, rfl, hattempts, hlast⟩ := runs_bind_iff.mp hrest
          obtain ⟨earlier, ⟨last, _⟩, paused, htries, hpaused, rfl, rfl⟩ :=
            runs_stopAttempts_iff.mp hattempts
          cases result with
          | ok stored =>
              obtain ⟨rfl, rfl⟩ := runs_pure_iff.mp hlast
              simpa using .stopped ns vm stored earlier paused last htries hpaused
          | error fault =>
              obtain ⟨rfl, rfl⟩ := runs_pure_iff.mp hlast
              simpa using .refused ns vm fault earlier paused last htries hpaused
        · obtain ⟨rfl, rfl⟩ := runs_pure_iff.mp hrest
          exact .missing ns
        · obtain ⟨rfl, rfl⟩ := runs_pure_iff.mp hrest
          exact .unread ns fault hfault
  · intro h
    cases h with
    | noClient e => exact ⟨.error e, [], rfl, .done _⟩
    | missing ns =>
        have hread : (getMachine ns name).Runs _ _ :=
          runs_getMachine_iff.mpr (.inr (.inl ⟨rfl, rfl⟩))
        exact ⟨.ok ns, _, rfl, runs_bind_iff.mpr ⟨_, [], _, rfl, hread, .done _⟩⟩
    | unread ns fault hfault =>
        have hread : (getMachine ns name).Runs _ _ :=
          runs_getMachine_iff.mpr (.inr (.inr ⟨fault, hfault, rfl, rfl⟩))
        exact ⟨.ok ns, _, rfl, runs_bind_iff.mpr ⟨_, [], _, rfl, hread, .done _⟩⟩
    | stopped ns vm stored earlier paused last htries hpaused =>
        have hread : (getMachine ns name).Runs _ _ := runs_getMachine_iff.mpr (.inl ⟨vm, rfl, rfl⟩)
        have hattempts := runs_stopAttempts_iff.mpr ⟨earlier, _, paused, htries, hpaused, rfl, rfl⟩
        exact ⟨.ok ns, _, rfl, runs_bind_iff.mpr ⟨_, _, _, rfl, hread, runs_bind_iff.mpr
          ⟨_, [], _, (List.append_nil _).symm, hattempts, .done _⟩⟩⟩
    | refused ns vm fault earlier paused last htries hpaused =>
        have hread : (getMachine ns name).Runs _ _ := runs_getMachine_iff.mpr (.inl ⟨vm, rfl, rfl⟩)
        have hattempts := runs_stopAttempts_iff.mpr ⟨earlier, _, paused, htries, hpaused, rfl, rfl⟩
        exact ⟨.ok ns, _, rfl, runs_bind_iff.mpr ⟨_, _, _, rfl, hread, runs_bind_iff.mpr
          ⟨_, [], _, (List.append_nil _).symm, hattempts, .done _⟩⟩⟩

/-- The crashes of a shutdown are those of its attempts. -/
theorem crashes_shutdownMachine_iff :
    (shutdownMachine policy name credentials).Crashes events
      ↔ ShutdownCrash policy name credentials events := by
  unfold shutdownMachine
  rw [crashes_call_bind_iff]
  constructor
  · rintro ⟨client, rest, rfl, hclient⟩
    cases client with
    | error e => exact absurd hclient not_crashes_pure
    | ok ns =>
        rcases crashes_bind_iff.mp hclient with hread | ⟨read, rest, found, rfl, hread, hrest⟩
        · exact absurd hread (getMachine_never_crashes ns name _)
        rcases runs_getMachine_iff.mp hread with ⟨vm, rfl, rfl⟩ | ⟨rfl, rfl⟩ | ⟨fault, _, rfl, rfl⟩
        · rcases crashes_bind_iff.mp hrest with hattempts | ⟨_, _, result, _, _, hlast⟩
          · obtain ⟨attempts, hconflicting, hbreaks⟩ := crashes_stopAttempts_iff.mp hattempts
            exact .broken ns vm attempts rest hconflicting hbreaks
          · cases result <;> exact absurd hlast not_crashes_pure
        · exact absurd hrest not_crashes_pure
        · exact absurd hrest not_crashes_pure
  · rintro ⟨ns, vm, attempts, calls, hconflicting, hbreaks⟩
    have hread : (getMachine ns name).Runs _ _ := runs_getMachine_iff.mpr (.inl ⟨vm, rfl, rfl⟩)
    have hattempts := crashes_stopAttempts_iff.mpr ⟨attempts, hconflicting, hbreaks⟩
    exact ⟨.ok ns, _, rfl, crashes_bind_iff.mpr
      (.inr ⟨_, _, _, rfl, hread, crashes_bind_iff.mpr (.inl hattempts)⟩)⟩

/-- A shutdown never crashes exactly if its policy is sound. -/
theorem shutdownMachine_never_crashes_iff :
    (shutdownMachine policy name credentials).NeverCrashes ↔ policy.IsSound := by
  have hbreaks (ns : String) (vm : VirtualMachine) :
      (∃ attempts calls,
          Conflicting (StopAttempt ns vm.metadata.shownName vm.metadata.resourceVersion) 1
              (max 1 policy.attempts.toNat) attempts
            ∧ policy.Breaks 1 policy.initialDelay attempts calls)
        ↔ ¬ policy.IsSound := by
    rw [RetryPolicy.IsSound, Bool.not_eq_true, ← policy.retries_succ]
    exact RetryPolicy.exists_breaks_iff (exists_conflicting_stopAttempt ns _ _)
  constructor
  · refine fun hnever => Decidable.byContradiction fun hbroken => ?_
    obtain ⟨attempts, calls, hconflicting, hcalls⟩ := (hbreaks "" default).mpr hbroken
    exact hnever _ (crashes_shutdownMachine_iff.mpr
      (.broken "" default attempts calls hconflicting hcalls))
  · intro hsound events hcrash
    obtain ⟨ns, vm, attempts, calls, hconflicting, hcalls⟩ := crashes_shutdownMachine_iff.mp hcrash
    exact (hbreaks ns vm).mp ⟨attempts, calls, hconflicting, hcalls⟩ hsound

/-- The first pause of the usual policy, and the delay after it. -/
theorem RetryPolicy.pause_usual :
    ({} : RetryPolicy).pause 1 (.ofMilliseconds 10) = some (.ofMilliseconds 10)
      ∧ ({} : RetryPolicy).nextDelay (.ofMilliseconds 10) = some (.ofMilliseconds 50) := by
  decide +kernel

/-- A machine of which nothing but the name is known. -/
def VirtualMachine.named (name : String) : VirtualMachine :=
  { (default : VirtualMachine) with metadata := { name := some name } }

end MachineDriver
