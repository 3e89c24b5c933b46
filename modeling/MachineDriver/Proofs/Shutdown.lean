import MachineDriver.Proofs.Attempts
import MachineDriver.Proofs.Interleaving
import MachineDriver.Proofs.SharedCluster

set_option autoImplicit false

/-!
# Shutdown loses no update

A machine is stopped by a write that expects the version with which the machine was read. After a
conflict the machine is read anew, a bounded number of times.

The traces of the attempts come first: `StopTrace` says that each write comes right after a read of
the same machine and expects the version of that read, that the writes are bounded, and that the
last call of a success is a write. Against a cluster that others change this gives the main
statement, `shutdownMachine_loses_no_update`: the write that is accepted hits a machine that nobody
has changed since it was read. It is about every beginning of a shutdown, and so about those that
crash as well. -/

namespace MachineDriver

open Program

/-! ## Traces of attempts -/

/-- The number of calls that write. -/
def writeCount (events : List Event) : Nat :=
  events.countP fun e => e.call.isMutating

@[simp] theorem writeCount_append (first rest : List Event) :
    writeCount (first ++ rest) = writeCount first + writeCount rest :=
  List.countP_append

theorem writeCount_eq_zero {events : List Event} (h : ∀ e ∈ events, e.call.isMutating = false) :
    writeCount events = 0 := by
  rw [writeCount, List.countP_eq_zero]
  intro e he
  simp [h e he]

/-- Every call that writes stops the machine of a namespace and a name, comes right after a call
    that read this machine, and expects the version that was read. -/
def StopsWhatItRead (ns name : String) (events : List Event) : Prop :=
  ∀ before e after, events = before ++ e :: after → e.call.isMutating = true →
    ∃ (earlier : List Event) (vm : VirtualMachine) (answer : Except StoreError VirtualMachine),
      before = earlier ++ [⟨.getVirtualMachine ns name, .ok vm⟩]
        ∧ e = ⟨.setRunning ns name vm.metadata.resourceVersion false, answer⟩

theorem StopsWhatItRead.of_reads {ns name : String} {events : List Event}
    (h : ∀ e ∈ events, e.call.isMutating = false) : StopsWhatItRead ns name events := by
  rintro before e after rfl hwrites
  have hreads : e.call.isMutating = false := h e (by simp)
  rw [hreads] at hwrites
  cases hwrites

/-- What calls stop is not changed by what follows them. -/
theorem StopsWhatItRead.left {ns name : String} {first rest : List Event}
    (h : StopsWhatItRead ns name (first ++ rest)) : StopsWhatItRead ns name first := by
  rintro before e after rfl hwrites
  exact h before e (after ++ rest) (by simp) hwrites

theorem StopsWhatItRead.append {ns name : String} {first rest : List Event}
    (hfirst : StopsWhatItRead ns name first) (hrest : StopsWhatItRead ns name rest) :
    StopsWhatItRead ns name (first ++ rest) := by
  intro before e after hsplit hwrites
  rcases List.append_eq_append_iff.mp hsplit with ⟨tail, rfl, htail⟩ | ⟨tail, htail, hsplit⟩
  · obtain ⟨earlier, vm, answer, rfl, he⟩ := hrest tail e after htail hwrites
    exact ⟨first ++ earlier, vm, answer, by simp, he⟩
  · cases tail with
    | nil =>
        obtain ⟨earlier, vm, answer, hnil, _⟩ := hrest [] e after hsplit.symm hwrites
        simp at hnil
    | cons e' tail =>
        rw [List.cons_append, List.cons.injEq] at hsplit
        obtain ⟨rfl, _⟩ := hsplit
        exact hfirst before e tail htail hwrites

/-- What `events` do when they are attempts to stop a machine with at most `budget` writes that end
    with `result`, or crash. -/
structure StopTrace (ns name : String) (budget : Nat) (events : List Event)
    (result : Option (Except StoreError VirtualMachine)) : Prop where
  stops : StopsWhatItRead ns name events
  bounded : writeCount events ≤ budget
  last_of_ok : ∀ stored, result = some (.ok stored) → ∃ before expected,
    events = before ++ [⟨.setRunning ns name expected false, .ok stored⟩]

namespace StopTrace

variable {ns name : String}

/-- An attempt that reads the machine and then writes. -/
theorem of_read_write (vm : VirtualMachine) (answer : Except StoreError VirtualMachine) :
    StopTrace ns name 1
      [⟨.getVirtualMachine ns name, .ok vm⟩,
        ⟨.setRunning ns name vm.metadata.resourceVersion false, answer⟩] (some answer) where
  stops := by
    intro before e after hsplit hwrites
    match before, hsplit with
    | [], hsplit =>
        cases hsplit
        cases hwrites
    | [read], hsplit =>
        cases hsplit
        exact ⟨[], vm, answer, rfl, rfl⟩
    | _ :: _ :: before, hsplit => simp at hsplit
  bounded := Nat.le_refl 1
  last_of_ok := by
    intro stored h
    obtain rfl := Option.some.inj h
    exact ⟨[⟨.getVirtualMachine ns name, .ok vm⟩], vm.metadata.resourceVersion, rfl⟩

/-- An attempt that does not get beyond its read. -/
theorem of_failed_read (fault : StoreError) :
    StopTrace ns name 1 [⟨.getVirtualMachine ns name, .error fault⟩] (some (.error fault)) where
  stops := .of_reads (by simp [Call.isMutating])
  bounded := Nat.zero_le 1
  last_of_ok := by simp

/-- An attempt after which nothing follows but a crash. -/
theorem crash {events : List Event} {budget : Nat}
    {result : Option (Except StoreError VirtualMachine)}
    (h : StopTrace ns name budget events result) : StopTrace ns name budget events none :=
  { h with last_of_ok := by simp }

/-- A failed attempt, a pause, and further attempts. -/
theorem retry {first rest : List Event} {budget left : Nat} {fault : StoreError}
    {result : Option (Except StoreError VirtualMachine)}
    (hfirst : StopTrace ns name budget first (some (.error fault))) (d : Duration)
    (hrest : StopTrace ns name left rest result) :
    StopTrace ns name (budget + left) (first ++ ⟨.sleep d, ()⟩ :: rest) result where
  stops := by
    have hpause : StopsWhatItRead ns name [⟨.sleep d, ()⟩] :=
      .of_reads (by simp [Call.isMutating])
    exact hfirst.stops.append (hpause.append hrest.stops)
  bounded := by
    have hpause : writeCount (⟨.sleep d, ()⟩ :: rest) = writeCount rest :=
      List.countP_cons_of_neg (by simp [Call.isMutating])
    rw [writeCount_append, hpause]
    exact Nat.add_le_add hfirst.bounded hrest.bounded
  last_of_ok := by
    intro stored hresult
    obtain ⟨before, expected, rfl⟩ := hrest.last_of_ok stored hresult
    exact ⟨first ++ ⟨.sleep d, ()⟩ :: before, expected, by simp⟩

theorem mono {budget more : Nat} {events : List Event}
    {result : Option (Except StoreError VirtualMachine)}
    (h : StopTrace ns name budget events result) (hle : budget ≤ more) :
    StopTrace ns name more events result :=
  { h with bounded := Nat.le_trans h.bounded hle }

end StopTrace

/-- An attempt after the first reads the machine anew. -/
theorem stopTrace_of_later_attempt {ns name : String} {version : Option String} {n : Nat}
    {events : List Event} {result : Except StoreError VirtualMachine} (hn : n ≠ 1)
    (h : (stopAttempt ns name version n).Runs events result) :
    StopTrace ns name 1 events (some result) := by
  cases runs_stopAttempt_iff.mp h with
  | first => exact absurd rfl hn
  | unread _ fault => exact .of_failed_read fault
  | again _ vm => exact .of_read_write vm result

/-- Attempts from some attempt on, after calls that belong to the first of them. -/
theorem stopTrace_of_attempts {ns name : String} {version : Option String} {p : RetryPolicy}
    {left n : Nat} {delay : Duration} {opening events : List Event}
    {result : Option (Except StoreError VirtualMachine)} (hn : 1 ≤ n)
    (hfirst : ∀ first o, (stopAttempt ns name version n).Runs first o →
      StopTrace ns name 1 (opening ++ first) (some o))
    (h : (p.attemptFrom .crash (fun d => call (.sleep d)) (stopAttempt ns name version) left n
      delay).Halts events result) :
    StopTrace ns name (1 + left) (opening ++ events) result := by
  have hnever := stopAttempt_never_crashes ns name version
  induction left generalizing n delay opening events with
  | zero =>
      cases result with
      | some r => exact hfirst events r h
      | none => exact absurd h (hnever n events)
  | succ left ih =>
      -- Whatever follows a conflict and a pause is in turn such a trace.
      have hretry (a : Attempt VirtualMachine) (d : Duration) (rest : List Event)
          (ha : (stopAttempt ns name version n).Runs a.events a.result) (hconflict : a.Conflicts)
          (hrest : StopTrace ns name (1 + left) rest result) :
          StopTrace ns name (1 + (left + 1)) (opening ++ (a.events ++ ⟨.sleep d, ()⟩ :: rest))
            result := by
        obtain ⟨reason, hreason⟩ := hconflict
        have htrace := hfirst a.events a.result ha
        rw [hreason] at htrace
        rw [← List.append_assoc, Nat.add_comm left 1]
        exact htrace.retry d hrest
      have hlater {grown : Duration} {rest : List Event}
          (hrest : (p.attemptFrom .crash (fun d => call (.sleep d)) (stopAttempt ns name version)
            left (n + 1) grown).Halts rest result) : StopTrace ns name (1 + left) rest result := by
        have hattempts : ∀ first o, (stopAttempt ns name version (n + 1)).Runs first o →
            StopTrace ns name 1 ([] ++ first) (some o) :=
          fun first o hrun => stopTrace_of_later_attempt (by omega) hrun
        exact ih (Nat.le_add_left 1 n) hattempts hrest
      cases result with
      | some r =>
          rcases RetryPolicy.runs_attemptFrom_succ_iff.mp h with ⟨a, ha, -, rfl, rfl⟩
            | ⟨a, d, grown, rest, ha, hconflict, -, -, rfl, hrest⟩
          · exact (hfirst a.events a.result ha).mono (Nat.le_add_right 1 _)
          · exact hretry a d rest ha hconflict (hlater hrest)
      | none =>
          obtain ⟨a, ha, hconflict, ⟨-, rfl⟩ | ⟨d, -, -, rfl⟩
              | ⟨d, grown, rest, -, -, rfl, hrest⟩⟩ :=
            (RetryPolicy.crashes_attemptFrom_succ_iff hnever).mp h
          · exact (hfirst a.events a.result ha).crash.mono (Nat.le_add_right 1 _)
          · exact hretry a d [] ha hconflict
              ⟨.of_reads (by simp), Nat.zero_le _, by simp⟩
          · exact hretry a d rest ha hconflict (hlater hrest)

/-! ## Traces of a shutdown -/

variable {policy : RetryPolicy} {name : String} {credentials : Credentials}

/-- A shutdown either fails before it writes, or reads the machine and makes its attempts. -/
theorem cases_of_halts_shutdownMachine {events : List Event} {outcome : Option (Outcome String)}
    (h : (shutdownMachine policy name credentials).Halts events outcome) :
    (∃ error, outcome = some (.error error) ∧ ∀ e ∈ events, e.call.isMutating = false)
      ∨ ∃ (ns : String) (vm : VirtualMachine) (attempts : List Event)
          (result : Option (Except StoreError VirtualMachine)),
        events = [⟨.client credentials, .ok ns⟩, ⟨.getVirtualMachine ns name, .ok vm⟩] ++ attempts
          ∧ (policy.run .crash (fun d => call (.sleep d))
              (stopAttempt ns vm.metadata.shownName vm.metadata.resourceVersion)).Halts
              attempts result
          ∧ ∀ id, outcome = some (.ok id) → id = ProviderId.encode vm.metadata.shownName
              ∧ ∃ stored, result = some (.ok stored) := by
  cases outcome with
  | some outcome =>
      cases runs_shutdownMachine_iff.mp h with
      | noClient e => exact .inl ⟨e, rfl, by simp [Call.isMutating]⟩
      | missing ns => exact .inl ⟨_, rfl, by simp [Call.isMutating]⟩
      | unread ns fault => exact .inl ⟨_, rfl, by simp [Call.isMutating]⟩
      | stopped ns vm stored earlier paused last htries hpaused =>
          have hattempts :=
            runs_stopAttempts_iff.mpr ⟨earlier, _, paused, htries, hpaused, rfl, rfl⟩
          refine .inr ⟨ns, vm, _, some (.ok stored), rfl, hattempts, fun id hid => ?_⟩
          cases hid
          exact ⟨rfl, stored, rfl⟩
      | refused ns vm fault earlier paused last htries hpaused =>
          have hattempts :=
            runs_stopAttempts_iff.mpr ⟨earlier, _, paused, htries, hpaused, rfl, rfl⟩
          exact .inr ⟨ns, vm, _, some (.error fault), rfl, hattempts, fun id hid => by cases hid⟩
  | none =>
      cases crashes_shutdownMachine_iff.mp h with
      | broken ns vm attempts calls hconflicting hbreaks =>
          have hattempts := crashes_stopAttempts_iff.mpr ⟨attempts, hconflicting, hbreaks⟩
          exact .inr ⟨ns, vm, calls, none, rfl, hattempts, by simp⟩

/-- The attempts of a shutdown, together with the read before them. -/
theorem stopTrace_of_halts {ns : String} {vm : VirtualMachine} {attempts : List Event}
    {result : Option (Except StoreError VirtualMachine)}
    (h : (policy.run .crash (fun d => call (.sleep d))
      (stopAttempt ns name vm.metadata.resourceVersion)).Halts attempts result) :
    StopTrace ns name (max 1 policy.attempts.toNat)
      (⟨.getVirtualMachine ns name, .ok vm⟩ :: attempts) result := by
  have htrace : StopTrace ns name (1 + policy.retries)
      ([⟨.getVirtualMachine ns name, .ok vm⟩] ++ attempts) result := by
    refine stopTrace_of_attempts (Nat.le_refl 1) (fun first o hfirst => ?_) h
    have hwrite := runs_call_iff.mp hfirst
    subst hwrite
    exact .of_read_write vm o
  rwa [Nat.add_comm 1, policy.retries_succ] at htrace

/-! ## Shutdown in a cluster that others change -/

/-- The call `e`, which is made after `before` on the way from `s` to `t`, stops a machine and
    expects the version of its last read, which no other call of ours follows. If it is accepted,
    nobody has changed the machine since that read. -/
def StopsLastRead (s t : Shared) (ns name : String) (before : List Happening) (e : Event)
    (after : List Happening) : Prop :=
  ∃ (earlier between : List Happening) (vm : VirtualMachine) (version : String)
      (answer : Except StoreError VirtualMachine),
    before = earlier ++ .ours ⟨.getVirtualMachine ns name, .ok vm⟩ :: between
      ∧ ownEvents between = []
      ∧ vm.metadata.resourceVersion = some version
      ∧ e = ⟨.setRunning ns name (some version) false, answer⟩
      ∧ ∀ stored, answer = .ok stored →
        (∀ h ∈ between, ¬ h.Changes ns name)
          ∧ ∃ u, Path Shared.Step s before u ∧ Path Shared.Step u (.ours e :: after) t
            ∧ u.cluster.machine? ns name = some vm

/-- Calls that stop what they read stop, in a cluster, what was read last. -/
theorem stopsLastRead_of_stops {s t : Shared} {ns : String} {before after : List Happening}
    {e : Event} (hpath : Path Shared.Step s (before ++ .ours e :: after) t)
    (hstops : StopsWhatItRead ns name (ownEvents (before ++ .ours e :: after)))
    (hwrites : e.call.isMutating = true) : StopsLastRead s t ns name before e after := by
  obtain ⟨earlier, vm, answer, hbefore, rfl⟩ :=
    hstops (ownEvents before) e (ownEvents after) (ownEvents_append _ _) hwrites
  obtain ⟨first, between, rfl, _, hbetween⟩ := exists_own hbefore
  obtain ⟨w, htow, hfromw⟩ := path_append_iff.mp hpath
  obtain ⟨r, _, r', hread, hpath'⟩ := path_append_iff.mp htow
  obtain ⟨hfound, rfl⟩ : r.cluster.machine? ns name = some vm ∧ r' = r := hread
  obtain ⟨version, _, hversion⟩ := r'.versioned ns name vm hfound
  refine ⟨first, between, vm, version, answer, rfl, hbetween, hversion, by rw [hversion], ?_⟩
  rintro stored rfl
  obtain ⟨x, hwrite, _⟩ := path_cons_iff.mp hfromw
  obtain ⟨hunchanged, hsame⟩ := Shared.unchanged_of_accepted hfound hpath' hbetween hwrite
  exact ⟨hunchanged, w, htow, hfromw, hsame⟩

/-- Where a write was accepted, the machine is stored as it was written. -/
theorem exists_stored {s t : Shared} {history : List Happening} {ns : String}
    {expected : Option String} {stored : VirtualMachine} {earlier later : List Event}
    (hpath : Path Shared.Step s history t)
    (h : ownEvents history
      = earlier ++ ⟨.setRunning ns name expected false, .ok stored⟩ :: later) :
    ∃ before after u,
      history = before ++ .ours ⟨.setRunning ns name expected false, .ok stored⟩ :: after
        ∧ ownEvents before = earlier
        ∧ Path Shared.Step s
            (before ++ [.ours ⟨.setRunning ns name expected false, .ok stored⟩]) u
        ∧ Path Shared.Step u after t
        ∧ u.cluster.machine? ns name = some stored ∧ stored.spec.running = some false := by
  obtain ⟨before, after, rfl, hbefore, _⟩ := exists_own h
  obtain ⟨w, htow, hfromw⟩ := path_append_iff.mp hpath
  obtain ⟨u, hwrite, hfromu⟩ := path_cons_iff.mp hfromw
  refine ⟨before, after, u, rfl, hbefore, ?_, hfromu, Shared.machine?_of_accepted hwrite⟩
  exact path_append_iff.mpr ⟨w, htow, u, hwrite, rfl⟩

/-- A shutdown never writes more often than attempts are allowed. -/
theorem writeCount_le_of_halts {events : List Event} {outcome : Option (Outcome String)}
    (h : (shutdownMachine policy name credentials).Halts events outcome) :
    writeCount events ≤ max 1 policy.attempts.toNat := by
  rcases cases_of_halts_shutdownMachine h with ⟨_, _, hreads⟩
    | ⟨ns, vm, attempts, result, rfl, hattempts, _⟩
  · rw [writeCount_eq_zero hreads]
    exact Nat.zero_le _
  · exact (stopTrace_of_halts hattempts).bounded

/-- A write of a shutdown stops the machine that was read last. -/
theorem exists_stopsLastRead {s t : Shared} {before after : List Happening} {e : Event}
    {rest : List Event} {outcome : Option (Outcome String)}
    (hpath : Path Shared.Step s (before ++ .ours e :: after) t)
    (h : (shutdownMachine policy name credentials).Halts
      (ownEvents (before ++ .ours e :: after) ++ rest) outcome)
    (hwrites : e.call.isMutating = true) :
    ∃ ns, ⟨.client credentials, .ok ns⟩ ∈ ownEvents before
      ∧ StopsLastRead s t ns name before e after := by
  rcases cases_of_halts_shutdownMachine h with ⟨_, _, hreads⟩
    | ⟨ns, vm, attempts, result, hevents, hattempts, _⟩
  · have hread : e.call.isMutating = false := hreads e (by simp)
    rw [hread] at hwrites
    cases hwrites
  · have hsplit : ownEvents before ++ e :: (ownEvents after ++ rest)
        = [⟨.client credentials, .ok ns⟩, ⟨.getVirtualMachine ns name, .ok vm⟩] ++ attempts := by
      rw [← hevents]
      simp
    have hfirst :
        e ∉ [⟨.client credentials, .ok ns⟩, ⟨.getVirtualMachine ns name, .ok vm⟩] := by
      intro he
      rcases List.mem_cons.mp he with rfl | he
      · cases hwrites
      · rw [List.mem_singleton.mp he] at hwrites
        cases hwrites
    obtain ⟨between, hbefore⟩ := exists_before_of_first hsplit hfirst
    -- What a cluster gives for a name bears that name, so that all attempts are for one machine.
    have hread : ⟨.getVirtualMachine ns name, .ok vm⟩ ∈ ownEvents (before ++ .ours e :: after) := by
      rw [ownEvents_append, hbefore]
      simp
    rw [Shared.shownName_of_read hpath hread] at hattempts
    have hclient : StopsWhatItRead ns name [⟨.client credentials, .ok ns⟩] :=
      .of_reads (by simp [Call.isMutating])
    have hstops : StopsWhatItRead ns name (ownEvents (before ++ .ours e :: after) ++ rest) := by
      rw [hevents]
      exact hclient.append (stopTrace_of_halts hattempts).stops
    exact ⟨ns, by simp [hbefore], stopsLastRead_of_stops hpath hstops.left hwrites⟩

/-- **Shutdown loses no update.** Whatever others do to the machines of a cluster between the calls
    of a shutdown, and however far it has come: every write stops the machine that was read last and
    expects the version of that read, and the write that is accepted hits a machine that nobody has
    changed since; there are at most as many writes as attempts are allowed, and one if none are;
    and a shutdown that has succeeded has stored its machine as one that is not to run. -/
theorem shutdownMachine_loses_no_update {s t : Shared} {history : List Happening}
    {left : Program (Outcome String)} (hpath : Path Shared.Step s history t)
    (hbegins :
      Path Program.Step (shutdownMachine policy name credentials) (ownEvents history) left) :
    (∀ before e after, history = before ++ .ours e :: after → e.call.isMutating = true →
        ∃ ns, ⟨.client credentials, .ok ns⟩ ∈ ownEvents before
          ∧ StopsLastRead s t ns name before e after)
      ∧ writeCount (ownEvents history) ≤ max 1 policy.attempts.toNat
      ∧ ∀ id, left = .done (.ok id) → id = ProviderId.encode name
          ∧ ∃ before ns expected stored after u, history
              = before ++ .ours ⟨.setRunning ns name expected false, .ok stored⟩ :: after
            ∧ ⟨.client credentials, .ok ns⟩ ∈ ownEvents before
            ∧ Path Shared.Step s
                (before ++ [.ours ⟨.setRunning ns name expected false, .ok stored⟩]) u
            ∧ Path Shared.Step u after t
            ∧ u.cluster.machine? ns name = some stored ∧ stored.spec.running = some false := by
  obtain ⟨rest, outcome, hhalts⟩ := exists_halts_of_path hbegins
  refine ⟨?_, ?_, ?_⟩
  · rintro before e after rfl hwrites
    exact exists_stopsLastRead hpath hhalts hwrites
  · refine Nat.le_trans ?_ (writeCount_le_of_halts hhalts)
    rw [writeCount_append]
    exact Nat.le_add_right _ _
  · rintro id rfl
    have hruns : (shutdownMachine policy name credentials).Halts (ownEvents history)
        (some (.ok id)) := path_done_iff.mp hbegins
    rcases cases_of_halts_shutdownMachine hruns with ⟨_, herror, _⟩
      | ⟨ns, vm, attempts, result, hevents, hattempts, houtcome⟩
    · cases Option.some.inj herror
    · have hread : ⟨.getVirtualMachine ns name, .ok vm⟩ ∈ ownEvents history := by
        rw [hevents]
        simp
      rw [Shared.shownName_of_read hpath hread] at hattempts houtcome
      obtain ⟨rfl, stored, hresult⟩ := houtcome id rfl
      obtain ⟨earlier, expected, hlast⟩ := (stopTrace_of_halts hattempts).last_of_ok stored hresult
      have hsplit : ownEvents history = (⟨.client credentials, .ok ns⟩ :: earlier)
          ++ [⟨.setRunning ns name expected false, .ok stored⟩] :=
        hevents.trans (congrArg (List.cons _) hlast)
      obtain ⟨before, after, u, hhistory, hbefore, hwritten⟩ := exists_stored hpath hsplit
      refine ⟨rfl, before, ns, expected, stored, after, u, hhistory, ?_, hwritten⟩
      rw [hbefore]
      exact List.mem_cons_self

/-- A machine is written by someone else after it was read. The first attempt to stop it meets a
    conflict and changes nothing, and the second one is accepted. -/
theorem shutdownMachine_after_conflict :
    ∃ (t : Shared) (history : List Happening), Path Shared.Step .empty history t
      ∧ (shutdownMachine {} "a" {}).Runs (ownEvents history) (.ok (ProviderId.encode "a"))
      ∧ writeCount (ownEvents history) = 2
      ∧ ∃ ns stored u after, Path Shared.Step u after t
        ∧ u.cluster.machine? ns "a" = some stored ∧ stored.spec.running = some false := by
  let vm : VirtualMachine :=
    { (default : VirtualMachine) with metadata := { name := some "a", ns? := some "home" } }
  let stopped : VirtualMachine := { vm with spec := { vm.spec with running := some false } }
  let client : Event := ⟨.client {}, .ok "home"⟩
  let read (version : String) : Event :=
    ⟨.getVirtualMachine "home" "a", .ok (Cluster.withVersion vm version)⟩
  let stop (version : String) (answer : Except StoreError VirtualMachine) : Event :=
    ⟨.setRunning "home" "a" (some version) false, answer⟩
  let pause : Event := ⟨.sleep (.ofMilliseconds 10), ()⟩
  let history : List Happening :=
    [.written vm, .ours client, .ours (read "1"), .written vm,
      .ours (stop "1" (.error (.conflict ""))), .ours pause, .ours (read "2"),
      .ours (stop "2" (.ok (Cluster.withVersion stopped "3")))]
  let first := Shared.empty.write vm "1"
  let second := first.write vm "2"
  have hpath : Path Shared.Step .empty history (second.write stopped "3") :=
    ⟨first, ⟨"1", by simp [Shared.empty], rfl⟩, first, rfl, first, ⟨rfl, rfl⟩,
      second, ⟨"2", by simp [first, Shared.empty, Shared.write], rfl⟩, second, rfl, second, rfl,
      second, ⟨rfl, rfl⟩, second.write stopped "3",
      ⟨Cluster.withVersion vm "2", stopped, "3", rfl, .inr rfl, rfl, rfl,
        by simp [second, first, Shared.empty, Shared.write], rfl, rfl⟩, rfl⟩
  let refused : Attempt VirtualMachine :=
    ⟨[stop "1" (.error (.conflict ""))], .error (.conflict "")⟩
  let accepted : Attempt VirtualMachine :=
    ⟨[read "2", stop "2" (.ok (Cluster.withVersion stopped "3"))],
      .ok (Cluster.withVersion stopped "3")⟩
  have htries : Tries (StopAttempt "home" "a" (some "1")) 1 4 [refused] accepted :=
    ⟨conflicting_singleton_iff.mpr ⟨.first _, "", rfl⟩,
      .again (by decide) (Cluster.withVersion vm "2") _, fun ⟨_, h⟩ => by cases h⟩
  have hcourse : ShutdownCourse {} "a" {} (ownEvents history) (.ok (ProviderId.encode "a")) :=
    @ShutdownCourse.stopped {} "a" {} "home" (Cluster.withVersion vm "1") _ [refused] _
      accepted.events htries (.cons RetryPolicy.pause_usual.1 RetryPolicy.pause_usual.2 (.nil _ _))
  have hruns := runs_shutdownMachine_iff.mpr hcourse
  obtain ⟨_, _, hok⟩ := shutdownMachine_loses_no_update hpath (path_done_iff.mpr hruns)
  obtain ⟨_, _, ns, _, stored, after, u, _, _, _, hafter, hstored, hstopped⟩ := hok _ rfl
  exact ⟨_, history, hpath, hruns, rfl, ns, stored, u, after, hafter, hstored, hstopped⟩

end MachineDriver
