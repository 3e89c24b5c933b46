import MachineDriver.Proofs.Cutting
import MachineDriver.Server.Route

set_option autoImplicit false

/-!
# The paths of endpoints

Every endpoint has one path, and a path leads to an endpoint only if it is written as the path of
this endpoint: `Route.ofPath?_eq_endpoint_iff`. The segment that names a machine may be any text
that is not empty and has no slash. -/

namespace MachineDriver

namespace Route

/-! ## Segments -/

theorem segments_eq_splitOn (cs : List Char) : segments cs = cs.splitOn '/' := by
  induction cs with
  | nil => rfl
  | cons c cs ih =>
      rw [List.splitOn_cons_eq_if_modifyHead, segments, ih]
      cases hrest : cs.splitOn '/' with
      | nil => exact absurd hrest (List.splitOn_ne_nil _ _)
      | cons s ss => simp [List.modifyHead]

theorem segments_of_notMem {cs : List Char} (h : '/' ∉ cs) : segments cs = [cs] := by
  rw [segments_eq_splitOn, List.splitOn_eq_singleton h]

theorem segments_append (cs ds : List Char) :
    segments (cs ++ '/' :: ds) = segments cs ++ segments ds := by
  simp only [segments_eq_splitOn, List.splitOn_append_cons_self]

theorem segments_cons_of_notMem {s : List Char} (h : '/' ∉ s) (rest : List Char) :
    segments (s ++ '/' :: rest) = s :: segments rest := by
  rw [segments_append, segments_of_notMem h, List.singleton_append]

theorem intercalate_segments (cs : List Char) : ['/'].intercalate (segments cs) = cs := by
  rw [segments_eq_splitOn, List.intercalate_splitOn]

theorem intercalate_pair (a b : List Char) : ['/'].intercalate [a, b] = a ++ '/' :: b := by
  simp [List.intercalate]

theorem intercalate_triple (a b c : List Char) :
    ['/'].intercalate [a, b, c] = a ++ '/' :: (b ++ '/' :: c) := by
  simp [List.intercalate]

theorem slash_notMem_of_mem_segments {cs s : List Char} (h : s ∈ segments cs) : '/' ∉ s := by
  rw [segments_eq_splitOn] at h
  exact Text.notMem_of_mem_splitOn h

end Route

namespace Endpoint

/-- The path of an endpoint. -/
def path : Endpoint → List Char
  | .create => "/machines".toList
  | .list => "/machines:list".toList
  | .delete segment => "/machines/".toList ++ segment
  | .status segment => "/machines/".toList ++ (segment ++ '/' :: "status".toList)
  | .shutdown segment => "/machines/".toList ++ (segment ++ '/' :: "shutdown".toList)

/-- The machine of an endpoint, if it has one, is named by a segment that is not empty. -/
def IsProper (e : Endpoint) : Prop :=
  ∀ segment, e.segment? = some segment → segment ≠ [] ∧ '/' ∉ segment

end Endpoint

/-! ## Endpoints -/

namespace Route

theorem machinePath_eq (segment : List Char) :
    "/machines/".toList ++ segment = '/' :: ("machines".toList ++ '/' :: segment) :=
  (congrArg (· ++ segment) (show "/machines/".toList = '/' :: ("machines".toList ++ ['/']) by
    decide)).trans (congrArg ('/' :: ·) (List.append_assoc _ _ _))

theorem ofPath?_machine {segment : List Char} (hslash : '/' ∉ segment) :
    ofPath? ("/machines/".toList ++ segment) = ofSegments? ["machines".toList, segment] := by
  have hsegments : segments ("machines".toList ++ '/' :: segment)
      = ["machines".toList, segment] := by
    rw [segments_cons_of_notMem (by decide), segments_of_notMem hslash]
  rw [← hsegments]
  rfl

theorem ofPath?_action {segment action : List Char} (hslash : '/' ∉ segment)
    (haction : '/' ∉ action) : ofPath? ("/machines/".toList ++ (segment ++ '/' :: action))
      = ofSegments? ["machines".toList, segment, action] := by
  have hsegments : segments ("machines".toList ++ '/' :: (segment ++ '/' :: action))
      = ["machines".toList, segment, action] := by
    rw [segments_cons_of_notMem (by decide), segments_cons_of_notMem hslash,
      segments_of_notMem haction]
  rw [← hsegments]
  rfl

theorem ofPath?_path {e : Endpoint} (h : e.IsProper) : ofPath? e.path = some (.endpoint e) := by
  cases e with
  | create => rfl
  | list => rfl
  | delete segment =>
      obtain ⟨hne, hslash⟩ := h segment rfl
      exact (ofPath?_machine hslash).trans (if_pos ⟨rfl, hne⟩)
  | status segment =>
      obtain ⟨hne, hslash⟩ := h segment rfl
      calc ofPath? (Endpoint.path (.status segment))
          = ofSegments? ["machines".toList, segment, "status".toList] :=
            ofPath?_action hslash (by decide)
        _ = some (.endpoint (.status segment)) := by
            rw [ofSegments?, if_pos ⟨rfl, hne⟩, if_pos rfl]
  | shutdown segment =>
      obtain ⟨hne, hslash⟩ := h segment rfl
      calc ofPath? (Endpoint.path (.shutdown segment))
          = ofSegments? ["machines".toList, segment, "shutdown".toList] :=
            ofPath?_action hslash (by decide)
        _ = some (.endpoint (.shutdown segment)) := by
            rw [ofSegments?, if_pos ⟨rfl, hne⟩, if_neg (by decide), if_pos rfl]

/-- The segments that lead to an endpoint are those of its path. -/
theorem path_of_ofSegments? {parts : List (List Char)} {e : Endpoint}
    (h : ofSegments? parts = some (.endpoint e)) (hslash : ∀ s ∈ parts, '/' ∉ s) :
    e.IsProper ∧ e.path = '/' :: ['/'].intercalate parts := by
  have named {name : List Char} (hne : name ≠ []) (hmem : name ∈ parts) {e : Endpoint}
      (he : e.segment? = some name) : e.IsProper := by
    intro segment hs
    rw [he] at hs
    cases hs
    exact ⟨hne, hslash name hmem⟩
  unfold ofSegments? at h
  split at h
  · split at h
    · cases h
    · split at h
      · rename_i hresource
        cases h
        subst hresource
        exact ⟨nofun, rfl⟩
      · split at h
        · rename_i hresource
          cases h
          subst hresource
          exact ⟨nofun, rfl⟩
        · cases h
  · split at h
    · rename_i hmachine
      cases h
      obtain ⟨rfl, hne⟩ := hmachine
      exact ⟨named hne (by simp only [List.mem_cons, true_or, or_true]) rfl,
        (machinePath_eq _).trans (congrArg ('/' :: ·) (intercalate_pair _ _).symm)⟩
    · cases h
  · split at h
    · rename_i hmachine
      obtain ⟨rfl, hne⟩ := hmachine
      split at h
      · rename_i haction
        cases h
        subst haction
        exact ⟨named hne (by simp only [List.mem_cons, true_or, or_true]) rfl,
          (machinePath_eq _).trans (congrArg ('/' :: ·) (intercalate_triple _ _ _).symm)⟩
      · split at h
        · rename_i haction
          cases h
          subst haction
          exact ⟨named hne (by simp only [List.mem_cons, true_or, or_true]) rfl,
            (machinePath_eq _).trans (congrArg ('/' :: ·) (intercalate_triple _ _ _).symm)⟩
        · cases h
    · cases h
  · cases h

/-- **A path leads to an endpoint** exactly when it is the path of this endpoint. -/
theorem ofPath?_eq_endpoint_iff {p : List Char} {e : Endpoint} :
    ofPath? p = some (.endpoint e) ↔ e.IsProper ∧ p = e.path := by
  constructor
  · intro h
    unfold ofPath? at h
    split at h
    · rename_i rest
      obtain ⟨hproper, hpath⟩ := path_of_ofSegments? h fun _ => slash_notMem_of_mem_segments
      rw [intercalate_segments] at hpath
      exact ⟨hproper, hpath.symm⟩
    · cases h
  · rintro ⟨hproper, rfl⟩
    exact ofPath?_path hproper

end Route

end MachineDriver
