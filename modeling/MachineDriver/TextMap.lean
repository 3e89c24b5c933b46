set_option autoImplicit false

/-!
# Maps from texts

A finite map whose keys are texts, kept as its entries in strictly ascending order of the keys, so
that two maps with the same entries are equal. `get?_insert` gives the meaning of an insertion;
`get?_eq_some_iff` ties look-up to membership.
-/

namespace MachineDriver

/-- A finite map from texts, its entries in strictly ascending order of their keys. -/
@[ext]
structure TextMap (α : Type) where
  entries : List (String × α)
  ascending : entries.Pairwise (fun x y => x.1 < y.1)

namespace TextMap

variable {α β : Type}

instance [DecidableEq α] : DecidableEq (TextMap α) := fun m n =>
  decidable_of_iff (m.entries = n.entries) (by
    constructor
    · exact TextMap.ext
    · intro h; rw [h])

instance [Repr α] : Repr (TextMap α) where
  reprPrec m n := reprPrec m.entries n

/-- The map without entries. -/
def empty : TextMap α :=
  ⟨[], List.Pairwise.nil⟩

instance : Inhabited (TextMap α) := ⟨empty⟩

/-- Whether a map has no entries. -/
def isEmpty (m : TextMap α) : Bool :=
  m.entries.isEmpty

/-- The value of the first entry with a key. -/
def lookup (k : String) : List (String × α) → Option α
  | [] => none
  | (k', v) :: rest => if k = k' then some v else lookup k rest

/-- The value of a key. -/
def get? (m : TextMap α) (k : String) : Option α :=
  lookup k m.entries

/-- Whether a key has a value. -/
def contains (m : TextMap α) (k : String) : Bool :=
  (m.get? k).isSome

/-- Ascending entries with one more, which replaces an entry of the same key. -/
def insertEntry (k : String) (v : α) : List (String × α) → List (String × α)
  | [] => [(k, v)]
  | (k', v') :: rest =>
    if k = k' then (k, v) :: rest
    else if k < k' then (k, v) :: (k', v') :: rest
    else (k', v') :: insertEntry k v rest

theorem fst_mem_insertEntry {k : String} {v : α} {l : List (String × α)} {e : String × α}
    (h : e ∈ insertEntry k v l) : e = (k, v) ∨ e ∈ l := by
  induction l with
  | nil => simpa [insertEntry] using h
  | cons x l ih =>
    obtain ⟨k', v'⟩ := x
    simp only [insertEntry] at h
    split at h
    · simp only [List.mem_cons] at h ⊢
      rcases h with h | h
      · exact .inl h
      · exact .inr (.inr h)
    · split at h
      · simp only [List.mem_cons] at h ⊢
        exact h
      · simp only [List.mem_cons] at h ⊢
        rcases h with h | h
        · exact .inr (.inl h)
        · rcases ih h with h | h
          · exact .inl h
          · exact .inr (.inr h)

theorem lt_of_not_lt_of_ne {a b : String} (h : ¬ a < b) (hne : a ≠ b) : b < a := by
  rcases String.le_total a b with hle | hle
  · exact absurd (String.le_antisymm hle (String.not_lt.mp h)) hne
  · refine Decidable.byContradiction fun hb => ?_
    exact hne (String.le_antisymm (String.not_lt.mp hb) hle)

theorem pairwise_insertEntry {k : String} {v : α} {l : List (String × α)}
    (h : l.Pairwise (fun x y => x.1 < y.1)) :
    (insertEntry k v l).Pairwise (fun x y => x.1 < y.1) := by
  induction l with
  | nil => simp [insertEntry]
  | cons x l ih =>
    obtain ⟨k', v'⟩ := x
    rw [List.pairwise_cons] at h
    simp only [insertEntry]
    split
    · rename_i hk
      subst hk
      exact List.pairwise_cons.mpr ⟨h.1, h.2⟩
    · rename_i hne
      split
      · rename_i hlt
        refine List.pairwise_cons.mpr ⟨?_, List.pairwise_cons.mpr h⟩
        intro e he
        rcases List.mem_cons.mp he with rfl | he
        · exact hlt
        · exact String.lt_trans hlt (h.1 e he)
      · rename_i hnlt
        refine List.pairwise_cons.mpr ⟨?_, ih h.2⟩
        intro e he
        rcases fst_mem_insertEntry he with rfl | he
        · exact lt_of_not_lt_of_ne hnlt hne
        · exact h.1 e he

/-- A map with one more entry, which replaces an entry of the same key. -/
def insert (m : TextMap α) (k : String) (v : α) : TextMap α :=
  ⟨insertEntry k v m.entries, pairwise_insertEntry m.ascending⟩

/-- A map without the entry of a key. -/
def erase (m : TextMap α) (k : String) : TextMap α :=
  ⟨m.entries.filter fun e => e.1 ≠ k, m.ascending.filter _⟩

/-- The map of a list of entries; of entries with the same key the last one counts. -/
def ofList (l : List (String × α)) : TextMap α :=
  l.foldl (fun m e => m.insert e.1 e.2) empty

/-- The map with a function applied to every value. -/
def map (f : α → β) (m : TextMap α) : TextMap β :=
  ⟨m.entries.map fun e => (e.1, f e.2), by
    rw [List.pairwise_map]
    exact m.ascending⟩

/-- Whether every entry of `m` is one of `n`. -/
def isSubmapOf [DecidableEq α] (m n : TextMap α) : Bool :=
  m.entries.all fun e => n.get? e.1 = some e.2

/-! ## What the operations mean -/

theorem lookup_insertEntry (k : String) (v : α) (l : List (String × α)) (j : String) :
    lookup j (insertEntry k v l) = if j = k then some v else lookup j l := by
  induction l with
  | nil => simp [insertEntry, lookup]
  | cons x l ih =>
    obtain ⟨k', v'⟩ := x
    simp only [insertEntry]
    split
    · rename_i hk
      subst hk
      by_cases hj : j = k <;> simp [lookup, hj]
    · rename_i hne
      split
      · by_cases hj : j = k <;> simp [lookup, hj]
      · by_cases hj : j = k'
        · subst hj
          simp [lookup, Ne.symm hne]
        · simp [lookup, hj, ih]

@[simp] theorem get?_insert (m : TextMap α) (k : String) (v : α) (j : String) :
    (m.insert k v).get? j = if j = k then some v else m.get? j :=
  lookup_insertEntry k v m.entries j

theorem lookup_filter_ne (k : String) (l : List (String × α)) (j : String) :
    lookup j (l.filter fun e => e.1 ≠ k) = if j = k then none else lookup j l := by
  induction l with
  | nil => simp [lookup]
  | cons x l ih =>
    obtain ⟨k', v'⟩ := x
    by_cases hk : k' = k
    · subst hk
      by_cases hj : j = k' <;> simp_all [lookup]
    · by_cases hj : j = k'
      · subst hj
        simp [lookup, hk]
      · simp_all [lookup]

@[simp] theorem get?_erase (m : TextMap α) (k j : String) :
    (m.erase k).get? j = if j = k then none else m.get? j :=
  lookup_filter_ne k m.entries j

@[simp] theorem get?_empty (j : String) : (empty : TextMap α).get? j = none := rfl

theorem lookup_eq_some_iff {l : List (String × α)} (h : l.Pairwise (fun x y => x.1 < y.1))
    {k : String} {v : α} : lookup k l = some v ↔ (k, v) ∈ l := by
  induction l with
  | nil => simp [lookup]
  | cons x l ih =>
    obtain ⟨k', v'⟩ := x
    rw [List.pairwise_cons] at h
    by_cases hk : k = k'
    · subst hk
      simp only [lookup, if_true, Option.some.injEq, List.mem_cons, Prod.mk.injEq, true_and]
      constructor
      · intro hv; exact .inl hv.symm
      · rintro (hv | hm)
        · exact hv.symm
        · exact absurd (h.1 _ hm) (String.lt_irrefl _)
    · simp only [lookup, hk, if_false, ih h.2, List.mem_cons, Prod.mk.injEq, false_and, false_or]

/-- A key has a value exactly when the entry is among the map's entries. -/
theorem get?_eq_some_iff (m : TextMap α) (k : String) (v : α) :
    m.get? k = some v ↔ (k, v) ∈ m.entries :=
  lookup_eq_some_iff m.ascending

/-- A map is part of another one exactly when the other one has all its entries. -/
theorem isSubmapOf_iff [DecidableEq α] {m n : TextMap α} :
    m.isSubmapOf n = true ↔ ∀ k v, m.get? k = some v → n.get? k = some v := by
  simp only [isSubmapOf, List.all_eq_true, decide_eq_true_eq, get?_eq_some_iff m]
  exact ⟨fun h k v hkv => h (k, v) hkv, fun h e he => h e.1 e.2 he⟩

theorem get?_foldl_insert_eq_some_iff {k : String} {v : α} {l : List (String × α)}
    (h : ∀ w, (k, w) ∈ l → w = v) (m : TextMap α) :
    (l.foldl (fun m e => m.insert e.1 e.2) m).get? k = some v
      ↔ (k, v) ∈ l ∨ m.get? k = some v := by
  induction l generalizing m with
  | nil => simp
  | cons x l ih =>
    obtain ⟨k', v'⟩ := x
    rw [List.foldl_cons, ih (fun w hw => h w (List.mem_cons_of_mem _ hw)), get?_insert]
    by_cases hk : k = k'
    · subst hk
      have hv : v' = v := h v' List.mem_cons_self
      simp [hv]
    · simp [hk]

theorem nodup_keys (m : TextMap α) : (m.entries.map Prod.fst).Nodup := by
  rw [List.nodup_iff_pairwise_ne, List.pairwise_map]
  refine m.ascending.imp fun h heq => ?_
  rw [heq] at h
  exact String.lt_irrefl _ h

/-- A new key adds its entry and leaves the others. -/
theorem insertEntry_perm {k : String} {v : α} {l : List (String × α)}
    (h : k ∉ l.map Prod.fst) : (insertEntry k v l).Perm ((k, v) :: l) := by
  induction l with
  | nil => exact List.Perm.refl _
  | cons x l ih =>
    obtain ⟨k', v'⟩ := x
    rw [List.map_cons, List.mem_cons, not_or] at h
    rw [insertEntry, if_neg h.1]
    split
    · exact List.Perm.refl _
    · exact ((ih h.2).cons (k', v')).trans (List.Perm.swap (k, v) (k', v') l)

theorem foldl_insert_perm {l : List (String × α)} {m : TextMap α}
    (h : ((m.entries ++ l).map Prod.fst).Nodup) :
    (l.foldl (fun m e => m.insert e.1 e.2) m).entries.Perm (m.entries ++ l) := by
  induction l generalizing m with
  | nil => simp
  | cons x l ih =>
    have hmiddle : ((x :: (m.entries ++ l)).map Prod.fst).Nodup :=
      (List.perm_middle.map Prod.fst).nodup_iff.mp h
    have hnew : x.1 ∉ m.entries.map Prod.fst := by
      intro hx
      rw [List.map_cons, List.nodup_cons, List.map_append] at hmiddle
      exact hmiddle.1 (List.mem_append_left _ hx)
    have hinsert : (m.insert x.1 x.2).entries.Perm (x :: m.entries) := insertEntry_perm hnew
    have hkeys : (((m.insert x.1 x.2).entries ++ l).map Prod.fst).Nodup :=
      ((hinsert.append_right l).map Prod.fst).nodup_iff.mpr hmiddle
    exact (ih hkeys).trans ((hinsert.append_right l).trans List.perm_middle.symm)

/-- The map of a list with different keys has the entries of the list, and no others. -/
theorem entries_ofList_perm {l : List (String × α)} (h : (l.map Prod.fst).Nodup) :
    (ofList l).entries.Perm l :=
  foldl_insert_perm h

/-- A key after all others adds its entry at the end. -/
theorem insertEntry_of_last {k : String} {v : α} {l : List (String × α)} (h : ∀ e ∈ l, e.1 < k) :
    insertEntry k v l = l ++ [(k, v)] := by
  induction l with
  | nil => rfl
  | cons x l ih =>
    obtain ⟨k', v'⟩ := x
    have hlt : k' < k := h (k', v') List.mem_cons_self
    have hne : k ≠ k' := by
      rintro rfl
      exact String.lt_irrefl _ hlt
    rw [insertEntry, if_neg hne, if_neg (String.lt_asymm hlt),
      ih fun e he => h e (List.mem_cons_of_mem _ he), List.cons_append]

theorem foldl_insert_of_ascending {l : List (String × α)} {m : TextMap α}
    (h : (m.entries ++ l).Pairwise fun x y => x.1 < y.1) :
    (l.foldl (fun m e => m.insert e.1 e.2) m).entries = m.entries ++ l := by
  induction l generalizing m with
  | nil => simp
  | cons x l ih =>
    have hlast : ∀ e ∈ m.entries, e.1 < x.1 := fun e he =>
      (List.pairwise_append.mp h).2.2 e he x List.mem_cons_self
    have hinsert : (m.insert x.1 x.2).entries = m.entries ++ [x] := insertEntry_of_last hlast
    rw [List.foldl_cons, ih (by rw [hinsert]; simpa using h), hinsert, List.append_assoc,
      List.singleton_append]

/-- A map is the map of its entries. -/
theorem ofList_entries (m : TextMap α) : ofList m.entries = m :=
  TextMap.ext (foldl_insert_of_ascending m.ascending)

theorem eq_empty_of_isEmpty {m : TextMap α} (h : m.isEmpty = true) : m = empty :=
  TextMap.ext (List.isEmpty_iff.mp h)

/-- A key that has one value only in a list has this value in the map of the list. -/
theorem get?_ofList_eq_some_iff {k : String} {v : α} {l : List (String × α)}
    (h : ∀ w, (k, w) ∈ l → w = v) : (ofList l).get? k = some v ↔ (k, v) ∈ l := by
  rw [ofList, get?_foldl_insert_eq_some_iff h]
  simp

end TextMap

end MachineDriver
