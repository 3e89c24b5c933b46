import MachineDriver.Json.Codec

set_option autoImplicit false

/-!
# Reading what was written

Which codecs give a value back when they read what they wrote of it. `Codec.Restores` says so of one
value, so that a record may be restored although not every value of a part of it is.

A field may leave out a value that it takes for granted, and `null` stands for a value that is not
there. So a field gives its value back only if what it leaves out is its default, and an optional
one only if its codec never writes `null`: a codec is `Faithful` when it is lossless and does not.
The fields of a record are put together by `Record.restores_strict` and `Record.restores_opened`.
Their names must differ. -/

namespace MachineDriver.Json

/-! ## Codecs -/

namespace Codec

variable {α : Type} {c : Codec α}

/-- Reading what was written of a value gives the value back. -/
def Restores (c : Codec α) (v : α) : Prop :=
  c.read (c.write v) = .ok v

/-- A document that is accepted and is written back as it is. -/
def Canonical (c : Codec α) (j : Json) : Prop :=
  ∃ v, c.read j = .ok v ∧ c.write v = j

theorem Restores.canonical {v : α} (h : c.Restores v) : c.Canonical (c.write v) :=
  ⟨v, h, rfl⟩

/-- No value is written as `null`. -/
def NeverNull (c : Codec α) : Prop :=
  ∀ v, c.write v ≠ .null

/-- Every value is given back, and none is written as `null`. -/
structure Faithful (c : Codec α) : Prop where
  lossless : c.Lossless
  neverNull : c.NeverNull

theorem list_neverNull : (list c).NeverNull := nofun

theorem map_neverNull : (map c).NeverNull := nofun

theorem readItems_map_write {vs : List α} (h : ∀ v ∈ vs, c.Restores v) :
    readItems c.read (vs.map c.write) = .ok vs := by
  induction vs with
  | nil => rfl
  | cons v vs ih =>
      have hv : c.read (c.write v) = .ok v := h v List.mem_cons_self
      have hvs := ih fun u hu => h u (List.mem_cons_of_mem v hu)
      simp only [List.map_cons, readItems, hv, hvs]

/-- A list of values that are restored is restored. -/
theorem list_restores {vs : List α} (h : ∀ v ∈ vs, c.Restores v) : (list c).Restores vs :=
  readItems_map_write h

theorem readEntries_map_write {entries : List (String × α)} (h : ∀ e ∈ entries, c.Restores e.2)
    (m : TextMap α) : readEntries c.read m (entries.map fun e => (e.1, c.write e.2))
      = .ok (entries.foldl (fun m e => m.insert e.1 e.2) m) := by
  induction entries generalizing m with
  | nil => rfl
  | cons e entries ih =>
      have he : c.read (c.write e.2) = .ok e.2 := h e List.mem_cons_self
      have hrest := ih fun e' he' => h e' (List.mem_cons_of_mem e he')
      simp only [List.map_cons, List.foldl_cons, readEntries, he, hrest]

/-- A map whose values are restored is restored: its entries are written in their order. -/
theorem map_restores {m : TextMap α} (h : ∀ e ∈ m.entries, c.Restores e.2) :
    (map c).Restores m :=
  (readEntries_map_write h TextMap.empty).trans (congrArg Except.ok (TextMap.ofList_entries m))

namespace Faithful

theorem text : text.Faithful := ⟨fun _ => rfl, nofun⟩

theorem bool : bool.Faithful := ⟨fun _ => rfl, nofun⟩

theorem uint32 : uint32.Faithful := by
  refine ⟨fun n => ?_, nofun⟩
  have hlt : (n.toNat : Int) < 4294967296 := by
    have := n.toNat_lt
    omega
  simp only [Codec.uint32, ofInt]
  rw [if_pos ⟨Int.natCast_nonneg _, hlt⟩, Int.toNat_natCast, UInt32.ofNat_toNat]

theorem int32 : int32.Faithful := by
  refine ⟨fun n => ?_, nofun⟩
  simp only [Codec.int32, ofInt]
  rw [if_pos ⟨n.le_toInt, n.toInt_lt⟩, Int32.ofInt_toInt]

theorem int64 : int64.Faithful := by
  refine ⟨fun n => ?_, nofun⟩
  simp only [Codec.int64, ofInt]
  rw [if_pos ⟨n.le_toInt, n.toInt_lt⟩, Int64.ofInt_toInt]

theorem list (h : c.Faithful) : (list c).Faithful :=
  ⟨fun _ => list_restores fun v _ => h.lossless v, list_neverNull⟩

theorem map (h : c.Faithful) : (map c).Faithful :=
  ⟨fun _ => map_restores fun e _ => h.lossless e.2, map_neverNull⟩

end Faithful

end Codec

/-! ## Fields -/

namespace Field

variable {α : Type} {name : String} {c : Codec α}

/-- A field gives a value back: when it reads what it wrote, or takes the value for granted when it
    wrote nothing. -/
def Restores (f : Field α) (v : α) : Prop :=
  match f.write v with
  | some j => f.read j = .ok v
  | none => f.absent = some v

theorem required_restores {v : α} (h : c.Restores v) : (required name c).Restores v := h

theorem defaulted_restores {v default : α} (h : c.Restores v) :
    (defaulted name c default).Restores v := h

/-- An optional field tells a value from none, since no value is written as `null`. -/
theorem optional_restores {v : Option α} (hnull : c.NeverNull) (h : ∀ u ∈ v, c.Restores u) :
    (optional name c).Restores v := by
  cases v with
  | none => exact rfl
  | some u =>
      have hu : c.read (c.write u) = .ok u := h u rfl
      show (optional name c).read (c.write u) = .ok (some u)
      simp only [optional]
      split
      · rename_i heq
        exact absurd heq (hnull u)
      · rw [hu]

theorem lenient_restores {v default : α} (hnull : c.NeverNull) (h : c.Restores v) :
    (lenient name c default).Restores v := by
  show (lenient name c default).read (c.write v) = .ok v
  simp only [lenient]
  split
  · rename_i heq
    exact absurd heq (hnull v)
  · exact h

theorem many_restores {vs : List α} (h : ∀ v ∈ vs, c.Restores v) :
    (many name c).Restores vs := by
  cases vs with
  | nil => exact rfl
  | cons v vs => exact Codec.list_restores h

theorem mapping_restores {m : TextMap α} (h : ∀ e ∈ m.entries, c.Restores e.2) :
    (mapping name c).Restores m := by
  unfold Restores
  simp only [mapping]
  split
  · rename_i hwritten
    split at hwritten
    · cases hwritten
    · cases hwritten
      exact Codec.map_restores h
  · rename_i hwritten
    split at hwritten
    · rename_i hempty
      exact congrArg some (TextMap.eq_empty_of_isEmpty hempty).symm
    · cases hwritten

theorem flag_restores (b : Bool) : (flag name).Restores b := by
  cases b <;> exact rfl

/-- A field gives every value back. -/
def Lossless (f : Field α) : Prop :=
  ∀ v, f.Restores v

namespace Lossless

theorem required (h : c.Faithful) : (required name c).Lossless :=
  fun v => required_restores (h.lossless v)

theorem defaulted {default : α} (h : c.Faithful) : (defaulted name c default).Lossless :=
  fun v => defaulted_restores (h.lossless v)

theorem optional (h : c.Faithful) : (optional name c).Lossless :=
  fun _ => optional_restores h.neverNull fun u _ => h.lossless u

theorem lenient {default : α} (h : c.Faithful) : (lenient name c default).Lossless :=
  fun v => lenient_restores h.neverNull (h.lossless v)

theorem many (h : c.Faithful) : (many name c).Lossless :=
  fun _ => many_restores fun v _ => h.lossless v

theorem mapping (h : c.Faithful) : (mapping name c).Lossless :=
  fun _ => mapping_restores fun e _ => h.lossless e.2

theorem flag : (flag name).Lossless :=
  flag_restores

end Lossless

end Field

/-! ## Records -/

namespace Fields

variable {α β τ σ : Type} {repeats : Bool} {name : String}

/-- Every field gives its value back. -/
def Restores : {τ σ : Type} → Fields τ σ → τ → Prop
  | _, _, .nil, _ => True
  | _, _, .cons f rest, (v, vs) => f.Restores v ∧ rest.Restores vs

/-- The slots of the values that are written. -/
def written : {τ σ : Type} → Fields τ σ → τ → σ
  | _, _, .nil, () => ()
  | _, _, .cons f rest, (v, vs) => ((f.write v).map fun _ => v, rest.written vs)

theorem restores_cons {f : Field α} {rest : Fields β σ} {v : α} {vs : β} :
    (Fields.cons f rest).Restores (v, vs) ↔ f.Restores v ∧ rest.Restores vs := Iff.rfl

/-! ### What is written -/

theorem fst_mem_names_of_mem_write {fs : Fields τ σ} {vs : τ} {e : String × Json}
    (h : e ∈ fs.write vs) : e.1 ∈ fs.names := by
  induction fs with
  | nil => cases h
  | cons f rest ih =>
      obtain ⟨v, vs⟩ := vs
      simp only [write] at h
      split at h
      · rcases List.mem_cons.mp h with rfl | h
        · exact List.mem_cons_self
        · exact List.mem_cons_of_mem _ (ih h)
      · exact List.mem_cons_of_mem _ (ih h)

/-! ### Filling slots -/

/-- A text of an unknown name is passed over. -/
theorem put_of_unknown {fs : Fields τ σ} {slots : σ} {s : String} (h : name ∉ fs.names) :
    fs.put repeats slots name (.string s) = .ok slots := by
  induction fs with
  | nil => rfl
  | cons f rest ih =>
      obtain ⟨slot, slots⟩ := slots
      rw [names, List.mem_cons, not_or] at h
      simp only [put, if_neg h.1, ih h.2]

theorem fill_stamps {fs : Fields τ σ} {slots : σ} {stamps : List (String × String)}
    {entries : List (String × Json)} (h : ∀ s ∈ stamps, s.1 ∉ fs.names) :
    fs.fill repeats slots (stamps.map (fun s => (s.1, .string s.2)) ++ entries)
      = fs.fill repeats slots entries := by
  induction stamps with
  | nil => rfl
  | cons s stamps ih =>
      simp only [List.map_cons, List.cons_append, fill,
        put_of_unknown (h s List.mem_cons_self)]
      exact ih fun s' hs' => h s' (List.mem_cons_of_mem s hs')

/-- Entries of other names leave the slot of the first field as it is. -/
theorem fill_cons_of_ne {f : Field α} {rest : Fields β σ} {slot : Option α} {slots slots' : σ}
    {entries : List (String × Json)} (h : ∀ e ∈ entries, e.1 ≠ f.name)
    (hrest : rest.fill repeats slots entries = .ok slots') :
    (Fields.cons f rest).fill repeats (slot, slots) entries = .ok (slot, slots') := by
  induction entries generalizing slots with
  | nil =>
      cases hrest
      rfl
  | cons e entries ih =>
      simp only [fill] at hrest
      cases hput : rest.put repeats slots e.1 e.2 with
      | error fault =>
          rw [hput] at hrest
          cases hrest
      | ok next =>
          rw [hput] at hrest
          simp only [fill, put, if_neg (h e List.mem_cons_self), hput]
          exact ih (fun e' he' => h e' (List.mem_cons_of_mem e he')) hrest

/-- Reading what was written fills the slots of what was written, and no other. -/
theorem fill_write {fs : Fields τ σ} {vs : τ} (hnames : fs.names.Nodup) (h : fs.Restores vs) :
    fs.fill repeats fs.noSlots (fs.write vs) = .ok (fs.written vs) := by
  induction fs with
  | nil => rfl
  | cons f rest ih =>
      obtain ⟨v, vs⟩ := vs
      obtain ⟨hfirst, hrest⟩ := restores_cons.mp h
      obtain ⟨hnew, hnames⟩ := List.nodup_cons.mp hnames
      have hothers : ∀ e ∈ rest.write vs, e.1 ≠ f.name := by
        rintro e he heq
        exact hnew (heq ▸ fst_mem_names_of_mem_write he)
      have hfill (slot : Option _) : (cons f rest).fill repeats (slot, rest.noSlots) (rest.write vs)
          = .ok (slot, rest.written vs) := fill_cons_of_ne hothers (ih hnames hrest)
      simp only [write, written, noSlots]
      unfold Field.Restores at hfirst
      cases hwrite : f.write v with
      | none => exact hfill none
      | some j =>
          rw [hwrite] at hfirst
          simp only [fill, put, hfirst]
          exact hfill (some v)

theorem complete_written {fs : Fields τ σ} {vs : τ} (h : fs.Restores vs) :
    fs.complete (fs.written vs) = .ok vs := by
  induction fs with
  | nil => rfl
  | cons f rest ih =>
      obtain ⟨v, vs⟩ := vs
      obtain ⟨hfirst, hrest⟩ := restores_cons.mp h
      have hslot : ((f.write v).map fun _ => v).orElse (fun _ => f.absent) = some v := by
        unfold Field.Restores at hfirst
        cases hwrite : f.write v with
        | none =>
            rw [hwrite] at hfirst
            exact hfirst
        | some j => rfl
      simp only [written, complete, hslot, ih hrest]

/-- All fields of a record give every value back. -/
def Lossless (fs : Fields τ σ) : Prop :=
  ∀ vs, fs.Restores vs

theorem Lossless.nil : Fields.nil.Lossless :=
  fun _ => trivial

theorem Lossless.cons {f : Field α} {rest : Fields β σ} (hf : f.Lossless) (hrest : rest.Lossless) :
    (Fields.cons f rest).Lossless :=
  fun vs => ⟨hf vs.1, hrest vs.2⟩

end Fields

namespace Record

variable {α τ σ : Type} {r : Record α τ σ} {v : α}

theorem readObject_write {repeats : Bool} (hnames : r.fields.names.Nodup)
    (hbuild : r.ofFields (r.toFields v) = v) (h : r.fields.Restores (r.toFields v)) :
    r.readObject repeats (r.fields.write (r.toFields v)) = .ok v := by
  simp only [readObject, Fields.fill_write hnames h, Fields.complete_written h, hbuild]

/-- **A strict record is restored** when its fields are, if their names differ and no stamp has a
    name of theirs. -/
theorem restores_strict {stamps : List (String × String)} (hnames : r.fields.names.Nodup)
    (hstamps : ∀ s ∈ stamps, s.1 ∉ r.fields.names) (hbuild : r.ofFields (r.toFields v) = v)
    (h : r.fields.Restores (r.toFields v)) : (r.strict stamps).Restores v := by
  show r.readObject false _ = .ok v
  rw [readObject, Fields.fill_stamps hstamps]
  exact readObject_write hnames hbuild h

/-- **An open record is restored** when its fields are, if their names differ. -/
theorem restores_opened (hnames : r.fields.names.Nodup) (hbuild : r.ofFields (r.toFields v) = v)
    (h : r.fields.Restores (r.toFields v)) : r.opened.Restores v :=
  readObject_write hnames hbuild h

theorem strict_neverNull {stamps : List (String × String)} : (r.strict stamps).NeverNull := nofun

theorem opened_neverNull : r.opened.NeverNull := nofun

theorem strict_faithful (hnames : r.fields.names.Nodup)
    (hbuild : ∀ v, r.ofFields (r.toFields v) = v) (h : r.fields.Lossless) :
    (r.strict []).Faithful :=
  ⟨fun v => restores_strict hnames (by simp) (hbuild v) (h _), strict_neverNull⟩

theorem opened_faithful (hnames : r.fields.names.Nodup)
    (hbuild : ∀ v, r.ofFields (r.toFields v) = v) (h : r.fields.Lossless) : r.opened.Faithful :=
  ⟨fun v => restores_opened hnames (hbuild v) (h _), opened_neverNull⟩

end Record

end MachineDriver.Json
