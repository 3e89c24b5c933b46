import MachineDriver.Machine.CloudConfig
import MachineDriver.Proofs.Comment

set_option autoImplicit false

/-!
# Keys added to a cloud configuration

Adding keys keeps the document, `addKeys_keeps_document`: what the result reads as differs from what
was read only in the list of keys, at whose end the new ones stand. Keys that are added in two steps
give the same text as those added at once, `addKeys_append`. Both rest on what is written being read
back as the same mapping, which is assumed of the mapping in question. -/

namespace MachineDriver

namespace Yaml

/-! ## The entry of a name -/

/-- Whether the key of an entry is a name. -/
def isEntryOf (name : String) (e : Yaml × Yaml) : Bool :=
  match e.1 with
  | .text s => s = name
  | _ => false

variable {name : String} {e : Yaml × Yaml} {es : List (Yaml × Yaml)} {v w : Yaml}

theorem isEntryOf_iff : isEntryOf name e = true ↔ e.1 = .text name := by
  obtain ⟨k, v⟩ := e
  cases k <;> simp [isEntryOf]

theorem find?_cons (name : String) (e : Yaml × Yaml) (es : List (Yaml × Yaml)) :
    find? name (e :: es) = if isEntryOf name e then some e.2 else find? name es := by
  obtain ⟨k, v⟩ := e
  cases k <;> simp [find?, isEntryOf]

theorem put_cons (name : String) (v : Yaml) (e : Yaml × Yaml) (es : List (Yaml × Yaml)) :
    put name v (e :: es) = if isEntryOf name e then (e.1, v) :: es else e :: put name v es := by
  obtain ⟨k, w⟩ := e
  cases k <;> simp [put, isEntryOf]

theorem find?_put (name : String) (v : Yaml) (es : List (Yaml × Yaml)) :
    find? name (put name v es) = some v := by
  induction es with
  | nil => simp [put, find?]
  | cons e es ih =>
    rw [put_cons]
    by_cases h : isEntryOf name e = true
    · rw [if_pos h, find?_cons]
      exact if_pos h
    · rw [if_neg h, find?_cons, if_neg h, ih]

/-- Of two values put at the same place the second counts. -/
theorem put_put (name : String) (v w : Yaml) (es : List (Yaml × Yaml)) :
    put name w (put name v es) = put name w es := by
  induction es with
  | nil => simp [put]
  | cons e es ih =>
    rw [put_cons, put_cons]
    by_cases h : isEntryOf name e = true
    · rw [if_pos h, if_pos h, put_cons]
      exact if_pos h
    · rw [if_neg h, if_neg h, put_cons, if_neg h, ih]

/-- A value is put without a change to the entries of other names. -/
theorem filter_not_isEntryOf_put (name : String) (v : Yaml) (es : List (Yaml × Yaml)) :
    (put name v es).filter (fun e => !isEntryOf name e)
      = es.filter (fun e => !isEntryOf name e) := by
  induction es with
  | nil => simp [put, isEntryOf]
  | cons e es ih =>
    rw [put_cons]
    by_cases h : isEntryOf name e = true
    · have hkey : isEntryOf name (e.1, v) = true := h
      rw [if_pos h, List.filter_cons, List.filter_cons, h, hkey]
      rfl
    · rw [if_neg h, List.filter_cons, List.filter_cons, ih]

/-- In a mapping without repeated keys a name has no entry but the one that is put. -/
theorem filter_isEntryOf_put (h : es.Pairwise fun e f => same e.1 f.1 = false) :
    (put name v es).filter (isEntryOf name) = [(.text name, v)] := by
  induction h with
  | nil => simp [put, isEntryOf]
  | @cons e es hkey _ ih =>
    rw [put_cons]
    by_cases he : isEntryOf name e = true
    · have hput : isEntryOf name (e.1, v) = true := he
      have hname : e.1 = .text name := isEntryOf_iff.mp he
      have hothers : es.filter (isEntryOf name) = [] := by
        refine List.filter_eq_nil_iff.mpr fun f hf hentry => ?_
        have hdistinct := hkey f hf
        rw [hname, isEntryOf_iff.mp hentry] at hdistinct
        simp [same] at hdistinct
      rw [if_pos he, List.filter_cons_of_pos hput, hothers, hname]
    · rw [if_neg he, List.filter_cons_of_neg he, ih]

/-! ## Mappings that were read -/

theorem pairwise_of_readEntries? {child : NodeReader} {tagless : Bool}
    {seen : List (Yaml × Yaml)} {ns : List (Linked × Linked)} {followed total : Nat}
    (hseen : seen.Pairwise fun e f => same f.1 e.1 = false)
    (h : readEntries? child tagless seen ns followed = some (es, total)) :
    es.Pairwise fun e f => same e.1 f.1 = false := by
  induction ns generalizing seen followed with
  | nil =>
    rw [readEntries?] at h
    cases h
    exact List.pairwise_reverse.mpr hseen
  | cons n ns ih =>
    rw [readEntries?] at h
    split at h
    · cases h
    · split at h
      · cases h
      · rename_i k followed hkey hnew
        split at h
        · cases h
        · refine ih (List.pairwise_cons.mpr ⟨fun e he => ?_, hseen⟩) h
          simpa using List.any_eq_false.mp (Bool.not_eq_true _ ▸ hnew) e he

theorem ofPlain?_ne_mapping (cs : List Char) (es : List (Yaml × Yaml)) :
    ofPlain? cs ≠ some (.mapping es) := by
  rw [ofPlain?]
  repeat' split
  all_goals exact nofun

theorem ofScalar?_ne_mapping (tag : Option (List UInt8)) (plain : Bool) (cs : List Char)
    (es : List (Yaml × Yaml)) : ofScalar? tag plain cs ≠ some (.mapping es) := by
  have hplain := ofPlain?_ne_mapping cs es
  rw [ofScalar?.eq_def]
  repeat' split
  all_goals simp [hplain]

/-- A tag makes no mapping. -/
theorem eq_mapping_of_wrapped {tagless : Bool} {tag : Option (List UInt8)}
    (h : (match tagless, ownTag? tag with
      | false, some t => .tagged t v
      | _, _ => v) = Yaml.mapping es) : v = .mapping es := by
  split at h
  · cases h
  · exact h

theorem pairwise_of_readBody? {child : Option NodeReader} {tagless : Bool} {n : Linked}
    {followed total : Nat} (h : readBody? child tagless n followed = some (.mapping es, total)) :
    es.Pairwise fun e f => same e.1 f.1 = false := by
  cases n with
  | «alias» number => cases h
  | scalar tag plain cs =>
    obtain ⟨v, hv, h⟩ := Option.map_eq_some_iff.mp h
    rw [eq_mapping_of_wrapped (congrArg Prod.fst h)] at hv
    exact absurd hv (ofScalar?_ne_mapping tag plain cs es)
  | sequence tag items =>
    cases child with
    | none => cases h
    | some child =>
      obtain ⟨_, -, h⟩ := Option.map_eq_some_iff.mp h
      cases eq_mapping_of_wrapped (congrArg Prod.fst h)
  | mapping tag entries =>
    cases child with
    | none => cases h
    | some child =>
      obtain ⟨⟨fs, total⟩, hread, h⟩ := Option.map_eq_some_iff.mp h
      have hfs : Yaml.mapping fs = .mapping es := eq_mapping_of_wrapped (congrArg Prod.fst h)
      cases hfs
      exact pairwise_of_readEntries? .nil hread

theorem pairwise_of_follow? {links : Links} {child : Option NodeReader} {tagless : Bool}
    {n : Linked} {followed total : Nat}
    (h : follow? links child tagless n followed = some (.mapping es, total)) :
    es.Pairwise fun e f => same e.1 f.1 = false := by
  rw [follow?.eq_def] at h
  cases n with
  | «alias» number =>
    obtain ⟨-, h⟩ := Option.ite_none_left_eq_some.mp h
    cases htarget : links.target? number with
    | none =>
      rw [htarget] at h
      cases h
    | some n =>
      rw [htarget] at h
      exact pairwise_of_readBody? h
  | _ => exact pairwise_of_readBody? h

theorem pairwise_of_ofNode? {n : Node} (h : ofNode? n = some (.mapping es)) :
    es.Pairwise fun e f => same e.1 f.1 = false := by
  rw [ofNode?] at h
  split at h
  · cases h
  · obtain ⟨⟨v, total⟩, hread, rfl⟩ := Option.map_eq_some_iff.mp h
    exact pairwise_of_follow? hread

/-- No key is repeated in a mapping that was read. -/
theorem pairwise_of_ofText? {s : String} (h : ofText? s = some (.mapping es)) :
    es.Pairwise fun e f => same e.1 f.1 = false := by
  have hdocuments : documents? s = some [.mapping es] := by
    rw [ofText?] at h
    split at h
    · rwa [← Option.some.inj h]
    · cases h
  rw [documents?] at hdocuments
  split at hdocuments
  · cases hdocuments
  · cases hdocuments
  · rename_i ns _ _
    cases ns with
    | nil => cases hdocuments
    | cons n ns =>
      rw [allOfNodes?] at hdocuments
      split at hdocuments
      · cases hdocuments
      · rename_i v hv
        obtain ⟨vs, -, hvs⟩ := Option.map_eq_some_iff.mp hdocuments
        cases hvs
        exact pairwise_of_ofNode? hv

/-! ## Mappings that can be written -/

theorem entriesAreWritable_put_congr (name : String) (es : List (Yaml × Yaml))
    (h : isWritable false v = isWritable false w) :
    entriesAreWritable (put name v es) = entriesAreWritable (put name w es) := by
  induction es with
  | nil => simp [put, entriesAreWritable, h]
  | cons e es ih =>
    rw [put_cons, put_cons]
    split
    · simp [entriesAreWritable, h]
    · simp [entriesAreWritable, ih]

/-- Whether a mapping can be written depends on a value that is put in only by whether that can. -/
theorem isWritable_put_congr (name : String) (es : List (Yaml × Yaml))
    (h : isWritable false v = isWritable false w) :
    isWritable false (.mapping (put name v es)) = isWritable false (.mapping (put name w es)) := by
  have hsingle (u : Yaml) (k t : Yaml) (hput : put name u es = [(k, t)]) :
      looksLikeTag k = false := by
    have hfind := find?_put name u es
    rw [hput, find?_cons] at hfind
    split at hfind
    · rename_i hentry
      rw [show k = .text name from isEntryOf_iff.mp hentry]
      rfl
    · cases hfind
  rw [isWritable_mapping (hsingle v), isWritable_mapping (hsingle w),
    entriesAreWritable_put_congr name es h]

theorem areWritable_append_texts (vs : List Yaml) (texts : List String) :
    areWritable (vs ++ texts.map .text) = areWritable vs := by
  induction vs with
  | nil =>
    induction texts with
    | nil => rfl
    | cons s texts ih => simpa [areWritable, isWritable] using ih
  | cons v vs ih => simp [areWritable, ih]

end Yaml

namespace CloudConfig

/-! ## What user data holds -/

/-- The entries that user data holds: none if it is blank or, behind the header, means null, and
else those of the mapping behind the header. -/
inductive Holds (userData : String) : List (Yaml × Yaml) → Prop where
  | blank (h : Text.isBlankText userData = true) : Holds userData []
  | null (hheader : header.toList <+: Text.trimStartChars userData.toList)
      (h : Yaml.ofText? userData = some .null) : Holds userData []
  | mapping {es : List (Yaml × Yaml)}
      (hheader : header.toList <+: Text.trimStartChars userData.toList)
      (h : Yaml.ofText? userData = some (.mapping es)) : Holds userData es

/-- Whether the list of keys can be added to: it is absent, null or a list. -/
def TakesKeys (es : List (Yaml × Yaml)) : Prop :=
  ∀ v, Yaml.find? keysEntry es = some v → v.isNull = true ∨ ∃ items, v = .sequence items

/-- The keys that are listed. -/
def listed (es : List (Yaml × Yaml)) : List Yaml :=
  match Yaml.find? keysEntry es with
  | some (.sequence items) => items
  | _ => []

/-- Entries whose list of keys has more of them at its end, without the blanks around each. -/
def extended (es : List (Yaml × Yaml)) (keys : List String) : List (Yaml × Yaml) :=
  Yaml.put keysEntry (.sequence (listed es ++ keys.map fun k => .text (Text.trim k))) es

variable {userData out : String} {es : List (Yaml × Yaml)} {keys : List String}

theorem startsWithHeader_iff :
    startsWithHeader userData = true ↔ header.toList <+: Text.trimStartChars userData.toList :=
  List.isPrefixOf_iff_prefix

theorem not_isBlankText_of_header (h : header.toList <+: Text.trimStartChars userData.toList) :
    Text.isBlankText userData = false := by
  rw [← Bool.not_eq_true, Text.isBlankText, ← Text.trimStartChars_eq_nil_iff]
  intro hnil
  rw [hnil, List.prefix_nil] at h
  revert h
  decide

theorem entries_eq_ok_iff : entries userData = .ok es ↔ Holds userData es := by
  rw [entries]
  constructor
  · intro h
    split at h
    · rename_i hblank
      cases h
      exact .blank hblank
    · split at h
      · cases h
      · rename_i hheader
        have hheader := startsWithHeader_iff.mp (by simpa using hheader)
        split at h
        · rename_i htext
          cases h
          exact .mapping hheader htext
        · rename_i htext
          cases h
          exact .null hheader htext
        · cases h
        · cases h
  · intro h
    cases h with
    | blank h => rw [if_pos h]
    | null hheader h =>
      simp [not_isBlankText_of_header hheader, startsWithHeader_iff.mpr hheader, h]
    | mapping hheader h =>
      simp [not_isBlankText_of_header hheader, startsWithHeader_iff.mpr hheader, h]

/-- No key is repeated among the entries of user data. -/
theorem Holds.pairwise (h : Holds userData es) :
    es.Pairwise fun e f => Yaml.same e.1 f.1 = false := by
  cases h with
  | blank => exact .nil
  | null => exact .nil
  | mapping _ h => exact Yaml.pairwise_of_ofText? h

/-! ## Adding -/

theorem extend_of_takesKeys (h : TakesKeys es) (keys : List String) :
    extend es keys = .ok (extended es keys) := by
  rw [extend, extended, listed]
  cases hfind : Yaml.find? keysEntry es with
  | none => rfl
  | some v =>
    rcases h v hfind with hnull | ⟨items, rfl⟩
    · cases v with
      | sequence items => cases hnull
      | _ => exact if_pos hnull
    · rfl

theorem extend_of_not_takesKeys (h : ¬TakesKeys es) (keys : List String) :
    extend es keys = .error .noList := by
  simp only [TakesKeys, Classical.not_forall, not_or, not_exists] at h
  obtain ⟨v, hfind, hnull, hlist⟩ := h
  rw [extend, hfind]
  cases v with
  | sequence items => exact absurd rfl (hlist items)
  | _ => exact if_neg hnull

/-- Adding keys: the entries are read, their list is extended, and they are written. -/
theorem addKeys_eq_of_entries (h : entries userData = .ok es) (htakes : TakesKeys es)
    (keys : List String) : addKeys userData keys = render (extended es keys) := by
  rw [addKeys, h]
  simp only
  rw [extend_of_takesKeys htakes]

theorem takesKeys_extended (es : List (Yaml × Yaml)) (keys : List String) :
    TakesKeys (extended es keys) := by
  intro v hv
  rw [extended, Yaml.find?_put] at hv
  exact .inr ⟨_, (Option.some.inj hv).symm⟩

/-- Keys that are added twice are added one after the other. -/
theorem extended_extended (es : List (Yaml × Yaml)) (keys more : List String) :
    extended (extended es keys) more = extended es (keys ++ more) := by
  have hlisted : listed (extended es keys)
      = listed es ++ keys.map fun k => .text (Text.trim k) := by
    rw [listed, extended, Yaml.find?_put]
  rw [extended, hlisted, extended, Yaml.put_put, extended, List.map_append, List.append_assoc]

/-- Whether the result can be written does not depend on the keys. -/
theorem isWritable_extended (es : List (Yaml × Yaml)) (keys more : List String) :
    (Yaml.mapping (extended es keys)).isWritable false
      = (Yaml.mapping (extended es more)).isWritable false := by
  have hkeys (keys : List String) :
      Yaml.areWritable (listed es ++ keys.map fun k => .text (Text.trim k))
        = Yaml.areWritable (listed es) := by
    simpa [Function.comp_def] using
      Yaml.areWritable_append_texts (listed es) (keys.map Text.trim)
  exact Yaml.isWritable_put_congr keysEntry es ((hkeys keys).trans (hkeys more).symm)

theorem addKeys_eq_ok_iff : addKeys userData keys = .ok out ↔ ∃ es, Holds userData es
    ∧ TakesKeys es ∧ (Yaml.mapping (extended es keys)).isWritable false = true
    ∧ out = header ++ "\n" ++ (Yaml.mapping (extended es keys)).toText := by
  constructor
  · intro h
    rw [addKeys] at h
    split at h
    · cases h
    · rename_i es hes
      by_cases htakes : TakesKeys es
      · rw [extend_of_takesKeys htakes] at h
        simp only [render_eq] at h
        split at h
        · cases h
          exact ⟨es, entries_eq_ok_iff.mp hes, htakes, ‹_›, rfl⟩
        · cases h
      · rw [extend_of_not_takesKeys htakes] at h
        cases h
  · rintro ⟨es, hes, htakes, hwritable, rfl⟩
    rw [addKeys_eq_of_entries (entries_eq_ok_iff.mpr hes) htakes, render_eq, if_pos hwritable]

/-- An error does not depend on the keys. -/
theorem addKeys_eq_error_iff {e : Error} (more : List String) :
    addKeys userData keys = .error e ↔ addKeys userData more = .error e := by
  cases hes : entries userData with
  | error e => rw [addKeys, addKeys, hes]
  | ok es =>
    by_cases htakes : TakesKeys es
    · rw [addKeys_eq_of_entries hes htakes, addKeys_eq_of_entries hes htakes, render_eq, render_eq,
        isWritable_extended es keys more]
      split <;> simp
    · rw [addKeys, addKeys, hes]
      simp only
      rw [extend_of_not_takesKeys htakes, extend_of_not_takesKeys htakes]

/-! ## Reading back -/

/-- What is assumed of reading and writing: that a mapping has a text, which is read as the same
mapping. -/
def Survives (es : List (Yaml × Yaml)) : Prop :=
  (Yaml.mapping es).isWritable false = true
    ∧ Yaml.ofText? (Yaml.mapping es).toText = some (.mapping es)

instance (es : List (Yaml × Yaml)) : Decidable (Survives es) :=
  inferInstanceAs (Decidable (_ ∧ _))

/-- The header is a comment, so what is written behind it is read back too. -/
theorem ofText?_header_append (hne : es ≠ []) (h : Survives es) :
    Yaml.ofText? (header ++ "\n" ++ (Yaml.mapping es).toText) = some (.mapping es) := by
  have hheader : header = "#" ++ "cloud-config" := by decide
  obtain ⟨e, es, rfl⟩ := List.exists_cons_of_ne_nil hne
  rw [hheader]
  exact Yaml.ofText?_comment (by decide) (by decide) (Yaml.head?_toText_mapping_ne e es) h.2

theorem header_isPrefix (text : String) :
    header.toList <+: Text.trimStartChars (header ++ "\n" ++ text).toList := by
  have htext : (header ++ "\n" ++ text).toList = header.toList ++ ('\n' :: text.toList) := by
    simp
  rw [htext]
  exact List.prefix_append _ _

theorem extended_ne_nil (es : List (Yaml × Yaml)) (keys : List String) : extended es keys ≠ [] := by
  intro hnil
  have hfind := Yaml.find?_put keysEntry (.sequence (listed es ++ keys.map fun k =>
    .text (Text.trim k))) es
  rw [← extended, hnil] at hfind
  cases hfind

/-- What was written for user data with keys holds the extended entries. -/
theorem entries_of_survives (h : Survives (extended es keys)) :
    entries (header ++ "\n" ++ (Yaml.mapping (extended es keys)).toText)
      = .ok (extended es keys) :=
  entries_eq_ok_iff.mpr
    (.mapping (header_isPrefix _) (ofText?_header_append (extended_ne_nil es keys) h))

/-- **Adding keys keeps the document.** Keys can be added exactly to user data that holds entries
    with no list of keys, null in its place, or a list; whether they can, and if not the error, does
    not depend on the keys. The result begins with the header line and means a mapping with the same
    other entries in the same order, in which the former keys and then all new ones, without blanks
    around them, are listed. -/
theorem addKeys_keeps_document (userData : String) (keys : List String)
    (hsurvives : ∀ es written, entries userData = .ok es → extend es keys = .ok written →
      Survives written) :
    ((∃ out, addKeys userData keys = .ok out) ↔ ∃ es, Holds userData es ∧ TakesKeys es)
      ∧ (∀ more e, addKeys userData keys = .error e ↔ addKeys userData more = .error e)
      ∧ ∀ out, addKeys userData keys = .ok out → ∃ es written, Holds userData es
        ∧ (∃ body, out = header ++ "\n" ++ body)
        ∧ Yaml.ofText? out = some (.mapping written)
        ∧ (written.filter fun e => !Yaml.isEntryOf keysEntry e)
          = (es.filter fun e => !Yaml.isEntryOf keysEntry e)
        ∧ written.filter (Yaml.isEntryOf keysEntry) = [(.text keysEntry,
          .sequence (listed es ++ keys.map fun k => .text (Text.trim k)))] := by
  have hkept {es : List (Yaml × Yaml)} (hes : Holds userData es) (htakes : TakesKeys es) :
      Survives (extended es keys) :=
    hsurvives es _ (entries_eq_ok_iff.mpr hes) (extend_of_takesKeys htakes keys)
  refine ⟨⟨?_, ?_⟩, fun more e => addKeys_eq_error_iff more, fun out hout => ?_⟩
  · rintro ⟨out, hout⟩
    obtain ⟨es, hes, htakes, -⟩ := addKeys_eq_ok_iff.mp hout
    exact ⟨es, hes, htakes⟩
  · rintro ⟨es, hes, htakes⟩
    exact ⟨_, addKeys_eq_ok_iff.mpr ⟨es, hes, htakes, (hkept hes htakes).1, rfl⟩⟩
  · obtain ⟨es, hes, htakes, -, rfl⟩ := addKeys_eq_ok_iff.mp hout
    exact ⟨es, extended es keys, hes, ⟨_, rfl⟩,
      ofText?_header_append (extended_ne_nil es keys) (hkept hes htakes),
      Yaml.filter_not_isEntryOf_put .., Yaml.filter_isEntryOf_put hes.pairwise⟩

/-- The entries of user data that lists a key already. -/
theorem entries_of_listed : entries "#cloud-config\nssh_authorized_keys: [a]\nb: c\n"
    = .ok [(.text keysEntry, .sequence [.text "a"]), (.text "b", .text "c")] :=
  entries_eq_ok_iff.mpr (.mapping (header_isPrefix "ssh_authorized_keys: [a]\nb: c\n")
    (by decide +kernel))

/-- A list of keys takes more keys. -/
theorem takesKeys_listed {items : List Yaml} {rest : List (Yaml × Yaml)} :
    TakesKeys ((.text keysEntry, .sequence items) :: rest) := by
  intro v hv
  cases hv
  exact .inr ⟨items, rfl⟩

/-- A key that looks like other YAML is listed as the text that it is. -/
theorem addKeys_keeps_marks :
    ∃ out written,
      addKeys "#cloud-config\nssh_authorized_keys: [a]\nb: c\n" [" x: #y\t"] = .ok out
      ∧ Yaml.ofText? out = some (.mapping written)
      ∧ (written.filter fun e => !Yaml.isEntryOf keysEntry e) = [(.text "b", .text "c")]
      ∧ written.filter (Yaml.isEntryOf keysEntry)
        = [(.text keysEntry, .sequence [.text "a", .text "x: #y"])] := by
  obtain ⟨hok, -, hkept⟩ := addKeys_keeps_document
    "#cloud-config\nssh_authorized_keys: [a]\nb: c\n" [" x: #y\t"] fun es written hes hwritten => by
      rw [entries_of_listed] at hes
      cases hes
      cases hwritten
      decide +kernel
  obtain ⟨out, hout⟩ := hok.mpr ⟨_, entries_eq_ok_iff.mp entries_of_listed, takesKeys_listed⟩
  obtain ⟨es, written, hes, -, htext, hothers, hlist⟩ := hkept out hout
  cases entries_of_listed.symm.trans (entries_eq_ok_iff.mpr hes)
  exact ⟨out, written, hout, htext, hothers, hlist⟩

/-- **Keys added in two steps are added as if at once**, with the same text or the same error. So
    what was written takes keys again, and with no keys it stays as it is. -/
theorem addKeys_append (userData : String) (keys more : List String)
    (hsurvives : ∀ es written, entries userData = .ok es → extend es keys = .ok written →
      (Yaml.mapping written).isWritable false = true → Survives written) :
    ((addKeys userData keys).bind fun out => addKeys out more) = addKeys userData (keys ++ more)
      ∧ ∀ out, addKeys userData keys = .ok out →
        (∀ others, ∃ out', addKeys out others = .ok out') ∧ addKeys out [] = .ok out := by
  -- Any keys can be added to a result.
  have hagain {out : String} (hout : addKeys userData keys = .ok out) (others : List String) :
      addKeys out others = addKeys userData (keys ++ others) := by
    obtain ⟨es, hes, htakes, hwritable, rfl⟩ := addKeys_eq_ok_iff.mp hout
    have hes := entries_eq_ok_iff.mpr hes
    have hkept := hsurvives es _ hes (extend_of_takesKeys htakes keys) hwritable
    rw [addKeys_eq_of_entries (entries_of_survives hkept) (takesKeys_extended es keys),
      extended_extended, addKeys_eq_of_entries hes htakes]
  have hok {out : String} (hout : addKeys userData keys = .ok out) (others : List String) :
      ∃ out', addKeys userData others = .ok out' := by
    cases hresult : addKeys userData others with
    | ok out' => exact ⟨out', rfl⟩
    | error e =>
      rw [(addKeys_eq_error_iff keys).mp hresult] at hout
      cases hout
  refine ⟨?_, fun out hout => ⟨fun others => ?_, ?_⟩⟩
  · cases hresult : addKeys userData keys with
    | error e => exact ((addKeys_eq_error_iff (keys ++ more)).mp hresult).symm
    | ok out => exact hagain hresult more
  · rw [hagain hout others]
    exact hok hout (keys ++ others)
  · rw [hagain hout [], List.append_nil, hout]

/-- Adding no keys to blank user data leaves an empty list, to which one is added; and two keys are
    added to a list with another one, first one and then the other. -/
theorem addKeys_append_blank_and_listed :
    ((addKeys "" []).bind fun out => addKeys out ["k"]) = addKeys "" ["k"]
      ∧ ∃ out, addKeys "#cloud-config\nssh_authorized_keys: [a]\nb: c\n" ["k"] = .ok out
        ∧ addKeys out ["l"]
          = addKeys "#cloud-config\nssh_authorized_keys: [a]\nb: c\n" ["k", "l"]
        ∧ addKeys out [] = .ok out := by
  have hblank := addKeys_append "" [] ["k"] fun es written hes hwritten _ => by
    cases hes
    cases hwritten
    decide +kernel
  obtain ⟨happend, hagain⟩ := addKeys_append "#cloud-config\nssh_authorized_keys: [a]\nb: c\n"
    ["k"] ["l"] fun es written hes hwritten _ => by
      rw [entries_of_listed] at hes
      cases hes
      cases hwritten
      decide +kernel
  obtain ⟨out, hout⟩ : ∃ out,
      addKeys "#cloud-config\nssh_authorized_keys: [a]\nb: c\n" ["k"] = .ok out :=
    ⟨_, addKeys_eq_ok_iff.mpr ⟨_, entries_eq_ok_iff.mp entries_of_listed, takesKeys_listed,
      by decide +kernel, rfl⟩⟩
  rw [hout] at happend
  exact ⟨hblank.1, out, hout, happend, (hagain out hout).2⟩

end CloudConfig

end MachineDriver
