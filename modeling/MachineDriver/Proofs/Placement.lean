import MachineDriver.Machine.Topology
import MachineDriver.Proofs.Numerals

set_option autoImplicit false

/-!
# Where machines are placed

`Topology.Tells` says which two numbers a version tells, without a word about how it is read, and
`Topology.majorMinor?_eq_some_iff` that these are the numbers that are read, if they have at most 32
bits. So versions are compared by their numbers, whatever stands around these.
`Affinity.Allows` says on which nodes a machine may run.

`Topology.places_by_numbers` puts both together: the nodes of a region and a zone, told by the
labels that clusters of the version have. -/

namespace MachineDriver

namespace Text

/-! ## Texts without the blanks around them -/

/-- What is left of a text when the blanks around it are taken off. -/
structure IsCore (core cs : List Char) : Prop where
  between : ∃ before after, cs = before ++ (core ++ after) ∧ (∀ c ∈ before, isBlank c = true)
    ∧ ∀ c ∈ after, isBlank c = true
  head : ∀ c ∈ core.head?, isBlank c = false
  last : ∀ c ∈ core.getLast?, isBlank c = false

theorem trimEndChars_append {core after : List Char} (hafter : ∀ c ∈ after, isBlank c = true)
    (hlast : ∀ c ∈ core.getLast?, isBlank c = false) : trimEndChars (core ++ after) = core := by
  rw [trimEndChars, List.reverse_append, dropWhile_append_of_head
    (fun c hc => hafter c (List.mem_reverse.mp hc)) (by simpa using hlast), List.reverse_reverse]

theorem exists_eq_trimEndChars_append (cs : List Char) :
    ∃ after, cs = trimEndChars cs ++ after ∧ (∀ c ∈ after, isBlank c = true)
      ∧ ∀ c ∈ (trimEndChars cs).getLast?, isBlank c = false := by
  refine ⟨(cs.reverse.takeWhile isBlank).reverse, ?_, fun c hc => ?_, fun c hc => ?_⟩
  · rw [trimEndChars, ← List.reverse_append, List.takeWhile_append_dropWhile, List.reverse_reverse]
  · exact List.mem_takeWhile_imp (List.mem_reverse.mp hc)
  · rw [trimEndChars, List.getLast?_reverse] at hc
    exact of_mem_head?_dropWhile hc

/-- Trimming leaves what is left when the blanks are taken off. -/
theorem trimChars_eq_iff {core cs : List Char} : trimChars cs = core ↔ IsCore core cs := by
  constructor
  · rintro rfl
    obtain ⟨after, hsplit, hafter, hlast⟩ := exists_eq_trimEndChars_append (trimStartChars cs)
    refine ⟨⟨cs.takeWhile isBlank, after, ?_, fun c hc => List.mem_takeWhile_imp hc, hafter⟩, ?_,
      hlast⟩
    · rw [trimChars, ← hsplit, trimStartChars, List.takeWhile_append_dropWhile]
    · intro c hc
      have hhead : (trimStartChars cs).head? = some c := by
        rw [hsplit]
        exact head?_append_of_mem hc
      exact of_mem_head?_dropWhile hhead
  · rintro ⟨⟨before, after, rfl, hbefore, hafter⟩, hhead, hlast⟩
    cases core with
    | nil =>
        rw [trimChars_eq_nil_iff, List.all_eq_true]
        intro c hc
        rcases List.mem_append.mp hc with hc | hc
        · exact hbefore c hc
        · exact hafter c hc
    | cons c core =>
        rw [trimChars, trimStartChars, dropWhile_append_of_head hbefore (by simpa using hhead),
          trimEndChars_append hafter hlast]

/-! ## Numerals -/

theorem readBelow?_of_digits {digits : List Char} (hne : digits ≠ [])
    (h : ∀ c ∈ digits, c.isDigit = true) (bound : Nat) :
    readBelow? 10 bound digits = if Nat.ofDigitChars 10 digits 0 < bound
      then some (Nat.ofDigitChars 10 digits 0) else none := by
  rw [readBelow?, readNumeral?, if_neg (by simpa using hne), readDigits?_of_digits h]

end Text

/-! ## Versions -/

namespace Topology

/-- Characters lead with a number: they begin with its digits, any number of leading zeros among
    them, and no digit follows these. -/
def LeadsWith (cs : List Char) (n : Nat) : Prop :=
  ∃ digits rest, cs = digits ++ rest ∧ digits ≠ [] ∧ (∀ c ∈ digits, c.isDigit = true)
    ∧ (∀ c ∈ rest.head?, c.isDigit = false) ∧ Nat.ofDigitChars 10 digits 0 = n

/-- Two numbers are told by a version: blanks around it and letters `v` in front of it apart, the
    first two of its parts between dots lead with them. -/
def Tells (version : String) (major minor : Nat) : Prop :=
  ∃ vs first second more : List Char,
    Text.IsCore (vs ++ (first ++ '.' :: (second ++ more))) version.toList
      ∧ (∀ c ∈ vs, c = 'v') ∧ '.' ∉ first ∧ '.' ∉ second ∧ (∀ c ∈ more.head?, c = '.')
      ∧ LeadsWith first major ∧ LeadsWith second minor

theorem leadingNumber?_eq_some_iff {cs : List Char} {n : Nat} :
    leadingNumber? cs = some n ↔ LeadsWith cs n ∧ n < 4294967296 := by
  constructor
  · intro h
    have hdigits : ∀ c ∈ cs.takeWhile Text.isDigit, c.isDigit = true := fun c hc => by
      rw [← Text.isDigit_eq]
      exact List.mem_takeWhile_imp hc
    by_cases hne : cs.takeWhile Text.isDigit = []
    · rw [leadingNumber?, hne] at h
      cases h
    · rw [leadingNumber?, Text.readBelow?_of_digits hne hdigits] at h
      split at h
      · rename_i hlt
        cases h
        refine ⟨⟨_, _, List.takeWhile_append_dropWhile.symm, hne, hdigits, fun c hc => ?_, rfl⟩,
          hlt⟩
        rw [← Text.isDigit_eq]
        exact Text.of_mem_head?_dropWhile hc
      · cases h
  · rintro ⟨⟨digits, rest, rfl, hne, hdigits, hrest, rfl⟩, hlt⟩
    rw [leadingNumber?, Text.takeWhile_append_of_head, Text.readBelow?_of_digits hne hdigits,
      if_pos hlt]
    · exact fun c hc => (Text.isDigit_eq c).trans (hdigits c hc)
    · exact fun c hc => (Text.isDigit_eq c).trans (hrest c hc)

theorem LeadsWith.exists_eq_cons {cs : List Char} {n : Nat} (h : LeadsWith cs n) :
    ∃ c rest, cs = c :: rest ∧ c.isDigit = true := by
  obtain ⟨digits, rest, rfl, hne, hdigits, -, -⟩ := h
  obtain ⟨c, more, rfl⟩ := List.exists_cons_of_ne_nil hne
  exact ⟨c, more ++ rest, rfl, hdigits c List.mem_cons_self⟩

/-- Numbers that are read are told by the parts that they are read from. -/
theorem tells_of_majorMinor? {version : String} {major minor : Nat}
    (h : majorMinor? version = some (major, minor)) :
    Tells version major minor ∧ major < 4294967296 ∧ minor < 4294967296 := by
  unfold majorMinor? at h
  dsimp only at h
  generalize hcore : Text.trimChars version.toList = core at h
  split at h
  · cases h
  · rename_i c rest hdrop
    split at h
    · rename_i a b hread hread'
      cases h
      obtain ⟨hleads, hmajor⟩ := leadingNumber?_eq_some_iff.mp hread
      obtain ⟨hleads', hminor⟩ := leadingNumber?_eq_some_iff.mp hread'
      have hcut : core.dropWhile (· = 'v') = part (core.dropWhile (· = 'v')) ++ '.' :: rest :=
        Text.eq_append_of_dropWhile_ne hdrop
      have hpart : part rest ++ rest.dropWhile (· ≠ '.') = rest := List.takeWhile_append_dropWhile
      have hsplit : core = core.takeWhile (· = 'v') ++ (part (core.dropWhile (· = 'v'))
          ++ '.' :: (part rest ++ rest.dropWhile (· ≠ '.'))) := by
        rw [hpart, ← hcut, List.takeWhile_append_dropWhile]
      refine ⟨⟨core.takeWhile (· = 'v'), part (core.dropWhile (· = 'v')), part rest,
        rest.dropWhile (· ≠ '.'), ?_, fun _ hc => ?_, Text.notMem_takeWhile_ne '.' _,
        Text.notMem_takeWhile_ne '.' _, fun _ hc => ?_, hleads, hleads'⟩, hmajor, hminor⟩
      · rw [← hsplit]
        exact Text.trimChars_eq_iff.mp hcore
      · simpa using List.mem_takeWhile_imp hc
      · simpa using Text.of_mem_head?_dropWhile hc
    · cases h

/-- What is read of a version are the numbers that it tells. -/
theorem majorMinor?_eq_some_iff {version : String} {major minor : Nat} :
    majorMinor? version = some (major, minor)
      ↔ Tells version major minor ∧ major < 4294967296 ∧ minor < 4294967296 := by
  refine ⟨tells_of_majorMinor?, ?_⟩
  rintro ⟨⟨vs, first, second, more, hcore, hvs, hfirst, hsecond, hmore, hleads, hleads'⟩,
    hmajor, hminor⟩
  -- The first part begins with a digit, so the letters in front of it are all that there are.
  have hnumbers : (Text.trimChars version.toList).dropWhile (· = 'v')
      = first ++ '.' :: (second ++ more) := by
    obtain ⟨c, tail, rfl, hdigit⟩ := hleads.exists_eq_cons
    rw [Text.trimChars_eq_iff.mpr hcore, Text.dropWhile_append_of_head (by simpa using hvs)]
    intro d hd
    obtain rfl : c = d := by simpa using hd
    refine decide_eq_false ?_
    rintro rfl
    exact absurd hdigit (by decide)
  have hrest : (first ++ '.' :: (second ++ more)).dropWhile (· ≠ '.') = '.' :: (second ++ more) :=
    Text.dropWhile_ne_append hfirst _
  have hpart : part (first ++ '.' :: (second ++ more)) = first :=
    Text.takeWhile_ne_append hfirst _
  have hpart' : part (second ++ more) = second :=
    Text.takeWhile_append_of_head (Text.all_ne hsecond) (by simpa using hmore)
  rw [majorMinor?, hnumbers, hrest]
  dsimp only
  rw [hpart, hpart', leadingNumber?_eq_some_iff.mpr ⟨hleads, hmajor⟩,
    leadingNumber?_eq_some_iff.mpr ⟨hleads', hminor⟩]

/-- A version has the older labels exactly when it tells a number below 1.17. -/
theorem isLegacy_iff {version : String} : isLegacy version = true
    ↔ ∃ major minor, Tells version major minor ∧ major < 4294967296 ∧ minor < 4294967296
      ∧ (major < 1 ∨ major = 1 ∧ minor < 17) := by
  rw [isLegacy]
  split
  · rename_i major minor hread
    have hiff := majorMinor?_eq_some_iff.mp hread
    constructor
    · intro h
      exact ⟨major, minor, hiff.1, hiff.2.1, hiff.2.2, by simpa using h⟩
    · rintro ⟨a, b, htells, ha, hb, hlt⟩
      have hsame := majorMinor?_eq_some_iff.mpr ⟨htells, ha, hb⟩
      rw [hread] at hsame
      cases hsame
      simpa using hlt
  · rename_i hread
    refine iff_of_false (by simp) ?_
    rintro ⟨a, b, htells, ha, hb, -⟩
    rw [majorMinor?_eq_some_iff.mpr ⟨htells, ha, hb⟩] at hread
    cases hread

theorem leadsWith_decimal (n : Nat) {rest : List Char}
    (hrest : ∀ c ∈ rest.head?, c.isDigit = false) : LeadsWith (Text.decimal n ++ rest) n :=
  ⟨Text.decimal n, rest, rfl, Nat.toDigits_ne_nil, fun _ => Text.isDigit_of_mem_decimal, hrest,
    Nat.ofDigitChars_ten_toDigits⟩

theorem isBlank_of_mem_decimal {n : Nat} {c : Char} (h : c ∈ Text.decimal n) :
    Text.isBlank c = false := by
  have hdigit := Text.isDigit_iff.mp (Text.isDigit_of_mem_decimal h)
  simp [Text.isBlank]
  omega

/-- A version that is written as two numbers tells them, whatever follows. -/
theorem tells_numbers (a b : Nat) {suffix : String}
    (hsuffix : ∀ c ∈ suffix.toList.head?, c.isDigit = false) :
    Tells ("v" ++ String.ofList (Text.decimal a) ++ "." ++ String.ofList (Text.decimal b)
      ++ suffix) a b := by
  obtain ⟨after, hsplit, hafter, hlast⟩ := Text.exists_eq_trimEndChars_append suffix.toList
  generalize Text.trimEndChars suffix.toList = kept at hsplit hlast
  have hkept : ∀ c ∈ kept.head?, c.isDigit = false := fun c hc =>
    hsuffix c (by rw [hsplit]; exact Text.head?_append_of_mem hc)
  have hpart : part kept ++ kept.dropWhile (· ≠ '.') = kept := List.takeWhile_append_dropWhile
  have hdot {n : Nat} : '.' ∉ Text.decimal n := Text.notMem_decimal rfl n
  refine ⟨['v'], Text.decimal a, Text.decimal b ++ part kept, kept.dropWhile (· ≠ '.'),
    ⟨⟨[], after, ?_, by simp, hafter⟩, by simp [Text.isBlank], ?_⟩, by simp, hdot, ?_,
    fun c hc => by simpa using Text.of_mem_head?_dropWhile hc, ?_, leadsWith_decimal b ?_⟩
  · rw [List.append_assoc (Text.decimal b), hpart]
    simp [hsplit]
  · intro c hc
    have hends : ['v'] ++ (Text.decimal a ++ '.' :: (Text.decimal b ++ kept))
        = (['v'] ++ Text.decimal a ++ ['.'] ++ Text.decimal b) ++ kept := by simp
    rw [List.append_assoc (Text.decimal b), hpart, hends, List.getLast?_append, Option.mem_def,
      Option.or_eq_some_iff] at hc
    rcases hc with hc | ⟨-, hc⟩
    · exact hlast c hc
    · have hmem := List.mem_of_getLast? hc
      simp only [List.mem_append, List.mem_singleton] at hmem
      rcases hmem with ((rfl | hmem) | rfl) | hmem
      · rfl
      · exact isBlank_of_mem_decimal hmem
      · rfl
      · exact isBlank_of_mem_decimal hmem
  · rw [List.mem_append, not_or]
    exact ⟨hdot, Text.notMem_takeWhile_ne '.' kept⟩
  · rw [← List.append_nil (Text.decimal a)]
    exact leadsWith_decimal a nofun
  · intro c hc
    rw [← hpart] at hkept
    exact hkept c (Text.head?_append_of_mem hc)

/-- A version that is written as two numbers of 32 bits is older than 1.17 by these numbers. -/
theorem isLegacy_numbers (a b : UInt32) {suffix : String}
    (hsuffix : ∀ c ∈ suffix.toList.head?, c.isDigit = false) :
    isLegacy ("v" ++ String.ofList (Text.decimal a.toNat) ++ "."
      ++ String.ofList (Text.decimal b.toNat) ++ suffix) = true
      ↔ a.toNat < 1 ∨ a.toNat = 1 ∧ b.toNat < 17 := by
  rw [isLegacy, majorMinor?_eq_some_iff.mpr
    ⟨tells_numbers a.toNat b.toNat hsuffix, a.toNat_lt, b.toNat_lt⟩]
  simp

end Topology

/-! ## Nodes -/

/-- A requirement of one of some values holds of the labels of a node. -/
def KeyRequirement.Holds (r : KeyRequirement) (node : TextMap String) : Prop :=
  r.operator = "In" ∧ ∃ value ∈ r.values.getD [], node.get? r.key = some value

/-- All requirements of a term hold of the labels of a node. One without requirements holds of no
    node, and requirements on other things than labels are not read. -/
def NodeTerm.Holds (t : NodeTerm) (node : TextMap String) : Prop :=
  ∃ rs, t.matchExpressions = some rs ∧ rs ≠ [] ∧ t.matchFields = none ∧ ∀ r ∈ rs, r.Holds node

/-- A machine may run on a node with some labels: one of the terms that are required holds of them,
    if there are any. -/
def Affinity.Allows (a : Affinity) (node : TextMap String) : Prop :=
  ∀ selector ∈ a.nodeAffinity.bind NodeAffinity.required,
    ∃ term ∈ selector.nodeSelectorTerms, term.Holds node

namespace Topology

theorem requirement_holds_iff {label value : String} {node : TextMap String} :
    (requirement label value).Holds node ↔ node.get? label = some value := by
  simp [KeyRequirement.Holds, requirement]

/-- The affinity for some nodes: one term requires both of their labels. -/
def pinned (keys : Labels) (region zone : String) : Affinity :=
  { nodeAffinity := some
      { preferred := none
        required := some ⟨[
          { matchExpressions := some [requirement keys.region region, requirement keys.zone zone]
            matchFields := none }]⟩ }
    podAffinity := none
    podAntiAffinity := none }

theorem pinned_allows_iff {keys : Labels} {region zone : String} {node : TextMap String} :
    (pinned keys region zone).Allows node
      ↔ node.get? keys.region = some region ∧ node.get? keys.zone = some zone := by
  simp [Affinity.Allows, pinned, NodeTerm.Holds, requirement_holds_iff]

theorem affinity?_eq_none_iff {region zone version : String} :
    affinity? region zone version = none ↔ region = "" ∨ zone = "" := by
  simp [affinity?, or_iff_not_imp_left]

theorem labels_eq_legacy_iff {version : String} :
    labels version = .legacy ↔ isLegacy version = true := by
  rw [labels]
  split
  · rename_i h
    exact iff_of_true rfl h
  · rename_i h
    exact iff_of_false (by decide) h

/-- **Machines are placed by the numbers of the version.** A version has the older labels exactly
    when it tells two numbers of 32 bits that are below 1.17, as in particular every version does
    that is written as two such numbers, whatever follows. A machine is pinned unless it has no
    region or no zone; then it may run on the nodes that carry both its region and its zone, under
    the older labels if the version has these and under the current ones if not. -/
theorem places_by_numbers (version : String) :
    (isLegacy version = true ↔ ∃ major minor, Tells version major minor
      ∧ major < 4294967296 ∧ minor < 4294967296 ∧ (major < 1 ∨ major = 1 ∧ minor < 17))
    ∧ (∀ (a b : UInt32) (suffix : String), (∀ c ∈ suffix.toList.head?, c.isDigit = false) →
      version = "v" ++ String.ofList (Text.decimal a.toNat) ++ "."
        ++ String.ofList (Text.decimal b.toNat) ++ suffix →
      (isLegacy version = true ↔ a.toNat < 1 ∨ a.toNat = 1 ∧ b.toNat < 17))
    ∧ ∀ region zone : String,
      (affinity? region zone version = none ↔ region = "" ∨ zone = "")
      ∧ ∀ affinity, affinity? region zone version = some affinity →
        ∃ keys ∈ [Labels.legacy, Labels.current],
          (keys = .legacy ↔ isLegacy version = true)
          ∧ affinity = pinned keys region zone
          ∧ ∀ node : TextMap String, affinity.Allows node
            ↔ node.get? keys.region = some region ∧ node.get? keys.zone = some zone := by
  refine ⟨isLegacy_iff, fun a b suffix hsuffix hversion => ?_, fun region zone =>
    ⟨affinity?_eq_none_iff, fun affinity haffinity => ?_⟩⟩
  · rw [hversion]
    exact isLegacy_numbers a b hsuffix
  · have hpinned : affinity = pinned (labels version) region zone := by
      rw [affinity?] at haffinity
      split at haffinity
      · cases haffinity
      · exact (Option.some.inj haffinity).symm
    refine ⟨labels version, ?_, labels_eq_legacy_iff, hpinned, fun node => ?_⟩
    · rw [labels]
      split <;> simp
    · rw [hpinned]
      exact pinned_allows_iff

/-- The numbers count, not the letters: 1.9 is below 1.17 and 1.100 is not. A machine in a cluster
    of version 1.9 runs on the nodes that tell its region and its zone by the older labels. -/
theorem places_by_numbers_of_nine :
    isLegacy "v1.9.11" = true ∧ isLegacy "v1.100.0" = false
      ∧ ∃ affinity, affinity? "eu" "eu-a" "v1.9.11" = some affinity
        ∧ ∀ node : TextMap String, affinity.Allows node
          ↔ node.get? "failure-domain.beta.kubernetes.io/region" = some "eu"
            ∧ node.get? "failure-domain.beta.kubernetes.io/zone" = some "eu-a" := by
  obtain ⟨-, hnumbers, hplaces⟩ := places_by_numbers "v1.9.11"
  have hlegacy : isLegacy "v1.9.11" = true :=
    (hnumbers 1 9 ".11" (by simp) (by decide)).mpr (by decide)
  have hcurrent : isLegacy "v1.100.0" = false := by
    rw [Bool.eq_false_iff, ne_eq,
      (places_by_numbers "v1.100.0").2.1 1 100 ".0" (by simp) (by decide)]
    decide
  obtain ⟨hnone, hsome⟩ := hplaces "eu" "eu-a"
  obtain ⟨affinity, haffinity⟩ := Option.ne_none_iff_exists'.mp (hnone.not.mpr (by decide))
  obtain ⟨keys, -, hkeys, -, hallows⟩ := hsome affinity haffinity
  obtain rfl := hkeys.mpr hlegacy
  exact ⟨hlegacy, hcurrent, affinity, haffinity, hallows⟩

end Topology

end MachineDriver
