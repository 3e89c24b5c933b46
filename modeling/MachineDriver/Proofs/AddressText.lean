import MachineDriver.Proofs.Numerals
import MachineDriver.Server.SocketAddress

set_option autoImplicit false

/-!
# Which texts denote an address

`SocketAddress.Denotes` says which texts denote which address and port, without a word about how
they are read: an address of the fourth version is four decimal numbers without zeros in front, one
of the sixth version is made of hexadecimal groups, of which a run of zeros may be left out and the
last two may be written as an address of the fourth version; a scope and the port are decimal.

`SocketAddress.ofText?_eq_some_iff` says that these are the texts that are read as this address. -/

namespace MachineDriver

namespace IpAddress

open Text

/-! ## Numbers -/

section Numbers

variable {base bound n : Nat} {cs digits rest : List Char}

/-- A number is read of all digits that come next. -/
theorem readNumber?_eq_some_iff : readNumber? base bound cs = some (n, rest)
    ↔ ∃ digits, cs = digits ++ rest ∧ IsNumeral base digits n ∧ n < bound
      ∧ ∀ c ∈ rest.head?, digitValue? base c = none := by
  unfold readNumber?
  constructor
  · intro h
    obtain ⟨m, hread, hpair⟩ := Option.map_eq_some_iff.mp h
    cases hpair
    obtain ⟨hnumeral, hlt⟩ := readBelow?_eq_some_iff.mp hread
    refine ⟨_, List.takeWhile_append_dropWhile.symm, hnumeral, hlt, fun c hc => ?_⟩
    simpa using of_mem_head?_dropWhile hc
  · rintro ⟨digits, rfl, hnumeral, hlt, hrest⟩
    dsimp only
    rw [hnumeral.takeWhile_append hrest, hnumeral.dropWhile_append hrest,
      readBelow?_eq_some_iff.mpr ⟨hnumeral, hlt⟩]
    rfl

theorem readChar?_eq_some_iff {c : Char} : readChar? c cs = some rest ↔ cs = c :: rest := by
  cases cs with
  | nil => simp [readChar?]
  | cons d cs =>
      rw [readChar?]
      split
      · rename_i h
        simp [h]
      · rename_i h
        simp [Ne.symm h]

end Numbers

/-! ## The fourth version -/

section FourthVersion

variable {cs rest : List Char}

/-- The decimal digits that come first. -/
theorem takeWhile_isDigit_append {digits : List Char} {n : Nat} (h : IsNumeral 10 digits n)
    (hrest : ∀ c ∈ rest.head?, c.isDigit = false) :
    (digits ++ rest).takeWhile Text.isDigit = digits := by
  refine takeWhile_append_of_head (fun c hc => ?_) fun c hc => (isDigit_eq c).trans (hrest c hc)
  obtain ⟨v, hv⟩ := Option.isSome_iff_exists.mp (h.isDigit c hc)
  exact (isDigit_eq c).trans (isDigit_of_digitValue? hv)

/-- An octet is written without zeros in front. -/
theorem readOctet?_eq_some_iff {n : UInt8} : readOctet? cs = some (n, rest)
    ↔ cs = decimal n.toNat ++ rest ∧ ∀ c ∈ rest.head?, c.isDigit = false := by
  unfold readOctet?
  dsimp only
  constructor
  · intro h
    obtain ⟨hdigits, hread⟩ := Option.ite_none_right_eq_some.mp h
    obtain ⟨⟨m, rest'⟩, hnumber, hpair⟩ := Option.map_eq_some_iff.mp hread
    cases hpair
    obtain ⟨digits, rfl, hnumeral, hlt, hrest⟩ := readNumber?_eq_some_iff.mp hnumber
    simp only [digitValue?_ten_eq_none_iff] at hrest
    rw [takeWhile_isDigit_append hnumeral hrest] at hdigits
    have hm : (UInt8.ofNat m).toNat = m := UInt8.toNat_ofNat_of_lt hlt
    have hshort : digits.length ≤ 3 ∧ (digits.length ≤ 1 ∨ digits.head? ≠ some '0') := by
      simpa using hdigits
    have hzero : digits.head? = some '0' → digits.length ≤ 1 := fun hhead =>
      hshort.2.resolve_right fun hne => hne hhead
    rw [hm, ← eq_decimal_of_isNumeral hnumeral hzero]
    exact ⟨rfl, hrest⟩
  · rintro ⟨rfl, hrest⟩
    have hnumeral := isNumeral_decimal n.toNat
    have hlt : n.toNat < 256 := n.toNat_lt
    have hlength : (decimal n.toNat).length ≤ 3 :=
      (Nat.length_toDigits_le_iff (by decide) (by decide)).mpr (by omega)
    have hzero : (decimal n.toNat).length ≤ 1 ∨ (decimal n.toNat).head? ≠ some '0' := by
      by_cases hhead : (decimal n.toNat).head? = some '0'
      · exact .inl (length_decimal_of_head? hhead)
      · exact .inr hhead
    have hread : readNumber? 10 256 (decimal n.toNat ++ rest) = some (n.toNat, rest) :=
      readNumber?_eq_some_iff.mpr
        ⟨_, rfl, hnumeral, hlt, fun c hc => digitValue?_ten_eq_none_iff.mpr (hrest c hc)⟩
    rw [takeWhile_isDigit_append hnumeral hrest, if_pos (by simpa using ⟨hlength, hzero⟩), hread,
      Option.map_some, UInt8.ofNat_toNat]

theorem readNextOctet?_eq_some_iff {n : UInt8} : readNextOctet? cs = some (n, rest)
    ↔ cs = '.' :: (decimal n.toNat ++ rest) ∧ ∀ c ∈ rest.head?, c.isDigit = false := by
  simp only [readNextOctet?, Option.bind_eq_some_iff, readChar?_eq_some_iff, readOctet?_eq_some_iff]
  constructor
  · rintro ⟨_, rfl, rfl, hrest⟩
    exact ⟨rfl, hrest⟩
  · rintro ⟨rfl, hrest⟩
    exact ⟨_, rfl, rfl, hrest⟩

theorem ip4Text_append (ip : Ip4) (rest : List Char) : ip4Text ip ++ rest
    = decimal ip.a.toNat ++ '.' :: (decimal ip.b.toNat ++ '.' :: (decimal ip.c.toNat
      ++ '.' :: (decimal ip.d.toNat ++ rest))) := by
  simp [ip4Text]

/-- An address of the fourth version is read where it stands as it is written and no digit follows
    it. -/
theorem readIp4?_eq_some_iff {ip : Ip4} : readIp4? cs = some (ip, rest)
    ↔ cs = ip4Text ip ++ rest ∧ ∀ c ∈ rest.head?, c.isDigit = false := by
  rw [ip4Text_append, readIp4?]
  constructor
  · intro h
    split at h
    · cases h
    · rename_i a afterA ha
      split at h
      · cases h
      · rename_i b afterB hb
        split at h
        · cases h
        · rename_i c afterC hc
          obtain ⟨⟨d, afterD⟩, hd, hpair⟩ := Option.map_eq_some_iff.mp h
          cases hpair
          obtain ⟨rfl, -⟩ := readOctet?_eq_some_iff.mp ha
          obtain ⟨rfl, -⟩ := readNextOctet?_eq_some_iff.mp hb
          obtain ⟨rfl, -⟩ := readNextOctet?_eq_some_iff.mp hc
          obtain ⟨rfl, hrest⟩ := readNextOctet?_eq_some_iff.mp hd
          exact ⟨rfl, hrest⟩
  · rintro ⟨rfl, hrest⟩
    have hpoint (tail : List Char) : ∀ c ∈ ('.' :: tail).head?, c.isDigit = false := by
      rintro c ⟨⟩
      rfl
    have ha := readOctet?_eq_some_iff (n := ip.a).mpr ⟨rfl, hpoint (decimal ip.b.toNat ++ '.' ::
      (decimal ip.c.toNat ++ '.' :: (decimal ip.d.toNat ++ rest)))⟩
    have hb := readNextOctet?_eq_some_iff (n := ip.b).mpr ⟨rfl, hpoint (decimal ip.c.toNat ++ '.' ::
      (decimal ip.d.toNat ++ rest))⟩
    have hc := readNextOctet?_eq_some_iff (n := ip.c).mpr
      ⟨rfl, hpoint (decimal ip.d.toNat ++ rest)⟩
    have hd := readNextOctet?_eq_some_iff (n := ip.d).mpr ⟨rfl, hrest⟩
    rw [ha]
    dsimp only
    rw [hb]
    dsimp only
    rw [hc]
    dsimp only
    rw [hd]
    rfl

theorem exists_ip4Text_append_eq_cons (ip : Ip4) (rest : List Char) :
    ∃ c cs, ip4Text ip ++ rest = c :: cs ∧ c.isDigit = true := by
  obtain ⟨c, cs, hcs⟩ := List.exists_cons_of_ne_nil (isNumeral_decimal ip.a.toNat).1
  have hc : c ∈ decimal ip.a.toNat := hcs ▸ List.mem_cons_self
  exact ⟨c, _, by rw [ip4Text_append, hcs, List.cons_append], isDigit_of_mem_decimal hc⟩

theorem readIp4?_of_head (h : ∀ c ∈ cs.head?, c.isDigit = false) : readIp4? cs = none := by
  rw [Option.eq_none_iff_forall_ne_some]
  rintro ⟨ip, rest⟩ hread
  obtain ⟨rfl, -⟩ := readIp4?_eq_some_iff.mp hread
  obtain ⟨c, cs, hcons, hdigit⟩ := exists_ip4Text_append_eq_cons ip rest
  rw [hcons] at h
  rw [h c rfl] at hdigit
  cases hdigit

end FourthVersion

/-! ## The sixth version -/

/-- Characters are the hexadecimal digits of a group, at most four. -/
def IsGroup (cs : List Char) (g : UInt16) : Prop :=
  IsNumeral 16 cs g.toNat ∧ cs.length ≤ 4

/-- The colon that comes before a part, unless the part is the first. -/
def separator (first : Bool) : List Char :=
  if first then [] else [':']

/-- Groups are written with colons between them, and one in front of them unless they come first.
    The flag tells whether the last two are written as an address of the fourth version. -/
inductive GroupRun : Bool → List Char → List UInt16 → Bool → Prop
  | nil (first : Bool) : GroupRun first [] [] false
  | embedded (first : Bool) (ip : Ip4) :
      GroupRun first (separator first ++ ip4Text ip) (groupsOf ip) true
  | cons {first ends : Bool} {digits cs : List Char} {g : UInt16} {gs : List UInt16} :
      IsGroup digits g → GroupRun false cs gs ends →
      GroupRun first (separator first ++ (digits ++ cs)) (g :: gs) ends

/-- Characters are an address of the sixth version: all of its eight groups, or those before and
    those after a run of zeros that two colons stand for. -/
inductive IsIp6 : List Char → List UInt16 → Prop
  | full {cs : List Char} {gs : List UInt16} {ends : Bool} :
      GroupRun true cs gs ends → gs.length = 8 → IsIp6 cs gs
  | short {front back : List Char} {gs hs : List UInt16} {ends : Bool} :
      GroupRun true front gs false → GroupRun true back hs ends → gs.length + hs.length < 8 →
      IsIp6 (front ++ ':' :: ':' :: back)
        (gs ++ List.replicate (8 - gs.length - hs.length) 0 ++ hs)

section SixthVersion

variable {cs rest : List Char} {gs : List UInt16} {first ends : Bool} {limit : Nat}

theorem readGroup?_eq_some_iff {g : UInt16} : readGroup? cs = some (g, rest)
    ↔ ∃ digits, cs = digits ++ rest ∧ IsGroup digits g
      ∧ ∀ c ∈ rest.head?, digitValue? 16 c = none := by
  unfold readGroup?
  constructor
  · intro h
    obtain ⟨hlength, hread⟩ := Option.ite_none_right_eq_some.mp h
    obtain ⟨⟨n, rest'⟩, hnumber, hpair⟩ := Option.map_eq_some_iff.mp hread
    cases hpair
    obtain ⟨digits, rfl, hnumeral, hlt, hrest⟩ := readNumber?_eq_some_iff.mp hnumber
    rw [hnumeral.takeWhile_append hrest] at hlength
    have hn : (UInt16.ofNat n).toNat = n := UInt16.toNat_ofNat_of_lt hlt
    exact ⟨digits, rfl, ⟨hn.symm ▸ hnumeral, hlength⟩, hrest⟩
  · rintro ⟨digits, rfl, ⟨hnumeral, hlength⟩, hrest⟩
    have hread : readNumber? 16 65536 (digits ++ rest) = some (g.toNat, rest) :=
      readNumber?_eq_some_iff.mpr ⟨_, rfl, hnumeral, g.toNat_lt, hrest⟩
    rw [hnumeral.takeWhile_append hrest, if_pos hlength, hread]
    simp

theorem readSeparator?_eq_some_iff :
    readSeparator? ':' first cs = some rest ↔ cs = separator first ++ rest := by
  cases first with
  | false => simp [readSeparator?, separator, readChar?_eq_some_iff]
  | true => simp [readSeparator?, separator]

/-- What is read as groups is a run of these, not longer than the limit. -/
theorem exists_run_of_readGroups {cs rest : List Char} (h : readGroups limit first cs
    = (gs, ends, rest)) :
    ∃ run, cs = run ++ rest ∧ GroupRun first run gs ends ∧ gs.length ≤ limit := by
  -- What comes after a group is read with the limit of one group less.
  induction limit generalizing first cs gs with
  | zero =>
      cases h
      exact ⟨[], rfl, .nil first, Nat.le_refl 0⟩
  | succ limit ih =>
      rw [readGroups] at h
      dsimp only at h
      split at h
      · rename_i ip rest' hembedded
        cases h
        split at hembedded
        · cases hembedded
        · rename_i hlimit
          obtain ⟨cs', hseparator, hread⟩ := Option.bind_eq_some_iff.mp hembedded
          obtain ⟨rfl, -⟩ := readIp4?_eq_some_iff.mp hread
          obtain rfl := readSeparator?_eq_some_iff.mp hseparator
          refine ⟨_, (List.append_assoc _ _ _).symm, .embedded first ip, ?_⟩
          have htwo : (groupsOf ip).length = 2 := rfl
          omega
      · split at h
        · cases h
          exact ⟨[], rfl, .nil first, Nat.zero_le _⟩
        · rename_i g rest' hgroup
          cases h
          obtain ⟨cs', hseparator, hread⟩ := Option.bind_eq_some_iff.mp hgroup
          obtain ⟨digits, rfl, hg, -⟩ := readGroup?_eq_some_iff.mp hread
          obtain rfl := readSeparator?_eq_some_iff.mp hseparator
          obtain ⟨run, hrun, hgs, hlength⟩ := ih rfl
          refine ⟨separator first ++ (digits ++ run), ?_, .cons hg hgs, Nat.succ_le_succ hlength⟩
          simp [← hrun]

/-- No group can go on here. -/
def EndsRun (rest : List Char) : Prop :=
  (∀ c ∈ rest.head?, digitValue? 16 c = none ∧ c ≠ '.')
    ∧ ∀ tail, rest = ':' :: tail → ∀ c ∈ tail.head?, digitValue? 16 c = none

/-- Where no group can go on, none is read. -/
theorem readGroups_of_endsRun (h : EndsRun rest) :
    readGroups limit first rest = ([], false, rest) := by
  cases limit with
  | zero => rfl
  | succ limit =>
      have hstart {cs : List Char} (hcs : readSeparator? ':' first rest = some cs) :
          ∀ c ∈ cs.head?, digitValue? 16 c = none := by
        have hrest := readSeparator?_eq_some_iff.mp hcs
        cases first with
        | false => exact h.2 cs hrest
        | true =>
            obtain rfl : rest = cs := hrest
            exact fun c hc => (h.1 c hc).1
      have hembedded : (readSeparator? ':' first rest).bind readIp4? = none :=
        Option.bind_eq_none_iff.mpr fun cs hcs =>
          readIp4?_of_head fun c hc => isDigit_of_digitValue?_eq_none (by decide) (hstart hcs c hc)
      have hgroup : (readSeparator? ':' first rest).bind readGroup? = none := by
        refine Option.bind_eq_none_iff.mpr fun cs hcs => ?_
        rw [Option.eq_none_iff_forall_ne_some]
        rintro ⟨g, tail⟩ hread
        obtain ⟨digits, rfl, ⟨hnumeral, -⟩, -⟩ := readGroup?_eq_some_iff.mp hread
        obtain ⟨c, digits, rfl⟩ := List.exists_cons_of_ne_nil hnumeral.1
        have hdigit := hnumeral.isDigit c List.mem_cons_self
        rw [hstart hcs c rfl] at hdigit
        cases hdigit
      rw [readGroups]
      dsimp only
      rw [hembedded, hgroup, ite_self]

/-- Groups that do not come first begin with a colon. -/
theorem GroupRun.head {run : List Char} (h : GroupRun false run gs ends) :
    ∀ c ∈ run.head?, c = ':' := by
  cases h <;> simp [separator]

/-- A group is not the first octet of an address of the fourth version. -/
theorem readIp4?_of_group {digits : List Char} {n : Nat} (h : IsNumeral 16 digits n)
    (hrest : ∀ c ∈ rest.head?, digitValue? 16 c = none ∧ c ≠ '.') :
    readIp4? (digits ++ rest) = none := by
  rw [Option.eq_none_iff_forall_ne_some]
  rintro ⟨ip, tail⟩ hread
  obtain ⟨htext, -⟩ := readIp4?_eq_some_iff.mp hread
  rw [ip4Text_append] at htext
  have hdigits (c : Char) (hc : c ∈ decimal ip.a.toNat) : (digitValue? 16 c).isSome = true := by
    rw [digitValue?_of_isDigit (by decide) (isDigit_of_mem_decimal hc)]
    rfl
  have hsplit := congrArg (List.dropWhile fun c => (digitValue? 16 c).isSome) htext
  rw [h.dropWhile_append fun c hc => (hrest c hc).1,
    dropWhile_append_of_head hdigits (by rintro c ⟨⟩; rfl)] at hsplit
  exact (hrest '.' (by rw [hsplit]; rfl)).2 rfl

/-- A run of groups that fits the limit is read where no group can go on after it. -/
theorem readGroups_of_run {run : List Char} (h : GroupRun first run gs ends)
    (hlimit : gs.length ≤ limit) (hrest : EndsRun rest) :
    readGroups limit first (run ++ rest) = (gs, ends, rest) := by
  induction h generalizing limit with
  | nil first => exact readGroups_of_endsRun hrest
  | embedded first ip =>
      obtain ⟨limit, rfl⟩ : ∃ more, limit = more + 2 := ⟨limit - 2, by
        have htwo : (groupsOf ip).length = 2 := rfl
        omega⟩
      have hseparator : readSeparator? ':' first (separator first ++ ip4Text ip ++ rest)
          = some (ip4Text ip ++ rest) := readSeparator?_eq_some_iff.mpr (List.append_assoc _ _ _)
      have hread : readIp4? (ip4Text ip ++ rest) = some (ip, rest) := readIp4?_eq_some_iff.mpr
        ⟨rfl, fun c hc => isDigit_of_digitValue?_eq_none (by decide) (hrest.1 c hc).1⟩
      rw [readGroups]
      dsimp only
      rw [if_neg (by omega), hseparator, Option.bind_some, hread]
  | @cons first ends digits cs g gs hg hgs ih =>
      obtain ⟨limit, rfl⟩ : ∃ more, limit = more + 1 := ⟨limit - 1, by
        rw [List.length_cons] at hlimit
        omega⟩
      -- A colon or the end of the run comes next, so the group is read to its end and is not taken
      -- for the first octet of an address.
      have hnext : ∀ c ∈ (cs ++ rest).head?, digitValue? 16 c = none ∧ c ≠ '.' := by
        intro c hc
        cases cs with
        | nil => exact hrest.1 c hc
        | cons d cs =>
            obtain rfl : d = c := Option.some_inj.mp hc
            obtain rfl := hgs.head d rfl
            decide
      have hseparator : readSeparator? ':' first (separator first ++ (digits ++ cs) ++ rest)
          = some (digits ++ (cs ++ rest)) := readSeparator?_eq_some_iff.mpr (by simp)
      have hread : readGroup? (digits ++ (cs ++ rest)) = some (g, cs ++ rest) :=
        readGroup?_eq_some_iff.mpr ⟨digits, rfl, hg, fun c hc => (hnext c hc).1⟩
      rw [readGroups]
      dsimp only
      rw [hseparator, Option.bind_some, Option.bind_some, readIp4?_of_group hg.1 hnext, ite_self,
        hread]
      dsimp only
      rw [ih (Nat.le_of_succ_le_succ hlimit)]

theorem eight?_eq_some_iff {v : Ip6} : eight? gs = some v ↔ gs = v.toList := by
  rw [eight?]
  constructor
  · intro h
    obtain ⟨hsize, heq⟩ := Option.dite_none_right_eq_some.mp h
    cases heq
    rfl
  · rintro rfl
    rw [dif_pos (by simp)]
    rfl

/-- What is read as an address of the sixth version is one. -/
theorem exists_isIp6_of_readIp6? {v : Ip6} (h : readIp6? cs = some (v, rest)) :
    ∃ text, cs = text ++ rest ∧ IsIp6 text v.toList := by
  rw [readIp6?] at h
  obtain ⟨gs, ends, afterGs, hgroups⟩ : ∃ gs ends after, readGroups 8 true cs = (gs, ends, after) :=
    ⟨_, _, _, rfl⟩
  obtain ⟨front, rfl, hfront, hlength⟩ := exists_run_of_readGroups hgroups
  rw [hgroups] at h
  dsimp only at h
  split at h
  · rename_i hfull
    obtain ⟨w, hw, hpair⟩ := Option.map_eq_some_iff.mp h
    cases hpair
    obtain rfl := eight?_eq_some_iff.mp hw
    exact ⟨front, rfl, .full hfront hfull⟩
  · rename_i hfull
    split at h
    · cases h
    · rename_i hends
      rw [Bool.not_eq_true] at hends
      subst hends
      split at h
      · cases h
      · rename_i afterColons hcolons
        obtain ⟨_, hfirst, hsecond⟩ := Option.bind_eq_some_iff.mp hcolons
        obtain rfl := readChar?_eq_some_iff.mp hfirst
        obtain rfl := readChar?_eq_some_iff.mp hsecond
        obtain ⟨hs, ends, afterHs, hgroups⟩ :
            ∃ hs ends after, readGroups (7 - gs.length) true afterColons = (hs, ends, after) :=
          ⟨_, _, _, rfl⟩
        obtain ⟨back, rfl, hback, hshort⟩ := exists_run_of_readGroups hgroups
        rw [hgroups] at h
        dsimp only at h
        obtain ⟨w, hw, hpair⟩ := Option.map_eq_some_iff.mp h
        cases hpair
        rw [← eight?_eq_some_iff.mp hw]
        exact ⟨front ++ ':' :: ':' :: back, by simp, .short hfront hback (by omega)⟩

/-- An address of the sixth version is read where no group can go on after it. -/
theorem IsIp6.readIp6? {text : List Char} {v : Ip6} (h : IsIp6 text v.toList)
    (hrest : EndsRun rest) : readIp6? (text ++ rest) = some (v, rest) := by
  generalize hv : v.toList = gs at h
  rw [IpAddress.readIp6?]
  cases h with
  | full hgs hlength =>
      rw [readGroups_of_run hgs (Nat.le_of_eq hlength) hrest]
      dsimp only
      rw [if_pos hlength, eight?_eq_some_iff.mpr hv.symm]
      rfl
  | @short front back gs hs ends hgs hhs hlength =>
      -- The second colon is no group, so the groups in front of the two colons end there.
      have hcolons : EndsRun (':' :: ':' :: (back ++ rest)) := by
        refine ⟨by rintro c ⟨⟩; decide, ?_⟩
        rintro tail ⟨⟩ c ⟨⟩
        rfl
      rw [List.append_assoc, List.cons_append, List.cons_append,
        readGroups_of_run hgs (by omega) hcolons]
      dsimp only
      rw [if_neg (by omega), if_neg (by decide)]
      have hskip : (readChar? ':' (':' :: ':' :: (back ++ rest))).bind (readChar? ':')
          = some (back ++ rest) := rfl
      rw [hskip]
      dsimp only
      rw [readGroups_of_run hhs (by omega) hrest]
      dsimp only
      rw [eight?_eq_some_iff.mpr hv.symm]
      rfl

end SixthVersion

end IpAddress

/-! ## Socket addresses -/

namespace SocketAddress

open IpAddress Text

/-- Characters are the scope of an address. Without any the scope is zero. -/
inductive IsScope : List Char → UInt32 → Prop
  | none : IsScope [] 0
  | some {digits : List Char} {scope : UInt32} :
      IsNumeral 10 digits scope.toNat → IsScope ('%' :: digits) scope

/-- Characters denote a socket address: an address, the one of the sixth version between brackets
    and with its scope, and the port after a colon. -/
inductive IsText : List Char → SocketAddress → Prop
  | v4 {ip : Ip4} {digits : List Char} {port : UInt16} :
      IsNumeral 10 digits port.toNat → IsText (ip4Text ip ++ ':' :: digits) (.v4 ip port)
  | v6 {groups : Ip6} {cs scopeText digits : List Char} {scope : UInt32} {port : UInt16} :
      IsIp6 cs groups.toList → IsScope scopeText scope → IsNumeral 10 digits port.toNat →
      IsText ('[' :: (cs ++ (scopeText ++ ']' :: ':' :: digits))) (.v6 groups scope port)

/-- A text denotes a socket address. -/
def Denotes (s : String) (address : SocketAddress) : Prop :=
  IsText s.toList address

variable {cs rest : List Char} {s : String} {address : SocketAddress}

theorem readPort?_eq_some_iff {port : UInt16} : readPort? cs = some port
    ↔ ∃ digits, cs = ':' :: digits ∧ IsNumeral 10 digits port.toNat := by
  rw [readPort?]
  constructor
  · intro h
    split at h
    · rename_i n hread
      cases h
      obtain ⟨_, hcolon, hnumber⟩ := Option.bind_eq_some_iff.mp hread
      obtain rfl := readChar?_eq_some_iff.mp hcolon
      obtain ⟨digits, rfl, hnumeral, hlt, -⟩ := readNumber?_eq_some_iff.mp hnumber
      have hn : (UInt16.ofNat n).toNat = n := UInt16.toNat_ofNat_of_lt hlt
      exact ⟨digits, by rw [List.append_nil], hn.symm ▸ hnumeral⟩
    · cases h
  · rintro ⟨digits, rfl, hnumeral⟩
    have hnumber : readNumber? 10 65536 digits = some (port.toNat, []) :=
      readNumber?_eq_some_iff.mpr
        ⟨digits, (List.append_nil _).symm, hnumeral, port.toNat_lt, by simp⟩
    have hread : (readChar? ':' (':' :: digits)).bind (readNumber? 10 65536)
        = some (port.toNat, []) := hnumber
    rw [hread]
    simp

/-- A scope is read in front of the bracket that comes after it. -/
theorem readScope?_eq_some_iff {scope : UInt32} :
    readScope? cs = some (scope, ']' :: rest)
      ↔ ∃ scopeText, cs = scopeText ++ ']' :: rest ∧ IsScope scopeText scope := by
  rw [readScope?]
  constructor
  · intro h
    split at h
    · rename_i tail hpercent
      obtain rfl := readChar?_eq_some_iff.mp hpercent
      obtain ⟨⟨n, tail'⟩, hnumber, hpair⟩ := Option.map_eq_some_iff.mp h
      cases hpair
      obtain ⟨digits, rfl, hnumeral, hlt, -⟩ := readNumber?_eq_some_iff.mp hnumber
      have hn : (UInt32.ofNat n).toNat = n := UInt32.toNat_ofNat_of_lt hlt
      exact ⟨'%' :: digits, rfl, .some (hn.symm ▸ hnumeral)⟩
    · cases h
      exact ⟨[], rfl, .none⟩
  · rintro ⟨scopeText, rfl, hscope⟩
    cases hscope with
    | none => rfl
    | @some digits _ hnumeral =>
        have hnumber : readNumber? 10 4294967296 (digits ++ ']' :: rest)
            = some (scope.toNat, ']' :: rest) :=
          readNumber?_eq_some_iff.mpr
            ⟨digits, rfl, hnumeral, scope.toNat_lt, by rintro c ⟨⟩; rfl⟩
        have hpercent : readChar? '%' ('%' :: digits ++ ']' :: rest)
            = some (digits ++ ']' :: rest) := rfl
        rw [hpercent]
        dsimp only
        rw [hnumber]
        simp

/-- No group can go on where a scope and a bracket come. -/
theorem IsScope.endsRun {scopeText : List Char} {scope : UInt32} (h : IsScope scopeText scope) :
    EndsRun (scopeText ++ ']' :: rest) := by
  cases h with
  | none => exact ⟨by rintro c ⟨⟩; decide, nofun⟩
  | some _ => exact ⟨by rintro c ⟨⟩; decide, nofun⟩

/-- The texts that are read as a socket address are those that denote it. -/
theorem ofText?_eq_some_iff : ofText? s = some address ↔ Denotes s address := by
  rw [ofText?, Denotes]
  generalize s.toList = cs
  constructor
  · intro h
    split at h
    · rename_i ip rest hip
      obtain ⟨port, hport, rfl⟩ := Option.map_eq_some_iff.mp h
      obtain ⟨rfl, -⟩ := readIp4?_eq_some_iff.mp hip
      obtain ⟨digits, rfl, hdigits⟩ := readPort?_eq_some_iff.mp hport
      exact .v4 hdigits
    · split at h
      · cases h
      · rename_i groups afterGroups hgroups
        split at h
        · cases h
        · rename_i scope afterScope hscope
          obtain ⟨_, hopen, hread⟩ := Option.bind_eq_some_iff.mp hgroups
          obtain rfl := readChar?_eq_some_iff.mp hopen
          obtain ⟨text, rfl, htext⟩ := exists_isIp6_of_readIp6? hread
          obtain ⟨port, hclose, rfl⟩ := Option.map_eq_some_iff.mp h
          obtain ⟨_, hbracket, hport⟩ := Option.bind_eq_some_iff.mp hclose
          obtain rfl := readChar?_eq_some_iff.mp hbracket
          obtain ⟨digits, rfl, hdigits⟩ := readPort?_eq_some_iff.mp hport
          obtain ⟨scopeText, rfl, hscopeText⟩ := readScope?_eq_some_iff.mp hscope
          exact .v6 htext hscopeText hdigits
  · intro h
    cases h with
    | @v4 ip digits port hdigits =>
        have hip : readIp4? (ip4Text ip ++ ':' :: digits) = some (ip, ':' :: digits) :=
          readIp4?_eq_some_iff.mpr ⟨rfl, by rintro c ⟨⟩; rfl⟩
        rw [hip]
        dsimp only
        rw [readPort?_eq_some_iff.mpr ⟨digits, rfl, hdigits⟩]
        rfl
    | @v6 groups cs scopeText digits scope port hcs hscope hdigits =>
        have hgroups : (readChar? '[' ('[' :: (cs ++ (scopeText ++ ']' :: ':' :: digits)))).bind
            readIp6? = some (groups, scopeText ++ ']' :: ':' :: digits) :=
          hcs.readIp6? hscope.endsRun
        have hclose : (readChar? ']' (']' :: ':' :: digits)).bind readPort? = some port :=
          readPort?_eq_some_iff.mpr ⟨digits, rfl, hdigits⟩
        rw [readIp4?_of_head (by rintro c ⟨⟩; rfl), hgroups]
        dsimp only
        rw [readScope?_eq_some_iff.mpr ⟨scopeText, rfl, hscope⟩]
        dsimp only
        rw [hclose]
        rfl

example : ofText? "[64:ff9b::1.2.3.4]:0443"
    = some (.v6 ⟨#[0x64, 0xff9b, 0, 0, 0, 0, 0x102, 0x304], rfl⟩ 0 443) := by decide +kernel

end SocketAddress

end MachineDriver
