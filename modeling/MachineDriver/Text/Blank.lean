set_option autoImplicit false

/-!
# Blank characters

The white space of Unicode's `White_Space` property, and the texts left when it is taken off the
ends. `isBlankText_iff` says that a text is blank exactly when nothing is left of it.
-/

namespace MachineDriver.Text

/-- The characters with Unicode's `White_Space` property. -/
def isBlank (c : Char) : Bool :=
  let n := c.toNat
  (9 ≤ n && n ≤ 13) || n == 0x20 || n == 0x85 || n == 0xA0 || n == 0x1680
    || (0x2000 ≤ n && n ≤ 0x200A) || n == 0x2028 || n == 0x2029 || n == 0x202F || n == 0x205F
    || n == 0x3000

/-- The characters from the first that is not blank. -/
def trimStartChars (cs : List Char) : List Char :=
  cs.dropWhile isBlank

/-- The characters up to the last that is not blank. -/
def trimEndChars (cs : List Char) : List Char :=
  (cs.reverse.dropWhile isBlank).reverse

/-- The characters between the first and the last that are not blank. -/
def trimChars (cs : List Char) : List Char :=
  trimEndChars (trimStartChars cs)

/-- A text without the blanks at its ends. -/
def trim (s : String) : String :=
  String.ofList (trimChars s.toList)

/-- Whether a text holds nothing but blanks. -/
def isBlankText (s : String) : Bool :=
  s.toList.all isBlank

/-! ## What trimming leaves -/

theorem all_trimStartChars (cs : List Char) :
    (trimStartChars cs).all isBlank = cs.all isBlank := by
  induction cs with
  | nil => rfl
  | cons c cs ih =>
    by_cases h : isBlank c = true
    · rw [trimStartChars, List.dropWhile_cons_of_pos h, List.all_cons, h]
      exact ih
    · rw [trimStartChars, List.dropWhile_cons_of_neg h]

theorem trimStartChars_eq_nil_iff (cs : List Char) :
    trimStartChars cs = [] ↔ cs.all isBlank = true := by
  induction cs with
  | nil => exact ⟨fun _ => rfl, fun _ => rfl⟩
  | cons c cs ih =>
    by_cases h : isBlank c = true
    · rw [trimStartChars, List.dropWhile_cons_of_pos h, List.all_cons, h]
      exact ih
    · rw [trimStartChars, List.dropWhile_cons_of_neg h, List.all_cons]
      exact ⟨fun hnil => absurd hnil (List.cons_ne_nil c cs),
        fun hall => absurd (Bool.and_eq_true_iff.1 hall).1 h⟩

theorem trimChars_eq_nil_iff (cs : List Char) : trimChars cs = [] ↔ cs.all isBlank = true := by
  have h := trimStartChars_eq_nil_iff (trimStartChars cs).reverse
  rw [List.all_reverse, all_trimStartChars] at h
  rw [← h, trimChars, trimEndChars, List.reverse_eq_nil_iff]
  rfl

theorem isBlankText_iff (s : String) : isBlankText s = true ↔ trim s = "" := by
  rw [isBlankText, ← trimChars_eq_nil_iff, trim]
  exact ⟨fun h => by simp [h], fun h => by simpa using congrArg String.toList h⟩

end MachineDriver.Text
