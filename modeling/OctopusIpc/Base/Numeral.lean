import Mathlib.Algebra.Group.Nat.Defs
import Mathlib.Algebra.Order.Ring.Int
import Mathlib.Data.List.TakeWhile
import Mathlib.Data.Nat.Basic

/-!
# Numerals at the start of a text

The number that a text begins with, as the conversion functions of the C library find it:
white space, an optional sign, and as many decimal digits as follow. What comes behind the
digits is not looked at. Conversion to a machine integer negates in the type of the result
and fails when the digits are out of its range.
-/

namespace OctopusIpc.Numeral

/-- White space of the C locale. -/
def isSpace (b : UInt8) : Bool := b == 32 || decide (9 ≤ b) && decide (b ≤ 13)

/-- A decimal digit. -/
def isDigit (b : UInt8) : Bool := decide (48 ≤ b) && decide (b ≤ 57)

/-- What a digit stands for. -/
def digitValue (b : UInt8) : Nat := b.toNat - 48

/-- What a row of digits stands for. -/
def value (digits : List UInt8) : Nat := digits.foldl (fun n b ↦ 10 * n + digitValue b) 0

/-- A sign and a number. -/
structure Signed where
  negative : Bool
  magnitude : Nat
  deriving DecidableEq, Repr

/-- The digits at the start, of which there has to be one. -/
def scanDigits (text : List UInt8) : Option Nat :=
  if (text.takeWhile isDigit).isEmpty then none else some (value (text.takeWhile isDigit))

/-- The sign, if there is one, and the digits. -/
def scanSign : List UInt8 → Option Signed
  | 45 :: text => (scanDigits text).map (Signed.mk true)
  | 43 :: text => (scanDigits text).map (Signed.mk false)
  | text => (scanDigits text).map (Signed.mk false)

/-- The number at the start of a text. -/
def scan (text : List UInt8) : Option Signed := scanSign (text.dropWhile isSpace)

/-- The text is a row of digits and nothing else, and stands for this number. -/
def IsNumeral (text : List UInt8) (n : Nat) : Prop :=
  text ≠ [] ∧ (∀ b ∈ text, isDigit b = true) ∧ value text = n

instance (text : List UInt8) (n : Nat) : Decidable (IsNumeral text n) :=
  have : Decidable (∀ b ∈ text, isDigit b = true) := List.decidableBAll _ text
  inferInstanceAs (Decidable (_ ∧ _ ∧ _))

variable {text : List UInt8} {n : Nat} {b : UInt8}

/-- A text is the numeral of one number at most. -/
theorem IsNumeral.unique {n' : Nat} (h : IsNumeral text n) (h' : IsNumeral text n') : n = n' :=
  h.2.2.symm.trans h'.2.2

/-- A digit is no white space. -/
theorem isSpace_of_isDigit (h : isDigit b = true) : isSpace b = false := by
  simp only [isDigit, Bool.and_eq_true, decide_eq_true_eq, UInt8.le_iff_toNat_le] at h
  have hlow : (48 : UInt8).toNat = 48 := rfl
  have hspace : b ≠ 32 := by
    rintro rfl
    exact absurd h.1 (by decide)
  have htab : ¬ b ≤ 13 := by
    rw [UInt8.le_iff_toNat_le]
    have hhigh : (13 : UInt8).toNat = 13 := rfl
    omega
  simp [isSpace, hspace, htab]

/-- A digit at the start is no sign. -/
theorem scanSign_of_isDigit (h : isDigit b = true) (text : List UInt8) :
    scanSign (b :: text) = (scanDigits (b :: text)).map (Signed.mk false) := by
  unfold scanSign
  split
  · next heq =>
    cases heq
    cases h
  · next heq =>
    cases heq
    cases h
  · rfl

/-- All of a numeral is scanned. -/
theorem IsNumeral.scan (h : IsNumeral text n) : scan text = some ⟨false, n⟩ := by
  obtain ⟨hne, hdigits, rfl⟩ := h
  have htake : text.takeWhile isDigit = text := List.takeWhile_eq_self_iff.mpr hdigits
  have hscan : scanDigits text = some (value text) := by
    rw [scanDigits, htake]
    exact if_neg fun hempty ↦ hne (List.isEmpty_iff.mp hempty)
  cases text with
  | nil => exact absurd rfl hne
  | cons b text =>
    have hb : isDigit b = true := hdigits b List.mem_cons_self
    have hdrop : (b :: text).dropWhile isSpace = b :: text :=
      List.dropWhile_cons_of_neg (by rw [isSpace_of_isDigit hb]; exact Bool.false_ne_true)
    rw [Numeral.scan, hdrop, scanSign_of_isDigit hb, hscan]
    rfl

/-! ### Machine integers -/

/-- The unsigned integer of this many bits, a negative number being negated in that type. -/
def Signed.toUnsigned (bits : Nat) (s : Signed) : Option Nat :=
  if s.magnitude < 2 ^ bits then
    some (if s.negative then (2 ^ bits - s.magnitude) % 2 ^ bits else s.magnitude)
  else none

/-- The number. -/
def Signed.toInt (s : Signed) : Int := if s.negative then -s.magnitude else s.magnitude

/-- The signed integer of this many bits. -/
def Signed.toSigned (bits : Nat) (s : Signed) : Option Int :=
  if -2 ^ (bits - 1) ≤ s.toInt ∧ s.toInt < 2 ^ (bits - 1) then some s.toInt else none

/-- Out of range are the texts with too many digits. -/
theorem toUnsigned_eq_none_iff {bits : Nat} {s : Signed} :
    s.toUnsigned bits = none ↔ 2 ^ bits ≤ s.magnitude := by
  rw [Signed.toUnsigned]
  split
  · next h => exact iff_of_false nofun (Nat.not_le.mpr h)
  · next h => exact iff_of_true rfl (Nat.not_lt.mp h)

/-- Negation in the type keeps what divides the number and the size of the type. -/
theorem toUnsigned_mod_eq_zero_iff {bits d v : Nat} {s : Signed} (hd : d ∣ 2 ^ bits)
    (h : s.toUnsigned bits = some v) : v % d = 0 ↔ s.magnitude % d = 0 := by
  simp only [Signed.toUnsigned, Option.ite_none_right_eq_some, Option.some.injEq] at h
  obtain ⟨hlt, rfl⟩ := h
  rw [← Nat.dvd_iff_mod_eq_zero, ← Nat.dvd_iff_mod_eq_zero]
  split
  · rw [Nat.dvd_mod_iff hd, Nat.dvd_sub_iff_right (Nat.le_of_lt hlt) hd]
  · rfl

/-- White space and a sign are passed over, and what follows the digits. -/
example : scan [32, 45, 49, 50, 97] = some ⟨true, 12⟩ := by decide

end OctopusIpc.Numeral
