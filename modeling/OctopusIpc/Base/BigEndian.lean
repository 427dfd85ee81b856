import Mathlib.Init

/-!
# Big-endian byte pairs

A 16-bit word split into its high and low byte, and joined back. The split is
written with shift and mask, the join with shift and bitwise or, as byte-oriented
protocols do; both directions are inverse to each other.
-/

namespace BigEndian

/-- Join two bytes into a word, the first byte being the more significant one. -/
def join (high low : UInt8) : UInt16 := (high.toUInt16 <<< 8) ||| low.toUInt16

/-- The more significant byte of a word. -/
def high (word : UInt16) : UInt8 := (word >>> 8).toUInt8

/-- The less significant byte of a word. -/
def low (word : UInt16) : UInt8 := (word &&& 0xFF).toUInt8

/-- The numeric value of a joined pair. -/
theorem toNat_join (a b : UInt8) : (join a b).toNat = 256 * a.toNat + b.toNat := by
  have ha : a.toNat < 256 := a.toNat_lt
  have hb : b.toNat < 256 := b.toNat_lt
  have hs : (a.toUInt16 <<< 8).toNat = a.toNat <<< 8 := by
    rw [UInt16.toNat_shiftLeft, UInt8.toNat_toUInt16]
    change a.toNat <<< 8 % 2 ^ 16 = a.toNat <<< 8
    rw [Nat.mod_eq_of_lt]
    rw [Nat.shiftLeft_eq]
    omega
  rw [join, UInt16.toNat_or, hs, UInt8.toNat_toUInt16,
    ← Nat.shiftLeft_add_eq_or_of_lt (by simpa using hb), Nat.shiftLeft_eq]
  omega

/-- The numeric value of the high byte. -/
theorem toNat_high (w : UInt16) : (high w).toNat = w.toNat / 256 := by
  have hw : w.toNat < 65536 := w.toNat_lt
  rw [high, UInt16.toNat_toUInt8, UInt16.toNat_shiftRight]
  change w.toNat >>> 8 % 2 ^ 8 = w.toNat / 256
  rw [Nat.shiftRight_eq_div_pow]
  omega

/-- The numeric value of the low byte. -/
theorem toNat_low (w : UInt16) : (low w).toNat = w.toNat % 256 := by
  rw [low, UInt16.toNat_toUInt8, UInt16.toNat_and]
  change (w.toNat &&& 2 ^ 8 - 1) % 2 ^ 8 = w.toNat % 256
  rw [Nat.and_two_pow_sub_one_eq_mod]
  omega

/-- Splitting and joining a word gives the word back. -/
@[simp] theorem join_high_low (w : UInt16) : join (high w) (low w) = w := by
  apply UInt16.toNat_inj.mp
  rw [toNat_join, toNat_high, toNat_low]
  omega

/-- The high byte of a joined pair is its first byte. -/
@[simp] theorem high_join (a b : UInt8) : high (join a b) = a := by
  have hb : b.toNat < 256 := b.toNat_lt
  apply UInt8.toNat_inj.mp
  rw [toNat_high, toNat_join]
  omega

/-- The low byte of a joined pair is its second byte. -/
@[simp] theorem low_join (a b : UInt8) : low (join a b) = b := by
  have hb : b.toNat < 256 := b.toNat_lt
  apply UInt8.toNat_inj.mp
  rw [toNat_low, toNat_join]
  omega

/-- A joined pair determines both bytes. -/
theorem join_eq_iff (a b : UInt8) (w : UInt16) : join a b = w ↔ a = high w ∧ b = low w := by
  constructor
  · rintro rfl
    exact ⟨(high_join a b).symm, (low_join a b).symm⟩
  · rintro ⟨rfl, rfl⟩
    exact join_high_low w

end BigEndian
