import Mathlib.Tactic.Ring
import Mathlib.Tactic.Positivity

/-! Signed numbers in words of a number of bytes. -/

namespace TwosComplement

/-- The signed number that a word stands for. -/
def value (width word : Nat) : Int :=
  if 2 * word < 256 ^ width then word else (word : Int) - 256 ^ width

/-- The word that stands for a number. -/
def word (width : Nat) (number : Int) : Nat := (number % 256 ^ width).toNat

/-- The numbers that a word of this width can stand for. -/
def Fits (width : Nat) (number : Int) : Prop :=
  -(256 ^ width : Int) ≤ 2 * number ∧ 2 * number < 256 ^ width

theorem word_cast (width : Nat) (number : Int) :
    (word width number : Int) = number % 256 ^ width := by
  rw [word, Int.toNat_of_nonneg (Int.emod_nonneg number (by positivity))]

theorem word_lt (width : Nat) (number : Int) : word width number < 256 ^ width := by
  have less : number % 256 ^ width < 256 ^ width := Int.emod_lt_of_pos number (by positivity)
  rw [← word_cast] at less
  exact_mod_cast less

theorem word_of_nonneg {width : Nat} {number : Int} (fits : Fits width number)
    (nonneg : 0 ≤ number) : (word width number : Int) = number := by
  have less := fits.2
  rw [word_cast, Int.emod_eq_of_lt nonneg (by omega)]

theorem word_of_neg {width : Nat} {number : Int} (fits : Fits width number)
    (neg : number < 0) : (word width number : Int) = number + 256 ^ width := by
  have least := fits.1
  rw [word_cast, ← Int.add_emod_right, Int.emod_eq_of_lt (by omega) (by omega)]

theorem value_word {width : Nat} {number : Int} (fits : Fits width number) :
    value width (word width number) = number := by
  have small : (2 * word width number < 256 ^ width) ↔
      2 * (word width number : Int) < 256 ^ width := by exact_mod_cast Iff.rfl
  have least := fits.1
  have most := fits.2
  unfold value
  by_cases sign : 0 ≤ number
  · have same := word_of_nonneg fits sign
    rw [if_pos (by rw [small]; omega), same]
  · have same := word_of_neg fits (by omega)
    rw [if_neg (by rw [small]; omega), same]
    omega

theorem value_le (width word : Nat) : value width word ≤ word := by
  have nonneg : (0 : Int) ≤ 256 ^ width := by positivity
  unfold value
  split <;> omega

theorem value_shift (width low word : Nat) :
    value (width + low) (256 ^ low * word) = 256 ^ low * value width word := by
  have pos : 0 < 256 ^ low := by positivity
  have scaled : 2 * (256 ^ low * word) < 256 ^ (width + low) ↔ 2 * word < 256 ^ width := by
    rw [Nat.pow_add, Nat.mul_comm (256 ^ width), ← Nat.mul_assoc, Nat.mul_comm 2, Nat.mul_assoc]
    exact Nat.mul_lt_mul_left pos
  unfold value
  by_cases sign : 2 * word < 256 ^ width
  · rw [if_pos (scaled.mpr sign), if_pos sign]
    push_cast
    rfl
  · rw [if_neg (mt scaled.mp sign), if_neg sign]
    push_cast
    ring

theorem dvd_word {width low : Nat} (inside : low ≤ width) (number : Int) :
    256 ^ low ∣ word width number ↔ (256 ^ low : Int) ∣ number := by
  have scale : (256 ^ low : Int) ∣ 256 ^ width := pow_dvd_pow 256 inside
  rw [← Int.natCast_dvd_natCast, word_cast]
  push_cast
  rw [Int.emod_def]
  exact dvd_sub_left (Dvd.dvd.mul_right scale _)

end TwosComplement
