import Mathlib.Algebra.Order.Ring.Int
import Runnerd.RunnerState

/-!
Decimal numerals of 64 bits. `strconv.Atoi` reads the numbers that
`strconv.ParseInt` reads, and what `Itoa` writes is read back.
-/

namespace Runnerd

open GoText

/-- `strconv.ParseInt` in base ten for 64 bits. -/
def parseInt64 (text : String) : Option Int :=
  let parse (sign : Int) (digits : List Char) : Option Int :=
    if digits = [] ∨ digits.all Char.isDigit = false then none
    else
      let value := sign * Nat.ofDigitChars 10 digits 0
      if -2 ^ 63 ≤ value ∧ value < 2 ^ 63 then some value else none
  match text.toList with
  | '-' :: digits => parse (-1) digits
  | '+' :: digits => parse 1 digits
  | digits => parse 1 digits

theorem parseInt64_range {text : String} {value : Int} (parsed : parseInt64 text = some value) :
    -2 ^ 63 ≤ value ∧ value < 2 ^ 63 := by
  have branch (sign : Int) (digits : List Char) (read : (if digits = [] ∨
      digits.all Char.isDigit = false then none
      else if -2 ^ 63 ≤ sign * Nat.ofDigitChars 10 digits 0 ∧
          sign * Nat.ofDigitChars 10 digits 0 < 2 ^ 63 then
        some (sign * Nat.ofDigitChars 10 digits 0 : Int) else none) = some value) :
      -2 ^ 63 ≤ value ∧ value < 2 ^ 63 := by
    split at read
    · cases read
    · split at read
      · rename_i fits
        cases read
        exact fits
      · cases read
  unfold parseInt64 at parsed
  dsimp only at parsed
  split at parsed
  · exact branch (-1) _ parsed
  · exact branch 1 _ parsed
  · exact branch 1 _ parsed

theorem toDigits_digits (m : Nat) : (Nat.toDigits 10 m).all Char.isDigit = true := by
  rw [List.all_eq_true]
  exact fun rune member => Nat.isDigit_of_mem_toDigits (by decide) (by decide) member

theorem parseInt64_toString {value : Int} (low : -2 ^ 63 ≤ value) (high : value < 2 ^ 63) :
    parseInt64 (toString value) = some value := by
  rw [Int.toString_eq_repr]
  cases value with
  | ofNat m =>
      have digits : (Int.repr (Int.ofNat m)).toList = Nat.toDigits 10 m := Nat.toList_repr
      have all := toDigits_digits m
      unfold parseInt64
      dsimp only
      rw [digits]
      -- a digit is not a sign
      split
      · rename_i rest shape
        rw [shape] at all
        exact absurd all (by simp [Char.isDigit])
      · rename_i rest shape
        rw [shape] at all
        exact absurd all (by simp [Char.isDigit])
      · rw [if_neg (by simp [all, Nat.toDigits_ne_nil]), Nat.ofDigitChars_ten_toDigits]
        simp only [one_mul]
        exact if_pos ⟨low, high⟩
  | negSucc m =>
      have digits : (Int.repr (Int.negSucc m)).toList = '-' :: Nat.toDigits 10 (m + 1) := by
        simp [Int.repr, String.toList_append, Nat.toList_repr]
      have all := toDigits_digits (m + 1)
      unfold parseInt64
      rw [digits]
      have digits_ : ¬(Nat.toDigits 10 (m + 1) = [] ∨
          (Nat.toDigits 10 (m + 1)).all Char.isDigit = false) := by
        simp [all, Nat.toDigits_ne_nil]
      refine (if_neg digits_).trans ?_
      rw [Nat.ofDigitChars_ten_toDigits]
      have negated : (-1 : Int) * ((m + 1 : Nat) : Int) = Int.negSucc m := by
        rw [Int.negSucc_eq]
        omega
      rw [negated]
      exact if_pos ⟨low, high⟩

theorem trimSpace_toString (value : Int) : trimSpace (toString value) = toString value := by
  have trimmed : Trimmed (toString value).toList :=
    ⟨fun rune head => (int_runes value rune (List.mem_of_mem_head? head)).1,
      fun rune last => (int_runes value rune (List.mem_of_getLast? last)).1⟩
  rw [trimSpace, trimRunes_of_trimmed _ trimmed, String.ofList_toList]

theorem toString_nonempty (value : Int) : toString value ≠ "" := by
  intro empty
  have runes := congrArg String.toList empty
  rw [Int.toString_eq_repr] at runes
  cases value with
  | ofNat m => exact Nat.toDigits_ne_nil (Nat.toList_repr.symm.trans runes)
  | negSucc m => simp [Int.repr, String.toList_append] at runes

end Runnerd
