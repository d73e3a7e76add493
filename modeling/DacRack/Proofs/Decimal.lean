import DacRack.Reply
import Mathlib.Algebra.Group.Int.Defs
import Mathlib.Algebra.Group.Nat.Defs

/-!
# Decimal integers read back

What is written as a decimal integer reads back as the same integer, and takes no
more characters than its size allows. The digits themselves are core's, so most of
this is their theory (`Nat.ofDigitChars_ten_toDigits`) brought to the two functions
here: `foldDigits` is `Nat.ofDigitChars` with the digits last.
-/

namespace DacRack.Text

theorem fitsInt64_iff {n : Int} : fitsInt64 n = true ↔ -2 ^ 63 ≤ n ∧ n < 2 ^ 63 := by
  have hmin : Int64.minValue.toInt = -2 ^ 63 := by decide
  have hmax : Int64.maxValue.toInt = 2 ^ 63 - 1 := by decide
  rw [fitsInt64, Bool.and_eq_true, decide_eq_true_eq, decide_eq_true_eq, hmin, hmax]
  omega

theorem foldDigits_eq (before : Nat) (digits : List Char) :
    foldDigits before digits = Nat.ofDigitChars 10 digits before := by
  rw [foldDigits, Nat.ofDigitChars_eq_foldl]
  rfl

theorem isDigit_of_mem_natDigits {n : Nat} {c : Char} (h : c ∈ natDigits n) :
    c.isDigit = true :=
  Nat.isDigit_of_mem_toDigits (by omega) (by omega) h

theorem natDigits_ne_nil (n : Nat) : natDigits n ≠ [] := Nat.toDigits_ne_nil

theorem readNat?_natDigits (n : Nat) : readNat? (natDigits n) = some n := by
  have hall : (natDigits n).all Char.isDigit = true := by
    rw [List.all_eq_true]
    intro c hc
    exact isDigit_of_mem_natDigits hc
  rw [readNat?, if_pos ⟨natDigits_ne_nil n, hall⟩, foldDigits_eq]
  exact congrArg some Nat.ofDigitChars_ten_toDigits

/-- A number that starts with a digit is read without a sign. -/
theorem readInt?_of_isDigit {c : Char} {text : List Char} (h : c.isDigit = true) :
    readInt? (c :: text) = (readNat? (c :: text)).map fun n => (n : Int) := by
  unfold readInt?
  split
  · next heq =>
      cases heq
      cases h
  · next heq =>
      cases heq
      cases h
  · rfl

theorem readInt?_natDigits (n : Nat) : readInt? (natDigits n) = some (n : Int) := by
  have hread := readNat?_natDigits n
  cases hn : natDigits n with
  | nil => exact absurd hn (natDigits_ne_nil n)
  | cons c text =>
      have hc : c ∈ natDigits n := by rw [hn]; exact List.mem_cons_self
      rw [hn] at hread
      rw [readInt?_of_isDigit (isDigit_of_mem_natDigits hc), hread]
      rfl

theorem intDigits_natCast (n : Nat) : intDigits (n : Int) = natDigits n := rfl

theorem readInt?_intDigits (n : Int) : readInt? (intDigits n) = some n := by
  cases n with
  | ofNat n => exact readInt?_natDigits n
  | negSucc n =>
      rw [intDigits, readInt?, readNat?_natDigits]
      rfl

/-- What a decimal integer is written with. -/
theorem mem_intDigits {n : Int} {c : Char} (h : c ∈ intDigits n) :
    c = '-' ∨ c.isDigit = true := by
  cases n with
  | ofNat n => exact .inr (isDigit_of_mem_natDigits h)
  | negSucc n =>
      rcases List.mem_cons.mp h with rfl | h
      · exact .inl rfl
      · exact .inr (isDigit_of_mem_natDigits h)

theorem length_natDigits_le {n k : Nat} (hk : 0 < k) (h : n < 10 ^ k) :
    (natDigits n).length ≤ k :=
  (Nat.length_toDigits_le_iff (by omega) hk).mpr h

theorem length_intDigits_le {n : Int} {k : Nat} (hk : 0 < k) (h : n.natAbs < 10 ^ k) :
    (intDigits n).length ≤ k + 1 := by
  cases n with
  | ofNat n =>
      have hle : (natDigits n).length ≤ k := length_natDigits_le hk h
      show (natDigits n).length ≤ k + 1
      omega
  | negSucc n =>
      have hle : (natDigits (n + 1)).length ≤ k := length_natDigits_le hk h
      show (natDigits (n + 1)).length + 1 ≤ k + 1
      omega

/-! A decimal integer has no white space in it. -/

theorem isBlank_of_isDigit {c : Char} (h : c.isDigit = true) : isBlank c = false := by
  have hn : 48 ≤ c.toNat ∧ c.toNat ≤ 57 := by
    rw [Char.isDigit, Bool.and_eq_true, decide_eq_true_eq, decide_eq_true_eq] at h
    exact ⟨h.1, h.2⟩
  simp only [isBlank]
  simp
  omega

end DacRack.Text
