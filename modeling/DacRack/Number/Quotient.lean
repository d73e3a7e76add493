/-!
# Rounded quotients

`divRound` is the quotient of two natural numbers rounded to the nearest whole
number. It answers for its own rounding: twice the distance between the exact
quotient and the answer never exceeds the divisor (`divRound_le`, `le_divRound`),
and which way an exact half goes is the caller's choice.
-/

namespace DacRack.Number

/-- Which neighbour an exact half is rounded to. -/
inductive Tie where
  /-- The larger one, which is away from zero for a magnitude. -/
  | away
  /-- The even one. -/
  | even

/-- `numerator / divisor`, rounded to nearest. -/
def divRound (tie : Tie) (numerator divisor : Nat) : Nat :=
  let below := numerator / divisor
  let rest := numerator % divisor
  if 2 * rest < divisor then below
  else if divisor < 2 * rest then below + 1
  else match tie with
    | .away => below + 1
    | .even => below + below % 2

theorem divRound_eq_or (tie : Tie) (n d : Nat) :
    (divRound tie n d = n / d ∧ 2 * (n % d) ≤ d) ∨
      (divRound tie n d = n / d + 1 ∧ d ≤ 2 * (n % d)) := by
  unfold divRound
  simp only []
  split
  · left; constructor <;> omega
  · split
    · right; constructor <;> omega
    · cases tie with
      | away => right; exact ⟨rfl, by omega⟩
      | even =>
        rcases Nat.mod_two_eq_zero_or_one (n / d) with h | h
        · left; exact ⟨by simp only [h]; omega, by omega⟩
        · right; exact ⟨by simp only [h], by omega⟩

/-- The answer is at most half a unit above the exact quotient. -/
theorem divRound_le (tie : Tie) (n d : Nat) : 2 * (divRound tie n d * d) ≤ 2 * n + d := by
  have hdiv := Nat.div_add_mod n d
  rw [Nat.mul_comm] at hdiv
  rcases divRound_eq_or tie n d with ⟨h, hr⟩ | ⟨h, hr⟩
  · rw [h]; omega
  · rw [h, Nat.add_mul]; omega

/-- The answer is at most half a unit below the exact quotient. -/
theorem le_divRound (tie : Tie) (n : Nat) {d : Nat} (hd : 0 < d) :
    2 * n ≤ 2 * (divRound tie n d * d) + d := by
  have hdiv := Nat.div_add_mod n d
  rw [Nat.mul_comm] at hdiv
  rcases divRound_eq_or tie n d with ⟨h, hr⟩ | ⟨h, hr⟩
  · rw [h]; omega
  · have := Nat.mod_lt n hd
    rw [h, Nat.add_mul]; omega

end DacRack.Number
