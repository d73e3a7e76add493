import DacRack.Wait
import Mathlib.Algebra.Group.Nat.Defs

/-!
# When a wait is over

A deadline is a reading of the clock plus the timeout, and both the sum and the order of two
readings go round with the clock (`Instant.isAfter_add_iff`). A wait that was started a while
ago is late if that while is longer than the timeout, but only as long as the two are less than
half a round apart. A timeout that is longer by half a round or more has its deadline behind the
very reading it was made from, and such a wait is over at once; a while that is longer by as much
is not seen to be longer.

So a wait gives up after its timeout and not before it just where the timeout and the while are
within half a round of each other (`Wait.tick_timedOut_iff`), which in microseconds is some
292,000 years. The longest timeout there is does the opposite of waiting long (`tick_hasty`).
-/

namespace DacRack

variable {κ : Type} [Clock κ]

namespace Instant

theorem isAfter_iff (a b : Instant) :
    a.isAfter b = true ↔ a ≠ b ∧ (a - b).toNat < 2 ^ 63 - 1 := by
  unfold isAfter
  rw [Bool.and_eq_true, bne_iff_ne, decide_eq_true_eq, UInt64.lt_iff_toNat_lt]
  rfl

theorem isAfter_add_iff (start waited timeout : UInt64) :
    isAfter (start + waited) (start + timeout) = true ↔
      (timeout.toNat < waited.toNat ∧ waited.toNat < timeout.toNat + (2 ^ 63 - 1)) ∨
        waited.toNat + (2 ^ 63 + 1) < timeout.toNat := by
  have hwaited := waited.toNat_lt
  have htimeout := timeout.toNat_lt
  rw [isAfter_iff, ne_eq, ← UInt64.toNat_inj, UInt64.toNat_sub, UInt64.toNat_add,
    UInt64.toNat_add]
  omega

end Instant

namespace Wait

variable {patience : Patience} {timeout : UInt64} {wait : Wait} {stop : Bool}

theorem start_of_timeout (h : patience.timeout = some timeout) (clock : κ) :
    start patience clock =
      (⟨patience, some ((Clock.now clock).1 + timeout)⟩, (Clock.now clock).2) := by
  unfold start
  rw [h]

theorem tick_of_deadline {deadline : Instant} (h : wait.deadline = some deadline)
    (hstop : (wait.patience.cancel.isSome && stop) = false) (clock : κ) :
    wait.tick stop clock =
      if (Clock.now clock).1.isAfter deadline then (some .timedOut, (Clock.now clock).2)
      else (none, wait.pause (Clock.now clock).2) := by
  unfold tick isLate
  rw [hstop, h]
  simp only []
  cases (Clock.now clock).1.isAfter deadline <;> rfl

/-- A wait that no stop ends gives up, or goes on, by how long it lasts. What its timeout says
is what happens unless the two are half a round of the clock apart. -/
theorem tick_timedOut_iff (htimeout : patience.timeout = some timeout)
    (hstop : (patience.cancel.isSome && stop) = false) (started later : κ)
    (horder : (Clock.now started).1 ≤ (Clock.now later).1) :
    let waited := (Clock.now later).1.toNat - (Clock.now started).1.toNat
    let outcome := ((start patience started).1.tick stop later).1
    outcome = (if (timeout.toNat < waited ∧ waited < timeout.toNat + (2 ^ 63 - 1)) ∨
        waited + (2 ^ 63 + 1) < timeout.toNat then some .timedOut else none) ∧
      ((outcome = some .timedOut ↔ timeout.toNat < waited) ↔
        timeout.toNat ≤ waited + (2 ^ 63 + 1) ∧ waited < timeout.toNat + (2 ^ 63 - 1)) := by
  intro waited outcome
  have hwaited : waited = ((Clock.now later).1 - (Clock.now started).1).toNat :=
    (UInt64.toNat_sub_of_le _ _ horder).symm
  have hlate := Instant.isAfter_add_iff (Clock.now started).1
    ((Clock.now later).1 - (Clock.now started).1) timeout
  rw [UInt64.add_comm, UInt64.sub_add_cancel, ← hwaited] at hlate
  have houtcome : outcome = if (timeout.toNat < waited ∧ waited < timeout.toNat + (2 ^ 63 - 1)) ∨
      waited + (2 ^ 63 + 1) < timeout.toNat then some .timedOut else none := by
    show ((start patience started).1.tick stop later).1 = _
    rw [start_of_timeout htimeout, tick_of_deadline rfl hstop, apply_ite Prod.fst]
    simp only [hlate]
  refine ⟨houtcome, ?_⟩
  have htimedOut : outcome = some .timedOut ↔
      (timeout.toNat < waited ∧ waited < timeout.toNat + (2 ^ 63 - 1)) ∨
        waited + (2 ^ 63 + 1) < timeout.toNat := by
    rw [houtcome]
    split
    · next hover => exact iff_of_true rfl hover
    · next hover => exact iff_of_false nofun hover
  rw [htimedOut]
  omega

end Wait

/-- The longest timeout there is. -/
def hasty : Patience := { timeout := some 0xffffffffffffffff }

/-- It is over as soon as it is looked at, by a clock that has not moved. -/
theorem tick_hasty :
    hasty.timeout = some 0xffffffffffffffff ∧ (hasty.cancel.isSome && false) = false ∧
      (Clock.now ({} : SteppingClock)).1 ≤ (Clock.now ({} : SteppingClock)).1 ∧
      ((Wait.start hasty ({} : SteppingClock)).1.tick false ({} : SteppingClock)).1 =
        some .timedOut := by
  obtain ⟨houtcome, -⟩ := Wait.tick_timedOut_iff (show hasty.timeout = some _ from rfl)
    (show (hasty.cancel.isSome && false) = false from rfl) ({} : SteppingClock)
    ({} : SteppingClock) (UInt64.le_refl _)
  exact ⟨rfl, rfl, UInt64.le_refl _, houtcome.trans (if_pos (by decide))⟩

end DacRack
