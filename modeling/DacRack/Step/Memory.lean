import DacRack.Step.Selection

/-!
# Memory access

Words are read and written through the memory cursor, one transaction to move it
and one for each access. Up to two words can be read at once, the high one first;
a written word is read back and has to be the same.
-/

namespace DacRack

namespace Step

variable {σ φ κ : Type} [Link σ φ]

/-- Reads the word under the cursor, which stands at `address`. -/
def readCursor (bank : Bank) (address : UInt32) : Step σ φ κ UInt32 := do
  let reply ← transact (.word bank address) [bank.query]
  understand (Reply.word reply.toList)

def readWord (bank : Bank) (address : UInt32) : Step σ φ κ UInt32 := do
  moveCursor address
  readCursor bank address

/-- Reads words from `address` on, below those read so far. -/
def readWords (bank : Bank) : Nat → UInt32 → UInt64 → Step σ φ κ UInt64
  | 0, _, value => pure value
  | words + 1, address, value => do
    let word ← readWord bank address
    readWords bank words (address + 1) (value <<< 32 ||| word.toUInt64)

/-- Reads up to two words as one number. Reading none asks nothing. -/
def read (address : Int) (words : Nat) (bank : Bank) : Step σ φ κ UInt64 :=
  if words = 0 then pure 0
  else if 2 < words then throw (.badParameter .wordCount)
  else do
    let start ← ofExcept (validAddress address)
    selectBank bank
    let value ← readWords bank words start 0
    note (.wordsRead value start words bank)
    return value

/-- Writes one word and reads it back. What is answered to the writing itself does
not matter. -/
def write (address value : Int) (bank : Bank) : Step σ φ κ Unit := do
  let target ← ofExcept (validAddress address)
  let word ← ofExcept (validWord target value)
  selectBank bank
  moveCursor target
  let _ ← transact (.word bank target) [bank.store word]
  let found ← readCursor bank target
  ensure (.reply (.notWritten target word)) (found == word)
  note (.wordWritten word target bank)

theorem draws_readWord (bank : Bank) (address : UInt32) :
    Draws 2 (readWord bank address : Step σ φ κ UInt32) :=
  (draws_moveCursor address).bind fun _ =>
    (draws_transact _ _).bind fun _ => draws_understand _

theorem draws_readWords (bank : Bank) (words : Nat) (address : UInt32) (value : UInt64) :
    Draws (2 * words) (readWords bank words address value : Step σ φ κ UInt64) := by
  induction words generalizing address value with
  | zero => exact draws_pure _
  | succ words ih =>
    rw [Nat.mul_succ, Nat.add_comm]
    exact (draws_readWord bank address).bind fun word => ih _ _

/-- Each word takes two replies. -/
theorem draws_read (address : Int) (words : Nat) (bank : Bank) :
    Draws (2 * words) (read address words bank : Step σ φ κ UInt64) := by
  unfold read
  split
  · rename_i h
    subst h
    exact draws_pure _
  · split
    · exact draws_throw _ _
    · rw [show 2 * words = 0 + (0 + (2 * words + (0 + 0))) by omega]
      exact (draws_ofExcept _).bind fun _ => (draws_selectBank _).bind fun _ =>
        (draws_readWords _ _ _ _).bind fun _ => (draws_note _).bind fun _ => draws_pure _

end Step

end DacRack
