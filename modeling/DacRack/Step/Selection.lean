import DacRack.Step.Exchange

/-!
# Selection

The instrument applies a command to the slot, channel or word selected last. The
host does not rely on where it left those: every operation selects what it means
and checks that the instrument says so before it goes on.
-/

namespace DacRack

namespace Step

variable {σ φ κ : Type} [Link σ φ]

def selectSlot (slot : UInt8) : Step σ φ κ Unit := do
  let reply ← transact .instrument [.selectSlot slot]
  let echoed ← understand (Reply.number reply.toList)
  ensure (.reply (.slotNotSelected slot)) (echoed == slot.toNat)
  note (.slotSelected slot)

def selectChannel (channel : Channel) : Step σ φ κ Unit := do
  let commands :=
    [.selectSlot (UInt8.ofNat channel.slot), .selectChannel (UInt8.ofNat channel.place)]
  let reply ← transact .instrument commands
  let expected ← ofExcept (fitting (Command.encodeEcho (← get).capacity commands))
  ensure (.reply (.channelNotSelected channel)) (Text.trim reply.toList == expected.toList)
  note (.channelSelected channel)

def moveCursor (address : UInt32) : Step σ φ κ Unit := do
  let reply ← transact .instrument [.moveCursor address]
  let echoed ← understand (Reply.number reply.toList)
  ensure (.reply (.cursorNotMoved address)) (echoed == address.toNat)

/-- Makes the slot active whose EEPROM is meant. -/
def selectBank (bank : Bank) : Step σ φ κ Unit :=
  match bank.slot? with
  | none => pure ()
  | some slot => selectSlot slot

def transactSlot (slot : Fin slotCount) (commands : List Command) : Step σ φ κ String := do
  selectSlot (UInt8.ofNat slot)
  transact (.slot slot) commands

def transactChannel (channel : Channel) (commands : List Command) : Step σ φ κ String := do
  selectChannel channel
  transact (.channel channel) commands

def askSlot (slot : Fin slotCount) (text : String) : Step σ φ κ String := do
  selectSlot (UInt8.ofNat slot)
  exchange (.slot slot) (.text text)

def askChannel (channel : Channel) (text : String) : Step σ φ κ String := do
  selectChannel channel
  exchange (.channel channel) (.text text)

/-- Sends commands to a channel and checks that they were answered. -/
def command (channel : Channel) (commands : List Command) : Step σ φ κ Unit := do
  let reply ← transactChannel channel commands
  let _ ← understand (Reply.payload reply.toList)

theorem draws_moveCursor (address : UInt32) :
    Draws 1 (moveCursor address : Step σ φ κ Unit) :=
  (draws_transact _ _).bind fun _ =>
    (draws_understand _).bind fun _ => draws_ensure _ _

theorem draws_selectSlot (slot : UInt8) :
    Draws 1 (selectSlot slot : Step σ φ κ Unit) :=
  (draws_transact _ _).bind fun _ =>
    (draws_understand _).bind fun _ => (draws_ensure _ _).bind fun _ => draws_note _

theorem draws_selectBank (bank : Bank) :
    Draws 0 (selectBank bank : Step σ φ κ Unit) := by
  unfold selectBank
  split
  · exact draws_pure _
  · exact (draws_selectSlot _).mono (Nat.zero_le _)

end Step

end DacRack
