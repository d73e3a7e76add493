import DacRack.Channel
import DacRack.Command

/-!
# The memory map

The instrument's memory is a flat space of words of 32 bits. Every channel owns a
block of sixteen words that holds its settings, and a few fixed addresses at the
top of the space tell what the instrument is.

The memory cursor serves the main memory and the EEPROM of every slot, its banks. Which
one a command means is up to the command, and for an EEPROM also to the active slot.
-/

namespace DacRack

def maxAddress : Nat := 1107296266

def blockBase : Nat := 1536

def blockSize : Nat := 16

/-- Holds `eepromMagic` where an EEPROM is fitted. -/
def eepromIdentityAddress : Nat := 1107296256

/-- The word at `eepromIdentityAddress` of an instrument with an EEPROM. -/
def eepromMagic : Nat := 21930

/-- Holds the hardware version, if there is an EEPROM. -/
def hardwareVersionAddress : Nat := 1107296266

/-- Holds the serial number, if there is an EEPROM. -/
def serialNumberAddress : Nat := 1107296264

/-- The word of a slot's EEPROM that is read to see whether there is one. -/
def slotEepromTestAddress : Nat := 6

/-- Where a slot's EEPROM keeps the power-on value of each channel of the slot. -/
def powerOnAddresses : Vector UInt32 channelsPerSlot :=
  #v[6, 8, 32774, 32776]

/-- One more than the largest word. -/
def wordLimit : Nat := UInt32.size

/-- The first address of a channel's block. -/
def Channel.base (channel : Channel) : Nat :=
  blockBase + blockSize * channelsPerSlot * channel.slot + blockSize * channel.place

inductive Setting where
  /-- The time between two updates of the output, in microseconds. -/
  | updatePeriod
  /-- The code at which a rising ramp stops. -/
  | upperLimit
  /-- The code at which a falling ramp stops. -/
  | lowerLimit
  /-- The slope of the running ramp, high word first. Zero once the ramp is over. -/
  | slope
  | output
  deriving DecidableEq

namespace Setting

/-- Every setting, by ascending place in the block. -/
def all : List Setting :=
  [updatePeriod, upperLimit, lowerLimit, slope, output]

/-- The place of a setting in the block. -/
def offset : Setting → Nat
  | updatePeriod => 0
  | upperLimit => 4
  | lowerLimit => 5
  | slope => 6
  | output => 9

def words : Setting → Nat
  | slope => 2
  | _ => 1

/-- Where a channel keeps a setting. -/
def address (setting : Setting) (channel : Channel) : Nat :=
  channel.base + setting.offset

/-- A setting lies within its channel's block. -/
theorem offset_add_words_le (setting : Setting) :
    setting.offset + setting.words ≤ blockSize := by
  cases setting <;> decide

end Setting

/-- The address, if it lies in the memory. -/
def address? (address : Int) : Option UInt32 :=
  if 0 ≤ address ∧ address ≤ maxAddress then some (UInt32.ofInt address) else none

/-- The word, if the value fits in one. -/
def word? (value : Int) : Option UInt32 :=
  if 0 ≤ value ∧ value < wordLimit then some (UInt32.ofInt value) else none

inductive Bank where
  | main
  /-- The EEPROM on the board of a slot. -/
  | slotEeprom (slot : UInt8)
  deriving DecidableEq

namespace Bank

/-- The slot that has to be active. -/
def slot? : Bank → Option UInt8
  | main => none
  | slotEeprom slot => some slot

def query : Bank → Command
  | main => .readMemory
  | slotEeprom _ => .readSlotEeprom

def store (word : UInt32) : Bank → Command
  | main => .writeMemory word
  | slotEeprom _ => .writeSlotEeprom word

def label : Bank → String
  | main => "Main"
  | slotEeprom slot => "VersaEeprom \x7b slot: " ++ Text.decimal slot.toNat ++ " \x7d"

end Bank

end DacRack
