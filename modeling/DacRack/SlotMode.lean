/-!
# Slot modes

How the four channels of a slot work together. The instrument knows a mode by a
number, the host by a name.
-/

namespace DacRack

inductive SlotMode where
  /-- The outputs are disconnected and grounded. -/
  | off
  /-- Channels 0 and 1 are outputs, and 2 and 3 adjust them. -/
  | fine
  /-- All four channels are outputs. -/
  | coarse
  /-- As `fine`, with the instrument's own calibration. -/
  | fineCald
  deriving DecidableEq

namespace SlotMode

/-- Slots are in coarse mode unless told otherwise. -/
instance : Inhabited SlotMode where
  default := coarse

/-- Every mode, by ascending number. -/
def all : List SlotMode :=
  [off, fine, coarse, fineCald]

def number : SlotMode → UInt8
  | off => 0
  | fine => 1
  | coarse => 2
  | fineCald => 3

def ofNumber? (n : Int) : Option SlotMode :=
  all.find? fun mode => mode.number.toNat == n

def name : SlotMode → String
  | off => "Off"
  | fine => "Fine"
  | coarse => "Coarse"
  | fineCald => "FineCald"

/-- The mode with a name, which has to match exactly. -/
def ofName? (text : String) : Option SlotMode :=
  all.find? fun mode => mode.name == text

/-- Whether only an instrument that can be calibrated has this mode. -/
def needsCalibration : SlotMode → Bool
  | fineCald => true
  | _ => false

theorem mem_all (mode : SlotMode) : mode ∈ all := by
  cases mode <;> decide

theorem ofNumber?_number (mode : SlotMode) : ofNumber? mode.number.toNat = some mode := by
  cases mode <;> rfl

theorem ofName?_name (mode : SlotMode) : ofName? mode.name = some mode := by
  cases mode <;> decide

end SlotMode

end DacRack
