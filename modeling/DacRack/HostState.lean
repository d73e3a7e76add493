import DacRack.MemoryMap
import DacRack.Ramp
import DacRack.SlotMode

/-!
# What the host remembers

The instrument cannot be asked for everything. The host remembers what it found
when connecting, the mode each slot was last put into, and for each channel how it
is to be ramped and whether a ramp is still running. What it finds is what the
instrument can do and who it is.
-/

namespace DacRack

structure Features where
  eeprom : Bool := false
  /-- Access to the EEPROM of each slot. No check ever switches it on. -/
  slotEeprom : Bool := false
  calibration : Bool := false
  deriving DecidableEq

/-- Who an instrument is, as its EEPROM has it. Both are zero without one. -/
structure Identity where
  serialNumber : UInt64 := 0
  hardwareVersion : UInt64 := 0
  deriving DecidableEq

def boolLabel (b : Bool) : String :=
  if b then "true" else "false"

/-- The features as log messages show them. -/
def Features.label (features : Features) : String :=
  "Features \x7b eeprom_available: " ++ boolLabel features.eeprom ++
    ", versa_eeprom_available: " ++ boolLabel features.slotEeprom ++
    ", calibration_supported: " ++ boolLabel features.calibration ++ " \x7d"

/-- The identity as log messages show it. -/
def Identity.label (identity : Identity) : String :=
  "Identity \x7b serial_number: " ++ Text.decimal identity.serialNumber.toNat ++
    ", hardware_version: " ++ Text.decimal identity.hardwareVersion.toNat ++ " \x7d"

structure ChannelState where
  /-- Whether setting the voltage ramps to it. -/
  rampOnSet : Bool := false
  /-- How fast, in volts per second. -/
  rampRate : Float := 0.1
  motion : Motion := .idle
  /-- Where the slot's EEPROM keeps the power-on value, if that can be used. -/
  powerOnAddress : Option UInt32 := none

structure HostState where
  features : Features := {}
  identity : Identity := {}
  /-- The mode each slot was last put into. -/
  modes : Vector SlotMode slotCount := Vector.replicate _ default
  /-- The channels by position. -/
  channels : Vector ChannelState (slotCount * channelsPerSlot) := Vector.replicate _ {}

namespace HostState

def channelState (host : HostState) (channel : Channel) : ChannelState :=
  host.channels[channel.index]

def updateChannel (host : HostState) (channel : Channel)
    (change : ChannelState → ChannelState) : HostState :=
  { host with
    channels := host.channels.set channel.index (change (host.channelState channel)) }

def mode (host : HostState) (slot : Fin slotCount) : SlotMode :=
  host.modes[slot]

def setMode (host : HostState) (slot : Fin slotCount) (mode : SlotMode) : HostState :=
  { host with modes := host.modes.set slot mode }

@[simp]
theorem channelState_updateChannel_self (host : HostState) (channel : Channel)
    (change : ChannelState → ChannelState) :
    (host.updateChannel channel change).channelState channel =
      change (host.channelState channel) := by
  simp [updateChannel, channelState]

theorem channelState_updateChannel_of_ne (host : HostState) {channel other : Channel}
    (change : ChannelState → ChannelState) (h : other ≠ channel) :
    (host.updateChannel channel change).channelState other = host.channelState other := by
  have hne : (channel.index : Nat) ≠ other.index := fun he =>
    h (Channel.index_injective (Fin.ext he.symm))
  simp [updateChannel, channelState, hne]

@[simp]
theorem mode_setMode_self (host : HostState) (slot : Fin slotCount) (mode : SlotMode) :
    (host.setMode slot mode).mode slot = mode := by
  simp [setMode, HostState.mode]

theorem mode_setMode_of_ne (host : HostState) {slot other : Fin slotCount} (mode : SlotMode)
    (h : other ≠ slot) : (host.setMode slot mode).mode other = host.mode other := by
  have hne : (slot : Nat) ≠ other := fun he => h (Fin.ext he.symm)
  simp [setMode, HostState.mode, hne]

end HostState

end DacRack
