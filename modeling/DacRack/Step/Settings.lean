import DacRack.Step.Memory

/-!
# Settings on a connection

The mode of a slot is remembered when it is set. It can be asked for as well, but
what the instrument answers then does not replace what is remembered.

The settings of a channel are read out of its block in memory, and set by commands to
the channel. Only whether and how fast to ramp is the host's own business.
-/

namespace DacRack

/-- The shortest time between two updates, in microseconds. -/
def minPeriod : Nat := 50

/-- The longest time between two updates, in microseconds. -/
def maxPeriod : Nat := 65535

/-- The update period as an argument of a command. -/
def period? (period : UInt32) : Option UInt16 :=
  if minPeriod ≤ period.toNat ∧ period.toNat ≤ maxPeriod then some period.toUInt16 else none

namespace Step

variable {σ φ κ : Type} [Link σ φ]

def setMode (slot : Fin slotCount) (mode : SlotMode) : Step σ φ κ Unit := do
  let features := (← host).features
  ensure (.unsupported .calibratedMode) (!mode.needsCalibration || features.calibration)
  let reply ← transactSlot slot [.setSlotMode mode.number]
  let _ ← understand (Reply.payload reply.toList)
  modifyHost fun host => host.setMode slot mode
  note (.modeSet slot mode)

def queryMode (slot : Fin slotCount) : Step σ φ κ SlotMode := do
  let reply ← transactSlot slot [.askSlotMode]
  let number ← understand (Reply.number reply.toList)
  understand (SlotMode.ofReply number)

def readSetting (channel : Channel) (setting : Setting) : Step σ φ κ UInt64 :=
  read (setting.address channel) setting.words .main

/-- Reads a setting that is a code, as a voltage. -/
def readVolt (channel : Channel) (setting : Setting) : Step σ φ κ Float := do
  let code ← readSetting channel setting
  return (← range).volt code.toUInt32

def volt (channel : Channel) : Step σ φ κ Float :=
  readVolt channel .output

/-- The lowest voltage a ramp can reach. -/
def lowerLimit (channel : Channel) : Step σ φ κ Float :=
  readVolt channel .lowerLimit

/-- The highest voltage a ramp can reach. -/
def upperLimit (channel : Channel) : Step σ φ κ Float :=
  readVolt channel .upperLimit

/-- The time between two updates, in microseconds. -/
def updatePeriod (channel : Channel) : Step σ φ κ UInt32 := do
  let period ← readSetting channel .updatePeriod
  return period.toUInt32

/-- The slope of the running ramp, zero once it is over. -/
def slope (channel : Channel) : Step σ φ κ Int64 := do
  let slope ← readSetting channel .slope
  return slope.toInt64

def setLowerLimit (channel : Channel) (volt : Float) : Step σ φ κ Unit := do
  let code ← inRange ((← range).code volt)
  command channel [.lowerLimit code]

def setUpperLimit (channel : Channel) (volt : Float) : Step σ φ κ Unit := do
  let code ← inRange ((← range).code volt)
  command channel [.upperLimit code]

def setUpdatePeriod (channel : Channel) (period : UInt32) : Step σ φ κ Unit := do
  let period ← require (.badParameter .updatePeriod) (period? period)
  command channel [.updatePeriod period]

/-- Sets the slope, which starts a ramp to the limit it points at. -/
def setSlope (channel : Channel) (slope : Int64) : Step σ φ κ Unit := do
  ensure (.badParameter .slope) (slopeFits slope)
  command channel [.slope slope]

def setRampOnSet (channel : Channel) (enable : Bool) : Step σ φ κ Unit :=
  modifyChannel channel fun state => { state with rampOnSet := enable }

def setRampRate (channel : Channel) (rate : Float) : Step σ φ κ Unit := do
  ensure (.badParameter .rampRate) (rateAllowed rate)
  modifyChannel channel fun state => { state with rampRate := rate }

def powerOnAddress (channel : Channel) : Step σ φ κ UInt32 := do
  require (.unsupported .powerOnVolt) (← channelState channel).powerOnAddress

def powerOnVolt (channel : Channel) : Step σ φ κ Float := do
  let address ← powerOnAddress channel
  let code ← read address.toNat 1 (.slotEeprom (UInt8.ofNat channel.slot))
  return (← range).volt code.toUInt32

def setPowerOnVolt (channel : Channel) (volt : Float) : Step σ φ κ Unit := do
  let address ← powerOnAddress channel
  let code ← inRange ((← range).code volt)
  write address.toNat code.toNat (.slotEeprom (UInt8.ofNat channel.slot))

/-- Makes the power-on value of a channel accessible. -/
def exposePowerOn (channel : Channel) : Step σ φ κ UInt32 := do
  let address := powerOnAddresses[channel.place]
  modifyChannel channel fun state => { state with powerOnAddress := some address }
  return address

/-- Reading a setting takes two replies for each of its words. -/
theorem draws_readSetting (channel : Channel) (setting : Setting) :
    Draws (2 * setting.words) (readSetting channel setting : Step σ φ κ UInt64) :=
  draws_read _ _ _

theorem draws_slope (channel : Channel) : Draws 4 (slope channel : Step σ φ κ Int64) :=
  (draws_readSetting channel .slope).bind fun _ => draws_pure _

end Step

end DacRack
