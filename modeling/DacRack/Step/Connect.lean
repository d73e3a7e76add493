import DacRack.Step.Ramp

/-!
# Connecting

Connecting asks what the instrument can do and who it is, makes accessible what it
found, and then puts every slot into the configured mode. The questions may go wrong,
which only means that the instrument lacks what was asked for; the modes have to be
accepted.
-/

namespace DacRack

namespace Step

variable {σ φ κ : Type} [Link σ φ] [Clock κ]

def probeEeprom : Step σ φ κ Bool := do
  match ← attempt (read eepromIdentityAddress 1 .main) with
  | .ok value => return value.toNat == eepromMagic
  | .error error =>
    note (.probeFailed .eeprom error)
    return false

/-- Tries the EEPROM of the first slot. Whatever comes of it is only noted. -/
def probeSlotEeprom : Step σ φ κ Unit := do
  match ← attempt (read slotEepromTestAddress 1 (.slotEeprom 0)) with
  | .ok value => note (.slotEepromRead value)
  | .error error => note (.probeFailed .slotEeprom error)

/-- Whether the instrument can be calibrated: it then has something to say when
asked. -/
def probeCalibration : Step σ φ κ Bool := do
  match ← attempt (transact .instrument [.askCalibration]) with
  | .error error =>
    note (.probeFailed .calibration error)
    return false
  | .ok reply =>
    match Reply.payload reply.toList with
    | .ok payload => return !payload.isEmpty
    | .error cause =>
      note (.calibrationUnclear cause)
      return false

/-- Reads a word of the identity, or zero where that fails. -/
def readIdentityWord (probe : Probe) (address : Nat) : Step σ φ κ UInt64 := do
  match ← attempt (read address 1 .main) with
  | .ok value => return value
  | .error error =>
    note (.probeFailed probe error)
    return 0

def readIdentity : Step σ φ κ Identity := do
  let hardwareVersion ← readIdentityWord .hardwareVersion hardwareVersionAddress
  let serialNumber ← readIdentityWord .serialNumber serialNumberAddress
  return { serialNumber, hardwareVersion }

def probe : Step σ φ κ (Features × Identity) := do
  let eeprom ← probeEeprom
  probeSlotEeprom
  let calibration ← probeCalibration
  let features : Features := { eeprom, calibration }
  let identity ← if eeprom then readIdentity else pure {}
  note (.probed features identity)
  return (features, identity)

/-- Finds out again who the instrument is. What it can do stays as it was found
when connecting. -/
def identify : Step σ φ κ Identity := do
  let (_, identity) ← probe
  modifyHost fun host => { host with identity }
  return identity

def connect : Step σ φ κ Unit := do
  let started ← now
  let (features, identity) ← probe
  modifyHost fun host => { host with features, identity }
  if features.slotEeprom then onAllChannels fun channel => do let _ ← exposePowerOn channel
  let mode := (← get).config.slotMode
  (List.finRange slotCount).forM fun slot => setMode slot mode
  let elapsed := (← now).since? started
  note (.connected identity (elapsed.getD 0))

end Step

end DacRack
