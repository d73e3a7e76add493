import DacRack.Step.Settle

/-!
# Ramping a channel

A ramp is started by the limit it is to stop at and then the slope. Setting the
voltage of a channel ramps to it or jumps there, as the channel is set up.
-/

namespace DacRack

namespace Step

variable {σ φ κ : Type} [Link σ φ] [Clock κ]

def limitCommand (plan : Ramp) : Command :=
  match limitOf plan.slope with
  | .upper => .upperLimit plan.targetCode
  | .lower => .lowerLimit plan.targetCode

/-- Starts a ramp from the voltage a channel is at. The limit has to be in place
before the slope starts the ramp. -/
def startRamp (channel : Channel) (current target rate : Float) : Step σ φ κ Unit := do
  let period ← updatePeriod channel
  let plan ← inRange (Ramp.between (← range) current target period rate)
  ensure (.badParameter .rampSteepness) (slopeFits plan.slope)
  command channel [limitCommand plan]
  command channel [.slope plan.slope]
  setMotion channel (.ramping target)
  note (.rampStarted channel current target plan.duration plan.slope)

/-- Ramps a channel to a voltage at `rate` volts per second, and waits for it if
`wait` says so. Where the channel already is at the voltage, nothing more is
done. -/
def ramp (channel : Channel) (target rate : Float) (wait : Bool) : Step σ φ κ Unit := do
  ensure (.badParameter .rampRate) (rateAllowed rate)
  let _ ← inRange ((← range).code target)
  let current ← volt channel
  if current == target then pure ()
  else
    startRamp channel current target rate
    if wait then settle channel

/-- Puts out a code at once. The limits are opened first, so that they do not hold
it back. -/
def setCode (channel : Channel) (code : UInt16) : Step σ φ κ Unit := do
  command channel [.upperLimit maxCode, .lowerLimit 0, .setOutput code]
  setMotion channel .idle
  note (.codeSet channel code)

/-- Sets the voltage of a channel, by a ramp or at once. -/
def setVolt (channel : Channel) (volt : Float) : Step σ φ κ Unit := do
  let range ← range
  let code ← inRange (range.code volt)
  let state ← channelState channel
  if state.rampOnSet then ramp channel (range.volt code.toUInt32) state.rampRate true
  else setCode channel code

/-- Runs a step on every channel in turn, up to the first that fails. -/
def onAllChannels (step : Channel → Step σ φ κ Unit) : Step σ φ κ Unit :=
  Channel.all.forM step

def setAll (volt : Float) : Step σ φ κ Unit :=
  onAllChannels fun channel => setVolt channel volt

/-- Ramps every channel to a voltage. All ramps are started before the first is
waited for, and one deadline holds for all. -/
def rampAll (target rate : Float) : Step σ φ κ Unit := do
  onAllChannels fun channel => ramp channel target rate false
  note .waitingForRamps
  let wait ← startWait
  onAllChannels fun channel => do
    awaitRest channel wait
    setMotion channel .idle

end Step

end DacRack
