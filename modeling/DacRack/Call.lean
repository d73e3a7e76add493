import DacRack.Step.Connect

/-!
# Calls

The calls on a connection as data, so that a run of calls is a list. A call that
names a slot or a channel by a number the instrument does not have is refused
before anything is sent.
-/

namespace DacRack

inductive ChannelCall where
  | volt
  | setVolt (volt : Float)
  | ramp (target rate : Float) (wait : Bool)
  | settle
  | setRampOnSet (enable : Bool)
  | setRampRate (rate : Float)
  | lowerLimit
  | upperLimit
  | setLowerLimit (volt : Float)
  | setUpperLimit (volt : Float)
  | updatePeriod
  | setUpdatePeriod (period : UInt32)
  | slope
  | setSlope (slope : Int64)
  | powerOnVolt
  | setPowerOnVolt (volt : Float)
  | ask (text : String)

inductive SlotCall where
  /-- The mode the slot was last put into. -/
  | mode
  | setMode (mode : SlotMode)
  | queryMode
  | channel (number : Nat)
  | ask (text : String)

inductive Call where
  | identify
  | setAll (volt : Float)
  | rampAll (target rate : Float)
  | read (address : Int) (words : Nat) (bank : Bank)
  | write (address value : Int) (bank : Bank)
  | ask (text : String)
  | onSlot (number : Nat) (call : SlotCall)
  | onChannel (channel : Channel) (call : ChannelCall)

inductive Answer where
  | done
  | text (text : String)
  | volt (volt : Float)
  | period (microseconds : UInt32)
  | slope (slope : Int64)
  | word (value : UInt64)
  | mode (mode : SlotMode)
  | channel (channel : Channel)
  | identity (identity : Identity)

namespace Step

variable {σ φ κ : Type}

def slotNumbered (number : Nat) : Step σ φ κ (Fin slotCount) :=
  if h : number < slotCount then pure ⟨number, h⟩ else throw (.badParameter .slotIndex)

def channelNumbered (slot : Fin slotCount) (number : Nat) : Step σ φ κ Channel :=
  require (.badParameter .channelIndex) (Channel.ofNumbers? slot number)

end Step

variable {σ φ κ : Type} [Link σ φ]

def SlotCall.run (slot : Fin slotCount) : SlotCall → Step σ φ κ Answer
  | mode => return .mode ((← Step.host).mode slot)
  | setMode m => do Step.setMode slot m; return .done
  | queryMode => return .mode (← Step.queryMode slot)
  | channel number => return .channel (← Step.channelNumbered slot number)
  | ask text => return .text (← Step.askSlot slot text)

variable [Clock κ]

def ChannelCall.run (channel : Channel) : ChannelCall → Step σ φ κ Answer
  | volt => return .volt (← Step.volt channel)
  | setVolt v => do Step.setVolt channel v; return .done
  | ramp target rate wait => do Step.ramp channel target rate wait; return .done
  | settle => do Step.settle channel; return .done
  | setRampOnSet enable => do Step.setRampOnSet channel enable; return .done
  | setRampRate rate => do Step.setRampRate channel rate; return .done
  | lowerLimit => return .volt (← Step.lowerLimit channel)
  | upperLimit => return .volt (← Step.upperLimit channel)
  | setLowerLimit v => do Step.setLowerLimit channel v; return .done
  | setUpperLimit v => do Step.setUpperLimit channel v; return .done
  | updatePeriod => return .period (← Step.updatePeriod channel)
  | setUpdatePeriod period => do Step.setUpdatePeriod channel period; return .done
  | slope => return .slope (← Step.slope channel)
  | setSlope n => do Step.setSlope channel n; return .done
  | powerOnVolt => return .volt (← Step.powerOnVolt channel)
  | setPowerOnVolt v => do Step.setPowerOnVolt channel v; return .done
  | ask text => return .text (← Step.askChannel channel text)

def Call.run : Call → Step σ φ κ Answer
  | identify => return .identity (← Step.identify)
  | setAll volt => do Step.setAll volt; return .done
  | rampAll target rate => do Step.rampAll target rate; return .done
  | read address words bank => return .word (← Step.read address words bank)
  | write address value bank => do Step.write address value bank; return .done
  | ask text => return .text (← Step.ask text)
  | onSlot number call => do call.run (← Step.slotNumbered number)
  | onChannel channel call => call.run channel

namespace Session

/-- Carries out a step, and returns what came of it and the connection after it. -/
def perform {α : Type} (s : Session σ φ κ) (step : Step σ φ κ α) :
    Except (Error φ) α × Session σ φ κ :=
  match step s with
  | .ok a s => (.ok a, s)
  | .error error s => (.error error, s)

/-- The connection after a run of calls, failed ones included. -/
def performAll (s : Session σ φ κ) (calls : List Call) : Session σ φ κ :=
  calls.foldl (fun s call => (s.perform call.run).2) s

end Session

end DacRack
