import DacRack.Proofs.Service

/-!
# The driver is a register file

A caller has no need to know of cursors, blocks and selections. To them a connection
is one set of registers for each channel: what is set is what is read back, and no
channel minds what is done to another. `Registers.perform` says what a call answers
and makes of the registers of its channel, and `RegisterFile.run` does the same for a
run of calls on any channels.

`answersTo_eq_run` is that the driver and an instrument together are such a file. It holds
from any cursors and any memory the instrument starts with, and whichever way the
instrument writes its words. A single call is shown for the whole instrument
(`gives_call`), so a run of calls is an induction with nothing but the registers to
carry along.
-/

namespace DacRack

/-- The registers of a channel. -/
structure Registers where
  /-- The update period, in microseconds. -/
  period : UInt32
  upperLimit : UInt32
  lowerLimit : UInt32
  output : UInt32
  slope : Int64

/-- What a call on a channel answers and makes of the registers, if it is one that reads
or sets them and is accepted. -/
def Registers.perform (range : VoltageRange) (r : Registers) :
    ChannelCall → Option (Answer × Registers)
  | .volt => some (.volt (range.volt r.output), r)
  | .upperLimit => some (.volt (range.volt r.upperLimit), r)
  | .lowerLimit => some (.volt (range.volt r.lowerLimit), r)
  | .updatePeriod => some (.period r.period, r)
  | .slope => some (.slope r.slope, r)
  | .setVolt volt => (range.code volt).toOption.map fun code =>
    (.done, { r with upperLimit := 65535, lowerLimit := 0, output := code.toUInt32 })
  | .setUpperLimit volt => (range.code volt).toOption.map fun code =>
    (.done, { r with upperLimit := code.toUInt32 })
  | .setLowerLimit volt => (range.code volt).toOption.map fun code =>
    (.done, { r with lowerLimit := code.toUInt32 })
  | .setUpdatePeriod period =>
    if 50 ≤ period.toNat ∧ period.toNat ≤ 65535 then some (.done, { r with period }) else none
  | .setSlope slope =>
    if slope.toInt.natAbs ≤ 2 ^ 32 then some (.done, { r with slope }) else none
  | _ => none

/-- The registers of all channels. -/
abbrev RegisterFile := Channel → Registers

/-- What calls answer one after the other, and the registers after them. -/
def RegisterFile.run (range : VoltageRange) :
    RegisterFile → List (Channel × ChannelCall) → Option (List Answer × RegisterFile)
  | file, [] => some ([], file)
  | file, (channel, call) :: calls => do
    let (answer, r) ← (file channel).perform range call
    let (answers, file) ← RegisterFile.run range (Function.update file channel r) calls
    return (answer :: answers, file)

namespace Instrument

def word (I : Instrument) (channel : Channel) (offset : Nat) : UInt32 :=
  I.memory (wordAddress channel.slot channel.place offset)

def registers (I : Instrument) : RegisterFile := fun channel =>
  { period := I.word channel 0
    upperLimit := I.word channel 4
    lowerLimit := I.word channel 5
    output := I.word channel 9
    slope := ((I.word channel 6).toUInt64 <<< 32 ||| (I.word channel 7).toUInt64).toInt64 }

/-- Blocks have sixteen words each, and so no word in common. -/
theorem wordAddress_inj {channel other : Channel} {offset offset' : Nat}
    (h : offset < 16) (h' : offset' < 16) :
    wordAddress channel.slot channel.place offset =
        wordAddress other.slot other.place offset' ↔
      channel = other ∧ offset = offset' := by
  obtain ⟨⟨s, hs⟩, ⟨p, hp⟩⟩ := channel
  obtain ⟨⟨t, ht⟩, ⟨q, hq⟩⟩ := other
  simp only [slotCount, channelsPerSlot] at hs hp ht hq
  rw [wordAddress, wordAddress, ← UInt32.toNat_inj, UInt32.toNat_ofNat', UInt32.toNat_ofNat']
  rw [Nat.mod_eq_of_lt (by simp only []; omega), Nat.mod_eq_of_lt (by simp only []; omega)]
  simp only [Channel.mk.injEq, Fin.mk.injEq]
  omega

/-- The channel is the active one. -/
def Active (I : Instrument) (channel : Channel) : Prop :=
  I.slot.toNat = channel.slot ∧ I.place.toNat = channel.place

theorem active_select (I : Instrument) (channel : Channel) :
    (I.select channel).Active channel := by
  have hslot := channel.slot.isLt
  have hplace := channel.place.isLt
  simp only [slotCount, channelsPerSlot] at hslot hplace
  refine ⟨?_, ?_⟩
  · rw [select, UInt8.toNat_ofNat_of_lt' (by simp only [UInt8.size]; omega)]
  · rw [select, UInt8.toNat_ofNat_of_lt' (by simp only [UInt8.size]; omega)]

theorem word_storeActive {I : Instrument} {channel : Channel} (hactive : I.Active channel)
    {offset offset' : Nat} (h : offset < 16) (h' : offset' < 16) (word : UInt32)
    (other : Channel) :
    (I.storeActive offset word).word other offset' =
      if other = channel ∧ offset' = offset then word else I.word other offset' := by
  rw [storeActive, hactive.1, hactive.2]
  show Function.update I.memory _ word _ = _
  rw [Function.update_apply]
  simp only [wordAddress_inj h' h]
  rfl

/-- Stores words for the active channel, by their offsets. -/
def storeAll (stores : List (Nat × UInt32)) (I : Instrument) : Instrument :=
  stores.foldl (fun I store => I.storeActive store.1 store.2) I

/-- What a word is after some were stored. -/
def wordAfter (stores : List (Nat × UInt32)) (offset : Nat) (word : UInt32) : UInt32 :=
  stores.foldl (fun word store => if offset = store.1 then store.2 else word) word

theorem word_storeAll {I : Instrument} {channel : Channel} (hactive : I.Active channel)
    {stores : List (Nat × UInt32)} (hstores : ∀ store ∈ stores, store.1 < 16)
    {offset : Nat} (h : offset < 16) (other : Channel) :
    (I.storeAll stores).word other offset =
      if other = channel then wordAfter stores offset (I.word other offset)
      else I.word other offset := by
  induction stores generalizing I with
  | nil =>
      split
      · rfl
      · rfl
  | cons store stores ih =>
      have hrest := ih (I := I.storeActive store.1 store.2) hactive fun s hs =>
        hstores s (List.mem_cons_of_mem _ hs)
      have hword := word_storeActive hactive (hstores store List.mem_cons_self) h store.2 other
      show ((I.storeActive store.1 store.2).storeAll stores).word other offset = _
      rw [hrest, hword]
      by_cases hother : other = channel
      · simp only [hother, true_and, if_true]
        rfl
      · simp only [hother, false_and, if_false]

/-- The registers of a channel after words of its block were stored. -/
def registersAfter (I : Instrument) (channel : Channel) (stores : List (Nat × UInt32)) :
    Registers :=
  { period := wordAfter stores 0 (I.word channel 0)
    upperLimit := wordAfter stores 4 (I.word channel 4)
    lowerLimit := wordAfter stores 5 (I.word channel 5)
    output := wordAfter stores 9 (I.word channel 9)
    slope := ((wordAfter stores 6 (I.word channel 6)).toUInt64 <<< 32 |||
      (wordAfter stores 7 (I.word channel 7)).toUInt64).toInt64 }

theorem registers_storeAll (I : Instrument) (channel : Channel)
    {stores : List (Nat × UInt32)} (hstores : ∀ store ∈ stores, store.1 < 16) :
    ((I.select channel).storeAll stores).registers =
      Function.update I.registers channel (I.registersAfter channel stores) := by
  have hword (other : Channel) {offset : Nat} (h : offset < 16) :=
    word_storeAll (active_select I channel) hstores h other
  have hselect : (I.select channel).word = I.word := rfl
  funext other
  by_cases hne : other = channel
  · rw [hne, Function.update_self]
    simp only [registers, hword channel (by omega : 0 < 16), hword channel (by omega : 4 < 16),
      hword channel (by omega : 5 < 16), hword channel (by omega : 6 < 16),
      hword channel (by omega : 7 < 16), hword channel (by omega : 9 < 16), if_true, hselect]
    rfl
  · rw [Function.update_of_ne hne]
    simp only [registers, hword other (by omega : 0 < 16), hword other (by omega : 4 < 16),
      hword other (by omega : 5 < 16), hword other (by omega : 6 < 16),
      hword other (by omega : 7 < 16), hword other (by omega : 9 < 16), if_neg hne, hselect]

/-- A number of 64 bits is made up of its two words again. -/
theorem or_of_words (n : UInt64) :
    ((n >>> 32).toUInt32.toUInt64 <<< 32) ||| n.toUInt32.toUInt64 = n := by
  have hlt := n.toNat_lt
  have hhigh : n.toNat >>> 32 % 2 ^ 32 = n.toNat / 2 ^ 32 := by
    rw [Nat.shiftRight_eq_div_pow]
    omega
  have hshift : (n.toNat / 2 ^ 32) <<< 32 % 2 ^ 64 = (n.toNat / 2 ^ 32) <<< 32 := by
    rw [Nat.shiftLeft_eq]
    omega
  have hlow : n.toNat % 2 ^ 32 < 2 ^ 32 := Nat.mod_lt _ (by omega)
  rw [← UInt64.toNat_inj, UInt64.toNat_or, UInt64.toNat_shiftLeft, UInt32.toNat_toUInt64,
    UInt64.toNat_toUInt32, UInt64.toNat_shiftRight, UInt32.toNat_toUInt64,
    UInt64.toNat_toUInt32]
  show (n.toNat >>> 32 % 2 ^ 32) <<< 32 % 2 ^ 64 ||| n.toNat % 2 ^ 32 = n.toNat
  rw [hhigh, hshift, ← Nat.shiftLeft_add_eq_or_of_lt hlow, Nat.shiftLeft_eq]
  omega

end Instrument

/-! Each call on the registers of a channel, carried out by the driver. -/

namespace Step

variable {κ : Type} {setup : Setup} {I : Instrument}

theorem gives_readSetting (channel : Channel) (setting : Setting) (hwords : setting.words = 1)
    (hroom : 13 ≤ setup.room) :
    ∃ I' : Instrument, I'.registers = I.registers ∧
      Gives setup 2 (readSetting channel setting : Step InstrumentLink FaultKind κ UInt64) I
        (I.word channel setting.offset).toUInt64 I' := by
  have hread : Gives setup (selections .main + 2)
      (read (setting.address channel) 1 .main : Step InstrumentLink FaultKind κ UInt64) I _ _ :=
    gives_readOne .main (setting.address_le channel) hroom
  refine ⟨{ I with
    cursor := UInt32.ofNat (setting.address channel), asked := I.asked + 1 }, rfl, ?_⟩
  rw [readSetting, hwords]
  exact hread

theorem gives_readVolt (channel : Channel) {setting : Setting} (hwords : setting.words = 1)
    (hroom : 13 ≤ setup.room) :
    ∃ I' : Instrument, I'.registers = I.registers ∧
      Gives setup 2 (readVolt channel setting : Step InstrumentLink FaultKind κ Float) I
        (setup.config.range.volt (I.word channel setting.offset)) I' := by
  obtain ⟨I', hregisters, hread⟩ := gives_readSetting (κ := κ) (I := I) channel
    setting hwords hroom
  refine ⟨I', hregisters, hread.bind_left (gives_range.bind_left ?_)⟩
  rw [UInt32.toUInt32_toUInt64]
  exact gives_pure _

theorem gives_updatePeriod (channel : Channel) (hroom : 13 ≤ setup.room) :
    ∃ I' : Instrument, I'.registers = I.registers ∧
      Gives setup 2 (updatePeriod channel : Step InstrumentLink FaultKind κ UInt32) I
        (I.registers channel).period I' := by
  obtain ⟨I', hregisters, hread⟩ := gives_readSetting (κ := κ) (I := I) channel
    .updatePeriod rfl hroom
  refine ⟨I', hregisters, hread.bind_left ?_⟩
  rw [UInt32.toUInt32_toUInt64]
  exact gives_pure _

theorem gives_slope (channel : Channel) (hroom : 13 ≤ setup.room) :
    ∃ I' : Instrument, I'.registers = I.registers ∧
      Gives setup 4 (slope channel : Step InstrumentLink FaultKind κ Int64) I
        (I.registers channel).slope I' := by
  have haddress : Setting.slope.address channel + 1 ≤ maxAddress :=
    Nat.le_of_lt (Nat.lt_of_le_of_lt (Nat.le_succ _) (Setting.address_lt .slope channel))
  have hread : Gives setup (selections .main + 4)
      (read (Setting.slope.address channel) 2 .main : Step InstrumentLink FaultKind κ UInt64)
      I _ _ :=
    gives_readTwo .main haddress hroom
  refine ⟨{ I with
    cursor := UInt32.ofNat (Setting.slope.address channel + 1), asked := I.asked + 2 }, rfl, ?_⟩
  exact Gives.bind_left (n := 4) hread (gives_pure _)

theorem gives_store (I : Instrument) (channel : Channel) (commands : List Command)
    (stores : List (Nat × UInt32)) (hne : commands ≠ []) (hroom : 13 ≤ setup.room)
    (hlength : (commands.flatMap Command.echo).length ≤ setup.room)
    (hecho : ∀ I : Instrument, I.answers commands = commands.flatMap Command.echo)
    (hafter : ∀ I : Instrument, I.afterAll commands = I.storeAll stores)
    (hstores : ∀ store ∈ stores, store.1 < 16) {r : Registers}
    (hr : Instrument.registersAfter I channel stores = r) :
    ∃ I' : Instrument, I'.registers = Function.update I.registers channel r ∧
      Gives setup 2 (command channel commands : Step InstrumentLink FaultKind κ Unit) I () I' := by
  refine ⟨(I.select channel).afterAll commands, ?_, gives_command hroom hne hlength hecho⟩
  rw [hafter, Instrument.registers_storeAll I channel hstores, hr]

theorem length_echo_code {command : Command} {code : UInt16}
    (harg : command.argument? = some (code.toNat : Int)) : command.echo.length ≤ 7 :=
  Command.length_echo_le_of_nat harg (by omega) (Nat.lt_trans code.toNat_lt (by omega))

theorem gives_setUpperLimit {channel : Channel} {volt : Float} {code : UInt16}
    (hroom : 13 ≤ setup.room) (hcode : setup.config.range.code volt = .ok code) :
    ∃ I' : Instrument,
      I'.registers = Function.update I.registers channel
        { I.registers channel with upperLimit := code.toUInt32 } ∧
      Gives setup 2 (setUpperLimit channel volt : Step InstrumentLink FaultKind κ Unit)
        I () I' := by
  have hlength : (Command.upperLimit code).echo.length ≤ 7 := length_echo_code rfl
  obtain ⟨I', hregisters, hcommand⟩ := gives_store (κ := κ) I channel
    [.upperLimit code] [(4, code.toUInt32)] (List.cons_ne_nil _ _) hroom
    (by rw [List.flatMap_singleton]; omega) (fun _ => rfl) (fun _ => rfl) (by simp) rfl
  refine ⟨I', hregisters, gives_range.bind_right (Gives.bind_right (a := code) ?_ hcommand)⟩
  rw [hcode]
  exact gives_ofExcept rfl

theorem gives_setLowerLimit {channel : Channel} {volt : Float} {code : UInt16}
    (hroom : 13 ≤ setup.room) (hcode : setup.config.range.code volt = .ok code) :
    ∃ I' : Instrument,
      I'.registers = Function.update I.registers channel
        { I.registers channel with lowerLimit := code.toUInt32 } ∧
      Gives setup 2 (setLowerLimit channel volt : Step InstrumentLink FaultKind κ Unit)
        I () I' := by
  have hlength : (Command.lowerLimit code).echo.length ≤ 7 := length_echo_code rfl
  obtain ⟨I', hregisters, hcommand⟩ := gives_store (κ := κ) I channel
    [.lowerLimit code] [(5, code.toUInt32)] (List.cons_ne_nil _ _) hroom
    (by rw [List.flatMap_singleton]; omega) (fun _ => rfl) (fun _ => rfl) (by simp) rfl
  refine ⟨I', hregisters, gives_range.bind_right (Gives.bind_right (a := code) ?_ hcommand)⟩
  rw [hcode]
  exact gives_ofExcept rfl

theorem gives_setUpdatePeriod {channel : Channel} {period : UInt32}
    (hroom : 13 ≤ setup.room) (hperiod : 50 ≤ period.toNat ∧ period.toNat ≤ 65535) :
    ∃ I' : Instrument,
      I'.registers = Function.update I.registers channel { I.registers channel with period } ∧
      Gives setup 2 (setUpdatePeriod channel period : Step InstrumentLink FaultKind κ Unit)
        I () I' := by
  have hlength : (Command.updatePeriod period.toUInt16).echo.length ≤ 7 := length_echo_code rfl
  have hword : period.toUInt16.toUInt32 = period := by
    rw [← UInt32.toNat_inj, UInt16.toNat_toUInt32, UInt32.toNat_toUInt16]
    omega
  obtain ⟨I', hregisters, hcommand⟩ := gives_store (κ := κ) I channel
    [.updatePeriod period.toUInt16] [(0, period.toUInt16.toUInt32)] (List.cons_ne_nil _ _) hroom
    (by rw [List.flatMap_singleton]; omega) (fun _ => rfl) (fun _ => rfl) (by simp) rfl
  rw [hword] at hregisters
  have hperiod? : period? period = some period.toUInt16 := if_pos hperiod
  refine ⟨I', hregisters, Gives.bind_right (a := period.toUInt16) ?_ hcommand⟩
  rw [hperiod?]
  exact gives_ofExcept rfl

theorem gives_setSlope {channel : Channel} {slope : Int64} (hroom : 13 ≤ setup.room)
    (hslope : slope.toInt.natAbs ≤ 2 ^ 32) :
    ∃ I' : Instrument,
      I'.registers = Function.update I.registers channel { I.registers channel with slope } ∧
      Gives setup 2 (setSlope channel slope : Step InstrumentLink FaultKind κ Unit)
        I () I' := by
  have hlength : (Command.slope slope).echo.length ≤ 10 + 3 :=
    Command.length_echo_le rfl (by omega) (by omega)
  let high := (slope.toUInt64 >>> 32).toUInt32
  let low := slope.toUInt64.toUInt32
  have hwords : high.toUInt64 <<< 32 ||| low.toUInt64 = slope.toUInt64 :=
    Instrument.or_of_words _
  have hafter : I.registersAfter channel [(6, high), (7, low)] =
      { I.registers channel with slope } := by
    show { I.registers channel with slope := (high.toUInt64 <<< 32 ||| low.toUInt64).toInt64 } = _
    rw [hwords]
    rfl
  obtain ⟨I', hregisters, hcommand⟩ := gives_store (κ := κ) I channel [.slope slope]
    [(6, high), (7, low)] (List.cons_ne_nil _ _) hroom
    (by rw [List.flatMap_singleton]; omega) (fun _ => rfl) (fun _ => rfl) (by simp) hafter
  refine ⟨I', hregisters, Gives.bind_right (gives_ensure ?_) hcommand⟩
  exact decide_eq_true hslope

variable [Clock κ]

theorem gives_setVolt {channel : Channel} {volt : Float} {code : UInt16}
    (hroom : 17 ≤ setup.room) (hdirect : setup.rampsOnSet channel = false)
    (hcode : setup.config.range.code volt = .ok code) :
    ∃ I' : Instrument,
      I'.registers = Function.update I.registers channel
        { I.registers channel with
          upperLimit := 65535, lowerLimit := 0, output := code.toUInt32 } ∧
      Gives setup 2 (setVolt channel volt : Step InstrumentLink FaultKind κ Unit)
        I () I' := by
  have hroom' : 13 ≤ setup.room := by omega
  have hupper : (Command.upperLimit maxCode).echo.length ≤ 7 := length_echo_code rfl
  have hlower : (Command.lowerLimit 0).echo.length ≤ 3 := by decide
  have hlength : (Command.setOutput code).echo.length ≤ 7 := length_echo_code rfl
  obtain ⟨I', hregisters, hcommand⟩ := gives_store (κ := κ) I channel
    [.upperLimit maxCode, .lowerLimit 0, .setOutput code]
    [(4, 65535), (5, 0), (9, code.toUInt32)] (List.cons_ne_nil _ _) hroom'
    (by
      rw [List.flatMap_cons, List.flatMap_cons, List.flatMap_singleton, List.length_append,
        List.length_append]
      omega)
    (fun _ => rfl) (fun _ => rfl) (by simp) rfl
  have hcheck : Gives setup 0 (inRange (setup.config.range.code volt) :
      Step InstrumentLink FaultKind κ UInt16) I code I := by
    rw [hcode]
    exact gives_ofExcept rfl
  refine ⟨I', hregisters, gives_range.bind_right (hcheck.bind_right ?_)⟩
  refine Gives.channelState_bind fun state hstate => ?_
  rw [if_neg (by rw [hstate, hdirect]; exact Bool.false_ne_true)]
  exact hcommand.bind_left ((gives_setMotion channel .idle).bind_left (gives_note _))

theorem gives_call {channel : Channel} {call : ChannelCall} {answer : Answer} {r : Registers}
    (hroom : 17 ≤ setup.room)
    (hdirect : ∀ volt, call = .setVolt volt → setup.rampsOnSet channel = false)
    (h : (I.registers channel).perform setup.config.range call = some (answer, r)) :
    ∃ I' : Instrument, I'.registers = Function.update I.registers channel r ∧
      Gives setup 4 (call.run channel : Step InstrumentLink FaultKind κ Answer) I answer I' := by
  have hroom' : 13 ≤ setup.room := by omega
  -- A call that reads leaves the file as it is, and one that sets something has no answer.
  have hread {α : Type} {step : Step InstrumentLink FaultKind κ α} {make : α → Answer} {a : α}
      {n : Nat} (hn : n ≤ 4)
      (hstep : ∃ I' : Instrument, I'.registers = I.registers ∧ Gives setup n step I a I') :
      ∃ I' : Instrument,
        I'.registers = Function.update I.registers channel (I.registers channel) ∧
        Gives setup 4 (do return make (← step)) I (make a) I' := by
    obtain ⟨I', hregisters, hstep⟩ := hstep
    refine ⟨I', ?_, (hstep.bind_left (gives_pure (make a))).mono hn⟩
    rw [hregisters, Function.update_eq_self]
  have hset {step : Step InstrumentLink FaultKind κ Unit} {r : Registers}
      (hstep : ∃ I' : Instrument, I'.registers = Function.update I.registers channel r ∧
        Gives setup 2 step I () I') :
      ∃ I' : Instrument, I'.registers = Function.update I.registers channel r ∧
        Gives setup 4 (do step; return Answer.done) I Answer.done I' := by
    obtain ⟨I', hregisters, hstep⟩ := hstep
    exact ⟨I', hregisters, (hstep.bind_left (gives_pure Answer.done)).mono (by omega)⟩
  have haccepted {volt : Float} {make : UInt16 → Registers}
      (h : (setup.config.range.code volt).toOption.map (fun code => (Answer.done, make code)) =
        some (answer, r)) :
      ∃ code, setup.config.range.code volt = .ok code ∧ answer = .done ∧ r = make code := by
    cases hcode : setup.config.range.code volt with
    | error outside =>
        rw [hcode] at h
        cases h
    | ok code =>
        rw [hcode] at h
        cases h
        exact ⟨code, rfl, rfl, rfl⟩
  cases call with
  | volt =>
      cases h
      exact hread (by omega) (gives_readVolt channel rfl hroom')
  | upperLimit =>
      cases h
      exact hread (by omega) (gives_readVolt channel rfl hroom')
  | lowerLimit =>
      cases h
      exact hread (by omega) (gives_readVolt channel rfl hroom')
  | updatePeriod =>
      cases h
      exact hread (by omega) (gives_updatePeriod channel hroom')
  | slope =>
      cases h
      exact hread (by omega) (gives_slope channel hroom')
  | setVolt volt =>
      obtain ⟨code, hcode, rfl, rfl⟩ := haccepted h
      exact hset (gives_setVolt hroom (hdirect volt rfl) hcode)
  | setUpperLimit volt =>
      obtain ⟨code, hcode, rfl, rfl⟩ := haccepted h
      exact hset (gives_setUpperLimit hroom' hcode)
  | setLowerLimit volt =>
      obtain ⟨code, hcode, rfl, rfl⟩ := haccepted h
      exact hset (gives_setLowerLimit hroom' hcode)
  | setUpdatePeriod period =>
      simp only [Registers.perform] at h
      split at h
      · next hperiod =>
          cases h
          exact hset (gives_setUpdatePeriod hroom' hperiod)
      · cases h
  | setSlope slope =>
      simp only [Registers.perform] at h
      split at h
      · next hslope =>
          cases h
          exact hset (gives_setSlope hroom' hslope)
      · cases h
  | _ => cases h

end Step

namespace Session

section Answers

variable {σ φ κ : Type} [Link σ φ] [Clock κ]

/-- What a run of calls answers, failed ones included. -/
def answersTo (s : Session σ φ κ) : List Call → List (Except (Error φ) Answer)
  | [] => []
  | call :: calls => (s.perform call.run).1 :: (s.perform call.run).2.answersTo calls

end Answers

variable {κ : Type} [Clock κ]

theorem answersTo_of_served {setup : Setup} {calls : List (Channel × ChannelCall)} {m : Nat}
    {I : Instrument} {s : Session InstrumentLink FaultKind κ} {answers : List Answer}
    {file : RegisterFile} (hroom : 17 ≤ setup.room)
    (hdirect : ∀ channel volt, (channel, .setVolt volt) ∈ calls →
      setup.rampsOnSet channel = false)
    (hs : Served setup I (4 * calls.length + m) s)
    (h : RegisterFile.run setup.config.range I.registers calls = some (answers, file)) :
    s.answersTo (calls.map fun call => .onChannel call.1 call.2) = answers.map .ok ∧
      (s.performAll (calls.map fun call => .onChannel call.1 call.2)).link.instrument.registers =
        file := by
  induction calls generalizing I s answers with
  | nil =>
      cases h
      exact ⟨rfl, congrArg Instrument.registers hs.instrument⟩
  | cons call calls ih =>
      obtain ⟨channel, call⟩ := call
      rw [RegisterFile.run, Option.bind_eq_bind, Option.bind_eq_some_iff] at h
      obtain ⟨⟨answer, r⟩, hcall, h⟩ := h
      rw [Option.bind_eq_bind, Option.bind_eq_some_iff] at h
      obtain ⟨⟨answers, file⟩, hcalls, h⟩ := h
      cases h
      obtain ⟨I', hregisters, hgives⟩ := Step.gives_call (κ := κ) hroom
        (fun volt hvolt => hdirect channel volt (hvolt ▸ List.mem_cons_self)) hcall
      rw [← hregisters] at hcalls
      have hlength : 4 * ((channel, call) :: calls).length + m = 4 + (4 * calls.length + m) := by
        rw [List.length_cons]
        omega
      rw [hlength] at hs
      obtain ⟨s', hperform, hs'⟩ := hgives s _ hs
      have hrun : s.perform (Call.onChannel channel call).run = (.ok answer, s') := hperform
      obtain ⟨hanswers, hfile⟩ := ih
        (fun channel volt hmem => hdirect channel volt (List.mem_cons_of_mem _ hmem)) hs' hcalls
      refine ⟨?_, ?_⟩
      · rw [List.map_cons, answersTo, hrun, hanswers, List.map_cons]
      · rw [List.map_cons, performAll, List.foldl_cons, hrun]
        exact hfile

/-- A connection with an instrument at its end is a register file: where a file accepts
the calls, none of them fails, they get the answers the file gives, and the instrument is
left with the registers of the file. The instrument may have its cursors anywhere and
anything in its memory, and it has to live for 72 bytes of answers to each call. -/
theorem answersTo_eq_run (s : Session InstrumentLink FaultKind κ)
    (calls : List (Channel × ChannelCall)) (answers : List Answer) (file : RegisterFile)
    (hcapacity : 17 ≤ s.capacity) (hterminator : s.link.terminator = s.config.terminator)
    (hunread : s.link.unread = []) (hlife : 72 * calls.length ≤ s.link.life)
    (hdirect : ∀ channel volt, (channel, ChannelCall.setVolt volt) ∈ calls →
      (s.host.channelState channel).rampOnSet = false)
    (h : RegisterFile.run s.config.range s.link.instrument.registers calls =
      some (answers, file)) :
    s.answersTo (calls.map fun call => .onChannel call.1 call.2) = answers.map .ok ∧
      (s.performAll (calls.map fun call => .onChannel call.1 call.2)).link.instrument.registers =
        file := by
  let setup : Setup :=
    { room := 17
      config := s.config
      rampsOnSet := fun channel => (s.host.channelState channel).rampOnSet }
  have hserved : Served setup s.link.instrument (4 * calls.length + 0) s :=
    { instrument := rfl
      unread := hunread
      life := by
        show (4 * calls.length + 0) * (17 + 1) ≤ s.link.life
        omega
      terminator := hterminator
      capacity := hcapacity
      config := rfl
      rampOnSet := fun _ => rfl }
  exact answersTo_of_served (Nat.le_refl 17) hdirect hserved h

/-- A connection with an instrument that has nothing in its memory yet, and writes every
second word with a sign. -/
def bench : Session InstrumentLink FaultKind SteppingClock :=
  let instrument : Instrument :=
    { slot := 255
      place := 9
      cursor := 77
      memory := fun _ => 0
      eeprom := fun _ _ => 0
      signed := fun n => n % 2 = 0
      asked := 0 }
  { link := .ofInstrument instrument 288, clock := {}, capacity := 17 }

theorem answersTo_bench :
    bench.answersTo
        [.onChannel ⟨0, 0⟩ (.setVolt 5), .onChannel ⟨4, 3⟩ (.setSlope (-5)),
          .onChannel ⟨4, 3⟩ .slope, .onChannel ⟨0, 0⟩ .slope] =
      [.ok .done, .ok .done, .ok (.slope (-5)), .ok (.slope 0)] := by
  have hcode : ((default : VoltageRange).code 5).toOption = some 65535 := by decide +kernel
  have hdirect (channel : Channel) : (bench.host.channelState channel).rampOnSet = false := by
    show ((Vector.replicate 20 ({} : ChannelState))[channel.index]).rampOnSet = false
    simp
  obtain ⟨file, hrun⟩ : ∃ file,
      RegisterFile.run bench.config.range bench.link.instrument.registers
        [(⟨0, 0⟩, .setVolt 5), (⟨4, 3⟩, .setSlope (-5)), (⟨4, 3⟩, .slope), (⟨0, 0⟩, .slope)] =
        some ([.done, .done, .slope (-5), .slope 0], file) := by
    rw [RegisterFile.run, Registers.perform]
    show ∃ file, (Option.map _ ((default : VoltageRange).code 5).toOption).bind _ = _
    rw [hcode]
    exact ⟨_, rfl⟩
  exact (answersTo_eq_run bench
    [(⟨0, 0⟩, .setVolt 5), (⟨4, 3⟩, .setSlope (-5)), (⟨4, 3⟩, .slope), (⟨0, 0⟩, .slope)]
    [.done, .done, .slope (-5), .slope 0] file (Nat.le_refl 17) rfl rfl (Nat.le_refl 288)
    (fun channel _ _ => hdirect channel) hrun).1

end Session

end DacRack
