import DacRack.Proofs.Transactions

/-!
# What calls are composed of

The driver has a small repertoire. `Plain target commands` lists it: every row of
commands that is ever put together, with what it acts on. A text that a caller wants
sent as it is stands apart from it.

Out of these come a few operations, each of which selects what it means before it
acts: a transaction with a slot or a channel, and reading and writing memory. Every
call is composed of them, of steps that leave the link alone, and of waits.
`Composed aims text? step` says so for a step that acts on what `aims` holds of and
sends no text but `text?`. That every call is so composed is one walk along all of them
(`composed_call_of_touches`), and `Call.Touches` is what a call acts on. A fact about all
calls is then an induction with one case for each operation, and what the calls look like
does not matter to it.
-/

namespace DacRack

/-- The repertoire: rows of commands with what they are meant for. -/
inductive Plain : Target → List Command → Prop
  | selectSlot (slot : UInt8) : Plain .instrument [.selectSlot slot]
  | selectChannel (channel : Channel) :
      Plain .instrument [.selectSlot (UInt8.ofNat channel.slot),
        .selectChannel (UInt8.ofNat channel.place)]
  | moveCursor (address : UInt32) : Plain .instrument [.moveCursor address]
  | askCalibration : Plain .instrument [.askCalibration]
  | query (bank : Bank) (address : UInt32) : Plain (.word bank address) [bank.query]
  | store (bank : Bank) (address word : UInt32) :
      Plain (.word bank address) [bank.store word]
  | setMode (slot : Fin slotCount) (mode : SlotMode) :
      Plain (.slot slot) [.setSlotMode mode.number]
  | askMode (slot : Fin slotCount) : Plain (.slot slot) [.askSlotMode]
  | jump (channel : Channel) (code : UInt16) :
      Plain (.channel channel) [.upperLimit maxCode, .lowerLimit 0, .setOutput code]
  | upperLimit (channel : Channel) (code : UInt16) :
      Plain (.channel channel) [.upperLimit code]
  | lowerLimit (channel : Channel) (code : UInt16) :
      Plain (.channel channel) [.lowerLimit code]
  | slope (channel : Channel) {slope : Int64} (h : slopeFits slope) :
      Plain (.channel channel) [.slope slope]
  | updatePeriod (channel : Channel) {period : UInt16} (h : minPeriod ≤ period.toNat) :
      Plain (.channel channel) [.updatePeriod period]

/-- What can be read: one or two words, the first of which lies in the memory. -/
structure ReadAccepted (address : Int) (words : Nat) : Prop where
  some_word : 0 < words
  few : words ≤ 2
  nonneg : 0 ≤ address
  le_max : address ≤ maxAddress

/-- What can be written: a word, to an address in the memory. -/
structure WriteAccepted (address value : Int) : Prop where
  nonneg : 0 ≤ address
  le_max : address ≤ maxAddress
  value_nonneg : 0 ≤ value
  value_lt : value < wordLimit

variable {σ φ κ α β : Type}

namespace Step

/-- A step that is put together from the operations of the driver, acts on what `aims`
holds of and sends no text of a caller's but `text?`. -/
inductive Composed [Link σ φ] (aims : Target → Prop) (text? : Option (Target × String)) :
    ∀ {α : Type}, Step σ φ κ α → Prop
  | silent {α : Type} {step : Step σ φ κ α} (h : Silent step) : Composed aims text? step
  | bind {α β : Type} {step : Step σ φ κ α} {next : α → Step σ φ κ β}
      (h : Composed aims text? step) (hnext : ∀ a, Composed aims text? (next a)) :
      Composed aims text? (step >>= next)
  | attempt {α : Type} {step : Step σ φ κ α} (h : Composed aims text? step) :
      Composed aims text? (attempt step)
  | repeatUntil {round : Step σ φ κ Bool} (draws : Draws 1 round)
      (h : Composed aims text? round) : Composed aims text? (repeatUntil round draws)
  | askCalibration : Composed aims text? (transact .instrument [.askCalibration])
  | transactSlot {slot : Fin slotCount} {commands : List Command}
      (ht : aims (.slot slot)) (h : Plain (.slot slot) commands) :
      Composed aims text? (transactSlot slot commands)
  | transactChannel {channel : Channel} {commands : List Command}
      (ht : aims (.channel channel)) (h : Plain (.channel channel) commands) :
      Composed aims text? (transactChannel channel commands)
  | read {address : Int} {words : Nat} {bank : Bank}
      (ht : ReadAccepted address words → ∀ a : UInt32, address ≤ a.toNat →
        (a.toNat : Int) < address + words → aims (.word bank a)) :
      Composed aims text? (read address words bank)
  | write {address value : Int} {bank : Bank}
      (ht : WriteAccepted address value → ∀ a : UInt32, (a.toNat : Int) = address →
        aims (.word bank a)) : Composed aims text? (write address value bank)
  | ask {text : String} (h : text? = some (.instrument, text)) :
      Composed aims text? (ask text)
  | askSlot {slot : Fin slotCount} {text : String} (h : text? = some (.slot slot, text)) :
      Composed aims text? (askSlot slot text)
  | askChannel {channel : Channel} {text : String}
      (h : text? = some (.channel channel, text)) :
      Composed aims text? (askChannel channel text)

section

variable [Link σ φ] {aims : Target → Prop} {text? : Option (Target × String)}

theorem Silent.composed {step : Step σ φ κ α} (h : Silent step) :
    Composed aims text? step := .silent h

/-- What follows a check that is made without asking the instrument may rely on what
the check found. -/
theorem Composed.ofExcept_bind {result : Except (Error φ) α} {next : α → Step σ φ κ β}
    (hnext : ∀ a, result = .ok a → Composed aims text? (next a)) :
    Composed aims text? (ofExcept result >>= next) := by
  cases result with
  | error e => exact (silent_throw e).composed
  | ok a => exact hnext a rfl

theorem Composed.ensure_bind {e : Error φ} {condition : Bool}
    {next : Unit → Step σ φ κ β} (hnext : condition = true → Composed aims text? (next ())) :
    Composed aims text? (ensure e condition >>= next) := by
  refine Composed.ofExcept_bind fun a ha => ?_
  cases condition with
  | false => cases ha
  | true => exact hnext rfl

theorem Composed.require_bind {e : Error φ} {a? : Option α} {next : α → Step σ φ κ β}
    (hnext : ∀ a, a? = some a → Composed aims text? (next a)) :
    Composed aims text? (require e a? >>= next) := by
  refine Composed.ofExcept_bind fun a ha => ?_
  cases a? with
  | none => cases ha
  | some a' =>
      cases ha
      exact hnext _ rfl

theorem Composed.forM {step : β → Step σ φ κ PUnit} (items : List β)
    (h : ∀ item, Composed aims text? (step item)) :
    Composed aims text? (items.forM step) := by
  induction items with
  | nil => exact (silent_pure _).composed
  | cons item items ih => exact (h item).bind fun _ => ih

theorem composed_command {channel : Channel} (ht : aims (.channel channel))
    {commands : List Command} (h : Plain (.channel channel) commands) :
    Composed aims text? (command channel commands : Step σ φ κ Unit) :=
  (Composed.transactChannel ht h).bind fun _ =>
    ((silent_understand _).bind fun _ => silent_pure _).composed

theorem composed_setMode {slot : Fin slotCount} (ht : aims (.slot slot)) (mode : SlotMode) :
    Composed aims text? (setMode slot mode : Step σ φ κ Unit) := by
  refine silent_host.composed.bind fun host => ?_
  refine (silent_ensure _ _).composed.bind fun _ => ?_
  refine (Composed.transactSlot ht (.setMode slot mode)).bind fun reply => ?_
  refine (silent_understand _).composed.bind fun _ => ?_
  exact (silent_modifyHost _).composed.bind fun _ => (silent_note (by simp)).composed

theorem composed_queryMode {slot : Fin slotCount} (ht : aims (.slot slot)) :
    Composed aims text? (queryMode slot : Step σ φ κ SlotMode) := by
  refine (Composed.transactSlot ht (.askMode slot)).bind fun reply => ?_
  exact ((silent_understand _).bind fun number => silent_understand _).composed

end

end Step

/-- A word of some slot's EEPROM. -/
def Target.InEeprom : Target → Prop
  | .word (.slotEeprom _) _ => True
  | _ => False

/-- What an operation on a channel may act on: the channel itself, the words of its
block, and the EEPROM of its slot. -/
def Channel.Owns (channel : Channel) : Target → Prop
  | .instrument => True
  | .slot _ => False
  | .channel other => other = channel
  | .word .main address =>
      channel.base ≤ address.toNat ∧ address.toNat < channel.base + blockSize
  | .word (.slotEeprom slot) _ => slot = UInt8.ofNat channel.slot

/-- The words that are looked at to find out what an instrument is. -/
def Probed : Target → Prop
  | .instrument => True
  | .word .main address =>
      address.toNat ∈ [eepromIdentityAddress, hardwareVersionAddress, serialNumberAddress]
  | .word (.slotEeprom slot) address => slot = 0 ∧ address.toNat = slotEepromTestAddress
  | _ => False

/-- What a call names, and so may act on. -/
def Call.Aims : Call → Target → Prop
  | _, .instrument => True
  | .identify, target => Probed target
  | .setAll _, target | .rampAll _ _, target => ∃ channel : Channel, channel.Owns target
  | .read first words bank, .word other address =>
      other = bank ∧ first ≤ address.toNat ∧ (address.toNat : Int) < first + words
  | .write address _ bank, .word other address' => other = bank ∧ address'.toNat = address
  | .onSlot number _, .slot slot => slot.val = number
  | .onChannel channel _, target => channel.Owns target
  | _, _ => False

/-- The operations on a channel that are about its power-on value, which is kept in the
EEPROM of its slot. -/
def ChannelCall.usesEeprom : ChannelCall → Bool
  | powerOnVolt | setPowerOnVolt _ => true
  | _ => false

/-- The calls that may act on a word of an EEPROM. -/
def Call.usesEeprom : Call → Bool
  | identify | read .. | write .. => true
  | onChannel _ call => call.usesEeprom
  | _ => false

/-- What a call requires of the numbers it is given as an address and a value. -/
def Call.Accepted : Call → Prop
  | read first words _ => ReadAccepted first words
  | write address value _ => WriteAccepted address value
  | _ => True

/-- What a call comes to act on: something it names, and of the words only those that the
memory has and that it may act on, once it accepted its numbers. Two words that are read
from the end of the memory go one beyond it. -/
structure Call.Touches (call : Call) (target : Target) : Prop where
  named : call.Aims target
  eeprom : target.InEeprom → call.usesEeprom = true
  accepted : ∀ bank address, target = .word bank address → call.Accepted
  within : ∀ bank address, target = .word bank address → address.toNat ≤ maxAddress ∨
    call = .read maxAddress 2 bank ∧ address.toNat = maxAddress + 1

theorem Call.aims_instrument (call : Call) : call.Aims .instrument := by
  cases call <;> trivial

theorem Channel.Owns.le_maxAddress {channel : Channel} {bank : Bank} {address : UInt32}
    (h : channel.Owns (.word bank address)) (hmain : ¬ (Target.word bank address).InEeprom) :
    address.toNat ≤ maxAddress := by
  cases bank with
  | slotEeprom slot => exact absurd trivial hmain
  | main =>
      have hslot := channel.slot.isLt
      have hplace := channel.place.isLt
      obtain ⟨-, hend⟩ := h
      simp only [Channel.base, blockBase, blockSize, channelsPerSlot, slotCount, maxAddress]
        at hend hslot hplace ⊢
      omega

theorem Probed.le_maxAddress {bank : Bank} {address : UInt32}
    (h : Probed (.word bank address)) : address.toNat ≤ maxAddress := by
  cases bank with
  | main =>
      simp only [Probed, List.mem_cons, List.not_mem_nil, or_false] at h
      rcases h with h | h | h <;> rw [h] <;> decide
  | slotEeprom slot =>
      rw [h.2]
      decide

/-- A word outside the EEPROMs that belongs to a channel is in the memory. -/
theorem Call.Touches.of_owns {call : Call} {channel : Channel} {target : Target}
    (hnamed : call.Aims target) (haccepted : call.Accepted) (hmain : ¬ target.InEeprom)
    (h : channel.Owns target) : call.Touches target where
  named := hnamed
  eeprom he := absurd he hmain
  accepted _ _ _ := haccepted
  within := by
    rintro bank address rfl
    exact .inl (h.le_maxAddress hmain)

/-- The text a call is to send as it is, and what it is to act on. -/
def Call.asks? : Call → Option (Target × String)
  | .ask text => some (.instrument, text)
  | .onSlot number (.ask text) =>
      if h : number < slotCount then some (.slot ⟨number, h⟩, text) else none
  | .onChannel channel (.ask text) => some (.channel channel, text)
  | _ => none

theorem plain_limitCommand (channel : Channel) (plan : Ramp) :
    Plain (.channel channel) [Step.limitCommand plan] := by
  unfold Step.limitCommand
  split
  · exact .upperLimit channel _
  · exact .lowerLimit channel _

theorem minPeriod_le_of_period? {period : UInt32} {us : UInt16}
    (h : period? period = some us) : minPeriod ≤ us.toNat := by
  unfold period? at h
  split at h
  · next hin =>
      cases h
      simp only [minPeriod, maxPeriod] at hin ⊢
      rw [UInt32.toNat_toUInt16, Nat.mod_eq_of_lt (by omega)]
      exact hin.1
  · cases h

namespace Step

variable [Link σ φ] {aims : Target → Prop} {text? : Option (Target × String)}

/-! The power-on value of a channel is a word of its slot's EEPROM. -/

section

variable {channel : Channel}
  (heeprom : ∀ address : UInt32, address.toNat ≤ maxAddress →
    aims (.word (.slotEeprom (UInt8.ofNat channel.slot)) address))

include heeprom

theorem composed_powerOnVolt :
    Composed aims text? (powerOnVolt channel : Step σ φ κ Float) := by
  refine (silent_powerOnAddress channel).composed.bind fun address => ?_
  refine Composed.bind (.read fun hread a _ hhi => heeprom a ?_) fun code => ?_
  · have hmax := hread.le_max
    omega
  · exact (silent_range.bind fun _ => silent_pure _).composed

theorem composed_setPowerOnVolt (volt : Float) :
    Composed aims text? (setPowerOnVolt channel volt : Step σ φ κ Unit) := by
  refine (silent_powerOnAddress channel).composed.bind fun address => ?_
  refine silent_range.composed.bind fun range => ?_
  refine (silent_inRange _).composed.bind fun code => ?_
  refine .write fun hwrite a ha => heeprom a ?_
  have hmax := hwrite.le_max
  omega

end

/-! The other operations on a channel that `aims` holds of. -/

section

variable {channel : Channel}
  (howns : ∀ target, ¬ target.InEeprom → channel.Owns target → aims target)

include howns

theorem composed_readSetting (setting : Setting) :
    Composed aims text? (readSetting channel setting : Step σ φ κ UInt64) := by
  refine .read fun _ a hlo hhi => howns _ id ?_
  have hend := setting.offset_add_words_le
  simp only [Setting.address] at hlo hhi
  constructor <;> omega

theorem composed_readVolt (setting : Setting) :
    Composed aims text? (readVolt channel setting : Step σ φ κ Float) :=
  (composed_readSetting howns setting).bind fun _ =>
    (silent_range.bind fun _ => silent_pure _).composed

theorem composed_updatePeriod :
    Composed aims text? (updatePeriod channel : Step σ φ κ UInt32) :=
  (composed_readSetting howns _).bind fun _ => (silent_pure _).composed

theorem composed_slope : Composed aims text? (slope channel : Step σ φ κ Int64) :=
  (composed_readSetting howns _).bind fun _ => (silent_pure _).composed

theorem composed_setLowerLimit (volt : Float) :
    Composed aims text? (setLowerLimit channel volt : Step σ φ κ Unit) :=
  silent_range.composed.bind fun _ => (silent_inRange _).composed.bind fun code =>
    composed_command (howns _ id rfl) (.lowerLimit channel code)

theorem composed_setUpperLimit (volt : Float) :
    Composed aims text? (setUpperLimit channel volt : Step σ φ κ Unit) :=
  silent_range.composed.bind fun _ => (silent_inRange _).composed.bind fun code =>
    composed_command (howns _ id rfl) (.upperLimit channel code)

theorem composed_setUpdatePeriod (period : UInt32) :
    Composed aims text? (setUpdatePeriod channel period : Step σ φ κ Unit) :=
  Composed.require_bind fun _ hus =>
    composed_command (howns _ id rfl) (.updatePeriod channel (minPeriod_le_of_period? hus))

theorem composed_setSlope (slope : Int64) :
    Composed aims text? (setSlope channel slope : Step σ φ κ Unit) :=
  Composed.ensure_bind fun hfits => composed_command (howns _ id rfl) (.slope channel hfits)

theorem composed_startRamp (current target rate : Float) :
    Composed aims text? (startRamp channel current target rate : Step σ φ κ Unit) := by
  refine (composed_updatePeriod howns).bind fun period => ?_
  refine silent_range.composed.bind fun range => ?_
  refine (silent_inRange _).composed.bind fun plan => ?_
  refine Composed.ensure_bind fun hfits => ?_
  refine (composed_command (howns _ id rfl) (plain_limitCommand channel plan)).bind fun _ => ?_
  refine (composed_command (howns _ id rfl) (.slope channel hfits)).bind fun _ => ?_
  exact ((silent_setMotion _ _).bind fun _ => silent_note (by simp)).composed

variable [Clock κ]

theorem composed_awaitRest (wait : Wait) :
    Composed aims text? (awaitRest channel wait : Step σ φ κ Unit) := by
  refine .repeatUntil _ ?_
  refine (composed_slope howns).bind fun slope => ?_
  split
  · exact (silent_pure _).composed
  · exact ((silent_tick wait).bind fun _ => silent_pure _).composed

theorem composed_settle : Composed aims text? (settle channel : Step σ φ κ Unit) :=
  silent_startWait.composed.bind fun wait => (composed_awaitRest howns wait).bind fun _ =>
    (silent_setMotion _ _).composed

theorem composed_ramp (target rate : Float) (wait : Bool) :
    Composed aims text? (ramp channel target rate wait : Step σ φ κ Unit) := by
  refine (silent_ensure _ _).composed.bind fun _ => ?_
  refine silent_range.composed.bind fun range => ?_
  refine (silent_inRange _).composed.bind fun _ => ?_
  refine (composed_readVolt howns _).bind fun current => ?_
  split
  · exact (silent_pure _).composed
  · refine (composed_startRamp howns current target rate).bind fun _ => ?_
    split
    · exact composed_settle howns
    · exact (silent_pure _).composed

theorem composed_setVolt (volt : Float) :
    Composed aims text? (setVolt channel volt : Step σ φ κ Unit) := by
  refine silent_range.composed.bind fun range => ?_
  refine (silent_inRange _).composed.bind fun code => ?_
  refine (silent_channelState channel).composed.bind fun state => ?_
  split
  · exact composed_ramp howns _ _ _
  · refine (composed_command (howns _ id rfl) (.jump channel code)).bind fun _ => ?_
    exact ((silent_setMotion _ _).bind fun _ => silent_note (by simp)).composed

theorem composed_channelCall (call : ChannelCall)
    (heeprom : call.usesEeprom = true → ∀ address : UInt32, address.toNat ≤ maxAddress →
      aims (.word (.slotEeprom (UInt8.ofNat channel.slot)) address))
    (hasks : ∀ text, call = .ask text → text? = some (.channel channel, text)) :
    Composed aims text? (call.run channel : Step σ φ κ Answer) := by
  cases call with
  | volt => exact (composed_readVolt howns _).bind fun _ => (silent_pure _).composed
  | setVolt v => exact (composed_setVolt howns v).bind fun _ => (silent_pure _).composed
  | ramp target rate wait =>
      exact (composed_ramp howns target rate wait).bind fun _ => (silent_pure _).composed
  | settle => exact (composed_settle howns).bind fun _ => (silent_pure _).composed
  | setRampOnSet enable =>
      exact ((silent_setRampOnSet _ _).bind fun _ => silent_pure _).composed
  | setRampRate rate =>
      refine Composed.bind ?_ fun _ => (silent_pure _).composed
      exact ((silent_ensure _ _).bind fun _ => silent_modifyHost _).composed
  | lowerLimit => exact (composed_readVolt howns _).bind fun _ => (silent_pure _).composed
  | upperLimit => exact (composed_readVolt howns _).bind fun _ => (silent_pure _).composed
  | setLowerLimit v =>
      exact (composed_setLowerLimit howns v).bind fun _ => (silent_pure _).composed
  | setUpperLimit v =>
      exact (composed_setUpperLimit howns v).bind fun _ => (silent_pure _).composed
  | updatePeriod => exact (composed_updatePeriod howns).bind fun _ => (silent_pure _).composed
  | setUpdatePeriod period =>
      exact (composed_setUpdatePeriod howns period).bind fun _ => (silent_pure _).composed
  | slope => exact (composed_slope howns).bind fun _ => (silent_pure _).composed
  | setSlope n => exact (composed_setSlope howns n).bind fun _ => (silent_pure _).composed
  | powerOnVolt => exact (composed_powerOnVolt (heeprom rfl)).bind fun _ => (silent_pure _).composed
  | setPowerOnVolt v =>
      exact (composed_setPowerOnVolt (heeprom rfl) v).bind fun _ => (silent_pure _).composed
  | ask text =>
      exact Composed.bind (.askChannel (hasks text rfl)) fun _ => (silent_pure _).composed

end

/-! Connecting, and finding out again who the instrument is. -/

section

variable (hprobed : ∀ target, Probed target → aims target)

include hprobed

theorem composed_probeWord {address : Nat} {bank : Bank} {next : UInt64 → Step σ φ κ α}
    {recover : Error φ → Step σ φ κ α}
    (ht : ∀ a : UInt32, a.toNat = address → Probed (.word bank a))
    (hnext : ∀ value, Silent (next value)) (hrecover : ∀ e, Silent (recover e)) :
    Composed aims text? (do
      match ← attempt (read address 1 bank) with
      | .ok value => next value
      | .error e => recover e) := by
  refine Composed.bind (.attempt (.read fun _ a hlo hhi => hprobed _ (ht a ?_))) fun r => ?_
  · omega
  · cases r with
    | ok value => exact (hnext value).composed
    | error e => exact (hrecover e).composed

theorem composed_probeEeprom :
    Composed aims text? (probeEeprom : Step σ φ κ Bool) := by
  refine composed_probeWord hprobed (fun a ha => ?_) (fun _ => silent_pure _) fun e => ?_
  · simp [Probed, ha]
  · exact (silent_note (by simp)).bind fun _ => silent_pure _

theorem composed_probeSlotEeprom :
    Composed aims text? (probeSlotEeprom : Step σ φ κ Unit) := by
  refine composed_probeWord hprobed (fun a ha => ⟨rfl, ha⟩) (fun _ => ?_) fun e => ?_
  · exact silent_note (by simp)
  · exact silent_note (by simp)

theorem composed_readIdentityWord {address : Nat} (probe : Probe)
    (h : address ∈ [eepromIdentityAddress, hardwareVersionAddress, serialNumberAddress]) :
    Composed aims text? (readIdentityWord probe address : Step σ φ κ UInt64) := by
  refine composed_probeWord hprobed (fun a ha => ?_) (fun _ => silent_pure _) fun e => ?_
  · rw [← ha] at h
    exact h
  · exact (silent_note (by simp)).bind fun _ => silent_pure _

theorem composed_readIdentity :
    Composed aims text? (readIdentity : Step σ φ κ Identity) :=
  (composed_readIdentityWord hprobed _ (by simp)).bind fun _ =>
    (composed_readIdentityWord hprobed _ (by simp)).bind fun _ => (silent_pure _).composed

omit hprobed in
theorem composed_probeCalibration :
    Composed aims text? (probeCalibration : Step σ φ κ Bool) := by
  refine Composed.bind (.attempt .askCalibration) fun result => ?_
  cases result with
  | error e => exact ((silent_note (by simp)).bind fun _ => silent_pure _).composed
  | ok reply =>
      simp only []
      split
      · exact (silent_pure _).composed
      · exact ((silent_note (by simp)).bind fun _ => silent_pure _).composed

theorem composed_probe :
    Composed aims text? (probe : Step σ φ κ (Features × Identity)) := by
  refine (composed_probeEeprom hprobed).bind fun eeprom => ?_
  refine (composed_probeSlotEeprom hprobed).bind fun _ => ?_
  refine composed_probeCalibration.bind fun calibration => ?_
  have hrest (identity : Identity) : Composed aims text? (do
      note (.probed { eeprom, calibration } identity)
      return ({ eeprom, calibration }, identity) : Step σ φ κ (Features × Identity)) :=
    ((silent_note (by simp)).bind fun _ => silent_pure _).composed
  cases eeprom with
  | true => exact (composed_readIdentity hprobed).bind hrest
  | false => exact (silent_pure _).composed.bind hrest

theorem composed_identify :
    Composed aims text? (identify : Step σ φ κ Identity) :=
  (composed_probe hprobed).bind fun _ =>
    ((silent_modifyHost _).bind fun _ => silent_pure _).composed

/-- Connecting looks at what is probed and acts on slots. -/
theorem composed_connect [Clock κ] (hslot : ∀ slot, aims (.slot slot)) :
    Composed aims text? (connect : Step σ φ κ Unit) := by
  refine silent_now.composed.bind fun started => ?_
  refine (composed_probe hprobed).bind fun found => ?_
  refine (silent_modifyHost _).composed.bind fun _ => ?_
  have hmodes : Composed aims text? (do
      let mode := (← get).config.slotMode
      (List.finRange slotCount).forM fun slot => setMode slot mode
      let elapsed := (← now).since? started
      note (.connected found.2 (elapsed.getD 0)) : Step σ φ κ Unit) := by
    refine silent_get.composed.bind fun s => ?_
    refine Composed.bind ?_ fun _ =>
      (silent_now.bind fun _ => silent_note (by simp)).composed
    exact Composed.forM _ fun slot => composed_setMode (hslot slot) _
  simp only []
  split
  · exact (Composed.forM _ fun channel => (silent_exposePowerOn channel).composed.bind fun _ =>
      (silent_pure _).composed).bind fun _ => hmodes
  · exact hmodes

end

theorem composed_slotCall {slot : Fin slotCount} (ht : aims (.slot slot)) (call : SlotCall)
    (hasks : ∀ text, call = .ask text → text? = some (.slot slot, text)) :
    Composed aims text? (call.run slot : Step σ φ κ Answer) := by
  cases call with
  | mode => exact (silent_host.bind fun _ => silent_pure _).composed
  | setMode mode => exact (composed_setMode ht mode).bind fun _ => (silent_pure _).composed
  | queryMode => exact (composed_queryMode ht).bind fun _ => (silent_pure _).composed
  | channel number => exact ((silent_require _ _).bind fun _ => silent_pure _).composed
  | ask text =>
      exact Composed.bind (.askSlot (hasks text rfl)) fun _ => (silent_pure _).composed

/-- A fact about what every call touches is one about what its parts act on. -/
theorem composed_call_of_touches [Clock κ] (call : Call)
    (haims : ∀ target, call.Touches target → aims target) :
    Composed aims call.asks? (call.run : Step σ φ κ Answer) := by
  cases call with
  | identify =>
      refine (composed_identify fun target h => haims target ?_).bind fun _ =>
        (silent_pure _).composed
      refine ⟨by cases target <;> exact h, fun _ => rfl, fun _ _ _ => trivial, ?_⟩
      rintro bank address rfl
      exact .inl h.le_maxAddress
  | setAll volt =>
      have howns (channel : Channel) (target : Target) (he : ¬ target.InEeprom)
          (h : channel.Owns target) : aims target :=
        haims target (.of_owns (by cases target <;> first | trivial | exact ⟨channel, h⟩)
          trivial he h)
      refine Composed.bind (.forM _ fun channel => ?_) fun _ => (silent_pure _).composed
      exact composed_setVolt (howns channel) volt
  | rampAll target rate =>
      have howns (channel : Channel) (aim : Target) (he : ¬ aim.InEeprom)
          (h : channel.Owns aim) : aims aim :=
        haims aim (.of_owns (by cases aim <;> first | trivial | exact ⟨channel, h⟩)
          trivial he h)
      refine Composed.bind ?_ fun _ => (silent_pure _).composed
      refine Composed.bind (.forM _ fun channel => ?_) fun _ => ?_
      · exact composed_ramp (howns channel) target rate false
      · refine (silent_note (by simp)).composed.bind fun _ => ?_
        refine silent_startWait.composed.bind fun wait => .forM _ fun channel => ?_
        exact (composed_awaitRest (howns channel) wait).bind fun _ =>
          (silent_setMotion _ _).composed
  | read first words bank =>
      refine Composed.bind (.read fun hread a hlo hhi => haims _ ?_) fun _ =>
        (silent_pure _).composed
      refine ⟨⟨rfl, hlo, hhi⟩, fun _ => rfl, fun _ _ _ => hread, ?_⟩
      rintro _ _ ⟨⟩
      obtain ⟨-, hfew, -, hmax⟩ := hread
      -- Behind the memory there is only the second word of a read at its last address.
      by_cases hend : a.toNat ≤ maxAddress
      · exact .inl hend
      · obtain rfl : words = 2 := by omega
        obtain rfl : first = maxAddress := by omega
        exact .inr ⟨rfl, by omega⟩
  | write address value bank =>
      refine Composed.bind (.write fun hwrite a ha => haims _ ?_) fun _ =>
        (silent_pure _).composed
      refine ⟨⟨rfl, ha⟩, fun _ => rfl, fun _ _ _ => hwrite, ?_⟩
      rintro _ _ ⟨⟩
      have hmax := hwrite.le_max
      exact .inl (by omega)
  | ask text =>
      have hask : Composed aims (Call.ask text).asks?
          (Step.ask text : Step σ φ κ String) := .ask rfl
      exact hask.bind fun _ => (silent_pure _).composed
  | onSlot number call =>
      change Composed _ _
        (slotNumbered number >>= fun slot => (call.run slot : Step σ φ κ Answer))
      unfold slotNumbered
      split
      · next h =>
          have hslot : aims (.slot ⟨number, h⟩) :=
            haims _ ⟨rfl, False.elim, fun _ _ _ => trivial, nofun⟩
          refine composed_slotCall hslot call fun text hask => ?_
          rw [hask]
          exact dif_pos h
      · exact (silent_throw _).composed
  | onChannel channel call =>
      have howns (target : Target) (he : ¬ target.InEeprom) (h : channel.Owns target) :
          aims target :=
        haims target (.of_owns (by cases target <;> exact h) trivial he h)
      refine composed_channelCall howns call (fun huses address hmax => ?_) fun text hask => ?_
      · refine haims _ ⟨rfl, fun _ => huses, fun _ _ _ => trivial, ?_⟩
        rintro _ _ ⟨⟩
        exact .inl hmax
      · rw [hask]
        rfl

/-- A call acts on what it names. -/
theorem composed_call [Clock κ] (call : Call) :
    Composed call.Aims call.asks? (call.run : Step σ φ κ Answer) :=
  composed_call_of_touches call fun _ h => h.named

end Step

end DacRack
