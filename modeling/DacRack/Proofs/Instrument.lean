import DacRack.Journal
import DacRack.Proofs.Lines
import DacRack.Proofs.Replies
import DacRack.Proofs.Wire
import Mathlib.Logic.Function.Basic

/-!
# An instrument

The driver was written for an instrument, and what it achieves is a statement about
the two together. This is the instrument as its command set and its memory map
describe it: three cursors, a word memory with a block of sixteen words for each
channel, and the EEPROM of each slot. Commands to a channel store their arguments in
the block of the active one. The block addresses and offsets are spelled out here once
more, so that nothing of the driver's own arithmetic enters.

A word that is asked for may be written without a sign or as a number of 32 bits with
a sign, which is left open for every single answer (`signed`).

`InstrumentLink` is a link with the instrument behind it: it reads the commands off
the bytes that were sent, executes them and answers with one line. What a link has yet
to deliver is bounded, so that an instrument has a `life`: the bytes it may still send.
-/

namespace DacRack

structure Instrument where
  /-- The active slot. -/
  slot : UInt8
  /-- The place of the active channel in its slot. -/
  place : UInt8
  /-- Where the memory cursor stands. -/
  cursor : UInt32
  memory : UInt32 → UInt32
  eeprom : UInt8 → UInt32 → UInt32
  /-- Whether the answer to a question for a word has a sign, by how many came before. -/
  signed : Nat → Bool
  /-- How many words were asked for. -/
  asked : Nat

namespace Instrument

/-- The address of a word in the block of a channel. -/
def wordAddress (slot place offset : Nat) : UInt32 :=
  UInt32.ofNat (1536 + 64 * slot + 16 * place + offset)

def store (address word : UInt32) (I : Instrument) : Instrument :=
  { I with memory := Function.update I.memory address word }

/-- Stores a word in the block of the active channel. -/
def storeActive (offset : Nat) (word : UInt32) (I : Instrument) : Instrument :=
  I.store (wordAddress I.slot.toNat I.place.toNat offset) word

def select (channel : Channel) (I : Instrument) : Instrument :=
  { I with slot := UInt8.ofNat channel.slot, place := UInt8.ofNat channel.place }

/-- What a command makes of the instrument. -/
def after (I : Instrument) : Command → Instrument
  | .selectSlot slot => { I with slot }
  | .selectChannel place => { I with place }
  | .moveCursor cursor => { I with cursor }
  | .readMemory | .readSlotEeprom => { I with asked := I.asked + 1 }
  | .writeMemory word => I.store I.cursor word
  | .writeSlotEeprom word =>
    let words := Function.update (I.eeprom I.slot) I.cursor word
    { I with eeprom := Function.update I.eeprom I.slot words }
  | .upperLimit code => I.storeActive 4 code.toUInt32
  | .lowerLimit code => I.storeActive 5 code.toUInt32
  | .slope slope =>
    (I.storeActive 6 (slope.toUInt64 >>> 32).toUInt32).storeActive 7 slope.toUInt64.toUInt32
  | .updatePeriod period => I.storeActive 0 period.toUInt32
  | .setOutput code => I.storeActive 9 code.toUInt32
  | .setSlotMode _ | .askSlotMode | .askCalibration => I

/-- A word as it is written in the next answer. -/
def written (I : Instrument) (word : UInt32) : Int :=
  if I.signed I.asked then word.toInt32.toInt else word.toNat

/-- The answer to a command: a word that was asked for, or an echo. -/
def answer (I : Instrument) (command : Command) : List Char :=
  match command with
  | .readMemory => 'p' :: Text.intDigits (I.written (I.memory I.cursor)) ++ ['!']
  | .readSlotEeprom => 'e' :: Text.intDigits (I.written (I.eeprom I.slot I.cursor)) ++ ['!']
  | command => command.echo

def words (I : Instrument) : Bank → UInt32 → UInt32
  | .main => I.memory
  | .slotEeprom slot => I.eeprom slot

/-- The instrument with the slot active whose EEPROM is meant. -/
def turnTo (I : Instrument) : Bank → Instrument
  | .main => I
  | .slotEeprom slot => { I with slot }

/-- The EEPROM that is meant, if one is, is that of the active slot. -/
def Faces (I : Instrument) (bank : Bank) : Prop :=
  ∀ slot, bank.slot? = some slot → I.slot = slot

/-- The instrument after the commands of a transaction. -/
def afterAll (I : Instrument) (commands : List Command) : Instrument :=
  commands.foldl after I

/-- The answers to the commands of a transaction, each given before the next command. -/
def answers (I : Instrument) : List Command → List Char
  | [] => []
  | command :: commands => I.answer command ++ (I.after command).answers commands

theorem faces_turnTo (I : Instrument) (bank : Bank) : (I.turnTo bank).Faces bank := by
  cases bank with
  | main => exact nofun
  | slotEeprom slot =>
      rintro _ ⟨⟩
      rfl

theorem words_turnTo (I : Instrument) (bank : Bank) : (I.turnTo bank).words = I.words := by
  cases bank <;> rfl

theorem answers_query {I : Instrument} {bank : Bank} (h : I.Faces bank) :
    I.answers [bank.query] =
      bank.query.letter :: Text.intDigits (I.written (I.words bank I.cursor)) ++ ['!'] := by
  cases bank with
  | main => exact List.append_nil _
  | slotEeprom slot =>
      show I.answer .readSlotEeprom ++ [] = _
      rw [List.append_nil, answer, h slot rfl]
      rfl

theorem words_store {I : Instrument} {bank : Bank} (h : I.Faces bank) (word : UInt32) :
    (I.after (bank.store word)).words =
      Function.update I.words bank (Function.update (I.words bank) I.cursor word) := by
  funext other
  cases bank with
  | main =>
      cases other with
      | main =>
          rw [Function.update_self]
          rfl
      | slotEeprom slot =>
          rw [Function.update_of_ne (by simp)]
          rfl
  | slotEeprom slot =>
      obtain rfl : I.slot = slot := h slot rfl
      cases other with
      | main =>
          rw [Function.update_of_ne (by simp)]
          rfl
      | slotEeprom slot =>
          show Function.update I.eeprom I.slot _ slot = _
          by_cases hslot : slot = I.slot
          · rw [hslot, Function.update_self, Function.update_self]
            rfl
          · rw [Function.update_of_ne hslot, Function.update_of_ne (by simpa using hslot)]
            rfl

theorem visible_of_mem_echo {command : Command} {c : Char} (h : c ∈ command.echo) :
    Text.Visible c :=
  Command.visible_of_mem_endedBy ⟨rfl, rfl⟩ h

theorem visible_of_mem_answer {I : Instrument} {command : Command} {c : Char}
    (h : c ∈ I.answer command) : Text.Visible c := by
  have hword (letter : Char) (n : Int) (hletter : Text.Visible letter)
      (h : c ∈ letter :: Text.intDigits n ++ ['!']) : Text.Visible c := by
    rcases List.mem_append.mp h with h | h
    · rcases List.mem_cons.mp h with rfl | h
      · exact hletter
      · exact Text.visible_of_mem_intDigits h
    · rw [List.mem_singleton.mp h]
      exact ⟨rfl, rfl⟩
  cases command with
  | readMemory => exact hword 'p' _ ⟨rfl, rfl⟩ h
  | readSlotEeprom => exact hword 'e' _ ⟨rfl, rfl⟩ h
  | _ => exact visible_of_mem_echo h

theorem visible_of_mem_answers {I : Instrument} {commands : List Command} {c : Char}
    (h : c ∈ I.answers commands) : Text.Visible c := by
  induction commands generalizing I with
  | nil => cases h
  | cons command commands ih =>
      rcases List.mem_append.mp h with h | h
      · exact visible_of_mem_answer h
      · exact ih h

theorem lineFeed_notMem (I : Instrument) (commands : List Command) :
    10 ∉ Text.bytes (String.ofList (I.answers commands)) := by
  rw [Text.bytes_ofList fun c hc => visible_of_mem_answers hc]
  intro h
  obtain ⟨c, hc, hbyte⟩ := List.mem_map.mp h
  exact (visible_of_mem_answers hc).toUInt8_ne_lineFeed hbyte

end Instrument

/-- A link with an instrument at its end. -/
structure InstrumentLink where
  instrument : Instrument
  /-- The byte that ends an answer, which is part of none. -/
  terminator : UInt8
  apart : ∀ (I : Instrument) (commands : List Command),
    terminator ∉ Text.bytes (String.ofList (I.answers commands))
  /-- The bytes of answers that were not received yet. -/
  unread : List UInt8
  /-- How many more bytes the instrument can send. -/
  life : Nat

namespace InstrumentLink

/-- A link with an instrument that ends its answers with a line feed. -/
def ofInstrument (instrument : Instrument) (life : Nat) : InstrumentLink :=
  { instrument, terminator := 10, apart := Instrument.lineFeed_notMem, unread := [], life }

/-- The commands that some bytes stand for. -/
def commandsOf? (bytes : List UInt8) : Option (List Command) :=
  (Text.ofBytes? bytes).bind fun text => Command.readCommands? text.toList

/-- What the instrument does with commands: it executes them all and answers with one
line, as long as it lives. -/
def serve (commands : List Command) (link : InstrumentLink) : InstrumentLink :=
  let line := Text.bytes (String.ofList (link.instrument.answers commands)) ++ [link.terminator]
  if line.length ≤ link.life then
    { link with
      instrument := link.instrument.afterAll commands, unread := link.unread ++ line,
      life := link.life - line.length }
  else link

def send (bytes : List UInt8) (link : InstrumentLink) : Except FaultKind Unit × InstrumentLink :=
  (.ok (), (commandsOf? bytes).elim link fun commands => link.serve commands)

def receive (link : InstrumentLink) : Arrival FaultKind × InstrumentLink :=
  match link.unread with
  | [] => (.fault .timedOut, link)
  | byte :: unread => (.byte byte, { link with unread })

def supply (link : InstrumentLink) : Nat :=
  link.unread.length + link.life

theorem supply_serve (commands : List Command) (link : InstrumentLink) :
    (link.serve commands).supply ≤ link.supply := by
  unfold serve
  simp only []
  split
  · next h =>
      simp only [List.length_append] at h
      simp only [supply, List.length_append]
      omega
  · exact Nat.le_refl _

instance : Link InstrumentLink FaultKind where
  send := send
  receive := receive
  kind kind := kind
  stopRequested _ := false
  supply := supply
  supply_send bytes link := by
    cases h : commandsOf? bytes with
    | none =>
        rw [send, h]
        exact Nat.le_refl _
    | some commands =>
        rw [send, h]
        exact supply_serve commands link
  supply_receive link := by
    unfold receive
    split
    · exact Nat.le_refl _
    · next byte unread h =>
        simp only [supply, h, List.length_cons]
        omega
  supply_receive_byte link byte hbyte := by
    unfold receive at hbyte ⊢
    split at hbyte
    · cases hbyte
    · next byte unread h =>
        simp only [supply, h, List.length_cons]
        omega

theorem delivers (bytes rest : List UInt8) (link : InstrumentLink) :
    Delivers { link with unread := bytes ++ rest } bytes { link with unread := rest } := by
  induction bytes with
  | nil => exact .nil _
  | cons byte bytes ih => exact .cons rfl ih

theorem commandsOf?_wire (commands : List Command) :
    commandsOf? (Text.bytes (Request.commands commands).wire) = some commands := by
  rw [commandsOf?, Text.ofBytes?_bytes, Option.bind_some, Request.wire, String.toList_ofList]
  exact Command.readCommands?_wire commands

/-- An instrument that is asked when nothing is left to receive, and whose answer fits,
answers it and nothing else. -/
theorem ask_commands {link : InstrumentLink} {capacity : Nat} {commands : List Command}
    (hunread : link.unread = [])
    (hfits : (link.instrument.answers commands).length ≤ capacity)
    (hlife : (link.instrument.answers commands).length + 1 ≤ link.life) :
    Line.ask capacity link.terminator (Request.commands commands).wire link =
      (.ok (String.ofList (link.instrument.answers commands)),
        { link with
          instrument := link.instrument.afterAll commands
          life := link.life - ((link.instrument.answers commands).length + 1) }) := by
  obtain ⟨I, terminator, apart, unread, life⟩ := link
  obtain rfl : unread = [] := hunread
  simp only at hfits hlife ⊢
  generalize hline : Text.bytes (String.ofList (I.answers commands)) = line
  have hlength : line.length = (I.answers commands).length := by
    rw [← hline, Text.bytes_ofList fun c hc => Instrument.visible_of_mem_answers hc,
      List.length_map]
  have hapart : terminator ∉ line := by
    rw [← hline]
    exact apart I commands
  have htext : Line.text line =
      (.ok (String.ofList (I.answers commands)) : Except (Error FaultKind) String) := by
    rw [Line.text, ← hline, Text.ofBytes?_bytes]
  have hserve : serve commands ⟨I, terminator, apart, [], life⟩ =
      ⟨I.afterAll commands, terminator, apart, line ++ [terminator],
        life - ((I.answers commands).length + 1)⟩ := by
    have hle : (line ++ [terminator]).length = (I.answers commands).length + 1 := by
      rw [List.length_append, List.length_singleton, hlength]
    unfold serve
    simp only [hline]
    rw [hle, if_pos hlife, List.nil_append]
  have hsend : Link.send (Text.bytes (Request.commands commands).wire)
      (⟨I, terminator, apart, [], life⟩ : InstrumentLink) =
        (.ok (), serve commands ⟨I, terminator, apart, [], life⟩) := by
    show send _ _ = _
    rw [send, commandsOf?_wire]
    rfl
  have hdelivers := delivers (line ++ [terminator]) []
    ⟨I.afterAll commands, terminator, apart, [], life - ((I.answers commands).length + 1)⟩
  rw [List.append_nil, ← hserve] at hdelivers
  rw [Line.ask_line hsend hdelivers hapart (hlength ▸ hfits), htext]

end InstrumentLink

end DacRack
