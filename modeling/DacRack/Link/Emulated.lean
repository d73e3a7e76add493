import DacRack.Channel
import DacRack.Link
import DacRack.Text

/-!
# An emulated link

A link without a device behind it: the replies are queued beforehand, and what was
written is kept. Both directions have room for a fixed number of bytes.
Queueing counts all bytes ever queued, read or not; writing counts the bytes since
the last time the record was cleared. What does not fit is refused whole. Faults
can be switched on in either direction.
-/

namespace DacRack

inductive EmulatedFault where
  | timeout
  | bufferOverflow
  | simulated
  | wouldBlock
  deriving DecidableEq

namespace EmulatedFault

def all : List EmulatedFault :=
  [timeout, bufferOverflow, simulated, wouldBlock]

def name : EmulatedFault → String
  | timeout => "Timeout"
  | bufferOverflow => "BufferOverflow"
  | simulated => "SimulatedError"
  | wouldBlock => "WouldBlock"

def message : EmulatedFault → String
  | timeout => "Simulated timeout"
  | bufferOverflow => "Simulated buffer overflow"
  | simulated => "Simulated serial error"
  | wouldBlock => "No data available"

def kind : EmulatedFault → FaultKind
  | timeout => .timedOut
  | bufferOverflow => .outOfMemory
  | simulated => .brokenPipe
  | wouldBlock => .other

end EmulatedFault

/-- How an emulated instrument answers the checks made when connecting. -/
structure EmulatedUnit where
  eeprom : Bool
  calibration : Bool

/-- A link without a device behind it. -/
structure EmulatedLink where
  /-- How many queued bytes have been read. -/
  taken : Nat := 0
  /-- The queued bytes that have not been read. -/
  unread : List UInt8 := []
  /-- What was written since the record was last cleared. -/
  written : List UInt8 := []
  failWrites : Bool := false
  failReads : Bool := false
  /-- What ends a queued reply. -/
  lineEnding : List UInt8 := [10]

namespace EmulatedLink

/-- The room in either direction, in bytes. -/
def capacity : Nat := 8192

/-- Queues bytes behind those queued before, if there is room for all. -/
def queue? (bytes : List UInt8) (link : EmulatedLink) : Option EmulatedLink :=
  if link.taken + link.unread.length + bytes.length ≤ capacity then
    some { link with unread := link.unread ++ bytes }
  else none

/-- Queues pieces in turn up to the first that does not fit, and says whether all
fitted. -/
def queueAll : List (List UInt8) → EmulatedLink → Bool × EmulatedLink
  | [], link => (true, link)
  | piece :: rest, link =>
    match link.queue? piece with
    | some link => queueAll rest link
    | none => (false, link)

/-- The pieces that replies are queued in: each line, then its ending. -/
def pieces (lines : List String) (link : EmulatedLink) : List (List UInt8) :=
  lines.flatMap fun line => [Text.bytes line, link.lineEnding]

/-- Queues replies, each with its line ending. -/
def queueReplies (lines : List String) (link : EmulatedLink) : Bool × EmulatedLink :=
  link.queueAll (link.pieces lines)

/-- Writes all bytes or none. -/
def write (bytes : List UInt8) (link : EmulatedLink) :
    Except EmulatedFault Nat × EmulatedLink :=
  if link.failWrites then (.error .simulated, link)
  else if link.written.length + bytes.length ≤ capacity then
    (.ok bytes.length, { link with written := link.written ++ bytes })
  else (.error .bufferOverflow, link)

/-- Writes all bytes. Writing nothing does not touch the link. -/
def writeAll (bytes : List UInt8) (link : EmulatedLink) :
    Except EmulatedFault Unit × EmulatedLink :=
  if bytes.isEmpty then (.ok (), link)
  else
    let (result, link) := link.write bytes
    (result.map fun _ => (), link)

/-- Waits until everything is written, which it always is. -/
def flush (link : EmulatedLink) : Except EmulatedFault Unit :=
  if link.failWrites then .error .simulated else .ok ()

/-- Reads at most `room` bytes, and fails where there are none. -/
def read (room : Nat) (link : EmulatedLink) :
    Except EmulatedFault (List UInt8) × EmulatedLink :=
  if link.failReads then (.error .simulated, link)
  else if link.unread.isEmpty then (.error .wouldBlock, link)
  else
    let bytes := link.unread.take room
    (.ok bytes,
      { link with taken := link.taken + bytes.length, unread := link.unread.drop room })

def clearWritten (link : EmulatedLink) : EmulatedLink :=
  { link with written := [] }

def isDrained (link : EmulatedLink) : Bool :=
  link.unread.isEmpty

def receive (link : EmulatedLink) : Arrival EmulatedFault × EmulatedLink :=
  match link.read 1 with
  | (.ok (byte :: _), link) => (.byte byte, link)
  | (.ok [], link) => (.nothing, link)
  | (.error fault, link) => (.fault fault, link)

/-- The replies to the checks made when connecting. -/
def probeReplies (answers : EmulatedUnit) : List String :=
  ["A1107296256!", if answers.eeprom then "p21930!" else "p0!", "B0!", "A6!", "e0!",
    if answers.calibration then "k1!" else "?"] ++
  if answers.eeprom then ["A1107296266!", "p139!", "A1107296264!", "p14081!"] else []

/-- The replies to connecting: those to the checks, then those to putting every slot
into coarse mode. -/
def connectReplies (answers : EmulatedUnit) : List String :=
  probeReplies answers ++ (List.range slotCount).flatMap fun (slot : Nat) =>
    ["B" ++ Text.decimal slot ++ "!", "M2!"]

theorem length_unread_read (room : Nat) (link : EmulatedLink) :
    (link.read room).2.unread.length ≤ link.unread.length := by
  unfold read
  split
  · exact Nat.le_refl _
  · split
    · exact Nat.le_refl _
    · simp

theorem length_unread_receive (link : EmulatedLink) :
    link.receive.2.unread.length ≤ link.unread.length := by
  have h := length_unread_read 1 link
  unfold receive
  split <;> simp_all

theorem length_unread_receive_byte {link : EmulatedLink} {byte : UInt8}
    (h : link.receive.1 = .byte byte) : link.receive.2.unread.length < link.unread.length := by
  unfold receive read at h ⊢
  cases hf : link.failReads <;> cases hu : link.unread <;> simp_all

instance : Link EmulatedLink EmulatedFault where
  send := writeAll
  receive := receive
  kind := EmulatedFault.kind
  stopRequested _ := false
  supply link := link.unread.length
  supply_send bytes link := by
    unfold writeAll write
    split
    · exact Nat.le_refl _
    · simp only []
      split
      · exact Nat.le_refl _
      · split <;> exact Nat.le_refl _
  supply_receive := length_unread_receive
  supply_receive_byte _ _ := length_unread_receive_byte

end EmulatedLink

end DacRack
