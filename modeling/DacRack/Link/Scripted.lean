import DacRack.Link

/-!
# A scripted link

A link that gives out what a script says, one event at a time, and keeps what was
sent. Its supply is the number of events left.
-/

namespace DacRack

inductive ScriptEvent where
  | byte (byte : UInt8)
  | fault (kind : FaultKind)
  /-- The stream is at its end, once. -/
  | nothing
  /-- The host is asked to stop, or the request is taken back. -/
  | stop (requested : Bool)
  deriving DecidableEq

/-- A link that follows a script. -/
structure ScriptedLink where
  script : List ScriptEvent := []
  /-- What receiving gives once the script has run out: a fault, or the end of the
  stream. -/
  idle : Option FaultKind := some .other
  /-- How many more bytes can be sent, and the fault that sending ends in. -/
  budget : Option (Nat × FaultKind) := none
  stop : Bool := false
  sent : List UInt8 := []

namespace ScriptedLink

def feed (link : ScriptedLink) (events : List ScriptEvent) : ScriptedLink :=
  { link with script := link.script ++ events }

/-- Sends all bytes, or as many as the budget allows. Sending nothing always
succeeds. -/
def send (bytes : List UInt8) (link : ScriptedLink) : Except FaultKind Unit × ScriptedLink :=
  match link.budget with
  | none => (.ok (), { link with sent := link.sent ++ bytes })
  | some (left, kind) =>
    if bytes.length ≤ left then
      (.ok (), { link with
        sent := link.sent ++ bytes, budget := some (left - bytes.length, kind) })
    else
      (.error kind, { link with sent := link.sent ++ bytes.take left, budget := some (0, kind) })

/-- Takes events off a script up to and including the first that the host sees.
A stop request is noted in passing. -/
def take (stop : Bool) : List ScriptEvent → Option (Arrival FaultKind) × Bool × List ScriptEvent
  | [] => (none, stop, [])
  | .byte b :: rest => (some (.byte b), stop, rest)
  | .fault kind :: rest => (some (.fault kind), stop, rest)
  | .nothing :: rest => (some .nothing, stop, rest)
  | .stop requested :: rest => take requested rest

def receive (link : ScriptedLink) : Arrival FaultKind × ScriptedLink :=
  let (arrival, stop, script) := take link.stop link.script
  (arrival.getD (link.idle.elim .nothing .fault), { link with stop, script })

theorem length_take_le (stop : Bool) (script : List ScriptEvent) :
    (take stop script).2.2.length ≤ script.length := by
  induction script generalizing stop with
  | nil => exact Nat.le_refl _
  | cons event rest ih =>
    cases event with
    | stop requested => exact Nat.le_succ_of_le (ih requested)
    | _ => exact Nat.le_succ _

/-- An event that the host sees is gone from the script. -/
theorem length_take_lt {stop : Bool} {script : List ScriptEvent} {arrival : Arrival FaultKind}
    (h : (take stop script).1 = some arrival) :
    (take stop script).2.2.length < script.length := by
  induction script generalizing stop with
  | nil => cases h
  | cons event rest ih =>
    cases event with
    | stop requested => exact Nat.lt_succ_of_lt (ih h)
    | _ => exact Nat.lt_succ_self _

instance : Link ScriptedLink FaultKind where
  send := send
  receive := receive
  kind kind := kind
  stopRequested := stop
  supply link := link.script.length
  supply_send bytes link := by
    unfold send
    split
    · exact Nat.le_refl _
    · split <;> exact Nat.le_refl _
  supply_receive link := length_take_le link.stop link.script
  supply_receive_byte link byte h := by
    simp only [receive] at h ⊢
    cases ht : (take link.stop link.script).1 with
    | some arrival => exact length_take_lt ht
    | none =>
      rw [ht] at h
      cases hi : link.idle <;> simp [hi] at h

end ScriptedLink

end DacRack
