import DacRack.Step.Settings

/-!
# Waiting for a ramp

Waiting means reading the slope until it is zero, with a tick of the wait between
two readings.

Such a wait need have no deadline. It ends all the same, because every round takes
replies, and what has yet to arrive is finite: `repeatUntil` recurs on the supply of
the link, and asks for the proof that a round that succeeds uses some of it up.
-/

namespace DacRack

def Interruption.error {φ : Type} : Interruption → Error φ
  | .cancelled => .cancelled
  | .timedOut => .timedOut

namespace Step

variable {σ φ κ : Type} [Link σ φ]

/-- Repeats a round until it says that it was the last. -/
def repeatUntil (round : Step σ φ κ Bool) (draws : Draws 1 round) (s : Session σ φ κ) :
    EStateM.Result (Error φ) (Session σ φ κ) Unit :=
  match _h : round s with
  | .error error s' => .error error s'
  | .ok true s' => .ok () s'
  | .ok false s' => repeatUntil round draws s'
termination_by Link.supply s.link
decreasing_by
  have := draws.ok _h
  omega

variable [Clock κ]

/-- Starts a wait, as patient as the connection is set up to be. -/
def startWait : Step σ φ κ Wait := fun s =>
  let (wait, clock) := Wait.start s.config.patience s.clock
  .ok wait { s with clock }

def tick (wait : Wait) : Step σ φ κ Unit := fun s =>
  let (interruption?, clock) := wait.tick (Link.stopRequested s.link) s.clock
  match interruption? with
  | none => .ok () { s with clock }
  | some interruption => .error interruption.error { s with clock }

/-- Reads the slope of a channel and says whether it is zero. Where it is not, the
wait ticks. -/
def checkRest (channel : Channel) (wait : Wait) : Step σ φ κ Bool := do
  let slope ← slope channel
  if slope = 0 then return true
  else
    tick wait
    return false

theorem draws_tick (wait : Wait) : Draws 0 (tick wait : Step σ φ κ Unit) := by
  constructor
  · intro s s' a hs
    simp only [tick] at hs
    split at hs <;> cases hs
    exact Nat.le_refl _
  · intro s s' e hs
    simp only [tick] at hs
    split at hs <;> cases hs
    exact Nat.le_refl _

/-- A round takes the replies to reading the slope. -/
theorem draws_checkRest (channel : Channel) (wait : Wait) :
    Draws 4 (checkRest channel wait : Step σ φ κ Bool) := by
  refine (draws_slope channel).bind (n := 0) fun slope => ?_
  split
  · exact draws_pure _
  · exact (draws_tick wait).bind fun _ => draws_pure _

def awaitRest (channel : Channel) (wait : Wait) : Step σ φ κ Unit :=
  repeatUntil (checkRest channel wait) ((draws_checkRest channel wait).mono (by decide))

/-- Waits until a channel's ramp is over. -/
def settle (channel : Channel) : Step σ φ κ Unit := do
  let wait ← startWait
  awaitRest channel wait
  setMotion channel .idle

end Step

end DacRack
