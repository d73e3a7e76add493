import DacRack.Proofs.Arming
import DacRack.Proofs.Deadlines
import DacRack.Proofs.RampAll

/-!
# How a wait for a ramp goes

Waiting for a channel is a loop of rounds. Each reads the slope first, and a slope of zero ends
the wait whatever the clock says by then and whoever wants it to stop. Only between two readings
the wait ticks, and a tick looks at the stop request before it looks at the clock, and at the
clock before it pauses (`Wait.Ticked`). What is skipped leaves no trace: a tick that is cancelled
neither reads the clock nor lets it run, and one that is late does not pause.

`Polled` tells the rounds of a wait one by one, with what each made of the clock, and
`Step.polled_awaitRest` says that every wait is told so, by induction on its rounds. Counting
follows the same rounds: a round that goes on pauses once if there are pauses, and it reads the
clock once if there is a deadline, and of the rounds that end the wait only one that is late reads
the clock (`Polled.countP_read`, `Polled.pauses_eq`). Reading the slope takes no time by itself
(`Step.Timeless`), so these are all the uses of the clock.

`settle_polled` adds how the wait begins, which is where its deadline comes from, and what the
host remembers of it.
-/

namespace DacRack

variable {σ φ κ α β : Type}

/-! ## Steps that take no time -/

namespace Step

/-- The step does the same whatever the time is, and the clock stands afterwards where it stood
before. -/
def Timeless (step : Step σ φ κ α) : Prop :=
  ∀ (s : Session σ φ κ) (clock : κ), ({ s with clock } : Session σ φ κ).perform step =
    ((s.perform step).1, { (s.perform step).2 with clock })

theorem Timeless.clock_eq {step : Step σ φ κ α} (h : Timeless step) (s : Session σ φ κ) :
    (s.perform step).2.clock = s.clock :=
  congrArg (fun outcome => outcome.2.clock) (h s s.clock)

theorem Timeless.bind {step : Step σ φ κ α} {next : α → Step σ φ κ β} (h : Timeless step)
    (hnext : ∀ a, Timeless (next a)) : Timeless (step >>= next) := by
  intro s clock
  rw [Session.perform_bind, Session.perform_bind, h s clock]
  cases s.perform step with
  | mk r s' =>
      cases r with
      | error e => rfl
      | ok a => exact hnext a s' clock

theorem timeless_ofExcept (result : Except (Error φ) α) :
    Timeless (ofExcept result : Step σ φ κ α) := by
  intro s clock
  cases result <;> rfl

theorem timeless_pure (a : α) : Timeless (pure a : Step σ φ κ α) :=
  fun _ _ => rfl

theorem timeless_note (entry : Note φ) : Timeless (note entry : Step σ φ κ Unit) :=
  fun _ _ => rfl

/-- Looking at the connection takes no time, but it must not be the clock that is looked at. -/
theorem timeless_look {next : Session σ φ κ → Step σ φ κ α}
    (hview : ∀ (s : Session σ φ κ) (clock : κ), next { s with clock } = next s)
    (h : ∀ s, Timeless (next s)) : Timeless (get >>= next) := by
  intro s clock
  rw [perform_get_bind, perform_get_bind, hview]
  exact h s s clock

variable [Link σ φ]

theorem timeless_exchange (target : Target) (request : Request) :
    Timeless (exchange target request : Step σ φ κ String) := by
  intro s clock
  rw [perform_exchange, perform_exchange]

theorem timeless_transact (target : Target) (commands : List Command) :
    Timeless (transact target commands : Step σ φ κ String) :=
  timeless_look (fun _ _ => rfl) fun _ =>
    (timeless_ofExcept _).bind fun _ => timeless_exchange _ _

theorem timeless_readWords (words : Nat) (address : UInt32) (value : UInt64) :
    Timeless (readWords .main words address value : Step σ φ κ UInt64) := by
  have hmove (address : UInt32) : Timeless (moveCursor address : Step σ φ κ Unit) :=
    (timeless_transact _ _).bind fun _ => (timeless_ofExcept _).bind fun _ => timeless_ofExcept _
  have hread (address : UInt32) : Timeless (readCursor .main address : Step σ φ κ UInt32) :=
    (timeless_transact _ _).bind fun _ => timeless_ofExcept _
  induction words generalizing address value with
  | zero => exact timeless_pure value
  | succ words ih => exact ((hmove address).bind fun _ => hread address).bind fun word => ih _ _

theorem timeless_readSetting (channel : Channel) (setting : Setting) :
    Timeless (readSetting channel setting : Step σ φ κ UInt64) := by
  rw [readSetting_eq]
  exact (timeless_readWords _ _ _).bind fun _ => (timeless_note _).bind fun _ => timeless_pure _

theorem timeless_slope (channel : Channel) : Timeless (slope channel : Step σ φ κ Int64) :=
  (timeless_readSetting channel .slope).bind fun _ => timeless_pure _

end Step

/-! ## Uses of a clock -/

/-- A clock is read, or let run for a while. -/
inductive ClockUse where
  | read (reading : Instant)
  | pause (duration : UInt64)
  deriving DecidableEq

namespace ClockUse

def isRead : ClockUse → Bool
  | read _ => true
  | pause _ => false

def pause? : ClockUse → Option UInt64
  | read _ => none
  | pause duration => some duration

end ClockUse

/-- Uses of a clock, the latest first, and the clock after them. -/
inductive Clock.Uses [Clock κ] (start : κ) : List ClockUse → κ → Prop
  | nil : Uses start [] start
  | read {uses : List ClockUse} {clock : κ} (h : Uses start uses clock) :
      Uses start (.read (Clock.now clock).1 :: uses) (Clock.now clock).2
  | pause {uses : List ClockUse} {clock : κ} (h : Uses start uses clock) (duration : UInt64) :
      Uses start (.pause duration :: uses) (Clock.sleep duration clock)

section

variable [Clock κ]

theorem Clock.Uses.append {start clock last : κ} {earlier later : List ClockUse}
    (h : Uses start earlier clock) (h' : Uses clock later last) :
    Uses start (later ++ earlier) last := by
  induction h' with
  | nil => exact h
  | read _ ih => exact ih.read
  | pause _ duration ih => exact ih.pause duration

/-- How a wait begins. -/
def Patience.opening (patience : Patience) (clock : κ) : List ClockUse :=
  match patience.timeout with
  | none => []
  | some _ => [.read (Clock.now clock).1]

namespace Wait

/-- The deadline is the timeout after the reading with which the wait begins. -/
theorem start_eq (patience : Patience) (clock : κ) :
    (start patience clock).1 =
        ⟨patience, patience.timeout.map fun timeout => (Clock.now clock).1 + timeout⟩ ∧
      Clock.Uses clock (patience.opening clock) (start patience clock).2 := by
  unfold start Patience.opening
  cases patience.timeout with
  | none => exact ⟨rfl, .nil⟩
  | some timeout => exact ⟨rfl, .read .nil⟩

/-- The pause between two readings of the slope, if there is one. -/
def pauses (wait : Wait) : List ClockUse :=
  if 0 < wait.patience.interval then [.pause wait.patience.interval] else []

/-- What a tick comes to, and what it makes of the clock. -/
inductive Ticked (wait : Wait) (stop : Bool) (clock : κ) :
    Option Interruption → List ClockUse → Prop
  | cancelled (h : (wait.patience.cancel.isSome && stop) = true) :
      Ticked wait stop clock (some .cancelled) []
  | timedOut {deadline : Instant} (hstop : (wait.patience.cancel.isSome && stop) = false)
      (hdeadline : wait.deadline = some deadline)
      (hlate : (Clock.now clock).1.isAfter deadline = true) :
      Ticked wait stop clock (some .timedOut) [.read (Clock.now clock).1]
  | inTime {deadline : Instant} (hstop : (wait.patience.cancel.isSome && stop) = false)
      (hdeadline : wait.deadline = some deadline)
      (hearly : (Clock.now clock).1.isAfter deadline = false) :
      Ticked wait stop clock none (wait.pauses ++ [.read (Clock.now clock).1])
  | endless (hstop : (wait.patience.cancel.isSome && stop) = false)
      (hdeadline : wait.deadline = none) : Ticked wait stop clock none wait.pauses

variable {wait : Wait} {stop : Bool} {clock : κ} {uses : List ClockUse}

theorem uses_pause (wait : Wait) (clock : κ) :
    Clock.Uses clock wait.pauses (wait.pause clock) := by
  unfold pauses pause
  split
  · exact .pause .nil _
  · exact .nil

theorem ticked (wait : Wait) (stop : Bool) (clock : κ) :
    ∃ uses, wait.Ticked stop clock (wait.tick stop clock).1 uses ∧
      Clock.Uses clock uses (wait.tick stop clock).2 := by
  cases hstop : wait.patience.cancel.isSome && stop with
  | true =>
      unfold tick
      rw [hstop]
      exact ⟨[], .cancelled hstop, .nil⟩
  | false =>
      cases hdeadline : wait.deadline with
      | none =>
          unfold tick isLate
          rw [hstop, hdeadline]
          exact ⟨_, .endless hstop hdeadline, uses_pause wait clock⟩
      | some deadline =>
          rw [tick_of_deadline hdeadline hstop]
          cases hlate : (Clock.now clock).1.isAfter deadline with
          | true => exact ⟨_, .timedOut hstop hdeadline hlate, .read .nil⟩
          | false =>
              refine ⟨_, .inTime hstop hdeadline hlate, ?_⟩
              exact (Clock.Uses.read .nil).append (uses_pause wait _)

theorem countP_read_pauses (wait : Wait) : wait.pauses.countP ClockUse.isRead = 0 := by
  unfold pauses
  split <;> rfl

theorem filterMap_pauses (wait : Wait) : wait.pauses.filterMap ClockUse.pause? =
    if 0 < wait.patience.interval then [wait.patience.interval] else [] := by
  unfold pauses
  split <;> rfl

/-- A tick that goes well reads the clock just where there is a deadline, and then pauses. -/
theorem Ticked.of_none (h : wait.Ticked stop clock none uses) :
    uses.countP ClockUse.isRead = wait.deadline.isSome.toNat ∧
      uses.filterMap ClockUse.pause? = wait.pauses.filterMap ClockUse.pause? := by
  cases h with
  | inTime _ hdeadline _ =>
      rw [hdeadline, List.countP_append, List.filterMap_append, countP_read_pauses]
      exact ⟨rfl, List.append_nil _⟩
  | endless _ hdeadline =>
      rw [hdeadline, countP_read_pauses]
      exact ⟨rfl, rfl⟩

/-- A tick that ends the wait does not pause, and reads the clock only to find that it is late. -/
theorem Ticked.of_some {interruption : Interruption}
    (h : wait.Ticked stop clock (some interruption) uses) :
    (uses.countP ClockUse.isRead = if interruption = .timedOut then 1 else 0) ∧
      (interruption = .timedOut → wait.deadline.isSome = true) ∧
      uses.filterMap ClockUse.pause? = [] := by
  cases h with
  | cancelled => exact ⟨rfl, nofun, rfl⟩
  | timedOut _ hdeadline _ =>
      rw [hdeadline]
      exact ⟨rfl, fun _ => rfl, rfl⟩

end Wait

end

/-! ## Rounds -/

/-- The words of a slope were read, the high one first, and these are what the instrument
replied. -/
def ReadsWords (channel : Channel) (high low : UInt32) (made : List (Exchange φ)) : Prop :=
  ∃ (address : UInt32) (move move' : Exchange φ) (reply reply' : String),
    address.toNat = Setting.slope.address channel ∧
    move.ConfirmsCursor address ∧ Reply.word reply.toList = .ok high ∧
    move'.ConfirmsCursor (address + 1) ∧ Reply.word reply'.toList = .ok low ∧
    made = [⟨.word .main (address + 1), .commands [.readMemory], .ok reply'⟩, move',
      ⟨.word .main address, .commands [.readMemory], .ok reply⟩, move]

/-- A slope is zero just where both its words are. -/
theorem slope_eq_zero_iff (high low : UInt32) :
    (high.toUInt64 <<< 32 ||| low.toUInt64).toInt64 = 0 ↔ high = 0 ∧ low = 0 := by
  have hhigh := high.toNat_lt
  have hlow := low.toNat_lt
  show Int64.ofUInt64 (high.toUInt64 <<< 32 ||| low.toUInt64) = Int64.ofUInt64 0 ↔ _
  rw [Int64.ofUInt64.injEq, toUInt64_shiftLeft_or, ← UInt64.toNat_inj, UInt64.toNat_ofNat',
    ← UInt32.toNat_inj, ← UInt32.toNat_inj]
  simp only [UInt64.toNat_zero, UInt32.toNat_zero]
  omega

section

variable [Link σ φ]

/-- The slope of a channel was read in two words, which are these. -/
structure SlopeRead (channel : Channel) (s : Session σ φ κ) (high low : UInt32)
    (s' : Session σ φ κ) : Prop where
  ok : s.perform (Step.slope channel) = (.ok (high.toUInt64 <<< 32 ||| low.toUInt64).toInt64, s')
  replied : ∃ made, s.Grown s' made ∧ ReadsWords channel high low made

theorem slopeRead_of_ok {channel : Channel} {s s' : Session σ φ κ} {slope : Int64}
    (h : s.perform (Step.slope channel) = (.ok slope, s')) :
    ∃ high low, SlopeRead channel s high low s' ∧ (slope = 0 ↔ high = 0 ∧ low = 0) := by
  obtain ⟨made, hg, hread⟩ := Step.ends_slope channel s
  rw [h] at hg hread
  obtain ⟨address, high, low, move, move', reply, reply', haddress, hmove, hhigh, hmove', hlow,
    rfl, hmade⟩ := hread slope rfl
  refine ⟨high, low, ⟨h, made, hg, ?_⟩, slope_eq_zero_iff high low⟩
  exact ⟨address, move, move', reply, reply', haddress, hmove, hhigh, hmove', hlow, hmade⟩

theorem SlopeRead.clock_eq {channel : Channel} {s s' : Session σ φ κ} {high low : UInt32}
    (h : SlopeRead channel s high low s') : s'.clock = s.clock := by
  have hclock := (Step.timeless_slope channel).clock_eq s
  rwa [h.ok] at hclock

end

/-- How a wait ends: with the channel at rest, with a slope that could not be read, or cut
short. -/
inductive Ending (φ : Type) where
  | rested
  | failed (e : Error φ)
  | interrupted (interruption : Interruption)

namespace Ending

def result : Ending φ → Except (Error φ) Unit
  | rested => .ok ()
  | failed e => .error e
  | interrupted interruption => .error interruption.error

def isLate : Ending φ → Bool
  | interrupted .timedOut => true
  | _ => false

end Ending

variable [Link σ φ] [Clock κ]

/-- The rounds of a wait: how many of its ticks went well, what all of them made of the clock, and
how it ended. -/
inductive Polled (channel : Channel) (wait : Wait) :
    Session σ φ κ → Nat → List ClockUse → Ending φ → Session σ φ κ → Prop
  | rested {s s' : Session σ φ κ} (h : SlopeRead channel s 0 0 s') :
      Polled channel wait s 0 [] .rested s'
  | failed {s s' : Session σ φ κ} {e : Error φ}
      (h : s.perform (Step.slope channel) = (.error e, s')) :
      Polled channel wait s 0 [] (.failed e) s'
  | interrupted {s s' : Session σ φ κ} {high low : UInt32} {interruption : Interruption}
      {uses : List ClockUse} {clock : κ} (h : SlopeRead channel s high low s')
      (hmoves : high ≠ 0 ∨ low ≠ 0)
      (htick : wait.Ticked (Link.stopRequested s'.link) s'.clock (some interruption) uses)
      (hclock : Clock.Uses s'.clock uses clock) :
      Polled channel wait s 0 uses (.interrupted interruption) { s' with clock }
  | again {s s' s'' : Session σ φ κ} {high low : UInt32} {uses later : List ClockUse} {clock : κ}
      {ticks : Nat} {ending : Ending φ} (h : SlopeRead channel s high low s')
      (hmoves : high ≠ 0 ∨ low ≠ 0)
      (htick : wait.Ticked (Link.stopRequested s'.link) s'.clock none uses)
      (hclock : Clock.Uses s'.clock uses clock)
      (hlater : Polled channel wait { s' with clock } ticks later ending s'') :
      Polled channel wait s (ticks + 1) (later ++ uses) ending s''

namespace Step

variable (channel : Channel) (wait : Wait)

theorem perform_tick (s : Session σ φ κ) :
    s.perform (tick wait) =
      (((wait.tick (Link.stopRequested s.link) s.clock).1.elim (.ok ()) fun i => .error i.error),
        { s with clock := (wait.tick (Link.stopRequested s.link) s.clock).2 }) := by
  unfold Session.perform tick
  cases wait.tick (Link.stopRequested s.link) s.clock with
  | mk interruption? clock => cases interruption? <;> rfl

theorem perform_checkRest_of_slope {s s' : Session σ φ κ} {slope : Int64}
    (hslope : s.perform (Step.slope channel) = (.ok slope, s')) :
    s.perform (checkRest channel wait) =
      s'.perform (if slope = 0 then pure true else do tick wait; return false) :=
  Session.perform_bind_of_ok hslope

/-- A round goes on, with the clock as the tick left it, or it is the last. -/
theorem checkRest_cases (s : Session σ φ κ) :
    (∃ (high low : UInt32) (s' : Session σ φ κ) (uses : List ClockUse) (clock : κ),
        SlopeRead channel s high low s' ∧ (high ≠ 0 ∨ low ≠ 0) ∧
        wait.Ticked (Link.stopRequested s'.link) s'.clock none uses ∧
        Clock.Uses s'.clock uses clock ∧
        s.perform (checkRest channel wait) = (.ok false, { s' with clock })) ∨
      ∃ uses ending s', Polled channel wait s 0 uses ending s' ∧
        s.perform (checkRest channel wait) = (ending.result.map fun _ => true, s') := by
  cases hslope : s.perform (slope channel) with
  | mk r s' =>
      cases r with
      | error e => exact .inr ⟨[], .failed e, s', .failed hslope, Session.perform_bind_error hslope⟩
      | ok slope =>
          obtain ⟨high, low, hread, hzero⟩ := slopeRead_of_ok hslope
          have hround := perform_checkRest_of_slope channel wait hslope
          by_cases hrests : slope = 0
          · obtain ⟨rfl, rfl⟩ := hzero.mp hrests
            rw [if_pos hrests] at hround
            exact .inr ⟨[], .rested, s', .rested hread, hround⟩
          · rw [if_neg hrests, Session.perform_bind, perform_tick] at hround
            have hmoves : high ≠ 0 ∨ low ≠ 0 := not_and_or.mp (mt hzero.mpr hrests)
            obtain ⟨uses, htick, hclock⟩ := wait.ticked (Link.stopRequested s'.link) s'.clock
            cases hoff : (wait.tick (Link.stopRequested s'.link) s'.clock).1 with
            | none =>
                rw [hoff] at hround htick
                exact .inl ⟨high, low, s', uses, _, hread, hmoves, htick, hclock, hround⟩
            | some interruption =>
                rw [hoff] at hround htick
                exact .inr ⟨uses, .interrupted interruption, _,
                  .interrupted hread hmoves htick hclock, hround⟩

/-- Every wait goes by rounds. -/
theorem polled_awaitRest (s : Session σ φ κ) : ∃ ticks uses ending s',
    Polled channel wait s ticks uses ending s' ∧
      s.perform (awaitRest channel wait) = (ending.result, s') := by
  refine perform_repeatUntil_of_rounds (R := fun s outcome => ∃ ticks uses ending s',
    Polled channel wait s ticks uses ending s' ∧ outcome = (ending.result, s')) ?_ ?_ s
  · intro s r s' hround hlast
    rcases checkRest_cases channel wait s with ⟨_, _, _, _, _, -, -, -, -, hgoes⟩ |
      ⟨uses, ending, s'', hpolled, hends⟩
    · rw [hround] at hgoes
      exact absurd (congrArg Prod.fst hgoes) hlast
    · rw [hround] at hends
      obtain ⟨rfl, rfl⟩ := Prod.mk.inj hends
      refine ⟨0, uses, ending, _, hpolled, ?_⟩
      cases ending <;> rfl
  · rintro s s' outcome hround ⟨ticks, later, ending, s'', hpolled, rfl⟩
    rcases checkRest_cases channel wait s with
      ⟨high, low, s₁, uses, clock, hread, hmoves, htick, hclock, hgoes⟩ |
      ⟨uses, ending', s₁, -, hends⟩
    · rw [hround] at hgoes
      obtain ⟨-, rfl⟩ := Prod.mk.inj hgoes
      exact ⟨ticks + 1, later ++ uses, ending, s'', .again hread hmoves htick hclock hpolled, rfl⟩
    · rw [hround] at hends
      cases ending' <;> cases (Prod.mk.inj hends).1

/-- The host learns of a wait that the channel is at rest, and of one that ends otherwise
nothing. -/
theorem polled_rest (s : Session σ φ κ) : ∃ ticks uses ending s',
    Polled channel wait s ticks uses ending s' ∧ s'.host = s.host ∧
      s.perform (rest wait channel) = (ending.result, { s' with
        host := if ending.result.isOk then s.host.setMotion channel .idle else s.host }) := by
  obtain ⟨ticks, uses, ending, s', hpolled, hawait⟩ := polled_awaitRest channel wait s
  have hhost : s'.host = s.host := by
    have hleaves := (confined_awaitRest channel wait).leavesHost s
    rwa [hawait] at hleaves
  refine ⟨ticks, uses, ending, s', hpolled, hhost, ?_⟩
  rw [← hhost]
  cases ending with
  | rested => exact Session.perform_bind_of_ok hawait
  | failed e => exact Session.perform_bind_error hawait
  | interrupted interruption => exact Session.perform_bind_error hawait

theorem perform_settle_started (s : Session σ φ κ) : s.perform (settle channel) =
    ({ s with clock := (Wait.start s.config.patience s.clock).2 } : Session σ φ κ).perform
      (rest s.wait channel) := by
  show s.perform (startWait >>= fun wait => rest wait channel) = _
  rw [Session.perform_bind, perform_startWait]
  rfl

end Step

section

omit [Clock κ]

variable {channel : Channel} {s s' : Session σ φ κ} {high low : UInt32}

/-- Reading a slope sends the same four requests every time, or breaks off. -/
theorem sent_slope (channel : Channel) (s : Session σ φ κ) :
    ∃ made, s.Grown (s.perform (Step.slope channel)).2 made ∧
      sent made <+: Setting.slope.requests channel ∧
      ((s.perform (Step.slope channel)).1.isOk = true →
        sent made = Setting.slope.requests channel) := by
  obtain ⟨made, hg, hfollowed⟩ := Step.follows_slope channel s
  exact ⟨made, hg, hfollowed.begins, fun hok => (hfollowed.ok_iff.mp hok).1⟩

theorem SlopeRead.sent (h : SlopeRead channel s high low s') :
    ∃ made, s.Grown s' made ∧ DacRack.sent made = Setting.slope.requests channel := by
  obtain ⟨made, hg, -, hall⟩ := sent_slope channel s
  rw [h.ok] at hg hall
  exact ⟨made, hg, hall rfl⟩

end

namespace Polled

variable {channel : Channel} {wait : Wait} {s s' : Session σ φ κ} {ticks : Nat}
  {uses : List ClockUse} {ending : Ending φ}

/-- The uses are all there were. -/
theorem uses_clock (h : Polled channel wait s ticks uses ending s') :
    Clock.Uses s.clock uses s'.clock := by
  induction h with
  | rested h =>
      rw [h.clock_eq]
      exact .nil
  | @failed s s' e h =>
      have hclock := (Step.timeless_slope channel).clock_eq s
      rw [h] at hclock
      rw [show s'.clock = s.clock from hclock]
      exact .nil
  | interrupted h _ _ hclock =>
      rw [← h.clock_eq]
      exact hclock
  | again h _ _ hclock _ ih =>
      rw [← h.clock_eq]
      exact hclock.append ih

theorem countP_read (h : Polled channel wait s ticks uses ending s') :
    uses.countP ClockUse.isRead =
      if wait.deadline.isSome then ticks + ending.isLate.toNat else 0 := by
  induction h with
  | rested | failed => exact (ite_self 0).symm
  | @interrupted _ _ _ _ interruption _ _ _ _ htick _ =>
      obtain ⟨hcount, hdeadline, -⟩ := htick.of_some
      rw [hcount]
      cases interruption with
      | cancelled => exact (ite_self 0).symm
      | timedOut => exact (if_pos (hdeadline rfl)).symm
  | again _ _ htick _ _ ih =>
      rw [List.countP_append, ih, htick.of_none.1]
      cases wait.deadline with
      | none => rfl
      | some deadline =>
          simp only [Option.isSome_some, Bool.toNat_true, if_true]
          omega

theorem pauses_eq (h : Polled channel wait s ticks uses ending s') :
    uses.filterMap ClockUse.pause? = if 0 < wait.patience.interval then
      List.replicate ticks wait.patience.interval else [] := by
  induction h with
  | rested | failed => exact (ite_self []).symm
  | interrupted _ _ htick _ => exact htick.of_some.2.2.trans (ite_self []).symm
  | again _ _ htick _ _ ih =>
      rw [List.filterMap_append, ih, htick.of_none.2, Wait.filterMap_pauses]
      split
      · exact List.replicate_succ'.symm
      · rfl

/-- A wait reads the slope once more than it ticks well. -/
theorem sent (h : Polled channel wait s ticks uses ending s') :
    ∃ made last, s.Grown s' made ∧ DacRack.sent made =
        (List.replicate ticks (Setting.slope.requests channel)).flatten ++ last ∧
      last <+: Setting.slope.requests channel ∧
      ((∀ e, ending ≠ .failed e) → last = Setting.slope.requests channel) := by
  induction h with
  | rested h =>
      obtain ⟨made, hg, hsent⟩ := h.sent
      exact ⟨made, _, hg, hsent, List.prefix_rfl, fun _ => rfl⟩
  | @failed s s' e h =>
      obtain ⟨made, hg, hbegins, -⟩ := sent_slope channel s
      rw [h] at hg
      exact ⟨made, _, hg, rfl, hbegins, fun hne => absurd rfl (hne e)⟩
  | interrupted h _ _ _ =>
      obtain ⟨made, hg, hsent⟩ := h.sent
      exact ⟨made, _, ⟨hg.config, hg.capacity, hg.exchanges⟩, hsent, List.prefix_rfl, fun _ => rfl⟩
  | again h _ _ _ _ ih =>
      obtain ⟨made, hg, hsent⟩ := h.sent
      obtain ⟨made', last, hg', hsent', hbegins, hlast⟩ := ih
      refine ⟨made' ++ made, last, hg.trans ⟨hg'.config, hg'.capacity, hg'.exchanges⟩, ?_,
        hbegins, hlast⟩
      rw [sent_append, hsent, hsent', List.replicate_succ, List.flatten_cons, List.append_assoc]

end Polled

/-- Waiting for a ramp begins with a reading of the clock, if there is a timeout, and goes by
rounds until it ends. The channel is known to be idle then just where it was found at rest. -/
theorem settle_polled (s : Session σ φ κ) (channel : Channel) :
    let patience := s.config.patience
    ∃ ticks uses ending s', Polled channel s.wait
        { s with clock := (Wait.start patience s.clock).2 } ticks uses ending s' ∧
      s.perform (Step.settle channel) = (ending.result, { s' with
        host := if ending.result.isOk then s.host.setMotion channel .idle else s.host }) ∧
      s.wait = ⟨patience, patience.timeout.map fun timeout => (Clock.now s.clock).1 + timeout⟩ ∧
      Clock.Uses s.clock (uses ++ patience.opening s.clock) s'.clock ∧
      (uses ++ patience.opening s.clock).countP ClockUse.isRead =
        (if patience.timeout.isSome then ticks + ending.isLate.toNat + 1 else 0) ∧
      (uses ++ patience.opening s.clock).filterMap ClockUse.pause? =
        (if 0 < patience.interval then List.replicate ticks patience.interval else []) ∧
      ∃ made last, s.Grown s' made ∧
        sent made = (List.replicate ticks (Setting.slope.requests channel)).flatten ++ last ∧
        last <+: Setting.slope.requests channel ∧
        ((∀ e, ending ≠ .failed e) → last = Setting.slope.requests channel) := by
  intro patience
  obtain ⟨hwait, hopening⟩ := Wait.start_eq patience s.clock
  obtain ⟨ticks, uses, ending, s', hpolled, -, hrest⟩ := Step.polled_rest channel s.wait
    { s with clock := (Wait.start patience s.clock).2 }
  obtain ⟨made, last, hg, hsent⟩ := hpolled.sent
  have hcount := hpolled.countP_read
  have hpauses := hpolled.pauses_eq
  rw [show s.wait = _ from hwait] at hcount hpauses
  have hsettle := (Step.perform_settle_started channel s).trans hrest
  refine ⟨ticks, uses, ending, s', hpolled, hsettle, hwait, hopening.append hpolled.uses_clock, ?_,
    ?_, made, last, ⟨hg.config, hg.capacity, hg.exchanges⟩, hsent⟩
  · rw [List.countP_append, hcount, Patience.opening]
    cases patience.timeout <;> rfl
  · rw [List.filterMap_append, hpauses, Patience.opening]
    cases patience.timeout <;> exact List.append_nil _

end DacRack
