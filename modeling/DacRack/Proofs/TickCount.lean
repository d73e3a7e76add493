import DacRack.Proofs.Polling

/-!
# How often a wait ticks before it times out

On a clock that moves on by a fixed step whenever it is read, the time of a tick is known
beforehand. The wait begins with one reading, and each tick that goes well takes another and then
a pause. So when it comes to a tick, the clock has gone on since the deadline was fixed by a step,
and by a step and a pause for each tick before it (`Paced`). It goes well as long as that is no
more than the timeout, which it is `tickBound` times (`Paced.isAfter_iff`), and the clock may
start again from zero on the way, as long as the deadline and the tick after it are less than half
a round off.

Each round of a wait moves the count up by one (`Polled.ticks_le`), and when several channels are
waited for with one deadline the count goes on from one to the next (`PolledInTurn.ticks_le`). So
the bound is one for all of them. A wait comes up to it where the channel goes on moving: it does
not end before the deadline then, and the deadline ends it (`Polled.interrupted_of_moves`).
`ticks_of_timed` puts the two side by side, a single wait (`Timed.settle_timedOut`) and the waits
for all channels (`Timed.rests_within`).
-/

namespace DacRack

variable {σ φ κ α β : Type}

/-! ## The time of a tick -/

/-- How far a clock goes on in a use, if it moves on by a step when it is read. -/
def ClockUse.lasts (step : UInt64) : ClockUse → Nat
  | read _ => step.toNat
  | pause duration => duration.toNat

theorem SteppingClock.of_uses {start clock : SteppingClock} {uses : List ClockUse}
    (h : Clock.Uses start uses clock) :
    clock.step = start.step ∧ clock.reads = start.reads + uses.countP ClockUse.isRead ∧
      clock.reading = start.reading + UInt64.ofNat (uses.map (ClockUse.lasts start.step)).sum := by
  induction h with
  | nil => exact ⟨rfl, rfl, (UInt64.add_zero _).symm⟩
  | @read uses clock _ ih =>
      obtain ⟨hstep, hreads, hreading⟩ := ih
      refine ⟨hstep, ?_, ?_⟩
      · show clock.reads + 1 = _
        rw [hreads, List.countP_cons]
        rfl
      · show clock.reading + clock.step = _
        rw [hreading, hstep, List.map_cons, List.sum_cons, Nat.add_comm, UInt64.ofNat_add,
          ← UInt64.add_assoc]
        exact congrArg _ (UInt64.ofNat_toNat).symm
  | @pause uses clock _ duration ih =>
      obtain ⟨hstep, hreads, hreading⟩ := ih
      refine ⟨hstep, hreads, ?_⟩
      show clock.reading + duration = _
      rw [hreading, List.map_cons, List.sum_cons, Nat.add_comm, UInt64.ofNat_add,
        ← UInt64.add_assoc]
      exact congrArg _ (UInt64.ofNat_toNat).symm

/-- How often a wait ticks before its timeout is over. -/
def tickBound (timeout step interval : UInt64) : Nat :=
  (timeout.toNat + interval.toNat) / (step.toNat + interval.toNat)

/-- The wait has a timeout and nobody can stop it. Time goes on while it lasts, and it is over
before the clock has gone half a round. -/
structure Timed (patience : Patience) (timeout step : UInt64) : Prop where
  timeout_eq : patience.timeout = some timeout
  cancel_eq : patience.cancel = none
  moving : 0 < step.toNat + patience.interval.toNat
  short : timeout.toNat + step.toNat + patience.interval.toNat < 2 ^ 63 - 1

/-- The clock when so many ticks went well since the wait began. -/
structure Paced (patience : Patience) (start : SteppingClock) (ticks : Nat)
    (clock : SteppingClock) : Prop where
  step_eq : clock.step = start.step
  reading_eq : clock.reading = start.reading + UInt64.ofNat (start.step.toNat +
    ticks * (start.step.toNat + patience.interval.toNat))

theorem paced_start {patience : Patience} {timeout : UInt64} {start : SteppingClock}
    (h : Timed patience timeout start.step) :
    Paced patience start 0 (Wait.start patience start).2 := by
  rw [Wait.start_of_timeout h.timeout_eq]
  refine ⟨rfl, ?_⟩
  rw [Nat.zero_mul, Nat.add_zero, UInt64.ofNat_toNat]
  rfl

namespace Paced

variable {patience : Patience} {timeout : UInt64} {start clock clock' : SteppingClock}
  {ticks : Nat} {wait : Wait} {stop : Bool} {uses : List ClockUse}

theorem isAfter_iff (h : Paced patience start ticks clock)
    (htimed : Timed patience timeout start.step)
    (hticks : ticks ≤ tickBound timeout start.step patience.interval) :
    (Clock.now clock).1.isAfter (start.reading + timeout) = true ↔
      tickBound timeout start.step patience.interval ≤ ticks := by
  -- Within the bound the clock is less than half a round from the deadline (`short`), so that to
  -- be after it is to be greater, even if the clock has started again from zero.
  have hshort := htimed.short
  have hsize : UInt64.size = 2 ^ 64 := rfl
  have hmul := (Nat.le_div_iff_mul_le htimed.moving).mp hticks
  have hover : timeout.toNat < start.step.toNat +
        ticks * (start.step.toNat + patience.interval.toNat) ↔
      tickBound timeout start.step patience.interval < ticks + 1 := by
    rw [tickBound, Nat.div_lt_iff_lt_mul htimed.moving, Nat.succ_mul]
    omega
  show clock.reading.isAfter _ = true ↔ _
  rw [h.reading_eq, Instant.isAfter_add_iff, UInt64.toNat_ofNat_of_lt' (by omega)]
  omega

theorem tick (h : Paced patience start ticks clock) (hwait : wait.patience = patience)
    (hdeadline : wait.deadline.isSome = true) (htick : wait.Ticked stop clock none uses)
    (hclock : Clock.Uses clock uses clock') : Paced patience start (ticks + 1) clock' := by
  obtain ⟨hstep, -, hreading⟩ := SteppingClock.of_uses hclock
  have hpauses : (wait.pauses.map (ClockUse.lasts clock.step)).sum =
      patience.interval.toNat := by
    unfold Wait.pauses
    rw [hwait]
    split
    · exact Nat.add_zero _
    · next hnone =>
        rw [UInt64.lt_iff_toNat_lt] at hnone
        exact (Nat.eq_zero_of_not_pos hnone).symm
  have hlasts : (uses.map (ClockUse.lasts clock.step)).sum =
      start.step.toNat + patience.interval.toNat := by
    cases htick with
    | inTime =>
        rw [List.map_append, List.sum_append, hpauses, Nat.add_comm, ← h.step_eq]
        rfl
    | endless _ hnone =>
        rw [hnone] at hdeadline
        cases hdeadline
  refine ⟨hstep.trans h.step_eq, ?_⟩
  rw [hreading, hlasts, h.reading_eq, UInt64.add_assoc, ← UInt64.ofNat_add, Nat.succ_mul,
    Nat.add_assoc]

end Paced

/-! ## A single wait -/

/-- The step succeeds so many times in a row, each time with something like this. -/
def Session.keeps (step : Step σ φ κ α) (like : α → Bool) : Nat → Session σ φ κ → Bool
  | 0, _ => true
  | times + 1, s =>
    match s.perform step with
    | (.ok a, s') => like a && s'.keeps step like times
    | (.error _, _) => false

theorem Session.keeps_succ_iff {step : Step σ φ κ α} {like : α → Bool} {times : Nat}
    {s : Session σ φ κ} : s.keeps step like (times + 1) = true ↔ ∃ a s',
      s.perform step = (.ok a, s') ∧ like a = true ∧ s'.keeps step like times = true := by
  rw [keeps]
  split
  · next a s' hstep =>
      rw [Bool.and_eq_true]
      constructor
      · intro hkeeps
        exact ⟨a, s', hstep, hkeeps⟩
      · rintro ⟨a', s'', hstep', hkeeps⟩
        cases hstep.symm.trans hstep'
        exact hkeeps
  · next e s' hstep =>
      refine iff_of_false nofun ?_
      rintro ⟨a, s'', hstep', -⟩
      cases hstep.symm.trans hstep'

theorem Step.Timeless.keeps {step : Step σ φ κ α} (hstep : Timeless step) {like : α → Bool}
    {times : Nat} {s : Session σ φ κ} (h : s.keeps step like times = true) (clock : κ) :
    ({ s with clock } : Session σ φ κ).keeps step like times = true := by
  induction times generalizing s with
  | zero => rfl
  | succ times ih =>
      obtain ⟨a, s', hperform, hlike, hlater⟩ := Session.keeps_succ_iff.mp h
      refine Session.keeps_succ_iff.mpr ⟨a, _, ?_, hlike, ih hlater⟩
      rw [hstep s clock, hperform]

section

variable [Link σ φ]

/-- The slope of a channel can be read so many times in a row, and is never zero. -/
def Session.moves (channel : Channel) (reads : Nat) (s : Session σ φ κ) : Bool :=
  s.keeps (Step.slope channel) (· != 0) reads

namespace Polled

variable {channel : Channel} {wait : Wait} {ticks : Nat} {uses : List ClockUse}
  {ending : Ending φ}

theorem interrupted_of_moves [Clock κ] {s s' : Session σ φ κ}
    (h : Polled channel wait s ticks uses ending s') {reads : Nat} (hreads : ticks < reads)
    (hmoves : s.moves channel reads = true) :
    ∃ interruption, ending = .interrupted interruption := by
  induction h generalizing reads with
  | rested h =>
      obtain ⟨reads, rfl⟩ := Nat.exists_eq_add_one_of_ne_zero (Nat.ne_of_gt hreads)
      obtain ⟨slope, _, hslope, hne, -⟩ := Session.keeps_succ_iff.mp hmoves
      cases h.ok.symm.trans hslope
      exact absurd ((slope_eq_zero_iff 0 0).mpr ⟨rfl, rfl⟩) (bne_iff_ne.mp hne)
  | failed h =>
      obtain ⟨reads, rfl⟩ := Nat.exists_eq_add_one_of_ne_zero (Nat.ne_of_gt hreads)
      obtain ⟨slope, _, hslope, -⟩ := Session.keeps_succ_iff.mp hmoves
      cases h.symm.trans hslope
  | @interrupted _ _ _ _ interruption => exact ⟨interruption, rfl⟩
  | again h _ _ _ _ ih =>
      obtain ⟨reads, rfl⟩ := Nat.exists_eq_add_one_of_ne_zero (Nat.ne_zero_of_lt hreads)
      obtain ⟨slope, _, hslope, -, hlater⟩ := Session.keeps_succ_iff.mp hmoves
      cases h.ok.symm.trans hslope
      exact ih (Nat.lt_of_succ_lt_succ hreads) ((Step.timeless_slope channel).keeps hlater _)

variable {patience : Patience} {timeout : UInt64} {start : SteppingClock}
  {s s' : Session σ φ SteppingClock}

/-- Wherever a wait sets out from, it does not tick beyond the bound, it comes up to it where it
is late, and nothing else interrupts it. -/
theorem ticks_le (h : Polled channel wait s ticks uses ending s')
    (htimed : Timed patience timeout start.step)
    (hwait : wait = ⟨patience, some (start.reading + timeout)⟩) {before : Nat}
    (hpaced : Paced patience start before s.clock)
    (hbefore : before ≤ tickBound timeout start.step patience.interval) :
    before + ticks ≤ tickBound timeout start.step patience.interval ∧
      (ending = .rested → Paced patience start (before + ticks) s'.clock) ∧
      ∀ interruption, ending = .interrupted interruption → interruption = .timedOut ∧
        before + ticks = tickBound timeout start.step patience.interval := by
  subst hwait
  induction h generalizing before with
  | rested h =>
      refine ⟨hbefore, fun _ => ?_, nofun⟩
      rw [h.clock_eq]
      exact hpaced
  | failed => exact ⟨hbefore, nofun, nofun⟩
  | interrupted h _ htick _ =>
      rw [h.clock_eq] at htick
      refine ⟨hbefore, nofun, ?_⟩
      rintro _ ⟨⟩
      cases htick with
      | cancelled hstop =>
          rw [htimed.cancel_eq] at hstop
          cases hstop
      | timedOut _ hdeadline hlate =>
          cases hdeadline
          exact ⟨rfl, Nat.le_antisymm hbefore ((hpaced.isAfter_iff htimed hbefore).mp hlate)⟩
  | again h _ htick hclock _ ih =>
      rw [h.clock_eq] at htick hclock
      have hnext : before + 1 ≤ tickBound timeout start.step patience.interval := by
        cases htick with
        | inTime _ hdeadline hearly =>
            cases hdeadline
            refine Nat.lt_of_not_le fun hfull => ?_
            rw [(hpaced.isAfter_iff htimed hbefore).mpr hfull] at hearly
            cases hearly
        | endless _ hnone => cases hnone
      have hlater := ih (hpaced.tick rfl rfl htick hclock) hnext
      rw [Nat.add_assoc, Nat.add_comm 1] at hlater
      exact hlater

end Polled

end

/-! ## Waiting for one channel after the other

All channels are armed before the first is waited for, and arming takes no time either. -/

namespace Step

theorem timeless_range : Timeless (range : Step σ φ κ VoltageRange) :=
  timeless_look (fun _ _ => rfl) fun _ => timeless_pure _

theorem timeless_setMotion (channel : Channel) (motion : Motion) :
    Timeless (setMotion channel motion : Step σ φ κ Unit) :=
  fun _ _ => rfl

theorem Timeless.forM {step : β → Step σ φ κ PUnit} (h : ∀ item, Timeless (step item))
    (items : List β) : Timeless (items.forM step) := by
  induction items with
  | nil => exact timeless_pure _
  | cons item items ih => exact (h item).bind fun _ => ih

variable [Link σ φ]

theorem timeless_command (channel : Channel) (commands : List Command) :
    Timeless (command channel commands : Step σ φ κ Unit) := by
  have hselect : Timeless (selectChannel channel : Step σ φ κ Unit) := by
    refine (timeless_transact _ _).bind fun _ => timeless_look (fun _ _ => rfl) fun _ => ?_
    exact (timeless_ofExcept _).bind fun _ => (timeless_ofExcept _).bind fun _ => timeless_note _
  refine Timeless.bind (hselect.bind fun _ => timeless_transact _ _) fun _ => ?_
  exact (timeless_ofExcept _).bind fun _ => timeless_pure _

theorem timeless_startRamp (channel : Channel) (current target rate : Float) :
    Timeless (startRamp channel current target rate : Step σ φ κ Unit) := by
  refine ((timeless_readSetting channel .updatePeriod).bind fun _ => timeless_pure _).bind
    fun period => ?_
  refine timeless_range.bind fun _ => (timeless_ofExcept _).bind fun plan => ?_
  refine (timeless_ofExcept _).bind fun _ => (timeless_command _ _).bind fun _ => ?_
  exact (timeless_command _ _).bind fun _ => (timeless_setMotion _ _).bind fun _ =>
    timeless_note _

theorem timeless_arm [Clock κ] (channel : Channel) (target rate : Float) :
    Timeless (ramp channel target rate false : Step σ φ κ Unit) := by
  refine (timeless_ofExcept _).bind fun _ => timeless_range.bind fun _ => ?_
  refine (timeless_ofExcept _).bind fun _ => Timeless.bind ?_ fun current => ?_
  · exact (timeless_readSetting channel .output).bind fun _ => timeless_range.bind fun _ =>
      timeless_pure _
  · split
    · exact timeless_pure _
    · exact (timeless_startRamp channel current target rate).bind fun _ => timeless_pure _

end Step

/-- Channels that are waited for one after the other, up to the first whose wait does not end with
the channel at rest, and the ticks and the uses of the clock of all these waits. -/
inductive PolledInTurn [Link σ φ] [Clock κ] (wait : Wait) : List Channel → Session σ φ κ → Nat →
    List ClockUse → Except (Error φ) Unit → Session σ φ κ → Prop
  | done (s : Session σ φ κ) : PolledInTurn wait [] s 0 [] (.ok ()) s
  | broken {channel : Channel} {s s' : Session σ φ κ} {ticks : Nat} {uses : List ClockUse}
      {ending : Ending φ} (h : Polled channel wait s ticks uses ending s')
      (hending : ending.result.isOk = false) (channels : List Channel) :
      PolledInTurn wait (channel :: channels) s ticks uses ending.result s'
  | next {channel : Channel} {channels : List Channel} {s s' s'' : Session σ φ κ}
      {ticks ticks' : Nat} {uses uses' : List ClockUse} {r : Except (Error φ) Unit}
      (h : Polled channel wait s ticks uses .rested s')
      (hlater : PolledInTurn wait channels { s' with host := s.host.setMotion channel .idle }
        ticks' uses' r s'') :
      PolledInTurn wait (channel :: channels) s (ticks + ticks') (uses' ++ uses) r s''

section

variable [Link σ φ]

theorem Step.polledInTurn_rests [Clock κ] (wait : Wait) (channels : List Channel)
    (s : Session σ φ κ) : ∃ ticks uses r s', PolledInTurn wait channels s ticks uses r s' ∧
      s.perform (channels.forM (rest wait)) = (r, s') := by
  induction channels generalizing s with
  | nil => exact ⟨0, [], .ok (), s, .done s, rfl⟩
  | cons channel channels ih =>
      obtain ⟨ticks, uses, ending, s', hpolled, hhost, hrest⟩ := polled_rest channel wait s
      rw [perform_forM_cons, hrest]
      have hbroken (e : Error φ) : (Except.error e, ({ s' with host := s.host } : Session σ φ κ)) =
          ((.error e : Except (Error φ) Unit), s') := by
        rw [← hhost]
      cases ending with
      | rested =>
          obtain ⟨ticks', uses', r, s'', hlater, hrests⟩ :=
            ih { s' with host := s.host.setMotion channel .idle }
          exact ⟨_, _, r, s'', .next hpolled hlater, hrests⟩
      | failed e => exact ⟨ticks, uses, _, _, .broken hpolled rfl channels, hbroken _⟩
      | interrupted interruption =>
          exact ⟨ticks, uses, _, _, .broken hpolled rfl channels, hbroken _⟩

namespace PolledInTurn

variable {wait : Wait} {channels : List Channel} {ticks : Nat} {uses : List ClockUse}
  {r : Except (Error φ) Unit}

theorem uses_clock [Clock κ] {s s' : Session σ φ κ}
    (h : PolledInTurn wait channels s ticks uses r s') : Clock.Uses s.clock uses s'.clock := by
  induction h with
  | done => exact .nil
  | broken h => exact h.uses_clock
  | next h _ ih => exact h.uses_clock.append ih

theorem countP_read_le [Clock κ] {s s' : Session σ φ κ}
    (h : PolledInTurn wait channels s ticks uses r s') :
    uses.countP ClockUse.isRead ≤ ticks + 1 := by
  induction h with
  | done => exact Nat.zero_le _
  | broken h =>
      rw [h.countP_read]
      split
      · exact Nat.add_le_add_left (Bool.toNat_le _) _
      · exact Nat.zero_le _
  | @next _ _ _ _ _ ticks _ uses _ _ h _ ih =>
      have hrested : uses.countP ClockUse.isRead ≤ ticks := by
        rw [h.countP_read]
        split
        · exact Nat.le_refl _
        · exact Nat.zero_le _
      rw [List.countP_append]
      omega

theorem ticks_le {patience : Patience} {timeout : UInt64} {start : SteppingClock}
    {s s' : Session σ φ SteppingClock} (h : PolledInTurn wait channels s ticks uses r s')
    (htimed : Timed patience timeout start.step)
    (hwait : wait = ⟨patience, some (start.reading + timeout)⟩) {before : Nat}
    (hpaced : Paced patience start before s.clock)
    (hbefore : before ≤ tickBound timeout start.step patience.interval) :
    before + ticks ≤ tickBound timeout start.step patience.interval := by
  induction h generalizing before with
  | done => exact hbefore
  | broken h => exact (h.ticks_le htimed hwait hpaced hbefore).1
  | next h _ ih =>
      obtain ⟨hticks, hrested, -⟩ := h.ticks_le htimed hwait hpaced hbefore
      rw [← Nat.add_assoc]
      exact ih (hrested rfl) hticks

end PolledInTurn

/-! ## Until the timeout -/

section

variable {s : Session σ φ SteppingClock} {timeout : UInt64}

omit [Link σ φ] in
theorem Timed.wait_eq (htimed : Timed s.config.patience timeout s.clock.step)
    {t : Session σ φ SteppingClock} (hconfig : t.config = s.config) (hclock : t.clock = s.clock) :
    t.wait = ⟨s.config.patience, some (s.clock.reading + timeout)⟩ := by
  unfold Session.wait
  rw [hconfig, hclock, Wait.start_of_timeout htimed.timeout_eq]
  rfl

omit [Link σ φ] in
theorem Timed.reads_start (htimed : Timed s.config.patience timeout s.clock.step) :
    (Wait.start s.config.patience s.clock).2.reads = s.clock.reads + 1 := by
  rw [Wait.start_of_timeout htimed.timeout_eq]
  rfl

theorem Timed.settle_timedOut (htimed : Timed s.config.patience timeout s.clock.step)
    (channel : Channel)
    (hmoves : s.moves channel
      (tickBound timeout s.clock.step s.config.patience.interval + 1) = true) :
    let bound := tickBound timeout s.clock.step s.config.patience.interval
    ∃ uses s' made,
      Polled channel s.wait { s with clock := (Wait.start s.config.patience s.clock).2 } bound uses
          (.interrupted .timedOut) s' ∧
        s.perform (Step.settle channel) = (.error .timedOut, s') ∧ s.Grown s' made ∧
        sent made = (List.replicate (bound + 1) (Setting.slope.requests channel)).flatten ∧
        s'.clock.reads = s.clock.reads + (bound + 2) := by
  intro bound
  obtain ⟨ticks, uses, ending, s', hpolled, hhost, hrest⟩ := Step.polled_rest channel s.wait
    { s with clock := (Wait.start s.config.patience s.clock).2 }
  obtain ⟨hticks, -, hinterrupted⟩ :=
    hpolled.ticks_le htimed (htimed.wait_eq rfl rfl) (paced_start htimed) (Nat.zero_le _)
  rw [Nat.zero_add] at hticks hinterrupted
  obtain ⟨interruption, rfl⟩ := hpolled.interrupted_of_moves (Nat.lt_succ_of_le hticks)
    ((Step.timeless_slope channel).keeps hmoves _)
  obtain ⟨rfl, rfl⟩ := hinterrupted _ rfl
  obtain ⟨made, last, hg, hsent, -, hlast⟩ := hpolled.sent
  obtain ⟨-, hcount, -⟩ := SteppingClock.of_uses hpolled.uses_clock
  refine ⟨uses, s', made, hpolled, ?_, ⟨hg.config, hg.capacity, hg.exchanges⟩, ?_, ?_⟩
  · rw [Step.perform_settle_started, hrest]
    exact congrArg _ (by rw [← hhost]; rfl)
  · rw [hsent, hlast nofun, List.replicate_succ', List.flatten_append, List.flatten_singleton]
  · rw [hcount, htimed.reads_start, hpolled.countP_read, htimed.wait_eq rfl rfl]
    show s.clock.reads + 1 + (bound + 1) = _
    omega

theorem Timed.rests_within (htimed : Timed s.config.patience timeout s.clock.step)
    {armed : Session σ φ SteppingClock} (hconfig : armed.config = s.config)
    (hclock : armed.clock = s.clock) (channels : List Channel) :
    let bound := tickBound timeout s.clock.step s.config.patience.interval
    ∃ ticks uses r s', PolledInTurn armed.wait channels armed.waiting ticks uses r s' ∧
      armed.waiting.perform (channels.forM (Step.rest armed.wait)) = (r, s') ∧ ticks ≤ bound ∧
        s'.clock.reads ≤ s.clock.reads + (bound + 2) := by
  intro bound
  obtain ⟨ticks, uses, r, s', hpolled, hrests⟩ :=
    Step.polledInTurn_rests armed.wait channels armed.waiting
  have hwaiting : armed.waiting.clock = (Wait.start s.config.patience s.clock).2 := by
    unfold Session.waiting
    rw [hconfig, hclock]
  have hstart : Paced s.config.patience s.clock 0 armed.waiting.clock := by
    rw [hwaiting]
    exact paced_start htimed
  have hticks := hpolled.ticks_le htimed (htimed.wait_eq hconfig hclock) hstart (Nat.zero_le _)
  rw [Nat.zero_add] at hticks
  obtain ⟨-, hcount, -⟩ := SteppingClock.of_uses hpolled.uses_clock
  have hle := hpolled.countP_read_le
  refine ⟨ticks, uses, r, s', hpolled, hrests, hticks, ?_⟩
  rw [hcount, hwaiting, htimed.reads_start]
  omega

end

/-- A wait for a channel that goes on moving times out after as many ticks as its timeout has room
for, and all channels together have room for no more. -/
theorem ticks_of_timed (s : Session σ φ SteppingClock) {timeout : UInt64}
    (htimed : Timed s.config.patience timeout s.clock.step) :
    let bound := tickBound timeout s.clock.step s.config.patience.interval
    (∀ channel, s.moves channel (bound + 1) = true → ∃ uses s' made,
      Polled channel s.wait { s with clock := (Wait.start s.config.patience s.clock).2 } bound uses
          (.interrupted .timedOut) s' ∧
        s.perform (Step.settle channel) = (.error .timedOut, s') ∧ s.Grown s' made ∧
        sent made = (List.replicate (bound + 1) (Setting.slope.requests channel)).flatten ∧
        s'.clock.reads = s.clock.reads + (bound + 2)) ∧
    ∀ target rate,
      let arming := Step.onAllChannels fun channel => Step.ramp channel target rate false
      let armed := (s.perform arming).2
      match (s.perform arming).1 with
      | .error e => s.perform (Step.rampAll target rate) = (.error e, armed) ∧
          armed.clock = s.clock
      | .ok _ => ∃ ticks uses r s',
          PolledInTurn armed.wait Channel.all armed.waiting ticks uses r s' ∧
            s.perform (Step.rampAll target rate) = (r, s') ∧ ticks ≤ bound ∧
            s'.clock.reads ≤ s.clock.reads + (bound + 2) := by
  intro bound
  refine ⟨htimed.settle_timedOut, fun target rate => ?_⟩
  intro arming armed
  have hclock : armed.clock = s.clock :=
    (Step.Timeless.forM (fun channel => Step.timeless_arm channel target rate) _).clock_eq s
  obtain ⟨_, hg, -⟩ := Step.ends_arms Channel.all target rate s
  cases hr : (s.perform arming).1 with
  | error e => exact ⟨Step.perform_rampAll_of_error (Prod.ext hr rfl), hclock⟩
  | ok _ =>
      obtain ⟨ticks, uses, r, s', hpolled, hrests, hticks, hreads⟩ :=
        htimed.rests_within hg.config hclock Channel.all
      refine ⟨ticks, uses, r, s', hpolled, ?_, hticks, hreads⟩
      rw [Step.perform_rampAll_of_ok (Prod.ext hr rfl)]
      exact hrests

end

/-- A connection to a channel that moves on, on a clock that starts again from zero during the
wait. -/
def winding : Session ScriptedLink FaultKind SteppingClock :=
  { link := .ofReplies (List.replicate 5 ["A1542!", "p0!", "A1543!", "p1!"]).flatten
    clock := { reading := 0xfffffffffffffc18, step := 1000 }
    config := { patience := { timeout := some 5000, interval := 250 } } }

/-- In 5000 microseconds there is room for four ticks of 1250. -/
theorem ticks_winding :
    Timed winding.config.patience 5000 winding.clock.step ∧ winding.moves ⟨0, 0⟩ 5 = true ∧
      ∃ uses s', Polled ⟨0, 0⟩ winding.wait { winding with
          clock := (Wait.start winding.config.patience winding.clock).2 } 4 uses
          (.interrupted .timedOut) s' ∧
        winding.perform (Step.settle ⟨0, 0⟩) = (.error .timedOut, s') ∧ s'.clock.reads = 6 := by
  have htimed : Timed winding.config.patience 5000 winding.clock.step :=
    ⟨rfl, rfl, by decide, by decide⟩
  have hmoves : winding.moves ⟨0, 0⟩ 5 = true := by decide +kernel
  obtain ⟨uses, s', made, hpolled, hsettle, -, -, hreads⟩ :=
    (ticks_of_timed winding htimed).1 ⟨0, 0⟩ hmoves
  exact ⟨htimed, hmoves, uses, s', hpolled, hsettle, hreads⟩

end DacRack
