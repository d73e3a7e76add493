import DacRack.Proofs.Effects
import DacRack.Proofs.Scripts
import DacRack.Proofs.SetVolt

/-!
# How a ramp is armed

Eight transactions arm a channel (`Channel.armRequests`): where the output is and how often it is
updated are read, and then the limit and the slope are sent. Whatever a ramp meets with, it is
`Stepwise`: it sends the beginning of that script, goes on only from what was granted, sends the
limit and the slope of a plan made from the two words that were read (`Planned`), and is known of
from when its slope was accepted until a slope of zero was read (`Awaited`).

`Step.ends_ramp_stepwise` puts a ramp together from its three parts. The first reads the output,
and ends the ramp if that is the target (`Stepwise.there`). The second either stops with the
update period, where nothing can be planned (`Stepwise.stopped`), or sends what was planned
(`Stepwise.launched`). That both keep to their scripts is `Step.Follows`. The third waits, and it
is an induction on how often the slope is read (`Step.ends_awaitRest`).

Whether the output is at the target is asked of two voltages, not of two codes. Many voltages
have one code, and of these only the voltage of the code itself is there when the instrument
reports the code (`perform_ramp_there_iff`). From one volt, a ramp to another of them sends a
limit and a slope of zero (`atOneVolt`).
-/

namespace DacRack

variable {σ φ κ : Type}

/-- The requests that start a ramp: the limit and then the slope, and the channel is selected
before each. -/
def Channel.launchRequests (channel : Channel) (code : UInt16) (slope : Int64) : List Request :=
  [channel.selection, .commands [if 0 < slope.toInt then .upperLimit code else .lowerLimit code],
    channel.selection, .commands [.slope slope]]

def Channel.armRequests (channel : Channel) (code : UInt16) (slope : Int64) : List Request :=
  Setting.output.requests channel ++
    (Setting.updatePeriod.requests channel ++ channel.launchRequests code slope)

/-- On the wire, for the first channel and the slope of a ramp that falls. -/
example : (Channel.armRequests ⟨0, 0⟩ 39321 (-42)).map Request.wire =
    ["A1545;", "p;", "A1536;", "p;", "B0;C0;", "L39321;", "B0;C0;", "S-42;"] := by
  decide +kernel

/-- The words of a slope were read, the high one first, and the instrument replied them. -/
def ReadsSlope (channel : Channel) (slope : Int64) (made : List (Exchange φ)) : Prop :=
  ∃ (address high low : UInt32) (move move' : Exchange φ) (reply reply' : String),
    address.toNat = Setting.slope.address channel ∧
    move.ConfirmsCursor address ∧ Reply.word reply.toList = .ok high ∧
    move'.ConfirmsCursor (address + 1) ∧ Reply.word reply'.toList = .ok low ∧
    slope = (high.toUInt64 <<< 32 ||| low.toUInt64).toInt64 ∧
    made = [⟨.word .main (address + 1), .commands [.readMemory], .ok reply'⟩, move',
      ⟨.word .main address, .commands [.readMemory], .ok reply⟩, move]

/-- Rounds of a wait, the latest first, in each of which a slope was read that is not zero. -/
inductive Rounds (channel : Channel) : List (Exchange φ) → Prop
  | none : Rounds channel []
  | cons {slope : Int64} {reading later : List (Exchange φ)}
      (h : ReadsSlope channel slope reading) (hne : slope ≠ 0) (hlater : Rounds channel later) :
      Rounds channel (later ++ reading)

/-- How a ramp that was started is left: nothing more is asked, or the slope is read until it
is zero or something fails, which may be a reading that breaks off. -/
inductive Awaited (channel : Channel) (target : Float) :
    Bool → List (Exchange φ) → Bool → Motion → Prop
  | left : Awaited channel target false [] true (.ramping target)
  | rested {rounds last : List (Exchange φ)} (hrounds : Rounds channel rounds)
      (hzero : ReadsSlope channel 0 last) :
      Awaited channel target true (last ++ rounds) true .idle
  | interrupted {rounds last : List (Exchange φ)} (hrounds : Rounds channel rounds)
      (hbroken : Followed (Exchange.Granted channel) (Setting.slope.requests channel) last false) :
      Awaited channel target true (last ++ rounds) false (.ramping target)

theorem Awaited.after {channel : Channel} {target : Float} {slope : Int64}
    {reading later : List (Exchange φ)} {ok : Bool} {motion : Motion}
    (hread : ReadsSlope channel slope reading) (hne : slope ≠ 0)
    (h : Awaited channel target true later ok motion) :
    Awaited channel target true (later ++ reading) ok motion := by
  cases h with
  | rested hrounds hzero =>
      rw [List.append_assoc]
      exact .rested (.cons hread hne hrounds) hzero
  | interrupted hrounds hbroken =>
      rw [List.append_assoc]
      exact .interrupted (.cons hread hne hrounds) hbroken

namespace Reads

variable {channel : Channel} {setting : Setting} {word word' : UInt32}
  {reading reading' : List (Exchange φ)}

theorem length_eq (h : Reads channel setting word reading) : reading.length = 2 := by
  obtain ⟨address, move, reply, -, -, rfl, -⟩ := h
  rfl

theorem word_eq (h : Reads channel setting word reading)
    (h' : Reads channel setting word' reading) : word' = word := by
  obtain ⟨address, move, reply, -, -, rfl, hword⟩ := h
  obtain ⟨address', move', reply', -, -, heq, hword'⟩ := h'
  simp only [List.cons.injEq, Exchange.mk.injEq, Except.ok.injEq] at heq
  rw [← heq.1.2.2, hword] at hword'
  exact (Except.ok.inj hword').symm

theorem followed (h : Reads channel setting word reading) (hwords : setting.words = 1) :
    Followed (Exchange.Granted channel) (setting.requests channel) reading true := by
  obtain ⟨address, move, reply, haddress, hmove, rfl, hword⟩ := h
  have hsent : setting.requests channel =
      sent [⟨.word .main address, .commands [.readMemory], .ok reply⟩, move] := by
    rw [Setting.requests, hwords, ← haddress, UInt32.ofNat_toNat]
    show [.commands [.moveCursor address], .commands [.readMemory]] =
      [move.request, .commands [.readMemory]]
    rw [hmove.1]
  rw [hsent]
  refine ⟨List.prefix_rfl, List.forall_mem_singleton.mpr (.moved hmove), iff_of_true rfl ⟨rfl, ?_⟩⟩
  exact List.forall_mem_cons.mpr
    ⟨.read rfl rfl hword, List.forall_mem_singleton.mpr (.moved hmove)⟩

theorem still (h : Reads channel setting word reading) : Still reading := by
  obtain ⟨address, move, reply, -, hmove, rfl, -⟩ := h
  refine .cons nofun (.cons ?_ still_nil)
  rw [hmove.1]
  exact nofun

theorem eq_of_append (h : Reads channel setting word reading)
    (h' : Reads channel setting word' reading') {later later' : List (Exchange φ)}
    (heq : later ++ reading = later' ++ reading') : word' = word := by
  obtain ⟨-, rfl⟩ := List.append_inj' heq (h.length_eq.trans h'.length_eq.symm)
  exact h.word_eq h'

end Reads

theorem Followed.not_reads {channel : Channel} {setting : Setting} {word : UInt32}
    {later reading : List (Exchange φ)}
    (h : Followed (Exchange.Granted channel) (setting.requests channel) (later ++ reading) false)
    (hwords : setting.words = 1) : ¬ Reads channel setting word reading := by
  intro hreads
  obtain ⟨hsent, hgranted⟩ := (hreads.followed hwords).ok_iff.mp rfl
  have hlength := h.begins.length_le
  rw [← hsent, length_sent, length_sent, List.length_append] at hlength
  obtain rfl := List.length_eq_zero_iff.mp (show later.length = 0 by omega)
  cases h.ok_iff.mpr ⟨hsent, hgranted⟩

namespace Step

variable [Link σ φ]

theorem ends_slope (channel : Channel) (s : Session σ φ κ) :
    Ends (slope channel) s fun made r _ => ∀ n, r = .ok n → ReadsSlope channel n made := by
  unfold slope
  rw [readSetting_eq]
  refine Ends.bind (P := fun made (r : Except (Error φ) UInt64) _ =>
    ∀ n, r = .ok n → ReadsSlope channel n.toInt64 made) ?_ (fun _ _ _ _ _ => nofun) ?_
  · refine Ends.bind (P := fun made (r : Except (Error φ) UInt64) _ =>
      ∀ n, r = .ok n → ReadsSlope channel n.toInt64 made) ?_ (fun _ _ _ _ _ => nofun) ?_
    · refine (ends_readWord _ s).bind (fun _ _ _ _ _ => nofun) fun made high s' _ hread => ?_
      obtain ⟨move, reply, hmove, rfl, hhigh⟩ := hread high rfl
      refine (ends_readWord _ s').bind (fun _ _ _ _ _ => nofun) fun made' low s'' _ hread' => ?_
      obtain ⟨move', reply', hmove', rfl, hlow⟩ := hread' low rfl
      refine ends_pure ?_
      rintro _ ⟨⟩
      refine ⟨_, high, low, move, move', reply, reply', Setting.slope.toNat_address channel, hmove,
        hhigh, hmove', hlow, ?_, rfl⟩
      rw [UInt64.zero_shiftLeft, UInt64.zero_or]
    · intro made value s' _ hread
      exact ⟨[], ⟨rfl, rfl, rfl⟩, hread⟩
  · intro made value s' _ hread
    refine ends_pure ?_
    rintro _ ⟨⟩
    exact hread value rfl

omit [Link σ φ] in
theorem limitCommand_eq (plan : Ramp) : limitCommand plan =
    if 0 < plan.slope.toInt then .upperLimit plan.targetCode else .lowerLimit plan.targetCode := by
  by_cases hrises : 0 < plan.slope.toInt
  · rw [limitCommand_of_pos hrises, if_pos hrises]
  · rw [limitCommand_of_nonpos (not_lt.mp hrises), if_neg hrises]

theorem follows_launch (channel : Channel) (plan : Ramp) :
    Follows (Exchange.Granted channel) (channel.launchRequests plan.targetCode plan.slope)
      (command channel [limitCommand plan] >>= fun _ => command channel [.slope plan.slope] :
        Step σ φ κ Unit) := by
  unfold Channel.launchRequests
  rw [← limitCommand_eq]
  exact (follows_command channel _).bind fun _ => follows_command channel _

/-- A ramp is started in two parts: a period is read that lets it be planned, and what the plan
says is sent. -/
theorem ends_startRamp_parts (channel : Channel) (current target rate : Float)
    (s : Session σ φ κ) : Ends (startRamp channel current target rate) s fun made r _ =>
      (r.isOk = false ∧ ∃ ok, Followed (Exchange.Granted channel)
        (Setting.updatePeriod.requests channel) made ok) ∨
      ∃ period plan reading launch, made = launch ++ reading ∧
        Reads channel .updatePeriod period reading ∧
        Ramp.between s.config.range current target period rate = .ok plan ∧
        slopeFits plan.slope = true ∧ Followed (Exchange.Granted channel)
          (channel.launchRequests plan.targetCode plan.slope) launch r.isOk := by
  refine ((follows_updatePeriod channel s).and (ends_updatePeriod channel s)).bind ?_ ?_
  · rintro made e s' - ⟨hfollowed, -⟩
    exact .inl ⟨rfl, _, hfollowed⟩
  rintro reading period s₁ hg ⟨hfollowed, -, hreads⟩
  have hreads := hreads period rfl
  refine Ends.range_bind (Ends.inRange_bind (fun _ => .inl ⟨rfl, _, hfollowed⟩) ?_)
  intro plan hplan
  rw [hg.config] at hplan
  refine Ends.ensure_bind (.inl ⟨rfl, _, hfollowed⟩) fun hfits => ?_
  have hlaunch := follows_launch (σ := σ) (κ := κ) channel plan s₁
  -- The launch is the first two of the steps that are left; what comes after them is silent.
  have hassoc (rest : Step σ φ κ Unit) : (command channel [limitCommand plan] >>= fun _ =>
      command channel [.slope plan.slope] >>= fun _ => rest) =
      (command channel [limitCommand plan] >>= fun _ => command channel [.slope plan.slope]) >>=
        fun _ => rest := (bind_assoc _ _ _).symm
  show Ends (command channel [limitCommand plan] >>= fun _ =>
    command channel [.slope plan.slope] >>= fun _ => _) s₁ _
  rw [hassoc]
  refine hlaunch.bind ?_ ?_
  · intro launch e s₂ _ hlaunched
    exact .inr ⟨period, plan, reading, launch, rfl, hreads, hplan, hfits, hlaunched⟩
  · intro launch _ s₂ _ hlaunched
    exact ⟨[], ⟨rfl, rfl, rfl⟩, .inr ⟨period, plan, reading, launch, rfl, hreads, hplan, hfits,
      hlaunched⟩⟩

/-- A ramp was started just where its slope was accepted, and only then it is known of. -/
theorem ends_startRamp_armed (channel : Channel) (current target rate : Float)
    (s : Session σ φ κ) : Ends (startRamp channel current target rate) s fun made r s' =>
      (Armed channel made ↔ r.isOk = true) ∧
        s'.host = if r.isOk then s.host.setMotion channel (.ramping target) else s.host := by
  refine (ends_startRamp channel current target rate s).mono fun made r s' _ hends => ?_
  rcases hends with ⟨hstill, ⟨e, rfl⟩, hhost⟩ | ⟨period, plan, outcome, earlier, -, hearlier, rfl,
    ⟨haccepted, rfl, hhost⟩ | ⟨hrefused, ⟨e, rfl⟩, hhost⟩⟩
  · exact ⟨iff_of_false (hstill.not_armed channel) nofun, hhost⟩
  · exact ⟨iff_of_true ((armed_iff still_nil hearlier).mpr haccepted) rfl, hhost⟩
  · exact ⟨iff_of_false (mt (armed_iff still_nil hearlier).mp hrefused) nofun, hhost⟩

variable [Clock κ]

theorem ends_awaitRest (channel : Channel) (target : Float) (wait : Wait) (s : Session σ φ κ) :
    Ends (awaitRest channel wait) s fun made r _ =>
      Awaited channel target true made r.isOk (if r.isOk then .idle else .ramping target) := by
  have hcut : Followed (Exchange.Granted channel) (Setting.slope.requests channel)
      ([] : List (Exchange φ)) false := .unsent (List.cons_ne_nil _ _)
  -- A round ends the wait where it read zero or failed, which it may after it read something.
  refine ends_repeatUntil
    (P := fun _ made (r : Except (Error φ) Bool) _ => match r with
      | .ok true => ReadsSlope channel 0 made
      | .ok false => ∃ n, ReadsSlope channel n made ∧ n ≠ 0
      | .error _ => (∃ n, ReadsSlope channel n made ∧ n ≠ 0) ∨
          Followed (Exchange.Granted channel) (Setting.slope.requests channel) made false)
    (Q := fun _ made (r : Except (Error φ) Unit) _ =>
      Awaited channel target true made r.isOk (if r.isOk then .idle else .ramping target))
    ?_ ?_ ?_ ?_ s
  · intro s
    refine ((follows_slope channel s).and (ends_slope channel s)).bind ?_ ?_
    · rintro made e s' - ⟨hfollowed, -⟩
      exact .inr hfollowed
    · rintro made n s' - ⟨-, hread⟩
      have hread := hread n rfl
      split
      · next hzero =>
          refine ends_pure ?_
          rw [← hzero]
          exact hread
      · next hne =>
          refine (silent_tick wait s').bind ?_ ?_
          · rintro made' e s'' - ⟨rfl, -⟩
            exact .inl ⟨n, hread, hne⟩
          · rintro made' _ s'' - ⟨rfl, -⟩
            exact ends_pure ⟨n, hread, hne⟩
  · rintro s made e s' (⟨n, hread, hne⟩ | hbroken)
    · exact (Awaited.interrupted .none hcut).after hread hne
    · rw [← List.append_nil made]
      exact .interrupted .none hbroken
  · intro s made s' hread
    rw [← List.append_nil made]
    exact .rested .none hread
  · rintro s made s' made' r s'' - ⟨n, hread, hne⟩ hlater
    exact hlater.after hread hne

theorem ends_awaited {channel : Channel} {target : Float} {host : HostState}
    {s : Session σ φ κ} (hs : s.host = host.setMotion channel (.ramping target)) (wait : Bool) :
    Ends (if wait then settle channel else pure ()) s fun made r s' =>
      ∃ motion, Awaited channel target wait made r.isOk motion ∧
        s'.host = host.setMotion channel motion := by
  cases wait with
  | false => exact ends_pure ⟨_, .left, hs⟩
  | true =>
      have hmotion := ends_settled channel s
      rw [hs] at hmotion
      have hawaited : Ends (settle channel) s fun made r _ => Awaited channel target true made
          r.isOk (if r.isOk then .idle else .ramping target) :=
        Ends.bind_of_ok rfl ⟨rfl, rfl, rfl⟩ ((ends_awaitRest channel target _ _).bind
          (fun _ _ _ _ h => h) fun made _ s' _ h => ⟨[], ⟨rfl, rfl, rfl⟩, h⟩)
      refine (hawaited.and hmotion).mono ?_
      rintro made r s' - ⟨hawaited, hsettled⟩
      cases r with
      | ok _ =>
          refine ⟨.idle, hawaited, ?_⟩
          rw [hsettled.eq_of_ok, HostState.setMotion_setMotion]
      | error e => exact ⟨_, hawaited, hsettled.eq_of_error⟩

end Step

/-- What a channel's arming was planned from: the limit and the slope are those of a plan for the
output and the update period that were read, and the slope fits its register. -/
structure Planned (range : VoltageRange) (channel : Channel) (target rate : Float) (code : UInt16)
    (slope : Int64) (arming : List (Exchange φ)) : Prop where
  code : range.code target = .ok code
  fits : slope.toInt.natAbs ≤ 2 ^ 32
  planned : ∃ word period plan reading reading' launch,
    arming = launch ++ reading' ++ reading ∧ Reads channel .output word reading ∧
      Reads channel .updatePeriod period reading' ∧ (range.volt word == target) = false ∧
      Ramp.between range (range.volt word) target period rate = .ok plan ∧ slope = plan.slope

/-- How a ramp goes about its channel: the transactions that arm it, and those that wait for it,
both the latest first. -/
structure Stepwise (range : VoltageRange) (channel : Channel) (target rate : Float) (wait : Bool)
    (host : HostState) (arming polls : List (Exchange φ)) (r : Except (Error φ) Unit)
    (host' : HostState) : Prop where
  /-- Each is sent once the one before it was granted. -/
  granted : ∀ e ∈ arming.tail, e.Granted channel
  /-- Past the two readings, what is sent was planned from them. -/
  scripted : ∃ code slope, sent arming <+: channel.armRequests code slope ∧
    (4 < arming.length → Planned range channel target rate code slope arming)
  /-- A slope is sent once the limit was accepted. -/
  limit_accepted : ∀ slope sel limit earlier, arming = slope :: sel :: limit :: earlier →
    arming.length = 8 → Accepted limit.outcome
  /-- Where the output is at the target already, reading it is all that is done. -/
  there_iff : r = .ok () ∧ (polls ++ arming).length = 2 ↔ ∃ word reading later,
    polls ++ arming = later ++ reading ∧ Reads channel .output word reading ∧
      (range.volt word == target) = true
  /-- Short of an accepted slope, nothing more is asked and nothing is known of a ramp. -/
  unarmed : ¬ Armed channel arming →
    polls = [] ∧ host' = host ∧ (r = .ok () → arming.length = 2)
  armed : Armed channel arming → arming.length = 8 ∧
    (∀ e ∈ arming, e.Granted channel) ∧
    ∃ motion, Awaited channel target wait polls r.isOk motion ∧
      host' = host.setMotion channel motion

theorem Still.armed_append_iff {channel : Channel} {later earlier : List (Exchange φ)}
    (h : Still earlier) : Armed channel (later ++ earlier) ↔ Armed channel later := by
  refine Iff.trans ?_ (or_iff_left (h.not_armed channel))
  unfold Armed
  simp only [List.mem_append, or_and_right, exists_or]

namespace Stepwise

variable {range : VoltageRange} {channel : Channel} {target rate : Float} {wait ok : Bool}
  {host host' : HostState} {made polls launch reading reading' : List (Exchange φ)}
  {r : Except (Error φ) Unit} {word period : UInt32} {plan : Ramp}

theorem stopped {e : Error φ} (h : Followed (Exchange.Granted channel)
      (Setting.output.requests channel ++ Setting.updatePeriod.requests channel) made ok)
    (hnot : ¬ Armed channel made)
    (hthere : ∀ word reading later, made = later ++ reading →
      Reads channel .output word reading → (range.volt word == target) = false) :
    Stepwise range channel target rate wait host made [] (.error e) host where
  granted := h.all_but_last
  scripted := by
    refine ⟨0, 0, ?_, fun hlong => ?_⟩
    · rw [Channel.armRequests, ← List.append_assoc]
      exact h.begins.trans (List.prefix_append _ _)
    · have hlength := h.begins.length_le
      rw [length_sent] at hlength
      exact absurd hlong (Nat.not_lt_of_le hlength)
  limit_accepted := by
    intro slope sel limit earlier _ height
    have hlength := h.begins.length_le
    rw [length_sent, height] at hlength
    exact absurd hlength (by change ¬ 8 ≤ 4; decide)
  there_iff := by
    refine iff_of_false (fun h => nomatch h.1) ?_
    rintro ⟨word, reading, later, hmade, hreads, heq⟩
    rw [hthere word reading later hmade hreads] at heq
    cases heq
  unarmed _ := ⟨rfl, rfl, nofun⟩
  armed harmed := absurd harmed hnot

theorem there (h : Reads channel .output word made) (heq : (range.volt word == target) = true) :
    Stepwise range channel target rate wait host made [] (.ok ()) host where
  granted := (h.followed rfl).all_but_last
  scripted := by
    refine ⟨0, 0, (h.followed rfl).begins.trans (List.prefix_append _ _), fun hlong => ?_⟩
    rw [h.length_eq] at hlong
    exact absurd hlong (by decide)
  limit_accepted := by
    intro slope sel limit earlier _ height
    rw [h.length_eq] at height
    cases height
  there_iff := iff_of_true ⟨rfl, h.length_eq⟩ ⟨word, made, [], rfl, h, heq⟩
  unarmed _ := ⟨rfl, rfl, fun _ => h.length_eq⟩
  armed harmed := absurd harmed (h.still.not_armed channel)

theorem launched (hreads : Reads channel .output word reading)
    (hne : (range.volt word == target) = false)
    (hreads' : Reads channel .updatePeriod period reading')
    (hplan : Ramp.between range (range.volt word) target period rate = .ok plan)
    (hfits : slopeFits plan.slope = true)
    (hlaunch : Followed (Exchange.Granted channel)
      (channel.launchRequests plan.targetCode plan.slope) launch ok)
    (harmed : Armed channel (launch ++ reading') ↔ ok = true)
    (hrest : if ok then ∃ motion, Awaited channel target wait polls r.isOk motion ∧
      host' = host.setMotion channel motion else polls = [] ∧ host' = host ∧ r.isOk = false) :
    Stepwise range channel target rate wait host (launch ++ reading' ++ reading) polls r host' := by
  have hall := (hreads.followed rfl).append ((hreads'.followed rfl).append hlaunch)
  have hlength := hreads.length_eq
  have hlength' := hreads'.length_eq
  rw [← hreads.still.armed_append_iff] at harmed
  constructor
  · exact hall.all_but_last
  · refine ⟨plan.targetCode, plan.slope, hall.begins, fun _ => ⟨(Ramp.of_between hplan).2.1, ?_,
      word, period, plan, reading, reading', launch, rfl, hreads, hreads', hne, hplan, rfl⟩⟩
    exact of_decide_eq_true hfits
  · intro slope sel limit earlier harming height
    have hmem : limit ∈ (launch ++ reading' ++ reading).tail := by
      rw [harming]
      exact List.mem_cons_of_mem _ List.mem_cons_self
    -- All eight were sent, so the third from the end is the limit, and it is not the latest.
    have hsent := hall.begins.eq_of_length ((length_sent _).trans height)
    rw [harming] at hsent
    have hends : sent (slope :: sel :: limit :: earlier) =
        sent earlier ++ [limit.request, sel.request, slope.request] :=
      sent_append [slope, sel, limit] earlier
    have hscript : channel.armRequests plan.targetCode plan.slope =
        (Setting.output.requests channel ++ Setting.updatePeriod.requests channel ++
          [channel.selection]) ++ (channel.launchRequests plan.targetCode plan.slope).tail := by
      rw [List.append_assoc, List.append_assoc]
      rfl
    have hrequests := (List.append_inj' (hends.symm.trans (hsent.trans hscript)) rfl).2
    exact (hall.all_but_last limit hmem).accepted_of_command (List.cons.inj hrequests).1
  · refine iff_of_false ?_ ?_
    · rintro ⟨-, htwo⟩
      simp only [List.length_append] at htwo
      omega
    · rintro ⟨word', first, later, hmade, hfirst, heq⟩
      rw [← List.append_assoc] at hmade
      rw [hreads.eq_of_append hfirst hmade, hne] at heq
      cases heq
  · intro hnot
    rw [if_neg (mt harmed.mpr hnot)] at hrest
    obtain ⟨hpolls, hhost, hr⟩ := hrest
    refine ⟨hpolls, hhost, fun hok => ?_⟩
    rw [hok] at hr
    cases hr
  · intro h
    have hok := harmed.mp h
    rw [if_pos hok] at hrest
    obtain ⟨hsent, hgranted⟩ := hall.ok_iff.mp hok
    refine ⟨?_, hgranted, hrest⟩
    rw [← length_sent, hsent]
    rfl

end Stepwise

namespace Step

variable [Link σ φ] [Clock κ]

theorem ends_ramp_stepwise (channel : Channel) (target rate : Float) (wait : Bool)
    (s : Session σ φ κ) : Ends (ramp channel target rate wait) s fun made r s' =>
      ∃ polls arming, made = polls ++ arming ∧
        Stepwise s.config.range channel target rate wait s.host arming polls r s'.host := by
  have hnothing {e : Error φ} : Stepwise s.config.range channel target rate wait s.host [] []
      (.error e) s.host := by
    refine .stopped (.unsent (List.cons_ne_nil _ _)) (still_nil.not_armed channel) ?_
    intro word reading later hmade hreads
    have hlength := hreads.length_eq
    rw [(List.append_eq_nil_iff.mp hmade.symm).2] at hlength
    cases hlength
  -- From here on each way to end is one of the lemmas of `Stepwise`.
  refine Ends.ensure_bind ⟨[], [], rfl, hnothing⟩ fun _ => ?_
  refine Ends.range_bind (Ends.inRange_bind (fun _ => ⟨[], [], rfl, hnothing⟩) fun code _ => ?_)
  refine ((follows_volt channel s).and
    ((confined_volt channel).leavesHost.ends (ends_volt channel s))).bind ?_ ?_
  · rintro made e s₁ - ⟨hfollowed, ⟨hstill, -⟩, hhost⟩
    rw [hhost]
    refine ⟨[], made, rfl, .stopped (hfollowed.broken _) (hstill.not_armed channel) ?_⟩
    rintro word reading later rfl hreads
    exact absurd hreads (hfollowed.not_reads rfl)
  · rintro reading current s₁ hg ⟨hfollowed, ⟨hstill, hread⟩, hhost⟩
    obtain ⟨word, rfl, hreads⟩ := hread current rfl
    split
    · next heq =>
        refine ends_pure ?_
        rw [hhost]
        exact ⟨[], reading, rfl, .there hreads heq⟩
    · next hne =>
        have hne := eq_false_of_ne_true hne
        refine ((ends_startRamp_parts channel _ target rate s₁).and
          (ends_startRamp_armed channel _ target rate s₁)).bind ?_ ?_
        · rintro made e s₂ - ⟨⟨-, ok, hbroken⟩ | ⟨period, plan, reading', launch, rfl, hreads',
            hplan, hfits, hlaunch⟩, harmed, hhost₂⟩
          · rw [hhost₂, if_neg nofun, hhost]
            refine ⟨[], made ++ reading, rfl, .stopped ((hreads.followed rfl).append hbroken)
              (mt hstill.armed_append_iff.mp (mt harmed.mp nofun)) ?_⟩
            intro word' first later hmade hfirst
            rw [hreads.eq_of_append hfirst hmade]
            exact hne
          · rw [hg.config] at hplan
            exact ⟨[], _, rfl, .launched hreads hne hreads' hplan hfits hlaunch harmed
              ⟨rfl, hhost₂.trans hhost, rfl⟩⟩
        · rintro made _ s₂ - ⟨⟨⟨⟩, -⟩ | ⟨period, plan, reading', launch, rfl, hreads', hplan,
            hfits, hlaunch⟩, harmed, hhost₂⟩
          rw [hg.config] at hplan
          rw [hhost] at hhost₂
          refine (ends_awaited hhost₂ wait).mono fun polls r s₃ _ hawaited => ?_
          exact ⟨polls, launch ++ reading' ++ reading, List.append_assoc _ _ _,
            .launched hreads hne hreads' hplan hfits hlaunch harmed hawaited⟩

end Step

section

variable [Link σ φ] [Clock κ]

/-- A ramp is armed step by step, whatever it meets with, and counts from when its slope was
accepted until a slope of zero was read. -/
theorem ramp_stepwise (s : Session σ φ κ) (channel : Channel) (target rate : Float)
    (wait : Bool) :
    ∃ polls arming, (s.perform (Step.ramp channel target rate wait)).2.journal.exchanges =
        polls ++ arming ++ s.journal.exchanges ∧
      Stepwise s.config.range channel target rate wait s.host arming polls
        (s.perform (Step.ramp channel target rate wait)).1
        (s.perform (Step.ramp channel target rate wait)).2.host := by
  obtain ⟨made, hg, polls, arming, rfl, hstepwise⟩ :=
    Step.ends_ramp_stepwise channel target rate wait s
  exact ⟨polls, arming, hg.exchanges, hstepwise⟩

/-! A ramp to where the output is. -/

variable {s s₁ : Session σ φ κ} {channel : Channel} {target rate : Float} {wait : Bool}
  {code : UInt16} {value : UInt64}

/-- Where the instrument reports the code of the target, reading it is all that is done just
where the target is the voltage of that code, and not another one with the same code. -/
theorem perform_ramp_there_iff (hrate : rateAllowed rate = true)
    (hcode : s.config.range.code target = .ok code)
    (hread : s.perform (Step.readSetting channel .output) = (.ok value, s₁))
    (hsame : value.toUInt32 = code.toUInt32) :
    (∃ reading, s.Grown s₁ reading ∧ Reads channel .output code.toUInt32 reading) ∧
      (s.perform (Step.ramp channel target rate wait) = (.ok (), s₁) ↔
        (s.config.range.volt code.toUInt32 == target) = true) := by
  obtain ⟨reading, hg, hreads⟩ := Step.ends_readSetting channel .output rfl s
  rw [hread] at hg hreads
  have hreads := hreads value rfl
  rw [hsame] at hreads
  refine ⟨⟨reading, hg, hreads⟩, ?_⟩
  constructor
  · intro hramp
    obtain ⟨made, hg', polls, arming, rfl, hstepwise⟩ :=
      Step.ends_ramp_stepwise channel target rate wait s
    rw [hramp] at hg' hstepwise
    obtain rfl := hg.unique hg'
    obtain ⟨word, reading', later, heq, hreads', hthere⟩ :=
      hstepwise.there_iff.mp ⟨rfl, hreads.length_eq⟩
    rw [← List.nil_append (polls ++ arming)] at heq
    rwa [hreads.eq_of_append hreads' heq] at hthere
  · intro hthere
    have hvolt := Step.perform_volt_ok_iff.mpr ⟨value, hread, rfl⟩
    have hensured : s.perform (Step.ensure (.badParameter .rampRate) (rateAllowed rate)) =
        (.ok (), s) := by
      rw [hrate]
      rfl
    unfold Step.ramp
    rw [Session.perform_bind_of_ok hensured, Session.perform_range_bind, hcode,
      Session.perform_bind_of_ok
        (show s.perform (Step.inRange (.ok code)) = (.ok code, s) from rfl),
      Session.perform_bind_of_ok hvolt, hsame, if_pos hthere]
    rfl

end

/-- A connection to an instrument with a channel at the code of one volt, and with the replies to
a ramp that goes nowhere. -/
def atOneVolt : Session ScriptedLink FaultKind SteppingClock :=
  connected ["A1545!", "p39321!", "A1536!", "p1000!", "B0!C0!", "L39321!", "B0!C0!", "S0!",
    "A1542!", "p0!", "A1543!", "p0!"]

theorem perform_readSetting_atOneVolt :
    ∃ s₁, atOneVolt.perform (Step.readSetting ⟨0, 0⟩ .output) = (.ok 39321, s₁) := by
  have hread : (atOneVolt.perform (Step.readSetting ⟨0, 0⟩ .output)).1 = .ok 39321 :=
    eq_ok_of_toOption (by decide +kernel)
  cases hperform : atOneVolt.perform (Step.readSetting ⟨0, 0⟩ .output) with
  | mk r s₁ =>
      rw [hperform] at hread
      exact ⟨s₁, congrArg (·, s₁) hread⟩

theorem exists_rearmed_atOneVolt :
    ∃ s₁, atOneVolt.perform (Step.readSetting ⟨0, 0⟩ .output) = (.ok 39321, s₁) ∧
      rateAllowed 1 = true ∧ atOneVolt.config.range.code 1.00001 = .ok 39321 ∧
      (atOneVolt.perform (Step.ramp ⟨0, 0⟩ 1.00001 1 true)).1 = .ok () ∧
      (atOneVolt.perform (Step.ramp ⟨0, 0⟩ 1.00001 1 true)).2.link.sent =
        s₁.link.sent ++ Text.bytes "A1536;p;B0;C0;L39321;B0;C0;S0;A1542;p;A1543;p;" := by
  have hsent : (atOneVolt.perform (Step.ramp ⟨0, 0⟩ 1.00001 1 true)).2.link.sent =
      (atOneVolt.perform (Step.readSetting ⟨0, 0⟩ .output)).2.link.sent ++
        Text.bytes "A1536;p;B0;C0;L39321;B0;C0;S0;A1542;p;A1543;p;" := by
    decide +kernel
  obtain ⟨s₁, hread⟩ := perform_readSetting_atOneVolt
  rw [hread] at hsent
  exact ⟨s₁, hread, by decide +kernel, eq_ok_of_toOption (by decide +kernel),
    eq_ok_of_toOption (by decide +kernel), hsent⟩

theorem perform_ramp_there_atOneVolt :
    ∃ s₁, atOneVolt.perform (Step.readSetting ⟨0, 0⟩ .output) = (.ok 39321, s₁) ∧
      atOneVolt.perform (Step.ramp ⟨0, 0⟩ 1 1 true) = (.ok (), s₁) := by
  obtain ⟨s₁, hread⟩ := perform_readSetting_atOneVolt
  have hcode : atOneVolt.config.range.code 1 = .ok 39321 :=
    eq_ok_of_toOption (by decide +kernel)
  refine ⟨s₁, hread, ?_⟩
  exact (perform_ramp_there_iff (by decide +kernel) hcode hread rfl).2.mpr (by decide +kernel)

end DacRack
