import DacRack.Proofs.LineEnds
import DacRack.Proofs.Polling

/-!
# Waits that run out of arrivals

A wait without a timeout ends because what it waits for has to be said. Every answer takes
something of what has yet to arrive (`Counts.ask`): an end of the stream or a pause ends a line
only if there were bytes in it, and an empty line has its terminator. Reading a slope takes four
answers, so with so many things left to arrive a slope can be read a quarter as often, and once
more to find that there is nothing left.

That is said of waits that are only allowed so many readings. `Session.restWithin` counts each
reading, whatever comes of it, and gives up when it may not read again, and
`Session.restsWithin` hands on from one channel to the next what is left of the allowance. Both
come to what the waits without one come to, if they may read once more than a quarter of what has
yet to arrive (`Counts.restWithin`, `Counts.restsWithin`). The invariant is the same for both:
less is left to arrive than four times the allowance.
-/

namespace DacRack

variable {σ φ κ α : Type}

/-- Counts what has yet to arrive, if it is finite: a byte takes from it, and nothing that is done
with the link adds to it. -/
structure Counts [Link σ φ] (left : σ → Nat) : Prop where
  send (bytes : List UInt8) (link : σ) : left (Link.send bytes link).2 ≤ left link
  receive (link : σ) : left (Link.receive link).2 ≤ left link
  byte {link link' : σ} {byte : UInt8} (h : Link.receive link = (.byte byte, link')) :
    left link' + 1 ≤ left link

namespace Counts

variable [Link σ φ] {left : σ → Nat} {link link' : σ} {bytes : List UInt8}

theorem delivers (h : Counts left) (hdelivers : Delivers link bytes link') :
    left link' + bytes.length ≤ left link := by
  induction hdelivers with
  | nil => exact Nat.le_refl _
  | cons hreceive _ ih =>
      have hbyte := h.byte hreceive
      rw [List.length_cons]
      omega

theorem headRun (h : Counts left) {terminator : UInt8} {next : Arrival φ} {rest : σ}
    (hrun : HeadRun terminator link bytes next rest) : left rest + bytes.length ≤ left link := by
  obtain ⟨last, hdelivers, hnext⟩ := hrun.delivered
  have hbytes := h.delivers hdelivers
  have hrest := h.receive last
  rw [hnext] at hrest
  exact Nat.le_trans (Nat.add_le_add_right hrest _) hbytes

theorem finishes (h : Counts left) {terminator : UInt8} {next : Arrival φ} {rest : σ}
    (hrun : HeadRun terminator link bytes next rest)
    (hends : Finishes σ terminator bytes next) : left rest + 1 ≤ left link := by
  have hbytes := h.headRun hrun
  have hsome (hne : bytes ≠ []) : left rest + 1 ≤ left link := by
    have hpos := List.length_pos_iff.mpr hne
    omega
  -- A terminator is a byte itself, and the other ends come after one.
  cases hends with
  | terminator =>
      obtain ⟨last, hdelivers, hnext⟩ := hrun.delivered
      have hlast := h.delivers hdelivers
      have hbyte := h.byte hnext
      omega
  | nothing hne => exact hsome hne
  | pause hne _ => exact hsome hne

theorem ask (h : Counts left) {capacity : Nat} {terminator : UInt8} {request : String}
    {r : Except (Error φ) String}
    (hask : Line.ask capacity terminator request link = (r, link')) :
    left link' + r.isOk.toNat ≤ left link := by
  have hsend := h.send (Text.bytes request) link
  rcases Line.ask_cases hask with
    ⟨fault, hfails, rfl⟩ | ⟨start, bytes, next, rest, hsent, hrun, hends⟩
  · rw [hfails] at hsend
    exact hsend
  · rw [hsent] at hsend
    refine Nat.le_trans ?_ hsend
    rcases hends with ⟨-, rfl, htaken⟩ | ⟨-, rfl, hsettles⟩
    · exact Nat.le_trans (Nat.le_add_right _ _) (h.delivers htaken)
    · have hkept := Nat.le_trans (Nat.le_add_right _ _) (h.headRun hrun)
      cases hsettles with
      | line hends _ =>
          exact Nat.le_trans (Nat.add_le_add_left (Bool.toNat_le _) _) (h.finishes hrun hends)
      | empty => exact hkept
      | fault _ => exact hkept

theorem exchange (h : Counts left) {target : Target} {request : Request} {reply : String}
    {s s' : Session σ φ κ} (hasked : s.perform (Step.exchange target request) = (.ok reply, s')) :
    left s'.link + 1 ≤ left s.link := by
  obtain ⟨_, -, hask⟩ : Step.Ends (Step.exchange target request) s fun _ r s' =>
      Line.ask s.capacity s.config.terminator request.wire s.link = (r, s'.link) :=
    Step.ends_exchange_ask fun _ _ _ hask => hask
  rw [hasked] at hask
  exact h.ask hask

theorem built (h : Counts left) {may : Target → Request → Prop} {step : Step σ φ κ α}
    (hbuilt : Step.Built may step) (s : Session σ φ κ) :
    Step.Ends step s fun made _ s' =>
      left s'.link + made.countP (fun e => e.outcome.isOk) ≤ left s.link := by
  refine hbuilt.ends (R := fun s made s' =>
    left s'.link + made.countP (fun e => e.outcome.isOk) ≤ left s.link) ?_ ?_ ?_ s
  · intro s s' hlink
    rw [hlink]
    exact Nat.le_refl _
  · intro s s' e _ _ hask
    have hone : [e].countP (fun e => e.outcome.isOk) = e.outcome.isOk.toNat := by
      cases hok : e.outcome.isOk <;> simp [hok]
    rw [hone]
    exact h.ask hask
  · intro s s' s'' made made' _ hmade hmade'
    rw [List.countP_append]
    omega

theorem slope (h : Counts left) {channel : Channel} {s s' : Session σ φ κ} {slope : Int64}
    (hslope : s.perform (Step.slope channel) = (.ok slope, s')) :
    left s'.link + 4 ≤ left s.link := by
  have hbuilt : Step.Built (Aimed (fun target => ∀ channel, target ≠ .channel channel) none)
      (Step.slope channel : Step σ φ κ Int64) :=
    (Step.built_readSetting channel .slope).bind fun _ => (Step.silent_pure _).built
  obtain ⟨made, -, hleft, hread⟩ := (h.built hbuilt s).and (Step.ends_slope channel s)
  rw [hslope] at hleft hread
  obtain ⟨_, _, _, move, move', _, _, -, ⟨-, _, hmove, -⟩, -, ⟨-, _, hmove', -⟩, -, -, rfl⟩ :=
    hread slope rfl
  simpa [hmove, hmove', Except.isOk, Except.toBool] using hleft

end Counts

/-- Reads a slope until it is zero, with a pause after each that is not, but reads so many times
at the most. The result comes with how many times more it might have read. -/
def Session.pollWithin (read : Step σ φ κ Int64) (pause finish : Step σ φ κ Unit) :
    Nat → Session σ φ κ → Option (Nat × Except (Error φ) Unit × Session σ φ κ)
  | 0, _ => none
  | reads + 1, s =>
    match s.perform read with
    | (.error e, s) => some (reads, .error e, s)
    | (.ok slope, s) =>
      if slope = 0 then some (reads, s.perform finish)
      else match s.perform pause with
        | (.error e, s) => some (reads, .error e, s)
        | (.ok (), s) => pollWithin read pause finish reads s

section

variable [Link σ φ] [Clock κ]

namespace Session

/-- Waits for a channel, but reads its slope so many times at the most. -/
def restWithin (wait : Wait) (channel : Channel) :
    Nat → Session σ φ κ → Option (Nat × Except (Error φ) Unit × Session σ φ κ) :=
  pollWithin (Step.slope channel) (Step.tick wait) (Step.setMotion channel .idle)

/-- Waits for channels in turn, and reads so many slopes at the most for all of them. -/
def restsWithin (wait : Wait) :
    List Channel → Nat → Session σ φ κ → Option (Except (Error φ) Unit × Session σ φ κ)
  | [], _, s => some (.ok (), s)
  | channel :: channels, reads, s =>
    match s.restWithin wait channel reads with
    | none => none
    | some (_, .error e, s) => some (.error e, s)
    | some (unused, .ok (), s) => restsWithin wait channels unused s

end Session

namespace Step

variable {wait : Wait} {channel : Channel} {s s' : Session σ φ κ}

theorem perform_rest_of_round {r : Except (Error φ) Bool}
    (hround : s.perform (checkRest channel wait) = (r, s')) :
    s.perform (rest wait channel) = match r with
      | .error e => (.error e, s')
      | .ok true => s'.perform (setMotion channel .idle)
      | .ok false => s'.perform (rest wait channel) := by
  have hawait := perform_repeatUntil (checkRest channel wait)
    ((draws_checkRest channel wait).mono (by decide)) s
  rw [hround] at hawait
  rcases r with e | _ | _
  · exact Session.perform_bind_error hawait
  · have hlater := Session.perform_bind s' (awaitRest channel wait) fun _ => setMotion channel .idle
    have hfirst := Session.perform_bind s (awaitRest channel wait) fun _ => setMotion channel .idle
    rw [show s.perform (awaitRest channel wait) = _ from hawait] at hfirst
    exact hfirst.trans hlater.symm
  · exact Session.perform_bind_of_ok hawait

theorem perform_rest_of_slope {slope : Int64}
    (hslope : s.perform (Step.slope channel) = (.ok slope, s')) : s.perform (rest wait channel) =
      if slope = 0 then s'.perform (setMotion channel .idle)
      else s'.perform (tick wait >>= fun _ => rest wait channel) := by
  have hround := perform_checkRest_of_slope channel wait hslope
  by_cases hzero : slope = 0
  · rw [if_pos hzero] at hround ⊢
    exact perform_rest_of_round hround
  · rw [if_neg hzero] at hround ⊢
    cases htick : s'.perform (tick wait) with
    | mk r s'' =>
        cases r with
        | error e =>
            rw [Session.perform_bind_error htick] at hround ⊢
            exact perform_rest_of_round hround
        | ok _ =>
            rw [Session.perform_bind_of_ok htick] at hround ⊢
            exact perform_rest_of_round hround

end Step

namespace Counts

variable {left : σ → Nat}

/-- What is allowed is enough if less is left to arrive than four times as much, and what is left
of it is enough for what is left then. -/
theorem restWithin (h : Counts left) (wait : Wait) (channel : Channel) {reads : Nat}
    {s : Session σ φ κ} (hreads : left s.link < 4 * reads) :
    ∃ unused, s.restWithin wait channel reads = some (unused, s.perform (Step.rest wait channel)) ∧
      ((s.perform (Step.rest wait channel)).1.isOk = true →
        left (s.perform (Step.rest wait channel)).2.link < 4 * unused) := by
  -- A round takes one from the allowance, and four or more from what has yet to arrive.
  induction reads generalizing s with
  | zero => omega
  | succ reads ih =>
      rw [Session.restWithin, Session.pollWithin]
      cases hslope : s.perform (Step.slope channel) with
      | mk r s' =>
          cases r with
          | error e =>
              have hround : s.perform (Step.checkRest channel wait) = (.error e, s') :=
                Session.perform_bind_error hslope
              rw [Step.perform_rest_of_round hround]
              exact ⟨reads, rfl, nofun⟩
          | ok slope =>
              have htaken := h.slope hslope
              have hlasts : left s'.link < 4 * reads := by omega
              rw [Step.perform_rest_of_slope hslope]
              by_cases hzero : slope = 0
              · rw [if_pos hzero]
                exact ⟨reads, if_pos hzero, fun _ => hlasts⟩
              · rw [if_neg hzero, Session.perform_bind]
                simp only [if_neg hzero]
                rw [Step.perform_tick]
                cases (wait.tick (Link.stopRequested s'.link) s'.clock).1 with
                | some interruption => exact ⟨reads, rfl, nofun⟩
                | none => exact ih hlasts

theorem restsWithin (h : Counts left) (wait : Wait) (channels : List Channel) {reads : Nat}
    {s : Session σ φ κ} (hreads : left s.link < 4 * reads) :
    s.restsWithin wait channels reads = some (s.perform (channels.forM (Step.rest wait))) := by
  induction channels generalizing reads s with
  | nil => rfl
  | cons channel channels ih =>
      obtain ⟨unused, hrest, hlasts⟩ := h.restWithin wait channel hreads
      rw [Session.restsWithin, hrest, Step.perform_forM_cons]
      cases hr : s.perform (Step.rest wait channel) with
      | mk r s' =>
          rw [hr] at hlasts
          cases r with
          | error e => rfl
          | ok _ => exact ih (hlasts rfl)

theorem arms (h : Counts left) (channels : List Channel) (target rate : Float)
    (s : Session σ φ κ) :
    left (s.perform (channels.forM fun channel => Step.ramp channel target rate false)).2.link ≤
      left s.link := by
  induction channels generalizing s with
  | nil => exact Nat.le_refl _
  | cons channel channels ih =>
      obtain ⟨made, -, harm⟩ := h.built (Step.built_arm channel target rate) s
      have hle := Nat.le_trans (Nat.le_add_right _ _) harm
      rw [Step.perform_forM_cons]
      cases hr : s.perform (Step.ramp channel target rate false) with
      | mk r s' =>
          rw [hr] at hle
          cases r with
          | error e => exact hle
          | ok _ => exact Nat.le_trans (ih s') hle

end Counts

/-- Where what has yet to arrive can be counted, an answer takes something of it and a slope four
things, so that a wait ends after at most one reading more than a quarter of it, and so do the
waits for all channels together. -/
theorem waits_within_arrivals {left : σ → Nat} (hleft : Counts left) (s : Session σ φ κ) :
    (∀ target request reply s', s.perform (Step.exchange target request) = (.ok reply, s') →
      left s'.link + 1 ≤ left s.link) ∧
    (∀ channel slope s', s.perform (Step.slope channel) = (.ok slope, s') →
      left s'.link + 4 ≤ left s.link) ∧
    (∀ channel, ∃ unused, ({ s with
        clock := (Wait.start s.config.patience s.clock).2 } : Session σ φ κ).restWithin s.wait
          channel (left s.link / 4 + 1) = some (unused, s.perform (Step.settle channel))) ∧
    ∀ target rate,
      let arming := Step.onAllChannels fun channel => Step.ramp channel target rate false
      let armed := (s.perform arming).2
      left armed.link ≤ left s.link ∧
      match (s.perform arming).1 with
      | .error e => s.perform (Step.rampAll target rate) = (.error e, armed)
      | .ok _ => armed.waiting.restsWithin armed.wait Channel.all (left armed.link / 4 + 1) =
          some (s.perform (Step.rampAll target rate)) := by
  have hquarter (n : Nat) : n < 4 * (n / 4 + 1) := by omega
  refine ⟨fun _ _ _ _ hasked => hleft.exchange hasked, fun _ _ _ hslope => hleft.slope hslope,
    fun channel => ?_, fun target rate => ?_⟩
  · obtain ⟨unused, hrest, -⟩ := hleft.restWithin s.wait channel
      (s := { s with clock := (Wait.start s.config.patience s.clock).2 }) (hquarter (left s.link))
    exact ⟨unused, by rw [hrest, Step.perform_settle_started]⟩
  · intro arming armed
    refine ⟨hleft.arms Channel.all target rate s, ?_⟩
    cases hr : (s.perform arming).1 with
    | error e => exact Step.perform_rampAll_of_error (Prod.ext hr rfl)
    | ok _ =>
        show armed.waiting.restsWithin armed.wait Channel.all (left armed.link / 4 + 1) = _
        rw [Step.perform_rampAll_of_ok (Prod.ext hr rfl)]
        exact hleft.restsWithin armed.wait Channel.all (hquarter (left armed.link))

end

/-- What a script says that receiving comes to. A stop request is not received. -/
def ScriptEvent.arrives : ScriptEvent → Bool
  | .stop _ => false
  | _ => true

namespace ScriptedLink

def arrivals (link : ScriptedLink) : Nat :=
  link.script.countP ScriptEvent.arrives

theorem countP_take (stop : Bool) (script : List ScriptEvent) :
    (take stop script).2.2.countP ScriptEvent.arrives + (take stop script).1.isSome.toNat =
      script.countP ScriptEvent.arrives := by
  induction script generalizing stop with
  | nil => rfl
  | cons event rest ih =>
      rw [List.countP_cons]
      cases event with
      | stop requested => exact ih requested
      | _ => rfl

theorem counts_arrivals : Counts arrivals where
  send bytes link := by
    show arrivals (send bytes link).2 ≤ arrivals link
    unfold send
    split
    · exact Nat.le_refl _
    · split <;> exact Nat.le_refl _
  receive link := Nat.le_trans (Nat.le_add_right _ _) (countP_take link.stop link.script).le
  byte {link link' byte} h := by
    have hsome : (take link.stop link.script).1.isSome = true := by
      have hbyte : (take link.stop link.script).1.getD (link.idle.elim .nothing .fault) =
          .byte byte := congrArg Prod.fst h
      cases hnone : (take link.stop link.script).1 with
      | some arrival => rfl
      | none =>
          rw [hnone] at hbyte
          cases hidle : link.idle with
          | none =>
              rw [hidle] at hbyte
              cases hbyte
          | some kind =>
              rw [hidle] at hbyte
              cases hbyte
    have htaken := countP_take link.stop link.script
    rw [hsome] at htaken
    have hlink' : (Link.receive link).2 = link' := congrArg Prod.snd h
    rw [← hlink']
    exact htaken.le

end ScriptedLink

/-- A connection that would wait for ever, and a channel that moves on three times over. -/
def unhurried : Session ScriptedLink FaultKind SteppingClock :=
  { link := .ofReplies (List.replicate 3 ["A1542!", "p0!", "A1543!", "p1!"]).flatten
    clock := {} }

/-- There are 66 bytes for it to read, which is no more than 17 slopes. -/
theorem waits_unhurried :
    unhurried.config.patience.timeout = none ∧ unhurried.config.patience.cancel = none ∧
      unhurried.link.arrivals = 66 ∧
      (∃ unused, unhurried.restWithin unhurried.wait ⟨0, 0⟩ 17 =
        some (unused, unhurried.perform (Step.settle ⟨0, 0⟩))) ∧
      (unhurried.perform (Step.settle ⟨0, 0⟩)).1.isOk = false := by
  have harrivals : unhurried.link.arrivals = 66 := by decide
  obtain ⟨-, -, hsettle, -⟩ := waits_within_arrivals ScriptedLink.counts_arrivals unhurried
  obtain ⟨unused, hrest⟩ := hsettle ⟨0, 0⟩
  rw [harrivals] at hrest
  exact ⟨rfl, rfl, harrivals, ⟨unused, hrest⟩, by decide +kernel⟩

end DacRack
