import DacRack.Proofs.Blame
import DacRack.Proofs.Reachable

/-!
# Connecting is all or nothing

Connecting asks what the instrument can do, and then puts the slots into a mode, one after the
other. Whatever goes wrong with the asking is only noted, and what it comes to is all that the
rest depends on: without calibration the calibrated mode is refused, and nothing more is sent.
Putting slots into a mode is the other way round. It follows a script of two requests for each
slot, its selection and the mode, and is broken off at the first that is not answered as it
should be (`Step.explains_putModes`).

So the two parts fail in different ways, and there is no failure but these
(`connect_all_or_nothing`). What the host remembers of an instrument that it is connected to is
what the first part found and the mode that the second part set, and nothing else.
-/

namespace DacRack

variable {σ φ κ : Type}

namespace SlotMode

/-- The requests that put a slot into a mode. -/
def requests (mode : SlotMode) (slot : Fin slotCount) : List Request :=
  [.commands [.selectSlot (UInt8.ofNat slot)], .commands [.setSlotMode mode.number]]

/-- The requests that put all slots into a mode, one slot after the other. -/
def script (mode : SlotMode) : List Request :=
  (List.finRange slotCount).flatMap mode.requests

/-- How these are spelled. -/
def texts (mode : SlotMode) : List String :=
  let m := mode.number.toNat
  [0, 1, 2, 3, 4].flatMap fun s : Nat => [s!"B{s};", s!"M{m};"]

theorem wire_script (mode : SlotMode) : mode.script.map Request.wire = mode.texts := by
  cases mode <;> decide +kernel

theorem needsCalibration_iff {mode : SlotMode} :
    mode.needsCalibration = true ↔ mode = .fineCald := by
  cases mode <;> decide

end SlotMode

namespace Exchange

/-- A transaction was answered as it should be when slots are put into a mode: a slot is
selected, or the mode was accepted. -/
inductive Readies (mode : SlotMode) (e : Exchange φ) : Prop
  | selected {slot : UInt8} (h : e.ConfirmsSlot slot)
  | accepted (hrequest : e.request = .commands [.setSlotMode mode.number])
      (h : Accepted e.outcome)

/-- What is wrong with a transaction when slots are put into a mode. -/
inductive Refuses (mode : SlotMode) (e : Exchange φ) (error : Error φ) : Prop
  | selected {slot : UInt8} (hrequest : e.request = .commands [.selectSlot slot])
      (h : Mistaken Reply.number slot.toNat (.slotNotSelected slot) e.outcome error)
  | failed (hrequest : e.request = .commands [.setSlotMode mode.number])
      (h : e.outcome = .error error)
  | unread {reply : String} {cause : ReplyError}
      (hrequest : e.request = .commands [.setSlotMode mode.number])
      (houtcome : e.outcome = .ok reply) (h : Reply.payload reply.toList = .error cause)
      (herror : error = .reply cause)

variable {mode : SlotMode} {e : Exchange φ}

theorem readies_selection_iff {slot : UInt8} (hrequest : e.request = .commands [.selectSlot slot]) :
    e.Readies mode ↔ e.ConfirmsSlot slot := by
  constructor
  · rintro (h | ⟨h, -⟩)
    · cases hrequest.symm.trans h.1
      exact h
    · cases hrequest.symm.trans h
  · exact .selected

theorem readies_mode_iff (hrequest : e.request = .commands [.setSlotMode mode.number]) :
    e.Readies mode ↔ Accepted e.outcome := by
  constructor
  · rintro (h | ⟨-, h⟩)
    · cases hrequest.symm.trans h.1
    · exact h
  · exact .accepted hrequest

end Exchange

/-! ## What is remembered of the modes -/

theorem HostState.mode_setModes (mode : SlotMode) (slots : List (Fin slotCount))
    (host : HostState) (slot : Fin slotCount) :
    (slots.foldl (fun host slot => host.setMode slot mode) host).mode slot =
      if slot ∈ slots then mode else host.mode slot := by
  induction slots generalizing host with
  | nil => rfl
  | cons first slots ih =>
      rw [List.foldl_cons, ih]
      by_cases hlater : slot ∈ slots
      · rw [if_pos hlater, if_pos (List.mem_cons_of_mem first hlater)]
      · rw [if_neg hlater]
        by_cases hfirst : slot = first
        · rw [hfirst, mode_setMode_self, if_pos List.mem_cons_self]
        · rw [mode_setMode_of_ne _ _ hfirst, if_neg (by simp [hfirst, hlater])]

theorem HostState.setModes_others (mode : SlotMode) (slots : List (Fin slotCount))
    (host : HostState) :
    let host' := slots.foldl (fun host slot => host.setMode slot mode) host
    host'.features = host.features ∧ host'.identity = host.identity ∧
      host'.channels = host.channels := by
  induction slots generalizing host with
  | nil => exact ⟨rfl, rfl, rfl⟩
  | cons first slots ih => exact ih (host.setMode first mode)

namespace Step

variable [Link σ φ]

/-! ## Putting slots into a mode -/

/-- Setting the mode of a slot, once the instrument is known to have that mode. -/
def putMode (mode : SlotMode) (slot : Fin slotCount) : Step σ φ κ Unit := do
  let reply ← transactSlot slot [.setSlotMode mode.number]
  let _ ← understand (Reply.payload reply.toList)
  modifyHost fun host => host.setMode slot mode
  note (.modeSet slot mode)

theorem perform_setMode {mode : SlotMode} {s : Session σ φ κ} (slot : Fin slotCount)
    (h : mode.needsCalibration = true → s.host.features.calibration = true) :
    s.perform (setMode slot mode) = s.perform (putMode mode slot) := by
  have hallowed : (!mode.needsCalibration || s.host.features.calibration) = true := by
    cases hneeds : mode.needsCalibration with
    | false => rfl
    | true => exact h hneeds
  show s.perform (ensure _ (!mode.needsCalibration || s.host.features.calibration) >>=
    fun _ => putMode mode slot) = _
  rw [hallowed]
  rfl

theorem explains_putMode (mode : SlotMode) (slot : Fin slotCount) :
    Explains (Exchange.Readies mode) (Exchange.Refuses mode) (mode.requests slot)
      (putMode mode slot : Step σ φ κ Unit) := by
  have hset : Explains (Exchange.Readies mode) (Exchange.Refuses mode)
      [.commands [.setSlotMode mode.number]]
      (transact (.slot slot) [.setSlotMode mode.number] >>= fun reply =>
        understand (Reply.payload reply.toList) : Step σ φ κ (List Char)) := by
    refine explains_checked (fun e => ⟨iff_of_false nofun fun h => ?_, fun error he => ?_⟩)
      fun reply s => ?_
    · obtain ⟨_, _, ⟨⟩, -⟩ := (Exchange.readies_mode_iff rfl).mp h
    · cases he
      exact .failed rfl rfl
    · cases hpayload : Reply.payload reply.toList with
      | error cause =>
          refine ends_throw ⟨rfl, iff_of_false nofun fun h => ?_, fun error he => ?_⟩
          · obtain ⟨_, _, ⟨⟩, hok⟩ := (Exchange.readies_mode_iff rfl).mp h
            cases hpayload.symm.trans hok
          · cases he
            exact .unread rfl rfl hpayload rfl
      | ok payload =>
          have haccepted : Accepted (.ok reply : Except (Error φ) String) :=
            ⟨reply, payload, rfl, hpayload⟩
          exact ends_pure ⟨rfl, iff_of_true rfl (.accepted rfl haccepted), nofun⟩
  have hdone : Explains (Exchange.Readies mode) (Exchange.Refuses mode) []
      (modifyHost (fun host => host.setMode slot mode) >>= fun _ => note (.modeSet slot mode) :
        Step σ φ κ Unit) :=
    (explains_modifyHost _).bind fun _ => explains_note (by simp)
  have hput : (putMode mode slot : Step σ φ κ Unit) =
      selectSlot (UInt8.ofNat slot) >>= fun _ =>
        (transact (.slot slot) [.setSlotMode mode.number] >>= fun reply =>
          understand (Reply.payload reply.toList)) >>= fun _ =>
            modifyHost (fun host => host.setMode slot mode) >>= fun _ =>
              note (.modeSet slot mode) := by
    simp only [putMode, transactSlot, bind_assoc]
  rw [hput]
  exact (explains_selectSlot (fun e => Exchange.readies_selection_iff)
    fun e error => Exchange.Refuses.selected).bind fun _ => hset.bind fun _ => hdone

theorem explains_putModes (mode : SlotMode) :
    Explains (Exchange.Readies mode) (Exchange.Refuses mode) mode.script
      ((List.finRange slotCount).forM (putMode mode) : Step σ φ κ Unit) :=
  .forM (explains_putMode mode) _

theorem perform_forM_setMode {mode : SlotMode} (slots : List (Fin slotCount))
    {s : Session σ φ κ}
    (h : mode.needsCalibration = true → s.host.features.calibration = true) :
    s.perform (slots.forM fun slot => setMode slot mode) =
      s.perform (slots.forM (putMode mode)) := by
  induction slots generalizing s with
  | nil => rfl
  | cons slot slots ih =>
      have hset := perform_setMode slot h
      obtain ⟨made, -, hhost⟩ := ends_setMode slot mode s
      show s.perform (setMode slot mode >>= fun _ => slots.forM fun slot => setMode slot mode) =
        s.perform (putMode mode slot >>= fun _ => slots.forM (putMode mode))
      rw [Session.perform_bind, Session.perform_bind, ← hset]
      cases hr : s.perform (setMode slot mode) with
      | mk r s' =>
          rw [hr] at hhost
          cases r with
          | error e => rfl
          | ok _ =>
              refine ih ?_
              rw [hhost.2]
              exact h

theorem ends_forM_setMode (mode : SlotMode) (slots : List (Fin slotCount)) (s : Session σ φ κ) :
    Ends (slots.forM fun slot => setMode slot mode) s fun _ r s' => r = .ok () →
      s'.host = slots.foldl (fun host slot => host.setMode slot mode) s.host := by
  induction slots generalizing s with
  | nil => exact ends_pure fun _ => rfl
  | cons slot slots ih =>
      refine (ends_setMode slot mode s).bind (fun _ _ _ _ _ => nofun) fun _ _ s' _ hends => ?_
      refine (ih s').mono fun _ r _ _ hends' hok => ?_
      rw [hends' hok, hends.2]
      rfl

theorem perform_forM_setMode_error {s : Session σ φ κ}
    (h : s.host.features.calibration = false) :
    s.perform ((List.finRange slotCount).forM fun slot => setMode slot .fineCald) =
      (.error (.unsupported .calibratedMode), s) := by
  refine Session.perform_bind_error ?_
  show s.perform (ensure _ (false || s.host.features.calibration) >>= fun _ => putMode _ _) = _
  rw [h]
  rfl

theorem ends_setModes {mode : SlotMode} {s : Session σ φ κ} {last : Step σ φ κ Unit}
    (h : mode.needsCalibration = true → s.host.features.calibration = true)
    (hlast : ∀ s, Ends last s fun made r s' => made = [] ∧ r = .ok () ∧ s'.host = s.host) :
    Ends (((List.finRange slotCount).forM fun slot => setMode slot mode) >>= fun _ => last) s
      fun made r s' => (Followed (Exchange.Readies mode) mode.script made r.isOk ∧
        ∀ error, r = .error error →
          Broke (Exchange.Refuses mode) s.capacity mode.script made error) ∧
        (r = .ok () → s'.host =
          (List.finRange slotCount).foldl (fun host slot => host.setMode slot mode) s.host) := by
  have hmodes : Ends ((List.finRange slotCount).forM fun slot => setMode slot mode) s
      fun made r _ => Followed (Exchange.Readies mode) mode.script made r.isOk ∧
        ∀ error, r = .error error →
          Broke (Exchange.Refuses mode) s.capacity mode.script made error := by
    have hput := explains_putModes mode s
    unfold Ends at hput ⊢
    rwa [perform_forM_setMode _ h]
  refine (hmodes.and (ends_forM_setMode mode _ s)).bind (fun _ e _ _ hends => ?_)
    fun made _ s' _ hends => ?_
  · exact ⟨⟨hends.1.1, fun error he => hends.1.2 error (by cases he; rfl)⟩, nofun⟩
  · refine (hlast s').mono fun made' r s'' _ hlast => ?_
    obtain ⟨rfl, rfl, hhost⟩ := hlast
    exact ⟨⟨hends.1.1, nofun⟩, fun _ => hhost.trans (hends.2 rfl)⟩

theorem perform_connect [Clock κ] {s probed : Session σ φ κ} {features : Features}
    {identity : Identity}
    (hprobe : (s.perform now).2.perform probe = (.ok (features, identity), probed))
    (hslot : features.slotEeprom = false) :
    ∃ last : Step σ φ κ Unit,
      (∀ s, Ends last s fun made r s' => made = [] ∧ r = .ok () ∧ s'.host = s.host) ∧
      s.perform connect =
        { probed with host := { probed.host with features, identity } : Session σ φ κ }.perform
          (((List.finRange slotCount).forM fun slot => setMode slot probed.config.slotMode) >>=
            fun _ => last) := by
  refine ⟨do
    let elapsed := (← now).since? (Clock.now s.clock).1
    note (.connected identity (elapsed.getD 0)), fun s' => ?_, ?_⟩
  · exact ⟨[], ⟨rfl, rfl, rfl⟩, rfl, rfl, rfl⟩
  · have hnow : s.perform now = (.ok (Clock.now s.clock).1, (s.perform now).2) := rfl
    refine (Session.perform_bind_of_ok hnow).trans ?_
    refine (Session.perform_bind_of_ok hprobe).trans ?_
    refine (Session.perform_bind_of_ok rfl).trans ?_
    -- The EEPROMs of the slots are never found, so no channel gets a power-on value.
    simp only [hslot]
    rfl

end Step

/-- What comes of connecting, where asking came to `features` and `identity` and left `probed`
behind, and `made` is what was sent from there on. -/
structure Opened (config : Config) (capacity : Nat) (features : Features) (identity : Identity)
    (probed : Session σ φ κ) (made : List (Exchange φ)) (r : Except (Error φ) Unit)
    (opened : Session σ φ κ) : Prop where
  /-- It succeeds just where the instrument has the mode and every slot accepts it. -/
  ok_iff : r = .ok () ↔ (config.slotMode = .fineCald → features.calibration = true) ∧
    (sent made).map Request.wire = config.slotMode.texts ∧ ∀ e ∈ made, e.Readies config.slotMode
  /-- Nothing else is ever sent, nor anything out of order. -/
  begins : (sent made).map Request.wire <+: config.slotMode.texts
  /-- Nothing is sent after what was not answered as it should be. -/
  stops : ∀ e ∈ made.tail, e.Readies config.slotMode
  uncalibrated : config.slotMode = .fineCald → features.calibration = false →
    r = .error (.unsupported .calibratedMode) ∧ made = [] ∧ opened.link = probed.link
  /-- Otherwise it fails for what was sent to the slots, and never for what was asked. -/
  blamed : (config.slotMode = .fineCald → features.calibration = true) →
    ∀ error, r = .error error →
      Broke (Exchange.Refuses config.slotMode) capacity config.slotMode.script made error
  modes : r = .ok () → ∀ slot, opened.host.mode slot = config.slotMode
  channels : r = .ok () → ∀ channel, opened.host.channelState channel =
    { rampOnSet := false, rampRate := 0.1, motion := .idle, powerOnAddress := none }
  found : r = .ok () → opened.host.features = features ∧ opened.host.identity = identity
  /-- The range of every channel is the one that was configured. -/
  config : opened.config = config

namespace Opened

variable {config : Config} {capacity : Nat} {features : Features} {identity : Identity}
  {probed opened : Session σ φ κ} {made : List (Exchange φ)} {r : Except (Error φ) Unit}

theorem of_uncalibrated (hmode : config.slotMode = .fineCald)
    (hcalibration : features.calibration = false)
    (hr : r = .error (.unsupported .calibratedMode)) (hlink : opened.link = probed.link)
    (hconfig : opened.config = config) :
    Opened config capacity features identity probed [] r opened := by
  have hlacks : ¬ (config.slotMode = .fineCald → features.calibration = true) := by
    intro h
    cases hcalibration.symm.trans (h hmode)
  subst hr
  exact ⟨iff_of_false nofun fun h => hlacks h.1, List.nil_prefix, nofun,
    fun _ _ => ⟨rfl, rfl, hlink⟩, fun h => absurd h hlacks, nofun, nofun, nofun, hconfig⟩

theorem of_followed (hmode : config.slotMode = .fineCald → features.calibration = true)
    (h : Followed (Exchange.Readies config.slotMode) config.slotMode.script made r.isOk)
    (hbroke : ∀ error, r = .error error →
      Broke (Exchange.Refuses config.slotMode) capacity config.slotMode.script made error)
    (hhost : r = .ok () → opened.host = (List.finRange slotCount).foldl
      (fun host slot => host.setMode slot config.slotMode) { features, identity })
    (hconfig : opened.config = config) :
    Opened config capacity features identity probed made r opened := by
  have hall : (sent made).map Request.wire = config.slotMode.texts ↔
      sent made = config.slotMode.script := by
    rw [← SlotMode.wire_script]
    exact h.map_wire_eq_iff
  have hothers := HostState.setModes_others config.slotMode (List.finRange slotCount)
    { features, identity }
  refine ⟨?_, ?_, h.all_but_last, ?_, fun _ => hbroke, ?_, ?_, ?_, hconfig⟩
  · rw [eq_ok_iff, h.ok_iff, hall]
    exact (and_iff_right hmode).symm
  · rw [← SlotMode.wire_script]
    exact h.begins.map _
  · intro hfine hlacks
    cases hlacks.symm.trans (hmode hfine)
  · intro hr slot
    rw [hhost hr, HostState.mode_setModes, if_pos (List.mem_finRange slot)]
  · intro hr channel
    rw [HostState.channelState, hhost hr]
    simp [hothers.2.2]
  · intro hr
    rw [hhost hr]
    exact ⟨hothers.1, hothers.2.1⟩

end Opened

section

variable [Link σ φ] [Clock κ]

/-- Connecting asks, whatever comes of it, and then puts every slot into the configured mode or
breaks off with what stood in the way. -/
theorem connect_all_or_nothing (link : σ) (clock : κ) (config : Config) (capacity : Nat) :
    let start : Session σ φ κ := { link, clock, config, capacity }
    let r := (start.perform Step.connect).1
    let opened := (start.perform Step.connect).2
    ∃ features identity probed probing made,
      (start.perform Step.now).2.perform Step.probe = (.ok (features, identity), probed) ∧
        start.Grown probed probing ∧ probed.Grown opened made ∧
          Opened config capacity features identity probed made r opened := by
  intro start r opened
  obtain ⟨features, identity, probed, hprobe, hslot, -⟩ :=
    Step.perform_probe (start.perform Step.now).2
  obtain ⟨probing, hg, hhost⟩ := Step.confined_probe.ends_same (start.perform Step.now).2
  rw [hprobe] at hg hhost
  have hprobing : start.Grown probed probing := ⟨hg.config, hg.capacity, hg.exchanges⟩
  have hconfig : probed.config = config := hprobing.config
  obtain ⟨last, hlast, hconnect⟩ := Step.perform_connect hprobe hslot
  by_cases hmode : config.slotMode = .fineCald ∧ features.calibration = false
  · have hrefused : start.perform Step.connect = (.error (.unsupported .calibratedMode),
        { probed with host := { probed.host with features, identity } }) := by
      rw [hconnect, hconfig, hmode.1]
      exact Session.perform_bind_error (Step.perform_forM_setMode_error hmode.2)
    refine ⟨features, identity, probed, probing, [], hprobe, hprobing, ?_, ?_⟩
    · show probed.Grown (start.perform Step.connect).2 []
      rw [hrefused]
      exact ⟨rfl, rfl, rfl⟩
    · show Opened _ _ _ _ _ _ (start.perform Step.connect).1 (start.perform Step.connect).2
      rw [hrefused]
      exact .of_uncalibrated hmode.1 hmode.2 rfl rfl hconfig
  · have hhas : config.slotMode = .fineCald → features.calibration = true := by
      intro hfine
      cases hcalibration : features.calibration with
      | false => exact absurd ⟨hfine, hcalibration⟩ hmode
      | true => rfl
    let found : Session σ φ κ := { probed with host := { probed.host with features, identity } }
    have hallowed : probed.config.slotMode.needsCalibration = true →
        found.host.features.calibration = true := by
      rw [hconfig]
      exact fun hneeds => hhas (SlotMode.needsCalibration_iff.mp hneeds)
    obtain ⟨made, hmade, hfollowed, hmodes⟩ := Step.ends_setModes hallowed hlast
    rw [← hconnect] at hmade hfollowed hmodes
    rw [hconfig] at hfollowed hmodes
    refine ⟨features, identity, probed, probing, made, hprobe, hprobing,
      ⟨hmade.config, hmade.capacity, hmade.exchanges⟩, ?_⟩
    refine .of_followed hhas hfollowed.1 ?_ ?_ (hmade.config.trans hconfig)
    · rw [← show found.capacity = capacity from hg.capacity]
      exact hfollowed.2
    · intro hr
      rw [hmodes hr, show found.host = { features, identity } from ?_]
      show ({ probed.host with features, identity } : HostState) = _
      rw [hhost]
      rfl

end

end DacRack
