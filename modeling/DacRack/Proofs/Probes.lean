import DacRack.Proofs.Echoes
import DacRack.Step.Connect

/-!
# What probing finds

Probing tries one thing after the other: the EEPROM, the EEPROM of the first slot, the
calibration, and where there is an EEPROM the two words of the identity. None of these tries
depends on how the ones before it went, but for the identity, which is read only where an EEPROM
was found. And none of them can end the probing, for a failure is an answer too.

What is made of each is told by what the thing itself comes to, if it is carried out where the
one before left off (`Session.eepromProbe` to `Session.serialProbe`). Between them probing makes
notes, and no step looks at those, so a step after a note does what it would have done without
(`Step.Yields`, `Step.Yields.bind`). `Step.perform_probe_detected` puts the five together.
-/

namespace DacRack

variable {σ φ κ α β : Type}

namespace Session.Alike

theorem symm {s t : Session σ φ κ} (h : s.Alike t) : t.Alike s :=
  ⟨h.link.symm, h.clock.symm, h.config.symm, h.capacity.symm, h.host.symm, h.exchanges.symm⟩

theorem trans {s t u : Session σ φ κ} (h : s.Alike t) (h' : t.Alike u) : s.Alike u :=
  ⟨h.link.trans h'.link, h.clock.trans h'.clock, h.config.trans h'.config,
    h.capacity.trans h'.capacity, h.host.trans h'.host, h.exchanges.trans h'.exchanges⟩

end Session.Alike

namespace Step

/-- The step succeeds with this, and leaves the connection like that. -/
def Yields (step : Step σ φ κ α) (s : Session σ φ κ) (a : α) (t : Session σ φ κ) : Prop :=
  ∃ s', s.perform step = (.ok a, s') ∧ s'.Alike t

theorem yields_pure (a : α) (s : Session σ φ κ) : Yields (pure a) s a s := ⟨s, rfl, .refl s⟩

theorem yields_note {entry : Note φ} (h : ∀ e, entry ≠ .exchange e) (s : Session σ φ κ) :
    Yields (note entry) s () s := by
  refine ⟨_, rfl, rfl, rfl, rfl, rfl, rfl, ?_⟩
  cases entry with
  | exchange e => exact absurd rfl (h e)
  | _ => rfl

/-- A step that does not look at notes goes on as from what the one before was like. -/
theorem Yields.bind {step : Step σ φ κ α} {next : α → Step σ φ κ β} {s t u : Session σ φ κ}
    {a : α} {b : β} (h : Yields step s a t) (hblind : Blind (next a))
    (hnext : Yields (next a) t b u) : Yields (step >>= next) s b u := by
  obtain ⟨s', hstep, halike⟩ := h
  obtain ⟨t', hperform, halike'⟩ := hnext
  obtain ⟨hsame, hleft⟩ := hblind s' t halike
  rw [hperform] at hsame hleft
  exact ⟨(s'.perform (next a)).2, (Session.perform_bind_of_ok hstep).trans (Prod.ext hsame rfl),
    hleft.trans halike'⟩

/-- What is tried is followed by what is made of its outcome, which may be a note. -/
theorem yields_attempt {step : Step σ φ κ α} {next : Except (Error φ) α → Step σ φ κ β}
    {s : Session σ φ κ} {b : β}
    (h : Yields (next (s.perform step).1) (s.perform step).2 b (s.perform step).2) :
    Yields (attempt step >>= next) s b (s.perform step).2 := by
  obtain ⟨s', hnext, halike⟩ := h
  exact ⟨s', (Session.perform_bind_of_ok (perform_attempt step s)).trans hnext, halike⟩

theorem yields_note_bind {entry : Note φ} (h : ∀ e, entry ≠ .exchange e) {a : α}
    (s : Session σ φ κ) : Yields (note entry >>= fun _ => pure a) s a s := by
  obtain ⟨s', hnote, halike⟩ := yields_note h s
  exact ⟨s', Session.perform_bind_of_ok hnote, halike⟩

end Step

section

variable [Link σ φ]

theorem Step.Confined.blind {step : Step σ φ κ α}
    (h : Confined (fun _ => False) (fun _ => True) step) : Blind step := h.alike

/-! ## The five tries -/

namespace Session

variable (s : Session σ φ κ)

def eepromProbe : Except (Error φ) UInt64 × Session σ φ κ :=
  s.perform (Step.read eepromIdentityAddress 1 .main)

def slotEepromProbe : Except (Error φ) UInt64 × Session σ φ κ :=
  s.eepromProbe.2.perform (Step.read slotEepromTestAddress 1 (.slotEeprom 0))

def calibrationProbe : Except (Error φ) String × Session σ φ κ :=
  s.slotEepromProbe.2.perform (Step.transact .instrument [.askCalibration])

def versionProbe : Except (Error φ) UInt64 × Session σ φ κ :=
  s.calibrationProbe.2.perform (Step.read hardwareVersionAddress 1 .main)

def serialProbe : Except (Error φ) UInt64 × Session σ φ κ :=
  s.versionProbe.2.perform (Step.read serialNumberAddress 1 .main)

end Session

/-- A reply to the question for calibration that says that there is one. -/
def SaysCalibrated (reply : String) : Prop :=
  ∃ front, Text.trim reply.toList = front ++ ['!'] ∧ 2 ≤ front.length

/-- What was found, and where the connection was left, but for notes. -/
structure Detected (s : Session σ φ κ) (features : Features) (identity : Identity)
    (s' : Session σ φ κ) : Prop where
  eeprom : features.eeprom = true ↔ s.eepromProbe.1 = .ok 21930
  slotEeprom : features.slotEeprom = false
  calibration : features.calibration = true ↔
    ∃ reply, s.calibrationProbe.1 = .ok reply ∧ SaysCalibrated reply
  identified : features.eeprom = true → s'.Alike s.serialProbe.2 ∧
    identity = { hardwareVersion := s.versionProbe.1.toOption.getD 0,
                 serialNumber := s.serialProbe.1.toOption.getD 0 }
  unidentified : features.eeprom = false → s'.Alike s.calibrationProbe.2 ∧ identity = {}

namespace Step

theorem yields_probeEeprom (s : Session σ φ κ) :
    ∃ found, Yields probeEeprom s found s.eepromProbe.2 ∧
      (found = true ↔ s.eepromProbe.1 = .ok 21930) := by
  unfold Session.eepromProbe
  cases hread : (s.perform (read eepromIdentityAddress 1 .main)).1 with
  | error e =>
      refine ⟨false, yields_attempt ?_, iff_of_false nofun nofun⟩
      rw [hread]
      exact yields_note_bind (by simp) _
  | ok value =>
      refine ⟨value.toNat == eepromMagic, yields_attempt ?_, ?_⟩
      · rw [hread]
        exact yields_pure _ _
      · rw [beq_iff_eq, Except.ok.injEq, ← UInt64.toNat_inj]
        rfl

theorem yields_probeSlotEeprom (s : Session σ φ κ) : Yields probeSlotEeprom s ()
    (s.perform (read slotEepromTestAddress 1 (.slotEeprom 0))).2 := by
  refine yields_attempt ?_
  cases (s.perform (read slotEepromTestAddress 1 (.slotEeprom 0))).1 with
  | error e => exact yields_note (by simp) _
  | ok value => exact yields_note (by simp) _

theorem saysCalibrated_iff {reply : String} :
    SaysCalibrated reply ↔ ∃ payload, Reply.payload reply.toList = .ok payload ∧
      payload.isEmpty = false := by
  constructor
  · rintro ⟨front, hreply, hlong⟩
    refine ⟨front.drop 1, Reply.payload_ok_iff.mpr ⟨front, hreply, rfl⟩, ?_⟩
    rw [List.isEmpty_eq_false_iff, ne_eq, List.drop_eq_nil_iff]
    omega
  · rintro ⟨payload, hpayload, hsome⟩
    obtain ⟨front, hreply, rfl⟩ := Reply.payload_ok_iff.mp hpayload
    refine ⟨front, hreply, ?_⟩
    rw [List.isEmpty_eq_false_iff, ne_eq, List.drop_eq_nil_iff] at hsome
    omega

theorem yields_probeCalibration (s : Session σ φ κ) :
    let asked := s.perform (transact .instrument [.askCalibration])
    ∃ found, Yields probeCalibration s found asked.2 ∧
      (found = true ↔ ∃ reply, asked.1 = .ok reply ∧ SaysCalibrated reply) := by
  intro asked
  cases hasked : asked.1 with
  | error e =>
      refine ⟨false, yields_attempt ?_, iff_of_false nofun fun ⟨_, h, _⟩ => nomatch h⟩
      rw [show (s.perform _).1 = .error e from hasked]
      exact yields_note_bind (by simp) _
  | ok reply =>
      have hone : (∃ reply', Except.ok (ε := Error φ) reply = .ok reply' ∧ SaysCalibrated reply') ↔
          SaysCalibrated reply := by
        constructor
        · rintro ⟨_, ⟨⟩, hsays⟩
          exact hsays
        · exact fun hsays => ⟨reply, rfl, hsays⟩
      rw [hone, saysCalibrated_iff]
      cases hpayload : Reply.payload reply.toList with
      | error cause =>
          refine ⟨false, yields_attempt ?_, iff_of_false nofun fun ⟨_, h, _⟩ => nomatch h⟩
          rw [show (s.perform _).1 = .ok reply from hasked]
          simp only [hpayload]
          exact yields_note_bind (by simp) _
      | ok payload =>
          refine ⟨!payload.isEmpty, yields_attempt ?_, ?_⟩
          · rw [show (s.perform _).1 = .ok reply from hasked]
            simp only [hpayload]
            exact yields_pure _ _
          · rw [Bool.not_eq_true']
            constructor
            · exact fun hsome => ⟨payload, rfl, hsome⟩
            · rintro ⟨_, ⟨⟩, hsome⟩
              exact hsome

theorem yields_readIdentityWord (probe : Probe) (address : Nat) (s : Session σ φ κ) :
    Yields (readIdentityWord probe address) s
      ((s.perform (read address 1 .main)).1.toOption.getD 0)
      (s.perform (read address 1 .main)).2 := by
  refine yields_attempt ?_
  cases (s.perform (read address 1 .main)).1 with
  | error e => exact yields_note_bind (by simp) _
  | ok value => exact yields_pure _ _

theorem yields_readIdentity (s : Session σ φ κ) :
    let version := s.perform (read hardwareVersionAddress 1 .main)
    let serial := version.2.perform (read serialNumberAddress 1 .main)
    Yields readIdentity s ⟨serial.1.toOption.getD 0, version.1.toOption.getD 0⟩ serial.2 := by
  refine (yields_readIdentityWord _ _ s).bind ?_ ((yields_readIdentityWord _ _ _).bind ?_
    (yields_pure _ _))
  · exact ((confined_readIdentityWord _ _).bind fun _ => confined_pure _).blind
  · exact (confined_pure _).blind

/-- What is left of the probing once it is known whether there is an EEPROM and a calibration. -/
theorem yields_identified (eeprom calibration : Bool) (s : Session σ φ κ) :
    let version := s.perform (read hardwareVersionAddress 1 .main)
    let serial := version.2.perform (read serialNumberAddress 1 .main)
    let features : Features := { eeprom, calibration }
    let identity : Identity := if eeprom then
      ⟨serial.1.toOption.getD 0, version.1.toOption.getD 0⟩ else {}
    Yields (do
      let identity ← if eeprom then readIdentity else pure {}
      note (.probed features identity)
      return (features, identity) : Step σ φ κ (Features × Identity)) s (features, identity)
      (if eeprom then serial.2 else s) := by
  intro version serial features identity
  have hblind : Blind (do
      note (.probed features identity)
      return (features, identity) : Step σ φ κ (Features × Identity)) :=
    (Confined.bind (.note (by simp)) fun _ => confined_pure _).blind
  have hnoted (t : Session σ φ κ) : Yields (do
      note (.probed features identity)
      return (features, identity) : Step σ φ κ (Features × Identity)) t (features, identity) t :=
    yields_note_bind (by simp) t
  cases eeprom with
  | true => exact (yields_readIdentity s).bind hblind (hnoted _)
  | false => exact (yields_pure ({} : Identity) s).bind hblind (hnoted s)

/-- Probing always comes to something, and each part of it to what that part comes to by itself. -/
theorem perform_probe_detected (s : Session σ φ κ) : ∃ features identity s',
    s.perform probe = (.ok (features, identity), s') ∧ Detected s features identity s' := by
  obtain ⟨eeprom, heeprom, heepromIff⟩ := yields_probeEeprom s
  obtain ⟨calibration, hcalibration, hcalibrationIff⟩ :=
    yields_probeCalibration s.slotEepromProbe.2
  have hprobed : Yields probe s ({ eeprom, calibration }, if eeprom then
      ⟨s.serialProbe.1.toOption.getD 0, s.versionProbe.1.toOption.getD 0⟩ else {})
      (if eeprom then s.serialProbe.2 else s.calibrationProbe.2) := by
    refine heeprom.bind ?_ ((yields_probeSlotEeprom _).bind ?_
      (hcalibration.bind ?_ (yields_identified eeprom calibration _)))
    · exact (confined_probeSlotEeprom.bind fun _ => confined_probeCalibration.bind
        (confined_identified eeprom)).blind
    · exact (confined_probeCalibration.bind (confined_identified eeprom)).blind
    · exact (confined_identified eeprom calibration).blind
  obtain ⟨s', hprobe, halike⟩ := hprobed
  refine ⟨_, _, s', hprobe, heepromIff, rfl, hcalibrationIff, ?_, ?_⟩
  · rintro rfl
    exact ⟨halike, rfl⟩
  · rintro rfl
    exact ⟨halike, rfl⟩

/-- So there is never an identity without an EEPROM. -/
theorem perform_probe (s : Session σ φ κ) : ∃ features identity s',
    s.perform probe = (.ok (features, identity), s') ∧ features.slotEeprom = false ∧
      (features.eeprom = false → identity = {}) := by
  obtain ⟨features, identity, s', hprobe, hdetected⟩ := perform_probe_detected s
  exact ⟨features, identity, s', hprobe, hdetected.slotEeprom,
    fun hnone => (hdetected.unidentified hnone).2⟩

end Step

end

end DacRack
