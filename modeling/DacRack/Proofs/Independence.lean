import DacRack.Proofs.LockStep
import DacRack.Proofs.Probes

/-!
# Probes that do not disturb each other

Each try of a probing makes one to three transactions and may stop after any of them, so the tries
after it ask at different points of what is answered. It makes no difference to them. What a step
comes to is decided by how its transactions come out (`Step.Decided`), which is a statement about
two runs and carries over from the parts of a step to the whole. And as long as every request is
answered by one line, the transactions come out as the answers say, however many there were
before (`Session.AnsweredBy`, `Session.AnsweredBy.hears`).

So of two instruments that give the same answer to the question for calibration the same is found
out about it, whatever else they answer, and likewise for the EEPROM and the identity
(`probe_independent`).
-/

namespace DacRack

variable {σ φ κ α β : Type}

/-! ## Two runs of a step -/

/-- The transactions of two runs come out alike where the same was sent. -/
def Agree (made made' : List (Exchange φ)) : Prop :=
  ∀ e ∈ made, ∀ e' ∈ made', e.target = e'.target → e.request = e'.request →
    e.outcome = e'.outcome

theorem Agree.right {later earlier later' earlier' : List (Exchange φ)}
    (h : Agree (later ++ earlier) (later' ++ earlier')) : Agree earlier earlier' :=
  fun e he e' he' => h e (List.mem_append_right _ he) e' (List.mem_append_right _ he')

theorem Agree.left {later earlier later' earlier' : List (Exchange φ)}
    (h : Agree (later ++ earlier) (later' ++ earlier')) : Agree later later' :=
  fun e he e' he' => h e (List.mem_append_left _ he) e' (List.mem_append_left _ he')

namespace Step

/-- Where there is the same room, what the step comes to is decided by how its transactions come
out. -/
def Decided (step : Step σ φ κ α) : Prop :=
  ∀ s t : Session σ φ κ, s.capacity = t.capacity → ∃ made made',
    s.Grown (s.perform step).2 made ∧ t.Grown (t.perform step).2 made' ∧
      (Agree made made' → (s.perform step).1 = (t.perform step).1)

theorem Decided.grown {step : Step σ φ κ α} (h : Decided step) (s : Session σ φ κ) :
    ∃ made, s.Grown (s.perform step).2 made := by
  obtain ⟨made, _, hg, -⟩ := h s s rfl
  exact ⟨made, hg⟩

theorem Decided.capacity {step : Step σ φ κ α} (h : Decided step) (s : Session σ φ κ) :
    (s.perform step).2.capacity = s.capacity := by
  obtain ⟨_, hg⟩ := h.grown s
  exact hg.capacity

/-- What comes of a bind, and what was made in it. -/
theorem Decided.grown_bind {step : Step σ φ κ α} {next : α → Step σ φ κ β}
    (hnext : ∀ a, Decided (next a)) {s : Session σ φ κ} {made : List (Exchange φ)}
    (hg : s.Grown (s.perform step).2 made) :
    ∃ later, s.Grown (s.perform (step >>= next)).2 (later ++ made) := by
  rw [Session.perform_bind]
  cases hs : s.perform step with
  | mk r s' =>
      rw [hs] at hg
      cases r with
      | error e => exact ⟨[], hg⟩
      | ok a =>
          obtain ⟨later, hg'⟩ := (hnext a).grown s'
          exact ⟨later, hg.trans hg'⟩

theorem Decided.bind {step : Step σ φ κ α} {next : α → Step σ φ κ β} (h : Decided step)
    (hnext : ∀ a, Decided (next a)) : Decided (step >>= next) := by
  intro s t hcapacity
  obtain ⟨made, made', hg, hg', hsame⟩ := h s t hcapacity
  by_cases hresult : (s.perform step).1 = (t.perform step).1
  · rw [Session.perform_bind, Session.perform_bind]
    cases hs : s.perform step with
    | mk r s' =>
        cases ht : t.perform step with
        | mk r' t' =>
            rw [hs] at hg hresult
            rw [ht] at hg' hresult
            obtain rfl : r = r' := hresult
            cases r with
            | error e => exact ⟨made, made', hg, hg', fun _ => rfl⟩
            | ok a =>
                have hcapacity' := (hg.capacity.trans hcapacity).trans hg'.capacity.symm
                obtain ⟨later, later', hl, hl', hrest⟩ := hnext a s' t' hcapacity'
                exact ⟨later ++ made, later' ++ made', hg.trans hl, hg'.trans hl',
                  fun hagree => hrest hagree.left⟩
  -- The runs part here, and so they did not agree up to here.
  · obtain ⟨later, hl⟩ := Decided.grown_bind hnext hg
    obtain ⟨later', hl'⟩ := Decided.grown_bind hnext hg'
    exact ⟨later ++ made, later' ++ made', hl, hl',
      fun hagree => absurd (hsame hagree.right) hresult⟩

/-- A step that makes no transaction and looks at nothing comes to the same everywhere. -/
theorem decided_ofExcept (result : Except (Error φ) α) :
    Decided (ofExcept result : Step σ φ κ α) := by
  intro s t _
  cases result <;> exact ⟨[], [], .refl s, .refl t, fun _ => rfl⟩

theorem decided_pure (a : α) : Decided (pure a : Step σ φ κ α) := decided_ofExcept (.ok a)

theorem decided_note {entry : Note φ} (h : ∀ e, entry ≠ .exchange e) :
    Decided (note entry : Step σ φ κ Unit) := by
  intro s t _
  obtain ⟨made, hg, -⟩ := silent_note h s
  obtain ⟨made', hg', -⟩ := silent_note h t
  exact ⟨made, made', hg, hg', fun _ => rfl⟩

variable [Link σ φ]

theorem decided_transact (target : Target) (commands : List Command) :
    Decided (transact target commands : Step σ φ κ String) := by
  have hends (s : Session σ φ κ) : Ends (transact target commands) s fun made r _ =>
      if (commands.flatMap Command.wire).length ≤ s.capacity then
        made = [⟨target, .commands commands, r⟩]
      else r = .error .tooLong := by
    refine ends_transact_ask (fun hlong => ?_) fun outcome s' hfits _ _ => ?_
    · rw [if_neg (Nat.not_le.mpr hlong)]
    · rw [if_pos hfits]
  intro s t hcapacity
  obtain ⟨made, hg, hmade⟩ := hends s
  obtain ⟨made', hg', hmade'⟩ := hends t
  refine ⟨made, made', hg, hg', fun hagree => ?_⟩
  rw [← hcapacity] at hmade'
  split at hmade
  · next hfits =>
      rw [if_pos hfits] at hmade'
      rw [hmade, hmade'] at hagree
      exact hagree _ List.mem_cons_self _ List.mem_cons_self rfl rfl
  · next hlong =>
      rw [if_neg hlong] at hmade'
      rw [hmade, hmade']

theorem decided_selectBank (bank : Bank) : Decided (selectBank bank : Step σ φ κ Unit) := by
  cases bank with
  | main => exact decided_pure ()
  | slotEeprom slot =>
      exact (decided_transact _ _).bind fun _ => (decided_ofExcept _).bind fun _ =>
        (decided_ofExcept _).bind fun _ => decided_note (by simp)

theorem decided_readWords (bank : Bank) (words : Nat) (address : UInt32) (value : UInt64) :
    Decided (readWords bank words address value : Step σ φ κ UInt64) := by
  have hmove (address : UInt32) : Decided (moveCursor address : Step σ φ κ Unit) :=
    (decided_transact _ _).bind fun _ => (decided_ofExcept _).bind fun _ => decided_ofExcept _
  have hread (address : UInt32) : Decided (readCursor bank address : Step σ φ κ UInt32) :=
    (decided_transact _ _).bind fun _ => decided_ofExcept _
  induction words generalizing address value with
  | zero => exact decided_pure value
  | succ words ih => exact ((hmove address).bind fun _ => hread address).bind fun word => ih _ _

theorem decided_read (address : Int) (words : Nat) (bank : Bank) :
    Decided (read address words bank : Step σ φ κ UInt64) := by
  unfold read
  split
  · exact decided_pure 0
  · split
    · exact decided_ofExcept (.error _)
    · refine (decided_ofExcept _).bind fun start => (decided_selectBank bank).bind fun _ => ?_
      refine (decided_readWords bank words start 0).bind fun value => ?_
      exact (decided_note (by simp)).bind fun _ => decided_pure value

end Step

/-! ## What an instrument answers -/

section

variable [Link σ φ]

/-- Every request of the step was answered by the line that these answers give, which fits. -/
def Session.AnsweredBy (s : Session σ φ κ) (step : Step σ φ κ α)
    (answer : Target → Request → List UInt8) : Prop :=
  ∃ made last, s.Grown (s.perform step).2 made ∧
    Answered s.capacity s.config.terminator s.link (made.map Exchange.request)
      (made.map fun e => answer e.target e.request) last

omit [Link σ φ] in
/-- Every transaction of the step came out as these answers say. -/
def Session.Hears (s : Session σ φ κ) (step : Step σ φ κ α)
    (answer : Target → Request → List UInt8) : Prop :=
  ∃ made, s.Grown (s.perform step).2 made ∧
    ∀ e ∈ made, e.outcome = Line.text (answer e.target e.request)

/-- What is answered in lock step is heard as it was answered. -/
theorem Session.AnsweredBy.hears {may : Target → Request → Prop} {step : Step σ φ κ α}
    {s : Session σ φ κ} {answer : Target → Request → List UInt8}
    (h : s.AnsweredBy step answer) (hbuilt : Step.Built may step) : s.Hears step answer := by
  obtain ⟨made, last, hg, hanswered⟩ := h
  obtain ⟨made', hg', hstep⟩ := hbuilt.lockStep s
  obtain rfl := hg.unique hg'
  obtain ⟨-, houtcomes⟩ := hstep _ _ hanswered
  rw [List.map_map] at houtcomes
  exact ⟨made, hg, List.map_inj_left.mp houtcomes⟩

omit [Link σ φ] in
/-- A step comes to the same on two connections where what it may send is answered alike. -/
theorem Step.Decided.same {may : Target → Request → Prop} {step : Step σ φ κ α}
    (h : Decided step) (hsends : Sends may step) {s t : Session σ φ κ}
    {answer answer' : Target → Request → List UInt8} (hcapacity : t.capacity = s.capacity)
    (hs : s.Hears step answer) (ht : t.Hears step answer')
    (hsame : ∀ target request, may target request →
      answer' target request = answer target request) :
    (t.perform step).1 = (s.perform step).1 := by
  obtain ⟨made, hg, hmade⟩ := hs
  obtain ⟨made', hg', hmade'⟩ := ht
  obtain ⟨made₁, made₁', hg₁, hg₁', hresult⟩ := h t s hcapacity
  obtain rfl := hg'.unique hg₁
  obtain rfl := hg.unique hg₁'
  obtain ⟨made₂, hg₂, hsent⟩ := hsends t
  obtain rfl := hg'.unique hg₂
  refine hresult fun e he e' he' htarget hrequest => ?_
  rw [hmade' e he, hmade e' he', hsame _ _ (hsent e he), htarget, hrequest]

/-- What is sent to read the word at an address of main memory. -/
inductive Fetches (address : Nat) : Target → Request → Prop
  | move {a : UInt32} (h : a.toNat = address) :
      Fetches address .instrument (.commands [.moveCursor a])
  | word {a : UInt32} (h : a.toNat = address) :
      Fetches address (.word .main a) (.commands [.readMemory])

theorem Step.sends_fetch (address : Nat) :
    Sends (Fetches address) (read address 1 .main : Step σ φ κ UInt64) := by
  refine (built_readOne fun a ha => ?_).sends
  have hnat : a.toNat = address := by exact_mod_cast ha
  exact ⟨.move hnat, .word hnat⟩

theorem Step.sends_transact (target : Target) (commands : List Command) :
    Sends (fun target' request => target' = target ∧ request = .commands commands)
      (transact target commands : Step σ φ κ String) :=
  (Built.transact ⟨rfl, rfl⟩).sends

theorem Step.built_probe :
    Built (Aimed (fun _ => True) none) (probe : Step σ φ κ (Features × Identity)) :=
  (composed_probe fun _ _ => trivial).built trivial

/-- There is the same room for each of the tries. -/
theorem Session.capacity_probes (s : Session σ φ κ) :
    s.slotEepromProbe.2.capacity = s.capacity ∧ s.calibrationProbe.2.capacity = s.capacity ∧
      s.versionProbe.2.capacity = s.capacity := by
  have hslot : s.slotEepromProbe.2.capacity = s.capacity :=
    ((Step.decided_read _ _ _).capacity _).trans ((Step.decided_read _ _ _).capacity s)
  have hasked : s.calibrationProbe.2.capacity = s.capacity :=
    ((Step.decided_transact _ _).capacity _).trans hslot
  exact ⟨hslot, hasked, ((Step.decided_read _ _ _).capacity _).trans hasked⟩

omit [Link σ φ] in
theorem Session.Grown.of_alike {s s' t : Session σ φ κ} {made : List (Exchange φ)}
    (h : s.Grown s' made) (halike : s'.Alike t) : s.Grown t made :=
  ⟨halike.config.symm.trans h.config, halike.capacity.symm.trans h.capacity,
    halike.exchanges.symm.trans h.exchanges⟩

/-- What a probing hears its parts hear, wherever they begin. -/
theorem Session.Hears.parts {s s' : Session σ φ κ} {features : Features} {identity : Identity}
    {answer : Target → Request → List UInt8} (h : s.Hears Step.probe answer)
    (hprobe : s.perform Step.probe = (.ok (features, identity), s'))
    (hdetected : Detected s features identity s') :
    s.Hears (Step.read eepromIdentityAddress 1 .main) answer ∧
      s.slotEepromProbe.2.Hears (Step.transact .instrument [.askCalibration]) answer ∧
      (features.eeprom = true →
        s.calibrationProbe.2.Hears (Step.read hardwareVersionAddress 1 .main) answer ∧
        s.versionProbe.2.Hears (Step.read serialNumberAddress 1 .main) answer) := by
  obtain ⟨made, hg, hall⟩ := h
  rw [hprobe] at hg
  obtain ⟨first, hfirst⟩ := (Step.decided_read eepromIdentityAddress 1 .main).grown s
  obtain ⟨second, hsecond⟩ :=
    (Step.decided_read slotEepromTestAddress 1 (.slotEeprom 0)).grown s.eepromProbe.2
  obtain ⟨third, hthird⟩ :=
    (Step.decided_transact .instrument [.askCalibration]).grown s.slotEepromProbe.2
  have hthree := (hfirst.trans hsecond).trans hthird
  cases heeprom : features.eeprom with
  | false =>
      obtain rfl := (hg.of_alike (hdetected.unidentified heeprom).1).unique hthree
      simp only [List.forall_mem_append] at hall
      exact ⟨⟨first, hfirst, hall.2.2⟩, ⟨third, hthird, hall.1⟩, nofun⟩
  | true =>
      obtain ⟨fourth, hfourth⟩ :=
        (Step.decided_read hardwareVersionAddress 1 .main).grown s.calibrationProbe.2
      obtain ⟨fifth, hfifth⟩ :=
        (Step.decided_read serialNumberAddress 1 .main).grown s.versionProbe.2
      obtain rfl := (hg.of_alike (hdetected.identified heeprom).1).unique
        ((hthree.trans hfourth).trans hfifth)
      simp only [List.forall_mem_append] at hall
      exact ⟨⟨first, hfirst, hall.2.2.2.2⟩, ⟨third, hthird, hall.2.2.1⟩,
        fun _ => ⟨⟨fourth, hfourth, hall.2.1⟩, ⟨fifth, hfifth, hall.1⟩⟩⟩

end

/-- Whatever the connection, a probing finds something and leaves the host as it was. If the
instrument answers everything, each part of what is found depends on the answers to that part
alone. -/
theorem probe_independent [Link σ φ] (s : Session σ φ κ) :
    ∃ (features : Features) (identity : Identity) (s' : Session σ φ κ),
      s.perform Step.probe = (.ok (features, identity), s') ∧
      s'.host = s.host ∧ Detected s features identity s' ∧
      ∀ (t : Session σ φ κ) (answer answer' : Target → Request → List UInt8),
        t.capacity = s.capacity → s.AnsweredBy Step.probe answer →
        t.AnsweredBy Step.probe answer' →
        ∃ (features' : Features) (identity' : Identity) (t' : Session σ φ κ),
          t.perform Step.probe = (.ok (features', identity'), t') ∧
          (answer' .instrument (.commands [.askCalibration]) =
              answer .instrument (.commands [.askCalibration]) →
            features'.calibration = features.calibration) ∧
          ((∀ target request, Fetches eepromIdentityAddress target request →
              answer' target request = answer target request) →
            features'.eeprom = features.eeprom ∧
            ((∀ target request, Fetches hardwareVersionAddress target request ∨
                Fetches serialNumberAddress target request →
                answer' target request = answer target request) → identity' = identity)) := by
  obtain ⟨features, identity, s', hprobe, hdetected⟩ := Step.perform_probe_detected s
  have hhost : s'.host = s.host := by
    have hleaves := Step.Confined.leavesHost Step.confined_probe s
    rwa [hprobe] at hleaves
  refine ⟨features, identity, s', hprobe, hhost, hdetected, ?_⟩
  intro t answer answer' hcapacity hs ht
  obtain ⟨features', identity', t', hprobe', hdetected'⟩ := Step.perform_probe_detected t
  obtain ⟨heeprom, hcalibration, hidentity⟩ :=
    (hs.hears Step.built_probe).parts hprobe hdetected
  obtain ⟨heeprom', hcalibration', hidentity'⟩ :=
    (ht.hears Step.built_probe).parts hprobe' hdetected'
  obtain ⟨hslot, hasked, hversion⟩ := s.capacity_probes
  obtain ⟨hslot', hasked', hversion'⟩ := t.capacity_probes
  -- Each part goes on from the session before it, and of that only the capacity matters.
  refine ⟨features', identity', t', hprobe', ?_, ?_⟩
  · intro hsame
    have hreply : t.calibrationProbe.1 = s.calibrationProbe.1 :=
      (Step.decided_transact .instrument [.askCalibration]).same (Step.sends_transact _ _)
        (hslot'.trans (hcapacity.trans hslot.symm)) hcalibration hcalibration'
        (by rintro _ _ ⟨rfl, rfl⟩; exact hsame)
    rw [Bool.eq_iff_iff, hdetected'.calibration, hdetected.calibration, hreply]
  · intro hsame
    have hvalue : t.eepromProbe.1 = s.eepromProbe.1 :=
      (Step.decided_read eepromIdentityAddress 1 .main).same (Step.sends_fetch _) hcapacity
        heeprom heeprom' hsame
    have hfound : features'.eeprom = features.eeprom := by
      rw [Bool.eq_iff_iff, hdetected'.eeprom, hdetected.eeprom, hvalue]
    refine ⟨hfound, fun hwords => ?_⟩
    cases hpresent : features.eeprom with
    | false =>
        rw [(hdetected.unidentified hpresent).2,
          (hdetected'.unidentified (hfound.trans hpresent)).2]
    | true =>
        obtain ⟨hversionHeard, hserialHeard⟩ := hidentity hpresent
        obtain ⟨hversionHeard', hserialHeard'⟩ := hidentity' (hfound.trans hpresent)
        have hversionSame : t.versionProbe.1 = s.versionProbe.1 :=
          (Step.decided_read hardwareVersionAddress 1 .main).same (Step.sends_fetch _)
            (hasked'.trans (hcapacity.trans hasked.symm)) hversionHeard hversionHeard'
            fun _ _ h => hwords _ _ (.inl h)
        have hserialSame : t.serialProbe.1 = s.serialProbe.1 :=
          (Step.decided_read serialNumberAddress 1 .main).same (Step.sends_fetch _)
            (hversion'.trans (hcapacity.trans hversion.symm)) hserialHeard hserialHeard'
            fun _ _ h => hwords _ _ (.inr h)
        rw [(hdetected.identified hpresent).2,
          (hdetected'.identified (hfound.trans hpresent)).2, hversionSame, hserialSame]

/-- An instrument that moves its cursor, has this word for an EEPROM and no other, and answers for
its calibration and its slots like this. -/
def replying (word calibration slots : String) : Target → Request → List UInt8
  | .word .main a, _ =>
      Text.bytes (if a.toNat = eepromIdentityAddress then word else "p7!")
  | .instrument, .commands [.moveCursor a] => Text.bytes s!"A{a}!"
  | .instrument, .commands [.askCalibration] => Text.bytes calibration
  | _, _ => Text.bytes slots

/-- A connection with a link that has these lines in store, the latest first. -/
def storing (lines : List String) : Session ScriptedLink FaultKind SteppingClock :=
  { link := { script := ScriptedLink.answering 10 (lines.map Text.bytes) ++ [.nothing] },
    clock := {} }

theorem answeredBy_storing {lines : List String} {answer : Target → Request → List UInt8}
    (hanswer : (((storing lines).perform Step.probe).2.journal.exchanges.map fun e =>
      answer e.target e.request) = lines.map Text.bytes)
    (hlines : ∀ line ∈ lines.map Text.bytes, 10 ∉ line ∧ line.length ≤ 64) :
    (storing lines).AnsweredBy Step.probe answer := by
  obtain ⟨made, hg, -⟩ := Step.built_probe.lockStep (storing lines)
  have hmade : ((storing lines).perform Step.probe).2.journal.exchanges = made :=
    hg.exchanges.trans (List.append_nil made)
  rw [hmade] at hanswer
  have hlength : (lines.map Text.bytes).length = (made.map Exchange.request).length := by
    rw [← hanswer, List.length_map, List.length_map]
  obtain ⟨last, hanswered, -⟩ := ScriptedLink.answered hlength hlines {} rfl [.nothing]
  refine ⟨made, last, hg, ?_⟩
  rw [hanswer]
  exact hanswered

/-- No EEPROM and no slots make no difference to the calibration, and no slots and no calibration
make none to the EEPROM and the identity. -/
theorem probe_independent_replying :
    let both := storing ["p7!", "A1107296264!", "p7!", "A1107296266!", "k1!", "B0!", "A6!", "B0!",
      "p21930!", "A1107296256!"]
    let calibrated := storing ["k1!", "?", "p0!", "A1107296256!"]
    let identified := storing ["p7!", "A1107296264!", "p7!", "A1107296266!", "k!", "?",
      "p21930!", "A1107296256!"]
    both.AnsweredBy Step.probe (replying "p21930!" "k1!" "B0!") ∧
      calibrated.AnsweredBy Step.probe (replying "p0!" "k1!" "?") ∧
      identified.AnsweredBy Step.probe (replying "p21930!" "k!" "?") ∧
      ∃ (features : Features) (identity : Identity) (s' : _),
        both.perform Step.probe = (.ok (features, identity), s') ∧
        (∃ (features' : Features) (identity' : Identity) (t' : _),
          calibrated.perform Step.probe = (.ok (features', identity'), t') ∧
          features'.calibration = features.calibration) ∧
        ∃ (features' : Features) (identity' : Identity) (t' : _),
          identified.perform Step.probe = (.ok (features', identity'), t') ∧
          features'.eeprom = features.eeprom ∧ identity' = identity := by
  intro both calibrated identified
  have hboth : both.AnsweredBy Step.probe (replying "p21930!" "k1!" "B0!") :=
    answeredBy_storing (by decide +kernel) (by decide +kernel)
  have hcalibrated : calibrated.AnsweredBy Step.probe (replying "p0!" "k1!" "?") :=
    answeredBy_storing (by decide +kernel) (by decide +kernel)
  have hidentified : identified.AnsweredBy Step.probe (replying "p21930!" "k!" "?") :=
    answeredBy_storing (by decide +kernel) (by decide +kernel)
  obtain ⟨features, identity, s', hprobe, -, -, hindependent⟩ := probe_independent both
  refine ⟨hboth, hcalibrated, hidentified, features, identity, s', hprobe, ?_, ?_⟩
  · obtain ⟨features', identity', t', hprobe', hcalibration, -⟩ :=
      hindependent calibrated _ _ rfl hboth hcalibrated
    exact ⟨features', identity', t', hprobe', hcalibration rfl⟩
  · obtain ⟨features', identity', t', hprobe', -, hfound⟩ :=
      hindependent identified _ _ rfl hboth hidentified
    obtain ⟨heeprom, hidentity⟩ := hfound fun _ _ h => by cases h <;> rfl
    exact ⟨features', identity', t', hprobe', heeprom,
      hidentity fun _ _ h => by rcases h with h | h <;> cases h <;> rfl⟩

end DacRack
