import DacRack.Proofs.Lines
import DacRack.Proofs.Transactions

/-!
# How far a step reaches

A step asks the instrument, reads the clock, makes notes, and now and then changes what
the host remembers. `Confined changes refuses step` says that it is put together from
these: what it does to the host's memory is among `changes`, the parameters it refuses
are among `refuses`, and it looks at nothing of the journal.

That a step is confined is one walk along its parts, and three things follow from it.
What the host remembers afterwards is what it did before, but for those changes, and only
those parameters were refused (`Confined.ends`). And a step cannot tell two connections
apart that differ in their notes alone: it does the same on both (`Confined.alike`).
-/

namespace DacRack

variable {σ φ κ α β : Type}

/-- The host's memory with another idea of what a channel does. -/
def HostState.setMotion (host : HostState) (channel : Channel) (motion : Motion) : HostState :=
  host.updateChannel channel fun state => { state with motion }

/-- The two are the same but for what was noted between the transactions. -/
structure Session.Alike (s t : Session σ φ κ) : Prop where
  link : s.link = t.link
  clock : s.clock = t.clock
  config : s.config = t.config
  capacity : s.capacity = t.capacity
  host : s.host = t.host
  exchanges : s.journal.exchanges = t.journal.exchanges

namespace Session.Alike

theorem refl (s : Session σ φ κ) : s.Alike s := ⟨rfl, rfl, rfl, rfl, rfl, rfl⟩

theorem cons {s t : Session σ φ κ} (h : s.Alike t) (entry : Note φ) :
    Journal.exchanges (entry :: s.journal) = Journal.exchanges (entry :: t.journal) := by
  have htail := h.exchanges
  unfold Journal.exchanges at htail ⊢
  rw [List.filterMap_cons, List.filterMap_cons, htail]

end Session.Alike

/-- The link says why it failed, or the reply does; neither refuses a parameter. -/
theorem Line.ask_ne_badParameter [Link σ φ] {capacity : Nat} {terminator : UInt8}
    {request : String} {link : σ} {parameter : Parameter} :
    (Line.ask capacity terminator request link).1 ≠ .error (.badParameter parameter) := by
  intro h
  rcases Line.error_of_ask h with ⟨_, ⟨⟩⟩ | ⟨_, ⟨⟩⟩ | ⟨⟨⟩⟩

namespace Step

/-- A step that changes the host's memory by `changes` alone, refuses no parameter but
those that `refuses` holds of, and looks at no note. -/
inductive Confined [Link σ φ] (changes : (HostState → HostState) → Prop)
    (refuses : Parameter → Prop) : ∀ {α : Type}, Step σ φ κ α → Prop
  | ofExcept {α : Type} {result : Except (Error φ) α}
      (h : ∀ parameter, result = .error (.badParameter parameter) → refuses parameter) :
      Confined changes refuses (ofExcept result)
  | look {α : Type} {next : Session σ φ κ → Step σ φ κ α}
      (hview : ∀ s t, s.Alike t → next s = next t)
      (h : ∀ s, Confined changes refuses (next s)) : Confined changes refuses (get >>= next)
  | modifyHost {change : HostState → HostState} (h : changes change) :
      Confined changes refuses (modifyHost change)
  | note {entry : Note φ} (h : ∀ e, entry ≠ .exchange e) :
      Confined changes refuses (note entry)
  | exchange (target : Target) (request : Request) :
      Confined changes refuses (exchange target request)
  | timed {α : Type} {step : Step σ φ κ α} (run : Config → σ → κ → Except (Error φ) α × κ)
      (hrun : ∀ s : Session σ φ κ, s.perform step = ((run s.config s.link s.clock).1,
        { s with clock := (run s.config s.link s.clock).2 }))
      (h : ∀ config link clock parameter,
        (run config link clock).1 ≠ .error (.badParameter parameter)) :
      Confined changes refuses step
  | bind {α β : Type} {step : Step σ φ κ α} {next : α → Step σ φ κ β}
      (h : Confined changes refuses step) (hnext : ∀ a, Confined changes refuses (next a)) :
      Confined changes refuses (step >>= next)
  | attempt {α : Type} {step : Step σ φ κ α} (h : Confined changes refuses step) :
      Confined changes refuses (attempt step)
  | repeatUntil {round : Step σ φ κ Bool} (draws : Draws 1 round)
      (h : Confined changes refuses round) : Confined changes refuses (repeatUntil round draws)

/-- The step does the same to two connections that differ in their notes alone. -/
def Blind (step : Step σ φ κ α) : Prop :=
  ∀ s t : Session σ φ κ, s.Alike t →
    (s.perform step).1 = (t.perform step).1 ∧ (s.perform step).2.Alike (t.perform step).2

/-- The two steps do the same to connections that differ in their notes alone. -/
def Mirrors (step step' : Step σ φ κ α) : Prop :=
  ∀ s t : Session σ φ κ, s.Alike t →
    (s.perform step).1 = (t.perform step').1 ∧ (s.perform step).2.Alike (t.perform step').2

theorem Mirrors.bind {step step' : Step σ φ κ α} {next next' : α → Step σ φ κ β}
    (h : Mirrors step step') (hnext : ∀ a, Mirrors (next a) (next' a)) :
    Mirrors (step >>= next) (step' >>= next') := by
  intro s t hst
  obtain ⟨hresult, halike⟩ := h s t hst
  rw [Session.perform_bind, Session.perform_bind]
  cases hs : s.perform step with
  | mk r s' =>
      cases ht : t.perform step' with
      | mk r' t' =>
          rw [hs, ht] at hresult halike
          obtain rfl : r = r' := hresult
          cases r with
          | error e => exact ⟨rfl, halike⟩
          | ok a => exact hnext a s' t' halike

/-- A blind step does the same as itself. -/
theorem Blind.bind {step : Step σ φ κ α} {next : α → Step σ φ κ β} (h : Blind step)
    (hnext : ∀ a, Blind (next a)) : Blind (step >>= next) :=
  Mirrors.bind h hnext

theorem perform_get_bind (next : Session σ φ κ → Step σ φ κ α) (s : Session σ φ κ) :
    s.perform (get >>= next) = s.perform (next s) := rfl

theorem perform_attempt (step : Step σ φ κ α) (s : Session σ φ κ) :
    s.perform (attempt step) = (.ok (s.perform step).1, (s.perform step).2) := by
  unfold Session.perform attempt
  cases step s <;> rfl

section

variable [Link σ φ]

theorem perform_exchange (target : Target) (request : Request) (s : Session σ φ κ) :
    s.perform (exchange target request) =
      let asked := Line.ask s.capacity s.config.terminator request.wire s.link
      (asked.1, { s with
        link := asked.2, journal := .exchange ⟨target, request, asked.1⟩ :: s.journal }) := by
  unfold Session.perform exchange
  cases Line.ask s.capacity s.config.terminator request.wire s.link with
  | mk outcome link => cases outcome <;> rfl

theorem blind_exchange (target : Target) (request : Request) :
    Blind (exchange target request : Step σ φ κ String) := by
  intro s t hst
  have hask : Line.ask s.capacity s.config.terminator request.wire s.link =
      Line.ask t.capacity t.config.terminator request.wire t.link := by
    rw [hst.capacity, hst.config, hst.link]
  simp only [perform_exchange, hask]
  exact ⟨trivial, rfl, hst.clock, hst.config, hst.capacity, hst.host, hst.cons _⟩

theorem Blind.repeatUntil {round : Step σ φ κ Bool} (h : Blind round)
    (draws : Draws 1 round) : Blind (repeatUntil round draws) := by
  refine perform_repeatUntil_of_rounds (R := fun s outcome => ∀ t : Session σ φ κ, s.Alike t →
    outcome.1 = (t.perform (Step.repeatUntil round draws)).1 ∧
      outcome.2.Alike (t.perform (Step.repeatUntil round draws)).2) ?_ ?_
  · intro s r s' hs hlast t hst
    obtain ⟨hresult, halike⟩ := h s t hst
    rw [hs] at hresult halike
    rw [perform_repeatUntil, ← Prod.eta (t.perform round), ← hresult]
    rcases r with e | (_ | _)
    · exact ⟨rfl, halike⟩
    · exact absurd rfl hlast
    · exact ⟨rfl, halike⟩
  · intro s s' outcome hs hlater t hst
    obtain ⟨hresult, halike⟩ := h s t hst
    rw [hs] at hresult halike
    rw [perform_repeatUntil, ← Prod.eta (t.perform round), ← hresult]
    exact hlater _ halike

variable {changes : (HostState → HostState) → Prop} {refuses : Parameter → Prop}

theorem Confined.alike {step : Step σ φ κ α} (h : Confined changes refuses step) :
    Blind step := by
  induction h with
  | @ofExcept _ result _ =>
      intro s t hst
      cases result with
      | ok a => exact ⟨rfl, hst⟩
      | error e => exact ⟨rfl, hst⟩
  | look hview _ ih =>
      intro s t hst
      rw [perform_get_bind, perform_get_bind, ← hview s t hst]
      exact ih s s t hst
  | @modifyHost change _ =>
      intro s t hst
      exact ⟨rfl, hst.link, hst.clock, hst.config, hst.capacity, congrArg change hst.host,
        hst.exchanges⟩
  | note _ =>
      intro s t hst
      exact ⟨rfl, hst.link, hst.clock, hst.config, hst.capacity, hst.host, hst.cons _⟩
  | exchange target request => exact blind_exchange target request
  | timed run hrun _ =>
      intro s t hst
      have hsame : run s.config s.link s.clock = run t.config t.link t.clock := by
        rw [hst.config, hst.link, hst.clock]
      simp only [hrun, hsame]
      exact ⟨trivial, hst.link, rfl, hst.config, hst.capacity, hst.host, hst.exchanges⟩
  | bind _ _ ih ihnext => exact ih.bind ihnext
  | attempt _ ih =>
      intro s t hst
      obtain ⟨hresult, halike⟩ := ih s t hst
      rw [perform_attempt, perform_attempt, hresult]
      exact ⟨rfl, halike⟩
  | repeatUntil draws _ ih => exact ih.repeatUntil draws

/-- What a confined step leaves behind in the host's memory, and why it may have failed. -/
theorem Confined.ends {R : HostState → HostState → Prop} (hrefl : ∀ host, R host host)
    (htrans : ∀ {a b c}, R a b → R b c → R a c)
    (hchange : ∀ change, changes change → ∀ host, R host (change host))
    {step : Step σ φ κ α} (h : Confined changes refuses step) (s : Session σ φ κ) :
    Ends step s fun _ r s' => R s.host s'.host ∧
      ∀ parameter, r = .error (.badParameter parameter) → refuses parameter := by
  induction h generalizing s with
  | ofExcept h => exact ends_ofExcept ⟨hrefl _, h⟩
  | look _ _ ih =>
      obtain ⟨made, hg, hends⟩ := ih s s
      exact ⟨made, hg, hends⟩
  | modifyHost h => exact ⟨[], ⟨rfl, rfl, rfl⟩, hchange _ h _, nofun⟩
  | note h =>
      obtain ⟨made, hg, -⟩ := silent_note h s
      exact ⟨made, hg, hrefl _, nofun⟩
  | exchange target request =>
      unfold Ends
      rw [perform_exchange]
      refine ⟨[_], ⟨rfl, rfl, rfl⟩, hrefl _, fun _ he => absurd he Line.ask_ne_badParameter⟩
  | timed run hrun h =>
      unfold Ends
      rw [hrun]
      exact ⟨[], ⟨rfl, rfl, rfl⟩, hrefl _, fun parameter he => absurd he (h _ _ _ parameter)⟩
  | bind _ _ ih ihnext =>
      refine (ih s).bind ?_ ?_
      · rintro made e s' - ⟨hR, hrefuses⟩
        exact ⟨hR, fun parameter he => hrefuses parameter (by cases he; rfl)⟩
      · rintro made a s' - ⟨hR, -⟩
        exact (ihnext a s').mono fun made' r s'' _ hends => ⟨htrans hR hends.1, hends.2⟩
  | attempt _ ih =>
      refine (ih s).attempt.mono ?_
      rintro made r s' - ⟨r', rfl, hR, -⟩
      exact ⟨hR, nofun⟩
  | repeatUntil draws _ ih =>
      refine ends_repeatUntil (P := fun s _ (r : Except (Error φ) Bool) s' => R s.host s'.host ∧
        ∀ parameter, r = .error (.badParameter parameter) → refuses parameter)
        (Q := fun s _ (r : Except (Error φ) Unit) s' => R s.host s'.host ∧
        ∀ parameter, r = .error (.badParameter parameter) → refuses parameter) ih ?_ ?_ ?_ s
      · rintro s made e s' ⟨hR, hrefuses⟩
        exact ⟨hR, fun parameter he => hrefuses parameter (by cases he; rfl)⟩
      · exact fun _ _ _ hends => ⟨hends.1, nofun⟩
      · exact fun _ _ _ _ _ _ _ hends hends' => ⟨htrans hends.1 hends'.1, hends'.2⟩

theorem Confined.ends_same {step : Step σ φ κ α}
    (h : Confined (fun _ => False) (fun _ => True) step) (s : Session σ φ κ) :
    Ends step s fun _ _ s' => s'.host = s.host :=
  (h.ends (R := fun host host' => host' = host) (fun _ => rfl) (fun h h' => h'.trans h)
    (fun _ hchange => hchange.elim) s).mono fun _ _ _ _ hends => hends.1

/-! The walk. Most parts change nothing and refuse nothing. -/

theorem confined_pure (a : α) : Confined changes refuses (pure a : Step σ φ κ α) := by
  show Confined changes refuses (ofExcept (.ok a))
  exact .ofExcept nofun

theorem confined_understand (result : Except ReplyError α) :
    Confined changes refuses (understand result : Step σ φ κ α) := by
  refine .ofExcept fun parameter h => ?_
  cases result <;> cases h

theorem confined_inRange (result : Except OutOfRange α) :
    Confined changes refuses (inRange result : Step σ φ κ α) := by
  refine .ofExcept fun parameter h => ?_
  cases result <;> cases h

theorem confined_ensure {e : Error φ} {condition : Bool}
    (h : ∀ parameter, e = .badParameter parameter → condition = false → refuses parameter) :
    Confined changes refuses (ensure e condition : Step σ φ κ Unit) := by
  refine .ofExcept fun parameter he => ?_
  cases condition with
  | true => cases he
  | false =>
      cases he
      exact h parameter rfl rfl

theorem confined_require {e : Error φ} {a? : Option α}
    (h : ∀ parameter, e = .badParameter parameter → a? = none → refuses parameter) :
    Confined changes refuses (require e a? : Step σ φ κ α) := by
  refine .ofExcept fun parameter he => ?_
  cases a? with
  | some a => cases he
  | none =>
      cases he
      exact h parameter rfl rfl

theorem confined_range : Confined changes refuses (range : Step σ φ κ VoltageRange) :=
  .look (fun _ _ h => by rw [h.config]) fun _ => confined_pure _

theorem confined_host : Confined changes refuses (host : Step σ φ κ HostState) :=
  .look (fun _ _ h => by rw [h.host]) fun _ => confined_pure _

theorem confined_channelState (channel : Channel) :
    Confined changes refuses (channelState channel : Step σ φ κ ChannelState) :=
  confined_host.bind fun _ => confined_pure _

theorem confined_fitting (text? : Option String) :
    Confined changes refuses (ofExcept (fitting text?) : Step σ φ κ String) := by
  refine .ofExcept fun parameter h => ?_
  cases text? <;> cases h

theorem confined_transact (target : Target) (commands : List Command) :
    Confined changes refuses (transact target commands : Step σ φ κ String) :=
  .look (fun _ _ h => by rw [h.capacity]) fun _ =>
    (confined_fitting _).bind fun _ => .exchange _ _

theorem confined_selectSlot (slot : UInt8) :
    Confined changes refuses (selectSlot slot : Step σ φ κ Unit) :=
  (confined_transact _ _).bind fun _ => (confined_understand _).bind fun _ =>
    (confined_ensure nofun).bind fun _ => .note nofun

theorem confined_selectChannel (channel : Channel) :
    Confined changes refuses (selectChannel channel : Step σ φ κ Unit) := by
  refine (confined_transact _ _).bind fun reply => ?_
  exact .look (fun _ _ h => by rw [h.capacity]) fun _ =>
    (confined_fitting _).bind fun _ => (confined_ensure nofun).bind fun _ => .note nofun

theorem confined_moveCursor (address : UInt32) :
    Confined changes refuses (moveCursor address : Step σ φ κ Unit) :=
  (confined_transact _ _).bind fun _ => (confined_understand _).bind fun _ =>
    confined_ensure nofun

theorem confined_selectBank (bank : Bank) :
    Confined changes refuses (selectBank bank : Step σ φ κ Unit) := by
  cases bank with
  | main => exact confined_pure ()
  | slotEeprom slot => exact confined_selectSlot slot

theorem confined_command (channel : Channel) (commands : List Command) :
    Confined changes refuses (command channel commands : Step σ φ κ Unit) := by
  refine Confined.bind ?_ fun _ => (confined_understand _).bind fun _ => confined_pure _
  exact (confined_selectChannel channel).bind fun _ => confined_transact _ _

theorem confined_readCursor (bank : Bank) (address : UInt32) :
    Confined changes refuses (readCursor bank address : Step σ φ κ UInt32) :=
  (confined_transact _ _).bind fun _ => confined_understand _

theorem confined_readWords (bank : Bank) (words : Nat) (address : UInt32) (value : UInt64) :
    Confined changes refuses (readWords bank words address value : Step σ φ κ UInt64) := by
  induction words generalizing address value with
  | zero => exact confined_pure value
  | succ words ih =>
      refine Confined.bind ?_ fun word => ih _ _
      exact (confined_moveCursor address).bind fun _ => confined_readCursor bank address

theorem confined_validAddress (address : Int) :
    Confined changes refuses (ofExcept (validAddress address) : Step σ φ κ UInt32) := by
  refine .ofExcept fun parameter h => ?_
  unfold validAddress at h
  split at h <;> cases h

theorem confined_read {address : Int} {words : Nat} (bank : Bank)
    (h : 2 < words → refuses .wordCount) :
    Confined changes refuses (read address words bank : Step σ φ κ UInt64) := by
  unfold read
  split
  · exact confined_pure 0
  · split
    · next hmany =>
        show Confined changes refuses (ofExcept (.error (.badParameter .wordCount)))
        refine .ofExcept fun parameter he => ?_
        cases he
        exact h hmany
    · refine (confined_validAddress address).bind fun start => ?_
      refine (confined_selectBank bank).bind fun _ => ?_
      refine (confined_readWords _ _ _ _).bind fun value => ?_
      exact Confined.bind (.note nofun) fun _ => confined_pure value

theorem confined_write (address value : Int) (bank : Bank) :
    Confined changes refuses (write address value bank : Step σ φ κ Unit) := by
  have hword (target : UInt32) :
      Confined changes refuses (ofExcept (validWord target value) : Step σ φ κ UInt32) := by
    refine .ofExcept fun parameter h => ?_
    unfold validWord at h
    split at h <;> cases h
  refine (confined_validAddress address).bind fun target => (hword target).bind fun word => ?_
  refine (confined_selectBank bank).bind fun _ => (confined_moveCursor target).bind fun _ => ?_
  refine (confined_transact _ _).bind fun _ => (confined_readCursor bank target).bind fun _ => ?_
  exact (confined_ensure nofun).bind fun _ => .note nofun

theorem confined_readSetting (channel : Channel) (setting : Setting) :
    Confined changes refuses (readSetting channel setting : Step σ φ κ UInt64) := by
  refine confined_read _ fun h => absurd h ?_
  cases setting <;> decide

theorem confined_readVolt (channel : Channel) (setting : Setting) :
    Confined changes refuses (readVolt channel setting : Step σ φ κ Float) :=
  (confined_readSetting _ _).bind fun _ => confined_range.bind fun _ => confined_pure _

theorem confined_volt (channel : Channel) :
    Confined changes refuses (volt channel : Step σ φ κ Float) :=
  confined_readVolt _ _

theorem confined_updatePeriod (channel : Channel) :
    Confined changes refuses (updatePeriod channel : Step σ φ κ UInt32) :=
  (confined_readSetting _ _).bind fun _ => confined_pure _

theorem confined_slope (channel : Channel) :
    Confined changes refuses (slope channel : Step σ φ κ Int64) :=
  (confined_readSetting _ _).bind fun _ => confined_pure _

theorem confined_powerOnAddress (channel : Channel) :
    Confined changes refuses (powerOnAddress channel : Step σ φ κ UInt32) :=
  (confined_channelState _).bind fun _ => confined_require nofun

theorem confined_powerOnVolt (channel : Channel) :
    Confined changes refuses (powerOnVolt channel : Step σ φ κ Float) :=
  (confined_powerOnAddress _).bind fun _ => (confined_read _ (by omega)).bind fun _ =>
    confined_range.bind fun _ => confined_pure _

theorem confined_setPowerOnVolt (channel : Channel) (volt : Float) :
    Confined changes refuses (setPowerOnVolt channel volt : Step σ φ κ Unit) :=
  (confined_powerOnAddress _).bind fun _ => confined_range.bind fun _ =>
    (confined_inRange _).bind fun _ => confined_write _ _ _

theorem confined_setLowerLimit (channel : Channel) (volt : Float) :
    Confined changes refuses (setLowerLimit channel volt : Step σ φ κ Unit) :=
  confined_range.bind fun _ => (confined_inRange _).bind fun _ => confined_command _ _

theorem confined_setUpperLimit (channel : Channel) (volt : Float) :
    Confined changes refuses (setUpperLimit channel volt : Step σ φ κ Unit) :=
  confined_range.bind fun _ => (confined_inRange _).bind fun _ => confined_command _ _

theorem confined_setUpdatePeriod (channel : Channel) (period : UInt32)
    (h : refuses .updatePeriod) :
    Confined changes refuses (setUpdatePeriod channel period : Step σ φ κ Unit) := by
  refine (confined_require fun parameter he _ => ?_).bind fun _ => confined_command _ _
  cases he
  exact h

theorem confined_setSlope (channel : Channel) (slope : Int64) (h : refuses .slope) :
    Confined changes refuses (setSlope channel slope : Step σ φ κ Unit) := by
  refine (confined_ensure fun parameter he _ => ?_).bind fun _ => confined_command _ _
  cases he
  exact h

theorem confined_queryMode (slot : Fin slotCount) :
    Confined changes refuses (queryMode slot : Step σ φ κ SlotMode) := by
  refine Confined.bind ?_ fun _ => (confined_understand _).bind fun _ => confined_understand _
  exact (confined_selectSlot _).bind fun _ => confined_transact _ _

theorem confined_askSlot (slot : Fin slotCount) (text : String) :
    Confined changes refuses (askSlot slot text : Step σ φ κ String) :=
  (confined_selectSlot _).bind fun _ => .exchange _ _

theorem confined_askChannel (channel : Channel) (text : String) :
    Confined changes refuses (askChannel channel text : Step σ φ κ String) :=
  (confined_selectChannel _).bind fun _ => .exchange _ _

/-! Probing takes whatever comes of what it tries. -/

theorem confined_probeWord {address : Nat} {bank : Bank} {next : UInt64 → Step σ φ κ α}
    {recover : Error φ → Step σ φ κ α} (hnext : ∀ value, Confined changes refuses (next value))
    (hrecover : ∀ e, Confined changes refuses (recover e)) :
    Confined changes refuses (do
      match ← attempt (read address 1 bank) with
      | .ok value => next value
      | .error e => recover e) := by
  refine Confined.bind (.attempt (confined_read bank (by omega))) fun r => ?_
  cases r with
  | ok value => exact hnext value
  | error e => exact hrecover e

theorem confined_probeEeprom :
    Confined changes refuses (probeEeprom : Step σ φ κ Bool) :=
  confined_probeWord (fun _ => confined_pure _) fun _ =>
    Confined.bind (.note nofun) fun _ => confined_pure _

theorem confined_probeSlotEeprom :
    Confined changes refuses (probeSlotEeprom : Step σ φ κ Unit) :=
  confined_probeWord (fun _ => .note nofun) fun _ => .note nofun

theorem confined_readIdentityWord (probe : Probe) (address : Nat) :
    Confined changes refuses (readIdentityWord probe address : Step σ φ κ UInt64) :=
  confined_probeWord (fun _ => confined_pure _) fun _ =>
    Confined.bind (.note nofun) fun _ => confined_pure _

theorem confined_readIdentity :
    Confined changes refuses (readIdentity : Step σ φ κ Identity) :=
  (confined_readIdentityWord _ _).bind fun _ => (confined_readIdentityWord _ _).bind fun _ =>
    confined_pure _

theorem confined_probeCalibration :
    Confined changes refuses (probeCalibration : Step σ φ κ Bool) := by
  refine Confined.bind (.attempt (confined_transact _ _)) fun r => ?_
  cases r with
  | error e => exact Confined.bind (.note nofun) fun _ => confined_pure _
  | ok reply =>
      simp only []
      split
      · exact confined_pure _
      · exact Confined.bind (.note nofun) fun _ => confined_pure _

theorem confined_identified (eeprom calibration : Bool) :
    Confined changes refuses (do
      let identity ← if eeprom then readIdentity else pure {}
      note (.probed { eeprom, calibration } identity)
      return ({ eeprom, calibration }, identity) : Step σ φ κ (Features × Identity)) := by
  have hrest (identity : Identity) : Confined changes refuses (do
      note (.probed { eeprom, calibration } identity)
      return ({ eeprom, calibration }, identity) : Step σ φ κ (Features × Identity)) :=
    Confined.bind (.note nofun) fun _ => confined_pure _
  cases eeprom with
  | true => exact confined_readIdentity.bind hrest
  | false => exact (confined_pure _).bind hrest

theorem confined_probe :
    Confined changes refuses (probe : Step σ φ κ (Features × Identity)) :=
  confined_probeEeprom.bind fun _ => confined_probeSlotEeprom.bind fun _ =>
    confined_probeCalibration.bind fun _ => confined_identified _ _

theorem Confined.forM {step : β → Step σ φ κ PUnit} (items : List β)
    (h : ∀ item, Confined changes refuses (step item)) :
    Confined changes refuses (items.forM step) := by
  induction items with
  | nil => exact confined_pure _
  | cons item items ih => exact (h item).bind fun _ => ih

/-! Waiting. -/

section

variable [Clock κ]

theorem confined_startWait : Confined changes refuses (startWait : Step σ φ κ Wait) :=
  .timed (fun config _ clock => (.ok (Wait.start config.patience clock).1,
    (Wait.start config.patience clock).2)) (fun _ => rfl) fun _ _ _ _ => nofun

theorem confined_tick (wait : Wait) :
    Confined changes refuses (tick wait : Step σ φ κ Unit) := by
  refine .timed (fun _ link clock =>
    ((wait.tick (Link.stopRequested link) clock).1.elim (.ok ()) fun i => .error i.error,
      (wait.tick (Link.stopRequested link) clock).2)) (fun s => ?_) fun _ link clock parameter => ?_
  · unfold Session.perform tick
    cases wait.tick (Link.stopRequested s.link) s.clock with
    | mk interruption? clock => cases interruption? <;> rfl
  · cases (wait.tick (Link.stopRequested link) clock).1 with
    | none => nofun
    | some interruption => cases interruption <;> nofun

theorem confined_awaitRest (channel : Channel) (wait : Wait) :
    Confined changes refuses (awaitRest channel wait : Step σ φ κ Unit) := by
  refine .repeatUntil _ ((confined_slope channel).bind fun slope => ?_)
  split
  · exact confined_pure _
  · exact (confined_tick wait).bind fun _ => confined_pure _

end

/-! What goes on with a channel changes what is known of its motion, and a ramp may be
refused for its rate or for how steep it is. -/

section

variable {channel : Channel}
  (hmotion : ∀ motion, changes fun host => host.setMotion channel motion)

include hmotion

theorem confined_setMotion (motion : Motion) :
    Confined changes refuses (setMotion channel motion : Step σ φ κ Unit) :=
  .modifyHost (hmotion motion)

theorem confined_startRamp (current target rate : Float) (hsteep : refuses .rampSteepness) :
    Confined changes refuses (startRamp channel current target rate : Step σ φ κ Unit) := by
  refine (confined_updatePeriod channel).bind fun period => ?_
  refine confined_range.bind fun range => (confined_inRange _).bind fun plan => ?_
  refine (confined_ensure fun parameter he _ => ?_).bind fun _ => ?_
  · cases he
    exact hsteep
  · refine (confined_command _ _).bind fun _ => (confined_command _ _).bind fun _ => ?_
    exact (confined_setMotion hmotion _).bind fun _ => .note nofun

variable [Clock κ]

theorem confined_settle : Confined changes refuses (settle channel : Step σ φ κ Unit) :=
  confined_startWait.bind fun wait => (confined_awaitRest channel wait).bind fun _ =>
    confined_setMotion hmotion .idle

theorem confined_ramp (target : Float) {rate : Float} (wait : Bool)
    (hrate : rateAllowed rate = false → refuses .rampRate) (hsteep : refuses .rampSteepness) :
    Confined changes refuses (ramp channel target rate wait : Step σ φ κ Unit) := by
  refine (confined_ensure fun parameter he hfalse => ?_).bind fun _ => ?_
  · cases he
    exact hrate hfalse
  refine confined_range.bind fun range => (confined_inRange _).bind fun _ => ?_
  refine (confined_volt channel).bind fun current => ?_
  split
  · exact confined_pure _
  · refine (confined_startRamp hmotion current target rate hsteep).bind fun _ => ?_
    split
    · exact confined_settle hmotion
    · exact confined_pure _

end

end

end Step

end DacRack
