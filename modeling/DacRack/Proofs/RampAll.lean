import DacRack.Proofs.Addressing
import DacRack.Proofs.Effects

/-!
# Ramping all channels

Ramping all channels arms one after the other and then waits for one after the other. Up to
the deadline, which is one for all of them, this is what the calls on the single channels
come to: arming each without waiting for it, and then waiting for each. The two differ in
a note that says that the waiting begins, and a step looks at no note, so where there is no
deadline nothing else can differ (`rampAll_in_turn`).

A row of steps breaks off at the first that fails (`FailsAt`), and what was sent until then
is what those up to it sent. Arming a channel sends nothing but what is listed in `Arms`.
The blocks of two channels have no word in common, so that none of this is about another
channel, and the slope is not among the words that are read.
-/

namespace DacRack

variable {σ φ κ α β : Type}

/-! ## What is sent about a channel -/

namespace Exchange

/-- Accesses a word from `first` on up to before `last`, or moves the cursor there. -/
def Reaches (first last : Nat) (e : Exchange φ) : Prop :=
  ∃ address : UInt32, first ≤ address.toNat ∧ address.toNat < last ∧
    (e.target = .word .main address ∨ e.request.Carries (.moveCursor address))

/-- Looks at the slope of a channel. -/
def Polls (channel : Channel) (e : Exchange φ) : Prop :=
  e.Reaches (Setting.slope.address channel) (Setting.slope.address channel + Setting.slope.words)

/-- Has to do with a channel: acts on it, or selects it or a word of its block. -/
def Concerns (channel : Channel) (e : Exchange φ) : Prop :=
  e.target = .channel channel ∨
    e.request = .commands [.selectSlot (UInt8.ofNat channel.slot),
      .selectChannel (UInt8.ofNat channel.place)] ∨
    e.Reaches channel.base (channel.base + blockSize)

end Exchange

/-- What is sent to arm a channel. -/
inductive Arms (channel : Channel) : Target → Request → Prop
  | select : Arms channel .instrument (.commands [.selectSlot (UInt8.ofNat channel.slot),
      .selectChannel (UInt8.ofNat channel.place)])
  | cursor {setting : Setting} {address : UInt32} (hwords : setting.words = 1)
      (haddress : address.toNat = setting.address channel) :
      Arms channel .instrument (.commands [.moveCursor address])
  | word {setting : Setting} {address : UInt32} (hwords : setting.words = 1)
      (haddress : address.toNat = setting.address channel) :
      Arms channel (.word .main address) (.commands [.readMemory])
  | plain {commands : List Command} (h : Plain (.channel channel) commands) :
      Arms channel (.channel channel) (.commands commands)

/-! A slope is two words long, and nothing that is read to arm a channel is. The blocks of the
channels lie next to each other, so no word belongs to two of them. -/

theorem Channel.base_add_inj {channel other : Channel} {offset offset' : Nat}
    (h : offset < blockSize) (h' : offset' < blockSize)
    (heq : channel.base + offset = other.base + offset') :
    channel = other ∧ offset = offset' := by
  obtain ⟨⟨s, hs⟩, ⟨p, hp⟩⟩ := channel
  obtain ⟨⟨t, ht⟩, ⟨q, hq⟩⟩ := other
  simp only [base, blockBase, blockSize, slotCount, channelsPerSlot] at hs hp ht hq h h' heq
  simp only [Channel.mk.injEq, Fin.mk.injEq]
  omega

theorem Channel.eq_of_selects {channel other : Channel}
    (h : [Command.selectSlot (UInt8.ofNat other.slot), .selectChannel (UInt8.ofNat other.place)] =
      [.selectSlot (UInt8.ofNat channel.slot), .selectChannel (UInt8.ofNat channel.place)]) :
    other = channel := by
  have hplace (place : Fin channelsPerSlot) : (UInt8.ofNat place).toNat = place :=
    UInt8.toNat_ofNat_of_lt' (Nat.lt_trans place.isLt (by decide))
  simp only [List.cons.injEq, Command.selectSlot.injEq, Command.selectChannel.injEq,
    and_true] at h
  obtain ⟨hslot, hplaces⟩ := h
  have hslots := congrArg UInt8.toNat hslot
  have hplaces := congrArg UInt8.toNat hplaces
  rw [toNat_ofNat_slot, toNat_ofNat_slot] at hslots
  rw [hplace, hplace] at hplaces
  obtain ⟨s, p⟩ := channel
  obtain ⟨t, q⟩ := other
  rw [Channel.mk.injEq]
  exact ⟨Fin.ext hslots, Fin.ext hplaces⟩

namespace Setting

variable {setting : Setting} {channel other : Channel} {address : UInt32}

/-- A setting of one word is none of the words of a slope, of whatever channel. -/
theorem not_slope_of_words (hwords : setting.words = 1)
    (haddress : address.toNat = setting.address channel)
    (hlo : slope.address other ≤ address.toNat)
    (hhi : address.toNat < slope.address other + slope.words) : False := by
  obtain ⟨offset, heq⟩ := Nat.exists_eq_add_of_le hlo
  have hend := setting.offset_add_words_le
  have hslope := slope.offset_add_words_le
  have hsame : setting.address channel = slope.address other + offset := haddress.symm.trans heq
  unfold Setting.address at hsame
  rw [Nat.add_assoc] at hsame
  obtain ⟨-, hoffset⟩ := Channel.base_add_inj (by omega) (by omega) hsame
  cases setting <;> simp only [Setting.words, Setting.offset] at hwords hoffset hhi heq <;> omega

theorem eq_of_block (haddress : address.toNat = setting.address channel)
    (hlo : other.base ≤ address.toNat) (hhi : address.toNat < other.base + blockSize) :
    other = channel := by
  obtain ⟨offset, heq⟩ := Nat.exists_eq_add_of_le hlo
  have hend := setting.offset_add_words_le
  have hwords : 0 < setting.words := by cases setting <;> decide
  have hsame : other.base + offset = channel.base + setting.offset := heq.symm.trans haddress
  exact (Channel.base_add_inj (by omega) (by omega) hsame).1

end Setting

namespace Arms

variable {channel other : Channel} {target : Target} {request : Request}
  {outcome : Except (Error φ) String}

theorem of_reaches {first last : Nat} (h : Arms channel target request)
    (hreaches : Exchange.Reaches first last ⟨target, request, outcome⟩) :
    ∃ (setting : Setting) (address : UInt32), setting.words = 1 ∧
      address.toNat = setting.address channel ∧ first ≤ address.toNat ∧ address.toNat < last := by
  obtain ⟨address, hlo, hhi, htarget | ⟨commands, hcommands, hmem⟩⟩ := hreaches
  · cases h with
    | word hwords haddress =>
        cases htarget
        exact ⟨_, _, hwords, haddress, hlo, hhi⟩
    | _ => cases htarget
  · cases h with
    | select =>
        cases hcommands
        simp at hmem
    | cursor hwords haddress =>
        cases hcommands
        cases List.mem_singleton.mp hmem
        exact ⟨_, _, hwords, haddress, hlo, hhi⟩
    | word =>
        cases hcommands
        simp at hmem
    | plain hplain =>
        cases hcommands
        have hselects : Selects (fun _ => False) _ := hplain.selects nofun
        obtain ⟨_, h⟩ := hselects.word address hmem
        exact h.elim

theorem not_polls (h : Arms channel target request) (other : Channel) :
    ¬ Exchange.Polls other ⟨target, request, outcome⟩ := by
  intro hpolls
  obtain ⟨setting, address, hwords, haddress, hlo, hhi⟩ := h.of_reaches hpolls
  exact Setting.not_slope_of_words hwords haddress hlo hhi

theorem not_concerns (h : Arms channel target request) (hother : other ≠ channel) :
    ¬ Exchange.Concerns other ⟨target, request, outcome⟩ := by
  rintro (htarget | hselect | hreaches)
  · cases h with
    | plain => cases htarget; exact hother rfl
    | _ => cases htarget
  · cases h with
    | select =>
        injection hselect with hcommands
        exact hother (Channel.eq_of_selects hcommands.symm)
    | cursor | word => cases hselect
    | plain hplain =>
        cases hselect
        cases hplain
  · obtain ⟨setting, address, -, haddress, hlo, hhi⟩ := h.of_reaches hreaches
    exact hother (Setting.eq_of_block haddress hlo hhi)

end Arms

/-! ## Rows of steps -/

/-- Going through a row breaks off at an item: the steps before it succeed, and its own
fails and leaves the connection like this. -/
structure Step.FailsAt (step : β → Step σ φ κ Unit) (s : Session σ φ κ) (before : List β)
    (item : β) (e : Error φ) (s' : Session σ φ κ) : Prop where
  before_ok : (s.perform (before.forM step)).1 = .ok ()
  failed : (s.perform (before.forM step)).2.perform (step item) = (.error e, s')

namespace Step

theorem perform_forM_cons (step : β → Step σ φ κ Unit) (first : β) (items : List β)
    (s : Session σ φ κ) :
    s.perform ((first :: items).forM step) = match s.perform (step first) with
      | (.ok _, s') => s'.perform (items.forM step)
      | (.error e, s') => (.error e, s') := by
  show s.perform (step first >>= fun _ => items.forM step) = _
  rw [Session.perform_bind]
  cases s.perform (step first) with
  | mk r s' => cases r <;> rfl

theorem FailsAt.cons {step : β → Step σ φ κ Unit} {s s₁ s' : Session σ φ κ} {first item : β}
    {before : List β} {e : Error φ} (hfirst : s.perform (step first) = (.ok (), s₁))
    (h : FailsAt step s₁ before item e s') : FailsAt step s (first :: before) item e s' := by
  have hcons : s.perform ((first :: before).forM step) = s₁.perform (before.forM step) := by
    rw [perform_forM_cons, hfirst]
  constructor
  · rw [hcons]
    exact h.before_ok
  · rw [hcons]
    exact h.failed

theorem exists_failsAt {step : β → Step σ φ κ Unit} {items : List β} {s s' : Session σ φ κ}
    {e : Error φ} (h : s.perform (items.forM step) = (.error e, s')) :
    ∃ before item after, items = before ++ item :: after ∧ FailsAt step s before item e s' ∧
      s.perform ((before ++ [item]).forM step) = (.error e, s') := by
  induction items generalizing s with
  | nil => cases h
  | cons first items ih =>
      rw [perform_forM_cons] at h
      cases hfirst : s.perform (step first) with
      | mk r s₁ =>
          rw [hfirst] at h
          cases r with
          | error e' =>
              cases h
              refine ⟨[], first, items, rfl, ⟨rfl, hfirst⟩, ?_⟩
              rw [List.nil_append, perform_forM_cons, hfirst]
          | ok _ =>
              obtain ⟨before, item, after, rfl, hfails, hrow⟩ := ih h
              refine ⟨first :: before, item, after, rfl, hfails.cons hfirst, ?_⟩
              rw [List.cons_append, perform_forM_cons, hfirst]
              exact hrow

variable [Link σ φ]

section

variable {channel : Channel}

/-! Arming reads the voltage and the update period, which are single words, and then sends the
limit and the slope. -/

theorem built_readToArm {setting : Setting} (hwords : setting.words = 1) :
    Built (Arms channel) (readSetting channel setting : Step σ φ κ UInt64) := by
  unfold readSetting
  rw [hwords]
  refine built_readOne fun address haddress => ?_
  have hnat : address.toNat = setting.address channel := by exact_mod_cast haddress
  exact ⟨.cursor hwords hnat, .word hwords hnat⟩

theorem built_commandOf {commands : List Command} (h : Plain (.channel channel) commands) :
    Built (Arms channel) (command channel commands : Step σ φ κ Unit) :=
  built_command .select (.plain h)

/-- Arming a channel is about that channel and looks at no slope. -/
theorem built_arm [Clock κ] (channel : Channel) (target rate : Float) :
    Built (Arms channel) (ramp channel target rate false : Step σ φ κ Unit) := by
  refine (silent_ensure _ _).built.bind fun _ => silent_range.built.bind fun range => ?_
  refine (silent_inRange _).built.bind fun _ => ?_
  refine Built.bind ((built_readToArm rfl).bind fun _ => silent_range.built.bind fun _ =>
    (silent_pure _).built) fun current => ?_
  split
  · exact (silent_pure _).built
  · refine Built.bind ?_ fun _ => (silent_pure _).built
    refine Built.bind ((built_readToArm rfl).bind fun _ => (silent_pure _).built) fun period => ?_
    refine silent_range.built.bind fun _ => (silent_inRange _).built.bind fun plan => ?_
    refine Built.ensure_bind fun hfits => ?_
    refine (built_commandOf (plain_limitCommand channel plan)).bind fun _ => ?_
    refine (built_commandOf (.slope channel hfits)).bind fun _ => ?_
    exact (silent_setMotion _ _).built.bind fun _ => (silent_note (by simp)).built

end

section

variable [Clock κ] (wait : Wait)

/-! Waiting for a row of channels: what is known of each is written after its own wait, so it
stays as it is while the later ones are waited for. -/

/-- Once the channels of a row have come to rest they are idle, and of the others what was
known is known still. -/
theorem motion_of_rests {channels : List Channel} {s s' : Session σ φ κ}
    (h : s.perform (channels.forM (rest wait)) = (.ok (), s')) :
    (∀ channel ∈ channels, s'.motion channel = .idle) ∧
      ∀ channel, channel ∉ channels →
        s'.host.channelState channel = s.host.channelState channel := by
  induction channels generalizing s with
  | nil =>
      cases h
      exact ⟨nofun, fun _ _ => rfl⟩
  | cons first channels ih =>
      rw [perform_forM_cons] at h
      obtain ⟨_, -, hsettled⟩ := ends_rest wait first s
      cases hfirst : s.perform (rest wait first) with
      | mk r s₁ =>
          rw [hfirst] at h hsettled
          cases r with
          | error e => cases h
          | ok _ =>
              obtain ⟨hidle, hkept⟩ := ih h
              have hhost : s₁.host = s.host.setMotion first .idle := hsettled.eq_of_ok
              rw [hhost] at hkept
              refine ⟨fun channel hmem => ?_, fun channel hnot => ?_⟩
              · by_cases hrest : channel ∈ channels
                · exact hidle channel hrest
                · obtain rfl : channel = first := (List.mem_cons.mp hmem).resolve_right hrest
                  unfold Session.motion
                  rw [hkept channel hrest, HostState.channelState_setMotion_self]
              · rw [hkept channel (List.not_mem_of_not_mem_cons hnot),
                  HostState.channelState_setMotion_of_ne _ _ _ (List.ne_of_not_mem_cons hnot)]

omit [Link σ φ] in
theorem perform_startWait (s : Session σ φ κ) :
    s.perform startWait = (.ok (Wait.start s.config.patience s.clock).1,
      { s with clock := (Wait.start s.config.patience s.clock).2 }) := rfl

theorem perform_settle {s : Session σ φ κ} (h : s.config.patience.timeout = none)
    (channel : Channel) :
    s.perform (settle channel) = s.perform (rest ⟨s.config.patience, none⟩ channel) := by
  have hstart : s.perform startWait = (.ok ⟨s.config.patience, none⟩, s) := by
    rw [perform_startWait, Wait.start, h]
  show s.perform (startWait >>= fun wait => rest wait channel) = _
  rw [Session.perform_bind, hstart]

/-- Without a deadline it makes no difference when a wait was started. -/
theorem perform_settles {s : Session σ φ κ} (h : s.config.patience.timeout = none)
    (channels : List Channel) :
    s.perform (channels.forM settle) =
      s.perform (channels.forM (rest ⟨s.config.patience, none⟩)) := by
  induction channels generalizing s with
  | nil =>
      show s.perform (pure ()) = s.perform (pure ())
      rfl
  | cons channel channels ih =>
      rw [perform_forM_cons, perform_forM_cons, perform_settle h]
      obtain ⟨_, hg, -⟩ := ends_rest ⟨s.config.patience, none⟩ channel s
      cases hrest : s.perform (rest ⟨s.config.patience, none⟩ channel) with
      | mk r s₁ =>
          rw [hrest] at hg
          cases r with
          | error e => rfl
          | ok _ =>
              have hconfig : s₁.config = s.config := hg.config
              rw [← hconfig] at h
              have hrow := ih h
              rw [hconfig] at hrow
              exact hrow

end

end Step

/-! ## All channels -/

section

variable [Clock κ]

/-- The wait that starts now. -/
def Session.wait (s : Session σ φ κ) : Wait :=
  (Wait.start s.config.patience s.clock).1

/-- The connection once it waits for the ramps that were started. -/
def Session.waiting (s : Session σ φ κ) : Session σ φ κ :=
  { s with
    clock := (Wait.start s.config.patience s.clock).2
    journal := .waitingForRamps :: s.journal }

/-- Without a deadline, a connection that waits differs from one that does not yet in a note
alone. -/
theorem Session.waiting_of_patient {s : Session σ φ κ} (h : s.config.patience.timeout = none) :
    s.waiting.Alike s ∧ s.wait = ⟨s.config.patience, none⟩ := by
  have hstart : Wait.start s.config.patience s.clock = (⟨s.config.patience, none⟩, s.clock) := by
    rw [Wait.start, h]
  unfold Session.waiting Session.wait
  rw [hstart]
  exact ⟨⟨rfl, rfl, rfl, rfl, rfl, rfl⟩, rfl⟩

variable [Link σ φ]

theorem Channel.nodup_all : Channel.all.Nodup := by
  decide +kernel

theorem Channel.notMem_of_all {before after : List Channel} {channel : Channel}
    (hall : Channel.all = before ++ after) (h : channel ∈ after) : channel ∉ before := by
  have hnodup : (before ++ after).Nodup := by
    rw [← hall]
    exact Channel.nodup_all
  intro hbefore
  exact (List.nodup_append.mp hnodup).2.2 channel hbefore channel h rfl

namespace Step

theorem ends_arms (channels : List Channel) (target rate : Float) (s : Session σ φ κ) :
    Ends (channels.forM fun channel => ramp channel target rate false) s fun made _ _ =>
      ∀ x ∈ made, ∃ channel ∈ channels, Arms channel x.target x.request := by
  have harm (channel : Channel) (hmem : channel ∈ channels) (s : Session σ φ κ) (_ : True) :
      Ends (ramp channel target rate false) s fun made _ _ =>
        True ∧ ∀ x ∈ made, ∃ channel ∈ channels, Arms channel x.target x.request :=
    ((built_arm channel target rate).sends s).mono fun _ _ _ _ hsent =>
      ⟨trivial, fun x hx => ⟨channel, hmem, hsent x hx⟩⟩
  exact (ends_forM harm s trivial).mono fun _ _ _ _ hends => hends.2

variable {target rate : Float} {s s' : Session σ φ κ} {e : Error φ}

theorem perform_rampAll_of_error
    (h : s.perform (onAllChannels fun channel => ramp channel target rate false) =
      (.error e, s')) : s.perform (rampAll target rate) = (.error e, s') :=
  Session.perform_bind_error h

theorem perform_rampAll_of_ok
    (h : s.perform (onAllChannels fun channel => ramp channel target rate false) =
      (.ok (), s')) :
    s.perform (rampAll target rate) = s'.waiting.perform (onAllChannels (rest s'.wait)) := by
  have hwaiting : s'.perform (do
      note .waitingForRamps
      let wait ← startWait
      onAllChannels (rest wait)) = s'.waiting.perform (onAllChannels (rest s'.wait)) := by
    rw [Session.perform_bind_of_ok rfl, Session.perform_bind_of_ok (perform_startWait _)]
    rfl
  exact (Session.perform_bind_of_ok h).trans hwaiting

theorem of_arms_error
    (h : s.perform (onAllChannels fun channel => ramp channel target rate false) =
      (.error e, s')) :
    ∃ before channel after, Channel.all = before ++ channel :: after ∧
      FailsAt (fun channel => ramp channel target rate false) s before channel e s' ∧
      ∃ made, s.Grown s' made ∧ ∀ later ∈ after, ∀ x ∈ made, ¬ x.Concerns later := by
  obtain ⟨before, channel, after, hall, hfails, hrow⟩ := exists_failsAt h
  obtain ⟨made, hg, hmade⟩ := ends_arms (before ++ [channel]) target rate s
  rw [hrow] at hg
  refine ⟨before, channel, after, hall, hfails, made, hg, fun later hlater x hx => ?_⟩
  obtain ⟨earlier, hearlier, harms⟩ := hmade x hx
  rw [← List.singleton_append, ← List.append_assoc] at hall
  refine harms.not_concerns fun heq => Channel.notMem_of_all hall hlater ?_
  rw [heq]
  exact hearlier

theorem of_rests_error {wait : Wait} (h : s.perform (onAllChannels (rest wait)) = (.error e, s')) :
    ∃ before channel after, Channel.all = before ++ channel :: after ∧
      FailsAt (rest wait) s before channel e s' ∧
      (∀ earlier ∈ before, s'.motion earlier = .idle) ∧
      ∀ later ∈ channel :: after, s'.host.channelState later = s.host.channelState later := by
  obtain ⟨before, channel, after, hall, hfails, -⟩ := exists_failsAt h
  obtain ⟨hidle, hkept⟩ := motion_of_rests wait (Prod.ext hfails.before_ok rfl)
  obtain ⟨_, -, hsettled⟩ := ends_rest wait channel (s.perform (before.forM (rest wait))).2
  rw [hfails.failed] at hsettled
  have hsame : s'.host = (s.perform (before.forM (rest wait))).2.host := hsettled.eq_of_error
  refine ⟨before, channel, after, hall, hfails, fun earlier hearlier => ?_, fun later hlater => ?_⟩
  · unfold Session.motion
    rw [hsame]
    exact hidle earlier hearlier
  · rw [hsame]
    exact hkept later (Channel.notMem_of_all hall hlater)

theorem blind_rests (wait : Wait) :
    Blind (onAllChannels (rest wait) : Step σ φ κ Unit) := by
  have hrest (channel : Channel) :
      Confined (fun _ => True) (fun _ => True) (rest wait channel : Step σ φ κ Unit) :=
    (confined_awaitRest channel wait).bind fun _ => confined_setMotion (fun _ => trivial) .idle
  exact (Confined.forM _ hrest).alike

theorem alike_of_rampAll (h : s.config.patience.timeout = none) (target rate : Float) :
    let apart := s.perform (do
      onAllChannels fun channel => ramp channel target rate false
      onAllChannels settle)
    (s.perform (rampAll target rate)).1 = apart.1 ∧
      (s.perform (rampAll target rate)).2.Alike apart.2 := by
  intro apart
  obtain ⟨_, hg, -⟩ := ends_arms Channel.all target rate s
  cases harmed : s.perform (onAllChannels fun channel => ramp channel target rate false) with
  | mk r s₁ =>
      cases r with
      | error e =>
          have hapart : apart = (.error e, s₁) := Session.perform_bind_error harmed
          rw [perform_rampAll_of_error harmed, hapart]
          exact ⟨rfl, .refl s₁⟩
      | ok _ =>
          have hapart : apart = s₁.perform (onAllChannels settle) :=
            Session.perform_bind_of_ok harmed
          rw [← onAllChannels, harmed] at hg
          rw [← hg.config] at h
          obtain ⟨halike, hwait⟩ := Session.waiting_of_patient h
          rw [perform_rampAll_of_ok harmed, hapart, onAllChannels, onAllChannels,
            perform_settles h, hwait]
          exact blind_rests _ s₁.waiting s₁ halike

end Step

/-- Ramping all channels is arming each and then waiting for each, up to the first failure.
Without a deadline it is so in every respect. With one, too, nothing is asked about a slope
before all channels are armed. Where arming fails, nothing was sent about a later channel.
Where waiting fails, the earlier channels are idle and the others as they were. -/
theorem rampAll_in_turn (s : Session σ φ κ) (target rate : Float) :
    let arm := fun channel => (Step.ramp channel target rate false : Step σ φ κ Unit)
    let armed := s.perform (Step.onAllChannels arm)
    let done := s.perform (Step.rampAll target rate)
    (s.config.patience.timeout = none →
      let apart := s.perform (do Step.onAllChannels arm; Step.onAllChannels Step.settle)
      done.1 = apart.1 ∧ done.2.Alike apart.2) ∧
    ∃ arming polling,
      armed.2.journal.exchanges = arming ++ s.journal.exchanges ∧
      done.2.journal.exchanges = polling ++ armed.2.journal.exchanges ∧
      (∀ x ∈ arming, ∀ channel, ¬ x.Polls channel) ∧
      (∀ e, armed.1 = .error e → done = armed ∧
        ∃ before channel after, Channel.all = before ++ channel :: after ∧
          Step.FailsAt arm s before channel e armed.2 ∧
          ∀ later ∈ after, ∀ x ∈ arming, ¬ x.Concerns later) ∧
      (armed.1 = .ok () → ∀ e, done.1 = .error e →
        ∃ before channel after, Channel.all = before ++ channel :: after ∧
          Step.FailsAt (Step.rest armed.2.wait) armed.2.waiting before channel e done.2 ∧
          (∀ earlier ∈ before, done.2.motion earlier = .idle) ∧
          ∀ later ∈ channel :: after,
            done.2.host.channelState later = armed.2.host.channelState later) ∧
      (done.1 = .ok () → ∀ channel, done.2.motion channel = .idle) := by
  intro arm armed done
  refine ⟨fun h => Step.alike_of_rampAll h target rate, ?_⟩
  obtain ⟨arming, hg, harms⟩ := Step.ends_arms Channel.all target rate s
  have hpolls : ∀ x ∈ arming, ∀ channel, ¬ x.Polls channel := by
    intro x hx other
    obtain ⟨channel, -, hx⟩ := harms x hx
    exact hx.not_polls other
  cases harmed : s.perform (Step.onAllChannels arm) with
  | mk r s₁ =>
      have harmed' : armed = (r, s₁) := harmed
      rw [show s.perform (Channel.all.forM arm) = (r, s₁) from harmed] at hg
      rw [harmed']
      cases r with
      | error e =>
          have hdone : done = (.error e, s₁) := Step.perform_rampAll_of_error harmed
          rw [hdone]
          refine ⟨arming, [], hg.exchanges, rfl, hpolls, ?_, nofun, nofun⟩
          rintro _ ⟨⟩
          obtain ⟨before, channel, after, hall, hfails, made, hg', hmade⟩ :=
            Step.of_arms_error harmed
          rw [hg'.unique hg] at hmade
          exact ⟨rfl, before, channel, after, hall, hfails, hmade⟩
      | ok _ =>
          have hdone : done = s₁.waiting.perform (Step.onAllChannels (Step.rest s₁.wait)) :=
            Step.perform_rampAll_of_ok harmed
          obtain ⟨polling, hg', -⟩ := Step.ends_rests s₁.wait s₁.waiting
          cases hwaited : s₁.waiting.perform (Step.onAllChannels (Step.rest s₁.wait)) with
          | mk r s₂ =>
              rw [hwaited] at hg'
              rw [hdone, hwaited]
              refine ⟨arming, polling, hg.exchanges, hg'.exchanges, hpolls, nofun, ?_, ?_⟩
              · rintro - e ⟨⟩
                exact Step.of_rests_error hwaited
              · rintro ⟨⟩ channel
                exact (Step.motion_of_rests s₁.wait hwaited).1 channel channel.mem_all

end

theorem rampAll_in_turn_departing :
    departing.config.patience.timeout = none ∧
      (departing.perform (Step.rampAll (-5) 10)).1 =
        (departing.perform (do
          Step.onAllChannels fun channel => Step.ramp channel (-5) 10 false
          Step.onAllChannels Step.settle)).1 := by
  have hpatient : departing.config.patience.timeout = none := by decide +kernel
  exact ⟨hpatient, ((rampAll_in_turn departing (-5) 10).1 hpatient).1⟩

end DacRack
