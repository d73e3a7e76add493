import DacRack.Link.Scripted
import DacRack.Proofs.Confined

/-!
# Where a blocking call leaves a channel

A channel is known to be ramping from when a ramp was started until someone saw it
end. A call that waits for its own ramp sees it end, and one that sets the output at
once ends it, so both leave the channel idle.

There is one way past this. A ramp to the very voltage a channel reports is over
before it begins: nothing is armed, nothing is waited for, and what was known of the
channel's motion is not touched. A ramp that was started earlier, towards another
voltage, then still counts as running (`idle_iff_of_blocking`).

Asking never touches what the host remembers, so that only the ends of the steps
matter: `LeavesHost` says so of the parts, and the rest is to take a step that
succeeded apart.
-/

namespace DacRack

variable {σ φ κ α : Type}

namespace Step

/-- The step leaves alone what the host remembers. -/
def LeavesHost (step : Step σ φ κ α) : Prop :=
  ∀ s : Session σ φ κ, (s.perform step).2.host = s.host

theorem Confined.leavesHost [Link σ φ] {step : Step σ φ κ α}
    (h : Confined (fun _ => False) (fun _ => True) step) : LeavesHost step := by
  intro s
  obtain ⟨_, -, hhost⟩ := h.ends_same s
  exact hhost

theorem LeavesHost.ends {step : Step σ φ κ α} (h : LeavesHost step) {s : Session σ φ κ}
    {P : List (Exchange φ) → Except (Error φ) α → Session σ φ κ → Prop}
    (hends : Ends step s P) :
    Ends step s fun made r s' => P made r s' ∧ s'.host = s.host := by
  obtain ⟨made, hg, hP⟩ := hends
  exact ⟨made, hg, hP, h s⟩

end Step

namespace Session

def motion (s : Session σ φ κ) (channel : Channel) : Motion :=
  (s.host.channelState channel).motion

variable {s s' : Session σ φ κ} {channel : Channel}

theorem motion_setMotion (s : Session σ φ κ) (channel : Channel) (motion : Motion) :
    (s.perform (Step.setMotion channel motion)).2.motion channel = motion := by
  show ((s.host.updateChannel channel _).channelState channel).motion = motion
  rw [HostState.channelState_updateChannel_self]

variable [Link σ φ]

theorem motion_of_setCode {code : UInt16}
    (h : s.perform (Step.setCode channel code) = (.ok (), s')) :
    s'.motion channel = .idle := by
  obtain ⟨_, s₁, -, h⟩ := perform_bind_ok h
  obtain ⟨_, s₂, hmotion, h⟩ := perform_bind_ok h
  have hidle := motion_setMotion s₁ channel .idle
  rw [hmotion] at hidle
  cases h
  exact hidle

variable [Clock κ]

theorem motion_of_settle (h : s.perform (Step.settle channel) = (.ok (), s')) :
    s'.motion channel = .idle := by
  obtain ⟨wait, s₁, -, h⟩ := perform_bind_ok h
  obtain ⟨_, s₂, -, h⟩ := perform_bind_ok h
  have hidle := motion_setMotion s₂ channel .idle
  rw [h] at hidle
  exact hidle

/-- A ramp that succeeds has read the voltage, and then either had nothing to do or
was started, and waited for if it was to be. -/
theorem perform_ramp_ok {target rate : Float} {wait : Bool}
    (h : s.perform (Step.ramp channel target rate wait) = (.ok (), s')) :
    ∃ current s₁, s.perform (Step.volt channel) = (.ok current, s₁) ∧
      if current == target then s' = s₁
      else ∃ s₂, s₁.perform (Step.startRamp channel current target rate) = (.ok (), s₂) ∧
        s₂.perform (if wait then Step.settle channel else pure ()) = (.ok (), s') := by
  obtain ⟨-, h⟩ := perform_ensure_ok h
  obtain ⟨range, s₀, hrange, h⟩ := perform_bind_ok h
  cases hrange
  obtain ⟨code, -, h⟩ := perform_inRange_ok h
  obtain ⟨current, s₁, hvolt, h⟩ := perform_bind_ok h
  refine ⟨current, s₁, hvolt, ?_⟩
  split
  · next heq =>
      rw [if_pos heq] at h
      cases h
      rfl
  · next hne =>
      rw [if_neg hne] at h
      obtain ⟨_, s₂, hstart, h⟩ := perform_bind_ok h
      exact ⟨s₂, hstart, h⟩

theorem idle_iff_of_ramp {target rate : Float}
    (h : s.perform (Step.ramp channel target rate true) = (.ok (), s')) :
    ∃ current s₁, s.perform (Step.volt channel) = (.ok current, s₁) ∧
      (s'.motion channel = .idle ↔
        s.motion channel = .idle ∨ (current == target) = false) := by
  obtain ⟨current, s₁, hvolt, h⟩ := perform_ramp_ok h
  refine ⟨current, s₁, hvolt, ?_⟩
  by_cases heq : (current == target) = true
  · rw [if_pos heq] at h
    have hhost := (Step.confined_volt channel).leavesHost s
    rw [hvolt] at hhost
    have hmotion : s'.motion channel = s.motion channel := by
      unfold motion
      rw [h, hhost]
    rw [hmotion, heq]
    simp
  · rw [if_neg heq] at h
    obtain ⟨s₂, -, hsettle⟩ := h
    have hidle := motion_of_settle hsettle
    simp [hidle, heq]

end Session

section

variable [Link σ φ] [Clock κ]

/-- How a channel is left by the calls that wait for its output. -/
theorem idle_iff_of_blocking (s : Session σ φ κ) (channel : Channel) :
    (∀ target rate s', s.perform (Step.ramp channel target rate true) = (.ok (), s') →
      ∃ current s₁, s.perform (Step.volt channel) = (.ok current, s₁) ∧
        (s'.motion channel = .idle ↔
          s.motion channel = .idle ∨ (current == target) = false)) ∧
    ∀ volt s', s.perform (Step.setVolt channel volt) = (.ok (), s') →
      if (s.host.channelState channel).rampOnSet then
        ∃ code current s₁, s.config.range.code volt = .ok code ∧
          s.perform (Step.volt channel) = (.ok current, s₁) ∧
          (s'.motion channel = .idle ↔ s.motion channel = .idle ∨
            (current == s.config.range.volt code.toUInt32) = false)
      else s'.motion channel = .idle := by
  refine ⟨fun target rate s' h => Session.idle_iff_of_ramp h, ?_⟩
  intro volt s' h
  obtain ⟨range, s₀, hrange, h⟩ := Session.perform_bind_ok h
  cases hrange
  obtain ⟨code, hcode, h⟩ := Session.perform_inRange_ok h
  obtain ⟨state, s₀, hstate, h⟩ := Session.perform_bind_ok h
  cases hstate
  by_cases hramp : (s.host.channelState channel).rampOnSet = true
  · rw [if_pos hramp] at h ⊢
    obtain ⟨current, s₁, hvolt, hiff⟩ := Session.idle_iff_of_ramp h
    exact ⟨code, current, s₁, hcode, hvolt, hiff⟩
  · rw [if_neg hramp] at h ⊢
    exact Session.motion_of_setCode h

end

/-- A link that delivers replies, each as a line. -/
def ScriptedLink.ofReplies (replies : List String) : ScriptedLink :=
  { script := replies.flatMap fun reply => (Text.bytes reply ++ [10]).map .byte }

/-- A link that answers to connecting as a plain instrument does, and then with these
replies. -/
def connecting (replies : List String) : Session ScriptedLink FaultKind SteppingClock :=
  { link := .ofReplies (["?", "?", "?", "B0!", "M2!", "B1!", "M2!", "B2!", "M2!", "B3!",
      "M2!", "B4!", "M2!"] ++ replies), clock := {} }

/-- A connection that was just made, with these replies still to come. -/
def connected (replies : List String) : Session ScriptedLink FaultKind SteppingClock :=
  ((connecting replies).perform Step.connect).2

/-- A connection that sent a channel from the lower end of its range to the upper one,
and hears that the channel has not moved yet. -/
def departing : Session ScriptedLink FaultKind SteppingClock :=
  (connected ["A1545!", "p0!", "A1536!", "p1000!", "B0!C0!", "U65535!", "B0!C0!",
    "S4294901760!", "A1545!", "p0!"]).performAll [.onChannel ⟨0, 0⟩ (.ramp 5 10 false)]

theorem exists_ramping_of_blocking :
    ∃ s', departing.perform (Step.ramp ⟨0, 0⟩ (-5) 10 true) = (.ok (), s') ∧
      s'.motion ⟨0, 0⟩ ≠ .idle := by
  have hramps : (departing.perform (Step.ramp ⟨0, 0⟩ (-5) 10 true)).1.toOption = some () := by
    decide +kernel
  have hstays : (departing.perform (Step.volt ⟨0, 0⟩)).1.toOption.map (· == -5) = some true := by
    decide +kernel
  have hmoves : (match departing.motion ⟨0, 0⟩ with
      | .idle => false
      | .ramping target => target == 5) = true := by
    decide +kernel
  cases hperform : departing.perform (Step.ramp ⟨0, 0⟩ (-5) 10 true) with
  | mk r s' =>
      rw [hperform] at hramps
      cases r with
      | error e => cases hramps
      | ok _ =>
          obtain ⟨current, s₁, hvolt, hiff⟩ :=
            (idle_iff_of_blocking departing ⟨0, 0⟩).1 _ _ s' hperform
          rw [hvolt] at hstays
          have hcurrent : (current == -5) = true := Option.some.inj hstays
          refine ⟨s', rfl, fun hidle => ?_⟩
          rcases hiff.mp hidle with hmotion | hne
          · rw [hmotion] at hmoves
            cases hmoves
          · rw [hcurrent] at hne
            cases hne

end DacRack
