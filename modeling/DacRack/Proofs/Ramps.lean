import DacRack.Proofs.Motion
import DacRack.Proofs.Selection
import DacRack.Proofs.Slopes

/-!
# What a ramp sends before it starts

A ramp is started by its slope. Up to there it has read the output and the update period,
planned the slope from them, and set a limit (`Launched`), so all that is ever wrong with
a ramp is in its plan. The plan's slope points to the side of the target or nowhere.
Where it points somewhere, the limit is the target, on the side where it lies. Where the
slope was rounded to zero, the instrument is told to stay where it is, with the target as
the lower limit, also of a ramp that was to rise (`headsFor_iff_of_ramp`).

Nothing but a slope starts a ramp, and a step sends one only where it says so. `Still`
holds of every other request.
-/

namespace DacRack

variable {σ φ κ α β : Type}

/-- The request starts no ramp. -/
def Request.Still (request : Request) : Prop :=
  ∀ slope, request ≠ .commands [.slope slope]

/-- None of the transactions starts a ramp. -/
def Still (made : List (Exchange φ)) : Prop :=
  ∀ e ∈ made, e.request.Still

theorem still_nil : Still ([] : List (Exchange φ)) := by
  intro e he
  cases he

theorem Still.cons {e : Exchange φ} {made : List (Exchange φ)} (he : e.request.Still)
    (h : Still made) : Still (e :: made) :=
  List.forall_mem_cons.mpr ⟨he, h⟩

theorem Still.append {later earlier : List (Exchange φ)} (h : Still later) (h' : Still earlier) :
    Still (later ++ earlier) := by
  intro e he
  rcases List.mem_append.mp he with he | he
  · exact h e he
  · exact h' e he

/-- An answer came, and it is a reply. -/
def Accepted (outcome : Except (Error φ) String) : Prop :=
  ∃ reply payload, outcome = .ok reply ∧ Reply.payload reply.toList = .ok payload

/-- The word of a setting was read, and is the one the instrument replied. -/
def Reads (channel : Channel) (setting : Setting) (word : UInt32)
    (made : List (Exchange φ)) : Prop :=
  ∃ (address : UInt32) (move : Exchange φ) (reply : String),
    address.toNat = setting.address channel ∧ move.ConfirmsCursor address ∧
    made = [⟨.word .main address, .commands [.readMemory], .ok reply⟩, move] ∧
    Reply.word reply.toList = .ok word

theorem Exchange.ConfirmsChannel.still {channel : Channel} {e : Exchange φ}
    (h : e.ConfirmsChannel channel) : e.request.Still := by
  rw [h.1]
  exact nofun

theorem still_limitCommand (plan : Ramp) :
    (Request.commands [Step.limitCommand plan]).Still := by
  unfold Step.limitCommand
  split
  · exact nofun
  · exact nofun

/-- The update period was read, a ramp planned for it and its limit set, the channel being
selected before the limit and once more after it. -/
structure Launched (range : VoltageRange) (channel : Channel) (current target rate : Float)
    (period : UInt32) (plan : Ramp) (made : List (Exchange φ)) : Prop where
  planned : Ramp.between range current target period rate = .ok plan
  sent : ∃ reading sel sel' reply, Reads channel .updatePeriod period reading ∧
    sel.ConfirmsChannel channel ∧ sel'.ConfirmsChannel channel ∧
    made = sel' :: ⟨.channel channel, .commands [Step.limitCommand plan], .ok reply⟩ ::
      sel :: reading

namespace Step

theorem exists_channel_of_plain_slope {target : Target} {slope : Int64}
    (h : Plain target [.slope slope]) : ∃ channel, target = .channel channel := by
  generalize hcommands : [Command.slope slope] = commands at h
  cases h with
  | slope channel _ => exact ⟨channel, rfl⟩
  | query bank address => cases bank <;> cases hcommands
  | store bank address word => cases bank <;> cases hcommands
  | _ => cases hcommands

theorem Sends.still {step : Step σ φ κ α}
    (h : Sends (Allowed (fun target => ∀ channel, target ≠ .channel channel) none) step)
    (s : Session σ φ κ) : Ends step s fun made _ _ => Still made := by
  refine (h s).mono fun made r s' _ hmade e he slope hslope => ?_
  rcases hmade e he with ⟨ht, commands, hcommands, hplain⟩ | ⟨text, htext, -⟩
  · rw [hslope] at hcommands
    cases hcommands
    obtain ⟨channel, htarget⟩ := exists_channel_of_plain_slope hplain
    exact ht channel htarget
  · rw [hslope] at htext
    cases htext

variable [Link σ φ]

theorem still_selectChannel (channel : Channel) (s : Session σ φ κ) :
    Ends (selectChannel channel) s fun made _ _ => Still made :=
  (built_selectChannel (fun _ => nofun) channel).allowed.still s

theorem built_readSetting (channel : Channel) (setting : Setting) :
    Built (Aimed (fun target => ∀ channel, target ≠ .channel channel) none)
      (readSetting channel setting : Step σ φ κ UInt64) :=
  built_read (fun _ => nofun) fun _ _ _ _ _ => nofun

theorem still_readSetting (channel : Channel) (setting : Setting) (s : Session σ φ κ) :
    Ends (readSetting channel setting) s fun made _ _ => Still made :=
  (built_readSetting channel setting).allowed.still s

theorem ends_transactChannel (channel : Channel) (commands : List Command)
    (s : Session σ φ κ) :
    Ends (transactChannel channel commands) s fun made r _ =>
      (Still made ∧ ∃ e, r = .error e) ∨ ∃ sel,
        made = [⟨.channel channel, .commands commands, r⟩, sel] ∧
          sel.ConfirmsChannel channel := by
  refine ((still_selectChannel channel s).and (ends_selectChannel channel s)).bind ?_ ?_
  · intro made e s' _ hends
    obtain ⟨hstill, -⟩ := hends
    exact .inl ⟨hstill, e, rfl⟩
  · intro made _ s' _ hends
    obtain ⟨hstill, -, hok⟩ := hends
    obtain ⟨sel, rfl, hsel⟩ := hok rfl
    refine ends_transact ?_ fun outcome s'' _ => ?_
    · exact .inl ⟨hstill, _, rfl⟩
    · exact .inr ⟨sel, rfl, hsel⟩

/-- A command to a channel follows its selection, and succeeds just where it is
accepted. -/
theorem ends_command (channel : Channel) (commands : List Command) (s : Session σ φ κ) :
    Ends (command channel commands) s fun made r _ =>
      (Still made ∧ ∃ e, r = .error e) ∨
        ∃ sel outcome, made = [⟨.channel channel, .commands commands, outcome⟩, sel] ∧
          sel.ConfirmsChannel channel ∧ (r = .ok () ↔ Accepted outcome) := by
  refine (ends_transactChannel channel commands s).bind ?_ ?_
  · intro made e s' _ hends
    rcases hends with ⟨hstill, -⟩ | ⟨sel, rfl, hsel⟩
    · exact .inl ⟨hstill, e, rfl⟩
    · exact .inr ⟨sel, _, rfl, hsel, nofun, fun ⟨_, _, hreply, _⟩ => nomatch hreply⟩
  · intro made reply s' _ hends
    rcases hends with ⟨-, e, he⟩ | ⟨sel, rfl, hsel⟩
    · cases he
    · cases hpayload : Reply.payload reply.toList with
      | ok payload =>
          exact ends_pure (.inr ⟨sel, _, rfl, hsel,
            fun _ => ⟨reply, payload, rfl, hpayload⟩, fun _ => rfl⟩)
      | error cause =>
          refine ends_throw (.inr ⟨sel, _, rfl, hsel, nofun, ?_⟩)
          rintro ⟨_, payload, ⟨⟩, hok⟩
          rw [hpayload] at hok
          cases hok

theorem ends_readWord (address : UInt32) (s : Session σ φ κ) :
    Ends (readWord .main address) s fun made r _ => ∀ word, r = .ok word →
      ∃ (move : Exchange φ) (reply : String), move.ConfirmsCursor address ∧
        made = [⟨.word .main address, .commands [.readMemory], .ok reply⟩, move] ∧
        Reply.word reply.toList = .ok word := by
  refine (ends_moveCursor address s).bind (fun _ _ _ _ _ => nofun) ?_
  intro made _ s' _ hends
  obtain ⟨-, -, hok⟩ := hends
  obtain ⟨move, rfl, hmove⟩ := hok rfl
  refine (ends_checked (fun _ => silent_understand _) s').mono ?_
  intro made' r s'' _ hends word hr
  rcases hends with ⟨rfl, e, rfl⟩ | ⟨outcome, rfl, hchecked⟩
  · cases hr
  · obtain ⟨reply, s₁, rfl, h⟩ := hchecked word hr
    refine ⟨move, reply, hmove, rfl, ?_⟩
    cases hword : Reply.word reply.toList with
    | error e =>
        rw [hword] at h
        cases h
    | ok word' =>
        rw [hword] at h
        cases h
        rfl

theorem ends_readSetting (channel : Channel) (setting : Setting) (hword : setting.words = 1)
    (s : Session σ φ κ) :
    Ends (readSetting channel setting) s fun made r _ =>
      ∀ value, r = .ok value → Reads channel setting value.toUInt32 made := by
  unfold readSetting read
  rw [hword, if_neg (by omega), if_neg (by omega)]
  refine Ends.ofExcept_bind (fun _ _ => nofun) fun address haddress => ?_
  have hnat : address.toNat = setting.address channel := by
    exact_mod_cast (toNat_of_validAddress haddress).1
  show Ends (do
    let value ← (do
      let word ← readWord .main address
      return (0 : UInt64) <<< 32 ||| word.toUInt64)
    note (.wordsRead value address 1 .main)
    return value) s _
  refine Ends.bind (P := fun made (r : Except (Error φ) UInt64) _ =>
    ∀ value, r = .ok value → Reads channel setting value.toUInt32 made) ?_
    (fun _ _ _ _ _ => nofun) ?_
  · refine (ends_readWord address s).bind (fun _ _ _ _ _ => nofun) ?_
    intro made word s' _ hread
    refine ends_pure ?_
    intro value heq
    cases heq
    obtain ⟨move, reply, hmove, rfl, hreply⟩ := hread word rfl
    refine ⟨address, move, reply, hnat, hmove, rfl, ?_⟩
    rw [hreply]
    congr 1
    simp
  · intro made value s' _ hreads
    refine ⟨[], ⟨rfl, rfl, rfl⟩, ?_⟩
    intro value' heq
    cases heq
    exact hreads value rfl

theorem ends_updatePeriod (channel : Channel) (s : Session σ φ κ) :
    Ends (updatePeriod channel) s fun made r _ =>
      Still made ∧ ∀ period, r = .ok period → Reads channel .updatePeriod period made := by
  refine Ends.bind ((still_readSetting channel .updatePeriod s).and
    (ends_readSetting channel .updatePeriod rfl s)) ?_ ?_
  · intro made e s' _ hends
    obtain ⟨hstill, -⟩ := hends
    exact ⟨hstill, nofun⟩
  · intro made value s' _ hends
    obtain ⟨hstill, hreads⟩ := hends
    refine ends_pure ⟨hstill, ?_⟩
    intro period heq
    cases heq
    exact hreads value rfl

theorem ends_volt (channel : Channel) (s : Session σ φ κ) :
    Ends (volt channel) s fun made r _ => Still made ∧ ∀ current, r = .ok current →
      ∃ word, current = s.config.range.volt word ∧ Reads channel .output word made := by
  refine Ends.bind ((still_readSetting channel .output s).and
    (ends_readSetting channel .output rfl s)) ?_ ?_
  · intro made e s' _ hends
    obtain ⟨hstill, -⟩ := hends
    exact ⟨hstill, nofun⟩
  · intro made value s' hg hends
    obtain ⟨hstill, hreads⟩ := hends
    refine Ends.range_bind (ends_pure ⟨hstill, ?_⟩)
    intro current heq
    cases heq
    exact ⟨value.toUInt32, by rw [hg.config], hreads value rfl⟩

/-- The slope goes out last, if it does at all, and the ramp has started just where it is
accepted. -/
theorem ends_startRamp (channel : Channel) (current target rate : Float)
    (s : Session σ φ κ) : Ends (startRamp channel current target rate) s fun made r s' =>
      (Still made ∧ (∃ e, r = .error e) ∧ s'.host = s.host) ∨
        ∃ period plan outcome earlier,
          Launched s.config.range channel current target rate period plan earlier ∧
            Still earlier ∧
            made = ⟨.channel channel, .commands [.slope plan.slope], outcome⟩ :: earlier ∧
            ((Accepted outcome ∧ r = .ok () ∧
                s'.host = s.host.setMotion channel (.ramping target)) ∨
              (¬ Accepted outcome ∧ (∃ e, r = .error e) ∧ s'.host = s.host)) := by
  refine ((confined_updatePeriod channel).leavesHost.ends (ends_updatePeriod channel s)).bind
    (fun _ e _ _ h => .inl ⟨h.1.1, ⟨e, rfl⟩, h.2⟩) ?_
  intro reading period s₁ hg hends
  obtain ⟨⟨hreading, hreads⟩, hhost₁⟩ := hends
  have hreads := hreads period rfl
  refine Ends.range_bind (Ends.inRange_bind (fun e => .inl ⟨hreading, ⟨_, rfl⟩, hhost₁⟩)
    fun plan hplan => ?_)
  rw [hg.config] at hplan
  refine Ends.ensure_bind (.inl ⟨hreading, ⟨_, rfl⟩, hhost₁⟩) fun _ => ?_
  have hlimit {sel : Exchange φ} (hsel : sel.ConfirmsChannel channel)
      (outcome : Except (Error φ) String) : Still
        ([⟨.channel channel, .commands [limitCommand plan], outcome⟩, sel] ++ reading) :=
    .cons (still_limitCommand plan) (.cons hsel.still hreading)
  have hsend (commands : List Command) (s : Session σ φ κ) :=
    (confined_command channel commands).leavesHost.ends (ends_command channel commands s)
  refine (hsend [limitCommand plan] s₁).bind ?_ ?_
  · rintro made e s₂ - ⟨hends, hhost₂⟩
    have hsame := hhost₂.trans hhost₁
    rcases hends with ⟨hmade, -⟩ | ⟨sel, outcome, rfl, hsel, -⟩
    · exact .inl ⟨hmade.append hreading, ⟨e, rfl⟩, hsame⟩
    · exact .inl ⟨hlimit hsel outcome, ⟨e, rfl⟩, hsame⟩
  -- The limit was accepted. From here on all depends on the slope and the selection before it.
  rintro made _ s₂ - ⟨hends, hhost₂⟩
  rcases hends with ⟨-, e, he⟩ | ⟨sel, outcome, rfl, hsel, hok⟩
  · cases he
  obtain ⟨reply, -, rfl, -⟩ := hok.mp rfl
  have hstill := hlimit hsel (.ok reply)
  have hlaunched {sel' : Exchange φ} (hsel' : sel'.ConfirmsChannel channel) :
      Launched s.config.range channel current target rate period plan (sel' ::
        ([⟨.channel channel, .commands [limitCommand plan], .ok reply⟩, sel] ++ reading)) :=
    ⟨hplan, reading, sel, sel', reply, hreads, hsel, hsel', rfl⟩
  refine (hsend [.slope plan.slope] s₂).bind ?_ ?_
  · rintro made e s₃ - ⟨hends, hhost₃⟩
    have hsame := hhost₃.trans (hhost₂.trans hhost₁)
    rcases hends with ⟨hmade, -⟩ | ⟨sel', outcome, rfl, hsel', hok'⟩
    · refine .inl ⟨?_, ⟨e, rfl⟩, hsame⟩
      rw [List.append_assoc]
      exact hmade.append hstill
    · exact .inr ⟨period, plan, outcome, _, hlaunched hsel', .cons hsel'.still hstill, rfl,
        .inr ⟨fun h => (nomatch hok'.mpr h), ⟨e, rfl⟩, hsame⟩⟩
  rintro made _ s₃ - ⟨hends, hhost₃⟩
  rcases hends with ⟨-, e, he⟩ | ⟨sel', outcome, rfl, hsel', hok'⟩
  · cases he
  have hhost : s₃.host = s.host := hhost₃.trans (hhost₂.trans hhost₁)
  refine ⟨[], ⟨rfl, rfl, rfl⟩, .inr ⟨period, plan, outcome, _, hlaunched hsel',
    .cons hsel'.still hstill, rfl, .inl ⟨hok'.mp rfl, rfl, ?_⟩⟩⟩
  rw [← hhost]
  rfl

variable [Clock κ]

theorem built_settle (channel : Channel) :
    Built (Aimed (fun target => ∀ channel, target ≠ .channel channel) none)
      (settle channel : Step σ φ κ Unit) := by
  have hround (wait : Wait) : Built (Aimed (fun target => ∀ channel, target ≠ .channel channel)
      none) (checkRest channel wait : Step σ φ κ Bool) := by
    refine ((built_readSetting channel .slope).bind fun _ => (silent_pure _).built).bind
      fun slope => ?_
    split
    · exact (silent_pure _).built
    · exact ((silent_tick wait).bind fun _ => silent_pure _).built
  refine silent_startWait.built.bind fun wait => ?_
  exact ((hround wait).repeatUntil _).bind fun _ => (silent_setMotion _ _).built

theorem still_settle (channel : Channel) (s : Session σ φ κ) :
    Ends (settle channel) s fun made _ _ => Still made :=
  (built_settle channel).allowed.still s

/-- One slope goes out, if any, after the output was read and the limit set. -/
theorem ends_ramp (channel : Channel) (target rate : Float) (wait : Bool)
    (s : Session σ φ κ) : Ends (ramp channel target rate wait) s fun made _ _ =>
      Still made ∨ ∃ word period plan outcome reading earlier later,
        Reads channel .output word reading ∧
          Launched s.config.range channel (s.config.range.volt word) target rate period plan
            earlier ∧
          rateAllowed rate = true ∧ (s.config.range.volt word == target) = false ∧
          Still (earlier ++ reading) ∧ Still later ∧
          made = later ++ ⟨.channel channel, .commands [.slope plan.slope], outcome⟩ ::
            (earlier ++ reading) := by
  refine Ends.ensure_bind (.inl still_nil) fun hrate => ?_
  refine Ends.range_bind (Ends.inRange_bind (fun _ => .inl still_nil) fun code hcode => ?_)
  refine (ends_volt channel s).bind (fun _ _ _ _ h => .inl h.1) ?_
  intro reading current s₁ hg hends
  obtain ⟨hreading, hok⟩ := hends
  obtain ⟨word, rfl, hreads⟩ := hok current rfl
  split
  · exact ends_pure (.inl hreading)
  · next hne =>
      refine (ends_startRamp channel _ target rate s₁).bind ?_ ?_
      · intro made e s₂ _ hends
        rcases hends with ⟨hmade, -⟩ | ⟨period, plan, outcome, earlier, hlaunched, hearlier, rfl, -⟩
        · exact .inl (hmade.append hreading)
        · rw [hg.config] at hlaunched
          exact .inr ⟨word, period, plan, outcome, reading, earlier, [], hreads, hlaunched, hrate,
            eq_false_of_ne_true hne, hearlier.append hreading, still_nil, rfl⟩
      · intro made _ s₂ _ hstart
        have hwait : Ends (if wait then settle channel else pure ()) s₂
            fun made _ _ => Still made := by
          split
          · exact still_settle channel s₂
          · exact ends_pure still_nil
        refine hwait.mono fun later r s₃ _ hlater => ?_
        rcases hstart with
          ⟨hmade, -⟩ | ⟨period, plan, outcome, earlier, hlaunched, hearlier, rfl, -⟩
        · exact .inl ((hlater.append hmade).append hreading)
        · rw [hg.config] at hlaunched
          refine .inr ⟨word, period, plan, outcome, reading, earlier, later, hreads, hlaunched,
            hrate, eq_false_of_ne_true hne, hearlier.append hreading, hlater, ?_⟩
          rw [List.append_assoc, List.cons_append]

end Step

section

variable [Link σ φ] [Clock κ]

/-- Whenever a ramp sends a slope, what came before it was planned from what the instrument
replied, and heads for the target just where the slope is at least a half before it is
rounded. -/
theorem headsFor_iff_of_ramp (s : Session σ φ κ) (channel : Channel) (target rate : Float)
    (wait : Bool) :
    ∃ made, (s.perform (Step.ramp channel target rate wait)).2.journal.exchanges =
        made ++ s.journal.exchanges ∧
      ∀ later e earlier slope, made = later ++ e :: earlier →
        e.request = .commands [.slope slope] →
        ∃ word period plan launch reading, earlier = launch ++ reading ∧
          Reads channel .output word reading ∧
          Launched s.config.range channel (s.config.range.volt word) target rate period plan
            launch ∧
          e.target = .channel channel ∧ slope = plan.slope ∧
          s.config.range.code target = .ok plan.targetCode ∧
          (word.toNat ≠ plan.targetCode.toNat →
            (HeadsFor word plan.targetCode (Step.limitCommand plan) slope ↔
              0.5 ≤ plan.steepness.abs)) := by
  obtain ⟨made, hg, hmade⟩ := Step.ends_ramp channel target rate wait s
  refine ⟨made, hg.exchanges, ?_⟩
  intro later e earlier slope hsplit he
  have hmoves : ¬ e.request.Still := fun hstill => hstill slope he
  rcases hmade with hstill | ⟨word, period, plan, outcome, reading, launch, later', hreads,
    hlaunched, hrate, hne, hearlier, hlater, rfl⟩
  · rw [hsplit] at hstill
    exact absurd (hstill e (by simp)) hmoves
  · obtain ⟨-, rfl, rfl⟩ := (List.append_cons_inj_of_notMem
      (fun hmem => hmoves (hlater e hmem)) (fun hmem => hmoves (hearlier e hmem))).mp hsplit
    cases he
    exact ⟨word, period, plan, launch, reading, rfl, hreads, hlaunched, rfl, rfl,
      (Ramp.of_between hlaunched.planned).2.1,
      headsFor_iff_of_between hlaunched.planned hrate hne⟩

end

/-- A connection to an instrument that updates a channel, at the lower end of its range,
every millisecond. -/
def sluggish : Session ScriptedLink FaultKind SteppingClock :=
  connected ["A1545!", "p0!", "A1536!", "p1000!", "B0!C0!", "L65535!", "B0!C0!", "S0!",
    "A1542!", "p0!", "A1543!", "p0!"]

/-- A slow ramp to the upper end that is waited for: it succeeds and goes nowhere. -/
theorem exists_not_headsFor_of_ramp :
    ∃ s', sluggish.perform (Step.ramp ⟨0, 0⟩ 5 1e-6 true) = (.ok (), s') ∧
      ∃ e ∈ s'.journal.exchanges, ∃ word plan,
        e.request = .commands [.slope plan.slope] ∧
          word.toNat < plan.targetCode.toNat ∧
          ¬ HeadsFor word plan.targetCode (Step.limitCommand plan) plan.slope := by
  have hcode : (sluggish.config.range.code 5).toOption = some 65535 := by decide +kernel
  have hbefore : ∀ e ∈ sluggish.journal.exchanges, e.request ≠ .commands [.slope 0] := by
    decide +kernel
  have hrun : (sluggish.perform (Step.ramp ⟨0, 0⟩ 5 1e-6 true)).1.toOption = some () ∧
      (∃ e ∈ (sluggish.perform (Step.ramp ⟨0, 0⟩ 5 1e-6 true)).2.journal.exchanges,
        e.request = .commands [.slope 0]) ∧
      ∀ e ∈ (sluggish.perform (Step.ramp ⟨0, 0⟩ 5 1e-6 true)).2.journal.exchanges,
        e.target = .word .main 1545 → e.outcome.toOption = some "p0!" := by
    decide +kernel
  obtain ⟨made, hmade, hslopes⟩ := headsFor_iff_of_ramp sluggish ⟨0, 0⟩ 5 1e-6 true
  cases hperform : sluggish.perform (Step.ramp ⟨0, 0⟩ 5 1e-6 true) with
  | mk r s' =>
      rw [hperform] at hrun hmade
      obtain ⟨hok, ⟨e, hmem, he⟩, hreplies⟩ := hrun
      cases r with
      | error e => cases hok
      | ok _ =>
          have hmem' : e ∈ made := by
            rw [hmade] at hmem
            exact (List.mem_append.mp hmem).resolve_right fun h => hbefore e h he
          obtain ⟨later, earlier, hsplit⟩ := List.append_of_mem hmem'
          obtain ⟨word, period, plan, launch, reading, rfl, hreads, -, -, hslope, htarget, -⟩ :=
            hslopes later e earlier 0 hsplit he
          obtain ⟨address, move, reply, haddress, -, rfl, hword⟩ := hreads
          have haddress' : address = 1545 := UInt32.toNat_inj.mp haddress
          have hreply : reply = "p0!" := by
            have hread := hreplies ⟨.word .main address, .commands [.readMemory], .ok reply⟩
              (by rw [hmade, hsplit]; simp) (by rw [haddress'])
            exact Option.some.inj hread
          have hword' : word = 0 := by
            have hzero : (Reply.word "p0!".toList).toOption = some 0 := by decide +kernel
            rw [← hreply, hword] at hzero
            exact Option.some.inj hzero
          have htop : plan.targetCode = 65535 := by
            rw [htarget] at hcode
            exact Option.some.inj hcode
          have hrises : word.toNat < plan.targetCode.toNat := by
            rw [hword', htop]
            decide
          refine ⟨s', rfl, e, hmem, word, plan, by rw [he, hslope], hrises, fun hheads => ?_⟩
          obtain ⟨-, hpos⟩ := hheads.1 hrises
          rw [← hslope] at hpos
          exact absurd hpos (by decide)

end DacRack
