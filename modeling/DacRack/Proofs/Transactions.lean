import DacRack.Call

/-!
# The transactions a step makes

The journal only ever grows, so what a step did to the instrument can be read off
it: the transactions on top of those that were there before. `Ends step s P` says
how a step ends when it is carried out from `s`, in terms of those transactions (the
latest first, as in the journal), the result and the connection afterwards. The two
settings a step reads, the configuration and the capacity, stay as they are along
the way, so `Session.Grown` carries them too.

Every step is put together from a few that make no transaction at all and from
`exchange`, which makes exactly one. `Ends.bind` follows a step through both of its
endings, so a fact about whole operations is shown by walking along their steps.

A run of calls is one call after the other, failed ones included. A fact that carries over
from one run to the next is shown of single calls (`ends_performAll`), and a transaction of
a kind that a run makes can be traced to the call that made it (`exists_performAll_iff`).
-/

namespace DacRack

variable {σ φ κ α β : Type}

theorem eq_ok_of_toOption {ε : Type} {r : Except ε α} {a : α} (h : r.toOption = some a) :
    r = .ok a := by
  cases r with
  | error e => cases h
  | ok b => exact congrArg _ (Option.some.inj h)

/-- A connection later on: with the same settings, and with the transactions `made`
since then on top of the earlier ones. -/
structure Session.Grown (s s' : Session σ φ κ) (made : List (Exchange φ)) : Prop where
  config : s'.config = s.config
  capacity : s'.capacity = s.capacity
  exchanges : s'.journal.exchanges = made ++ s.journal.exchanges

namespace Session.Grown

variable {s s' s'' : Session σ φ κ} {made made' : List (Exchange φ)}

theorem refl (s : Session σ φ κ) : s.Grown s [] := ⟨rfl, rfl, rfl⟩

theorem trans (h : s.Grown s' made) (h' : s'.Grown s'' made') :
    s.Grown s'' (made' ++ made) := by
  refine ⟨h'.config.trans h.config, h'.capacity.trans h.capacity, ?_⟩
  rw [h'.exchanges, h.exchanges, List.append_assoc]

/-- What was made in between can be told from where it began and ended. -/
theorem unique (h : s.Grown s' made) (h' : s.Grown s' made') : made = made' :=
  List.append_cancel_right (h.exchanges.symm.trans h'.exchanges)

end Session.Grown

namespace Session

theorem perform_bind (s : Session σ φ κ) (step : Step σ φ κ α) (next : α → Step σ φ κ β) :
    s.perform (step >>= next) = match s.perform step with
      | (.ok a, s') => s'.perform (next a)
      | (.error e, s') => (.error e, s') := by
  unfold perform
  rw [Step.bind_apply]
  cases step s <;> rfl

theorem perform_bind_of_ok {s s' : Session σ φ κ} {step : Step σ φ κ α}
    {next : α → Step σ φ κ β} {a : α} (h : s.perform step = (.ok a, s')) :
    s.perform (step >>= next) = s'.perform (next a) := by
  rw [perform_bind, h]

theorem perform_bind_error {s s' : Session σ φ κ} {step : Step σ φ κ α}
    {next : α → Step σ φ κ β} {e : Error φ} (h : s.perform step = (.error e, s')) :
    s.perform (step >>= next) = (.error e, s') := by
  rw [perform_bind, h]

/-! A step that succeeds went through each of its parts: these take the parts off one
by one. -/

theorem perform_bind_ok {s s'' : Session σ φ κ} {step : Step σ φ κ α}
    {next : α → Step σ φ κ β} {b : β} (h : s.perform (step >>= next) = (.ok b, s'')) :
    ∃ a s', s.perform step = (.ok a, s') ∧ s'.perform (next a) = (.ok b, s'') := by
  rw [perform_bind] at h
  split at h
  · next a s' hstep => exact ⟨a, s', hstep, h⟩
  · next e s' hstep => cases h

theorem perform_ofExcept_ok {s s' : Session σ φ κ} {result : Except (Error φ) α}
    {next : α → Step σ φ κ β} {b : β}
    (h : s.perform (Step.ofExcept result >>= next) = (.ok b, s')) :
    ∃ a, result = .ok a ∧ s.perform (next a) = (.ok b, s') := by
  cases result with
  | error e => cases h
  | ok a => exact ⟨a, rfl, h⟩

theorem perform_understand_ok {s s' : Session σ φ κ} {result : Except ReplyError α}
    {next : α → Step σ φ κ β} {b : β}
    (h : s.perform (Step.understand result >>= next) = (.ok b, s')) :
    ∃ a, result = .ok a ∧ s.perform (next a) = (.ok b, s') := by
  cases result with
  | error e => cases h
  | ok a => exact ⟨a, rfl, h⟩

theorem perform_inRange_ok {s s' : Session σ φ κ} {result : Except OutOfRange α}
    {next : α → Step σ φ κ β} {b : β}
    (h : s.perform (Step.inRange result >>= next) = (.ok b, s')) :
    ∃ a, result = .ok a ∧ s.perform (next a) = (.ok b, s') := by
  cases result with
  | error e => cases h
  | ok a => exact ⟨a, rfl, h⟩

theorem perform_ensured {s s' : Session σ φ κ} {e : Error φ} {condition : Bool}
    (h : s.perform (Step.ensure e condition) = (.ok (), s')) : condition = true := by
  cases condition with
  | false => cases h
  | true => rfl

theorem perform_ensure_ok {s s' : Session σ φ κ} {e : Error φ} {condition : Bool}
    {next : Unit → Step σ φ κ β} {b : β}
    (h : s.perform (Step.ensure e condition >>= next) = (.ok b, s')) :
    condition = true ∧ s.perform (next ()) = (.ok b, s') := by
  cases condition with
  | false => cases h
  | true => exact ⟨rfl, h⟩

end Session

namespace Step

/-- How a step ends when it is carried out from `s`. -/
def Ends (step : Step σ φ κ α) (s : Session σ φ κ)
    (P : List (Exchange φ) → Except (Error φ) α → Session σ φ κ → Prop) : Prop :=
  ∃ made, s.Grown (s.perform step).2 made ∧
    P made (s.perform step).1 (s.perform step).2

section

variable {s : Session σ φ κ}
  {P Q : List (Exchange φ) → Except (Error φ) α → Session σ φ κ → Prop}

theorem Ends.mono {step : Step σ φ κ α} (h : Ends step s P)
    (hpost : ∀ made r s', s.Grown s' made → P made r s' → Q made r s') :
    Ends step s Q := by
  obtain ⟨made, hg, hp⟩ := h
  exact ⟨made, hg, hpost _ _ _ hg hp⟩

/-- Two facts about one run are about the same transactions. -/
theorem Ends.and {step : Step σ φ κ α} (h : Ends step s P) (h' : Ends step s Q) :
    Ends step s fun made r s' => P made r s' ∧ Q made r s' := by
  obtain ⟨made, hg, hp⟩ := h
  obtain ⟨made', hg', hp'⟩ := h'
  obtain rfl := hg.unique hg'
  exact ⟨made, hg, hp, hp'⟩

theorem Ends.result {step : Step σ φ κ α} (h : Ends step s P) :
    Ends step s fun made r s' => P made r s' ∧ (s.perform step).1 = r := by
  obtain ⟨made, hg, hp⟩ := h
  exact ⟨made, hg, hp, rfl⟩

/-- A step followed by another ends with the failure of the first, or as the second
does from where the first left off. -/
theorem Ends.bind {step : Step σ φ κ α} {next : α → Step σ φ κ β}
    {Q : List (Exchange φ) → Except (Error φ) β → Session σ φ κ → Prop}
    (h : Ends step s P)
    (herror : ∀ made e s', s.Grown s' made → P made (.error e) s' →
      Q made (.error e) s')
    (hok : ∀ made a s', s.Grown s' made → P made (.ok a) s' →
      Ends (next a) s' fun made' r s'' => Q (made' ++ made) r s'') :
    Ends (step >>= next) s Q := by
  obtain ⟨made, hg, hp⟩ := h
  unfold Ends
  rw [Session.perform_bind]
  cases hr : s.perform step with
  | mk r s' =>
      rw [hr] at hg hp
      cases r with
      | error e => exact ⟨made, hg, herror _ _ _ hg hp⟩
      | ok a =>
          obtain ⟨made', hg', hp'⟩ := hok _ _ _ hg hp
          exact ⟨made' ++ made, hg.trans hg', hp'⟩

/-- A part that succeeds without a transaction may be left out. -/
theorem Ends.bind_of_ok {step : Step σ φ κ α} {next : α → Step σ φ κ β}
    {s' : Session σ φ κ} {a : α}
    {Q : List (Exchange φ) → Except (Error φ) β → Session σ φ κ → Prop}
    (hstep : s.perform step = (.ok a, s')) (hg : s.Grown s' []) (h : Ends (next a) s' Q) :
    Ends (step >>= next) s Q := by
  obtain ⟨made, hg', hQ⟩ := h
  unfold Ends
  rw [Session.perform_bind, hstep]
  exact ⟨made, by simpa using hg.trans hg', hQ⟩

theorem ends_pure {a : α} (h : P [] (.ok a) s) : Ends (pure a) s P :=
  ⟨[], .refl s, h⟩

theorem ends_throw {e : Error φ} (h : P [] (.error e) s) :
    Ends (throw e : Step σ φ κ α) s P :=
  ⟨[], .refl s, h⟩

theorem ends_ofExcept {result : Except (Error φ) α} (h : P [] result s) :
    Ends (ofExcept result) s P := by
  cases result with
  | ok a => exact ends_pure h
  | error e => exact ends_throw h

/-- A check that is made without asking the instrument ends the step, or finds what
goes on. -/
theorem Ends.ofExcept_bind {result : Except (Error φ) α} {next : α → Step σ φ κ β}
    {Q : List (Exchange φ) → Except (Error φ) β → Session σ φ κ → Prop}
    (herror : ∀ e, result = .error e → Q [] (.error e) s)
    (hok : ∀ a, result = .ok a → Ends (next a) s Q) :
    Ends (ofExcept result >>= next) s Q := by
  cases result with
  | ok a => exact hok a rfl
  | error e => exact ends_throw (herror e rfl)

theorem Ends.ensure_bind {e : Error φ} {condition : Bool} {next : Unit → Step σ φ κ β}
    {Q : List (Exchange φ) → Except (Error φ) β → Session σ φ κ → Prop}
    (herror : Q [] (.error e) s) (hok : condition = true → Ends (next ()) s Q) :
    Ends (ensure e condition >>= next) s Q := by
  cases condition with
  | true => exact hok rfl
  | false => exact ends_throw herror

theorem Ends.inRange_bind {result : Except OutOfRange α} {next : α → Step σ φ κ β}
    {Q : List (Exchange φ) → Except (Error φ) β → Session σ φ κ → Prop}
    (herror : ∀ cause, Q [] (.error (.outOfRange cause)) s)
    (hok : ∀ a, result = .ok a → Ends (next a) s Q) : Ends (inRange result >>= next) s Q := by
  cases result with
  | ok a => exact hok a rfl
  | error e => exact ends_throw (herror _)

theorem Ends.range_bind {next : VoltageRange → Step σ φ κ β}
    {Q : List (Exchange φ) → Except (Error φ) β → Session σ φ κ → Prop}
    (h : Ends (next s.config.range) s Q) : Ends (range >>= next) s Q := by
  obtain ⟨made, hg, hQ⟩ := h
  exact ⟨made, hg, hQ⟩

theorem Ends.channelState_bind {channel : Channel} {next : ChannelState → Step σ φ κ β}
    {Q : List (Exchange φ) → Except (Error φ) β → Session σ φ κ → Prop}
    (h : Ends (next (s.host.channelState channel)) s Q) :
    Ends (channelState channel >>= next) s Q := by
  obtain ⟨made, hg, hQ⟩ := h
  exact ⟨made, hg, hQ⟩

theorem ends_get {P : List (Exchange φ) → Except (Error φ) (Session σ φ κ) →
    Session σ φ κ → Prop} (h : P [] (.ok s) s) : Ends get s P :=
  ⟨[], .refl s, h⟩

end

/-- What every item of a row keeps the row keeps, and what each of them sends it sends. -/
theorem ends_forM {step : β → Step σ φ κ PUnit} {I : Session σ φ κ → Prop}
    {J : Exchange φ → Prop} {items : List β}
    (hstep : ∀ item ∈ items, ∀ s, I s → Ends (step item) s
      fun made _ s' => I s' ∧ ∀ e ∈ made, J e) (s : Session σ φ κ) (hs : I s) :
    Ends (items.forM step) s fun made _ s' => I s' ∧ ∀ e ∈ made, J e := by
  induction items generalizing s with
  | nil => exact ends_pure ⟨hs, nofun⟩
  | cons item items ih =>
      refine (hstep item List.mem_cons_self s hs).bind (fun _ _ _ _ h => h) ?_
      intro made _ s' _ hends
      obtain ⟨hs', hmade⟩ := hends
      have hrest := ih (fun item hitem => hstep item (List.mem_cons_of_mem _ hitem)) s' hs'
      refine hrest.mono fun made' r s'' _ hends => ?_
      obtain ⟨hs'', hmade'⟩ := hends
      exact ⟨hs'', List.forall_mem_append.mpr ⟨hmade', hmade⟩⟩

/-- The step leaves the link alone, and so makes no transaction. -/
def Silent (step : Step σ φ κ α) : Prop :=
  ∀ s, Ends step s fun made _ s' => made = [] ∧ s'.link = s.link

theorem Silent.bind {step : Step σ φ κ α} {next : α → Step σ φ κ β} (h : Silent step)
    (hnext : ∀ a, Silent (next a)) : Silent (step >>= next) := by
  intro s
  refine (h s).bind (fun _ _ _ _ hmade => hmade) ?_
  intro made a s' _ hends
  obtain ⟨rfl, hlink⟩ := hends
  refine (hnext a s').mono ?_
  intro made' r s'' _ hends
  obtain ⟨rfl, hlink'⟩ := hends
  exact ⟨rfl, hlink'.trans hlink⟩

theorem silent_pure (a : α) : Silent (pure a : Step σ φ κ α) :=
  fun _ => ends_pure ⟨rfl, rfl⟩

theorem silent_throw (e : Error φ) : Silent (throw e : Step σ φ κ α) :=
  fun _ => ends_throw ⟨rfl, rfl⟩

theorem silent_get : Silent (get : Step σ φ κ (Session σ φ κ)) :=
  fun _ => ends_get ⟨rfl, rfl⟩

theorem silent_ofExcept (result : Except (Error φ) α) :
    Silent (ofExcept result : Step σ φ κ α) :=
  fun _ => ends_ofExcept ⟨rfl, rfl⟩

theorem silent_understand (result : Except ReplyError α) :
    Silent (understand result : Step σ φ κ α) := silent_ofExcept _

theorem silent_inRange (result : Except OutOfRange α) :
    Silent (inRange result : Step σ φ κ α) := silent_ofExcept _

theorem silent_require (e : Error φ) (a? : Option α) :
    Silent (require e a? : Step σ φ κ α) := silent_ofExcept _

theorem silent_ensure (e : Error φ) (condition : Bool) :
    Silent (ensure e condition : Step σ φ κ Unit) := silent_ofExcept _

theorem silent_range : Silent (range : Step σ φ κ VoltageRange) :=
  silent_get.bind fun _ => silent_pure _

theorem silent_host : Silent (host : Step σ φ κ HostState) :=
  silent_get.bind fun _ => silent_pure _

theorem silent_channelState (channel : Channel) :
    Silent (channelState channel : Step σ φ κ ChannelState) :=
  silent_host.bind fun _ => silent_pure _

theorem silent_powerOnAddress (channel : Channel) :
    Silent (powerOnAddress channel : Step σ φ κ UInt32) :=
  (silent_channelState _).bind fun _ => silent_require _ _

theorem silent_modifyHost (change : HostState → HostState) :
    Silent (modifyHost change : Step σ φ κ Unit) :=
  fun _ => ⟨[], ⟨rfl, rfl, rfl⟩, rfl, rfl⟩

theorem silent_setRampOnSet [Link σ φ] (channel : Channel) (enable : Bool) :
    Silent (setRampOnSet channel enable : Step σ φ κ Unit) :=
  fun _ => ⟨[], ⟨rfl, rfl, rfl⟩, rfl, rfl⟩

theorem silent_exposePowerOn [Link σ φ] (channel : Channel) :
    Silent (exposePowerOn channel : Step σ φ κ UInt32) :=
  fun _ => ⟨[], ⟨rfl, rfl, rfl⟩, rfl, rfl⟩

theorem silent_setMotion (channel : Channel) (motion : Motion) :
    Silent (setMotion channel motion : Step σ φ κ Unit) :=
  fun _ => ⟨[], ⟨rfl, rfl, rfl⟩, rfl, rfl⟩

/-- A note that is no transaction leaves the transactions alone. -/
theorem silent_note {entry : Note φ} (h : ∀ e, entry ≠ .exchange e) :
    Silent (note entry : Step σ φ κ Unit) := by
  intro s
  refine ⟨[], ⟨rfl, rfl, ?_⟩, rfl, rfl⟩
  cases entry with
  | exchange e => exact absurd rfl (h e)
  | _ => rfl

theorem silent_now [Clock κ] : Silent (now : Step σ φ κ Instant) :=
  fun _ => ⟨[], ⟨rfl, rfl, rfl⟩, rfl, rfl⟩

theorem silent_startWait [Clock κ] : Silent (startWait : Step σ φ κ Wait) :=
  fun _ => ⟨[], ⟨rfl, rfl, rfl⟩, rfl, rfl⟩

/-- A step that is tried makes the transactions it makes otherwise. -/
theorem Ends.attempt {step : Step σ φ κ α} {s : Session σ φ κ}
    {P : List (Exchange φ) → Except (Error φ) α → Session σ φ κ → Prop}
    (h : Ends step s P) :
    Ends (attempt step) s fun made r s' => ∃ r', r = .ok r' ∧ P made r' s' := by
  obtain ⟨made, hg, hp⟩ := h
  have hr : s.perform (Step.attempt step) =
      (.ok (s.perform step).1, (s.perform step).2) := by
    unfold Session.perform Step.attempt
    cases step s <;> rfl
  refine ⟨made, ?_, (s.perform step).1, ?_, ?_⟩
  · rw [hr]; exact hg
  · rw [hr]
  · rw [hr]; exact hp

variable [Link σ φ]

theorem silent_tick [Clock κ] (wait : Wait) : Silent (tick wait : Step σ φ κ Unit) := by
  intro s
  unfold Ends Session.perform tick
  cases wait.tick (Link.stopRequested s.link) s.clock with
  | mk interruption? clock =>
      cases interruption? <;> exact ⟨[], ⟨rfl, rfl, rfl⟩, rfl, rfl⟩

/-- An exchange is one transaction, which is to ask the link, and ends as that did. -/
theorem ends_exchange_ask {target : Target} {request : Request} {s : Session σ φ κ}
    {P : List (Exchange φ) → Except (Error φ) String → Session σ φ κ → Prop}
    (h : ∀ outcome s', s.Grown s' [⟨target, request, outcome⟩] →
      Line.ask s.capacity s.config.terminator request.wire s.link = (outcome, s'.link) →
      P [⟨target, request, outcome⟩] outcome s') :
    Ends (exchange target request) s P := by
  unfold Ends Session.perform Step.exchange
  cases hask : Line.ask s.capacity s.config.terminator request.wire s.link with
  | mk outcome link =>
      cases outcome <;> exact ⟨_, ⟨rfl, rfl, rfl⟩, h _ _ ⟨rfl, rfl, rfl⟩ hask⟩

theorem ends_exchange {target : Target} {request : Request} {s : Session σ φ κ}
    {P : List (Exchange φ) → Except (Error φ) String → Session σ φ κ → Prop}
    (h : ∀ outcome s', s.Grown s' [⟨target, request, outcome⟩] →
      P [⟨target, request, outcome⟩] outcome s') :
    Ends (exchange target request) s P :=
  ends_exchange_ask fun outcome s' hg _ => h outcome s' hg

/-- Commands go out as one transaction, which is to ask the link, unless they do not
fit. -/
theorem ends_transact_ask {target : Target} {commands : List Command} {s : Session σ φ κ}
    {P : List (Exchange φ) → Except (Error φ) String → Session σ φ κ → Prop}
    (hlong : s.capacity < (commands.flatMap Command.wire).length → P [] (.error .tooLong) s)
    (h : ∀ outcome s', (commands.flatMap Command.wire).length ≤ s.capacity →
      s.Grown s' [⟨target, .commands commands, outcome⟩] →
      Line.ask s.capacity s.config.terminator (Request.commands commands).wire s.link =
        (outcome, s'.link) →
      P [⟨target, .commands commands, outcome⟩] outcome s') :
    Ends (transact target commands) s P := by
  unfold transact
  refine Ends.bind (P := fun made r s' => made = [] ∧ r = .ok s ∧ s = s')
    (ends_get ⟨rfl, rfl, rfl⟩) (fun _ _ _ _ hget => nomatch hget.2.1) ?_
  intro made r s' _ hends
  obtain ⟨rfl, hget, rfl⟩ := hends
  cases hget
  unfold Command.encode Command.within
  split
  · next hfits =>
      change Ends (exchange target (.commands commands)) s _
      refine ends_exchange_ask fun outcome s' hg hask => ?_
      rw [List.append_nil]
      exact h outcome s' hfits hg hask
  · next hfits => exact ⟨[], .refl s, hlong (Nat.lt_of_not_le hfits)⟩

theorem ends_transact {target : Target} {commands : List Command} {s : Session σ φ κ}
    {P : List (Exchange φ) → Except (Error φ) String → Session σ φ κ → Prop}
    (hlong : P [] (.error .tooLong) s)
    (h : ∀ outcome s', s.Grown s' [⟨target, .commands commands, outcome⟩] →
      P [⟨target, .commands commands, outcome⟩] outcome s') :
    Ends (transact target commands) s P :=
  ends_transact_ask (fun _ => hlong) fun outcome s' _ hg _ => h outcome s' hg

theorem perform_repeatUntil (round : Step σ φ κ Bool) (draws : Draws 1 round)
    (s : Session σ φ κ) :
    s.perform (repeatUntil round draws) = match s.perform round with
      | (.ok true, s') => (.ok (), s')
      | (.ok false, s') => s'.perform (repeatUntil round draws)
      | (.error e, s') => (.error e, s') := by
  unfold Session.perform
  rw [repeatUntil]
  cases round s with
  | error e s' => rfl
  | ok last s' => cases last <;> rfl

/-- What holds of the last round, and of a wait if it holds of what is left after a round, holds
of the whole wait. -/
theorem perform_repeatUntil_of_rounds {round : Step σ φ κ Bool} {draws : Draws 1 round}
    {R : Session σ φ κ → Except (Error φ) Unit × Session σ φ κ → Prop}
    (hlast : ∀ s r s', s.perform round = (r, s') → r ≠ .ok false → R s (r.map fun _ => (), s'))
    (hmore : ∀ s s' outcome, s.perform round = (.ok false, s') → R s' outcome → R s outcome)
    (s : Session σ φ κ) : R s (s.perform (repeatUntil round draws)) := by
  induction s using repeatUntil.induct round draws with
  | case1 s e s' hs =>
      have hround : s.perform round = (.error e, s') := by rw [Session.perform, hs]
      rw [perform_repeatUntil, hround]
      exact hlast s _ s' hround nofun
  | case2 s s' hs =>
      have hround : s.perform round = (.ok true, s') := by rw [Session.perform, hs]
      rw [perform_repeatUntil, hround]
      exact hlast s _ s' hround nofun
  | case3 s s' hs ih =>
      have hround : s.perform round = (.ok false, s') := by rw [Session.perform, hs]
      rw [perform_repeatUntil, hround]
      exact hmore s s' _ hround ih

/-- A transaction and a check of its reply that makes none. Where it succeeds, the
reply came and passed the check. -/
theorem ends_checked {target : Target} {commands : List Command}
    {check : String → Step σ φ κ α} (hsilent : ∀ reply, Silent (check reply))
    (s : Session σ φ κ) :
    Ends (transact target commands >>= check) s fun made r s' =>
      (made = [] ∧ ∃ e, r = .error e) ∨
        ∃ outcome : Except (Error φ) String,
          made = [⟨target, .commands commands, outcome⟩] ∧
          ∀ a, r = .ok a → ∃ (reply : String) (s₁ : Session σ φ κ),
            outcome = .ok reply ∧ s₁.perform (check reply) = (.ok a, s') := by
  refine Ends.bind (P := fun made (r : Except (Error φ) String) _ =>
    (made = [] ∧ ∃ e, r = .error e) ∨ made = [⟨target, .commands commands, r⟩]) ?_ ?_ ?_
  · exact ends_transact (.inl ⟨rfl, _, rfl⟩) fun _ _ _ => .inr rfl
  · intro made e s' _ hends
    rcases hends with ⟨rfl, -⟩ | rfl
    · exact .inl ⟨rfl, e, rfl⟩
    · exact .inr ⟨_, rfl, fun a ha => nomatch ha⟩
  · intro made reply s' _ hends
    rcases hends with ⟨-, e, he⟩ | rfl
    · cases he
    · obtain ⟨made', hg', rfl, -⟩ := hsilent reply s'
      refine ⟨[], hg', .inr ⟨.ok reply, rfl, fun a ha => ?_⟩⟩
      exact ⟨reply, s', rfl, Prod.ext ha rfl⟩

/-- A wait is its rounds one after the other, so a fact that the last round and a
failed one end with, and that a round before keeps, holds of the whole of it. -/
theorem ends_repeatUntil {round : Step σ φ κ Bool} {draws : Draws 1 round}
    {P : Session σ φ κ → List (Exchange φ) → Except (Error φ) Bool → Session σ φ κ → Prop}
    {Q : Session σ φ κ → List (Exchange φ) → Except (Error φ) Unit → Session σ φ κ → Prop}
    (hround : ∀ s, Ends round s (P s))
    (herror : ∀ s made e s', P s made (.error e) s' → Q s made (.error e) s')
    (hlast : ∀ s made s', P s made (.ok true) s' → Q s made (.ok ()) s')
    (hmore : ∀ s made s' made' r s'', s.Grown s' made → P s made (.ok false) s' →
      Q s' made' r s'' → Q s (made' ++ made) r s'') (s : Session σ φ κ) :
    Ends (repeatUntil round draws) s (Q s) := by
  refine perform_repeatUntil_of_rounds
    (R := fun s outcome => ∃ made, s.Grown outcome.2 made ∧ Q s made outcome.1 outcome.2)
    (fun s r s' hs hfinal => ?_) (fun s s' outcome hs hlater => ?_) s
  · obtain ⟨made, hg, hP⟩ := hround s
    rw [hs] at hg hP
    rcases r with e | (_ | _)
    · exact ⟨made, hg, herror _ _ _ _ hP⟩
    · exact absurd rfl hfinal
    · exact ⟨made, hg, hlast _ _ _ hP⟩
  · obtain ⟨made, hg, hP⟩ := hround s
    obtain ⟨made', hg', hQ⟩ := hlater
    rw [hs] at hg hP
    exact ⟨made' ++ made, hg.trans hg', hmore _ _ _ _ _ _ hg hP hQ⟩

end Step

/-- A fact about a run is one about no call at all and about every single one, if it
carries over to two runs in a row. -/
theorem ends_performAll [Link σ φ] [Clock κ]
    {R : Session σ φ κ → List (Exchange φ) → Session σ φ κ → Prop}
    (hnil : ∀ s, R s [] s)
    (hcall : ∀ s (call : Call), Step.Ends call.run s fun made _ s' => R s made s')
    (happend : ∀ {s s' s'' made made'}, s.Grown s' made → R s made s' → R s' made' s'' →
      R s (made' ++ made) s'') (calls : List Call) (s : Session σ φ κ) :
    ∃ made, s.Grown (s.performAll calls) made ∧ R s made (s.performAll calls) := by
  induction calls generalizing s with
  | nil => exact ⟨[], .refl s, hnil s⟩
  | cons call calls ih =>
      obtain ⟨made, hg, hR⟩ := hcall s call
      obtain ⟨made', hg', hR'⟩ := ih (s.perform call.run).2
      exact ⟨made' ++ made, hg.trans hg', happend hg hR hR'⟩

/-- Where the call and the connection it is made on decide whether a transaction of a kind
is made, a run makes one just where one of its calls does. -/
theorem exists_performAll_iff [Link σ φ] [Clock κ] {kind : Exchange φ → Prop}
    {makes : Session σ φ κ → Call → Prop}
    (hcall : ∀ s (call : Call),
      Step.Ends call.run s fun made _ _ => (∃ e ∈ made, kind e) ↔ makes s call)
    (calls : List Call) (s : Session σ φ κ) :
    ∃ made, s.Grown (s.performAll calls) made ∧ ((∃ e ∈ made, kind e) ↔
      ∃ before call after, calls = before ++ call :: after ∧
        makes (s.performAll before) call) := by
  induction calls generalizing s with
  | nil =>
      refine ⟨[], .refl s, ?_⟩
      simp
  | cons first calls ih =>
      obtain ⟨made, hg, hfirst⟩ := hcall s first
      obtain ⟨made', hg', hrest⟩ := ih (s.perform first.run).2
      refine ⟨made' ++ made, hg.trans hg', ?_⟩
      constructor
      · rintro ⟨e, he, hkind⟩
        rcases List.mem_append.mp he with he | he
        · obtain ⟨before, call, after, rfl, hmakes⟩ := hrest.mp ⟨e, he, hkind⟩
          exact ⟨first :: before, call, after, rfl, hmakes⟩
        · exact ⟨[], first, calls, rfl, hfirst.mp ⟨e, he, hkind⟩⟩
      · rintro ⟨before, call, after, hcalls, hmakes⟩
        cases before with
        | nil =>
            cases hcalls
            obtain ⟨e, he, hkind⟩ := hfirst.mpr hmakes
            exact ⟨e, List.mem_append_right _ he, hkind⟩
        | cons other before =>
            cases hcalls
            obtain ⟨e, he, hkind⟩ := hrest.mpr ⟨before, call, after, rfl, hmakes⟩
            exact ⟨e, List.mem_append_left _ he, hkind⟩

end DacRack
