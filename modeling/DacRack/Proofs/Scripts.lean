import DacRack.Proofs.Addressing
import DacRack.Proofs.Ramps
import DacRack.Proofs.Replies

/-!
# Steps that keep to a script

Reading a setting and commanding a channel send the same requests every time, one after the
other, and each only once the one before it was answered as it should be. `Follows` says so of a
step: what it sent is the beginning of its script, all of it but the latest was granted, and it
succeeds just where it sent all of it and all was granted. Scripts are joined as steps are
(`Follows.bind`), and a transaction with a check follows a script of one request
(`follows_checked`).

What grants a transaction depends on what it was for (`Exchange.Granted`).
-/

namespace DacRack

variable {σ φ κ α β : Type}

/-- The requests of transactions, in the order in which they were sent. -/
def sent (made : List (Exchange φ)) : List Request :=
  (made.map Exchange.request).reverse

@[simp]
theorem sent_append (later earlier : List (Exchange φ)) :
    sent (later ++ earlier) = sent earlier ++ sent later := by
  rw [sent, List.map_append, List.reverse_append]
  rfl

@[simp]
theorem length_sent (made : List (Exchange φ)) : (sent made).length = made.length := by
  rw [sent, List.length_reverse, List.length_map]

/-- The request that selects a channel. -/
def Channel.selection (channel : Channel) : Request :=
  .commands [.selectSlot (UInt8.ofNat channel.slot), .selectChannel (UInt8.ofNat channel.place)]

/-- The requests that read words of main memory from an address on. -/
def wordRequests : Nat → UInt32 → List Request
  | 0, _ => []
  | words + 1, address =>
    [.commands [.moveCursor address], .commands [.readMemory]] ++ wordRequests words (address + 1)

/-- The requests that read a setting of a channel. -/
def Setting.requests (setting : Setting) (channel : Channel) : List Request :=
  wordRequests setting.words (UInt32.ofNat (setting.address channel))

/-- A transaction was answered as it should be: a channel or the cursor is selected, a word came,
or what was sent to the channel was accepted. -/
inductive Exchange.Granted (channel : Channel) (e : Exchange φ) : Prop
  | selected (h : e.ConfirmsChannel channel)
  | moved {address : UInt32} (h : e.ConfirmsCursor address)
  | read {reply : String} {word : UInt32} (hrequest : e.request = .commands [.readMemory])
      (houtcome : e.outcome = .ok reply) (hword : Reply.word reply.toList = .ok word)
  | accepted (htarget : e.target = .channel channel) (h : Accepted e.outcome)

/-- A reply that carries a number carries something. -/
theorem accepted_of_number {outcome : Except (Error φ) String} {reply : String} {n : Int}
    (houtcome : outcome = .ok reply) (h : Reply.number reply.toList = .ok n) :
    Accepted outcome := by
  unfold Reply.number at h
  cases hpayload : Reply.payload reply.toList with
  | error cause =>
      rw [hpayload] at h
      cases h
  | ok payload => exact ⟨reply, payload, houtcome, hpayload⟩

theorem accepted_of_word {outcome : Except (Error φ) String} {reply : String} {word : UInt32}
    (houtcome : outcome = .ok reply) (h : Reply.word reply.toList = .ok word) :
    Accepted outcome := by
  cases hnumber : Reply.number reply.toList with
  | error cause => cases (Reply.word_of_error hnumber).symm.trans h
  | ok n => exact accepted_of_number houtcome hnumber

theorem Exchange.Granted.accepted_of_command {channel : Channel} {command : Command}
    {e : Exchange φ} (h : e.Granted channel) (hrequest : e.request = .commands [command]) :
    Accepted e.outcome := by
  cases h with
  | selected h =>
      rw [h.1] at hrequest
      cases hrequest
  | moved h =>
      obtain ⟨-, reply, houtcome, hnumber⟩ := h
      exact accepted_of_number houtcome hnumber
  | read _ houtcome hword => exact accepted_of_word houtcome hword
  | accepted _ h => exact h

/-- The transactions are the beginning of a script, all but the latest were granted, and it
went well just where they are all of it and all were granted. -/
structure Followed (granted : Exchange φ → Prop) (script : List Request)
    (made : List (Exchange φ)) (ok : Bool) : Prop where
  begins : sent made <+: script
  all_but_last : ∀ e ∈ made.tail, granted e
  ok_iff : ok = true ↔ sent made = script ∧ ∀ e ∈ made, granted e

namespace Followed

variable {granted : Exchange φ → Prop} {script script' : List Request}
  {made later earlier : List (Exchange φ)} {ok : Bool}

theorem nil (granted : Exchange φ → Prop) : Followed granted [] ([] : List (Exchange φ)) true :=
  ⟨List.nil_prefix, nofun, iff_of_true rfl ⟨rfl, nofun⟩⟩

/-- A script that was not begun. -/
theorem unsent (hne : script ≠ []) : Followed granted script ([] : List (Exchange φ)) false :=
  ⟨List.nil_prefix, nofun, iff_of_false nofun fun h => hne h.1.symm⟩

/-- What broke off stays where it was, however the script goes on. -/
theorem broken (h : Followed granted script made false) (script' : List Request) :
    Followed granted (script ++ script') made false := by
  refine ⟨h.begins.trans (List.prefix_append _ _), h.all_but_last, iff_of_false nofun ?_⟩
  rintro ⟨hsent, hall⟩
  have hlength := h.begins.length_le
  rw [hsent, List.length_append] at hlength
  obtain rfl := List.length_eq_zero_iff.mp (show script'.length = 0 by omega)
  rw [List.append_nil] at hsent
  cases h.ok_iff.mpr ⟨hsent, hall⟩

theorem append (h : Followed granted script earlier true)
    (h' : Followed granted script' later ok) :
    Followed granted (script ++ script') (later ++ earlier) ok := by
  obtain ⟨hsent, hall⟩ := h.ok_iff.mp rfl
  constructor
  · rw [sent_append, hsent]
    exact (List.prefix_append_right_inj script).mpr h'.begins
  · cases later with
    | nil => exact fun e he => hall e (List.mem_of_mem_tail he)
    | cons e later => exact List.forall_mem_append.mpr ⟨h'.all_but_last, hall⟩
  · rw [h'.ok_iff, sent_append, hsent, List.append_cancel_left_eq, List.forall_mem_append]
    exact and_congr_right fun _ => (and_iff_left hall).symm

end Followed

namespace Step

/-- The step keeps to a script, whatever it meets with. -/
def Follows (granted : Exchange φ → Prop) (script : List Request) (step : Step σ φ κ α) : Prop :=
  ∀ s, Ends step s fun made r _ => Followed granted script made r.isOk

variable {granted : Exchange φ → Prop} {script script' : List Request}

theorem Follows.bind {step : Step σ φ κ α} {next : α → Step σ φ κ β}
    (h : Follows granted script step) (hnext : ∀ a, Follows granted script' (next a)) :
    Follows granted (script ++ script') (step >>= next) := by
  intro s
  refine (h s).bind (fun _ _ _ _ hmade => hmade.broken script') fun made a s' _ hmade => ?_
  exact (hnext a s').mono fun made' _ _ _ hmade' => hmade.append hmade'

theorem follows_pure (a : α) : Follows granted [] (pure a : Step σ φ κ α) :=
  fun _ => ends_pure (.nil granted)

/-- What makes no transaction and cannot fail adds nothing to a script. -/
theorem Follows.then_silent {step : Step σ φ κ α} {next : α → Step σ φ κ β}
    (h : Follows granted script step) (hnext : ∀ a, Follows granted [] (next a)) :
    Follows granted script (step >>= next) := by
  have hbind := h.bind hnext
  rwa [List.append_nil] at hbind

theorem follows_range : Follows granted [] (range : Step σ φ κ VoltageRange) :=
  fun _ => ⟨[], ⟨rfl, rfl, rfl⟩, .nil granted⟩

theorem follows_note {entry : Note φ} (h : ∀ e, entry ≠ .exchange e) :
    Follows granted [] (note entry : Step σ φ κ Unit) := by
  intro s
  obtain ⟨made, hg, rfl, -⟩ := silent_note h s
  exact ⟨[], hg, .nil granted⟩

variable [Link σ φ]

/-- A transaction is a script of one request where the check that follows it makes none and
lets pass just what is granted. -/
theorem follows_checked {target : Target} {commands : List Command} {check : String → Step σ φ κ α}
    (herror : ∀ e, ¬ granted ⟨target, .commands commands, .error e⟩)
    (hcheck : ∀ reply s, (commands.flatMap Command.wire).length ≤ s.capacity →
      Ends (check reply) s fun made r _ => made = [] ∧
        (r.isOk = true ↔ granted ⟨target, .commands commands, .ok reply⟩)) :
    Follows granted [.commands commands] (transact target commands >>= check) := by
  intro s
  have hone {outcome : Except (Error φ) String} {ok : Bool}
      (h : ok = true ↔ granted ⟨target, .commands commands, outcome⟩) :
      Followed granted [.commands commands] [⟨target, .commands commands, outcome⟩] ok := by
    refine ⟨List.prefix_rfl, nofun, h.trans ?_⟩
    rw [List.forall_mem_singleton]
    exact (and_iff_right rfl).symm
  refine Ends.bind (P := fun made (r : Except (Error φ) String) s' =>
    (made = [] ∧ r.isOk = false) ∨ (made = [⟨target, .commands commands, r⟩] ∧
      (commands.flatMap Command.wire).length ≤ s'.capacity)) ?_ ?_ ?_
  · refine ends_transact_ask (fun _ => .inl ⟨rfl, rfl⟩) fun outcome s' hfits hg _ => ?_
    exact .inr ⟨rfl, hg.capacity ▸ hfits⟩
  · intro made e s' _ hends
    rcases hends with ⟨rfl, -⟩ | ⟨rfl, -⟩
    · exact .unsent (List.cons_ne_nil _ _)
    · exact hone (iff_of_false nofun (herror e))
  · intro made reply s' _ hends
    rcases hends with ⟨-, ⟨⟩⟩ | ⟨rfl, hfits⟩
    refine (hcheck reply s' hfits).mono fun made' r _ _ h => ?_
    obtain ⟨rfl, hok⟩ := h
    exact hone hok

/-! What a check lets pass. -/

omit [Link σ φ] in
theorem ends_understand_bind {result : Except ReplyError α} {next : α → Step σ φ κ β} {P : Prop}
    {s : Session σ φ κ} (herror : ∀ cause, result = .error cause → ¬ P)
    (hok : ∀ a, result = .ok a →
      Ends (next a) s fun made r _ => made = [] ∧ (r.isOk = true ↔ P)) :
    Ends (understand result >>= next) s fun made r _ => made = [] ∧ (r.isOk = true ↔ P) := by
  cases result with
  | error cause => exact ends_throw ⟨rfl, iff_of_false nofun (herror cause rfl)⟩
  | ok a => exact hok a rfl

omit [Link σ φ] in
theorem ends_ensure (e : Error φ) (condition : Bool) (s : Session σ φ κ) :
    Ends (ensure e condition) s fun made r _ =>
      made = [] ∧ (r.isOk = true ↔ condition = true) := by
  cases condition with
  | false => exact ends_throw ⟨rfl, iff_of_false nofun nofun⟩
  | true => exact ends_pure ⟨rfl, iff_of_true rfl rfl⟩

section

variable (channel : Channel)

theorem follows_moveCursor (address : UInt32) :
    Follows (Exchange.Granted channel) [.commands [.moveCursor address]]
      (moveCursor address : Step σ φ κ Unit) := by
  have hgranted (outcome : Except (Error φ) String) : Exchange.Granted channel
        ⟨.instrument, .commands [.moveCursor address], outcome⟩ ↔
      ∃ reply, outcome = .ok reply ∧ Reply.number reply.toList = .ok (address.toNat : Int) := by
    constructor
    · rintro (⟨⟨⟩, -⟩ | ⟨⟨⟩, hconfirms⟩ | ⟨⟨⟩, -, -⟩ | ⟨⟨⟩, -⟩)
      exact hconfirms
    · exact fun hconfirms => .moved ⟨rfl, hconfirms⟩
  refine follows_checked (fun e h => ?_) fun reply s _ => ends_understand_bind ?_ fun n hn => ?_
  · obtain ⟨reply, ⟨⟩, -⟩ := (hgranted _).mp h
  · rw [hgranted]
    rintro cause hcause ⟨_, ⟨⟩, hnumber⟩
    cases hcause.symm.trans hnumber
  · refine (ends_ensure _ _ s).mono fun made r _ _ h => ⟨h.1, h.2.trans ?_⟩
    rw [hgranted, beq_iff_eq]
    constructor
    · rintro rfl
      exact ⟨reply, rfl, hn⟩
    · rintro ⟨_, ⟨⟩, hnumber⟩
      exact Except.ok.inj (hn.symm.trans hnumber)

theorem follows_readCursor (address : UInt32) :
    Follows (Exchange.Granted channel) [.commands [.readMemory]]
      (readCursor .main address : Step σ φ κ UInt32) := by
  have hgranted (outcome : Except (Error φ) String) : Exchange.Granted channel
        ⟨.word .main address, .commands [.readMemory], outcome⟩ ↔
      ∃ reply word, outcome = .ok reply ∧ Reply.word reply.toList = .ok word := by
    constructor
    · rintro (⟨⟨⟩, -⟩ | ⟨⟨⟩, -⟩ | ⟨-, houtcome, hword⟩ | ⟨⟨⟩, -⟩)
      exact ⟨_, _, houtcome, hword⟩
    · rintro ⟨reply, word, houtcome, hword⟩
      exact .read rfl houtcome hword
  refine follows_checked (fun e h => ?_) fun reply s _ => ?_
  · obtain ⟨reply, word, ⟨⟩, -⟩ := (hgranted _).mp h
  · rw [hgranted]
    cases hword : Reply.word reply.toList with
    | error cause =>
        refine ends_throw ⟨rfl, iff_of_false nofun ?_⟩
        rintro ⟨_, word, ⟨⟩, h⟩
        cases hword.symm.trans h
    | ok word => exact ends_pure ⟨rfl, iff_of_true rfl ⟨reply, word, rfl, hword⟩⟩

theorem follows_selectChannel :
    Follows (Exchange.Granted channel) [channel.selection]
      (selectChannel channel : Step σ φ κ Unit) := by
  have hgranted (outcome : Except (Error φ) String) : Exchange.Granted channel
        ⟨.instrument, channel.selection, outcome⟩ ↔
      Exchange.ConfirmsChannel channel ⟨.instrument, channel.selection, outcome⟩ := by
    constructor
    · rintro (hconfirms | ⟨⟨⟩, -⟩ | ⟨⟨⟩, -, -⟩ | ⟨⟨⟩, -⟩)
      exact hconfirms
    · exact .selected
  refine follows_checked (fun e h => ?_) fun reply s hfits => ?_
  · obtain ⟨-, reply, ⟨⟩, -⟩ := (hgranted _).mp h
  have hget : s.perform get = (.ok s, s) := rfl
  refine Ends.bind_of_ok hget (.refl s) (Ends.ofExcept_bind (fun e he => ?_) fun echo hecho => ?_)
  · rw [Command.length_flatMap_wire] at hfits
    unfold Command.encodeEcho Command.within at he
    rw [if_pos hfits] at he
    cases he
  · cases hsame : Text.trim reply.toList == echo.toList with
    | false =>
        refine ends_throw ⟨rfl, iff_of_false nofun fun h => ?_⟩
        obtain ⟨-, _, ⟨⟩, htext⟩ := (hgranted _).mp h
        rw [htext, echo_selectChannel hecho, beq_self_eq_true] at hsame
        cases hsame
    | true =>
        refine ⟨[], ⟨rfl, rfl, rfl⟩, rfl, iff_of_true rfl (.selected ⟨rfl, reply, rfl, ?_⟩)⟩
        rw [eq_of_beq hsame, echo_selectChannel hecho]

/-- A command to a channel goes out once the channel was selected. -/
theorem follows_command (command : Command) :
    Follows (Exchange.Granted channel) [channel.selection, .commands [command]]
      (Step.command channel [command] : Step σ φ κ Unit) := by
  have hgranted (outcome : Except (Error φ) String) : Exchange.Granted channel
        ⟨.channel channel, .commands [command], outcome⟩ ↔ Accepted outcome :=
    ⟨fun h => h.accepted_of_command rfl, fun haccepted => .accepted rfl haccepted⟩
  unfold Step.command transactChannel
  rw [bind_assoc]
  show Follows _ ([channel.selection] ++ [.commands [command]]) _
  refine (follows_selectChannel channel).bind fun _ => follows_checked (fun e h => ?_) ?_
  · obtain ⟨reply, payload, ⟨⟩, -⟩ := (hgranted _).mp h
  refine fun reply s _ => ends_understand_bind ?_ fun payload hok => ?_
  · rw [hgranted]
    rintro cause hcause ⟨_, payload, ⟨⟩, hok⟩
    cases hcause.symm.trans hok
  · rw [hgranted]
    exact ends_pure ⟨rfl, iff_of_true rfl ⟨reply, payload, rfl, hok⟩⟩

theorem follows_readWords (words : Nat) (address : UInt32) (value : UInt64) :
    Follows (Exchange.Granted channel) (wordRequests words address)
      (readWords .main words address value : Step σ φ κ UInt64) := by
  induction words generalizing address value with
  | zero => exact follows_pure value
  | succ words ih =>
      exact ((follows_moveCursor channel address).bind fun _ =>
        follows_readCursor channel address).bind fun word => ih _ _

theorem readSetting_eq (setting : Setting) :
    (readSetting channel setting : Step σ φ κ UInt64) =
      readWords .main setting.words (UInt32.ofNat (setting.address channel)) 0 >>= fun value =>
        note (.wordsRead value (UInt32.ofNat (setting.address channel)) setting.words .main) >>=
          fun _ => pure value := by
  unfold readSetting
  rw [read_eq (setting.readAccepted channel), ofInt_natCast]
  rfl

theorem follows_readSetting (setting : Setting) :
    Follows (Exchange.Granted channel) (setting.requests channel)
      (readSetting channel setting : Step σ φ κ UInt64) := by
  rw [readSetting_eq]
  exact (follows_readWords channel _ _ _).then_silent fun value =>
    (follows_note (by simp)).then_silent fun _ => follows_pure value

theorem follows_volt : Follows (Exchange.Granted channel) (Setting.output.requests channel)
    (volt channel : Step σ φ κ Float) :=
  (follows_readSetting channel .output).then_silent fun _ =>
    follows_range.then_silent fun _ => follows_pure _

theorem follows_updatePeriod :
    Follows (Exchange.Granted channel) (Setting.updatePeriod.requests channel)
      (updatePeriod channel : Step σ φ κ UInt32) :=
  (follows_readSetting channel .updatePeriod).then_silent fun _ => follows_pure _

theorem follows_slope : Follows (Exchange.Granted channel) (Setting.slope.requests channel)
    (slope channel : Step σ φ κ Int64) :=
  (follows_readSetting channel .slope).then_silent fun _ => follows_pure _

end

end Step

end DacRack
