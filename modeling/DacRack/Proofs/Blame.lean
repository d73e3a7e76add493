import DacRack.Proofs.Scripts

/-!
# What a script is broken off for

A step that keeps to a script (`Follows`) breaks off where a transaction was not answered as it
should be, or where the next request is too long for the buffer. `Explains` adds what the step
says then: that its buffer is too small, or what the latest transaction is blamed for. Which
transactions are blamed for what is up to the script, as it is which of them are granted, and a
check has to be right about both (`Weighed`).

Like scripts, explanations are joined as steps are (`Explains.bind`), also over the items of a
list (`Explains.forM`). Whatever is read of a reply and compared with what was expected is blamed
for the same three things: there was no reply, it cannot be read, or something else is read of it
(`Mistaken`). The selection of a slot, a move of the cursor and the reading back of a word are all
checked like that (`Step.explains_expected`).
-/

namespace DacRack

variable {σ φ κ α β ι : Type}

/-- What a script was broken off for: the latest transaction, or that the request after it is
too long. -/
inductive Broke (blames : Exchange φ → Error φ → Prop) (capacity : Nat) (script : List Request) :
    List (Exchange φ) → Error φ → Prop
  | answered {e : Exchange φ} {earlier : List (Exchange φ)} {error : Error φ}
      (h : blames e error) : Broke blames capacity script (e :: earlier) error
  | unsent {made : List (Exchange φ)} {commands : List Command} {rest : List Request}
      (hscript : script = sent made ++ .commands commands :: rest)
      (hlong : capacity < (commands.flatMap Command.wire).length) :
      Broke blames capacity script made .tooLong

/-- A check is right about a transaction: it passes just what is granted, and fails with what
the transaction is blamed for. -/
structure Weighed (granted : Exchange φ → Prop) (blames : Exchange φ → Error φ → Prop)
    (e : Exchange φ) (r : Except (Error φ) α) : Prop where
  ok_iff : r.isOk = true ↔ granted e
  blamed : ∀ error, r = .error error → blames e error

/-- What the answer to a command is blamed for if something was expected to be read of it: there
was none, it cannot be read, or something else is read of it. -/
inductive Mistaken (read : List Char → Except ReplyError α) (expected : α)
    (otherwise : ReplyError) : Except (Error φ) String → Error φ → Prop
  | failed (error : Error φ) : Mistaken read expected otherwise (.error error) error
  | unread {reply : String} {cause : ReplyError} (h : read reply.toList = .error cause) :
      Mistaken read expected otherwise (.ok reply) (.reply cause)
  | other {reply : String} {found : α} (h : read reply.toList = .ok found)
      (hne : found ≠ expected) : Mistaken read expected otherwise (.ok reply) (.reply otherwise)

theorem eq_ok_iff {r : Except (Error φ) Unit} : r = .ok () ↔ r.isOk = true := by
  cases r with
  | error e => exact ⟨nofun, nofun⟩
  | ok _ => exact ⟨fun _ => rfl, fun _ => rfl⟩

section

variable {granted : Exchange φ → Prop} {blames : Exchange φ → Error φ → Prop} {capacity : Nat}
  {script script' : List Request} {made earlier : List (Exchange φ)} {error : Error φ}

theorem Broke.append (h : Broke blames capacity script made error) (script' : List Request) :
    Broke blames capacity (script ++ script') made error := by
  cases h with
  | answered h => exact .answered h
  | @unsent _ commands rest hscript hlong =>
      have hmore : script ++ script' = sent made ++ .commands commands :: (rest ++ script') := by
        rw [hscript, List.append_assoc, List.cons_append]
      exact .unsent hmore hlong

theorem Broke.after (h : Broke blames capacity script' made error) (hsent : sent earlier = script) :
    Broke blames capacity (script ++ script') (made ++ earlier) error := by
  cases h with
  | answered h => exact .answered h
  | @unsent _ commands rest hscript hlong =>
      have hmore : script ++ script' = sent (made ++ earlier) ++ .commands commands :: rest := by
        rw [hscript, sent_append, hsent, List.append_assoc]
      exact .unsent hmore hlong

theorem Broke.of_sent (h : Broke blames capacity (sent made) made error) :
    ∃ e earlier, made = e :: earlier ∧ blames e error := by
  cases h with
  | answered h => exact ⟨_, _, rfl, h⟩
  | unsent hscript => simp at hscript

theorem exists_of_sent_concat {front : List Request} {request : Request}
    (h : sent made = front ++ [request]) :
    ∃ e earlier, made = e :: earlier ∧ e.request = request := by
  cases made with
  | nil => simp [sent] at h
  | cons e earlier =>
      have hlast := congrArg List.getLast? h
      simp only [sent, List.map_cons, List.reverse_cons, List.getLast?_concat] at hlast
      exact ⟨e, earlier, rfl, Option.some.inj hlast⟩

/-- A script that was begun was finished if it is as long, as its texts are. -/
theorem Followed.map_wire_eq_iff {ok : Bool} (h : Followed granted script made ok) :
    (sent made).map Request.wire = script.map Request.wire ↔ sent made = script := by
  refine ⟨fun heq => h.begins.eq_of_length ?_, congrArg _⟩
  simpa using congrArg List.length heq

/-- A request that comes once in a script was sent once all requests before it were granted. -/
theorem Followed.split {front rest : List Request} {e : Exchange φ} {later : List (Exchange φ)}
    {ok : Bool} (h : Followed granted (front ++ e.request :: rest) (later ++ e :: earlier) ok)
    (hfront : e.request ∉ front) (hrest : e.request ∉ rest) :
    sent earlier = front ∧ sent later <+: rest ∧ ∀ e' ∈ earlier, granted e' := by
  obtain ⟨unsent, hscript⟩ := h.begins
  have hsent : front ++ e.request :: rest =
      sent earlier ++ e.request :: (sent later ++ unsent) := by
    rw [← hscript]
    simp [sent]
  obtain ⟨hearlier, -, hlater⟩ := (List.append_cons_inj_of_notMem hfront hrest).mp hsent
  refine ⟨hearlier.symm, ⟨unsent, hlater.symm⟩, fun e' he' => h.all_but_last e' ?_⟩
  cases later with
  | nil => exact he'
  | cons _ later => exact List.mem_append_right later (List.mem_cons_of_mem e he')

end

namespace Step

/-- The step keeps to a script, and says what it broke off for. -/
def Explains (granted : Exchange φ → Prop) (blames : Exchange φ → Error φ → Prop)
    (script : List Request) (step : Step σ φ κ α) : Prop :=
  ∀ s, Ends step s fun made r _ => Followed granted script made r.isOk ∧
    ∀ error, r = .error error → Broke blames s.capacity script made error

variable {granted : Exchange φ → Prop} {blames : Exchange φ → Error φ → Prop}
  {script script' : List Request}

theorem Explains.bind {step : Step σ φ κ α} {next : α → Step σ φ κ β}
    (h : Explains granted blames script step)
    (hnext : ∀ a, Explains granted blames script' (next a)) :
    Explains granted blames (script ++ script') (step >>= next) := by
  intro s
  refine (h s).bind (fun made e s' _ hends => ?_) fun made a s' hg hends => ?_
  · refine ⟨hends.1.broken script', fun error herror => ?_⟩
    cases herror
    exact (hends.2 e rfl).append script'
  · refine (hnext a s').mono fun made' r _ _ hends' => ?_
    refine ⟨hends.1.append hends'.1, fun error herror => ?_⟩
    have hbroke := hends'.2 error herror
    rw [hg.capacity] at hbroke
    exact hbroke.after (hends.1.ok_iff.mp rfl).1

theorem explains_nothing {step : Step σ φ κ α}
    (h : ∀ s, Ends step s fun made r _ => made = [] ∧ r.isOk = true) :
    Explains granted blames [] step := by
  intro s
  refine (h s).mono fun made r _ _ hends => ?_
  obtain ⟨rfl, hok⟩ := hends
  cases r with
  | error e => cases hok
  | ok a => exact ⟨.nil granted, nofun⟩

theorem explains_pure (a : α) : Explains granted blames [] (pure a : Step σ φ κ α) :=
  explains_nothing fun _ => ends_pure ⟨rfl, rfl⟩

theorem explains_note {entry : Note φ} (h : ∀ e, entry ≠ .exchange e) :
    Explains granted blames [] (note entry : Step σ φ κ Unit) := by
  refine explains_nothing fun s => ?_
  obtain ⟨made, hg, rfl, -⟩ := silent_note h s
  exact ⟨[], hg, rfl, rfl⟩

theorem explains_modifyHost (change : HostState → HostState) :
    Explains granted blames [] (modifyHost change : Step σ φ κ Unit) :=
  explains_nothing fun _ => ⟨[], ⟨rfl, rfl, rfl⟩, rfl, rfl⟩

/-- What is done for each of several items explains itself as a whole if each part does. -/
theorem Explains.forM {step : ι → Step σ φ κ PUnit} {part : ι → List Request}
    (h : ∀ item, Explains granted blames (part item) (step item)) (items : List ι) :
    Explains granted blames (items.flatMap part) (items.forM step) := by
  induction items with
  | nil => exact explains_pure _
  | cons item items ih =>
      rw [List.flatMap_cons]
      exact (h item).bind fun _ => ih

variable [Link σ φ] {target : Target} {commands : List Command}

/-- A transaction and a check that is right about it. -/
theorem explains_checked {check : String → Step σ φ κ α}
    (hfailed : ∀ e, Weighed granted blames ⟨target, .commands commands, .error e⟩
      (.error e : Except (Error φ) α))
    (hcheck : ∀ reply s, Ends (check reply) s fun made r _ => made = [] ∧
      Weighed granted blames ⟨target, .commands commands, .ok reply⟩ r) :
    Explains granted blames [.commands commands] (transact target commands >>= check) := by
  intro s
  have hone {outcome : Except (Error φ) String} {r : Except (Error φ) α}
      (h : Weighed granted blames ⟨target, .commands commands, outcome⟩ r) :
      Followed granted [.commands commands] [⟨target, .commands commands, outcome⟩] r.isOk ∧
        ∀ error, r = .error error → Broke blames s.capacity [.commands commands]
          [⟨target, .commands commands, outcome⟩] error := by
    refine ⟨⟨List.prefix_rfl, nofun, h.ok_iff.trans ?_⟩, fun error he => .answered (h.blamed _ he)⟩
    rw [List.forall_mem_singleton]
    exact (and_iff_right rfl).symm
  refine Ends.bind (P := fun made (r : Except (Error φ) String) _ =>
    (made = [] ∧ r = .error .tooLong ∧ s.capacity < (commands.flatMap Command.wire).length) ∨
      made = [⟨target, .commands commands, r⟩]) ?_ ?_ ?_
  · exact ends_transact_ask (fun hlong => .inl ⟨rfl, rfl, hlong⟩) fun _ _ _ _ _ => .inr rfl
  · intro made e s' _ hends
    rcases hends with ⟨rfl, ⟨⟩, hlong⟩ | rfl
    · refine ⟨.unsent (List.cons_ne_nil _ _), fun error he => ?_⟩
      cases he
      exact .unsent rfl hlong
    · exact hone (hfailed e)
  · intro made reply s' _ hends
    rcases hends with ⟨-, ⟨⟩, -⟩ | rfl
    refine (hcheck reply s').mono fun made' r _ _ h => ?_
    obtain ⟨rfl, hweighed⟩ := h
    exact hone hweighed

theorem explains_transact
    (hgranted : ∀ reply, granted ⟨target, .commands commands, .ok reply⟩)
    (hfailed : ∀ e, ¬ granted ⟨target, .commands commands, .error e⟩)
    (hblames : ∀ e, blames ⟨target, .commands commands, .error e⟩ e) :
    Explains granted blames [.commands commands]
      (transact target commands : Step σ φ κ String) := by
  rw [← bind_pure (transact target commands)]
  refine explains_checked (fun e => ⟨iff_of_false nofun (hfailed e), fun error he => ?_⟩)
    fun reply s => ends_pure ⟨rfl, iff_of_true rfl (hgranted reply), nofun⟩
  cases he
  exact hblames e

/-- What is read of the reply has to be what was expected. -/
theorem explains_expected [BEq α] [LawfulBEq α] {read : List Char → Except ReplyError α}
    {expected : α} {otherwise : ReplyError}
    (hgranted : ∀ outcome, granted ⟨target, .commands commands, outcome⟩ ↔
      ∃ reply, outcome = .ok reply ∧ read reply.toList = .ok expected)
    (hblames : ∀ outcome error, Mistaken read expected otherwise outcome error →
      blames ⟨target, .commands commands, outcome⟩ error) :
    Explains granted blames [.commands commands]
      (transact target commands >>= fun reply => understand (read reply.toList) >>= fun found =>
        ensure (.reply otherwise) (found == expected) : Step σ φ κ Unit) := by
  refine explains_checked (fun e => ⟨iff_of_false nofun fun h => ?_, fun error he => ?_⟩)
    fun reply s => ?_
  · obtain ⟨_, ⟨⟩, -⟩ := (hgranted _).mp h
  · cases he
    exact hblames _ _ (.failed e)
  cases hread : read reply.toList with
  | error cause =>
      refine ends_throw ⟨rfl, iff_of_false nofun fun h => ?_, fun error he => ?_⟩
      · obtain ⟨_, ⟨⟩, h⟩ := (hgranted _).mp h
        cases hread.symm.trans h
      · cases he
        exact hblames _ _ (.unread hread)
  | ok found =>
      show Ends (ensure _ _) s _
      by_cases heq : found = expected
      · rw [heq, beq_self_eq_true]
        rw [heq] at hread
        exact ends_pure ⟨rfl, iff_of_true rfl ((hgranted _).mpr ⟨reply, rfl, hread⟩), nofun⟩
      · rw [beq_eq_false_iff_ne.mpr heq]
        refine ends_throw ⟨rfl, iff_of_false nofun fun h => ?_, fun error he => ?_⟩
        · obtain ⟨_, ⟨⟩, h⟩ := (hgranted _).mp h
          exact heq (Except.ok.inj (hread.symm.trans h))
        · cases he
          exact hblames _ _ (.other hread heq)

theorem explains_selectSlot {slot : UInt8}
    (hgranted : ∀ e : Exchange φ, e.request = .commands [.selectSlot slot] →
      (granted e ↔ e.ConfirmsSlot slot))
    (hblames : ∀ e error, e.request = .commands [.selectSlot slot] →
      Mistaken Reply.number slot.toNat (.slotNotSelected slot) e.outcome error → blames e error) :
    Explains granted blames [.commands [.selectSlot slot]]
      (selectSlot slot : Step σ φ κ Unit) := by
  have hselect : (selectSlot slot : Step σ φ κ Unit) =
      (transact .instrument [.selectSlot slot] >>= fun reply =>
        understand (Reply.number reply.toList) >>= fun n =>
          ensure (.reply (.slotNotSelected slot)) (n == (slot.toNat : Int))) >>=
        fun _ => note (.slotSelected slot) := by
    simp only [bind_assoc]
    rfl
  rw [hselect]
  refine (explains_expected (fun _ => (hgranted _ rfl).trans (and_iff_right rfl)) ?_).bind
    fun _ => explains_note (by simp)
  exact fun _ _ h => hblames _ _ rfl h

theorem explains_moveCursor {address : UInt32}
    (hgranted : ∀ e : Exchange φ, e.request = .commands [.moveCursor address] →
      (granted e ↔ e.ConfirmsCursor address))
    (hblames : ∀ e error, e.request = .commands [.moveCursor address] →
      Mistaken Reply.number address.toNat (.cursorNotMoved address) e.outcome error →
        blames e error) :
    Explains granted blames [.commands [.moveCursor address]]
      (moveCursor address : Step σ φ κ Unit) :=
  explains_expected (fun _ => (hgranted _ rfl).trans (and_iff_right rfl))
    fun _ _ h => hblames _ _ rfl h

end Step

end DacRack
