import DacRack.Proofs.Lines
import DacRack.Proofs.Transactions

/-!
# After a line that was too long

A line that does not fit in the buffer fails the transaction it answers. What was taken of
it is gone, but no more than one byte beyond the capacity was taken: the rest of the line
stays on the link and comes first the next time (`ends_ask_overlong`). So the next
transaction is not settled by the line that answers it, unless that line happens to be
equal to the rest of the long one.

A line is used up in pieces of one byte more than the capacity, each of which fails one
transaction, and what is left at the end passes for a line of its own. By then the host is
behind by as many lines as there were pieces, and it stays behind; the line after it is
read where it stands, but by a later transaction (`ask_after_overlong`).
-/

namespace DacRack

/-- The link takes whatever is sent, and has these bytes in store and then something else. -/
structure ScriptedLink.Holds (link : ScriptedLink) (bytes : List UInt8)
    (rest : List ScriptEvent) : Prop where
  budget : link.budget = none
  script : link.script = bytes.map .byte ++ rest

namespace ScriptedLink.Holds

variable {link : ScriptedLink} {bytes later : List UInt8} {rest : List ScriptEvent}

theorem send (h : link.Holds bytes rest) (sent : List UInt8) :
    ∃ link', Link.send sent link = (.ok (), link') ∧ link'.Holds bytes rest := by
  refine ⟨{ link with sent := link.sent ++ sent }, ?_, h.budget, h.script⟩
  show ScriptedLink.send _ _ = _
  rw [ScriptedLink.send, h.budget]

theorem delivers (h : link.Holds (bytes ++ later) rest) :
    ∃ link', Delivers link bytes link' ∧ link'.Holds later rest := by
  have hdelivers := link.delivers bytes (later.map .byte ++ rest)
  rw [← List.append_assoc, ← List.map_append, ← h.script] at hdelivers
  exact ⟨_, hdelivers, h.budget, rfl⟩

end ScriptedLink.Holds

variable {κ : Type}

namespace Step

variable {s : Session ScriptedLink FaultKind κ} {line later : List UInt8}
  {rest : List ScriptEvent}

theorem ends_ask_line (h : s.link.Holds (line ++ [s.config.terminator] ++ later) rest)
    (hapart : s.config.terminator ∉ line) (hfits : line.length ≤ s.capacity)
    (request : String) :
    Ends (ask request) s fun made r s' => r = Line.text line ∧
      made.map Exchange.outcome = [r] ∧ s'.link.Holds later rest := by
  refine ends_exchange_ask fun outcome s' _ hask => ?_
  obtain ⟨link, hsend, hholds⟩ := h.send (Text.bytes (Request.text request).wire)
  obtain ⟨link', hdelivers, hrest⟩ := hholds.delivers
  rw [Line.ask_line hsend hdelivers hapart hfits] at hask
  obtain ⟨houtcome, hlink⟩ := Prod.mk.inj hask
  exact ⟨houtcome.symm, rfl, hlink ▸ hrest⟩

theorem ends_ask_overlong (h : s.link.Holds (line ++ later) rest)
    (hapart : s.config.terminator ∉ line) (hlong : s.capacity < line.length)
    (request : String) :
    Ends (ask request) s fun made r s' => r = .error .tooLong ∧
      made.map Exchange.outcome = [r] ∧
        s'.link.Holds (line.drop (s.capacity + 1) ++ later) rest := by
  refine ends_exchange_ask fun outcome s' _ hask => ?_
  have hparts : line ++ later =
      line.take (s.capacity + 1) ++ (line.drop (s.capacity + 1) ++ later) := by
    rw [← List.append_assoc, List.take_append_drop]
  rw [hparts] at h
  obtain ⟨link, hsend, hholds⟩ := h.send (Text.bytes (Request.text request).wire)
  obtain ⟨link', hdelivers, hrest⟩ := hholds.delivers
  have hlength : (line.take (s.capacity + 1)).length = s.capacity + 1 := by
    rw [List.length_take]
    omega
  rw [Line.ask_overlong hsend hdelivers (fun h => hapart (List.mem_of_mem_take h)) hlength]
    at hask
  obtain ⟨houtcome, hlink⟩ := Prod.mk.inj hask
  exact ⟨houtcome.symm, rfl, hlink ▸ hrest⟩

end Step

section

variable [Clock κ]

theorem perform_ask (s : Session ScriptedLink FaultKind κ) (request : String) :
    s.perform (Call.ask request).run =
      ((s.perform (Step.ask request)).1.map .text, (s.perform (Step.ask request)).2) := by
  change s.perform (Step.ask request >>= fun reply => pure (Answer.text reply)) = _
  rw [Session.perform_bind]
  cases s.perform (Step.ask request) with
  | mk r s' => cases r <;> rfl

/-- A line is used up by one transaction for each piece of it that does not fit, and one
more. -/
theorem performAll_asks {s : Session ScriptedLink FaultKind κ} {line later : List UInt8}
    {rest : List ScriptEvent}
    (h : s.link.Holds (line ++ [s.config.terminator] ++ later) rest)
    (hapart : s.config.terminator ∉ line) {requests : List String}
    (hlength : requests.length = line.length / (s.capacity + 1) + 1) :
    ∃ made, s.Grown (s.performAll (requests.map .ask)) made ∧
      (s.performAll (requests.map .ask)).link.Holds later rest ∧
      made.map Exchange.outcome =
        Line.text (line.drop (line.length / (s.capacity + 1) * (s.capacity + 1))) ::
          List.replicate (line.length / (s.capacity + 1)) (.error .tooLong) := by
  induction requests generalizing s line with
  | nil => cases hlength
  | cons request requests ih =>
      have hnext : s.performAll ((request :: requests).map .ask) =
          (s.perform (Step.ask request)).2.performAll (requests.map .ask) := by
        show (s.perform (Call.ask request).run).2.performAll _ = _
        rw [perform_ask]
      rw [hnext]
      -- A line that fits is the last piece. A longer one loses its first piece, which is as long as
      -- the buffer and one byte, and the rest of it is a line again.
      by_cases hfits : line.length ≤ s.capacity
      · have hpieces : line.length / (s.capacity + 1) = 0 :=
          Nat.div_eq_of_lt (Nat.lt_succ_of_le hfits)
        rw [hpieces, Nat.zero_mul, List.drop_zero, List.replicate_zero]
        obtain rfl : requests = [] := by
          rw [hpieces, List.length_cons] at hlength
          exact List.length_eq_zero_iff.mp (Nat.succ_inj.mp hlength)
        obtain ⟨made, hg, hr, hmade, hholds⟩ := Step.ends_ask_line h hapart hfits request
        exact ⟨made, hg, hholds, by rw [hmade, hr]⟩
      · have hlong : s.capacity + 1 ≤ line.length := Nat.lt_of_not_le hfits
        rw [List.append_assoc] at h
        obtain ⟨made, hg, hr, hmade, hholds⟩ := Step.ends_ask_overlong h hapart hlong request
        have hpieces : line.length / (s.capacity + 1) =
            (line.drop (s.capacity + 1)).length / (s.capacity + 1) + 1 := by
          rw [List.length_drop, Nat.div_eq_sub_div (Nat.succ_pos _) hlong]
        rw [← List.append_assoc, ← hg.config] at hholds
        rw [hpieces, List.length_cons] at hlength
        have hapart' : (s.perform (Step.ask request)).2.config.terminator ∉
            line.drop (s.capacity + 1) := by
          rw [hg.config]
          exact fun h => hapart (List.mem_of_mem_drop h)
        obtain ⟨made', hg', hholds', hmade'⟩ :=
          ih hholds hapart' (by rw [hg.capacity]; exact Nat.succ_inj.mp hlength)
        refine ⟨made' ++ made, hg.trans hg', hholds', ?_⟩
        rw [List.map_append, hmade, hmade', hr, hpieces, hg.capacity, List.drop_drop,
          Nat.succ_mul, Nat.add_comm (s.capacity + 1), List.replicate_succ', List.cons_append]

theorem text_ok_iff {line : List UInt8} {text : String} :
    (Line.text line : Except (Error FaultKind) String) = .ok text ↔ line = Text.bytes text := by
  constructor
  · intro h
    unfold Line.text at h
    split at h
    · next heq =>
        cases h
        exact (Text.bytes_of_ofBytes? heq).symm
    · cases h
  · intro h
    rw [h, Line.text, Text.ofBytes?_bytes]

/-- A line settles a transaction with a text if it fits and is that text. -/
theorem perform_ask_ok_iff {s : Session ScriptedLink FaultKind κ} {line later : List UInt8}
    {rest : List ScriptEvent}
    (h : s.link.Holds (line ++ [s.config.terminator] ++ later) rest)
    (hapart : s.config.terminator ∉ line) (request text : String) :
    (s.perform (Call.ask request).run).1 = .ok (.text text) ↔
      line.length ≤ s.capacity ∧ line = Text.bytes text := by
  have hreply (r : Except (Error FaultKind) String) :
      r.map Answer.text = .ok (.text text) ↔ r = .ok text := by
    cases r with
    | error e => exact ⟨nofun, nofun⟩
    | ok reply => simp [Except.map]
  rw [perform_ask, hreply]
  by_cases hfits : line.length ≤ s.capacity
  · obtain ⟨-, -, hr, -⟩ := Step.ends_ask_line h hapart hfits request
    rw [hr, text_ok_iff]
    exact ⟨fun h => ⟨hfits, h⟩, And.right⟩
  · rw [List.append_assoc] at h
    obtain ⟨-, -, hr, -⟩ := Step.ends_ask_overlong h hapart (Nat.lt_of_not_le hfits) request
    rw [hr]
    exact ⟨nofun, fun h => absurd h.1 hfits⟩

/-- After a line that does not fit, the next transaction is settled by the line that
follows only if that is what was left of the long one. It takes one more transaction than
the pieces of the long line to get to the line that follows. -/
theorem ask_after_overlong {s : Session ScriptedLink FaultKind κ} {line : List UInt8}
    {text : String} {rest : List ScriptEvent}
    (h : s.link.Holds
      (line ++ [s.config.terminator] ++ (Text.bytes text ++ [s.config.terminator])) rest)
    (hapart : s.config.terminator ∉ line) (hlong : s.capacity < line.length)
    (hapart' : s.config.terminator ∉ Text.bytes text)
    (hfits : (Text.bytes text).length ≤ s.capacity) :
    (∀ first next : String,
      let s' := (s.perform (Call.ask first).run).2
      (s.perform (Call.ask first).run).1 = .error .tooLong ∧
        ((s'.perform (Call.ask next).run).1 = .ok (.text text) ↔
          line.drop (s.capacity + 1) = Text.bytes text)) ∧
    ∀ requests : List String,
      requests.length = line.length / (s.capacity + 1) + 2 →
        let s' := s.performAll (requests.map .ask)
        s'.link.Holds [] rest ∧
          ∃ made, s'.journal.exchanges = made ++ s.journal.exchanges ∧
            made.map Exchange.outcome = .ok text ::
              Line.text (line.drop (line.length / (s.capacity + 1) * (s.capacity + 1))) ::
                List.replicate (line.length / (s.capacity + 1)) (.error .tooLong) := by
  constructor
  · intro first next s'
    have hstart := h
    rw [List.append_assoc] at hstart
    obtain ⟨made, hg, hr, -, hholds⟩ := Step.ends_ask_overlong hstart hapart hlong first
    have hs' : (s.perform (Step.ask first)).2 = s' := by
      show _ = (s.perform (Call.ask first).run).2
      rw [perform_ask]
    rw [hs'] at hg hholds
    rw [← List.append_assoc, ← hg.config] at hholds
    have hapartLeft : s'.config.terminator ∉ line.drop (s.capacity + 1) := by
      rw [hg.config]
      exact fun h => hapart (List.mem_of_mem_drop h)
    refine ⟨by rw [perform_ask, hr]; rfl, ?_⟩
    rw [perform_ask_ok_iff hholds hapartLeft, hg.capacity]
    refine ⟨And.right, fun hleft => ⟨?_, hleft⟩⟩
    rw [hleft]
    exact hfits
  · intro requests hlength s'
    have hne : requests ≠ [] := List.ne_nil_of_length_pos (hlength ▸ Nat.succ_pos _)
    obtain ⟨asked, last, rfl⟩ : ∃ asked last, requests = asked ++ [last] :=
      ⟨_, _, (List.dropLast_concat_getLast hne).symm⟩
    rw [List.length_append, List.length_singleton] at hlength
    obtain ⟨made, hg, hholds, hmade⟩ := performAll_asks h hapart (Nat.succ_inj.mp hlength)
    have hs' : s' = (s.performAll (asked.map .ask)).performAll ([last].map .ask) := by
      show s.performAll ((asked ++ [last]).map .ask) = _
      rw [List.map_append]
      exact List.foldl_append
    rw [← hg.config, ← List.append_nil (Text.bytes text ++ _)] at hholds
    have hone : [last].length =
        (Text.bytes text).length / ((s.performAll (asked.map .ask)).capacity + 1) + 1 := by
      rw [hg.capacity, Nat.div_eq_of_lt (Nat.lt_succ_of_le hfits)]
      rfl
    obtain ⟨made', hg', hholds', hmade'⟩ :=
      performAll_asks hholds (by rw [hg.config]; exact hapart') hone
    rw [hs']
    refine ⟨hholds', made' ++ made, (hg.trans hg').exchanges, ?_⟩
    rw [List.map_append, hmade, hmade', hg.capacity,
      Nat.div_eq_of_lt (Nat.lt_succ_of_le hfits), Nat.zero_mul, List.drop_zero,
      text_ok_iff.mpr rfl]
    rfl

end

/-- A connection with a link that has a line of seventy bytes in store and, after it, the
reply to a selection. -/
def swamped : Session ScriptedLink FaultKind SteppingClock :=
  { link :=
      { script := (List.replicate 70 120 ++ [10] ++ (Text.bytes "B0!" ++ [10])).map .byte }
    clock := {} }

theorem ask_swamped :
    (swamped.perform (Call.ask "B0;").run).1 = .error .tooLong ∧
      ((swamped.perform (Call.ask "B0;").run).2.perform (Call.ask "B0;").run).1 ≠
        .ok (.text "B0!") := by
  have hholds : swamped.link.Holds
      (List.replicate 70 120 ++ [10] ++ (Text.bytes "B0!" ++ [10])) [] :=
    ⟨rfl, (List.append_nil _).symm⟩
  obtain ⟨hpair, -⟩ := ask_after_overlong hholds (by decide) (by decide) (by decide) (by decide)
  obtain ⟨hfails, hiff⟩ := hpair "B0;" "B0;"
  exact ⟨hfails, mt hiff.mp (by decide)⟩

end DacRack
