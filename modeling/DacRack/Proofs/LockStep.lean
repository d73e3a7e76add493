import DacRack.Proofs.Lines
import DacRack.Proofs.Requests

/-!
# Requests and replies in lock step

A transaction sends its request and takes exactly one line. So when an instrument answers
every request with one line that fits in the buffer, whatever the lines say, the host is
in step with it: it has taken as many lines as it made transactions, nothing of a line is
left over, and every transaction was settled by its own line (`LockStep`).

This holds of a single transaction because its line is collected with its terminator, and
carries over to transactions in a row (`LockStep.trans`). Whether an operation breaks off
makes no difference, since it only ever breaks off between two transactions
(`Built.lockStep`).
-/

namespace DacRack

variable {σ φ κ α β : Type}

section

variable [Link σ φ]

/-- Requests, the latest first, that were sent to a link and were each answered by one
line that fits, and the link after that. -/
inductive Answered (capacity : Nat) (terminator : UInt8) (start : σ) :
    List Request → List (List UInt8) → σ → Prop
  | nil : Answered capacity terminator start [] [] start
  | cons {requests : List Request} {lines : List (List UInt8)} {link link' link'' : σ}
      {request : Request} {line : List UInt8}
      (earlier : Answered capacity terminator start requests lines link)
      (sent : Link.send (Text.bytes request.wire) link = (.ok (), link'))
      (answered : Delivers link' (line ++ [terminator]) link'')
      (apart : terminator ∉ line) (fits : line.length ≤ capacity) :
      Answered capacity terminator start (request :: requests) (line :: lines) link''

namespace Answered

variable {capacity : Nat} {terminator : UInt8} {start last : σ} {requests : List Request}
  {lines : List (List UInt8)}

theorem length_eq (h : Answered capacity terminator start requests lines last) :
    lines.length = requests.length := by
  induction h with
  | nil => rfl
  | cons _ _ _ _ _ ih => rw [List.length_cons, List.length_cons, ih]

/-- Later requests find the link where the earlier ones left it. -/
theorem split {later earlier : List Request}
    (h : Answered capacity terminator start (later ++ earlier) lines last) :
    ∃ lines' lines'' link, lines = lines' ++ lines'' ∧
      Answered capacity terminator start earlier lines'' link ∧
      Answered capacity terminator link later lines' last := by
  induction later generalizing lines last with
  | nil => exact ⟨[], lines, last, rfl, h, .nil⟩
  | cons request later ih =>
      cases h with
      | cons hearlier sent answered apart fits =>
          obtain ⟨lines', lines'', link, rfl, hfirst, hlater⟩ := ih hearlier
          exact ⟨_ :: lines', lines'', link, rfl, hfirst, .cons hlater sent answered apart fits⟩

end Answered

/-- Where each of the transactions was answered by one line that fits, all of these lines
and nothing else were taken, and each transaction came out as its own line. -/
def LockStep (s : Session σ φ κ) (made : List (Exchange φ)) (s' : Session σ φ κ) : Prop :=
  ∀ lines last,
    Answered s.capacity s.config.terminator s.link (made.map Exchange.request) lines last →
      s'.link = last ∧ made.map Exchange.outcome = lines.map Line.text

namespace LockStep

variable {s s' s'' : Session σ φ κ} {made made' : List (Exchange φ)}

theorem nil (h : s'.link = s.link) : LockStep s [] s' := by
  intro lines last hanswered
  cases hanswered
  exact ⟨h, rfl⟩

theorem single {e : Exchange φ}
    (h : Line.ask s.capacity s.config.terminator e.request.wire s.link = (e.outcome, s'.link)) :
    LockStep s [e] s' := by
  intro lines last hanswered
  cases hanswered with
  | cons earlier sent answered apart fits =>
      cases earlier
      rw [Line.ask_line sent answered apart fits] at h
      obtain ⟨houtcome, hlink⟩ := Prod.mk.inj h
      exact ⟨hlink.symm, by simp [← houtcome]⟩

theorem trans (hg : s.Grown s' made) (h : LockStep s made s') (h' : LockStep s' made' s'') :
    LockStep s (made' ++ made) s'' := by
  intro lines last hanswered
  rw [List.map_append] at hanswered
  obtain ⟨lines', lines'', link, rfl, hearlier, hlater⟩ := hanswered.split
  obtain ⟨hlink, houtcomes⟩ := h _ _ hearlier
  rw [← hlink, ← hg.capacity, ← hg.config] at hlater
  obtain ⟨hlink', houtcomes'⟩ := h' _ _ hlater
  refine ⟨hlink', ?_⟩
  rw [List.map_append, List.map_append, houtcomes, houtcomes']

end LockStep

/-- Whatever is put together from transactions keeps to the lock step, also where it
fails. -/
theorem Step.Built.lockStep {may : Target → Request → Prop} {step : Step σ φ κ α}
    (h : Built may step) (s : Session σ φ κ) :
    Ends step s fun made _ s' => LockStep s made s' :=
  h.ends .nil (fun _ _ hask => .single hask) .trans s

variable [Clock κ]

/-- Connecting and any calls after it take one line for each transaction, leave nothing of
a line behind, and settle the transactions by their lines in turn. -/
theorem lockStep_connected_run (start : Session σ φ κ) (calls : List Call) :
    let s := (start.perform Step.connect).2.performAll calls
    ∃ made, s.journal.exchanges = made ++ start.journal.exchanges ∧
      ∀ lines last,
        Answered start.capacity start.config.terminator start.link
            (made.map Exchange.request) lines last →
          lines.length = made.length ∧ s.link = last ∧
            made.map Exchange.outcome = lines.map Line.text := by
  intro s
  have hconnect : Step.Composed (fun _ => True) none (Step.connect : Step σ φ κ Unit) :=
    Step.composed_connect (fun _ _ => trivial) fun _ => trivial
  have hcall (s : Session σ φ κ) (call : Call) :
      Step.Ends call.run s fun made _ s' => LockStep s made s' :=
    ((Step.composed_call call).built call.aims_instrument).lockStep s
  obtain ⟨made, hg, hopened⟩ := (hconnect.built trivial).lockStep start
  obtain ⟨made', hg', hcalls⟩ := ends_performAll (fun _ => LockStep.nil rfl) hcall
    .trans calls (start.perform Step.connect).2
  refine ⟨made' ++ made, (hg.trans hg').exchanges, ?_⟩
  intro lines last hanswered
  refine ⟨?_, hopened.trans hg hcalls lines last hanswered⟩
  rw [hanswered.length_eq, List.length_map]

end

namespace ScriptedLink

/-- The script of an instrument that answers with these lines, the latest first. -/
def answering (terminator : UInt8) (lines : List (List UInt8)) : List ScriptEvent :=
  (lines.reverse.flatMap fun line => line ++ [terminator]).map .byte

theorem answered {capacity : Nat} {terminator : UInt8} {requests : List Request}
    {lines : List (List UInt8)} (hlength : lines.length = requests.length)
    (hlines : ∀ line ∈ lines, terminator ∉ line ∧ line.length ≤ capacity)
    (link : ScriptedLink) (hbudget : link.budget = none) (rest : List ScriptEvent) :
    ∃ last, Answered capacity terminator
        { link with script := answering terminator lines ++ rest } requests lines last ∧
      last.script = rest ∧ last.budget = none := by
  induction lines generalizing requests rest with
  | nil =>
      obtain rfl : requests = [] := List.length_eq_zero_iff.mp hlength.symm
      exact ⟨_, .nil, rfl, hbudget⟩
  | cons line lines ih =>
      obtain ⟨request, requests, rfl⟩ := List.exists_cons_of_length_eq_add_one hlength.symm
      obtain ⟨⟨hapart, hfits⟩, hlines⟩ := List.forall_mem_cons.mp hlines
      obtain ⟨before, hbefore, hscript, hnone⟩ := ih (Nat.succ_inj.mp hlength) hlines
        ((line ++ [terminator]).map .byte ++ rest)
      have hsplit : answering terminator (line :: lines) ++ rest =
          answering terminator lines ++ ((line ++ [terminator]).map .byte ++ rest) := by
        simp [answering]
      rw [hsplit]
      have hsend : Link.send (Text.bytes request.wire) before =
          (.ok (), { before with sent := before.sent ++ Text.bytes request.wire }) := by
        show send _ _ = _
        rw [send, hnone]
      have hdelivers := delivers { before with sent := before.sent ++ Text.bytes request.wire }
        (line ++ [terminator]) rest
      rw [← hscript] at hdelivers
      exact ⟨_, .cons hbefore hsend hdelivers hapart hfits, rfl, hnone⟩

end ScriptedLink

/-- Lines that say little, the latest first: some are no replies or no text at all, and
others answer for another slot, channel or word. -/
def garbledLines : List (List UInt8) :=
  [[0xff, 0xfe], Text.bytes "A5!", Text.bytes "B4!C3!", [], Text.bytes "B2!", Text.bytes "p0!",
    Text.bytes "M2!", Text.bytes "B4!", Text.bytes "M!", Text.bytes "B3!", Text.bytes "!",
    Text.bytes "B2!", Text.bytes "M9!", Text.bytes "B1!", Text.bytes "M2!", Text.bytes "B0!",
    Text.bytes "?", [0xc3], []]

/-- A connection with a link that has these lines in store, and then the end. -/
def garbled : Session ScriptedLink FaultKind SteppingClock :=
  { link := { script := ScriptedLink.answering 10 garbledLines ++ [.nothing] }, clock := {} }

def garbledRun : Session ScriptedLink FaultKind SteppingClock :=
  (garbled.perform Step.connect).2.performAll
    [.identify, .setAll 1, .rampAll 1 1, .read 5 1 .main]

theorem lockStep_garbledRun :
    ∃ last : ScriptedLink,
      Answered garbled.capacity garbled.config.terminator garbled.link
          (garbledRun.journal.exchanges.map Exchange.request) garbledLines last ∧
        garbledRun.link = last ∧ last.script = [.nothing] ∧
          garbledRun.journal.exchanges.map Exchange.outcome = garbledLines.map Line.text := by
  have hlength : garbledLines.length =
      (garbledRun.journal.exchanges.map Exchange.request).length := by
    decide +kernel
  have hlines : ∀ line ∈ garbledLines, 10 ∉ line ∧ line.length ≤ 64 := by decide +kernel
  obtain ⟨last, hanswered, hscript, -⟩ :=
    ScriptedLink.answered hlength hlines {} rfl [.nothing]
  obtain ⟨made, hmade, hstep⟩ := lockStep_connected_run garbled
    [.identify, .setAll 1, .rampAll 1 1, .read 5 1 .main]
  have hall : garbledRun.journal.exchanges = made := hmade.trans (List.append_nil made)
  rw [hall] at hanswered ⊢
  obtain ⟨-, hlink, houtcomes⟩ := hstep garbledLines last hanswered
  exact ⟨last, hanswered, hlink, hscript, houtcomes⟩

end DacRack
