import DacRack.Link.Emulated
import DacRack.Proofs.Requests

/-!
# The emulated link as a pipe

What is done to an emulated link is a history of acts, the latest first. From what was done and
how the link answered one can tell the bytes that were queued, those that reads came back with,
and those of the writes that succeeded since the record was cleared (`queued`, `returned`,
`recorded`).

The link agrees with its history (`faithful_of_history`). What carries this along, act by act, is
that nothing is lost on the way through: what came out and what is still unread are together what
went in (`conserves_after`). All that is queued has to fit, because room is never given back: it
is for all bytes that were ever queued, and of replies that do not fit, the link may have taken
some before it refuses.

A connection only writes to its link and reads single bytes off it, so the same holds after any
run of calls over an emulated link (`faithful_connected_run`).
-/

namespace DacRack

namespace EmulatedLink

/-- What can be done to an emulated link. -/
inductive Act where
  | queueBytes (bytes : List UInt8)
  | queueReplies (lines : List String)
  | endLinesWith (ending : List UInt8)
  | read (room : Nat)
  | write (bytes : List UInt8)
  | clearWritten
  | failReads (on : Bool)
  | failWrites (on : Bool)

/-- The link after an act. -/
def act (link : EmulatedLink) : Act → EmulatedLink
  | .queueBytes bytes => (link.queueAll [bytes]).2
  | .queueReplies lines => (link.queueReplies lines).2
  | .endLinesWith ending => { link with lineEnding := ending }
  | .read room => (link.read room).2
  | .write bytes => (link.write bytes).2
  | .clearWritten => link.clearWritten
  | .failReads on => { link with failReads := on }
  | .failWrites on => { link with failWrites := on }

/-- The link after several acts, the latest first. -/
def actAll (link : EmulatedLink) (acts : List Act) : EmulatedLink :=
  acts.foldr (fun act link => link.act act) link

/-- A new link after a history. -/
def after (history : List Act) : EmulatedLink :=
  ({} : EmulatedLink).actAll history

/-! ## What a history says -/

/-- What a history last set something to. -/
def latest {α : Type} (setting? : Act → Option α) (initial : α) (history : List Act) : α :=
  (history.findSome? setting?).getD initial

def Act.ending? : Act → Option (List UInt8)
  | .endLinesWith ending => some ending
  | _ => none

def Act.failsReads? : Act → Option Bool
  | .failReads on => some on
  | _ => none

def Act.failsWrites? : Act → Option Bool
  | .failWrites on => some on
  | _ => none

/-- What ends a reply that is queued next. -/
def endingOf : List Act → List UInt8 :=
  latest Act.ending? [10]

def readsFail : List Act → Bool :=
  latest Act.failsReads? false

def writesFail : List Act → Bool :=
  latest Act.failsWrites? false

/-- Everything that was queued, each reply with the ending of its time. -/
def queued : List Act → List UInt8
  | [] => []
  | .queueBytes bytes :: earlier => queued earlier ++ bytes
  | .queueReplies lines :: earlier =>
    queued earlier ++ lines.flatMap fun line => Text.bytes line ++ endingOf earlier
  | _ :: earlier => queued earlier

/-- The bytes that all reads came back with. -/
def returned : List Act → List UInt8
  | [] => []
  | .read room :: earlier =>
    match ((after earlier).read room).1 with
    | .ok bytes => returned earlier ++ bytes
    | .error _ => returned earlier
  | _ :: earlier => returned earlier

/-- The bytes of the writes that succeeded since the record was last cleared. -/
def recorded : List Act → List UInt8
  | [] => []
  | .clearWritten :: _ => []
  | .write bytes :: earlier =>
    match ((after earlier).write bytes).1 with
    | .ok _ => recorded earlier ++ bytes
    | .error _ => recorded earlier
  | _ :: earlier => recorded earlier

/-- A link is to its history as a pipe should be. -/
structure Faithful (history : List Act) (link : EmulatedLink) : Prop where
  /-- Bytes come out in the order in which they went in, and none is left out. -/
  in_order : returned history <+: queued history
  drained_iff : link.isDrained = true ↔ returned history = queued history
  /-- Queueing takes all it is given, up to what there is room for altogether. -/
  queues_iff : ∀ pieces, (link.queueAll pieces).1 = true ↔
    (queued history).length + pieces.flatten.length ≤ capacity
  /-- A read comes back with as many of the bytes that are next as it has room for. -/
  reads_iff : ∀ room bytes, (link.read room).1 = .ok bytes ↔
    readsFail history = false ∧ returned history ≠ queued history ∧
      bytes = ((queued history).drop (returned history).length).take room
  read_fails : ∀ room fault, (link.read room).1 = .error fault → (link.read room).2 = link
  written_eq : link.written = recorded history
  /-- A write fails where it is made to, or where there is not enough room. -/
  writes_iff : ∀ bytes count, (link.write bytes).1 = .ok count ↔
    writesFail history = false ∧ (recorded history).length + bytes.length ≤ capacity ∧
      count = bytes.length
  write_fails : ∀ bytes fault, (link.write bytes).1 = .error fault → (link.write bytes).2 = link

/-! ## What an act leaves alone -/

variable {link : EmulatedLink} {pieces : List (List UInt8)} {history : List Act}

/-- Queueing adds bytes to those that are unread, also where it breaks off. -/
theorem exists_queueAll (pieces : List (List UInt8)) (link : EmulatedLink) :
    ∃ unread, (link.queueAll pieces).2 = { link with unread } := by
  induction pieces generalizing link with
  | nil => exact ⟨link.unread, rfl⟩
  | cons piece rest ih =>
      unfold queueAll queue?
      split
      · next link' h =>
          split at h
          · cases h
            exact ih { link with unread := link.unread ++ piece }
          · cases h
      · exact ⟨link.unread, rfl⟩

theorem queueAll_of_fits (pieces : List (List UInt8)) (link : EmulatedLink)
    (h : link.taken + link.unread.length + pieces.flatten.length ≤ capacity) :
    link.queueAll pieces = (true, { link with unread := link.unread ++ pieces.flatten }) := by
  induction pieces generalizing link with
  | nil => simp [queueAll]
  | cons piece rest ih =>
      rw [List.flatten_cons, List.length_append] at h
      have hpiece : link.taken + link.unread.length + piece.length ≤ capacity := by omega
      have hrest := ih { link with unread := link.unread ++ piece }
        (by simp only [List.length_append]; omega)
      simp only [queueAll, queue?, if_pos hpiece, hrest, List.flatten_cons, List.append_assoc]

theorem queueAll_iff (pieces : List (List UInt8)) (link : EmulatedLink)
    (hroom : link.taken + link.unread.length ≤ capacity) :
    (link.queueAll pieces).1 = true ↔
      link.taken + link.unread.length + pieces.flatten.length ≤ capacity := by
  induction pieces generalizing link with
  | nil => simpa [queueAll] using hroom
  | cons piece rest ih =>
      rw [List.flatten_cons, List.length_append]
      by_cases hpiece : link.taken + link.unread.length + piece.length ≤ capacity
      · have hrest := ih { link with unread := link.unread ++ piece }
          (by simp only [List.length_append]; omega)
        simp only [queueAll, queue?, if_pos hpiece, hrest, List.length_append]
        omega
      · simp only [queueAll, queue?, if_neg hpiece, Bool.false_eq_true, false_iff]
        omega

theorem flatten_pieces (lines : List String) (link : EmulatedLink) :
    (link.pieces lines).flatten = lines.flatMap fun line => Text.bytes line ++ link.lineEnding := by
  induction lines with
  | nil => rfl
  | cons line lines ih =>
      rw [pieces] at ih ⊢
      simp [ih]

/-- A read moves bytes from what is unread to what was taken, or does nothing. -/
theorem read_cases (room : Nat) (link : EmulatedLink) :
    (∃ fault, link.read room = (.error fault, link)) ∨
      link.failReads = false ∧ link.unread ≠ [] ∧
        link.read room = (.ok (link.unread.take room), { link with
          taken := link.taken + (link.unread.take room).length
          unread := link.unread.drop room }) := by
  unfold read
  cases hfail : link.failReads with
  | true => exact .inl ⟨.simulated, rfl⟩
  | false =>
      cases hunread : link.unread with
      | nil => exact .inl ⟨.wouldBlock, rfl⟩
      | cons byte rest => exact .inr ⟨rfl, List.cons_ne_nil _ _, rfl⟩

theorem write_cases (bytes : List UInt8) (link : EmulatedLink) :
    (∃ fault, link.write bytes = (.error fault, link)) ∨
      link.failWrites = false ∧ link.written.length + bytes.length ≤ capacity ∧
        link.write bytes =
          (.ok bytes.length, { link with written := link.written ++ bytes }) := by
  unfold write
  cases hfail : link.failWrites with
  | true => exact .inl ⟨.simulated, rfl⟩
  | false =>
      by_cases hroom : link.written.length + bytes.length ≤ capacity
      · exact .inr ⟨rfl, hroom, by simp [hroom]⟩
      · exact .inl ⟨.bufferOverflow, by simp [hroom]⟩

/-! ## One act more -/

theorem settings_act (link : EmulatedLink) (act : Act) :
    (link.act act).lineEnding = act.ending?.getD link.lineEnding ∧
      (link.act act).failReads = act.failsReads?.getD link.failReads ∧
        (link.act act).failWrites = act.failsWrites?.getD link.failWrites := by
  cases act with
  | queueBytes bytes =>
      obtain ⟨unread, h⟩ := exists_queueAll [bytes] link
      rw [EmulatedLink.act, h]
      exact ⟨rfl, rfl, rfl⟩
  | queueReplies lines =>
      obtain ⟨unread, h⟩ := exists_queueAll (link.pieces lines) link
      rw [EmulatedLink.act, queueReplies, h]
      exact ⟨rfl, rfl, rfl⟩
  | read room =>
      rw [EmulatedLink.act]
      obtain ⟨fault, h⟩ | ⟨-, -, h⟩ := read_cases room link <;> rw [h] <;> exact ⟨rfl, rfl, rfl⟩
  | write bytes =>
      rw [EmulatedLink.act]
      obtain ⟨fault, h⟩ | ⟨-, -, h⟩ := write_cases bytes link <;> rw [h] <;> exact ⟨rfl, rfl, rfl⟩
  | endLinesWith | clearWritten | failReads | failWrites => exact ⟨rfl, rfl, rfl⟩

/-- What every act sets as it says is as the history last set it. -/
theorem setting_after {α : Type} {setting : EmulatedLink → α} {setting? : Act → Option α}
    (h : ∀ (link : EmulatedLink) act, setting (link.act act) = (setting? act).getD (setting link))
    (history : List Act) : setting (after history) = latest setting? (setting {}) history := by
  induction history with
  | nil => rfl
  | cons act earlier ih =>
      show setting ((after earlier).act act) = _
      rw [h, ih, latest, latest, List.findSome?_cons]
      cases setting? act <;> rfl

theorem lineEnding_after (history : List Act) : (after history).lineEnding = endingOf history :=
  setting_after (fun link act => (settings_act link act).1) history

theorem failReads_after (history : List Act) : (after history).failReads = readsFail history :=
  setting_after (fun link act => (settings_act link act).2.1) history

theorem failWrites_after (history : List Act) : (after history).failWrites = writesFail history :=
  setting_after (fun link act => (settings_act link act).2.2) history

theorem written_after (history : List Act) : (after history).written = recorded history := by
  induction history with
  | nil => rfl
  | cons act earlier ih =>
      show ((after earlier).act act).written = _
      cases act with
      | queueBytes bytes =>
          obtain ⟨unread, h⟩ := exists_queueAll [bytes] (after earlier)
          rw [EmulatedLink.act, h]
          exact ih
      | queueReplies lines =>
          obtain ⟨unread, h⟩ := exists_queueAll ((after earlier).pieces lines) (after earlier)
          rw [EmulatedLink.act, queueReplies, h]
          exact ih
      | read room =>
          rw [EmulatedLink.act]
          obtain ⟨fault, h⟩ | ⟨-, -, h⟩ := read_cases room (after earlier) <;> rw [h] <;> exact ih
      | write bytes =>
          rw [EmulatedLink.act, recorded]
          obtain ⟨fault, h⟩ | ⟨-, -, h⟩ := write_cases bytes (after earlier)
          · rw [h]
            exact ih
          · rw [h, ← ih]
      | clearWritten => rfl
      | endLinesWith | failReads | failWrites => exact ih

/-- What came out of a link is what was taken from it, and with what is still unread it is what
went in. -/
structure Conserves (link : EmulatedLink) (returned queued : List UInt8) : Prop where
  taken : link.taken = returned.length
  conserved : returned ++ link.unread = queued

namespace Conserves

variable {returned queued : List UInt8}

theorem length_eq (h : Conserves link returned queued) :
    link.taken + link.unread.length = queued.length := by
  rw [← h.conserved, List.length_append, h.taken]

theorem unread_eq (h : Conserves link returned queued) :
    link.unread = queued.drop returned.length := by
  rw [← h.conserved, List.drop_left]

theorem unread_eq_nil_iff (h : Conserves link returned queued) :
    link.unread = [] ↔ returned = queued := by
  rw [← h.conserved, List.self_eq_append_right]

theorem queueAll (h : Conserves link returned queued) (pieces : List (List UInt8))
    (hfits : (queued ++ pieces.flatten).length ≤ capacity) :
    Conserves (link.queueAll pieces).2 returned (queued ++ pieces.flatten) := by
  rw [List.length_append, ← h.length_eq] at hfits
  rw [queueAll_of_fits pieces link hfits]
  exact ⟨h.taken, by simp only [← List.append_assoc, h.conserved]⟩

theorem write (h : Conserves link returned queued) (bytes : List UInt8) :
    Conserves (link.write bytes).2 returned queued := by
  obtain ⟨fault, hwrite⟩ | ⟨-, -, hwrite⟩ := write_cases bytes link
  · rw [hwrite]
    exact h
  · rw [hwrite]
    exact ⟨h.taken, h.conserved⟩

end Conserves

/-- What was read is, with what is still unread, everything that was queued. -/
theorem conserves_after (h : (queued history).length ≤ capacity) :
    Conserves (after history) (returned history) (queued history) := by
  -- What was queued earlier is no longer than what was queued in all, so there was room for it.
  induction history with
  | nil => exact ⟨rfl, rfl⟩
  | cons act earlier ih =>
      show Conserves ((after earlier).act act) _ _
      cases act with
      | queueBytes bytes =>
          have hearlier := ih (by rw [queued, List.length_append] at h; omega)
          have hpieces : [bytes].flatten = bytes := List.flatten_singleton
          have hqueued := hearlier.queueAll [bytes] (by rwa [hpieces])
          rwa [hpieces] at hqueued
      | queueReplies lines =>
          have hearlier := ih (by rw [queued, List.length_append] at h; omega)
          have hpieces := flatten_pieces lines (after earlier)
          rw [lineEnding_after] at hpieces
          have hqueued := hearlier.queueAll ((after earlier).pieces lines)
            (by rwa [hpieces])
          rwa [hpieces] at hqueued
      | read room =>
          have hearlier := ih h
          rw [EmulatedLink.act, returned]
          obtain ⟨fault, hread⟩ | ⟨-, -, hread⟩ := read_cases room (after earlier)
          · rw [hread]
            exact hearlier
          · rw [hread]
            refine ⟨?_, ?_⟩
            · rw [List.length_append, ← hearlier.taken]
            · rw [List.append_assoc, List.take_append_drop]
              exact hearlier.conserved
      | write bytes => exact (ih h).write bytes
      | endLinesWith | clearWritten | failReads | failWrites =>
          have hearlier := ih h
          exact ⟨hearlier.taken, hearlier.conserved⟩

/-- Whatever is done to an emulated link that has room for all that is queued, it is a pipe. A
moment of a history is the end of a shorter one, so it is one at all times. -/
theorem faithful_of_history (history : List Act) (h : (queued history).length ≤ capacity) :
    Faithful history (after history) := by
  have hconserves := conserves_after h
  constructor
  case in_order => exact ⟨_, hconserves.conserved⟩
  case drained_iff =>
    rw [isDrained, List.isEmpty_iff, hconserves.unread_eq_nil_iff]
  case queues_iff =>
    intro pieces
    rw [queueAll_iff _ _ (by rw [hconserves.length_eq]; exact h), hconserves.length_eq]
  case reads_iff =>
    intro room bytes
    rw [← hconserves.unread_eq, ne_eq, ← hconserves.unread_eq_nil_iff, ← failReads_after]
    unfold read
    cases (after history).failReads with
    | true => simp
    | false => cases (after history).unread <;> simp [eq_comm]
  case read_fails =>
    intro room fault hfault
    obtain ⟨_, hread⟩ | ⟨-, -, hread⟩ := read_cases room (after history)
    · rw [hread]
    · rw [hread] at hfault
      cases hfault
  case written_eq => exact written_after history
  case writes_iff =>
    intro bytes count
    rw [← failWrites_after, ← written_after]
    unfold write
    cases (after history).failWrites with
    | true => simp
    | false =>
      by_cases hroom : (after history).written.length + bytes.length ≤ capacity <;>
        simp [hroom, eq_comm]
  case write_fails =>
    intro bytes fault hfault
    obtain ⟨_, hwrite⟩ | ⟨-, -, hwrite⟩ := write_cases bytes (after history)
    · rw [hwrite]
    · rw [hwrite] at hfault
      cases hfault

/-- A link on which reads and writes are made to fail for a while, the latest act first. -/
def interrupted : List Act :=
  [.read 6, .write (Text.bytes "p;"), .clearWritten, .failWrites false, .write (Text.bytes "M2;"),
    .failWrites true, .queueReplies ["p7!"], .endLinesWith [10], .failReads false, .read 4,
    .failReads true, .read 3, .write (Text.bytes "B0;"), .queueReplies ["B0!", "M2!"],
    .endLinesWith [13, 10]]

theorem faithful_interrupted :
    (queued interrupted).length ≤ capacity ∧
      queued interrupted = Text.bytes "B0!\r\nM2!\r\np7!\n" ∧
      returned interrupted = Text.bytes "B0!\r\nM2!\r" ∧
      recorded interrupted = Text.bytes "p;" ∧ Faithful interrupted (after interrupted) := by
  have hfits : (queued interrupted).length ≤ capacity := by decide +kernel
  exact ⟨hfits, by decide +kernel, by decide +kernel, by decide +kernel,
    faithful_of_history interrupted hfits⟩

/-! ## What a connection does to its link

It writes, and it reads one byte at a time, so a link that is a pipe to the connection's history
is one to the connection. -/

/-- What a connection does to its link. -/
inductive Act.OnWire : Act → Prop
  | write (bytes : List UInt8) : OnWire (.write bytes)
  | read : OnWire (.read 1)

/-- A link that a connection had to do with in between. -/
def Moved (link link' : EmulatedLink) : Prop :=
  ∃ acts : List Act, (∀ act ∈ acts, act.OnWire) ∧
    link' = link.actAll acts

namespace Moved

variable {link' link'' : EmulatedLink}

theorem refl (link : EmulatedLink) : Moved link link :=
  ⟨[], nofun, rfl⟩

theorem trans (h : Moved link link') (h' : Moved link' link'') : Moved link link'' := by
  obtain ⟨acts, hacts, rfl⟩ := h
  obtain ⟨acts', hacts', rfl⟩ := h'
  exact ⟨acts' ++ acts, List.forall_mem_append.mpr ⟨hacts', hacts⟩, List.foldr_append.symm⟩

theorem single {act : Act} (h : act.OnWire) (link : EmulatedLink) : Moved link (link.act act) :=
  ⟨[act], by simpa using h, rfl⟩

theorem send (bytes : List UInt8) (link : EmulatedLink) : Moved link (Link.send bytes link).2 := by
  show Moved link (link.writeAll bytes).2
  unfold writeAll
  split
  · exact refl link
  · exact single (.write bytes) link

theorem receive (link : EmulatedLink) : Moved link (Link.receive link).2 := by
  have hread : (EmulatedLink.receive link).2 = link.act (.read 1) := by
    unfold EmulatedLink.receive
    split <;> next h => rw [EmulatedLink.act, h]
  show Moved link (EmulatedLink.receive link).2
  rw [hread]
  exact single .read link

theorem collect (terminator : UInt8) (room : Nat) (link : EmulatedLink) :
    Moved link (Line.collect terminator room link).2 := by
  have hreceive {arrival : Arrival EmulatedFault} {link link' : EmulatedLink}
      (h : Link.receive link = (arrival, link')) : Moved link link' := by
    have hmoved := receive link
    rwa [h] at hmoved
  fun_induction Line.collect terminator room link with
  | case1 room link rest h => exact hreceive h
  | case2 room link fault rest h => exact hreceive h
  | case3 room link byte h => exact hreceive h
  | case4 link byte rest h hne => exact hreceive h
  | case5 link byte rest h hne room bytes ending last hcollect ih =>
      rw [hcollect] at ih
      exact (hreceive h).trans ih

theorem ask {capacity : Nat} {terminator : UInt8} {request : String}
    {r : Except (Error EmulatedFault) String}
    (h : Line.ask capacity terminator request link = (r, link')) : Moved link link' := by
  have hsend := send (Text.bytes request) link
  unfold Line.ask at h
  split at h
  · next hfault =>
      rw [hfault] at hsend
      cases h
      exact hsend
  · next rest hsent =>
      rw [hsent] at hsend
      cases h
      exact hsend.trans (collect terminator capacity rest)

end Moved

theorem queued_append {acts : List Act} (h : ∀ act ∈ acts, act.OnWire) (history : List Act) :
    queued (acts ++ history) = queued history := by
  induction acts with
  | nil => rfl
  | cons act acts ih =>
      obtain ⟨hact, hacts⟩ := List.forall_mem_cons.mp h
      cases hact with
      | write bytes => exact ih hacts
      | read => exact ih hacts

/-- Whatever a connection does, what it takes is what was queued for it, in order and without a
gap, and all that is on record is what it wrote. -/
theorem faithful_connected_run {κ : Type} [Clock κ] (start : Session EmulatedLink EmulatedFault κ)
    (calls : List Call) (hlink : start.link = after history)
    (hfits : (queued history).length ≤ capacity) :
    let s := (start.perform Step.connect).2.performAll calls
    ∃ acts, (∀ act ∈ acts, act.OnWire) ∧ s.link = after (acts ++ history) ∧
      queued (acts ++ history) = queued history ∧ Faithful (acts ++ history) s.link := by
  intro s
  obtain ⟨acts, hwire, hmoved⟩ : Moved start.link s.link :=
    link_connected_run .refl .trans .ask start calls
  have hafter : s.link = after (acts ++ history) := by
    rw [hmoved, hlink]
    exact List.foldr_append.symm
  have hqueued := queued_append hwire history
  refine ⟨acts, hwire, hafter, hqueued, ?_⟩
  rw [hafter]
  exact faithful_of_history _ (by rwa [hqueued])

end EmulatedLink

end DacRack
