import DacRack.Proofs.Lines
import DacRack.Proofs.Transactions

/-!
# How a line ends

The bytes at the head of a link, up to the first arrival that is not a byte of the line, are
its head run. Every link has exactly one (`exists_headRun`, `HeadRun.unique`), because what has
yet to arrive is finite. A head run that fits is collected with the one arrival after it and
nothing else (`Line.collect_headRun`), and of one that does not fit, the first bytes and one
too many (`Line.collect_headRun_long`).

So what comes of asking is read off the head run and the arrival after it (`Line.ask_cases`,
`Step.ask_settles`): the arrival may end the line (`Finishes`), and where it does not, it is
what the failure says.
-/

namespace DacRack

section

variable {σ φ : Type} [Link σ φ] {terminator : UInt8} {link link' rest rest' : σ}
  {bytes bytes' : List UInt8} {next next' : Arrival φ}

/-- The longest row of bytes at the head of a link of which none is the terminator, the arrival
after them, and the link after that. -/
structure HeadRun (terminator : UInt8) (link : σ) (bytes : List UInt8) (next : Arrival φ)
    (rest : σ) : Prop where
  delivered : ∃ link', Delivers link bytes link' ∧ Link.receive link' = (next, rest)
  apart : terminator ∉ bytes
  longest : ∀ byte, next = .byte byte → byte = terminator

namespace HeadRun

theorem nil (h : Link.receive link = (next, rest))
    (hstop : ∀ byte, next = .byte byte → byte = terminator) :
    HeadRun terminator link [] next rest :=
  ⟨⟨link, .nil link, h⟩, List.not_mem_nil, hstop⟩

theorem cons {byte : UInt8} (h : Link.receive link = (.byte byte, link'))
    (hne : byte ≠ terminator) (hrun : HeadRun terminator link' bytes next rest) :
    HeadRun terminator link (byte :: bytes) next rest := by
  obtain ⟨last, hdelivers, hnext⟩ := hrun.delivered
  refine ⟨⟨last, .cons h hdelivers, hnext⟩, ?_, hrun.longest⟩
  exact mt List.mem_cons.mp (not_or.mpr ⟨Ne.symm hne, hrun.apart⟩)

theorem unique (h : HeadRun terminator link bytes next rest)
    (h' : HeadRun terminator link bytes' next' rest') :
    bytes' = bytes ∧ next' = next ∧ rest' = rest := by
  obtain ⟨last, hdelivers, hnext⟩ := h.delivered
  obtain ⟨last', hdelivers', hnext'⟩ := h'.delivered
  have hapart := h.apart
  have hapart' := h'.apart
  -- Where only one of the two goes on, it does so with the terminator.
  induction hdelivers generalizing bytes' with
  | nil link =>
      cases hdelivers' with
      | nil => exact ⟨rfl, Prod.mk.inj (hnext'.symm.trans hnext)⟩
      | cons hreceive _ =>
          cases hreceive.symm.trans hnext
          exact absurd (h.longest _ rfl) fun heq => hapart' (heq ▸ List.mem_cons_self)
  | cons hreceive hrest ih =>
      cases hdelivers' with
      | nil =>
          cases hreceive.symm.trans hnext'
          exact absurd (h'.longest _ rfl) fun heq => hapart (heq ▸ List.mem_cons_self)
      | cons hreceive' hrest' =>
          cases hreceive.symm.trans hreceive'
          have hapart := fun hmem => hapart (List.mem_cons_of_mem _ hmem)
          have hapart' := fun hmem => hapart' (List.mem_cons_of_mem _ hmem)
          obtain ⟨rfl, hafter⟩ := ih ⟨⟨_, hrest, hnext⟩, hapart, h.longest⟩
            ⟨⟨_, hrest', hnext'⟩, hapart', h'.longest⟩ hnext hrest' hapart hapart'
          exact ⟨rfl, hafter⟩

end HeadRun

theorem exists_headRun (terminator : UInt8) (link : σ) :
    ∃ (bytes : List UInt8) (next : Arrival φ) (rest : σ),
      HeadRun terminator link bytes next rest := by
  cases hnext : Link.receive link with
  | mk next rest =>
      cases next with
      | nothing => exact ⟨[], .nothing, rest, .nil hnext nofun⟩
      | fault fault => exact ⟨[], .fault fault, rest, .nil hnext nofun⟩
      | byte byte =>
          by_cases hne : byte = terminator
          · exact ⟨[], .byte byte, rest, .nil hnext fun _ h => Arrival.byte.inj h ▸ hne⟩
          · have hless : Link.supply rest < Link.supply link := by
              have h := Link.supply_receive_byte link byte (by rw [hnext])
              rwa [hnext] at h
            obtain ⟨bytes, next, last, hrun⟩ := exists_headRun terminator rest
            exact ⟨byte :: bytes, next, last, hrun.cons hnext hne⟩
termination_by Link.supply link

namespace Line

/-- How collecting ends with an arrival that is no byte of the line. -/
def endOf : Arrival φ → LineEnd φ
  | .byte _ => .terminator
  | .nothing => .nothing
  | .fault fault => .fault fault

theorem collect_headRun (h : HeadRun terminator link bytes next rest) {room : Nat}
    (hfits : bytes.length ≤ room) :
    collect terminator room link = ((bytes, endOf next), rest) := by
  obtain ⟨last, hdelivers, hnext⟩ := h.delivered
  obtain ⟨left, rfl⟩ := Nat.exists_eq_add_of_le hfits
  have hend : collect terminator left last = (([], endOf next), rest) := by
    cases next with
    | byte byte =>
        obtain rfl := h.longest byte rfl
        exact collect_terminator hnext left
    | nothing =>
        unfold collect
        rw [hnext]
        rfl
    | fault fault =>
        unfold collect
        rw [hnext]
        rfl
  rw [collect_bytes hdelivers h.apart, hend, List.append_nil]

/-- Of a head run that does not fit, one byte more is taken than there is room for. -/
theorem collect_headRun_long (h : HeadRun terminator link bytes next rest) {room : Nat}
    (hlong : room < bytes.length) :
    ∃ link', Delivers link (bytes.take (room + 1)) link' ∧
      collect terminator room link = ((bytes.take room, .overflow), link') := by
  obtain ⟨last, hdelivers, -⟩ := h.delivered
  rw [← List.take_append_drop (room + 1) bytes] at hdelivers
  obtain ⟨link', htaken, -⟩ := hdelivers.split
  refine ⟨link', htaken, ?_⟩
  have hlength : (bytes.take (room + 1)).length = room + 1 := by
    rw [List.length_take]
    omega
  rw [collect_overlong htaken (fun hmem => h.apart (List.mem_of_mem_take hmem)) hlength,
    List.take_take, Nat.min_eq_left (Nat.le_succ room)]

end Line

/-- The result is the text that is made of the bytes, or that they are the bytes of no text. -/
def Spells (bytes : List UInt8) (r : Except (Error φ) String) : Prop :=
  (∃ text, Text.bytes text = bytes ∧ r = .ok text) ∨
    (∀ text, Text.bytes text ≠ bytes) ∧ r = .error (.reply .notText)

theorem spells_text (bytes : List UInt8) : Spells bytes (Line.text bytes : Except (Error φ) _) := by
  unfold Line.text
  cases htext : Text.ofBytes? bytes with
  | some text => exact .inl ⟨text, Text.bytes_of_ofBytes? htext, rfl⟩
  | none =>
      refine .inr ⟨fun text hbytes => ?_, rfl⟩
      rw [← hbytes, Text.ofBytes?_bytes] at htext
      cases htext

theorem Spells.eq_ok {text : String} {r : Except (Error φ) String}
    (h : Spells (Text.bytes text) r) : r = .ok text := by
  rcases h with ⟨text', hbytes, rfl⟩ | ⟨hnone, -⟩
  · have hsame := Text.ofBytes?_bytes text'
    rw [hbytes, Text.ofBytes?_bytes] at hsame
    rw [Option.some.inj hsame]
  · exact absurd rfl (hnone text)

variable (σ) in
/-- The arrival after the bytes of a line ends it: the terminator does, and where there is
something to return, so do the end of the stream and a pause. -/
inductive Finishes (terminator : UInt8) (bytes : List UInt8) : Arrival φ → Prop
  | terminator : Finishes terminator bytes (.byte terminator)
  | nothing (hsome : bytes ≠ []) : Finishes terminator bytes .nothing
  | pause {fault : φ} (hsome : bytes ≠ [])
      (hpause : Link.kind σ fault = .other ∨ Link.kind σ fault = .timedOut) :
      Finishes terminator bytes (.fault fault)

variable (σ) in
/-- What comes of the bytes of a line that fits and the arrival after them. -/
inductive Settles (terminator : UInt8) :
    List UInt8 → Arrival φ → Except (Error φ) String → Prop
  | line {bytes : List UInt8} {next : Arrival φ} {r : Except (Error φ) String}
      (hends : Finishes σ terminator bytes next) (hspells : Spells bytes r) :
      Settles terminator bytes next r
  | empty : Settles terminator [] .nothing (.error (.reply .empty))
  | fault {bytes : List UInt8} {fault : φ}
      (hfails : ¬ Finishes σ terminator bytes (.fault fault)) :
      Settles terminator bytes (.fault fault) (.error (.link fault))

theorem FaultKind.isPause_iff (kind : FaultKind) :
    kind.isPause = true ↔ kind = .other ∨ kind = .timedOut := by
  cases kind <;> decide

theorem Line.settles_judge (h : HeadRun terminator link bytes next rest) :
    Settles σ terminator bytes next (judge σ bytes (endOf next)) := by
  cases next with
  | byte byte =>
      obtain rfl := h.longest byte rfl
      exact .line .terminator (spells_text bytes)
  | nothing =>
      cases bytes with
      | nil => exact .empty
      | cons byte bytes => exact .line (.nothing (List.cons_ne_nil _ _)) (spells_text _)
  | fault fault =>
      show Settles σ terminator bytes _ (if _ then text bytes else .error (.link fault))
      split
      · next hpause =>
          obtain ⟨hpause, hsome⟩ := Bool.and_eq_true_iff.mp hpause
          refine .line (.pause ?_ ((FaultKind.isPause_iff _).mp hpause)) (spells_text _)
          rintro rfl
          cases hsome
      · next hfails =>
          refine .fault fun hfinishes => hfails ?_
          cases hfinishes with
          | pause hsome hpause =>
              rw [(FaultKind.isPause_iff _).mpr hpause, Bool.true_and, Bool.not_eq_true']
              exact List.isEmpty_eq_false_iff.mpr hsome

/-- A request is not sent, or more comes than there is room for, or what comes settles it. -/
theorem Line.ask_cases {capacity : Nat} {request : String} {link' : σ}
    {r : Except (Error φ) String} (hask : ask capacity terminator request link = (r, link')) :
    (∃ fault, Link.send (Text.bytes request) link = (.error fault, link') ∧
        r = .error (.link fault)) ∨
      ∃ start bytes next rest, Link.send (Text.bytes request) link = (.ok (), start) ∧
        HeadRun terminator start bytes next rest ∧
        ((capacity < bytes.length ∧ r = .error .tooLong ∧
            Delivers start (bytes.take (capacity + 1)) link') ∨
          (bytes.length ≤ capacity ∧ link' = rest ∧ Settles σ terminator bytes next r)) := by
  unfold ask at hask
  cases hsend : Link.send (Text.bytes request) link with
  | mk outcome start =>
      rw [hsend] at hask
      cases outcome with
      | error fault =>
          obtain ⟨rfl, rfl⟩ := Prod.mk.inj hask
          exact .inl ⟨fault, rfl, rfl⟩
      | ok _ =>
          obtain ⟨bytes, next, rest, hrun⟩ := exists_headRun terminator start
          refine .inr ⟨start, bytes, next, rest, rfl, hrun, ?_⟩
          rcases Nat.lt_or_ge capacity bytes.length with hlong | hfits
          · obtain ⟨last, htaken, hcollect⟩ := collect_headRun_long hrun hlong
            simp only [hcollect] at hask
            obtain ⟨rfl, rfl⟩ := Prod.mk.inj hask
            exact .inl ⟨hlong, rfl, htaken⟩
          · simp only [collect_headRun hrun hfits] at hask
            obtain ⟨rfl, rfl⟩ := Prod.mk.inj hask
            exact .inr ⟨hfits, rfl, settles_judge hrun⟩

/-- Says what was sent: a success adds all of the bytes, and receiving adds none. -/
structure Records (sent : σ → List UInt8) : Prop where
  send {bytes : List UInt8} {link link' : σ} :
    Link.send bytes link = (.ok (), link') → sent link' = sent link ++ bytes
  receive (link : σ) : sent (Link.receive link).2 = sent link

theorem Records.delivers {sent : σ → List UInt8} (h : Records sent)
    (hdelivers : Delivers link bytes link') : sent link' = sent link := by
  induction hdelivers with
  | nil => rfl
  | @cons link _ _ _ _ hreceive _ ih =>
      have hsame := h.receive link
      rw [hreceive] at hsame
      exact ih.trans hsame

theorem Records.headRun {sent : σ → List UInt8} (h : Records sent)
    (hrun : HeadRun terminator link bytes next rest) : sent rest = sent link := by
  obtain ⟨last, hdelivers, hnext⟩ := hrun.delivered
  have hsame := h.receive last
  rw [hnext] at hsame
  exact hsame.trans (h.delivers hdelivers)

end

theorem ScriptedLink.records : Records ScriptedLink.sent where
  send {bytes link link'} h := by
    change ScriptedLink.send bytes link = _ at h
    unfold ScriptedLink.send at h
    split at h
    · cases h
      rfl
    · split at h
      · cases h
        rfl
      · cases h
  receive _ := rfl

variable {σ φ κ : Type} [Link σ φ]

/-- Asking sends the command or fails as sending did. Of what comes then it takes the head run
and the one arrival after it, where the head run fits, and as much as does not fit otherwise. -/
theorem Step.ask_settles (command : String) (s : Session σ φ κ) :
    Ends (ask command) s fun made r s' => made = [⟨.instrument, .text command, r⟩] ∧
      ((∃ fault, Link.send (Text.bytes command) s.link = (.error fault, s'.link) ∧
          r = .error (.link fault)) ∨
        ∃ link bytes next rest,
          Link.send (Text.bytes command) s.link = (.ok (), link) ∧
          HeadRun s.config.terminator link bytes next rest ∧
          (∀ sent, Records sent → sent s'.link = sent s.link ++ Text.bytes command) ∧
          ((s.capacity < bytes.length ∧ r = .error .tooLong ∧
              Delivers link (bytes.take (s.capacity + 1)) s'.link) ∨
            (bytes.length ≤ s.capacity ∧ s'.link = rest ∧
              Settles σ s.config.terminator bytes next r))) := by
  refine ends_exchange_ask fun r s' _ hask => ⟨rfl, ?_⟩
  unfold Line.ask at hask
  cases hsend : Link.send (Text.bytes command) s.link with
  | mk outcome link =>
      rw [show (Request.text command).wire = command from rfl, hsend] at hask
      cases outcome with
      | error fault =>
          obtain ⟨rfl, rfl⟩ := Prod.mk.inj hask
          exact .inl ⟨fault, rfl, rfl⟩
      | ok _ =>
          obtain ⟨bytes, next, rest, hrun⟩ := exists_headRun s.config.terminator link
          refine .inr ⟨link, bytes, next, rest, rfl, hrun, ?_⟩
          rcases Nat.lt_or_ge s.capacity bytes.length with hlong | hfits
          · obtain ⟨link', htaken, hcollect⟩ := Line.collect_headRun_long hrun hlong
            simp only [hcollect] at hask
            obtain ⟨rfl, rfl⟩ := Prod.mk.inj hask
            refine ⟨fun sent hsent => ?_, .inl ⟨hlong, rfl, htaken⟩⟩
            rw [hsent.delivers htaken, hsent.send hsend]
          · simp only [Line.collect_headRun hrun hfits] at hask
            obtain ⟨rfl, rfl⟩ := Prod.mk.inj hask
            refine ⟨fun sent hsent => ?_, .inr ⟨hfits, rfl, Line.settles_judge hrun⟩⟩
            rw [hsent.headRun hrun, hsent.send hsend]

/-- A connection with a link that pauses within a line. -/
def hesitant : Session ScriptedLink FaultKind SteppingClock :=
  { link := { script := (Text.bytes "B0!").map .byte ++ [.fault .timedOut, .byte 65, .byte 10] }
    clock := {} }

/-- The pause ends the line, and what came after it is still there. -/
theorem ask_hesitant :
    (hesitant.perform (Step.ask "B0;")).1 = .ok "B0!" ∧
      (hesitant.perform (Step.ask "B0;")).2.link.script = [.byte 65, .byte 10] ∧
      (hesitant.perform (Step.ask "B0;")).2.link.sent = Text.bytes "B0;" := by
  obtain ⟨made, -, -, hsettles⟩ := Step.ask_settles "B0;" hesitant
  rcases hsettles with ⟨fault, hsend, -⟩ | ⟨link, bytes, next, rest, hsend, hrun, hsent, hends⟩
  · cases hsend
  have hpauses : HeadRun 10 link (Text.bytes "B0!") (.fault .timedOut)
      { script := [.byte 65, .byte 10], sent := Text.bytes "B0;" : ScriptedLink } := by
    obtain rfl := (Prod.mk.inj hsend).2
    exact ⟨⟨_, ScriptedLink.delivers { sent := Text.bytes "B0;" } _
      [.fault .timedOut, .byte 65, .byte 10], rfl⟩, by decide, nofun⟩
  obtain ⟨rfl, rfl, rfl⟩ := hpauses.unique hrun
  rcases hends with ⟨hlong, -⟩ | ⟨-, hrest, hsettles⟩
  · exact absurd hlong (by decide)
  refine ⟨?_, by rw [hrest], hsent _ ScriptedLink.records⟩
  generalize (hesitant.perform (Step.ask "B0;")).1 = r at hsettles ⊢
  cases hsettles with
  | line _ hspells => exact hspells.eq_ok
  | fault hfails => exact absurd (.pause (by decide) (.inr rfl)) hfails

end DacRack
