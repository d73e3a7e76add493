import DacRack.Proofs.Lines
import DacRack.Proofs.Refusals

/-!
# Buffers that are large enough

A buffer has to hold what is sent and what is answered. No transaction takes more than 17
bytes, so with that much room nothing is ever too long to be sent (`Error.Cramped`), and this
carries over from the parts to every call. What is left is a line that does not fit, and then
there is a transaction that got it (`Overlong`): the transactions of a step find the link one
after the other where the one before left it (`Asked`).
-/

namespace DacRack

variable {σ φ κ α β : Type}

/-- Something was too long, which takes a buffer of less than 17 bytes. -/
def Error.Cramped (capacity : Nat) (e : Error φ) : Prop :=
  e = .tooLong → capacity < 17

theorem Error.Late.cramped {capacity : Nat} {e : Error φ} (h : e.Late capacity) :
    e.Cramped capacity := by
  rintro rfl
  cases h with
  | tooLong h => exact h

theorem Error.IsRefusal.cramped {capacity : Nat} {e : Error φ} (h : e.IsRefusal) :
    e.Cramped capacity := by
  rintro rfl
  exact absurd h id

theorem Unspent.cramped {s s' : Session σ φ κ} {capacity : Nat} {e : Error φ}
    (h : Unspent s s' capacity e) : e.Cramped capacity := by
  rcases h with ⟨hrefusal, -⟩ | hlate
  · exact hrefusal.cramped
  · exact hlate.cramped

theorem Error.OfPlan.cramped {capacity : Nat} {e : Error φ} (h : e.OfPlan) :
    e.Cramped capacity := by
  rintro rfl
  cases h

namespace Step

theorem Fails.cramped {step : Step σ φ κ α} (h : Fails Error.Late step) :
    Fails Error.Cramped step :=
  h.mono fun _ _ => Error.Late.cramped

theorem Careful.cramped {step : Step σ φ κ α} (h : Careful step) : Fails Error.Cramped step :=
  fun s => (h s).mono fun _ _ _ _ hfails =>
    hfails.mono (fun _ => Unspent.cramped) (List.Subset.refl _)

variable [Link σ φ] [Clock κ]

theorem cramped_setVolt (channel : Channel) (volt : Float) :
    Fails Error.Cramped (setVolt channel volt : Step σ φ κ Unit) := by
  intro s
  refine (ends_setVolt_failed channel volt s).mono fun made r s' _ hfails => ?_
  refine hfails.mono ?_ (List.Subset.refl _)
  rintro e (hunspent | ⟨-, hplan, -⟩)
  · exact hunspent.cramped
  · exact hplan.cramped

theorem cramped_ramp (channel : Channel) (target rate : Float) (wait : Bool) :
    Fails Error.Cramped (ramp channel target rate wait : Step σ φ κ Unit) := by
  intro s
  refine (ends_ramp_failed channel target rate wait s).mono fun made r s' _ hfails => ?_
  refine hfails.mono ?_ (List.Subset.refl _)
  rintro e (hunspent | ⟨hplan, -⟩)
  · exact hunspent.cramped
  · exact hplan.cramped

theorem cramped_connect : Fails Error.Cramped (connect : Step σ φ κ Unit) := by
  refine fails_now.bind fun started => fails_probe.bind fun found => ?_
  refine (fails_modifyHost _).bind fun _ => ?_
  have hmodes : Fails Error.Cramped (do
      let mode := (← get).config.slotMode
      (List.finRange slotCount).forM fun slot => setMode slot mode
      let elapsed := (← now).since? started
      note (.connected found.2 (elapsed.getD 0)) : Step σ φ κ Unit) := by
    refine Fails.look fun s => Fails.bind ?_ fun _ => fails_now.bind fun _ =>
      fails_note (by simp)
    exact Fails.forM _ fun slot => (careful_setMode slot _).cramped
  simp only []
  split
  · exact (Fails.forM _ fun channel => (fails_exposePowerOn channel).bind fun _ =>
      fails_pure _).bind fun _ => hmodes
  · exact hmodes

theorem cramped_call (call : Call) : Fails Error.Cramped (call.run : Step σ φ κ Answer) := by
  by_cases hall : call.OnAll
  · cases hall with
    | setAll volt =>
        exact Fails.bind (.forM _ fun channel => cramped_setVolt channel volt) fun _ =>
          fails_pure _
    | rampAll target rate =>
        refine Fails.bind ?_ fun _ => fails_pure _
        refine Fails.bind (.forM _ fun channel => cramped_ramp channel target rate false)
          fun _ => ?_
        refine (fails_note (by simp)).bind fun _ => fails_startWait.bind fun wait => ?_
        exact .forM _ fun channel => (fails_awaitRest channel wait).cramped.bind fun _ =>
          fails_setMotion channel .idle
  · intro s
    refine (call.ends_failed hall s).mono fun made r s' _ hfails => ?_
    refine hfails.mono ?_ (List.Subset.refl _)
    rintro e (hunspent | ⟨_, -, hplan, -⟩)
    · exact hunspent.cramped
    · exact hplan.cramped

end Step

section

variable [Link σ φ]

/-- Transactions, the latest first, each of which asked the link as the ones before it had left
it, and the link after that. -/
inductive Asked (capacity : Nat) (terminator : UInt8) (start : σ) :
    List (Exchange φ) → σ → Prop
  | nil : Asked capacity terminator start [] start
  | cons {made : List (Exchange φ)} {link link' : σ} {e : Exchange φ}
      (earlier : Asked capacity terminator start made link)
      (asked : Line.ask capacity terminator e.request.wire link = (e.outcome, link')) :
      Asked capacity terminator start (e :: made) link'

namespace Asked

variable {capacity : Nat} {terminator : UInt8} {start link last : σ}
  {made later earlier : List (Exchange φ)}

theorem append (h : Asked capacity terminator start earlier link)
    (h' : Asked capacity terminator link later last) :
    Asked capacity terminator start (later ++ earlier) last := by
  induction h' with
  | nil => exact h
  | cons _ asked ih => exact .cons ih asked

theorem split (h : Asked capacity terminator start (later ++ earlier) last) :
    ∃ link, Asked capacity terminator start earlier link := by
  induction later generalizing last with
  | nil => exact ⟨last, h⟩
  | cons e later ih =>
      cases h with
      | cons hearlier _ => exact ih hearlier

end Asked

/-- One of the transactions was sent and was answered with more bytes than there is room for,
before any terminator. -/
def Overlong (capacity : Nat) (terminator : UInt8) (start : σ) (made : List (Exchange φ)) :
    Prop :=
  ∃ (later earlier : List (Exchange φ)) (e : Exchange φ) (link link' link'' : σ)
      (line : List UInt8),
    made = later ++ e :: earlier ∧ Asked capacity terminator start earlier link ∧
      Link.send (Text.bytes e.request.wire) link = (.ok (), link') ∧
      Delivers link' line link'' ∧ terminator ∉ line ∧ capacity < line.length

/-- The line that was too long is among the answers. -/
theorem Asked.overlong {capacity : Nat} {terminator : UInt8} {start last : σ}
    {made : List (Exchange φ)} (h : Asked capacity terminator start made last)
    {e : Exchange φ} (he : e ∈ made) (houtcome : e.outcome = .error .tooLong) :
    Overlong capacity terminator start made := by
  obtain ⟨later, earlier, rfl⟩ := List.append_of_mem he
  obtain ⟨_, hasked⟩ := h.split
  cases hasked with
  | @cons _ link _ _ hearlier hask =>
      rw [houtcome] at hask
      obtain ⟨link', line, hsend, hline, hapart, hlength⟩ := Line.delivers_of_ask hask
      exact ⟨later, earlier, e, link, link', _, line, rfl, hearlier, hsend, hline, hapart,
        by omega⟩

theorem Step.Built.asked {may : Target → Request → Prop} {step : Step σ φ κ α}
    (h : Built may step) (s : Session σ φ κ) :
    Ends step s fun made _ s' =>
      Asked s.capacity s.config.terminator s.link made s'.link := by
  refine h.ends (R := fun s made s' =>
    Asked s.capacity s.config.terminator s.link made s'.link) ?_ ?_ ?_ s
  · intro s s' hlink
    rw [hlink]
    exact .nil
  · exact fun _ _ hask => .cons .nil hask
  · intro s s' s'' made made' hg h h'
    rw [hg.capacity, hg.config] at h'
    exact h.append h'

/-- Everything the step sends is of a form and takes no more than 17 bytes, but for a text that
is to be sent as it is, and with room for that many bytes nothing is too long for it but a
line that does not fit. -/
def Step.Conforms (text? : Option (Target × String)) (step : Step σ φ κ α) : Prop :=
  ∀ s, Ends step s fun made r _ =>
    (∀ e ∈ made,
      ((∃! form : Form, form.InBounds ∧ e.request.wire = form.text) ∧
        (Text.bytes e.request.wire).length ≤ 17) ∨
      ∃ text, e.request = .text text ∧ text? = some (e.target, text)) ∧
    (17 ≤ s.capacity → r = .error .tooLong →
      Overlong s.capacity s.config.terminator s.link made)

theorem Step.conforms {aims : Target → Prop} {text? : Option (Target × String)}
    {step : Step σ φ κ α} (hbuilt : Built (Aimed aims text?) step)
    (hfails : Fails Error.Cramped step) : Conforms text? step := by
  intro s
  refine (((hbuilt.allowed s).and (hbuilt.asked s)).and (hfails s)).mono ?_
  rintro made r s' - ⟨⟨hallowed, hasked⟩, hfails⟩
  refine ⟨fun e he => ?_, ?_⟩
  · rcases hallowed e he with ⟨-, commands, hcommands, hplain⟩ | htext
    · rw [hcommands]
      obtain ⟨form, ⟨hbounds, htext⟩, -⟩ := hplain.existsUnique_form
      refine .inl ⟨hplain.existsUnique_form, ?_⟩
      rw [htext]
      exact Form.length_text_le hbounds
    · exact .inr htext
  · rintro hcapacity rfl
    rcases hfails _ rfl with hcramped | ⟨-, e, he, houtcome⟩
    · have hlt := hcramped rfl
      omega
    · exact hasked.overlong he houtcome

end

/-- Connecting and every call keep to the grammar, and a buffer of 17 bytes is large enough for
all they send. -/
theorem conforms_connect_and_calls [Link σ φ] [Clock κ] :
    (Step.connect : Step σ φ κ Unit).Conforms none ∧
      ∀ call : Call, (call.run : Step σ φ κ Answer).Conforms call.asks? := by
  have hconnect : Step.Composed (fun _ => True) none (Step.connect : Step σ φ κ Unit) :=
    Step.composed_connect (fun _ _ => trivial) fun _ => trivial
  refine ⟨Step.conforms (hconnect.built trivial) Step.cramped_connect, fun call => ?_⟩
  exact Step.conforms ((Step.composed_call call).built call.aims_instrument)
    (Step.cramped_call call)

end DacRack
