import DacRack.Proofs.LockStep
import DacRack.Proofs.ReplyGrammar

/-!
# Talks with an instrument that answers as it should

A talk is what is said in turn, a request of the host's and the line that answers it, and again.
`Session.Told` says of a link that a talk is what will be said over it: each request is answered
by one line that fits in the buffer. `Obtains talk step a` says that this is all a step needs to
come to `a`, and that it leaves the link where the talk ends. Talks are joined as steps are
(`Obtains.bind`).

Nothing is assumed of the buffer but that the answers fit. A request fits where its answer does,
since a number is never shorter in a reply than in a request (`Reply.Spelled.length_le`).
-/

namespace DacRack

variable {σ φ κ α β : Type}

namespace Text

variable {text digits : List Char}

theorem placeValue_lt (h : ∀ c ∈ digits, '0' ≤ c ∧ c ≤ '9') :
    placeValue digits < 10 ^ digits.length := by
  induction digits with
  | nil => decide
  | cons c digits ih =>
      obtain ⟨⟨-, hc⟩, hdigits⟩ := List.forall_mem_cons.mp h
      have hvalue : digitValue c ≤ 9 := Nat.sub_le_sub_right (show c.toNat ≤ 57 from hc) 48
      have hrest := ih hdigits
      have hfirst := Nat.mul_le_mul_right (10 ^ digits.length) hvalue
      rw [placeValue, List.length_cons, Nat.pow_succ]
      omega

/-- No numeral of a number is shorter than the number is when it is written. -/
theorem Numeral.length_le {n : Int} (h : Numeral text n) :
    (intDigits n).length ≤ text.length := by
  have hpos {digits : List Char} (h : Digits digits) : 0 < digits.length :=
    List.length_pos_iff.mpr h.some
  cases h with
  | unsigned h => exact length_natDigits_le (hpos h) (placeValue_lt h.all)
  | plus h => exact Nat.le_succ_of_le (length_natDigits_le (hpos h) (placeValue_lt h.all))
  | minus h =>
      refine length_intDigits_le (hpos h) ?_
      rw [Int.natAbs_neg, Int.natAbs_natCast]
      exact placeValue_lt h.all

/-- Every character takes a byte. -/
theorem length_le_bytes (text : String) : text.toList.length ≤ (bytes text).length := by
  have hbytes := bytes_eq text.toList
  rw [String.ofList_toList] at hbytes
  rw [hbytes]
  induction text.toList with
  | nil => exact Nat.le_refl 0
  | cons c rest ih =>
      have hc := c.utf8Size_pos
      rw [List.flatMap_cons, List.length_append, String.length_utf8EncodeChar, List.length_cons]
      omega

end Text

/-- A number takes no more room in a request than in a reply. -/
theorem Reply.Spelled.length_le {letter : Char} {n : Int} {raw : List Char}
    (h : Spelled letter n raw) : (Text.intDigits n).length + 2 ≤ raw.length := by
  obtain ⟨-, -, -, -, -, hnumeral⟩ := h
  have hlength := hnumeral.length_le
  simp only [List.length_append, List.length_singleton]
  omega

/-- What is said in turn, requests and their answers. -/
abbrev Talk := List (List Command × String)

section

variable [Link σ φ]

/-- Each request of the talk will be answered by its line, which fits in the buffer, and the link
is `last` after that. -/
def Session.Told (s : Session σ φ κ) (talk : Talk) (last : σ) : Prop :=
  Answered s.capacity s.config.terminator s.link
    (talk.map fun turn => Request.commands turn.1).reverse
    (talk.map fun turn => Text.bytes turn.2).reverse last

namespace Step

/-- The step comes to `a` where the talk is what will be said, and to the end of the talk. -/
def Obtains (talk : Talk) (step : Step σ φ κ α) (a : α) : Prop :=
  ∀ s last, s.Told talk last → Ends step s fun _ r s' => r = .ok a ∧ s'.link = last

variable {talk talk' : Talk} {a : α} {b : β}

theorem Obtains.bind {step : Step σ φ κ α} {next : α → Step σ φ κ β}
    (h : Obtains talk step a) (hnext : Obtains talk' (next a) b) :
    Obtains (talk ++ talk') (step >>= next) b := by
  intro s last htold
  unfold Session.Told at htold
  rw [List.map_append, List.reverse_append, List.map_append, List.reverse_append] at htold
  obtain ⟨lines, lines', link, hlines, hfirst, hlater⟩ := htold.split
  have hlength := hlater.length_eq
  obtain ⟨rfl, rfl⟩ := List.append_inj hlines (by rw [hlength]; simp)
  refine (h s link hfirst).bind (fun _ _ _ _ hends => ?_) fun made a' s' hg hends => ?_
  · cases hends.1
  · obtain ⟨⟨⟩, rfl⟩ := hends
    rw [← hg.capacity, ← hg.config] at hlater
    exact (hnext s' last hlater).mono fun _ _ _ _ hends' => hends'

/-- Nothing has to be said for what the host does by itself. -/
theorem obtains_silent {step : Step σ φ κ α}
    (h : ∀ s, Ends step s fun _ r s' => r = .ok a ∧ s'.link = s.link) : Obtains [] step a := by
  intro s last htold
  cases htold
  exact h s

theorem Obtains.then {step : Step σ φ κ α} {next : α → Step σ φ κ β}
    (h : Obtains talk step a) (hnext : Obtains [] (next a) b) :
    Obtains talk (step >>= next) b := by
  have hbind := h.bind hnext
  rwa [List.append_nil] at hbind

theorem obtains_pure (a : α) : Obtains [] (pure a : Step σ φ κ α) a :=
  obtains_silent fun _ => ends_pure ⟨rfl, rfl⟩

theorem obtains_understand {result : Except ReplyError α} (h : result = .ok a) :
    Obtains [] (understand result : Step σ φ κ α) a := by
  rw [h]
  exact obtains_pure a

theorem obtains_ensure {e : Error φ} {condition : Bool} (h : condition = true) :
    Obtains [] (ensure e condition : Step σ φ κ Unit) () := by
  rw [h]
  exact obtains_pure ()

theorem obtains_note {entry : Note φ} (h : ∀ e, entry ≠ .exchange e) :
    Obtains [] (note entry : Step σ φ κ Unit) () := by
  refine obtains_silent fun s => ?_
  obtain ⟨made, hg, -, hlink⟩ := silent_note h s
  exact ⟨made, hg, rfl, hlink⟩

/-- A request is answered by its line where it is no longer than that. -/
theorem obtains_transact {target : Target} {commands : List Command} {reply : String}
    (hroom : (commands.flatMap Command.wire).length ≤ (Text.bytes reply).length) :
    Obtains [(commands, reply)] (transact target commands : Step σ φ κ String) reply := by
  intro s last htold
  cases htold with
  | cons earlier hsent hanswered hapart hfits =>
      cases earlier
      refine ends_transact_ask (fun hlong => ?_) fun outcome s' _ _ hask => ?_
      · exact absurd (Nat.le_trans hroom hfits) (Nat.not_le_of_lt hlong)
      · rw [Line.ask_line hsent hanswered hapart hfits] at hask
        obtain ⟨houtcome, hlink⟩ := Prod.mk.inj hask
        rw [Line.text, Text.ofBytes?_bytes] at houtcome
        exact ⟨houtcome.symm, hlink.symm⟩

end Step

end

end DacRack
