import DacRack.Proofs.Echoes
import DacRack.Proofs.Replies
import Mathlib.Data.List.TakeWhile
import Mathlib.Tactic.ByContra
import Mathlib.Tactic.Ring

/-!
# The grammar of replies

A reply that carries a number is a letter, the number and a mark, and there may be white space
between these and around them (`Reply.Spelled`). The letter is any one character that is no white
space, so it may be a digit or a sign. The number is digits with at most one sign before them
(`Text.Numeral`), each of which counts for its place.

A reply is read by taking things off it, one after the other: the white space around it, the
mark, the first character, and the white space around what is left. That comes to the grammar,
because what is taken off can be put back (`Text.exists_trim`), and because neither a letter nor a
mark nor a numeral begins or ends with white space, so that nothing of them is taken off as well
(`Text.trim_wrapped`). Where the mark is missing the reply is unterminated, and where anything
else is wrong with it there is no number in it (`Reply.number_grammar`).
-/

namespace DacRack

namespace Text

/-- Nothing but white space. -/
def Blank (text : List Char) : Prop :=
  ∀ c ∈ text, isBlank c = true

instance (text : List Char) : Decidable (Blank text) :=
  decidable_of_iff (text.all isBlank = true) List.all_eq_true

/-- At least one ASCII digit, and nothing else. -/
structure Digits (text : List Char) : Prop where
  some : text ≠ []
  all : ∀ c ∈ text, '0' ≤ c ∧ c ≤ '9'

/-- What digits amount to, each counting for its place. -/
def placeValue : List Char → Nat
  | [] => 0
  | c :: digits => digitValue c * 10 ^ digits.length + placeValue digits

/-- Digits with at most one sign before them, and the number that they are. -/
inductive Numeral : List Char → Int → Prop
  | unsigned {digits : List Char} (h : Digits digits) : Numeral digits (placeValue digits)
  | plus {digits : List Char} (h : Digits digits) : Numeral ('+' :: digits) (placeValue digits)
  | minus {digits : List Char} (h : Digits digits) :
      Numeral ('-' :: digits) (-(placeValue digits : Int))

section

variable {w w' text digits : List Char} {n : Int}

theorem blank_nil : Blank [] := nofun

/-! ## White space around a text -/

/-- What is taken off at the end is white space. -/
theorem exists_trimEnd (text : List Char) : ∃ w, Blank w ∧ text = trimEnd text ++ w := by
  refine ⟨(text.reverse.takeWhile isBlank).reverse, ?_, ?_⟩
  · intro c hc
    exact List.mem_takeWhile_imp (List.mem_reverse.mp hc)
  · rw [trimEnd, ← List.reverse_append, List.takeWhile_append_dropWhile, List.reverse_reverse]

/-- What trimming takes off is white space. -/
theorem exists_trim (raw : List Char) :
    ∃ w w', Blank w ∧ Blank w' ∧ raw = w ++ trim raw ++ w' := by
  obtain ⟨w', hw', hrest⟩ := exists_trimEnd (raw.dropWhile isBlank)
  refine ⟨raw.takeWhile isBlank, w', ?_, hw', ?_⟩
  · intro c hc
    exact List.mem_takeWhile_imp hc
  · rw [trim, List.append_assoc, ← hrest, List.takeWhile_append_dropWhile]

theorem trimEnd_append (h : Blank w) : trimEnd (text ++ w) = trimEnd text := by
  have hreverse : ∀ c ∈ w.reverse, isBlank c = true := by
    intro c hc
    exact h c (List.mem_reverse.mp hc)
  rw [trimEnd, List.reverse_append, List.dropWhile_append_of_pos hreverse, trimEnd]

theorem trimEnd_concat {c : Char} (hc : isBlank c = false) :
    trimEnd (text ++ [c]) = text ++ [c] := by
  simp [trimEnd, hc]

/-- A text that neither begins nor ends with white space is all that trimming leaves. -/
theorem trim_wrapped {first last : Char} {middle : List Char} (hw : Blank w) (hw' : Blank w')
    (hfirst : isBlank first = false) (hlast : isBlank last = false)
    (htext : text = first :: middle) (hend : text.getLast? = some last) :
    trim (w ++ text ++ w') = text := by
  have hdrop : (w ++ text ++ w').dropWhile isBlank = text ++ w' := by
    rw [List.append_assoc, List.dropWhile_append_of_pos hw, htext]
    simp [hfirst]
  obtain ⟨front, hfront⟩ := List.getLast?_eq_some_iff.mp hend
  rw [trim, hdrop, trimEnd_append hw', hfront, trimEnd_concat hlast]

/-- What trimming leaves does not begin with white space. -/
theorem isBlank_of_trim {first : Char} {middle : List Char} {raw : List Char}
    (h : trim raw = first :: middle) : isBlank first = false := by
  obtain ⟨w, -, hrest⟩ := exists_trimEnd (raw.dropWhile isBlank)
  have hhead := List.head?_dropWhile_not isBlank raw
  rw [trim] at h
  rw [hrest, h] at hhead
  simpa using hhead

/-- The last of a text that is not white space is a mark. -/
theorem getLast?_trim_iff {raw : List Char} :
    (trim raw).getLast? = some '!' ↔ ∃ front w, raw = front ++ '!' :: w ∧ Blank w := by
  constructor
  · intro h
    obtain ⟨front, hfront⟩ := List.getLast?_eq_some_iff.mp h
    obtain ⟨w, w', -, hw', hraw⟩ := exists_trim raw
    refine ⟨w ++ front, w', ?_, hw'⟩
    rw [hfront] at hraw
    simpa using hraw
  · rintro ⟨front, w, rfl, hw⟩
    obtain ⟨front', hdrop⟩ : ∃ front', (front ++ '!' :: w).dropWhile isBlank =
        front' ++ ['!'] ++ w := by
      rw [List.dropWhile_append]
      split
      · exact ⟨[], by simp [show isBlank '!' = false from rfl]⟩
      · exact ⟨front.dropWhile isBlank, by simp⟩
    rw [trim, hdrop, trimEnd_append hw, trimEnd_concat rfl]
    exact List.getLast?_concat

/-! ## Numerals -/

theorem isDigit_iff {c : Char} : c.isDigit = true ↔ '0' ≤ c ∧ c ≤ '9' := by
  simp [Char.isDigit, Char.le_def]

theorem foldDigits_eq_placeValue (before : Nat) (digits : List Char) :
    foldDigits before digits = before * 10 ^ digits.length + placeValue digits := by
  induction digits generalizing before with
  | nil => simp [foldDigits, placeValue]
  | cons c digits ih =>
      have hstep : foldDigits before (c :: digits) =
          foldDigits (10 * before + digitValue c) digits := rfl
      rw [hstep, ih, placeValue, List.length_cons, Nat.pow_succ]
      ring

theorem readNat?_eq_some_iff {n : Nat} :
    readNat? text = some n ↔ Digits text ∧ placeValue text = n := by
  have hall : text.all Char.isDigit = true ↔ ∀ c ∈ text, '0' ≤ c ∧ c ≤ '9' := by
    simp only [List.all_eq_true, isDigit_iff]
  have hvalue : foldDigits 0 text = placeValue text := by
    rw [foldDigits_eq_placeValue, Nat.zero_mul, Nat.zero_add]
  simp only [readNat?, hall, hvalue]
  constructor
  · intro h
    split at h
    · next hdigits => exact ⟨⟨hdigits.1, hdigits.2⟩, Option.some.inj h⟩
    · cases h
  · rintro ⟨hdigits, rfl⟩
    rw [if_pos ⟨hdigits.some, hdigits.all⟩]

theorem readInt?_eq_some_iff : readInt? text = some n ↔ Numeral text n := by
  constructor
  · intro h
    unfold readInt? at h
    split at h
    all_goals
      obtain ⟨_, hcast, rfl⟩ := Option.map_eq_some_iff.mp h
      obtain ⟨value, hvalue, hpure⟩ := Option.bind_eq_some_iff.mp hcast
      cases hpure
      obtain ⟨hdigits, rfl⟩ := readNat?_eq_some_iff.mp hvalue
    · exact .minus hdigits
    · exact .plus hdigits
    · exact .unsigned hdigits
  · intro h
    cases h with
    | unsigned hdigits =>
        have hread := readNat?_eq_some_iff.mpr ⟨hdigits, rfl⟩
        cases text with
        | nil => exact absurd rfl hdigits.some
        | cons c rest =>
            rw [readInt?_of_isDigit (isDigit_iff.mpr (hdigits.all c List.mem_cons_self)), hread]
            rfl
    | plus hdigits => rw [readInt?, readNat?_eq_some_iff.mpr ⟨hdigits, rfl⟩]; rfl
    | minus hdigits => rw [readInt?, readNat?_eq_some_iff.mpr ⟨hdigits, rfl⟩]; rfl

theorem readInt64?_eq_some_iff :
    readInt64? text = some n ↔ Numeral text n ∧ -2 ^ 63 ≤ n ∧ n < 2 ^ 63 := by
  rw [readInt64?, Option.filter_eq_some_iff, readInt?_eq_some_iff, fitsInt64_iff]

theorem numeral_intDigits (n : Int) : Numeral (intDigits n) n :=
  readInt?_eq_some_iff.mp (readInt?_intDigits n)

theorem Numeral.ne_nil (h : Numeral text n) : text ≠ [] := by
  cases h with
  | unsigned hdigits => exact hdigits.some
  | plus | minus => exact List.cons_ne_nil _ _

theorem Numeral.isBlank_eq_false (h : Numeral text n) : ∀ c ∈ text, isBlank c = false := by
  have hdigits {digits : List Char} (h : Digits digits) : ∀ c ∈ digits, isBlank c = false := by
    intro c hc
    exact isBlank_of_isDigit (isDigit_iff.mpr (h.all c hc))
  cases h with
  | unsigned h => exact hdigits h
  | plus h | minus h => exact List.forall_mem_cons.mpr ⟨rfl, hdigits h⟩

/-- White space around a numeral is taken off, and nothing else. -/
theorem trim_numeral (hw : Blank w) (hw' : Blank w') (h : Numeral text n) :
    trim (w ++ text ++ w') = text := by
  have hblank := h.isBlank_eq_false
  obtain ⟨first, middle, htext⟩ := List.exists_cons_of_ne_nil h.ne_nil
  have hend := List.getLast?_eq_some_getLast h.ne_nil
  refine trim_wrapped hw hw' (hblank first ?_) (hblank _ (List.getLast_mem h.ne_nil)) htext hend
  rw [htext]
  exact List.mem_cons_self

end

end Text

/-- Every argument is a number of 64 bits. -/
theorem Command.fits_of_argument? {command : Command} {n : Int}
    (h : command.argument? = some n) : -2 ^ 63 ≤ n ∧ n < 2 ^ 63 := by
  have byte (v : UInt8) := v.toNat_lt
  have code (v : UInt16) := v.toNat_lt
  have word (v : UInt32) := v.toNat_lt
  cases command with
  | slope slope =>
      cases h
      exact ⟨slope.le_toInt, slope.toInt_lt⟩
  | selectSlot v | selectChannel v | setSlotMode v => cases h; have := byte v; omega
  | moveCursor v | writeMemory v | writeSlotEeprom v => cases h; have := word v; omega
  | upperLimit v | lowerLimit v | updatePeriod v | setOutput v => cases h; have := code v; omega
  | readMemory | readSlotEeprom | askSlotMode | askCalibration => cases h

namespace Reply

open Text (Blank Numeral)

/-- A letter, a number and a mark, with any white space between them and around them. -/
inductive Spelled (letter : Char) (n : Int) : List Char → Prop
  | intro {w₁ w₂ numeral w₃ w₄ : List Char} (hw₁ : Blank w₁) (hw₂ : Blank w₂) (hw₃ : Blank w₃)
      (hw₄ : Blank w₄) (hletter : Text.isBlank letter = false) (hnumeral : Numeral numeral n) :
      Spelled letter n (w₁ ++ [letter] ++ w₂ ++ numeral ++ w₃ ++ ['!'] ++ w₄)

variable {raw : List Char} {letter : Char} {n : Int}

/-- What is left once what may be taken off is taken off. -/
theorem spelled_iff : Spelled letter n raw ↔ ∃ body,
    Text.trim raw = letter :: (body ++ ['!']) ∧ Numeral (Text.trim body) n := by
  constructor
  · rintro ⟨hw₁, hw₂, hw₃, hw₄, hletter, hnumeral⟩
    next w₁ w₂ numeral w₃ w₄ =>
      refine ⟨w₂ ++ numeral ++ w₃, ?_, ?_⟩
      · have hlast : (letter :: (w₂ ++ numeral ++ w₃ ++ ['!'])).getLast? = some '!' := by
          rw [← List.cons_append]
          exact List.getLast?_concat
        have htrim := Text.trim_wrapped hw₁ hw₄ hletter rfl rfl hlast
        simpa using htrim
      · rw [Text.trim_numeral hw₂ hw₃ hnumeral]
        exact hnumeral
  · rintro ⟨body, hraw, hnumeral⟩
    have hletter := Text.isBlank_of_trim hraw
    obtain ⟨w₁, w₄, hw₁, hw₄, houter⟩ := Text.exists_trim raw
    obtain ⟨w₂, w₃, hw₂, hw₃, hinner⟩ := Text.exists_trim body
    have hspelled := Spelled.intro hw₁ hw₂ hw₃ hw₄ hletter hnumeral
    rw [hraw, hinner] at houter
    rw [houter]
    simpa using hspelled

/-- What a reply says is what is spelled out in it, if it fits in 64 bits. -/
theorem says_iff_spelled :
    Says raw letter n ↔ Spelled letter n raw ∧ -2 ^ 63 ≤ n ∧ n < 2 ^ 63 := by
  simp only [Says, spelled_iff, Text.readInt64?_eq_some_iff]
  constructor
  · rintro ⟨body, hraw, hnumeral, hfits⟩
    exact ⟨⟨body, hraw, hnumeral⟩, hfits⟩
  · rintro ⟨⟨body, hraw, hnumeral⟩, hfits⟩
    exact ⟨body, hraw, hnumeral, hfits⟩

theorem number_ok_iff_spelled :
    number raw = .ok n ↔ (∃ letter, Spelled letter n raw) ∧ -2 ^ 63 ≤ n ∧ n < 2 ^ 63 := by
  simp only [number_ok_iff, says_iff_spelled, exists_and_right]

theorem number_of_mark (h : (Text.trim raw).getLast? = some '!') :
    number raw = integer ((Text.trim raw).dropLast.drop 1) := by
  unfold number payload
  simp only [if_pos h]
  rfl

theorem number_of_no_mark (h : (Text.trim raw).getLast? ≠ some '!') :
    number raw = .error .unterminated := by
  unfold number payload
  simp only [if_neg h]
  rfl

theorem eq_notInteger_of_integer {text : List Char} {cause : ReplyError}
    (h : integer text = .error cause) : cause = .notInteger := by
  unfold integer at h
  split at h
  · cases h
  · exact (Except.error.inj h).symm

theorem number_eq_unterminated_iff :
    number raw = .error .unterminated ↔ (Text.trim raw).getLast? ≠ some '!' := by
  constructor
  · intro h hlast
    rw [number_of_mark hlast] at h
    cases eq_notInteger_of_integer h
  · exact number_of_no_mark

theorem eq_notInteger_of_mark {cause : ReplyError} (hlast : (Text.trim raw).getLast? = some '!')
    (h : number raw = .error cause) : cause = .notInteger := by
  rw [number_of_mark hlast] at h
  exact eq_notInteger_of_integer h

/-- There is no number in a reply that is terminated and spells out none, or one too large. -/
theorem number_eq_notInteger_iff : number raw = .error .notInteger ↔
    (Text.trim raw).getLast? = some '!' ∧
      ∀ letter n, -2 ^ 63 ≤ n ∧ n < 2 ^ 63 → ¬ Spelled letter n raw := by
  constructor
  · intro h
    refine ⟨?_, fun letter n hfits hspelled => ?_⟩
    · by_contra hlast
      cases (number_of_no_mark hlast).symm.trans h
    · cases (number_ok_iff_spelled.mpr ⟨⟨letter, hspelled⟩, hfits⟩).symm.trans h
  · rintro ⟨hlast, hnone⟩
    cases hnumber : number raw with
    | ok n =>
        obtain ⟨⟨letter, hspelled⟩, hfits⟩ := number_ok_iff_spelled.mp hnumber
        exact absurd hspelled (hnone letter n hfits)
    | error cause => rw [eq_notInteger_of_mark hlast hnumber]

/-- A reply spells out one number at most. -/
theorem Spelled.unique {letter' : Char} {n' : Int} (h : Spelled letter n raw)
    (h' : Spelled letter' n' raw) : n = n' := by
  obtain ⟨body, hraw, hnumeral⟩ := spelled_iff.mp h
  obtain ⟨body', hraw', hnumeral'⟩ := spelled_iff.mp h'
  rw [hraw] at hraw'
  obtain ⟨-, hbody⟩ := List.cons.inj hraw'
  rw [← List.append_cancel_right hbody] at hnumeral'
  have hread := Text.readInt?_eq_some_iff.mpr hnumeral
  exact Option.some.inj (hread.symm.trans (Text.readInt?_eq_some_iff.mpr hnumeral'))

theorem Spelled.getLast?_trim (h : Spelled letter n raw) :
    (Text.trim raw).getLast? = some '!' := by
  obtain ⟨body, hraw, -⟩ := spelled_iff.mp h
  rw [hraw, ← List.cons_append]
  exact List.getLast?_concat

/-- A number that is too large is none. -/
theorem Spelled.number_eq_error (h : Spelled letter n raw) (hlarge : ¬ (-2 ^ 63 ≤ n ∧ n < 2 ^ 63)) :
    number raw = .error .notInteger := by
  refine number_eq_notInteger_iff.mpr ⟨h.getLast?_trim, fun letter' n' hfits h' => hlarge ?_⟩
  rw [h.unique h']
  exact hfits

/-- An echo spells out the argument. -/
theorem spelled_echo {command : Command} {w w' : List Char} (harg : command.argument? = some n)
    (hw : Blank w) (hw' : Blank w') : Spelled command.letter n (w ++ command.echo ++ w') := by
  have hletter : Text.isBlank command.letter = false := by cases command <;> rfl
  have hspelled := Spelled.intro hw Text.blank_nil Text.blank_nil hw' hletter
    (Text.numeral_intDigits n)
  have hecho : command.echo = command.letter :: (Text.intDigits n ++ ['!']) := by
    rw [Command.echo, Command.endedBy, harg]
    rfl
  rw [hecho]
  simpa using hspelled

/-- A text is read as a number just where the number is spelled out in it and fits in 64 bits,
whatever the letter. It is unterminated just where the last of it that is no white space is no
mark, and otherwise there is no number in it. So the echo of a command is read as the argument of
the command, with any white space around it. -/
theorem number_grammar (raw : List Char) :
    (∀ n, number raw = .ok n ↔
      (∃ letter, Spelled letter n raw) ∧ -2 ^ 63 ≤ n ∧ n < 2 ^ 63) ∧
    (number raw = .error .unterminated ↔ (Text.trim raw).getLast? ≠ some '!') ∧
    ((Text.trim raw).getLast? = some '!' ↔ ∃ front w, raw = front ++ '!' :: w ∧ Blank w) ∧
    (number raw = .error .notInteger ↔ (Text.trim raw).getLast? = some '!' ∧
      ∀ letter n, -2 ^ 63 ≤ n ∧ n < 2 ^ 63 → ¬ Spelled letter n raw) ∧
    ∀ (command : Command) (n : Int) (w w' : List Char), command.argument? = some n →
      Blank w → Blank w' → raw = w ++ command.echo ++ w' → number raw = .ok n := by
  refine ⟨fun n => number_ok_iff_spelled, number_eq_unterminated_iff, Text.getLast?_trim_iff,
    number_eq_notInteger_iff, ?_⟩
  rintro command n w w' harg hw hw' rfl
  exact number_ok_iff_spelled.mpr
    ⟨⟨command.letter, spelled_echo harg hw hw'⟩, Command.fits_of_argument? harg⟩

/-- The least slope, answered with a blank line around it. -/
theorem number_grammar_leastSlope :
    (Command.slope Int64.minValue).argument? = some (-2 ^ 63) ∧
      number (['\n', '\u2003'] ++ (Command.slope Int64.minValue).echo ++ ['\r', '\n']) =
        .ok (-2 ^ 63) := by
  have harg : (Command.slope Int64.minValue).argument? = some (-2 ^ 63) := by decide
  refine ⟨harg, ?_⟩
  exact (number_grammar _).2.2.2.2 (.slope Int64.minValue) (-2 ^ 63) ['\n', '\u2003'] ['\r', '\n']
    harg (by decide) (by decide) rfl

end Reply

end DacRack
