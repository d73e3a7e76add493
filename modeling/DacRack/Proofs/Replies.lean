import DacRack.Command
import DacRack.Proofs.Decimal
import DacRack.Text

/-!
# Replies read back

An answer is a letter, a decimal integer and an exclamation mark, or several such
blocks in a row. None of it is white space, so trimming leaves it as it is, and all of
it is ASCII, so that each character is one byte.
-/

namespace DacRack

namespace Text

theorem trim_eq_self {text : List Char} (h : ∀ c ∈ text, isBlank c = false) :
    trim text = text := by
  have hkeep (text : List Char) (h : ∀ c ∈ text, isBlank c = false) :
      text.dropWhile isBlank = text := by
    cases text with
    | nil => rfl
    | cons c text =>
        rw [List.dropWhile_cons_of_neg]
        rw [h c List.mem_cons_self]
        exact Bool.false_ne_true
  rw [trim, trimEnd, hkeep text h, hkeep, List.reverse_reverse]
  intro c hc
  exact h c (List.mem_reverse.mp hc)

/-- A character that is no white space and one byte long. -/
def Visible (c : Char) : Prop :=
  isBlank c = false ∧ c.utf8Size = 1

theorem Visible.toUInt8_ne_lineFeed {c : Char} (h : Visible c) : c.val.toUInt8 ≠ 10 := by
  intro hbyte
  have hsize : c.val.toNat < 128 :=
    Nat.lt_succ_of_le (UInt32.le_iff_toNat_le.mp (Char.utf8Size_eq_one_iff.mp h.2))
  have hmod : c.val.toNat % 256 = 10 := by
    rw [← UInt32.toNat_toUInt8, hbyte]
    rfl
  have hval : c.val.toNat = 10 := by omega
  have hc : c = '\n' := Char.ext (UInt32.toNat_inj.mp hval)
  rw [hc] at h
  exact absurd h.1 (by decide)

theorem visible_of_isDigit {c : Char} (h : c.isDigit = true) : Visible c := by
  refine ⟨isBlank_of_isDigit h, ?_⟩
  rw [Char.isDigit, Bool.and_eq_true, decide_eq_true_eq, decide_eq_true_eq] at h
  rw [Char.utf8Size_eq_one_iff]
  exact UInt32.le_trans h.2 (by decide)

theorem visible_of_mem_intDigits {n : Int} {c : Char} (h : c ∈ intDigits n) : Visible c := by
  rcases mem_intDigits h with rfl | h
  · exact ⟨rfl, rfl⟩
  · exact visible_of_isDigit h

theorem bytes_eq (text : List Char) :
    bytes (String.ofList text) = text.flatMap String.utf8EncodeChar := by
  rw [bytes, String.toByteArray_ofList, List.utf8Encode]
  simp

theorem bytes_ofList {text : List Char} (h : ∀ c ∈ text, Visible c) :
    bytes (String.ofList text) = text.map fun c => c.val.toUInt8 := by
  rw [bytes_eq]
  induction text with
  | nil => rfl
  | cons c text ih =>
      have hc := String.utf8EncodeChar_eq_singleton (h c List.mem_cons_self).2
      rw [List.flatMap_cons, hc, List.map_cons, List.singleton_append,
        ih fun c hmem => h c (List.mem_cons_of_mem _ hmem)]

end Text

namespace Reply

/-- A text of which nothing is white space, and that ends in a mark. -/
theorem payload_of_getLast? {text : List Char} (h : ∀ c ∈ text, Text.isBlank c = false)
    (hlast : text.getLast? = some '!') : payload text = .ok (text.dropLast.drop 1) := by
  rw [payload, Text.trim_eq_self h, if_pos hlast]

theorem integer_intDigits {n : Int} (h : Text.fitsInt64 n = true) :
    integer (Text.intDigits n) = .ok n := by
  rw [integer, Text.trim_eq_self fun c hc => (Text.visible_of_mem_intDigits hc).1]
  rw [Text.readInt64?, Text.readInt?_intDigits, Option.filter_some, if_pos h]

theorem number_eq {letter : Char} {n : Int} (hletter : Text.isBlank letter = false)
    (h : Text.fitsInt64 n = true) :
    number (letter :: Text.intDigits n ++ ['!']) = .ok n := by
  have hall : ∀ c ∈ letter :: Text.intDigits n ++ ['!'], Text.isBlank c = false := by
    intro c hc
    rcases List.mem_append.mp hc with hc | hc
    · rcases List.mem_cons.mp hc with rfl | hc
      · exact hletter
      · exact (Text.visible_of_mem_intDigits hc).1
    · rw [List.mem_singleton.mp hc]
      rfl
  show (payload _ >>= fun body => integer body) = _
  rw [payload_of_getLast? hall List.getLast?_concat, List.dropLast_concat]
  exact integer_intDigits h

theorem word_of_inside {raw : List Char} {n : Int} (h : number raw = .ok n)
    (hin : -2 ^ 31 ≤ n ∧ n < 2 ^ 32) :
    word raw = .ok (UInt32.ofInt n) := by
  unfold word
  rw [h]
  exact if_pos hin

theorem word_of_outside {raw : List Char} {n : Int} (h : number raw = .ok n)
    (hout : ¬ (-2 ^ 31 ≤ n ∧ n < 2 ^ 32)) :
    word raw = .error .notInteger := by
  unfold word
  rw [h]
  exact if_neg hout

theorem word_of_error {raw : List Char} {cause : ReplyError} (h : number raw = .error cause) :
    word raw = .error cause := by
  unfold word
  rw [h]
  rfl

/-- A word may be written without a sign, or as the number of 32 bits with a sign that
has the same bits. -/
theorem word_eq {letter : Char} {n : Int} {word : UInt32}
    (hletter : Text.isBlank letter = false) (hn : UInt32.ofInt n = word)
    (hlo : -2 ^ 31 ≤ n) (hhi : n < 2 ^ 32) :
    Reply.word (letter :: Text.intDigits n ++ ['!']) = .ok word := by
  have hfits : Text.fitsInt64 n = true := by
    rw [Text.fitsInt64_iff]
    omega
  rw [word_of_inside (number_eq hletter hfits) ⟨hlo, hhi⟩, hn]

/-- An echo carries the argument. -/
theorem number_echo {command : Command} {n : Int} (harg : command.argument? = some n)
    (h : Text.fitsInt64 n = true) : number command.echo = .ok n := by
  have hecho : command.echo = command.letter :: Text.intDigits n ++ ['!'] := by
    rw [Command.echo, Command.endedBy, harg]
    rfl
  rw [hecho]
  exact number_eq (by cases command <;> rfl) h

end Reply

namespace Command

/-- A command is as long as its echo. -/
theorem length_wire (command : Command) : command.wire.length = command.echo.length := by
  rw [wire, echo, endedBy, endedBy, List.length_cons, List.length_cons, List.length_append,
    List.length_append]
  rfl

theorem length_flatMap_wire (commands : List Command) :
    (commands.flatMap wire).length = (commands.flatMap echo).length := by
  simp only [List.length_flatMap, length_wire]

theorem length_echo_le {command : Command} {n : Int} {k : Nat}
    (harg : command.argument? = some n) (hk : 0 < k) (h : n.natAbs < 10 ^ k) :
    command.echo.length ≤ k + 3 := by
  have hlength := Text.length_intDigits_le hk h
  rw [echo, endedBy, harg, List.length_cons, List.length_append, List.length_singleton]
  show (Text.intDigits n).length + 1 + 1 ≤ k + 3
  omega

/-- A command with an argument that is not negative. -/
theorem length_echo_le_of_nat {command : Command} {n k : Nat}
    (harg : command.argument? = some (n : Int)) (hk : 0 < k) (h : n < 10 ^ k) :
    command.echo.length ≤ k + 2 := by
  have hlength := Text.length_natDigits_le hk h
  rw [echo, endedBy, harg, List.length_cons, List.length_append, List.length_singleton]
  show (Text.natDigits n).length + 1 + 1 ≤ k + 2
  omega

/-- There is nothing to a command but letters, digits, a sign and its mark. -/
theorem visible_of_mem_endedBy {command : Command} {mark c : Char} (hmark : Text.Visible mark)
    (h : c ∈ endedBy mark command) : Text.Visible c := by
  rcases List.mem_cons.mp h with rfl | h
  · cases command <;> exact ⟨rfl, rfl⟩
  rcases List.mem_append.mp h with h | h
  · cases harg : command.argument? with
    | none =>
        rw [harg] at h
        cases h
    | some n =>
        rw [harg] at h
        exact Text.visible_of_mem_intDigits h
  · rw [List.mem_singleton.mp h]
    exact hmark

theorem getLast?_flatMap_echo {commands : List Command} (h : commands ≠ []) :
    (commands.flatMap echo).getLast? = some '!' := by
  induction commands with
  | nil => exact absurd rfl h
  | cons command commands ih =>
      rw [List.flatMap_cons]
      by_cases hnil : commands = []
      · rw [hnil, List.flatMap_nil, List.append_nil, echo, endedBy, ← List.cons_append]
        exact List.getLast?_concat
      · rw [List.getLast?_append, ih hnil]
        rfl

end Command

end DacRack
