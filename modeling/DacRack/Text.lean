import DacRack.Text.Unprintable

/-!
# Text

Requests, replies and log lines are texts, and so are the numbers in them.
-/

namespace DacRack.Text

/-! ## Bytes

Texts go over the wire in UTF-8. Reading bytes back as text fails where they are
not the bytes of any text; where they are, nothing is lost either way.
-/

def bytes (text : String) : List UInt8 :=
  text.toByteArray.data.toList

def ofBytes? (bytes : List UInt8) : Option String :=
  String.fromUTF8? ⟨bytes.toArray⟩

theorem ofBytes?_bytes (text : String) : ofBytes? (bytes text) = some text := by
  have h : (⟨(bytes text).toArray⟩ : ByteArray) = text.toByteArray := by simp [bytes]
  rw [ofBytes?, h, String.fromUTF8?, dif_pos text.isValidUTF8]
  rfl

theorem bytes_of_ofBytes? {bs : List UInt8} {text : String} (h : ofBytes? bs = some text) :
    bytes text = bs := by
  unfold ofBytes? String.fromUTF8? at h
  split at h
  · cases h
    rfl
  · cases h

/-! ## White space

The instrument's replies and the numbers inside them may be surrounded by white
space, in the sense of the Unicode property White_Space. `trim` takes it off at
both ends and leaves the middle alone.
-/

/-- Whether a character has the Unicode property White_Space. -/
def isBlank (c : Char) : Bool :=
  let n := c.toNat
  (0x9 ≤ n && n ≤ 0xd) || n == 0x20 || n == 0x85 || n == 0xa0 || n == 0x1680 ||
    (0x2000 ≤ n && n ≤ 0x200a) || n == 0x2028 || n == 0x2029 || n == 0x202f ||
    n == 0x205f || n == 0x3000

/-- The text without the white space at its end. -/
def trimEnd (text : List Char) : List Char :=
  (text.reverse.dropWhile isBlank).reverse

/-- The text without the white space at either end. -/
def trim (text : List Char) : List Char :=
  trimEnd (text.dropWhile isBlank)

/-- What counts as white space in core counts here too. -/
theorem isBlank_of_isWhitespace {c : Char} (h : c.isWhitespace = true) : isBlank c = true := by
  simp only [Char.isWhitespace, Bool.or_eq_true, decide_eq_true_eq] at h
  rcases h with ((rfl | rfl) | rfl) | rfl <;> rfl

/-! ## Decimal integers

Integers travel as plain decimal text: written with no sign but a minus, no
leading zero and no separators, and read back with an optional sign of either
kind, any number of leading zeros, and nothing but ASCII digits.
-/

/-- The digits of a natural number, without leading zeros. -/
def natDigits (n : Nat) : List Char :=
  Nat.toDigits 10 n

/-- A signed number: a minus where it is negative, then its digits. -/
def intDigits : Int → List Char
  | .ofNat n => natDigits n
  | .negSucc n => '-' :: natDigits (n + 1)

def decimal (n : Int) : String :=
  String.ofList (intDigits n)

def digitValue (c : Char) : Nat :=
  c.toNat - '0'.toNat

/-- Reads digits, most significant first, on top of the value of those before. -/
def foldDigits (before : Nat) (digits : List Char) : Nat :=
  digits.foldl (fun value c => 10 * value + digitValue c) before

/-- Reads a non-empty run of ASCII digits. -/
def readNat? (text : List Char) : Option Nat :=
  if text ≠ [] ∧ text.all Char.isDigit then some (foldDigits 0 text) else none

/-- Reads digits after at most one sign. -/
def readInt? : List Char → Option Int
  | '-' :: digits => (readNat? digits).map fun n => -(n : Int)
  | '+' :: digits => (readNat? digits).map fun n => (n : Int)
  | digits => (readNat? digits).map fun n => (n : Int)

def fitsInt64 (n : Int) : Bool :=
  Int64.minValue.toInt ≤ n && n ≤ Int64.maxValue.toInt

/-- Reads a signed number that fits in 64 bits. -/
def readInt64? (text : List Char) : Option Int :=
  (readInt? text).filter fitsInt64

/-! ## Quoted text

How a text is shown in a log line: between double quotes, with a backslash before
quotes and backslashes, the common controls by their letter, and any other
character that cannot be shown by its number in hexadecimal.
-/

/-- What a character looks like inside double quotes. -/
def escape (c : Char) : List Char :=
  match c with
  | '\x00' => ['\\', '0']
  | '\t' => ['\\', 't']
  | '\r' => ['\\', 'r']
  | '\n' => ['\\', 'n']
  | '"' => ['\\', '"']
  | '\\' => ['\\', '\\']
  | c =>
    if isUnprintable c then
      ['\\', 'u', '\x7b'] ++ Nat.toDigits 16 c.toNat ++ ['\x7d']
    else [c]

def quote (text : List Char) : List Char :=
  '"' :: text.flatMap escape ++ ['"']

end DacRack.Text
