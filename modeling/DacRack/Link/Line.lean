import DacRack.Error
import DacRack.Link
import DacRack.Text

/-!
# Lines

The instrument answers with lines. A line is collected byte by byte, so that no
byte of the next one is taken, into a buffer that holds so many bytes and no more.

Three things end a line: its terminator, a fault that only says that no more bytes
are there for now, and the end of the stream; the latter two only where there is
something to return. `collect` gathers the bytes and says what ended them, and
`judge` decides what that means.
-/

namespace DacRack

inductive LineEnd (φ : Type) where
  | terminator
  /-- A byte came for which there was no room. -/
  | overflow
  /-- The stream is at its end. -/
  | nothing
  | fault (fault : φ)

namespace Line

variable {σ φ : Type} [Link σ φ]

/-- Collects bytes as long as there is room for `room` of them. -/
def collect (terminator : UInt8) (room : Nat) (link : σ) : (List UInt8 × LineEnd φ) × σ :=
  match Link.receive link with
  | (.nothing, link) => (([], .nothing), link)
  | (.fault fault, link) => (([], .fault fault), link)
  | (.byte byte, link) =>
    if byte = terminator then (([], .terminator), link)
    else match room with
      | 0 => (([], .overflow), link)
      | room + 1 =>
        let ((bytes, ending), link) := collect terminator room link
        ((byte :: bytes, ending), link)

def text (bytes : List UInt8) : Except (Error φ) String :=
  match Text.ofBytes? bytes with
  | some text => .ok text
  | none => .error (.reply .notText)

/-- What the bytes of a line and their end amount to. -/
def judge (σ : Type) {φ : Type} [Link σ φ] (bytes : List UInt8) :
    LineEnd φ → Except (Error φ) String
  | .terminator => text bytes
  | .overflow => .error .tooLong
  | .nothing => if bytes.isEmpty then .error (.reply .empty) else text bytes
  | .fault fault =>
    if (Link.kind σ fault).isPause && !bytes.isEmpty then text bytes
    else .error (.link fault)

/-- Sends a request and returns the line that answers it. -/
def ask (capacity : Nat) (terminator : UInt8) (request : String) (link : σ) :
    Except (Error φ) String × σ :=
  match Link.send (Text.bytes request) link with
  | (.error fault, link) => (.error (.link fault), link)
  | (.ok (), link) =>
    let ((bytes, ending), link) := collect terminator capacity link
    (judge σ bytes ending, link)

/-- Collecting never adds to what has yet to arrive, and uses some of it up where
it leaves bytes or finds the terminator. -/
theorem supply_collect (terminator : UInt8) (room : Nat) (link : σ) :
    Link.supply (collect terminator room link).2 ≤ Link.supply link ∧
      ((collect terminator room link).1.1 ≠ [] ∨
          (collect terminator room link).1.2 = .terminator →
        Link.supply (collect terminator room link).2 < Link.supply link) := by
  induction room generalizing link with
  | zero =>
    have hle := Link.supply_receive link
    have hlt := Link.supply_receive_byte link
    unfold collect
    split <;> rename_i hr <;> simp only [hr] at hle hlt
    · exact ⟨hle, by simp⟩
    · exact ⟨hle, by simp⟩
    · have := hlt _ rfl
      split
      · exact ⟨hle, fun _ => this⟩
      · exact ⟨hle, by simp⟩
  | succ room ih =>
    have hle := Link.supply_receive link
    have hlt := Link.supply_receive_byte link
    unfold collect
    split <;> rename_i hr <;> simp only [hr] at hle hlt
    · exact ⟨hle, by simp⟩
    · exact ⟨hle, by simp⟩
    · rename_i byte rest
      have := hlt _ rfl
      split
      · exact ⟨hle, fun _ => this⟩
      · have hrest := (ih rest).1
        exact ⟨by simp only []; omega, fun _ => by simp only []; omega⟩

/-- Asking never adds to what has yet to arrive, and an answer uses some of it up. -/
theorem supply_ask (capacity : Nat) (terminator : UInt8) (request : String) (link : σ) :
    Link.supply (ask capacity terminator request link).2 ≤ Link.supply link ∧
      ∀ reply, (ask capacity terminator request link).1 = .ok reply →
        Link.supply (ask capacity terminator request link).2 < Link.supply link := by
  have hsend := Link.supply_send (Text.bytes request) link
  unfold ask
  split <;> rename_i hs <;> simp only [hs] at hsend
  · exact ⟨hsend, by simp⟩
  · rename_i rest
    have hc := supply_collect terminator capacity rest
    refine ⟨Nat.le_trans hc.1 hsend, fun reply hreply => ?_⟩
    refine Nat.lt_of_lt_of_le (hc.2 ?_) hsend
    simp only [judge] at hreply
    cases hend : (collect terminator capacity rest).1.2 with
    | terminator => exact .inr rfl
    | overflow => simp [hend] at hreply
    | nothing =>
      refine .inl fun hnil => ?_
      simp [hend, hnil] at hreply
    | fault fault =>
      refine .inl fun hnil => ?_
      simp [hend, hnil] at hreply

end Line

end DacRack
