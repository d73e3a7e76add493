import DacRack.Link.Line
import DacRack.Step

/-!
# Transactions

A transaction sends a request and reads the line that answers it. There is never
more than one under way. Each is put into the journal, also where it failed; a
request that does not fit in the buffer is not sent and leaves no trace.

`Draws n step` says that the step never adds to what has yet to arrive, and that it
uses up at least `n` of it where it succeeds. Steps in a row add up, and a
transaction draws one.
-/

namespace DacRack

namespace Step

variable {σ φ κ α β : Type} [Link σ φ]

def exchange (target : Target) (request : Request) : Step σ φ κ String := fun s =>
  let (outcome, link) := Line.ask s.capacity s.config.terminator request.wire s.link
  let s := { s with link, journal := .exchange ⟨target, request, outcome⟩ :: s.journal }
  match outcome with
  | .ok reply => .ok reply s
  | .error error => .error error s

/-- Sends commands as one transaction and returns the reply. -/
def transact (target : Target) (commands : List Command) : Step σ φ κ String := do
  let _ ← ofExcept (fitting (Command.encode (← get).capacity commands))
  exchange target (.commands commands)

/-- Sends a text as it is and returns the reply. -/
def ask (text : String) : Step σ φ κ String :=
  exchange .instrument (.text text)

/-- The step never adds to the supply, and where it succeeds uses up at least `n` of
it. -/
structure Draws (n : Nat) (step : Step σ φ κ α) : Prop where
  ok {s s' : Session σ φ κ} {a : α} :
    step s = .ok a s' → Link.supply s'.link + n ≤ Link.supply s.link
  error {s s' : Session σ φ κ} {e : Error φ} :
    step s = .error e s' → Link.supply s'.link ≤ Link.supply s.link

theorem Draws.mono {m n : Nat} {step : Step σ φ κ α} (h : Draws n step) (hmn : m ≤ n) :
    Draws m step :=
  ⟨fun hs => by have := h.ok hs; omega, h.error⟩

theorem draws_pure (a : α) : Draws 0 (pure a : Step σ φ κ α) :=
  ⟨fun hs => by cases hs; exact Nat.le_refl _, fun hs => nomatch hs⟩

theorem draws_throw (n : Nat) (error : Error φ) : Draws n (throw error : Step σ φ κ α) :=
  ⟨fun hs => (nomatch hs), fun hs => by cases hs; exact Nat.le_refl _⟩

theorem draws_get : Draws 0 (get : Step σ φ κ (Session σ φ κ)) :=
  ⟨fun hs => by cases hs; exact Nat.le_refl _, fun hs => nomatch hs⟩

theorem Draws.bind {m n : Nat} {step : Step σ φ κ α} {next : α → Step σ φ κ β}
    (h : Draws m step) (hnext : ∀ a, Draws n (next a)) : Draws (m + n) (step >>= next) := by
  constructor
  · intro s s' b hs
    rw [bind_apply] at hs
    split at hs
    · rename_i a s₁ h₁
      have := h.ok h₁
      have := (hnext a).ok hs
      omega
    · cases hs
  · intro s s' e hs
    rw [bind_apply] at hs
    split at hs
    · rename_i a s₁ h₁
      have := h.ok h₁
      have := (hnext a).error hs
      omega
    · rename_i e₁ s₁ h₁
      cases hs
      exact h.error h₁

theorem draws_ofExcept (result : Except (Error φ) α) :
    Draws 0 (ofExcept result : Step σ φ κ α) := by
  cases result with
  | error e => exact draws_throw 0 e
  | ok a => exact draws_pure a

theorem draws_ensure (error : Error φ) (condition : Bool) :
    Draws 0 (ensure error condition : Step σ φ κ Unit) :=
  draws_ofExcept _

theorem draws_understand (result : Except ReplyError α) :
    Draws 0 (understand result : Step σ φ κ α) :=
  draws_ofExcept _

theorem draws_note (entry : Note φ) : Draws 0 (note entry : Step σ φ κ Unit) :=
  ⟨fun hs => by cases hs; exact Nat.le_refl _, fun hs => nomatch hs⟩

/-- A reply is at least one byte, or at least its terminator. -/
theorem draws_exchange (target : Target) (request : Request) :
    Draws 1 (exchange target request : Step σ φ κ String) := by
  constructor
  · intro s s' reply hs
    have h := (Line.supply_ask s.capacity s.config.terminator request.wire s.link).2
    simp only [exchange] at hs
    split at hs
    · rename_i ho
      cases hs
      exact h reply ho
    · cases hs
  · intro s s' e hs
    have h := (Line.supply_ask s.capacity s.config.terminator request.wire s.link).1
    simp only [exchange] at hs
    split at hs
    · cases hs
    · cases hs
      exact h

theorem draws_transact (target : Target) (commands : List Command) :
    Draws 1 (transact target commands : Step σ φ κ String) :=
  draws_get.bind fun _ => (draws_ofExcept _).bind fun _ => draws_exchange _ _

end Step

end DacRack
