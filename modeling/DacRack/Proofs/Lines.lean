import DacRack.Link.Line
import DacRack.Link.Scripted

/-!
# What is taken off a link

A link hands its bytes over one at a time, so what a line costs is said by how far the
link got: `Delivers link bytes link'` names the bytes that come next and the link after
them. A line is collected up to its terminator and no further where there is room for it
(`Line.ask_line`). Where there is not, collecting ends with the first byte too many, and
whatever is left of the line is left on the link (`Line.ask_overlong`). A request that fails
for want of room got such a line (`Line.delivers_of_ask`).
-/

namespace DacRack

/-- The bytes that come next on a link, and the link after them. -/
inductive Delivers {σ φ : Type} [Link σ φ] : σ → List UInt8 → σ → Prop
  | nil (link : σ) : Delivers link [] link
  | cons {link link' link'' : σ} {byte : UInt8} {bytes : List UInt8}
      (h : Link.receive link = (.byte byte, link')) (hrest : Delivers link' bytes link'') :
      Delivers link (byte :: bytes) link''

variable {σ φ : Type} [Link σ φ] {link link' link'' : σ}

theorem Delivers.split {bytes later : List UInt8} (h : Delivers link (bytes ++ later) link'') :
    ∃ link', Delivers link bytes link' ∧ Delivers link' later link'' := by
  induction bytes generalizing link with
  | nil => exact ⟨link, .nil link, h⟩
  | cons byte bytes ih =>
      cases h with
      | cons h hrest =>
          obtain ⟨link', hbytes, hlater⟩ := ih hrest
          exact ⟨link', .cons h hbytes, hlater⟩

theorem Delivers.receive {byte : UInt8} (h : Delivers link [byte] link') :
    Link.receive link = (.byte byte, link') := by
  cases h with
  | cons h hrest =>
      cases hrest
      exact h

namespace Line

variable {terminator : UInt8} {bytes line : List UInt8}

/-- Bytes for which there is room are collected, as long as none of them ends the line. -/
theorem collect_bytes (h : Delivers link bytes link') (hapart : terminator ∉ bytes)
    (room : Nat) :
    collect terminator (bytes.length + room) link =
      ((bytes ++ (collect terminator room link').1.1, (collect terminator room link').1.2),
        (collect terminator room link').2) := by
  induction h with
  | nil link =>
      rw [List.length_nil, Nat.zero_add]
      rfl
  | cons h hrest ih =>
      obtain ⟨hne, hnotMem⟩ := not_or.mp (mt List.mem_cons.mpr hapart)
      rw [List.length_cons, Nat.succ_add, collect, h]
      simp only [if_neg (Ne.symm hne), ih hnotMem]
      rfl

theorem collect_terminator (h : Link.receive link = (.byte terminator, link')) (room : Nat) :
    collect terminator room link = (([], .terminator), link') := by
  unfold collect
  rw [h]
  simp only [if_true]

theorem collect_full {byte : UInt8} (h : Link.receive link = (.byte byte, link'))
    (hne : byte ≠ terminator) : collect terminator 0 link = (([], .overflow), link') := by
  unfold collect
  rw [h]
  simp only [if_neg hne]

/-- A line that fits is collected whole, and its terminator with it. -/
theorem collect_line (h : Delivers link (line ++ [terminator]) link')
    (hapart : terminator ∉ line) {room : Nat} (hfits : line.length ≤ room) :
    collect terminator room link = ((line, .terminator), link') := by
  obtain ⟨_, hline, hend⟩ := h.split
  obtain ⟨left, rfl⟩ := Nat.exists_eq_add_of_le hfits
  rw [collect_bytes hline hapart, collect_terminator hend.receive, List.append_nil]

/-- Of bytes that do not fit, one more is taken than there is room for. -/
theorem collect_overlong (h : Delivers link bytes link') (hapart : terminator ∉ bytes)
    {room : Nat} (hlength : bytes.length = room + 1) :
    collect terminator room link = ((bytes.take room, .overflow), link') := by
  obtain ⟨last, hlast⟩ : ∃ last, bytes.drop room = [last] :=
    List.length_eq_one_iff.mp (by rw [List.length_drop]; omega)
  have hparts : bytes.take room ++ [last] = bytes := by rw [← hlast, List.take_append_drop]
  rw [← hparts] at h hapart
  obtain ⟨_, hfirst, hend⟩ := h.split
  obtain ⟨hfirstApart, hne⟩ := not_or.mp (mt List.mem_append.mpr hapart)
  have hroom : (bytes.take room).length + 0 = room := by rw [List.length_take]; omega
  have hcollect := collect_bytes hfirst hfirstApart 0
  rw [hroom, collect_full hend.receive fun h => hne (by rw [h]; exact List.mem_singleton_self _),
    List.append_nil] at hcollect
  exact hcollect

/-- Collecting only ends for want of room where there came too many bytes. -/
theorem delivers_of_overflow {room : Nat} (h : collect terminator room link =
    ((bytes, .overflow), link')) :
    ∃ line, Delivers link line link' ∧ terminator ∉ line ∧ line.length = room + 1 := by
  induction room generalizing link bytes with
  | zero =>
      unfold collect at h
      split at h
      · cases h
      · cases h
      · next byte link₁ hreceive =>
          split at h
          · cases h
          · next hne =>
              cases h
              exact ⟨[byte], .cons hreceive (.nil _), by simpa using Ne.symm hne, rfl⟩
  | succ room ih =>
      unfold collect at h
      split at h
      · cases h
      · cases h
      · next byte link₁ hreceive =>
          split at h
          · cases h
          · next hne =>
              cases hrest : collect terminator room link₁ with
              | mk collected link₂ =>
                  obtain ⟨rest, ending⟩ := collected
                  simp only [hrest] at h
                  cases h
                  obtain ⟨line, hline, hapart, hlength⟩ := ih hrest
                  refine ⟨byte :: line, .cons hreceive hline, ?_, congrArg (· + 1) hlength⟩
                  exact mt List.mem_cons.mp (not_or.mpr ⟨Ne.symm hne, hapart⟩)

theorem judge_ne_tooLong {ending : LineEnd φ} (h : ending ≠ .overflow) :
    judge σ bytes ending ≠ .error .tooLong := by
  have htext : (text bytes : Except (Error φ) String) ≠ .error .tooLong := by
    unfold text
    split <;> nofun
  unfold judge
  split
  · exact htext
  · exact absurd rfl h
  · split
    · nofun
    · exact htext
  · split
    · exact htext
    · nofun

/-- A request only fails for want of room where the line that answers it does not fit. -/
theorem delivers_of_ask {capacity : Nat} {request : String}
    (h : ask capacity terminator request link = (.error .tooLong, link'')) :
    ∃ link' line, Link.send (Text.bytes request) link = (.ok (), link') ∧
      Delivers link' line link'' ∧ terminator ∉ line ∧ line.length = capacity + 1 := by
  unfold ask at h
  split at h
  · cases h
  · next link' hsend =>
      cases hcollect : collect terminator capacity link' with
      | mk collected link₂ =>
          obtain ⟨bytes, ending⟩ := collected
          simp only [hcollect] at h
          obtain ⟨hjudge, rfl⟩ := Prod.mk.inj h
          cases hending : ending with
          | overflow =>
              rw [hending] at hcollect
              obtain ⟨line, hline, hapart, hlength⟩ := delivers_of_overflow hcollect
              exact ⟨link', line, hsend, hline, hapart, hlength⟩
          | _ => exact absurd hjudge (judge_ne_tooLong (by rw [hending]; nofun))

/-- A request fails because the link did, because of what the reply is, or for want of room. -/
theorem error_of_ask {capacity : Nat} {request : String} {e : Error φ}
    (h : (ask capacity terminator request link).1 = .error e) :
    (∃ fault, e = .link fault) ∨ (∃ cause, e = .reply cause) ∨ e = .tooLong := by
  have htext {bytes : List UInt8} (h : (text bytes : Except (Error φ) String) = .error e) :
      (∃ fault, e = .link fault) ∨ (∃ cause, e = .reply cause) ∨ e = .tooLong := by
    unfold text at h
    split at h
    · cases h
    · cases h
      exact .inr (.inl ⟨_, rfl⟩)
  unfold ask at h
  split at h
  · cases h
    exact .inl ⟨_, rfl⟩
  · simp only [] at h
    unfold judge at h
    split at h
    · exact htext h
    · cases h
      exact .inr (.inr rfl)
    · split at h
      · cases h
        exact .inr (.inl ⟨_, rfl⟩)
      · exact htext h
    · split at h
      · exact htext h
      · cases h
        exact .inl ⟨_, rfl⟩

section

variable {capacity : Nat} {request : String}
  (hsend : Link.send (Text.bytes request) link = (.ok (), link'))

include hsend

theorem ask_line (h : Delivers link' (line ++ [terminator]) link'') (hapart : terminator ∉ line)
    (hfits : line.length ≤ capacity) :
    ask capacity terminator request link = (text line, link'') := by
  unfold ask
  rw [hsend]
  simp only [collect_line h hapart hfits]
  rfl

theorem ask_overlong (h : Delivers link' bytes link'') (hapart : terminator ∉ bytes)
    (hlength : bytes.length = capacity + 1) :
    ask capacity terminator request link = (.error .tooLong, link'') := by
  unfold ask
  rw [hsend]
  simp only [collect_overlong h hapart hlength]
  rfl

end

end Line

/-- A script of bytes is delivered as it stands. -/
theorem ScriptedLink.delivers (link : ScriptedLink) (bytes : List UInt8)
    (rest : List ScriptEvent) :
    Delivers { link with script := bytes.map .byte ++ rest } bytes
      { link with script := rest } := by
  induction bytes with
  | nil => exact .nil _
  | cons byte bytes ih => exact .cons rfl ih

end DacRack
