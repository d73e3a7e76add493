import DacRack.Proofs.LineEnds
import DacRack.Proofs.Marks
import DacRack.Proofs.ReplyGrammar

/-!
# Commands written into a buffer

A command reaches the buffer in pieces, its letter first and its mark last, and each piece goes in
only if there is room for all of it (`put?`). So a command may break off anywhere. What was put
in by then is never seen, though, and a row of pieces is as good as their concatenation: all of it
is there, or nothing (`foldlM_held?`). With the bytes of a text of commands counted, that is what
`encode` and `encodeEcho` say (`encode_eq_write?`, `encodeEcho_eq_write?`).

A command is as long as its echo, so one buffer has room for a transaction just where it has room
for the echo. A channel's selection that was sent can therefore always be compared with its
echo, and is accepted where that is what came (`Step.perform_selectChannel_of_echo`).
-/

namespace DacRack

variable {σ φ κ : Type}

namespace Command

variable {capacity : Nat} {mark : Char}

/-- A text as the contents of a buffer. -/
def held? (capacity : Nat) (text : String) : Option String :=
  if text.utf8ByteSize ≤ capacity then some text else none

/-- Puts a piece behind what is in the buffer, if there is room for all of it. -/
def put? (capacity : Nat) (text piece : String) : Option String :=
  if text.utf8ByteSize + piece.utf8ByteSize ≤ capacity then some (text ++ piece) else none

/-- A number is written as its sign, where it has one, and its digits. -/
def numberPieces : Int → List String
  | .ofNat n => [String.ofList (Text.natDigits n)]
  | .negSucc n => ["-", String.ofList (Text.natDigits (n + 1))]

/-- The pieces of a command that is ended by a mark. -/
def pieces (mark : Char) (command : Command) : List String :=
  String.singleton command.letter ::
    (command.argument?.elim [] numberPieces ++ [String.singleton mark])

/-- Writes commands into a buffer that is empty, up to the first piece that does not fit. -/
def write? (capacity : Nat) (mark : Char) (commands : List Command) : Option String :=
  commands.foldlM (fun text command => (command.pieces mark).foldlM (put? capacity) text) ""

theorem foldlM_held? {ι : Type} {write : String → ι → Option String} {rendered : ι → String}
    (hwrite : ∀ text item, text.utf8ByteSize ≤ capacity →
      write text item = held? capacity (text ++ rendered item))
    (items : List ι) {text : String} (hfits : text.utf8ByteSize ≤ capacity) :
    items.foldlM write text = held? capacity (text ++ String.join (items.map rendered)) := by
  induction items generalizing text with
  | nil =>
      rw [List.foldlM_nil, List.map_nil, String.join_nil, String.append_empty, held?, if_pos hfits]
      rfl
  | cons item items ih =>
      rw [List.foldlM_cons, hwrite text item hfits, List.map_cons, String.join_cons,
        ← String.append_assoc]
      by_cases hroom : (text ++ rendered item).utf8ByteSize ≤ capacity
      · rw [held?, if_pos hroom]
        exact ih hroom
      · -- what comes later only makes it longer
        have hlong : ¬ (text ++ rendered item ++
            String.join (items.map rendered)).utf8ByteSize ≤ capacity := by
          rw [String.utf8ByteSize_append]
          omega
        rw [held?, if_neg hroom, held?, if_neg hlong]
        rfl

theorem join_numberPieces (n : Int) :
    String.join (numberPieces n) = String.ofList (Text.intDigits n) := by
  cases n with
  | ofNat n =>
      rw [numberPieces, String.join_cons, String.join_nil, String.append_empty, Text.intDigits]
  | negSucc n =>
      rw [numberPieces, String.join_cons, String.join_cons, String.join_nil, String.append_empty,
        Text.intDigits, ← List.singleton_append, String.ofList_append]

theorem join_pieces (mark : Char) (command : Command) :
    String.join (command.pieces mark) = String.ofList (endedBy mark command) := by
  have hargument : String.join (command.argument?.elim [] numberPieces) =
      String.ofList command.argumentText := by
    rw [argumentText]
    cases command.argument? with
    | none => rfl
    | some n => exact join_numberPieces n
  rw [pieces, String.join_cons, String.join_append, hargument, String.join_cons, String.join_nil,
    String.append_empty, endedBy_eq, List.cons_append, ← List.singleton_append,
    String.ofList_append, String.ofList_append, String.singleton_eq_ofList,
    String.singleton_eq_ofList]

theorem write?_eq (capacity : Nat) (mark : Char) (commands : List Command) :
    write? capacity mark commands =
      held? capacity (String.join (commands.map fun c => String.ofList (endedBy mark c))) := by
  have hput (text piece : String) (_ : text.utf8ByteSize ≤ capacity) :
      put? capacity text piece = held? capacity (text ++ piece) := by
    rw [put?, held?, String.utf8ByteSize_append]
  have hcommand (text : String) (command : Command) (hfits : text.utf8ByteSize ≤ capacity) :
      (command.pieces mark).foldlM (put? capacity) text =
        held? capacity (text ++ String.ofList (endedBy mark command)) := by
    rw [foldlM_held? hput _ hfits, List.map_id', join_pieces]
  have hempty : "".utf8ByteSize ≤ capacity := Nat.zero_le capacity
  rw [write?, foldlM_held? hcommand commands hempty, String.empty_append]

theorem utf8ByteSize_ofList {text : List Char} (h : ∀ c ∈ text, Text.Visible c) :
    (String.ofList text).utf8ByteSize = text.length := by
  have hbytes := congrArg List.length (Text.bytes_ofList h)
  rw [List.length_map] at hbytes
  exact hbytes

theorem join_map_ofList (f : Command → List Char) (commands : List Command) :
    String.join (commands.map fun c => String.ofList (f c)) =
      String.ofList (commands.flatMap f) := by
  rw [← String.toList_inj, String.toList_join, List.flatMap_map, String.toList_ofList]
  simp only [String.toList_ofList]

theorem within_endedBy (hmark : Text.Visible mark) (capacity : Nat) (commands : List Command) :
    within capacity (commands.flatMap (endedBy mark)) = write? capacity mark commands := by
  have hsize : (String.ofList (commands.flatMap (endedBy mark))).utf8ByteSize =
      (commands.flatMap (endedBy mark)).length := by
    refine utf8ByteSize_ofList fun c hc => ?_
    obtain ⟨command, -, hc⟩ := List.mem_flatMap.mp hc
    exact visible_of_mem_endedBy hmark hc
  rw [write?_eq, join_map_ofList, held?, hsize, within]

theorem encode_eq_write? (capacity : Nat) (commands : List Command) :
    encode capacity commands = write? capacity ';' commands :=
  within_endedBy ⟨rfl, rfl⟩ capacity commands

theorem encodeEcho_eq_write? (capacity : Nat) (commands : List Command) :
    encodeEcho capacity commands = write? capacity '!' commands :=
  within_endedBy ⟨rfl, rfl⟩ capacity commands

/-- The echo is the transaction with the other mark, and fits just where that does. -/
theorem encodeEcho_eq_map (capacity : Nat) (commands : List Command) :
    encodeEcho capacity commands =
      (encode capacity commands).map fun text => text.map (exchangeMark ';' '!') := by
  have hecho : commands.flatMap echo = (commands.flatMap wire).map (exchangeMark ';' '!') :=
    (exchangeMark_flatMap isMark_semicolon '!' commands).symm
  rw [encodeEcho, encode, within, within, ← length_flatMap_wire, hecho]
  split
  · refine congrArg some (String.toList_inj.mp ?_)
    rw [String.toList_map, String.toList_ofList, String.toList_ofList]
  · rfl

theorem encodeEcho_of_encode {capacity : Nat} {commands : List Command} {text : String}
    (h : encode capacity commands = some text) :
    encodeEcho capacity commands = some (text.map (exchangeMark ';' '!')) := by
  rw [encodeEcho_eq_map, h, Option.map_some]

theorem utf8ByteSize_join (texts : List String) :
    (String.join texts).utf8ByteSize = (texts.map String.utf8ByteSize).sum := by
  induction texts with
  | nil => rfl
  | cons text texts ih =>
      rw [String.join_cons, String.utf8ByteSize_append, ih, List.map_cons, List.sum_cons]

theorem encode_eq (capacity : Nat) (commands : List Command) :
    encode capacity commands =
      if ((commands.map fun c => String.ofList c.wire).map String.utf8ByteSize).sum ≤ capacity
      then some (String.join (commands.map fun c => String.ofList c.wire)) else none := by
  rw [encode_eq_write?, write?_eq, held?, utf8ByteSize_join]
  rfl

end Command

def Channel.selectors (channel : Channel) : List Command :=
  [.selectSlot (UInt8.ofNat channel.slot), .selectChannel (UInt8.ofNat channel.place)]

/-- A text and white space around it trim to the text, where that is an echo. -/
theorem Command.trim_echo {capacity : Nat} {commands : List Command} {echo : String}
    (h : encodeEcho capacity commands = some echo) (hsome : commands ≠ []) {w w' : List Char}
    (hw : Text.Blank w) (hw' : Text.Blank w') :
    Text.trim (w ++ echo.toList ++ w') = echo.toList := by
  obtain ⟨-, rfl⟩ := within_eq_some_iff.mp h
  rw [String.toList_ofList]
  obtain ⟨first, later, rfl⟩ := List.exists_cons_of_ne_nil hsome
  exact Text.trim_wrapped hw hw' (by cases first <;> rfl) rfl rfl (getLast?_flatMap_echo hsome)

section

variable [Link σ φ]

theorem Settles.eq_ok {terminator : UInt8} {text : String} {next : Arrival φ}
    {r : Except (Error φ) String} (h : Settles σ terminator (Text.bytes text) next r)
    (hends : Finishes σ terminator (Text.bytes text) next) : r = .ok text := by
  generalize hbytes : Text.bytes text = bytes at h hends
  cases h with
  | line _ hspells => exact (hbytes ▸ hspells).eq_ok
  | empty =>
      cases hends with
      | nothing hsome => exact absurd rfl hsome
  | fault hfails => exact absurd hends hfails

theorem Line.ask_finished {capacity : Nat} {terminator : UInt8} {request reply : String}
    {link link' rest : σ} {next : Arrival φ}
    (hsend : Link.send (Text.bytes request) link = (.ok (), link'))
    (hrun : HeadRun terminator link' (Text.bytes reply) next rest)
    (hends : Finishes σ terminator (Text.bytes reply) next)
    (hfits : (Text.bytes reply).length ≤ capacity) :
    ask capacity terminator request link = (.ok reply, rest) := by
  unfold ask
  rw [hsend]
  simp only [collect_headRun hrun hfits]
  rw [(settles_judge hrun).eq_ok hends]

namespace Step

/-- How selecting a channel goes: nothing is sent, or the request was and its echo fits, too. -/
inductive Selecting (channel : Channel) (s : Session σ φ κ) :
    List (Exchange φ) → Except (Error φ) Unit → Prop
  | unsent (hlong : Command.encode s.capacity channel.selectors = none) :
      Selecting channel s [] (.error .tooLong)
  | unanswered {request echo : String} {e : Error φ}
      (hrequest : Command.encode s.capacity channel.selectors = some request)
      (hecho : Command.encodeEcho s.capacity channel.selectors = some echo)
      (hask : (Line.ask s.capacity s.config.terminator request s.link).1 = .error e) :
      Selecting channel s [⟨.instrument, .commands channel.selectors, .error e⟩] (.error e)
  | compared {request echo reply : String}
      (hrequest : Command.encode s.capacity channel.selectors = some request)
      (hecho : Command.encodeEcho s.capacity channel.selectors = some echo)
      (hask : (Line.ask s.capacity s.config.terminator request s.link).1 = .ok reply) :
      Selecting channel s [⟨.instrument, .commands channel.selectors, .ok reply⟩]
        (if Text.trim reply.toList = echo.toList then .ok ()
          else .error (.reply (.channelNotSelected channel)))

theorem selecting_selectChannel (channel : Channel) (s : Session σ φ κ) :
    Ends (selectChannel channel) s fun made r _ => Selecting channel s made r := by
  unfold selectChannel
  refine Ends.bind (P := fun made r _ =>
    (Command.encode s.capacity channel.selectors = none ∧ made = [] ∧ r = .error .tooLong) ∨
    ∃ request, Command.encode s.capacity channel.selectors = some request ∧
      (Line.ask s.capacity s.config.terminator request s.link).1 = r ∧
      made = [⟨.instrument, .commands channel.selectors, r⟩]) ?_ ?_ ?_
  · refine ends_transact_ask (fun hlong => .inl ⟨if_neg (Nat.not_le_of_lt hlong), rfl, rfl⟩) ?_
    intro outcome s' hfits _ hask
    exact .inr ⟨_, if_pos hfits, congrArg Prod.fst hask, rfl⟩
  · intro made e s' _ hends
    rcases hends with ⟨hlong, rfl, he⟩ | ⟨request, hrequest, hask, rfl⟩
    · cases he
      exact .unsent hlong
    · exact .unanswered hrequest (Command.encodeEcho_of_encode hrequest) hask
  · intro made reply s' hg hends
    rcases hends with ⟨-, -, hr⟩ | ⟨request, hrequest, hask, rfl⟩
    · cases hr
    have hecho := Command.encodeEcho_of_encode hrequest
    have hcompared := Selecting.compared hrequest hecho hask
    have hget : s'.perform get = (.ok s', s') := rfl
    refine Ends.bind_of_ok hget (.refl s') ?_
    -- The buffer that had room for the request has room for the echo.
    have hfitting :
        (fitting (Command.encodeEcho s'.capacity channel.selectors) : Except (Error φ) _) =
          .ok (request.map (Command.exchangeMark ';' '!')) := by
      rw [hg.capacity, hecho]
      rfl
    refine Ends.ofExcept_bind (fun e he => nomatch he.symm.trans hfitting) ?_
    intro expected hexpected
    obtain rfl := Except.ok.inj (hexpected.symm.trans hfitting)
    by_cases hsame : Text.trim reply.toList = (request.map (Command.exchangeMark ';' '!')).toList
    · rw [if_pos hsame] at hcompared
      rw [beq_iff_eq.mpr hsame]
      exact ⟨[], ⟨rfl, rfl, rfl⟩, hcompared⟩
    · rw [if_neg hsame] at hcompared
      rw [beq_eq_false_iff_ne.mpr hsame]
      exact ends_throw hcompared

theorem perform_selectChannel_of_echo {channel : Channel} {s : Session σ φ κ}
    {request echo : String} {link rest : σ} {next : Arrival φ} {w w' : List Char}
    (hrequest : Command.encode s.capacity channel.selectors = some request)
    (hecho : Command.encodeEcho s.capacity channel.selectors = some echo)
    (hsend : Link.send (Text.bytes request) s.link = (.ok (), link))
    (hw : Text.Blank w) (hw' : Text.Blank w')
    (hrun : HeadRun s.config.terminator link
      (Text.bytes (String.ofList (w ++ echo.toList ++ w'))) next rest)
    (hends : Finishes σ s.config.terminator
      (Text.bytes (String.ofList (w ++ echo.toList ++ w'))) next)
    (hfits : (Text.bytes (String.ofList (w ++ echo.toList ++ w'))).length ≤ s.capacity) :
    (s.perform (selectChannel channel)).1 = .ok () := by
  have hask := Line.ask_finished hsend hrun hends hfits
  obtain ⟨made, -, hselecting⟩ := selecting_selectChannel channel s
  generalize (s.perform (selectChannel channel)).1 = r at hselecting ⊢
  cases hselecting with
  | unsent hlong => cases hlong.symm.trans hrequest
  | unanswered hrequest' _ hask' =>
      obtain rfl := Option.some.inj (hrequest'.symm.trans hrequest)
      cases hask'.symm.trans (congrArg Prod.fst hask)
  | compared hrequest' hecho' hask' =>
      obtain rfl := Option.some.inj (hrequest'.symm.trans hrequest)
      obtain rfl := Option.some.inj (hecho'.symm.trans hecho)
      obtain rfl := Except.ok.inj (hask'.symm.trans (congrArg Prod.fst hask))
      rw [String.toList_ofList]
      exact if_pos (Command.trim_echo hecho (List.cons_ne_nil _ _) hw hw')

/-- Transactions and echoes fit in the same buffers, so that what was sent can be confirmed. -/
theorem echo_agrees_with_encode :
    (∀ (capacity : Nat) (commands : List Command),
      let texts := commands.map fun c => String.ofList c.wire
      Command.encode capacity commands = Command.write? capacity ';' commands ∧
      Command.encodeEcho capacity commands = Command.write? capacity '!' commands ∧
      ((texts.map String.utf8ByteSize).sum ≤ capacity →
        (fitting (Command.encode capacity commands) : Except (Error φ) String) =
            .ok (String.join texts) ∧
          (fitting (Command.encodeEcho capacity commands) : Except (Error φ) String) =
            .ok ((String.join texts).map fun c => if c = ';' then '!' else c)) ∧
      (capacity < (texts.map String.utf8ByteSize).sum →
        (fitting (Command.encode capacity commands) : Except (Error φ) String) = .error .tooLong ∧
          (fitting (Command.encodeEcho capacity commands) : Except (Error φ) String) =
            .error .tooLong)) ∧
    ∀ (s : Session σ φ κ) (channel : Channel),
      Ends (selectChannel channel) s (fun made r _ => Selecting channel s made r) ∧
      ∀ (request echo : String) (link rest : σ) (next : Arrival φ) (w w' : List Char),
        let reply := Text.bytes (String.ofList (w ++ echo.toList ++ w'))
        Command.encode s.capacity channel.selectors = some request →
        Command.encodeEcho s.capacity channel.selectors = some echo →
        Link.send (Text.bytes request) s.link = (.ok (), link) →
        Text.Blank w → Text.Blank w' → reply.length ≤ s.capacity →
        HeadRun s.config.terminator link reply next rest →
        Finishes σ s.config.terminator reply next →
        (s.perform (selectChannel channel)).1 = .ok () := by
  refine ⟨fun capacity commands => ?_, fun s channel => ⟨selecting_selectChannel channel s, ?_⟩⟩
  · refine ⟨Command.encode_eq_write? _ _, Command.encodeEcho_eq_write? _ _, ?_, ?_⟩
    · intro hfits
      have hencode := (Command.encode_eq capacity commands).trans (if_pos hfits)
      rw [hencode, Command.encodeEcho_of_encode hencode]
      exact ⟨rfl, rfl⟩
    · intro hlong
      have hencode := (Command.encode_eq capacity commands).trans (if_neg (Nat.not_le_of_lt hlong))
      rw [Command.encodeEcho_eq_map, hencode]
      exact ⟨rfl, rfl⟩
  · intro request echo link rest next w w' reply hrequest hecho hsend hw hw' hfits hrun hends
    exact perform_selectChannel_of_echo hrequest hecho hsend hw hw' hrun hends hfits

end Step

end

/-- A connection whose buffer has room for a selection and one byte, with an instrument that
ends its lines with one more character than it has to. -/
def cramped : Session ScriptedLink FaultKind SteppingClock :=
  { link := { script := (Text.bytes "B4!C2!\r").map .byte ++ [.byte 10] }
    clock := {}
    capacity := 7 }

/-- The selection goes through, while it does not fit in a buffer of five bytes, nor its echo. -/
theorem echo_agrees_cramped :
    (cramped.perform (Step.selectChannel ⟨4, 2⟩)).1 = .ok () ∧
      (fitting (Command.encodeEcho 6 (Channel.selectors ⟨4, 2⟩)) : Except (Error FaultKind) _) =
        .ok "B4!C2!" ∧
      (fitting (Command.encodeEcho 5 (Channel.selectors ⟨4, 2⟩)) : Except (Error FaultKind) _) =
        .error .tooLong := by
  obtain ⟨hencode, hselect⟩ :=
    @Step.echo_agrees_with_encode ScriptedLink FaultKind SteppingClock _
  refine ⟨?_, ?_, ?_⟩
  · refine (hselect cramped ⟨4, 2⟩).2 "B4;C2;" "B4!C2!" _ { sent := Text.bytes "B4;C2;" }
      (.byte 10) [] ['\r'] (by decide) (by decide) rfl (by simp [Text.Blank])
      (by simp [Text.Blank]; rfl) (by decide) ?_ .terminator
    exact ⟨⟨_, ScriptedLink.delivers { sent := Text.bytes "B4;C2;" } (Text.bytes "B4!C2!\r")
      [.byte 10], rfl⟩, by decide, fun _ h => (Arrival.byte.inj h).symm⟩
  · refine ((hencode 6 (Channel.selectors ⟨4, 2⟩)).2.2.1 (by decide)).2.trans ?_
    refine congrArg Except.ok (String.toList_inj.mp ?_)
    rw [String.toList_map]
    decide
  · exact ((hencode 5 (Channel.selectors ⟨4, 2⟩)).2.2.2 (by decide)).2

end DacRack
