import Jolt.Proofs.Service.Session
import Jolt.Proofs.Text.Lines

/-!
# Dialogues agree with sessions

A dialogue that shows no prompts prints what a session of the service replies to the lines that are entered in it: those
the reader delivers, up to the line `exit`, without the blank ones (`heeded`). Both record the same sources as failed.
What follows the line `exit` is never looked at, and what becomes of the records changes nothing else.
-/

namespace Jolt.Dialogue

/-- The line that ends a dialogue. -/
def isExit (line : Text) : Bool :=
  Text.trim line = utf8 "exit"

/-- A line of white space. -/
def isBlank (line : Text) : Bool :=
  (Text.trim line).isEmpty

/-- The pieces that are lines: the last counts only if there is something in it. -/
def whole (pieces : List Text) : List Text :=
  if pieces.getLast? = some [] then pieces.dropLast else pieces

/-- The lines a reader delivers: those between line feeds, each without a carriage return at its end, and none from the
first one on that is too long. -/
def delivered (input : Text) : List Text :=
  ((whole input.lines).takeWhile (·.length < lineLimit)).map dropReturn

/-- The lines a dialogue does something about. -/
def heeded (lines : List Text) : List Text :=
  (lines.takeWhile (!isExit ·)).filter (!isBlank ·)

end Jolt.Dialogue

/-- What is printed of a reply: its error, or its results. -/
def Jolt.Reply.printed (r : Reply) : List Text :=
  match r.error with
  | some e => [e]
  | none => r.results

namespace Jolt.Dialogue

open Service (Effect utterance startWith)

/-! ## Reading -/

section Reading

variable (waiting : Bool) {line : Text} {rest : List Text}

theorem readLines_of_long (h : ¬line.length < lineLimit) : readLines waiting (line :: rest) = ([], true) :=
  if_pos (Nat.le_of_not_lt h)

/-- A line is read unless it is the last piece and either empty or waited for. -/
theorem readLines_cons (h : line.length < lineLimit) (hlast : rest = [] → waiting = false ∧ line ≠ []) :
    readLines waiting (line :: rest) = (dropReturn line :: (readLines waiting rest).1, (readLines waiting rest).2) := by
  rw [readLines, if_neg (Nat.not_le_of_lt h)]
  cases rest with
  | nil =>
    obtain ⟨rfl, hline⟩ := hlast rfl
    rw [List.isEmpty_eq_false_iff.2 hline]
    rfl
  | cons next rest => rfl

theorem whole_cons (hlast : rest = [] → line ≠ []) : whole (line :: rest) = line :: whole rest := by
  cases rest with
  | nil => simp [whole, hlast]
  | cons next rest =>
    unfold whole
    rw [List.getLast?_cons_cons]
    split <;> rfl

end Reading

theorem readLines_eq (pieces : List Text) :
    (readLines false pieces).1 = ((whole pieces).takeWhile (·.length < lineLimit)).map dropReturn := by
  induction pieces with
  | nil => rfl
  | cons line rest ih =>
    by_cases hempty : rest = [] ∧ line = []
    · rw [hempty.1, hempty.2]
      rfl
    · have hlast : rest = [] → line ≠ [] := fun hrest hline => hempty ⟨hrest, hline⟩
      rw [whole_cons hlast, List.takeWhile_cons]
      by_cases hlong : line.length < lineLimit
      · rw [readLines_cons false hlong fun hrest => ⟨rfl, hlast hrest⟩, if_pos (decide_eq_true hlong), ih]
        rfl
      · rw [readLines_of_long false hlong, if_neg (by simpa using hlong)]
        rfl

/-! ## Turns -/

section Turns

variable (o : Options) {line : Text} (vars : Variables)

theorem printed_reply (session line : Text) :
    (Service.reply session vars line).printed = shown (vars.emit line []).1 := by
  rw [Service.reply_eq]
  cases (vars.emit line []).1 <;> rfl

theorem turn_of_blank (h : isBlank line = true) : o.turn line vars = .skip :=
  if_pos h

theorem turn_of_exit (h : isExit line = true) : o.turn line vars = .leave := by
  have hword : Text.trim line = utf8 "exit" := of_decide_eq_true h
  rw [Options.turn, hword]
  rfl

/-- Any other line is run, and its reply is printed. -/
theorem turn_eq_run (hblank : isBlank line = false) (hexit : isExit line = false) (session : Text) :
    o.turn line vars = .run (Text.unlines (Service.reply session vars line).printed) (utterance o.session line)
      (vars.emit line []).2 := by
  have hword : Text.trim line ≠ utf8 "exit" := of_decide_eq_false hexit
  have hsome : ¬(Text.trim line).isEmpty = true := Bool.eq_false_iff.1 hblank
  rw [Options.turn, if_neg hsome, if_neg hword, printed_reply, utterance, ← Variables.isNone_emit vars]

end Turns

/-! ## Lines that are heeded -/

section Heeded

variable {line : Text} (rest : List Text)

theorem heeded_cons_of_exit (h : isExit line = true) : heeded (line :: rest) = [] := by
  simp [heeded, h]

theorem heeded_cons_of_blank (h : isBlank line = true) : heeded (line :: rest) = heeded rest := by
  have hexit : isExit line = false := by
    rw [isExit, List.isEmpty_iff.1 h]
    decide
  simp [heeded, h, hexit]

theorem heeded_cons (hblank : isBlank line = false) (hexit : isExit line = false) :
    heeded (line :: rest) = line :: heeded rest := by
  simp [heeded, hblank, hexit]

end Heeded

/-! ## The loop -/

theorem promptText_of_quiet {o : Options} (h : o.interactive = false) : o.promptText = [] := by
  simp [Options.promptText, h]

/-- The loop of a dialogue without prompts and the messages of a session, side by side. -/
theorem converse_eq (o : Options) (hquiet : o.interactive = false) (session : Text) (last : Transcript)
    (houtput : last.output = []) (hutterances : last.utterances = []) (lines : List Text) (vars : Variables) :
    (converse o last lines vars).output =
        Text.unlines ((Service.replies session vars (heeded lines)).flatMap Reply.printed) ∧
      (converse o last lines vars).utterances =
        (heeded lines).flatMap fun line => o.recorder.note (utterance o.session line) := by
  have hprompt := promptText_of_quiet hquiet
  induction lines generalizing vars with
  | nil => exact ⟨houtput, hutterances⟩
  | cons line rest ih =>
    cases hblank : isBlank line with
    | true =>
      rw [converse, turn_of_blank o vars hblank, heeded_cons_of_blank rest hblank]
      simp only [hprompt, List.nil_append]
      exact ih vars
    | false =>
      cases hexit : isExit line with
      | true =>
        rw [converse, turn_of_exit o vars hexit, heeded_cons_of_exit rest hexit]
        exact ⟨hprompt, rfl⟩
      | false =>
        obtain ⟨ihoutput, ihutterances⟩ := ih (vars.emit line []).2
        rw [converse, turn_eq_run o vars hblank hexit session, heeded_cons rest hblank hexit]
        simp only [hprompt, ihoutput, ihutterances, List.nil_append]
        exact ⟨(List.flatMap_append).symm, rfl⟩

/-- The end of a dialogue without prompts prints and records nothing, however it comes. -/
theorem finish_of_quiet {o : Options} (hquiet : o.interactive = false) (ending : Ending) (long : Bool) :
    (o.finish ending long).output = [] ∧ (o.finish ending long).utterances = [] := by
  have hprompt := promptText_of_quiet hquiet
  unfold Options.finish
  rw [hprompt, hquiet]
  split
  · exact ⟨rfl, rfl⟩
  · split <;> exact ⟨rfl, rfl⟩

/-- A whole dialogue without prompts. -/
theorem run_eq {o : Options} (hquiet : o.interactive = false) (session input : Text) {ending : Ending}
    (hending : ending ≠ .cancelled) :
    (run o input ending).output =
        Text.unlines ((Service.replies session .empty (heeded (delivered input))).flatMap Reply.printed) ∧
      (run o input ending).utterances =
        (heeded (delivered input)).flatMap fun line => o.recorder.note (utterance o.session line) := by
  have hopening : o.opening = [] := by simp [Options.opening, hquiet]
  have hwaiting : decide (ending = .cancelled) = false := decide_eq_false hending
  obtain ⟨houtput, hutterances⟩ := finish_of_quiet hquiet ending (readLines false input.lines).2
  rw [delivered, ← readLines_eq, run, hwaiting, hopening]
  exact converse_eq o hquiet session _ houtput hutterances _ _

/-! ## The line that ends a dialogue -/

/-- After a line that ends the dialogue nothing is looked at, neither in the lines nor in how the input ends. -/
theorem converse_exit (o : Options) (ending ending' : Ending) {bye : Text} (hbye : isExit (dropReturn bye) = true)
    (qs qs' : List Text) (hqs : qs ≠ []) (hqs' : qs' ≠ []) (ps : List Text) (hps : ps.getLast? = some bye)
    (waiting waiting' : Bool) (vars : Variables) :
    converse o (o.finish ending (readLines waiting (ps ++ qs)).2) (readLines waiting (ps ++ qs)).1 vars =
      converse o (o.finish ending' (readLines waiting' (ps ++ qs')).2) (readLines waiting' (ps ++ qs')).1 vars := by
  -- On the pieces up to the line: they are never the last ones, so how the input ends does not matter to their reading.
  induction ps generalizing vars with
  | nil => cases hps
  | cons p ps ih =>
    by_cases hlong : p.length < lineLimit
    · rw [List.cons_append, List.cons_append,
        readLines_cons waiting hlong fun hnil => absurd (List.append_eq_nil_iff.1 hnil).2 hqs,
        readLines_cons waiting' hlong fun hnil => absurd (List.append_eq_nil_iff.1 hnil).2 hqs']
      cases ps with
      | nil =>
        obtain rfl : p = bye := Option.some.inj hps
        rw [converse, converse, turn_of_exit o vars hbye]
      | cons next ps =>
        have hlast : (next :: ps).getLast? = some bye := by rw [← hps, List.getLast?_cons_cons]
        rw [converse, converse]
        cases o.turn (dropReturn p) vars with
        | leave => rfl
        | skip => dsimp only; rw [ih hlast vars]
        | run output u vars => dsimp only; rw [ih hlast vars]
    · -- A line that is too long ends the reading before the line that would end the dialogue.
      rw [List.cons_append, List.cons_append, readLines_of_long waiting hlong, readLines_of_long waiting' hlong]
      rfl

/-- Two inputs that are the same up to such a line give the same dialogue. -/
theorem run_exit (o : Options) {head bye : Text} (hhead : head.lines.getLast? = some bye)
    (hbye : isExit (dropReturn bye) = true) (after after' : Text) (ending ending' : Ending) :
    run o (head ++ Byte.lineFeed :: after) ending = run o (head ++ Byte.lineFeed :: after') ending' := by
  have hlines : ∀ r, Text.lines (head ++ Byte.lineFeed :: r) = head.lines ++ Text.lines r :=
    Text.splitOn_append Byte.lineFeed head
  have hconverse := converse_exit o ending ending' hbye (Text.lines after) (Text.lines after')
    (Text.splitOn_ne_nil _ _) (Text.splitOn_ne_nil _ _) head.lines hhead (ending = .cancelled) (ending' = .cancelled) .empty
  rw [run, run, hlines, hlines]
  dsimp only
  rw [hconverse]

/-! ## Recorders -/

/-- What becomes of the records changes nothing that is printed. -/
theorem converse_withRecorder (o : Options) (recorder : Recorder) (last : Transcript) (lines : List Text)
    (vars : Variables) :
    (converse { o with recorder := recorder } last lines vars).output = (converse o last lines vars).output ∧
      (converse { o with recorder := recorder } last lines vars).failure = (converse o last lines vars).failure := by
  have hturn : ∀ line vars, Options.turn { o with recorder := recorder } line vars = o.turn line vars :=
    fun _ _ => rfl
  induction lines generalizing vars with
  | nil => exact ⟨rfl, rfl⟩
  | cons line rest ih =>
    rw [converse, converse, hturn]
    cases o.turn line vars with
    | leave => exact ⟨rfl, rfl⟩
    | skip => exact ⟨congrArg (o.promptText ++ ·) (ih vars).1, (ih vars).2⟩
    | run output u vars => exact ⟨congrArg (o.promptText ++ output ++ ·) (ih vars).1, (ih vars).2⟩

theorem run_withRecorder (o : Options) (recorder : Recorder) (input : Text) (ending : Ending) :
    (run { o with recorder := recorder } input ending).output = (run o input ending).output ∧
      (run { o with recorder := recorder } input ending).failure = (run o input ending).failure := by
  let reading := readLines (ending = .cancelled) input.lines
  obtain ⟨houtput, hfailure⟩ := converse_withRecorder o recorder (o.finish ending reading.2) reading.1 .empty
  exact ⟨congrArg (o.opening ++ ·) houtput, hfailure⟩

/-! ## Agreement -/

/-- What an utterance says apart from its session. -/
def entry (u : Utterance) : Text × Bool :=
  (u.source, u.failed)

theorem map_entry_note (recorder : Recorder) (session session' : Text) (lines : List Text) :
    (lines.flatMap fun line => recorder.note (utterance session line)).map entry =
      (lines.flatMap fun line => recorder.note (utterance session' line)).map entry := by
  rw [List.map_flatMap, List.map_flatMap]
  cases recorder <;> rfl

/-- A dialogue without prompts prints, for each line it heeds, the reply that the line gets when the same lines are sent
in order in one session of the service: the error, or each of the results. Both record the same entries in the same
order. Nothing after a line that ends the dialogue makes a difference to it, and no recorder makes a difference to what
is printed or replied or to the variables of any session. -/
theorem run_agrees (o : Options) (hquiet : o.interactive = false) (input : Text) (ending : Ending)
    (hending : ending ≠ .cancelled) (client : Text) (identify : Nat → Text) :
    let lines := heeded (delivered input)
    let service := startWith identify 0 o.recorder
    let effects := (Service.run (.connect client :: lines.map (.message client)) service).1
    (effects.flatMap Effect.replies).length = lines.length ∧
    (run o input ending).output = Text.unlines ((effects.flatMap Effect.replies).flatMap Reply.printed) ∧
    (run o input ending).utterances.map entry = (effects.flatMap Effect.utterances).map entry ∧
    (o.recorder ≠ .off → (run o input ending).utterances.map entry = lines.map fun line => (line, isFaulty line)) ∧
    (∀ head bye, head.lines.getLast? = some bye → isExit (dropReturn bye) = true → ∀ after after' ending',
      run o (head ++ Byte.lineFeed :: after) ending = run o (head ++ Byte.lineFeed :: after') ending') ∧
    (∀ recorder, (run { o with recorder := recorder } input ending).output = (run o input ending).output ∧
      (run { o with recorder := recorder } input ending).failure = (run o input ending).failure) ∧
    ∀ recorder events,
      (Service.run events (startWith identify 0 recorder)).1.map Effect.answer =
        (Service.run events service).1.map Effect.answer ∧
      (Service.run events (startWith identify 0 recorder)).2.connections = (Service.run events service).2.connections := by
  intro lines service effects
  obtain ⟨hreplies, hrecorded⟩ := Service.run_alone identify 0 o.recorder client lines (fun _ _ => rfl)
  obtain ⟨houtput, hutterances⟩ := run_eq hquiet (identify 0) input hending
  refine ⟨?_, ?_, ?_, ?_, ?_, ?_, ?_⟩
  · rw [hreplies, Service.length_replies]
  · rw [houtput, hreplies]
  · rw [hutterances, hrecorded]
    exact map_entry_note _ _ _ _
  · intro hrecorder
    rw [hutterances, Service.flatMap_note hrecorder, List.map_map]
    rfl
  · intro head bye hhead hbye after after' ending'
    exact run_exit o hhead hbye after after' ending ending'
  · intro recorder
    exact run_withRecorder o recorder input ending
  · intro recorder events
    obtain ⟨hanswers, hservice⟩ := Service.run_withRecorder service recorder events
    exact ⟨hanswers, (congrArg Service.connections hservice).trans rfl⟩

/-- A dialogue with both kinds of line end, a blank line, a line that does not parse and is not kept, and more after the
end. -/
theorem run_agrees_until_exit :
    let o : Options := ⟨[], false, false, utf8 "s", .on fun u => if u.failed then some (utf8 "full") else none⟩
    let head := utf8 "x = \"a\"\r\n \t\nout (\n out x\n exit\r"
    let input := head ++ Byte.lineFeed :: utf8 "out x\n"
    let lines := [utf8 "x = \"a\"", utf8 "out (", utf8 " out x"]
    (o.interactive = false ∧ Ending.exhausted ≠ .cancelled ∧ o.recorder ≠ .off ∧
      head.lines.getLast? = some (utf8 " exit\r") ∧ isExit (dropReturn (utf8 " exit\r")) = true) ∧
    heeded (delivered input) = lines ∧
    (run o input .exhausted).output = Text.unlines
      (((Service.run (.connect [] :: lines.map (.message [])) (Service.start 0 o.recorder)).1.flatMap
        Effect.replies).flatMap Reply.printed) ∧
    (run o input .exhausted).utterances.map entry = lines.zip [false, true, false] ∧
    run o input .exhausted = run o (head ++ [Byte.lineFeed]) .cancelled ∧
    (run { o with recorder := .off } input .exhausted).output = (run o input .exhausted).output := by
  intro o head input lines
  have hlines : heeded (delivered input) = lines := by decide +kernel
  have hon : o.recorder ≠ .off := by rintro ⟨⟩
  have hhead : head.lines.getLast? = some (utf8 " exit\r") := by decide +kernel
  have hbye : isExit (dropReturn (utf8 " exit\r")) = true := by decide +kernel
  obtain ⟨-, houtput, -, hentries, hexit, hrecorder, -⟩ :=
    run_agrees o rfl input .exhausted (by decide) [] fun n => SessionId.nth (n + 1)
  rw [hlines] at houtput hentries
  refine ⟨⟨rfl, by decide, hon, hhead, hbye⟩, hlines, houtput, ?_, hexit head _ hhead hbye _ _ _, (hrecorder .off).1⟩
  rw [hentries hon]
  decide +kernel

end Jolt.Dialogue
