import Jolt.Command
import Jolt.Proofs.Evaluation.Batch
import Jolt.Proofs.Evaluation.Present
import Jolt.Proofs.Text.Lines

/-!
# The verdict on a golden program

A golden program is judged by the differences of two lists of lines. Since the lines of a text, put together again, are the
text (`Golden.joinWith_comparedLines`), equal lists mean equal texts, up to how lines end (`Text.upToEndings`). All that
the verdict needs of the differences is that there are none exactly where the lists are equal. What a program prints is
said by its tree: the values that its output statements put out (`Stmt.outputs`), each on a line.

Main statement: `Golden.Case.run_judged`.
-/

namespace Jolt

/-! ## Texts up to line endings -/

namespace Text

/-- Replaces every occurrence of a text that is not empty, from the left. -/
def replaceAll (old new : Text) : Text → Text
  | [] => []
  | c :: r =>
    if old <+: c :: r then new ++ replaceAll old new (r.drop (old.length - 1)) else c :: replaceAll old new r
termination_by t => t.length

/-- A text up to line endings: every `CR LF` is replaced by `LF`, then one `LF` at the end is removed, if there is one. -/
def upToEndings (t : Text) : Text :=
  let replaced := replaceAll [Byte.carriageReturn, Byte.lineFeed] [Byte.lineFeed] t
  if [Byte.lineFeed] <:+ replaced then replaced.dropLast else replaced

end Text

namespace Golden

theorem dropReturns_eq (t : Text) :
    dropReturns t = Text.replaceAll [Byte.carriageReturn, Byte.lineFeed] [Byte.lineFeed] t := by
  fun_induction dropReturns t with
  | case1 r ih => simp [Text.replaceAll, ih]
  | case2 c r hne ih =>
    have hno : ¬ [Byte.carriageReturn, Byte.lineFeed] <+: c :: r := by
      rintro ⟨rest, hrest⟩
      obtain ⟨rfl, rfl⟩ := List.cons.inj hrest
      exact hne rest rfl rfl
    rw [Text.replaceAll, if_neg hno, ih]
  | case3 => rw [Text.replaceAll]

theorem dropLastFeed_dropReturns (t : Text) : dropLastFeed (dropReturns t) = t.upToEndings := by
  have hlast : ∀ u : Text, u.getLast? = some Byte.lineFeed ↔ [Byte.lineFeed] <:+ u := by
    intro u
    rw [List.getLast?_eq_some_iff]
    exact ⟨fun ⟨init, h⟩ => ⟨init, h.symm⟩, fun ⟨init, h⟩ => ⟨init, h.symm⟩⟩
  simp only [dropLastFeed, Text.upToEndings, dropReturns_eq, hlast]

/-- The lines that are compared, put together again. -/
theorem joinWith_comparedLines (t : Text) : Text.joinWith [Byte.lineFeed] (comparedLines t) = t.upToEndings := by
  rw [comparedLines, dropLastFeed_dropReturns]
  cases ht : t.upToEndings with
  | nil => rfl
  | cons c r => exact Text.joinWith_splitOn _ _

theorem comparedLines_eq_iff (t u : Text) : comparedLines t = comparedLines u ↔ t.upToEndings = u.upToEndings := by
  constructor
  · intro h
    rw [← joinWith_comparedLines, h, joinWith_comparedLines]
  · intro h
    rw [comparedLines, comparedLines, dropLastFeed_dropReturns, dropLastFeed_dropReturns, h]

end Golden

/-! ## What a program puts out -/

mutual

/-- The values that a statement puts out, in order. -/
def Stmt.outputs : Stmt → Run (List Value)
  | .output (.expr e) => do
    let v ← e.eval
    return [v]
  | .output _ => return [.undefined]
  | .ifThen condition body => do
    let c ← condition.eval
    if c.truthy then Stmt.outputsAll body else return []
  | .block body => Stmt.outputsAll body
  | .expr e => do
    let _ ← e.eval
    return []
  | .comment _ => return []

/-- The values that statements put out one after the other. -/
def Stmt.outputsAll : List Stmt → Run (List Value)
  | [] => return []
  | s :: rest => do
    let values ← s.outputs
    let more ← Stmt.outputsAll rest
    return values ++ more

end

namespace Result

/-- The value of an output. -/
def output? : Result → Option Value
  | displayable v => some v
  | _ => none

/-- The values of outputs among results. -/
def outputs (results : List Result) : List Value :=
  results.filterMap output?

/-- What is printed of an output that carries a value is that value. -/
theorem map_unwrap_outputs {results : List Result} (h : ∀ r ∈ results, r.IsPresent) :
    (results.filter isOutput).map unwrap = outputs results := by
  induction results with
  | nil => rfl
  | cons r rest ih =>
    rw [List.forall_mem_cons] at h
    obtain ⟨⟨v, hv, rfl | rfl⟩, hrest⟩ := h
    · exact ih hrest
    · have hunwrap : (displayable v).unwrap = v := by
        cases v with
        | absent => exact absurd rfl hv
        | number | string | boolean | undefined => rfl
      exact List.cons_eq_cons.2 ⟨hunwrap, ih hrest⟩

end Result

mutual

theorem Stmt.outputs_eq : (s : Stmt) → s.outputs = (fun r => Result.outputs r.spread) <$> s.run
  | .expr e => by
    simp only [Stmt.outputs, Stmt.run, map_eq_pure_bind, bind_assoc, pure_bind]
    cases e.isAssign <;> rfl
  | .output (.expr e) => by
    simp only [Stmt.outputs, Stmt.run, map_eq_pure_bind, bind_assoc, pure_bind]
    rfl
  | .output (.output _) | .output (.comment _) | .output (.ifThen _ _) | .output (.block _) | .comment _ => rfl
  | .ifThen condition body => by
    simp only [Stmt.outputs, Stmt.run, map_eq_pure_bind, bind_assoc]
    congr 1
    funext c
    split
    · simp only [Stmt.outputsAll_eq body, map_eq_pure_bind, bind_assoc, pure_bind, Result.spread]
    · rfl
  | .block body => by
    simp only [Stmt.outputs, Stmt.run, map_eq_pure_bind, bind_assoc, pure_bind, Stmt.outputsAll_eq body, Result.spread]

theorem Stmt.outputsAll_eq : (body : List Stmt) → Stmt.outputsAll body = Result.outputs <$> Stmt.runAll body
  | [] => rfl
  | s :: rest => by
    simp only [Stmt.outputsAll, Stmt.runAll, Stmt.outputs_eq s, Stmt.outputsAll_eq rest, map_eq_pure_bind, bind_assoc,
      pure_bind, Result.outputs, List.filterMap_append]

end

section Printing

variable {source file : Text} {p : Program} {results : List Result} {after : Scope}

theorem Variables.emit_empty (h : parse source file = .ok p) (hrun : Stmt.runAll p .empty = (some results, after)) :
    (Variables.empty.emit source file).1 = .ok results := by
  have hemit : Jolt.emit source file .empty = (some (.ok results), after) := by
    rw [emit_of_parse h, map_eq_pure_bind]
    exact Run.bind_of_some hrun
  exact Variables.emit_fst hemit

/-- A source that parses prints what its tree puts out. -/
theorem Golden.execute_of_parse (h : parse source [] = .ok p) : ∃ values, (Stmt.outputsAll p .empty).1 = some values ∧
    execute source = values.flatMap fun v => v.text ++ [Byte.lineFeed] := by
  obtain ⟨results, after, hrun, hpresent, -⟩ := Stmt.ends_runAll p .empty Scope.whole_empty
  have hvalues : Stmt.outputsAll p .empty = (some (Result.outputs results), after) := by
    rw [Stmt.outputsAll_eq, map_eq_pure_bind]
    exact Run.bind_of_some hrun
  refine ⟨Result.outputs results, congrArg Prod.fst hvalues, ?_⟩
  rw [execute, Variables.emit_empty h hrun, ← Result.map_unwrap_outputs hpresent]
  simp [Text.unlines, List.flatMap_map]

/-- A source that does not parse prints its diagnostic. -/
theorem Golden.execute_of_error {d : Diagnostic} (h : parse source [] = .error d) :
    execute source = d.render ++ [Byte.lineFeed] := by
  rw [execute, Variables.emit_fst (emit_of_error h _)]
  simp [Text.unlines]

end Printing

/-! ## The same program in a file -/

/-- The name of a file shows in diagnostics only, not in the tree. -/
theorem parse_of_unnamed {source : Text} {p : Program} (h : parse source [] = .ok p) (file : Text) :
    parse source file = .ok p := by
  unfold parse at h ⊢
  cases hp : Grammar.program (Token.scan source) with
  | error fault =>
    rw [hp] at h
    cases h
  | ok q =>
    rw [hp] at h
    cases h
    rfl

/-- Running a file that parses prints what the program in it puts out, and nothing else happens. -/
theorem Command.execute_run {r : Request} {o : Options} {work : Workplace} {file source : Text} {p : Program}
    (ho : Options.read Command.run.options r.arguments = .ok o) (hfile : o.operands = [file])
    (hread : work.folder.read file = .ok source) (hp : Jolt.parse source [] = .ok p) :
    Command.run.execute r work = (.printing (Golden.execute source), work) := by
  have hsource : Command.run.source o work = .ok (file, source) := by
    simp [Command.source, onlyFile, hfile, readSource, hread, bind, Except.bind]
  obtain ⟨results, after, hrun, -, -⟩ := Stmt.ends_runAll p .empty Scope.whole_empty
  rw [Command.execute, ho]
  simp [Command.perform, runFile, looking, hsource, Variables.emit_empty (parse_of_unnamed hp file) hrun, Golden.execute,
    Variables.emit_empty hp hrun, bind, Except.bind]

/-! ## The verdict -/

namespace Golden

/-- A case whose two files can be read has passed exactly if the golden text is what the program prints, up to line
endings, and else it has failed and its message holds the differences, given that these are told exactly where the lines
are not the same. A program that parses prints the values that it puts out, each with a line feed, which is what running
its file prints; one that does not parse prints its diagnostic, with a line feed. -/
theorem Case.run_judged (tools : Instruments) (hdiff : ∀ want got, tools.diff want got = [] ↔ want = got)
    (folder : Folder) (reading : Nat) (c : Case) (program golden : Text) (hp : folder.read c.source = .ok program)
    (hg : folder.read c.golden = .ok golden) :
    let o := (c.run tools folder reading).1
    (o.passed = true ↔ golden.upToEndings = (execute program).upToEndings) ∧
      o.failed = !o.passed ∧ o.skipped = false ∧ o.error = none ∧
      (o.failed = true → o.message = mismatch (tools.diff (comparedLines golden) (comparedLines (execute program)))) ∧
      (∀ p, parse program [] = .ok p →
        (∃ values, (Stmt.outputsAll p .empty).1 = some values ∧
          execute program = values.flatMap fun v => v.text ++ [Byte.lineFeed]) ∧
        ∀ (r : Command.Request) (o : Options) (work : Workplace) (file : Text),
          Options.read Command.run.options r.arguments = .ok o → o.operands = [file] →
          work.folder.read file = .ok program →
            Command.run.execute r work = (.printing (execute program), work)) ∧
      ∀ d, parse program [] = .error d → execute program = d.render ++ [Byte.lineFeed] := by
  intro o
  -- the empty path of a case without golden file leads nowhere, so such a case is not among these
  have hne : c.golden.isEmpty = false := by
    cases hc : c.golden with
    | nil =>
      rw [hc] at hg
      cases hg
    | cons b r => rfl
  have hrun : o = { c.check tools.diff folder with duration := tools.elapsed reading (reading + 1) } := by
    simp [o, Case.run, hne]
  have hcheck : c.check tools.diff folder = judge tools.diff c program golden := by
    simp [Case.check, hp, hg]
  have hpassed : o.passed = true ↔ comparedLines golden = comparedLines (execute program) := by
    rw [← hdiff, hrun, hcheck]
    by_cases h : tools.diff (comparedLines golden) (comparedLines (execute program)) = []
    · simp [judge, h]
    · simp [judge, h, Case.pending]
  have hdecided : o.failed = !o.passed ∧ o.skipped = false := by
    rw [hrun]
    exact c.decided_check tools.diff folder
  have htold : o.error = none ∧
      (o.failed = true → o.message = mismatch (tools.diff (comparedLines golden) (comparedLines (execute program)))) := by
    rw [hrun, hcheck]
    unfold judge
    dsimp only
    split
    · exact ⟨rfl, fun h => by cases h⟩
    · exact ⟨rfl, fun _ => rfl⟩
  rw [← comparedLines_eq_iff]
  refine ⟨hpassed, hdecided.1, hdecided.2, htold.1, htold.2,
    fun p h => ⟨execute_of_parse h, fun r o work file ho hfile hread => ?_⟩, fun d => execute_of_error⟩
  exact Command.execute_run ho hfile hread h

theorem markedLines_eq_nil_iff (want got : List Text) : markedLines want got = [] ↔ want = [] ∧ got = [] := by
  cases want <;> cases got <;> simp [markedLines, Text.unlines]

theorem lineDiff_eq_nil_iff (want got : List Text) : lineDiff want got = [] ↔ want = got := by
  fun_induction lineDiff want got with
  | case1 w want got ih => simpa using ih
  | case2 w want g got hne => simp [markedLines_eq_nil_iff, hne]
  | case3 want got hother =>
    rw [markedLines_eq_nil_iff]
    constructor
    · rintro ⟨rfl, rfl⟩
      rfl
    · rintro rfl
      cases want with
      | nil => exact ⟨rfl, rfl⟩
      | cons w want => exact (hother w want w want rfl rfl).elim

/-- A program with an output in a body, beside a golden text with a carriage return and without a line feed at its end, and
beside one with another line. -/
theorem Case.run_judged_returns :
    let program := utf8 "out \"a\"; if 2 > 1 \x7b out 3 \x7d"
    let folder : Folder :=
      ⟨[([utf8 "a.jolt"], program), ([utf8 "a.out"], utf8 "a\r\n3"), ([utf8 "b.out"], utf8 "a\n4\n")], []⟩
    let good : Case := ⟨utf8 "a", utf8 "a.jolt", utf8 "a.out"⟩
    let bad : Case := ⟨utf8 "b", utf8 "a.jolt", utf8 "b.out"⟩
    let tools : Instruments := ⟨lineDiff, fun n => 1000 * n⟩
    let r : Command.Request := ⟨[utf8 "a.jolt"], [], false, false, Duration.text, tools⟩
    let work := Workplace.ofSurroundings ⟨folder, none, none⟩
    (∀ want got, tools.diff want got = [] ↔ want = got) ∧
      folder.read good.source = .ok program ∧ folder.read good.golden = .ok (utf8 "a\r\n3") ∧
      (good.run tools folder 0).1.passed = true ∧ (bad.run tools folder 0).1.failed = true ∧
      (bad.run tools folder 0).1.message = utf8 "output mismatch (-want +got):\n-4\n+3" ∧
      Command.run.execute r work = (.printing (utf8 "a\n3\n"), work) := by
  intro program folder good bad tools r work
  have hp : folder.read good.source = .ok program := rfl
  have hg : folder.read good.golden = .ok (utf8 "a\r\n3") := rfl
  obtain ⟨hpassed, -, -, -, -, hparsed, -⟩ := run_judged tools lineDiff_eq_nil_iff folder 0 good _ _ hp hg
  obtain ⟨hbad, hfailed, -, -, hmessage, -⟩ :=
    run_judged tools lineDiff_eq_nil_iff folder 0 bad program (utf8 "a\n4\n") rfl rfl
  have hparse : parse program [] = .ok
      [.output (.expr (.string (utf8 "a"))),
        .ifThen (.comparison (.number (.ofNat 2)) (utf8 ">") (.number (.ofNat 1)))
          [.output (.expr (.number (.ofNat 3)))]] := by
    decide +kernel
  have hprint : execute program = utf8 "a\n3\n" := by decide +kernel
  have hoptions : Options.read Command.run.options r.arguments = .ok ⟨[], [utf8 "a.jolt"]⟩ := by
    rw [Options.read, Options.readFrom]
    rfl
  have hfail : (bad.run tools folder 0).1.failed = true := by
    rw [hfailed, Bool.not_eq_true', Bool.eq_false_iff, ne_eq, hbad, ← dropLastFeed_dropReturns,
      ← dropLastFeed_dropReturns, hprint]
    decide
  refine ⟨lineDiff_eq_nil_iff, hp, hg, hpassed.2 ?_, hfail, ?_, ?_⟩
  · rw [← dropLastFeed_dropReturns, ← dropLastFeed_dropReturns, hprint]
    decide
  · rw [hmessage hfail, hprint]
    decide
  · rw [← hprint]
    exact (hparsed _ hparse).2 r _ work _ hoptions rfl hp

end Golden

end Jolt
