import QueueMachine.Proofs.Arithmetic
import QueueMachine.Proofs.Directory
import QueueMachine.Proofs.Machine.Compiled
import QueueMachine.Proofs.Machine.Streamed

set_option autoImplicit false

/-!
Running a program from a file. Reading a file changes its line breaks, but a line break is a blank
before and after, so that the words of the program and with them its instructions and labels stay the
same. The output goes through a stream to a file of its own, which then holds what a buffer would
hold. Before the program is read no file is touched.
-/

namespace QueueMachine

/-- Line breaks can be unified behind anything, also in the middle of a word. -/
theorem Token.words_append_unifyBreaks (front cs : List Char) :
    words (front ++ Text.unifyBreaks cs) = words (front ++ cs) := by
  fun_induction Text.unifyBreaks cs generalizing front with
  | case1 => rfl
  | case2 rest inductionHypothesis =>
      have behind : words (Text.unifyBreaks rest) = words rest := inductionHypothesis []
      rw [words_append_cons_of_isBlank (by decide), words_append_cons_of_isBlank (by decide), behind,
        words_cons_of_isBlank (by decide)]
  | case3 c rest notPair inductionHypothesis =>
      by_cases isReturn : c = '\r'
      · subst isReturn
        have behind : words (Text.unifyBreaks rest) = words rest := inductionHypothesis []
        rw [if_pos rfl, words_append_cons_of_isBlank (by decide),
          words_append_cons_of_isBlank (by decide), behind]
      · simpa [isReturn] using inductionHypothesis (front ++ [c])

theorem Program.commands_unifyBreaks (source : String) :
    commands (String.ofList (Text.unifyBreaks source.toList)) = commands source := by
  have same : Token.words (Text.unifyBreaks source.toList) = Token.words source.toList :=
    Token.words_append_unifyBreaks [] source.toList
  rw [commands_eq_ofWords, commands_eq_ofWords, String.toList_ofList, same]

/-- A machine knows a program by its commands only. -/
theorem Machine.ofProgram_eq_of_commands_eq
    {first second : String}
    (same : Program.commands first = Program.commands second)
    (firstName secondName : String)
    (sink : Option Sink) :
    ofProgram (.ofSource first firstName) sink = ofProgram (.ofSource second secondName) sink := by
  unfold ofProgram
  rw [Program.instructions_ofSource, Program.instructions_ofSource, Program.labels_ofSource,
    Program.labels_ofSource, same]

theorem Directory.readText_of_decodes
    {directory : Directory} {path source : String} {contents : ByteArray}
    (opens : directory.openForReading path = .ok contents)
    (decodes : Text.decodeUtf8 contents = .ok source) :
    directory.readText path = .ok (String.ofList (Text.unifyBreaks source.toList)) := by
  simp only [readText, opens, decodes]

theorem Directory.exists_readText_eq_error
    {directory : Directory} {path : String}
    (unreadable : ¬ ∃ contents source,
      directory.openForReading path = .ok contents ∧ Text.decodeUtf8 contents = .ok source) :
    ∃ problem, directory.readText path = .error problem := by
  cases opens : directory.openForReading path with
  | error failure =>
      refine ⟨.opening ⟨failure, path⟩, ?_⟩
      simp only [readText, opens]
  | ok contents =>
      cases decodes : Text.decodeUtf8 contents with
      | error fault =>
          refine ⟨.decoding fault, ?_⟩
          simp only [readText, opens, decodes]
      | ok source => exact absurd ⟨contents, source, opens, decodes⟩ unreadable

theorem Program.runToFile_of_openForWriting
    (program : Program)
    {directory : Directory} {output : String} {place : Place}
    (writable : directory.openForWriting output = .ok place)
    {settings : RunSettings} {ended : Machine.Run}
    (ends : (Machine.ofProgram program (some fileSink)).runWith? settings = some ended) :
    program.runToFile directory output settings =
      ⟨directory.putText place ended.machine.sink.written, .ok (some ended)⟩ := by
  have placed : directory.placeFor output = .ok place := by
    simp only [Directory.placeFor, writable]
  have created : directory.create output = ⟨directory.putText place "", .ok place⟩ := by
    simp only [Directory.create, placed]
  unfold runToFile
  rw [created]
  dsimp only
  rw [ends]
  simp only [Option.elim_some, Directory.putText, Directory.put_put]

theorem runFile_of_readText_eq_ok
    {directory : Directory} {input source : String}
    (reads : directory.readText (Path.normalize input) = .ok source)
    (output : String) (settings : RunSettings) :
    let program := Program.ofSource source (Path.normalize input)
    let outcome := program.runToFile directory output settings
    runFile directory input output settings =
      ⟨outcome.directory, outcome.answer.map fun ended => ended.map fun run => ⟨program, run⟩⟩ := by
  intro program outcome
  unfold runFile
  dsimp only
  rw [reads]

theorem runFile_of_readText_eq_error
    {directory : Directory} {input : String} {problem : FileProblem}
    (unread : directory.readText (Path.normalize input) = .error problem)
    (output : String) (settings : RunSettings) :
    runFile directory input output settings = ⟨directory, .error problem⟩ := by
  unfold runFile
  dsimp only
  rw [unread]

theorem Machine.TrustsNote.closed_run
    {machine : Machine}
    (trusts : machine.TrustsNote)
    (traced : Bool) (bound : Nat) :
    (machine.run traced bound).machine.sink.closed = true := by
  let settings : RunSettings := { traced, limit := some bound, patience := 0 }
  have called : machine.call? (.run settings) = some (machine.run traced bound).outcome := rfl
  exact trusts.closed_of_isRun rfl called

theorem Machine.run_streamSink
    (program : Program) (settings : RunSettings) (ownsStream : Bool) :
    let streamed := (ofProgram program (some (.stream { ownsStream }))).run settings.traced
      settings.bound
    let buffered := (ofProgram program (some (.buffer {}))).run settings.traced settings.bound
    streamed.fault = buffered.fault ∧ streamed.machine.Mirrors ownsStream buffered.machine :=
  ((mirrors_make program.instructions program.labels "" ownsStream).run_cases settings).1 (.inl rfl)

/-- A run whose output goes to a file of its own ends as the run with a buffer does, and has closed
the file. -/
theorem Machine.run_fileSink
    (program : Program) (settings : RunSettings) :
    let streamed := (ofProgram program (some fileSink)).run settings.traced settings.bound
    let buffered := (ofProgram program (some (.buffer {}))).run settings.traced settings.bound
    streamed.fault = buffered.fault ∧
      streamed.machine.state = buffered.machine.state ∧
      buffered.machine.output? = some streamed.machine.sink.written ∧
      streamed.machine.sink.isOpen = false := by
  intro streamed buffered
  have ended : streamed.fault = buffered.fault ∧ streamed.machine.Mirrors true buffered.machine :=
    run_streamSink program settings true
  obtain ⟨fault, alike⟩ := ended
  have closed : buffered.machine.sink.closed = true := by
    apply TrustsNote.closed_run
    nofun
  refine ⟨fault, alike.state_eq, alike.output?_eq, ?_⟩
  simp [alike.isOpen_eq, closed]

/-- Running the program in a file, for any number of steps, leaves in the output file exactly the
encoded output of running its text, and changes no other file; the machine ends in the same state,
although the file was read with its line breaks unified. Every code that is printed is the code of a
character, so there is nothing that could not be encoded. If the program cannot be read, nothing is
changed. -/
theorem runFile_eq_runSource?
    (directory : Directory)
    (input output sourceName : String)
    (traced : Bool)
    (bound patience : Nat) :
    let settings : RunSettings := { traced, limit := some bound, patience }
    let outcome := runFile directory input output settings
    (∀ contents source place,
      directory.openForReading (Path.normalize input) = .ok contents →
      Text.decodeUtf8 contents = .ok source →
      (Program.ofSource source sourceName).size < Numeral.placeValue Numeral.maxDigits →
      directory.openForWriting output = .ok place →
      ∃ ended buffered printed,
        outcome.answer = .ok (some ended) ∧
          ended.run.fault = none ∧
          runSource? source sourceName settings = some buffered ∧
          buffered.fault = none ∧
          buffered.machine.output? = some printed ∧
          outcome.directory.openForReading output = .ok (Text.encodeUtf8 printed) ∧
          outcome.directory = directory.put place (.file (Text.encodeUtf8 printed)) ∧
          (∀ other, other ≠ place → outcome.directory.entry? other = directory.entry? other) ∧
          ended.run.machine.state = buffered.machine.state ∧
          ended.run.machine.sink.isOpen = false) ∧
      (∀ value, ((Arithmetic.character value).toNat : Int) = Arithmetic.characterCode value) ∧
      ((¬ ∃ contents source,
          directory.openForReading (Path.normalize input) = .ok contents ∧
            Text.decodeUtf8 contents = .ok source) →
        ∃ problem, outcome.answer = .error problem ∧ outcome.directory = directory) := by
  intro settings outcome
  refine ⟨?_, Arithmetic.toNat_character, ?_⟩
  · intro contents source place opens decodes bounded writable
    have reads := Directory.readText_of_decodes opens decodes
    have whole := runFile_of_readText_eq_ok reads output settings
    dsimp only at whole
    generalize makes : Program.ofSource (String.ofList (Text.unifyBreaks source.toList))
      (Path.normalize input) = program at whole
    -- The machine of the file's program is the machine of the text as it stands in the file.
    have same (sink : Option Sink) :
        Machine.ofProgram program sink = Machine.ofProgram (.ofSource source sourceName) sink := by
      rw [← makes]
      exact Machine.ofProgram_eq_of_commands_eq (Program.commands_unifyBreaks source) _ _ sink
    obtain ⟨fault, state, written, closed⟩ := Machine.run_fileSink program settings
    rw [same (some (.buffer {}))] at fault state written
    have noFault := Machine.fault_run_ofSource bounded
      (show ((some (.buffer {})).getD (.buffer {}) : Sink).isOpen = true from rfl)
      settings.traced settings.bound
    have ends : (Machine.ofProgram program (some fileSink)).runWith? settings =
        some ((Machine.ofProgram program (some fileSink)).run settings.traced settings.bound) := rfl
    have toFile := program.runToFile_of_openForWriting writable ends
    rw [toFile] at whole
    have left : outcome.directory = directory.putText place _ := congrArg FileOutcome.directory whole
    refine ⟨_, _, _, congrArg FileOutcome.answer whole, fault.trans noFault, rfl, noFault, written,
      ?_, left, ?_, state, closed⟩
    · rw [left]
      exact Directory.openForReading_put writable _
    · intro other different
      rw [left]
      exact Directory.entry?_put_of_ne different _
  · intro unreadable
    obtain ⟨problem, unread⟩ := Directory.exists_readText_eq_error unreadable
    have whole := runFile_of_readText_eq_error unread output settings
    exact ⟨problem, congrArg FileOutcome.answer whole, congrArg FileOutcome.directory whole⟩

/-- A file with two kinds of line breaks in it, whose program prints a line and then the character of
the highest code; the file for the output has contents that are replaced. A file that is not there
leaves these contents. -/
theorem runFile_eq_runSource?_mixed_breaks :
    let source := "1\r2\r\n+ P 0 1 - C"
    let old := Entry.file (Text.encodeUtf8 "old")
    let directory : Directory :=
      ⟨[(["in.qk"], .file (Text.encodeUtf8 source)), (["out.txt"], old)]⟩
    let settings : RunSettings := { limit := some 20, patience := 0 }
    (Program.ofSource source standardInputName).size < Numeral.placeValue Numeral.maxDigits ∧
      (∃ ended,
        (runFile directory "in.qk" "out.txt" settings).answer = .ok (some ended) ∧
          ended.run.fault = none ∧
          (runFile directory "in.qk" "out.txt" settings).directory.openForReading "out.txt" =
            .ok (Text.encodeUtf8 "3\n\uffff")) ∧
      ∃ problem,
        (runFile directory "none.qk" "out.txt" settings).answer = .error problem ∧
          (runFile directory "none.qk" "out.txt" settings).directory = directory := by
  intro source old directory settings
  have bounded : (Program.ofSource source standardInputName).size <
      Numeral.placeValue Numeral.maxDigits :=
    Nat.lt_of_le_of_lt (Program.size_ofSource_le _ _) (by decide +kernel)
  have inName : Path.normalize "in.qk" = "in.qk" := by decide +kernel
  have noName : Path.normalize "none.qk" = "none.qk" := by decide +kernel
  have opens : directory.openForReading "in.qk" = .ok (Text.encodeUtf8 source) := by
    have start : Place.start "in.qk" = [] := by decide +kernel
    rw [Directory.openForReading, start]
    rfl
  have missing : directory.openForReading "none.qk" = .error .notFound := by
    have start : Place.start "none.qk" = [] := by decide +kernel
    rw [Directory.openForReading, start]
    rfl
  have writable : directory.openForWriting "out.txt" = .ok ["out.txt"] := by
    have start : Place.start "out.txt" = [] := by decide +kernel
    rw [Directory.openForWriting, start]
    rfl
  have prints : (runSource? source standardInputName settings).map (·.machine.output?) =
      some (some "3\n\uffff") := by
    decide +kernel
  obtain ⟨success, -, -⟩ :=
    runFile_eq_runSource? directory "in.qk" "out.txt" standardInputName false 20 0
  obtain ⟨-, -, failure⟩ :=
    runFile_eq_runSource? directory "none.qk" "out.txt" standardInputName false 20 0
  obtain ⟨ended, buffered, printed, answer, noFault, runs, -, shown, stored, -⟩ :=
    success _ source _ (inName ▸ opens) (Text.decodeUtf8_encodeUtf8 source) bounded writable
  change runSource? source standardInputName settings = some buffered at runs
  rw [runs, Option.map_some, shown, Option.some.injEq, Option.some.injEq] at prints
  rw [prints] at stored
  refine ⟨bounded, ⟨ended, answer, noFault, stored⟩, failure ?_⟩
  rintro ⟨contents, text, found, -⟩
  rw [noName, missing] at found
  cases found

end QueueMachine
