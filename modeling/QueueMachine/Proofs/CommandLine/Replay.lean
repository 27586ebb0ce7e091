import QueueMachine.CommandLine.Session
import QueueMachine.Proofs.Directory
import QueueMachine.Proofs.Machine.Compiled

set_option autoImplicit false

/-!
Replaying a program from its listing. A session that writes out the listing of the program it runs
and a later one that runs the listing make the same machine, and so print and trace the same. On the
way the program is rendered, encoded, written, found again, decoded, parsed, and its labels are bound
anew from its marks.
-/

namespace QueueMachine

namespace Program

theorem instructions_ofInstructions
    (instructions : List Instruction) (labels : LabelTable) (sourceName : String) :
    (ofInstructions instructions labels sourceName).instructions = instructions := by
  simp [ofInstructions, Program.instructions, Function.comp_def]

end Program

theorem Machine.ofProgram_ofInstructions
    (program : Program) (sourceName : String) (sink : Option Sink) :
    ofProgram (.ofInstructions program.instructions program.labels sourceName) sink =
      ofProgram program sink := by
  rw [ofProgram, Program.instructions_ofInstructions]
  rfl

namespace CommandLine

namespace Argument

theorem ofTexts_cons_plain
    {text : String}
    (notDash : text.toList.head? ≠ some '-')
    (rest : List String) :
    ofTexts (text :: rest) = (ofTexts rest).map (.plain text :: ·) := by
  have notSeparator : text ≠ "--" := by
    rintro rfl
    exact notDash rfl
  have plain : ofText text = .ok (.plain text) := by
    rw [ofText]
    split
    · rename_i dashed
      exact absurd (by rw [dashed]; rfl) notDash
    · rfl
  rw [ofTexts, if_neg notSeparator, plain]
  cases ofTexts rest <;> rfl

theorem ofTexts_cons_option
    {text : String} {flag : Flag}
    (notSeparator : text ≠ "--")
    (named : ofText text = .ok (.option flag text none))
    (rest : List String) :
    ofTexts (text :: rest) = (ofTexts rest).map (.option flag text none :: ·) := by
  rw [ofTexts, if_neg notSeparator, named]
  cases ofTexts rest <;> rfl

end Argument

/-- An option that calls for a value takes the plain argument behind it. -/
theorem Reading.foldlM_option_plain
    {convention : Convention} {reading : Reading} {flag : Flag} {text : String} {options : Options}
    (idle : reading.awaiting = none)
    (required : flag.valence = .required)
    (applied : reading.options.apply flag (some text) = .ok options)
    (name : String) (rest : List Argument) :
    (Argument.option flag name none :: .plain text :: rest).foldlM (readArgument convention)
        reading =
      rest.foldlM (readArgument convention)
        { reading with options, besideScript := false, awaiting := none } := by
  have opened : readArgument convention reading (.option flag name none) =
      .ok { reading with besideScript := false, awaiting := some ([], flag) } := by
    simp [readArgument, giveNone, idle, readOption, Cluster.ofOption, required, bind, Except.bind,
      pure, Except.pure]
  have closed : readArgument convention
      { reading with besideScript := false, awaiting := some ([], flag) } (.plain text) =
        .ok { reading with options, besideScript := false, awaiting := none } := by
    simp [readArgument, readPlain, applyAll, applied, bind, Except.bind, pure, Except.pure]
  rw [List.foldlM_cons, opened]
  change List.foldlM (readArgument convention) _ (.plain text :: rest) = _
  rw [List.foldlM_cons, closed]
  rfl

/-- The arguments of a session with a limit that names one file, with a trace or without one. -/
def replayArguments (limit : Nat) (fileOption path : String) (traced : Bool) : List String :=
  ["--max-steps", Numeral.format limit, fileOption, path] ++ if traced then ["--trace"] else []

theorem Options.conflict?_eq_none
    {options : Options} {limit : Nat}
    (noScript : options.script = none)
    (noInline : options.inline = .absent)
    (noViewer : options.visualize = none)
    (limited : options.maxSteps = .value limit) :
    options.conflict? = none := by
  have notNegative : ¬ (limit : Int) < 0 := Int.not_lt.mpr (Int.natCast_nonneg limit)
  simp [conflict?, given, Setting.isGiven, noScript, noInline, noViewer, limited, notNegative]

theorem Options.ofArguments_replayArguments
    (convention : Convention) (flag : Flag) (fileOption : String)
    {limit : Nat} {path : String} {options : Options}
    (writable : limit < Numeral.placeValue Numeral.maxDigits)
    (notDash : path.toList.head? ≠ some '-')
    (notSeparator : fileOption ≠ "--")
    (named : Argument.ofText fileOption = .ok (.option flag fileOption none))
    (required : flag.valence = .required)
    (applied : apply { maxSteps := .value limit } flag (some path) = .ok options)
    (traced : Bool)
    (consistent : conflict? { options with trace := options.trace || traced } = none) :
    ofArguments convention (replayArguments limit fileOption path traced) =
      .ok { options with trace := options.trace || traced } := by
  have digitsFirst : (Numeral.format limit).toList.head? ≠ some '-' := by
    intro dash
    exact absurd (Numeral.isAsciiDigit_of_mem_format_natCast limit _ (List.mem_of_head? dash))
      (by decide)
  have limited : apply {} .maxSteps (some (Numeral.format limit)) =
      .ok { maxSteps := .value limit } := by
    rw [apply, Numeral.readText_format_natCast writable]
  have read : Argument.ofTexts (replayArguments limit fileOption path traced) =
      .ok ([.option .maxSteps "--max-steps" none, .plain (Numeral.format limit),
        .option flag fileOption none, .plain path] ++
          if traced then [.option .trace "--trace" none] else []) := by
    rw [replayArguments]
    simp only [List.cons_append, List.nil_append]
    rw [Argument.ofTexts_cons_option (by decide) (by rfl), Argument.ofTexts_cons_plain digitsFirst,
      Argument.ofTexts_cons_option notSeparator named, Argument.ofTexts_cons_plain notDash]
    cases traced <;> rfl
  have collected : Reading.readAll convention ([.option .maxSteps "--max-steps" none,
      .plain (Numeral.format limit), .option flag fileOption none, .plain path] ++
        if traced then [.option .trace "--trace" none] else []) =
      .ok { options := { options with trace := options.trace || traced } } := by
    rw [Reading.readAll]
    simp only [List.cons_append, List.nil_append]
    rw [Reading.foldlM_option_plain rfl rfl limited,
      Reading.foldlM_option_plain rfl required applied]
    cases traced with
    | false =>
        rw [Bool.or_false]
        rfl
    | true =>
        rw [Bool.or_true]
        rfl
  rw [ofArguments, read]
  dsimp only [Except.mapError, bind, Except.bind]
  rw [collected]
  dsimp only [List.isEmpty_nil, Bool.not_true]
  rw [consistent]
  rfl

theorem ofArguments_dump
    {convention : Convention} {limit : Nat} {path : String}
    (writable : limit < Numeral.placeValue Numeral.maxDigits)
    (notDash : path.toList.head? ≠ some '-')
    (traced : Bool) :
    Options.ofArguments convention (replayArguments limit "--dump-bytecode" path traced) =
      .ok { dumpPath := some path, trace := traced, maxSteps := .value limit } := by
  have read := Options.ofArguments_replayArguments convention .dumpBytecode "--dump-bytecode" writable
    notDash (by decide) (by rfl) rfl rfl traced (Options.conflict?_eq_none rfl rfl rfl rfl)
  rwa [Bool.false_or] at read

theorem ofArguments_load
    {convention : Convention} {limit : Nat} {path : String}
    (writable : limit < Numeral.placeValue Numeral.maxDigits)
    (notDash : path.toList.head? ≠ some '-')
    (traced : Bool) :
    Options.ofArguments convention (replayArguments limit "--load-bytecode" path traced) =
      .ok { bytecodePath := some path, trace := traced, maxSteps := .value limit } := by
  have read := Options.ofArguments_replayArguments convention .loadBytecode "--load-bytecode" writable
    notDash (by decide) (by rfl) rfl rfl traced (Options.conflict?_eq_none rfl rfl rfl rfl)
  rwa [Bool.false_or] at read

def machineOf (program : Program) : Machine :=
  .ofProgram program (some (.stream { ownsStream := false }))

/-- The outcome of a session whose machine runs without a fault. -/
def outcomeOf (machine : Machine) (traced : Bool) (limit : Nat) (directory : Directory) : Outcome :=
  { output := (machine.run traced limit).machine.sink.written
    errors := (machine.run traced limit).trace
    directory }

theorem execute?_of_limit
    {options : Options} {program : Program} {limit : Nat}
    (noOutputFile : options.outputPath = none)
    (limited : options.maxSteps = .value limit)
    (faultless : ((machineOf program).run options.trace limit).fault = none)
    (environment : Environment) (directory : Directory) :
    execute? environment options directory program =
      some (outcomeOf (machineOf program) options.trace limit directory) := by
  have run : (machineOf program).runWith?
      { traced := options.trace, limit := some (limit : Int), patience := environment.patience } =
        some ((machineOf program).run options.trace limit) := rfl
  rw [execute?, noOutputFile, limited]
  change ((machineOf program).runWith? _ >>= _) = _
  simp only [Setting.value?]
  rw [run]
  dsimp only [bind, Option.bind, delivered]
  rw [faultless]
  rfl

theorem given_some
    {path : String}
    (nonempty : path ≠ "") :
    Options.given (some path) = some path := by
  simp [Options.given, nonempty]

theorem perform?_dump
    {environment : Environment} {text path : String} {place : Place} {limit : Nat}
    (given : environment.input = .ok text)
    (nonempty : path ≠ "")
    (opens : environment.directory.openForWriting path = .ok place)
    (takes : environment.rejection? place
      (Listing.render (Program.ofSource text standardInputName).instructions) = none)
    (traced : Bool)
    (faultless :
      ((machineOf (.ofSource text standardInputName)).run traced limit).fault = none) :
    perform? environment { dumpPath := some path, trace := traced, maxSteps := .value limit } =
      some (outcomeOf (machineOf (.ofSource text standardInputName)) traced limit
        (environment.directory.putText place
          (Listing.render (Program.ofSource text standardInputName).instructions))) := by
  have loaded : loadProgram environment
      { dumpPath := some path, trace := traced, maxSteps := .value limit } =
        .ok (.ofSource text standardInputName) := by
    change (environment.input.mapError _ >>= _) = _
    rw [given]
    rfl
  have placed : environment.directory.placeFor path = .ok place := by
    rw [Directory.placeFor, opens]
  have dumped : dump environment
      { dumpPath := some path, trace := traced, maxSteps := .value limit }
      (.ofSource text standardInputName) =
        ⟨environment.directory.putText place
          (Listing.render (Program.ofSource text standardInputName).instructions), .ok ()⟩ := by
    rw [dump, given_some nonempty]
    dsimp only
    rw [placed]
    dsimp only
    rw [Environment.store, takes]
  rw [perform?, loaded]
  dsimp only
  rw [dumped]
  exact execute?_of_limit rfl rfl faultless environment _

theorem loadListing_render
    {environment : Environment} {path source sourceName : String}
    (bounded : (Program.ofSource source sourceName).size < Numeral.placeValue Numeral.maxDigits)
    (stored : environment.directory.readText path =
      .ok (Listing.render (Program.ofSource source sourceName).instructions)) :
    loadListing environment path =
      .ok (.ofInstructions (Program.ofSource source sourceName).instructions
        (Program.ofSource source sourceName).labels path) := by
  have parsed := Listing.parse_render
    fun _ => @Program.listable_of_mem_instructions source sourceName _
  rw [loadListing, stored]
  change ((Listing.parse _).mapError _ >>= _) = _
  rw [parsed]
  change ((LabelTable.ofInstructions _).mapError _ >>= _) = _
  rw [Program.ofInstructions_instructions_ofSource (Nat.le_of_lt bounded)]
  rfl

theorem perform?_load
    {environment : Environment} {path : String} {program : Program} {machine : Machine} {limit : Nat}
    (nonempty : path ≠ "")
    (loaded : loadListing environment path = .ok program)
    (made : machineOf program = machine)
    (traced : Bool)
    (faultless : (machine.run traced limit).fault = none) :
    perform? environment { bytecodePath := some path, trace := traced, maxSteps := .value limit } =
      some (outcomeOf machine traced limit environment.directory) := by
  have chosen : loadProgram environment
      { bytecodePath := some path, trace := traced, maxSteps := .value limit } = .ok program := by
    rw [loadProgram, given_some nonempty]
    exact loaded
  subst made
  rw [perform?, chosen]
  exact execute?_of_limit rfl rfl faultless _ _

/-- A session that writes out the program of its input as a listing and a later session that runs
the listing both succeed, run the same machine, and print and trace the same. -/
theorem run?_load_of_run?_dump
    {environment : Environment} {text path : String} {place : Place} {limit : Nat}
    (given : environment.input = .ok text)
    (bounded : (Program.ofSource text standardInputName).size <
      Numeral.placeValue Numeral.maxDigits)
    (limitBounded : limit < Numeral.placeValue Numeral.maxDigits)
    (notDash : path.toList.head? ≠ some '-')
    (opens : environment.directory.openForWriting path = .ok place)
    (takes : environment.rejection? place
      (Listing.render (Program.ofSource text standardInputName).instructions) = none)
    (traced : Bool) :
    let source := Program.ofSource text standardInputName
    let run := (machineOf source).run traced limit
    ∃ dumped, run? environment (replayArguments limit "--dump-bytecode" path traced) = some dumped ∧
      dumped.code = 0 ∧ dumped.breakdown = none ∧
      dumped.output = run.machine.sink.written ∧ dumped.errors = run.trace ∧
      ∀ later : Environment, later.directory = dumped.directory →
        (∃ program, loadListing later path = .ok program ∧
          ∀ sink, Machine.ofProgram program sink = Machine.ofProgram source sink) ∧
        ∃ loaded, run? later (replayArguments limit "--load-bytecode" path traced) = some loaded ∧
          loaded.code = 0 ∧ loaded.breakdown = none ∧
          loaded.output = dumped.output ∧ loaded.errors = dumped.errors := by
  intro source run
  have nonempty : path ≠ "" := by
    rintro rfl
    exact absurd (Directory.openForWriting_eq_ok opens).1 (by decide)
  have faultless : run.fault = none := Machine.fault_run_ofSource bounded rfl traced limit
  refine ⟨outcomeOf (machineOf source) traced limit
    (environment.directory.putText place (Listing.render source.instructions)), ?_, rfl, rfl, rfl,
    rfl, fun later sameDirectory => ?_⟩
  · rw [run?, ofArguments_dump limitBounded notDash]
    exact perform?_dump given nonempty opens takes traced faultless
  · have stored : later.directory.readText path = .ok (Listing.render source.instructions) := by
      rw [sameDirectory]
      exact Directory.readText_putText opens
        (Listing.carriageReturn_not_mem_render fun _ => Program.listable_of_mem_instructions)
    have loaded := loadListing_render bounded stored
    have sameMachine := Machine.ofProgram_ofInstructions source path
    refine ⟨⟨_, loaded, sameMachine⟩,
      outcomeOf (machineOf source) traced limit later.directory, ?_, rfl, rfl, rfl, rfl⟩
    rw [run?, ofArguments_load limitBounded notDash]
    exact perform?_load nonempty loaded (sameMachine _) traced faultless

/-- An empty directory, a label that is declared twice and an empty one. -/
theorem run?_load_of_run?_dump_loop :
    let text := ":again 7 P : :again Jagain"
    let environment : Environment :=
      { directory := .empty
        input := .ok text
        terminal := .error ""
        window := .error ""
        patience := 0 }
    let source := Program.ofSource text standardInputName
    source.size < Numeral.placeValue Numeral.maxDigits ∧
      environment.directory.openForWriting "out.qb" = .ok ["out.qb"] ∧
      environment.rejection? ["out.qb"] (Listing.render source.instructions) = none ∧
      ∃ dumped loaded,
        run? environment (replayArguments 20 "--dump-bytecode" "out.qb" true) = some dumped ∧
          run? { environment with directory := dumped.directory }
            (replayArguments 20 "--load-bytecode" "out.qb" true) = some loaded ∧
          dumped.code = 0 ∧ loaded.code = 0 ∧
          loaded.output = dumped.output ∧ loaded.errors = dumped.errors := by
  intro text environment source
  have bounded : source.size < Numeral.placeValue Numeral.maxDigits :=
    Nat.lt_of_le_of_lt (Program.size_ofSource_le _ _) (by decide +kernel)
  have opens : environment.directory.openForWriting "out.qb" = .ok ["out.qb"] := by
    have start : Place.start "out.qb" = [] := by decide +kernel
    rw [Directory.openForWriting, start]
    rfl
  obtain ⟨dumped, dumping, dumpedCode, -, -, -, replayed⟩ :=
    @run?_load_of_run?_dump environment text "out.qb" _ 20 rfl bounded (by decide +kernel)
      (by decide) opens rfl true
  obtain ⟨-, loaded, loading, loadedCode, -, sameOutput, sameErrors⟩ :=
    replayed { environment with directory := dumped.directory } rfl
  exact ⟨bounded, opens, rfl, dumped, loaded, dumping, loading, dumpedCode, loadedCode, sameOutput,
    sameErrors⟩

end CommandLine

end QueueMachine
