import QueueMachine.Proofs.Compilation

set_option autoImplicit false

/-!
Where the instructions of a program come from. The statements of a compiled program are the commands
found among the words of its source, each with the word it was read from and the number of that
word. Words that give no command make the numbers of the words run ahead of the positions of the
instructions, but both grow together, and no word is left out that would have given an instruction.
-/

namespace QueueMachine

/-- A command found in a source, with the word it was read from and the number of that word. -/
structure Occurrence where
  command : Command
  token : Token
  number : Nat

namespace Occurrence

/-- The commands among some words, the first of which has the given number. -/
def among (start : Nat) (tokens : List Token) : List Occurrence :=
  (tokens.zipIdx start).filterMap fun (token, number) =>
    (Command.ofWord? token.text).map fun command => { command, token, number }

def origin (file : String) (occurrence : Occurrence) : Origin where
  file
  line := occurrence.token.line
  column := occurrence.token.column
  tokenIndex := occurrence.number
  token := occurrence.token.text

def statement (file : String) (position : Nat) (occurrence : Occurrence) : Statement where
  instruction := occurrence.command.instruction position
  origin := some (occurrence.origin file)

theorem among_cons (start : Nat) (token : Token) (rest : List Token) :
    among start (token :: rest) = among start [token] ++ among (start + 1) rest := by
  rw [among, among, among, ← List.filterMap_append]
  rfl

theorem among_singleton_of_eq_some
    {token : Token} {command : Command}
    (found : Command.ofWord? token.text = some command)
    (number : Nat) :
    among number [token] = [{ command, token, number }] := by
  simp [among, found]

theorem among_singleton_of_eq_none
    {token : Token}
    (dropped : Command.ofWord? token.text = none)
    (number : Nat) :
    among number [token] = [] := by
  simp [among, dropped]

theorem mem_among_zero_iff (tokens : List Token) (occurrence : Occurrence) :
    occurrence ∈ among 0 tokens ↔
      tokens[occurrence.number]? = some occurrence.token ∧
        Command.ofWord? occurrence.token.text = some occurrence.command := by
  rw [among, List.mem_filterMap]
  constructor
  · rintro ⟨⟨token, number⟩, placed, read⟩
    obtain ⟨command, found, rfl⟩ := Option.map_eq_some_iff.mp read
    exact ⟨List.mem_zipIdx_iff_getElem?.mp placed, found⟩
  · rintro ⟨placed, found⟩
    refine ⟨(occurrence.token, occurrence.number), List.mem_zipIdx_iff_getElem?.mpr placed, ?_⟩
    exact Option.map_eq_some_iff.mpr ⟨occurrence.command, found, rfl⟩

theorem le_number_of_mem_among
    {start : Nat} {tokens : List Token} {occurrence : Occurrence}
    (member : occurrence ∈ among start tokens) :
    start ≤ occurrence.number := by
  obtain ⟨⟨token, number⟩, placed, read⟩ := List.mem_filterMap.mp member
  obtain ⟨command, -, rfl⟩ := Option.map_eq_some_iff.mp read
  exact (List.mem_zipIdx placed).1

theorem pairwise_number_among (start : Nat) (tokens : List Token) :
    ((among start tokens).map number).Pairwise (· < ·) := by
  induction tokens generalizing start with
  | nil => exact .nil
  | cons token rest inductionHypothesis =>
      rw [among_cons]
      cases read : Command.ofWord? token.text with
      | none =>
          rw [among_singleton_of_eq_none read, List.nil_append]
          exact inductionHypothesis (start + 1)
      | some command =>
          rw [among_singleton_of_eq_some read, List.singleton_append, List.map_cons,
            List.pairwise_cons]
          refine ⟨?_, inductionHypothesis (start + 1)⟩
          intro later inRest
          obtain ⟨occurrence, member, rfl⟩ := List.mem_map.mp inRest
          exact le_number_of_mem_among member

end Occurrence

namespace Compiler

/-- Whether the statements of a compiler are exactly those of some commands, in order. -/
def Records (compiler : Compiler) (occurrences : List Occurrence) : Prop :=
  compiler.statements.toList = occurrences.mapIdx (Occurrence.statement compiler.sourceName)

theorem compileWord_of_eq_none
    {word : String}
    (dropped : Command.ofWord? word = none)
    (compiler : Compiler) (origin : Option Origin) :
    compiler.compileWord word origin = compiler := by
  rw [compileWord, dropped]

theorem statements_compileWord_of_eq_some
    {word : String} {command : Command}
    (found : Command.ofWord? word = some command)
    (compiler : Compiler) (origin : Option Origin) :
    (compiler.compileWord word origin).statements =
      compiler.statements.push ⟨command.instruction compiler.statements.size, origin⟩ := by
  rw [compileWord, found]
  rfl

theorem sourceName_compileToken (compiler : Compiler) (token : Token) :
    (compiler.compileToken token).sourceName = compiler.sourceName := by
  rw [compileToken, compileWord]
  cases Command.ofWord? token.text <;> rfl

theorem cursor_compileToken (compiler : Compiler) (token : Token) :
    (compiler.compileToken token).cursor = compiler.cursor + 1 := rfl

theorem Records.compileToken
    {compiler : Compiler} {occurrences : List Occurrence}
    (records : compiler.Records occurrences)
    (token : Token) :
    (compiler.compileToken token).Records
      (occurrences ++ Occurrence.among compiler.cursor [token]) := by
  rw [Records, sourceName_compileToken]
  change (compiler.compileWord token.text _).statements.toList = _
  cases read : Command.ofWord? token.text with
  | none =>
      rw [compileWord_of_eq_none read, Occurrence.among_singleton_of_eq_none read,
        List.append_nil]
      exact records
  | some command =>
      have size : compiler.statements.size = occurrences.length := by
        rw [← Array.length_toList, records, List.length_mapIdx]
      rw [statements_compileWord_of_eq_some read, Occurrence.among_singleton_of_eq_some read,
        List.mapIdx_concat, Array.toList_push, records, size]
      rfl

theorem Records.foldl_compileToken
    {compiler : Compiler} {occurrences : List Occurrence}
    (records : compiler.Records occurrences)
    (tokens : List Token) :
    (tokens.foldl Compiler.compileToken compiler).Records
      (occurrences ++ Occurrence.among compiler.cursor tokens) := by
  induction tokens generalizing compiler occurrences with
  | nil => simpa [Occurrence.among] using records
  | cons token rest inductionHypothesis =>
      have all := inductionHypothesis (records.compileToken token)
      rw [cursor_compileToken, List.append_assoc, ← Occurrence.among_cons] at all
      exact all

theorem sourceName_foldl_compileToken (compiler : Compiler) (tokens : List Token) :
    (tokens.foldl compileToken compiler).sourceName = compiler.sourceName := by
  induction tokens generalizing compiler with
  | nil => rfl
  | cons token rest inductionHypothesis =>
      rw [List.foldl_cons, inductionHypothesis, sourceName_compileToken]

end Compiler

namespace Program

def tokenIndices (program : Program) : List Nat :=
  program.statements.toList.filterMap fun statement => statement.origin.map Origin.tokenIndex

theorem statements_ofSource (source sourceName : String) :
    (ofSource source sourceName).statements.toList =
      (Occurrence.among 0 (Token.scan source)).mapIdx (Occurrence.statement sourceName) := by
  have empty : ({ sourceName } : Compiler).Records [] := rfl
  have compiled := empty.foldl_compileToken (Token.scan source)
  rw [Compiler.Records, Compiler.sourceName_foldl_compileToken] at compiled
  exact compiled

theorem tokenIndices_ofSource (source sourceName : String) :
    (ofSource source sourceName).tokenIndices =
      (Occurrence.among 0 (Token.scan source)).map Occurrence.number := by
  rw [tokenIndices, statements_ofSource, List.mapIdx_eq_zipIdx_map, List.filterMap_map]
  change List.filterMap (some ∘ Occurrence.number ∘ Prod.fst) _ = _
  rw [List.filterMap_eq_map, ← List.map_map, List.zipIdx_map_fst]

theorem exists_occurrence_of_getElem?_statements
    {source sourceName : String} {position : Nat} {statement : Statement}
    (standing : (ofSource source sourceName).statements[position]? = some statement) :
    ∃ occurrence : Occurrence,
      (Token.scan source)[occurrence.number]? = some occurrence.token ∧
        Command.ofWord? occurrence.token.text = some occurrence.command ∧
        statement = occurrence.statement sourceName position := by
  rw [← Array.getElem?_toList, statements_ofSource, List.getElem?_mapIdx,
    Option.map_eq_some_iff] at standing
  obtain ⟨occurrence, found, rfl⟩ := standing
  obtain ⟨placed, read⟩ :=
    (Occurrence.mem_among_zero_iff _ _).mp (List.mem_of_getElem? found)
  exact ⟨occurrence, placed, read, rfl⟩

theorem ofWord?_eq_none_of_not_mem_tokenIndices
    {source sourceName : String} {number : Nat} {token : Token}
    (placed : (Token.scan source)[number]? = some token)
    (unrecorded : number ∉ (ofSource source sourceName).tokenIndices) :
    Command.ofWord? token.text = none := by
  cases read : Command.ofWord? token.text with
  | none => rfl
  | some command =>
      rw [tokenIndices_ofSource] at unrecorded
      have occurs := (Occurrence.mem_among_zero_iff _ ⟨command, token, number⟩).mpr ⟨placed, read⟩
      exact absurd (List.mem_map_of_mem occurs) unrecorded

/-- Every instruction of a compiled program remembers the source name and the number, the text and
the place of a word, and is just what that word compiles to at the position of the instruction. The
numbers grow along the program, and a word that no instruction remembers compiles to nothing. -/
theorem origins_ofSource (source sourceName : String) :
    let program := ofSource source sourceName
    let tokens := Token.scan source
    (∀ position statement, program.statements[position]? = some statement →
      ∃ origin token,
        statement.origin = some origin ∧
          origin.file = sourceName ∧
          tokens[origin.tokenIndex]? = some token ∧
          (origin.token = token.text ∧ origin.line = token.line ∧ origin.column = token.column) ∧
          ∀ (compiler : Compiler) (note : Option Origin),
            compiler.statements.size = position →
            (compiler.compileWord token.text note).statements =
              compiler.statements.push ⟨statement.instruction, note⟩) ∧
      program.tokenIndices.Pairwise (· < ·) ∧
      ∀ number token, tokens[number]? = some token → number ∉ program.tokenIndices →
        ∀ (compiler : Compiler) (note : Option Origin),
          compiler.compileWord token.text note = compiler := by
  intro program tokens
  refine ⟨?_, ?_, ?_⟩
  · intro position statement standing
    obtain ⟨occurrence, placed, read, rfl⟩ := exists_occurrence_of_getElem?_statements standing
    refine ⟨occurrence.origin sourceName, occurrence.token, rfl, rfl, placed, ⟨rfl, rfl, rfl⟩, ?_⟩
    intro compiler note size
    rw [Compiler.statements_compileWord_of_eq_some read, size]
    rfl
  · rw [tokenIndices_ofSource]
    exact Occurrence.pairwise_number_among 0 tokens
  · intro number token placed unrecorded compiler note
    exact Compiler.compileWord_of_eq_none
      (ofWord?_eq_none_of_not_mem_tokenIndices placed unrecorded) compiler note

/-- A mark on the second line, behind one word that gives no command and before another. -/
theorem origins_ofSource_behind_idle_word :
    let program := ofSource "1 ?? \n\t:a Zb x9 Q" "loop.qk"
    let mark : Statement := ⟨⟨.mark, ["1", "a"]⟩, some ⟨"loop.qk", 2, 2, 2, ":a"⟩⟩
    program.statements[1]? = some mark ∧
      (∀ (compiler : Compiler) (note : Option Origin),
        compiler.statements.size = 1 →
        (compiler.compileWord ":a" note).statements =
          compiler.statements.push ⟨mark.instruction, note⟩) ∧
      program.tokenIndices = [0, 2, 3, 5] ∧
      program.tokenIndices.Pairwise (· < ·) ∧
      ∀ compiler : Compiler, compiler.compileWord "x9" none = compiler := by
  intro program mark
  obtain ⟨remembered, growing, idle⟩ :=
    origins_ofSource "1 ?? \n\t:a Zb x9 Q" "loop.qk"
  have standing : program.statements[1]? = some mark := by decide +kernel
  have numbers : program.tokenIndices = [0, 2, 3, 5] := by decide +kernel
  obtain ⟨origin, token, recorded, -, placed, ⟨text, -, -⟩, compiles⟩ :=
    remembered 1 mark standing
  cases recorded
  refine ⟨standing, ?_, numbers, growing, ?_⟩
  · rw [show token.text = ":a" from text.symm] at compiles
    exact compiles
  · intro compiler
    exact idle 4 ⟨"x9", 2, 8⟩ (by decide +kernel) (by rw [numbers]; decide) compiler none

end Program

end QueueMachine
