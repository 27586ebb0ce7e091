import Mathlib.Order.Bounds.Basic
import QueueMachine.Proofs.Command
import QueueMachine.Proofs.LabelTable

set_option autoImplicit false

/-!
Labels that commands declare. The table of labels and the marks among the instructions are two
records of the same places: a label stands for the last mark of its name, and binding the marks anew
gives the same table.
-/

namespace QueueMachine

namespace Instruction

def IsMark (name : String) (instruction : Instruction) : Prop :=
  instruction.opcode = .mark ∧ instruction.operands[1]? = some name

instance (name : String) (instruction : Instruction) : Decidable (instruction.IsMark name) :=
  inferInstanceAs (Decidable (_ ∧ _))

def marks (instructions : List Instruction) (name : String) : Set Nat :=
  {position | ∃ instruction, instructions[position]? = some instruction ∧ instruction.IsMark name}

end Instruction

namespace Command

def declare (table : LabelTable) (placed : Command × Nat) : LabelTable :=
  match placed.1.declares? with
  | some label => table.bind label placed.2
  | none => table

/-- The labels that commands declare when the first of them stands at index zero. -/
def labels (commands : List Command) : LabelTable :=
  commands.zipIdx.foldl declare .empty

theorem declares?_eq_some_iff (command : Command) (label : String) :
    command.declares? = some label ↔ command = .mark label := by
  cases command <;> simp [declares?]

theorem isMark_instruction_iff (command : Command) (index : Nat) (name : String) :
    (command.instruction index).IsMark name ↔ command = .mark name := by
  cases command <;> simp [Instruction.IsMark, instruction]

theorem marks_mapIdx_instruction (commands : List Command) (name : String) :
    Instruction.marks (commands.mapIdx instruction) name =
      {position | commands[position]? = some (.mark name)} := by
  refine Set.ext fun position => ⟨?_, ?_⟩
  · rintro ⟨made, standing, isMark⟩
    rw [List.getElem?_mapIdx, Option.map_eq_some_iff] at standing
    obtain ⟨command, standing, rfl⟩ := standing
    rw [(isMark_instruction_iff command position name).mp isMark] at standing
    exact standing
  · intro standing
    refine ⟨(mark name).instruction position, ?_, (isMark_instruction_iff _ position name).mpr rfl⟩
    rw [List.getElem?_mapIdx, Option.map_eq_some_iff]
    exact ⟨_, standing, rfl⟩

def lastMark? (name : String) : List Command → Option Nat
  | [] => none
  | command :: rest =>
      match lastMark? name rest with
      | some offset => some (offset + 1)
      | none => if command = .mark name then some 0 else none

theorem not_mem_of_lastMark?_eq_none
    {name : String} {commands : List Command}
    (missing : lastMark? name commands = none) :
    .mark name ∉ commands := by
  induction commands with
  | nil => simp
  | cons command rest inductionHypothesis =>
      rw [lastMark?] at missing
      split at missing
      · cases missing
      · rename_i noneBehind
        have different : command ≠ .mark name := by
          rintro rfl
          simp at missing
        simp [Ne.symm different, inductionHypothesis noneBehind]

theorem isGreatest_of_lastMark?_eq_some
    {name : String} {commands : List Command} {position : Nat}
    (found : lastMark? name commands = some position) :
    IsGreatest {position | commands[position]? = some (.mark name)} position := by
  induction commands generalizing position with
  | nil => cases found
  | cons command rest inductionHypothesis =>
      rw [lastMark?] at found
      split at found
      · rename_i offset behind
        cases found
        obtain ⟨standing, last⟩ := inductionHypothesis behind
        refine ⟨standing, fun later laterStanding => ?_⟩
        cases later with
        | zero => exact Nat.zero_le _
        | succ later => exact Nat.succ_le_succ (last laterStanding)
      · rename_i noneBehind
        split at found
        · rename_i isMark
          cases found
          refine ⟨by simp [isMark], fun later laterStanding => ?_⟩
          cases later with
          | zero => exact Nat.le_refl 0
          | succ later =>
              have behind : rest[later]? = some (.mark name) := laterStanding
              exact absurd (List.mem_of_getElem? behind) (not_mem_of_lastMark?_eq_none noneBehind)
        · cases found

theorem lastMark?_eq_some_iff (name : String) (commands : List Command) (position : Nat) :
    lastMark? name commands = some position ↔
      IsGreatest {position | commands[position]? = some (.mark name)} position := by
  refine ⟨isGreatest_of_lastMark?_eq_some, fun greatest => ?_⟩
  cases found : lastMark? name commands with
  | none =>
      exact absurd (List.mem_of_getElem? greatest.1) (not_mem_of_lastMark?_eq_none found)
  | some other =>
      rw [(isGreatest_of_lastMark?_eq_some found).unique greatest]

theorem resolve?_declare (table : LabelTable) (command : Command) (index : Nat) (name : String) :
    (declare table (command, index)).resolve? name =
      if command = .mark name then some (index : Int) else table.resolve? name := by
  cases command with
  | mark label =>
      simp only [declare, declares?, LabelTable.resolve?_bind, Command.mark.injEq]
      by_cases same : name = label
      · rw [if_pos same, if_pos same.symm]
      · rw [if_neg same, if_neg (Ne.symm same)]
  | _ => rfl

/-- What a label stands for once commands have declared theirs: its last mark among them, and
without any what it stood for before. -/
theorem resolve?_foldl_declare_eq
    (commands : List Command) (start : Nat) (table : LabelTable) (name : String) :
    ((commands.zipIdx start).foldl declare table).resolve? name =
      match lastMark? name commands with
      | some offset => some ((start + offset : Nat) : Int)
      | none => table.resolve? name := by
  induction commands generalizing start table with
  | nil => rfl
  | cons command rest inductionHypothesis =>
      rw [List.zipIdx_cons, List.foldl_cons, inductionHypothesis, lastMark?]
      cases lastMark? name rest with
      | some offset =>
          dsimp only
          rw [Nat.add_assoc, Nat.add_comm 1]
      | none =>
          dsimp only
          rw [resolve?_declare]
          by_cases isMark : command = .mark name
          · rw [if_pos isMark, if_pos isMark]
            rfl
          · rw [if_neg isMark, if_neg isMark]

theorem resolve?_labels (commands : List Command) (name : String) :
    (labels commands).resolve? name = (lastMark? name commands).map Nat.cast := by
  rw [labels, resolve?_foldl_declare_eq]
  cases lastMark? name commands with
  | none => rfl
  | some position => simp

theorem resolve?_labels_eq_some_iff (commands : List Command) (name : String) (target : Int) :
    (labels commands).resolve? name = some target ↔
      ∃ position : Nat,
        IsGreatest (Instruction.marks (commands.mapIdx instruction) name) position ∧
          target = position := by
  rw [resolve?_labels, Option.map_eq_some_iff, marks_mapIdx_instruction]
  simp only [lastMark?_eq_some_iff, eq_comm (b := target)]

theorem resolve?_labels_eq_none_iff (commands : List Command) (name : String) :
    (labels commands).resolve? name = none ↔
      Instruction.marks (commands.mapIdx instruction) name = ∅ := by
  rw [resolve?_labels, Option.map_eq_none_iff, marks_mapIdx_instruction,
    Set.eq_empty_iff_forall_notMem]
  constructor
  · intro missing position standing
    exact not_mem_of_lastMark?_eq_none missing (List.mem_of_getElem? standing)
  · intro empty
    cases found : lastMark? name commands with
    | none => rfl
    | some position => exact absurd (isGreatest_of_lastMark?_eq_some found).1 (empty position)

theorem mark_of_resolve?_labels
    {commands : List Command} {name : String} {target : Int}
    (bound : (labels commands).resolve? name = some target) :
    ∃ position : Nat, commands[position]? = some (.mark name) ∧ target = position := by
  rw [resolve?_labels, Option.map_eq_some_iff] at bound
  obtain ⟨position, found, rfl⟩ := bound
  exact ⟨position, (isGreatest_of_lastMark?_eq_some found).1, rfl⟩

theorem mem_names_foldl_declare
    (commands : List Command) (start : Nat) (table : LabelTable) (name : String) :
    name ∈ ((commands.zipIdx start).foldl declare table).names ↔
      .mark name ∈ commands ∨ name ∈ table.names := by
  induction commands generalizing start table with
  | nil => simp
  | cons command rest inductionHypothesis =>
      rw [List.zipIdx_cons, List.foldl_cons, inductionHypothesis, List.mem_cons, declare]
      split
      · rename_i label declared
        rw [LabelTable.mem_names_bind, (declares?_eq_some_iff command label).mp declared,
          Command.mark.injEq, or_left_comm, or_assoc]
      · rename_i declared
        have other : .mark name ≠ command := by
          rintro rfl
          cases declared
        simp [other]

theorem mem_names_labels (commands : List Command) (name : String) :
    name ∈ (labels commands).names ↔ .mark name ∈ commands := by
  simp [labels, mem_names_foldl_declare]

theorem bindMark_instruction
    (command : Command) {index : Nat}
    (bounded : index < Numeral.placeValue Numeral.maxDigits)
    (table : LabelTable) :
    table.bindMark (command.instruction index) = .ok (declare table (command, index)) := by
  cases command with
  | mark label =>
      have isMark : ((mark label).instruction index).opcode = .mark := rfl
      rw [LabelTable.bindMark, if_pos isMark, instruction,
        Instruction.binding_of_readText_eq_ok (Numeral.readText_format_natCast bounded)]
      rfl
  | _ => rfl

theorem foldlM_bindMark_instruction
    (commands : List Command) (start : Nat) (table : LabelTable)
    (bounded : start + commands.length ≤ Numeral.placeValue Numeral.maxDigits) :
    ((commands.zipIdx start).map fun placed => placed.1.instruction placed.2).foldlM
        LabelTable.bindMark table =
      .ok ((commands.zipIdx start).foldl declare table) := by
  induction commands generalizing start table with
  | nil => rfl
  | cons command rest inductionHypothesis =>
      rw [List.length_cons] at bounded
      rw [List.zipIdx_cons, List.map_cons, List.foldlM_cons,
        bindMark_instruction command (by omega) table, List.foldl_cons]
      exact inductionHypothesis (start + 1) _ (by omega)

theorem ofInstructions_mapIdx_instruction
    {commands : List Command}
    (bounded : commands.length ≤ Numeral.placeValue Numeral.maxDigits) :
    LabelTable.ofInstructions (commands.mapIdx Command.instruction) = .ok (labels commands) := by
  rw [List.mapIdx_eq_zipIdx_map]
  exact foldlM_bindMark_instruction commands 0 .empty (by omega)

end Command

end QueueMachine
