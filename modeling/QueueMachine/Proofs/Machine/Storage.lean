import QueueMachine.Proofs.Machine.Operation

set_option autoImplicit false

/-!
Storing under any names, one call after another. A call that meets a fault leaves the bank as it
is, and two characters can lead to one register, so what a register holds is told by the last of the
calls that it answers to, under whatever name. Nothing else of the calls is left in the bank: it
answers loads, and lists its assignments, as the map from registers to their last calls does.
-/

namespace QueueMachine

namespace RegisterBank

/-- The bank after a call that stores a value under a name, whether it met a fault or not. -/
def afterStore (bank : RegisterBank) (call : String × Int) : RegisterBank :=
  match bank.store call.1 call.2 with
  | .ok changed => changed
  | .error _ => bank

def storeAll (bank : RegisterBank) (calls : List (String × Int)) : RegisterBank :=
  calls.foldl afterStore bank

/-- The value of the last call that a register answers to, if there was one. -/
def latest? (calls : List (String × Int)) (register : Register) : Option Int :=
  (calls.reverse.find? fun call => register.AnswersTo call.1).map Prod.snd

theorem afterStore_of_store_eq_ok
    {bank changed : RegisterBank} {name : String} {value : Int}
    (stored : bank.store name value = .ok changed) :
    bank.afterStore (name, value) = changed := by
  rw [afterStore, stored]

theorem afterStore_of_store_eq_error
    {bank : RegisterBank} {name : String} {value : Int} {fault : Fault}
    (refused : bank.store name value = .error fault) :
    bank.afterStore (name, value) = bank := by
  rw [afterStore, refused]

theorem get_afterStore (bank : RegisterBank) (call : String × Int) (register : Register) :
    (bank.afterStore call).get register =
      if register.AnswersTo call.1 then some call.2 else bank.get register := by
  obtain ⟨name, value⟩ := call
  by_cases address : Register.IsAddress name
  · obtain ⟨named, answers⟩ := (Register.isAddress_iff_exists_answersTo name).mp address
    rw [afterStore_of_store_eq_ok (store_of_answersTo answers bank value), get_set]
    -- A name leads to one register, so the one that answers is the one that was set.
    have same : named = register ↔ register.AnswersTo name := by
      constructor
      · rintro rfl
        exact answers
      · exact answers.eq
    simp only [same]
  · obtain ⟨fault, refused⟩ := exists_store_eq_error address bank value
    have silent : ¬ register.AnswersTo name := by
      intro answers
      exact address ((Register.isAddress_iff_exists_answersTo name).mpr ⟨register, answers⟩)
    rw [afterStore_of_store_eq_error refused, if_neg silent]

theorem latest?_cons (call : String × Int) (calls : List (String × Int)) (register : Register) :
    latest? (call :: calls) register =
      (latest? calls register).or
        (if register.AnswersTo call.1 then some call.2 else none) := by
  unfold latest?
  rw [List.reverse_cons, List.find?_append, Option.map_or]
  congr 1
  by_cases answers : register.AnswersTo call.1
  · simp [answers]
  · simp [answers]

/-- Calls leave in a register what the last of them that it answers to has stored there, or else
what it held before. -/
theorem get_storeAll
    (bank : RegisterBank)
    (calls : List (String × Int))
    (register : Register) :
    (bank.storeAll calls).get register = (latest? calls register).or (bank.get register) := by
  induction calls generalizing bank with
  | nil => rfl
  | cons call rest inductionHypothesis =>
      calc (bank.storeAll (call :: rest)).get register
        _ = (latest? rest register).or ((bank.afterStore call).get register) :=
            inductionHypothesis (bank.afterStore call)
        _ = (latest? (call :: rest) register).or (bank.get register) := by
            rw [get_afterStore, latest?_cons, Option.or_assoc]
            split
            · rfl
            · rfl

theorem get_empty_storeAll (calls : List (String × Int)) (register : Register) :
    (empty.storeAll calls).get register = latest? calls register := by
  rw [get_storeAll, get_empty, Option.or_none]

theorem storeAll_append (bank : RegisterBank) (calls later : List (String × Int)) :
    bank.storeAll (calls ++ later) = (bank.storeAll calls).storeAll later :=
  List.foldl_append

theorem exists_eq_ok_iff
    {Answer : Type} {answer : Except Fault Answer} {condition : Prop}
    (accepted : condition → ∃ result, answer = .ok result)
    (refused : ¬ condition → ∃ fault, answer = .error fault) :
    (∃ result, answer = .ok result) ↔ condition := by
  by_cases met : condition
  · exact iff_of_true (accepted met) met
  · obtain ⟨fault, failed⟩ := refused met
    refine iff_of_false ?_ met
    rintro ⟨result, succeeded⟩
    rw [failed] at succeeded
    cases succeeded

theorem exists_store_eq_ok_iff (bank : RegisterBank) (name : String) (value : Int) :
    (∃ changed, bank.store name value = .ok changed) ↔ Register.IsAddress name := by
  refine exists_eq_ok_iff ?_ fun unreachable => exists_store_eq_error unreachable bank value
  intro address
  obtain ⟨register, answers⟩ := (Register.isAddress_iff_exists_answersTo name).mp address
  exact ⟨_, store_of_answersTo answers bank value⟩

theorem exists_load_eq_ok_iff (bank : RegisterBank) (name : String) :
    (∃ held, bank.load name = .ok held) ↔ Register.IsAddress name := by
  refine exists_eq_ok_iff ?_ fun unreachable => exists_load_eq_error unreachable bank
  intro address
  obtain ⟨register, answers⟩ := (Register.isAddress_iff_exists_answersTo name).mp address
  exact ⟨_, load_of_answersTo answers bank⟩

theorem isSet_of_answersTo
    {register : Register} {name : String}
    (answers : register.AnswersTo name)
    (bank : RegisterBank) :
    bank.isSet name = .ok (bank.get register).isSome := by
  simp only [isSet, load_of_answersTo answers, bind, Except.bind]
  rfl

end RegisterBank

namespace State

theorem registers_execute_store
    {state : State} {value : Int} {rest : ValueQueue}
    (taken : state.queue.dequeue? = some (value, rest))
    (name : String)
    (others : List String) :
    (state.execute ⟨.store, name :: others⟩).state.registers =
      state.registers.afterStore (name, value) := by
  have first : Instruction.operand ⟨.store, name :: others⟩ 0 = .ok name := rfl
  simp only [execute, taken, storeOperand, first, bind, Except.bind]
  cases stored : state.registers.store name value with
  | ok changed =>
      rw [RegisterBank.afterStore_of_store_eq_ok stored]
      rfl
  | error fault =>
      rw [RegisterBank.afterStore_of_store_eq_error stored]
      rfl

theorem registers_execute_load (state : State) (operands : List String) :
    (state.execute ⟨.load, operands⟩).state.registers = state.registers := by
  simp only [execute, bind, Except.bind]
  cases state.loadOperand ⟨.load, operands⟩ with
  | error fault => rfl
  | ok held =>
      cases held with
      | none => rfl
      | some value => rfl

end State

namespace RegisterBank

/-- After any calls on a new bank, the names that are accepted are the characters from `G` to `z`.
Each stands for the register counted from the letter `a` around the bank, which holds what the last
call that it answers to has stored, and nothing if there was none. A call that is refused might as
well not have been made. The assignments are those of the registers that have been stored to, in
alphabetical order. A machine that stores and loads treats its bank in the same way. -/
theorem storeAll_holds_latest
    {bank : RegisterBank} {calls : List (String × Int)}
    (left : empty.storeAll calls = bank) :
    (∀ name value, (∃ changed, bank.store name value = .ok changed) ↔ Register.IsAddress name) ∧
      (∀ name, (∃ held, bank.load name = .ok held) ↔ Register.IsAddress name) ∧
      (∀ name, Register.IsAddress name → ∃ register : Register,
        register.AnswersTo name ∧
          bank.load name = .ok (latest? calls register) ∧
          bank.isSet name = .ok (latest? calls register).isSome ∧
          ∀ value, ∃ changed,
            bank.store name value = .ok changed ∧
              ∀ other, changed.get other =
                if other = register then some value else latest? calls other) ∧
      (∀ name value fault, bank.store name value = .error fault →
        ∀ later,
          empty.storeAll (calls ++ (name, value) :: later) = empty.storeAll (calls ++ later)) ∧
      bank.assignments.Pairwise (fun first second => first.1 < second.1) ∧
      (∀ name value, (name, value) ∈ bank.assignments ↔
        ∃ register : Register, latest? calls register = some value ∧ register.name = name) ∧
      ∀ (state : State) (name : String) (others : List String),
        state.registers = bank →
        (state.execute ⟨.load, name :: others⟩).state.registers = bank ∧
          ∀ value rest, state.queue.dequeue? = some (value, rest) →
            (state.execute ⟨.store, name :: others⟩).state.registers =
              empty.storeAll (calls ++ [(name, value)]) := by
  have holds (register : Register) : bank.get register = latest? calls register := by
    rw [← left, get_empty_storeAll]
  refine ⟨bank.exists_store_eq_ok_iff, bank.exists_load_eq_ok_iff, ?_, ?_,
    bank.pairwise_assignments, ?_, ?_⟩
  · intro name address
    obtain ⟨register, answers⟩ := (Register.isAddress_iff_exists_answersTo name).mp address
    refine ⟨register, answers, ?_, ?_, ?_⟩
    · rw [load_of_answersTo answers, holds]
    · rw [isSet_of_answersTo answers, holds]
    · intro value
      refine ⟨_, store_of_answersTo answers bank value, ?_⟩
      intro other
      rw [get_set, holds]
      simp only [eq_comm]
  · intro name value fault refused later
    rw [storeAll_append, storeAll_append, left]
    exact congrArg (storeAll · later) (afterStore_of_store_eq_error refused)
  · intro name value
    rw [mem_assignments]
    simp only [holds]
  · intro state name others same
    constructor
    · rw [State.registers_execute_load, same]
    · intro value rest taken
      rw [State.registers_execute_store taken, same, storeAll_append, left]
      rfl

/-- The character `G` leads to the register `a`, where the zero that it stores is not taken for
unset; `F` and the brace behind `z` are just out of reach. -/
theorem storeAll_holds_latest_aliased_letter :
    let calls := [("a", 5), ("G", 0), ("ab", 3), ("\x7b", 9), ("Z", -3)]
    let bank := empty.storeAll calls
    let state : State :=
      { State.initial .empty with queue := .ofList [7], registers := bank }
    (Register.IsAddress "a" ∧ bank.load "a" = .ok (some 0) ∧ bank.isSet "a" = .ok true) ∧
      (Register.IsAddress "H" ∧ bank.load "H" = .ok none ∧ bank.isSet "H" = .ok false) ∧
      (∃ fault, bank.store "F" 1 = .error fault) ∧
      empty.storeAll (calls ++ [("F", 1), ("b", 2)]) = empty.storeAll (calls ++ [("b", 2)]) ∧
      ("t", -3) ∈ bank.assignments ∧
      (state.execute ⟨.load, ["F"]⟩).state.registers = bank ∧
      (state.execute ⟨.store, ["F"]⟩).state.registers = empty.storeAll (calls ++ [("F", 7)]) := by
  intro calls bank state
  obtain ⟨-, -, acts, refusals, -, listed, machines⟩ :=
    storeAll_holds_latest (rfl : empty.storeAll calls = bank)
  have first : Register.IsAddress "a" := ⟨'a', by decide, by decide, by decide⟩
  have second : Register.IsAddress "H" := ⟨'H', by decide, by decide, by decide⟩
  have outside : ¬ Register.IsAddress "F" := by
    rintro ⟨c, single, lower, -⟩
    obtain rfl := List.singleton_inj.mp single
    exact absurd lower (by decide)
  obtain ⟨fault, refused⟩ := exists_store_eq_error outside bank 1
  obtain ⟨loads, stores⟩ := machines state "F" [] rfl
  refine ⟨⟨first, ?_⟩, ⟨second, ?_⟩, ⟨fault, refused⟩, refusals "F" 1 fault refused [("b", 2)],
    (listed "t" (-3)).mpr ⟨⟨19, by decide⟩, by decide +kernel, by decide +kernel⟩, loads,
    stores 7 .empty (by decide)⟩
  · obtain ⟨register, answers, loaded, known, -⟩ := acts "a" first
    obtain rfl : register = ⟨0, by decide⟩ := answers.eq (by decide +kernel)
    exact ⟨loaded, known⟩
  · obtain ⟨register, answers, loaded, known, -⟩ := acts "H" second
    obtain rfl : register = ⟨1, by decide⟩ := answers.eq (by decide +kernel)
    exact ⟨loaded, known⟩

end RegisterBank

end QueueMachine
