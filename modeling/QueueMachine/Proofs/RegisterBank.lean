import QueueMachine.Proofs.LabelTable
import QueueMachine.Proofs.Operand

set_option autoImplicit false

/-!
Register banks as maps: a bank is what its registers hold, storing changes one of them, and the
assignments are the map written out in alphabetical order. Twice as many characters as there are
registers lead to one, as the positions before the letter `a` count back from the end of the bank.
Any other name is refused.
-/

namespace QueueMachine

namespace Register

theorem name_injective : Function.Injective name := by
  intro first second same
  have found := ofName?_name first
  rw [same, ofName?_name] at found
  exact (Option.some.inj found).symm

theorem name_lt_name {first second : Register} (before : first < second) :
    first.name < second.name := by
  revert first second
  decide +kernel

/-- The names that lead to a register: the characters from `G` to `z`. -/
def IsAddress (name : String) : Prop :=
  ∃ c, name.toList = [c] ∧ 71 ≤ c.toNat ∧ c.toNat ≤ 122

/-- A register answers to its letter, and to the character that stands twenty-six places before it.
Both are counted from the letter `a`, around the bank. -/
def AnswersTo (register : Register) (name : String) : Prop :=
  ∃ c, name.toList = [c] ∧ 71 ≤ c.toNat ∧ c.toNat ≤ 122 ∧
    (register.val : Int) = ((c.toNat : Int) - 97) % 26

instance (register : Register) (name : String) : Decidable (register.AnswersTo name) :=
  match single : name.toList with
  | [c] =>
      decidable_of_iff
        (71 ≤ c.toNat ∧ c.toNat ≤ 122 ∧ (register.val : Int) = ((c.toNat : Int) - 97) % 26)
        (by simp [AnswersTo, single])
  | [] => isFalse (by simp [AnswersTo, single])
  | _ :: _ :: _ => isFalse (by simp [AnswersTo, single])

theorem AnswersTo.eq
    {first second : Register} {name : String}
    (firstAnswers : first.AnswersTo name)
    (secondAnswers : second.AnswersTo name) :
    first = second := by
  obtain ⟨c, single, -, -, counted⟩ := firstAnswers
  obtain ⟨d, again, -, -, countedAgain⟩ := secondAnswers
  rw [single] at again
  obtain rfl := List.singleton_inj.mp again
  apply Fin.ext
  omega

theorem isAddress_iff_exists_answersTo (name : String) :
    IsAddress name ↔ ∃ register : Register, register.AnswersTo name := by
  constructor
  · rintro ⟨c, single, lower, upper⟩
    have inRange : (((c.toNat : Int) - 97) % 26).toNat < registerCount := by
      rw [registerCount]
      omega
    refine ⟨⟨_, inRange⟩, c, single, lower, upper, ?_⟩
    dsimp only
    omega
  · rintro ⟨register, c, single, lower, upper, -⟩
    exact ⟨c, single, lower, upper⟩

theorem answersTo_name (register : Register) : register.AnswersTo register.name := by
  have inRange : register.val < 26 := register.isLt
  refine ⟨register.letter, String.toList_singleton _, ?_⟩
  rw [toNat_letter]
  omega

theorem atPosition?_eq_some_iff (position : Int) (register : Register) :
    atPosition? position = some register ↔
      -26 ≤ position ∧ position ≤ 25 ∧ (register.val : Int) = position % 26 := by
  have inRange : register.val < 26 := register.isLt
  have count : registerCount = 26 := rfl
  rw [atPosition?, Option.dite_none_right_eq_some]
  simp only [Option.some.injEq, Fin.ext_iff, exists_prop]
  -- Counting back from the end adds the size of the bank, which the remainder does not see.
  split
  next before => omega
  next behind => omega

theorem position_of_toList_eq {name : String} {c : Char} (single : name.toList = [c]) :
    position name = .ok ((c.toNat : Int) - 97) := by
  rw [position, single]

theorem AnswersTo.exists_position
    {register : Register} {name : String}
    (answers : register.AnswersTo name) :
    ∃ place, position name = .ok place ∧ atPosition? place = some register := by
  obtain ⟨c, single, lower, upper, counted⟩ := answers
  refine ⟨_, position_of_toList_eq single, (atPosition?_eq_some_iff _ _).mpr ⟨?_, ?_, counted⟩⟩
  · omega
  · omega

theorem position_of_not_isAddress
    {name : String}
    (unreachable : ¬ IsAddress name) :
    (∃ fault, position name = .error fault) ∨
      ∃ place, position name = .ok place ∧ atPosition? place = none := by
  unfold position
  split
  next c single =>
    refine .inr ⟨_, rfl, ?_⟩
    rw [Option.eq_none_iff_forall_ne_some]
    intro register found
    obtain ⟨lower, upper, -⟩ := (atPosition?_eq_some_iff _ _).mp found
    exact unreachable ⟨c, single, by omega, by omega⟩
  next => exact .inl ⟨_, rfl⟩

end Register

namespace RegisterBank

theorem ext_get
    {first second : RegisterBank}
    (same : ∀ register, first.get register = second.get register) :
    first = second := by
  obtain ⟨firstSlots⟩ := first
  obtain ⟨secondSlots⟩ := second
  congr 1
  apply Vector.ext
  intro position inRange
  exact same ⟨position, inRange⟩

theorem get_empty (register : Register) : empty.get register = none := by
  simp [empty, get]

theorem get_set (bank : RegisterBank) (register other : Register) (value : Int) :
    (bank.set register value).get other =
      if register = other then some value else bank.get other := by
  simp only [set, get, Fin.getElem_fin, Vector.getElem_set, Fin.ext_iff]

theorem load_of_answersTo
    {register : Register} {name : String}
    (answers : register.AnswersTo name)
    (bank : RegisterBank) :
    bank.load name = .ok (bank.get register) := by
  obtain ⟨place, positioned, found⟩ := answers.exists_position
  simp only [load, positioned, bind, Except.bind, found]
  rfl

theorem store_of_answersTo
    {register : Register} {name : String}
    (answers : register.AnswersTo name)
    (bank : RegisterBank)
    (value : Int) :
    bank.store name value = .ok (bank.set register value) := by
  obtain ⟨place, positioned, found⟩ := answers.exists_position
  simp only [store, positioned, bind, Except.bind, found]
  rfl

theorem exists_load_eq_error
    {name : String}
    (unreachable : ¬ Register.IsAddress name)
    (bank : RegisterBank) :
    ∃ fault, bank.load name = .error fault := by
  rcases Register.position_of_not_isAddress unreachable with
    ⟨fault, failed⟩ | ⟨place, positioned, none⟩
  · exact ⟨fault, by simp only [load, failed, bind, Except.bind]⟩
  · exact ⟨.noSuchPosition, by simp only [load, positioned, bind, Except.bind, none]; rfl⟩

theorem exists_store_eq_error
    {name : String}
    (unreachable : ¬ Register.IsAddress name)
    (bank : RegisterBank)
    (value : Int) :
    ∃ fault, bank.store name value = .error fault := by
  rcases Register.position_of_not_isAddress unreachable with
    ⟨fault, failed⟩ | ⟨place, positioned, none⟩
  · exact ⟨fault, by simp only [store, failed, bind, Except.bind]⟩
  · exact ⟨.noSuchRegister, by simp only [store, positioned, bind, Except.bind, none]; rfl⟩

def occupied (bank : RegisterBank) : List Register :=
  (List.finRange registerCount).filter fun register => (bank.get register).isSome

theorem pairwise_occupied (bank : RegisterBank) : bank.occupied.Pairwise (· < ·) :=
  (List.pairwise_lt_finRange registerCount).filter _

theorem some_getD_of_mem_occupied
    {bank : RegisterBank} {register : Register}
    (member : register ∈ bank.occupied) :
    some ((bank.get register).getD 0) = bank.get register := by
  obtain ⟨value, held⟩ := Option.isSome_iff_exists.mp (List.mem_filter.mp member).2
  rw [held, Option.getD_some]

theorem assignments_eq_map (bank : RegisterBank) :
    bank.assignments =
      bank.occupied.map fun register => (register.name, (bank.get register).getD 0) := by
  unfold assignments occupied
  induction List.finRange registerCount with
  | nil => rfl
  | cons register rest inductionHypothesis =>
      cases held : bank.get register with
      | none => simp [held, inductionHypothesis]
      | some value => simp [held, inductionHypothesis]

theorem assignments_empty : empty.assignments = [] := by
  decide

theorem pairwise_assignments (bank : RegisterBank) :
    bank.assignments.Pairwise fun first second => first.1 < second.1 := by
  rw [assignments_eq_map, List.pairwise_map]
  apply bank.pairwise_occupied.imp
  intro first second before
  exact Register.name_lt_name before

theorem mergeSort_assignments (bank : RegisterBank) :
    (bank.assignments.mergeSort fun a b => a.1 ≤ b.1) = bank.assignments := by
  apply List.mergeSort_of_pairwise
  apply bank.pairwise_assignments.imp
  intro first second before
  exact decide_eq_true (String.not_lt.mp (String.lt_asymm before))

theorem nodup_names_assignments (bank : RegisterBank) :
    (bank.assignments.map Prod.fst).Nodup := by
  rw [List.Nodup, List.pairwise_map]
  apply bank.pairwise_assignments.imp
  intro first second before same
  rw [same] at before
  exact String.lt_irrefl _ before

theorem mem_assignments (bank : RegisterBank) (name : String) (value : Int) :
    (name, value) ∈ bank.assignments ↔
      ∃ register : Register, bank.get register = some value ∧ register.name = name := by
  simp [assignments]

theorem lookup_assignments (bank : RegisterBank) (register : Register) :
    bank.assignments.lookup register.name = bank.get register := by
  cases held : bank.get register with
  | some value =>
      exact LabelTable.lookup_of_mem bank.nodup_names_assignments
        ((bank.mem_assignments _ _).mpr ⟨register, held, rfl⟩)
  | none =>
      rw [List.lookup_eq_none_iff]
      rintro ⟨name, value⟩ member
      obtain ⟨other, otherHeld, rfl⟩ := (bank.mem_assignments _ _).mp member
      rw [bne_iff_ne]
      intro same
      rw [Register.name_injective same, otherHeld] at held
      cases held

end RegisterBank

end QueueMachine
