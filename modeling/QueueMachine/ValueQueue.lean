import QueueMachine.Numeral.Decimal

set_option autoImplicit false

/-!
The queue of values that all instructions share. It is held as the front in order and the back in
reverse, so that adding and taking are cheap; `toList` is the queue from its head.
-/

namespace QueueMachine

structure ValueQueue where
  front : List Int
  back : List Int
  deriving DecidableEq, Repr

namespace ValueQueue

def empty : ValueQueue := ⟨[], []⟩

def ofList (values : List Int) : ValueQueue := ⟨values, []⟩

def toList (queue : ValueQueue) : List Int :=
  queue.front ++ queue.back.reverse

def enqueue (queue : ValueQueue) (value : Int) : ValueQueue :=
  { queue with back := value :: queue.back }

def dequeue? (queue : ValueQueue) : Option (Int × ValueQueue) :=
  match queue.front with
  | value :: front => some (value, { queue with front })
  | [] =>
      match queue.back.reverse with
      | value :: front => some (value, ⟨front, []⟩)
      | [] => none

def isEmpty (queue : ValueQueue) : Bool :=
  queue.front.isEmpty && queue.back.isEmpty

def size (queue : ValueQueue) : Nat :=
  queue.front.length + queue.back.length

def join (separator : String) (queue : ValueQueue) : String :=
  separator.intercalate (queue.toList.map Numeral.format)

def describe (queue : ValueQueue) : String :=
  "ValueQueue([" ++ queue.join ", " ++ "])"

@[simp] theorem toList_empty : empty.toList = [] := rfl

@[simp] theorem toList_ofList (values : List Int) : (ofList values).toList = values := by
  simp [ofList, toList]

@[simp] theorem toList_enqueue (queue : ValueQueue) (value : Int) :
    (queue.enqueue value).toList = queue.toList ++ [value] := by
  simp [enqueue, toList]

theorem toList_of_dequeue?_eq_some
    {queue rest : ValueQueue} {value : Int}
    (taken : queue.dequeue? = some (value, rest)) :
    queue.toList = value :: rest.toList := by
  obtain ⟨front, back⟩ := queue
  cases front with
  | cons head front =>
      simp only [dequeue?, Option.some.injEq, Prod.mk.injEq] at taken
      obtain ⟨rfl, rfl⟩ := taken
      rfl
  | nil =>
      simp only [dequeue?] at taken
      split at taken
      · rename_i reversed
        simp only [Option.some.injEq, Prod.mk.injEq] at taken
        obtain ⟨rfl, rfl⟩ := taken
        simp [toList, reversed]
      · simp at taken

theorem dequeue?_eq_none_iff (queue : ValueQueue) :
    queue.dequeue? = none ↔ queue.toList = [] := by
  constructor
  · intro refused
    obtain ⟨front, back⟩ := queue
    cases front with
    | cons head front => simp [dequeue?] at refused
    | nil =>
        simp only [dequeue?] at refused
        split at refused
        · simp at refused
        · rename_i reversed
          simp [toList, reversed]
  · intro nothing
    match found : queue.dequeue? with
    | none => rfl
    | some (value, rest) =>
        rw [toList_of_dequeue?_eq_some found] at nothing
        simp at nothing

end ValueQueue

end QueueMachine
