import QueueMachine.Numeral.Limited

set_option autoImplicit false

/-!
Labels and the instruction indices they are bound to. A table keeps its names in the order in which
they were first bound; binding a name again changes its index and keeps its place. Tables are
compared as maps, so that order does not count.
-/

namespace QueueMachine

structure LabelTable where
  entries : List (String × Int)
  nodup_names : (entries.map Prod.fst).Nodup
  deriving DecidableEq

namespace LabelTable

def empty : LabelTable := ⟨[], by simp⟩

def names (table : LabelTable) : List String :=
  table.entries.map Prod.fst

/-- Replaces the index of a name in place, or adds the name at the end. -/
def bindEntry (name : String) (index : Int) : List (String × Int) → List (String × Int)
  | [] => [(name, index)]
  | (other, bound) :: rest =>
      if other = name then (name, index) :: rest
      else (other, bound) :: bindEntry name index rest

theorem mem_names_bindEntry
    (name : String) (index : Int) (entries : List (String × Int)) (label : String) :
    label ∈ (bindEntry name index entries).map Prod.fst ↔
      label = name ∨ label ∈ entries.map Prod.fst := by
  induction entries with
  | nil => simp [bindEntry]
  | cons entry rest inductionHypothesis =>
      obtain ⟨other, bound⟩ := entry
      by_cases same : other = name
      · simp [bindEntry, same]
      · simp only [bindEntry, same, if_false, List.map_cons, List.mem_cons, inductionHypothesis]
        exact or_left_comm

theorem nodup_names_bindEntry
    (name : String) (index : Int) (entries : List (String × Int))
    (nodup : (entries.map Prod.fst).Nodup) :
    ((bindEntry name index entries).map Prod.fst).Nodup := by
  induction entries with
  | nil => simp [bindEntry]
  | cons entry rest inductionHypothesis =>
      obtain ⟨other, bound⟩ := entry
      rw [List.map_cons, List.nodup_cons] at nodup
      by_cases same : other = name
      · subst same
        simpa [bindEntry] using nodup
      · simp only [bindEntry, same, if_false, List.map_cons, List.nodup_cons]
        refine ⟨fun member => ?_, inductionHypothesis nodup.2⟩
        rcases (mem_names_bindEntry name index rest other).mp member with equal | old
        · exact same equal
        · exact nodup.1 old

def bind (table : LabelTable) (name : String) (index : Int) : LabelTable :=
  ⟨bindEntry name index table.entries, nodup_names_bindEntry name index _ table.nodup_names⟩

def ofList (bindings : List (String × Int)) : LabelTable :=
  bindings.foldl (fun table (name, index) => table.bind name index) empty

def resolve? (table : LabelTable) (name : String) : Option Int :=
  table.entries.lookup name

def contains (table : LabelTable) (name : String) : Bool :=
  (table.resolve? name).isSome

def size (table : LabelTable) : Nat :=
  table.entries.length

def same (first second : LabelTable) : Bool :=
  first.size == second.size &&
    first.entries.all fun (name, index) => second.resolve? name == some index

def sorted (table : LabelTable) : List (String × Int) :=
  table.entries.mergeSort fun a b => a.1 ≤ b.1

def describe (table : LabelTable) : Except Fault String := do
  let entries ← table.entries.mapM fun (name, index) => do
    let text ← Numeral.write index
    return Text.quote name ++ ": " ++ text
  return "LabelTable(\x7b" ++ ", ".intercalate entries ++ "\x7d)"

end LabelTable

end QueueMachine
