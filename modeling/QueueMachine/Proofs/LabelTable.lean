import QueueMachine.LabelTable

set_option autoImplicit false

/-!
Label tables as maps: what a name stands for after a binding, and which names there are.
-/

namespace QueueMachine.LabelTable

theorem lookup_cons_of_ne
    {label other : String}
    (different : label ≠ other)
    (bound : Int) (rest : List (String × Int)) :
    List.lookup label ((other, bound) :: rest) = rest.lookup label := by
  have test : (label == other) = false := beq_eq_false_iff_ne.mpr different
  rw [List.lookup_cons, test]

theorem lookup_bindEntry
    (name : String) (index : Int) (entries : List (String × Int)) (label : String) :
    (bindEntry name index entries).lookup label =
      if label = name then some index else entries.lookup label := by
  induction entries with
  | nil =>
      by_cases same : label = name
      · simp [bindEntry, same]
      · rw [bindEntry, lookup_cons_of_ne same, if_neg same]
  | cons entry rest inductionHypothesis =>
      obtain ⟨other, bound⟩ := entry
      by_cases replaced : other = name
      · subst replaced
        by_cases same : label = other
        · simp [bindEntry, same]
        · rw [bindEntry, if_pos rfl, lookup_cons_of_ne same, lookup_cons_of_ne same, if_neg same]
      · rw [bindEntry, if_neg replaced]
        by_cases found : label = other
        · subst found
          simp [replaced]
        · rw [lookup_cons_of_ne found, lookup_cons_of_ne found, inductionHypothesis]

@[simp]
theorem resolve?_empty (label : String) : empty.resolve? label = none := rfl

@[simp]
theorem names_empty : empty.names = [] := rfl

theorem resolve?_bind (table : LabelTable) (name : String) (index : Int) (label : String) :
    (table.bind name index).resolve? label =
      if label = name then some index else table.resolve? label :=
  lookup_bindEntry name index table.entries label

theorem mem_names_bind (table : LabelTable) (name : String) (index : Int) (label : String) :
    label ∈ (table.bind name index).names ↔ label = name ∨ label ∈ table.names :=
  mem_names_bindEntry name index table.entries label

theorem map_fst_bindEntry_of_mem
    {name : String} {entries : List (String × Int)}
    (known : name ∈ entries.map Prod.fst)
    (index : Int) :
    (bindEntry name index entries).map Prod.fst = entries.map Prod.fst := by
  induction entries with
  | nil => simp at known
  | cons entry rest inductionHypothesis =>
      obtain ⟨other, bound⟩ := entry
      by_cases replaced : other = name
      · simp [bindEntry, replaced]
      · have behind : name ∈ rest.map Prod.fst := by
          simpa [Ne.symm replaced] using known
        simp [bindEntry, replaced, inductionHypothesis behind]

theorem names_bind_of_mem
    {table : LabelTable} {name : String}
    (known : name ∈ table.names)
    (index : Int) :
    (table.bind name index).names = table.names :=
  map_fst_bindEntry_of_mem known index

theorem lookup_of_mem
    {entries : List (String × Int)} {name : String} {index : Int}
    (distinct : (entries.map Prod.fst).Nodup)
    (member : (name, index) ∈ entries) :
    entries.lookup name = some index := by
  induction entries with
  | nil => simp at member
  | cons entry rest inductionHypothesis =>
      obtain ⟨other, bound⟩ := entry
      rw [List.map_cons, List.nodup_cons] at distinct
      rcases List.mem_cons.mp member with same | behind
      · cases same
        simp
      · have different : name ≠ other := by
          rintro rfl
          exact distinct.1 (List.mem_map.mpr ⟨(name, index), behind, rfl⟩)
        rw [lookup_cons_of_ne different]
        exact inductionHypothesis distinct.2 behind

theorem same_self (table : LabelTable) : table.same table = true := by
  rw [same, Bool.and_eq_true, beq_iff_eq, List.all_eq_true]
  refine ⟨rfl, fun entry member => ?_⟩
  exact beq_iff_eq.mpr (lookup_of_mem table.nodup_names member)

/-- No label stands for a place before the first instruction. -/
def Nonneg (table : LabelTable) : Prop :=
  ∀ label target, table.resolve? label = some target → 0 ≤ target

theorem nonneg_empty : empty.Nonneg :=
  nofun

theorem Nonneg.bind
    {table : LabelTable}
    (nonneg : table.Nonneg)
    (name : String) (index : Nat) :
    (table.bind name index).Nonneg := by
  intro label target bound
  rw [resolve?_bind] at bound
  split at bound
  · cases bound
    exact Int.natCast_nonneg index
  · exact nonneg label target bound

end QueueMachine.LabelTable
