set_option autoImplicit false

/-!
Excerpts of a list: some consecutive entries in order, each with its index. A viewer that has room
for a part of its rows shows an excerpt of them, and needs to know which indices that holds.
-/

namespace QueueMachine

variable {Item : Type}

/-- At most `count` entries from the index `first` on. -/
def excerpt (items : List Item) (first count : Nat) : List (Item × Nat) :=
  (items.zipIdx.drop first).take count

theorem length_excerpt_le (items : List Item) (first count : Nat) :
    (excerpt items first count).length ≤ count :=
  List.length_take_le _ _

theorem getElem?_excerpt
    (items : List Item) (first count : Nat) {offset : Nat}
    (inside : offset < count) :
    (excerpt items first count)[offset]? =
      items[first + offset]?.map fun item => (item, first + offset) := by
  rw [excerpt, List.getElem?_take_of_lt inside, List.getElem?_drop, List.getElem?_zipIdx]
  simp

theorem mem_excerpt_iff
    (items : List Item) (first count : Nat) (item : Item) (index : Nat) :
    (item, index) ∈ excerpt items first count ↔
      items[index]? = some item ∧ first ≤ index ∧ index < first + count := by
  constructor
  · intro member
    obtain ⟨offset, found⟩ := List.mem_iff_getElem?.mp member
    have inside : offset < count := by
      have bound := (List.getElem?_eq_some_iff.mp found).1
      exact Nat.lt_of_lt_of_le bound (length_excerpt_le items first count)
    rw [getElem?_excerpt items first count inside, Option.map_eq_some_iff] at found
    obtain ⟨shown, standing, same⟩ := found
    cases same
    exact ⟨standing, Nat.le_add_right first offset, Nat.add_lt_add_left inside first⟩
  · rintro ⟨standing, notBefore, notBehind⟩
    obtain ⟨offset, rfl⟩ := Nat.exists_eq_add_of_le notBefore
    apply List.mem_of_getElem? (i := offset)
    rw [getElem?_excerpt items first count (by omega), standing]
    rfl

theorem zipIdx_eq_append_excerpt (items : List Item) (first count : Nat) :
    items.zipIdx =
      excerpt items 0 first ++ excerpt items first count ++
        excerpt items (first + count) items.length := by
  have behind : excerpt items (first + count) items.length = items.zipIdx.drop (first + count) := by
    apply List.take_of_length_le
    rw [List.length_drop, List.length_zipIdx]
    exact Nat.sub_le _ _
  rw [behind, excerpt, excerpt, List.drop_zero, List.append_assoc, ← List.drop_drop,
    List.take_append_drop, List.take_append_drop]

theorem filter_zipIdx_eq_excerpt
    (items : List Item) {first : Int}
    (nonnegative : 0 ≤ first)
    (window : Int) :
    (items.zipIdx.filter fun entry =>
        first ≤ (entry.2 : Int) && (entry.2 : Int) < first + window) =
      excerpt items first.toNat window.toNat := by
  rw [zipIdx_eq_append_excerpt items first.toNat window.toNat, List.filter_append,
    List.filter_append, List.filter_eq_nil_iff.mpr ?before, List.filter_eq_self.mpr ?inside,
    List.filter_eq_nil_iff.mpr ?behind, List.nil_append, List.append_nil]
  case before =>
    rintro ⟨item, index⟩ member
    obtain ⟨-, -, early⟩ := (mem_excerpt_iff items _ _ item index).mp member
    simp only [Bool.and_eq_true, decide_eq_true_eq]
    omega
  case inside =>
    rintro ⟨item, index⟩ member
    obtain ⟨-, notBefore, notBehind⟩ := (mem_excerpt_iff items _ _ item index).mp member
    simp only [Bool.and_eq_true, decide_eq_true_eq]
    omega
  case behind =>
    rintro ⟨item, index⟩ member
    obtain ⟨-, late, -⟩ := (mem_excerpt_iff items _ _ item index).mp member
    simp only [Bool.and_eq_true, decide_eq_true_eq]
    omega

theorem excerpt_one
    {items : List Item} {index : Nat} {item : Item}
    (standing : items[index]? = some item) :
    excerpt items index 1 = [(item, index)] := by
  rw [excerpt, List.take_one, List.head?_drop, List.getElem?_zipIdx, standing]
  simp

theorem filter_excerpt_eq_singleton
    {items : List Item} {first count : Nat} {place : Int} {item : Item}
    (nonnegative : 0 ≤ place)
    (standing : items[place.toNat]? = some item)
    (notBefore : (first : Int) ≤ place)
    (notBehind : place < first + count) :
    ((excerpt items first count).filter fun entry => (entry.2 : Int) = place) =
      [(item, place.toNat)] := by
  have whole := filter_zipIdx_eq_excerpt items (Int.natCast_nonneg first) count
  rw [Int.toNat_natCast, Int.toNat_natCast] at whole
  rw [← whole, List.filter_filter, ← excerpt_one standing]
  refine Eq.trans ?_ (filter_zipIdx_eq_excerpt items nonnegative 1)
  apply List.filter_congr
  rintro ⟨_, index⟩ -
  rw [Bool.eq_iff_iff]
  simp only [Bool.and_eq_true, decide_eq_true_eq]
  omega

end QueueMachine
