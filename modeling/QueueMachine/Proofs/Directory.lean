import QueueMachine.Directory
import QueueMachine.Proofs.Text.Line

set_option autoImplicit false

/-!
What is written to a file is read back from it. Writing changes one place, which is no folder, so
that every path still leads through the same folders; the path of the file now leads to what was
written.
-/

namespace QueueMachine.Directory

theorem lookup_filter_of_ne
    {place other : Place}
    (different : other ≠ place)
    (entries : List (Place × Entry)) :
    (entries.filter fun old => old.1 ≠ place).lookup other = entries.lookup other := by
  induction entries with
  | nil => rfl
  | cons old rest inductionHypothesis =>
      obtain ⟨name, entry⟩ := old
      by_cases replaced : name = place
      · have test : (other == name) = false := beq_eq_false_iff_ne.mpr (replaced ▸ different)
        rw [List.filter_cons_of_neg (by simp [replaced]), inductionHypothesis, List.lookup_cons, test]
      · rw [List.filter_cons_of_pos (by simp [replaced]), List.lookup_cons, List.lookup_cons,
          inductionHypothesis]

theorem lookup_filter_self (place : Place) (entries : List (Place × Entry)) :
    (entries.filter fun old => old.1 ≠ place).lookup place = none := by
  rw [List.lookup_eq_none_iff]
  intro old member
  have kept : old.1 ≠ place := by simpa using (List.mem_filter.mp member).2
  exact bne_iff_ne.mpr kept.symm

variable {directory : Directory} {place : Place}

theorem entry?_of_ne_folder
    (notFolder : directory.entry? place ≠ some .folder) :
    (place.isAbove || place = Place.root) = false := by
  rw [← Bool.not_eq_true]
  intro outside
  apply notFolder
  unfold entry?
  rw [if_pos outside]

theorem entry?_put_self
    (notFolder : directory.entry? place ≠ some .folder)
    (entry : Entry) :
    Directory.entry? (directory.put place entry) place = some entry := by
  have inside := entry?_of_ne_folder notFolder
  unfold entry?
  rw [if_neg (by simp [inside]), put, List.lookup_append, lookup_filter_self]
  simp

theorem entry?_put_of_ne
    {other : Place}
    (different : other ≠ place)
    (entry : Entry) :
    Directory.entry? (directory.put place entry) other = directory.entry? other := by
  have test : (other == place) = false := beq_eq_false_iff_ne.mpr different
  unfold entry?
  rw [put, List.lookup_append, lookup_filter_of_ne different]
  simp [List.lookup_cons, test]

theorem put_put (directory : Directory) (place : Place) (first second : Entry) :
    (directory.put place first).put place second = directory.put place second := by
  simp [put, List.filter_append]

theorem isSome_entry?_put
    {other : Place}
    (notFolder : directory.entry? place ≠ some .folder)
    (entry : Entry)
    (present : (directory.entry? other).isSome = true) :
    (Directory.entry? (directory.put place entry) other).isSome = true := by
  by_cases same : other = place
  · rw [same, entry?_put_self notFolder]
    rfl
  · rw [entry?_put_of_ne same]
    exact present

/-- A step along a path starts in a folder, and to this one writing a file makes no difference. -/
theorem enter_put
    {here there : Place} {component : String}
    (notFolder : directory.entry? place ≠ some .folder)
    (entry : Entry)
    (entered : directory.enter here component = .ok there) :
    (directory.put place entry).enter here component = .ok there := by
  rw [enter] at entered
  split at entered
  · cases entered
  · cases entered
  · rename_i isFolder
    have elsewhere : here ≠ place := by
      rintro rfl
      exact notFolder isFolder
    rw [enter, entry?_put_of_ne elsewhere, isFolder]
    dsimp only at entered ⊢
    split at entered
    · cases entered
    · rename_i short
      rw [if_neg short]
      split at entered
      · rename_i present
        rw [if_pos (isSome_entry?_put notFolder entry present)]
        exact entered
      · cases entered

theorem resolve_put
    {start there : Place} {components : List String}
    (notFolder : directory.entry? place ≠ some .folder)
    (entry : Entry)
    (resolved : directory.resolve start components = .ok there) :
    (directory.put place entry).resolve start components = .ok there := by
  induction components generalizing start with
  | nil => exact resolved
  | cons component rest inductionHypothesis =>
      rw [resolve, List.foldlM_cons] at resolved ⊢
      match entered : directory.enter start component with
      | .error failure =>
          rw [entered] at resolved
          cases resolved
      | .ok next =>
          rw [entered] at resolved
          rw [enter_put notFolder entry entered]
          exact inductionHypothesis resolved

theorem resolve_concat
    {start folder there : Place} {above : List String} {name : String}
    (resolved : directory.resolve start above = .ok folder)
    (entered : directory.enter folder name = .ok there) :
    directory.resolve start (above ++ [name]) = .ok there := by
  rw [resolve] at resolved ⊢
  rw [List.foldlM_append, resolved]
  change (directory.enter folder name >>= pure) = _
  rw [bind_pure, entered]

theorem eq_append_of_dropWhile_reverse
    {components above : List String} {name : String}
    (parts : components.reverse.dropWhile (· = "") = name :: above)
    (noSlash : components.getLast? ≠ some "") :
    components = above.reverse ++ [name] := by
  rw [← List.head?_reverse] at noSlash
  match flipped : components.reverse with
  | [] =>
      rw [flipped] at parts
      cases parts
  | last :: front =>
      have filled : last ≠ "" := by
        rintro rfl
        exact noSlash (by rw [flipped]; rfl)
      rw [flipped, List.dropWhile_cons_of_neg (by simpa using filled)] at parts
      cases parts
      rw [← List.reverse_reverse components, flipped, List.reverse_cons]

theorem openForWriting_eq_ok
    {path : String}
    (writable : directory.openForWriting path = .ok place) :
    Path.failure? path = none ∧ directory.entry? place ≠ some .folder ∧
      ∃ above folder name, Path.components path = above ++ [name] ∧
        name ≠ "" ∧ name ≠ "." ∧ name ≠ ".." ∧ name.utf8ByteSize ≤ Path.maxComponentBytes ∧
        directory.resolve (Place.start path) above = .ok folder ∧
        directory.entry? folder = some .folder ∧ place = folder ++ [name] := by
  rw [openForWriting] at writable
  split at writable
  · cases writable
  · rename_i noFailure
    refine ⟨noFailure, ?_⟩
    dsimp only at writable
    split at writable
    · cases writable
    · rename_i name above parts
      split at writable
      · cases resolved : directory.resolve (Place.start path) (Path.components path) with
        | error failure =>
            rw [resolved] at writable
            cases writable
        | ok reached =>
            rw [resolved] at writable
            cases writable
      · rename_i ordinary
        rw [not_or] at ordinary
        cases resolved : directory.resolve (Place.start path) above.reverse with
        | error failure =>
            rw [resolved] at writable
            cases writable
        | ok folder =>
            rw [resolved] at writable
            dsimp only [bind, Except.bind] at writable
            split at writable
            · rename_i isFolder
              split at writable
              · cases writable
              · rename_i noSlash
                split at writable
                · cases writable
                · rename_i short
                  split at writable
                  · cases writable
                  · rename_i notFolder
                    cases writable
                    have divided := eq_append_of_dropWhile_reverse parts noSlash
                    have named : name ≠ "" := by simpa [divided] using noSlash
                    exact ⟨notFolder, above.reverse, folder, name, divided, named, ordinary.1,
                      ordinary.2, Nat.not_lt.mp short, resolved, isFolder, rfl⟩
            · cases writable
            · cases writable

theorem openForReading_put
    {path : String}
    (writable : directory.openForWriting path = .ok place)
    (contents : ByteArray) :
    (directory.put place (.file contents)).openForReading path = .ok contents := by
  obtain ⟨noFailure, notFolder, above, folder, name, divided, named, notDot, notDots, short,
    resolved, isFolder, rfl⟩ := openForWriting_eq_ok writable
  have elsewhere : folder ≠ folder ++ [name] := by simp
  have next : folder.next name = folder ++ [name] := by
    simp [Place.next, named, notDot, notDots]
  have written := entry?_put_self notFolder (.file contents)
  have entered : (directory.put (folder ++ [name]) (.file contents)).enter folder name =
      .ok (folder ++ [name]) := by
    rw [enter, entry?_put_of_ne elsewhere, isFolder]
    dsimp only
    rw [next, written, if_neg (Nat.not_lt.mpr short)]
    rfl
  have reached : (directory.put (folder ++ [name]) (.file contents)).resolve (Place.start path)
      (Path.components path) = .ok (folder ++ [name]) := by
    rw [divided]
    exact resolve_concat (resolve_put notFolder (.file contents) resolved) entered
  rw [openForReading, noFailure]
  dsimp only
  rw [reached]
  dsimp only [bind, Except.bind]
  rw [written]
  rfl

/-- A text without carriage returns is read back as it was written. -/
theorem readText_putText
    {path text : String}
    (writable : directory.openForWriting path = .ok place)
    (noReturn : '\r' ∉ text.toList) :
    (directory.putText place text).readText path = .ok text := by
  rw [readText, putText, openForReading_put writable]
  dsimp only
  rw [Text.decodeUtf8_encodeUtf8]
  dsimp only
  rw [Text.unifyBreaks_of_not_mem noReturn, String.ofList_toList]

end QueueMachine.Directory
