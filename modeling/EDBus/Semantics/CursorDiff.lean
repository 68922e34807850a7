import Mathlib.Data.List.Count

/-!
# The difference of two lists, found with two cursors

`walk` moves one cursor over the old list and one over the new list, setting the
old items aside that differ from the item under the new cursor. `reclaim` then
goes through the rest of the new list and takes back what was set aside.
Together they compute the two multiset differences: `count_added` and
`count_removed`.
-/

namespace Semantics.CursorDiff

universe u
variable {Item : Type u} [DecidableEq Item]

/-- Where the walk stops: the old items set aside, the last old item it looked
at, and what remains of both lists. -/
structure Walk (Item : Type u) where
  setAside : List Item
  lastSeen : Option Item
  oldRest : List Item
  newRest : List Item

/-- The walk ends with either list. -/
def walk : List Item → List Item → Walk Item
  | [], new => ⟨[], none, [], new⟩
  | old, [] => ⟨[], none, old, []⟩
  | item :: old, wanted :: new =>
    if item = wanted then
      let rest := walk old new
      { rest with lastSeen := rest.lastSeen.or (some item) }
    else
      let rest := walk old (wanted :: new)
      { rest with
        setAside := item :: rest.setAside
        lastSeen := rest.lastSeen.or (some item) }

/-- New items are taken from those set aside, or are additions. The result is
the additions and what stays set aside. -/
def reclaim : List Item → List Item → List Item × List Item
  | [], setAside => ([], setAside)
  | item :: new, setAside =>
    if item ∈ setAside then reclaim new (setAside.erase item)
    else
      let rest := reclaim new setAside
      (item :: rest.1, rest.2)

/-- The items that are added. -/
def added (old new : List Item) : List Item :=
  (reclaim (walk old new).newRest (walk old new).setAside).1

/-- The items that stay set aside. -/
def leftover (old new : List Item) : List Item :=
  (reclaim (walk old new).newRest (walk old new).setAside).2

/-- The items that are removed: those set aside, then the rest of the old list. -/
def removed (old new : List Item) : List Item :=
  leftover old new ++ (walk old new).oldRest

@[simp] theorem walk_nil_left (new : List Item) : walk [] new = ⟨[], none, [], new⟩ := by
  cases new <;> rfl

@[simp] theorem walk_nil_right (old : List Item) : walk old [] = ⟨[], none, old, []⟩ := by
  cases old <;> rfl

theorem walk_same (item : Item) (old new : List Item) :
    walk (item :: old) (item :: new) =
      { walk old new with lastSeen := (walk old new).lastSeen.or (some item) } := by
  simp [walk]

theorem walk_different {item wanted : Item} (different : item ≠ wanted) (old new : List Item) :
    walk (item :: old) (wanted :: new) =
      { walk old (wanted :: new) with
        setAside := item :: (walk old (wanted :: new)).setAside
        lastSeen := (walk old (wanted :: new)).lastSeen.or (some item) } := by
  simp [walk, different]

/-- The walk drops matching pairs and nothing else. -/
theorem walk_count (old new : List Item) (item : Item) :
    old.count item + (walk old new).newRest.count item =
      new.count item + (walk old new).setAside.count item + (walk old new).oldRest.count item := by
  induction old generalizing new with
  | nil => simp
  | cons first old ih =>
      cases new with
      | nil => simp
      | cons wanted new =>
          by_cases same : first = wanted
          · subst same
            rw [walk_same]
            have rest := ih new
            simp only [List.count_cons]
            omega
          · rw [walk_different same]
            have rest := ih (wanted :: new)
            simp only [List.count_cons] at rest ⊢
            omega

/-- One of the lists is used up. -/
theorem walk_exhausts (old new : List Item) :
    (walk old new).oldRest = [] ∨ (walk old new).newRest = [] := by
  induction old generalizing new with
  | nil => simp
  | cons first old ih =>
      cases new with
      | nil => simp
      | cons wanted new =>
          by_cases same : first = wanted
          · subst same
            rw [walk_same]
            exact ih new
          · rw [walk_different same]
            exact ih (wanted :: new)

theorem reclaim_count (new setAside : List Item) (item : Item) :
    (reclaim new setAside).1.count item = new.count item - setAside.count item ∧
    (reclaim new setAside).2.count item = setAside.count item - new.count item := by
  induction new generalizing setAside with
  | nil => simp [reclaim]
  | cons first new ih =>
      by_cases known : first ∈ setAside
      · obtain ⟨additions, rest⟩ := ih (setAside.erase first)
        have positive : 0 < setAside.count first := List.count_pos_iff.mpr known
        simp only [reclaim, if_pos known, additions, rest, List.count_erase, List.count_cons]
        by_cases same : first = item
        · subst same
          simp only [BEq.rfl, if_true]
          omega
        · have differs : (first == item) = false := by simpa using same
          simp [differs]
      · obtain ⟨additions, rest⟩ := ih setAside
        have absent : setAside.count first = 0 := List.count_eq_zero_of_not_mem known
        simp only [reclaim, if_neg known, additions, rest, List.count_cons]
        by_cases same : first = item
        · subst same
          simp only [BEq.rfl, if_true]
          omega
        · have differs : (first == item) = false := by simpa using same
          simp [differs]

/-- Added is what the new list has more of. -/
theorem count_added (old new : List Item) (item : Item) :
    (added old new).count item = new.count item - old.count item := by
  have walked := walk_count old new item
  have reclaimed := (reclaim_count (walk old new).newRest (walk old new).setAside item).1
  unfold added
  rw [reclaimed]
  rcases walk_exhausts old new with noOld | noNew
  · rw [noOld, List.count_nil] at walked
    omega
  · rw [noNew, List.count_nil] at walked ⊢
    omega

/-- Removed is what the old list has more of. -/
theorem count_removed (old new : List Item) (item : Item) :
    (removed old new).count item = old.count item - new.count item := by
  have walked := walk_count old new item
  have reclaimed := (reclaim_count (walk old new).newRest (walk old new).setAside item).2
  unfold removed leftover
  rw [List.count_append, reclaimed]
  rcases walk_exhausts old new with noOld | noNew
  · rw [noOld, List.count_nil] at walked ⊢
    omega
  · rw [noNew, List.count_nil] at walked ⊢
    omega

theorem mem_added {old new : List Item} {item : Item} :
    item ∈ added old new ↔ old.count item < new.count item := by
  rw [← List.count_pos_iff, count_added]
  omega

theorem mem_removed {old new : List Item} {item : Item} :
    item ∈ removed old new ↔ new.count item < old.count item := by
  rw [← List.count_pos_iff, count_removed]
  omega

/-! ## Where the walk stops -/

/-- The walk finds the whole new list exactly if it is a sublist of the old one. -/
theorem walk_newRest_eq_nil_iff (old new : List Item) :
    (walk old new).newRest = [] ↔ new.Sublist old := by
  induction old generalizing new with
  | nil => simp
  | cons first old ih =>
      cases new with
      | nil => simp
      | cons wanted new =>
          by_cases same : first = wanted
          · subst same
            rw [walk_same, List.cons_sublist_cons]
            exact ih new
          · rw [walk_different same]
            refine (ih (wanted :: new)).trans ?_
            constructor
            · exact fun sub => sub.cons first
            · intro sub
              cases sub with
              | cons _ rest => exact rest
              | cons_cons _ rest => exact absurd rfl same

/-- A walk that does not find the whole new list looks at the whole old one. -/
theorem walk_lastSeen_of_newRest {old new : List Item} (unfinished : (walk old new).newRest ≠ []) :
    (walk old new).lastSeen = old.getLast? := by
  induction old generalizing new with
  | nil => simp
  | cons first old ih =>
      have last : old.getLast?.or (some first) = (first :: old).getLast? := by
        rw [List.getLast?_cons]
        cases old.getLast? <;> rfl
      cases new with
      | nil => simp at unfinished
      | cons wanted new =>
          by_cases same : first = wanted
          · subst same
            rw [walk_same] at unfinished ⊢
            simp only [ih unfinished, last]
          · rw [walk_different same] at unfinished ⊢
            simp only [ih unfinished, last]

/-- Nothing is set aside in front of a prefix. -/
theorem walk_append (new rest : List Item) :
    (walk (new ++ rest) new).setAside = [] ∧ (walk (new ++ rest) new).oldRest = rest := by
  induction new with
  | nil => simp
  | cons first new ih =>
      rw [List.cons_append, walk_same]
      exact ih

theorem leftover_of_finished {old new : List Item} (finished : (walk old new).newRest = []) :
    leftover old new = (walk old new).setAside ∧ added old new = [] := by
  simp [leftover, added, finished, reclaim]

theorem added_eq_nil_iff {old new : List Item} :
    added old new = [] ↔ ∀ item, new.count item ≤ old.count item := by
  constructor
  · intro none item
    have counted := count_added old new item
    rw [none, List.count_nil] at counted
    omega
  · intro few
    rw [List.eq_nil_iff_forall_not_mem]
    intro item listed
    have more := mem_added.mp listed
    exact absurd (few item) (by omega)

end Semantics.CursorDiff
