import Mathlib.Data.List.Nodup

/-!
# Lists with distinct keys

A table is a list of keys and values. Looking up a key finds the first entry with
it, which is the only one when the keys are distinct.
-/

namespace EDBus.Semantics.Keyed

variable {Key Value Item : Type} [BEq Key] [LawfulBEq Key] {key other : Key} {value : Value}
  {table : List (Key × Value)}

section Lookup

variable [DecidableEq Key]

theorem lookup_cons (key own : Key) (value : Value) (rest : List (Key × Value)) :
    ((own, value) :: rest).lookup key = if key = own then some value else rest.lookup key := by
  by_cases same : key = own
  · simp [same]
  · have differs : (key == own) = false := by simpa using same
    simp [List.lookup_cons, differs, same]

theorem lookup_append_single (table : List (Key × Value)) (key other : Key) (value : Value) :
    (table ++ [(key, value)]).lookup other =
      (table.lookup other).or (if other = key then some value else none) := by
  induction table with
  | nil => simp [lookup_cons]
  | cons entry rest ih =>
      obtain ⟨own, first⟩ := entry
      rw [List.cons_append, lookup_cons, lookup_cons, ih]
      split <;> simp

theorem lookup_filter_ne (table : List (Key × Value)) (key other : Key) :
    (table.filter fun entry => entry.1 != key).lookup other = if other = key then none else table.lookup other := by
  induction table with
  | nil => simp
  | cons entry rest ih =>
      obtain ⟨own, first⟩ := entry
      rw [List.filter_cons, lookup_cons]
      split
      · rename_i kept
        rw [lookup_cons, ih]
        have differs : own ≠ key := by simpa using kept
        by_cases isKey : other = key
        · have elsewhere : ¬ key = own := Ne.symm differs
          simp [isKey, elsewhere]
        · simp [isKey]
      · rename_i dropped
        have isKey : own = key := by simpa using dropped
        rw [ih, isKey]
        split
        · rfl
        · rfl

theorem mem_of_lookup (found : table.lookup key = some value) : (key, value) ∈ table := by
  induction table with
  | nil => cases found
  | cons entry rest ih =>
      obtain ⟨own, first⟩ := entry
      rw [lookup_cons] at found
      split at found
      · rename_i isHead
        obtain rfl := Option.some.inj found
        subst isHead
        exact List.mem_cons_self
      · exact .tail _ (ih found)

theorem lookup_of_mem (nodup : (table.map Prod.fst).Nodup) (listed : (key, value) ∈ table) :
    table.lookup key = some value := by
  induction table with
  | nil => cases listed
  | cons entry rest ih =>
      obtain ⟨own, first⟩ := entry
      rw [List.map_cons, List.nodup_cons] at nodup
      rw [lookup_cons]
      rcases List.mem_cons.mp listed with isHead | inRest
      · cases isHead
        simp
      · have differs : key ≠ own := by
          rintro rfl
          exact nodup.1 (List.mem_map.mpr ⟨_, inRest, rfl⟩)
        rw [if_neg differs]
        exact ih nodup.2 inRest

end Lookup

/-- Of several things with distinct keys one has the key. -/
theorem filter_key {keyOf : Item → Key} {items : List Item} (distinct : (items.map keyOf).Nodup) {item : Item}
    (isIn : item ∈ items) : (items.filter fun other => keyOf item == keyOf other) = [item] := by
  induction items with
  | nil => cases isIn
  | cons first rest ih =>
      obtain ⟨fresh, distinctRest⟩ := List.nodup_cons.mp distinct
      rcases List.mem_cons.mp isIn with rfl | later
      · have nobody : (rest.filter fun other => keyOf item == keyOf other) = [] := by
          rw [List.filter_eq_nil_iff]
          intro other isOther same
          exact fresh (eq_of_beq same ▸ List.mem_map_of_mem isOther)
        simp only [List.filter_cons, BEq.rfl, if_true, nobody]
      · have different : ¬ (keyOf item == keyOf first) = true := fun same =>
          fresh (eq_of_beq same ▸ List.mem_map_of_mem later)
        simp only [List.filter_cons, if_neg different]
        exact ih distinctRest later

/-- An entry, and those with other keys. -/
theorem perm_filter_key (nodup : (table.map Prod.fst).Nodup) (listed : (key, value) ∈ table) :
    (table.map Prod.snd).Perm (value :: (table.filter fun entry => entry.1 != key).map Prod.snd) := by
  induction table with
  | nil => cases listed
  | cons entry rest ih =>
      obtain ⟨own, first⟩ := entry
      rw [List.map_cons, List.nodup_cons] at nodup
      rcases List.mem_cons.mp listed with isHead | inRest
      · obtain ⟨rfl, rfl⟩ := Prod.mk.inj isHead
        have others : rest.filter (fun entry => entry.1 != key) = rest := by
          rw [List.filter_eq_self]
          intro entry inRest
          have different : entry.1 ≠ key := by
            rintro rfl
            exact nodup.1 (List.mem_map.mpr ⟨_, inRest, rfl⟩)
          simpa using different
        simp [others]
      · have different : own ≠ key := by
          rintro rfl
          exact nodup.1 (List.mem_map.mpr ⟨_, inRest, rfl⟩)
        simp only [List.map_cons, List.filter_cons, bne_iff_ne, ne_eq, different, not_false_eq_true, if_true]
        exact ((ih nodup.2 inRest).cons first).trans (.swap value first _)

end EDBus.Semantics.Keyed
