import Mathlib.Data.Multiset.AddSub
import Mathlib.Data.Multiset.Count
import Mathlib.Logic.Function.Basic

/-!
# Objects that count their references

An object is freed with its last reference. Nothing but the users makes sure that who gives a reference
back had one: `Balanced` says that the counts are those of a collection of holders, and each operation
keeps it as long as the collection is changed with the memory.
-/

namespace EDBus.Semantics

universe u v

/-- An object and the number of its references. -/
structure CountedObject (Value : Type v) where
  value : Value
  count : Int

/-- Memory with counted objects. `touchedFreed` is whether one was accessed where there is none. -/
structure Shared (Key : Type u) (Value : Type v) where
  objects : Key → Option (CountedObject Value)
  touchedFreed : Bool

namespace Shared

variable {Key : Type u} {Value : Type v}

/-- No object. -/
def empty : Shared Key Value := ⟨fun _ => none, false⟩

/-- The value of an object that is there. -/
def value (memory : Shared Key Value) (key : Key) : Option Value := (memory.objects key).map CountedObject.value

/-- Something was accessed that is not there. -/
def fault (memory : Shared Key Value) : Shared Key Value := { memory with touchedFreed := true }

variable [DecidableEq Key]

/-- An object is accessed, and replaced or freed. -/
def edit (memory : Shared Key Value) (key : Key) (change : CountedObject Value → Option (CountedObject Value)) :
    Shared Key Value :=
  match memory.objects key with
  | none => memory.fault
  | some object => { memory with objects := Function.update memory.objects key (change object) }

/-- A new object with one reference. -/
def create (memory : Shared Key Value) (key : Key) (value : Value) : Shared Key Value :=
  { memory with objects := Function.update memory.objects key (some ⟨value, 1⟩) }

/-- A reference more. -/
def ref (memory : Shared Key Value) (key : Key) : Shared Key Value :=
  memory.edit key fun object => some { object with count := object.count + 1 }

/-- A reference less. The object goes with the last one. -/
def unref (memory : Shared Key Value) (key : Key) : Shared Key Value :=
  memory.edit key fun object =>
    if object.count - 1 = 0 then none else some { object with count := object.count - 1 }

/-- The value of an object is changed. -/
def modify (memory : Shared Key Value) (key : Key) (change : Value → Value) : Shared Key Value :=
  memory.edit key fun object => some { object with value := change object.value }

/-- A reference less on each of some objects, one after the other. -/
def unrefAll (memory : Shared Key Value) (keys : List Key) : Shared Key Value := keys.foldl unref memory

/-! ## Holders -/

/-- No object was accessed that was not there, those there are have a holder, and each counts its
holders. -/
structure Balanced (memory : Shared Key Value) (holders : Multiset Key) : Prop where
  untouched : memory.touchedFreed = false
  counts : ∀ key, (memory.objects key).map CountedObject.count =
    if key ∈ holders then some (holders.count key : Int) else none

variable {memory : Shared Key Value} {holders : Multiset Key} {key other : Key}

theorem empty_balanced : Balanced (empty : Shared Key Value) 0 where
  untouched := rfl
  counts key := (if_neg (Multiset.notMem_zero key)).symm

theorem Balanced.congr (balanced : Balanced memory holders) {same : Multiset Key} (equal : holders = same) :
    Balanced memory same :=
  equal ▸ balanced

/-- What is held is there. -/
theorem Balanced.object (balanced : Balanced memory holders) (held : key ∈ holders) :
    ∃ value, memory.objects key = some ⟨value, holders.count key⟩ := by
  have counted := balanced.counts key
  rw [if_pos held] at counted
  obtain ⟨⟨value, count⟩, found, rfl⟩ := Option.map_eq_some_iff.mp counted
  exact ⟨value, found⟩

theorem Balanced.value (balanced : Balanced memory holders) (held : key ∈ holders) :
    ∃ value, memory.value key = some value := by
  obtain ⟨value, found⟩ := balanced.object held
  exact ⟨value, by rw [Shared.value, found]; rfl⟩

/-- What is there is held. -/
theorem Balanced.objects_isSome_iff (balanced : Balanced memory holders) :
    (memory.objects key).isSome ↔ key ∈ holders := by
  have counted := balanced.counts key
  constructor
  · intro isThere
    by_contra absent
    rw [if_neg absent, Option.map_eq_none_iff] at counted
    rw [counted] at isThere
    cases isThere
  · intro held
    obtain ⟨value, found⟩ := balanced.object held
    rw [found]
    rfl

theorem Balanced.freed (balanced : Balanced memory holders) (absent : key ∉ holders) :
    memory.objects key = none := by
  rw [← balanced.objects_isSome_iff] at absent
  exact Option.not_isSome_iff_eq_none.mp absent

theorem Balanced.held_of_value (balanced : Balanced memory holders) {value : Value}
    (found : memory.value key = some value) : key ∈ holders := by
  obtain ⟨object, isThere, -⟩ := Option.map_eq_some_iff.mp found
  exact balanced.objects_isSome_iff.mp (Option.isSome_iff_exists.mpr ⟨object, isThere⟩)

theorem edit_of_object {object : CountedObject Value} (found : memory.objects key = some object)
    (change : CountedObject Value → Option (CountedObject Value)) :
    memory.edit key change = { memory with objects := Function.update memory.objects key (change object) } := by
  rw [edit, found]

/-- An object that is there is replaced by one that counts its holders then. -/
theorem Balanced.edit (balanced : Balanced memory holders) (held : key ∈ holders)
    {change : CountedObject Value → Option (CountedObject Value)} {left : Multiset Key}
    (elsewhere : ∀ other, other ≠ key → left.count other = holders.count other)
    (here : ∀ object, object.count = (holders.count key : Int) →
      (change object).map CountedObject.count = if key ∈ left then some (left.count key : Int) else none) :
    Balanced (memory.edit key change) left := by
  obtain ⟨value, found⟩ := balanced.object held
  rw [edit_of_object found]
  refine ⟨balanced.untouched, fun other => ?_⟩
  simp only [Function.update_apply]
  by_cases same : other = key
  · rw [if_pos same, same]
    exact here _ rfl
  · have counted := balanced.counts other
    rw [if_neg same, counted, elsewhere other same]
    have member : other ∈ left ↔ other ∈ holders := by
      rw [← Multiset.one_le_count_iff_mem, elsewhere other same, Multiset.one_le_count_iff_mem]
    simp only [member]

/-- A new object is held by who made it. -/
theorem Balanced.create (balanced : Balanced memory holders) (fresh : memory.objects key = none) (value : Value) :
    Balanced (memory.create key value) (key ::ₘ holders) := by
  have absent : key ∉ holders := by
    rw [← balanced.objects_isSome_iff, fresh]
    simp
  refine ⟨balanced.untouched, fun other => ?_⟩
  simp only [Shared.create, Function.update_apply]
  by_cases same : other = key
  · simp [same, absent]
  · have counted := balanced.counts other
    rw [if_neg same, counted, Multiset.count_cons_of_ne same]
    simp only [Multiset.mem_cons, same, false_or]

/-- Who takes a reference of what is held becomes a holder. -/
theorem Balanced.ref (balanced : Balanced memory holders) (held : key ∈ holders) :
    Balanced (memory.ref key) (key ::ₘ holders) := by
  refine balanced.edit held (fun other differs => Multiset.count_cons_of_ne differs _) fun object counted => ?_
  simp [counted]

/-- A holder gives its reference back. -/
theorem Balanced.unref (balanced : Balanced memory (key ::ₘ holders)) : Balanced (memory.unref key) holders := by
  refine balanced.edit (Multiset.mem_cons_self key holders)
    (fun other differs => (Multiset.count_cons_of_ne differs _).symm) fun object counted => ?_
  rw [Multiset.count_cons_self] at counted
  by_cases held : key ∈ holders
  · have positive := Multiset.count_pos.mpr held
    rw [if_neg (by omega), if_pos held]
    simp only [Option.map_some, counted]
    congr 1
    omega
  · rw [Multiset.count_eq_zero_of_notMem held] at counted
    rw [if_pos (by omega), if_neg held]
    rfl

theorem Balanced.modify (balanced : Balanced memory holders) (held : key ∈ holders) (change : Value → Value) :
    Balanced (memory.modify key change) holders := by
  refine balanced.edit held (fun _ _ => rfl) fun object counted => ?_
  rw [if_pos held, ← counted]
  rfl

/-- Several holders give their references back. -/
theorem Balanced.unrefAll {keys : List Key} (balanced : Balanced memory (↑keys + holders)) :
    Balanced (memory.unrefAll keys) holders := by
  induction keys generalizing memory with
  | nil => exact balanced.congr (Multiset.zero_add holders)
  | cons key rest ih =>
      apply ih
      exact (balanced.congr (Multiset.cons_add key (↑rest) holders)).unref

/-! ## Values -/

theorem value_create (memory : Shared Key Value) (key other : Key) (value : Value) :
    (memory.create key value).value other = if other = key then some value else memory.value other := by
  simp only [Shared.value, create, Function.update_apply]
  split <;> rfl

theorem value_ref (memory : Shared Key Value) (key other : Key) :
    (memory.ref key).value other = memory.value other := by
  unfold ref edit Shared.value
  cases found : memory.objects key with
  | none => rfl
  | some object =>
      simp only [Function.update_apply]
      split
      · next same => rw [same, found]; rfl
      · rfl

theorem value_modify (memory : Shared Key Value) (key other : Key) (change : Value → Value) :
    (memory.modify key change).value other =
      if other = key then (memory.value key).map change else memory.value other := by
  unfold modify edit Shared.value
  cases found : memory.objects key with
  | none =>
      by_cases same : other = key
      · simp [same, fault, found]
      · simp [same, fault]
  | some object =>
      simp only [Function.update_apply]
      split <;> rfl

/-- Giving a reference back leaves what somebody else holds. -/
theorem Balanced.value_unref (balanced : Balanced memory (key ::ₘ holders)) (held : other ∈ holders) :
    (memory.unref key).value other = memory.value other := by
  obtain ⟨value, found⟩ := balanced.object (Multiset.mem_cons_self key holders)
  rw [Multiset.count_cons_self] at found
  rw [Shared.unref, edit_of_object found]
  simp only [Shared.value, Function.update_apply]
  by_cases same : other = key
  · have positive := Multiset.count_pos.mpr (same ▸ held)
    rw [if_pos same, if_neg (by omega), same, found]
    rfl
  · rw [if_neg same]

/-- Several references are given back, and the values of what is held besides stay. -/
theorem Balanced.value_unrefAll {keys : List Key} (balanced : Balanced memory (↑keys + holders))
    (held : other ∈ holders) : (memory.unrefAll keys).value other = memory.value other := by
  induction keys generalizing memory with
  | nil => rfl
  | cons key rest ih =>
      have first := balanced.congr (Multiset.cons_add key (↑rest) holders)
      calc (memory.unrefAll (key :: rest)).value other = ((memory.unref key).unrefAll rest).value other := rfl
        _ = (memory.unref key).value other := ih first.unref
        _ = memory.value other := first.value_unref (Multiset.mem_add.mpr (.inr held))

end Shared

end EDBus.Semantics
