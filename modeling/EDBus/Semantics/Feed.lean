import Mathlib.Data.List.Basic

/-!
# Queues of changes and snapshots

The owner of a value announces its changes, and answers questions about it with snapshots, in one
queue. `Agrees` says of a reader who is somewhere in the queue that no snapshot will tell it anything
new, and that it will know the value once it has read the queue.
-/

namespace EDBus.Semantics.Feed

universe u

/-- What is sent about a value. -/
inductive Entry (Value : Type u) where
  | change (value : Value)
  | snapshot (value : Value)

variable {Value : Type u}

/-- The value that is told. -/
def Entry.value : Entry Value → Value
  | change value => value
  | snapshot value => value

/-- A reader that knows the first value gets to the last one, and each snapshot agrees with what it
knows by then. -/
def Agrees : Value → List (Entry Value) → Value → Prop
  | known, [], last => known = last
  | _, .change value :: rest, last => Agrees value rest last
  | known, .snapshot value :: rest, last => value = known ∧ Agrees known rest last

theorem Agrees.change {known last : Value} {queue : List (Entry Value)} (agrees : Agrees known queue last)
    (value : Value) : Agrees known (queue ++ [.change value]) value := by
  induction queue generalizing known with
  | nil => rfl
  | cons entry rest ih =>
      cases entry with
      | change told => exact ih agrees
      | snapshot told => exact ⟨agrees.1, ih agrees.2⟩

theorem Agrees.snapshot {known last : Value} {queue : List (Entry Value)} (agrees : Agrees known queue last) :
    Agrees known (queue ++ [.snapshot last]) last := by
  induction queue generalizing known with
  | nil => exact ⟨agrees.symm, agrees⟩
  | cons entry rest ih =>
      cases entry with
      | change told => exact ih agrees
      | snapshot told => exact ⟨agrees.1, ih agrees.2⟩

/-- Whoever reads an entry knows what it tells. -/
theorem Agrees.tail {known last : Value} {entry : Entry Value} {rest : List (Entry Value)}
    (agrees : Agrees known (entry :: rest) last) : Agrees entry.value rest last := by
  cases entry with
  | change value => exact agrees
  | snapshot value =>
      obtain ⟨rfl, later⟩ := agrees
      exact later

/-- A snapshot may be passed over. -/
theorem Agrees.skip {known value last : Value} {rest : List (Entry Value)}
    (agrees : Agrees known (.snapshot value :: rest) last) : value = known ∧ Agrees known rest last := agrees

end EDBus.Semantics.Feed
