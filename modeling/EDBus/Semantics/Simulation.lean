import EDBus.Semantics.Execution

/-!
# Simulation

A machine simulates another if each of its steps is answered by steps of the other, which is seen from the
step. The answers to a run are put together by `Simulates.run`.
-/

namespace Semantics

universe u v w x

namespace Machine

variable {State : Type u} {Label : Type v} {machine : Machine State Label}

/-- A run is cut in two. -/
theorem exec_append (start : State) (first second : List Label) :
    machine.exec start (first ++ second) =
      (machine.exec start first).bind fun middle => machine.exec middle second := by
  induction first generalizing start with
  | nil => rfl
  | cons label rest ih =>
      rw [List.cons_append, exec, exec]
      cases machine.step start label with
      | none => rfl
      | some next => exact ih next

theorem exec_append_of {start middle finish : State} {first second : List Label}
    (before : machine.exec start first = some middle) (after : machine.exec middle second = some finish) :
    machine.exec start (first ++ second) = some finish := by
  rw [exec_append, before, Option.bind_some, after]

/-- An enabled label runs by itself. -/
theorem exec_singleton {start next : State} {label : Label} (stepped : machine.step start label = some next) :
    machine.exec start [label] = some next :=
  exec_cons_iff.mpr ⟨next, stepped, rfl⟩

end Machine

variable {State : Type u} {Label : Type v} {Abstract : Type w} {Action : Type x}

/-- Related states stay related when a step is answered by the actions it is translated to. -/
structure Simulates (concrete : Machine State Label) (abstract : Machine Abstract Action)
    (relation : State → Abstract → Prop) (translate : State → Label → State → List Action) : Prop where
  step : ∀ state label next shown, relation state shown → concrete.step state label = some next →
    ∃ later, abstract.exec shown (translate state label next) = some later ∧ relation next later

variable {concrete : Machine State Label} {abstract : Machine Abstract Action}
  {relation : State → Abstract → Prop} {translate : State → Label → State → List Action}

/-- The actions that answer a run. -/
def Machine.translated (concrete : Machine State Label) (translate : State → Label → State → List Action)
    (start : State) (labels : List Label) : List Action :=
  (concrete.observed translate start labels).flatten

theorem Machine.translated_cons {start next : State} {label : Label} (rest : List Label)
    (stepped : concrete.step start label = some next) :
    concrete.translated translate start (label :: rest) =
      translate start label next ++ concrete.translated translate next rest := by
  simp only [Machine.translated, Machine.observed, stepped, List.flatten_cons]

/-- Every run is answered by a run. -/
theorem Simulates.run (simulates : Simulates concrete abstract relation translate) {start finish : State}
    {labels : List Label} {shown : Abstract} (related : relation start shown)
    (executed : concrete.exec start labels = some finish) :
    ∃ later, abstract.exec shown (concrete.translated translate start labels) = some later ∧
      relation finish later := by
  induction labels generalizing start shown with
  | nil =>
      rw [Machine.exec_nil, Option.some.injEq] at executed
      subst executed
      exact ⟨shown, rfl, related⟩
  | cons label rest ih =>
      obtain ⟨next, stepped, tailExecuted⟩ := Machine.exec_cons_iff.mp executed
      obtain ⟨middle, answered, relatedNext⟩ := simulates.step start label next shown related stepped
      obtain ⟨later, tailAnswered, relatedLater⟩ := ih relatedNext tailExecuted
      refine ⟨later, ?_, relatedLater⟩
      rw [Machine.translated_cons rest stepped]
      exact Machine.exec_append_of answered tailAnswered

end Semantics
