import Mathlib.Order.WellFounded

/-!
# Machines driven by labels, and what holds along their runs

A `Machine` is a partial step function: the label carries every choice of the
environment, so a list of labels determines the run. `Throughout` speaks of
every state a run passes, `Along` of every transition it takes. The rules below
reduce both to facts about one step: `throughout_of_along` carries an invariant
through the runs whose steps all meet a condition, and
`throughout_iff_along` shows such a condition exact.
-/

namespace Semantics

universe u v w

/-- A partial step function. `none` means the label is not enabled. -/
structure Machine (State : Type u) (Label : Type v) where
  step : State → Label → Option State

namespace Machine

variable {State : Type u} {Label : Type v} {machine : Machine State Label}

/-- The state after a list of labels, if every one of them is enabled in turn. -/
def exec (machine : Machine State Label) (start : State) : List Label → Option State
  | [] => some start
  | label :: rest => (machine.step start label).bind fun next => exec machine next rest

/-- Every state passed while the labels are executed, both ends included,
satisfies the property. -/
def Throughout (machine : Machine State Label) (property : State → Prop) :
    State → List Label → Prop
  | state, [] => property state
  | state, label :: rest => property state ∧
      ∀ next, machine.step state label = some next → Throughout machine property next rest

/-- Every transition taken while the labels are executed satisfies the relation. -/
def Along (machine : Machine State Label) (relation : State → Label → State → Prop) :
    State → List Label → Prop
  | _, [] => True
  | state, label :: rest => ∀ next, machine.step state label = some next →
      relation state label next ∧ Along machine relation next rest

/-- A state some list of labels leads to. -/
def Reachable (machine : Machine State Label) (start state : State) : Prop :=
  ∃ labels, machine.exec start labels = some state

@[simp] theorem exec_nil (start : State) : machine.exec start [] = some start := rfl

theorem exec_cons_iff {start finish : State} {label : Label} {rest : List Label} :
    machine.exec start (label :: rest) = some finish ↔
      ∃ next, machine.step start label = some next ∧ machine.exec next rest = some finish := by
  simp [exec, Option.bind_eq_some_iff]

/-- `Throughout` is what it says: the property of every state that a prefix of
the labels reaches. -/
theorem throughout_iff_prefix {property : State → Prop} {start : State} {labels : List Label} :
    machine.Throughout property start labels ↔
      ∀ before, before <+: labels → ∀ state, machine.exec start before = some state →
        property state := by
  induction labels generalizing start with
  | nil =>
      constructor
      · intro holds before isPrefix state executed
        rw [List.prefix_nil.mp isPrefix, exec_nil, Option.some.injEq] at executed
        exact executed ▸ holds
      · intro holds
        exact holds [] (List.prefix_refl _) start rfl
  | cons label rest ih =>
      constructor
      · rintro ⟨holds, later⟩ before isPrefix state executed
        cases before with
        | nil =>
            rw [exec_nil, Option.some.injEq] at executed
            exact executed ▸ holds
        | cons first others =>
            obtain ⟨rfl, tailPrefix⟩ := List.cons_prefix_cons.mp isPrefix
            obtain ⟨next, stepped, tailExecuted⟩ := exec_cons_iff.mp executed
            exact ih.mp (later next stepped) others tailPrefix state tailExecuted
      · intro holds
        refine ⟨holds [] List.nil_prefix start rfl, fun next stepped => ih.mpr ?_⟩
        intro before isPrefix state executed
        exact holds (label :: before) (List.cons_prefix_cons.mpr ⟨rfl, isPrefix⟩) state
          (exec_cons_iff.mpr ⟨next, stepped, executed⟩)

theorem Throughout.start {property : State → Prop} {start : State} {labels : List Label}
    (holds : machine.Throughout property start labels) : property start := by
  cases labels with
  | nil => exact holds
  | cons label rest => exact holds.1

/-- The property holds of the state the whole run ends in. -/
theorem Throughout.finish {property : State → Prop} {start finish : State}
    {labels : List Label} (holds : machine.Throughout property start labels)
    (executed : machine.exec start labels = some finish) : property finish :=
  throughout_iff_prefix.mp holds labels (List.prefix_refl _) finish executed

theorem Throughout.mono {weaker stronger : State → Prop}
    (implies : ∀ state, stronger state → weaker state) {start : State} {labels : List Label}
    (holds : machine.Throughout stronger start labels) :
    machine.Throughout weaker start labels := by
  induction labels generalizing start with
  | nil => exact implies _ holds
  | cons label rest ih => exact ⟨implies _ holds.1, fun next stepped => ih (holds.2 next stepped)⟩

theorem Throughout.and {left right : State → Prop} {start : State} {labels : List Label}
    (first : machine.Throughout left start labels)
    (second : machine.Throughout right start labels) :
    machine.Throughout (fun state => left state ∧ right state) start labels := by
  induction labels generalizing start with
  | nil => exact ⟨first, second⟩
  | cons label rest ih =>
      exact ⟨⟨first.1, second.1⟩, fun next stepped =>
        ih (first.2 next stepped) (second.2 next stepped)⟩

theorem Along.mono {weaker stronger : State → Label → State → Prop}
    (implies : ∀ state label next, stronger state label next → weaker state label next)
    {start : State} {labels : List Label} (holds : machine.Along stronger start labels) :
    machine.Along weaker start labels := by
  induction labels generalizing start with
  | nil => trivial
  | cons label rest ih =>
      intro next stepped
      exact ⟨implies _ _ _ (holds next stepped).1, ih (holds next stepped).2⟩

theorem Along.and {left right : State → Label → State → Prop} {start : State} {labels : List Label}
    (first : machine.Along left start labels) (second : machine.Along right start labels) :
    machine.Along (fun state label next => left state label next ∧ right state label next) start
      labels := by
  induction labels generalizing start with
  | nil => trivial
  | cons label rest ih =>
      intro next stepped
      exact ⟨⟨(first next stepped).1, (second next stepped).1⟩,
        ih (first next stepped).2 (second next stepped).2⟩

/-- What holds along a run holds along what is left of it. -/
theorem Along.suffix {relation : State → Label → State → Prop} {start middle : State}
    {before during : List Label} (met : machine.Along relation start (before ++ during))
    (executed : machine.exec start before = some middle) : machine.Along relation middle during := by
  induction before generalizing start with
  | nil =>
      rw [exec_nil, Option.some.injEq] at executed
      exact executed ▸ met
  | cons label rest ih =>
      obtain ⟨next, stepped, later⟩ := exec_cons_iff.mp executed
      exact ih (met next stepped).2 later

/-- The first transition of an enabled run, and the others. -/
theorem along_cons {relation : State → Label → State → Prop} {start next : State} {label : Label}
    {rest : List Label} (stepped : machine.step start label = some next) :
    machine.Along relation start (label :: rest) ↔
      relation start label next ∧ machine.Along relation next rest := by
  constructor
  · intro met
    exact met next stepped
  · intro met other taken
    obtain rfl : next = other := Option.some.inj (stepped.symm.trans taken)
    exact met

/-- The invariant rule for runs whose steps all meet a condition. -/
theorem throughout_of_along {invariant : State → Prop}
    {condition : State → Label → State → Prop}
    (preserved : ∀ state label next, invariant state → machine.step state label = some next →
      condition state label next → invariant next)
    {start : State} {labels : List Label} (initial : invariant start)
    (met : machine.Along condition start labels) :
    machine.Throughout invariant start labels := by
  induction labels generalizing start with
  | nil => exact initial
  | cons label rest ih =>
      refine ⟨initial, fun next stepped => ?_⟩
      obtain ⟨here, later⟩ := met next stepped
      exact ih (preserved _ _ _ initial stepped here) later

/-- The invariant rule for all runs. -/
theorem throughout_of_preserved {invariant : State → Prop}
    (preserved : ∀ state label next, invariant state → machine.step state label = some next →
      invariant next)
    {start : State} (labels : List Label) (initial : invariant start) :
    machine.Throughout invariant start labels := by
  induction labels generalizing start with
  | nil => exact initial
  | cons label rest ih =>
      exact ⟨initial, fun next stepped => ih (preserved _ _ _ initial stepped)⟩

/-- An invariant holds of every reachable state. -/
theorem Reachable.invariant {invariant : State → Prop}
    (preserved : ∀ state label next, invariant state → machine.step state label = some next →
      invariant next)
    {start state : State} (initial : invariant start) (reached : machine.Reachable start state) :
    invariant state := by
  obtain ⟨labels, executed⟩ := reached
  exact (throughout_of_preserved preserved labels initial).finish executed

/-- What a step that meets a condition does, from a state with an invariant that
such steps keep, is done by every transition of the run. -/
theorem along_of_condition (invariant : State → Prop)
    {condition relation : State → Label → State → Prop}
    (single : ∀ state label next, invariant state → machine.step state label = some next →
      condition state label next → invariant next ∧ relation state label next)
    {start : State} {labels : List Label} (initial : invariant start)
    (met : machine.Along condition start labels) : machine.Along relation start labels := by
  induction labels generalizing start with
  | nil => trivial
  | cons label rest ih =>
      intro next stepped
      obtain ⟨here, later⟩ := met next stepped
      obtain ⟨kept, holds⟩ := single _ _ _ initial stepped here
      exact ⟨holds, ih kept later⟩

/-- A fact about single steps between states that all satisfy a property holds
of every transition of the run. -/
theorem along_of_throughout {property : State → Prop}
    {relation : State → Label → State → Prop}
    (single : ∀ state label next, property state → property next →
      machine.step state label = some next → relation state label next)
    {start : State} {labels : List Label}
    (holds : machine.Throughout property start labels) :
    machine.Along relation start labels := by
  induction labels generalizing start with
  | nil => trivial
  | cons label rest ih =>
      intro next stepped
      exact ⟨single _ _ _ holds.1 (holds.2 next stepped).start stepped, ih (holds.2 next stepped)⟩

/-- What every step does is done by every transition of a run. -/
theorem along_of_step {relation : State → Label → State → Prop}
    (single : ∀ state label next, machine.step state label = some next → relation state label next)
    (start : State) (labels : List Label) : machine.Along relation start labels := by
  induction labels generalizing start with
  | nil => trivial
  | cons label rest ih =>
      intro next stepped
      exact ⟨single start label next stepped, ih next⟩

/-- Two relations that agree on the transitions from states with a property hold
along the same runs through such states. -/
theorem along_congr {property : State → Prop} {left right : State → Label → State → Prop}
    (agree : ∀ state label next, property state → machine.step state label = some next →
      (left state label next ↔ right state label next))
    {start : State} {labels : List Label} (holds : machine.Throughout property start labels) :
    machine.Along left start labels ↔ machine.Along right start labels := by
  induction labels generalizing start with
  | nil => exact Iff.rfl
  | cons label rest ih =>
      refine forall_congr' fun next => forall_congr' fun stepped => ?_
      exact and_congr (agree _ _ _ holds.1 stepped) (ih (holds.2 next stepped))

/-- Exactness of a step condition. `strong` is what is known of a state as long
as the run went well: it decides by the condition alone whether the next state
has the property, and the condition keeps it. -/
theorem throughout_iff_along (strong : State → Prop) {property : State → Prop}
    {condition : State → Label → State → Prop}
    (decides : ∀ state label next, strong state → machine.step state label = some next →
      (property next ↔ condition state label next))
    (keeps : ∀ state label next, strong state → machine.step state label = some next →
      condition state label next → strong next)
    {start : State} {labels : List Label} (initial : strong start) (good : property start) :
    machine.Throughout property start labels ↔ machine.Along condition start labels := by
  induction labels generalizing start with
  | nil => exact iff_of_true good trivial
  | cons label rest ih =>
      constructor
      · rintro ⟨_, later⟩ next stepped
        have goodNext : property next := (later next stepped).start
        have here := (decides _ _ _ initial stepped).mp goodNext
        exact ⟨here, (ih (keeps _ _ _ initial stepped here) goodNext).mp (later next stepped)⟩
      · intro met
        refine ⟨good, fun next stepped => ?_⟩
        obtain ⟨here, later⟩ := met next stepped
        exact (ih (keeps _ _ _ initial stepped here) ((decides _ _ _ initial stepped).mpr here)).mpr
          later

/-- What is observed of the transitions that the labels take. -/
def observed {Output : Type w} (machine : Machine State Label) (output : State → Label → State → Output) :
    State → List Label → List Output
  | _, [] => []
  | state, label :: rest =>
    match machine.step state label with
    | none => []
    | some next => output state label next :: observed machine output next rest

/-- The invariant rule for what was observed so far. -/
theorem observed_invariant {Output : Type w} {output : State → Label → State → Output}
    {invariant : List Output → State → Prop} {condition : State → Label → State → Prop}
    (preserved : ∀ seen state label next, invariant seen state → machine.step state label = some next →
      condition state label next → invariant (seen ++ [output state label next]) next)
    {start finish : State} {labels : List Label} {seen : List Output} (initial : invariant seen start)
    (met : machine.Along condition start labels) (executed : machine.exec start labels = some finish) :
    invariant (seen ++ machine.observed output start labels) finish := by
  induction labels generalizing start seen with
  | nil =>
      rw [exec_nil, Option.some.injEq] at executed
      subst executed
      simpa [observed] using initial
  | cons label rest ih =>
      obtain ⟨next, stepped, later⟩ := exec_cons_iff.mp executed
      obtain ⟨here, met⟩ := met next stepped
      have kept := ih (preserved seen start label next initial stepped here) met later
      simpa [observed, stepped] using kept

/-- The labels themselves are what is observed of an enabled run by its labels. -/
theorem observed_labels {start finish : State} {labels : List Label}
    (executed : machine.exec start labels = some finish) :
    machine.observed (fun _ label _ => label) start labels = labels := by
  induction labels generalizing start with
  | nil => rfl
  | cons label rest ih =>
      obtain ⟨next, stepped, later⟩ := exec_cons_iff.mp executed
      simp [observed, stepped, ih later]

/-- The invariant rule for runs and the labels they took. -/
theorem history_invariant {invariant : List Label → State → Prop}
    (preserved : ∀ before state label next, invariant before state →
      machine.step state label = some next → invariant (before ++ [label]) next)
    {start finish : State} {labels : List Label} (initial : invariant [] start)
    (executed : machine.exec start labels = some finish) : invariant labels finish := by
  have always : machine.Along (fun _ _ _ => True) start labels :=
    along_of_step (fun _ _ _ _ => trivial) start labels
  have kept : invariant ([] ++ machine.observed (fun _ label _ => label) start labels) finish :=
    observed_invariant (fun before state label next holds stepped _ =>
      preserved before state label next holds stepped) initial always executed
  rwa [observed_labels executed] at kept

/-- The machine beside the labels that it took. -/
def recording (machine : Machine State Label) : Machine (List Label × State) Label where
  step recorded label := (machine.step recorded.2 label).map fun next => (recorded.1 ++ [label], next)

/-- The labels beside a machine are those it took. -/
theorem recording_exec {start finish : State} {before labels : List Label}
    (executed : machine.exec start labels = some finish) :
    machine.recording.exec (before, start) labels = some (before ++ labels, finish) := by
  induction labels generalizing start before with
  | nil =>
      rw [exec_nil, Option.some.injEq] at executed
      rw [exec_nil, List.append_nil, executed]
  | cons label rest ih =>
      obtain ⟨next, stepped, later⟩ := exec_cons_iff.mp executed
      refine exec_cons_iff.mpr ⟨(before ++ [label], next), by simp [recording, stepped], ?_⟩
      rw [ih later, List.append_assoc, List.singleton_append]

/-- They do not matter to what is said of the machine alone. -/
theorem along_recording {relation : State → Label → State → Prop} {start : State} {before labels : List Label} :
    machine.recording.Along (fun recorded label next => relation recorded.2 label next.2) (before, start) labels ↔
      machine.Along relation start labels := by
  induction labels generalizing start before with
  | nil => exact Iff.rfl
  | cons label rest ih =>
      constructor
      · intro holds next stepped
        obtain ⟨here, later⟩ := holds (before ++ [label], next) (by simp [recording, stepped])
        exact ⟨here, ih.mp later⟩
      · intro holds recorded stepped
        obtain ⟨next, taken, rfl⟩ := Option.map_eq_some_iff.mp stepped
        obtain ⟨here, later⟩ := holds next taken
        exact ⟨here, ih.mpr later⟩

/-- What holds of the machine throughout does so beside its labels. -/
theorem throughout_recording {property : State → Prop} {start : State} {before labels : List Label} :
    machine.recording.Throughout (fun recorded => property recorded.2) (before, start) labels ↔
      machine.Throughout property start labels := by
  induction labels generalizing start before with
  | nil => exact Iff.rfl
  | cons label rest ih =>
      refine and_congr_right fun _ => ?_
      constructor
      · intro holds next stepped
        exact ih.mp (holds (before ++ [label], next) (by simp [recording, stepped]))
      · intro holds recorded stepped
        obtain ⟨next, taken, rfl⟩ := Option.map_eq_some_iff.mp stepped
        exact ih.mpr (holds next taken)

/-- How many of the transitions that the labels take are counted. -/
def countAlong (machine : Machine State Label) (counted : State → Label → Bool) :
    State → List Label → Nat
  | _, [] => 0
  | state, label :: rest =>
    match machine.step state label with
    | none => 0
    | some next => (counted state label).toNat + countAlong machine counted next rest

/-- Counting by a potential: a counted transition uses up some of it, and only a
transition that is paid for adds to it, so what is counted is bounded by the
potential at the start and what was paid. -/
theorem countAlong_le (invariant : State → Prop) (potential : State → Nat)
    {counted paid : State → Label → Bool} {condition : State → Label → State → Prop}
    (single : ∀ state label next, invariant state → machine.step state label = some next →
      condition state label next → invariant next ∧
        (counted state label).toNat + potential next ≤ potential state + (paid state label).toNat)
    {start : State} {labels : List Label} (initial : invariant start)
    (met : machine.Along condition start labels) :
    machine.countAlong counted start labels ≤ potential start + machine.countAlong paid start labels := by
  induction labels generalizing start with
  | nil => exact Nat.zero_le _
  | cons label rest ih =>
      simp only [countAlong]
      split
      · exact Nat.zero_le _
      · rename_i next stepped
        obtain ⟨here, later⟩ := met next stepped
        obtain ⟨kept, used⟩ := single start label next initial stepped here
        have bounded := ih kept later
        omega

end Machine
end Semantics
