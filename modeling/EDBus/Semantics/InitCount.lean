import EDBus.Semantics.Execution

/-!
# Counted initialisation

A library counts its users: every `init` is one more, every `shutdown` one less, and the first and the
last of them do the work. A `Contract` says what is expected of such a library over a run of calls, in
which any step that an `init` takes may fail. `obeys_of_law` reduces it to what single calls do.
-/

namespace Semantics

universe u v w x

/-- A library with its `init` and its `shutdown`. An `init` is given what the steps that it takes will
return. `event` is what else may happen. -/
structure Counted (State : Type u) (Steps : Type v) (Event : Type w) where
  init : State → Steps → State × Int
  shutdown : State → State × Int
  event : State → Event → Option State
  count : State → Int

/-- A call of a library, or an event. -/
inductive Call (Steps : Type v) (Event : Type w) where
  | init (steps : Steps)
  | shutdown
  | event (event : Event)

namespace Counted

variable {State : Type u} {Steps : Type v} {Event : Type w}

/-- The state after a call. -/
def act (library : Counted State Steps Event) (state : State) : Call Steps Event → Option State
  | .init steps => some (library.init state steps).1
  | .shutdown => some (library.shutdown state).1
  | .event event => library.event state event

/-- A library as a machine. -/
def machine (library : Counted State Steps Event) : Machine State (Call Steps Event) := ⟨library.act⟩

end Counted

/-- What is expected of a library. `reports` tells from the result of an `init` that it succeeded,
`fails` that a step which it takes fails, and `Full` is what a full initialisation does. The `view` is
what has to return to its initial value, and `counts` tells which calls of `shutdown` are counted. -/
structure Contract {State : Type u} {Steps : Type v} {Event : Type w} (library : Counted State Steps Event)
    (View : Type x) where
  reports : Int → Bool
  fails : State → Steps → Prop
  Full : State → Steps → State → Prop
  view : State → View
  counts : State → Bool

/-- A library, and how many calls of `init` succeeded and of `shutdown` were counted. -/
structure Run (State : Type u) where
  state : State
  inits : Nat
  shutdowns : Nat

/-- Before the first call. -/
def Run.start {State : Type u} (state : State) : Run State := ⟨state, 0, 0⟩

namespace Contract

variable {State : Type u} {Steps : Type v} {Event : Type w} {View : Type x}
  {library : Counted State Steps Event}

/-- The next call. -/
def step (contract : Contract library View) (run : Run State) : Call Steps Event → Option (Run State)
  | .init steps => some
      { run with
        state := (library.init run.state steps).1
        inits := run.inits + (contract.reports (library.init run.state steps).2).toNat }
  | .shutdown => some
      { run with
        state := (library.shutdown run.state).1
        shutdowns := run.shutdowns + (contract.counts run.state).toNat }
  | .event event => (library.event run.state event).map fun after => { run with state := after }

/-- Runs of a library as a machine. -/
def machine (contract : Contract library View) : Machine (Run State) (Call Steps Event) := ⟨contract.step⟩

/-- An `init` with a step that fails says so, and has neither counted nor kept anything. Any other one
succeeds, and initialises the library in full if it was shut down. -/
def Answers (contract : Contract library View) (before : Run State) :
    Call Steps Event → Run State → Prop
  | .init steps, after =>
    (contract.fails before.state steps →
      contract.reports (library.init before.state steps).2 = false ∧
        library.count after.state = library.count before.state ∧
        contract.view after.state = contract.view before.state) ∧
    (¬ contract.fails before.state steps →
      contract.reports (library.init before.state steps).2 = true ∧
        library.count after.state = library.count before.state + 1 ∧
        (library.count before.state = 0 → contract.Full before.state steps after.state))
  | _, _ => True

/-- The counter is not negative, and what was initialised as often as it was shut down is as it was. -/
def Balanced (contract : Contract library View) (start : State) (run : Run State) : Prop :=
  0 ≤ library.count run.state ∧
    (run.inits = run.shutdowns → contract.view run.state = contract.view start)

/-- All calls do what is expected of them. -/
structure Obeys (contract : Contract library View) (start : State) (calls : List (Call Steps Event)) :
    Prop where
  answers : contract.machine.Along contract.Answers (.start start) calls
  balanced : contract.machine.Throughout (contract.Balanced start) (.start start) calls

/-! ## From calls to runs -/

/-- What single calls do, if they are regular. `Held` is what a library that is initialised has. -/
structure Law (contract : Contract library View) (start : State)
    (regular : State → Call Steps Event → Prop) where
  Held : State → Prop
  origin : library.count start = 0
  counted : ∀ state, 0 < library.count state → contract.counts state = true
  failed : ∀ state steps, contract.fails state steps → library.count state = 0 →
    contract.view state = contract.view start → regular state (.init steps) →
    contract.reports (library.init state steps).2 = false ∧
      library.count (library.init state steps).1 = 0 ∧
      contract.view (library.init state steps).1 = contract.view state
  first : ∀ state steps, ¬ contract.fails state steps → library.count state = 0 →
    contract.view state = contract.view start → regular state (.init steps) →
    contract.reports (library.init state steps).2 = true ∧
      library.count (library.init state steps).1 = 1 ∧
      contract.Full state steps (library.init state steps).1 ∧ Held (library.init state steps).1
  again : ∀ state steps, 0 < library.count state → Held state → regular state (.init steps) →
    ¬ contract.fails state steps ∧ contract.reports (library.init state steps).2 = true ∧
      library.count (library.init state steps).1 = library.count state + 1 ∧
      Held (library.init state steps).1
  fewer : ∀ state, 1 < library.count state → Held state →
    library.count (library.shutdown state).1 = library.count state - 1 ∧ Held (library.shutdown state).1
  last : ∀ state, library.count state = 1 → Held state →
    library.count (library.shutdown state).1 = 0 ∧
      contract.view (library.shutdown state).1 = contract.view start
  refused : ∀ state, library.count state = 0 → contract.view state = contract.view start →
    regular state .shutdown → contract.counts state = false ∧
      library.count (library.shutdown state).1 = 0 ∧
      contract.view (library.shutdown state).1 = contract.view start
  idle : ∀ state event after, library.count state = 0 → contract.view state = contract.view start →
    regular state (.event event) → library.event state event = some after →
    library.count after = 0 ∧ contract.view after = contract.view start
  busy : ∀ state event after, 0 < library.count state → Held state → regular state (.event event) →
    library.event state event = some after → library.count after = library.count state ∧ Held after

variable {contract : Contract library View} {start : State} {regular : State → Call Steps Event → Prop}

/-- The counter is right, and the library has what it needs as long as it is initialised. -/
inductive Law.Accounted (law : contract.Law start regular) (run : Run State) : Prop where
  | idle (count : library.count run.state = 0) (same : run.inits = run.shutdowns)
      (view : contract.view run.state = contract.view start)
  | busy (positive : 0 < library.count run.state)
      (count : library.count run.state = run.inits - run.shutdowns) (held : law.Held run.state)

namespace Law

variable {law : contract.Law start regular} {run next : Run State}

theorem Accounted.balanced (accounted : law.Accounted run) : contract.Balanced start run := by
  cases accounted with
  | idle count same view => exact ⟨count.ge, fun _ => view⟩
  | busy positive count held =>
      refine ⟨positive.le, fun same => ?_⟩
      omega

/-- An `init` keeps the account, and answers as it should. -/
theorem Accounted.init (accounted : law.Accounted run) (steps : Steps)
    (isRegular : regular run.state (.init steps)) (stepped : contract.step run (.init steps) = some next) :
    law.Accounted next ∧ contract.Answers run (.init steps) next := by
  obtain rfl := Option.some.inj stepped
  cases accounted with
  | idle count same view =>
      by_cases failing : contract.fails run.state steps
      · obtain ⟨reported, unchanged, viewed⟩ := law.failed _ _ failing count view isRegular
        refine ⟨.idle unchanged ?_ (viewed.trans view),
          fun _ => ⟨reported, unchanged.trans count.symm, viewed⟩, fun fine => absurd failing fine⟩
        simpa [reported] using same
      · obtain ⟨reported, one, full, held⟩ := law.first _ _ failing count view isRegular
        refine ⟨.busy (one ▸ Int.one_pos) ?_ held, fun fails => absurd fails failing,
          fun _ => ⟨reported, ?_, fun _ => full⟩⟩
        · simp only [one, reported, same, Bool.toNat_true]
          omega
        · simp only [one, count]
          rfl
  | busy positive count held =>
      obtain ⟨fine, reported, more, heldNext⟩ := law.again _ _ positive held isRegular
      refine ⟨.busy ?_ ?_ heldNext, fun fails => absurd fails fine,
        fun _ => ⟨reported, more, fun none => absurd none positive.ne'⟩⟩
      · simp only [more]
        omega
      · simp only [more, reported, count, Bool.toNat_true]
        omega

/-- A `shutdown` keeps the account. -/
theorem Accounted.shutdown (accounted : law.Accounted run) (isRegular : regular run.state .shutdown)
    (stepped : contract.step run .shutdown = some next) : law.Accounted next := by
  obtain rfl := Option.some.inj stepped
  cases accounted with
  | idle count same view =>
      obtain ⟨uncounted, zero, viewed⟩ := law.refused _ count view isRegular
      refine .idle zero ?_ viewed
      simpa [uncounted] using same
  | busy positive count held =>
      have counted := law.counted _ positive
      by_cases single : library.count run.state = 1
      · obtain ⟨zero, viewed⟩ := law.last _ single held
        refine .idle zero ?_ viewed
        simp only [counted, Bool.toNat_true]
        omega
      · obtain ⟨less, heldNext⟩ := law.fewer _ (by omega) held
        refine .busy ?_ ?_ heldNext
        · simp only [less]
          omega
        · simp only [less, counted, count, Bool.toNat_true]
          omega

/-- An event keeps the account. -/
theorem Accounted.event (accounted : law.Accounted run) (event : Event)
    (isRegular : regular run.state (.event event))
    (stepped : contract.step run (.event event) = some next) : law.Accounted next := by
  obtain ⟨after, happened, rfl⟩ := Option.map_eq_some_iff.mp stepped
  cases accounted with
  | idle count same view =>
      obtain ⟨zero, viewed⟩ := law.idle _ _ _ count view isRegular happened
      exact .idle zero same viewed
  | busy positive count held =>
      obtain ⟨unchanged, heldNext⟩ := law.busy _ _ _ positive held isRegular happened
      exact .busy (unchanged ▸ positive) (unchanged.trans count) heldNext

theorem Accounted.step (accounted : law.Accounted run) (call : Call Steps Event)
    (stepped : contract.step run call = some next) (isRegular : regular run.state call) :
    law.Accounted next ∧ contract.Answers run call next := by
  cases call with
  | init steps => exact accounted.init steps isRegular stepped
  | shutdown => exact ⟨accounted.shutdown isRegular stepped, trivial⟩
  | event event => exact ⟨accounted.event event isRegular stepped, trivial⟩

/-- If all calls are regular, the account is right in every state. -/
theorem accounted (law : contract.Law start regular) {calls : List (Call Steps Event)}
    (met : contract.machine.Along (fun run call _ => regular run.state call) (.start start) calls) :
    contract.machine.Throughout law.Accounted (.start start) calls :=
  Machine.throughout_of_along
    (fun _ call _ accounted stepped isRegular => (accounted.step call stepped isRegular).1)
    (.idle law.origin rfl rfl) met

/-- If all calls are regular, the library does what is expected of it. -/
theorem obeys (law : contract.Law start regular) {calls : List (Call Steps Event)}
    (met : contract.machine.Along (fun run call _ => regular run.state call) (.start start) calls) :
    contract.Obeys start calls where
  answers := Machine.along_of_condition law.Accounted
    (fun _ call _ accounted stepped isRegular => accounted.step call stepped isRegular)
    (.idle law.origin rfl rfl) met
  balanced := (law.accounted met).mono fun _ accounted => accounted.balanced

/-- If a call that is not regular shows at once, regular runs are the only ones that go well. -/
theorem obeys_iff (law : contract.Law start regular)
    (shows : ∀ run call next, law.Accounted run → contract.step run call = some next →
      contract.Answers run call next → contract.Balanced start next → regular run.state call)
    (calls : List (Call Steps Event)) :
    contract.Obeys start calls ↔
      contract.machine.Along (fun run call _ => regular run.state call) (.start start) calls := by
  refine ⟨fun obeys => ?_, law.obeys⟩
  have balanced : contract.machine.Along (fun _ _ next => contract.Balanced start next) (.start start) calls :=
    Machine.along_of_throughout (fun _ _ _ _ later _ => later) obeys.balanced
  refine Machine.along_of_condition law.Accounted ?_ (.idle law.origin rfl rfl) (obeys.answers.and balanced)
  intro run call next accounted stepped went
  have isRegular := shows run call next accounted stepped went.1 went.2
  exact ⟨(accounted.step call stepped isRegular).1, isRegular⟩

end Law
end Contract
end Semantics
