import EDBus.Lifecycle.SystemBalance

/-!
# The shutdown of ofono

A system that is shut down should be as if it had never been initialised. That of connman and that of bluez
release what they have; that of ofono does so only if it never got its log domain, which is when it
never had anything. `shutDown_iff` says so of every run.
-/

namespace EDBus.Lifecycle

open EDBus.Elements EDBus.Semantics

variable {accepts : CallId → Bool} {family : Family} {others : Others} {module next : Module}

/-- A system as a machine. -/
def systemMachine (accepts : CallId → Bool) (family : Family) :
    Semantics.Machine Module (Semantics.Call SystemSteps Message) := (systemLibrary accepts family).machine

/-- What is observed of a call or of a message: its result, how many callbacks it runs, the owner that is
known then, and the keys of the table. -/
structure Observation where
  result : Option Int
  invoked : Nat
  uniqueName : Option String
  keys : List String
deriving DecidableEq, Repr

/-- The observation of one of them. -/
def observation (family : Family) (before : Module) (call : Semantics.Call SystemSteps Message)
    (after : Module) : Observation where
  result :=
    match call with
    | .init steps => some (systemInit family before steps).2
    | .shutdown => some (systemShutdown family before).2
    | .event _ => none
  invoked :=
    match call with
    | .event message => before.invoked message
    | _ => 0
  uniqueName := after.system.uniqueName
  keys := after.system.elements.table.map Prod.fst

/-- Nothing of the system is left, and whatever happens, nothing reaches it about the owner of its name. -/
structure Released (accepts : CallId → Bool) (family : Family) (module : Module) : Prop where
  handler : module.cbNameOwnerChanged = false ∧ module.services.handlers = 0
  call : module.system.pendingGetNameOwner = false ∧ module.services.calls = 0
  table : module.table = false
  uniqueName : module.system.uniqueName = none
  unheard : ∀ messages : List Message, (systemMachine accepts family).Along
    (fun before call _ => ∀ message, call = .event message → (∀ label, message ≠ .module label) →
      before.invoked message = 0) module (messages.map Semantics.Call.event)

/-- The system is shut down: whatever happens, none of its callbacks runs, and its next `init` is the first
one, whatever comes after it. -/
structure ShutDown (accepts : CallId → Bool) (family : Family) (others : Others) (module : Module) : Prop where
  released : Released accepts family module
  quiet : ∀ messages : List Message, (systemMachine accepts family).Along
    (fun before call after => (observation family before call after).invoked = 0) module
    (messages.map Semantics.Call.event)
  fresh : ∀ steps calls,
    (systemMachine accepts family).observed (observation family) module (.init steps :: calls) =
      (systemMachine accepts family).observed (observation family) (Module.start family others)
        (.init steps :: calls)

/-- An `init` that registers the log domain fails to do so. -/
def Unregistered (module : Module) : Semantics.Call SystemSteps Message → Prop
  | .init steps => (module.initCount + 1) % 2 ^ 32 ≤ 1 → steps.logDom = none
  | _ => True

/-! ## Nothing reaches a system that is shut down -/

/-- Without a handler and a call, nothing is heard about the owner of the name. -/
theorem unheard_of_unused (handlers : module.services.handlers = 0) (calls : module.services.calls = 0)
    (messages : List Message) :
    (systemMachine accepts family).Along
      (fun before call _ => ∀ message, call = .event message → (∀ label, message ≠ .module label) →
        before.invoked message = 0) module (messages.map Semantics.Call.event) := by
  induction messages generalizing module with
  | nil => trivial
  | cons message rest ih =>
      intro next delivered
      obtain ⟨elements, same⟩ := deliver_elements handlers calls delivered
      refine ⟨?_, ih (same ▸ handlers) (same ▸ calls)⟩
      rintro _ ⟨⟩ aboutName
      cases message with
      | ownerChanged name previous next => exact handlers
      | ownerReply reply =>
          have refused : module.deliver accepts family (.ownerReply reply) = none := by
            simp [Module.deliver, calls]
          cases refused.symm.trans delivered
      | module label => exact absurd rfl (aboutName label)

/-- What has nothing is released. -/
theorem released_of_rest (rest : module.rest = (Module.start family others).rest) :
    Released accepts family module where
  handler := ⟨congrArg Rest.cbNameOwnerChanged rest, congrArg Rest.handlers rest⟩
  call := ⟨congrArg Rest.pendingGetNameOwner rest, congrArg Rest.calls rest⟩
  table := congrArg Rest.table rest
  uniqueName := congrArg Rest.uniqueName rest
  unheard := unheard_of_unused (congrArg Rest.handlers rest) (congrArg Rest.calls rest)

/-- What connman and bluez do: without a user, nothing of them is left. -/
theorem released_of_complete (complete : Complete family)
    {calls : List (Semantics.Call SystemSteps Message)}
    (regular : (systemContract accepts family).machine.Along (fun run call _ => systemRegular run.state call)
      (.start (Module.start family others)) calls)
    {run : Semantics.Run Module}
    (executed : (systemContract accepts family).machine.exec (.start (Module.start family others)) calls = some run)
    (unused : run.state.initCount = 0) : Released accepts family run.state := by
  have accounted := ((systemLaw accepts family others).accounted regular).finish executed
  cases accounted with
  | idle count same view => exact released_of_rest ((viewed_start view).2.2 complete)
  | busy positive count held => exact absurd unused (Int.natCast_pos.mp positive).ne'

/-! ## The table of ofono stays -/

/-- No call and no message takes the table away. -/
theorem table_kept (call : Semantics.Call SystemSteps Message) (isThere : module.table = true)
    (stepped : (systemMachine accepts .ofono).step module call = some next) : next.table = true := by
  cases call with
  | init steps =>
      have isNext : (systemInit .ofono module steps).1 = next := Option.some.inj stepped
      rcases systemInit_cases .ofono module steps rfl with ⟨-, counted⟩ | ⟨-, -, failed⟩ | ⟨-, id, -, opened⟩
      · rw [← isNext, counted]
        exact isThere
      · rw [← isNext, failed]
        exact isThere
      · rw [← isNext, opened, Module.opened, elementsInit_eq]
  | shutdown =>
      have isNext : (systemShutdown .ofono module).1 = next := Option.some.inj stepped
      rcases ofonoSystemShutdown_cases module with ⟨-, refused⟩ | ⟨-, counted⟩ | ⟨-, deleted⟩
      · rw [← isNext, refused]
        exact isThere
      · rw [← isNext, counted]
        exact isThere
      · rw [← isNext, deleted]
        exact isThere
  | event message =>
      obtain ⟨system, calls, rfl, -⟩ := deliver_spec stepped
      exact isThere

/-- An `init` that gets its log domain makes the table. -/
theorem table_made {call : Semantics.Call SystemSteps Message} (registered : ¬ Unregistered module call)
    (stepped : (systemMachine accepts .ofono).step module call = some next) : next.table = true := by
  cases call with
  | init steps =>
      obtain ⟨first, isSome⟩ := Classical.not_imp.mp registered
      have isNext : (systemInit .ofono module steps).1 = next := Option.some.inj stepped
      rcases systemInit_cases .ofono module steps rfl with ⟨used, -⟩ | ⟨-, none, -⟩ | ⟨-, id, -, opened⟩
      · exact absurd used (Nat.not_lt.mpr first)
      · exact absurd none isSome
      · rw [← isNext, opened, Module.opened, elementsInit_eq]
  | shutdown => exact absurd trivial registered
  | event message => exact absurd trivial registered

/-- A run that ends without a table never registered a log domain. -/
theorem unregistered_of_table {start final : Module} {calls : List (Semantics.Call SystemSteps Message)}
    (executed : (systemMachine accepts .ofono).exec start calls = some final) (none : final.table = false) :
    (systemMachine accepts .ofono).Along (fun module call _ => Unregistered module call) start calls := by
  induction calls generalizing start with
  | nil => trivial
  | cons call rest ih =>
      obtain ⟨next, stepped, later⟩ := Semantics.Machine.exec_cons_iff.mp executed
      refine (Semantics.Machine.along_cons stepped).mpr ⟨?_, ih later⟩
      by_contra registered
      have throughout : (systemMachine accepts .ofono).Throughout (fun module => module.table = true) next rest :=
        Semantics.Machine.throughout_of_preserved (fun _ call _ isThere stepped => table_kept call isThere stepped)
          rest (table_made registered stepped)
      have isThere : final.table = true := throughout.finish later
      exact Bool.false_ne_true (none.symm.trans isThere)

/-! ## Without a log domain -/

/-- The system is as it was, but for its users. -/
def Untouched (others : Others) (module : Module) : Prop :=
  module = { Module.start .ofono others with initCount := module.initCount }

/-- Without elements, there is nothing that can be done to one. -/
theorem initial_still {label : Label} (spares : needsTable label = false) :
    Elements.step accepts family State.initial label = none := by
  cases label <;> first
    | rfl
    | cases spares

/-- A system that has nothing hears nothing. -/
theorem Untouched.deliver (untouched : Untouched others module) {message : Message}
    (delivered : module.deliver accepts .ofono message = some next) :
    next = module ∧ module.invoked message = 0 := by
  rw [untouched] at delivered ⊢
  cases message with
  | ownerChanged name previous next =>
      simp only [Module.deliver, Option.ite_none_right_eq_some, Option.some.injEq] at delivered
      obtain ⟨-, rfl⟩ := delivered
      exact ⟨rfl, rfl⟩
  | ownerReply reply => simp [Module.deliver, Module.start] at delivered
  | module label =>
      simp only [Module.deliver, Option.ite_none_right_eq_some, Option.map_eq_some_iff] at delivered
      obtain ⟨⟨-, noTable, -⟩, elements, stepped, -⟩ := delivered
      have spares : needsTable label = false := noTable.resolve_right Bool.false_ne_true
      have still : elementsStep accepts .ofono (Module.start .ofono others).named State.initial label = none := by
        unfold elementsStep
        rw [initial_still spares]
        simp only [Option.map_none]
        split
        · rfl
        · split <;> rfl
      cases still.symm.trans stepped

theorem Untouched.quiet (untouched : Untouched others module) (messages : List Message) :
    (systemMachine accepts .ofono).Along
      (fun before call after => (observation .ofono before call after).invoked = 0) module
      (messages.map Semantics.Call.event) := by
  induction messages with
  | nil => trivial
  | cons message rest ih =>
      intro next delivered
      obtain ⟨rfl, nobody⟩ := untouched.deliver delivered
      exact ⟨nobody, ih⟩

theorem Untouched.step (untouched : Untouched others module) (call : Semantics.Call SystemSteps Message)
    (stepped : (systemMachine accepts .ofono).step module call = some next)
    (unregistered : Unregistered module call) : Untouched others next := by
  obtain ⟨count, rfl⟩ : ∃ count, module = { Module.start .ofono others with initCount := count } :=
    ⟨_, untouched⟩
  cases call with
  | init steps =>
      have isNext : (systemInit .ofono _ steps).1 = next := Option.some.inj stepped
      rcases systemInit_cases .ofono { Module.start .ofono others with initCount := count } steps rfl with
        ⟨-, counted⟩ | ⟨-, -, failed⟩ | ⟨first, id, registered, -⟩
      · rw [← isNext, counted]
        rfl
      · rw [← isNext, failed]
        rfl
      · exact absurd (registered.symm.trans (unregistered first)) nofun
  | shutdown =>
      have isNext : (systemShutdown .ofono _).1 = next := Option.some.inj stepped
      rcases ofonoSystemShutdown_cases { Module.start .ofono others with initCount := count } with
        ⟨-, refused⟩ | ⟨-, counted⟩ | ⟨-, deleted⟩
      · rw [← isNext, refused]
        rfl
      · rw [← isNext, counted]
        rfl
      · rw [← isNext, deleted]
        rfl
  | event message =>
      have untouched : Untouched others { Module.start .ofono others with initCount := count } := rfl
      obtain ⟨rfl, -⟩ := untouched.deliver stepped
      rfl

/-! ## Every run -/

/-- For any elements, owners and answers, and any calls before: when its last user shuts ofono down, it is
shut down if and only if it never got its log domain. -/
theorem shutDown_iff (accepts : CallId → Bool) (others : Others)
    (calls : List (Semantics.Call SystemSteps Message)) {before after : Module}
    (executed : (systemMachine accepts .ofono).exec (Module.start .ofono others) calls = some before)
    (single : before.initCount = 1)
    (stepped : (systemMachine accepts .ofono).step before .shutdown = some after) :
    ShutDown accepts .ofono others after ↔
      (systemMachine accepts .ofono).Along (fun module call _ => Unregistered module call)
        (Module.start .ofono others) calls := by
  constructor
  · intro shutDown
    refine unregistered_of_table executed ?_
    cases isThere : before.table with
    | false => rfl
    | true => exact absurd (shutDown.released.table.symm.trans (table_kept .shutdown isThere stepped)) nofun
  · intro met
    have throughout := Semantics.Machine.throughout_of_along
      (fun _ call _ untouched stepped unregistered => Untouched.step untouched call stepped unregistered)
      (show Untouched others (Module.start .ofono others) from rfl) met
    have untouched : Untouched others before := throughout.finish executed
    have isStart : after = Module.start .ofono others := by
      have kept : Untouched others after := untouched.step .shutdown stepped trivial
      have zero : after.initCount = 0 := by
        have isAfter : (systemShutdown .ofono before).1 = after := Option.some.inj stepped
        rw [← isAfter]
        simp [systemShutdown, single, Module.stringshareDel]
      rw [kept, zero]
      rfl
    subst isStart
    have start : Untouched others (Module.start .ofono others) := rfl
    exact ⟨released_of_rest rfl, start.quiet, fun _ _ => rfl⟩

/-- ofono gets its log domain, and hears of an owner before it is shut down, or gets none. -/
theorem shutDown_iff_registered :
    (∃ after, (systemMachine (fun _ => true) .ofono).exec (Module.start .ofono ⟨[], 0, fun _ => 0⟩)
        [.init ⟨some 0, some 0, true, true⟩, .event (.ownerReply (some ":1.4")), .shutdown] = some after ∧
      ¬ ShutDown (fun _ => true) .ofono ⟨[], 0, fun _ => 0⟩ after) ∧
    ShutDown (fun _ => true) .ofono ⟨[], 0, fun _ => 0⟩ (Module.start .ofono ⟨[], 0, fun _ => 0⟩) := by
  constructor
  · refine ⟨_, rfl, fun shutDown => ?_⟩
    have met := (shutDown_iff (fun _ => true) ⟨[], 0, fun _ => 0⟩
      [.init ⟨some 0, some 0, true, true⟩, .event (.ownerReply (some ":1.4"))] rfl rfl rfl).mp shutDown
    have unregistered := ((Semantics.Machine.along_cons rfl).mp met).1 (by decide)
    cases unregistered
  · exact (shutDown_iff (fun _ => true) ⟨[], 0, fun _ => 0⟩ [.init ⟨none, some 0, true, true⟩] rfl rfl rfl).mpr
      ((Semantics.Machine.along_cons rfl).mpr ⟨fun _ => rfl, trivial⟩)

/-- ofono is initialised once, and shut down at once. -/
theorem shutDown_fails :
    ¬ ∀ after, (systemMachine (fun _ => true) .ofono).exec (Module.start .ofono ⟨[], 0, fun _ => 0⟩)
      [.init ⟨some 0, some 0, true, true⟩, .shutdown] = some after →
      ShutDown (fun _ => true) .ofono ⟨[], 0, fun _ => 0⟩ after := by
  intro always
  have handlers := (always _ rfl).released.handler.2
  exact absurd handlers (by decide)

end EDBus.Lifecycle
