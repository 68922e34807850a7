import EDBus.Lifecycle.System

/-!
# What the systems give back

The law of connman, bluez and ofono. Their strings are as they were after the last `shutdown`, and with the
first two everything else but the types of the events.
-/

namespace EDBus.Lifecycle

open EDBus.Elements EDBus.Semantics

section System

variable {accepts : CallId → Bool} {family : Family} {others : Others} {module : Module} {steps : SystemSteps}

/-- What connman and bluez give back besides their strings. -/
structure Rest where
  conn : Option Nat
  cbNameOwnerChanged : Bool
  pendingGetNameOwner : Bool
  uniqueName : Option String
  table : Bool
  logDomains : List (String × Int)
  handlers : Nat
  calls : Nat
deriving DecidableEq, Repr

/-- All this of a system. -/
def Module.rest (module : Module) : Rest where
  conn := module.conn
  cbNameOwnerChanged := module.cbNameOwnerChanged
  pendingGetNameOwner := module.system.pendingGetNameOwner
  uniqueName := module.system.uniqueName
  table := module.table
  logDomains := module.services.logDomains
  handlers := module.services.handlers
  calls := module.services.calls

/-- The shutdown does more than to give the strings back. -/
def Complete (family : Family) : Prop := family ≠ .ofono

instance (family : Family) : Decidable (Complete family) := inferInstanceAs (Decidable (_ ≠ _))

/-- What should be as it was. -/
structure SystemView where
  initCount : Nat
  strings : List (Option String)
  shares : Holdings String
  rest : Option Rest

/-- The types of the events are kept. -/
def systemView (family : Family) (module : Module) : SystemView where
  initCount := module.initCount
  strings := module.strings
  shares := module.services.shares
  rest := if Complete family then some module.rest else none

/-- What an initialised system has. -/
def FullSystem (family : Family) (_ : Module) (steps : SystemSteps) (after : Module) : Prop :=
  after.logDom = domainId steps.logDom ∧ (logDomainName family, after.logDom) ∈ after.services.logDomains ∧
    (∀ type ∈ after.eventTypes, type ≠ 0) ∧ after.strings = (sharedStrings family).map some ∧
    after.conn = steps.conn ∧ after.cbNameOwnerChanged = steps.handlerAdded ∧
    after.system.pendingGetNameOwner = steps.asked ∧ after.table = true

/-- What is expected. A shutdown of a system that is not initialised is refused, and not counted. -/
def systemContract (accepts : CallId → Bool) (family : Family) :
    Semantics.Contract (systemLibrary accepts family) SystemView where
  reports result := result ≠ 2 ^ 32 - 1
  fails module steps := module.initCount = 0 ∧ steps.logDom = none
  Full := FullSystem family
  view := systemView family
  counts module := 0 < module.initCount

/-- The first `init` gets its log domain, and the users can be counted. -/
def systemRegular (module : Module) : Semantics.Call SystemSteps Message → Prop
  | .init steps => (module.initCount = 0 → steps.logDom ≠ none) ∧ module.initCount + 1 < 2 ^ 32 - 1
  | _ => True

/-- What the bus has of a system, and its log domain and table. -/
structure Module.Follows (module : Module) (others : Others) : Prop where
  handlers : module.services.handlers = module.cbNameOwnerChanged.toNat
  calls : module.services.calls = module.system.pendingGetNameOwner.toNat
  domain : ∃ name, module.services.logDomains = (name, module.logDom) :: others.logDomains
  table : module.table = true

/-- What an initialised system has that it gives back. -/
structure Module.Holds (module : Module) (family : Family) (others : Others) : Prop where
  strings : module.strings = (sharedStrings family).map some
  shares : module.services.shares = others.shares.acquireAll (sharedStrings family)
  follows : Complete family → module.Follows others

/-- The number of users does not matter. -/
theorem Module.Holds.recount (holds : module.Holds family others) (count : Nat) :
    ({ module with initCount := count } : Module).Holds family others := by
  refine ⟨holds.strings, holds.shares, fun complete => ?_⟩
  have follows := holds.follows complete
  exact ⟨follows.handlers, follows.calls, follows.domain, follows.table⟩

theorem systemView_start {count : Nat} (isCount : module.initCount = count)
    (strings : module.strings = (sharedStrings family).map fun _ => none)
    (shares : module.services.shares = others.shares)
    (rest : Complete family → module.rest = (Module.start family others).rest) :
    systemView family module = { systemView family (Module.start family others) with initCount := count } := by
  unfold systemView
  by_cases complete : Complete family
  · simp [complete, isCount, strings, shares, rest complete, Module.start]
  · simp [complete, isCount, strings, shares, Module.start]

/-- A system that looks as it did before its first `init`. -/
theorem viewed_start (same : systemView family module = systemView family (Module.start family others)) :
    module.strings = ((sharedStrings family).map fun _ => none) ∧ module.services.shares = others.shares ∧
      (Complete family → module.rest = (Module.start family others).rest) := by
  refine ⟨congrArg SystemView.strings same, congrArg SystemView.shares same, fun complete => ?_⟩
  have rest := congrArg SystemView.rest same
  simpa [systemView, complete] using rest

/-! ## One call -/

theorem systemInit_again (used : 0 < module.initCount) (bounded : module.initCount + 1 < 2 ^ 32 - 1) :
    systemInit family module steps =
      ({ module with initCount := module.initCount + 1 }, ((module.initCount + 1 : Nat) : Int)) := by
  have fits : (module.initCount + 1) % 2 ^ 32 = module.initCount + 1 := Nat.mod_eq_of_lt (by omega)
  simp only [systemInit, fits]
  exact if_pos (by omega)

/-- The first user. -/
theorem systemInit_first (unused : module.initCount = 0) {id : Nat} (logDom : steps.logDom = some id) :
    systemInit family module steps =
      ((({ module with initCount := 1 } : Module).domainRegister family (some id)).opened family steps, 1) := by
  have registered : ¬ (({ module with initCount := 1 } : Module).domainRegister family (some id)).logDom < 0 :=
    domainId_nonneg id
  simp only [systemInit, unused, logDom]
  simp [registered]

theorem systemShutdown_fewer (used : 1 < module.initCount) :
    systemShutdown family module =
      ({ module with initCount := module.initCount - 1 }, ((module.initCount - 1 : Nat) : Int)) := by
  have there : module.initCount ≠ 0 := by omega
  simp only [systemShutdown, if_neg there]
  exact if_pos (by omega)

theorem systemShutdown_refused (unused : module.initCount = 0) : systemShutdown family module = (module, 0) :=
  if_pos unused

/-- What a system that was shut down gets. -/
theorem opened_holds (unused : systemView family module = systemView family (Module.start family others))
    {id : Nat} (logDom : steps.logDom = some id) {opened : Module}
    (isOpened : opened =
      (({ module with initCount := 1 } : Module).domainRegister family (some id)).opened family steps) :
    opened.initCount = 1 ∧ FullSystem family module steps opened ∧ opened.Holds family others := by
  obtain ⟨strings, shares, rest⟩ := viewed_start unused
  have fresh : ((({ module with initCount := 1 } : Module).domainRegister family (some id)).eventTypesNew).strings =
      (sharedStrings family).map fun _ => none := strings
  have shared : ((({ module with initCount := 1 } : Module).domainRegister family (some id)).eventTypesNew).services.shares =
      others.shares := shares
  rw [Module.opened, stringshareAdd_fresh _ fresh, elementsInit_eq, shared] at isOpened
  subst isOpened
  refine ⟨rfl, ⟨?_, ?_, ?_, rfl, rfl, rfl, rfl, rfl⟩, ⟨rfl, rfl, fun complete => ⟨?_, ?_, ?_, rfl⟩⟩⟩
  · exact logDom ▸ rfl
  · change (_, domainId (some id)) ∈ logDomainRegister module.services.logDomains (logDomainName family) (some id)
    rw [logDomainRegister_some]
    exact List.mem_cons_self
  · exact eventTypesNew_nonzero _ _
  · have none : module.services.handlers = 0 := congrArg Rest.handlers (rest complete)
    exact (congrArg (· + steps.handlerAdded.toNat) none).trans (Nat.zero_add _)
  · have none : module.services.calls = 0 := congrArg Rest.calls (rest complete)
    have unasked : module.services.calls - module.system.pendingGetNameOwner.toNat = 0 := by omega
    exact (congrArg (· + steps.asked.toNat) unasked).trans (Nat.zero_add _)
  · have domains : module.services.logDomains = others.logDomains := congrArg Rest.logDomains (rest complete)
    exact ⟨logDomainName family, domains ▸ logDomainRegister_some _ _ _⟩

/-- No owner is known any more. -/
theorem ownerForget_spec (module : Module) :
    ∃ system, module.ownerForget = { module with system := system } ∧ system.uniqueName = none ∧
      system.pendingGetNameOwner = module.system.pendingGetNameOwner := by
  unfold Module.ownerForget
  split
  · exact ⟨_, rfl, rfl, rfl⟩
  · next unknown => exact ⟨module.system, rfl, by simpa using unknown, rfl⟩

/-- What connman and bluez give back. -/
theorem closed_rest (family : Family) (follows : module.Follows others) :
    module.closed.rest = (Module.start family others).rest ∧ module.closed.initCount = module.initCount ∧
      module.closed.strings = module.strings ∧ module.closed.services.shares = module.services.shares := by
  obtain ⟨name, domains⟩ := follows.domain
  obtain ⟨system, forgotten, unknown, pending⟩ := ownerForget_spec module.pendingCancel.signalHandlerDel
  have isThere : module.pendingCancel.signalHandlerDel.ownerForget.table = true := by
    rw [forgotten]
    exact follows.table
  have shut : module.pendingCancel.signalHandlerDel.ownerForget.elementsShutdown =
      { module.pendingCancel.signalHandlerDel.ownerForget with
        table := false
        system :=
          { module.pendingCancel.signalHandlerDel.ownerForget.system with
            elements := clearElements module.pendingCancel.signalHandlerDel.ownerForget.system.elements } } :=
    if_pos isThere
  have closed : module.closed.rest =
      ⟨none, false, system.pendingGetNameOwner, system.uniqueName, false,
        logDomainUnregister module.services.logDomains module.logDom,
        module.services.handlers - module.cbNameOwnerChanged.toNat,
        module.services.calls - module.system.pendingGetNameOwner.toNat⟩ := by
    rw [Module.closed, shut, forgotten]
    rfl
  refine ⟨?_, ?_, ?_, ?_⟩
  · rw [closed, unknown, pending, domains, logDomainUnregister_cons, follows.handlers, follows.calls,
      Nat.sub_self, Nat.sub_self]
    rfl
  all_goals
    rw [Module.closed, shut, forgotten]
    rfl

/-- The last user. -/
theorem systemShutdown_last (single : module.initCount = 1) (holds : module.Holds family others) :
    (systemShutdown family module).1.initCount = 0 ∧
      systemView family (systemShutdown family module).1 = systemView family (Module.start family others) := by
  have deleted : ({ module with initCount := 0 } : Module).stringshareDel = _ :=
    stringshareDel_held holds.strings holds.shares
  have ofonoShutdown : (systemShutdown .ofono module).1 = ({ module with initCount := 0 } : Module).stringshareDel := by
    simp [systemShutdown, single]
  have completeShutdown : Complete family →
      (systemShutdown family module).1 = ({ module with initCount := 0 } : Module).stringshareDel.closed := by
    intro complete
    cases family with
    | ofono => exact absurd rfl complete
    | connman => simp [systemShutdown, single]
    | bluez => simp [systemShutdown, single]
  by_cases complete : Complete family
  · rw [completeShutdown complete]
    have follows : ({ module with initCount := 0 } : Module).stringshareDel.Follows others :=
      ⟨(holds.follows complete).handlers, (holds.follows complete).calls, (holds.follows complete).domain,
        (holds.follows complete).table⟩
    obtain ⟨rest, initCount, strings, shares⟩ := closed_rest family follows
    refine ⟨initCount, systemView_start initCount ?_ ?_ fun _ => rest⟩
    · rw [strings, deleted]
    · rw [shares, deleted]
  · obtain rfl : family = .ofono := not_not.mp complete
    rw [ofonoShutdown]
    refine ⟨rfl, systemView_start rfl ?_ ?_ fun isComplete => absurd isComplete complete⟩
    · rw [deleted]
    · rw [deleted]

/-- Nothing reaches a system that looks as it did before its first `init`. -/
theorem deliver_unused {message : Message} {after : Module}
    (unused : systemView family module = systemView family (Module.start family others))
    (delivered : module.deliver accepts family message = some after) :
    after.initCount = module.initCount ∧ systemView family after = systemView family module := by
  obtain ⟨system, calls, rfl, -⟩ := deliver_spec delivered
  refine ⟨rfl, ?_⟩
  by_cases complete : Complete family
  · have rest := (viewed_start unused).2.2 complete
    obtain ⟨elements, same⟩ := deliver_elements (congrArg Rest.handlers rest) (congrArg Rest.calls rest) delivered
    rw [same]
    rfl
  · simp [systemView, complete]

/-- An initialised system keeps what it has. -/
theorem deliver_used {message : Message} {after : Module} (holds : module.Holds family others)
    (delivered : module.deliver accepts family message = some after) :
    after.initCount = module.initCount ∧ after.Holds family others := by
  obtain ⟨system, calls, rfl, call⟩ := deliver_spec delivered
  refine ⟨rfl, holds.strings, holds.shares, fun complete => ?_⟩
  have follows := holds.follows complete
  refine ⟨follows.handlers, ?_, follows.domain, follows.table⟩
  rcases call with ⟨same, pending⟩ | ⟨waiting, one, pending⟩
  · exact (same.trans follows.calls).trans (congrArg Bool.toNat pending).symm
  · have none : calls = 0 := by
      have most := Bool.toNat_le module.system.pendingGetNameOwner
      have isCalls := follows.calls
      omega
    exact none.trans (congrArg Bool.toNat pending).symm

/-- The calls of a system, one by one, and its messages. -/
def systemLaw (accepts : CallId → Bool) (family : Family) (others : Others) :
    (systemContract accepts family).Law (Module.start family others) systemRegular where
  Held module := module.Holds family others
  origin := rfl
  counted module used := decide_eq_true (Int.natCast_pos.mp used)
  failed module steps failing _ _ isRegular := absurd failing.2 (isRegular.1 failing.1)
  first module steps fine unused same _ := by
    have zero : module.initCount = 0 := Int.natCast_eq_zero.mp unused
    obtain ⟨id, logDom⟩ := Option.ne_none_iff_exists'.mp fun none => fine ⟨zero, none⟩
    have one : (systemLibrary accepts family).init module steps =
        ((({ module with initCount := 1 } : Module).domainRegister family (some id)).opened family steps, 1) :=
      systemInit_first zero logDom
    obtain ⟨counted, full, holds⟩ := opened_holds same logDom rfl
    rw [one]
    exact ⟨rfl, congrArg Nat.cast counted, full, holds⟩
  again module steps used held isRegular := by
    have positive : 0 < module.initCount := Int.natCast_pos.mp used
    have more : (systemLibrary accepts family).init module steps =
        ({ module with initCount := module.initCount + 1 }, ((module.initCount + 1 : Nat) : Int)) :=
      systemInit_again positive isRegular.2
    rw [more]
    refine ⟨fun failing => absurd failing.1 positive.ne', decide_eq_true ?_, rfl, ?_⟩
    · have bounded := isRegular.2
      omega
    · exact held.recount _
  fewer module used held := by
    have several : 1 < module.initCount := Int.ofNat_lt.mp used
    have less : (systemLibrary accepts family).shutdown module =
        ({ module with initCount := module.initCount - 1 }, ((module.initCount - 1 : Nat) : Int)) :=
      systemShutdown_fewer several
    rw [less]
    exact ⟨Int.ofNat_sub several.le, held.recount _⟩
  last module single held := by
    obtain ⟨zero, viewed⟩ := systemShutdown_last (Int.ofNat_inj.mp single) held
    exact ⟨congrArg Nat.cast zero, viewed⟩
  refused module unused same _ := by
    have zero : module.initCount = 0 := Int.natCast_eq_zero.mp unused
    have nothing : (systemLibrary accepts family).shutdown module = (module, 0) := systemShutdown_refused zero
    rw [nothing]
    exact ⟨decide_eq_false (by omega), unused, same⟩
  idle module message after unused same _ delivered := by
    obtain ⟨count, viewed⟩ := deliver_unused same delivered
    exact ⟨(congrArg Nat.cast count).trans unused, viewed.trans same⟩
  busy module message after _ held _ delivered := by
    obtain ⟨count, holds⟩ := deliver_used held delivered
    exact ⟨congrArg Nat.cast count, holds⟩

/-- Nothing but regular calls goes well. -/
theorem system_obeys_iff (accepts : CallId → Bool) (family : Family) (others : Others)
    (calls : List (Semantics.Call SystemSteps Message)) :
    (systemContract accepts family).Obeys (Module.start family others) calls ↔
      (systemContract accepts family).machine.Along (fun run call _ => systemRegular run.state call)
        (.start (Module.start family others)) calls := by
  refine (systemLaw accepts family others).obeys_iff ?_ calls
  intro run call next accounted stepped answers balanced
  cases call with
  | init steps =>
      obtain rfl := Option.some.inj stepped
      have counts : (systemInit family run.state steps).1.initCount = (run.state.initCount + 1) % 2 ^ 32 := by
        rcases systemInit_cases family run.state steps rfl with ⟨-, counted⟩ | ⟨-, -, failed⟩ | ⟨-, id, -, opened⟩
        · rw [counted]
        · rw [failed]
          rfl
        · rw [opened, Module.opened, elementsInit_eq]
          rfl
      have registers : run.state.initCount = 0 → steps.logDom ≠ none := by
        intro unused none
        have same : ((systemInit family run.state steps).1.initCount : Int) = run.state.initCount :=
          (answers.1 ⟨unused, none⟩).2.1
        rw [counts, unused] at same
        exact absurd same (by decide)
      refine ⟨registers, ?_⟩
      have fine : ¬ (run.state.initCount = 0 ∧ steps.logDom = none) := fun fails => registers fails.1 fails.2
      obtain ⟨reported, more, -⟩ := answers.2 fine
      have next : ((systemInit family run.state steps).1.initCount : Int) = run.state.initCount + 1 := more
      rw [counts] at next
      have bounded : run.state.initCount + 1 < 2 ^ 32 := by omega
      by_contra large
      have last : run.state.initCount + 1 = 2 ^ 32 - 1 := by omega
      have result : (systemInit family run.state steps).2 = 2 ^ 32 - 1 := by
        simp only [systemInit, last]
        rfl
      have denied : (systemInit family run.state steps).2 ≠ 2 ^ 32 - 1 := of_decide_eq_true reported
      exact denied result
  | shutdown => trivial
  | event message => trivial

end System

end EDBus.Lifecycle
