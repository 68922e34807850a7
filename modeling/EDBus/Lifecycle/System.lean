import EDBus.Elements.NameOwner
import EDBus.Lifecycle.Libraries
import EDBus.Semantics.Holdings
import Mathlib.Algebra.Group.Nat.Defs

/-!
# The systems of connman, bluez and ofono

Each of the three modules counts its users, and with the first of them registers a log domain and its
events, shares its strings, follows the owner of the service name and makes the table of its elements.
The first two take this back with the last user, the third only its strings.
-/

namespace EDBus.Lifecycle

open EDBus.Elements EDBus.Semantics

/-- The log domain of a system. -/
def logDomainName : Family → String
  | .connman => "e_dbus_connman"
  | .bluez => "e_dbus_bluez"
  | .ofono => "e_dbus_ofono"

/-- How many events a system has, from `MANAGER_IN` on. -/
def eventCount : Family → Nat
  | .connman => 5
  | .bluez => 6
  | .ofono => 5

/-- The strings that a system shares, in the order of its globals. -/
def sharedStrings : Family → List String
  | .connman =>
    ["net.connman.Manager", "net.connman.Profile", "net.connman.Service", "net.connman.Connection",
      "net.connman.Technology", "IPv4", "IPv4.Configuration", "Ethernet", "Interface", "Speed", "Duplex",
      "Method", "Address", "Gateway", "Netmask", "MTU", "Name", "OfflineMode", "Profiles", "ActiveProfile",
      "Services", "Technologies", "State", "Strength", "Type", "Error", "Security", "Passphrase",
      "PassphraseRequired", "LoginRequired", "Favorite", "Immutable", "AutoConnect", "Roaming",
      "DefaultTechnology", "AvailableTechnologies", "EnabledTechnologies", "ConnectedTechnologies",
      "Nameservers", "Nameservers.Configuration", "Domains", "Domains.Configuration", "Proxy",
      "Proxy.Configuration", "URL", "Servers", "Excludes"]
  | .bluez =>
    ["org.bluez.Manager", "org.bluez.Adapter", "org.bluez.Device", "Address", "Name", "Alias", "Class",
      "Icon", "Paired", "Trusted", "Connected", "UUIDs", "Powered", "Discoverable", "Pairable",
      "DiscoverableTimeout", "PairableTimeout", "Discovering", "Devices"]
  | .ofono =>
    ["org.ofono.Manager", "Modems", "org.ofono.Modem", "Name", "Powered", "Interfaces",
      "org.ofono.NetworkRegistration", "Mode", "Status", "Operator", "Strength", "org.ofono.SmsManager",
      "ServiceCenterAddress", "SendMessage"]

/-- What a system uses: log domains, how many types of events were made, shared strings, and what the bus
has of the system, its handlers for `NameOwnerChanged` and its `GetNameOwner` calls. -/
structure Services where
  logDomains : List (String × Int)
  eventTypes : Nat
  shares : Holdings String
  handlers : Nat
  calls : Nat

/-- The globals of a system, and what it uses. `cbNameOwnerChanged`, `table` and the field
`pendingGetNameOwner` of `system` say whether a pointer is not `NULL`. -/
structure Module where
  initCount : Nat
  logDom : Int
  eventTypes : List Nat
  strings : List (Option String)
  conn : Option Nat
  cbNameOwnerChanged : Bool
  table : Bool
  system : System
  services : Services

/-- What others use when a program starts. -/
structure Others where
  logDomains : List (String × Int)
  eventTypes : Nat
  shares : Holdings String

/-- A system before its first `init`. -/
def Module.start (family : Family) (others : Others) : Module where
  initCount := 0
  logDom := -1
  eventTypes := List.replicate (eventCount family) 0
  strings := (sharedStrings family).map fun _ => none
  conn := none
  cbNameOwnerChanged := false
  table := false
  system := { System.start "" with pendingGetNameOwner := false }
  services :=
    { logDomains := others.logDomains
      eventTypes := others.eventTypes
      shares := others.shares
      handlers := 0
      calls := 0 }

/-! ## Parts of `_system_init` -/

/-- What the calls of `_system_init` return, and its argument. -/
structure SystemSteps where
  logDom : Option Nat
  conn : Option Nat
  handlerAdded : Bool
  asked : Bool
deriving DecidableEq, Repr

/-- `eina_log_domain_register`. -/
def Module.domainRegister (module : Module) (family : Family) (id : Option Nat) : Module :=
  { module with
    logDom := domainId id
    services :=
      { module.services with
        logDomains := logDomainRegister module.services.logDomains (logDomainName family) id } }

/-- `ecore_event_type_new`, for each event that has no type yet. `made` types were made before. -/
def eventTypesNew : List Nat → Nat → List Nat × Nat
  | [], made => ([], made)
  | type :: rest, made =>
    if type = 0 then ((made + 1) :: (eventTypesNew rest (made + 1)).1, (eventTypesNew rest (made + 1)).2)
    else (type :: (eventTypesNew rest made).1, (eventTypesNew rest made).2)

/-- The types of all events. -/
def Module.eventTypesNew (module : Module) : Module :=
  { module with
    eventTypes := (Lifecycle.eventTypesNew module.eventTypes module.services.eventTypes).1
    services :=
      { module.services with
        eventTypes := (Lifecycle.eventTypesNew module.eventTypes module.services.eventTypes).2 } }

/-- `eina_stringshare_add`, for each string that is `NULL`. -/
def Module.stringshareAdd (module : Module) (texts : List String) : Module :=
  { module with
    strings := List.zipWith (fun text held => some (held.getD text)) texts module.strings
    services :=
      { module.services with
        shares := module.services.shares.acquireAll
          (((texts.zip module.strings).filter fun slot => slot.2.isNone).map Prod.fst) } }

/-- `_stringshare_del`, for each string. -/
def Module.stringshareDel (module : Module) : Module :=
  { module with
    strings := module.strings.map fun _ => none
    services := { module.services with shares := module.services.shares.releaseAll (module.strings.filterMap id) } }

/-- `e_dbus_signal_handler_add`. -/
def Module.signalHandlerAdd (module : Module) (added : Bool) : Module :=
  { module with
    cbNameOwnerChanged := added
    services := { module.services with handlers := module.services.handlers + added.toNat } }

/-- `e_dbus_signal_handler_del`, unless there is no handler. -/
def Module.signalHandlerDel (module : Module) : Module :=
  { module with
    cbNameOwnerChanged := false
    services :=
      { module.services with handlers := module.services.handlers - module.cbNameOwnerChanged.toNat } }

/-- `dbus_pending_call_cancel`, unless there is no call. -/
def Module.pendingCancel (module : Module) : Module :=
  { module with
    system := { module.system with pendingGetNameOwner := false }
    services :=
      { module.services with calls := module.services.calls - module.system.pendingGetNameOwner.toNat } }

/-- `e_dbus_get_name_owner`. -/
def Module.nameOwnerAsk (module : Module) (asked : Bool) : Module :=
  { module with
    system := { module.system with pendingGetNameOwner := asked }
    services := { module.services with calls := module.services.calls + asked.toNat } }

/-- `_elements_init`. -/
def Module.elementsInit (module : Module) : Module :=
  if module.table then module
  else
    { module with
      table := true
      system := { module.system with elements := { module.system.elements with table := [] } } }

/-- `_elements_shutdown`. -/
def Module.elementsShutdown (module : Module) : Module :=
  if module.table then
    { module with
      table := false
      system := { module.system with elements := clearElements module.system.elements } }
  else module

/-- `_system_name_owner_exit`, unless there is no owner. -/
def Module.ownerForget (module : Module) : Module :=
  if module.system.uniqueName.isSome then { module with system := systemNameOwnerExit module.system } else module

/-! ## `_system_init` and `_system_shutdown` -/

/-- What `_system_init` does after the log domain. -/
def Module.opened (module : Module) (family : Family) (steps : SystemSteps) : Module :=
  let shared := module.eventTypesNew.stringshareAdd (sharedStrings family)
  let followed := ({ shared with conn := steps.conn }.signalHandlerAdd steps.handlerAdded).pendingCancel
  (followed.nameOwnerAsk steps.asked).elementsInit

/-- `_system_init`. `-1` is the largest `unsigned int`. -/
def systemInit (family : Family) (module : Module) (steps : SystemSteps) : Module × Int :=
  let counted : Module := { module with initCount := (module.initCount + 1) % 2 ^ 32 }
  if 1 < counted.initCount then (counted, counted.initCount)
  else
    let registered := counted.domainRegister family steps.logDom
    if registered.logDom < 0 then (registered, 2 ^ 32 - 1)
    else (registered.opened family steps, counted.initCount)

/-- What the shutdown of connman and of bluez does after the strings. -/
def Module.closed (module : Module) : Module :=
  let forgotten := module.pendingCancel.signalHandlerDel.ownerForget.elementsShutdown
  { forgotten with
    conn := none
    services :=
      { forgotten.services with
        logDomains := logDomainUnregister forgotten.services.logDomains forgotten.logDom } }

/-- `_system_shutdown`. That of ofono ends with the strings. -/
def systemShutdown (family : Family) (module : Module) : Module × Int :=
  if module.initCount = 0 then (module, 0)
  else
    let counted : Module := { module with initCount := module.initCount - 1 }
    if 0 < counted.initCount then (counted, counted.initCount)
    else
      match family with
      | .ofono => (counted.stringshareDel, 0)
      | .connman | .bluez => (counted.stringshareDel.closed, counted.initCount)

/-- `e_connman_system_init`. -/
def connmanSystemInit : Module → SystemSteps → Module × Int := systemInit .connman

/-- `e_connman_system_shutdown`. -/
def connmanSystemShutdown : Module → Module × Int := systemShutdown .connman

/-- `e_bluez_system_init`. -/
def bluezSystemInit : Module → SystemSteps → Module × Int := systemInit .bluez

/-- `e_bluez_system_shutdown`. -/
def bluezSystemShutdown : Module → Module × Int := systemShutdown .bluez

/-- `e_ofono_system_init`. -/
def ofonoSystemInit : Module → SystemSteps → Module × Int := systemInit .ofono

/-- `e_ofono_system_shutdown`. -/
def ofonoSystemShutdown : Module → Module × Int := systemShutdown .ofono

/-! ## Without the shared strings

After a shutdown the interfaces in the globals are `NULL`, and nothing is registered by them.
-/

/-- The interfaces are not `NULL`. -/
def Module.named (module : Module) : Bool := module.strings.all Option.isSome

/-- `_system_name_owner_enter`, where `_manager_sync_elements` gets no manager to register. -/
def ownerEnterUnnamed (system : System) (uid : String) : System :=
  if system.uniqueName = some uid then system
  else
    let left := if system.uniqueName.isSome then systemNameOwnerExit system else system
    { left with uniqueName := some uid, managerEvents := left.managerEvents ++ [.managerIn] }

section Unnamed

variable (accepts : CallId → Bool) (family : Family)

/-- One property of a message: object paths have no interface to be registered or looked up by. The
interfaces of ofono come with the message. -/
def propertyReceiveUnnamed (again : Bool) (state : State) (e : ElementId) (name : String) (wire : Wire) :
    State × Bool :=
  if family = .ofono ∧ name = "Interfaces" then propertyReceive accepts family again state e name wire
  else
    match state.elements e with
    | none => ({ state with fault := true }, false)
    | some element =>
      match propsGet element.props name with
      | none => (state.modify e (Element.setProperty name (wire.value family)), true)
      | some stored =>
        (state.modify e (Element.setProperty name (wire.value family)), stored.changed (wire.value family))

/-- The loop of `_element_get_properties_callback`. -/
def propertiesReceiveUnnamed (e : ElementId) : State × Bool → List (String × Wire) → State × Bool
  | received, [] => received
  | received, (name, wire) :: rest =>
    let next := propertyReceiveUnnamed accepts family false received.1 e name wire
    propertiesReceiveUnnamed e (next.1, received.2 || next.2) rest

/-- `_element_get_properties_callback` for a reply that has properties. -/
def getPropertiesUnnamed (state : State) (e : ElementId) (properties : List (String × Wire)) : State :=
  let received := propertiesReceiveUnnamed accepts family e (state, false) properties
  if received.2 then listenersCall received.1 e else received.1

/-- `_element_property_changed_callback`. -/
def propertyChangedUnnamed (state : State) (e : ElementId) (name : String) (wire : Wire) : State :=
  let received := propertyReceiveUnnamed accepts family true state e name wire
  if received.2 then listenersCall received.1 e else received.1

/-- A reply with properties is dispatched. -/
def replyReadUnnamed (state : State) (c : CallId) (received : List (String × Wire)) : State :=
  match state.calls c with
  | some call =>
    if call.libraryCb then getPropertiesUnnamed accepts family (callBegin state c .reply) call.element received
    else callBegin state c .reply
  | none => state

/-- What the elements do. Their other functions do not read the interfaces. -/
def elementsStep (named : Bool) (state : State) (label : Label) : Option State :=
  let stepped := Elements.step accepts family state label
  if named then stepped
  else
    match label with
    | .sync => stepped.map fun _ => state
    | .propertyChanged e name wire => stepped.map fun _ => propertyChangedUnnamed accepts family state e name wire
    | .reply c (.properties received) => stepped.map fun _ => replyReadUnnamed accepts family state c received
    | _ => stepped

/-- `_system_name_owner_changed`, unless the callback before did not return. -/
def System.signal (named : Bool) (name previous next : String) (system : System) : System :=
  if system.nullDereferenced then system
  else if named = false ∧ name = family.busName ∧ previous = "" ∧ next ≠ "" then ownerEnterUnnamed system next
  else systemNameOwnerChanged accepts family system name previous next

/-- `_get_name_owner`. -/
def System.reply (named : Bool) (reply : Option String) (system : System) : System :=
  match named, reply with
  | false, some uid => ownerEnterUnnamed { system with pendingGetNameOwner := false } uid
  | _, _ => getNameOwner accepts family system reply

end Unnamed

/-! ## What comes from the bus -/

/-- What happens to a system between the calls: a signal about the owner of a name, the reply to its
`GetNameOwner` call, if that is no error with the owner, and whatever its elements do. -/
inductive Message where
  | ownerChanged (name previous next : String)
  | ownerReply (reply : Option String)
  | module (label : Label)

/-- The label reads or changes the table, which has to be there. -/
def needsTable : Label → Bool
  | .register .. | .unregister _ | .clear | .sync => true
  | _ => false

/-- The label sends a call, for which there has to be a connection. -/
def needsConn : Label → Bool
  | .send .. | .startDiscovery .. => true
  | _ => false

/-- A message. A signal is given to every handler. -/
def Module.deliver (accepts : CallId → Bool) (family : Family) (module : Module) : Message → Option Module
  | .ownerChanged name previous next =>
    if module.system.nullDereferenced = false ∧ module.system.idle then
      some { module with
        system :=
          (System.signal accepts family module.named name previous next)^[module.services.handlers] module.system }
    else none
  | .ownerReply reply =>
    if module.system.nullDereferenced = false ∧ module.system.idle ∧ 0 < module.services.calls then
      some { module with
        system := System.reply accepts family module.named reply module.system
        services := { module.services with calls := module.services.calls - 1 } }
    else none
  | .module label =>
    if module.system.nullDereferenced = false ∧ (needsTable label = false ∨ module.table = true) ∧
        (needsConn label = false ∨ module.conn.isSome) ∧
        (label.readsName = false ∨ module.system.uniqueName.isSome) then
      (elementsStep accepts family module.named module.system.elements label).map fun elements =>
        { module with system := { module.system with elements := elements } }
    else none

/-- libdbus or the main loop calls a function of the elements. -/
def callsBack : Label → Bool
  | .deliver | .propertyChanged .. | .deviceFound _ | .idler _ | .reply .. => true
  | _ => false

/-- How many callbacks of the system run. -/
def Module.invoked (module : Module) : Message → Nat
  | .ownerChanged .. => module.services.handlers
  | .ownerReply _ => 1
  | .module label => (callsBack label).toNat

/-- A system with its calls and its messages. -/
def systemLibrary (accepts : CallId → Bool) (family : Family) :
    Semantics.Counted Module SystemSteps Message where
  init := systemInit family
  shutdown := systemShutdown family
  event module message := module.deliver accepts family message
  count module := module.initCount

/-! ## What a message leaves -/

section Messages

variable {accepts : CallId → Bool} {family : Family} {module after : Module} {system : System}

@[simp] theorem managerSyncElements_pending :
    (managerSyncElements accepts family system).pendingGetNameOwner = system.pendingGetNameOwner := by
  unfold managerSyncElements
  split <;> rfl

@[simp] theorem systemNameOwnerEnter_pending (uid : String) :
    (systemNameOwnerEnter accepts family system uid).pendingGetNameOwner = system.pendingGetNameOwner := by
  unfold systemNameOwnerEnter
  split
  · rfl
  · simp only [managerSyncElements_pending]
    split <;> rfl

theorem ownerEnterUnnamed_pending (uid : String) :
    (ownerEnterUnnamed system uid).pendingGetNameOwner = system.pendingGetNameOwner := by
  unfold ownerEnterUnnamed
  split
  · rfl
  · simp only
    split <;> rfl

theorem System.signal_pending (named : Bool) (name previous next : String) :
    (System.signal accepts family named name previous next system).pendingGetNameOwner =
      system.pendingGetNameOwner := by
  unfold System.signal
  split
  · rfl
  split
  · exact ownerEnterUnnamed_pending next
  unfold systemNameOwnerChanged
  split
  · rfl
  split
  · exact systemNameOwnerEnter_pending next
  split
  · split
    · rfl
    · split <;> rfl
  · rfl

theorem System.signals_pending (named : Bool) (name previous next : String) (handlers : Nat) :
    ((System.signal accepts family named name previous next)^[handlers] system).pendingGetNameOwner =
      system.pendingGetNameOwner := by
  induction handlers generalizing system with
  | zero => rfl
  | succ handlers ih => rw [Function.iterate_succ_apply, ih, System.signal_pending]

theorem System.reply_pending (named : Bool) (reply : Option String) :
    (System.reply accepts family named reply system).pendingGetNameOwner = false := by
  cases reply with
  | none => cases named <;> rfl
  | some uid =>
      cases named with
      | true => exact systemNameOwnerEnter_pending uid
      | false => exact ownerEnterUnnamed_pending uid

/-- A message changes nothing but what the system knows and, if it is the reply, its call. -/
theorem deliver_spec {message : Message} (delivered : module.deliver accepts family message = some after) :
    ∃ system calls, after =
        { module with system := system, services := { module.services with calls := calls } } ∧
      (calls = module.services.calls ∧ system.pendingGetNameOwner = module.system.pendingGetNameOwner ∨
        0 < module.services.calls ∧ calls = module.services.calls - 1 ∧ system.pendingGetNameOwner = false) := by
  cases message with
  | ownerChanged name previous next =>
      simp only [Module.deliver, Option.ite_none_right_eq_some, Option.some.injEq] at delivered
      obtain ⟨-, rfl⟩ := delivered
      exact ⟨_, _, rfl, .inl ⟨rfl, System.signals_pending ..⟩⟩
  | ownerReply reply =>
      simp only [Module.deliver, Option.ite_none_right_eq_some, Option.some.injEq] at delivered
      obtain ⟨⟨-, -, waiting⟩, rfl⟩ := delivered
      exact ⟨_, _, rfl, .inr ⟨waiting, rfl, System.reply_pending _ reply⟩⟩
  | module label =>
      simp only [Module.deliver, Option.ite_none_right_eq_some, Option.map_eq_some_iff] at delivered
      obtain ⟨-, elements, -, rfl⟩ := delivered
      exact ⟨_, _, rfl, .inl ⟨rfl, rfl⟩⟩

/-- Without a handler and a call, only the elements do something. -/
theorem deliver_elements {message : Message} (handlers : module.services.handlers = 0)
    (calls : module.services.calls = 0) (delivered : module.deliver accepts family message = some after) :
    ∃ elements, after = { module with system := { module.system with elements := elements } } := by
  cases message with
  | ownerChanged name previous next =>
      simp only [Module.deliver, Option.ite_none_right_eq_some, Option.some.injEq] at delivered
      obtain ⟨-, rfl⟩ := delivered
      rw [handlers]
      exact ⟨module.system.elements, rfl⟩
  | ownerReply reply => simp [Module.deliver, calls] at delivered
  | module label =>
      simp only [Module.deliver, Option.ite_none_right_eq_some, Option.map_eq_some_iff] at delivered
      obtain ⟨-, elements, -, rfl⟩ := delivered
      exact ⟨elements, rfl⟩

end Messages

/-! ## What the calls do -/

section Calls

variable {family : Family} {module : Module}

/-- A table that is there stays. -/
theorem elementsInit_eq (module : Module) : module.elementsInit =
    { module with
      table := true
      system :=
        { module.system with
          elements :=
            { module.system.elements with
              table := if module.table then module.system.elements.table else [] } } } := by
  unfold Module.elementsInit
  cases isThere : module.table with
  | true => simp [← isThere]
  | false => rfl

theorem unset_slots (texts : List String) :
    ((texts.zip (texts.map fun _ => none)).filter fun slot : String × Option String => slot.2.isNone).map Prod.fst =
      texts := by
  induction texts with
  | nil => rfl
  | cons text rest ih => simpa using ih

/-- Strings that were all `NULL`. -/
theorem stringshareAdd_fresh (texts : List String) (fresh : module.strings = texts.map fun _ => none) :
    module.stringshareAdd texts =
      { module with
        strings := texts.map some
        services := { module.services with shares := module.services.shares.acquireAll texts } } := by
  rw [Module.stringshareAdd, fresh, unset_slots, List.zipWith_map_right]
  simp

/-- The strings go as they came. -/
theorem stringshareDel_held {texts : List String} {shares : Holdings String}
    (held : module.strings = texts.map some) (shared : module.services.shares = shares.acquireAll texts) :
    module.stringshareDel =
      { module with
        strings := texts.map fun _ => none
        services := { module.services with shares := shares } } := by
  have returned := Holdings.returns_iff_perm.mpr (List.Perm.refl texts) shares
  have cleared : (texts.map some).map (fun _ => (none : Option String)) = texts.map fun _ => none := List.map_map
  have kept : (texts.map some).filterMap id = texts := by simp [List.filterMap_map]
  rw [Module.stringshareDel, held, shared, cleared, kept, returned]

/-- Every event gets a type. -/
theorem eventTypesNew_nonzero (types : List Nat) (made : Nat) :
    ∀ type ∈ (eventTypesNew types made).1, type ≠ 0 := by
  induction types generalizing made with
  | nil => exact fun type listed => absurd listed List.not_mem_nil
  | cons first rest ih =>
      unfold eventTypesNew
      split
      · intro type listed
        rcases List.mem_cons.mp listed with rfl | later
        · exact Nat.succ_ne_zero made
        · exact ih (made + 1) type later
      · next present =>
          intro type listed
          rcases List.mem_cons.mp listed with rfl | later
          · exact present
          · exact ih made type later

/-- What an `init` can do. -/
theorem systemInit_cases (family : Family) (module : Module) (steps : SystemSteps) {counted : Module}
    (isCounted : counted = { module with initCount := (module.initCount + 1) % 2 ^ 32 }) :
    1 < counted.initCount ∧ (systemInit family module steps).1 = counted ∨
      counted.initCount ≤ 1 ∧ steps.logDom = none ∧
        (systemInit family module steps).1 = counted.domainRegister family none ∨
      counted.initCount ≤ 1 ∧ ∃ id, steps.logDom = some id ∧
        (systemInit family module steps).1 = (counted.domainRegister family (some id)).opened family steps := by
  subst isCounted
  by_cases used : 1 < (module.initCount + 1) % 2 ^ 32
  · exact .inl ⟨used, congrArg Prod.fst (if_pos used)⟩
  · refine .inr ?_
    have first := Nat.not_lt.mp used
    simp only [systemInit, if_neg used]
    cases logDom : steps.logDom with
    | none => exact .inl ⟨first, rfl, rfl⟩
    | some id => exact .inr ⟨first, id, rfl, congrArg Prod.fst (if_neg (domainId_nonneg id))⟩

/-- What a shutdown of ofono can do. -/
theorem ofonoSystemShutdown_cases (module : Module) :
    module.initCount = 0 ∧ (systemShutdown .ofono module).1 = module ∨
      1 < module.initCount ∧
        (systemShutdown .ofono module).1 = { module with initCount := module.initCount - 1 } ∨
      module.initCount = 1 ∧
        (systemShutdown .ofono module).1 = ({ module with initCount := 0 } : Module).stringshareDel := by
  by_cases unused : module.initCount = 0
  · exact .inl ⟨unused, congrArg Prod.fst (if_pos unused)⟩
  · refine .inr ?_
    by_cases used : 0 < module.initCount - 1
    · refine .inl ⟨by omega, ?_⟩
      simp only [systemShutdown, if_neg unused, if_pos used]
    · have single : module.initCount = 1 := by omega
      exact .inr ⟨single, by simp [systemShutdown, single]⟩

end Calls

end EDBus.Lifecycle
