import EDBus.Dbus.InterfaceLifetime
import EDBus.Semantics.TypedData

/-!
# The properties of an object

`org.freedesktop.DBus.Properties` is attached when the first of the two callbacks
is set, whichever it is and even to `NULL`; from then on `Get` and `Set` each call
their own one. `Covered` says which calls that is good for.
-/

open EDBus.Semantics

namespace EDBus.Dbus.Exported

variable {Fn : Type} {state : State Fn}

/-! ## The two methods -/

/-- `dbus_type_is_basic`. -/
def typeIsBasic (type : DataType) : Bool := type.size.isSome

/-- `e_dbus_basic_type_as_string`. -/
def basicTypeAsString : DataType → Option String
  | .byte => some "y"
  | .boolean => some "b"
  | .int16 => some "n"
  | .uint16 => some "q"
  | .int32 => some "i"
  | .uint32 => some "u"
  | .int64 => some "x"
  | .uint64 => some "t"
  | .double => some "d"
  | .string => some "s"
  | .objectPath => some "o"
  | .signature => some "g"
  | _ => none

/-- A call of the properties interface. -/
inductive PropertiesCall where
  | get (interface property : String)
  | set (interface property : String) (value : Data)

/-- The message of a call. -/
def PropertiesCall.message : PropertiesCall → Message
  | .get interface property =>
    ⟨some ":1.7", none, some propertiesName, some "Get", [.string interface, .string property]⟩
  | .set interface property _ =>
    ⟨some ":1.7", none, some propertiesName, some "Set", [.string interface, .string property, .other "v"]⟩

/-- What is sent back. A method return of `Get` carries a variant, unless it could not be opened.
libdbus answers `unknownMethod` when nobody handles a call. -/
inductive PropertiesReply where
  | methodReturn (value : Option Data)
  | error (name text : String)
  | unknownMethod

/-- What serving a call did: whether a `NULL` callback was called, what was sent and
which setters ran. -/
structure Served (Fn : Type) where
  nullCalled : Bool
  replies : List PropertiesReply
  sets : List (Fn × String × Data)

/-- What the callbacks of the user do. A getter answers `none` for `DBUS_TYPE_INVALID`. -/
structure World (Fn : Type) where
  getter : Fn → String → Option Data
  setter : Fn → String → Data → Bool
  method : Fn → PropertiesCall → List PropertiesReply

def invalidProperty (property : String) : PropertiesReply :=
  .error "org.enlightenment.DBus.InvalidProperty"
    ("The property '" ++ property ++ "' does not exist on this object.")

def unsupportedType : PropertiesReply :=
  .error "org.enlightenment.DBus.UnsupportedType" "E_DBus currently only supports properties of a basic type."

/-- `cb_properties_get`. -/
def cbPropertiesGet (world : World Fn) (object : Object Fn) (property : String) : Served Fn :=
  match object.cbPropertyGet with
  | none => ⟨true, [], []⟩
  | some func =>
    match world.getter func property with
    | none => ⟨false, [invalidProperty property], []⟩
    | some value =>
      if typeIsBasic value.type then
        ⟨false, [.methodReturn ((basicTypeAsString value.type).map fun _ => value)], []⟩
      else ⟨false, [unsupportedType], []⟩

/-- `cb_properties_set`. -/
def cbPropertiesSet (world : World Fn) (object : Object Fn) (property : String) (value : Data) : Served Fn :=
  if typeIsBasic value.type then
    match object.cbPropertySet with
    | none => ⟨true, [], []⟩
    | some func =>
      if world.setter func property value then ⟨false, [.methodReturn none], [(func, property, value)]⟩
      else ⟨false, [invalidProperty property], [(func, property, value)]⟩
  else ⟨false, [unsupportedType], []⟩

/-- What `e_dbus_object_handler` sends by itself. -/
def PropertiesReply.ofSent : Object.Sent Unit → PropertiesReply
  | .error name text => .error name text
  | .reply _ => .methodReturn none

/-- A call of the properties interface is dispatched to an object. -/
def serve (world : World Fn) (state : State Fn) (object : Object Fn) (call : PropertiesCall) : Option (Served Fn) :=
  (Object.handler (fun _ _ => (none : Option Unit)) (state.dispatched object) call.message).map fun outcome =>
    match outcome.result, outcome.called, call with
    | .notYetHandled, _, _ => ⟨false, [.unknownMethod], []⟩
    | .handled, [.propertiesGet], .get _ property => cbPropertiesGet world object property
    | .handled, [.propertiesSet], .set _ property value => cbPropertiesSet world object property value
    | .handled, [.introspect], _ => ⟨false, [.methodReturn (some (.string (cbIntrospect state object).2))], []⟩
    | .handled, [.user func], call => ⟨false, world.method func call, []⟩
    | .handled, _, _ => ⟨false, outcome.sent.map PropertiesReply.ofSent, []⟩

/-- No `NULL` callback is called, one reply is sent, and what cannot be set is not. -/
structure Answered (object : Object Fn) (call : PropertiesCall) (served : Served Fn) : Prop where
  noNull : served.nullCalled = false
  once : served.replies.length = 1
  unchanged : ∀ interface property value, call = .set interface property value →
    typeIsBasic value.type = false ∨ object.cbPropertySet = none → served.sets = []

/-- A call of `e_dbus_object_property_get_cb_set` or `e_dbus_object_property_set_cb_set`. -/
inductive Registration (Fn : Type) where
  | get (func : Option Fn)
  | set (func : Option Fn)

def Registration.label (obj : ObjectId) : Registration Fn → Label Fn
  | .get func => .propertyGetCbSet obj func
  | .set func => .propertySetCbSet obj func

/-- The getter that was set last, starting from one that is set. -/
def getterAfter (start : Option Fn) : List (Registration Fn) → Option Fn
  | [] => start
  | .get func :: rest => getterAfter func rest
  | .set _ :: rest => getterAfter start rest

/-- The setter that was set last, starting from one that is set. -/
def setterAfter (start : Option Fn) : List (Registration Fn) → Option Fn
  | [] => start
  | .get _ :: rest => setterAfter start rest
  | .set func :: rest => setterAfter func rest

/-- No callback was set, so that the interface is not there, or the one that the
call needs was not set to `NULL` last. A value that is not basic needs none. -/
def Covered (registrations : List (Registration Fn)) (call : PropertiesCall) : Prop :=
  registrations = [] ∨
    match call with
    | .get _ _ => getterAfter none registrations ≠ none
    | .set _ _ value => typeIsBasic value.type = false ∨ setterAfter none registrations ≠ none

/-! ## The properties interface -/

/-- What `e_dbus_object_init` adds to the properties interface. -/
def propertiesMethods : List (Method (Func Fn)) :=
  [⟨"Get", some "ss", some "v", .propertiesGet⟩, ⟨"Set", some "ssv", some "", .propertiesSet⟩]

/-- The properties interface has its name and its two methods. -/
def PropertiesReady (state : State Fn) : Prop :=
  ∀ iface interface, state.properties = some iface → state.interfaces iface = some interface →
    interface.name = propertiesName ∧ propertiesMethods <+: interface.methods

theorem PropertiesReady.continue (ready : PropertiesReady state) {after : State Fn} (continues : Continues state after) :
    PropertiesReady after := by
  intro iface interface isProperties found
  obtain ⟨earlier, foundEarlier, sameName, grows⟩ := continues.interfaces iface interface found
  obtain ⟨named, methods⟩ := ready iface earlier (continues.properties ▸ isProperties) foundEarlier
  exact ⟨sameName.trans named, methods.trans grows⟩

theorem objectInit_properties (state : State Fn) :
    (objectInit state).properties = some (state.nextInterface + 1) ∧
      (objectInit state).interfaces (state.nextInterface + 1) =
        some ⟨propertiesName, propertiesMethods, [], 1⟩ := by
  have introspect : methodNew (some "Introspect") (some "") (some "s") (some (.introspect : Func Fn)) =
      some ⟨"Introspect", some "", some "s", .introspect⟩ := rfl
  have get : methodNew (some "Get") (some "ss") (some "v") (some (.propertiesGet : Func Fn)) =
      some ⟨"Get", some "ss", some "v", .propertiesGet⟩ := rfl
  have set : methodNew (some "Set") (some "ssv") (some "") (some (.propertiesSet : Func Fn)) =
      some ⟨"Set", some "ssv", some "", .propertiesSet⟩ := rfl
  simp [objectInit, interfaceMethodAdd, introspect, get, set, interfaceNew, State.setInterface, propertiesMethods]

/-- Steps that neither make interfaces nor change the library's pointers. -/
theorem step_continues (label : Label Fn) {next : State Fn} (stepped : step state label = some next) :
    label = .objectInit ∨ label = .objectShutdown ∨ (∃ name, label = .interfaceNew (some name)) ∨
      Continues state next := by
  have same {after : State Fn} (library : SameLibrary state after) : label = .objectInit ∨ label = .objectShutdown ∨
      (∃ name, label = .interfaceNew (some name)) ∨ Continues state after := .inr (.inr (.inr library.toContinues))
  cases step_cases stepped with
  | objectInit _ _ => exact .inl rfl
  | objectShutdown _ _ => exact .inr (.inl rfl)
  | interfaceNew name => exact .inr (.inr (.inl ⟨name, rfl⟩))
  | interfaceUnnamed => exact same (.refl state)
  | @interfaceRef iface _ =>
      have referred := (interfaceRef_edited state iface).library
      exact .inr (.inr (.inr ⟨referred.introspectable, referred.properties, referred.nextInterface,
        referred.interfaces⟩))
  | @interfaceUnref iface _ =>
      have unreferred := (interfaceUnref_edited state iface).library
      exact .inr (.inr (.inr ⟨unreferred.introspectable, unreferred.properties, unreferred.nextInterface,
        unreferred.interfaces⟩))
  | interfaceMethodAdd _ member signature replySignature _ =>
      exact same (interfaceMethodAdd_library state _ member signature replySignature _)
  | interfaceSignalAdd _ name signature => exact same (interfaceSignalAdd_library state _ name signature)
  | interfaceAttach _ _ => exact same (interfaceAttach_edited state _ _).library
  | interfaceDetach _ _ => exact same (interfaceDetach_edited state _ _).library
  | objectAdd path registered => exact same (objectAdd_library state path registered)
  | objectFree _ => exact same (objectFree_edited state _).library
  | @propertyGetCbSet obj object _ _ =>
      exact same ((attachProperties_edited state obj object).library.trans (setObject_library _ obj _))
  | @propertySetCbSet obj object _ _ =>
      exact same ((attachProperties_edited state obj object).library.trans (setObject_library _ obj _))
  | @introspected obj _ _ _ _ => exact same (setObject_library state obj _)
  | served _ _ => exact same (.refl state)

theorem step_ready (label : Label Fn) {next : State Fn} (sound : Sound state) (ready : PropertiesReady state)
    (stepped : step state label = some next) : PropertiesReady next := by
  rcases step_continues label stepped with rfl | rfl | ⟨name, rfl⟩ | continues
  · simp only [step] at stepped
    split at stepped
    · obtain rfl := Option.some.inj stepped
      obtain ⟨pointer, made⟩ := objectInit_properties state
      intro iface interface isProperties found
      rw [pointer, Option.some.injEq] at isProperties
      subst isProperties
      rw [made, Option.some.injEq] at found
      subst found
      exact ⟨rfl, List.prefix_refl _⟩
    · cases stepped
  · simp only [step] at stepped
    split at stepped
    · obtain rfl := Option.some.inj stepped
      intro iface interface isProperties
      cases isProperties
    · cases stepped
  · obtain rfl := Option.some.inj stepped
    intro iface interface isProperties found
    have isProperties : state.properties = some iface := isProperties
    have alive := sound.library_alive (.inr isProperties.symm)
    obtain ⟨current, isCurrent⟩ := Option.isSome_iff_exists.mp alive
    have different : iface ≠ state.nextInterface := by
      rintro rfl
      rw [sound.balanced.freshInterface _ (Nat.le_refl _)] at isCurrent
      cases isCurrent
    simp only [interfaceNew, ne_eq, different, not_false_eq_true, Function.update_of_ne] at found
    exact ready iface interface isProperties found
  · exact ready.continue continues

theorem exec_ready {labels : List (Label Fn)} (executed : machine.exec State.initial labels = some state) :
    Sound state ∧ PropertiesReady state := by
  have preserved : ∀ (before : State Fn) label next, Sound before ∧ PropertiesReady before →
      machine.step before label = some next → Sound next ∧ PropertiesReady next := by
    rintro before label next ⟨sound, ready⟩ stepped
    exact ⟨step_sound label sound stepped, step_ready label sound ready stepped⟩
  have initial : Sound (State.initial : State Fn) ∧ PropertiesReady (State.initial : State Fn) :=
    ⟨initial_sound, fun _ _ none => by cases none⟩
  exact Semantics.Machine.Reachable.invariant preserved initial ⟨labels, executed⟩

/-! ## Setting callbacks -/

/-- The properties interface, as the library has it. -/
structure Ready (state : State Fn) (iface : InterfaceId) : Prop where
  sound : Sound state
  ready : PropertiesReady state
  properties : state.properties = some iface

theorem Ready.alive {iface : InterfaceId} (isReady : Ready state iface) :
    ∃ interface, state.interfaces iface = some interface ∧ interface.name = propertiesName ∧
      propertiesMethods <+: interface.methods := by
  have alive := isReady.sound.library_alive (.inr isReady.properties.symm)
  obtain ⟨interface, found⟩ := Option.isSome_iff_exists.mp alive
  exact ⟨interface, found, isReady.ready iface interface isReady.properties found⟩

/-- The interfaces of an object after a callback was set. -/
def withProperties (state : State Fn) (object : Object Fn) (iface : InterfaceId) : List InterfaceId :=
  if some propertiesName ∈ object.interfaces.map state.nameOf then object.interfaces else object.interfaces ++ [iface]

/-- What setting a callback finds after `attachProperties`. -/
structure Prepared (before : State Fn) (obj : ObjectId) (object : Object Fn) (interfaces : List InterfaceId)
    (after : State Fn) : Prop where
  found : ∃ current, after.objects obj = some current ∧ current.cbPropertyGet = object.cbPropertyGet ∧
    current.cbPropertySet = object.cbPropertySet ∧ current.interfaces = interfaces
  names : after.nameOf = before.nameOf

theorem attachProperties_prepared {iface : InterfaceId} (isReady : Ready state iface) {obj : ObjectId}
    {object : Object Fn} (found : state.objects obj = some object)
    (both : (object.cbPropertyGet.isNone && object.cbPropertySet.isNone) = true) :
    Prepared state obj object (withProperties state object iface) (attachProperties state obj object) := by
  obtain ⟨interface, isAlive, named, -⟩ := isReady.alive
  rw [attachProperties, if_pos both, isReady.properties]
  rcases interfaceAttach_some isReady.sound.balanced found isAlive with ⟨present, unchanged⟩ | ⟨absent, attached⟩
  · rw [named] at present
    rw [unchanged, withProperties, if_pos present]
    exact ⟨⟨object, found, rfl, rfl, rfl⟩, rfl⟩
  · rw [named] at absent
    rw [attached, withProperties, if_neg absent]
    refine ⟨⟨_, Function.update_self .., rfl, rfl, rfl⟩, funext fun other => ?_⟩
    by_cases here : other = iface
    · simp [State.nameOf, State.setObject, State.setInterface, here, isAlive]
    · simp [State.nameOf, State.setObject, State.setInterface, here]

/-- Attaching the properties interface again is refused. -/
theorem attachProperties_present {iface : InterfaceId} (isReady : Ready state iface) {obj : ObjectId}
    {object : Object Fn} (found : state.objects obj = some object)
    (present : some propertiesName ∈ object.interfaces.map state.nameOf) : attachProperties state obj object = state := by
  obtain ⟨interface, isAlive, named, -⟩ := isReady.alive
  unfold attachProperties
  split
  · rw [isReady.properties]
    rcases interfaceAttach_some isReady.sound.balanced found isAlive with ⟨-, unchanged⟩ | ⟨absent, -⟩
    · exact unchanged
    · exact absurd (named ▸ present) absent
  · rfl

/-- The object after one call, and the state. -/
def Registration.object (object : Object Fn) : Registration Fn → Object Fn
  | .get func => { object with cbPropertyGet := func }
  | .set func => { object with cbPropertySet := func }

theorem register_next {obj : ObjectId} {object : Object Fn} (found : state.objects obj = some object)
    (registration : Registration Fn) {next : State Fn}
    (stepped : step state (registration.label obj) = some next) :
    next = (attachProperties state obj object).mapObject obj fun current => registration.object current := by
  cases registration with
  | get func =>
      simp only [Registration.label, step, found, Option.isSome_some, if_true, Option.some.injEq] at stepped
      rw [← stepped]
      simp only [propertyGetCbSet, found, Registration.object]
  | set func =>
      simp only [Registration.label, step, found, Option.isSome_some, if_true, Option.some.injEq] at stepped
      rw [← stepped]
      simp only [propertySetCbSet, found, Registration.object]

theorem register_ready {iface : InterfaceId} (isReady : Ready state iface) {obj : ObjectId}
    (registration : Registration Fn) {next : State Fn}
    (stepped : step state (registration.label obj) = some next) : Ready next iface := by
  refine ⟨step_sound _ isReady.sound stepped, step_ready _ isReady.sound isReady.ready stepped, ?_⟩
  rcases step_continues _ stepped with same | same | ⟨_, same⟩ | continues
  · cases registration <;> cases same
  · cases registration <;> cases same
  · cases registration <;> cases same
  · exact continues.properties.trans isReady.properties

/-- What is left of a sequence of calls: the callbacks that were set last, and the list. -/
structure Registered (registrations : List (Registration Fn)) (object : Object Fn) (interfaces : List InterfaceId)
    (finish : State Fn) (obj : ObjectId) : Prop where
  found : ∃ current, finish.objects obj = some current ∧
    current.cbPropertyGet = getterAfter object.cbPropertyGet registrations ∧
    current.cbPropertySet = setterAfter object.cbPropertySet registrations ∧ current.interfaces = interfaces

/-- With the properties interface attached, setting callbacks leaves the list alone. -/
theorem exec_present {iface : InterfaceId} {registrations : List (Registration Fn)} {finish : State Fn}
    (isReady : Ready state iface) {obj : ObjectId} {object : Object Fn} (found : state.objects obj = some object)
    (present : some propertiesName ∈ object.interfaces.map state.nameOf)
    (executed : machine.exec state (registrations.map (Registration.label obj)) = some finish) :
    Registered registrations object object.interfaces finish obj ∧ Ready finish iface := by
  induction registrations generalizing state object with
  | nil =>
      obtain rfl := Option.some.inj executed
      exact ⟨⟨object, found, rfl, rfl, rfl⟩, isReady⟩
  | cons registration rest ih =>
      rw [List.map_cons] at executed
      obtain ⟨next, stepped, later⟩ := Semantics.Machine.exec_cons_iff.mp executed
      have isNext := register_next found registration stepped
      rw [attachProperties_present isReady found present] at isNext
      have foundNext : next.objects obj = some (registration.object object) := by
        rw [isNext]
        simp [State.mapObject, State.setObject, found]
      have sameList : (registration.object object).interfaces = object.interfaces := by
        cases registration <;> rfl
      have sameNames : next.nameOf = state.nameOf := by
        rw [isNext]
        rfl
      obtain ⟨⟨current, foundLast, getter, setter, list⟩, readyLast⟩ := ih
        (register_ready isReady registration stepped) foundNext (by rw [sameList, sameNames]; exact present) later
      refine ⟨⟨current, foundLast, ?_, ?_, list.trans sameList⟩, readyLast⟩
      · rw [getter]
        cases registration <;> rfl
      · rw [setter]
        cases registration <;> rfl

/-- No callback is set, and nothing else has the name of the properties interface. -/
structure Unregistered (state : State Fn) (object : Object Fn) : Prop where
  initialised : state.properties ≠ none
  getter : object.cbPropertyGet = none
  setter : object.cbPropertySet = none
  absent : ∀ iface ∈ state.attached object, iface.name ≠ propertiesName

theorem absent_names {object : Object Fn} (absent : ∀ iface ∈ state.attached object, iface.name ≠ propertiesName) :
    some propertiesName ∉ object.interfaces.map state.nameOf := by
  intro listed
  obtain ⟨iface, isListed, named⟩ := List.mem_map.mp listed
  obtain ⟨interface, found, name⟩ := Option.map_eq_some_iff.mp named
  exact absent interface (List.mem_filterMap.mpr ⟨iface, isListed, found⟩) name

/-- After callbacks were set: the ones that were set last, and the interface if any was set. -/
theorem exec_registered {iface : InterfaceId} {registrations : List (Registration Fn)} {finish : State Fn}
    (isReady : Ready state iface) {obj : ObjectId} {object : Object Fn} (found : state.objects obj = some object)
    (fresh : Unregistered state object)
    (executed : machine.exec state (registrations.map (Registration.label obj)) = some finish) :
    Registered registrations object (if registrations = [] then object.interfaces else object.interfaces ++ [iface])
      finish obj ∧ Ready finish iface := by
  cases registrations with
  | nil =>
      obtain rfl := Option.some.inj executed
      exact ⟨⟨object, found, rfl, rfl, rfl⟩, isReady⟩
  | cons registration rest =>
      rw [List.map_cons] at executed
      obtain ⟨next, stepped, later⟩ := Semantics.Machine.exec_cons_iff.mp executed
      have isNext := register_next found registration stepped
      have both : (object.cbPropertyGet.isNone && object.cbPropertySet.isNone) = true := by
        rw [fresh.getter, fresh.setter]
        rfl
      obtain ⟨⟨current, foundAttached, sameGetter, sameSetter, list⟩, names⟩ :=
        attachProperties_prepared isReady found both
      rw [withProperties, if_neg (absent_names fresh.absent)] at list
      have foundNext : next.objects obj = some (registration.object current) := by
        rw [isNext]
        simp [State.mapObject, State.setObject, foundAttached]
      have listNext : (registration.object current).interfaces = object.interfaces ++ [iface] := by
        rw [← list]
        cases registration <;> rfl
      have readyNext := register_ready isReady registration stepped
      have present : some propertiesName ∈ (registration.object current).interfaces.map next.nameOf := by
        obtain ⟨interface, isAlive, named, -⟩ := readyNext.alive
        rw [listNext, List.map_append, List.map_singleton, State.nameOf, isAlive, Option.map_some, named]
        exact List.mem_append_right _ (List.mem_singleton.mpr rfl)
      obtain ⟨⟨last, foundLast, getter, setter, listLast⟩, readyLast⟩ := exec_present readyNext foundNext present later
      refine ⟨⟨last, foundLast, ?_, ?_, ?_⟩, readyLast⟩
      · rw [getter]
        cases registration with
        | get func => rfl
        | set func => exact congrArg (getterAfter · rest) sameGetter
      · rw [setter]
        cases registration with
        | get func => exact congrArg (setterAfter · rest) sameSetter
        | set func => rfl
      · rw [listLast, listNext, if_neg (List.cons_ne_nil _ _)]

/-! ## Serving calls -/

theorem methodFind_absent {object : Object Fn} (absent : ∀ iface ∈ state.attached object, iface.name ≠ propertiesName)
    (member : String) :
    Object.methodFind (state.dispatched object).interfaces (some propertiesName) (some member) = some none := by
  have nobody : (state.dispatched object).interfaces.filter (fun iface => propertiesName == iface.name) = [] := by
    rw [List.filter_eq_nil_iff]
    intro iface listed named
    obtain ⟨interface, isAttached, rfl⟩ := List.mem_map.mp listed
    exact absent interface isAttached (eq_of_beq named).symm
  simp only [Object.methodFind, Object.search_eq_find, nobody, List.flatMap_nil, List.find?_nil]

theorem methodFind_last {object : Object Fn} {others : List (Interface (Func Fn))} {interface : Interface (Func Fn)}
    (attached : state.attached object = others ++ [interface]) (named : interface.name = propertiesName)
    (absent : ∀ iface ∈ others, iface.name ≠ propertiesName) (member : String) :
    Object.methodFind (state.dispatched object).interfaces (some propertiesName) (some member) =
      some (interface.dispatched.methods.find? fun method => member == method.member) := by
  have nobody : (others.map Interface.dispatched).filter (fun iface => propertiesName == iface.name) = [] := by
    rw [List.filter_eq_nil_iff]
    intro iface listed same
    obtain ⟨other, isOther, rfl⟩ := List.mem_map.mp listed
    exact absent other isOther (eq_of_beq same).symm
  have dispatched : (state.dispatched object).interfaces = others.map Interface.dispatched ++ [interface.dispatched] := by
    rw [State.dispatched, attached, List.map_append, List.map_singleton]
  have own : (propertiesName == interface.dispatched.name) = true := beq_iff_eq.mpr named.symm
  simp only [Object.methodFind, Object.search_eq_find, dispatched, List.filter_append, nobody, List.nil_append,
    List.filter_singleton, own, cond_true, List.flatMap_singleton]

/-- A call of an object without the interface is answered by libdbus. -/
theorem serve_absent {object : Object Fn} (absent : ∀ iface ∈ state.attached object, iface.name ≠ propertiesName)
    (world : World Fn) (call : PropertiesCall) : serve world state object call = some ⟨false, [.unknownMethod], []⟩ := by
  cases call with
  | get interface property =>
      simp only [serve, Object.handler, PropertiesCall.message, methodFind_absent absent, Option.map_some,
        Object.methodCall]
  | set interface property value =>
      simp only [serve, Object.handler, PropertiesCall.message, methodFind_absent absent, Option.map_some,
        Object.methodCall]

/-- With the interface, `Get` and `Set` are served by its two methods. -/
theorem serve_properties {object : Object Fn} {others : List (Interface (Func Fn))} {interface : Interface (Func Fn)}
    (attached : state.attached object = others ++ [interface]) (named : interface.name = propertiesName)
    (methods : propertiesMethods <+: interface.methods) (absent : ∀ iface ∈ others, iface.name ≠ propertiesName)
    (world : World Fn) (call : PropertiesCall) :
    serve world state object call = some (match call with
      | .get _ property => cbPropertiesGet world object property
      | .set _ property value => cbPropertiesSet world object property value) := by
  obtain ⟨more, isMethods⟩ := methods
  have dispatched : interface.dispatched.methods =
      ⟨"Get", some "ss", .propertiesGet⟩ :: ⟨"Set", some "ssv", .propertiesSet⟩ ::
        more.map fun method => ⟨method.member, method.signature, method.func⟩ := by
    rw [Interface.dispatched, ← isMethods]
    rfl
  cases call with
  | get other property =>
      have found := methodFind_last attached named absent "Get"
      have first : (interface.dispatched.methods.find? fun method => "Get" == method.member) =
          some ⟨"Get", some "ss", .propertiesGet⟩ := by
        rw [dispatched]
        rfl
      have handled : Object.methodCall (fun _ _ => (none : Option Unit)) (PropertiesCall.get other property).message
          (some ⟨"Get", some "ss", (.propertiesGet : Func Fn)⟩) = ⟨.handled, [.propertiesGet], []⟩ := rfl
      rw [first] at found
      simp only [serve, Object.handler]
      rw [show (PropertiesCall.get other property).message.interface = some propertiesName from rfl,
        show (PropertiesCall.get other property).message.member = some "Get" from rfl, found, Option.map_some, handled]
      rfl
  | set other property value =>
      have found := methodFind_last attached named absent "Set"
      have second : (interface.dispatched.methods.find? fun method => "Set" == method.member) =
          some ⟨"Set", some "ssv", .propertiesSet⟩ := by
        rw [dispatched]
        rfl
      have handled : Object.methodCall (fun _ _ => (none : Option Unit))
          (PropertiesCall.set other property value).message
          (some ⟨"Set", some "ssv", (.propertiesSet : Func Fn)⟩) = ⟨.handled, [.propertiesSet], []⟩ := rfl
      rw [second] at found
      simp only [serve, Object.handler]
      rw [show (PropertiesCall.set other property value).message.interface = some propertiesName from rfl,
        show (PropertiesCall.set other property value).message.member = some "Set" from rfl, found, Option.map_some,
        handled]
      rfl

theorem get_answered_iff (world : World Fn) (object : Object Fn) (interface property : String) :
    Answered object (.get interface property) (cbPropertiesGet world object property) ↔
      object.cbPropertyGet ≠ none := by
  cases getter : object.cbPropertyGet with
  | none =>
      refine iff_of_false (fun answered => ?_) (fun isSet => isSet rfl)
      have noNull := answered.noNull
      simp only [cbPropertiesGet, getter] at noNull
      cases noNull
  | some func =>
      refine iff_of_true ?_ (Option.some_ne_none func)
      simp only [cbPropertiesGet, getter]
      split
      · exact ⟨rfl, rfl, nofun⟩
      · split
        · exact ⟨rfl, rfl, nofun⟩
        · exact ⟨rfl, rfl, nofun⟩

theorem set_answered_iff (world : World Fn) (object : Object Fn) (interface property : String) (value : Data) :
    Answered object (.set interface property value) (cbPropertiesSet world object property value) ↔
      typeIsBasic value.type = false ∨ object.cbPropertySet ≠ none := by
  cases basic : typeIsBasic value.type with
  | false =>
      refine iff_of_true ?_ (.inl rfl)
      simp only [cbPropertiesSet, basic, Bool.false_eq_true, if_false]
      exact ⟨rfl, rfl, fun _ _ _ _ _ => rfl⟩
  | true =>
      cases setter : object.cbPropertySet with
      | none =>
          refine iff_of_false (fun answered => ?_) (by simp)
          have noNull := answered.noNull
          simp only [cbPropertiesSet, basic, if_true, setter] at noNull
          cases noNull
      | some func =>
          refine iff_of_true ?_ (.inr (Option.some_ne_none func))
          simp only [cbPropertiesSet, basic, if_true, setter]
          have missing : ∀ interface' property' value',
              PropertiesCall.set interface property value = .set interface' property' value' →
                ¬ (typeIsBasic value'.type = false ∨ object.cbPropertySet = none) := by
            rintro _ _ _ ⟨⟩
            simp [basic, setter]
          split
          · exact ⟨rfl, rfl, fun _ _ _ same without => absurd without (missing _ _ _ same)⟩
          · exact ⟨rfl, rfl, fun _ _ _ same without => absurd without (missing _ _ _ same)⟩

/-- After any sequence of callbacks that were set on an object, a `Get` or `Set` is answered as it
should be exactly if none was set, or the callback that it needs is not `NULL`. -/
theorem properties_answered_iff {labels : List (Label Fn)} {start finish : State Fn}
    (reached : machine.exec State.initial labels = some start) {obj : ObjectId} {object after : Object Fn}
    (found : start.objects obj = some object) (fresh : Unregistered start object)
    {registrations : List (Registration Fn)}
    (registered : machine.exec start (registrations.map (Registration.label obj)) = some finish)
    (foundAfter : finish.objects obj = some after) (world : World Fn) (call : PropertiesCall) :
    (∃ served, serve world finish after call = some served ∧ Answered after call served) ↔
      Covered registrations call := by
  obtain ⟨sound, ready⟩ := exec_ready reached
  obtain ⟨iface, isProperties⟩ := Option.ne_none_iff_exists'.mp fresh.initialised
  obtain ⟨⟨current, foundCurrent, getter, setter, list⟩, readyFinish⟩ :=
    exec_registered ⟨sound, ready, isProperties⟩ found fresh registered
  obtain rfl : current = after := Option.some.inj (foundCurrent.symm.trans foundAfter)
  rw [fresh.getter] at getter
  rw [fresh.setter] at setter
  by_cases unset : registrations = []
  · subst unset
    obtain rfl := Option.some.inj registered
    obtain rfl : object = current := Option.some.inj (found.symm.trans foundCurrent)
    refine iff_of_true ⟨_, serve_absent fresh.absent world call, ?_⟩ (.inl rfl)
    exact ⟨rfl, rfl, fun _ _ _ _ _ => rfl⟩
  · rw [if_neg unset] at list
    obtain ⟨interface, isAlive, named, methods⟩ := readyFinish.alive
    have attached : finish.attached current = object.interfaces.filterMap finish.interfaces ++ [interface] := by
      rw [State.attached, list, List.filterMap_append]
      simp [isAlive]
    have distinct := readyFinish.sound.balanced.named obj current foundCurrent
    have absent : ∀ other ∈ object.interfaces.filterMap finish.interfaces, other.name ≠ propertiesName := by
      intro other isOther same
      obtain ⟨id, isListed, isOther⟩ := List.mem_filterMap.mp isOther
      rw [list, List.map_append, List.map_singleton] at distinct
      have ownName : finish.nameOf iface = some propertiesName := by
        rw [State.nameOf, isAlive, Option.map_some, named]
      have otherName : finish.nameOf id = some propertiesName := by
        rw [State.nameOf, isOther, Option.map_some, same]
      have apart := List.disjoint_of_nodup_append distinct
      exact apart (List.mem_map.mpr ⟨id, isListed, otherName⟩) (List.mem_singleton.mpr ownName.symm)
    have served := serve_properties attached named methods absent world call
    unfold Covered
    rw [or_iff_right unset]
    cases call with
    | get interfaceName property =>
        show _ ↔ getterAfter none registrations ≠ none
        rw [← getter, ← get_answered_iff world current interfaceName property]
        constructor
        · rintro ⟨answer, isServed, answered⟩
          obtain rfl := Option.some.inj (served.symm.trans isServed)
          exact answered
        · exact fun answered => ⟨_, served, answered⟩
    | set interfaceName property value =>
        show _ ↔ typeIsBasic value.type = false ∨ setterAfter none registrations ≠ none
        rw [← setter, ← set_answered_iff world current interfaceName property value]
        constructor
        · rintro ⟨answer, isServed, answered⟩
          obtain rfl := Option.some.inj (served.symm.trans isServed)
          exact answered
        · exact fun answered => ⟨_, served, answered⟩

/-- An object on which no callback was set. -/
def exportedRun : List (Label Unit) := [.objectInit, .objectAdd "/org/example" true]

def exportedState : State Unit := objectAdd (objectInit State.initial) "/org/example" true

/-- A user whose one getter answers a string. -/
def oneProperty : World Unit := ⟨fun _ _ => some (.string "on"), fun _ _ _ => true, fun _ _ => []⟩

theorem properties_answered_iff_getter : ∃ object finish after,
    machine.exec exportedState [.propertyGetCbSet 0 (some ())] = some finish ∧ finish.objects 0 = some after ∧
      Unregistered exportedState object ∧
      ((∃ served, serve oneProperty finish after (.get "org.example" "State") = some served ∧
        Answered after (.get "org.example" "State") served) ↔
      Covered [.get (some ())] (.get "org.example" "State")) := by
  have reached : machine.exec State.initial exportedRun = some exportedState := rfl
  have found : exportedState.objects 0 = some _ := rfl
  have fresh : Unregistered exportedState ⟨"/org/example", [0], none, true, none, none⟩ := by
    refine ⟨Option.some_ne_none 1, rfl, rfl, fun iface listed => ?_⟩
    obtain rfl := List.mem_singleton.mp listed
    decide
  refine ⟨_, _, _, rfl, rfl, fresh, ?_⟩
  exact properties_answered_iff reached found fresh rfl rfl oneProperty _

/-- Only a setter is set, and a `Get` calls the getter that is `NULL`. -/
theorem properties_fails_setterOnly : ¬ ∀ (registrations : List (Registration Unit)) finish after call,
    machine.exec exportedState (registrations.map (Registration.label 0)) = some finish →
      finish.objects 0 = some after →
        ∃ served, serve oneProperty finish after call = some served ∧ Answered after call served := by
  intro always
  obtain ⟨served, isServed, answered⟩ := always [.set (some ())] _ _ (.get "org.example" "State") rfl rfl
  have called : served.nullCalled = true := by
    obtain rfl := Option.some.inj isServed
    rfl
  rw [answered.noNull] at called
  cases called

end EDBus.Dbus.Exported
