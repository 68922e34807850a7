import EDBus.Dbus.Introspection
import EDBus.Dbus.Object
import EDBus.Semantics.Execution
import Mathlib.Logic.Function.Basic
import Mathlib.Logic.Relation

/-!
# Exported objects and their interfaces

Interfaces are shared: an object refers to the interfaces in its list, and an
interface lives as long as somebody has a reference. The machine takes one call
of the API, or one message for an object, at a time.
-/

namespace EDBus.Dbus.Exported

/-- An `E_DBus_Interface` pointer. -/
abbrev InterfaceId := Nat
/-- An `E_DBus_Object` pointer. -/
abbrev ObjectId := Nat

/-- An `E_DBus_Method_Cb`: one of the functions of `e_dbus_object.c`, or the user's. -/
inductive Func (Fn : Type) where
  | introspect
  | propertiesGet
  | propertiesSet
  | user (fn : Fn)
deriving DecidableEq, Repr

/-- `E_DBus_Object`. -/
structure Object (Fn : Type) where
  path : String
  interfaces : List InterfaceId
  introspectionData : Option String
  introspectionDirty : Bool
  cbPropertyGet : Option Fn
  cbPropertySet : Option Fn

/-- `introspectable` and `properties` are the interfaces of the library.
`references` is not kept by the code: the references that callers of
`e_dbus_interface_new` and `e_dbus_interface_ref` got and did not give back. -/
structure State (Fn : Type) where
  interfaces : InterfaceId → Option (Interface (Func Fn))
  objects : ObjectId → Option (Object Fn)
  introspectable : Option InterfaceId
  properties : Option InterfaceId
  nextInterface : InterfaceId
  nextObject : ObjectId
  references : InterfaceId → Nat
  touchedFreed : Bool

variable {Fn : Type}

/-- Nothing was created yet. -/
def State.initial : State Fn where
  interfaces _ := none
  objects _ := none
  introspectable := none
  properties := none
  nextInterface := 0
  nextObject := 0
  references _ := 0
  touchedFreed := false

/-- Something that was freed is used. -/
def State.touch (state : State Fn) : State Fn := { state with touchedFreed := true }

/-- Another value for an interface. -/
def State.setInterface (state : State Fn) (iface : InterfaceId) (interface : Option (Interface (Func Fn))) :
    State Fn :=
  { state with interfaces := Function.update state.interfaces iface interface }

/-- Another value for an object. -/
def State.setObject (state : State Fn) (obj : ObjectId) (object : Option (Object Fn)) : State Fn :=
  { state with objects := Function.update state.objects obj object }

/-! ## Interfaces -/

/-- `e_dbus_interface_new`. -/
def interfaceNew (state : State Fn) (name : String) : State Fn × InterfaceId :=
  ({ state with
      interfaces := Function.update state.interfaces state.nextInterface (some ⟨name, [], [], 1⟩)
      nextInterface := state.nextInterface + 1
      references := Function.update state.references state.nextInterface 1 }, state.nextInterface)

/-- `e_dbus_interface_ref`. -/
def interfaceRef (state : State Fn) (iface : InterfaceId) : State Fn :=
  match state.interfaces iface with
  | none => state.touch
  | some interface => state.setInterface iface (some { interface with refcount := interface.refcount + 1 })

/-- `e_dbus_interface_unref`. -/
def interfaceUnref (state : State Fn) (iface : InterfaceId) : State Fn :=
  match state.interfaces iface with
  | none => state.touch
  | some interface =>
    if interface.refcount - 1 = 0 then state.setInterface iface none
    else state.setInterface iface (some { interface with refcount := interface.refcount - 1 })

/-- `e_dbus_interface_ref`, by a caller that keeps the reference. -/
def take (state : State Fn) (iface : InterfaceId) : State Fn :=
  let referred := interfaceRef state iface
  { referred with references := Function.update referred.references iface (referred.references iface + 1) }

/-- `e_dbus_interface_unref`, by a caller that gives its reference back. -/
def giveBack (state : State Fn) (iface : InterfaceId) : State Fn :=
  let unreferred := interfaceUnref state iface
  { unreferred with references := Function.update unreferred.references iface (unreferred.references iface - 1) }

/-- `e_dbus_method_new`. -/
def methodNew (member signature replySignature : Option String) (func : Option (Func Fn)) :
    Option (Method (Func Fn)) :=
  match member, func with
  | some member, some func =>
    if signature.any (fun signature => !Semantics.Signature.validate signature) then none
    else if replySignature.any (fun signature => !Semantics.Signature.validate signature) then none
    else some ⟨member, signature, replySignature, func⟩
  | _, _ => none

/-- `e_dbus_interface_method_add`. -/
def interfaceMethodAdd (state : State Fn) (iface : InterfaceId) (member signature replySignature : Option String)
    (func : Option (Func Fn)) : State Fn :=
  match methodNew member signature replySignature func with
  | none => state
  | some method =>
    match state.interfaces iface with
    | none => state.touch
    | some interface => state.setInterface iface (some { interface with methods := interface.methods ++ [method] })

/-- `e_dbus_signal_new`. -/
def signalNew (name signature : Option String) : Option Signal :=
  match name with
  | none => none
  | some name =>
    if signature.any (fun signature => !Semantics.Signature.validate signature) then none
    else some ⟨name, signature⟩

/-- `e_dbus_interface_signal_add`. -/
def interfaceSignalAdd (state : State Fn) (iface : InterfaceId) (name signature : Option String) : State Fn :=
  match signalNew name signature with
  | none => state
  | some signal =>
    match state.interfaces iface with
    | none => state.touch
    | some interface => state.setInterface iface (some { interface with signals := interface.signals ++ [signal] })

/-! ## Objects -/

/-- The loop of `e_dbus_object_interface_attach`: whether an interface of the name
is attached. `none` is a freed interface in the list. -/
def nameAttached (state : State Fn) (name : String) : List InterfaceId → Option Bool
  | [] => some false
  | added :: rest =>
    match state.interfaces added with
    | none => none
    | some interface => if name = interface.name then some true else nameAttached state name rest

/-- `e_dbus_object_interface_attach`. -/
def interfaceAttach (state : State Fn) (obj : ObjectId) (iface : Option InterfaceId) : State Fn :=
  match state.objects obj, iface with
  | none, _ => state.touch
  | some _, none => state
  | some object, some iface =>
    match state.interfaces iface with
    | none => state.touch
    | some interface =>
      match nameAttached state interface.name object.interfaces with
      | none => state.touch
      | some true => state
      | some false =>
        (interfaceRef state iface).setObject obj
          (some { object with interfaces := object.interfaces ++ [iface], introspectionDirty := true })

/-- `e_dbus_object_interface_detach`. -/
def interfaceDetach (state : State Fn) (obj : ObjectId) (iface : InterfaceId) : State Fn :=
  match state.objects obj with
  | none => state.touch
  | some object =>
    if iface ∈ object.interfaces then
      interfaceUnref (state.setObject obj
        (some { object with interfaces := object.interfaces.erase iface, introspectionDirty := true })) iface
    else state

/-- `e_dbus_object_add`. `registered` is whether libdbus took the path. -/
def objectAdd (state : State Fn) (path : String) (registered : Bool) : State Fn :=
  if registered then
    interfaceAttach
      { state with
        objects := Function.update state.objects state.nextObject (some ⟨path, [], none, false, none, none⟩)
        nextObject := state.nextObject + 1 }
      state.nextObject state.introspectable
  else state

/-- `e_dbus_object_free`. -/
def objectFree (state : State Fn) (obj : ObjectId) : State Fn :=
  match state.objects obj with
  | none => state.touch
  | some object => (object.interfaces.foldl interfaceUnref state).setObject obj none

/-- The properties interface is attached when the first callback is set. -/
def attachProperties (state : State Fn) (obj : ObjectId) (object : Object Fn) : State Fn :=
  if object.cbPropertyGet.isNone && object.cbPropertySet.isNone then interfaceAttach state obj state.properties
  else state

/-- Changes the members of an object. -/
def State.mapObject (state : State Fn) (obj : ObjectId) (change : Object Fn → Object Fn) : State Fn :=
  state.setObject obj ((state.objects obj).map change)

/-- `e_dbus_object_property_get_cb_set`. -/
def propertyGetCbSet (state : State Fn) (obj : ObjectId) (func : Option Fn) : State Fn :=
  match state.objects obj with
  | none => state.touch
  | some object => (attachProperties state obj object).mapObject obj fun object => { object with cbPropertyGet := func }

/-- `e_dbus_object_property_set_cb_set`. -/
def propertySetCbSet (state : State Fn) (obj : ObjectId) (func : Option Fn) : State Fn :=
  match state.objects obj with
  | none => state.touch
  | some object => (attachProperties state obj object).mapObject obj fun object => { object with cbPropertySet := func }

/-! ## The interfaces of the library -/

def introspectableName : String := "org.freedesktop.DBus.Introspectable"
/-- `E_DBUS_FDO_INTERFACE_PROPERTIES`. -/
def propertiesName : String := "org.freedesktop.DBus.Properties"

/-- `e_dbus_object_init`. -/
def objectInit (state : State Fn) : State Fn :=
  let (state, introspectable) := interfaceNew state introspectableName
  let (state, properties) := interfaceNew state propertiesName
  let state := { state with introspectable := some introspectable, properties := some properties }
  let state := interfaceMethodAdd state introspectable (some "Introspect") (some "") (some "s") (some .introspect)
  let state := interfaceMethodAdd state properties (some "Get") (some "ss") (some "v") (some .propertiesGet)
  interfaceMethodAdd state properties (some "Set") (some "ssv") (some "") (some .propertiesSet)

/-- `e_dbus_object_shutdown`, where both interfaces were made. -/
def objectShutdown (state : State Fn) (introspectable properties : InterfaceId) : State Fn :=
  let state := { giveBack state introspectable with introspectable := none }
  { giveBack state properties with properties := none }

/-! ## Messages -/

/-- The interfaces of an object. -/
def State.attached (state : State Fn) (object : Object Fn) : List (Interface (Func Fn)) :=
  object.interfaces.filterMap state.interfaces

/-- An interface, as far as dispatch reads it. -/
def Interface.dispatched {Func : Type} (iface : Interface Func) : Object.Interface Func :=
  ⟨iface.name, iface.methods.map fun method => ⟨method.member, method.signature, method.func⟩⟩

/-- An object, as far as dispatch reads it. -/
def State.dispatched (state : State Fn) (object : Object Fn) : Object.ExportedObject (Func Fn) :=
  ⟨(state.attached object).map Interface.dispatched⟩

/-- The functions that `e_dbus_object_handler` calls for a message. `none` is a
`NULL` interface reaching `strcmp`. -/
def called (state : State Fn) (object : Object Fn) (message : Message) : Option (List (Func Fn)) :=
  (Object.handler (fun _ _ => (none : Option Unit)) (state.dispatched object) message).map Object.Outcome.called

/-- `cb_introspect`: the object with its cache filled, and the text that is replied. -/
def cbIntrospect (state : State Fn) (object : Object Fn) : Object Fn × String :=
  match object.introspectionDirty, object.introspectionData with
  | false, some data => (object, data)
  | _, _ =>
    let data := objectIntrospect object.path (state.attached object)
    ({ object with introspectionData := some data }, data)

/-- One call of the API, or one message for an object. The user passes interfaces
and objects that exist, and gives back only its own references. -/
inductive Label (Fn : Type) where
  | objectInit
  | objectShutdown
  | interfaceNew (name : Option String)
  | interfaceRef (iface : InterfaceId)
  | interfaceUnref (iface : InterfaceId)
  | interfaceMethodAdd (iface : InterfaceId) (member signature replySignature : Option String) (func : Option Fn)
  | interfaceSignalAdd (iface : InterfaceId) (name signature : Option String)
  | interfaceAttach (obj : ObjectId) (iface : Option InterfaceId)
  | interfaceDetach (obj : ObjectId) (iface : InterfaceId)
  | objectAdd (path : String) (registered : Bool)
  | objectFree (obj : ObjectId)
  | propertyGetCbSet (obj : ObjectId) (func : Option Fn)
  | propertySetCbSet (obj : ObjectId) (func : Option Fn)
  | call (obj : ObjectId) (message : Message)

/-- The references of the library itself. -/
def State.libraryReferences (state : State Fn) (iface : InterfaceId) : Nat :=
  (decide (state.introspectable = some iface)).toNat + (decide (state.properties = some iface)).toNat

/-- The interface exists. -/
def State.alive (state : State Fn) (iface : InterfaceId) : Bool := (state.interfaces iface).isSome

def step (state : State Fn) : Label Fn → Option (State Fn)
  | .objectInit =>
    match state.introspectable, state.properties with
    | none, none => some (objectInit state)
    | _, _ => none
  | .objectShutdown =>
    match state.introspectable, state.properties with
    | some introspectable, some properties => some (objectShutdown state introspectable properties)
    | _, _ => none
  | .interfaceNew none => some state
  | .interfaceNew (some name) => some (interfaceNew state name).1
  | .interfaceRef iface => if state.alive iface then some (take state iface) else none
  | .interfaceUnref iface =>
    if state.libraryReferences iface < state.references iface then some (giveBack state iface) else none
  | .interfaceMethodAdd iface member signature replySignature func =>
    if state.alive iface then
      some (interfaceMethodAdd state iface member signature replySignature (func.map .user))
    else none
  | .interfaceSignalAdd iface name signature =>
    if state.alive iface then some (interfaceSignalAdd state iface name signature) else none
  | .interfaceAttach obj iface =>
    if (state.objects obj).isSome ∧ iface.all state.alive then some (interfaceAttach state obj iface) else none
  | .interfaceDetach obj iface =>
    if (state.objects obj).isSome ∧ state.alive iface then some (interfaceDetach state obj iface) else none
  | .objectAdd path registered => some (objectAdd state path registered)
  | .objectFree obj => if (state.objects obj).isSome then some (objectFree state obj) else none
  | .propertyGetCbSet obj func =>
    if (state.objects obj).isSome then some (propertyGetCbSet state obj func) else none
  | .propertySetCbSet obj func =>
    if (state.objects obj).isSome then some (propertySetCbSet state obj func) else none
  | .call obj message =>
    match state.objects obj with
    | none => none
    | some object =>
      (called state object message).map fun functions =>
        match functions with
        | [.introspect] => state.setObject obj (some (cbIntrospect state object).1)
        | _ => state

/-- The exported objects of one process. -/
def machine : Semantics.Machine (State Fn) (Label Fn) := ⟨step⟩

/-- What every call does in a step, and what it may rely on. -/
inductive Stepped (state : State Fn) : Label Fn → State Fn → Prop where
  | objectInit (noIntrospectable : state.introspectable = none) (noProperties : state.properties = none) :
      Stepped state .objectInit (objectInit state)
  | objectShutdown {introspectable properties : InterfaceId}
      (isIntrospectable : state.introspectable = some introspectable)
      (isProperties : state.properties = some properties) :
      Stepped state .objectShutdown (objectShutdown state introspectable properties)
  | interfaceUnnamed : Stepped state (.interfaceNew none) state
  | interfaceNew (name : String) : Stepped state (.interfaceNew (some name)) (interfaceNew state name).1
  | interfaceRef {iface : InterfaceId} (alive : state.alive iface = true) :
      Stepped state (.interfaceRef iface) (take state iface)
  | interfaceUnref {iface : InterfaceId} (own : state.libraryReferences iface < state.references iface) :
      Stepped state (.interfaceUnref iface) (giveBack state iface)
  | interfaceMethodAdd {iface : InterfaceId} (alive : state.alive iface = true)
      (member signature replySignature : Option String) (func : Option Fn) :
      Stepped state (.interfaceMethodAdd iface member signature replySignature func)
        (interfaceMethodAdd state iface member signature replySignature (func.map .user))
  | interfaceSignalAdd {iface : InterfaceId} (alive : state.alive iface = true) (name signature : Option String) :
      Stepped state (.interfaceSignalAdd iface name signature) (interfaceSignalAdd state iface name signature)
  | interfaceAttach {obj : ObjectId} {object : Object Fn} {iface : Option InterfaceId}
      (found : state.objects obj = some object) (alive : iface.all state.alive = true) :
      Stepped state (.interfaceAttach obj iface) (interfaceAttach state obj iface)
  | interfaceDetach {obj : ObjectId} {object : Object Fn} {iface : InterfaceId}
      (found : state.objects obj = some object) (alive : state.alive iface = true) :
      Stepped state (.interfaceDetach obj iface) (interfaceDetach state obj iface)
  | objectAdd (path : String) (registered : Bool) :
      Stepped state (.objectAdd path registered) (objectAdd state path registered)
  | objectFree {obj : ObjectId} {object : Object Fn} (found : state.objects obj = some object) :
      Stepped state (.objectFree obj) (objectFree state obj)
  | propertyGetCbSet {obj : ObjectId} {object : Object Fn} (found : state.objects obj = some object)
      (func : Option Fn) : Stepped state (.propertyGetCbSet obj func)
        ((attachProperties state obj object).mapObject obj fun object => { object with cbPropertyGet := func })
  | propertySetCbSet {obj : ObjectId} {object : Object Fn} (found : state.objects obj = some object)
      (func : Option Fn) : Stepped state (.propertySetCbSet obj func)
        ((attachProperties state obj object).mapObject obj fun object => { object with cbPropertySet := func })
  | introspected {obj : ObjectId} {object : Object Fn} {message : Message} (found : state.objects obj = some object)
      (isCalled : called state object message = some [.introspect]) :
      Stepped state (.call obj message) (state.setObject obj (some (cbIntrospect state object).1))
  | served {obj : ObjectId} {object : Object Fn} (message : Message) (found : state.objects obj = some object) :
      Stepped state (.call obj message) state

theorem step_cases {state next : State Fn} {label : Label Fn} (stepped : step state label = some next) :
    Stepped state label next := by
  cases label with
  | objectInit =>
      simp only [step] at stepped
      split at stepped
      · next noIntrospectable noProperties =>
          cases stepped
          exact .objectInit noIntrospectable noProperties
      · cases stepped
  | objectShutdown =>
      simp only [step] at stepped
      split at stepped
      · next isIntrospectable isProperties =>
          cases stepped
          exact .objectShutdown isIntrospectable isProperties
      · cases stepped
  | interfaceNew name =>
      cases name with
      | none =>
          cases stepped
          exact .interfaceUnnamed
      | some name =>
          cases stepped
          exact .interfaceNew name
  | interfaceRef iface =>
      simp only [step, Option.ite_none_right_eq_some, Option.some.injEq] at stepped
      obtain ⟨alive, rfl⟩ := stepped
      exact .interfaceRef alive
  | interfaceUnref iface =>
      simp only [step, Option.ite_none_right_eq_some, Option.some.injEq] at stepped
      obtain ⟨own, rfl⟩ := stepped
      exact .interfaceUnref own
  | interfaceMethodAdd iface member signature replySignature func =>
      simp only [step, Option.ite_none_right_eq_some, Option.some.injEq] at stepped
      obtain ⟨alive, rfl⟩ := stepped
      exact .interfaceMethodAdd alive member signature replySignature func
  | interfaceSignalAdd iface name signature =>
      simp only [step, Option.ite_none_right_eq_some, Option.some.injEq] at stepped
      obtain ⟨alive, rfl⟩ := stepped
      exact .interfaceSignalAdd alive name signature
  | interfaceAttach obj iface =>
      simp only [step, Option.ite_none_right_eq_some, Option.some.injEq] at stepped
      obtain ⟨⟨isObject, alive⟩, rfl⟩ := stepped
      obtain ⟨object, found⟩ := Option.isSome_iff_exists.mp isObject
      exact .interfaceAttach found alive
  | interfaceDetach obj iface =>
      simp only [step, Option.ite_none_right_eq_some, Option.some.injEq] at stepped
      obtain ⟨⟨isObject, alive⟩, rfl⟩ := stepped
      obtain ⟨object, found⟩ := Option.isSome_iff_exists.mp isObject
      exact .interfaceDetach found alive
  | objectAdd path registered =>
      cases stepped
      exact .objectAdd path registered
  | objectFree obj =>
      simp only [step, Option.ite_none_right_eq_some, Option.some.injEq] at stepped
      obtain ⟨isObject, rfl⟩ := stepped
      obtain ⟨object, found⟩ := Option.isSome_iff_exists.mp isObject
      exact .objectFree found
  | propertyGetCbSet obj func =>
      simp only [step, Option.ite_none_right_eq_some, Option.some.injEq] at stepped
      obtain ⟨isObject, rfl⟩ := stepped
      obtain ⟨object, found⟩ := Option.isSome_iff_exists.mp isObject
      simp only [propertyGetCbSet, found]
      exact .propertyGetCbSet found func
  | propertySetCbSet obj func =>
      simp only [step, Option.ite_none_right_eq_some, Option.some.injEq] at stepped
      obtain ⟨isObject, rfl⟩ := stepped
      obtain ⟨object, found⟩ := Option.isSome_iff_exists.mp isObject
      simp only [propertySetCbSet, found]
      exact .propertySetCbSet found func
  | call obj message =>
      simp only [step] at stepped
      split at stepped
      · cases stepped
      · next object found =>
          obtain ⟨functions, isCalled, rfl⟩ := Option.map_eq_some_iff.mp stepped
          split
          · exact .introspected found isCalled
          · exact .served message found

/-! ## What attaching, detaching and freeing are made of -/

/-- One change of a count or a list. -/
inductive Edit (state : State Fn) : State Fn → Prop where
  | touch : Edit state state.touch
  | recount {iface : InterfaceId} {interface : Interface (Func Fn)} (found : state.interfaces iface = some interface)
      (refcount : Int) : Edit state (state.setInterface iface (some { interface with refcount := refcount }))
  | free (iface : InterfaceId) : Edit state (state.setInterface iface none)
  | relist {obj : ObjectId} {object : Object Fn} (found : state.objects obj = some object)
      (interfaces : List InterfaceId) :
      Edit state (state.setObject obj (some { object with interfaces := interfaces, introspectionDirty := true }))
  | forget (obj : ObjectId) : Edit state (state.setObject obj none)

/-- Several such changes, one after the other. -/
def Edited : State Fn → State Fn → Prop := Relation.ReflTransGen Edit

variable {state : State Fn}

/-- The invariant rule for edits. -/
theorem Edited.invariant {invariant : State Fn → Prop} {after : State Fn} (edited : Edited state after)
    (preserved : ∀ before next, invariant before → Edit before next → invariant next) (holds : invariant state) :
    invariant after := by
  induction edited with
  | refl => exact holds
  | tail _ edit ih => exact preserved _ _ ih edit

theorem interfaceRef_objects (state : State Fn) (iface : InterfaceId) :
    (interfaceRef state iface).objects = state.objects := by
  unfold interfaceRef
  split <;> rfl

theorem interfaceUnref_objects (state : State Fn) (iface : InterfaceId) :
    (interfaceUnref state iface).objects = state.objects := by
  unfold interfaceUnref
  split
  · rfl
  · split <;> rfl

theorem interfaceRef_edited (state : State Fn) (iface : InterfaceId) : Edited state (interfaceRef state iface) := by
  unfold interfaceRef
  split
  · exact .single .touch
  · next found => exact .single (.recount found _)

theorem interfaceUnref_edited (state : State Fn) (iface : InterfaceId) : Edited state (interfaceUnref state iface) := by
  unfold interfaceUnref
  split
  · exact .single .touch
  · next found =>
      split
      · exact .single (.free iface)
      · exact .single (.recount found _)

theorem interfaceAttach_edited (state : State Fn) (obj : ObjectId) (iface : Option InterfaceId) :
    Edited state (interfaceAttach state obj iface) := by
  unfold interfaceAttach
  split
  · exact .single .touch
  · exact .refl
  · next object added found =>
      split
      · exact .single .touch
      · split
        · exact .single .touch
        · exact .refl
        · have stillFound : (interfaceRef state added).objects obj = some object := by
            rw [interfaceRef_objects, found]
          exact (interfaceRef_edited state added).tail (.relist stillFound _)

theorem interfaceDetach_edited (state : State Fn) (obj : ObjectId) (iface : InterfaceId) :
    Edited state (interfaceDetach state obj iface) := by
  unfold interfaceDetach
  split
  · exact .single .touch
  · next object found =>
      split
      · exact .head (.relist found _) (interfaceUnref_edited _ iface)
      · exact .refl

/-- A new object is there. -/
def State.addObject (state : State Fn) (object : Object Fn) : State Fn :=
  { state with
    objects := Function.update state.objects state.nextObject (some object)
    nextObject := state.nextObject + 1 }

theorem objectAdd_edited (state : State Fn) (path : String) (registered : Bool) :
    objectAdd state path registered = state ∨
      Edited (state.addObject ⟨path, [], none, false, none, none⟩) (objectAdd state path registered) := by
  unfold objectAdd
  split
  · exact .inr (interfaceAttach_edited (state.addObject ⟨path, [], none, false, none, none⟩) _ _)
  · exact .inl rfl

theorem objectFree_edited (state : State Fn) (obj : ObjectId) : Edited state (objectFree state obj) := by
  have all : ∀ (listed : List InterfaceId) (start : State Fn), Edited start (listed.foldl interfaceUnref start) := by
    intro listed
    induction listed with
    | nil => exact fun _ => .refl
    | cons iface _ ih => exact fun start => .trans (interfaceUnref_edited start iface) (ih _)
  unfold objectFree
  split
  · exact .single .touch
  · exact .tail (all _ state) (.forget obj)

theorem attachProperties_edited (state : State Fn) (obj : ObjectId) (object : Object Fn) :
    Edited state (attachProperties state obj object) := by
  unfold attachProperties
  split
  · exact interfaceAttach_edited state obj _
  · exact .refl

end EDBus.Dbus.Exported
