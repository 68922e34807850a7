import EDBus.Elements.Value
import EDBus.Semantics.CursorDiff
import Mathlib.Logic.Function.Basic

/-!
# The element table and what messages do to it

The three modules share the code of `e_connman_element.c`, up to the names of
lists, interfaces and calls. One definition with a `Family` argument stands for
the three functions of a name. `accepts` tells which calls libdbus can send.
-/

namespace EDBus.Elements

/-- An `E_Connman_Element` or a sibling of it. -/
abbrev ElementId := Nat
/-- A pending call with its record and its call data. -/
abbrev CallId := Nat

/-- The lists of `_pending` in the element structures. -/
inductive PendingList where
  | propertiesGet
  | propertySet
  | agentRegister
  | agentUnregister
  | requestScan
  | technologyEnable
  | technologyDisable
  | profileRemove
  | serviceConnect
  | serviceDisconnect
  | serviceRemove
  | serviceMoveBefore
  | serviceMoveAfter
  | serviceClearProperty
  | startDiscovery
  | stopDiscovery
  | createPairedDevice
  | sendSms
deriving DecidableEq, Repr

/-- The lists that an element of the module has. -/
def Family.pendingLists : Family → List PendingList
  | .connman => [.propertiesGet, .propertySet, .agentRegister, .agentUnregister, .requestScan,
      .technologyEnable, .technologyDisable, .profileRemove, .serviceConnect, .serviceDisconnect,
      .serviceRemove, .serviceMoveBefore, .serviceMoveAfter, .serviceClearProperty]
  | .bluez => [.propertiesGet, .propertySet, .agentRegister, .agentUnregister, .startDiscovery,
      .stopDiscovery, .createPairedDevice]
  | .ofono => [.propertiesGet, .propertySet, .sendSms]

/-- The lists that `_element_free` cancels, in its order. -/
def Family.freeOrder : Family → List PendingList
  | .connman => Family.connman.pendingLists
  | .bluez => [.propertiesGet, .propertySet, .agentRegister, .agentUnregister]
  | .ofono => Family.ofono.pendingLists

/-- An element. `signalHandler` and `idlerChanged` are whether those fields are
set, `references` is `_references`. -/
structure Element where
  path : String
  interface : String
  signalHandler : Bool
  props : List Property
  pending : PendingList → List CallId
  idlerChanged : Bool
  references : Int

/-- The list of properties after one got a value. -/
def propsSet (props : List Property) (name : String) (value : Value) : List Property :=
  match props with
  | [] => [⟨name, value⟩]
  | property :: rest =>
    if property.name = name then ⟨name, value⟩ :: rest else property :: propsSet rest name value

/-- The value of a property. -/
def propsGet (props : List Property) (name : String) : Option Value :=
  (props.find? fun property => property.name == name).map Property.value

/-- The field `_references` goes up. -/
def Element.addReference (element : Element) : Element :=
  { element with references := element.references + 1 }

/-- A property gets a value. -/
def Element.setProperty (name : String) (value : Value) (element : Element) : Element :=
  { element with props := propsSet element.props name value }

/-- A call joins one of the lists. -/
def Element.appendCall (list : PendingList) (call : CallId) (element : Element) : Element :=
  { element with
    pending := Function.update element.pending list (element.pending list ++ [call]) }

/-- The idler of `_element_listeners_call` is added. -/
def Element.armIdler (element : Element) : Element :=
  { element with idlerChanged := true }

/-- The Ecore events that carry an element. -/
inductive Event where
  | add
  | updated
  | del
  | deviceFound
deriving DecidableEq, Repr

/-- The D-Bus signals that an element listens to. -/
inductive Signal where
  | propertyChanged
  | deviceFound
deriving DecidableEq, Repr

/-- The record and the call data of a pending call. `libraryCb` is whether the
callback of the call data is the one that reads properties; no other is used.
The call is `outstanding` until `pending->pending` is cleared. -/
structure Call where
  element : ElementId
  list : PendingList
  libraryCb : Bool
  userCb : Bool
  outstanding : Bool
deriving DecidableEq, Repr

/-- What the callbacks of a call get: the reply, an error of the server or the
error `Canceled`. -/
inductive Answer where
  | reply
  | error
  | canceled
deriving DecidableEq, Repr

/-- What a running function is busy with: the callbacks of a call, of which a user
may have set one, the cancelling of the lists of an element that is being freed, or
the listeners of an element. -/
inductive Frame where
  | callback (call : CallId) (userCb : Bool)
  | freeing (e : ElementId) (remaining : List PendingList)
  | listeners (e : ElementId)
deriving DecidableEq, Repr

/-- `table` is the hash `elements`. `handlers`, `idlers` and `events` are the live
signal handlers, idlers and the queue of Ecore events, by the element they carry.
A freed or invalid pointer was used if `fault`, and a freed record of a call if
`callFault`. The last three fields are not kept by the code: the references that
users hold, every event ever queued, and what the callbacks of a call got, each time
they were called. -/
structure State where
  elements : ElementId → Option Element
  table : List (String × ElementId)
  handlers : List (Signal × ElementId)
  idlers : List ElementId
  events : List (Event × ElementId)
  calls : CallId → Option Call
  stack : List Frame
  nextElement : ElementId
  nextCall : CallId
  fault : Bool
  callFault : Bool
  userRefs : ElementId → Nat
  queued : List (Event × ElementId)
  answers : CallId → List Answer

/-- A module after `_elements_init`. -/
def State.initial : State where
  elements _ := none
  table := []
  handlers := []
  idlers := []
  events := []
  calls _ := none
  stack := []
  nextElement := 0
  nextCall := 0
  fault := false
  callFault := false
  userRefs _ := 0
  queued := []
  answers _ := []

/-- A pointer to an element is followed. -/
def State.modify (state : State) (e : ElementId) (change : Element → Element) : State :=
  match state.elements e with
  | none => { state with fault := true }
  | some element =>
    { state with elements := Function.update state.elements e (some (change element)) }

/-- A pointer to an element is followed, and the element left as it is. -/
def State.touch (state : State) (e : ElementId) : State :=
  { state with fault := state.fault || (state.elements e).isNone }

/-! ## Registration -/

/-- `MAX_KEY_SIZE`. -/
def maxKeySize : Nat := 4096

/-- What `snprintf` leaves of a text in a buffer of that size, byte by byte. -/
def keyPrint (text : String) : String :=
  String.ofList ((text.toUTF8.data.toList.take (maxKeySize - 1)).map fun byte =>
    Char.ofNat byte.toNat)

/-- The key of an element in the hash. Only ofono uses the interface. -/
def Family.key (family : Family) (path interface : String) : String :=
  match family with
  | .ofono => keyPrint (path ++ ":" ++ interface)
  | _ => path

/-- `eina_hash_find`. -/
def State.find (state : State) (key : String) : Option ElementId := state.table.lookup key

/-- `_element_get`. -/
def elementGet (family : Family) (state : State) (path interface : String) : Option ElementId :=
  state.find (family.key path interface)

/-- `ecore_event_add`. -/
def ecoreEventAdd (state : State) (event : Event) (e : ElementId) : State :=
  { state with events := state.events ++ [(event, e)], queued := state.queued ++ [(event, e)] }

/-- `_element_event_add`: the event holds a reference. -/
def eventAdd (state : State) (event : Event) (e : ElementId) : State :=
  ecoreEventAdd (state.modify e Element.addReference) event e

/-- `_element_new`. -/
def elementNew (path interface : String) : Element where
  path := path
  interface := interface
  signalHandler := true
  props := []
  pending _ := []
  idlerChanged := false
  references := 1

/-- `_element_register` for a key that is not in the hash, up to the event. -/
def elementInsert (family : Family) (state : State) (path interface : String) : State :=
  { state with
    elements := Function.update state.elements state.nextElement
      (some (elementNew path interface))
    table := state.table ++ [(family.key path interface, state.nextElement)]
    handlers := state.handlers ++ [(.propertyChanged, state.nextElement)]
    nextElement := state.nextElement + 1 }

/-- `_element_register`. -/
def elementRegister (family : Family) (state : State) (path interface : String) :
    State × ElementId :=
  match elementGet family state path interface with
  | some e => (state, e)
  | none => (eventAdd (elementInsert family state path interface) .add state.nextElement,
      state.nextElement)

/-- `_element_unregister_internal`, which the hash calls for what leaves it. -/
def unregisterInternal (state : State) (e : ElementId) : State :=
  match state.elements e with
  | none => { state with fault := true }
  | some element =>
    ecoreEventAdd
      { state with
        elements := Function.update state.elements e (some { element with signalHandler := false })
        handlers := if element.signalHandler then state.handlers.erase (.propertyChanged, e)
          else state.handlers }
      .del e

/-- `eina_hash_del_by_key`. -/
def hashDel (state : State) (key : String) : State :=
  match state.find key with
  | none => state
  | some e =>
    unregisterInternal { state with table := state.table.filter fun entry => entry.1 != key } e

/-- `_element_unregister`: the entry that goes is the one with the element's key. -/
def elementUnregister (family : Family) (state : State) (e : ElementId) : State :=
  match state.elements e with
  | none => { state with fault := true }
  | some element => hashDel state (family.key element.path element.interface)

/-- `_manager_clear_elements`. -/
def clearElements (state : State) : State :=
  (state.table.map Prod.snd).foldl unregisterInternal { state with table := [] }

/-! ## Calls -/

section Calls

variable (accepts : CallId → Bool)

/-- A call is on its way. -/
def callNew (state : State) (call : Call) : State :=
  { state with
    calls := Function.update state.calls state.nextCall (some call)
    nextCall := state.nextCall + 1 }

/-- A call could not be sent. -/
def callDrop (state : State) : State :=
  { state with nextCall := state.nextCall + 1 }

/-- `_element_message_send`. -/
def messageSend (state : State) (e : ElementId) (list : PendingList) (libraryCb userCb : Bool) :
    State :=
  if accepts state.nextCall then
    callNew (state.modify e (Element.appendCall list state.nextCall))
      ⟨e, list, libraryCb, userCb, true⟩
  else callDrop (state.touch e)

/-- `_element_properties_sync`. -/
def propertiesSync (state : State) (e : ElementId) : State :=
  messageSend accepts state e .propertiesGet true false

/-! ## Object paths in arrays -/

/-- `_element_get_interface`. -/
def Family.getInterface : Family → String → Option String
  | .connman, "Profiles" => some "net.connman.Profile"
  | .connman, "Services" => some "net.connman.Service"
  | .connman, "Technologies" => some "net.connman.Technology"
  | .bluez, "Adapters" => some "org.bluez.Adapter"
  | .bluez, "Devices" => some "org.bluez.Device"
  | .ofono, "Modems" => some "org.ofono.Modem"
  | _, _ => none

/-- `_element_item_register`. -/
def itemRegister (family : Family) (name : String) (state : State) (item : String) : State :=
  match family.getInterface name with
  | none => state
  | some interface =>
    let registered := elementRegister family state item interface
    propertiesSync accepts registered.1 registered.2

/-- The call of `_element_item_register` in `_element_array_match`, and for the
interfaces of ofono the call that stands in its place. -/
def matchAdd (family : Family) (name : String) (e : ElementId) (state : State) : Item → State
  | .str item =>
    if family = .ofono ∧ name = "Interfaces" then
      match state.elements e with
      | none => { state with fault := true }
      -- the item is an interface, but is passed as the path
      | some element => (elementRegister family state item element.path).1
    else itemRegister accepts family name state item
  | _ =>
    if (family.getInterface name).isSome ∨ family = .ofono ∧ name = "Interfaces" then
      { state with fault := true }
    else state

/-- The element that `_element_array_match` looks up for an item. -/
def matchGet (family : Family) (name : String) (e : ElementId) (state : State) :
    Item → Option ElementId
  | .str item =>
    if family = .ofono then
      if name = "Interfaces" then
        (state.elements e).bind fun element => elementGet family state element.path item
      else (family.getInterface name).bind fun interface => elementGet family state item interface
    else elementGet family state item ""
  | _ => none

/-- An item is looked up and its element unregistered. -/
def matchRemove (family : Family) (name : String) (e : ElementId) (state : State) (item : Item) :
    State :=
  match matchGet family name e state item with
  | none => state
  | some found => elementUnregister family state found

/-- The item that the loop over `deleted` looks up: ofono does not use `data` for
interfaces, but what is left in `item_old`. -/
def deletedItem (family : Family) (name : String) (itemOld : Option Item) (data : Item) : Item :=
  if family = .ofono ∧ name = "Interfaces" then itemOld.getD data else data

/-- The types of arrays that are matched at all. -/
def matchesType (family : Family) : ArrayType → Bool
  | .objectPath => true
  | .string => family = .ofono
  | _ => false

/-- `_element_array_match`. -/
def arrayMatch (family : Family) (state : State) (old : ElementArray) (new : Option ElementArray)
    (name : String) (e : ElementId) : State :=
  if !matchesType family old.type then state
  else
    let newItems := new.elim [] ElementArray.items
    let walk := Semantics.CursorDiff.walk old.items newItems
    let registered := (Semantics.CursorDiff.added old.items newItems).foldl
      (matchAdd accepts family name e) state
    let deleted := ((Semantics.CursorDiff.leftover old.items newItems).map
      (deletedItem family name walk.lastSeen)).foldl (matchRemove family name e) registered
    walk.oldRest.foldl (matchRemove family name e) deleted

/-! ## Properties -/

/-- `_element_property_value_add`, and whether it returns 1. -/
def propertyValueAdd (family : Family) (state : State) (e : ElementId) (name : String)
    (value : Value) : State × Bool :=
  match state.elements e with
  | none => ({ state with fault := true }, false)
  | some element =>
    match propsGet element.props name with
    | none => (state.modify e (Element.setProperty name value), true)
    | some stored =>
      let matched := match stored.matched value with
        | none => state
        | some (old, new) => arrayMatch accepts family state old new name e
      (matched.modify e (Element.setProperty name value), stored.changed value)

/-- `_element_iter_get_array` and its basic counterpart: the paths of an array are
registered one by one. -/
def wireDecode (family : Family) (state : State) (name : String) (wire : Wire) : State :=
  wire.paths.foldl (itemRegister accepts family name) state

/-- ofono registers the interfaces of a changed property `Interfaces`. `again` is
the second registration that the handler of the signal makes. -/
def interfaceRegister (again : Bool) (e : ElementId) (state : State) : Item → State
  | .str interface =>
    match state.elements e with
    | none => { state with fault := true }
    | some element =>
      let first := elementRegister .ofono state element.path interface
      let registered := if again then elementRegister .ofono first.1 element.path interface else first
      propertiesSync accepts registered.1 registered.2
  | _ => { state with fault := true }

/-- The interfaces of the value of a property. A value that is not an array is
read as one, unless it is `NULL`. -/
def interfacesRegister (family : Family) (again : Bool) (state : State) (e : ElementId)
    (name : String) (wire : Wire) : State :=
  if family = .ofono ∧ name = "Interfaces" then
    match wire with
    | .array items =>
      ((arrayBuild family items).elim [] ElementArray.items).foldl
        (interfaceRegister accepts again e) state
    | .basic value => if value.isNull then state else { state with fault := true }
    | .other _ isZero => if isZero then state else { state with fault := true }
  else state

/-- One property of a message: it is decoded and stored. -/
def propertyReceive (family : Family) (again : Bool) (state : State) (e : ElementId) (name : String)
    (wire : Wire) : State × Bool :=
  let decoded := wireDecode accepts family state name wire
  let stored := propertyValueAdd accepts family decoded e name (wire.value family)
  if stored.2 then
    (interfacesRegister accepts family again stored.1 e name wire, true)
  else stored

/-- `ecore_idler_add`. -/
def ecoreIdlerAdd (state : State) (e : ElementId) : State :=
  { state with idlers := state.idlers ++ [e] }

/-- `_element_listeners_call`. -/
def listenersCall (state : State) (e : ElementId) : State :=
  match state.elements e with
  | none => { state with fault := true }
  | some element =>
    if element.idlerChanged then state else ecoreIdlerAdd (state.modify e Element.armIdler) e

/-- The loop of `_element_get_properties_callback`. -/
def propertiesReceive (family : Family) (e : ElementId) :
    State × Bool → List (String × Wire) → State × Bool
  | received, [] => received
  | received, (name, wire) :: rest =>
    let next := propertyReceive accepts family false received.1 e name wire
    propertiesReceive family e (next.1, received.2 || next.2) rest

/-- `_element_get_properties_callback` for a reply that has properties. -/
def getPropertiesCallback (family : Family) (state : State) (e : ElementId)
    (properties : List (String × Wire)) : State :=
  let received := propertiesReceive accepts family e (state, false) properties
  if received.2 then listenersCall received.1 e else received.1

/-- `_element_property_changed_callback`. -/
def propertyChangedCallback (family : Family) (state : State) (e : ElementId) (name : String)
    (wire : Wire) : State :=
  let received := propertyReceive accepts family true state e name wire
  if received.2 then listenersCall received.1 e else received.1

/-- The interface of the manager. -/
def Family.managerInterface : Family → String
  | .connman => "net.connman.Manager"
  | .bluez => "org.bluez.Manager"
  | .ofono => "org.ofono.Manager"

/-- `_manager_sync_elements`, when the name has an owner. -/
def managerSync (family : Family) (state : State) : State :=
  let registered := elementRegister family state "/" family.managerInterface
  propertiesSync accepts registered.1 registered.2

end Calls

end EDBus.Elements
