import EDBus.Dbus.Object
import EDBus.Semantics.Execution
import Mathlib.Data.List.Count
import Mathlib.Logic.Function.Basic

/-!
# The notification daemon

A daemon asks the bus for its name and exports an object once it has it. All daemons of a process
share the session connection and one interface. A reference is kept with whose it is, so that a
reference count is the number of holders. `answers` is what the bus replied to each daemon, which the
code does not keep.
-/

open Semantics
open EDBus.Dbus.Object (Method Interface ExportedObject)

namespace EDBus.Notify.Daemon

/-- An `E_Notification_Daemon`. -/
abbrev DaemonId := Nat

/-- The functions behind the methods of the exported object. -/
inductive Func where
  | introspect
  | getCapabilities
  | notify
  | closeNotification
  | getServerInformation
deriving DecidableEq, Repr

/-- `E_Notification_Daemon` but for its connection, which is the one of the session, and the data of
the user. `notify` and `closeNotification` are whether these functions are set, `obj` whether there is
an object. -/
structure Record where
  name : String
  vendor : String
  notify : Bool
  closeNotification : Bool
  obj : Bool
deriving DecidableEq, Repr

/-- Who holds a reference to the connection or to the interface. -/
inductive Holder where
  | library
  | daemon (d : DaemonId)
  /-- The object of a daemon. -/
  | object (d : DaemonId)
  | other
deriving DecidableEq, Repr

/-- The session connection. `exported` is the data of the object that is registered for the path of
notifications, `requests` are the daemons whose `RequestName` is not answered. -/
structure Connection where
  holders : List Holder
  exported : Option DaemonId
  requests : List DaemonId
deriving DecidableEq, Repr

/-- The reply to `RequestName`. A malformed one has no number. -/
inductive NameReply where
  | code (ret : UInt32)
  | malformed
  | error
deriving DecidableEq, Repr

/-- `DBUS_REQUEST_NAME_REPLY_PRIMARY_OWNER`. -/
def primaryOwner : UInt32 := 1
/-- `DBUS_REQUEST_NAME_REPLY_ALREADY_OWNER`. -/
def alreadyOwner : UInt32 := 4

/-- The daemon has the name. -/
def NameReply.grants : NameReply → Bool
  | code ret => ret = primaryOwner || ret = alreadyOwner
  | malformed => false
  | error => false

/-- `daemons` holds those that are allocated, `dispatches` is the number of running idlers. -/
structure State where
  daemons : DaemonId → Option Record
  nextDaemon : DaemonId
  iface : Interface Func
  ifaceHolders : List Holder
  connection : Option Connection
  dispatches : Nat
  touchedFreed : Bool
  answers : DaemonId → Option NameReply

/-- `E_NOTIFICATION_INTERFACE`. -/
def notificationInterface : String := "org.freedesktop.Notifications"

/-- `e_notification_daemon_init` made the interface, and there was no daemon yet. -/
def State.initial : State where
  daemons _ := none
  nextDaemon := 0
  iface := ⟨notificationInterface, []⟩
  ifaceHolders := [.library]
  connection := none
  dispatches := 0
  touchedFreed := false
  answers _ := none

/-! ## The connection and the interface -/

/-- `e_dbus_bus_get` for the session. -/
def busGet (state : State) (holder : Holder) : State :=
  { state with
    connection := match state.connection with
      | none => some ⟨[holder], none, []⟩
      | some conn => some { conn with holders := conn.holders ++ [holder] } }

/-- Nobody holds the connection any more and no idler runs: it is closed, and its calls are never
answered. -/
def connectionSettle (state : State) : State :=
  match state.connection with
  | none => state
  | some conn => if conn.holders = [] ∧ state.dispatches = 0 then { state with connection := none } else state

/-- `e_dbus_connection_close`. In an idler the connection is kept until that returns. -/
def connectionClose (state : State) (holder : Holder) : State :=
  connectionSettle { state with
    connection := state.connection.map fun conn => { conn with holders := conn.holders.erase holder } }

/-- `e_dbus_interface_ref`. -/
def interfaceRef (state : State) (holder : Holder) : State :=
  { state with ifaceHolders := state.ifaceHolders ++ [holder] }

/-- `e_dbus_interface_unref`. `e_dbus_interface_free` frees the methods. -/
def interfaceUnref (state : State) (holder : Holder) : State :=
  let holders := state.ifaceHolders.erase holder
  { state with
    ifaceHolders := holders
    iface := if holders = [] then { state.iface with methods := [] } else state.iface }

/-- `e_dbus_interface_method_add`. -/
def interfaceMethodAdd (iface : Interface Func) (method : Method Func) : Interface Func :=
  { iface with methods := iface.methods ++ [method] }

/-- The methods that `e_notification_daemon_add` adds. -/
def daemonMethods : List (Method Func) :=
  [⟨"GetCapabilities", some "", .getCapabilities⟩,
    ⟨"Notify", some "susssasa{sv}i", .notify⟩,
    ⟨"CloseNotification", some "u", .closeNotification⟩,
    ⟨"GetServerInformation", some "", .getServerInformation⟩]

/-! ## Daemons -/

/-- `e_notification_daemon_add` where a daemon can be allocated and the bus be reached. -/
def daemonAdd (state : State) (name vendor : String) : State :=
  let d := state.nextDaemon
  let got := busGet state (.daemon d)
  let shared := interfaceRef
    { got with
      -- the name is asked for before the name and the vendor are set
      connection := got.connection.map fun conn => { conn with requests := conn.requests ++ [d] }
      daemons := Function.update got.daemons d (some ⟨name, vendor, false, false, false⟩)
      nextDaemon := d + 1 }
    (.daemon d)
  { shared with iface := daemonMethods.foldl interfaceMethodAdd shared.iface }

/-- `e_dbus_object_free` for the object of a daemon. -/
def objectFree (state : State) (d : DaemonId) : State :=
  connectionClose
    { state with connection := state.connection.map fun conn => { conn with exported := none } }
    (.object d)

/-- `e_notification_daemon_free`. -/
def daemonFree (state : State) (d : DaemonId) : State :=
  match state.daemons d with
  | none => { state with touchedFreed := true }
  | some daemon =>
    let unexported := if daemon.obj then objectFree (interfaceUnref state (.object d)) d else state
    let unreferenced := interfaceUnref (connectionClose unexported (.daemon d)) (.daemon d)
    { unreferenced with daemons := Function.update unreferenced.daemons d none }

/-- `e_notification_daemon_object_init`. `allocated` is whether there is memory for the object. Only
one object can be registered for a path. -/
def objectInit (state : State) (d : DaemonId) (allocated : Bool) : State :=
  match state.daemons d, state.connection with
  | none, _ => { state with touchedFreed := true }
  | some _, none => state
  | some daemon, some conn =>
    if allocated = true ∧ conn.exported = none then
      interfaceRef
        { state with
          connection := some { conn with holders := conn.holders ++ [.object d], exported := some d }
          daemons := Function.update state.daemons d (some { daemon with obj := true }) }
        (.object d)
    else state

/-- The idler takes the reply off the connection, before the callback runs. -/
def replyTaken (state : State) (conn : Connection) (d : DaemonId) (reply : NameReply) : State :=
  { state with
    connection := some { conn with requests := conn.requests.filter (· ≠ d) }
    dispatches := state.dispatches + 1
    answers := Function.update state.answers d (some reply) }

/-- `cb_request_name`. -/
def cbRequestName (state : State) (d : DaemonId) (reply : NameReply) (allocated : Bool) : State :=
  if reply.grants then objectInit state d allocated else state

/-! ## Method calls -/

/-- What a method replies. -/
inductive MethodReply where
  | introspection
  | capabilities (names : List String)
  | notified (id : Int)
  | error (name text : String)
  | empty
  | serverInformation (name vendor version specVersion : String)
deriving DecidableEq, Repr

/-- The function reads the data of the object it is called for. -/
def Func.readsDaemon : Func → Bool
  | introspect => false
  | getCapabilities => false
  | notify => true
  | closeNotification => true
  | getServerInformation => true

/-- The functions of the methods, for an object whose daemon may be gone. `id` is what the user's
function returns; nothing of the daemon is read after that. -/
def behave (daemon : Option Record) (id : Int) (func : Func) (_ : Dbus.Message) : Option MethodReply :=
  match func, daemon with
  | .introspect, _ => some .introspection
  | .getCapabilities, _ => some (.capabilities ["body", "actions"])
  | .notify, some daemon =>
    if daemon.notify then some (.notified id)
    else some (.error (notificationInterface ++ ".Unimplemented")
      "This functionality has not yet been implemented")
  | .closeNotification, some _ => some .empty
  | .getServerInformation, some daemon => some (.serverInformation daemon.name daemon.vendor "0.9" "1.2")
  | _, none => none

/-- The object of a daemon has the interface that every object has, and the one of notifications. -/
def exportedObject (state : State) : ExportedObject Func :=
  ⟨[⟨"org.freedesktop.DBus.Introspectable", [⟨"Introspect", some "", .introspect⟩]⟩, state.iface]⟩

/-- A call of a method of the object with the given data. -/
def methodCall (state : State) (d : DaemonId) (message : Dbus.Message) (id : Int) :
    Option (Dbus.Object.Outcome Func MethodReply) :=
  Dbus.Object.handler (behave (state.daemons d) id) (exportedObject state) message

/-! ## Steps -/

inductive Label where
  | daemonAdd (name vendor : String) (allocated connected : Bool)
  | daemonFree (d : DaemonId)
  | callbackSet (d : DaemonId) (notify closeNotification : Bool)
  | requestNameReply (d : DaemonId) (reply : NameReply) (allocated : Bool)
  | methodCall (message : Dbus.Message) (id : Int)
  | idlerLeave
  /-- Others use the session connection too. -/
  | otherGet
  | otherClose
deriving DecidableEq, Repr

/-- What user code does runs in the main loop or in an idler, as the steps after the message that
called it. Users free and change only daemons that there are, and close what they got. -/
def act (state : State) : Label → Option State
  | .daemonAdd name vendor allocated connected =>
    if allocated && connected then some (daemonAdd state name vendor) else some state
  | .daemonFree d => if (state.daemons d).isSome then some (daemonFree state d) else none
  | .callbackSet d notify closeNotification =>
    match state.daemons d with
    | none => none
    | some daemon =>
      some { state with
        daemons := Function.update state.daemons d (some { daemon with notify, closeNotification }) }
  | .requestNameReply d reply allocated =>
    match state.connection with
    | none => none
    | some conn =>
      if d ∈ conn.requests then
        some (cbRequestName (replyTaken state conn d reply) d reply allocated)
      else none
  | .methodCall message id =>
    match state.connection with
    | none => none
    | some conn =>
      let entered := { state with dispatches := state.dispatches + 1 }
      match conn.exported with
      | none => some entered
      | some d =>
        -- none is a handler that does not survive
        (methodCall state d message id).map fun outcome =>
          if outcome.called.any Func.readsDaemon && (state.daemons d).isNone then
            { entered with touchedFreed := true }
          else entered
  | .idlerLeave =>
    if state.dispatches = 0 then none
    else some (connectionSettle { state with dispatches := state.dispatches - 1 })
  | .otherGet => some (busGet state .other)
  | .otherClose =>
    match state.connection with
    | none => none
    | some conn => if .other ∈ conn.holders then some (connectionClose state .other) else none

/-- Nothing is known of a process that accessed what it had freed. -/
def step (state : State) (label : Label) : Option State :=
  if state.touchedFreed then none else act state label

/-- The daemons of one process. -/
def machine : Machine State Label := ⟨step⟩

end EDBus.Notify.Daemon
