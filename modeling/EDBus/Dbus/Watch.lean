import EDBus.Semantics.Execution
import Mathlib.Logic.Function.Basic

/-!
# Watches of a connection

libdbus announces the file descriptors it wants polled through the watch
callbacks of `e_dbus.c`; the connection turns each enabled watch into an Ecore
fd handler. `fdHandlerAdd` gives a watch no handler while any handler of the
connection sits on the same descriptor, and no later callback makes up for it.
-/

namespace EDBus.Dbus.Watch

/-- A `DBusWatch` of libdbus. -/
abbrev WatchId := Nat
/-- An `E_DBus_Handler_Data`. -/
abbrev DataId := Nat
/-- An `Ecore_Fd_Handler`. -/
abbrev FdHandlerId := Nat

/-- `dbus_watch_get_flags`. -/
structure WatchFlags where
  readable : Bool
  writable : Bool
deriving DecidableEq, Repr

/-- `Ecore_Fd_Handler_Flags`. The same three bits report what is active. -/
structure FdHandlerFlags where
  read : Bool
  write : Bool
  error : Bool
deriving DecidableEq, Repr

/-- The attributes of a watch that libdbus never changes. -/
structure Libdbus where
  unixFd : WatchId → Int
  flags : WatchId → WatchFlags

/-- `E_DBus_Handler_Data`, for the one connection `cd` it points to. -/
structure HandlerData where
  fd : Int
  fdHandler : Option FdHandlerId
  watch : WatchId
  enabled : Bool
deriving DecidableEq, Repr

/-- An fd handler registered with the main loop; `data` is its callback data. -/
structure FdHandler where
  fd : Int
  flags : FdHandlerFlags
  data : DataId
deriving DecidableEq, Repr

/-- `watches` holds `dbus_watch_get_enabled` of the watches that are added and
not removed, `watchData` what `dbus_watch_get_data` answers, `data` the
allocated handler data, `ecore` the live fd handlers and `fdHandlers` the list
`cd->fd_handlers`. -/
structure State where
  watches : WatchId → Option Bool
  watchData : WatchId → Option DataId
  data : DataId → Option HandlerData
  ecore : FdHandlerId → Option FdHandler
  fdHandlers : List FdHandlerId
  nextData : DataId
  nextFdHandler : FdHandlerId

/-- A connection whose watch functions were just set. -/
def State.initial : State where
  watches _ := none
  watchData _ := none
  data _ := none
  ecore _ := none
  fdHandlers := []
  nextData := 0
  nextFdHandler := 0

/-! ## The functions of `e_dbus.c` -/

/-- `ecore_main_fd_handler_fd_get`. -/
def State.fdGet (state : State) (handler : FdHandlerId) : Option Int :=
  (state.ecore handler).map FdHandler.fd

/-- The loop of `e_dbus_fd_handler_add` over `cd->fd_handlers`: some handler of
the connection sits on the descriptor. -/
def State.occupied (state : State) (fd : Int) : Bool :=
  state.fdHandlers.any fun fdh => state.fdGet fdh == some fd

/-- `e_dbus_fd_handler_del`. -/
def fdHandlerDel (state : State) (hd : DataId) : State :=
  match state.data hd with
  | none => state
  | some record =>
    match record.fdHandler with
    | none => state
    | some handler =>
      { state with
        fdHandlers := state.fdHandlers.erase handler
        ecore := Function.update state.ecore handler none
        data := Function.update state.data hd (some { record with fdHandler := none }) }

/-- `e_dbus_fd_handler`: what the main loop calls for an active handler. The
second component is the call of `dbus_watch_handle`, if it is reached. -/
def fdHandler (state : State) (handler : FdHandlerId) (active : FdHandlerFlags) :
    State × Option (WatchId × FdHandlerFlags) :=
  match state.ecore handler with
  | none => (state, none)
  | some registered =>
    match state.data registered.data with
    | none => (state, none)
    | some record =>
      if record.enabled then (state, some (record.watch, active))
      else (fdHandlerDel state registered.data, none)

/-- The `eflags` computed from the flags of the watch. -/
def eflags (dflags : WatchFlags) : FdHandlerFlags where
  error := true
  read := dflags.readable
  write := dflags.writable

/-- `e_dbus_fd_handler_add`. -/
def fdHandlerAdd (libdbus : Libdbus) (state : State) (hd : DataId) : State :=
  match state.data hd with
  | none => state
  | some record =>
    if record.fdHandler.isSome then state
    -- a handler of another watch is enough to end the function
    else if state.occupied record.fd then state
    else
      let handler := state.nextFdHandler
      { state with
        data := Function.update state.data hd (some { record with fdHandler := some handler })
        ecore := Function.update state.ecore handler
          (some ⟨record.fd, eflags (libdbus.flags record.watch), hd⟩)
        fdHandlers := state.fdHandlers ++ [handler]
        nextFdHandler := handler + 1 }

/-- `e_dbus_handler_data_free`. -/
def handlerDataFree (state : State) (hd : DataId) : State :=
  match state.data hd with
  | none => state
  | some record =>
    match record.fdHandler with
    | none => { state with data := Function.update state.data hd none }
    | some handler =>
      { state with
        fdHandlers := state.fdHandlers.erase handler
        ecore := Function.update state.ecore handler none
        data := Function.update state.data hd none }

/-- `dbus_watch_set_data`: libdbus frees the data the watch had before. -/
def watchSetData (state : State) (watch : WatchId) (hd : DataId) : State :=
  let freed := match state.watchData watch with
    | none => state
    | some old => handlerDataFree state old
  { freed with watchData := Function.update freed.watchData watch (some hd) }

/-- The part of `e_dbus_connection_data_watch_add` that sets up the handler
data of a watch which libdbus has just put in its list. -/
def watchDataNew (libdbus : Libdbus) (state : State) (watch : WatchId) (enabled : Bool) : State :=
  let hd := state.nextData
  let attached := watchSetData { state with nextData := hd + 1 } watch hd
  { attached with
    watches := Function.update attached.watches watch (some enabled)
    data := Function.update attached.data hd
      (some ⟨libdbus.unixFd watch, none, watch, enabled⟩) }

/-- `cb_watch_add`, which is `e_dbus_connection_data_watch_add`. -/
def watchAdd (libdbus : Libdbus) (state : State) (watch : WatchId) (enabled : Bool) : State :=
  let added := watchDataNew libdbus state watch enabled
  if enabled then fdHandlerAdd libdbus added state.nextData else added

/-- `cb_watch_del`, after which libdbus drops the watch from its list. -/
def watchDel (state : State) (watch : WatchId) : State :=
  let deleted := match state.watchData watch with
    | none => state
    | some hd => fdHandlerDel state hd
  { deleted with watches := Function.update deleted.watches watch none }

/-- libdbus changed the enabled bit and `cb_watch_toggle` copied it. -/
def watchEnabledSet (state : State) (watch : WatchId) (hd : DataId) (enabled : Bool) : State :=
  { state with
    watches := Function.update state.watches watch (some enabled)
    data := Function.update state.data hd
      ((state.data hd).map fun record => { record with enabled := enabled }) }

/-- `cb_watch_toggle`. -/
def watchToggle (libdbus : Libdbus) (state : State) (watch : WatchId) (enabled : Bool) : State :=
  match state.watchData watch with
  | none => { state with watches := Function.update state.watches watch (some enabled) }
  | some hd =>
    let recorded := watchEnabledSet state watch hd enabled
    if enabled then fdHandlerAdd libdbus recorded hd else fdHandlerDel recorded hd

/-- Finalisation of a removed watch frees its data. -/
def watchFinalize (state : State) (watch : WatchId) : State :=
  match state.watchData watch with
  | none => state
  | some hd =>
    let freed := handlerDataFree state hd
    { freed with watchData := Function.update freed.watchData watch none }

/-! ## Runs -/

/-- What libdbus and the main loop can call. -/
inductive Label where
  | watchAdd (watch : WatchId) (enabled : Bool)
  | watchToggle (watch : WatchId) (enabled : Bool)
  | watchDel (watch : WatchId)
  | dataFree (watch : WatchId)
  | fdReady (handler : FdHandlerId) (active : FdHandlerFlags)
deriving DecidableEq, Repr

/-- libdbus adds a watch that is not in its list, toggles and removes only
watches that are, and finalises only removed ones; the main loop calls live
handlers. -/
def step (libdbus : Libdbus) (state : State) : Label → Option State
  | .watchAdd watch enabled =>
    if (state.watches watch).isNone then some (watchAdd libdbus state watch enabled) else none
  | .watchToggle watch enabled =>
    if (state.watches watch).isSome then some (watchToggle libdbus state watch enabled) else none
  | .watchDel watch =>
    if (state.watches watch).isSome then some (watchDel state watch) else none
  | .dataFree watch =>
    if (state.watches watch).isNone then some (watchFinalize state watch) else none
  | .fdReady handler active =>
    if (state.ecore handler).isSome then some (fdHandler state handler active).1 else none

/-- The watch callbacks of one connection. -/
def machine (libdbus : Libdbus) : Semantics.Machine State Label := ⟨step libdbus⟩

end EDBus.Dbus.Watch
