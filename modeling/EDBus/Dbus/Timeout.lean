import EDBus.Semantics.Execution
import Mathlib.Logic.Function.Basic

/-!
# Timeouts of a connection

libdbus announces the timeouts it wants to be called for through the timeout callbacks of `e_dbus.c`,
and each is to have an Ecore timer while it is enabled. The timer is kept in the data of the timeout
and in the list of the connection. `sound_throughout_iff` finds exactly the runs in which the two
agree and every timeout has the timer that libdbus asked for.
-/

namespace EDBus.Dbus.Timeout

/-- A `DBusTimeout` of libdbus. -/
abbrev TimeoutId := Nat
/-- An `E_DBus_Timeout_Data`. -/
abbrev DataId := Nat
/-- An `Ecore_Timer`. -/
abbrev TimerId := Nat

/-- `E_DBus_Timeout_Data`, for the one connection `cd` it points to. -/
structure TimeoutData where
  handler : Option TimerId
  timeout : TimeoutId
  interval : Int
deriving DecidableEq, Repr

/-- A timer of the main loop; `data` is its callback data. -/
structure Timer where
  seconds : Int
  data : DataId
deriving DecidableEq, Repr

/-- `enabled` and `interval` are what libdbus answers for a timeout, `added` is whether it was added
and not removed, `timeoutData` what `dbus_timeout_get_data` answers. `data` holds the allocated timeout
data, `timers` the live timers, `timeouts` the list `cd->timeouts` with its `NULL` entries, and `firing`
the timers whose callbacks run. A dead timer was deleted or freed data was used if `misused`. -/
structure State where
  enabled : TimeoutId → Bool
  interval : TimeoutId → Int
  added : TimeoutId → Bool
  timeoutData : TimeoutId → Option DataId
  data : DataId → Option TimeoutData
  timers : TimerId → Option Timer
  timeouts : List (Option TimerId)
  connected : Bool
  firing : List TimerId
  nextData : DataId
  nextTimer : TimerId
  misused : Bool

/-- A connection whose timeout functions were just set. -/
def State.initial : State where
  enabled _ := false
  interval _ := 0
  added _ := false
  timeoutData _ := none
  data _ := none
  timers _ := none
  timeouts := []
  connected := true
  firing := []
  nextData := 0
  nextTimer := 0
  misused := false

/-! ## The functions of `e_dbus.c` -/

/-- `ecore_timer_add`, which takes seconds. -/
def timerAdd (state : State) (seconds : Int) (td : DataId) : State :=
  { state with
    timers := Function.update state.timers state.nextTimer (some ⟨seconds, td⟩)
    nextTimer := state.nextTimer + 1 }

/-- `ecore_timer_del`. `NULL` is refused. -/
def timerDel (state : State) : Option TimerId → State
  | none => state
  | some timer =>
    if (state.timers timer).isSome then { state with timers := Function.update state.timers timer none }
    else { state with misused := true }

/-- `td->handler` is set. -/
def State.setHandler (state : State) (td : DataId) (record : TimeoutData) (handler : Option TimerId) :
    State :=
  { state with data := Function.update state.data td (some { record with handler := handler }) }

/-- `e_dbus_timeout_data_free`. -/
def timeoutDataFree (state : State) (td : DataId) : State :=
  match state.data td with
  | none => { state with misused := true }
  | some record =>
    let deleted := timerDel state record.handler
    { deleted with data := Function.update deleted.data td none }

/-- `dbus_timeout_set_data`: libdbus frees the data that the timeout had before. -/
def timeoutSetData (state : State) (timeout : TimeoutId) (td : DataId) : State :=
  let freed := match state.timeoutData timeout with
    | none => state
    | some old => timeoutDataFree state old
  { freed with timeoutData := Function.update freed.timeoutData timeout (some td) }

/-- The part of `cb_timeout_add` that allocates the data. -/
def timeoutDataNew (state : State) (timeout : TimeoutId) (enabled : Bool) (interval : Int) : State :=
  let td := state.nextData
  let attached := timeoutSetData { state with nextData := td + 1 } timeout td
  { attached with
    enabled := Function.update attached.enabled timeout enabled
    interval := Function.update attached.interval timeout interval
    added := Function.update attached.added timeout true
    data := Function.update attached.data td (some ⟨none, timeout, interval⟩) }

/-- `cb_timeout_add`: whatever `td->handler` is, it joins the list. -/
def timeoutAdd (state : State) (timeout : TimeoutId) (enabled : Bool) (interval : Int) : State :=
  let td := state.nextData
  let created := timeoutDataNew state timeout enabled interval
  if enabled then
    let timer := created.nextTimer
    let armed := (timerAdd created interval td).setHandler td ⟨none, timeout, interval⟩ (some timer)
    { armed with timeouts := armed.timeouts ++ [some timer] }
  else { created with timeouts := created.timeouts ++ [none] }

/-- `cb_timeout_del`, after which libdbus drops the timeout from its list. -/
def timeoutDel (state : State) (timeout : TimeoutId) : State :=
  let deleted := match state.timeoutData timeout with
    | none => { state with misused := true }
    | some td =>
      match state.data td with
      | none => { state with misused := true }
      | some record =>
        match record.handler with
        | none => state
        | some timer =>
          let unlisted := { state with timeouts := state.timeouts.erase (some timer) }
          (timerDel unlisted (some timer)).setHandler td record none
  { deleted with added := Function.update deleted.added timeout false }

/-- libdbus sets the two attributes, and `cb_timeout_toggle` makes up for it. -/
def timeoutToggle (state : State) (timeout : TimeoutId) (enabled : Bool) (interval : Int) : State :=
  let changed := { state with
    enabled := Function.update state.enabled timeout enabled
    interval := Function.update state.interval timeout interval }
  match changed.timeoutData timeout with
  | none => { changed with misused := true }
  | some td =>
    match changed.data td with
    | none => { changed with misused := true }
    | some record =>
      if enabled then
        -- the new timer does not join the list
        (timerAdd changed interval td).setHandler td { record with interval := interval }
          (some changed.nextTimer)
      else (timerDel changed record.handler).setHandler td record none

/-- `e_dbus_timeout_handler` up to `dbus_timeout_handle`, during which libdbus may call the
callbacks. -/
def timeoutHandler (state : State) (timer : TimerId) : State :=
  match (state.timers timer).bind fun fired => (state.data fired.data).map (fired.data, ·) with
  | none => { state with misused := true }
  | some (td, record) =>
    if state.enabled record.timeout then { state with firing := timer :: state.firing }
    else
      let ended := state.setHandler td record none
      { ended with timers := Function.update ended.timers timer none }

/-- The callback of a timer returns `ECORE_CALLBACK_CANCEL`: Ecore frees the timer unless it was
deleted meanwhile. -/
def timerCancel (state : State) (timer : TimerId) (outer : List TimerId) : State :=
  { state with timers := Function.update state.timers timer none, firing := outer }

/-- `e_dbus_connection_free`. The timeouts of the connection are gone with it. -/
def connectionFree (state : State) : State :=
  let freed := state.timeouts.foldl timerDel state
  { freed with timeouts := [], connected := false, added := fun _ => false }

/-- Finalisation of a removed timeout frees its data. -/
def timeoutFinalize (state : State) (timeout : TimeoutId) : State :=
  match state.timeoutData timeout with
  | none => state
  | some td =>
    let freed := timeoutDataFree state td
    { freed with timeoutData := Function.update freed.timeoutData timeout none }

/-! ## Runs -/

/-- What libdbus and the main loop can call. -/
inductive Label where
  | timeoutAdd (timeout : TimeoutId) (enabled : Bool) (interval : Int)
  | timeoutToggle (timeout : TimeoutId) (enabled : Bool) (interval : Int)
  | timeoutDel (timeout : TimeoutId)
  | dataFree (timeout : TimeoutId)
  | expire (timer : TimerId)
  | expired
  | connectionFree
deriving DecidableEq, Repr

/-- libdbus adds a timeout that is not in its list, toggles and removes only timeouts that are, and
finalises only others; the main loop calls live timers. -/
def step (state : State) : Label → Option State
  | .timeoutAdd timeout enabled interval =>
    if state.connected = true ∧ state.added timeout = false then
      some (timeoutAdd state timeout enabled interval)
    else none
  | .timeoutToggle timeout enabled interval =>
    if state.added timeout then some (timeoutToggle state timeout enabled interval) else none
  | .timeoutDel timeout => if state.added timeout then some (timeoutDel state timeout) else none
  | .dataFree timeout => if state.added timeout then none else some (timeoutFinalize state timeout)
  | .expire timer => if (state.timers timer).isSome then some (timeoutHandler state timer) else none
  | .expired =>
    match state.firing with
    | [] => none
    | timer :: outer => some (timerCancel state timer outer)
  | .connectionFree => if state.connected then some (connectionFree state) else none

/-- The timeout callbacks of one connection. -/
def machine : Semantics.Machine State Label := ⟨step⟩

/-! ## Soundness -/

/-- The timeout that a timer is for. -/
def State.timeoutOf (state : State) (timer : Timer) : Option TimeoutId :=
  (state.data timer.data).map TimeoutData.timeout

/-- Every added and enabled timeout has one live timer, armed for the interval that libdbus gives in
milliseconds; no other timer is live. The list of the connection has each live timer once and nothing
else, and no timer was used after its end. -/
structure Sound (state : State) : Prop where
  armed : ∀ timeout, state.added timeout = true → state.enabled timeout = true →
    ∃ id timer, state.timers id = some timer ∧ state.timeoutOf timer = some timeout ∧
      1000 * timer.seconds = state.interval timeout
  single : ∀ first second left right, state.timers first = some left → state.timers second = some right →
    state.timeoutOf left = state.timeoutOf right → first = second
  wanted : ∀ id timer, state.timers id = some timer → ∃ timeout, state.timeoutOf timer = some timeout ∧
    state.added timeout = true ∧ state.enabled timeout = true
  listed : ∀ id, some id ∈ state.timeouts ↔ (state.timers id).isSome
  once : state.timeouts.Nodup
  noNull : none ∉ state.timeouts
  proper : state.misused = false

/-- A step that leaves the timers sound. -/
def Orderly (state : State) : Label → Prop
  | .timeoutAdd _ enabled interval => enabled = true ∧ interval = 0
  | .timeoutToggle _ _ _ => False
  | .timeoutDel _ => True
  | .dataFree timeout => ∀ td ∈ state.timeoutData timeout, ∀ record ∈ state.data td, record.handler = none
  | .expire _ => True
  | .expired => ∀ timer ∈ state.firing.head?, state.timers timer = none
  | .connectionFree => True

end EDBus.Dbus.Timeout
