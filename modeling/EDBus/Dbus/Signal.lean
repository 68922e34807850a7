import EDBus.Dbus.Message
import EDBus.Semantics.Execution
import Mathlib.Logic.Function.Basic

/-!
# Signal handlers and the owners of their senders

A handler added with a well-known sender name learns the unique name behind it
from a `GetNameOwner` reply and from `NameOwnerChanged` signals. The machine
below takes the loop of `cb_signal_dispatcher` one handler at a time, so that a
callback can add and delete handlers and run further dispatches.
-/

namespace EDBus.Dbus.Signal

/-- An `E_DBus_Connection`. -/
abbrev ConnId := Nat
/-- An `E_DBus_Signal_Handler`. -/
abbrev HandlerId := Nat

/-- `E_DBus_Signal_Handler`. `hasCallback` is whether `cb_signal` is set and
`pending` whether `get_name_owner_pending` is. -/
structure Handler where
  sender : Option String
  path : Option String
  interface : Option String
  member : Option String
  owner : Option String
  matchRule : String
  matchNameOwnerChange : Option String
  hasCallback : Bool
  pending : Bool
  deleteMe : Bool
deriving DecidableEq, Repr

/-- The loop of `cb_signal_dispatcher` over the handlers of a connection: the
next one to look at is the one at `position`. -/
structure Loop where
  message : Message
  position : Nat
deriving DecidableEq, Repr

/-- One running `e_dbus_idler`. `loop` is `none` when no handler is left to be
looked at; user code runs while `inCallback`. -/
structure Dispatch where
  conn : ConnId
  loop : Option Loop
  inCallback : Bool
deriving DecidableEq, Repr

/-- What the bus said last about a name. -/
inductive Ownership where
  | unknown
  | noOwner
  | owner (uniqueName : String)
deriving DecidableEq, Repr

/-- `handlers` holds the allocated handlers, `signalHandlers` the list of each
connection, `matches` the rules installed on its bus, `deletions` the variable
`e_dbus_handler_deletions` and `dispatches` the running idlers, innermost first
(their number is `e_dbus_idler_active`). `reported` is not kept by the code. -/
structure State where
  handlers : HandlerId → Option Handler
  signalHandlers : ConnId → List HandlerId
  matchRules : ConnId → List String
  deletions : Bool
  dispatches : List Dispatch
  nextHandler : HandlerId
  touchedFreed : Bool
  reported : ConnId → String → Ownership

/-- No handler was added yet. -/
def State.initial : State where
  handlers _ := none
  signalHandlers _ := []
  matchRules _ := []
  deletions := false
  dispatches := []
  nextHandler := 0
  touchedFreed := false
  reported _ _ := .unknown

/-! ## Adding and deleting handlers -/

/-- `DBUS_MAXIMUM_MATCH_RULE_LENGTH`. -/
def maximumMatchRuleLength : Nat := 1024

/-- `_match_append`. -/
def matchAppend (rule key : String) : Option String → String
  | none => rule
  | some value =>
    if value = "" then rule
    else if rule.utf8ByteSize + 4 + key.utf8ByteSize + value.utf8ByteSize ≥ maximumMatchRuleLength then
      rule
    else rule ++ "," ++ key ++ "='" ++ value ++ "'"

/-- The rule that `e_dbus_signal_handler_add` installs for the signals. -/
def signalMatch (sender path interface member : Option String) : String :=
  let rule := matchAppend "type='signal'" "sender" sender
  let rule := matchAppend rule "path" path
  let rule := matchAppend rule "interface" interface
  matchAppend rule "member" member

/-- `NAME_OWNER_MATCH`. -/
def nameOwnerMatch (name : String) : String :=
  "type='signal',sender='org.freedesktop.DBus',         path='/org/freedesktop/DBus'," ++
  "interface='org.freedesktop.DBus',         member='NameOwnerChanged',arg0='" ++ name ++ "'"

/-- Names that own themselves: unique names and the bus. -/
def isOwnOwner (name : String) : Bool :=
  name.toList.head? == some ':' || name == fdoBus

/-- The names whose owner `e_dbus_signal_handler_add` asks for. -/
def looksUp (sender : Option String) : Bool :=
  sender.any fun name => !isOwnOwner name

/-- The handler that `e_dbus_signal_handler_add` appends. `lookupSent` is whether
`e_dbus_get_name_owner` could send its call. -/
def handlerNew (sender path interface member : Option String) (hasCallback lookupSent : Bool) :
    Handler where
  sender := sender
  path := path
  interface := interface
  member := member
  owner := if looksUp sender then none else sender
  matchRule := signalMatch sender path interface member
  matchNameOwnerChange := if looksUp sender then sender.map nameOwnerMatch else none
  hasCallback := hasCallback
  pending := looksUp sender && lookupSent
  deleteMe := false

/-- The match rules of a handler. -/
def Handler.rules (handler : Handler) : List String :=
  handler.matchRule :: handler.matchNameOwnerChange.toList

/-- `e_dbus_signal_handler_add`. -/
def handlerAdd (state : State) (conn : ConnId) (handler : Handler) : State :=
  { state with
    handlers := Function.update state.handlers state.nextHandler (some handler)
    signalHandlers := Function.update state.signalHandlers conn
      (state.signalHandlers conn ++ [state.nextHandler])
    matchRules := Function.update state.matchRules conn (state.matchRules conn ++ handler.rules)
    nextHandler := state.nextHandler + 1 }

/-- `e_dbus_signal_handler_del`. -/
def handlerDel (state : State) (conn : ConnId) (sh : HandlerId) : State :=
  match state.handlers sh with
  | none => { state with touchedFreed := true }
  | some handler =>
    -- cancelling the lookup means that its reply never comes
    if state.dispatches.isEmpty then
      { state with
        handlers := Function.update state.handlers sh none
        signalHandlers := Function.update state.signalHandlers conn
          ((state.signalHandlers conn).erase sh)
        matchRules := Function.update state.matchRules conn
          (handler.rules.foldl List.erase (state.matchRules conn)) }
    else
      { state with
        handlers := Function.update state.handlers sh
          (some { handler with pending := false, deleteMe := true })
        deletions := true }

/-- One turn of the loop of `e_dbus_signal_handlers_clean`. -/
def handlerClean (conn : ConnId) (state : State) (sh : HandlerId) : State :=
  match state.handlers sh with
  | none => { state with touchedFreed := true }
  | some handler => if handler.deleteMe then handlerDel state conn sh else state

/-- `e_dbus_signal_handlers_clean`: the loop runs over the list as it was. -/
def handlersClean (state : State) (conn : ConnId) : State :=
  if state.deletions then
    (state.signalHandlers conn).foldl (handlerClean conn) { state with deletions := false }
  else state

/-! ## Incoming messages -/

/-- An owner field of the bus: the empty string stands for nobody. -/
def ownerField (name : String) : Option String := if name = "" then none else some name

/-- What an owner field tells about a name. -/
def Ownership.ofField (name : String) : Ownership :=
  match ownerField name with
  | none => .noOwner
  | some uniqueName => .owner uniqueName

/-- The reply to `GetNameOwner`. -/
inductive OwnerReply where
  | owner (uniqueName : String)
  | noOwner
  | failed
deriving DecidableEq, Repr

/-- What the reply tells about the name that was asked for. -/
def OwnerReply.report : OwnerReply → Option Ownership
  | .owner uniqueName => some (.ofField uniqueName)
  | .noOwner => some .noOwner
  | .failed => none

/-- `cb_name_owner`. -/
def cbNameOwner (handler : Handler) : OwnerReply → Handler
  | .owner uniqueName =>
    { handler with pending := false, owner := (ownerField uniqueName).or handler.owner }
  | .noOwner => { handler with pending := false }
  | .failed => { handler with pending := false }

/-- The signal is `NameOwnerChanged` of the bus. -/
def isNameOwnerChanged (message : Message) : Bool :=
  message.hasSender fdoBus && message.hasPath fdoPath && message.hasInterface fdoInterface &&
    message.hasMember "NameOwnerChanged"

/-- The first loop of `cb_signal_dispatcher`. -/
def nameOwnerChanged (bus newOwner : String) (handler : Handler) : Handler :=
  if handler.deleteMe = false ∧ handler.sender = some bus then
    { handler with owner := ownerField newOwner }
  else handler

/-- `cb_signal_dispatcher` up to its second loop. Nothing is dispatched if the
arguments of a `NameOwnerChanged` are not three strings. -/
def signalBegin (state : State) (conn : ConnId) (message : Message) : State :=
  if isNameOwnerChanged message then
    match message.threeStrings with
    | none => { state with dispatches := ⟨conn, none, false⟩ :: state.dispatches }
    | some (bus, _, newOwner) =>
      { state with
        handlers := fun sh =>
          if sh ∈ state.signalHandlers conn then
            (state.handlers sh).map (nameOwnerChanged bus newOwner)
          else state.handlers sh
        reported := Function.update state.reported conn
          (Function.update (state.reported conn) bus (.ofField newOwner))
        dispatches := ⟨conn, some ⟨message, 0⟩, false⟩ :: state.dispatches }
  else { state with dispatches := ⟨conn, some ⟨message, 0⟩, false⟩ :: state.dispatches }

/-- The tests of `cb_signal_dispatcher` that do not concern the sender. -/
def passes (handler : Handler) (message : Message) : Bool :=
  handler.hasCallback && !handler.deleteMe && !handler.pending &&
    handler.path.all message.hasPath && handler.interface.all message.hasInterface &&
    handler.member.all message.hasMember

/-- The handler is called for the message. -/
def accepts (handler : Handler) (message : Message) : Bool :=
  passes handler message && handler.owner.all message.hasSender

/-- The handler that the innermost dispatch looks at next, and the message. -/
def lookedAt (state : State) : Option (ConnId × Handler × Message) :=
  match state.dispatches with
  | ⟨conn, some ⟨message, position⟩, _⟩ :: _ =>
    match (state.signalHandlers conn)[position]? with
    | none => none
    | some sh => (state.handlers sh).map fun handler => (conn, handler, message)
  | _ => none

/-- What arrives on a connection. `other` messages reach user code, but no
signal handler. -/
inductive Incoming where
  | signal (message : Message)
  | nameOwner (sh : HandlerId) (reply : OwnerReply)
  | other
deriving DecidableEq, Repr

inductive Label where
  | handlerAdd (conn : ConnId) (sender path interface member : Option String)
      (hasCallback lookupSent : Bool)
  | handlerDel (conn : ConnId) (sh : HandlerId)
  | dispatch (conn : ConnId) (incoming : Incoming)
  | advance
  | idlerLeave
deriving DecidableEq, Repr

/-- User code runs: in the main loop or in a callback. -/
def State.userRuns (state : State) : Bool :=
  match state.dispatches with
  | [] => true
  | dispatch :: _ => dispatch.inCallback

/-- `e_dbus_idler` up to the first callback. -/
def dispatchBegin (state : State) (conn : ConnId) : Incoming → Option State
  | .signal message => some (signalBegin state conn message)
  | .nameOwner sh reply =>
    match state.handlers sh with
    | none => none
    | some handler =>
      if handler.pending = true ∧ sh ∈ state.signalHandlers conn then
        some { state with
          handlers := Function.update state.handlers sh (some (cbNameOwner handler reply))
          reported := match reply.report, handler.sender with
            | some report, some name => Function.update state.reported conn
                (Function.update (state.reported conn) name report)
            | _, _ => state.reported
          dispatches := ⟨conn, none, false⟩ :: state.dispatches }
      else none
  | .other => some { state with dispatches := ⟨conn, none, true⟩ :: state.dispatches }

/-- The callback returns, if one runs, and the loop turns to the next handler. -/
def advance (state : State) : Option State :=
  match state.dispatches with
  | ⟨conn, some ⟨message, position⟩, _⟩ :: outer =>
    match (state.signalHandlers conn)[position]? with
    | none => some { state with dispatches := ⟨conn, none, false⟩ :: outer }
    | some sh =>
      match state.handlers sh with
      | none => some { state with touchedFreed := true }
      | some handler =>
        some { state with
          dispatches := ⟨conn, some ⟨message, position + 1⟩, accepts handler message⟩ :: outer }
  | _ => none

/-- Users delete handlers of the connection they were added to. -/
def step (state : State) (label : Label) : Option State :=
  if state.touchedFreed then none
  else match label with
  | .handlerAdd conn sender path interface member hasCallback lookupSent =>
    if state.userRuns then
      some (handlerAdd state conn
        (handlerNew sender path interface member hasCallback lookupSent))
    else none
  | .handlerDel conn sh =>
    if state.userRuns = true ∧ sh ∈ state.signalHandlers conn then some (handlerDel state conn sh)
    else none
  | .dispatch conn incoming => if state.userRuns then dispatchBegin state conn incoming else none
  | .advance => advance state
  | .idlerLeave =>
    match state.dispatches with
    | ⟨conn, none, _⟩ :: outer => some (handlersClean { state with dispatches := outer } conn)
    | _ => none

/-- The signal handlers of one process. -/
def machine : Semantics.Machine State Label := ⟨step⟩

end EDBus.Dbus.Signal
