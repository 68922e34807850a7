import EDBus.Dbus.Signal

/-!
# The bus behind the signal handlers

The bus has an owner for each name, answers requests in order, and sends all that concerns a connection
in order. A handler that looks a name up installs a rule for its changes before it asks. Rules are kept
with the handler they were installed for: rules of one text count separately, and it does not matter
which of them is removed. Which other rules match a change is left open.
-/

namespace EDBus.Dbus.Signal

/-- What the library sends about the owners of names. -/
inductive Request where
  /-- `dbus_bus_add_match` with `match_name_owner_change`. -/
  | addMatch (sh : HandlerId) (name : String)
  /-- `dbus_bus_remove_match` with `match_name_owner_change`. -/
  | removeMatch (sh : HandlerId)
  | getNameOwner (sh : HandlerId) (name : String)
deriving DecidableEq, Repr

/-- What the bus sends about the owners of names. -/
inductive Notice where
  | nameOwnerChanged (name oldOwner newOwner : String)
  | nameOwner (sh : HandlerId) (name : String) (reply : OwnerReply)
deriving DecidableEq, Repr

/-- The owner of a name is empty if it has none. `outgoing` was sent and not processed by the bus,
`incoming` was sent by the bus and not dispatched. -/
structure Bus where
  owners : String → String
  rules : ConnId → List (HandlerId × String)
  outgoing : ConnId → List Request
  incoming : ConnId → List Notice

/-- One process and the bus. -/
structure System where
  process : State
  bus : Bus

/-- No handler was added yet. -/
def System.initial (owners : String → String) : System where
  process := State.initial
  bus := ⟨owners, fun _ => [], fun _ => [], fun _ => []⟩

namespace Bus

/-- Requests are sent. -/
def send (bus : Bus) (conn : ConnId) (requests : List Request) : Bus :=
  { bus with outgoing := Function.update bus.outgoing conn (bus.outgoing conn ++ requests) }

@[simp] theorem send_outgoing (bus : Bus) (conn : ConnId) (requests : List Request) :
    (bus.send conn requests).outgoing conn = bus.outgoing conn ++ requests := Function.update_self ..

theorem send_outgoing_of_ne (bus : Bus) {conn other : ConnId} (different : other ≠ conn) (requests : List Request) :
    (bus.send conn requests).outgoing other = bus.outgoing other := Function.update_of_ne different ..

/-- The answer to `GetNameOwner`: the owner, or `NameHasNoOwner`. -/
def getNameOwner (bus : Bus) (name : String) : OwnerReply :=
  if bus.owners name = "" then .noOwner else .owner (bus.owners name)

/-- The bus processes a request. -/
def handle (bus : Bus) (conn : ConnId) : Request → Bus
  | .addMatch sh name =>
    { bus with rules := Function.update bus.rules conn (bus.rules conn ++ [(sh, name)]) }
  | .removeMatch sh =>
    { bus with rules := Function.update bus.rules conn ((bus.rules conn).filter fun rule => rule.1 != sh) }
  | .getNameOwner sh name =>
    { bus with
      incoming := Function.update bus.incoming conn
        (bus.incoming conn ++ [.nameOwner sh name (bus.getNameOwner name)]) }

/-- The bus processes the oldest request of a connection. -/
def process (bus : Bus) (conn : ConnId) : Option Bus :=
  match bus.outgoing conn with
  | [] => none
  | request :: rest =>
    some (handle { bus with outgoing := Function.update bus.outgoing conn rest } conn request)

theorem process_cases {bus next : Bus} {conn : ConnId} (processed : bus.process conn = some next) :
    ∃ request rest, bus.outgoing conn = request :: rest ∧
      next = handle { bus with outgoing := Function.update bus.outgoing conn rest } conn request := by
  unfold process at processed
  split at processed
  · cases processed
  · next request rest outgoing => exact ⟨request, rest, outgoing, (Option.some.inj processed).symm⟩

/-- A name gets another owner, or none. The connections with a rule for it are told, and some others. -/
def change (bus : Bus) (name newOwner : String) (others : List ConnId) : Bus :=
  { bus with
    owners := Function.update bus.owners name newOwner
    incoming := fun conn =>
      if (bus.rules conn).any (fun rule => rule.2 == name) || others.contains conn then
        bus.incoming conn ++ [.nameOwnerChanged name (bus.owners name) newOwner]
      else bus.incoming conn }

end Bus

/-- The `NameOwnerChanged` signal. -/
def nameOwnerChangedMessage (name oldOwner newOwner : String) : Message :=
  ⟨some fdoBus, some fdoPath, some fdoInterface, some "NameOwnerChanged",
    [.string name, .string oldOwner, .string newOwner]⟩

/-- The requests of `e_dbus_signal_handler_add`. -/
def addRequests (sh : HandlerId) (sender : Option String) : List Request :=
  match sender with
  | none => []
  | some name => if looksUp (some name) then [.addMatch sh name, .getNameOwner sh name] else []

/-- The handlers of a connection that a step freed. Their rules are removed. -/
def removeRequests (before after : State) (conn : ConnId) : List Request :=
  (before.signalHandlers conn).filterMap fun sh =>
    match before.handlers sh, after.handlers sh with
    | some handler, none => if handler.matchNameOwnerChange.isSome then some (.removeMatch sh) else none
    | _, _ => none

/-- What happens in the process or on the bus. -/
inductive Event where
  /-- `e_dbus_signal_handler_add`; a lookup can be sent. -/
  | handlerAdd (conn : ConnId) (sender path interface member : Option String) (hasCallback : Bool)
  | handlerDel (conn : ConnId) (sh : HandlerId)
  | advance
  | idlerLeave
  /-- The process dispatches the oldest notice. -/
  | deliver (conn : ConnId)
  /-- It dispatches another signal. -/
  | signal (conn : ConnId) (message : Message)
  | other (conn : ConnId)
  /-- The bus processes the oldest request. -/
  | process (conn : ConnId)
  | change (name newOwner : String) (others : List ConnId)
deriving DecidableEq, Repr

namespace System

/-- The process takes a step, and the rules of the handlers it frees are removed. -/
def libraryStep (system : System) (conn : ConnId) (label : Label) (requests : List Request) : Option System :=
  (Signal.step system.process label).map fun next =>
    ⟨next, system.bus.send conn (requests ++ removeRequests system.process next conn)⟩

/-- The connection that the innermost idler runs for. -/
def dispatching (system : System) : ConnId := (system.process.dispatches.head?.map Dispatch.conn).getD 0

/-- What libdbus makes of a notice: a reply nobody waits for any more is no reply to a lookup. -/
def incomingOf (state : State) (conn : ConnId) : Notice → Incoming
  | .nameOwnerChanged name oldOwner newOwner => .signal (nameOwnerChangedMessage name oldOwner newOwner)
  | .nameOwner sh _ reply =>
    if (state.handlers sh).any Handler.pending && (state.signalHandlers conn).contains sh then
      .nameOwner sh reply
    else .other

/-- The oldest notice is dispatched. -/
def deliver (system : System) (conn : ConnId) : Option System :=
  match system.bus.incoming conn with
  | [] => none
  | notice :: rest =>
    (Signal.step system.process (.dispatch conn (incomingOf system.process conn notice))).map fun next =>
      ⟨next, { system.bus with incoming := Function.update system.bus.incoming conn rest }⟩

def step (system : System) : Event → Option System
  | .handlerAdd conn sender path interface member hasCallback =>
    system.libraryStep conn (.handlerAdd conn sender path interface member hasCallback true)
      (addRequests system.process.nextHandler sender)
  | .handlerDel conn sh => system.libraryStep conn (.handlerDel conn sh) []
  | .advance => system.libraryStep 0 .advance []
  | .idlerLeave => system.libraryStep system.dispatching .idlerLeave []
  | .deliver conn => system.deliver conn
  | .signal conn message =>
    if isNameOwnerChanged message then none
    else system.libraryStep conn (.dispatch conn (.signal message)) []
  | .other conn => system.libraryStep conn (.dispatch conn .other) []
  | .process conn => (system.bus.process conn).map fun bus => { system with bus }
  | .change name newOwner others => some { system with bus := system.bus.change name newOwner others }

end System

/-- One process and the bus. -/
def systemMachine : Semantics.Machine System Event := ⟨System.step⟩

end EDBus.Dbus.Signal
