import EDBus.Dbus.Subscription
import EDBus.Elements.NameOwner
import EDBus.Elements.PropertyMessage
import EDBus.Semantics.Replica

/-!
# An element follows the object on the server

When an element is registered, a handler for `PropertyChanged` is added first and `GetProperties` is called
then. The bus passes on the signals that fit the rule of the handler, once it has the rule. A handler that
has to look up who owns the name is not called before it knows. The server announces each change of a
property, and answers `GetProperties` with all of them in any order. Other peers send what they like.

`element_follows_throughout` says that none of this loses a change: what the element has are the values that the
server had before the changes that are still under way.
-/

open Semantics
open EDBus.Semantics
open EDBus.Semantics.Replica (latest changes recital)

namespace EDBus.Elements.Replication

open Connman

/-- An object of the server, and the unique name of the server. -/
structure Object where
  uniqueName : String
  path : String
  interface : String
  isUnique : uniqueName.toList.head? = some ':'
  unquoted : Dbus.Signal.Unquoted (some uniqueName) (some path) (some interface) (some "PropertyChanged")

/-- `e_connman_system_bus_name_get`. -/
def Object.busNameGet (object : Object) (ownerKnown : Bool) : String :=
  if ownerKnown then object.uniqueName else Family.connman.busName

/-- The owners of names. -/
def Object.owners (object : Object) (name : String) : Option String :=
  if name = Family.connman.busName then some object.uniqueName else none

/-- The handler that `e_connman_element_register` adds. -/
def Object.signalHandler (object : Object) (ownerKnown : Bool) : Dbus.Signal.Handler :=
  Dbus.Signal.handlerNew (some (object.busNameGet ownerKnown)) (some object.path) (some object.interface)
    (some "PropertyChanged") true true

/-- The header of a `PropertyChanged` signal of the object, with the name of the property. -/
def Object.header (object : Object) (name : String) : Dbus.Message where
  sender := some object.uniqueName
  path := some object.path
  interface := some object.interface
  member := some "PropertyChanged"
  args := [.string name, .other "v"]

/-- A signal is a `PropertyChanged` of the object. -/
def Object.announces (object : Object) (header : Dbus.Message) : Bool :=
  header.hasPath object.path && header.hasInterface object.interface && header.hasMember "PropertyChanged" &&
    header.hasSender object.uniqueName

/-- What is sent to the bus. -/
inductive Request where
  | addMatch (rule : String)
  | getNameOwner
  | getProperties
deriving DecidableEq, Repr

/-- What is sent to the element. -/
inductive Notice where
  /-- The reply to `GetNameOwner`: the server. -/
  | nameOwner
  | signal (header : Dbus.Message) (body : List Data)
  /-- The reply to `GetProperties`. -/
  | properties (entries : List (String × Data))
  | error

/-- The process, the bus and the server. `outgoing` was sent by the process and not handled by the bus, which
has `rules` for it; `asked` calls of `GetProperties` reached the server; `emitted` was sent by the server and
not handled by the bus, `incoming` was sent by the bus and not dispatched. The values of the server's
properties are those set last in `log`. No one keeps `synced`: a reply to `GetProperties` was dispatched. -/
structure Network where
  log : List (String × Data)
  asked : Nat
  emitted : List Notice
  rules : List String
  outgoing : List Request
  incoming : List Notice
  handler : Option Dbus.Signal.Handler
  element : PropertyList
  synced : Bool

/-- The element is not registered. -/
def Network.initial (values : List (String × Data)) : Network where
  log := values
  asked := 0
  emitted := []
  rules := []
  outgoing := []
  incoming := []
  handler := none
  element := .empty
  synced := false

inductive Label where
  /-- `e_connman_element_register`. The owner of the name is known, or not any more. -/
  | register (ownerKnown : Bool)
  /-- `e_connman_element_properties_sync`. -/
  | sync
  /-- The bus handles the oldest request. -/
  | handle
  /-- The server sets a property. -/
  | set (name : String) (value : Data)
  /-- The server answers a call with its properties, in the order of the names. -/
  | answer (names : List String)
  /-- It answers a call with an error. -/
  | refuse
  /-- The bus handles the oldest message of the server. -/
  | pass
  /-- The bus passes on a signal of another peer, or about something else. -/
  | stray (header : Dbus.Message) (body : List Data)
  /-- The process dispatches the oldest message. -/
  | deliver

/-- The requests of `e_dbus_signal_handler_add`. -/
def requests (handler : Dbus.Signal.Handler) : List Request :=
  .addMatch handler.matchRule ::
    match handler.matchNameOwnerChange with
    | none => []
    | some rule => [.addMatch rule, .getNameOwner]

/-- The arguments of a reply to `GetProperties`. -/
def propertiesBody (entries : List (String × Data)) : List Data :=
  [.array (.dictEntry .string .variant) (entries.map fun entry => .dictEntry (.string entry.1) (.variant entry.2))]

/-- The arguments of a `PropertyChanged` signal. -/
def changedBody (name : String) (value : Data) : List Data := [.string name, .variant value]

/-- The bus passes on a message of the server. -/
def Object.routes (object : Object) (rules : List String) : Notice → Bool
  | .signal header _ => rules.any (Dbus.Signal.passesOn object.owners header)
  | _ => true

/-- A message is dispatched. -/
def dispatch (object : Object) (network : Network) : Notice → Network
  | .nameOwner =>
    { network with
      handler := network.handler.map fun handler => Dbus.Signal.cbNameOwner handler (.owner object.uniqueName) }
  | .signal header body =>
    if network.handler.any fun handler => Dbus.Signal.accepts handler header then
      { network with element := (propertyChanged network.element body).1 }
    else network
  | .properties entries =>
    { network with element := (getProperties network.element (propertiesBody entries)).1, synced := true }
  | .error => network

def step (object : Object) (network : Network) : Label → Option Network
  | .register ownerKnown =>
    if network.handler.isNone then
      let handler := object.signalHandler ownerKnown
      some { network with handler := some handler, outgoing := network.outgoing ++ requests handler }
    else none
  | .sync =>
    if network.handler.isSome then some { network with outgoing := network.outgoing ++ [.getProperties] } else none
  | .handle =>
    match network.outgoing with
    | [] => none
    | .addMatch rule :: rest => some { network with outgoing := rest, rules := network.rules ++ [rule] }
    | .getNameOwner :: rest => some { network with outgoing := rest, incoming := network.incoming ++ [.nameOwner] }
    | .getProperties :: rest => some { network with outgoing := rest, asked := network.asked + 1 }
  | .set name value =>
    some { network with
      log := network.log ++ [(name, value)]
      emitted := network.emitted ++ [.signal (object.header name) (changedBody name value)] }
  | .answer names =>
    if 0 < network.asked ∧ ∀ change ∈ network.log, change.1 ∈ names then
      some { network with
        asked := network.asked - 1
        emitted := network.emitted ++ [.properties (recital network.log names)] }
    else none
  | .refuse =>
    if 0 < network.asked then
      some { network with asked := network.asked - 1, emitted := network.emitted ++ [.error] }
    else none
  | .pass =>
    match network.emitted with
    | [] => none
    | notice :: rest =>
      some { network with
        emitted := rest
        incoming := if object.routes network.rules notice then network.incoming ++ [notice] else network.incoming }
  | .stray header body =>
    if object.announces header = false ∧ Dbus.Signal.isNameOwnerChanged header = false then
      some { network with incoming := network.incoming ++ [.signal header body] }
    else none
  | .deliver =>
    match network.incoming with
    | [] => none
    | notice :: rest => some (dispatch object { network with incoming := rest } notice)

/-- The process, the bus and the server. -/
def machine (object : Object) : Machine Network Label := ⟨step object⟩

/-- What a message tells about the properties. -/
def Object.content (object : Object) : Notice → Option (Replica.Notice String Data)
  | .signal header (.string name :: .variant value :: _) =>
    if object.announces header then some (.change name value) else none
  | .properties entries => some (.all entries)
  | _ => none

/-- What is under way to the element. -/
def Object.underway (object : Object) (network : Network) : List (Replica.Notice String Data) :=
  (network.incoming ++ network.emitted).filterMap object.content

/-- What a step means for a replica of the properties. -/
def actions (object : Object) (network : Network) : Label → List (Replica.Action String Data)
  | .set name value => [.change name value]
  | .answer names => [.recite (recital network.log names)]
  | .pass =>
    match network.emitted with
    | [] => []
    | notice :: _ => if (object.content notice).isSome && !object.routes network.rules notice then [.miss] else []
  | .deliver =>
    match network.incoming with
    | [] => []
    | .signal header body :: _ =>
      if (object.content (.signal header body)).isSome then
        if network.handler.any fun handler => Dbus.Signal.accepts handler header then [.learn] else [.miss]
      else []
    | .properties _ :: _ => [.learn]
    | _ => []
  | _ => []

variable {object : Object} {network next : Network} {handler : Dbus.Signal.Handler}
  {shown : Replica.State String Data}

/-! ## The handler -/

/-- A handler that was added for the object. -/
structure Installed (object : Object) (handler : Dbus.Signal.Handler) : Prop where
  sender : handler.sender = some object.uniqueName ∨ handler.sender = some Family.connman.busName
  path : handler.path = some object.path
  interface : handler.interface = some object.interface
  member : handler.member = some "PropertyChanged"
  hasCallback : handler.hasCallback = true
  kept : handler.deleteMe = false
  built : Dbus.Signal.Built handler

/-- It waits for the owner of the name. -/
structure Waiting (object : Object) (handler : Dbus.Signal.Handler) : Prop extends Installed object handler where
  pending : handler.pending = true

/-- It knows the owner. -/
structure Ready (object : Object) (handler : Dbus.Signal.Handler) : Prop extends Installed object handler where
  answered : handler.pending = false
  owner : handler.owner = some object.uniqueName

theorem announces_iff (header : Dbus.Message) :
    object.announces header = true ↔ header.path = some object.path ∧ header.interface = some object.interface ∧
      header.member = some "PropertyChanged" ∧ header.sender = some object.uniqueName := by
  simp [Object.announces, Dbus.Message.hasPath, Dbus.Message.hasInterface, Dbus.Message.hasMember,
    Dbus.Message.hasSender, and_assoc]

@[simp] theorem announces_header (name : String) : object.announces (object.header name) = true := by
  simp [announces_iff, Object.header]

/-- Such a handler is called for the signals of the object only. -/
theorem Ready.accepts (ready : Ready object handler) (header : Dbus.Message) :
    Dbus.Signal.accepts handler header = object.announces header := by
  simp [Dbus.Signal.accepts, Dbus.Signal.passes, Object.announces, ready.hasCallback, ready.kept, ready.answered,
    ready.path, ready.interface, ready.member, ready.owner]

theorem Waiting.accepts (waiting : Waiting object handler) (header : Dbus.Message) :
    Dbus.Signal.accepts handler header = false := by
  simp [Dbus.Signal.accepts, Dbus.Signal.passes, waiting.pending]

theorem Object.uniqueName_ne (object : Object) : object.uniqueName ≠ "" := by
  intro isEmpty
  have isUnique := object.isUnique
  rw [isEmpty] at isUnique
  cases isUnique

/-- The reply to the lookup makes a handler ready. -/
theorem Installed.answer (installed : Installed object handler) :
    Ready object (Dbus.Signal.cbNameOwner handler (.owner object.uniqueName)) where
  sender := installed.sender
  path := installed.path
  interface := installed.interface
  member := installed.member
  hasCallback := installed.hasCallback
  kept := installed.kept
  built := Dbus.Signal.cbNameOwner_built installed.built _
  answered := rfl
  owner := by simp [Dbus.Signal.cbNameOwner, Dbus.Signal.ownerField, object.uniqueName_ne]

/-- The rule of the handler lets the signals of the object through. -/
theorem Installed.passesOn (installed : Installed object handler) {header : Dbus.Message}
    (announced : object.announces header = true) :
    Dbus.Signal.passesOn object.owners header handler.matchRule = true := by
  have accepted : Dbus.Signal.accepts (Dbus.Signal.cbNameOwner handler (.owner object.uniqueName)) header = true := by
    rw [installed.answer.accepts, announced]
  have sent : header.sender = some object.uniqueName := (announces_iff header).mp announced |>.2.2.2
  have sentBy : ∀ name, handler.sender = some name → Dbus.Signal.SentBy object.owners header name := by
    intro name isSender
    refine ⟨object.uniqueName, sent, ?_⟩
    rcases installed.sender with isUnique | isBusName
    · left
      exact Option.some.inj (isUnique.symm.trans isSender)
    · right
      have same : Family.connman.busName = name := Option.some.inj (isBusName.symm.trans isSender)
      rw [Object.owners, if_pos same.symm]
  have fits := Dbus.Signal.accepts_fits accepted sentBy
  rw [Dbus.Signal.passesOn_signalMatch installed.built]
  exact fits

theorem signalHandler_installed (object : Object) (ownerKnown : Bool) :
    Installed object (object.signalHandler ownerKnown) := by
  refine ⟨?_, rfl, rfl, rfl, rfl, rfl, Dbus.Signal.handlerNew_built ?_ true true⟩
  · cases ownerKnown
    · exact .inr rfl
    · exact .inl rfl
  · intro filter listed value given
    have unquoted := object.unquoted
    cases ownerKnown with
    | true => exact unquoted filter listed value given
    | false =>
        rcases List.mem_cons.mp listed with rfl | others
        · obtain rfl := Option.some.inj given
          have plain : MatchRule.apostrophe ∉ Family.connman.busName.toList := by decide +kernel
          exact plain
        · exact unquoted filter (.tail _ others) value given

theorem looksUp_uniqueName (object : Object) : Dbus.Signal.looksUp (some object.uniqueName) = false := by
  simp [Dbus.Signal.looksUp, Dbus.Signal.isOwnOwner, object.isUnique]

theorem looksUp_busName : Dbus.Signal.looksUp (some Family.connman.busName) = true := by decide

/-- A handler whose sender is the server needs no lookup. -/
theorem signalHandler_known (object : Object) :
    Ready object (object.signalHandler true) ∧
      requests (object.signalHandler true) = [.addMatch (object.signalHandler true).matchRule] := by
  have unsent := looksUp_uniqueName object
  constructor
  · refine ⟨signalHandler_installed object true, ?_, ?_⟩
    · simp [Object.signalHandler, Dbus.Signal.handlerNew, Object.busNameGet, unsent]
    · simp [Object.signalHandler, Dbus.Signal.handlerNew, Object.busNameGet, unsent]
  · simp [requests, Object.signalHandler, Dbus.Signal.handlerNew, Object.busNameGet, unsent]

/-- A handler whose sender is the name of the service looks its owner up. -/
theorem signalHandler_unknown (object : Object) :
    Waiting object (object.signalHandler false) ∧
      requests (object.signalHandler false) = [.addMatch (object.signalHandler false).matchRule,
        .addMatch (Dbus.Signal.nameOwnerMatch Family.connman.busName), .getNameOwner] := by
  constructor
  · refine ⟨signalHandler_installed object false, ?_⟩
    simp [Object.signalHandler, Dbus.Signal.handlerNew, Object.busNameGet, looksUp_busName]
  · simp [requests, Object.signalHandler, Dbus.Signal.handlerNew, Object.busNameGet, looksUp_busName]

/-! ## Messages -/

/-- What the server sends. -/
inductive Emission (object : Object) : Notice → Prop where
  | changed (name : String) (value : Data) :
      Emission object (.signal (object.header name) (changedBody name value))
  | properties (entries : List (String × Data)) : Emission object (.properties entries)
  | error : Emission object .error

/-- What the bus sends. -/
inductive Heard (object : Object) : Notice → Prop where
  | emitted (notice : Notice) (emission : Emission object notice) : Heard object notice
  | nameOwner : Heard object .nameOwner
  | stray (header : Dbus.Message) (body : List Data) (other : object.announces header = false) :
      Heard object (.signal header body)

@[simp] theorem content_changed (name : String) (value : Data) :
    object.content (.signal (object.header name) (changedBody name value)) = some (.change name value) := by
  simp [Object.content, changedBody]

theorem content_stray {header : Dbus.Message} (other : object.announces header = false) (body : List Data) :
    object.content (.signal header body) = none := by
  unfold Object.content
  split
  · next same =>
      cases same
      simp [other]
  · next same => cases same
  · rfl

@[simp] theorem content_properties (entries : List (String × Data)) :
    object.content (.properties entries) = some (.all entries) := rfl

@[simp] theorem content_error : object.content .error = none := rfl

@[simp] theorem content_nameOwner : object.content .nameOwner = none := rfl

/-! ## Stages -/

/-- Nothing was asked of the server. -/
structure Unasked (network : Network) : Prop where
  asked : network.asked = 0
  emitted : ∀ entries, Notice.properties entries ∉ network.emitted
  unsynced : network.synced = false

/-- The bus sent nothing that concerns the element. -/
def Quiet (object : Object) (incoming : List Notice) : Prop :=
  ∀ notice ∈ incoming, object.content notice = none ∧ notice ≠ .nameOwner

/-- It answered nothing. -/
def Unanswered (incoming : List Notice) : Prop :=
  ∀ notice ∈ incoming, notice ≠ .nameOwner ∧ ∀ entries, notice ≠ .properties entries

/-- How far the element is. The handler knows the owner before the first `GetProperties` reaches the server,
or the reply that tells it is on the way to the process before the reply to that call. -/
inductive Stage (object : Object) (network : Network) : Prop where
  | unregistered (absent : network.handler = none) (outgoing : network.outgoing = []) (rules : network.rules = [])
      (quiet : Quiet object network.incoming) (unasked : Unasked network)
  | subscribing (handler : Dbus.Signal.Handler) (lookup : List Request) (calls : Nat)
      (added : network.handler = some handler)
      (outgoing : network.outgoing = .addMatch handler.matchRule :: lookup ++ List.replicate calls .getProperties)
      (lookedUp : Ready object handler ∧ lookup = [] ∨
        Waiting object handler ∧ ∃ rule, lookup = [.addMatch rule, .getNameOwner])
      (rules : network.rules = []) (quiet : Quiet object network.incoming) (unasked : Unasked network)
  | asking (handler : Dbus.Signal.Handler) (others : List String) (calls : Nat)
      (added : network.handler = some handler) (waiting : Waiting object handler)
      (outgoing : network.outgoing =
        others.map .addMatch ++ .getNameOwner :: List.replicate calls .getProperties)
      (subscribed : handler.matchRule ∈ network.rules) (unanswered : Unanswered network.incoming)
      (unasked : Unasked network)
  | lookingUp (handler : Dbus.Signal.Handler) (calls : Nat) (before after : List Notice)
      (added : network.handler = some handler) (waiting : Waiting object handler)
      (outgoing : network.outgoing = List.replicate calls .getProperties)
      (subscribed : handler.matchRule ∈ network.rules)
      (incoming : network.incoming = before ++ .nameOwner :: after) (unanswered : Unanswered before)
      (unsynced : network.synced = false)
  | ready (handler : Dbus.Signal.Handler) (calls : Nat) (added : network.handler = some handler)
      (isReady : Ready object handler) (outgoing : network.outgoing = List.replicate calls .getProperties)
      (subscribed : handler.matchRule ∈ network.rules)

/-- The network shows a publisher and its replica. -/
structure Relates (object : Object) (network : Network) (shown : Replica.State String Data) : Prop where
  log : shown.log = network.log
  underway : shown.underway = object.underway network
  element : network.element = receiveAll (shown.received.map fun change => (change.1, wireOf change.2))
  synced : shown.synced = network.synced
  emitted : ∀ notice ∈ network.emitted, Emission object notice
  incoming : ∀ notice ∈ network.incoming, Heard object notice
  stage : Stage object network

theorem initial_relates (object : Object) (values : List (String × Data)) :
    Relates object (Network.initial values) (Replica.State.initial values) where
  log := rfl
  underway := rfl
  element := rfl
  synced := rfl
  emitted _ listed := by cases listed
  incoming _ listed := by cases listed
  stage := by
    refine .unregistered rfl rfl rfl (fun _ listed => ?_) ⟨rfl, fun _ listed => ?_, rfl⟩
    · cases listed
    · cases listed

/-! ## Steps of the process and the bus that tell nothing -/

theorem register_relates (related : Relates object network shown) {ownerKnown : Bool}
    (stepped : step object network (.register ownerKnown) = some next) : Relates object next shown := by
  simp only [step, Option.ite_none_right_eq_some, Option.some.injEq] at stepped
  obtain ⟨isAbsent, rfl⟩ := stepped
  refine { related with stage := ?_ }
  cases related.stage with
  | unregistered absent outgoing rules quiet unasked =>
      cases ownerKnown with
      | true =>
          have ⟨isReady, asks⟩ := signalHandler_known object
          refine .subscribing _ [] 0 rfl ?_ (.inl ⟨isReady, rfl⟩) rules quiet
            ⟨unasked.asked, unasked.emitted, unasked.unsynced⟩
          simp [outgoing, asks]
      | false =>
          have ⟨waiting, asks⟩ := signalHandler_unknown object
          let rule := Dbus.Signal.nameOwnerMatch Family.connman.busName
          refine .subscribing _ [.addMatch rule, .getNameOwner] 0 rfl ?_ (.inr ⟨waiting, rule, rfl⟩) rules quiet
            ⟨unasked.asked, unasked.emitted, unasked.unsynced⟩
          simp [outgoing, asks, rule]
  | subscribing handler lookup calls added => simp [added] at isAbsent
  | asking handler others calls added => simp [added] at isAbsent
  | lookingUp handler calls before after added => simp [added] at isAbsent
  | ready handler calls added => simp [added] at isAbsent

theorem sync_relates (related : Relates object network shown)
    (stepped : step object network .sync = some next) : Relates object next shown := by
  simp only [step, Option.ite_none_right_eq_some, Option.some.injEq] at stepped
  obtain ⟨isAdded, rfl⟩ := stepped
  refine { related with stage := ?_ }
  cases related.stage with
  | unregistered absent => simp [absent] at isAdded
  | subscribing handler lookup calls added outgoing lookedUp rules quiet unasked =>
      refine .subscribing handler lookup (calls + 1) added ?_ lookedUp rules quiet
        ⟨unasked.asked, unasked.emitted, unasked.unsynced⟩
      simp [outgoing, List.replicate_succ']
  | asking handler others calls added waiting outgoing subscribed unanswered unasked =>
      refine .asking handler others (calls + 1) added waiting ?_ subscribed unanswered
        ⟨unasked.asked, unasked.emitted, unasked.unsynced⟩
      simp [outgoing, List.replicate_succ']
  | lookingUp handler calls before after added waiting outgoing subscribed incoming unanswered unsynced =>
      refine .lookingUp handler (calls + 1) before after added waiting ?_ subscribed incoming unanswered unsynced
      simp [outgoing, List.replicate_succ']
  | ready handler calls added isReady outgoing subscribed =>
      refine .ready handler (calls + 1) added isReady ?_ subscribed
      simp [outgoing, List.replicate_succ']

/-- What the bus does with the oldest request. -/
theorem handle_cases (stepped : step object network .handle = some next) :
    ∃ request rest, network.outgoing = request :: rest ∧
      ((∃ rule, request = .addMatch rule ∧
          next = { network with outgoing := rest, rules := network.rules ++ [rule] }) ∨
        (request = .getNameOwner ∧
          next = { network with outgoing := rest, incoming := network.incoming ++ [.nameOwner] }) ∨
        (request = .getProperties ∧ next = { network with outgoing := rest, asked := network.asked + 1 })) := by
  simp only [step] at stepped
  split at stepped
  · cases stepped
  · next rule rest outgoing => exact ⟨_, rest, outgoing, .inl ⟨rule, rfl, (Option.some.inj stepped).symm⟩⟩
  · next rest outgoing => exact ⟨_, rest, outgoing, .inr (.inl ⟨rfl, (Option.some.inj stepped).symm⟩)⟩
  · next rest outgoing => exact ⟨_, rest, outgoing, .inr (.inr ⟨rfl, (Option.some.inj stepped).symm⟩)⟩

/-- Only calls are left of the requests. -/
theorem replicate_cons {calls : Nat} {request : Request} {rest : List Request}
    (outgoing : List.replicate calls Request.getProperties = request :: rest) :
    request = .getProperties ∧ rest = List.replicate (calls - 1) .getProperties := by
  cases calls with
  | zero => cases outgoing
  | succ calls =>
      rw [List.replicate_succ, List.cons.injEq] at outgoing
      exact ⟨outgoing.1.symm, outgoing.2.symm⟩

theorem handle_stage (stage : Stage object network) (stepped : step object network .handle = some next) :
    Stage object next := by
  obtain ⟨request, rest, isNext, did⟩ := handle_cases stepped
  cases stage with
  | unregistered absent outgoing =>
      rw [outgoing] at isNext
      cases isNext
  | subscribing handler lookup calls added outgoing lookedUp rules quiet unasked =>
      rw [outgoing, List.cons_append, List.cons.injEq] at isNext
      obtain ⟨isRule, rfl⟩ := isNext
      rcases did with ⟨rule, asked, rfl⟩ | ⟨asked, -⟩ | ⟨asked, -⟩
      · obtain rfl := Request.addMatch.inj (isRule.trans asked)
        rcases lookedUp with ⟨isReady, rfl⟩ | ⟨waiting, rule, rfl⟩
        · refine .ready handler calls added isReady (List.nil_append _) ?_
          simp
        · refine .asking handler [rule] calls added waiting rfl ?_ (fun notice listed => ?_)
            ⟨unasked.asked, unasked.emitted, unasked.unsynced⟩
          · simp
          · obtain ⟨nothing, notOwner⟩ := quiet notice listed
            refine ⟨notOwner, fun entries isReply => ?_⟩
            rw [isReply, content_properties] at nothing
            cases nothing
      · rw [← isRule] at asked
        cases asked
      · rw [← isRule] at asked
        cases asked
  | asking handler others calls added waiting outgoing subscribed unanswered unasked =>
      cases others with
      | nil =>
          rw [outgoing, List.map_nil, List.nil_append, List.cons.injEq] at isNext
          obtain ⟨isAsking, rfl⟩ := isNext
          rcases did with ⟨rule, asked, -⟩ | ⟨-, rfl⟩ | ⟨asked, -⟩
          · rw [← isAsking] at asked
            cases asked
          · exact .lookingUp handler calls network.incoming [] added waiting rfl subscribed rfl unanswered
              unasked.unsynced
          · rw [← isAsking] at asked
            cases asked
      | cons other others =>
          rw [outgoing, List.map_cons, List.cons_append, List.cons.injEq] at isNext
          obtain ⟨isRule, rfl⟩ := isNext
          rcases did with ⟨rule, -, rfl⟩ | ⟨asked, -⟩ | ⟨asked, -⟩
          · exact .asking handler others calls added waiting rfl (List.mem_append_left _ subscribed) unanswered
              ⟨unasked.asked, unasked.emitted, unasked.unsynced⟩
          · rw [← isRule] at asked
            cases asked
          · rw [← isRule] at asked
            cases asked
  | lookingUp handler calls before after added waiting outgoing subscribed incoming unanswered unsynced =>
      obtain ⟨rfl, rfl⟩ := replicate_cons (outgoing.symm.trans isNext)
      rcases did with ⟨rule, asked, -⟩ | ⟨asked, -⟩ | ⟨-, rfl⟩
      · cases asked
      · cases asked
      · exact .lookingUp handler (calls - 1) before after added waiting rfl subscribed incoming unanswered unsynced
  | ready handler calls added isReady outgoing subscribed =>
      obtain ⟨rfl, rfl⟩ := replicate_cons (outgoing.symm.trans isNext)
      rcases did with ⟨rule, asked, -⟩ | ⟨asked, -⟩ | ⟨-, rfl⟩
      · cases asked
      · cases asked
      · exact .ready handler (calls - 1) added isReady rfl subscribed

theorem handle_relates (related : Relates object network shown)
    (stepped : step object network .handle = some next) : Relates object next shown := by
  have stage := handle_stage related.stage stepped
  obtain ⟨request, rest, -, did⟩ := handle_cases stepped
  rcases did with ⟨rule, -, rfl⟩ | ⟨-, rfl⟩ | ⟨-, rfl⟩
  · exact { related with stage := stage }
  · refine { related with stage := stage, underway := ?_, incoming := fun notice listed => ?_ }
    · rw [related.underway]
      simp [Object.underway, List.filterMap_append, List.filterMap_cons]
    · rcases List.mem_append.mp listed with before | isNew
      · exact related.incoming notice before
      · exact List.mem_singleton.mp isNew ▸ .nameOwner
  · exact { related with stage := stage }

/-! ## Messages come and go -/

theorem Quiet.append {incoming : List Notice} (quiet : Quiet object incoming) {notice : Notice}
    (nothing : object.content notice = none) (notOwner : notice ≠ .nameOwner) :
    Quiet object (incoming ++ [notice]) := by
  intro other listed
  rcases List.mem_append.mp listed with before | isNew
  · exact quiet other before
  · exact List.mem_singleton.mp isNew ▸ ⟨nothing, notOwner⟩

theorem Unanswered.append {incoming : List Notice} (unanswered : Unanswered incoming) {notice : Notice}
    (notOwner : notice ≠ .nameOwner) (notReply : ∀ entries, notice ≠ .properties entries) :
    Unanswered (incoming ++ [notice]) := by
  intro other listed
  rcases List.mem_append.mp listed with before | isNew
  · exact unanswered other before
  · exact List.mem_singleton.mp isNew ▸ ⟨notOwner, notReply⟩

theorem Quiet.tellsNothing {incoming : List Notice} (quiet : Quiet object incoming) :
    incoming.filterMap object.content = [] := by
  rw [List.filterMap_eq_nil_iff]
  intro notice listed
  exact (quiet notice listed).1

theorem not_properties {notice : Notice} (nothing : object.content notice = none) (entries : List (String × Data)) :
    notice ≠ .properties entries := by
  rintro rfl
  cases nothing

/-- A message that tells nothing does not move the element on. -/
theorem Stage.hear (stage : Stage object network) {notice : Notice} (nothing : object.content notice = none)
    (notOwner : notice ≠ .nameOwner) :
    Stage object { network with incoming := network.incoming ++ [notice] } := by
  cases stage with
  | unregistered absent outgoing rules quiet unasked =>
      exact .unregistered absent outgoing rules (quiet.append nothing notOwner)
        ⟨unasked.asked, unasked.emitted, unasked.unsynced⟩
  | subscribing handler lookup calls added outgoing lookedUp rules quiet unasked =>
      exact .subscribing handler lookup calls added outgoing lookedUp rules (quiet.append nothing notOwner)
        ⟨unasked.asked, unasked.emitted, unasked.unsynced⟩
  | asking handler others calls added waiting outgoing subscribed unanswered unasked =>
      exact .asking handler others calls added waiting outgoing subscribed
        (unanswered.append notOwner (not_properties nothing)) ⟨unasked.asked, unasked.emitted, unasked.unsynced⟩
  | lookingUp handler calls before after added waiting outgoing subscribed incoming unanswered unsynced =>
      refine .lookingUp handler calls before (after ++ [notice]) added waiting outgoing subscribed ?_ unanswered
        unsynced
      simp [incoming]
  | ready handler calls added isReady outgoing subscribed =>
      exact .ready handler calls added isReady outgoing subscribed

/-- The server answers no call that did not reach it. -/
theorem Stage.emit (stage : Stage object network) {notice : Notice} (log : List (String × Data)) {asked : Nat}
    (free : network.asked = 0 → asked = 0 ∧ ∀ entries, notice ≠ .properties entries) :
    Stage object { network with log := log, asked := asked, emitted := network.emitted ++ [notice] } := by
  have unaskedNext (unasked : Unasked network) :
      Unasked { network with log := log, asked := asked, emitted := network.emitted ++ [notice] } := by
    obtain ⟨none, notReply⟩ := free unasked.asked
    refine ⟨none, fun entries listed => ?_, unasked.unsynced⟩
    rcases List.mem_append.mp listed with before | isNew
    · exact unasked.emitted entries before
    · exact notReply entries (List.mem_singleton.mp isNew).symm
  cases stage with
  | unregistered absent outgoing rules quiet unasked =>
      exact .unregistered absent outgoing rules quiet (unaskedNext unasked)
  | subscribing handler lookup calls added outgoing lookedUp rules quiet unasked =>
      exact .subscribing handler lookup calls added outgoing lookedUp rules quiet (unaskedNext unasked)
  | asking handler others calls added waiting outgoing subscribed unanswered unasked =>
      exact .asking handler others calls added waiting outgoing subscribed unanswered (unaskedNext unasked)
  | lookingUp handler calls before after added waiting outgoing subscribed incoming unanswered unsynced =>
      exact .lookingUp handler calls before after added waiting outgoing subscribed incoming unanswered unsynced
  | ready handler calls added isReady outgoing subscribed =>
      exact .ready handler calls added isReady outgoing subscribed

/-- The bus passes on what the server sends, once it has the rule. -/
theorem Installed.routes (installed : Installed object handler) {rules : List String}
    (subscribed : handler.matchRule ∈ rules) {notice : Notice} (emission : Emission object notice) :
    object.routes rules notice = true := by
  cases emission with
  | changed name value =>
      exact List.any_eq_true.mpr ⟨handler.matchRule, subscribed, installed.passesOn (announces_header name)⟩
  | properties entries => rfl
  | error => rfl

/-- Before the bus has the rule, what it does not pass on is lost for an element that has not got all values. -/
theorem Stage.pass (stage : Stage object network) {notice : Notice} {rest : List Notice}
    (emitted : network.emitted = notice :: rest) (emission : Emission object notice) :
    Stage object { network with
        emitted := rest
        incoming := if object.routes network.rules notice then network.incoming ++ [notice] else network.incoming } ∧
      (object.routes network.rules notice = false →
        network.synced = false ∧ network.incoming.filterMap object.content = []) := by
  have unaskedNext (incoming : List Notice) (unasked : Unasked network) :
      Unasked { network with emitted := rest, incoming := incoming } :=
    ⟨unasked.asked, fun entries listed => unasked.emitted entries (emitted ▸ .tail _ listed), unasked.unsynced⟩
  have notOwner : notice ≠ .nameOwner := by
    rintro rfl
    cases emission
  -- without a rule only an error can get through, which tells nothing
  have unruled (rules : network.rules = []) (quiet : Quiet object network.incoming) (unasked : Unasked network) :
      Quiet object (if object.routes network.rules notice then network.incoming ++ [notice] else network.incoming) := by
    cases emission with
    | changed name value =>
        rw [rules]
        exact quiet
    | properties entries => exact absurd (emitted ▸ List.mem_cons_self) (unasked.emitted entries)
    | error => exact quiet.append rfl notOwner
  have subscribed {handler : Dbus.Signal.Handler} (installed : Installed object handler)
      (isIn : handler.matchRule ∈ network.rules) : object.routes network.rules notice = true :=
    installed.routes isIn emission
  cases stage with
  | unregistered absent outgoing rules quiet unasked =>
      refine ⟨.unregistered absent outgoing rules (unruled rules quiet unasked) (unaskedNext _ unasked), fun _ => ?_⟩
      exact ⟨unasked.unsynced, quiet.tellsNothing⟩
  | subscribing handler lookup calls added outgoing lookedUp rules quiet unasked =>
      refine ⟨.subscribing handler lookup calls added outgoing lookedUp rules (unruled rules quiet unasked)
        (unaskedNext _ unasked), fun _ => ?_⟩
      exact ⟨unasked.unsynced, quiet.tellsNothing⟩
  | asking handler others calls added waiting outgoing isIn unanswered unasked =>
      have routed := subscribed waiting.toInstalled isIn
      have notReply : ∀ entries, notice ≠ .properties entries := by
        rintro entries rfl
        exact unasked.emitted entries (emitted ▸ List.mem_cons_self)
      refine ⟨.asking handler others calls added waiting outgoing isIn ?_ (unaskedNext _ unasked), fun lost => ?_⟩
      · rw [if_pos routed]
        exact unanswered.append notOwner notReply
      · rw [routed] at lost
        cases lost
  | lookingUp handler calls before after added waiting outgoing isIn incoming unanswered unsynced =>
      have routed := subscribed waiting.toInstalled isIn
      refine ⟨.lookingUp handler calls before (after ++ [notice]) added waiting outgoing isIn ?_ unanswered unsynced,
        fun lost => ?_⟩
      · simp [routed, incoming]
      · rw [routed] at lost
        cases lost
  | ready handler calls added isReady outgoing isIn =>
      refine ⟨.ready handler calls added isReady outgoing isIn, fun lost => ?_⟩
      rw [subscribed isReady.toInstalled isIn] at lost
      cases lost

/-! ## Dispatching -/

theorem Quiet.tail {notice : Notice} {rest : List Notice} (quiet : Quiet object (notice :: rest)) :
    Quiet object rest := fun other listed => quiet other (.tail _ listed)

theorem Unanswered.tail {notice : Notice} {rest : List Notice} (unanswered : Unanswered (notice :: rest)) :
    Unanswered rest := fun other listed => unanswered other (.tail _ listed)

/-- The element takes a signal. -/
def Network.heeds (network : Network) (header : Dbus.Message) : Bool :=
  network.handler.any fun handler => Dbus.Signal.accepts handler header

/-- Only signals of the object are taken. -/
theorem Stage.announces (stage : Stage object network) {header : Dbus.Message}
    (heeded : network.heeds header = true) : object.announces header = true := by
  rw [Network.heeds] at heeded
  cases stage with
  | unregistered absent => simp [absent] at heeded
  | subscribing handler lookup calls added outgoing lookedUp =>
      rw [added, Option.any_some] at heeded
      rcases lookedUp with ⟨isReady, -⟩ | ⟨waiting, -⟩
      · rwa [isReady.accepts] at heeded
      · rw [waiting.accepts] at heeded
        cases heeded
  | asking handler others calls added waiting =>
      rw [added, Option.any_some, waiting.accepts] at heeded
      cases heeded
  | lookingUp handler calls before after added waiting =>
      rw [added, Option.any_some, waiting.accepts] at heeded
      cases heeded
  | ready handler calls added isReady => rwa [added, Option.any_some, isReady.accepts] at heeded

/-- A change that is not taken reaches an element that has not got all values. -/
theorem Stage.unheeded (stage : Stage object network) {name : String}
    (unheeded : network.heeds (object.header name) = false) : network.synced = false := by
  cases stage with
  | unregistered absent outgoing rules quiet unasked => exact unasked.unsynced
  | subscribing handler lookup calls added outgoing lookedUp rules quiet unasked => exact unasked.unsynced
  | asking handler others calls added waiting outgoing subscribed unanswered unasked => exact unasked.unsynced
  | lookingUp handler calls before after added waiting outgoing subscribed split unanswered unsynced => exact unsynced
  | ready handler calls added isReady =>
      rw [Network.heeds, added, Option.any_some, isReady.accepts, announces_header] at unheeded
      cases unheeded

/-- Dispatching something else than a reply. -/
theorem Stage.take (stage : Stage object network) {notice : Notice} {rest : List Notice}
    (incoming : network.incoming = notice :: rest) (notOwner : notice ≠ .nameOwner) (element : PropertyList) :
    Stage object { network with incoming := rest, element := element } := by
  cases stage with
  | unregistered absent outgoing rules quiet unasked =>
      rw [incoming] at quiet
      exact .unregistered absent outgoing rules quiet.tail ⟨unasked.asked, unasked.emitted, unasked.unsynced⟩
  | subscribing handler lookup calls added outgoing lookedUp rules quiet unasked =>
      rw [incoming] at quiet
      exact .subscribing handler lookup calls added outgoing lookedUp rules quiet.tail
        ⟨unasked.asked, unasked.emitted, unasked.unsynced⟩
  | asking handler others calls added waiting outgoing subscribed unanswered unasked =>
      rw [incoming] at unanswered
      exact .asking handler others calls added waiting outgoing subscribed unanswered.tail
        ⟨unasked.asked, unasked.emitted, unasked.unsynced⟩
  | lookingUp handler calls before after added waiting outgoing subscribed split unanswered unsynced =>
      rw [incoming] at split
      cases before with
      | nil => exact absurd (List.cons.inj split).1 notOwner
      | cons first before =>
          obtain ⟨rfl, rfl⟩ := List.cons.inj split
          exact .lookingUp handler calls before after added waiting outgoing subscribed rfl unanswered.tail unsynced
  | ready handler calls added isReady outgoing subscribed =>
      exact .ready handler calls added isReady outgoing subscribed

/-- The reply to the lookup is the first reply. -/
theorem Stage.takeNameOwner (stage : Stage object network) {rest : List Notice}
    (incoming : network.incoming = .nameOwner :: rest) :
    Stage object { network with
      incoming := rest
      handler := network.handler.map fun handler =>
        Dbus.Signal.cbNameOwner handler (.owner object.uniqueName) } := by
  have isHead : Notice.nameOwner ∈ network.incoming := incoming ▸ List.mem_cons_self
  cases stage with
  | unregistered absent outgoing rules quiet unasked => exact absurd rfl (quiet _ isHead).2
  | subscribing handler lookup calls added outgoing lookedUp rules quiet unasked => exact absurd rfl (quiet _ isHead).2
  | asking handler others calls added waiting outgoing subscribed unanswered unasked =>
      exact absurd rfl (unanswered _ isHead).1
  | lookingUp handler calls before after added waiting outgoing subscribed split unanswered unsynced =>
      refine .ready (Dbus.Signal.cbNameOwner handler (.owner object.uniqueName)) calls ?_
        waiting.toInstalled.answer outgoing subscribed
      simp [added]
  | ready handler calls added isReady outgoing subscribed =>
      refine .ready (Dbus.Signal.cbNameOwner handler (.owner object.uniqueName)) calls ?_
        isReady.toInstalled.answer outgoing subscribed
      simp [added]

/-- A reply to `GetProperties` reaches an element whose handler is ready. -/
theorem Stage.takeProperties (stage : Stage object network) {entries : List (String × Data)} {rest : List Notice}
    (incoming : network.incoming = .properties entries :: rest) (element : PropertyList) :
    Stage object { network with incoming := rest, element := element, synced := true } := by
  have isHead : Notice.properties entries ∈ network.incoming := incoming ▸ List.mem_cons_self
  have loud (quiet : Quiet object network.incoming) : False := by
    have nothing := (quiet _ isHead).1
    cases nothing
  cases stage with
  | unregistered absent outgoing rules quiet unasked => exact (loud quiet).elim
  | subscribing handler lookup calls added outgoing lookedUp rules quiet unasked => exact (loud quiet).elim
  | asking handler others calls added waiting outgoing subscribed unanswered unasked =>
      exact absurd rfl ((unanswered _ isHead).2 entries)
  | lookingUp handler calls before after added waiting outgoing subscribed split unanswered unsynced =>
      rw [incoming] at split
      cases before with
      | nil => cases (List.cons.inj split).1
      | cons first before =>
          have isFirst := (List.cons.inj split).1
          exact absurd isFirst.symm ((unanswered first List.mem_cons_self).2 entries)
  | ready handler calls added isReady outgoing subscribed =>
      exact .ready handler calls added isReady outgoing subscribed

/-! ## The properties of the element -/

theorem propertyChanged_receiveAll (received : List (String × Wire)) (name : String) (value : Data) :
    (propertyChanged (receiveAll received) (changedBody name value)).1 = receiveAll (received ++ [(name, wireOf value)]) :=
  (receiveAll_append received (name, wireOf value)).symm

theorem getProperties_receiveAll (received : List (String × Wire)) (entries : List (String × Data)) :
    (getProperties (receiveAll received) (propertiesBody entries)).1 =
      receiveAll (received ++ entries.map fun entry => (entry.1, wireOf entry.2)) := by
  have updates : replyUpdates (propertiesBody entries) = entries.map fun entry => (entry.1, wireOf entry.2) := by
    simp [replyUpdates, propertiesBody, List.filterMap_map, propertyOfReply, Function.comp_def]
  have handled := receive_eq (receiveAll received) (.getProperties (propertiesBody entries))
  rw [PropertyMessage.updates, updates] at handled
  have joined (more : List (String × Wire)) : receiveAll (received ++ more) =
      more.foldl (fun element update => (valueReceive element update.1 update.2).1) (receiveAll received) :=
    List.foldl_append
  rw [joined]
  exact handled

/-! ## The network simulates a publisher and its replica -/

theorem stray_relates (related : Relates object network shown) {header : Dbus.Message} {body : List Data}
    (stepped : step object network (.stray header body) = some next) : Relates object next shown := by
  simp only [step, Option.ite_none_right_eq_some, Option.some.injEq] at stepped
  obtain ⟨⟨other, -⟩, rfl⟩ := stepped
  have nothing := content_stray other body
  refine { related with underway := ?_, incoming := fun notice listed => ?_, stage := ?_ }
  · rw [related.underway]
    simp [Object.underway, List.filterMap_append, nothing]
  · rcases List.mem_append.mp listed with before | isNew
    · exact related.incoming notice before
    · exact List.mem_singleton.mp isNew ▸ .stray header body other
  · refine related.stage.hear nothing ?_
    rintro ⟨⟩

theorem emitted_append (related : Relates object network shown) {last : Notice} (emission : Emission object last) :
    ∀ notice ∈ network.emitted ++ [last], Emission object notice := by
  intro notice listed
  rcases List.mem_append.mp listed with before | isNew
  · exact related.emitted notice before
  · exact List.mem_singleton.mp isNew ▸ emission

theorem refuse_relates (related : Relates object network shown)
    (stepped : step object network .refuse = some next) : Relates object next shown := by
  simp only [step, Option.ite_none_right_eq_some, Option.some.injEq] at stepped
  obtain ⟨asked, rfl⟩ := stepped
  refine { related with underway := ?_, emitted := emitted_append related .error, stage := ?_ }
  · rw [related.underway]
    simp [Object.underway, List.filterMap_append, List.filterMap_cons]
  · exact related.stage.emit network.log fun none => absurd none asked.ne'

/-- A step that is answered by one action. -/
def Answered (object : Object) (shown : Replica.State String Data) (action : Replica.Action String Data)
    (next : Network) : Prop :=
  ∃ later, Replica.machine.step shown action = some later ∧ Relates object next later

theorem set_answered (related : Relates object network shown) {name : String} {value : Data}
    (stepped : step object network (.set name value) = some next) :
    Answered object shown (.change name value) next := by
  obtain rfl := Option.some.inj stepped
  refine ⟨_, rfl, ?_⟩
  refine { related with log := ?_, underway := ?_, emitted := emitted_append related (.changed name value), stage := ?_ }
  · exact congrArg (· ++ [(name, value)]) related.log
  · simp [related.underway, Object.underway, List.filterMap_append]
  · refine related.stage.emit (network.log ++ [(name, value)]) fun none => ⟨none, fun entries => ?_⟩
    rintro ⟨⟩

theorem answer_answered (related : Relates object network shown) {names : List String}
    (stepped : step object network (.answer names) = some next) :
    Answered object shown (.recite (recital network.log names)) next := by
  simp only [step, Option.ite_none_right_eq_some, Option.some.injEq] at stepped
  obtain ⟨⟨asked, all⟩, rfl⟩ := stepped
  have full : latest (recital network.log names) = latest shown.log := by
    rw [related.log]
    exact Replica.latest_recital_all all
  refine ⟨{ shown with underway := shown.underway ++ [.all (recital network.log names)] }, if_pos full, ?_⟩
  refine { related with underway := ?_, emitted := emitted_append related (.properties _), stage := ?_ }
  · simp [related.underway, Object.underway, List.filterMap_append]
  · exact related.stage.emit network.log fun none => absurd none asked.ne'

/-- The oldest change is lost. -/
theorem miss_answered {name : String} {value : Data} {rest : List (Replica.Notice String Data)}
    (related : Relates object network shown) (isNext : shown.underway = .change name value :: rest)
    (unsynced : network.synced = false) (log : next.log = network.log) (underway : object.underway next = rest)
    (element : next.element = network.element) (synced : next.synced = network.synced)
    (emitted : ∀ notice ∈ next.emitted, Emission object notice) (incoming : ∀ notice ∈ next.incoming, Heard object notice)
    (stage : Stage object next) : Answered object shown .miss next := by
  refine ⟨{ shown with underway := rest, seen := shown.seen ++ [(name, value)] }, ?_, ?_⟩
  · simp [Replica.machine, Replica.step, isNext, related.synced, unsynced]
  · exact ⟨related.log.trans log.symm, underway.symm, element.trans related.element,
      related.synced.trans synced.symm, emitted, incoming, stage⟩

/-- What is answered by an action, or by none. -/
def Simulated (object : Object) (shown : Replica.State String Data) (actions : List (Replica.Action String Data))
    (next : Network) : Prop :=
  ∃ later, Replica.machine.exec shown actions = some later ∧ Relates object next later

theorem Relates.simulated (related : Relates object next shown) : Simulated object shown [] next :=
  ⟨shown, rfl, related⟩

theorem Answered.simulated {action : Replica.Action String Data} (answered : Answered object shown action next) :
    Simulated object shown [action] next := by
  obtain ⟨later, stepped, related⟩ := answered
  exact ⟨later, Machine.exec_singleton stepped, related⟩

theorem pass_simulated (related : Relates object network shown) (stepped : step object network .pass = some next) :
    Simulated object shown (actions object network .pass) next := by
  simp only [step] at stepped
  split at stepped
  · cases stepped
  · next notice rest emitted =>
      obtain rfl := Option.some.inj stepped
      have emission := related.emitted notice (emitted ▸ List.mem_cons_self)
      obtain ⟨stage, lost⟩ := related.stage.pass emitted emission
      have emittedRest : ∀ other ∈ rest, Emission object other := fun other listed =>
        related.emitted other (emitted ▸ .tail _ listed)
      cases routed : object.routes network.rules notice with
      | true =>
          rw [routed, if_pos rfl] at stage
          have none : actions object network .pass = [] := by simp [actions, emitted, routed]
          rw [none]
          refine Relates.simulated { related with
            underway := ?_, emitted := emittedRest, incoming := fun other listed => ?_, stage := stage }
          · rw [related.underway]
            simp [Object.underway, emitted]
          · rcases List.mem_append.mp listed with before | isNew
            · exact related.incoming other before
            · exact List.mem_singleton.mp isNew ▸ .emitted notice emission
      | false =>
          rw [routed, if_neg Bool.false_ne_true] at stage
          obtain ⟨unsynced, nothing⟩ := lost routed
          cases emission with
          | changed name value =>
              have one : actions object network .pass = [.miss] := by simp [actions, emitted, routed]
              rw [one]
              have isNext : shown.underway = .change name value :: rest.filterMap object.content := by
                rw [related.underway, Object.underway, List.filterMap_append, nothing, emitted]
                simp
              refine Answered.simulated
                (miss_answered related isNext unsynced rfl ?_ rfl rfl emittedRest related.incoming stage)
              simp [Object.underway, List.filterMap_append, nothing]
          | properties entries => cases routed
          | error => cases routed

/-- The element takes a change. -/
theorem change_answered {name : String} {value : Data} {rest : List Notice}
    (related : Relates object network shown)
    (incoming : network.incoming = .signal (object.header name) (changedBody name value) :: rest) :
    Answered object shown .learn { network with
      incoming := rest, element := (propertyChanged network.element (changedBody name value)).1 } := by
  have isNext : shown.underway = .change name value :: (rest ++ network.emitted).filterMap object.content := by
    rw [related.underway, Object.underway, incoming]
    simp
  refine ⟨{ shown with
    underway := (rest ++ network.emitted).filterMap object.content
    seen := shown.seen ++ [(name, value)]
    received := shown.received ++ [(name, value)] }, ?_, ?_⟩
  · simp [Replica.machine, Replica.step, isNext]
  · refine { related with underway := rfl, element := ?_, incoming := fun notice listed => ?_, stage := ?_ }
    · rw [related.element, propertyChanged_receiveAll, List.map_append, List.map_singleton]
    · exact related.incoming notice (incoming ▸ .tail _ listed)
    · exact related.stage.take incoming (by rintro ⟨⟩) _

/-- The element takes all properties. -/
theorem properties_answered {entries : List (String × Data)} {rest : List Notice}
    (related : Relates object network shown) (incoming : network.incoming = .properties entries :: rest) :
    Answered object shown .learn { network with
      incoming := rest
      element := (getProperties network.element (propertiesBody entries)).1
      synced := true } := by
  have isNext : shown.underway = .all entries :: (rest ++ network.emitted).filterMap object.content := by
    rw [related.underway, Object.underway, incoming]
    simp
  refine ⟨{ shown with
    underway := (rest ++ network.emitted).filterMap object.content
    received := shown.received ++ entries
    synced := true }, ?_, ?_⟩
  · simp [Replica.machine, Replica.step, isNext]
  · refine { related with
      underway := rfl, element := ?_, synced := rfl, incoming := fun notice listed => ?_, stage := ?_ }
    · rw [related.element, getProperties_receiveAll, List.map_append]
    · exact related.incoming notice (incoming ▸ .tail _ listed)
    · exact related.stage.takeProperties incoming _

/-- A message that tells nothing is dispatched. -/
theorem Relates.skip {notice : Notice} {rest : List Notice} (related : Relates object network shown)
    (incoming : network.incoming = notice :: rest) (nothing : object.content notice = none)
    (notOwner : notice ≠ .nameOwner) : Relates object { network with incoming := rest } shown := by
  refine { related with underway := ?_, incoming := fun other listed => ?_, stage := ?_ }
  · rw [related.underway, Object.underway, Object.underway, incoming, List.cons_append,
      List.filterMap_cons_none nothing]
  · exact related.incoming other (incoming ▸ .tail _ listed)
  · exact related.stage.take incoming notOwner network.element

theorem deliver_simulated (related : Relates object network shown)
    (stepped : step object network .deliver = some next) :
    Simulated object shown (actions object network .deliver) next := by
  simp only [step] at stepped
  split at stepped
  · cases stepped
  · next notice rest incoming =>
      obtain rfl := Option.some.inj stepped
      cases related.incoming notice (incoming ▸ List.mem_cons_self) with
      | emitted notice emission =>
          cases emission with
          | changed name value =>
              cases heeded : network.heeds (object.header name) with
              | true =>
                  have one : actions object network .deliver = [.learn] := by
                    simp only [Network.heeds] at heeded
                    simp [actions, incoming, heeded]
                  have taken : dispatch object { network with incoming := rest }
                      (.signal (object.header name) (changedBody name value)) = { network with
                        incoming := rest
                        element := (propertyChanged network.element (changedBody name value)).1 } := if_pos heeded
                  rw [one, taken]
                  exact (change_answered related incoming).simulated
              | false =>
                  have one : actions object network .deliver = [.miss] := by
                    simp only [Network.heeds] at heeded
                    simp [actions, incoming, heeded]
                  have left : dispatch object { network with incoming := rest }
                      (.signal (object.header name) (changedBody name value)) = { network with incoming := rest } :=
                    if_neg (by simpa [Network.heeds] using heeded)
                  have isNext : shown.underway =
                      .change name value :: (rest ++ network.emitted).filterMap object.content := by
                    rw [related.underway, Object.underway, incoming]
                    simp
                  rw [one, left]
                  refine Answered.simulated (miss_answered related isNext (related.stage.unheeded heeded) rfl rfl rfl
                    rfl related.emitted (fun other listed => related.incoming other (incoming ▸ .tail _ listed)) ?_)
                  exact related.stage.take incoming (by rintro ⟨⟩) network.element
          | properties entries =>
              have one : actions object network .deliver = [.learn] := by simp [actions, incoming]
              rw [one]
              exact (properties_answered related incoming).simulated
          | error =>
              have none : actions object network .deliver = [] := by simp [actions, incoming]
              rw [none]
              exact (related.skip incoming rfl (by rintro ⟨⟩)).simulated
      | nameOwner =>
          have none : actions object network .deliver = [] := by simp [actions, incoming]
          rw [none]
          refine Relates.simulated { related with
            underway := ?_, incoming := fun other listed => ?_, stage := related.stage.takeNameOwner incoming }
          · rw [related.underway, Object.underway, incoming]
            rfl
          · exact related.incoming other (incoming ▸ .tail _ listed)
      | stray header body other =>
          have nothing := content_stray other body
          have none : actions object network .deliver = [] := by simp [actions, incoming, nothing]
          have left : dispatch object { network with incoming := rest } (.signal header body) =
              { network with incoming := rest } := by
            refine if_neg fun heeded => ?_
            have announced := related.stage.announces heeded
            rw [other] at announced
            cases announced
          rw [none, left]
          exact (related.skip incoming nothing (by rintro ⟨⟩)).simulated

/-- The process, the bus and the server simulate a publisher and its replica. -/
theorem replica_simulates (object : Object) :
    Simulates (machine object) Replica.machine (Relates object) (fun network label _ => actions object network label) where
  step network label next shown related stepped := by
    cases label with
    | register ownerKnown => exact (register_relates related stepped).simulated
    | sync => exact (sync_relates related stepped).simulated
    | handle => exact (handle_relates related stepped).simulated
    | set name value => exact (set_answered related stepped).simulated
    | answer names => exact (answer_answered related stepped).simulated
    | refuse => exact (refuse_relates related stepped).simulated
    | pass => exact pass_simulated related stepped
    | stray header body => exact (stray_relates related stepped).simulated
    | deliver => exact deliver_simulated related stepped

/-! ## Runs -/

/-- The changes that the element has not seen are under way to it, each once and in order. Once it got all
properties, its properties are those that the server had before these changes, and all it has if there are
none. -/
structure Follows (object : Object) (network : Network) : Prop where
  behind : ∃ seen, network.log = seen ++ changes (object.underway network) ∧
    (network.synced = true → ∀ name, propertyGet network.element name =
      (latest seen name).bind fun value => readable (wireOf value))
  settled : changes (object.underway network) = [] → network.synced = true → ∀ name,
    propertyGet network.element name = (latest network.log name).bind fun value => readable (wireOf value)

theorem Relates.follows (related : Relates object network shown) (follows : Replica.Follows shown) :
    Follows object network := by
  have order : network.log = shown.seen ++ changes (object.underway network) := by
    rw [← related.log, follows.order, related.underway]
  have current (synced : network.synced = true) (name : String) : propertyGet network.element name =
      (latest shown.seen name).bind fun value => readable (wireOf value) := by
    have translated := Replica.latest_map wireOf shown.received name
    rw [related.element, (receiveAll_exact _).2.1 name]
    change (latest (shown.received.map fun change => (change.1, wireOf change.2)) name).bind readable = _
    rw [translated, follows.current (related.synced.trans synced), Option.bind_map]
    rfl
  refine ⟨⟨shown.seen, order, current⟩, fun none synced name => ?_⟩
  rw [order, none, List.append_nil]
  exact current synced name

/-- Whatever the server sets, however the messages of the process, the bus, the server and others are
interleaved, and whether or not the owner of the name has to be looked up: the element follows the object on
the server. -/
theorem element_follows_throughout (object : Object) (values : List (String × Data)) (labels : List Label) :
    (machine object).Throughout (Follows object) (Network.initial values) labels := by
  rw [Machine.throughout_iff_prefix]
  intro before _ network executed
  obtain ⟨shown, answered, related⟩ := (replica_simulates object).run (initial_relates object values) executed
  exact related.follows ((Replica.follows_throughout values _).finish answered)

/-- The manager of a server. -/
def manager : Object where
  uniqueName := ":1.5"
  path := "/"
  interface := "net.connman.Manager"
  isUnique := by decide
  unquoted := by decide +kernel

/-- The bus drops the first change, the second is overtaken by the lookup, and the last one is taken. -/
def lookedUpRun : List Label :=
  [.register false, .set "State" (.string "offline"), .pass, .handle, .set "State" (.string "ready"), .pass, .handle,
    .handle, .sync, .handle, .answer ["State"], .set "State" (.string "online"), .pass, .pass, .deliver, .deliver,
    .deliver, .deliver]

example : ((machine manager).exec (Network.initial []) lookedUpRun).map (fun network =>
    (network.synced, propertyGet network.element "State")) = some (true, some (.string, .str "online")) := by
  rfl

end EDBus.Elements.Replication
