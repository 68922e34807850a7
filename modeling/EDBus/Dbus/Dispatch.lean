import EDBus.Semantics.Simulation
import Mathlib.Data.List.Basic

/-!
# Dispatching the queue of a connection

libdbus reports its dispatch status only when it changes. `cb_dispatch_status`
turns the reports into an idler of the main loop, and `e_dbus_idler` takes one
message at a time from the queue. A message handler may run the main loop again.
`armed_throughout_iff` tells the runs in which a waiting message always has its
idler; `unheard_after` is what becomes of the others.

libdbus is not part of the program. It is a parameter, of which no more is known
than `Documented` says.
-/

namespace EDBus.Dbus.Dispatch

/-- `DBusDispatchStatus`. -/
inductive DispatchStatus where
  | dataRemains
  | complete
  | needMemory
deriving DecidableEq, Repr

/-! ## libdbus -/

/-- What happens inside a connection of libdbus: its queue, its status and what
changes them. -/
structure Libdbus (Inside Message : Type) where
  /-- The messages that were received and not dispatched yet. -/
  incoming : Inside → List Message
  /-- `dbus_connection_get_dispatch_status`. -/
  status : Inside → DispatchStatus
  /-- The transport is read. -/
  read : Inside → List Message → Inside
  /-- Memory runs out or is back. -/
  memory : Inside → Bool → Inside
  /-- `dbus_connection_dispatch` takes a message. -/
  take : Inside → Inside
  /-- The handlers of a message had no memory for it. -/
  putBack : Inside → Message → Inside

variable {Inside Message : Type}

/-- What libdbus documents of them. While a message waits, data remains. A dispatch
takes the message that was received first, and a message that is put back is the
first again. -/
structure Libdbus.Documented (lib : Libdbus Inside Message) : Prop where
  remains : ∀ inside, lib.incoming inside ≠ [] → lib.status inside = .dataRemains
  read : ∀ inside messages, lib.incoming (lib.read inside messages) = lib.incoming inside ++ messages
  memory : ∀ inside starved, lib.incoming (lib.memory inside starved) = lib.incoming inside
  take : ∀ inside, lib.incoming (lib.take inside) = (lib.incoming inside).tail
  putBack : ∀ inside message, lib.incoming (lib.putBack inside message) = message :: lib.incoming inside

/-- Data that remains is a message, and not a part of the authentication. -/
def Libdbus.Authenticated (lib : Libdbus Inside Message) : Prop :=
  ∀ inside, lib.status inside = .dataRemains → lib.incoming inside ≠ []

/-- A libdbus with nothing but a queue, and with or without memory for more. -/
def Libdbus.queue (Message : Type) : Libdbus (List Message × Bool) Message where
  incoming inside := inside.1
  status inside := if inside.1 ≠ [] then .dataRemains else if inside.2 then .needMemory else .complete
  read inside messages := (inside.1 ++ messages, inside.2)
  memory inside starved := (inside.1, starved)
  take inside := (inside.1.tail, inside.2)
  putBack inside message := (message :: inside.1, inside.2)

theorem Libdbus.queue_documented (Message : Type) : (queue Message).Documented where
  remains _ waits := if_pos waits
  read _ _ := rfl
  memory _ _ := rfl
  take _ := rfl
  putBack _ _ := rfl

theorem Libdbus.queue_authenticated (Message : Type) : (queue Message).Authenticated := by
  rintro ⟨incoming, starved⟩ remains (rfl : incoming = [])
  cases starved <;> cases remains

theorem Libdbus.Documented.eq_nil {lib : Libdbus Inside Message} (documented : lib.Documented) {inside : Inside}
    (complete : lib.status inside = .complete) : lib.incoming inside = [] := by
  by_contra waits
  rw [documented.remains inside waits] at complete
  cases complete

/-! ## The functions of `e_dbus.c` -/

/-- An `Ecore_Idler`. -/
abbrev IdlerId := Nat

/-- A connection and its idler. `lastStatus` is the status libdbus last compared
with. `idler` is the field of the connection, `idlers` the idlers of the main loop,
`running` the message whose handlers have not returned. An idler that is not in the
main loop was deleted if `touchedFreed`. The code does not keep the last two fields,
the messages whose handlers have returned and all that were ever received. -/
structure State (Inside Message : Type) where
  inside : Inside
  lastStatus : DispatchStatus
  idler : Option IdlerId
  idlers : List IdlerId
  nextIdler : IdlerId
  running : Option Message
  isOpen : Bool
  touchedFreed : Bool
  dispatched : List Message
  arrived : List Message

/-- `ecore_idler_add(e_dbus_idler, cd)`, which is taken to succeed. -/
def idlerAdd (state : State Inside Message) : State Inside Message :=
  { state with
    idler := some state.nextIdler
    idlers := state.nextIdler :: state.idlers
    nextIdler := state.nextIdler + 1 }

/-- `ecore_idler_del(cd->idler); cd->idler = NULL`. -/
def idlerDel (state : State Inside Message) (id : IdlerId) : State Inside Message :=
  { state with
    idler := none
    idlers := state.idlers.erase id
    touchedFreed := state.touchedFreed || !state.idlers.contains id }

/-- `cb_dispatch_status`. -/
def cbDispatchStatus (state : State Inside Message) (newStatus : DispatchStatus) : State Inside Message :=
  match state.idler with
  | none => if newStatus = .dataRemains then idlerAdd state else state
  | some id => if newStatus = .dataRemains then state else idlerDel state id

variable (lib : Libdbus Inside Message)

/-- The end of every libdbus function that may change the status: the status
function is called if the status is not the last one. -/
def updateDispatchStatus (state : State Inside Message) : State Inside Message :=
  let status := lib.status state.inside
  if status = state.lastStatus then state
  else cbDispatchStatus { state with lastStatus := status } status

/-- `dbus_connection_dispatch` up to the handlers of the message, if there is one. -/
def connectionDispatch (state : State Inside Message) : State Inside Message :=
  match lib.incoming state.inside with
  | [] => updateDispatchStatus lib state
  | message :: _ => { state with inside := lib.take state.inside, running := some message }

/-- `e_dbus_idler` up to the handlers of the message. -/
def idler (state : State Inside Message) (id : IdlerId) : State Inside Message :=
  if lib.status state.inside = .complete then
    -- the main loop deletes an idler that returns ECORE_CALLBACK_CANCEL
    { state with idler := none, idlers := state.idlers.erase id }
  else connectionDispatch lib state

/-- The handlers of the message return. It is dispatched unless they had no memory. -/
def dispatchReturn (state : State Inside Message) (message : Message) (handled : Bool) : State Inside Message :=
  updateDispatchStatus lib
    (if handled then { state with running := none, dispatched := state.dispatched ++ [message] }
    else { state with running := none, inside := lib.putBack state.inside message })

/-- A connection of libdbus that may have messages already, before its status is
looked at. libdbus has `reported` it to itself, or still has the one of a new
connection. -/
def State.created (inside : Inside) (reported : Bool) : State Inside Message where
  inside := inside
  lastStatus := if reported then lib.status inside else .complete
  idler := none
  idlers := []
  nextIdler := 0
  running := none
  isOpen := true
  touchedFreed := false
  dispatched := []
  arrived := lib.incoming inside

/-- `e_dbus_connection_setup`. -/
def State.setup (inside : Inside) (reported : Bool) : State Inside Message :=
  cbDispatchStatus (State.created lib inside reported) (lib.status inside)

/-- `e_dbus_connection_close` by the last holder. -/
def connectionClose (state : State Inside Message) : State Inside Message :=
  match state.idler with
  | none => { state with isOpen := false }
  | some id => { idlerDel state id with isOpen := false }

/-! ## Runs -/

/-- What happens next: the transport reads messages, memory runs out or is back,
another function of libdbus compares the status, the main loop calls an idler, the
handlers of the message return, the connection is closed. -/
inductive Label (Message : Type) where
  | read (messages : List Message)
  | memory (starved : Bool)
  | compared
  | idlerCall (id : IdlerId)
  | dispatchReturn (handled : Bool)
  | close

/-- A dispatch returns. While data remains, one that is made from a handler of the
connection waits for this handler, so that neither ever returns. -/
def Returns (state : State Inside Message) : Prop :=
  lib.status state.inside = .dataRemains → state.running.isNone

instance (state : State Inside Message) : Decidable (Returns lib state) := inferInstanceAs (Decidable (_ → _))

/-- One step. An idler is called from the main loop, which a handler may run too, so
that an `idlerCall` is possible while a message is `running`. A close then waits in
`close_connection` for the outermost idler. -/
def step (state : State Inside Message) : Label Message → Option (State Inside Message)
  | .read messages =>
    if state.isOpen then
      some (updateDispatchStatus lib
        { state with inside := lib.read state.inside messages, arrived := state.arrived ++ messages })
    else none
  | .memory starved =>
    if state.isOpen then
      some (updateDispatchStatus lib { state with inside := lib.memory state.inside starved })
    else none
  | .compared => if state.isOpen then some (updateDispatchStatus lib state) else none
  | .idlerCall id => if id ∈ state.idlers ∧ Returns lib state then some (idler lib state id) else none
  | .dispatchReturn handled => state.running.map fun message => dispatchReturn lib state message handled
  | .close => if state.isOpen ∧ state.running.isNone then some (connectionClose state) else none

/-- The connection as a machine. -/
def machine : Semantics.Machine (State Inside Message) (Label Message) where
  step := step lib

variable {lib}

/-! ## What a comparison of the status does -/

/-- Only the idler may differ, and what libdbus compares with. -/
structure SameQueue (before after : State Inside Message) : Prop where
  inside : after.inside = before.inside
  running : after.running = before.running
  isOpen : after.isOpen = before.isOpen
  dispatched : after.dispatched = before.dispatched
  arrived : after.arrived = before.arrived

/-- The idler of the connection is the only one that the main loop has for it, and
no idler was deleted twice. -/
structure Linked (state : State Inside Message) : Prop where
  idlers : state.idlers = state.idler.toList
  untouched : state.touchedFreed = false

theorem cbDispatchStatus_sameQueue (state : State Inside Message) (newStatus : DispatchStatus) :
    SameQueue state (cbDispatchStatus state newStatus) := by
  simp only [cbDispatchStatus, idlerAdd, idlerDel]
  split <;> split <;> exact ⟨rfl, rfl, rfl, rfl, rfl⟩

theorem cbDispatchStatus_lastStatus (state : State Inside Message) (newStatus : DispatchStatus) :
    (cbDispatchStatus state newStatus).lastStatus = state.lastStatus := by
  simp only [cbDispatchStatus, idlerAdd, idlerDel]
  split <;> split <;> rfl

/-- After a report the connection has an idler if and only if data remains. -/
theorem cbDispatchStatus_idler (state : State Inside Message) (newStatus : DispatchStatus) :
    (cbDispatchStatus state newStatus).idler.isSome ↔ newStatus = .dataRemains := by
  cases newStatus <;> cases has : state.idler <;> simp [cbDispatchStatus, idlerAdd, idlerDel, has]

theorem Linked.idlerDel {state : State Inside Message} {id : IdlerId} (linked : Linked state)
    (has : state.idler = some id) : Linked (idlerDel state id) where
  idlers := by simp [Dispatch.idlerDel, linked.idlers, has]
  untouched := by simp [Dispatch.idlerDel, linked.idlers, linked.untouched, has]

theorem Linked.cbDispatchStatus {state : State Inside Message} (linked : Linked state)
    (newStatus : DispatchStatus) : Linked (cbDispatchStatus state newStatus) := by
  simp only [Dispatch.cbDispatchStatus]
  split
  · rename_i none
    split
    · exact ⟨by simp [idlerAdd, linked.idlers, none], linked.untouched⟩
    · exact linked
  · rename_i id has
    split
    · exact linked
    · exact linked.idlerDel has

theorem updateDispatchStatus_sameQueue (lib : Libdbus Inside Message) (state : State Inside Message) :
    SameQueue state (updateDispatchStatus lib state) := by
  simp only [updateDispatchStatus]
  split
  · exact ⟨rfl, rfl, rfl, rfl, rfl⟩
  · have same := cbDispatchStatus_sameQueue { state with lastStatus := lib.status state.inside }
      (lib.status state.inside)
    exact ⟨same.inside, same.running, same.isOpen, same.dispatched, same.arrived⟩

theorem Linked.updateDispatchStatus (lib : Libdbus Inside Message) {state : State Inside Message}
    (linked : Linked state) :
    Linked (updateDispatchStatus lib state) := by
  simp only [Dispatch.updateDispatchStatus]
  split
  · exact linked
  · have compared : Linked { state with lastStatus := lib.status state.inside } :=
      ⟨linked.idlers, linked.untouched⟩
    exact compared.cbDispatchStatus _

theorem updateDispatchStatus_lastStatus (lib : Libdbus Inside Message) (state : State Inside Message) :
    (updateDispatchStatus lib state).lastStatus = lib.status state.inside := by
  simp only [updateDispatchStatus]
  split
  · rename_i same
    exact same.symm
  · exact cbDispatchStatus_lastStatus _ _

theorem updateDispatchStatus_idler (state : State Inside Message) :
    (updateDispatchStatus lib state).idler.isSome ↔
      if lib.status state.inside = state.lastStatus then state.idler.isSome = true
      else lib.status state.inside = .dataRemains := by
  simp only [updateDispatchStatus]
  split
  · exact Iff.rfl
  · exact cbDispatchStatus_idler _ _

/-! ## What every run keeps -/

/-- Every message that arrived is dispatched, running or waiting. -/
def Kept (lib : Libdbus Inside Message) (state : State Inside Message) : Prop :=
  (state.dispatched ++ state.running.toList ++ lib.incoming state.inside).Perm state.arrived

/-- What holds whatever the handlers do. Data that remains was reported, if not to
the connection then by the idler it has. -/
structure Sound (lib : Libdbus Inside Message) (state : State Inside Message) : Prop where
  linked : Linked state
  kept : Kept lib state
  reported : state.isOpen → lib.status state.inside = .dataRemains →
    state.lastStatus = .dataRemains ∨ state.idler.isSome
  starving : state.lastStatus = .needMemory → state.idler.isSome = false
  returned : state.isOpen → state.running = none → state.lastStatus = .dataRemains →
    lib.status state.inside = .dataRemains
  closed : state.isOpen = false → state.running = none ∧ state.idler.isSome = false

/-- The messages have moved, and libdbus has not compared the status yet. -/
structure SameIdler (before after : State Inside Message) : Prop where
  lastStatus : after.lastStatus = before.lastStatus
  idler : after.idler = before.idler
  idlers : after.idlers = before.idlers
  isOpen : after.isOpen = before.isOpen
  touchedFreed : after.touchedFreed = before.touchedFreed

theorem SameIdler.linked {before after : State Inside Message} (same : SameIdler before after)
    (linked : Linked before) : Linked after where
  idlers := by rw [same.idlers, same.idler, linked.idlers]
  untouched := by rw [same.touchedFreed, linked.untouched]

/-- A comparison makes the state sound again. -/
theorem Sound.compared {before state : State Inside Message} (sound : Sound lib before) (opened : before.isOpen)
    (moved : SameIdler before state) (kept : Kept lib state) : Sound lib (updateDispatchStatus lib state) := by
  have same := updateDispatchStatus_sameQueue lib state
  have status := updateDispatchStatus_lastStatus lib state
  refine ⟨(moved.linked sound.linked).updateDispatchStatus lib, ?_, ?_, ?_, ?_, ?_⟩
  · simpa only [Kept, same.dispatched, same.running, same.inside, same.arrived] using kept
  · intro _ remains
    rw [same.inside] at remains
    exact Or.inl (status.trans remains)
  · intro starved
    rw [status] at starved
    apply Bool.eq_false_iff.mpr
    intro has
    rw [updateDispatchStatus_idler] at has
    split at has
    · rename_i unchanged
      rw [moved.idler, sound.starving (moved.lastStatus.symm.trans (unchanged.symm.trans starved))] at has
      cases has
    · rw [starved] at has
      cases has
  · intro _ _ remains
    rw [same.inside]
    exact status.symm.trans remains
  · intro shut
    rw [same.isOpen, moved.isOpen, opened] at shut
    cases shut

/-- A new connection, whichever status libdbus compares with. -/
theorem Sound.setup (inside : Inside) (reported : Bool) : Sound lib (State.setup lib inside reported) := by
  have same := cbDispatchStatus_sameQueue (State.created lib inside reported) (lib.status inside)
  have last : (State.setup lib inside reported).lastStatus = if reported then lib.status inside else .complete :=
    cbDispatchStatus_lastStatus _ _
  have armed : (State.setup lib inside reported).idler.isSome ↔ lib.status inside = .dataRemains :=
    cbDispatchStatus_idler _ _
  have created : Linked (State.created lib inside reported) := ⟨rfl, rfl⟩
  have isInside : (State.setup lib inside reported).inside = inside := same.inside
  refine ⟨created.cbDispatchStatus _, ?_, ?_, ?_, ?_, ?_⟩
  · rw [Kept, State.setup, same.inside, same.running, same.dispatched, same.arrived]
    exact List.Perm.refl _
  · intro _ remains
    rw [isInside] at remains
    exact .inr (armed.mpr remains)
  · intro starved
    apply Bool.eq_false_iff.mpr
    intro has
    rw [last, armed.mp has] at starved
    cases reported <;> cases starved
  · intro _ _ remains
    rw [last] at remains
    cases reported with
    | false => cases remains
    | true => rw [isInside]; exact remains
  · intro shut
    rw [State.setup, same.isOpen] at shut
    cases shut

/-- The main loop calls an idler of an open connection only. -/
theorem Sound.has_idler {state : State Inside Message} (sound : Sound lib state) {id : IdlerId}
    (live : id ∈ state.idlers) : state.idler = some id ∧ state.isOpen := by
  rw [sound.linked.idlers, Option.mem_toList] at live
  refine ⟨live, ?_⟩
  by_contra shut
  have none := (sound.closed (Bool.eq_false_iff.mpr shut)).2
  rw [live] at none
  cases none

theorem Sound.isOpen_of_running {state : State Inside Message} (sound : Sound lib state) {message : Message}
    (running : state.running = some message) : state.isOpen := by
  by_contra shut
  have none := (sound.closed (Bool.eq_false_iff.mpr shut)).1
  rw [running] at none
  cases none

theorem Sound.idler (documented : lib.Documented) {state : State Inside Message} (sound : Sound lib state)
    {id : IdlerId} (live : id ∈ state.idlers) (returns : Returns lib state) : Sound lib (idler lib state id) := by
  obtain ⟨has, opened⟩ := sound.has_idler live
  simp only [Dispatch.idler, connectionDispatch]
  split
  · rename_i complete
    refine ⟨⟨?_, sound.linked.untouched⟩, sound.kept, ?_, fun _ => rfl, sound.returned, ?_⟩
    · simp [sound.linked.idlers, has]
    · intro _ remains
      cases complete.symm.trans remains
    · intro shut
      exact ⟨(sound.closed shut).1, rfl⟩
  · split
    · exact sound.compared opened ⟨rfl, rfl, rfl, rfl, rfl⟩ sound.kept
    · rename_i message rest incoming
      have remains := documented.remains state.inside (by rw [incoming]; exact List.cons_ne_nil _ _)
      refine ⟨⟨sound.linked.idlers, sound.linked.untouched⟩, ?_, ?_, sound.starving, ?_, ?_⟩
      · have kept := sound.kept
        rw [Kept, incoming, Option.isNone_iff_eq_none.mp (returns remains)] at kept
        rw [Kept, documented.take, incoming]
        simpa using kept
      · intro _ _
        exact sound.reported opened remains
      · intro _ none
        cases none
      · intro shut
        rw [opened] at shut
        cases shut

theorem Sound.dispatchReturn (documented : lib.Documented) {state : State Inside Message} (sound : Sound lib state)
    {message : Message} (running : state.running = some message) (handled : Bool) :
    Sound lib (dispatchReturn lib state message handled) := by
  have opened := sound.isOpen_of_running running
  have kept := sound.kept
  rw [Kept, running] at kept
  cases handled
  · refine sound.compared opened ⟨rfl, rfl, rfl, rfl, rfl⟩ ?_
    simpa [Kept, documented.putBack] using kept
  · refine sound.compared opened ⟨rfl, rfl, rfl, rfl, rfl⟩ ?_
    simpa [Kept] using kept

theorem Sound.connectionClose {state : State Inside Message} (sound : Sound lib state)
    (returned : state.running = none) : Sound lib (connectionClose state) := by
  simp only [Dispatch.connectionClose]
  split
  · rename_i none
    refine ⟨⟨sound.linked.idlers, sound.linked.untouched⟩, sound.kept, ?_, sound.starving, ?_, ?_⟩
    · intro opened
      cases opened
    · intro opened
      cases opened
    · intro _
      exact ⟨returned, by rw [none]; rfl⟩
  · rename_i id has
    have linked := sound.linked.idlerDel has
    refine ⟨⟨linked.idlers, linked.untouched⟩, sound.kept, ?_, fun _ => rfl, ?_, ?_⟩
    · intro opened
      cases opened
    · intro opened
      cases opened
    · intro _
      exact ⟨returned, rfl⟩

theorem step_sound (documented : lib.Documented) {state next : State Inside Message} {label : Label Message}
    (sound : Sound lib state) (stepped : step lib state label = some next) : Sound lib next := by
  cases label with
  | read messages =>
      rw [step, Option.ite_none_right_eq_some] at stepped
      obtain ⟨opened, ⟨⟩⟩ := stepped
      refine sound.compared opened ⟨rfl, rfl, rfl, rfl, rfl⟩ ?_
      have kept := List.Perm.append_right messages sound.kept
      simpa only [Kept, documented.read, List.append_assoc] using kept
  | memory starved =>
      rw [step, Option.ite_none_right_eq_some] at stepped
      obtain ⟨opened, ⟨⟩⟩ := stepped
      refine sound.compared opened ⟨rfl, rfl, rfl, rfl, rfl⟩ ?_
      simpa only [Kept, documented.memory] using sound.kept
  | compared =>
      rw [step, Option.ite_none_right_eq_some] at stepped
      obtain ⟨opened, ⟨⟩⟩ := stepped
      exact sound.compared opened ⟨rfl, rfl, rfl, rfl, rfl⟩ sound.kept
  | idlerCall id =>
      rw [step, Option.ite_none_right_eq_some] at stepped
      obtain ⟨⟨live, returns⟩, ⟨⟩⟩ := stepped
      exact sound.idler documented live returns
  | dispatchReturn handled =>
      obtain ⟨message, running, rfl⟩ := Option.map_eq_some_iff.mp stepped
      exact sound.dispatchReturn documented running handled
  | close =>
      rw [step, Option.ite_none_right_eq_some] at stepped
      obtain ⟨⟨_, returned⟩, ⟨⟩⟩ := stepped
      exact sound.connectionClose (Option.isNone_iff_eq_none.mp returned)

theorem throughout_of_sound (documented : lib.Documented) {state : State Inside Message} (sound : Sound lib state)
    (labels : List (Label Message)) : (machine lib).Throughout (Sound lib) state labels :=
  Semantics.Machine.throughout_of_preserved (fun _ _ _ sound stepped => step_sound documented sound stepped) labels
    sound

theorem sound_throughout (documented : lib.Documented) (inside : Inside) (reported : Bool)
    (labels : List (Label Message)) :
    (machine lib).Throughout (Sound lib) (State.setup lib inside reported) labels :=
  throughout_of_sound documented (Sound.setup inside reported) labels

/-! ## When a waiting message has an idler -/

/-- An open connection whose queue holds a message, or is taken to hold one by
libdbus, has an idler in the main loop. -/
def Armed (lib : Libdbus Inside Message) (state : State Inside Message) : Prop :=
  state.isOpen → state.lastStatus = .dataRemains ∨ lib.incoming state.inside ≠ [] → state.idlers ≠ []

/-- An idler call that finds nothing to dispatch was not preceded by a report that
data remains. It is from a handler that took the last message and runs the main loop. -/
def Orderly (lib : Libdbus Inside Message) (state : State Inside Message) (label : Label Message) : Prop :=
  match label with
  | .idlerCall _ => lib.status state.inside = .complete → state.lastStatus ≠ .dataRemains
  | _ => True

/-- A call that is not made from a handler is in order. -/
theorem Sound.orderly {state : State Inside Message} (sound : Sound lib state) (opened : state.isOpen)
    (returned : state.running = none) (label : Label Message) : Orderly lib state label := by
  cases label with
  | idlerCall id =>
      intro complete remains
      cases complete.symm.trans (sound.returned opened returned remains)
  | _ => trivial

theorem Linked.idlers_ne_nil {state : State Inside Message} (linked : Linked state) :
    state.idlers ≠ [] ↔ state.idler.isSome := by
  rw [linked.idlers]
  cases state.idler <;> simp

theorem Armed.isSome {state : State Inside Message} (armed : Armed lib state) (sound : Sound lib state)
    (opened : state.isOpen) (remains : state.lastStatus = .dataRemains) : state.idler.isSome :=
  sound.linked.idlers_ne_nil.mp (armed opened (Or.inl remains))

/-- A comparison leaves the connection armed if it was so before the messages moved. -/
theorem Armed.compared (documented : lib.Documented) {before state : State Inside Message} (armed : Armed lib before)
    (sound : Sound lib before) (opened : before.isOpen) (moved : SameIdler before state) :
    Armed lib (updateDispatchStatus lib state) := by
  intro _ reason
  have linked := (moved.linked sound.linked).updateDispatchStatus lib
  rw [linked.idlers_ne_nil, updateDispatchStatus_idler]
  have remains : lib.status state.inside = .dataRemains := by
    rcases reason with last | waits
    · exact (updateDispatchStatus_lastStatus lib state).symm.trans last
    · rw [(updateDispatchStatus_sameQueue lib state).inside] at waits
      exact documented.remains state.inside waits
  split
  · rename_i unchanged
    rw [moved.idler]
    exact armed.isSome sound opened (by rw [← moved.lastStatus, ← unchanged, remains])
  · exact remains

/-- An idler call leaves the connection armed if and only if it is in order. -/
theorem Armed.idler_iff (documented : lib.Documented) {state : State Inside Message} (armed : Armed lib state)
    (sound : Sound lib state) {id : IdlerId} (live : id ∈ state.idlers) :
    Armed lib (idler lib state id) ↔ Orderly lib state (.idlerCall id) := by
  obtain ⟨has, opened⟩ := sound.has_idler live
  simp only [Dispatch.idler, Orderly]
  split
  · rename_i complete
    have empty := documented.eq_nil complete
    have none : state.idlers.erase id = [] := by simp [sound.linked.idlers, has]
    simp only [Armed, none, opened, empty, complete]
    simp
  · rename_i busy
    refine iff_of_true ?_ fun complete => absurd complete busy
    simp only [connectionDispatch]
    split
    · exact armed.compared documented sound opened ⟨rfl, rfl, rfl, rfl, rfl⟩
    · intro _ _ none
      rw [show state.idlers = [] from none] at live
      cases live

/-- From an armed state, a step leads to an armed state if and only if it is in order. -/
theorem step_armed_iff (documented : lib.Documented) {state next : State Inside Message} {label : Label Message}
    (armed : Armed lib state) (sound : Sound lib state) (stepped : step lib state label = some next) :
    Armed lib next ↔ Orderly lib state label := by
  cases label with
  | idlerCall id =>
      rw [step, Option.ite_none_right_eq_some] at stepped
      obtain ⟨⟨live, _⟩, ⟨⟩⟩ := stepped
      exact armed.idler_iff documented sound live
  | read messages =>
      rw [step, Option.ite_none_right_eq_some] at stepped
      obtain ⟨opened, ⟨⟩⟩ := stepped
      exact iff_of_true (armed.compared documented sound opened ⟨rfl, rfl, rfl, rfl, rfl⟩) trivial
  | memory starved =>
      rw [step, Option.ite_none_right_eq_some] at stepped
      obtain ⟨opened, ⟨⟩⟩ := stepped
      exact iff_of_true (armed.compared documented sound opened ⟨rfl, rfl, rfl, rfl, rfl⟩) trivial
  | compared =>
      rw [step, Option.ite_none_right_eq_some] at stepped
      obtain ⟨opened, ⟨⟩⟩ := stepped
      exact iff_of_true (armed.compared documented sound opened ⟨rfl, rfl, rfl, rfl, rfl⟩) trivial
  | dispatchReturn handled =>
      refine iff_of_true ?_ trivial
      obtain ⟨message, running, rfl⟩ := Option.map_eq_some_iff.mp stepped
      have opened := sound.isOpen_of_running running
      cases handled <;> exact armed.compared documented sound opened ⟨rfl, rfl, rfl, rfl, rfl⟩
  | close =>
      refine iff_of_true ?_ trivial
      rw [step, Option.ite_none_right_eq_some] at stepped
      obtain ⟨_, ⟨⟩⟩ := stepped
      intro opened
      simp only [connectionClose] at opened
      split at opened <;> cases opened

theorem Armed.setup (documented : lib.Documented) (inside : Inside) (reported : Bool) :
    Armed lib (State.setup lib inside reported) := by
  intro _ reason
  rw [(Sound.setup inside reported).linked.idlers_ne_nil]
  refine (cbDispatchStatus_idler _ _).mpr ?_
  rcases reason with last | waits
  · rw [State.setup, cbDispatchStatus_lastStatus] at last
    cases reported with
    | false => cases last
    | true => exact last
  · rw [State.setup, (cbDispatchStatus_sameQueue _ _).inside] at waits
    exact documented.remains inside waits

theorem armed_of_orderly (documented : lib.Documented) {state : State Inside Message} {labels : List (Label Message)}
    (armed : Armed lib state) (sound : Sound lib state)
    (orderly : (machine lib).Along (fun state label _ => Orderly lib state label) state labels) :
    (machine lib).Throughout (fun state => Armed lib state ∧ Sound lib state) state labels := by
  refine Semantics.Machine.throughout_of_along ?_ ⟨armed, sound⟩ orderly
  intro state label next strong stepped orderly
  exact ⟨(step_armed_iff documented strong.1 strong.2 stepped).mpr orderly, step_sound documented strong.2 stepped⟩

/-- A waiting message has its idler throughout the runs, and only those, in which no
handler that took the last message lets the idler find the queue empty. -/
theorem armed_throughout_iff (documented : lib.Documented) (inside : Inside) (reported : Bool)
    (labels : List (Label Message)) :
    (machine lib).Throughout (Armed lib) (State.setup lib inside reported) labels ↔
      (machine lib).Along (fun state label _ => Orderly lib state label) (State.setup lib inside reported) labels := by
  refine Semantics.Machine.throughout_iff_along (fun state => Armed lib state ∧ Sound lib state)
    (fun _ _ _ strong stepped => step_armed_iff documented strong.1 strong.2 stepped) ?_
    ⟨Armed.setup documented inside reported, Sound.setup inside reported⟩ (Armed.setup documented inside reported)
  intro state label next strong stepped orderly
  exact ⟨(step_armed_iff documented strong.1 strong.2 stepped).mpr orderly, step_sound documented strong.2 stepped⟩

/-- A message is handled. If its handler runs the main loop first, the idler goes too
early. -/
theorem armed_throughout_iff_ping :
    (machine (.queue String)).Throughout (Armed (.queue String)) (.setup (.queue String) (["Ping"], false) true)
      [.idlerCall 0, .dispatchReturn true] ∧
    ¬ (machine (.queue String)).Throughout (Armed (.queue String)) (.setup (.queue String) (["Ping"], false) true)
      [.idlerCall 0, .idlerCall 0] := by
  constructor
  · refine (armed_throughout_iff (Libdbus.queue_documented String) (["Ping"], false) true _).mpr ?_
    repeat' first
      | refine (Semantics.Machine.along_cons rfl).mpr ⟨?_, ?_⟩
      | exact fun complete => by cases complete
      | trivial
  · intro armed
    have orderly := (armed_throughout_iff (Libdbus.queue_documented String) (["Ping"], false) true _).mp armed
    have called := ((Semantics.Machine.along_cons rfl).mp orderly).2
    exact ((Semantics.Machine.along_cons rfl).mp called).1 rfl rfl

/-! ## What becomes of a connection that is not armed -/

/-- A message waits, libdbus has told so, and the connection has no idler. -/
structure Unheard (lib : Libdbus Inside Message) (state : State Inside Message) : Prop where
  remains : state.lastStatus = .dataRemains
  idler : state.idler = none
  waits : lib.incoming state.inside ≠ []

/-- libdbus does not tell again. -/
theorem updateDispatchStatus_of_told (documented : lib.Documented) {state : State Inside Message}
    (remains : state.lastStatus = .dataRemains) (waits : lib.incoming state.inside ≠ []) :
    updateDispatchStatus lib state = state := by
  have same : lib.status state.inside = state.lastStatus :=
    (documented.remains state.inside waits).trans remains.symm
  exact if_pos same

/-- A comparison does not help, as no message was taken. -/
theorem Unheard.compared (documented : lib.Documented) {before state : State Inside Message}
    (unheard : Unheard lib before) (moved : SameIdler before state)
    (more : lib.incoming before.inside <:+: lib.incoming state.inside) :
    Unheard lib (updateDispatchStatus lib state) ∧
      lib.incoming before.inside <:+: lib.incoming (updateDispatchStatus lib state).inside := by
  have remains : state.lastStatus = .dataRemains := moved.lastStatus.trans unheard.remains
  have waits : lib.incoming state.inside ≠ [] := by
    intro none
    rw [none, List.infix_nil] at more
    exact unheard.waits more
  rw [updateDispatchStatus_of_told documented remains waits]
  exact ⟨⟨remains, moved.idler.trans unheard.idler, waits⟩, more⟩

/-- No step of an unheard connection takes a message from the queue. -/
theorem Unheard.step (documented : lib.Documented) {state next : State Inside Message} {label : Label Message}
    (unheard : Unheard lib state) (linked : Linked state) (stepped : step lib state label = some next) :
    Unheard lib next ∧ lib.incoming state.inside <:+: lib.incoming next.inside := by
  cases label with
  | read messages =>
      rw [Dispatch.step, Option.ite_none_right_eq_some] at stepped
      obtain ⟨_, ⟨⟩⟩ := stepped
      refine unheard.compared documented ⟨rfl, rfl, rfl, rfl, rfl⟩ ?_
      rw [documented.read]
      exact (List.prefix_append _ _).isInfix
  | memory starved =>
      rw [Dispatch.step, Option.ite_none_right_eq_some] at stepped
      obtain ⟨_, ⟨⟩⟩ := stepped
      have same : lib.incoming (lib.memory state.inside starved) = lib.incoming state.inside :=
        documented.memory state.inside starved
      exact unheard.compared documented ⟨rfl, rfl, rfl, rfl, rfl⟩ (same ▸ List.infix_refl _)
  | compared =>
      rw [Dispatch.step, Option.ite_none_right_eq_some] at stepped
      obtain ⟨_, ⟨⟩⟩ := stepped
      exact unheard.compared documented ⟨rfl, rfl, rfl, rfl, rfl⟩ (List.infix_refl _)
  | idlerCall id =>
      rw [Dispatch.step, Option.ite_none_right_eq_some, linked.idlers, unheard.idler] at stepped
      cases stepped.1.1
  | dispatchReturn handled =>
      obtain ⟨message, running, rfl⟩ := Option.map_eq_some_iff.mp stepped
      cases handled
      · refine unheard.compared documented ⟨rfl, rfl, rfl, rfl, rfl⟩ ?_
        rw [if_neg Bool.false_ne_true, documented.putBack]
        exact (List.suffix_cons _ _).isInfix
      · exact unheard.compared documented ⟨rfl, rfl, rfl, rfl, rfl⟩ (List.infix_refl _)
  | close =>
      rw [Dispatch.step, Option.ite_none_right_eq_some] at stepped
      obtain ⟨_, ⟨⟩⟩ := stepped
      rw [connectionClose, unheard.idler]
      exact ⟨⟨unheard.remains, rfl, unheard.waits⟩, List.infix_refl _⟩

/-- An unheard connection stays unheard, and keeps every message that waits. -/
theorem Unheard.run (documented : lib.Documented) {state finish : State Inside Message}
    {labels : List (Label Message)} (unheard : Unheard lib state) (sound : Sound lib state)
    (executed : (machine lib).exec state labels = some finish) :
    Unheard lib finish ∧ lib.incoming state.inside <:+: lib.incoming finish.inside := by
  induction labels generalizing state with
  | nil =>
      cases executed
      exact ⟨unheard, List.infix_refl _⟩
  | cons label rest ih =>
      obtain ⟨next, stepped, later⟩ := Semantics.Machine.exec_cons_iff.mp executed
      obtain ⟨still, kept⟩ := unheard.step documented sound.linked stepped
      obtain ⟨atLast, keptLater⟩ := ih still (step_sound documented sound stepped) later
      exact ⟨atLast, kept.trans keptLater⟩

/-- What a call out of order leaves behind. -/
theorem idler_disorderly (documented : lib.Documented) {state : State Inside Message} {id : IdlerId}
    (disorder : ¬ Orderly lib state (.idlerCall id)) :
    (idler lib state id).lastStatus = .dataRemains ∧ (idler lib state id).idler = none ∧
      lib.incoming (idler lib state id).inside = [] := by
  simp only [Orderly, Classical.not_imp, not_not] at disorder
  obtain ⟨complete, remains⟩ := disorder
  simp only [idler, if_pos complete]
  exact ⟨remains, trivial, documented.eq_nil complete⟩

/-- Messages that come then are not heard. -/
theorem unheard_of_read (documented : lib.Documented) {state next : State Inside Message} {messages : List Message}
    (remains : state.lastStatus = .dataRemains) (none : state.idler = none)
    (empty : lib.incoming state.inside = []) (come : messages ≠ [])
    (read : step lib state (.read messages) = some next) :
    Unheard lib next ∧ lib.incoming next.inside = messages := by
  rw [step, Option.ite_none_right_eq_some] at read
  obtain ⟨_, ⟨⟩⟩ := read
  have queued : lib.incoming (lib.read state.inside messages) = messages := by
    rw [documented.read, empty, List.nil_append]
  let behind : State Inside Message :=
    { state with inside := lib.read state.inside messages, arrived := state.arrived ++ messages }
  have waits : lib.incoming behind.inside ≠ [] := queued.trans_ne come
  have told : updateDispatchStatus lib behind = behind := updateDispatchStatus_of_told documented remains waits
  exact told ▸ ⟨⟨remains, none, waits⟩, queued⟩

/-- Once an idler call was out of order and messages came before libdbus compared the
status, the main loop never calls an idler of the connection again, and the messages
stay in the queue whatever else happens. -/
theorem unheard_after (documented : lib.Documented) {inside : Inside} {messages : List Message} {reported : Bool}
    {before after : List (Label Message)} {id : IdlerId} {state finish : State Inside Message}
    (reached : (machine lib).exec (State.setup lib inside reported) before = some state)
    (disorder : ¬ Orderly lib state (.idlerCall id)) (come : messages ≠ [])
    (executed : (machine lib).exec state (.idlerCall id :: .read messages :: after) = some finish) :
    finish.idlers = [] ∧ messages <:+: lib.incoming finish.inside := by
  have sound := (sound_throughout documented inside reported before).finish reached
  have soundFinish := ((throughout_of_sound documented sound _).finish executed : Sound lib finish)
  obtain ⟨called, call, executed⟩ := Semantics.Machine.exec_cons_iff.mp executed
  obtain ⟨next, read, later⟩ := Semantics.Machine.exec_cons_iff.mp executed
  change step lib state (.idlerCall id) = some called at call
  change step lib called (.read messages) = some next at read
  have soundNext : Sound lib next := step_sound documented (step_sound documented sound call) read
  rw [step, Option.ite_none_right_eq_some] at call
  obtain ⟨_, ⟨⟩⟩ := call
  obtain ⟨remains, none, empty⟩ := idler_disorderly documented disorder
  obtain ⟨unheard, waiting⟩ := unheard_of_read documented remains none empty come read
  obtain ⟨atLast, kept⟩ := unheard.run documented soundNext later
  refine ⟨?_, waiting ▸ kept⟩
  rw [soundFinish.linked.idlers, atLast.idler, Option.toList_none]

/-- A handler takes the only message and runs the main loop, which cancels the idler;
then a message comes, and the handler returns. -/
theorem unheard_after_nestedMainLoop :
    ∃ finish, (machine (.queue String)).exec (.setup (.queue String) (["Ping"], false) true)
        [.idlerCall 0, .idlerCall 0, .read ["Hello"], .dispatchReturn true, .compared] = some finish ∧
      finish.idlers = [] ∧ ["Hello"] <:+: finish.inside.1 := by
  have reached : (machine (.queue String)).exec (.setup (.queue String) (["Ping"], false) true) [.idlerCall 0] =
      some _ := rfl
  have executed : (machine (.queue String)).exec
      (idler (.queue String) (.setup (.queue String) (["Ping"], false) true) 0)
      [.idlerCall 0, .read ["Hello"], .dispatchReturn true, .compared] = some _ := rfl
  have disorder : ¬ Orderly (.queue String) (idler (.queue String) (.setup (.queue String) (["Ping"], false) true) 0)
      (.idlerCall 0) := fun orderly => orderly rfl rfl
  exact ⟨_, executed,
    unheard_after (Libdbus.queue_documented String) reached disorder (List.cons_ne_nil _ _) executed⟩

/-! ## The main loop catches up -/

/-- What the main loop and the handlers do while nothing comes. -/
def Serves : Label Message → Prop
  | .idlerCall _ => True
  | .dispatchReturn handled => handled = true
  | _ => False

/-- How often they can do it. -/
def pendingWork (lib : Libdbus Inside Message) (state : State Inside Message) : Nat :=
  2 * (lib.incoming state.inside).length + state.running.toList.length + state.idlers.length

/-- A comparison adds no idler for data that the connection has heard of. -/
theorem updateDispatchStatus_has_idler {before state : State Inside Message} (sound : Sound lib before)
    (opened : before.isOpen) (moved : SameIdler before state) (same : state.inside = before.inside)
    (has : (updateDispatchStatus lib state).idler.isSome) : before.idler.isSome := by
  rw [updateDispatchStatus_idler, moved.idler] at has
  split at has
  · exact has
  · rename_i changed
    refine (sound.reported opened (same ▸ has)).resolve_left fun remains => changed ?_
    rw [has, moved.lastStatus, remains]

theorem Linked.idlers_length {state : State Inside Message} (linked : Linked state) :
    state.idlers.length = state.idler.isSome.toNat := by
  rw [linked.idlers]
  cases state.idler <;> rfl

/-- Every such step uses up some of the work. -/
theorem step_pendingWork (documented : lib.Documented) (authenticated : lib.Authenticated)
    {state next : State Inside Message} {label : Label Message} (sound : Sound lib state) (serves : Serves label)
    (stepped : step lib state label = some next) : pendingWork lib next < pendingWork lib state := by
  have soundNext := step_sound documented sound stepped
  rw [pendingWork, pendingWork, sound.linked.idlers_length, soundNext.linked.idlers_length]
  cases label with
  | idlerCall id =>
      rw [step, Option.ite_none_right_eq_some] at stepped
      obtain ⟨⟨live, returns⟩, ⟨⟩⟩ := stepped
      obtain ⟨has, opened⟩ := sound.has_idler live
      rw [has]
      simp only [idler, connectionDispatch]
      split
      · simp
      · rename_i busy
        split
        · rename_i empty
          have same := updateDispatchStatus_sameQueue lib state
          -- there is no memory, and libdbus has not told so, as the connection has an idler
          have starved : ¬ (updateDispatchStatus lib state).idler.isSome := by
            intro still
            rw [updateDispatchStatus_idler] at still
            split at still
            · rename_i unchanged
              cases status : lib.status state.inside with
              | dataRemains => exact authenticated state.inside status empty
              | complete => exact busy status
              | needMemory =>
                  rw [sound.starving (unchanged.symm.trans status)] at still
                  cases still
            · exact authenticated state.inside still empty
          rw [same.inside, same.running, Bool.eq_false_iff.mpr starved]
          simp
        · rename_i message rest incoming
          have remains := documented.remains state.inside (by rw [incoming]; exact List.cons_ne_nil _ _)
          have alone := Option.isNone_iff_eq_none.mp (returns remains)
          simp only [documented.take, incoming, has, alone, List.tail_cons, List.length_cons, Option.toList_some,
            Option.toList_none, List.length_nil]
          omega
  | dispatchReturn handled =>
      cases serves
      obtain ⟨message, running, rfl⟩ := Option.map_eq_some_iff.mp stepped
      have opened := sound.isOpen_of_running running
      let behind : State Inside Message :=
        { state with running := none, dispatched := state.dispatched ++ [message] }
      have same := updateDispatchStatus_sameQueue lib behind
      have noMore : (updateDispatchStatus lib behind).idler.isSome.toNat ≤ state.idler.isSome.toNat :=
        Bool.toNat_le_toNat (updateDispatchStatus_has_idler sound opened ⟨rfl, rfl, rfl, rfl, rfl⟩ rfl)
      have incoming : (updateDispatchStatus lib behind).inside = state.inside := same.inside
      have returned : (updateDispatchStatus lib behind).running = none := same.running
      change 2 * (lib.incoming (updateDispatchStatus lib behind).inside).length +
        (updateDispatchStatus lib behind).running.toList.length +
        (updateDispatchStatus lib behind).idler.isSome.toNat < _
      rw [incoming, returned, running, Option.toList_none, Option.toList_some, List.length_nil,
        List.length_singleton]
      omega
  | _ => cases serves

/-- The main loop comes to rest. -/
theorem length_add_pendingWork_le (documented : lib.Documented) (authenticated : lib.Authenticated)
    {state finish : State Inside Message} {labels : List (Label Message)} (sound : Sound lib state)
    (serves : ∀ label ∈ labels, Serves label) (executed : (machine lib).exec state labels = some finish) :
    labels.length + pendingWork lib finish ≤ pendingWork lib state := by
  induction labels generalizing state with
  | nil =>
      cases executed
      simp
  | cons label rest ih =>
      obtain ⟨next, stepped, later⟩ := Semantics.Machine.exec_cons_iff.mp executed
      change step lib state label = some next at stepped
      have less := step_pendingWork documented authenticated sound (serves label List.mem_cons_self) stepped
      have bounded := ih (step_sound documented sound stepped)
        (fun other member => serves other (List.mem_cons_of_mem label member)) later
      rw [List.length_cons]
      omega

/-- At rest, an armed connection has dispatched everything. -/
theorem dispatched_at_rest {state : State Inside Message} (armed : Armed lib state) (sound : Sound lib state)
    (opened : state.isOpen) (rest : ∀ label, Serves label → step lib state label = none) :
    lib.incoming state.inside = [] ∧ state.idlers = [] ∧ state.dispatched.Perm state.arrived := by
  have returned : state.running = none := by
    have stuck := rest (.dispatchReturn true) rfl
    exact Option.map_eq_none_iff.mp stuck
  have none : state.idlers = [] := by
    rw [List.eq_nil_iff_forall_not_mem]
    intro id live
    have stuck := rest (.idlerCall id) trivial
    rw [step, if_pos ⟨live, fun _ => Option.isNone_iff_eq_none.mpr returned⟩] at stuck
    cases stuck
  have empty : lib.incoming state.inside = [] := by
    by_contra waits
    exact armed opened (Or.inr waits) none
  refine ⟨empty, none, ?_⟩
  have kept := sound.kept
  rwa [Kept, returned, empty, Option.toList_none, List.append_nil, List.append_nil] at kept

/-- After any run in order, the main loop comes to rest within the work that is left,
whichever idler calls and returns it makes; and when it can make no more, every
message that arrived is dispatched and the connection has no idler. -/
theorem served_throughout (documented : lib.Documented) (authenticated : lib.Authenticated) {inside : Inside}
    {reported : Bool} {before service : List (Label Message)} {state finish : State Inside Message}
    (orderly : (machine lib).Along (fun state label _ => Orderly lib state label) (State.setup lib inside reported)
      (before ++ service))
    (reached : (machine lib).exec (State.setup lib inside reported) before = some state)
    (serves : ∀ label ∈ service, Serves label) (executed : (machine lib).exec state service = some finish) :
    service.length ≤ pendingWork lib state ∧
      (finish.isOpen → (∀ label, Serves label → step lib finish label = none) →
        lib.incoming finish.inside = [] ∧ finish.idlers = [] ∧ finish.dispatched.Perm finish.arrived) := by
  have soundState := (sound_throughout documented inside reported before).finish reached
  have strong := armed_of_orderly documented (Armed.setup documented inside reported) (Sound.setup inside reported)
    orderly
  obtain ⟨armed, sound⟩ := strong.finish (Semantics.Machine.exec_append_of reached executed)
  have bounded := length_add_pendingWork_le documented authenticated soundState serves executed
  exact ⟨by omega, fun opened rest => dispatched_at_rest armed sound opened rest⟩

/-- A message for which its handler had no memory, and another that came meanwhile. -/
theorem served_throughout_putBack :
    ∃ finish, (machine (.queue String)).exec (.setup (.queue String) (["Ping"], false) true)
        [.idlerCall 0, .read ["Hello"], .dispatchReturn false,
          .idlerCall 0, .dispatchReturn true, .idlerCall 0, .dispatchReturn true] = some finish ∧
      finish.inside.1 = [] ∧ finish.idlers = [] ∧ finish.dispatched.Perm finish.arrived := by
  have reached : (machine (.queue String)).exec (.setup (.queue String) (["Ping"], false) true)
      [.idlerCall 0, .read ["Hello"], .dispatchReturn false] = some _ := rfl
  have orderly : (machine (.queue String)).Along (fun state label _ => Orderly (.queue String) state label)
      (.setup (.queue String) (["Ping"], false) true)
      ([.idlerCall 0, .read ["Hello"], .dispatchReturn false] ++
        [.idlerCall 0, .dispatchReturn true, .idlerCall 0, .dispatchReturn true]) := by
    repeat' first
      | refine (Semantics.Machine.along_cons rfl).mpr ⟨?_, ?_⟩
      | exact fun complete => by cases complete
      | trivial
  have serves : ∀ label : Label String,
      label ∈ [.idlerCall 0, .dispatchReturn true, .idlerCall 0, .dispatchReturn true] → Serves label := by
    simp [Serves]
  have served := served_throughout (Libdbus.queue_documented String) (Libdbus.queue_authenticated String) orderly
    reached serves rfl
  refine ⟨_, rfl, served.2 rfl ?_⟩
  intro label serving
  cases label with
  | idlerCall id => rfl
  | dispatchReturn handled => rfl
  | _ => cases serving

end EDBus.Dbus.Dispatch
