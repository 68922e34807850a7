import EDBus.Dbus.Object
import EDBus.Notify.Messages
import EDBus.Semantics.Execution
import EDBus.Semantics.Shared

/-!
# The notification daemon program

`notification_daemon.c`: the daemon gives every notification an id, keeps a list of the open ones and a
list of the last ones, and closes a notification when its timer fires or a client asks for it. Notifications
count their references, and a reference is held by each list and by each timer. The model starts where the
main loop does; the methods of `daemon.c` are called by it with the callbacks of the program.

`main` does not call `e_notification_daemon_init`, which makes the interface that `e_notification_daemon_add`
takes a reference of, so the program as it stands does not come to serve calls. What is modelled is the
program with that call.
-/

open EDBus.Semantics
open Semantics

namespace EDBus.Notify

/-! ## Notifications with ids -/

/-- The address of an `E_Notification`. -/
abbrev NoteId := Nat

/-- `E_Notification` with the members that the daemon sets. The `int` of the id is kept as its bits, the
count of references belongs to the memory. -/
structure Note where
  content : Notification
  id : UInt32
  closed : UInt8
deriving DecidableEq, Repr

namespace Note

/-- `e_notification_id_set`. -/
def idSet (note : Note) (id : UInt32) : Note := { note with id := id }

/-- `e_notification_closed_set`. -/
def closedSet (note : Note) (closed : UInt8) : Note := { note with closed := closed }

/-- `e_notification_id_get`. -/
def idGet (note : Note) : UInt32 := note.id

/-- `e_notification_closed_get`. -/
def closedGet (note : Note) : UInt8 := note.closed

/-- `e_notification_timeout_get`. -/
def timeoutGet (note : Note) : Int := note.content.expireTimeout.toInt

end Note

/-- `E_Notification_Closed_Reason`. -/
inductive ClosedReason where
  | expired
  | dismissed
  | requested
  | undefined
deriving DecidableEq, Repr

/-- The number of the reason. -/
def ClosedReason.code : ClosedReason → UInt32
  | expired => 0
  | dismissed => 1
  | requested => 2
  | undefined => 3

/-! ## The daemon -/

/-- `Timer_Data` of a timer that did not fire, whose interval is given in milliseconds. -/
structure TimerData where
  n : NoteId
  interval : Int
deriving DecidableEq, Repr

/-- `Daemon_Data`, the memory of the notifications, the timers, and the messages that were sent. `next_id`
is an `int`. The main loop is `running` until the program quits. -/
structure DaemonData where
  openNotes : List NoteId
  history : List NoteId
  historyStart : UInt32
  maxHistoryLength : Int
  defaultTimeout : Int
  nextId : Nat
  notes : Shared NoteId Note
  timers : List TimerData
  sent : List Packet
  running : Bool

/-- `INT_MAX`. -/
def intMax : Nat := 2147483647

namespace DaemonData

/-- `main` before the main loop. -/
def initial : DaemonData where
  openNotes := []
  history := []
  historyStart := 1
  maxHistoryLength := 5
  defaultTimeout := 5
  nextId := 1
  notes := .empty
  timers := []
  sent := []
  running := true

/-- A notification is used that is not there. -/
def fault (d : DaemonData) : DaemonData := { d with notes := d.notes.fault }

/-- `e_notification_daemon_signal_notification_closed`. -/
def signalNotificationClosed (d : DaemonData) (id : UInt32) (reason : ClosedReason) : DaemonData :=
  { d with sent := d.sent ++ [marshalNotificationClosedSignal id reason.code] }

/-- `daemon_note_close`. -/
def daemonNoteClose (dd : DaemonData) (n : NoteId) (reason : ClosedReason) : DaemonData :=
  match dd.notes.value n with
  | none => dd.fault
  | some note =>
    if n ∈ dd.openNotes then
      let closed := { dd with
        openNotes := dd.openNotes.erase n
        notes := dd.notes.modify n fun note => note.closedSet 1 }
      let signalled := closed.signalNotificationClosed note.idGet reason
      { signalled with notes := signalled.notes.unref n }
    else dd

/-- `cb_note_close_timer`, after which the timer is gone. -/
def cbNoteCloseTimer (d : DaemonData) (td : TimerData) : DaemonData :=
  match d.notes.value td.n with
  | none => d.fault
  | some note =>
    let closed := if note.closedGet = 0 then d.daemonNoteClose td.n .expired else d
    { closed with notes := closed.notes.unref td.n, timers := closed.timers.erase td }

/-- `daemon_note_show` where the history may have become too long. -/
def adjustHistory (d : DaemonData) : DaemonData :=
  if d.maxHistoryLength < d.history.length then
    match d.history with
    | [] => d.fault
    | old :: rest =>
      match d.notes.value old with
      | none => d.fault
      | some note =>
        { d with history := rest, historyStart := note.idGet + 1, notes := d.notes.unref old }
  else d

/-- The interval of the timer for a notification. -/
def timerInterval (d : DaemonData) (timeout : Int) : Int :=
  if timeout = -1 then d.defaultTimeout * 1000 else timeout

/-- `daemon_note_show`. -/
def daemonNoteShow (d : DaemonData) (n : NoteId) : DaemonData :=
  let opened := { d with notes := d.notes.ref n, openNotes := d.openNotes ++ [n] }
  let listed := { opened with notes := opened.notes.ref n, history := opened.history ++ [n] }
  let adjusted := listed.adjustHistory
  match adjusted.notes.value n with
  | none => adjusted.fault
  | some note =>
    { adjusted with
      notes := adjusted.notes.ref n
      timers := adjusted.timers ++ [⟨n, adjusted.timerInterval note.timeoutGet⟩] }

/-- The loop of `daemon_note_open_find`, which reads the ids of the notifications that it passes. It is
`none` where one of them is not there. -/
def openFind (notes : Shared NoteId Note) (id : UInt32) : List NoteId → Option (Option NoteId)
  | [] => some none
  | n :: rest =>
    match notes.value n with
    | none => none
    | some note => if note.idGet = id then some (some n) else openFind notes id rest

/-- `daemon_note_open_find`. -/
def daemonNoteOpenFind (d : DaemonData) (id : UInt32) : Option (Option NoteId) := openFind d.notes id d.openNotes

/-- `cb_notify`, and the id. `replaces_id` is read and not used. The id after `INT_MAX` has no meaning. -/
def cbNotify (dd : DaemonData) (n : NoteId) : Option (DaemonData × UInt32) :=
  if dd.nextId = intMax then none
  else
    let newId := UInt32.ofNat dd.nextId
    let named := { dd with nextId := dd.nextId + 1, notes := dd.notes.modify n fun note => note.idSet newId }
    some (named.daemonNoteShow n, newId)

/-- `cb_close_notification`. -/
def cbCloseNotification (dd : DaemonData) (notificationId : UInt32) : DaemonData :=
  match dd.daemonNoteOpenFind notificationId with
  | none => dd.fault
  | some none => dd
  | some (some n) => dd.daemonNoteClose n .requested

/-! ## Methods -/

/-- The methods of the interface. -/
inductive Method where
  | getCapabilities
  | notify
  | closeNotification
  | getServerInformation
deriving DecidableEq, Repr

/-- The signature that `e_notification_daemon_add` gives the method. -/
def Method.signature : Method → DataTypes
  | getCapabilities => .nil
  | notify => notifySignature
  | closeNotification => closeSignature
  | getServerInformation => .nil

/-- The text of that signature. -/
def Method.signatureText : Method → String
  | getCapabilities => ""
  | notify => "susssasa{sv}i"
  | closeNotification => "u"
  | getServerInformation => ""

/-- A call of a method. -/
structure Call where
  origin : Origin
  method : Method
  body : Semantics.Message

/-- The reply of a method is sent. -/
def reply (d : DaemonData) (packet : Packet) : DaemonData := { d with sent := d.sent ++ [packet] }

/-- `method_get_capabilities`. -/
def methodGetCapabilities (d : DaemonData) (origin : Origin) : DaemonData :=
  d.reply ⟨.methodReturn origin, (marshalGetCapabilitiesReturn (nullTerminated ["body", "actions"])).getD []⟩

/-- `method_notify`. The new notification gets an address that is free. There is none for a message with
another signature, and `cb_notify` does not survive that. Whether the program survives a hint that is read
as another type, or into a variable too small for it, is a choice of the environment. -/
def methodNotify (d : DaemonData) (origin : Origin) (body : List Data) (garbage : Garbage) (survives : Bool)
    (n : NoteId) : Option DaemonData :=
  match unmarshalNotify garbage body with
  | none => none
  | some (content, reads) =>
    if reads.all Read.harmless || survives then
      let made := { d with notes := d.notes.create n ⟨content, 0, 0⟩ }
      match made.cbNotify n with
      | none => none
      | some (shown, id) =>
        some (DaemonData.reply { shown with notes := shown.notes.unref n } (marshalNotifyReturn origin id))
    else none

/-- `method_close_notification`. -/
def methodCloseNotification (d : DaemonData) (origin : Origin) (body : List Data) : DaemonData :=
  (d.cbCloseNotification (unmarshalCloseNotification body)).reply ⟨.methodReturn origin, []⟩

/-- `method_get_server_information`, for the daemon that `main` adds. -/
def methodGetServerInformation (d : DaemonData) (origin : Origin) : DaemonData :=
  d.reply (marshalGetServerInformationReturn origin "e_notification_module" "Enlightenment" "0.9" "1.2")

/-- The handler of the exported object compares the signature, and calls the method. -/
def handle (d : DaemonData) (call : Call) (garbage : Garbage) (survives : Bool) (n : NoteId) : Option DaemonData :=
  if Data.types call.body.body ≠ call.method.signature then
    some (d.reply ⟨.error call.origin Dbus.Object.invalidSignature,
      [.string ("Expected signature: " ++ call.method.signatureText)]⟩)
  else
    match call.method with
    | .getCapabilities => some (d.methodGetCapabilities call.origin)
    | .notify => d.methodNotify call.origin call.body.body garbage survives n
    | .closeNotification => some (d.methodCloseNotification call.origin call.body.body)
    | .getServerInformation => some (d.methodGetServerInformation call.origin)

/-- `main` after the main loop, up to `free`. -/
def cleanUp (dd : DaemonData) : DaemonData :=
  { dd with
    notes := (dd.notes.unrefAll dd.openNotes).unrefAll dd.history
    openNotes := []
    history := []
    running := false }

/-! ## Steps -/

/-- What the main loop does next. The memory for a notification is a choice of the environment, as are the
values of variables that are not assigned, whether the program survives a read that does harm, and which of
the timers is the next to fire. -/
inductive Label where
  | handle (call : Call) (garbage : Garbage) (survives : Bool) (n : NoteId)
  | timer (td : TimerData)
  | quit

/-- A step of the main loop. -/
def act (d : DaemonData) : Label → Option DaemonData
  | .handle call garbage survives n =>
    if (d.notes.objects n).isNone then d.handle call garbage survives n else none
  | .timer td => if td ∈ d.timers then some (d.cbNoteCloseTimer td) else none
  | .quit => some d.cleanUp

/-- Nothing happens after the main loop, and nothing is known of a process that accessed what was freed. -/
def step (d : DaemonData) (label : Label) : Option DaemonData :=
  if d.running && !d.notes.touchedFreed then d.act label else none

/-- The program as a machine. -/
def machine : Machine DaemonData Label := ⟨step⟩

end DaemonData

end EDBus.Notify
