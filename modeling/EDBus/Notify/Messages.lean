import EDBus.Notify.Capabilities
import EDBus.Notify.RoundTrip

/-!
# Messages of the notification protocol

The calls, the returns and the signals that `marshal.c` writes besides the notification itself, with their
headers, and the readers for them. A reader that looks at the signature takes exactly what the writer
makes.
-/

open EDBus.Semantics
open EDBus.Dbus

namespace EDBus.Notify

/-- `E_NOTIFICATION_BUS_NAME`. -/
def notificationBusName : String := "org.freedesktop.Notifications"
/-- `E_NOTIFICATION_PATH`. -/
def notificationPath : String := "/org/freedesktop/Notifications"
/-- `E_NOTIFICATION_INTERFACE`. -/
def notificationInterface : String := "org.freedesktop.Notifications"

/-! ## Packets -/

/-- The call that a message answers: who sent it, and its serial number. -/
structure Origin where
  sender : String
  serial : UInt32
deriving DecidableEq, Repr

/-- The header of a message. -/
inductive Header where
  | methodCall (destination path interface member : String)
  | signal (path interface member : String)
  | methodReturn (origin : Origin)
  | error (origin : Origin) (name : String)
deriving DecidableEq, Repr

/-- A message that is written. -/
structure Packet where
  header : Header
  body : List Data

/-- `e_notification_call_new`. -/
def callNew (member : String) : Header :=
  .methodCall notificationBusName notificationPath notificationInterface member

/-- `E_Notification_Event_Notification_Closed`. -/
structure NotificationClosed where
  notificationId : UInt32
  reason : UInt32
deriving DecidableEq, Repr

/-- `E_Notification_Event_Action_Invoked`. -/
structure ActionInvoked where
  notificationId : UInt32
  actionId : Option String
deriving DecidableEq, Repr

/-- The signature `u`. -/
def closeSignature : DataTypes := .ofList [.uint32]
/-- The signature `uu`. -/
def closedSignature : DataTypes := .ofList [.uint32, .uint32]
/-- The signature `us`. -/
def invokedSignature : DataTypes := .ofList [.uint32, .string]

/-! ## Writing -/

/-- `e_notify_marshal_get_capabilities`. -/
def marshalGetCapabilities : Packet := ⟨callNew "GetCapabilities", []⟩

/-- `e_notify_marshal_get_server_information`. -/
def marshalGetServerInformation : Packet := ⟨callNew "GetServerInformation", []⟩

/-- `e_notify_marshal_get_server_information_return`. -/
def marshalGetServerInformationReturn (origin : Origin) (name vendor version specVersion : String) : Packet :=
  ⟨.methodReturn origin, [.string name, .string vendor, .string version, .string specVersion]⟩

/-- `e_notify_marshal_close_notification`. -/
def marshalCloseNotification (id : UInt32) : Packet := ⟨callNew "CloseNotification", [.uint32 id]⟩

/-- `e_notify_marshal_notification_closed_signal`. -/
def marshalNotificationClosedSignal (id reason : UInt32) : Packet :=
  ⟨.signal notificationPath notificationInterface "NotificationClosed", [.uint32 id, .uint32 reason]⟩

/-- `e_notify_marshal_action_invoked_signal`. -/
def marshalActionInvokedSignal (id : UInt32) (actionId : String) : Packet :=
  ⟨.signal notificationPath notificationInterface "ActionInvoked", [.uint32 id, .string actionId]⟩

/-- `e_notify_marshal_notify_return`. -/
def marshalNotifyReturn (origin : Origin) (id : UInt32) : Packet := ⟨.methodReturn origin, [.uint32 id]⟩

/-! ## Reading -/

/-- An id or a reason is read into a variable of four bytes that is zero. -/
def readUint32 (value : Option Data) : UInt32 := UInt32.ofNat (readNumber 4 0 value)

/-- What `readUint32` reads. -/
def uint32Use (value : Option Data) : Use := .read ⟨.uint32, 4, value⟩

/-- `e_notify_unmarshal_close_notification`, which has no error for another signature but the id zero. -/
def unmarshalCloseNotification (msg : List Data) : UInt32 :=
  if Data.types msg = closeSignature then readUint32 msg.head? else 0

/-- `e_notify_unmarshal_notification_closed_signal`. -/
def unmarshalNotificationClosedSignal (msg : List Data) : Decoded NotificationClosed :=
  if Data.types msg = closedSignature then
    let reason := Cursor.next msg
    ⟨some ⟨readUint32 msg.head?, readUint32 reason.head?⟩, none, [uint32Use msg.head?, uint32Use reason.head?]⟩
  else ⟨none, some errorInvalidSignature, []⟩

/-- `e_notify_unmarshal_action_invoked_signal`. -/
def unmarshalActionInvokedSignal (msg : List Data) : Decoded ActionInvoked :=
  if Data.types msg = invokedSignature then
    let actionId := Cursor.next msg
    ⟨some ⟨readUint32 msg.head?, readString none actionId.head?⟩, none, [uint32Use msg.head?, readText actionId]⟩
  else ⟨none, some errorInvalidSignature, []⟩

/-! ## Reading what was written -/

@[simp] theorem readUint32_uint32 (value : UInt32) : readUint32 (some (.uint32 value)) = value := by
  have bound := value.toNat_lt
  simp only [readUint32, readNumber, Option.bind_some, Data.size, Data.number, overlay]
  rw [if_neg (by omega), Nat.mod_eq_of_lt (by omega), UInt32.ofNat_toNat]

/-- A message of one number. -/
theorem body_of_closeSignature {msg : List Data} (signed : Data.types msg = closeSignature) :
    ∃ id, msg = [.uint32 id] := by
  obtain ⟨first, rest, rfl, isNumber, isRest⟩ := Data.types_eq_cons signed
  obtain rfl := Data.types_eq_nil isRest
  obtain ⟨id, rfl⟩ := Data.type_eq_uint32 isNumber
  exact ⟨id, rfl⟩

/-- A message of two numbers. -/
theorem body_of_closedSignature {msg : List Data} (signed : Data.types msg = closedSignature) :
    ∃ id reason, msg = [.uint32 id, .uint32 reason] := by
  obtain ⟨first, rest, rfl, isNumber, isRest⟩ := Data.types_eq_cons signed
  obtain ⟨id, rfl⟩ := Data.type_eq_uint32 isNumber
  obtain ⟨reason, rfl⟩ := body_of_closeSignature isRest
  exact ⟨id, reason, rfl⟩

/-- A message of a number and a string. -/
theorem body_of_invokedSignature {msg : List Data} (signed : Data.types msg = invokedSignature) :
    ∃ id actionId, msg = [.uint32 id, .string actionId] := by
  obtain ⟨first, rest, rfl, isNumber, isRest⟩ := Data.types_eq_cons signed
  obtain ⟨second, last, rfl, isString, isLast⟩ := Data.types_eq_cons isRest
  obtain rfl := Data.types_eq_nil isLast
  obtain ⟨id, rfl⟩ := Data.type_eq_uint32 isNumber
  obtain ⟨actionId, rfl⟩ := Data.type_eq_string isString
  exact ⟨id, actionId, rfl⟩

theorem unmarshalCloseNotification_marshal (id : UInt32) :
    unmarshalCloseNotification (marshalCloseNotification id).body = id := by
  have signed : Data.types (marshalCloseNotification id).body = closeSignature := rfl
  rw [unmarshalCloseNotification, if_pos signed]
  exact readUint32_uint32 id

/-- The reader of closed notifications takes what the writer makes, and nothing else. -/
theorem unmarshalNotificationClosedSignal_iff (msg : List Data) (closed : NotificationClosed) :
    (unmarshalNotificationClosedSignal msg).result = some closed ↔
      msg = (marshalNotificationClosedSignal closed.notificationId closed.reason).body := by
  unfold unmarshalNotificationClosedSignal
  constructor
  · intro read
    split at read
    · next signed =>
        obtain ⟨id, reason, rfl⟩ := body_of_closedSignature signed
        obtain rfl := Option.some.inj read
        simp [marshalNotificationClosedSignal, Cursor.next]
    · cases read
  · rintro rfl
    have signed : Data.types (marshalNotificationClosedSignal closed.notificationId closed.reason).body =
        closedSignature := rfl
    rw [if_pos signed]
    simp [marshalNotificationClosedSignal, Cursor.next]

/-- The reader of invoked actions takes what the writer makes, and nothing else. -/
theorem unmarshalActionInvokedSignal_iff (msg : List Data) (invoked : ActionInvoked) :
    (unmarshalActionInvokedSignal msg).result = some invoked ↔
      ∃ actionId, invoked.actionId = some actionId ∧
        msg = (marshalActionInvokedSignal invoked.notificationId actionId).body := by
  unfold unmarshalActionInvokedSignal
  constructor
  · intro read
    split at read
    · next signed =>
        obtain ⟨id, actionId, rfl⟩ := body_of_invokedSignature signed
        obtain rfl := Option.some.inj read
        exact ⟨actionId, rfl, by simp [marshalActionInvokedSignal]⟩
    · cases read
  · rintro ⟨actionId, named, rfl⟩
    obtain ⟨id, name⟩ := invoked
    subst named
    have signed : Data.types (marshalActionInvokedSignal id actionId).body = invokedSignature := rfl
    rw [if_pos signed]
    simp [marshalActionInvokedSignal, Cursor.next, readString]

/-- The reader of ids looks at the first value only. -/
theorem unmarshalNotifyReturn_iff (msg : List Data) (id : UInt32) :
    (unmarshalNotifyReturn msg).result = some id ↔ ∃ rest, msg = .uint32 id :: rest := by
  unfold unmarshalNotifyReturn
  constructor
  · intro read
    split at read
    · next found =>
        obtain ⟨rest, rfl⟩ := List.head?_eq_some_iff.mp found
        obtain rfl := Option.some.inj read
        exact ⟨rest, rfl⟩
    · cases read
  · rintro ⟨rest, rfl⟩
    rfl

theorem unmarshalNotifyReturn_marshal (origin : Origin) (id : UInt32) :
    (unmarshalNotifyReturn (marshalNotifyReturn origin id).body).result = some id :=
  (unmarshalNotifyReturn_iff _ id).mpr ⟨[], rfl⟩

theorem unmarshalGetServerInformationReturn_marshal (origin : Origin) (name vendor version specVersion : String) :
    (unmarshalGetServerInformationReturn
      (marshalGetServerInformationReturn origin name vendor version specVersion).body).result =
        some ⟨some name, some vendor, some version, some specVersion⟩ := by
  have signed : Data.types (marshalGetServerInformationReturn origin name vendor version specVersion).body =
      informationSignature := rfl
  rw [unmarshalGetServerInformationReturn, if_pos signed]
  simp [marshalGetServerInformationReturn, Cursor.next, readString]

end EDBus.Notify
