/-!
# D-Bus messages as the library reads them

A header field is an `Option`: libdbus answers `NULL` for a field the message
does not carry. Of the arguments only their types and the strings matter to the
code of `src/lib/dbus`.
-/

namespace EDBus.Dbus

/-- `E_DBUS_FDO_BUS`. -/
def fdoBus : String := "org.freedesktop.DBus"
/-- `E_DBUS_FDO_PATH`. -/
def fdoPath : String := "/org/freedesktop/DBus"
/-- `E_DBUS_FDO_INTERFACE`. -/
def fdoInterface : String := "org.freedesktop.DBus"

/-- One argument: a string, or a value of another complete type. -/
inductive Arg where
  | string (value : String)
  | other (signature : String)
deriving DecidableEq, Repr

/-- The type signature of an argument. -/
def Arg.signature : Arg → String
  | .string _ => "s"
  | .other signature => signature

/-- A `DBusMessage`. -/
structure Message where
  sender : Option String
  path : Option String
  interface : Option String
  member : Option String
  args : List Arg
deriving DecidableEq, Repr

namespace Message

/-- `dbus_message_has_sender`. -/
def hasSender (message : Message) (name : String) : Bool := message.sender == some name
/-- `dbus_message_has_path`. -/
def hasPath (message : Message) (path : String) : Bool := message.path == some path
/-- `dbus_message_has_interface`. -/
def hasInterface (message : Message) (name : String) : Bool := message.interface == some name
/-- `dbus_message_has_member`. -/
def hasMember (message : Message) (name : String) : Bool := message.member == some name

/-- `dbus_message_get_signature`. -/
def signature (message : Message) : String := String.join (message.args.map Arg.signature)

/-- `dbus_message_get_args` asked for three strings; `none` is a set error. -/
def threeStrings (message : Message) : Option (String × String × String) :=
  match message.args with
  | .string first :: .string second :: .string third :: _ => some (first, second, third)
  | _ => none

@[simp] theorem hasSender_iff {message : Message} {name : String} :
    message.hasSender name = true ↔ message.sender = some name := by
  simp [hasSender]

end Message
end EDBus.Dbus
