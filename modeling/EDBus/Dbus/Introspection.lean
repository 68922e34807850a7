import EDBus.Semantics.Signature

/-!
# What an exported object says of itself

The interfaces of an object and the XML that `e_dbus_object_introspect` writes
of them. Every `_append` function of the source is the text it appends.
-/

open EDBus.Semantics

namespace EDBus.Dbus.Exported

/-- `E_DBus_Method`. -/
structure Method (Func : Type) where
  member : String
  signature : Option String
  replySignature : Option String
  func : Func
deriving DecidableEq, Repr

/-- `E_DBus_Signal`. -/
structure Signal where
  name : String
  signature : Option String
deriving DecidableEq, Repr

/-- `E_DBus_Interface`. -/
structure Interface (Func : Type) where
  name : String
  methods : List (Method Func)
  signals : List Signal
  refcount : Int
deriving DecidableEq, Repr

variable {Func : Type}

/-- `_introspect_indent_append`. -/
def introspectIndent (level : Nat) : String := String.ofList (List.replicate (level * 2) ' ')

/-- `_introspect_arg_append`. -/
def introspectArg (type : String) (direction : Option String) (level : Nat) : String :=
  introspectIndent level ++ "<arg type=\"" ++ type ++
    (match direction with
    | none => ""
    | some direction => "\" direction=\"" ++ direction) ++ "\"/>\n"

/-- The loop over the complete types of a signature. -/
def introspectArgs (signature : Option String) (direction : Option String) (level : Nat) : String :=
  match signature with
  | none => ""
  | some signature =>
    if signature ≠ "" ∧ Signature.validate signature = true then
      String.join ((Signature.completeTypes signature).map fun type => introspectArg type direction level)
    else ""

/-- `_introspect_method_append`. -/
def introspectMethod (method : Method Func) (level : Nat) : String :=
  introspectIndent level ++ "<method name=\"" ++ method.member ++ "\">\n" ++
    introspectArgs method.signature (some "in") (level + 1) ++
    introspectArgs method.replySignature (some "out") (level + 1) ++
    introspectIndent level ++ "</method>\n"

/-- `_introspect_signal_append`. -/
def introspectSignal (signal : Signal) (level : Nat) : String :=
  introspectIndent level ++ "<signal name=\"" ++ signal.name ++ "\">\n" ++
    introspectArgs signal.signature none (level + 1) ++
    introspectIndent level ++ "</signal>\n"

/-- `_introspect_interface_append`. -/
def introspectInterface (iface : Interface Func) (level : Nat) : String :=
  introspectIndent level ++ "<interface name=\"" ++ iface.name ++ "\">\n" ++
    String.join (iface.methods.map fun method => introspectMethod method (level + 1)) ++
    String.join (iface.signals.map fun signal => introspectSignal signal (level + 1)) ++
    introspectIndent level ++ "</interface>\n"

/-- `e_dbus_object_introspect`. -/
def objectIntrospect (path : String) (interfaces : List (Interface Func)) : String :=
  "<!DOCTYPE node PUBLIC \"-//freedesktop//DTD D-BUS Object Introspection 1.0//EN\"\n" ++
    " \"http://www.freedesktop.org/standards/dbus/1.0/introspect.dtd\">\n" ++
    "<node name=\"" ++ path ++ "\">\n" ++
    String.join (interfaces.map fun iface => introspectInterface iface 1) ++ "</node>\n"

end EDBus.Dbus.Exported
