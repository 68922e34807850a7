import EDBus.Dbus.Message
import Mathlib.Data.List.Basic

/-!
# Method calls on exported objects

`handler` is the message function that libdbus calls for the path of an
`E_DBus_Object`. It answers `none` where the source passes a `NULL` string to
`strcmp`. `Exact` states the intended dispatch in terms of the first matching
method; `dispatch_exact_iff` names the calls that get it.
-/

namespace EDBus.Dbus.Object

/-- `E_DBus_Method`. `signature` is `none` for a method added without one. -/
structure Method (Func : Type) where
  member : String
  signature : Option String
  func : Func
deriving DecidableEq, Repr

/-- `E_DBus_Interface`, as far as dispatch reads it. -/
structure Interface (Func : Type) where
  name : String
  methods : List (Method Func)
deriving DecidableEq, Repr

/-- `E_DBus_Object`, as far as dispatch reads it. -/
structure ExportedObject (Func : Type) where
  interfaces : List (Interface Func)
deriving DecidableEq, Repr

/-- `DBusHandlerResult`. -/
inductive HandlerResult where
  | handled
  | notYetHandled
deriving DecidableEq, Repr

/-- A message passed to `dbus_connection_send`. -/
inductive Sent (Reply : Type) where
  | error (name text : String)
  | reply (reply : Reply)
deriving DecidableEq, Repr

/-- What one run of the handler did: its result, the method functions it called
and the messages it sent. -/
structure Outcome (Func Reply : Type) where
  result : HandlerResult
  called : List Func
  sent : List (Sent Reply)
deriving DecidableEq, Repr

variable {Func Reply : Type}

/-- `strcmp(a, b) == 0`, where `a` may be `NULL`. -/
def strEqual (a : Option String) (b : String) : Option Bool := a.map (· == b)

/-- `e_dbus_object_method_find`. The outer `none` is a `NULL` interface reaching
`strcmp`. -/
def methodFind (interfaces : List (Interface Func)) (interface member : Option String) :
    Option (Option (Method Func)) :=
  match member with
  | none => some none
  | some member => search interfaces member
where
  search : List (Interface Func) → String → Option (Option (Method Func))
    | [], _ => some none
    | iface :: rest, member =>
      match strEqual interface iface.name with
      | none => none
      | some false => search rest member
      | some true =>
        match iface.methods.find? fun method => member == method.member with
        | some method => some (some method)
        | none => search rest member

/-- The error name of the signature check. -/
def invalidSignature : String := "org.enlightenment.InvalidSignature"

/-- `e_dbus_object_handler` from the found method on. -/
def methodCall (behave : Func → Message → Option Reply) (message : Message) :
    Option (Method Func) → Outcome Func Reply
  | none => ⟨.notYetHandled, [], []⟩
  | some method =>
    match method.signature.filter fun signature => message.signature != signature with
    | some signature =>
      ⟨.handled, [], [.error invalidSignature ("Expected signature: " ++ signature)]⟩
    | none =>
      -- the function may answer later, then it returns no reply
      match behave method.func message with
      | none => ⟨.handled, [method.func], []⟩
      | some reply => ⟨.handled, [method.func], [.reply reply]⟩

/-- `e_dbus_object_handler`. `behave` is what the registered functions do. -/
def handler (behave : Func → Message → Option Reply) (object : ExportedObject Func) (message : Message) :
    Option (Outcome Func Reply) :=
  (methodFind object.interfaces message.interface message.member).map (methodCall behave message)

/-! ## The intended dispatch -/

/-- The interfaces a call asks: the one it names, or every attached one. -/
def asked (object : ExportedObject Func) (message : Message) : List (Interface Func) :=
  object.interfaces.filter fun iface => message.interface.all (· == iface.name)

/-- The first method of the asked interfaces whose member is the call's. -/
def firstMethod (object : ExportedObject Func) (message : Message) : Option (Method Func) :=
  ((asked object message).flatMap Interface.methods).find? fun method =>
    message.member == some method.member

/-- The handler survives, and does with the first matching method what its
signature calls for. -/
structure Exact (behave : Func → Message → Option Reply) (object : ExportedObject Func)
    (message : Message) : Prop where
  outcome : ∃ outcome, handler behave object message = some outcome ∧
    match firstMethod object message with
    | none => outcome = ⟨.notYetHandled, [], []⟩
    | some method =>
      if method.signature = none ∨ method.signature = some message.signature then
        outcome = ⟨.handled, [method.func], ((behave method.func message).map Sent.reply).toList⟩
      else ∃ text, outcome = ⟨.handled, [], [.error invalidSignature text]⟩

section Search

variable {member : String}

/-- A call that names an interface finds the first method of the interfaces it asks. -/
theorem search_eq_find (interface member : String) (interfaces : List (Interface Func)) :
    methodFind.search (some interface) interfaces member =
      some (((interfaces.filter fun iface => interface == iface.name).flatMap
        Interface.methods).find? fun method => member == method.member) := by
  induction interfaces with
  | nil => rfl
  | cons iface rest ih =>
      by_cases named : interface = iface.name
      · simp only [methodFind.search, strEqual, Option.map_some, named, BEq.rfl,
          List.filter_cons_of_pos, List.flatMap_cons, List.find?_append]
        rw [← named, ih]
        cases iface.methods.find? fun method => member == method.member <;> rfl
      · have different : (interface == iface.name) = false := by simpa using named
        simp only [methodFind.search, strEqual, Option.map_some, different, List.filter_cons,
          Bool.false_eq_true, if_false, ih]

/-- A call that names no interface fails at the first attached one. -/
theorem search_none (iface : Interface Func) (rest : List (Interface Func)) :
    methodFind.search none (iface :: rest) member = none := rfl

end Search

variable {behave : Func → Message → Option Reply} {object : ExportedObject Func} {message : Message}

theorem methodFind_eq_firstMethod
    (named : message.member = none ∨ message.interface.isSome ∨ object.interfaces = []) :
    methodFind object.interfaces message.interface message.member =
      some (firstMethod object message) := by
  unfold firstMethod asked
  cases member : message.member with
  | none =>
      have absent : ∀ methods : List (Method Func),
          methods.find? (fun method => (none : Option String) == some method.member) = none := by
        intro methods
        exact List.find?_eq_none.mpr fun method _ => by simp
      simp only [methodFind, absent]
  | some name =>
      cases interface : message.interface with
      | none =>
          have empty : object.interfaces = [] := by simpa [member, interface] using named
          simp [methodFind, methodFind.search, empty]
      | some interfaceName =>
          simpa [methodFind] using search_eq_find interfaceName name object.interfaces

theorem methodFind_eq_none (member : message.member ≠ none) (interface : message.interface = none)
    (attached : object.interfaces ≠ []) :
    methodFind object.interfaces message.interface message.member = none := by
  obtain ⟨name, isMember⟩ := Option.ne_none_iff_exists'.mp member
  obtain ⟨iface, rest, isAttached⟩ := List.exists_cons_of_ne_nil attached
  simp only [methodFind, isMember, interface, isAttached]
  exact search_none iface rest

/-- The found method is treated as its signature calls for. -/
theorem methodCall_exact (behave : Func → Message → Option Reply) (message : Message)
    (found : Option (Method Func)) :
    match found with
    | none => methodCall behave message found = ⟨.notYetHandled, [], []⟩
    | some method =>
      if method.signature = none ∨ method.signature = some message.signature then
        methodCall behave message found =
          ⟨.handled, [method.func], ((behave method.func message).map Sent.reply).toList⟩
      else ∃ text, methodCall behave message found =
        ⟨.handled, [], [.error invalidSignature text]⟩ := by
  cases found with
  | none => rfl
  | some method =>
      cases signature : method.signature with
      | none =>
          simp only [true_or, if_true, methodCall, signature, Option.filter_none]
          cases behave method.func message <;> rfl
      | some expected =>
          by_cases same : expected = message.signature
          · simp only [same, or_true, if_true, methodCall, signature, Option.filter_some, bne_self_eq_false,
              Bool.false_eq_true, if_false]
            cases behave method.func message <;> rfl
          · have differs : (message.signature != expected) = true := by
              simpa using fun equal => same equal.symm
            simp only [reduceCtorEq, Option.some.injEq, same, or_self, if_false, methodCall, signature,
              Option.filter_some, differs, if_true]
            exact ⟨_, rfl⟩

/-- Dispatch is exact for every call that names an interface, and for the calls
that do not only on an object without interfaces. A call without a member is
handled by nobody, as intended. -/
theorem dispatch_exact_iff (behave : Func → Message → Option Reply) (object : ExportedObject Func)
    (message : Message) :
    Exact behave object message ↔
      message.member = none ∨ message.interface.isSome ∨ object.interfaces = [] := by
  constructor
  · rintro ⟨outcome, survives, -⟩
    by_contra excluded
    simp only [not_or, Option.not_isSome_iff_eq_none] at excluded
    obtain ⟨member, interface, attached⟩ := excluded
    simp [handler, methodFind_eq_none member interface attached] at survives
  · intro named
    refine ⟨methodCall behave message (firstMethod object message), ?_, ?_⟩
    · rw [handler, methodFind_eq_firstMethod named, Option.map_some]
    · have treated := methodCall_exact behave message (firstMethod object message)
      cases found : firstMethod object message with
      | none => simpa [found] using treated
      | some method => simpa [found] using treated

/-- An object that answers `Introspect`. -/
def introspectable : ExportedObject Unit :=
  ⟨[⟨"org.freedesktop.DBus.Introspectable", [⟨"Introspect", some "", ()⟩]⟩]⟩

/-- A call of `Introspect` without the interface field. -/
def bareIntrospect : Message := ⟨some ":1.7", some "/", none, some "Introspect", []⟩

/-- The handler does not survive a call that names no interface. -/
theorem dispatch_fails_bareIntrospect :
    ¬ Exact (fun _ _ => some "xml") introspectable bareIntrospect := by
  rintro ⟨outcome, survives, -⟩
  have crashes : handler (fun _ _ => some "xml") introspectable bareIntrospect = none := by decide
  rw [crashes] at survives
  cases survives

end EDBus.Dbus.Object
