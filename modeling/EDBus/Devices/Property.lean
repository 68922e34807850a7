import EDBus.Dbus.Decoded

/-!
# Properties of devices

The replies of HAL and of the UKit daemons, and the functions that read them. They share their
code by copying: `readProperty` is the `switch` over the type of a value, and every function has the
cases of its own.
-/

open EDBus.Semantics
open EDBus.Dbus (Use Decoded readWide readStrings isText errorInvalidSignature errorInvalidArgs)

namespace EDBus.Devices

/-! ## Values -/

/-- `E_Ukit_Property_Type`. Those of `E_Hal_Property_Type` are among them, and the first is the same. -/
inductive PropertyType where
  | string
  | int
  | uint32
  | uint64
  | int64
  | bool
  | double
  | strlist
deriving DecidableEq, Repr

/-- `val` of a property. A string is `none` where the pointer is `NULL`. -/
inductive PropertyValue where
  | s (value : Option String)
  | i (value : Int32)
  | u (value : UInt32)
  | t (value : UInt64)
  | x (value : Int64)
  | b (value : Bool)
  | d (bits : UInt64)
  | strlist (strings : List (Option String))
deriving DecidableEq, Repr

/-- `E_Hal_Property` and `E_Ukit_Property`. -/
structure Property where
  type : PropertyType
  val : PropertyValue
deriving DecidableEq, Repr

/-- What `calloc` returns. -/
def propertyNew : Property := ⟨.string, .s none⟩

/-- The hash of properties. `eina_hash_add` does not look for the key, so one key can be there twice. -/
abbrev Properties := List (String × Property)

/-! ## Reading a value -/

/-- The branch for the type of a value, if there is one. -/
def readCase (value : Data) : Property × List Use :=
  match value with
  | .string text => (⟨.string, .s (some text)⟩, [readWide .string value])
  | .objectPath text => (⟨.string, .s (some text)⟩, [readWide .string value])
  | .int32 number => (⟨.int, .i number⟩, [readWide .int32 value])
  | .uint32 number => (⟨.uint32, .u number⟩, [readWide .uint32 value])
  | .uint64 number => (⟨.uint64, .t number⟩, [readWide .uint64 value])
  | .int64 number => (⟨.int64, .x number⟩, [readWide .int64 value])
  | .boolean truth => (⟨.bool, .b truth⟩, [readWide .boolean value])
  | .double bits => (⟨.double, .d bits⟩, [readWide .double value])
  | .array _ items => (⟨.strlist, .strlist (readStrings items).1⟩, .recurse (some value) :: (readStrings items).2)
  | _ => (propertyNew, [])

/-- The `switch` over the type. A property is left as `calloc` made it where there is no case. -/
def readProperty (cases : DataType → Bool) (iter : Cursor) : Property × List Use :=
  match iter.head? with
  | none => (propertyNew, [])
  | some value => if cases value.type then readCase value else (propertyNew, [])

/-- The cases of `unmarshal_device_get_property` of HAL. -/
def halPropertyCases : DataType → Bool
  | .string => true
  | .int32 => true
  | .boolean => true
  | .double => true
  | _ => false

/-- The cases of `unmarshal_device_get_all_properties` of HAL. -/
def halCases : DataType → Bool
  | .string => true
  | .int32 => true
  | .uint64 => true
  | .boolean => true
  | .double => true
  | .array _ => true
  | _ => false

/-- The cases of both functions of UKit. -/
def ukitCases : DataType → Bool
  | .string => true
  | .objectPath => true
  | .int32 => true
  | .uint32 => true
  | .uint64 => true
  | .int64 => true
  | .boolean => true
  | .double => true
  | .array _ => true
  | _ => false

/-! ## Reading a reply -/

/-- The signature `a{sv}`. -/
def tableSignature : DataTypes := .ofList [.array (.dictEntry .string .variant)]

/-- An entry of the table: the name and the value behind it. -/
def readEntry (cases : DataType → Bool) (entry : Data) : (String × Property) × List Use :=
  let s_iter := entry.contents
  let v_iter := s_iter.next.recurse
  let prop := readProperty cases v_iter
  (((readString none s_iter.head?).getD "", prop.1),
    .recurse (some entry) :: .read ⟨.string, 8, s_iter.head?⟩ :: .recurse s_iter.next.head? :: prop.2)

/-- `unmarshal_device_get_all_properties`, with the cases of the library. -/
def readTable (cases : DataType → Bool) (msg : List Data) : Decoded Properties :=
  if Data.types msg = tableSignature then
    let entries := (Cursor.recurse msg).map (readEntry cases)
    ⟨some (entries.map Prod.fst), none, .recurse msg.head? :: entries.flatMap Prod.snd⟩
  else ⟨none, some errorInvalidSignature, []⟩

/-- A list of strings or of paths, which the signature of the message says it is. -/
def readStringList (item : DataType) (msg : List Data) : Decoded (List (Option String)) :=
  if Data.types msg = .ofList [.array item] then
    let strings := readStrings (Cursor.recurse msg)
    ⟨some strings.1, none, .recurse msg.head? :: strings.2⟩
  else ⟨none, some errorInvalidSignature, []⟩

/-- One boolean, with `dbus_message_get_args`. -/
def readBool (msg : List Data) : Decoded Bool :=
  match msg.head? with
  | some (.boolean truth) => ⟨some truth, none, [.read ⟨.boolean, 4, some (.boolean truth)⟩]⟩
  | _ => ⟨none, some errorInvalidArgs, []⟩

namespace Hal

/-- `unmarshal_device_get_property`. The iterator of an empty message is at its end. -/
def unmarshalDeviceGetProperty (msg : List Data) : Decoded Property :=
  let ret := readProperty halPropertyCases msg
  ⟨some ret.1, none, ret.2⟩

/-- `unmarshal_device_get_all_properties`. -/
def unmarshalDeviceGetAllProperties (msg : List Data) : Decoded Properties := readTable halCases msg

/-- `unmarshal_string_list`. -/
def unmarshalStringList (msg : List Data) : Decoded (List (Option String)) := readStringList .string msg

/-- `unmarshal_device_query_capability`. -/
def unmarshalDeviceQueryCapability (msg : List Data) : Decoded Bool := readBool msg

/-- `unmarshal_manager_device_exists`. -/
def unmarshalManagerDeviceExists (msg : List Data) : Decoded Bool := readBool msg

end Hal

namespace Ukit

/-- `unmarshal_property`. The first value of the message is entered, whatever it is; there is no error
for a message without values. -/
def unmarshalProperty (msg : List Data) : Decoded Property :=
  match msg with
  | [] => ⟨none, none, []⟩
  | value :: _ =>
    let ret := readProperty ukitCases value.contents
    ⟨some ret.1, none, .recurse (some value) :: ret.2⟩

/-- `unmarshal_device_get_all_properties`. -/
def unmarshalDeviceGetAllProperties (msg : List Data) : Decoded Properties := readTable ukitCases msg

/-- `unmarshal_string_list`. -/
def unmarshalStringList (msg : List Data) : Decoded (List (Option String)) := readStringList .objectPath msg

end Ukit

end EDBus.Devices
