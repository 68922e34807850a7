import Mathlib.Data.List.Basic

/-!
# Property values of elements

connman, bluez and ofono keep the properties of a server object in the same way:
a property has a D-Bus type and a value, and an array is kept as an `Eina_Array`
of pointers. `Wire` is what a message carries, `Value` what an element stores.
-/

namespace EDBus.Elements

/-- The three modules with an element table. -/
inductive Family where
  | connman
  | bluez
  | ofono
deriving DecidableEq, Repr

/-- A value of one of the basic types that the modules know. -/
inductive Basic where
  | boolean (value : Bool)
  | byte (value : UInt8)
  | int16 (value : Int16)
  | uint16 (value : UInt16)
  | uint32 (value : UInt32)
  | string (value : String)
  | objectPath (value : String)
deriving DecidableEq, Repr

/-- The types of D-Bus that no property can have. -/
inductive OtherType where
  | int16
  | int32
  | int64
  | uint64
  | double
  | signature
  | unixFd
  | struct
  | variant
deriving DecidableEq, Repr

/-- Two basic values have the same type. -/
def Basic.sameType : Basic → Basic → Bool
  | .boolean _, .boolean _ => true
  | .byte _, .byte _ => true
  | .int16 _, .int16 _ => true
  | .uint16 _, .uint16 _ => true
  | .uint32 _, .uint32 _ => true
  | .string _, .string _ => true
  | .objectPath _, .objectPath _ => true
  | _, _ => false

/-- The value in a dict entry: a basic one, an array, or one of another type. -/
inductive EntryValue where
  | basic (value : Basic)
  | array
  | other (type : OtherType)
deriving DecidableEq, Repr

/-- The items of an array, all of one type. -/
inductive WireArray where
  | empty
  | objectPaths (first : String) (rest : List String)
  | strings (first : String) (rest : List String)
  | bytes (first : UInt8) (rest : List UInt8)
  | entries (first : String × EntryValue) (rest : List (String × EntryValue))
  | other
deriving DecidableEq, Repr

/-- The content of a variant. Of a value of another type only matters whether it
reads as zero. -/
inductive Wire where
  | basic (value : Basic)
  | array (items : WireArray)
  | other (type : OtherType) (isZero : Bool)
deriving DecidableEq, Repr

/-- A dict entry, `E_Connman_Element_Dict_Entry` and its siblings. -/
structure DictEntry where
  name : String
  value : Basic
deriving DecidableEq, Repr

/-- A pointer in an `Eina_Array`: a shared string, a byte cast to a pointer, or a
dict entry. -/
inductive Item where
  | str (value : String)
  | byte (value : UInt8)
  | entry (value : DictEntry)
deriving DecidableEq, Repr

/-- `array->type`. -/
inductive ArrayType where
  | objectPath
  | string
  | byte
  | dictEntry
deriving DecidableEq, Repr

/-- `E_Connman_Array` and its siblings. -/
structure ElementArray where
  type : ArrayType
  items : List Item
deriving DecidableEq, Repr

/-- `type` and `value` of a property. An array may be `NULL`. -/
inductive Value where
  | basic (value : Basic)
  | array (items : Option ElementArray)
  | unsupported (type : OtherType)
deriving DecidableEq, Repr

/-- `property->type` is the same. -/
def Value.sameType : Value → Value → Bool
  | .basic left, .basic right => left.sameType right
  | .array _, .array _ => true
  | .unsupported left, .unsupported right => left = right
  | _, _ => false

/-- A property of an element. -/
structure Property where
  name : String
  value : Value
deriving DecidableEq, Repr

/-! ## Decoding -/

/-- `_dict_entry_new`; only bluez knows signed 16 bit integers. -/
def dictEntryNew (family : Family) : String × EntryValue → Option DictEntry
  | (key, .basic value) =>
    match value with
    | .int16 _ => if key = "" ∨ family ≠ .bluez then none else some ⟨key, value⟩
    | _ => if key = "" then none else some ⟨key, value⟩
  | (_, .array) => none
  | (_, .other _) => none

/-- `eina_array_push` refuses a `NULL` item. -/
def byteItem (byte : UInt8) : Option Item := if byte = 0 then none else some (.byte byte)

/-- The array that `_iter_get_array` builds; `none` is `NULL`. -/
def arrayBuild (family : Family) : WireArray → Option ElementArray
  | .empty => none
  | .objectPaths first rest => some ⟨.objectPath, (first :: rest).map .str⟩
  | .strings first rest => some ⟨.string, (first :: rest).map .str⟩
  | .bytes first rest => some ⟨.byte, (first :: rest).filterMap byteItem⟩
  | .entries first rest =>
    some ⟨.dictEntry, ((first :: rest).filterMap (dictEntryNew family)).map .entry⟩
  | .other => none

/-- The object paths that `_iter_get_array` registers while it builds the array. -/
def WireArray.paths : WireArray → List String
  | .objectPaths first rest => first :: rest
  | _ => []

/-- What `_property_value_add` is handed for a variant. -/
def Wire.value (family : Family) : Wire → Value
  | .basic (.int16 _) => .unsupported .int16
  | .basic value => .basic value
  | .array items => .array (arrayBuild family items)
  | .other type _ => .unsupported type

/-- The object paths that are registered while a variant is decoded. -/
def Wire.paths : Wire → List String
  | .array items => items.paths
  | _ => []

/-- The value that `dbus_message_iter_get_basic` leaves in a pointer is `NULL`. -/
def Basic.isNull : Basic → Bool
  | .boolean value => !value
  | .byte value => value = 0
  | .int16 value => value = 0
  | .uint16 value => value = 0
  | .uint32 value => value = 0
  | .string _ => false
  | .objectPath _ => false

/-! ## Storing -/

/-- What `_property_update` returns: whether the property changed. An array always
counts as changed. -/
def Value.changed (stored received : Value) : Bool :=
  !stored.sameType received ||
    match received with
    | .basic _ => decide (stored ≠ received)
    | .array _ => true
    | .unsupported _ => false

/-- The arrays that `_array_match` gets to see, if `_property_update` calls it. -/
def Value.matched : Value → Value → Option (ElementArray × Option ElementArray)
  | .array (some old), .array new => some (old, new)
  | _, _ => none

end EDBus.Elements
