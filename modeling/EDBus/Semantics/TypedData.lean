import Mathlib.Algebra.Group.Nat.Defs
import Mathlib.Data.List.Basic

/-!
# Typed data of messages

A message carries a list of values, each of which knows its type. Containers are read
with a `Cursor`, which points to the first value of the rest of a list. A basic value is
read into a variable, and a `Read` keeps what the variable was for: nothing but the
reader makes sure that the value has that type and that there is room for it.
-/

namespace EDBus.Semantics

mutual

/-- The type of a value. -/
inductive DataType where
  | byte
  | boolean
  | int16
  | uint16
  | int32
  | uint32
  | int64
  | uint64
  | double
  | string
  | objectPath
  | signature
  | unixFd
  | variant
  | array (item : DataType)
  | struct (members : DataTypes)
  | dictEntry (key value : DataType)
deriving DecidableEq, Repr

/-- The types of some values. -/
inductive DataTypes where
  | nil
  | cons (first : DataType) (rest : DataTypes)
deriving DecidableEq, Repr

end

/-- The list of types. -/
def DataTypes.ofList : List DataType → DataTypes
  | [] => .nil
  | first :: rest => .cons first (ofList rest)

/-- A value. A floating point number is its bits. -/
inductive Data where
  | byte (value : UInt8)
  | boolean (value : Bool)
  | int16 (value : Int16)
  | uint16 (value : UInt16)
  | int32 (value : Int32)
  | uint32 (value : UInt32)
  | int64 (value : Int64)
  | uint64 (value : UInt64)
  | double (bits : UInt64)
  | string (value : String)
  | objectPath (value : String)
  | signature (value : String)
  | unixFd (value : UInt32)
  | variant (value : Data)
  | array (item : DataType) (items : List Data)
  | struct (members : List Data)
  | dictEntry (key value : Data)

mutual

/-- The type of a value. That of an array does not depend on its items. -/
def Data.type : Data → DataType
  | .byte _ => .byte
  | .boolean _ => .boolean
  | .int16 _ => .int16
  | .uint16 _ => .uint16
  | .int32 _ => .int32
  | .uint32 _ => .uint32
  | .int64 _ => .int64
  | .uint64 _ => .uint64
  | .double _ => .double
  | .string _ => .string
  | .objectPath _ => .objectPath
  | .signature _ => .signature
  | .unixFd _ => .unixFd
  | .variant _ => .variant
  | .array item _ => .array item
  | .struct members => .struct (Data.types members)
  | .dictEntry key value => .dictEntry key.type value.type

/-- The types of some values. -/
def Data.types : List Data → DataTypes
  | [] => .nil
  | first :: rest => .cons first.type (Data.types rest)

end

mutual

/-- The items of arrays have the type of the array, at every depth. -/
def Data.WellTyped : Data → Prop
  | .variant value => value.WellTyped
  | .array item items => (∀ data ∈ items, data.type = item) ∧ Data.AllWellTyped items
  | .struct members => Data.AllWellTyped members
  | .dictEntry key value => key.WellTyped ∧ value.WellTyped
  | _ => True

/-- All values of a list are well typed. -/
def Data.AllWellTyped : List Data → Prop
  | [] => True
  | first :: rest => first.WellTyped ∧ Data.AllWellTyped rest

end

/-- The values of a message, which libdbus checks before it delivers the message. -/
structure Message where
  body : List Data
  wellTyped : Data.AllWellTyped body

/-! ## Cursors -/

/-- The values that are left, from the one pointed to. -/
abbrev Cursor := List Data

/-- `dbus_message_iter_has_next`. -/
def Cursor.hasNext (cursor : Cursor) : Bool := 1 < cursor.length

/-- `dbus_message_iter_next`. -/
def Cursor.next (cursor : Cursor) : Cursor := cursor.tail

/-- The values in a container. -/
def Data.contents : Data → Cursor
  | .variant value => [value]
  | .array _ items => items
  | .struct members => members
  | .dictEntry key value => [key, value]
  | _ => []

/-- `dbus_message_iter_recurse`. -/
def Cursor.recurse (cursor : Cursor) : Cursor := cursor.head?.elim [] Data.contents

/-! ## Variables -/

/-- The bytes that `dbus_message_iter_get_basic` stores for a value, on a machine with
pointers of eight bytes. Containers have no basic value. -/
def Data.size : Data → Option Nat
  | .byte _ => some 1
  | .boolean _ => some 4
  | .int16 _ => some 2
  | .uint16 _ => some 2
  | .int32 _ => some 4
  | .uint32 _ => some 4
  | .int64 _ => some 8
  | .uint64 _ => some 8
  | .double _ => some 8
  | .string _ => some 8
  | .objectPath _ => some 8
  | .signature _ => some 8
  | .unixFd _ => some 4
  | _ => none

/-- The bytes that are stored for a value of a type. -/
def DataType.size : DataType → Option Nat
  | .byte => some 1
  | .boolean => some 4
  | .int16 => some 2
  | .uint16 => some 2
  | .int32 => some 4
  | .uint32 => some 4
  | .int64 => some 8
  | .uint64 => some 8
  | .double => some 8
  | .string => some 8
  | .objectPath => some 8
  | .signature => some 8
  | .unixFd => some 4
  | _ => none

/-- The number in these bytes, the first one the lowest. Strings are pointers. -/
def Data.number : Data → Option Nat
  | .byte value => some value.toNat
  | .boolean value => some value.toNat
  | .int16 value => some value.toUInt16.toNat
  | .uint16 value => some value.toNat
  | .int32 value => some value.toUInt32.toNat
  | .uint32 value => some value.toNat
  | .int64 value => some value.toUInt64.toNat
  | .uint64 value => some value.toNat
  | .double bits => some bits.toNat
  | .unixFd value => some value.toNat
  | _ => none

/-- A value is read from a cursor into a variable of `room` bytes, as a value of the
type. There is none at the end of a container. -/
structure Read where
  type : DataType
  room : Nat
  value : Option Data

/-- The value has the type that it is read as. -/
def Read.Typed (read : Read) : Prop := read.value.map Data.type = some read.type

/-- There is room for the value. -/
def Read.Fits (read : Read) : Prop := ∃ size ≤ read.room, read.value.bind Data.size = some size

/-- The value has the type that it is read as, and there is room for it. -/
def Read.harmless (read : Read) : Bool :=
  read.value.map Data.type = some read.type && (read.value.bind Data.size).any (· ≤ read.room)

theorem Read.harmless_iff {read : Read} : read.harmless = true ↔ read.Typed ∧ read.Fits := by
  simp only [harmless, Bool.and_eq_true, decide_eq_true_eq, Option.any_eq_true, Typed, Fits]
  refine and_congr_right fun _ => exists_congr fun size => ?_
  rw [and_comm]

/-- The bytes for a value are those for its type. -/
theorem Data.size_type (data : Data) : data.size = data.type.size := by
  cases data <;> rfl

/-- A value that has the type it is read as fits if and only if the type does. -/
theorem Read.Typed.fits_iff {read : Read} (typed : read.Typed) :
    read.Fits ↔ ∃ size ≤ read.room, read.type.size = some size := by
  obtain ⟨data, isValue, isType⟩ := Option.map_eq_some_iff.mp typed
  rw [Fits, isValue, Option.bind_some, data.size_type, isType]

/-- What a variable of `room` bytes holds after a number of `size` bytes was stored over
`old`. -/
def overlay (room old size number : Nat) : Nat :=
  if size < room then old / 256 ^ size * 256 ^ size + number else number % 256 ^ room

/-- What a variable for numbers holds after a value was read into it. It is left as it is
where no number was stored. -/
def readNumber (room old : Nat) (value : Option Data) : Nat :=
  match value.bind Data.size, value.bind Data.number with
  | some size, some number => overlay room old size number
  | _, _ => old

/-- What a variable for strings holds after a value was read into it. Paths and signatures
are strings, too. It is left as it is where no string was stored; a number in its place
points nowhere. -/
def readString (old : Option String) (value : Option Data) : Option String :=
  match value with
  | some (.string value) => some value
  | some (.objectPath value) => some value
  | some (.signature value) => some value
  | _ => old

/-! ## Values of a type -/

namespace Data

theorem type_eq_string {data : Data} (typed : data.type = .string) : ∃ value, data = .string value := by
  cases data <;> first | exact ⟨_, rfl⟩ | exact nomatch typed

theorem type_eq_uint32 {data : Data} (typed : data.type = .uint32) : ∃ value, data = .uint32 value := by
  cases data <;> first | exact ⟨_, rfl⟩ | exact nomatch typed

theorem type_eq_int32 {data : Data} (typed : data.type = .int32) : ∃ value, data = .int32 value := by
  cases data <;> first | exact ⟨_, rfl⟩ | exact nomatch typed

theorem type_eq_boolean {data : Data} (typed : data.type = .boolean) : ∃ value, data = .boolean value := by
  cases data <;> first | exact ⟨_, rfl⟩ | exact nomatch typed

theorem type_eq_variant {data : Data} (typed : data.type = .variant) : ∃ value, data = .variant value := by
  cases data <;> first | exact ⟨_, rfl⟩ | exact nomatch typed

theorem type_eq_array {data : Data} {item : DataType} (typed : data.type = .array item) :
    ∃ items, data = .array item items := by
  cases data with
  | array item' items =>
      obtain rfl := DataType.array.inj typed
      exact ⟨items, rfl⟩
  | _ => exact nomatch typed

theorem type_eq_struct {data : Data} {members : DataTypes} (typed : data.type = .struct members) :
    ∃ values, data = .struct values ∧ types values = members := by
  cases data with
  | struct values => exact ⟨values, rfl, DataType.struct.inj typed⟩
  | _ => exact nomatch typed

theorem type_eq_dictEntry {data : Data} {keyType valueType : DataType}
    (typed : data.type = .dictEntry keyType valueType) :
    ∃ key value, data = .dictEntry key value ∧ key.type = keyType ∧ value.type = valueType := by
  cases data with
  | dictEntry key value => exact ⟨key, value, rfl, DataType.dictEntry.inj typed⟩
  | _ => exact nomatch typed

/-- Values of some types are a value of the first and values of the rest. -/
theorem types_eq_cons {values : List Data} {first : DataType} {rest : DataTypes}
    (typed : types values = .cons first rest) :
    ∃ value later, values = value :: later ∧ value.type = first ∧ types later = rest := by
  cases values with
  | nil => exact nomatch typed
  | cons value later => exact ⟨value, later, rfl, DataTypes.cons.inj typed⟩

theorem types_eq_nil {values : List Data} (typed : types values = .nil) : values = [] := by
  cases values with
  | nil => rfl
  | cons value later => exact nomatch typed

theorem AllWellTyped.of_mem {values : List Data} (wellTyped : AllWellTyped values) {value : Data}
    (listed : value ∈ values) : value.WellTyped := by
  induction values with
  | nil => cases listed
  | cons first rest ih =>
      rcases List.mem_cons.mp listed with rfl | later
      · exact wellTyped.1
      · exact ih wellTyped.2 later

/-- Values that all have a form are a list of what they are made of. -/
theorem exists_map_of_form {Part : Type} {form : Part → Data} {values : List Data}
    (formed : ∀ value ∈ values, ∃ part, value = form part) : ∃ parts : List Part, values = parts.map form := by
  induction values with
  | nil => exact ⟨[], rfl⟩
  | cons first rest ih =>
      obtain ⟨part, rfl⟩ := formed first (.head _)
      obtain ⟨parts, rfl⟩ := ih fun value listed => formed value (.tail _ listed)
      exact ⟨part :: parts, rfl⟩

/-- The items of an array of strings. -/
theorem exists_strings {items : List Data} (wellTyped : (array .string items).WellTyped) :
    ∃ strings : List String, items = strings.map .string :=
  exists_map_of_form fun data listed => type_eq_string (wellTyped.1 data listed)

/-- The entries of a dict from strings to variants. -/
theorem exists_entries {items : List Data} (wellTyped : (array (.dictEntry .string .variant) items).WellTyped) :
    ∃ entries : List (String × Data), items = entries.map fun entry => .dictEntry (.string entry.1) (.variant entry.2) := by
  apply exists_map_of_form
  intro data listed
  obtain ⟨key, value, rfl, isString, isVariant⟩ := type_eq_dictEntry (wellTyped.1 data listed)
  obtain ⟨key, rfl⟩ := type_eq_string isString
  obtain ⟨value, rfl⟩ := type_eq_variant isVariant
  exact ⟨(key, value), rfl⟩

end Data

end EDBus.Semantics
