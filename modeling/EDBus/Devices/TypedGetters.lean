import EDBus.Devices.DecoderAgreement
import EDBus.Semantics.Variable

/-!
# Getters of a type

HAL and UKit have getters for the properties in a table, one for each type of property. A getter returns
the member of its type from the `union` with the value, of which it does not know the type, and it has an
error for a missing key only. `getter_honours_iff` finds the calls that keep what the getters promise. The
`union` has eight bytes, the lowest byte of a number first.
-/

open EDBus.Semantics
open EDBus.Dbus (Decoded)

namespace EDBus.Devices

/-! ## Unions -/

/-- What a pointer in the `union` points to: a text or the nodes of a list. -/
inductive Pointee where
  | text (value : String)
  | nodes (strings : List (Option String))
deriving DecidableEq, Repr

/-- What a getter returns. A number is `none` where it is part of an address. -/
inductive Returned where
  | s (pointer : Loaded Pointee)
  | i (value : Option Int32)
  | u (value : Option UInt32)
  | t (value : Option UInt64)
  | x (value : Option Int64)
  | b (value : Option UInt8)
  | d (bits : Option UInt64)
  | strlist (pointer : Loaded Pointee)
deriving DecidableEq, Repr

namespace PropertyValue

/-- The type of the property that a value belongs to. -/
def type : PropertyValue → PropertyType
  | s _ => .string
  | i _ => .int
  | u _ => .uint32
  | t _ => .uint64
  | x _ => .int64
  | b _ => .bool
  | d _ => .double
  | strlist _ => .strlist

/-- The pointer to the nodes of a list, of which an empty one has none. -/
def nodes (strings : List (Option String)) : Option Pointee :=
  if strings = [] then none else some (.nodes strings)

/-- What is written into the `union`. A boolean is written as a `dbus_bool_t`. -/
def written : PropertyValue → Variable Pointee
  | s value => .ofPointer (value.map .text)
  | i value => .ofBytes (numberBytes 4 value.toUInt32.toNat)
  | u value => .ofBytes (numberBytes 4 value.toNat)
  | t value => .ofBytes (numberBytes 8 value.toNat)
  | x value => .ofBytes (numberBytes 8 value.toUInt64.toNat)
  | b value => .ofBytes (numberBytes 4 value.toNat)
  | d bits => .ofBytes (numberBytes 8 bits.toNat)
  | strlist strings => .ofPointer (nodes strings)

/-- The `union`, which was all zeros before. -/
def union (value : PropertyValue) : Variable Pointee := (Variable.ofPointer none).store value.written

/-- The value as a getter should return it. -/
def returned : PropertyValue → Returned
  | s value => .s (value.elim .null fun text => .object (.text text))
  | i value => .i (some value)
  | u value => .u (some value)
  | t value => .t (some value)
  | x value => .x (some value)
  | b value => .b (some (if value then 1 else 0))
  | d bits => .d (some bits)
  | strlist strings => .strlist ((nodes strings).elim .null .object)

end PropertyValue

/-- The size of the member `b`: a `dbus_bool_t` in HAL, an `Eina_Bool` in UKit. -/
def Library.boolSize : Library → Nat
  | hal => 4
  | ukit => 1

/-- The member of a type, as it is returned. -/
def Library.member (library : Library) (type : PropertyType) (cells : Variable Pointee) : Returned :=
  match type with
  | .string => .s cells.load
  | .int => .i ((cells.loadNumber 4).map fun number => (UInt32.ofNat number).toInt32)
  | .uint32 => .u ((cells.loadNumber 4).map UInt32.ofNat)
  | .uint64 => .t ((cells.loadNumber 8).map UInt64.ofNat)
  | .int64 => .x ((cells.loadNumber 8).map fun number => (UInt64.ofNat number).toInt64)
  | .bool => .b ((cells.loadNumber library.boolSize).map UInt8.ofNat)
  | .double => .d ((cells.loadNumber 8).map UInt64.ofNat)
  | .strlist => .strlist cells.load

/-- What a getter returns where it has no value. -/
def neutral : PropertyType → Returned
  | .string => .s .null
  | .int => .i (some 0)
  | .uint32 => .u (some 0)
  | .uint64 => .t (some 0)
  | .int64 => .x (some 0)
  | .bool => .b (some 0)
  | .double => .d (some 0)
  | .strlist => .strlist .null

/-! ## Getters -/

/-- What a getter returns, `*err` after it, and the type of the property and that of the member that it
read of it. `err` is `none` where it is `NULL`. -/
structure Got where
  returned : Returned
  err : Option Int32
  read : Option (PropertyType × PropertyType)
deriving DecidableEq, Repr

/-- A call of a getter: the structure with the table, each of which may be `NULL`, the key and `err`. It
is `none` where the getter follows `NULL`. -/
abbrev Getter := Option (Option Properties) → Option String → Option Int32 → Option Got

/-- The getters from the lookup on. `eina_hash_find` finds nothing for `NULL`. -/
def propertyFind (hash : PropertyHash) (library : Library) (type : PropertyType) (properties : Properties)
    (key : Option String) (err : Option Int32) : Got :=
  match key.bind (hash.find properties) with
  | some prop => ⟨library.member type prop.val.union, err.map fun _ => 0, some (prop.type, type)⟩
  | none => ⟨neutral type, err.map fun _ => 1, none⟩

namespace Hal

variable (hash : PropertyHash)

/-- The getters of HAL. -/
def propertyGet (type : PropertyType) : Getter := fun properties key err =>
  match properties, key with
  | some (some properties), some key => some (propertyFind hash .hal type properties (some key) err)
  | _, _ => some ⟨neutral type, err.map fun _ => 0, none⟩

/-- `e_hal_property_string_get`. -/
def propertyStringGet : Getter := propertyGet hash .string

/-- `e_hal_property_bool_get`. -/
def propertyBoolGet : Getter := propertyGet hash .bool

/-- `e_hal_property_int_get`. -/
def propertyIntGet : Getter := propertyGet hash .int

/-- `e_hal_property_uint64_get`. -/
def propertyUint64Get : Getter := propertyGet hash .uint64

/-- `e_hal_property_double_get`. -/
def propertyDoubleGet : Getter := propertyGet hash .double

/-- `e_hal_property_strlist_get`. -/
def propertyStrlistGet : Getter := propertyGet hash .strlist

end Hal

namespace Ukit

variable (hash : PropertyHash)

/-- The getters of UKit, which do not look whether there is a structure or a key. -/
def propertyGet (type : PropertyType) : Getter := fun properties key err =>
  match properties with
  | none => none
  | some none => some ⟨neutral type, err.map fun _ => 0, none⟩
  | some (some properties) => some (propertyFind hash .ukit type properties key err)

/-- `e_ukit_property_string_get`. -/
def propertyStringGet : Getter := propertyGet hash .string

/-- `e_ukit_property_bool_get`. -/
def propertyBoolGet : Getter := propertyGet hash .bool

/-- `e_ukit_property_int_get`. -/
def propertyIntGet : Getter := propertyGet hash .int

/-- `e_ukit_property_uint32_get`. -/
def propertyUint32Get : Getter := propertyGet hash .uint32

/-- `e_ukit_property_uint64_get`. -/
def propertyUint64Get : Getter := propertyGet hash .uint64

/-- `e_ukit_property_int64_get`. -/
def propertyInt64Get : Getter := propertyGet hash .int64

/-- `e_ukit_property_double_get`. -/
def propertyDoubleGet : Getter := propertyGet hash .double

/-- `e_ukit_property_strlist_get`. -/
def propertyStrlistGet : Getter := propertyGet hash .strlist

end Ukit

/-- The getter of a library for a type of property, if it has one. -/
def Library.getter (hash : PropertyHash) : Library → PropertyType → Option Getter
  | hal, .string => some (Hal.propertyStringGet hash)
  | hal, .bool => some (Hal.propertyBoolGet hash)
  | hal, .int => some (Hal.propertyIntGet hash)
  | hal, .uint64 => some (Hal.propertyUint64Get hash)
  | hal, .double => some (Hal.propertyDoubleGet hash)
  | hal, .strlist => some (Hal.propertyStrlistGet hash)
  | hal, .uint32 => none
  | hal, .int64 => none
  | ukit, .string => some (Ukit.propertyStringGet hash)
  | ukit, .bool => some (Ukit.propertyBoolGet hash)
  | ukit, .int => some (Ukit.propertyIntGet hash)
  | ukit, .uint32 => some (Ukit.propertyUint32Get hash)
  | ukit, .uint64 => some (Ukit.propertyUint64Get hash)
  | ukit, .int64 => some (Ukit.propertyInt64Get hash)
  | ukit, .double => some (Ukit.propertyDoubleGet hash)
  | ukit, .strlist => some (Ukit.propertyStrlistGet hash)

/-! ## Reading the own type -/

/-- A number that fits is read back from the `union`. -/
theorem loadNumber_union (value : PropertyValue) {size number : Nat}
    (isNumber : value.written = .ofBytes (numberBytes size number)) (fits : number < 256 ^ size) :
    value.union.loadNumber size = some number := by
  rw [PropertyValue.union, isNumber, Variable.loadNumber_store, Nat.mod_eq_of_lt fits]

/-- The member that was written is returned as it was. -/
theorem member_union (library : Library) (value : PropertyValue) :
    library.member value.type value.union = value.returned := by
  have sized : (Variable.ofPointer none : Variable Pointee).length = pointerSize := Variable.length_ofPointer none
  cases value with
  | s value =>
      refine congrArg Returned.s ((Variable.load_store_ofPointer sized _).trans ?_)
      cases value <;> rfl
  | i value =>
      have read := loadNumber_union (.i value) rfl value.toUInt32.toNat_lt
      have back : (UInt32.ofNat value.toUInt32.toNat).toInt32 = value := congrArg UInt32.toInt32 UInt32.ofNat_toNat
      simp only [Library.member, PropertyValue.type, PropertyValue.returned, read, Option.map_some, back]
  | u value =>
      have read := loadNumber_union (.u value) rfl value.toNat_lt
      simp [Library.member, PropertyValue.type, PropertyValue.returned, read]
  | t value =>
      have read := loadNumber_union (.t value) rfl value.toNat_lt
      simp [Library.member, PropertyValue.type, PropertyValue.returned, read]
  | x value =>
      have read := loadNumber_union (.x value) rfl value.toUInt64.toNat_lt
      have back : (UInt64.ofNat value.toUInt64.toNat).toInt64 = value := congrArg UInt64.toInt64 UInt64.ofNat_toNat
      simp only [Library.member, PropertyValue.type, PropertyValue.returned, read, Option.map_some, back]
  | b value => cases library <;> cases value <;> rfl
  | d bits =>
      have read := loadNumber_union (.d bits) rfl bits.toNat_lt
      simp [Library.member, PropertyValue.type, PropertyValue.returned, read]
  | strlist strings => exact congrArg Returned.strlist (Variable.load_store_ofPointer sized _)

/-! ## Tables -/

/-- A table that the library reads of some reply. -/
def Library.Decodes (library : Library) (table : Properties) : Prop :=
  ∃ message : Semantics.Message, (library.unmarshalAllProperties message.body).result = some table

/-- The value is of the property's type. -/
def Property.Tagged (prop : Property) : Prop := prop.val.type = prop.type

theorem readProperty_tagged (cases : DataType → Bool) (iter : Cursor) : (readProperty cases iter).1.Tagged := by
  unfold readProperty
  split
  · rfl
  · rename_i value first
    split
    · cases value <;> rfl
    · rfl

/-- All properties in a table are so. -/
theorem Library.Decodes.tagged {library : Library} {table : Properties} (decodes : library.Decodes table)
    {key : String} {prop : Property} (inside : (key, prop) ∈ table) : prop.Tagged := by
  obtain ⟨message, read⟩ := decodes
  have isTable : (readTable library.cases message.body).result = some table := by
    rw [← read]
    cases library <;> rfl
  unfold readTable at isTable
  split at isTable
  · obtain rfl := Option.some.inj isTable
    obtain ⟨entry, read, isEntry⟩ := List.mem_map.mp inside
    obtain ⟨data, -, rfl⟩ := List.mem_map.mp read
    obtain ⟨-, rfl⟩ := Prod.mk.inj isEntry
    exact readProperty_tagged library.cases _
  · cases isTable

/-! ## Promises -/

/-- What a getter should return for a property that was found, and `*err`. -/
def promised (type : PropertyType) : Option Property → Returned × Int32
  | some prop => if prop.type = type then (prop.val.returned, 0) else (neutral type, 1)
  | none => (neutral type, 1)

/-- The property behind a key, if there is a table with it. -/
def propertyOf (hash : PropertyHash) (properties : Option (Option Properties)) (key : String) : Option Property :=
  properties.join.bind fun table => hash.find table key

/-- A getter returns, and returns the stored value and no error if there is one of its type, otherwise
the neutral value and an error; and of a property it reads the member of the property's type. -/
structure Honours (type : PropertyType) (stored : Option Property) (got : Option Got) : Prop where
  outcome : ∃ result, got = some result ∧ (result.returned, result.err) =
    ((promised type stored).1, some (promised type stored).2)
  reads : ∀ result ∈ got, ∀ read ∈ result.read, read.1 = read.2

section Calls

variable (hash : PropertyHash) (library : Library) (type : PropertyType) {table : Properties} (key : String)
  (err : Int32)

theorem propertyFind_some {prop : Property} (found : hash.find table key = some prop) :
    propertyFind hash library type table (some key) (some err) =
      ⟨library.member type prop.val.union, some 0, some (prop.type, type)⟩ := by
  rw [propertyFind, Option.bind_some, found]
  rfl

theorem propertyFind_none (absent : hash.find table key = none) :
    propertyFind hash library type table (some key) (some err) = ⟨neutral type, some 1, none⟩ := by
  rw [propertyFind, Option.bind_some, absent]
  rfl

/-- Whatever property is found, the member that is read is that of the getter's type. -/
theorem propertyFind_honours_iff (decodes : library.Decodes table) :
    Honours type (hash.find table key) (some (propertyFind hash library type table (some key) (some err))) ↔
      ∀ prop, hash.find table key = some prop → prop.type = type := by
  cases found : hash.find table key with
  | none =>
      rw [propertyFind_none hash library type key err found]
      refine iff_of_true ?_ nofun
      constructor
      case outcome => exact ⟨_, rfl, rfl⟩
      case reads =>
        rintro result ⟨⟩ read ⟨⟩
  | some prop =>
      rw [propertyFind_some hash library type key err found]
      constructor
      · rintro ⟨-, reads⟩ other ⟨⟩
        exact reads _ rfl _ rfl
      · intro typed
        obtain rfl := typed prop rfl
        have tagged : prop.val.type = prop.type := decodes.tagged (hash.listed found)
        have returned : library.member prop.type prop.val.union = prop.val.returned := by
          rw [← tagged, member_union]
        constructor
        case outcome =>
          refine ⟨_, rfl, ?_⟩
          rw [promised, if_pos rfl, returned]
        case reads =>
          rintro result ⟨⟩ read ⟨⟩
          rfl

/-- Without a table there is an error that is not reported. -/
theorem not_honours_silent : ¬ Honours type none (some ⟨neutral type, some 0, none⟩) := by
  rintro ⟨⟨result, isResult, same⟩, -⟩
  obtain rfl := Option.some.inj isResult
  cases Option.some.inj (Prod.mk.inj same).2

/-- `NULL` is followed. -/
theorem not_honours_crash : ¬ Honours type none none := by
  rintro ⟨⟨result, isResult, -⟩, -⟩
  cases isResult

end Calls

/-- The getters of a library are one function. -/
theorem Library.getter_eq {hash : PropertyHash} {library : Library} {type : PropertyType} {getter : Getter}
    (isGetter : library.getter hash type = some getter) :
    getter = match library with
      | hal => Hal.propertyGet hash type
      | ukit => Ukit.propertyGet hash type := by
  cases library <;> cases type <;> first
    | exact (Option.some.inj isGetter).symm
    | cases isGetter

/-- A getter keeps what it promises if and only if there is a table and the key is missing in it or has a
property of the getter's type. -/
theorem getter_honours_iff (hash : PropertyHash) (library : Library) {type : PropertyType} {getter : Getter}
    (isGetter : library.getter hash type = some getter) {properties : Option (Option Properties)}
    (decoded : ∀ table, properties = some (some table) → library.Decodes table) (key : String) (err : Int32) :
    Honours type (propertyOf hash properties key) (getter properties (some key) (some err)) ↔
      ∃ table, properties = some (some table) ∧ ∀ prop, hash.find table key = some prop → prop.type = type := by
  have single := Library.getter_eq isGetter
  match properties with
  | none =>
      refine iff_of_false ?_ nofun
      cases library with
      | hal =>
          rw [single]
          exact not_honours_silent type
      | ukit =>
          rw [single]
          exact not_honours_crash type
  | some none =>
      refine iff_of_false ?_ nofun
      cases library <;>
        · rw [single]
          exact not_honours_silent type
  | some (some table) =>
      have called : getter (some (some table)) (some key) (some err) =
          some (propertyFind hash library type table (some key) (some err)) := by
        rw [single]
        cases library <;> rfl
      rw [called]
      constructor
      · intro honours
        exact ⟨table, rfl, (propertyFind_honours_iff hash library type key err (decoded table rfl)).mp honours⟩
      · rintro ⟨_, ⟨⟩, typed⟩
        exact (propertyFind_honours_iff hash library type key err (decoded table rfl)).mpr typed

/-- A reply with one number. -/
def batteryLevel : Semantics.Message where
  body := tableReply [("battery.level", .int32 7)]
  wellTyped := by simp [tableReply, entryData, Data.AllWellTyped, Data.WellTyped, Data.type]

/-- The table with it. -/
def batteryTable : Properties := [("battery.level", ⟨.int, .i 7⟩)]

theorem batteryTable_decodes : Library.hal.Decodes batteryTable :=
  ⟨batteryLevel, unmarshalAllProperties_reply .hal [("battery.level", .int32 7)]⟩

theorem getter_honours_iff_battery :
    Honours .int (propertyOf .first (some (some batteryTable)) "battery.level")
        (Hal.propertyIntGet .first (some (some batteryTable)) (some "battery.level") (some (-1))) ↔
      ∃ table, some (some batteryTable) = some (some table) ∧
        ∀ prop, PropertyHash.first.find table "battery.level" = some prop → prop.type = .int :=
  getter_honours_iff .first .hal rfl (fun _ same => Option.some.inj (Option.some.inj same) ▸ batteryTable_decodes)
    "battery.level" (-1)

/-- A number is returned as a pointer to a text. -/
theorem number_as_text :
    ¬ ∀ (hash : PropertyHash) (library : Library) (type : PropertyType) (getter : Getter)
        (properties : Option (Option Properties)) (key : String) (err : Int32),
      library.getter hash type = some getter →
        (∀ table, properties = some (some table) → library.Decodes table) →
          Honours type (propertyOf hash properties key) (getter properties (some key) (some err)) := by
  intro always
  have honours := always .first .hal .string (Hal.propertyStringGet .first) (some (some batteryTable))
    "battery.level" (-1) rfl
    fun _ same => Option.some.inj (Option.some.inj same) ▸ batteryTable_decodes
  have typed := honours.reads _ rfl _ rfl
  cases typed

end EDBus.Devices
