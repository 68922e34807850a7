import EDBus.Devices.PropertyTypes
import EDBus.Semantics.Keyed

/-!
# One property and all of them

A client can ask a daemon for one property or for all of them. Each library reads the two replies with
functions of their own, and the one of HAL for a single property has fewer cases than its sibling:
`decoders_agree_iff` finds the values that both read alike.
-/

open EDBus.Semantics
open EDBus.Dbus (Decoded)

namespace EDBus.Devices

/-- HAL, and the UKit daemons. -/
inductive Library where
  | hal
  | ukit
deriving DecidableEq, Repr

/-! ## Hashes -/

/-- A hash table as `eina_hash_find` shows it. Of several entries with one key it shows one. -/
structure PropertyHash where
  find : Properties → String → Option Property
  listed : ∀ {table : Properties} {key : String} {prop : Property}, find table key = some prop → (key, prop) ∈ table
  complete : ∀ {table : Properties} {key : String}, key ∈ table.map Prod.fst → find table key ≠ none

/-- A hash that shows the entry that was added first. -/
def PropertyHash.first : PropertyHash where
  find table key := table.lookup key
  listed := Keyed.mem_of_lookup
  complete {table key} isKey absent := by
    obtain ⟨⟨own, prop⟩, inside, rfl⟩ := List.mem_map.mp isKey
    have other := List.lookup_eq_none_iff.mp absent _ inside
    simp at other

/-- A key that is there once is found with its property. -/
theorem PropertyHash.find_of_mem (hash : PropertyHash) {table : Properties}
    (distinct : (table.map Prod.fst).Nodup) {key : String} {prop : Property} (inside : (key, prop) ∈ table) :
    hash.find table key = some prop := by
  obtain ⟨found, isFound⟩ := Option.ne_none_iff_exists'.mp (hash.complete (List.mem_map_of_mem (f := Prod.fst) inside))
  have same := (Keyed.lookup_of_mem distinct (hash.listed isFound)).symm.trans (Keyed.lookup_of_mem distinct inside)
  exact isFound.trans same

namespace Library

/-! ## The readers of a library -/

/-- The cases of the reader of all properties. -/
def cases : Library → DataType → Bool
  | hal => halCases
  | ukit => ukitCases

/-- The cases of the reader of a single property. -/
def propertyCases : Library → DataType → Bool
  | hal => halPropertyCases
  | ukit => ukitCases

/-- The reader of a single property. -/
def unmarshalProperty : Library → List Data → Decoded Property
  | hal => Hal.unmarshalDeviceGetProperty
  | ukit => Ukit.unmarshalProperty

/-- The reader of all properties. -/
def unmarshalAllProperties : Library → List Data → Decoded Properties
  | hal => Hal.unmarshalDeviceGetAllProperties
  | ukit => Ukit.unmarshalDeviceGetAllProperties

/-- The reply with a single value, which is bare in HAL and in a variant in UKit. -/
def propertyReply : Library → Data → List Data
  | hal, value => [value]
  | ukit, value => [.variant value]

/-- The types that the library has properties for. -/
def supports : Library → DataType → Bool
  | _, .string => true
  | _, .int32 => true
  | _, .uint64 => true
  | _, .boolean => true
  | _, .double => true
  | _, .array item => item = .string
  | ukit, .objectPath => true
  | ukit, .uint32 => true
  | ukit, .int64 => true
  | _, _ => false

end Library

/-- The reply with all properties. -/
def tableReply (entries : List (String × Data)) : List Data :=
  [.array (.dictEntry .string .variant) (entries.map entryData)]

/-! ## Agreement -/

/-- The property that is read of a reply with the value is the one that the other reader stores under the
key in its table. -/
def Agree (hash : PropertyHash) (library : Library) (key : String) (value : Data) (entries : List (String × Data)) :
    Prop :=
  ∃ prop table, (library.unmarshalProperty (library.propertyReply value)).result = some prop ∧
    (library.unmarshalAllProperties (tableReply entries)).result = some table ∧ hash.find table key = some prop

theorem unmarshalProperty_reply (library : Library) (value : Data) :
    (library.unmarshalProperty (library.propertyReply value)).result =
      some (readProperty library.propertyCases [value]).1 := by
  cases library <;> rfl

theorem unmarshalAllProperties_reply (library : Library) (entries : List (String × Data)) :
    (library.unmarshalAllProperties (tableReply entries)).result =
      some (entries.map fun entry => (entry.1, (readProperty library.cases [entry.2]).1)) := by
  have read : library.unmarshalAllProperties (tableReply entries) = readTable library.cases (tableReply entries) := by
    cases library <;> rfl
  have isBody : tableReply entries = [.array (.dictEntry .string .variant) (entries.map entryData)] := rfl
  rw [read, readTable_entries library.cases isBody]

/-- Whatever else is in the table does not matter. -/
theorem agree_iff_same (hash : PropertyHash) (library : Library) {key : String} {value : Data}
    {entries : List (String × Data)} (distinct : (entries.map Prod.fst).Nodup) (inside : (key, value) ∈ entries) :
    Agree hash library key value entries ↔
      (readProperty library.propertyCases [value]).1 = (readProperty library.cases [value]).1 := by
  have keys : (entries.map fun entry => (entry.1, (readProperty library.cases [entry.2]).1)).map Prod.fst =
      entries.map Prod.fst := List.map_map ..
  have stored := hash.find_of_mem (keys ▸ distinct)
    (List.mem_map_of_mem (f := fun entry => (entry.1, (readProperty library.cases [entry.2]).1)) inside)
  constructor
  · rintro ⟨prop, table, single, all, found⟩
    obtain rfl := Option.some.inj ((unmarshalProperty_reply library value).symm.trans single)
    obtain rfl := Option.some.inj ((unmarshalAllProperties_reply library entries).symm.trans all)
    exact Option.some.inj (found.symm.trans stored)
  · intro same
    refine ⟨_, _, unmarshalProperty_reply library value, unmarshalAllProperties_reply library entries, ?_⟩
    rw [same]
    exact stored

/-- The two functions of HAL. A value without a case is a property that has no type. -/
theorem hal_same_iff {value : Data} (supported : Library.hal.supports value.type = true) :
    (readProperty halPropertyCases [value]).1 = (readProperty halCases [value]).1 ↔
      value.type ≠ .uint64 ∧ value.type ≠ .array .string := by
  cases value with
  | string text => exact iff_of_true rfl ⟨nofun, nofun⟩
  | int32 number => exact iff_of_true rfl ⟨nofun, nofun⟩
  | boolean truth => exact iff_of_true rfl ⟨nofun, nofun⟩
  | double bits => exact iff_of_true rfl ⟨nofun, nofun⟩
  | uint64 number =>
      refine iff_of_false (fun same => ?_) fun others => others.1 rfl
      cases congrArg Property.type same
  | array item items =>
      have isString : item = .string := by simpa [Library.supports, Data.type] using supported
      subst isString
      refine iff_of_false (fun same => ?_) fun others => others.2 rfl
      cases congrArg Property.type same
  | _ => exact nomatch supported

/-- The reader of a single property and that of all properties give a value the same type and content,
whatever its key and the other properties are: always in UKit, and in HAL if and only if the value is
neither a `uint64` nor an array of strings. -/
theorem decoders_agree_iff (hash : PropertyHash) (library : Library) {key : String} {value : Data}
    (supported : library.supports value.type = true) {entries : List (String × Data)}
    (distinct : (entries.map Prod.fst).Nodup) (inside : (key, value) ∈ entries) :
    Agree hash library key value entries ↔
      (library = .hal → value.type ≠ .uint64 ∧ value.type ≠ .array .string) := by
  rw [agree_iff_same hash library distinct inside]
  cases library with
  | hal =>
      rw [forall_prop_of_true rfl]
      exact hal_same_iff supported
  | ukit => exact iff_of_true rfl nofun

theorem decoders_agree_iff_product :
    Agree PropertyHash.first .hal "info.product" (.string "Disk")
        [("volume.size", .uint64 512), ("info.product", .string "Disk")] ↔
      (Library.hal = .hal → (Data.string "Disk").type ≠ .uint64 ∧ (Data.string "Disk").type ≠ .array .string) :=
  decoders_agree_iff PropertyHash.first .hal rfl (by decide) (by simp)

/-- The size of a volume is a string without a text if it is asked for alone. -/
theorem volume_size_lost :
    ¬ ∀ (hash : PropertyHash) (library : Library) (key : String) (value : Data) (entries : List (String × Data)),
      library.supports value.type = true → (entries.map Prod.fst).Nodup → (key, value) ∈ entries →
        Agree hash library key value entries := by
  intro always
  have agree := always .first .hal "volume.size" (.uint64 512) [("volume.size", .uint64 512)] rfl (by decide)
    (by simp)
  have same := (agree_iff_same .first .hal (by decide) (by simp)).mp agree
  cases congrArg Property.type same

end EDBus.Devices
