import EDBus.Elements.Store
import EDBus.Semantics.Holdings
import Mathlib.Data.List.Nodup
import Mathlib.Data.List.Induction

/-!
# The property store of a connman element

`_e_connman_element_property_update` keeps a property in a union next to its type, and
owns a stringshare reference to each string in it. `PropertyList` has the properties of
an element and the references that were added for them; strings that are shared are
equal if and only if their pointers are.
-/

open EDBus.Semantics

namespace EDBus.Elements.Connman

/-- `property->type`. -/
inductive PropertyType where
  | boolean
  | byte
  | uint16
  | uint32
  | string
  | objectPath
  | array
  | other (type : OtherType)
deriving DecidableEq, Repr

/-- The union `property->value`. It is `zero` after `memset`. -/
inductive PropertyData where
  | zero
  | boolean (value : Bool)
  | byte (value : UInt8)
  | u16 (value : UInt16)
  | u32 (value : UInt32)
  | str (value : String)
  | path (value : String)
  | array (value : Option ElementArray)
deriving DecidableEq, Repr

/-- `E_Connman_Element_Property`. The type is 0, here `none`, before the first update. -/
structure ElementProperty where
  name : String
  type : Option PropertyType
  value : PropertyData
deriving DecidableEq, Repr

/-- `element->props`, and the stringshare references added for them and not deleted. -/
structure PropertyList where
  props : List ElementProperty
  shares : Holdings String

/-- An element without properties. -/
def PropertyList.empty : PropertyList := ⟨[], fun _ => 0⟩

/-! ## What is received -/

/-- The D-Bus type of a value. -/
def wireType : Wire → PropertyType
  | .basic (.boolean _) => .boolean
  | .basic (.byte _) => .byte
  | .basic (.int16 _) => .other .int16
  | .basic (.uint16 _) => .uint16
  | .basic (.uint32 _) => .uint32
  | .basic (.string _) => .string
  | .basic (.objectPath _) => .objectPath
  | .array _ => .array
  | .other type _ => .other type

/-- The pointer that is stored for a value; those of other types are not. -/
def wireData : Wire → PropertyData
  | .basic (.boolean value) => .boolean value
  | .basic (.byte value) => .byte value
  | .basic (.int16 _) => .zero
  | .basic (.uint16 value) => .u16 value
  | .basic (.uint32 value) => .u32 value
  | .basic (.string value) => .str value
  | .basic (.objectPath value) => .path value
  | .array items => .array (arrayBuild .connman items)
  | .other _ _ => .zero

/-! ## Arrays -/

/-- `_e_connman_element_dict_entry_free`. -/
def dictEntryFree (shares : Holdings String) (entry : DictEntry) : Holdings String :=
  match entry.value with
  | .objectPath path => (shares.release path).release entry.name
  | .string str => (shares.release str).release entry.name
  | _ => shares.release entry.name

/-- An item of an array is freed. -/
def itemFree (type : ArrayType) (shares : Holdings String) (item : Item) : Holdings String :=
  match type, item with
  | .string, .str str => shares.release str
  | .objectPath, .str path => shares.release path
  | .dictEntry, .entry entry => dictEntryFree shares entry
  | _, _ => shares

/-- `_e_connman_element_array_free`. -/
def arrayFree (shares : Holdings String) : Option ElementArray → Holdings String
  | none => shares
  | some array => array.items.foldl (itemFree array.type) shares

/-- The references that `_e_connman_element_dict_entry_new` adds. -/
def dictEntryShare (shares : Holdings String) (entry : DictEntry) : Holdings String :=
  match entry.value with
  | .objectPath path => (shares.acquire path).acquire entry.name
  | .string str => (shares.acquire str).acquire entry.name
  | _ => shares.acquire entry.name

/-- The references that `_e_connman_element_iter_get_array` adds for an array. -/
def iterGetArray (shares : Holdings String) : WireArray → Holdings String
  | .empty => shares
  | .objectPaths first rest => (first :: rest).foldl Holdings.acquire shares
  | .strings first rest => (first :: rest).foldl Holdings.acquire shares
  | .bytes _ _ => shares
  | .entries first rest =>
    ((first :: rest).filterMap (dictEntryNew .connman)).foldl dictEntryShare shares
  | .other => shares

/-! ## Properties -/

/-- `_e_connman_element_property_value_free`. -/
def propertyValueFree (shares : Holdings String) (property : ElementProperty) : Holdings String :=
  match property.type, property.value with
  | some .string, .str str => shares.release str
  | some .objectPath, .path path => shares.release path
  | some .array, .array array => arrayFree shares array
  | _, _ => shares

/-- What `_e_connman_element_property_update` works on. -/
structure Updating where
  shares : Holdings String
  property : ElementProperty
  changed : Bool

/-- The property gets its new type, and the old value is freed if that is another one. -/
def Updating.retype (update : Updating) (type : PropertyType) : Updating :=
  if update.property.type = some type then update
  else
    { shares := propertyValueFree update.shares update.property
      property := { update.property with type := some type, value := .zero }
      changed := true }

/-- The value is another one. -/
def Updating.assign (update : Updating) (data : PropertyData) : Updating :=
  { update with property := { update.property with value := data }, changed := true }

/-- A scalar is compared with the one that is stored. -/
def Updating.scalar (update : Updating) (data : PropertyData) : Updating :=
  if update.changed ∨ update.property.value ≠ data then update.assign data else update

/-- A string or a path is compared with the one that is stored, after the reference to
that was deleted. -/
def Updating.string (update : Updating) (data : PropertyData) : Updating :=
  if update.changed then update.assign data
  else
    let released := { update with
      shares := match update.property.value with
        | .str str => update.shares.release str
        | .path path => update.shares.release path
        | _ => update.shares }
    if update.property.value ≠ data then released.assign data else released

/-- An array takes the place of the one that is stored. `_e_connman_element_array_match`
is about other elements. -/
def Updating.array (update : Updating) (data : PropertyData) : Updating :=
  if update.changed then update.assign data
  else
    { update with
      shares := match update.property.value with
        | .array array => arrayFree update.shares array
        | _ => update.shares }.assign data

/-- The reference that a new string or path gets. -/
def dataShare (shares : Holdings String) (type : PropertyType) (data : PropertyData) : Holdings String :=
  match type, data with
  | .string, .str str => shares.acquire str
  | .objectPath, .path path => shares.acquire path
  | _, _ => shares

/-- The value is stored by its type. -/
def Updating.store (update : Updating) (type : PropertyType) (data : PropertyData) : Updating :=
  match type with
  | .boolean => update.scalar data
  | .byte => update.scalar data
  | .uint16 => update.scalar data
  | .uint32 => update.scalar data
  | .string => update.string data
  | .objectPath => update.string data
  | .array => update.array data
  | .other _ => update

/-- `_e_connman_element_property_update`. -/
def propertyUpdate (shares : Holdings String) (property : ElementProperty) (type : PropertyType)
    (data : PropertyData) : Updating :=
  (Updating.retype ⟨dataShare shares type data, property, false⟩ type).store type data

/-- `_e_connman_element_property_new`. -/
def propertyNew (shares : Holdings String) (name : String) (type : PropertyType) (data : PropertyData) :
    Updating :=
  propertyUpdate shares ⟨name, none, .zero⟩ type data

/-- The loop of `_e_connman_element_property_value_add` over `element->props`. -/
def propertyFindUpdate (shares : Holdings String) (name : String) (type : PropertyType)
    (data : PropertyData) : List ElementProperty → Option (PropertyList × Bool)
  | [] => none
  | property :: rest =>
    if property.name = name then
      let update := propertyUpdate (shares.release name) property type data
      some (⟨update.property :: rest, update.shares⟩, update.changed)
    else
      (propertyFindUpdate shares name type data rest).map fun found =>
        ({ found.1 with props := property :: found.1.props }, found.2)

/-- `_e_connman_element_property_value_add`, and what it returns. -/
def propertyValueAdd (element : PropertyList) (name : String) (type : PropertyType)
    (data : PropertyData) : PropertyList × Bool :=
  let shares := element.shares.acquire name
  match propertyFindUpdate shares name type data element.props with
  | some found => found
  | none =>
    let added := propertyNew shares name type data
    (⟨element.props ++ [added.property], added.shares⟩, true)

/-- `e_connman_element_property_get_stringshared`: the type and the value, or `EINA_FALSE`. -/
def propertyGet (element : PropertyList) (name : String) : Option (PropertyType × PropertyData) :=
  match element.props.find? fun property => property.name == name with
  | none => none
  | some property =>
    match property.type with
    | none => none
    | some (.other _) => none
    | some type => some (type, property.value)

/-- The references that decoding a value adds. -/
def wireBuild (shares : Holdings String) : Wire → Holdings String
  | .array items => iterGetArray shares items
  | _ => shares

/-- A received value is decoded and added. -/
def valueReceive (element : PropertyList) (name : String) (wire : Wire) : PropertyList × Bool :=
  propertyValueAdd { element with shares := wireBuild element.shares wire } name (wireType wire)
    (wireData wire)

/-! ## References to strings -/

/-- The strings that a dict entry owns a reference to. -/
def entryStrings (entry : DictEntry) : List String :=
  match entry.value with
  | .objectPath path => [path, entry.name]
  | .string str => [str, entry.name]
  | _ => [entry.name]

/-- The strings that an item of an array owns references to. -/
def itemStrings : Item → List String
  | .str text => [text]
  | .byte _ => []
  | .entry entry => entryStrings entry

/-- The strings that a value owns references to. -/
def PropertyData.strings : PropertyData → List String
  | .str text => [text]
  | .path text => [text]
  | .array (some items) => items.items.flatMap itemStrings
  | _ => []

/-- The strings that an element owns references to, names included. -/
def PropertyList.strings (element : PropertyList) : List String :=
  element.props.flatMap fun property => property.name :: property.value.strings

theorem dictEntryFree_eq (shares : Holdings String) (entry : DictEntry) :
    dictEntryFree shares entry = shares.releaseAll (entryStrings entry) := by
  unfold dictEntryFree entryStrings
  split <;> rfl

theorem dictEntryShare_eq (shares : Holdings String) (entry : DictEntry) :
    dictEntryShare shares entry = shares.acquireAll (entryStrings entry) := by
  unfold dictEntryShare entryStrings
  split <;> rfl

/-- Bytes own no reference. -/
theorem bytes_strings (bytes : List UInt8) : (bytes.filterMap byteItem).flatMap itemStrings = [] := by
  rw [List.flatMap_eq_nil_iff]
  intro item listed
  obtain ⟨byte, -, built⟩ := List.mem_filterMap.mp listed
  unfold byteItem at built
  split at built
  · cases built
  · obtain rfl := Option.some.inj built
    rfl

theorem foldl_itemFree_byte (shares : Holdings String) (items : List Item) :
    items.foldl (itemFree .byte) shares = shares := by
  induction items with
  | nil => rfl
  | cons item rest ih => exact ih

/-- What was built for an array is freed with it. -/
theorem arrayFree_build (shares : Holdings String) (items : WireArray) :
    arrayFree shares (arrayBuild .connman items) =
      shares.releaseAll (wireData (.array items)).strings := by
  cases items with
  | empty => rfl
  | objectPaths first rest =>
      simp only [arrayBuild, arrayFree, wireData, PropertyData.strings, List.foldl_map, List.flatMap_map,
        itemStrings, List.flatMap_singleton', Holdings.releaseAll]
      rfl
  | strings first rest =>
      simp only [arrayBuild, arrayFree, wireData, PropertyData.strings, List.foldl_map, List.flatMap_map,
        itemStrings, List.flatMap_singleton', Holdings.releaseAll]
      rfl
  | bytes first rest =>
      have none := bytes_strings (first :: rest)
      simp only [arrayBuild, arrayFree, wireData, PropertyData.strings, none, foldl_itemFree_byte]
      rfl
  | entries first rest =>
      simp only [arrayBuild, arrayFree, wireData, PropertyData.strings, List.foldl_map, List.flatMap_map,
        itemStrings, itemFree, dictEntryFree_eq]
      exact Holdings.foldl_releaseAll entryStrings shares _
  | other => rfl

theorem iterGetArray_eq (shares : Holdings String) (items : WireArray) :
    iterGetArray shares items = shares.acquireAll (wireData (.array items)).strings := by
  cases items with
  | empty => rfl
  | objectPaths first rest =>
      simp only [iterGetArray, arrayBuild, wireData, PropertyData.strings, List.flatMap_map, itemStrings,
        List.flatMap_singleton', Holdings.acquireAll]
  | strings first rest =>
      simp only [iterGetArray, arrayBuild, wireData, PropertyData.strings, List.flatMap_map, itemStrings,
        List.flatMap_singleton', Holdings.acquireAll]
  | bytes first rest =>
      have none := bytes_strings (first :: rest)
      simp only [arrayBuild, wireData, PropertyData.strings, none]
      rfl
  | entries first rest =>
      have each : dictEntryShare = fun shares entry => shares.acquireAll (entryStrings entry) :=
        funext fun shares => funext fun entry => dictEntryShare_eq shares entry
      simp only [iterGetArray, arrayBuild, wireData, PropertyData.strings, List.flatMap_map, itemStrings,
        each]
      exact Holdings.foldl_acquireAll entryStrings shares _
  | other => rfl

/-! ## One update -/

/-- The property that a value leaves behind. -/
def propertyOf (name : String) (wire : Wire) : ElementProperty := ⟨name, some (wireType wire), wireData wire⟩

/-- The update counts as a change: another type, another scalar, string or path, or an array. -/
def differs (stored received : Wire) : Bool :=
  wireType stored ≠ wireType received ∨ wireType received = .array ∨
    wireData stored ≠ wireData received

/-- The references that are added for a value, all but those of an array, which is built
before. -/
def wireShare (shares : Holdings String) : Wire → Holdings String
  | .array _ => shares
  | wire => shares.acquireAll (wireData wire).strings

theorem dataShare_of (shares : Holdings String) (wire : Wire) :
    dataShare shares (wireType wire) (wireData wire) = wireShare shares wire := by
  cases wire with
  | basic value => cases value <;> rfl
  | array items => rfl
  | other type isZero => rfl

theorem propertyValueFree_of (shares : Holdings String) (name : String) (wire : Wire) :
    propertyValueFree shares (propertyOf name wire) = shares.releaseAll (wireData wire).strings := by
  cases wire with
  | basic value => cases value <;> rfl
  | array items => exact arrayFree_build shares items
  | other type isZero => rfl

/-- A value of another type takes the place of a stored one. -/
theorem retype_of (shares : Holdings String) (name : String) (stored : Wire) (type : PropertyType)
    (other : wireType stored ≠ type) :
    Updating.retype ⟨shares, propertyOf name stored, false⟩ type =
      ⟨shares.releaseAll (wireData stored).strings, ⟨name, some type, .zero⟩, true⟩ := by
  have differs : ¬ some (wireType stored) = some type := fun same => other (Option.some.inj same)
  unfold Updating.retype
  rw [show (propertyOf name stored).type = some (wireType stored) from rfl, if_neg differs,
    propertyValueFree_of]
  rfl

theorem retype_same (shares : Holdings String) (name : String) (stored : Wire) :
    Updating.retype ⟨shares, propertyOf name stored, false⟩ (wireType stored) =
      ⟨shares, propertyOf name stored, false⟩ := if_pos rfl

/-- What is stored first, or after another type, is stored as it is. -/
theorem store_changed (shares : Holdings String) (name : String) (received : Wire) :
    Updating.store ⟨shares, ⟨name, some (wireType received), .zero⟩, true⟩ (wireType received)
        (wireData received) = ⟨shares, propertyOf name received, true⟩ := by
  cases received with
  | basic value => cases value <;> rfl
  | array items => rfl
  | other type isZero => rfl

/-- Values of one type that is not an array are compared. -/
theorem differs_same {stored received : Wire} (same : wireType stored = wireType received)
    (notArray : wireType received ≠ .array) :
    differs stored received = decide (wireData stored ≠ wireData received) := by
  simp [differs, same, notArray]

theorem propertyOf_congr (name : String) {stored received : Wire}
    (same : wireType stored = wireType received) (equal : wireData stored = wireData received) :
    propertyOf name stored = propertyOf name received := by
  rw [propertyOf, propertyOf, same, equal]

theorem scalar_same (shares : Holdings String) (name : String) {stored received : Wire}
    (same : wireType stored = wireType received) (notArray : wireType received ≠ .array) :
    Updating.scalar ⟨shares, propertyOf name stored, false⟩ (wireData received) =
      ⟨shares, propertyOf name received, differs stored received⟩ := by
  rw [differs_same same notArray]
  unfold Updating.scalar
  by_cases equal : wireData stored = wireData received
  · have kept : ¬ (false = true ∨ (propertyOf name stored).value ≠ wireData received) := by
      rw [not_or]
      exact ⟨Bool.false_ne_true, not_not.mpr equal⟩
    rw [if_neg kept, propertyOf_congr name same equal]
    simp [equal]
  · have replaced : false = true ∨ (propertyOf name stored).value ≠ wireData received := .inr equal
    rw [if_pos replaced]
    simp [Updating.assign, propertyOf, same, equal]

/-- Scalars own no reference. -/
theorem strings_of_scalar {stored : Wire} (notString : wireType stored ≠ .string)
    (notPath : wireType stored ≠ .objectPath) (notArray : wireType stored ≠ .array) :
    (wireData stored).strings = [] := by
  cases stored with
  | basic value =>
      cases value with
      | string str => exact absurd rfl notString
      | objectPath path => exact absurd rfl notPath
      | _ => rfl
  | array items => exact absurd rfl notArray
  | other type isZero => rfl

theorem release_of (shares : Holdings String) {stored : Wire} (notArray : wireType stored ≠ .array) :
    (match wireData stored with
      | .str str => shares.release str
      | .path path => shares.release path
      | _ => shares) = shares.releaseAll (wireData stored).strings := by
  cases stored with
  | basic value => cases value <;> rfl
  | array items => exact absurd rfl notArray
  | other type isZero => rfl

theorem string_same (shares : Holdings String) (name : String) {stored received : Wire}
    (same : wireType stored = wireType received) (notArray : wireType received ≠ .array) :
    Updating.string ⟨shares, propertyOf name stored, false⟩ (wireData received) =
      ⟨shares.releaseAll (wireData stored).strings, propertyOf name received, differs stored received⟩ := by
  rw [differs_same same notArray, ← release_of shares (same ▸ notArray)]
  unfold Updating.string
  simp only [Bool.false_eq_true, if_false]
  by_cases equal : wireData stored = wireData received
  · have kept : ¬ (propertyOf name stored).value ≠ wireData received := not_not.mpr equal
    rw [if_neg kept, propertyOf_congr name same equal]
    simp [propertyOf, equal]
  · have replaced : (propertyOf name stored).value ≠ wireData received := equal
    rw [if_pos replaced]
    simp [Updating.assign, propertyOf, same, equal]

/-- Values of a type that is not supported are not stored. -/
theorem other_same {stored received : Wire} {type : OtherType} (storedType : wireType stored = .other type)
    (receivedType : wireType received = .other type) (name : String) :
    propertyOf name stored = propertyOf name received ∧ (wireData stored).strings = [] ∧
      differs stored received = false := by
  have zero : ∀ {wire : Wire}, wireType wire = .other type → wireData wire = .zero := by
    intro wire isOther
    cases wire with
    | basic value => cases value <;> first | rfl | exact nomatch isOther
    | array items => exact nomatch isOther
    | other type isZero => rfl
  refine ⟨?_, ?_, ?_⟩
  · rw [propertyOf, propertyOf, storedType, receivedType, zero storedType, zero receivedType]
  · rw [zero storedType]
    rfl
  · simp [differs, storedType, receivedType, zero storedType, zero receivedType]

/-- A value of the stored type gives the stored references back, and is compared. -/
theorem store_same (shares : Holdings String) (name : String) (stored received : Wire)
    (same : wireType stored = wireType received) :
    Updating.store ⟨shares, propertyOf name stored, false⟩ (wireType received) (wireData received) =
      ⟨shares.releaseAll (wireData stored).strings, propertyOf name received, differs stored received⟩ := by
  cases kind : wireType received with
  | other type =>
      obtain ⟨kept, none, unchanged⟩ := other_same (same.trans kind) kind name
      rw [none, unchanged, ← kept]
      rfl
  | array =>
      cases stored with
      | array old =>
          have changed : differs (.array old) received = true := by simp [differs, kind]
          rw [changed, ← arrayFree_build, propertyOf.eq_def name received, kind]
          rfl
      | basic old => cases old <;> exact nomatch same.trans kind
      | other type isZero => exact nomatch same.trans kind
  | string => exact string_same shares name same (by simp [kind])
  | objectPath => exact string_same shares name same (by simp [kind])
  | _ =>
      rw [strings_of_scalar (by simp [same, kind]) (by simp [same, kind]) (by simp [same, kind])]
      exact scalar_same shares name same (by simp [kind])

/-- An update frees what was stored, and leaves what was received. -/
theorem propertyUpdate_of (shares : Holdings String) (name : String) (stored received : Wire) :
    propertyUpdate shares (propertyOf name stored) (wireType received) (wireData received) =
      ⟨(wireShare shares received).releaseAll (wireData stored).strings, propertyOf name received,
        differs stored received⟩ := by
  rw [propertyUpdate, dataShare_of]
  by_cases same : wireType stored = wireType received
  · rw [← same, retype_same, same]
    exact store_same _ name stored received same
  · have changed : differs stored received = true := by simp [differs, same]
    rw [retype_of _ name stored _ same, store_changed, changed]

/-- The first update of a property leaves what was received. -/
theorem propertyNew_of (shares : Holdings String) (name : String) (received : Wire) :
    propertyNew shares name (wireType received) (wireData received) =
      ⟨wireShare shares received, propertyOf name received, true⟩ := by
  rw [propertyNew, propertyUpdate, dataShare_of]
  exact store_changed _ name received

/-- Between them the building and the update of a value add its references. -/
theorem wireShare_apply (built shares : Holdings String) (wire : Wire) (text : String) :
    wireShare shares wire text - shares text + (wireBuild built wire text - built text) =
      (wireData wire).strings.count text := by
  cases wire with
  | array items =>
      simp only [wireShare, wireBuild, iterGetArray_eq, Holdings.acquireAll_apply]
      omega
  | basic value =>
      simp only [wireShare, wireBuild, Holdings.acquireAll_apply]
      omega
  | other type isZero =>
      simp only [wireShare, wireBuild, Holdings.acquireAll_apply]
      omega

/-! ## The list of properties -/

theorem propertyFindUpdate_none (shares : Holdings String) (type : PropertyType) (data : PropertyData)
    {name : String} {props : List ElementProperty} (unknown : name ∉ props.map ElementProperty.name) :
    propertyFindUpdate shares name type data props = none := by
  induction props with
  | nil => rfl
  | cons property rest ih =>
      rw [List.map_cons, List.mem_cons, not_or] at unknown
      rw [propertyFindUpdate, if_neg (Ne.symm unknown.1), ih unknown.2]
      rfl

/-- The first property of the name is updated, and the others stay. -/
theorem propertyFindUpdate_some (shares : Holdings String) (type : PropertyType) (data : PropertyData)
    {name : String} {before after : List ElementProperty} {property : ElementProperty}
    (found : property.name = name) (first : name ∉ before.map ElementProperty.name) :
    propertyFindUpdate shares name type data (before ++ property :: after) =
      some (⟨before ++ (propertyUpdate (shares.release name) property type data).property :: after,
        (propertyUpdate (shares.release name) property type data).shares⟩,
        (propertyUpdate (shares.release name) property type data).changed) := by
  induction before with
  | nil => rw [List.nil_append, propertyFindUpdate, if_pos found, List.nil_append]
  | cons other rest ih =>
      rw [List.map_cons, List.mem_cons, not_or] at first
      rw [List.cons_append, propertyFindUpdate, if_neg (Ne.symm first.1), ih first.2]
      rfl

/-- The value that was received last for each name. -/
def lastReceived (updates : List (String × Wire)) : String → Option Wire :=
  updates.foldl (fun last update => Function.update last update.1 (some update.2)) fun _ => none

/-- The properties of an element that received values. -/
def receiveAll (updates : List (String × Wire)) : PropertyList :=
  updates.foldl (fun element update => (valueReceive element update.1 update.2).1) .empty

/-- The value changes the property. -/
def Changes (stored : Option Wire) (received : Wire) : Prop :=
  match stored with
  | none => True
  | some stored => wireType stored ≠ wireType received ∨ wireType received = .array ∨
      wireData stored ≠ wireData received

/-- What a property reads as. -/
def readable (wire : Wire) : Option (PropertyType × PropertyData) :=
  match wireType wire with
  | .other _ => none
  | type => some (type, wireData wire)

/-- The properties are the values received last, one for each name, and own one reference to
each string in them. -/
structure Represents (element : PropertyList) (last : String → Option Wire) : Prop where
  distinct : (element.props.map ElementProperty.name).Nodup
  stored : ∀ property ∈ element.props, ∃ wire, last property.name = some wire ∧
    property = propertyOf property.name wire
  known : ∀ name wire, last name = some wire → name ∈ element.props.map ElementProperty.name
  owned : ∀ text, element.shares text = element.strings.count text

theorem empty_represents : Represents .empty fun _ => none where
  distinct := List.nodup_nil
  stored _ listed := by cases listed
  known _ _ last := by cases last
  owned _ := rfl

/-- What a property among others owns. -/
theorem count_strings (before after : List ElementProperty) (name : String) (wire : Wire)
    (shares : Holdings String) (text : String) :
    (PropertyList.strings ⟨before ++ propertyOf name wire :: after, shares⟩).count text =
      (PropertyList.strings ⟨before, shares⟩).count text + (if name = text then 1 else 0) +
        (wireData wire).strings.count text + (PropertyList.strings ⟨after, shares⟩).count text := by
  have here : (PropertyList.strings ⟨before ++ propertyOf name wire :: after, shares⟩) =
      PropertyList.strings ⟨before, shares⟩ ++
        ((name :: (wireData wire).strings) ++ PropertyList.strings ⟨after, shares⟩) := by
    rw [PropertyList.strings, List.flatMap_append, List.flatMap_cons]
    rfl
  rw [here, List.count_append, List.count_append, List.count_cons]
  simp only [beq_iff_eq]
  omega

/-- A name that was never received joins the properties. -/
theorem Represents.new {element : PropertyList} {last : String → Option Wire}
    (represents : Represents element last) {name : String} (unknown : last name = none) (wire : Wire) :
    Represents (valueReceive element name wire).1 (Function.update last name (some wire)) ∧
      (valueReceive element name wire).2 = true := by
  have absent : name ∉ element.props.map ElementProperty.name := by
    intro listed
    obtain ⟨property, inProps, rfl⟩ := List.mem_map.mp listed
    obtain ⟨stored, isLast, -⟩ := represents.stored property inProps
    rw [unknown] at isLast
    cases isLast
  have received : valueReceive element name wire =
      (⟨element.props ++ [propertyOf name wire],
        wireShare ((wireBuild element.shares wire).acquire name) wire⟩, true) := by
    rw [valueReceive, propertyValueAdd, propertyFindUpdate_none _ _ _ absent, propertyNew_of]
  rw [received]
  refine ⟨⟨?_, ?_, ?_, ?_⟩, rfl⟩
  · rw [List.map_append, List.map_singleton, List.nodup_append_comm]
    exact List.nodup_cons.mpr ⟨absent, represents.distinct⟩
  · intro property listed
    rcases List.mem_append.mp listed with old | new
    · have other : property.name ≠ name := by
        rintro rfl
        exact absent (List.mem_map.mpr ⟨property, old, rfl⟩)
      rw [Function.update_of_ne other]
      exact represents.stored property old
    · obtain rfl := List.mem_singleton.mp new
      exact ⟨wire, Function.update_self .., rfl⟩
  · intro other value last
    rw [List.map_append, List.mem_append]
    by_cases here : other = name
    · exact .inr (by simp [here, propertyOf])
    · rw [Function.update_of_ne here] at last
      exact .inl (represents.known other value last)
  · intro text
    have added := wireShare_apply element.shares ((wireBuild element.shares wire).acquire name) wire text
    have named := Holdings.acquire_apply (wireBuild element.shares wire) name text
    have owned := represents.owned text
    have total := count_strings element.props [] name wire element.shares text
    change _ = ((PropertyList.strings ⟨element.props ++ [propertyOf name wire], element.shares⟩).count text : Int)
    rw [total]
    simp only [PropertyList.strings, List.flatMap_nil, List.count_nil] at owned ⊢
    split_ifs at named ⊢ <;> omega

/-- A name that was received before is updated. -/
theorem Represents.update {element : PropertyList} {last : String → Option Wire}
    (represents : Represents element last) {name : String} {stored : Wire}
    (known : last name = some stored) (wire : Wire) :
    Represents (valueReceive element name wire).1 (Function.update last name (some wire)) ∧
      (valueReceive element name wire).2 = differs stored wire := by
  obtain ⟨property, listed, isNamed⟩ := List.mem_map.mp (represents.known name stored known)
  obtain ⟨before, after, split⟩ := List.append_of_mem listed
  have holds : property = propertyOf name stored := by
    obtain ⟨value, isLast, isStored⟩ := represents.stored property listed
    rw [isNamed, known] at isLast
    obtain rfl := Option.some.inj isLast
    rw [isStored, isNamed]
  have distinct := represents.distinct
  rw [split, List.map_append, List.map_cons, isNamed, List.nodup_middle, List.nodup_cons,
    List.mem_append, not_or] at distinct
  obtain ⟨⟨notBefore, notAfter⟩, others⟩ := distinct
  have received : valueReceive element name wire =
      (⟨before ++ propertyOf name wire :: after,
        (wireShare (((wireBuild element.shares wire).acquire name).release name) wire).releaseAll
          (wireData stored).strings⟩, differs stored wire) := by
    rw [valueReceive, propertyValueAdd]
    simp only [split, propertyFindUpdate_some _ _ _ isNamed notBefore]
    rw [holds, propertyUpdate_of]
  rw [received]
  refine ⟨⟨?_, ?_, ?_, ?_⟩, rfl⟩
  · rw [List.map_append, List.map_cons, List.nodup_middle, List.nodup_cons, List.mem_append, not_or]
    exact ⟨⟨notBefore, notAfter⟩, others⟩
  · intro other inProps
    rcases List.mem_append.mp inProps with early | late
    · have unnamed : other.name ≠ name := fun named =>
        notBefore (List.mem_map.mpr ⟨other, early, named⟩)
      rw [Function.update_of_ne unnamed]
      exact represents.stored other (split ▸ List.mem_append_left _ early)
    · rcases List.mem_cons.mp late with rfl | later
      · exact ⟨wire, Function.update_self .., rfl⟩
      · have unnamed : other.name ≠ name := fun named =>
          notAfter (List.mem_map.mpr ⟨other, later, named⟩)
        rw [Function.update_of_ne unnamed]
        exact represents.stored other (split ▸ List.mem_append_right _ (List.mem_cons_of_mem _ later))
  · intro other value last
    by_cases here : other = name
    · simp [here, propertyOf]
    · rw [Function.update_of_ne here] at last
      have before := represents.known other value last
      rw [split, List.map_append, List.map_cons, isNamed] at before
      simpa [propertyOf] using before
  · intro text
    have added := wireShare_apply element.shares
      (((wireBuild element.shares wire).acquire name).release name) wire text
    have named := Holdings.acquire_apply (wireBuild element.shares wire) name text
    have unnamed := Holdings.release_apply ((wireBuild element.shares wire).acquire name) name text
    have owned := represents.owned text
    have old := count_strings before after name stored element.shares text
    have new := count_strings before after name wire element.shares text
    have same : element.strings = PropertyList.strings ⟨before ++ propertyOf name stored :: after,
        element.shares⟩ := by
      rw [PropertyList.strings, split, holds]
      rfl
    rw [same] at owned
    change Holdings.releaseAll _ _ text = ((PropertyList.strings
      ⟨before ++ propertyOf name wire :: after, element.shares⟩).count text : Int)
    rw [new, Holdings.releaseAll_apply]
    omega

theorem receiveAll_append (earlier : List (String × Wire)) (update : String × Wire) :
    receiveAll (earlier ++ [update]) = (valueReceive (receiveAll earlier) update.1 update.2).1 := by
  rw [receiveAll, List.foldl_append]
  rfl

theorem lastReceived_append (earlier : List (String × Wire)) (update : String × Wire) :
    lastReceived (earlier ++ [update]) =
      Function.update (lastReceived earlier) update.1 (some update.2) := by
  rw [lastReceived, List.foldl_append]
  rfl

/-- An element represents what it received last. -/
theorem receiveAll_represents (updates : List (String × Wire)) :
    Represents (receiveAll updates) (lastReceived updates) := by
  induction updates using List.reverseRecOn with
  | nil => exact empty_represents
  | append_singleton earlier update ih =>
      rw [receiveAll_append, lastReceived_append]
      cases before : lastReceived earlier update.1 with
      | none => exact (ih.new before update.2).1
      | some stored => exact (ih.update before update.2).1

/-! ## What the getter returns -/

theorem propertyGet_none {element : PropertyList} {name : String}
    (unknown : name ∉ element.props.map ElementProperty.name) : propertyGet element name = none := by
  have absent : element.props.find? (fun property => property.name == name) = none := by
    rw [List.find?_eq_none]
    intro property listed named
    exact unknown (List.mem_map.mpr ⟨property, listed, by simpa using named⟩)
  rw [propertyGet, absent]

theorem find_propertyOf {element : PropertyList} {last : String → Option Wire}
    (represents : Represents element last) {name : String} {wire : Wire} (known : last name = some wire) :
    element.props.find? (fun property => property.name == name) = some (propertyOf name wire) := by
  obtain ⟨property, listed, named⟩ := List.mem_map.mp (represents.known name wire known)
  cases found : element.props.find? (fun property => property.name == name) with
  | none =>
      rw [List.find?_eq_none] at found
      exact absurd (by simpa using named) (found property listed)
  | some other =>
      have otherName : other.name = name := by simpa using List.find?_some found
      obtain ⟨value, isLast, isStored⟩ := represents.stored other (List.mem_of_find?_eq_some found)
      rw [otherName, known] at isLast
      obtain rfl := Option.some.inj isLast
      rw [isStored, otherName]

/-- The value received last is what is read, if its type is one that can be. -/
theorem propertyGet_of {element : PropertyList} {last : String → Option Wire}
    (represents : Represents element last) (name : String) :
    propertyGet element name = (last name).bind readable := by
  cases known : last name with
  | none =>
      apply propertyGet_none
      intro listed
      obtain ⟨property, inProps, rfl⟩ := List.mem_map.mp listed
      obtain ⟨wire, isLast, -⟩ := represents.stored property inProps
      rw [known] at isLast
      cases isLast
  | some wire =>
      rw [propertyGet, find_propertyOf represents known, Option.bind_some, readable]
      cases kind : wireType wire <;> simp [propertyOf, kind]

theorem changes_iff (last : Option Wire) (wire : Wire) :
    Changes last wire ↔ last.elim true (differs · wire) = true := by
  cases last with
  | none => simp [Changes]
  | some stored => simp [Changes, differs]

/-- Whatever values an element receives: its names stay distinct, the value received last is
read, a change is reported if there is one, and every string that is stored is shared
once. -/
theorem receiveAll_exact (updates : List (String × Wire)) :
    ((receiveAll updates).props.map ElementProperty.name).Nodup ∧
      (∀ name, propertyGet (receiveAll updates) name = (lastReceived updates name).bind readable) ∧
      (∀ name wire, (valueReceive (receiveAll updates) name wire).2 = true ↔
        Changes (lastReceived updates name) wire) ∧
      ∀ text, (receiveAll updates).shares text = (receiveAll updates).strings.count text := by
  have represents := receiveAll_represents updates
  refine ⟨represents.distinct, propertyGet_of represents, ?_, represents.owned⟩
  intro name wire
  rw [changes_iff]
  cases known : lastReceived updates name with
  | none => rw [(represents.new known wire).2, Option.elim_none]
  | some stored => rw [(represents.update known wire).2, Option.elim_some]

/-! ## The properties of an element in the table -/

/-- `property` is kept in the table as the value of the same name. -/
def Mirrors (property : ElementProperty) (kept : Property) : Prop :=
  ∃ wire : Wire, property = propertyOf kept.name wire ∧ kept.value = wire.value .connman

theorem changed_eq (stored received : Wire) :
    (stored.value .connman).changed (received.value .connman) = differs stored received := by
  cases stored with
  | basic old =>
      cases received with
      | basic new =>
          cases old <;> cases new <;>
            simp [Wire.value, Value.changed, Value.sameType, Basic.sameType, differs, wireType, wireData]
      | array items => cases old <;> rfl
      | other type isZero =>
          cases old <;> simp [Wire.value, Value.changed, Value.sameType, differs, wireType, wireData]
  | array old =>
      cases received with
      | basic new => cases new <;> rfl
      | array items => rfl
      | other type isZero => rfl
  | other oldType wasZero =>
      cases received with
      | basic new =>
          cases new <;> simp [Wire.value, Value.changed, Value.sameType, differs, wireType, wireData]
      | array items => rfl
      | other type isZero => simp [Wire.value, Value.changed, Value.sameType, differs, wireType, wireData]

/-- A value that a table entry has is found among the properties, and replaced as in the table. -/
theorem propertyFindUpdate_mirrors (shares : Holdings String) (name : String) (wire : Wire)
    {props : List ElementProperty} {kept : List Property} (mirrored : List.Forall₂ Mirrors props kept) :
    match propsGet kept name with
    | none => propertyFindUpdate shares name (wireType wire) (wireData wire) props = none ∧
        propsSet kept name (wire.value .connman) = kept ++ [⟨name, wire.value .connman⟩]
    | some stored => ∃ found, propertyFindUpdate shares name (wireType wire) (wireData wire) props =
          some found ∧ found.2 = stored.changed (wire.value .connman) ∧
        List.Forall₂ Mirrors found.1.props (propsSet kept name (wire.value .connman)) := by
  induction mirrored with
  | nil => exact ⟨rfl, rfl⟩
  | @cons property entry props kept mirror rest ih =>
      obtain ⟨stored, isStored, isKept⟩ := mirror
      have sameName : property.name = entry.name := by rw [isStored, propertyOf]
      by_cases here : entry.name = name
      · have found : propsGet (entry :: kept) name = some entry.value := by simp [propsGet, here]
        rw [found]
        refine ⟨_, if_pos (sameName.trans here), ?_, ?_⟩
        · rw [isStored, propertyUpdate_of, isKept, changed_eq]
        · rw [propsSet, if_pos here, isStored, propertyUpdate_of]
          exact .cons ⟨wire, by rw [here], rfl⟩ rest
      · have notFound : propsGet (entry :: kept) name = propsGet kept name := by simp [propsGet, here]
        have elsewhere : ¬ property.name = name := sameName ▸ here
        rw [notFound]
        cases found : propsGet kept name with
        | none =>
            simp only [found] at ih
            rw [propertyFindUpdate, if_neg elsewhere, ih.1, propsSet, if_neg here, ih.2]
            exact ⟨rfl, rfl⟩
        | some old =>
            simp only [found] at ih
            obtain ⟨update, updated, changed, mirrors⟩ := ih
            refine ⟨({ update.1 with props := property :: update.1.props }, update.2), ?_, changed, ?_⟩
            · rw [propertyFindUpdate, if_neg elsewhere, updated]
              rfl
            · rw [propsSet, if_neg here]
              exact .cons ⟨stored, isStored, isKept⟩ mirrors

/-- The properties follow those of the table: each value is stored at the same place, and the same
changes are reported. -/
theorem valueReceive_mirrors {element : PropertyList} {kept : List Property}
    (mirrored : List.Forall₂ Mirrors element.props kept) (name : String) (wire : Wire) :
    List.Forall₂ Mirrors (valueReceive element name wire).1.props
        (propsSet kept name (wire.value .connman)) ∧
      (valueReceive element name wire).2 =
        (propsGet kept name).elim true fun stored => stored.changed (wire.value .connman) := by
  have updated := propertyFindUpdate_mirrors ((wireBuild element.shares wire).acquire name) name wire mirrored
  rw [valueReceive, propertyValueAdd]
  cases found : propsGet kept name with
  | none =>
      simp only [found] at updated
      simp only [updated.1, updated.2, propertyNew_of]
      exact ⟨List.rel_append mirrored (.cons ⟨wire, rfl, rfl⟩ .nil), rfl⟩
  | some stored =>
      simp only [found] at updated
      obtain ⟨result, isResult, changed, mirrors⟩ := updated
      simp only [isResult]
      exact ⟨mirrors, changed⟩

/-- An element and its table entry that received the same values have the same properties. -/
theorem receiveAll_mirrors (updates : List (String × Wire)) :
    List.Forall₂ Mirrors (receiveAll updates).props
      (updates.foldl (fun kept update => propsSet kept update.1 (update.2.value .connman)) []) := by
  induction updates using List.reverseRecOn with
  | nil => exact .nil
  | append_singleton earlier update ih =>
      rw [receiveAll, List.foldl_append, List.foldl_append]
      exact (valueReceive_mirrors ih update.1 update.2).1

end EDBus.Elements.Connman
