import EDBus.Elements.PropertyStore
import EDBus.Semantics.TypedData

/-!
# Properties in messages

`SetProperty` is written by three functions, and `PropertyChanged` is read by one that
hands dict entries on to another. `wireOf` is what the reader makes of a value; the
store behind it is that of `PropertyStore`.
-/

open EDBus.Semantics

namespace EDBus.Elements.Connman

/-! ## Reading -/

/-- `_e_connman_element_dict_entry_new`, with the iterator on the dict entry. -/
def elementDictEntryNew (dictEntry : Data) : Option DictEntry :=
  match dictEntry.contents with
  | .string key :: rest =>
    if key = "" then none
    else
      match rest with
      | .variant value :: _ =>
        match value with
        | .boolean value => some ⟨key, .boolean value⟩
        | .byte value => some ⟨key, .byte value⟩
        | .uint16 value => some ⟨key, .uint16 value⟩
        | .uint32 value => some ⟨key, .uint32 value⟩
        | .string value => some ⟨key, .string value⟩
        | .objectPath value => some ⟨key, .objectPath value⟩
        -- arrays are refused before an entry is allocated, other types after
        | _ => none
      | _ => none
  | _ => none

/-- The text of a value that is read as a string. -/
def textOf : Data → String
  | .string value => value
  | .objectPath value => value
  | _ => ""

/-- The byte of a value that is read as one. -/
def octetOf : Data → UInt8
  | .byte value => value
  | _ => 0

/-- The array that `_e_connman_element_iter_get_array` builds: all items are read as what
the first one is. -/
def elementIterGetArray (array : Data) : Option ElementArray :=
  match array.contents with
  | [] => none
  | first :: rest =>
    match first.type with
    | .objectPath => some ⟨.objectPath, (first :: rest).map fun item => .str (textOf item)⟩
    | .string => some ⟨.string, (first :: rest).map fun item => .str (textOf item)⟩
    | .byte => some ⟨.byte, (first :: rest).filterMap fun item => byteItem (octetOf item)⟩
    | .dictEntry _ _ => some ⟨.dictEntry, ((first :: rest).filterMap elementDictEntryNew).map .entry⟩
    | _ => none

/-- What the variant in a dict entry holds. -/
def entryValueOf : Data → EntryValue
  | .boolean value => .basic (.boolean value)
  | .byte value => .basic (.byte value)
  | .int16 value => .basic (.int16 value)
  | .uint16 value => .basic (.uint16 value)
  | .uint32 value => .basic (.uint32 value)
  | .string value => .basic (.string value)
  | .objectPath value => .basic (.objectPath value)
  | .array _ _ => .array
  | .int32 _ => .other .int32
  | .int64 _ => .other .int64
  | .uint64 _ => .other .uint64
  | .double _ => .other .double
  | .signature _ => .other .signature
  | .unixFd _ => .other .unixFd
  | .variant _ => .other .variant
  | .struct _ => .other .struct
  | .dictEntry _ _ => .other .struct

/-- A dict entry. One without a text as its key, or without a variant, is refused like the
one without a key. -/
def entryOf (dictEntry : Data) : String × EntryValue :=
  match dictEntry.contents with
  | .string key :: .variant value :: _ => (key, entryValueOf value)
  | _ => ("", .other .variant)

/-- The items of an array. -/
def arrayOf : List Data → WireArray
  | [] => .empty
  | first :: rest =>
    match first.type with
    | .objectPath => .objectPaths (textOf first) (rest.map textOf)
    | .string => .strings (textOf first) (rest.map textOf)
    | .byte => .bytes (octetOf first) (rest.map octetOf)
    | .dictEntry _ _ => .entries (entryOf first) (rest.map entryOf)
    | _ => .other

/-- The content of a variant. -/
def wireOf : Data → Wire
  | .boolean value => .basic (.boolean value)
  | .byte value => .basic (.byte value)
  | .int16 value => .basic (.int16 value)
  | .uint16 value => .basic (.uint16 value)
  | .uint32 value => .basic (.uint32 value)
  | .string value => .basic (.string value)
  | .objectPath value => .basic (.objectPath value)
  | .array _ items => .array (arrayOf items)
  | .int32 value => .other .int32 (value = 0)
  | .int64 value => .other .int64 (value = 0)
  | .uint64 value => .other .uint64 (value = 0)
  | .double bits => .other .double (bits = 0)
  | .signature _ => .other .signature false
  | .unixFd value => .other .unixFd (value = 0)
  | .variant _ => .other .variant true
  | .struct _ => .other .struct true
  | .dictEntry _ _ => .other .struct true

/-- `_e_connman_element_property_changed_callback`, and whether the listeners are called. -/
def propertyChanged (element : PropertyList) (body : List Data) : PropertyList × Bool :=
  match body with
  | .string name :: .variant value :: _ => valueReceive element name (wireOf value)
  | _ => (element, false)

/-- A property in the reply to `GetProperties`. Other items are passed over. -/
def propertyOfReply : Data → Option (String × Wire)
  | .dictEntry (.string name) (.variant value) => some (name, wireOf value)
  | _ => none

/-- `_e_connman_element_get_properties_callback`, and whether the listeners are called. -/
def getProperties (element : PropertyList) (body : List Data) : PropertyList × Bool :=
  match body with
  | .array _ items :: _ =>
    items.foldl
      (fun received item =>
        match propertyOfReply item with
        | none => received
        | some (name, wire) =>
          let next := valueReceive received.1 name wire
          (next.1, received.2 || next.2))
      (element, false)
  | _ => (element, false)

/-- A message with properties. -/
inductive PropertyMessage where
  | propertyChanged (body : List Data)
  | getProperties (body : List Data)

/-- The message is handled. -/
def PropertyMessage.receive (element : PropertyList) : PropertyMessage → PropertyList
  | .propertyChanged body => (Connman.propertyChanged element body).1
  | .getProperties body => (Connman.getProperties element body).1

/-- The value in the body of a `PropertyChanged` signal. -/
def changedUpdates : List Data → List (String × Wire)
  | .string name :: .variant value :: _ => [(name, wireOf value)]
  | _ => []

/-- The values in the body of a reply. -/
def replyUpdates : List Data → List (String × Wire)
  | .array _ items :: _ => items.filterMap propertyOfReply
  | _ => []

/-- The values in a message. -/
def PropertyMessage.updates : PropertyMessage → List (String × Wire)
  | .propertyChanged body => changedUpdates body
  | .getProperties body => replyUpdates body

/-! ## Writing -/

/-- A value that the setters take, with its type. Texts are given by their pointer, a
boolean by one to an `Eina_Bool` or a `dbus_bool_t`, other numbers by one to a number. -/
inductive SetValue where
  | boolean (value : Bool)
  | byte (value : UInt8)
  | uint16 (value : UInt16)
  | uint32 (value : UInt32)
  | string (value : String)
  | objectPath (value : String)
deriving DecidableEq, Repr

/-- What `dbus_message_iter_append_basic` appends. -/
def SetValue.data : SetValue → Data
  | .boolean value => .boolean value
  | .byte value => .byte value
  | .uint16 value => .uint16 value
  | .uint32 value => .uint32 value
  | .string value => .string value
  | .objectPath value => .objectPath value

/-- The type of a value, for `property->type`. -/
def SetValue.type : SetValue → PropertyType
  | .boolean _ => .boolean
  | .byte _ => .byte
  | .uint16 _ => .uint16
  | .uint32 _ => .uint32
  | .string _ => .string
  | .objectPath _ => .objectPath

/-- The value, as it is stored. -/
def SetValue.stored : SetValue → PropertyData
  | .boolean value => .boolean value
  | .byte value => .byte value
  | .uint16 value => .u16 value
  | .uint32 value => .u32 value
  | .string value => .str value
  | .objectPath value => .path value

/-- `e_connman_element_property_set_full`: the body of its message. -/
def propertySetFull (prop : String) (value : SetValue) : List Data := [.string prop, .variant value.data]

/-- An array of texts, which has one type. -/
inductive TextType where
  | string
  | objectPath
deriving DecidableEq, Repr

/-- One of the texts of an array. -/
def TextType.data : TextType → String → Data
  | .string => .string
  | .objectPath => .objectPath

/-- The type of the texts. -/
def TextType.dataType : TextType → DataType
  | .string => .string
  | .objectPath => .objectPath

/-- The type of an array of such texts, for `array->type`. -/
def TextType.arrayType : TextType → ArrayType
  | .string => .string
  | .objectPath => .objectPath

/-- `e_connman_element_property_array_set_full` for an array of texts: the body of its message. -/
def propertyArraySetFull (prop : String) (type : TextType) (values : List String) : List Data :=
  [.string prop, .variant (.array type.dataType (values.map type.data))]

/-- `e_connman_element_property_dict_set_full`: the body of its message. The value stands in
the dict entry as it is. -/
def propertyDictSetFull (prop key : String) (value : SetValue) : List Data :=
  [.string prop,
    .variant (.array (.dictEntry .string value.data.type) [.dictEntry (.string key) value.data])]

/-- What a user sets. -/
inductive SetRequest where
  | plain (value : SetValue)
  | array (type : TextType) (first : String) (rest : List String)
  | dict (key : String) (value : SetValue)
deriving DecidableEq, Repr

/-- The body of the `SetProperty` message for a request. -/
def SetRequest.body (prop : String) : SetRequest → List Data
  | .plain value => propertySetFull prop value
  | .array type first rest => propertyArraySetFull prop type (first :: rest)
  | .dict key value => propertyDictSetFull prop key value

/-! ## Reading back -/

/-- `e_connman_element_strings_array_get_stringshared`. -/
def stringsArrayGet (element : PropertyList) (prop : String) : Option (List String) :=
  match propertyGet element prop with
  | some (.array, .array (some array)) =>
    if array.type = .string then some (array.items.flatMap itemStrings) else none
  | _ => none

/-- `_e_connman_element_array_dict_find_stringshared`. -/
def arrayDictFind (array : ElementArray) (key : String) : Option DictEntry :=
  array.items.findSome? fun item =>
    match item with
    | .entry entry => if entry.name = key then some entry else none
    | _ => none

/-- `e_connman_element_property_dict_get_stringshared`: the type and the value of an entry. -/
def propertyDictGet (element : PropertyList) (dictName key : String) :
    Option (PropertyType × PropertyData) :=
  match element.props.find? fun property => property.name == dictName with
  | none => none
  | some property =>
    match property.type, property.value with
    | some .array, .array (some array) =>
      if array.type = .dictEntry then
        match arrayDictFind array key with
        | none => none
        | some entry => readable (.basic entry.value)
      else none
    | _, _ => none

/-- `e_connman_element_property_dict_strings_array_get_stringshared`. -/
def propertyDictStringsArrayGet (element : PropertyList) (dictName key : String) : Option (List String) :=
  match propertyDictGet element dictName key with
  | some (.array, .array (some array)) =>
    if array.type = .string then some (array.items.flatMap itemStrings) else none
  | _ => none

/-! ## The two levels of decoding -/

theorem dictEntryNew_entryOf (dictEntry : Data) :
    dictEntryNew .connman (entryOf dictEntry) = elementDictEntryNew dictEntry := by
  unfold entryOf elementDictEntryNew
  split
  · next key value rest contents =>
      rw [contents]
      by_cases noKey : key = ""
      · subst noKey
        cases value <;> rfl
      · cases value <;> simp [entryValueOf, dictEntryNew, noKey]
  · next notEntry =>
      split
      · next key rest contents =>
          split
          · rfl
          · split
            · next value more => exact absurd contents (notEntry key value more)
            · rfl
      · rfl

/-- The array that is built is the one of the table. -/
theorem arrayBuild_arrayOf (item : DataType) (items : List Data) :
    arrayBuild .connman (arrayOf items) = elementIterGetArray (.array item items) := by
  cases items with
  | nil => rfl
  | cons first rest =>
      simp only [elementIterGetArray, Data.contents, arrayOf]
      cases kind : first.type <;>
        simp [arrayBuild, List.map_map, List.filterMap_map, ← List.map_cons, Function.comp_def, dictEntryNew_entryOf]

/-! ## A value that was just received -/

theorem getProperties_foldl (received : PropertyList × Bool) (items : List Data) :
    (items.foldl
      (fun received item =>
        match propertyOfReply item with
        | none => received
        | some (name, wire) =>
          let next := valueReceive received.1 name wire
          (next.1, received.2 || next.2)) received).1 =
      (items.filterMap propertyOfReply).foldl
        (fun element update => (valueReceive element update.1 update.2).1) received.1 := by
  induction items generalizing received with
  | nil => rfl
  | cons item rest ih =>
      rw [List.foldl_cons, ih, List.filterMap_cons]
      cases propertyOfReply item <;> rfl

/-- A message is handled by receiving the values in it. -/
theorem receive_eq (element : PropertyList) (message : PropertyMessage) :
    message.receive element =
      message.updates.foldl (fun element update => (valueReceive element update.1 update.2).1) element := by
  cases message with
  | propertyChanged body =>
      simp only [PropertyMessage.receive, PropertyMessage.updates]
      unfold Connman.propertyChanged changedUpdates
      split <;> rfl
  | getProperties body =>
      simp only [PropertyMessage.receive, PropertyMessage.updates]
      unfold Connman.getProperties replyUpdates
      split
      · exact getProperties_foldl _ _
      · rfl

/-- Whatever messages an element gets, it received the values in them one after the other. -/
theorem receive_updates (messages : List PropertyMessage) :
    messages.foldl PropertyMessage.receive .empty =
      receiveAll (messages.flatMap PropertyMessage.updates) := by
  induction messages using List.reverseRecOn with
  | nil => rfl
  | append_singleton earlier message ih =>
      rw [List.foldl_append, ih, List.flatMap_append, receiveAll, receiveAll, List.foldl_append,
        List.foldl_cons, List.foldl_nil, receive_eq, List.flatMap_singleton]

/-- An element that received a value holds it. -/
theorem find_received (earlier : List (String × Wire)) (name : String) (wire : Wire) :
    (valueReceive (receiveAll earlier) name wire).1.props.find? (fun property => property.name == name) =
      some (propertyOf name wire) := by
  have represents := receiveAll_represents (earlier ++ [(name, wire)])
  rw [receiveAll_append] at represents
  apply find_propertyOf represents
  rw [lastReceived_append]
  exact Function.update_self ..

theorem propertyGet_received (earlier : List (String × Wire)) (name : String) (wire : Wire) :
    propertyGet (valueReceive (receiveAll earlier) name wire).1 name = readable wire := by
  have represents := receiveAll_represents (earlier ++ [(name, wire)])
  rw [receiveAll_append] at represents
  rw [propertyGet_of represents, lastReceived_append, Function.update_self, Option.bind_some]

/-- An entry is looked up in the dict that was received. -/
theorem propertyDictGet_received (earlier : List (String × Wire)) (name key : String)
    (first : String × EntryValue) (rest : List (String × EntryValue)) :
    propertyDictGet (valueReceive (receiveAll earlier) name (.array (.entries first rest))).1 name key =
      (arrayDictFind ⟨.dictEntry, ((first :: rest).filterMap (dictEntryNew .connman)).map .entry⟩ key).bind
        fun entry => readable (.basic entry.value) := by
  rw [propertyDictGet, find_received]
  simp only [propertyOf, wireType, wireData, arrayBuild, if_true]
  cases arrayDictFind ⟨.dictEntry, ((first :: rest).filterMap (dictEntryNew .connman)).map .entry⟩ key <;> rfl

/-! ## Setting and reading back -/

/-- A property reads as what was set. -/
def ReadsBack (element : PropertyList) (prop : String) : SetRequest → Prop
  | .plain value => propertyGet element prop = some (value.type, value.stored)
  | .array type first rest =>
    propertyGet element prop =
        some (.array, .array (some ⟨type.arrayType, (first :: rest).map .str⟩)) ∧
      (type = .string → stringsArrayGet element prop = some (first :: rest))
  | .dict key value => propertyDictGet element prop key = some (value.type, value.stored)

theorem readable_data (value : SetValue) : readable (wireOf value.data) = some (value.type, value.stored) := by
  cases value <;> rfl

/-- The texts of an array are those that were written. -/
theorem arrayOf_texts (type : TextType) (first : String) (rest : List String) :
    arrayBuild .connman (arrayOf ((first :: rest).map type.data)) =
      some ⟨type.arrayType, (first :: rest).map .str⟩ := by
  cases type <;>
    simp [arrayOf, TextType.data, Data.type, arrayBuild, textOf, TextType.arrayType, Function.comp_def]

/-- A dict entry with a value that is not a variant is refused. -/
theorem entry_refused (key : String) (value : SetValue) :
    dictEntryNew .connman (entryOf (.dictEntry (.string key) value.data)) = none := by
  rw [dictEntryNew_entryOf]
  cases value <;> simp [elementDictEntryNew, Data.contents, SetValue.data]

/-- What is set and echoed in a `PropertyChanged` signal with the same body reads back, unless
it was set as an entry of a dict. -/
theorem setRequest_readsBack_iff (earlier : List (String × Wire)) (prop : String) (request : SetRequest) :
    ReadsBack (propertyChanged (receiveAll earlier) (request.body prop)).1 prop request ↔
      ∀ key value, request ≠ .dict key value := by
  cases request with
  | plain value =>
      simp only [SetRequest.body, propertySetFull, propertyChanged, ReadsBack, propertyGet_received,
        readable_data]
      simp
  | array type first rest =>
      simp only [SetRequest.body, propertyArraySetFull, propertyChanged, ReadsBack, stringsArrayGet,
        propertyGet_received, wireOf, readable, wireType, wireData, arrayOf_texts]
      refine iff_of_true ⟨trivial, ?_⟩ (by simp)
      rintro rfl
      simp [TextType.arrayType, itemStrings, List.flatMap_map]
  | dict key value =>
      simp only [SetRequest.body, propertyDictSetFull, propertyChanged, ReadsBack]
      have stored : wireOf (.array (.dictEntry .string value.data.type) [.dictEntry (.string key) value.data]) =
          .array (.entries (entryOf (.dictEntry (.string key) value.data)) []) := rfl
      rw [stored, propertyDictGet_received, List.filterMap_cons, entry_refused]
      simp [arrayDictFind]

/-- A string set as the value of a key in a dict does not read back. -/
theorem setRequest_dict_lost :
    ¬ ∀ (earlier : List (String × Wire)) (prop : String) (request : SetRequest),
      ReadsBack (propertyChanged (receiveAll earlier) (request.body prop)).1 prop request := by
  intro readsBack
  have lost : propertyDictGet (propertyChanged .empty (propertyDictSetFull "IPv4.Configuration" "Method"
      (.string "dhcp"))).1 "IPv4.Configuration" "Method" = some (.string, .str "dhcp") :=
    readsBack [] "IPv4.Configuration" (.dict "Method" (.string "dhcp"))
  exact absurd lost (by decide)

/-! ## Dicts from the server -/

/-- A dict property of the signature `a{sv}`. -/
def dictData (entries : List (String × Data)) : Data :=
  .array (.dictEntry .string .variant) (entries.map fun entry => .dictEntry (.string entry.1) (.variant entry.2))

/-- A value of a type that the readers of dicts know. -/
inductive DictValue where
  | basic (value : SetValue)
  | strings (values : List String)
deriving DecidableEq, Repr

/-- The value in a message. -/
def DictValue.data : DictValue → Data
  | .basic value => value.data
  | .strings values => .array .string (values.map .string)

/-- A key of a dict reads as the value. -/
def ReadsEntry (element : PropertyList) (dictName key : String) : DictValue → Prop
  | .basic value => propertyDictGet element dictName key = some (value.type, value.stored)
  | .strings values => propertyDictStringsArrayGet element dictName key = some values

/-- The entry that is found for a key. -/
theorem arrayDictFind_cons (entry : DictEntry) (entries : List DictEntry) (key : String) :
    arrayDictFind ⟨.dictEntry, (entry :: entries).map .entry⟩ key =
      if entry.name = key then some entry else arrayDictFind ⟨.dictEntry, entries.map .entry⟩ key := by
  rw [arrayDictFind, List.map_cons, List.findSome?_cons]
  by_cases named : entry.name = key
  · simp only [named, if_true]
  · simp only [named, if_false]
    rfl

/-- An entry has the name of its key. -/
theorem elementDictEntryNew_name {key : String} {value : Data} {entry : DictEntry}
    (built : elementDictEntryNew (.dictEntry (.string key) (.variant value)) = some entry) :
    entry.name = key := by
  simp only [elementDictEntryNew, Data.contents] at built
  split at built
  · cases built
  · cases value <;> simp at built <;> rw [← built]

theorem arrayDictFind_absent {entries : List (String × Data)} {key : String}
    (absent : key ∉ entries.map Prod.fst) :
    arrayDictFind ⟨.dictEntry, ((entries.map fun entry => Data.dictEntry (.string entry.1) (.variant entry.2)).filterMap
      elementDictEntryNew).map .entry⟩ key = none := by
  induction entries with
  | nil => rfl
  | cons entry rest ih =>
      rw [List.map_cons, List.mem_cons, not_or] at absent
      rw [List.map_cons, List.filterMap_cons]
      cases built : elementDictEntryNew (.dictEntry (.string entry.1) (.variant entry.2)) with
      | none => exact ih absent.2
      | some new =>
          simp only
          rw [arrayDictFind_cons, if_neg, ih absent.2]
          rw [elementDictEntryNew_name built]
          exact Ne.symm absent.1

/-- What is found for a key is what its own entry was built to, whatever the others are. -/
theorem arrayDictFind_entry {entries : List (String × Data)} (distinct : (entries.map Prod.fst).Nodup)
    {key : String} {value : Data} (listed : (key, value) ∈ entries) :
    arrayDictFind ⟨.dictEntry, ((entries.map fun entry => Data.dictEntry (.string entry.1) (.variant entry.2)).filterMap
      elementDictEntryNew).map .entry⟩ key = elementDictEntryNew (.dictEntry (.string key) (.variant value)) := by
  induction entries with
  | nil => cases listed
  | cons entry rest ih =>
      rw [List.map_cons, List.nodup_cons] at distinct
      rw [List.map_cons, List.filterMap_cons]
      rcases List.mem_cons.mp listed with rfl | later
      · cases built : elementDictEntryNew (.dictEntry (.string key) (.variant value)) with
        | none => exact arrayDictFind_absent distinct.1
        | some new =>
            simp only
            rw [arrayDictFind_cons, if_pos (elementDictEntryNew_name built)]
      · have other : entry.1 ≠ key := fun same =>
          distinct.1 (same ▸ List.mem_map.mpr ⟨_, later, rfl⟩)
        cases built : elementDictEntryNew (.dictEntry (.string entry.1) (.variant entry.2)) with
        | none => exact ih distinct.2 later
        | some new =>
            simp only
            rw [arrayDictFind_cons, if_neg, ih distinct.2 later]
            rw [elementDictEntryNew_name built]
            exact other

/-- What a key of a received dict reads as. -/
theorem propertyDictGet_dict (earlier : List (String × Wire)) (prop : String) {entries : List (String × Data)}
    (distinct : (entries.map Prod.fst).Nodup) {key : String} {value : Data} (listed : (key, value) ∈ entries) :
    propertyDictGet (valueReceive (receiveAll earlier) prop (wireOf (dictData entries))).1 prop key =
      (elementDictEntryNew (.dictEntry (.string key) (.variant value))).bind
        fun entry => readable (.basic entry.value) := by
  obtain _ | ⟨entry, rest⟩ := entries
  · cases listed
  · have stored : wireOf (dictData (entry :: rest)) =
        .array (.entries (entryOf (.dictEntry (.string entry.1) (.variant entry.2)))
          ((rest.map fun entry => Data.dictEntry (.string entry.1) (.variant entry.2)).map entryOf)) := rfl
    rw [stored, propertyDictGet_received, ← arrayDictFind_entry distinct listed, ← List.map_cons,
      List.filterMap_map]
    have same : dictEntryNew .connman ∘ entryOf = elementDictEntryNew := funext dictEntryNew_entryOf
    rw [same, List.map_cons]

/-- A key of a dict from the server reads as its value, unless that is an array of strings. -/
theorem dictEntry_readable_iff (earlier : List (String × Wire)) (prop : String) (entries : List (String × Data))
    (distinct : (entries.map Prod.fst).Nodup) (named : ∀ entry ∈ entries, entry.1 ≠ "") (key : String)
    (value : DictValue) (listed : (key, value.data) ∈ entries) :
    ReadsEntry (valueReceive (receiveAll earlier) prop (wireOf (dictData entries))).1 prop key value ↔
      ∀ strings, value ≠ .strings strings := by
  have hasKey : key ≠ "" := named _ listed
  have found := propertyDictGet_dict earlier prop distinct listed
  cases value with
  | basic value =>
      rw [ReadsEntry, found]
      refine iff_of_true ?_ (by simp)
      cases value <;> simp [DictValue.data, SetValue.data, elementDictEntryNew, Data.contents, hasKey,
        readable, wireType, wireData, SetValue.type, SetValue.stored]
  | strings values =>
      rw [ReadsEntry, propertyDictStringsArrayGet, found]
      simp [DictValue.data, elementDictEntryNew, Data.contents]

/-- The address of a name server is read. -/
theorem dictEntry_readable_iff_nameserver :
    ReadsEntry (valueReceive (receiveAll []) "IPv4" (wireOf (dictData [("Address", .string "10.0.0.2"),
        ("Servers", .array .string [])]))).1 "IPv4" "Address" (.basic (.string "10.0.0.2")) ↔
      ∀ strings, DictValue.basic (.string "10.0.0.2") ≠ .strings strings :=
  dictEntry_readable_iff [] "IPv4" [("Address", .string "10.0.0.2"), ("Servers", .array .string [])]
    (by decide) (by simp) "Address" (.basic (.string "10.0.0.2")) (.head _)

/-- The servers of a proxy are not read. -/
theorem dictEntry_servers_lost :
    ¬ ∀ (earlier : List (String × Wire)) (prop : String) (entries : List (String × Data)),
      (entries.map Prod.fst).Nodup → (∀ entry ∈ entries, entry.1 ≠ "") →
      ∀ (key : String) (value : DictValue), (key, value.data) ∈ entries →
        ReadsEntry (valueReceive (receiveAll earlier) prop (wireOf (dictData entries))).1 prop key value := by
  intro readable
  have lost : propertyDictStringsArrayGet (valueReceive .empty "Proxy" (wireOf (dictData
      [("Servers", .array .string [.string "proxy:911"])]))).1 "Proxy" "Servers" = some ["proxy:911"] :=
    readable [] "Proxy" [("Servers", .array .string [.string "proxy:911"])] (by simp) (by simp) "Servers"
      (.strings ["proxy:911"]) (.head _)
  exact absurd lost (by decide)

end EDBus.Elements.Connman
