import EDBus.Devices.Property

/-!
# Types of properties

Any value can be in a reply. `represent` says which property stands for a value, if one does; the
readers take every array for one of strings, leave a property without a type where they have no
case, and the reader of a single property enters whatever comes first. `decoders_total_iff` finds the
replies for which this does no harm.
-/

open EDBus.Semantics
open EDBus.Dbus

namespace EDBus.Devices

/-! ## What stands for a value -/

/-- The property for a value, if one of the types of properties is for it. -/
def representCase : Data → Option Property
  | .string text => some ⟨.string, .s (some text)⟩
  | .objectPath text => some ⟨.string, .s (some text)⟩
  | .int32 number => some ⟨.int, .i number⟩
  | .uint32 number => some ⟨.uint32, .u number⟩
  | .uint64 number => some ⟨.uint64, .t number⟩
  | .int64 number => some ⟨.int64, .x number⟩
  | .boolean truth => some ⟨.bool, .b truth⟩
  | .double bits => some ⟨.double, .d bits⟩
  | .array item items =>
    if isText item then some ⟨.strlist, .strlist ((items.filterMap textOf).map some)⟩ else none
  | _ => none

/-- The property for a value of a library with some cases. -/
def represent (cases : DataType → Bool) (value : Data) : Option Property :=
  if cases value.type then representCase value else none

/-- The value of a reply with a single property, which is in a variant or bare. -/
def received : List Data → Option Data
  | .variant value :: _ => some value
  | value :: _ => some value
  | [] => none

/-- A name and a value. -/
def entryOf : Data → Option (String × Data)
  | .dictEntry (.string name) (.variant value) => some (name, value)
  | _ => none

/-- The entries of a table. -/
def tableEntries : List Data → List (String × Data)
  | .array _ items :: _ => items.filterMap entryOf
  | _ => []

/-- The properties that stand for the entries of a table. Others than these are left out. -/
def representTable (cases : DataType → Bool) (entries : List (String × Data)) : Properties :=
  entries.filterMap fun entry => (represent cases entry.2).map (entry.1, ·)

/-! ## One value -/

/-- A case reads a value as what it is, into the property for it, if there is one. -/
theorem readCase_represent {value : Data} (wellTyped : value.WellTyped) (known : (representCase value).isSome) :
    (∀ use ∈ (readCase value).2, use.Proper) ∧ representCase value = some (readCase value).1 := by
  cases value with
  | string text => exact ⟨List.forall_mem_singleton.mpr (readWide_string_proper.mpr rfl), rfl⟩
  | objectPath text => exact ⟨List.forall_mem_singleton.mpr (readWide_string_proper.mpr rfl), rfl⟩
  | int32 number => exact ⟨List.forall_mem_singleton.mpr (readWide_proper rfl nofun), rfl⟩
  | uint32 number => exact ⟨List.forall_mem_singleton.mpr (readWide_proper rfl nofun), rfl⟩
  | uint64 number => exact ⟨List.forall_mem_singleton.mpr (readWide_proper rfl nofun), rfl⟩
  | int64 number => exact ⟨List.forall_mem_singleton.mpr (readWide_proper rfl nofun), rfl⟩
  | boolean truth => exact ⟨List.forall_mem_singleton.mpr (readWide_proper rfl nofun), rfl⟩
  | double bits => exact ⟨List.forall_mem_singleton.mpr (readWide_proper rfl nofun), rfl⟩
  | array item items =>
      by_cases text : isText item = true
      · have texts : ∀ data ∈ items, isText data.type = true := by
          intro data listed
          rw [wellTyped.1 data listed]
          exact text
        obtain ⟨same, proper⟩ := readStrings_text texts
        constructor
        · exact List.forall_mem_cons.mpr ⟨⟨_, rfl, rfl⟩, proper⟩
        · rw [representCase, if_pos text, readCase, same]
      · simp [representCase, text] at known
  | _ => cases known

/-- The property for a value has a type. -/
theorem representCase_ne_new (value : Data) : representCase value ≠ some propertyNew := by
  intro same
  cases value with
  | array item items =>
      rw [representCase] at same
      split at same <;> cases same
  | _ => cases same

/-- The `switch` has no case for the value. -/
theorem readProperty_skip {cases : DataType → Bool} {value : Data} (noCase : cases value.type = false) (rest : Cursor) :
    readProperty cases (value :: rest) = (propertyNew, []) := by
  simp [readProperty, noCase]

/-- The `switch` has a case for the value. -/
theorem readProperty_case {cases : DataType → Bool} {value : Data} (isCase : cases value.type = true) (rest : Cursor) :
    readProperty cases (value :: rest) = readCase value := by
  simp [readProperty, isCase]

/-- Of the value that comes first, with the cases of a function, and those of its library. -/
theorem readProperty_total_iff {narrow wide : DataType → Bool} (among : ∀ type, narrow type = true → wide type = true)
    {value : Data} (wellTyped : value.WellTyped) (rest : Cursor) :
    (∀ use ∈ (readProperty narrow (value :: rest)).2, use.Proper) ∧
        represent wide value = some (readProperty narrow (value :: rest)).1 ↔
      (represent narrow value).isSome = true := by
  unfold represent
  cases isCase : narrow value.type with
  | false =>
      rw [readProperty_skip isCase]
      refine iff_of_false (fun total => ?_) nofun
      have stands := total.2
      split at stands
      · exact representCase_ne_new value stands
      · cases stands
  | true =>
      rw [readProperty_case isCase, among _ isCase, if_pos rfl]
      constructor
      · rintro ⟨-, stands⟩
        rw [stands]
        rfl
      · exact readCase_represent wellTyped

/-- With the cases of the library. -/
theorem readProperty_own_iff (cases : DataType → Bool) {value : Data} (wellTyped : value.WellTyped) (rest : Cursor) :
    (∀ use ∈ (readProperty cases (value :: rest)).2, use.Proper) ∧
        represent cases value = some (readProperty cases (value :: rest)).1 ↔
      (represent cases value).isSome = true :=
  readProperty_total_iff (fun _ isCase => isCase) wellTyped rest

/-! ## Single properties -/

theorem halPropertyCases_among (type : DataType) (isCase : halPropertyCases type = true) : halCases type = true := by
  cases type <;> first | rfl | cases isCase

/-- The value of a reply of HAL is bare. -/
theorem halProperty_total_iff (message : Semantics.Message) :
    Total (Hal.unmarshalDeviceGetProperty message.body)
        (fun prop => message.body.head?.bind (represent halCases) = some prop) ↔
      (message.body.head?.bind (represent halPropertyCases)).isSome = true := by
  obtain ⟨body, wellTyped⟩ := message
  cases body with
  | nil =>
      -- An empty reply is a property, too.
      refine iff_of_false (fun total => ?_) nofun
      exact nomatch total.result _ rfl
  | cons value rest =>
      have single := readProperty_total_iff halPropertyCases_among wellTyped.1 rest
      constructor
      · intro total
        exact single.mp ⟨total.uses, total.result _ rfl⟩
      · intro known
        obtain ⟨uses, stands⟩ := single.mpr known
        refine ⟨uses, ?_⟩
        rintro prop ⟨⟩
        exact stands

/-- What comes out of anything but a variant does not stand for it. -/
theorem ukitProperty_bare {value : Data} (wellTyped : value.WellTyped) (bare : value.type ≠ .variant)
    (container : isContainer value.type = true) :
    represent ukitCases value ≠ some (readProperty ukitCases value.contents).1 := by
  cases value with
  | variant inner => exact absurd rfl bare
  | struct members => exact nofun
  | dictEntry key inner => exact nofun
  | array item items =>
      intro stands
      have isCase : ukitCases (Data.array item items).type = true := rfl
      cases text : isText item with
      | false =>
          have unknown : represent ukitCases (.array item items) = none := by
            rw [represent, if_pos isCase, representCase, text]
            rfl
          rw [unknown] at stands
          cases stands
      | true =>
          have known : represent ukitCases (.array item items) =
              some ⟨.strlist, .strlist ((items.filterMap textOf).map some)⟩ := by
            rw [represent, if_pos isCase, representCase, text]
            rfl
          rw [known] at stands
          have isList := congrArg Property.type (Option.some.inj stands)
          cases items with
          | nil => cases isList
          | cons first rest =>
              have typed : first.type = item := wellTyped.1 first (.head _)
              rw [← typed] at text
              cases first with
              | string value => cases isList
              | objectPath value => cases isList
              | signature value => cases isList
              | _ => cases text
  | _ => cases container

/-- The value of a reply of UKit is in a variant. -/
theorem ukitProperty_total_iff (message : Semantics.Message) :
    Total (Ukit.unmarshalProperty message.body)
        (fun prop => (received message.body).bind (represent ukitCases) = some prop) ↔
      message.body = [] ∨
        ∃ value rest, message.body = .variant value :: rest ∧ (represent ukitCases value).isSome = true := by
  obtain ⟨body, wellTyped⟩ := message
  cases body with
  | nil =>
      apply iff_of_true _ (.inl rfl)
      exact ⟨nofun, nofun⟩
  | cons value rest =>
      constructor
      · intro total
        right
        obtain ⟨entered, proper⟩ := List.forall_mem_cons.mp total.uses
        obtain ⟨data, same, container⟩ := entered
        obtain rfl := Option.some.inj same
        cases value with
        | variant inner =>
            refine ⟨inner, rest, rfl, ?_⟩
            have innerTyped : inner.WellTyped := wellTyped.1
            have single := readProperty_own_iff ukitCases innerTyped []
            exact single.mp ⟨proper, total.result _ rfl⟩
        | struct members => exact absurd (total.result _ rfl) (ukitProperty_bare wellTyped.1 nofun rfl)
        | array item items => exact absurd (total.result _ rfl) (ukitProperty_bare wellTyped.1 nofun rfl)
        | dictEntry key inner => exact absurd (total.result _ rfl) (ukitProperty_bare wellTyped.1 nofun rfl)
        | _ => cases container
      · rintro (⟨⟨⟩⟩ | ⟨inner, rest, ⟨⟩, known⟩)
        have innerTyped : inner.WellTyped := wellTyped.1
        have single := readProperty_own_iff ukitCases innerTyped []
        obtain ⟨uses, stands⟩ := single.mpr known
        refine ⟨List.forall_mem_cons.mpr ⟨⟨_, rfl, rfl⟩, uses⟩, ?_⟩
        rintro prop ⟨⟩
        exact stands

/-! ## Tables -/

/-- An entry as it is in the message. -/
def entryData (entry : String × Data) : Data := .dictEntry (.string entry.1) (.variant entry.2)

theorem filterMap_entryOf (entries : List (String × Data)) : (entries.map entryData).filterMap entryOf = entries := by
  rw [List.filterMap_map]
  exact List.filterMap_some

/-- A message with the signature of a table has entries. -/
theorem body_of_tableSignature {message : Semantics.Message} (signed : Data.types message.body = tableSignature) :
    ∃ entries : List (String × Data), message.body = [.array (.dictEntry .string .variant) (entries.map entryData)] ∧
      ∀ entry ∈ entries, entry.2.WellTyped := by
  obtain ⟨body, wellTyped⟩ := message
  obtain ⟨table, rest, rfl, isTable, isRest⟩ := Data.types_eq_cons signed
  obtain rfl := Data.types_eq_nil isRest
  obtain ⟨items, rfl⟩ := Data.type_eq_array isTable
  obtain ⟨entries, rfl⟩ := Data.exists_entries wellTyped.1
  refine ⟨entries, rfl, fun entry listed => ?_⟩
  have entryTyped := wellTyped.1.2.of_mem (List.mem_map_of_mem listed)
  exact entryTyped.2

/-- What is read of an entry. -/
theorem readEntry_entryData (cases : DataType → Bool) (entry : String × Data) :
    readEntry cases (entryData entry) =
      ((entry.1, (readProperty cases [entry.2]).1),
        .recurse (some (entryData entry)) :: .read ⟨.string, 8, some (.string entry.1)⟩ ::
          .recurse (some (.variant entry.2)) :: (readProperty cases [entry.2]).2) := rfl

theorem readEntry_proper_iff (cases : DataType → Bool) (entry : String × Data) :
    (∀ use ∈ (readEntry cases (entryData entry)).2, use.Proper) ↔
      ∀ use ∈ (readProperty cases [entry.2]).2, use.Proper := by
  rw [readEntry_entryData, List.forall_mem_cons, List.forall_mem_cons, List.forall_mem_cons]
  constructor
  · rintro ⟨-, -, -, proper⟩
    exact proper
  · intro proper
    exact ⟨⟨_, rfl, rfl⟩, ⟨_, rfl, rfl⟩, ⟨_, rfl, rfl⟩, proper⟩

theorem tableEntries_entries {body : List Data} {entries : List (String × Data)}
    (isBody : body = [.array (.dictEntry .string .variant) (entries.map entryData)]) : tableEntries body = entries := by
  rw [isBody]
  exact filterMap_entryOf entries

/-- What is read of a table. -/
theorem readTable_entries (cases : DataType → Bool) {body : List Data} {entries : List (String × Data)}
    (isBody : body = [.array (.dictEntry .string .variant) (entries.map entryData)]) :
    readTable cases body =
      ⟨some (entries.map fun entry => (entry.1, (readProperty cases [entry.2]).1)), none,
        .recurse body.head? :: entries.flatMap fun entry => (readEntry cases (entryData entry)).2⟩ := by
  have signed : Data.types body = tableSignature := by
    rw [isBody]
    rfl
  rw [readTable, if_pos signed, isBody]
  simp only [Cursor.recurse, List.head?_cons, Option.elim_some, Data.contents, List.map_map, List.flatMap_map]
  rfl

/-- The table is what stands for its entries if and only if all of them can be represented. -/
theorem readTable_total_iff (cases : DataType → Bool) (message : Semantics.Message) :
    Total (readTable cases message.body) (· = representTable cases (tableEntries message.body)) ↔
      (Data.types message.body = tableSignature →
        ∀ entry ∈ tableEntries message.body, (represent cases entry.2).isSome = true) := by
  by_cases signed : Data.types message.body = tableSignature
  · obtain ⟨entries, isBody, wellTyped⟩ := body_of_tableSignature signed
    rw [readTable_entries cases isBody, tableEntries_entries isBody]
    constructor
    · rintro ⟨uses, result⟩ -
      have same := result _ rfl
      have counted := congrArg List.length same
      rw [List.length_map, representTable, eq_comm, List.filterMap_length_eq_length] at counted
      simpa using counted
    · intro known
      have single := fun entry inside => (readProperty_own_iff cases (wellTyped entry inside) []).mpr
        (known signed entry inside)
      constructor
      · intro use used
        rcases List.mem_cons.mp used with rfl | used
        · exact ⟨_, congrArg List.head? isBody, rfl⟩
        · obtain ⟨entry, inside, used⟩ := List.mem_flatMap.mp used
          exact (readEntry_proper_iff cases entry).mpr (single entry inside).1 use used
      · rintro table ⟨⟩
        rw [representTable, List.filterMap_congr fun entry inside => congrArg (Option.map _) (single entry inside).2]
        exact (congrFun List.filterMap_eq_map' entries).symm
  · apply iff_of_true _ fun isTable => absurd isTable signed
    rw [readTable, if_neg signed]
    exact ⟨nofun, nofun⟩

/-! ## Harmless uses -/

/-- An array that is read as one of strings is one. -/
def ReadsTexts : Data → Prop
  | .array _ items => ∀ item ∈ items, isText item.type = true
  | _ => True

theorem readCase_uses_iff (value : Data) : (∀ use ∈ (readCase value).2, use.Proper) ↔ ReadsTexts value := by
  cases value with
  | array item items =>
      constructor
      · intro proper item listed
        exact readWide_string_proper.mp (proper _ (.tail _ (List.mem_map_of_mem listed)))
      · intro texts
        exact List.forall_mem_cons.mpr ⟨⟨_, rfl, rfl⟩, (readStrings_text texts).2⟩
  | string text => exact iff_of_true (List.forall_mem_singleton.mpr (readWide_string_proper.mpr rfl)) trivial
  | objectPath text => exact iff_of_true (List.forall_mem_singleton.mpr (readWide_string_proper.mpr rfl)) trivial
  | int32 number => exact iff_of_true (List.forall_mem_singleton.mpr (readWide_proper rfl nofun)) trivial
  | uint32 number => exact iff_of_true (List.forall_mem_singleton.mpr (readWide_proper rfl nofun)) trivial
  | uint64 number => exact iff_of_true (List.forall_mem_singleton.mpr (readWide_proper rfl nofun)) trivial
  | int64 number => exact iff_of_true (List.forall_mem_singleton.mpr (readWide_proper rfl nofun)) trivial
  | boolean truth => exact iff_of_true (List.forall_mem_singleton.mpr (readWide_proper rfl nofun)) trivial
  | double bits => exact iff_of_true (List.forall_mem_singleton.mpr (readWide_proper rfl nofun)) trivial
  | _ => exact iff_of_true nofun trivial

theorem readProperty_uses_iff (cases : DataType → Bool) (value : Data) (rest : Cursor) :
    (∀ use ∈ (readProperty cases (value :: rest)).2, use.Proper) ↔ (cases value.type = true → ReadsTexts value) := by
  cases isCase : cases value.type with
  | false =>
      rw [readProperty_skip isCase]
      exact iff_of_true nofun nofun
  | true =>
      rw [readProperty_case isCase, readCase_uses_iff]
      simp

/-- A function with a case for arrays. -/
theorem readProperty_uses_arrays_iff {cases : DataType → Bool} (arrays : ∀ item, cases (.array item) = true)
    (value : Data) (rest : Cursor) :
    (∀ use ∈ (readProperty cases (value :: rest)).2, use.Proper) ↔ ReadsTexts value := by
  rw [readProperty_uses_iff]
  cases value with
  | array item items => exact forall_prop_of_true (arrays item)
  | _ => exact iff_of_true (fun _ => trivial) trivial

/-- Of a table all values are read. -/
theorem readTable_uses_iff {cases : DataType → Bool} (arrays : ∀ item, cases (.array item) = true) (message : Semantics.Message) :
    (∀ use ∈ (readTable cases message.body).uses, use.Proper) ↔
      (Data.types message.body = tableSignature → ∀ entry ∈ tableEntries message.body, ReadsTexts entry.2) := by
  by_cases signed : Data.types message.body = tableSignature
  · obtain ⟨entries, isBody, -⟩ := body_of_tableSignature signed
    rw [readTable_entries cases isBody, tableEntries_entries isBody, forall_prop_of_true signed]
    constructor
    · intro proper entry listed
      rw [← readProperty_uses_arrays_iff arrays entry.2 [], ← readEntry_proper_iff]
      intro use used
      exact proper use (.tail _ (List.mem_flatMap.mpr ⟨entry, listed, used⟩))
    · intro texts use used
      rcases List.mem_cons.mp used with rfl | used
      · exact ⟨_, congrArg List.head? isBody, rfl⟩
      · obtain ⟨entry, listed, used⟩ := List.mem_flatMap.mp used
        have proper := (readProperty_uses_arrays_iff arrays entry.2 []).mpr (texts entry listed)
        exact (readEntry_proper_iff cases entry).mpr proper use used
  · rw [readTable, if_neg signed]
    exact iff_of_true nofun fun isTable => absurd isTable signed

/-! ## All readers -/

/-- The readers take every value of a reply for what it is, enter nothing but containers, and return
nothing but what stands for the values, if and only if the values can be represented: that of a reply
of HAL bare and by one of its four cases, that of a reply of UKit in a variant, and those of a table
all of them. -/
theorem decoders_total_iff (message : Semantics.Message) :
    (Total (Hal.unmarshalDeviceGetProperty message.body)
        (fun prop => message.body.head?.bind (represent halCases) = some prop) ↔
      (message.body.head?.bind (represent halPropertyCases)).isSome = true) ∧
    (Total (Hal.unmarshalDeviceGetAllProperties message.body)
        (· = representTable halCases (tableEntries message.body)) ↔
      (Data.types message.body = tableSignature →
        ∀ entry ∈ tableEntries message.body, (represent halCases entry.2).isSome = true)) ∧
    (Total (Ukit.unmarshalProperty message.body)
        (fun prop => (received message.body).bind (represent ukitCases) = some prop) ↔
      message.body = [] ∨
        ∃ value rest, message.body = .variant value :: rest ∧ (represent ukitCases value).isSome = true) ∧
    (Total (Ukit.unmarshalDeviceGetAllProperties message.body)
        (· = representTable ukitCases (tableEntries message.body)) ↔
      (Data.types message.body = tableSignature →
        ∀ entry ∈ tableEntries message.body, (represent ukitCases entry.2).isSome = true)) :=
  ⟨halProperty_total_iff message, readTable_total_iff halCases message, ukitProperty_total_iff message,
    readTable_total_iff ukitCases message⟩

/-- The reply to `SuspendAllowed`. -/
def suspendAllowed : Semantics.Message where
  body := [.boolean true]
  wellTyped := ⟨trivial, trivial⟩

/-- A boolean is entered. -/
theorem decoders_enter_boolean :
    ¬ ∀ message : Semantics.Message, Total (Ukit.unmarshalProperty message.body)
      (fun prop => (received message.body).bind (represent ukitCases) = some prop) := by
  intro total
  obtain ⟨data, same, container⟩ := (total suspendAllowed).uses _ (.head _)
  obtain rfl := Option.some.inj same
  cases container

end EDBus.Devices
