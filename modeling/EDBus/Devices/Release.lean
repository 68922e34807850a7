import EDBus.Devices.PropertyTypes

/-!
# Release of properties

What the readers of tables acquire for the entries, and what the functions that free a table
release. HAL releases the strings of a property, and UKit does not.
-/

open EDBus.Semantics
open EDBus.Dbus

namespace EDBus.Devices

/-! ## What is acquired -/

/-- The strings of an array, with a node for each of them. -/
def acquireStrings (items : List Data) : Option (List Resource) :=
  if items.all fun item => isText item.type then
    some ((items.filterMap textOf).flatMap fun text => [.string text, .node])
  else none

/-- The branch of `readCase` for a value. -/
def acquireCase : Data → Option (List Resource)
  | .string text => some [.string text]
  | .objectPath text => some [.string text]
  | .array _ items => acquireStrings items
  | _ => some []

/-- The `switch` of `readProperty`. -/
def acquireProperty (cases : DataType → Bool) (value : Data) : Option (List Resource) :=
  if cases value.type then acquireCase value else some []

/-- The loop over the entries. -/
def acquireEntries (cases : DataType → Bool) : List (String × Data) → Option (List Resource)
  | [] => some []
  | entry :: rest =>
    (acquireProperty cases entry.2).bind fun here =>
      (acquireEntries cases rest).map fun later => .property :: .element :: (here ++ later)

/-- `unmarshal_device_get_all_properties`. -/
def acquireTable (cases : DataType → Bool) (msg : List Data) : Option (List Resource) :=
  if Data.types msg = tableSignature then
    (acquireEntries cases (tableEntries msg)).map fun held => .record :: .hash :: held
  else some []

/-! ## What is released -/

/-- `e_hal_property_free`. -/
def halPropertyFree (prop : Property) : List Resource :=
  .property ::
    match prop.type, prop.val with
    | .strlist, .strlist strings => strings.flatMap fun text => heldString text ++ [.node]
    | .string, .s text => heldString text
    | _, _ => []

/-- `e_ukit_property_free`. The strings stay, those of a list, too. -/
def ukitPropertyFree (prop : Property) : List Resource :=
  .property ::
    match prop.type, prop.val with
    | .strlist, .strlist strings => strings.map fun _ => .node
    | _, _ => []

/-- `free_device_get_all_properties`. The hash frees all of its elements, whatever their keys. -/
def freeTable (propertyFree : Property → List Resource) (table : Properties) : List Resource :=
  .record :: .hash :: table.flatMap fun entry => .element :: propertyFree entry.2

/-! ## One entry -/

variable {cases : DataType → Bool}

theorem acquireStrings_text {items : List Data} (text : ∀ item ∈ items, isText item.type = true) :
    acquireStrings items = some ((items.filterMap textOf).flatMap fun text => [.string text, .node]) :=
  if_pos (List.all_eq_true.mpr text)

/-- HAL releases what it acquired for a value. -/
theorem halPropertyFree_acquired {value : Data} (texts : ReadsTexts value) :
    ∃ held, acquireProperty halCases value = some held ∧
      (.property :: held).Perm (halPropertyFree (readProperty halCases [value]).1) := by
  cases value with
  | string text => exact ⟨_, rfl, .refl _⟩
  | array item items =>
      obtain ⟨same, -⟩ := readStrings_text texts
      refine ⟨_, acquireStrings_text texts, .cons _ ?_⟩
      show List.Perm _ ((readStrings items).1.flatMap fun text => heldString text ++ [.node])
      rw [same, List.flatMap_map]
      exact .refl _
  | _ => exact ⟨[], rfl, .refl _⟩

/-- The value holds no strings: it is none, and an array has no items. -/
def Stringless : Data → Prop
  | .string _ => False
  | .objectPath _ => False
  | .array _ items => items = []
  | _ => True

/-- UKit releases what it acquired for a value without strings. -/
theorem ukitPropertyFree_acquired {value : Data} (stringless : Stringless value) :
    acquireProperty ukitCases value = some [] ∧ ukitPropertyFree (readProperty ukitCases [value]).1 = [.property] := by
  cases value with
  | string text => exact stringless.elim
  | objectPath text => exact stringless.elim
  | array item items =>
      obtain rfl : items = [] := stringless
      exact ⟨rfl, rfl⟩
  | _ => exact ⟨rfl, rfl⟩

/-- A reference on a string. -/
def isReference : Resource → Bool
  | .string _ => true
  | _ => false

/-- A value with strings makes UKit acquire them. -/
theorem stringless_of_acquired {value : Data} {held : List Resource}
    (acquired : acquireProperty ukitCases value = some held) (none : ∀ kept ∈ held, isReference kept = false) :
    Stringless value := by
  cases value with
  | string text =>
      obtain rfl := Option.some.inj acquired
      cases none _ (.head _)
  | objectPath text =>
      obtain rfl := Option.some.inj acquired
      cases none _ (.head _)
  | array item items =>
      cases items with
      | nil => rfl
      | cons first rest =>
          -- The strings of the array were acquired, and there is a first one.
          change acquireStrings (first :: rest) = some held at acquired
          unfold acquireStrings at acquired
          split at acquired
          · next texts =>
              obtain ⟨text, isText, -⟩ := isText_type (List.all_eq_true.mp texts first (.head _))
              obtain rfl := Option.some.inj acquired
              rw [List.filterMap_cons_some isText, List.flatMap_cons] at none
              cases none (.string text) (.head _)
          · cases acquired
  | _ => trivial

/-! ## Tables -/

/-- HAL releases what it acquired for the entries. -/
theorem halEntries_acquired {entries : List (String × Data)} (texts : ∀ entry ∈ entries, ReadsTexts entry.2) :
    ∃ held, acquireEntries halCases entries = some held ∧
      held.Perm ((entries.map fun entry => (entry.1, (readProperty halCases [entry.2]).1)).flatMap fun entry =>
        .element :: halPropertyFree entry.2) := by
  induction entries with
  | nil => exact ⟨[], rfl, .refl _⟩
  | cons entry rest ih =>
      obtain ⟨here, acquiredHere, releasedHere⟩ := halPropertyFree_acquired (texts entry (.head _))
      obtain ⟨later, acquiredLater, releasedLater⟩ := ih fun entry listed => texts entry (.tail _ listed)
      refine ⟨.property :: .element :: (here ++ later), ?_, ?_⟩
      · rw [acquireEntries, acquiredHere, acquiredLater]
        rfl
      · rw [List.map_cons, List.flatMap_cons]
        have swapped : (Resource.property :: .element :: (here ++ later)).Perm
            (.element :: ((.property :: here) ++ later)) := .swap _ _ _
        exact swapped.trans (.cons _ (releasedHere.append releasedLater))

/-- The entries make HAL acquire something that can be told only if their arrays are arrays of strings. -/
theorem texts_of_acquired (arrays : ∀ item, cases (.array item) = true) {entries : List (String × Data)}
    {held : List Resource} (acquired : acquireEntries cases entries = some held) :
    ∀ entry ∈ entries, ReadsTexts entry.2 := by
  induction entries generalizing held with
  | nil => exact nofun
  | cons entry rest ih =>
      obtain ⟨here, acquiredHere, acquired⟩ := Option.bind_eq_some_iff.mp acquired
      obtain ⟨later, acquiredLater, -⟩ := Option.map_eq_some_iff.mp acquired
      rw [List.forall_mem_cons]
      refine ⟨?_, ih acquiredLater⟩
      obtain ⟨name, value⟩ := entry
      cases value with
      | array item items =>
          rw [acquireProperty, Data.type, arrays, if_pos rfl, acquireCase, acquireStrings] at acquiredHere
          split at acquiredHere
          · next texts => exact List.all_eq_true.mp texts
          · cases acquiredHere
      | _ => trivial

/-- UKit releases what it acquired for entries without strings. -/
theorem ukitEntries_acquired {entries : List (String × Data)} (stringless : ∀ entry ∈ entries, Stringless entry.2) :
    ∃ held, acquireEntries ukitCases entries = some held ∧
      held.Perm ((entries.map fun entry => (entry.1, (readProperty ukitCases [entry.2]).1)).flatMap fun entry =>
        .element :: ukitPropertyFree entry.2) := by
  induction entries with
  | nil => exact ⟨[], rfl, .refl _⟩
  | cons entry rest ih =>
      obtain ⟨acquiredHere, releasedHere⟩ := ukitPropertyFree_acquired (stringless entry (.head _))
      obtain ⟨later, acquiredLater, releasedLater⟩ := ih fun entry listed => stringless entry (.tail _ listed)
      refine ⟨.property :: .element :: later, ?_, ?_⟩
      · rw [acquireEntries, acquiredHere, acquiredLater]
        rfl
      · rw [List.map_cons, List.flatMap_cons, releasedHere]
        exact (List.Perm.swap _ _ _).trans (.cons _ (.cons _ releasedLater))

/-- Entries of which no string is held have none. -/
theorem stringless_of_entries {entries : List (String × Data)} {held : List Resource}
    (acquired : acquireEntries ukitCases entries = some held) (none : ∀ kept ∈ held, isReference kept = false) :
    ∀ entry ∈ entries, Stringless entry.2 := by
  induction entries generalizing held with
  | nil => exact nofun
  | cons entry rest ih =>
      obtain ⟨here, acquiredHere, acquired⟩ := Option.bind_eq_some_iff.mp acquired
      obtain ⟨later, acquiredLater, rfl⟩ := Option.map_eq_some_iff.mp acquired
      have others : ∀ kept ∈ here ++ later, isReference kept = false :=
        fun kept listed => none kept (.tail _ (.tail _ listed))
      rw [List.forall_mem_cons]
      constructor
      · exact stringless_of_acquired acquiredHere fun kept listed => others kept (List.mem_append_left _ listed)
      · exact ih acquiredLater fun kept listed => others kept (List.mem_append_right _ listed)

/-- UKit releases no strings. -/
theorem ukitTable_unreferenced (table : Properties) : ∀ kept ∈ freeTable ukitPropertyFree table, isReference kept = false := by
  intro kept listed
  rcases List.mem_cons.mp listed with rfl | listed
  · rfl
  rcases List.mem_cons.mp listed with rfl | listed
  · rfl
  obtain ⟨entry, -, listed⟩ := List.mem_flatMap.mp listed
  rcases List.mem_cons.mp listed with rfl | listed
  · rfl
  rcases List.mem_cons.mp listed with rfl | listed
  · rfl
  split at listed
  · obtain ⟨text, -, rfl⟩ := List.mem_map.mp listed
    rfl
  · cases listed

/-- HAL gives back what it took for a table, repeated keys and all, if and only if the arrays in it are arrays
of strings. -/
theorem halTable_restores_iff (message : Semantics.Message) :
    Restores (acquireTable halCases message.body) (Hal.unmarshalDeviceGetAllProperties message.body).result
        (freeTable halPropertyFree) ↔
      (Data.types message.body = tableSignature → ∀ entry ∈ tableEntries message.body, ReadsTexts entry.2) := by
  by_cases signed : Data.types message.body = tableSignature
  · obtain ⟨entries, isBody, -⟩ := body_of_tableSignature signed
    rw [Hal.unmarshalDeviceGetAllProperties, readTable_entries halCases isBody, acquireTable, if_pos signed,
      tableEntries_entries isBody, forall_prop_of_true signed]
    constructor
    · rintro ⟨held, acquired, -⟩
      obtain ⟨inner, acquiredEntries, -⟩ := Option.map_eq_some_iff.mp acquired
      exact texts_of_acquired (fun _ => rfl) acquiredEntries
    · intro texts
      obtain ⟨held, acquired, released⟩ := halEntries_acquired texts
      refine ⟨.record :: .hash :: held, congrArg (Option.map _) acquired, Holdings.returns_iff_perm.mpr ?_⟩
      exact .cons _ (.cons _ released)
  · rw [Hal.unmarshalDeviceGetAllProperties, readTable, if_neg signed, acquireTable, if_neg signed]
    exact iff_of_true ⟨[], rfl, Holdings.returns_iff_perm.mpr (.refl _)⟩ fun isTable => absurd isTable signed

/-- UKit gives back what it took for a table if and only if there are no strings in it. -/
theorem ukitTable_restores_iff (message : Semantics.Message) :
    Restores (acquireTable ukitCases message.body) (Ukit.unmarshalDeviceGetAllProperties message.body).result
        (freeTable ukitPropertyFree) ↔
      (Data.types message.body = tableSignature → ∀ entry ∈ tableEntries message.body, Stringless entry.2) := by
  by_cases signed : Data.types message.body = tableSignature
  · obtain ⟨entries, isBody, -⟩ := body_of_tableSignature signed
    rw [Ukit.unmarshalDeviceGetAllProperties, readTable_entries ukitCases isBody, acquireTable, if_pos signed,
      tableEntries_entries isBody, forall_prop_of_true signed]
    constructor
    · rintro ⟨held, acquired, returns⟩
      obtain ⟨inner, acquiredEntries, rfl⟩ := Option.map_eq_some_iff.mp acquired
      have released := Holdings.returns_iff_perm.mp returns
      apply stringless_of_entries acquiredEntries
      intro kept listed
      exact ukitTable_unreferenced _ kept (released.mem_iff.mp (.tail _ (.tail _ listed)))
    · intro stringless
      obtain ⟨held, acquired, released⟩ := ukitEntries_acquired stringless
      refine ⟨.record :: .hash :: held, congrArg (Option.map _) acquired, Holdings.returns_iff_perm.mpr ?_⟩
      exact .cons _ (.cons _ released)
  · rw [Ukit.unmarshalDeviceGetAllProperties, readTable, if_neg signed, acquireTable, if_neg signed]
    exact iff_of_true ⟨[], rfl, Holdings.returns_iff_perm.mpr (.refl _)⟩ fun isTable => absurd isTable signed

end EDBus.Devices
