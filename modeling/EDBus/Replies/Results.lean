import EDBus.Replies.Release
import EDBus.Replies.TypedCalls

/-!
# Release of results

What is left of a method call once its callback was run, for every reader that the library passes to
`e_dbus_method_call_send`. The readers of tables and of capabilities are those of `Release`.
-/

open EDBus.Semantics
open EDBus.Dbus

namespace EDBus.Replies

open EDBus.Notify EDBus.Devices

/-! ## What is acquired -/

/-- `unmarshal_string_list`, for HAL and for UKit. -/
def acquireStringList (item : DataType) (msg : List Data) : Option (List Resource) :=
  if Data.types msg = .ofList [.array item] then (acquireStrings (Cursor.recurse msg)).map (.record :: ·)
  else some []

/-- `unmarshal_device_query_capability` and `unmarshal_manager_device_exists`. Where an error is set, the
result is freed at once. -/
def acquireBool (msg : List Data) : Option (List Resource) :=
  match msg.head? with
  | some (.boolean _) => some [.record]
  | _ => some []

/-- The readers of a single property, from the allocation on. -/
def acquireResult (cases : DataType → Bool) (iter : Cursor) : Option (List Resource) :=
  match iter.head? with
  | none => some [.record]
  | some value => (acquireProperty cases value).map (.record :: ·)

/-- `unmarshal_device_get_property` of HAL. -/
def acquireHalProperty (msg : List Data) : Option (List Resource) := acquireResult halPropertyCases msg

/-- `unmarshal_property` of UKit. Nothing is known of an iterator that was to enter something else than a
container. -/
def acquireUkitProperty (msg : List Data) : Option (List Resource) :=
  match msg with
  | [] => some []
  | value :: _ => if isContainer value.type then acquireResult ukitCases value.contents else none

/-- `e_notify_unmarshal_get_server_information_return`. The strings are those of the message. -/
def acquireServerInformation (msg : List Data) : Option (List Resource) :=
  if Data.types msg = informationSignature then some [.record]
  else if Data.types msg = oldInformationSignature then some [.record]
  else some []

/-- `e_notify_unmarshal_notify_return`. Where an error is set, the result is freed at once. -/
def acquireNotifyReturn (msg : List Data) : Option (List Resource) :=
  match msg.head? with
  | some (.uint32 _) => some [.record]
  | _ => some []

/-! ## What is released -/

/-- `free_string_list`, for HAL and for UKit. -/
def freeStringList (strings : List (Option String)) : List Resource :=
  .record :: strings.flatMap fun text => heldString text ++ [.node]

/-- `free_device_get_property` of HAL and `free_property` of UKit. Unlike `e_ukit_property_free`, the
latter releases strings. -/
def freeProperty (prop : Property) : List Resource :=
  .record ::
    match prop.type, prop.val with
    | .strlist, .strlist strings => strings.flatMap fun text => heldString text ++ [.node]
    | .string, .s text => heldString text
    | _, _ => []

/-- `free_device_query_capability` and `free_manager_device_exists`. -/
def freeBool (_boolean : Bool) : List Resource := [.record]

/-- `e_notify_free_get_server_information_return`. -/
def freeServerInformation (_info : ServerInformation) : List Resource := [.record]

/-- `e_notify_free_notify_return`. -/
def freeNotifyReturn (_id : UInt32) : List Resource := [.record]

/-- What the reader acquires for a message is what the function released that was passed with it. -/
def Reader.Restores (message : Semantics.Message) : Reader → Prop
  | .getCapabilities =>
    Dbus.Restores (acquireCapabilities message.body) (unmarshalGetCapabilitiesReturn message.body).result
      freeCapabilities
  | .getServerInformation =>
    Dbus.Restores (acquireServerInformation message.body) (unmarshalGetServerInformationReturn message.body).result
      freeServerInformation
  | .notify =>
    Dbus.Restores (acquireNotifyReturn message.body) (unmarshalNotifyReturn message.body).result freeNotifyReturn
  | .halGetProperty =>
    Dbus.Restores (acquireHalProperty message.body) (Hal.unmarshalDeviceGetProperty message.body).result freeProperty
  | .halGetAllProperties =>
    Dbus.Restores (acquireTable halCases message.body) (Hal.unmarshalDeviceGetAllProperties message.body).result
      (freeTable halPropertyFree)
  | .halStringList =>
    Dbus.Restores (acquireStringList .string message.body) (Hal.unmarshalStringList message.body).result freeStringList
  | .halQueryCapability =>
    Dbus.Restores (acquireBool message.body) (Hal.unmarshalDeviceQueryCapability message.body).result freeBool
  | .halDeviceExists =>
    Dbus.Restores (acquireBool message.body) (Hal.unmarshalManagerDeviceExists message.body).result freeBool
  | .ukitProperty =>
    Dbus.Restores (acquireUkitProperty message.body) (Ukit.unmarshalProperty message.body).result freeProperty
  | .ukitGetAllProperties =>
    Dbus.Restores (acquireTable ukitCases message.body) (Ukit.unmarshalDeviceGetAllProperties message.body).result
      (freeTable ukitPropertyFree)
  | .ukitStringList =>
    Dbus.Restores (acquireStringList .objectPath message.body) (Ukit.unmarshalStringList message.body).result
      freeStringList

/-- The messages of which everything is released: at most one capability, no strings in a table of UKit,
a container for a property of UKit, and no arrays but of texts where any array is read as one. -/
def Reader.Restorable (body : List Data) : Reader → Prop
  | .getCapabilities => ∀ strings : List String, body = [.array .string (strings.map .string)] → strings.length < 2
  | .halGetAllProperties => TextTable body
  | .ukitGetAllProperties => Data.types body = tableSignature → ∀ entry ∈ tableEntries body, Stringless entry.2
  | .ukitProperty =>
    ∀ value rest, body = value :: rest →
      isContainer value.type = true ∧ ∀ first, value.contents.head? = some first → ReadsTexts first
  | _ => True

/-! ## Each reader -/

variable (message : Semantics.Message)

theorem stringList_restores {item : DataType} (text : isText item = true) :
    Dbus.Restores (acquireStringList item message.body) (readStringList item message.body).result freeStringList := by
  by_cases signed : Data.types message.body = .ofList [.array item]
  · obtain ⟨array, rest, isBody, isArray, -⟩ := Data.types_eq_cons signed
    obtain ⟨items, rfl⟩ := Data.type_eq_array isArray
    have wellTyped := message.wellTyped
    rw [isBody] at wellTyped
    have texts : ∀ data ∈ items, isText data.type = true := by
      intro data listed
      rw [wellTyped.1.1 data listed]
      exact text
    have recursed : Cursor.recurse message.body = items := by
      rw [isBody]
      rfl
    rw [acquireStringList, if_pos signed, readStringList, if_pos signed, recursed, acquireStrings_text texts]
    refine ⟨_, rfl, Holdings.returns_iff_perm.mpr (.cons _ ?_)⟩
    rw [(readStrings_text texts).1, List.flatMap_map]
    exact .refl _
  · rw [acquireStringList, if_neg signed, readStringList, if_neg signed]
    exact ⟨[], rfl, Holdings.returns_iff_perm.mpr (.refl _)⟩

theorem bool_restores : Dbus.Restores (acquireBool message.body) (readBool message.body).result freeBool := by
  unfold acquireBool readBool
  generalize message.body.head? = first
  cases first with
  | none => exact ⟨_, rfl, Holdings.returns_iff_perm.mpr (.refl _)⟩
  | some value => cases value <;> exact ⟨_, rfl, Holdings.returns_iff_perm.mpr (.refl _)⟩

theorem notifyReturn_restores :
    Dbus.Restores (acquireNotifyReturn message.body) (unmarshalNotifyReturn message.body).result freeNotifyReturn := by
  unfold acquireNotifyReturn unmarshalNotifyReturn
  generalize message.body.head? = first
  cases first with
  | none => exact ⟨_, rfl, Holdings.returns_iff_perm.mpr (.refl _)⟩
  | some value => cases value <;> exact ⟨_, rfl, Holdings.returns_iff_perm.mpr (.refl _)⟩

theorem serverInformation_restores :
    Dbus.Restores (acquireServerInformation message.body) (unmarshalGetServerInformationReturn message.body).result
      freeServerInformation := by
  unfold acquireServerInformation unmarshalGetServerInformationReturn
  dsimp only
  split
  · exact ⟨_, rfl, Holdings.returns_iff_perm.mpr (.refl _)⟩
  · split
    · exact ⟨_, rfl, Holdings.returns_iff_perm.mpr (.refl _)⟩
    · exact ⟨_, rfl, Holdings.returns_iff_perm.mpr (.refl _)⟩

/-- The result for a value is released as it was acquired, if it can be told what was acquired. -/
theorem freeProperty_acquired (cases : DataType → Bool) (value : Data) :
    Dbus.Restores (acquireResult cases [value]) (some (readProperty cases [value]).1) freeProperty ↔
      (cases value.type = true → ReadsTexts value) := by
  have isResult : acquireResult cases [value] = (acquireProperty cases value).map (.record :: ·) := rfl
  rw [isResult]
  cases isCase : cases value.type with
  | false =>
      have isNew : readProperty cases [value] = (propertyNew, []) := by
        rw [readProperty]
        simp [isCase]
      rw [acquireProperty, isCase, isNew]
      exact iff_of_true ⟨_, rfl, Holdings.returns_iff_perm.mpr (.refl _)⟩ fun isTrue => absurd isTrue Bool.false_ne_true
  | true =>
      have isRead : readProperty cases [value] = readCase value := by
        rw [readProperty]
        simp [isCase]
      rw [acquireProperty, isCase, if_pos rfl, isRead, forall_prop_of_true rfl]
      cases value with
      | array item items =>
          constructor
          · rintro ⟨held, acquired, -⟩
            obtain ⟨strings, acquired, -⟩ := Option.map_eq_some_iff.mp acquired
            rw [acquireCase, acquireStrings] at acquired
            split at acquired
            · next texts => exact List.all_eq_true.mp texts
            · cases acquired
          · intro texts
            obtain ⟨same, -⟩ := readStrings_text texts
            rw [acquireCase, acquireStrings_text texts]
            refine ⟨_, rfl, Holdings.returns_iff_perm.mpr (.cons _ ?_)⟩
            show List.Perm _ ((readStrings items).1.flatMap fun text => heldString text ++ [.node])
            rw [same, List.flatMap_map]
            exact .refl _
      | _ => exact iff_of_true ⟨_, rfl, Holdings.returns_iff_perm.mpr (.refl _)⟩ trivial

theorem halProperty_restores :
    Dbus.Restores (acquireHalProperty message.body) (Hal.unmarshalDeviceGetProperty message.body).result
      freeProperty := by
  obtain ⟨body, wellTyped⟩ := message
  cases body with
  | nil => exact ⟨_, rfl, Holdings.returns_iff_perm.mpr (.refl _)⟩
  | cons value rest =>
      refine (freeProperty_acquired halPropertyCases value).mpr fun isCase => ?_
      -- The reader of HAL has no case for arrays.
      cases value with
      | array item items => cases isCase
      | _ => trivial

/-- What the reader of UKit acquires in the container of a property. -/
theorem ukitResult_restores_iff (value : Data) :
    Dbus.Restores (acquireResult ukitCases value.contents) (some (readProperty ukitCases value.contents).1)
        freeProperty ↔
      ∀ first, value.contents.head? = some first → ReadsTexts first := by
  cases value.contents with
  | nil => exact iff_of_true ⟨_, rfl, Holdings.returns_iff_perm.mpr (.refl _)⟩ nofun
  | cons first others =>
      refine (freeProperty_acquired ukitCases first).trans ?_
      constructor
      · rintro texts other ⟨⟩
        cases first with
        | array item items => exact texts rfl
        | _ => trivial
      · exact fun texts _ => texts first rfl

theorem ukitProperty_restores_iff :
    Dbus.Restores (acquireUkitProperty message.body) (Ukit.unmarshalProperty message.body).result freeProperty ↔
      ∀ value rest, message.body = value :: rest →
        isContainer value.type = true ∧ ∀ first, value.contents.head? = some first → ReadsTexts first := by
  obtain ⟨body, wellTyped⟩ := message
  cases body with
  | nil => exact iff_of_true ⟨_, rfl, Holdings.returns_iff_perm.mpr (.refl _)⟩ nofun
  | cons value rest =>
      have entered : Dbus.Restores (acquireUkitProperty (value :: rest))
          (Ukit.unmarshalProperty (value :: rest)).result freeProperty ↔
          isContainer value.type = true ∧ ∀ first, value.contents.head? = some first → ReadsTexts first := by
        rw [← ukitResult_restores_iff]
        cases container : isContainer value.type with
        | true =>
            rw [acquireUkitProperty, if_pos container, and_iff_right rfl]
            exact Iff.rfl
        | false =>
            have unknown : acquireUkitProperty (value :: rest) = none := if_neg (Bool.eq_false_iff.mp container)
            rw [unknown]
            constructor
            · rintro ⟨held, acquired, -⟩
              cases acquired
            · rintro ⟨entered, -⟩
              cases entered
      refine entered.trans ?_
      constructor
      · rintro texts value rest ⟨⟩
        exact texts
      · exact fun texts => texts value rest rfl

/-! ## All readers -/

/-- What the reader of a reply acquires is released once the callback was run, if and only if the message is
restorable. -/
theorem reader_restores_iff (reader : Reader) : reader.Restores message ↔ reader.Restorable message.body := by
  cases reader with
  | getCapabilities => exact capabilities_restores_iff message
  | getServerInformation => exact iff_of_true (serverInformation_restores message) trivial
  | notify => exact iff_of_true (notifyReturn_restores message) trivial
  | halGetProperty => exact iff_of_true (halProperty_restores message) trivial
  | halGetAllProperties => exact halTable_restores_iff message
  | halStringList => exact iff_of_true (stringList_restores message rfl) trivial
  | halQueryCapability => exact iff_of_true (bool_restores message) trivial
  | halDeviceExists => exact iff_of_true (bool_restores message) trivial
  | ukitProperty => exact ukitProperty_restores_iff message
  | ukitGetAllProperties => exact ukitTable_restores_iff message
  | ukitStringList => exact iff_of_true (stringList_restores message rfl) trivial

end EDBus.Replies
