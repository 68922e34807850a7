import EDBus.Dbus.Decoded

/-!
# Replies of the notification daemon

The readers of the replies that a client of the daemon gets: its capabilities, what it is, and the id
of a notification. Two of them have no error for a reply with another signature.
-/

open EDBus.Semantics
open EDBus.Dbus

namespace EDBus.Notify

/-- `E_Notification_Return_Get_Server_Information`. -/
structure ServerInformation where
  name : Option String
  vendor : Option String
  version : Option String
  specVersion : Option String
deriving DecidableEq, Repr

/-- The signature `as`. -/
def capabilitiesSignature : DataTypes := .ofList [.array .string]

/-- The signature `ssss`. -/
def informationSignature : DataTypes := .ofList [.string, .string, .string, .string]

/-- The signature `sss` of older servers. -/
def oldInformationSignature : DataTypes := .ofList [.string, .string, .string]

/-- A string is read. -/
def readText (iter : Cursor) : Use := .read ⟨.string, 8, iter.head?⟩

/-- The loop of `e_notify_unmarshal_string_array_as_list`, which ends before the last item. -/
def unmarshalStrings (arr : Cursor) : List (Option String) × List Use :=
  if _more : arr.hasNext = true then
    let rest := unmarshalStrings arr.next
    (readString none arr.head? :: rest.1, readText arr :: rest.2)
  else ([], [])
termination_by arr.length
decreasing_by
  simp only [Cursor.hasNext, decide_eq_true_eq] at _more
  simp only [Cursor.next, List.length_tail]
  omega

/-- `e_notify_unmarshal_string_array_as_list`. -/
def unmarshalStringArrayAsList (iter : Cursor) : List (Option String) × List Use :=
  if iter.head?.map Data.type = some (.array .string) then
    let strings := unmarshalStrings iter.recurse
    (strings.1, .recurse iter.head? :: strings.2)
  else ([], [])

/-- `e_notify_unmarshal_get_capabilities_return`. -/
def unmarshalGetCapabilitiesReturn (msg : List Data) : Decoded (List (Option String)) :=
  if Data.types msg = capabilitiesSignature then
    let strings := unmarshalStringArrayAsList msg
    ⟨some strings.1, none, strings.2⟩
  else ⟨none, none, []⟩

/-- `e_notify_unmarshal_get_server_information_return`. -/
def unmarshalGetServerInformationReturn (msg : List Data) : Decoded ServerInformation :=
  let vendor := Cursor.next msg
  let version := vendor.next
  let specVersion := version.next
  if Data.types msg = informationSignature then
    ⟨some ⟨readString none msg.head?, readString none vendor.head?, readString none version.head?,
      readString none specVersion.head?⟩, none,
      [readText msg, readText vendor, readText version, readText specVersion]⟩
  else if Data.types msg = oldInformationSignature then
    ⟨some ⟨readString none msg.head?, readString none vendor.head?, readString none version.head?, none⟩, none,
      [readText msg, readText vendor, readText version]⟩
  else ⟨none, none, []⟩

/-- `e_notify_unmarshal_notify_return`: the id of the notification. -/
def unmarshalNotifyReturn (msg : List Data) : Decoded UInt32 :=
  match msg.head? with
  | some (.uint32 id) => ⟨some id, none, [.read ⟨.uint32, 4, some (.uint32 id)⟩]⟩
  | _ => ⟨none, some errorInvalidArgs, []⟩

/-- All strings but the last are in the list. -/
theorem unmarshalStrings_strings (strings : List String) :
    (unmarshalStrings (strings.map .string)).1 = strings.dropLast.map some ∧
      ∀ use ∈ (unmarshalStrings (strings.map .string)).2, use.Proper := by
  induction strings with
  | nil =>
      rw [List.map_nil, unmarshalStrings, dif_neg (by decide)]
      exact ⟨rfl, nofun⟩
  | cons first rest ih =>
      cases rest with
      | nil =>
          rw [List.map_cons, List.map_nil, unmarshalStrings, dif_neg (by simp [Cursor.hasNext])]
          exact ⟨rfl, nofun⟩
      | cons second others =>
          obtain ⟨listed, proper⟩ := ih
          rw [List.map_cons, unmarshalStrings, dif_pos (by simp [Cursor.hasNext])]
          constructor
          · rw [List.dropLast_cons_of_ne_nil (List.cons_ne_nil _ _)]
            exact congrArg (some first :: ·) listed
          · intro use used
            rcases List.mem_cons.mp used with rfl | later
            · exact ⟨_, rfl, rfl⟩
            · exact proper use later

/-- A reply with the signature is an array of strings. -/
theorem body_of_capabilitiesSignature {message : Semantics.Message} (signed : Data.types message.body = capabilitiesSignature) :
    ∃ strings : List String, message.body = [.array .string (strings.map .string)] := by
  obtain ⟨body, wellTyped⟩ := message
  obtain ⟨array, rest, rfl, isArray, isRest⟩ := Data.types_eq_cons signed
  obtain rfl := Data.types_eq_nil isRest
  obtain ⟨items, rfl⟩ := Data.type_eq_array isArray
  obtain ⟨strings, rfl⟩ := Data.exists_strings wellTyped.1
  exact ⟨strings, rfl⟩

theorem unmarshalStringArrayAsList_strings (strings : List String) :
    (unmarshalStringArrayAsList [.array .string (strings.map .string)]).1 = strings.dropLast.map some ∧
      ∀ use ∈ (unmarshalStringArrayAsList [.array .string (strings.map .string)]).2, use.Proper := by
  obtain ⟨listed, proper⟩ := unmarshalStrings_strings strings
  have isArray : [Data.array .string (strings.map .string)].head?.map Data.type = some (.array .string) := rfl
  rw [unmarshalStringArrayAsList, if_pos isArray]
  constructor
  · exact listed
  · intro use used
    rcases List.mem_cons.mp used with rfl | later
    · exact ⟨_, rfl, rfl⟩
    · exact proper use later

end EDBus.Notify
