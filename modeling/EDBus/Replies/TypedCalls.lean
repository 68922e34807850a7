import EDBus.Dbus.MethodCall
import EDBus.Devices.PropertyTypes
import EDBus.Notify.Replies

/-!
# The readers of replies

The functions that the library passes to `e_dbus_method_call_send`. `typed_calls_settled_iff` says for
each of them which replies end a call with a result or an error.
-/

open EDBus.Semantics
open EDBus.Dbus

namespace EDBus.Replies

open EDBus.Notify EDBus.Devices

/-- A reader of replies, with the function that frees its results. -/
inductive Reader where
  | getCapabilities
  | getServerInformation
  | notify
  | halGetProperty
  | halGetAllProperties
  | halStringList
  | halQueryCapability
  | halDeviceExists
  | ukitProperty
  | ukitGetAllProperties
  | ukitStringList
deriving DecidableEq, Repr

/-- A call with the reader is settled. -/
def Reader.Settles (outcome : SendOutcome) (reply : Reply Semantics.Message) : Reader → Prop
  | .getCapabilities => Settled unmarshalGetCapabilitiesReturn outcome reply
  | .getServerInformation => Settled unmarshalGetServerInformationReturn outcome reply
  | .notify => Settled unmarshalNotifyReturn outcome reply
  | .halGetProperty => Settled Hal.unmarshalDeviceGetProperty outcome reply
  | .halGetAllProperties => Settled Hal.unmarshalDeviceGetAllProperties outcome reply
  | .halStringList => Settled Hal.unmarshalStringList outcome reply
  | .halQueryCapability => Settled Hal.unmarshalDeviceQueryCapability outcome reply
  | .halDeviceExists => Settled Hal.unmarshalManagerDeviceExists outcome reply
  | .ukitProperty => Settled Ukit.unmarshalProperty outcome reply
  | .ukitGetAllProperties => Settled Ukit.unmarshalDeviceGetAllProperties outcome reply
  | .ukitStringList => Settled Ukit.unmarshalStringList outcome reply

/-- The arrays of a table are arrays of strings. -/
def TextTable (body : List Data) : Prop :=
  Data.types body = tableSignature → ∀ entry ∈ tableEntries body, ReadsTexts entry.2

/-- The replies that a reader decides on: two readers need their signature, as they have no error for
another one, the reader of a property of UKit needs a container, and arrays are arrays of strings. -/
def Reader.Readable (body : List Data) : Reader → Prop
  | .getCapabilities => Data.types body = capabilitiesSignature
  | .getServerInformation => Data.types body = informationSignature ∨ Data.types body = oldInformationSignature
  | .halGetAllProperties => TextTable body
  | .ukitGetAllProperties => TextTable body
  | .ukitProperty =>
    ∃ value rest, body = value :: rest ∧ isContainer value.type = true ∧
      ∀ first, value.contents.head? = some first → ReadsTexts first
  | _ => True

/-! ## Each reader -/

variable (message : Semantics.Message)

theorem getCapabilities_decides_iff :
    Decides unmarshalGetCapabilitiesReturn (.methodReturn message) ↔
      Data.types message.body = capabilitiesSignature := by
  by_cases signed : Data.types message.body = capabilitiesSignature
  · obtain ⟨strings, isBody⟩ := body_of_capabilitiesSignature signed
    rw [Decides, unmarshalGetCapabilitiesReturn, if_pos signed, isBody]
    exact iff_of_true ⟨rfl, (unmarshalStringArrayAsList_strings strings).2⟩ rfl
  · rw [Decides, unmarshalGetCapabilitiesReturn, if_neg signed]
    exact iff_of_false (fun decides => nomatch decides.1) signed

theorem getServerInformation_decides_iff :
    Decides unmarshalGetServerInformationReturn (.methodReturn message) ↔
      Data.types message.body = informationSignature ∨ Data.types message.body = oldInformationSignature := by
  by_cases signed : Data.types message.body = informationSignature
  · obtain ⟨name, body, isBody, isName, signedBody⟩ := Data.types_eq_cons signed
    obtain ⟨vendor, body, rfl, isVendor, signedBody⟩ := Data.types_eq_cons signedBody
    obtain ⟨version, body, rfl, isVersion, signedBody⟩ := Data.types_eq_cons signedBody
    obtain ⟨spec, body, rfl, isSpec, -⟩ := Data.types_eq_cons signedBody
    rw [Decides, unmarshalGetServerInformationReturn, if_pos signed, iff_true_intro (Or.inl signed), isBody]
    have text := fun {data : Data} (typed : data.type = .string) =>
      (⟨data, rfl, by rw [if_pos rfl, typed]; rfl⟩ : (Use.read ⟨.string, 8, some data⟩).Proper)
    refine iff_of_true ⟨rfl, ?_⟩ trivial
    exact List.forall_mem_cons.mpr ⟨text isName, List.forall_mem_cons.mpr ⟨text isVendor,
      List.forall_mem_cons.mpr ⟨text isVersion, List.forall_mem_singleton.mpr (text isSpec)⟩⟩⟩
  · by_cases old : Data.types message.body = oldInformationSignature
    · obtain ⟨name, body, isBody, isName, signedBody⟩ := Data.types_eq_cons old
      obtain ⟨vendor, body, rfl, isVendor, signedBody⟩ := Data.types_eq_cons signedBody
      obtain ⟨version, body, rfl, isVersion, -⟩ := Data.types_eq_cons signedBody
      rw [Decides, unmarshalGetServerInformationReturn, if_neg signed, if_pos old, iff_true_intro (Or.inr old), isBody]
      have text := fun {data : Data} (typed : data.type = .string) =>
        (⟨data, rfl, by rw [if_pos rfl, typed]; rfl⟩ : (Use.read ⟨.string, 8, some data⟩).Proper)
      refine iff_of_true ⟨rfl, ?_⟩ trivial
      exact List.forall_mem_cons.mpr ⟨text isName, List.forall_mem_cons.mpr ⟨text isVendor,
        List.forall_mem_singleton.mpr (text isVersion)⟩⟩
    · rw [Decides, unmarshalGetServerInformationReturn, if_neg signed, if_neg old]
      exact iff_of_false (fun decides => nomatch decides.1) (fun either => either.elim signed old)

theorem notify_decides : Decides unmarshalNotifyReturn (.methodReturn message) := by
  rw [Decides]
  unfold unmarshalNotifyReturn
  split
  · exact ⟨rfl, List.forall_mem_singleton.mpr ⟨_, rfl, by rw [if_neg nofun]; rfl⟩⟩
  · exact ⟨rfl, nofun⟩

theorem readBool_decides : Decides readBool (.methodReturn message) := by
  rw [Decides]
  unfold readBool
  split
  · exact ⟨rfl, List.forall_mem_singleton.mpr ⟨_, rfl, by rw [if_neg nofun]; rfl⟩⟩
  · exact ⟨rfl, nofun⟩

/-- A list of strings or paths. -/
theorem readStringList_decides {item : DataType} (text : isText item = true) :
    Decides (readStringList item) (.methodReturn message) := by
  by_cases signed : Data.types message.body = .ofList [.array item]
  · obtain ⟨array, rest, isBody, isArray, -⟩ := Data.types_eq_cons signed
    obtain ⟨items, rfl⟩ := Data.type_eq_array isArray
    have wellTyped := message.wellTyped
    rw [isBody] at wellTyped
    have texts : ∀ data ∈ items, isText data.type = true := by
      intro data listed
      rw [wellTyped.1.1 data listed]
      exact text
    rw [Decides, readStringList, if_pos signed, isBody]
    exact ⟨rfl, List.forall_mem_cons.mpr ⟨⟨_, rfl, rfl⟩, (readStrings_text texts).2⟩⟩
  · rw [Decides, readStringList, if_neg signed]
    exact ⟨rfl, nofun⟩

theorem readTable_decides_iff {cases : DataType → Bool} (arrays : ∀ item, cases (.array item) = true) :
    Decides (readTable cases) (.methodReturn message) ↔ TextTable message.body := by
  have decided : (readTable cases message.body).Decided := by
    unfold readTable
    split <;> rfl
  exact (and_iff_right decided).trans (readTable_uses_iff arrays message)

theorem halGetProperty_decides : Decides Hal.unmarshalDeviceGetProperty (.methodReturn message) := by
  obtain ⟨body, wellTyped⟩ := message
  cases body with
  | nil => exact ⟨rfl, nofun⟩
  | cons value rest =>
      refine ⟨rfl, (readProperty_uses_iff halPropertyCases value rest).mpr fun isCase => ?_⟩
      cases value with
      | array item items => cases isCase
      | _ => trivial

theorem ukitProperty_decides_iff :
    Decides Ukit.unmarshalProperty (.methodReturn message) ↔
      ∃ value rest, message.body = value :: rest ∧ isContainer value.type = true ∧
        ∀ first, value.contents.head? = some first → ReadsTexts first := by
  obtain ⟨body, wellTyped⟩ := message
  cases body with
  | nil => exact iff_of_false (fun decides => nomatch decides.1) nofun
  | cons value rest =>
      have entered : (∀ use ∈ (readProperty ukitCases value.contents).2, use.Proper) ↔
          ∀ first, value.contents.head? = some first → ReadsTexts first := by
        cases value.contents with
        | nil => exact iff_of_true nofun nofun
        | cons first others =>
            rw [readProperty_uses_arrays_iff (fun _ => rfl), List.head?_cons]
            simp
      constructor
      · rintro ⟨-, uses⟩
        obtain ⟨⟨data, same, container⟩, proper⟩ := List.forall_mem_cons.mp uses
        obtain rfl := Option.some.inj same
        exact ⟨value, rest, rfl, container, entered.mp proper⟩
      · rintro ⟨value, rest, ⟨⟩, container, texts⟩
        exact ⟨rfl, List.forall_mem_cons.mpr ⟨⟨_, rfl, container⟩, entered.mpr texts⟩⟩

/-! ## All readers -/

/-- The callback of a call is run once, with a result or an error, and the result and the record are freed, if and
only if the call is sent and waited for, and the reply is an error or one that the reader decides on. -/
theorem typed_calls_settled_iff (reader : Reader) (outcome : SendOutcome) (reply : Reply Semantics.Message) :
    reader.Settles outcome reply ↔
      outcome = .pending true ∧ ∀ msg, reply = .methodReturn msg → reader.Readable msg.body := by
  have settled : ∀ {Result : Type} {unmarshal : List Data → Decoded Result} {readable : Semantics.Message → Prop},
      (∀ msg, Decides unmarshal (.methodReturn msg) ↔ readable msg) →
        (Settled unmarshal outcome reply ↔
          outcome = .pending true ∧ ∀ msg, reply = .methodReturn msg → readable msg) := by
    intro Result unmarshal readable decides
    rw [settled_iff]
    cases reply with
    | error err => exact and_congr_right fun _ => iff_of_true trivial nofun
    | methodReturn msg =>
        apply and_congr_right
        intro _
        rw [decides]
        constructor
        · rintro isReadable msg ⟨⟩
          exact isReadable
        · intro isReadable
          exact isReadable msg rfl
  cases reader with
  | getCapabilities => exact settled getCapabilities_decides_iff
  | getServerInformation => exact settled getServerInformation_decides_iff
  | notify => exact settled fun msg => iff_of_true (notify_decides msg) trivial
  | halGetProperty => exact settled fun msg => iff_of_true (halGetProperty_decides msg) trivial
  | halGetAllProperties => exact settled fun msg => readTable_decides_iff msg fun _ => rfl
  | halStringList => exact settled fun msg => iff_of_true (readStringList_decides msg rfl) trivial
  | halQueryCapability => exact settled fun msg => iff_of_true (readBool_decides msg) trivial
  | halDeviceExists => exact settled fun msg => iff_of_true (readBool_decides msg) trivial
  | ukitProperty => exact settled ukitProperty_decides_iff
  | ukitGetAllProperties => exact settled fun msg => readTable_decides_iff msg fun _ => rfl
  | ukitStringList => exact settled fun msg => iff_of_true (readStringList_decides msg rfl) trivial

/-- A reply without values. -/
def emptyReply : Semantics.Message := ⟨[], trivial⟩

/-- Neither capabilities nor an error come out of an empty reply. -/
theorem typed_calls_fail_empty :
    ¬ ∀ (reader : Reader) (outcome : SendOutcome) (reply : Reply Semantics.Message), reader.Settles outcome reply := by
  intro settles
  have settled : Settled unmarshalGetCapabilitiesReturn (.pending true) (.methodReturn emptyReply) :=
    settles .getCapabilities (.pending true) (.methodReturn emptyReply)
  exact nomatch ((settled_iff _ _ _).mp settled).2.1

end EDBus.Replies
