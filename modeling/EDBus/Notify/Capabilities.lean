import EDBus.Notify.Replies

/-!
# The capabilities of a daemon

`e_notify_marshal_get_capabilities_return` writes an array of C strings that ends with `NULL`, and
`e_notify_unmarshal_get_capabilities_return` reads it into a list. The writer stops at the end, the
reader at the last string, which it does not take: `capabilities_roundTrip_iff` finds the list that
survives this.
-/

open EDBus.Semantics

namespace EDBus.Notify

/-! ## Writing -/

/-- The loop of `e_notify_marshal_string_array`. It is `none` where it leaves an array that has no `NULL`. -/
def appendStrings : List (Option String) → Option (List Data)
  | [] => none
  | none :: _ => some []
  | some str :: rest => (appendStrings rest).map (.string str :: ·)

/-- `e_notify_marshal_string_array`. -/
def marshalStringArray (strings : List (Option String)) : Option Data :=
  (appendStrings strings).map (.array .string)

/-- `e_notify_marshal_get_capabilities_return`: the body of the message. -/
def marshalGetCapabilitiesReturn (capabilities : List (Option String)) : Option (List Data) :=
  (marshalStringArray capabilities).map ([·])

/-- The array for a list of strings. -/
def nullTerminated (strings : List String) : List (Option String) := strings.map some ++ [none]

theorem appendStrings_nullTerminated (strings : List String) :
    appendStrings (nullTerminated strings) = some (strings.map .string) := by
  induction strings with
  | nil => rfl
  | cons first rest ih =>
      have later : appendStrings (nullTerminated (first :: rest)) =
          (appendStrings (nullTerminated rest)).map (.string first :: ·) := rfl
      rw [later, ih]
      rfl

/-- All strings are in the message. -/
theorem marshalGetCapabilitiesReturn_nullTerminated (capabilities : List String) :
    marshalGetCapabilitiesReturn (nullTerminated capabilities) =
      some [.array .string (capabilities.map .string)] := by
  rw [marshalGetCapabilitiesReturn, marshalStringArray, appendStrings_nullTerminated]
  rfl

/-! ## Reading back -/

/-- The list is read from the message that is written for it. -/
def RoundTrips (capabilities : List String) : Prop :=
  ∃ message, marshalGetCapabilitiesReturn (nullTerminated capabilities) = some message ∧
    (unmarshalGetCapabilitiesReturn message).result = some (capabilities.map some)

/-- Of every reply the last string is lost. -/
theorem unmarshalGetCapabilitiesReturn_strings (strings : List String) :
    (unmarshalGetCapabilitiesReturn [.array .string (strings.map .string)]).result =
      some (strings.dropLast.map some) := by
  have signed : Data.types [.array .string (strings.map .string)] = capabilitiesSignature := rfl
  rw [unmarshalGetCapabilitiesReturn, if_pos signed]
  exact congrArg some (unmarshalStringArrayAsList_strings strings).1

theorem roundTrips_iff_dropLast (capabilities : List String) :
    RoundTrips capabilities ↔ capabilities.dropLast = capabilities := by
  constructor
  · rintro ⟨message, written, read⟩
    rw [marshalGetCapabilitiesReturn_nullTerminated] at written
    obtain rfl := Option.some.inj written
    rw [unmarshalGetCapabilitiesReturn_strings] at read
    exact List.map_injective_iff.mpr (Option.some_injective String) (Option.some.inj read)
  · intro same
    refine ⟨_, marshalGetCapabilitiesReturn_nullTerminated capabilities, ?_⟩
    rw [unmarshalGetCapabilitiesReturn_strings, same]

/-- A list survives if and only if it is empty. The reader returns for every reply with the signature,
and has all strings of it but the last. -/
theorem capabilities_roundTrip_iff (capabilities : List String) (message : Semantics.Message) :
    (RoundTrips capabilities ↔ capabilities = []) ∧
      (Data.types message.body = capabilitiesSignature →
        ∃ strings : List String, message.body = [.array .string (strings.map .string)] ∧
          (unmarshalGetCapabilitiesReturn message.body).result = some (strings.dropLast.map some)) := by
  constructor
  · rw [roundTrips_iff_dropLast]
    constructor
    · intro same
      have shorter := congrArg List.length same
      rw [List.length_dropLast] at shorter
      exact List.eq_nil_of_length_eq_zero (by omega)
    · rintro rfl
      rfl
  · intro signed
    obtain ⟨strings, isBody⟩ := body_of_capabilitiesSignature signed
    refine ⟨strings, isBody, ?_⟩
    rw [isBody]
    exact unmarshalGetCapabilitiesReturn_strings strings

/-- A reply with two strings. -/
def bodyAndActions : Semantics.Message where
  body := [.array .string [.string "body", .string "actions"]]
  wellTyped := by
    refine ⟨⟨?_, ?_⟩, trivial⟩
    all_goals simp [Data.AllWellTyped, Data.WellTyped, Data.type]

theorem capabilities_roundTrip_iff_bodyAndActions :
    (RoundTrips ["body"] ↔ ["body"] = []) ∧
      ∃ strings : List String, bodyAndActions.body = [.array .string (strings.map .string)] ∧
        (unmarshalGetCapabilitiesReturn bodyAndActions.body).result = some (strings.dropLast.map some) :=
  ⟨(capabilities_roundTrip_iff ["body"] bodyAndActions).1, (capabilities_roundTrip_iff ["body"] bodyAndActions).2 rfl⟩

/-- A daemon with one capability appears to have none. -/
theorem capability_lost : ¬ ∀ capabilities : List String, RoundTrips capabilities := by
  intro always
  have same := (roundTrips_iff_dropLast ["body"]).mp (always ["body"])
  cases same

end EDBus.Notify
