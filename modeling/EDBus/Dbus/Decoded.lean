import EDBus.Dbus.PendingCall
import EDBus.Semantics.Holdings
import EDBus.Semantics.TypedData

/-!
# Replies that are decoded

The readers of replies return a result or set an error. What a reader reads, and what it
enters, is kept as a list of uses: nothing but the reader makes sure that a value is what it is used as.
-/

open EDBus.Semantics

namespace EDBus.Dbus

/-! ## Uses of a message -/

/-- A value is read into a variable, or entered with `dbus_message_iter_recurse`. The new iterator is
not initialised where the value is no container. -/
inductive Use where
  | read (read : Read)
  | recurse (value : Option Data)

/-- Strings, object paths and signatures are read alike. -/
def isText : DataType → Bool
  | .string => true
  | .objectPath => true
  | .signature => true
  | _ => false

/-- The types of containers. -/
def isContainer : DataType → Bool
  | .variant => true
  | .array _ => true
  | .struct _ => true
  | .dictEntry _ _ => true
  | _ => false

/-- What is read as a string is one, anything else is read as what it is, and only containers are
entered. -/
def Use.Proper : Use → Prop
  | .read taken => ∃ data, taken.value = some data ∧
      if taken.type = .string then isText data.type = true else data.type = taken.type
  | .recurse entered => ∃ data, entered = some data ∧ isContainer data.type = true

/-- What is returned for a reply. The error is the one that was set. -/
structure Decoded (Result : Type) where
  result : Option Result
  error : Option DBusError
  uses : List Use

/-- `DBUS_ERROR_INVALID_SIGNATURE`. -/
def errorInvalidSignature : DBusError := ⟨"org.freedesktop.DBus.Error.InvalidSignature", ""⟩

/-- `DBUS_ERROR_INVALID_ARGS`, which `dbus_message_get_args` sets. Its text is that of libdbus and left out. -/
def errorInvalidArgs : DBusError := ⟨"org.freedesktop.DBus.Error.InvalidArgs", ""⟩

/-- The text of a value that has one. -/
def textOf : Data → Option String
  | .string text => some text
  | .objectPath text => some text
  | .signature text => some text
  | _ => none

/-- What is read of a reply is what it is, and the result stands for it. -/
structure Total {Result : Type} (decoded : Decoded Result) (faithful : Result → Prop) : Prop where
  uses : ∀ use ∈ decoded.uses, use.Proper
  result : ∀ result, decoded.result = some result → faithful result

/-! ## What is held -/

/-- What a reader holds for its result: a reference on a shared string, or a block of memory. -/
inductive Resource where
  | string (text : String)
  /-- The result itself. -/
  | record
  | hash
  /-- An element of a hash, with its copy of the key. -/
  | element
  | property
  /-- A node of a list. -/
  | node
  | action
  | image
  | imageData
deriving DecidableEq, Repr

/-- A string, if there is one. -/
def heldString (text : Option String) : List Resource := text.toList.map .string

/-- What the reader acquired for a reply is what is released with its result. It acquired nothing that can
be told where it took something for a string that is none. -/
def Restores {Result : Type} (acquired : Option (List Resource)) (result : Option Result)
    (free : Result → List Resource) : Prop :=
  ∃ held, acquired = some held ∧ Holdings.Returns held (result.elim [] free)

/-! ## Strings -/

/-- A value is read into a variable of eight bytes: a pointer, or the union of a property. -/
def readWide (type : DataType) (value : Data) : Use := .read ⟨type, 8, some value⟩

/-- The loop over an array, which reads strings. -/
def readStrings (list_iter : Cursor) : List (Option String) × List Use :=
  (list_iter.map fun data => readString none (some data), list_iter.map (readWide .string))

theorem isText_type {data : Data} (text : isText data.type = true) :
    ∃ value, textOf data = some value ∧ readString none (some data) = some value := by
  cases data with
  | string value => exact ⟨value, rfl, rfl⟩
  | objectPath value => exact ⟨value, rfl, rfl⟩
  | signature value => exact ⟨value, rfl, rfl⟩
  | _ => cases text

theorem readWide_proper {value : Data} {type : DataType} (typed : value.type = type) (other : type ≠ .string) :
    (readWide type value).Proper :=
  ⟨value, rfl, by rw [if_neg other]; exact typed⟩

theorem readWide_string_proper {value : Data} : (readWide .string value).Proper ↔ isText value.type = true := by
  constructor
  · rintro ⟨data, found, typed⟩
    obtain rfl := Option.some.inj found
    exact typed
  · intro text
    exact ⟨value, rfl, text⟩

/-- All items of an array of texts are read as such. -/
theorem readStrings_text {items : List Data} (text : ∀ item ∈ items, isText item.type = true) :
    (readStrings items).1 = (items.filterMap textOf).map some ∧ ∀ use ∈ (readStrings items).2, use.Proper := by
  constructor
  · induction items with
    | nil => rfl
    | cons first rest ih =>
        obtain ⟨here, later⟩ := List.forall_mem_cons.mp text
        obtain ⟨value, isText, isRead⟩ := isText_type here
        rw [List.filterMap_cons_some isText, List.map_cons, ← ih later, readStrings, List.map_cons, isRead]
        rfl
  · intro use listed
    obtain ⟨item, inside, rfl⟩ := List.mem_map.mp listed
    exact readWide_string_proper.mpr (text item inside)

end EDBus.Dbus
