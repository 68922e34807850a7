import EDBus.Notify.RoundTrip

/-!
# Types of hints

The signature of a message says nothing about the variants of its hints. For an image the
reader compares the type of the variant; for the other keys it reads whatever is there into
the variable of the key. `hints_typeSafe_iff` finds the hints for which this does no harm.
-/

open EDBus.Semantics

namespace EDBus.Notify

/-! ## What a hint is read as -/

/-- The type that the branch for a key expects. -/
def HintKey.type : HintKey → DataType
  | .urgency => .byte
  | .category | .desktopEntry | .imagePath | .soundFile => .string
  | .imageData | .iconData => imageType
  | .suppressSound | .transient | .resident => .boolean
  | .x | .y => .int32

/-- The bytes of its variable. An image has none of its own. -/
def HintKey.room : HintKey → Nat
  | .urgency => 1
  | .category | .desktopEntry | .imagePath | .soundFile => 8
  | .imageData | .iconData => 0
  | .suppressSound | .transient | .resident => 4
  | .x | .y => 4

/-- What the branch for a key reads of the variant. -/
def hintReads (hint : HintKey) (value : Data) : List Read :=
  match hint with
  | .imageData | .iconData => (unmarshalHintImage [value]).2
  | hint => [⟨hint.type, hint.room, some value⟩]

/-- A hint as it is in the dictionary. -/
def hintData (entry : String × Data) : Data := .dictEntry (.string entry.1) (.variant entry.2)

/-- The hints as they are in the message. -/
def hintDict (entries : List (String × Data)) : Data :=
  .array (.dictEntry .string .variant) (entries.map hintData)

/-- What the loop reads of a hint: the key and, if it is known, the variant. -/
def entryReads (entry : String × Data) : List Read :=
  stringRead entry.1 :: (hintKey entry.1).elim [] fun hint => hintReads hint entry.2

/-- The variant has the type that is expected for its key, if one is. -/
def hasExpectedType (entry : String × Data) : Bool :=
  (hintKey entry.1).all fun hint => entry.2.type = hint.type

/-- The branch for a key does no harm: an image is ignored, and anything else has the
type that is expected. -/
def HintSafe (hint : HintKey) (value : Data) : Prop :=
  if hint.type = imageType then value.type ≠ imageType else value.type = hint.type

/-- The loop does no harm with a hint. -/
def EntrySafe (entry : String × Data) : Prop := ∀ hint, hintKey entry.1 = some hint → HintSafe hint entry.2

variable {hinting : Hinting}

theorem hintRead_reads (hinting : Hinting) (hint : HintKey) (value : Data) :
    (hintRead hinting hint [value]).reads = hinting.reads ++ hintReads hint value := by
  cases hint <;> rfl

theorem hintEntry_reads (hinting : Hinting) (entry : String × Data) :
    (hintEntry hinting (hintData entry)).reads = hinting.reads ++ entryReads entry := by
  cases known : hintKey entry.1 with
  | none => rw [hintData, hintEntry_unknown known, entryReads, known, Option.elim_none]
  | some hint =>
      rw [hintData, hintEntry_known known, hintRead_reads, entryReads, known, Option.elim_some, List.append_assoc]
      rfl

theorem foldl_hintEntry_reads (hinting : Hinting) (entries : List (String × Data)) :
    ((entries.map hintData).foldl hintEntry hinting).reads = hinting.reads ++ entries.flatMap entryReads := by
  induction entries generalizing hinting with
  | nil => exact (List.append_nil _).symm
  | cons entry rest ih =>
      rw [List.map_cons, List.foldl_cons, ih, hintEntry_reads, List.flatMap_cons, List.append_assoc]

/-! ## Harmless reads -/

theorem stringRead_safe (text : String) : (stringRead text).Typed ∧ (stringRead text).Fits :=
  ⟨rfl, 8, le_rfl, rfl⟩

/-- The fourth member of an image is a boolean. -/
theorem image_hasAlpha {value : Data} (typed : value.type = imageType) :
    ∃ width height rowstride hasAlpha rest, value = .struct (width :: height :: rowstride :: .boolean hasAlpha :: rest) := by
  obtain ⟨members, rfl, isMembers⟩ := Data.type_eq_struct typed
  obtain ⟨width, members, rfl, -, isMembers⟩ := Data.types_eq_cons isMembers
  obtain ⟨height, members, rfl, -, isMembers⟩ := Data.types_eq_cons isMembers
  obtain ⟨rowstride, members, rfl, -, isMembers⟩ := Data.types_eq_cons isMembers
  obtain ⟨hasAlpha, members, rfl, isHasAlpha, -⟩ := Data.types_eq_cons isMembers
  obtain ⟨hasAlpha, rfl⟩ := Data.type_eq_boolean isHasAlpha
  exact ⟨width, height, rowstride, hasAlpha, members, rfl⟩

theorem unmarshalHintImage_other {value : Data} (other : value.type ≠ imageType) :
    unmarshalHintImage [value] = (none, []) :=
  if_neg fun typed => other (Option.some.inj typed)

/-- An image is harmless only if it is ignored: its boolean is stored into a `char`. -/
theorem imageReads_safe_iff (value : Data) :
    (∀ read ∈ (unmarshalHintImage [value]).2, read.Typed ∧ read.Fits) ↔ value.type ≠ imageType := by
  constructor
  · intro safe typed
    obtain ⟨width, height, rowstride, hasAlpha, rest, rfl⟩ := image_hasAlpha typed
    have isImage : [Data.struct (width :: height :: rowstride :: .boolean hasAlpha :: rest)].head?.map Data.type =
        some imageType := congrArg some typed
    have stored : (⟨.boolean, 1, some (.boolean hasAlpha)⟩ : Read) ∈
        (unmarshalHintImage [.struct (width :: height :: rowstride :: .boolean hasAlpha :: rest)]).2 := by
      rw [unmarshalHintImage, if_pos isImage]
      exact .tail _ (.tail _ (.tail _ (.head _)))
    obtain ⟨isBoolean, fits⟩ := safe _ stored
    obtain ⟨size, (small : size ≤ 1), isSize⟩ := isBoolean.fits_iff.mp fits
    obtain rfl : 4 = size := Option.some.inj isSize
    omega
  · intro other read listed
    rw [unmarshalHintImage_other other] at listed
    cases listed

/-- A read into a variable of the size of its type is harmless if the value has the type. -/
theorem read_safe_iff {type : DataType} {room : Nat} (isRoom : type.size = some room) (value : Data) :
    (Read.mk type room (some value)).Typed ∧ (Read.mk type room (some value)).Fits ↔ value.type = type := by
  constructor
  · rintro ⟨typed, -⟩
    exact Option.some.inj typed
  · intro typed
    have isTyped : (Read.mk type room (some value)).Typed := congrArg some typed
    exact ⟨isTyped, isTyped.fits_iff.mpr ⟨room, le_rfl, isRoom⟩⟩

theorem hintReads_safe_iff (hint : HintKey) (value : Data) :
    (∀ read ∈ hintReads hint value, read.Typed ∧ read.Fits) ↔ HintSafe hint value := by
  cases hint with
  | imageData => exact imageReads_safe_iff value
  | iconData => exact imageReads_safe_iff value
  | _ => exact List.forall_mem_singleton.trans (read_safe_iff rfl value)

theorem entryReads_safe_iff (entry : String × Data) :
    (∀ read ∈ entryReads entry, read.Typed ∧ read.Fits) ↔ EntrySafe entry := by
  rw [entryReads, List.forall_mem_cons, and_iff_right (stringRead_safe entry.1), EntrySafe]
  cases hintKey entry.1 with
  | none => simp
  | some hint => simpa using hintReads_safe_iff hint entry.2

/-! ## Hints of another type -/

/-- Everything but what was read. -/
def Hinting.unread (hinting : Hinting) : Hinting := { hinting with reads := [] }

/-- Neither image is set. -/
structure NoImage (n : Notification) : Prop where
  imageData : n.hints.imageData = none
  iconData : n.hints.iconData = none

/-- What a hint does to the variables does not depend on what was read before. -/
theorem hintEntry_unread {other : Hinting} (same : hinting.unread = other.unread) (entry : Data) :
    (hintEntry hinting entry).unread = (hintEntry other entry).unread := by
  have alone : ∀ hinting, (hintEntry hinting entry).unread = (hintEntry hinting.unread entry).unread := by
    intro hinting
    simp only [hintEntry]
    split
    · rfl
    · next key _ => cases key <;> rfl
  rw [alone hinting, same, ← alone other]

/-- Harmless hints do not set an image. -/
theorem NoImage.hintEntry (noImage : NoImage hinting.notification) {entry : String × Data} (safe : EntrySafe entry) :
    NoImage (hintEntry hinting (hintData entry)).notification := by
  obtain ⟨noImageData, noIconData⟩ := noImage
  cases known : hintKey entry.1 with
  | none =>
      rw [hintData, hintEntry_unknown known]
      exact ⟨noImageData, noIconData⟩
  | some hint =>
      rw [hintData, hintEntry_known known]
      cases hint with
      | imageData => exact ⟨congrArg Prod.fst (unmarshalHintImage_other (safe _ known)), noIconData⟩
      | iconData => exact ⟨noImageData, congrArg Prod.fst (unmarshalHintImage_other (safe _ known))⟩
      | _ => exact ⟨noImageData, noIconData⟩

theorem NoImage.imageDataSet_none {n : Notification} (noImage : NoImage n) :
    { n with hints := { n.hints with imageData := none } } = n := by
  rw [← noImage.imageData]

theorem NoImage.iconDataSet_none {n : Notification} (noImage : NoImage n) :
    { n with hints := { n.hints with iconData := none } } = n := by
  rw [← noImage.iconData]

/-- A harmless hint of another type than expected is ignored. -/
theorem hintEntry_ignored (noImage : NoImage hinting.notification) {entry : String × Data} (safe : EntrySafe entry)
    (unexpected : hasExpectedType entry = false) : (hintEntry hinting (hintData entry)).unread = hinting.unread := by
  cases known : hintKey entry.1 with
  | none => simp [hasExpectedType, known] at unexpected
  | some hint =>
      have other : entry.2.type ≠ hint.type := by simpa [hasExpectedType, known] using unexpected
      rw [hintData, hintEntry_known known]
      cases hint with
      | imageData =>
          simp only [hintRead, Hinting.readImage, unmarshalHintImage_other other, Notification.hintImageDataSet,
            Hinting.unread, noImage.imageDataSet_none]
      | iconData =>
          simp only [hintRead, Hinting.readImage, unmarshalHintImage_other other, Hinting.unread,
            noImage.iconDataSet_none]
      | _ => exact absurd (safe _ known) other

/-- Harmless hints have the effect of those that have the type expected. -/
theorem foldl_hintEntry_expected {hinting other : Hinting} {entries : List (String × Data)}
    (safe : ∀ entry ∈ entries, EntrySafe entry) (noImage : NoImage hinting.notification)
    (same : hinting.unread = other.unread) :
    ((entries.map hintData).foldl hintEntry hinting).unread =
      (((entries.filter hasExpectedType).map hintData).foldl hintEntry other).unread := by
  induction entries generalizing hinting other with
  | nil => exact same
  | cons entry rest ih =>
      obtain ⟨safeEntry, safeRest⟩ := List.forall_mem_cons.mp safe
      rw [List.map_cons, List.foldl_cons]
      cases expected : hasExpectedType entry with
      | true =>
          rw [List.filter_cons_of_pos expected, List.map_cons, List.foldl_cons]
          exact ih safeRest (noImage.hintEntry safeEntry) (hintEntry_unread same _)
      | false =>
          rw [List.filter_cons_of_neg (by simp [expected])]
          exact ih safeRest (noImage.hintEntry safeEntry) ((hintEntry_ignored noImage safeEntry expected).trans same)

/-! ## A whole message -/

/-- The hints of a message without images. -/
theorem unmarshalNotifyHints_expected (garbage : Garbage) {n : Notification} (noImage : NoImage n)
    {entries : List (String × Data)} (safe : ∀ entry ∈ entries, EntrySafe entry) (rest : Cursor) :
    (unmarshalNotifyHints garbage n (hintDict entries :: rest)).1 =
      (unmarshalNotifyHints garbage n (hintDict (entries.filter hasExpectedType) :: rest)).1 := by
  have finished : ∀ hinting : Hinting, hinting.finish.1 = hinting.unread.finish.1 := fun _ => rfl
  have started : NoImage (Hinting.start garbage n).notification := noImage
  have loop := foldl_hintEntry_expected safe started rfl
  rw [unmarshalNotifyHints_foldl, unmarshalNotifyHints_foldl, finished, finished]
  exact congrArg (fun hinting => hinting.finish.1) loop

/-- What is read of the hints of a message. -/
theorem unmarshalNotifyHints_reads (garbage : Garbage) (n : Notification) (entries : List (String × Data))
    (rest : Cursor) : (unmarshalNotifyHints garbage n (hintDict entries :: rest)).2 = entries.flatMap entryReads := by
  rw [unmarshalNotifyHints_foldl]
  exact (foldl_hintEntry_reads (.start garbage n) entries).trans (List.nil_append _)

/-- The strings of a message do no harm, so it is the hints that may. -/
theorem messageReads_safe_iff (strings : List String) (entries : List (String × Data)) :
    (∀ read ∈ strings.map stringRead ++ entries.flatMap entryReads, read.Typed ∧ read.Fits) ↔
      ∀ entry ∈ entries, EntrySafe entry := by
  constructor
  · intro safe entry listed
    rw [← entryReads_safe_iff]
    intro read isRead
    exact safe read (List.mem_append_right _ (List.mem_flatMap.mpr ⟨entry, listed, isRead⟩))
  · intro safe read isRead
    rcases List.mem_append.mp isRead with isString | isHint
    · obtain ⟨text, -, rfl⟩ := List.mem_map.mp isString
      exact stringRead_safe text
    · obtain ⟨entry, listed, isRead⟩ := List.mem_flatMap.mp isHint
      exact (entryReads_safe_iff entry).mpr (safe entry listed) read isRead

/-- A message is read without harm if its hints are. -/
theorem unmarshalNotify_safe {garbage : Garbage} {message : Message} {n : Notification} {reads : List Read}
    (signed : Data.types message.body = notifySignature) (read : unmarshalNotify garbage message.body = some (n, reads)) :
    ∃ entries, message.body[6]? = some (hintDict entries) ∧
      ((∀ read ∈ reads, read.Typed ∧ read.Fits) ↔ ∀ entry ∈ entries, EntrySafe entry) := by
  obtain ⟨appName, replacesId, appIcon, summary, body, strings, entries, timeout, isBody⟩ :=
    members_of_signature message signed
  have decoded := unmarshalNotify_members garbage appName replacesId appIcon summary body strings
    (hintDict entries) rfl timeout
  change message.body = [_, _, _, _, _, _, hintDict entries, _] at isBody
  rw [isBody] at read ⊢
  obtain ⟨rfl, rfl⟩ := Prod.mk.inj (Option.some.inj (decoded.symm.trans read))
  refine ⟨entries, rfl, ?_⟩
  rw [unmarshalNotifyHints_reads, messageReads_safe_iff]

/-- The hints of a message are read as what they are, into variables with room for them, and those of
another type than expected are ignored, if and only if no hint but an image has another type than
expected and every image has. -/
theorem hints_typeSafe_iff (garbage : Garbage) (message : Message)
    (signed : Data.types message.body = notifySignature) :
    ∃ (entries : List (String × Data)) (r expected : Notification) (reads expectedReads : List Read),
      message.body[6]? = some (hintDict entries) ∧ unmarshalNotify garbage message.body = some (r, reads) ∧
      unmarshalNotify garbage (message.body.set 6 (hintDict (entries.filter hasExpectedType))) =
        some (expected, expectedReads) ∧
      ((∀ read ∈ reads, read.Typed ∧ read.Fits) ∧ r = expected ↔ ∀ entry ∈ entries, EntrySafe entry) := by
  obtain ⟨appName, replacesId, appIcon, summary, body, strings, entries, timeout, isBody⟩ :=
    members_of_signature message signed
  have decoded := unmarshalNotify_members garbage appName replacesId appIcon summary body strings
  rw [isBody]
  refine ⟨entries, _, _, _, _, rfl, decoded (hintDict entries) rfl timeout,
    decoded (hintDict (entries.filter hasExpectedType)) rfl timeout, ?_⟩
  rw [unmarshalNotifyHints_reads, messageReads_safe_iff]
  constructor
  · exact fun both => both.1
  · intro safe
    exact ⟨safe, by rw [unmarshalNotifyHints_expected garbage ⟨rfl, rfl⟩ safe]⟩

/-- A message of which the category is a number. -/
def numberedCategory : Message where
  body := [.string "", .uint32 0, .string "", .string "", .string "", .array .string [],
    hintDict [("category", .uint32 7)], .int32 0]
  wellTyped := by simp [Data.AllWellTyped, Data.WellTyped, Data.type, hintDict, hintData]

/-- A category that is a number. -/
theorem hints_typeSafe_iff_category :
    ∃ (entries : List (String × Data)) (r expected : Notification) (reads expectedReads : List Read),
      numberedCategory.body[6]? = some (hintDict entries) ∧
      unmarshalNotify ⟨0, 0, 0, 0⟩ numberedCategory.body = some (r, reads) ∧
      unmarshalNotify ⟨0, 0, 0, 0⟩ (numberedCategory.body.set 6 (hintDict (entries.filter hasExpectedType))) =
        some (expected, expectedReads) ∧
      ((∀ read ∈ reads, read.Typed ∧ read.Fits) ∧ r = expected ↔ ∀ entry ∈ entries, EntrySafe entry) :=
  hints_typeSafe_iff ⟨0, 0, 0, 0⟩ numberedCategory rfl

/-- The number is used as a pointer to a string. -/
theorem hints_untyped :
    ¬ ∀ (garbage : Garbage) (message : Message), Data.types message.body = notifySignature →
      ∃ (entries : List (String × Data)) (r expected : Notification) (reads expectedReads : List Read),
        message.body[6]? = some (hintDict entries) ∧ unmarshalNotify garbage message.body = some (r, reads) ∧
        unmarshalNotify garbage (message.body.set 6 (hintDict (entries.filter hasExpectedType))) =
          some (expected, expectedReads) ∧
        (∀ read ∈ reads, read.Typed ∧ read.Fits) ∧ r = expected := by
  intro safe
  obtain ⟨entries, r, expected, reads, expectedReads, -, got, -, typed, -⟩ := safe ⟨0, 0, 0, 0⟩ numberedCategory rfl
  have decoded := unmarshalNotify_members ⟨0, 0, 0, 0⟩ "" 0 "" "" "" [] (hintDict [("category", .uint32 7)]) rfl 0
  obtain ⟨-, rfl⟩ := Prod.mk.inj (Option.some.inj (decoded.symm.trans got))
  rw [unmarshalNotifyHints_reads] at typed
  have number : (⟨.string, 8, some (.uint32 7)⟩ : Read) ∈ [("category", Data.uint32 7)].flatMap entryReads :=
    .tail _ (.head _)
  exact nomatch Option.some.inj (typed _ (List.mem_append_right _ number)).1

end EDBus.Notify
