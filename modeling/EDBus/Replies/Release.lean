import EDBus.Devices.Release
import EDBus.Notify.HintTypes
import EDBus.Notify.Replies

/-!
# Release of replies

What the readers of the notification library acquire, and what its functions that free a result
release. `replies_restored_iff` says for which messages the two are the same, for HAL and UKit, too.
-/

open EDBus.Semantics
open EDBus.Dbus

namespace EDBus.Replies

open EDBus.Notify EDBus.Devices

/-! ## Capabilities -/

/-- `e_notify_unmarshal_get_capabilities_return`. -/
def acquireCapabilities (msg : List Data) : Option (List Resource) :=
  if Data.types msg = capabilitiesSignature then
    some (.record :: (unmarshalStringArrayAsList msg).1.flatMap fun text => heldString text ++ [.node])
  else some []

/-- `e_notify_free_get_capabilities_return`. The strings stay. -/
def freeCapabilities (capabilities : List (Option String)) : List Resource :=
  .record :: capabilities.map fun _ => .node

/-- The capabilities are given back if and only if no string is listed, that is, if there is at most the one that
the reader leaves out. -/
theorem capabilities_restores_iff (message : Semantics.Message) :
    Restores (acquireCapabilities message.body) (unmarshalGetCapabilitiesReturn message.body).result
        freeCapabilities ↔
      ∀ strings : List String, message.body = [.array .string (strings.map .string)] → strings.length < 2 := by
  by_cases signed : Data.types message.body = capabilitiesSignature
  · obtain ⟨strings, isBody⟩ := body_of_capabilitiesSignature signed
    obtain ⟨listed, -⟩ := unmarshalStringArrayAsList_strings strings
    have result : (unmarshalGetCapabilitiesReturn message.body).result = some (strings.dropLast.map some) := by
      rw [unmarshalGetCapabilitiesReturn, if_pos signed, isBody]
      exact congrArg some listed
    have acquired : acquireCapabilities message.body =
        some (.record :: strings.dropLast.flatMap fun text => [.string text, .node]) := by
      rw [acquireCapabilities, if_pos signed, isBody, listed, List.flatMap_map]
      rfl
    have released : freeCapabilities (strings.dropLast.map some) =
        .record :: strings.dropLast.map fun _ => .node := by
      rw [freeCapabilities, List.map_map]
      rfl
    rw [acquired, result]
    constructor
    · rintro ⟨held, ⟨⟩, returns⟩ others isOthers
      obtain rfl : strings = others := by
        have same := (Data.array.inj (List.singleton_inj.mp (isBody.symm.trans isOthers))).2
        exact List.map_injective_iff.mpr (fun _ _ => Data.string.inj) same
      have balanced := Holdings.returns_iff_perm.mp returns
      rw [Option.elim_some, released] at balanced
      have counted := balanced.length_eq
      rw [List.length_cons, List.length_cons, List.length_flatMap, List.length_map] at counted
      simp at counted
      omega
    · intro short
      have none : strings.dropLast = [] := by
        have few := short strings isBody
        exact List.eq_nil_of_length_eq_zero (by rw [List.length_dropLast]; omega)
      refine ⟨_, rfl, Holdings.returns_iff_perm.mpr ?_⟩
      rw [Option.elim_some, released, none]
      exact .refl _
  · rw [acquireCapabilities, if_neg signed, unmarshalGetCapabilitiesReturn, if_neg signed]
    apply iff_of_true ⟨[], rfl, Holdings.returns_iff_perm.mpr (.refl _)⟩
    intro strings isBody
    rw [isBody] at signed
    exact absurd rfl signed

/-! ## Notifications -/

/-- What was acquired up to some point, and what of it was released before. -/
structure Taken where
  acquired : List Resource
  released : List Resource

/-- `eina_stringshare_replace`. -/
def Taken.replace (taken : Taken) (old new : Option String) : Taken where
  acquired := heldString new ++ taken.acquired
  released := heldString old ++ taken.released

/-- An image takes two blocks. -/
def heldImage (image : Option Image) : List Resource := image.elim [] fun _ => [.image, .imageData]

/-- A hint is read. A string replaces the one of the field, and an image is stored over the old one: its
boolean is wider than the field, but stays within the image. What is no string, or is wider than its variable,
does harm that cannot be told. -/
def takeHint (hints : Hints) (key : HintKey) (value : Data) (taken : Taken) : Option Taken :=
  match key with
  | .category => (textOf value).map fun text => taken.replace hints.category (some text)
  | .desktopEntry => (textOf value).map fun text => taken.replace hints.desktop (some text)
  | .imagePath => (textOf value).map fun text => taken.replace hints.imagePath (some text)
  | .soundFile => (textOf value).map fun text => taken.replace hints.soundFile (some text)
  | .imageData => some { taken with acquired := heldImage (unmarshalHintImage [value]).1 ++ taken.acquired }
  | .iconData => some { taken with acquired := heldImage (unmarshalHintImage [value]).1 ++ taken.acquired }
  | _ => if value.size.any (· ≤ key.room) then some taken else none

/-- The loop over the hints. -/
def takeHints : Hinting → List (String × Data) → Taken → Option Taken
  | _, [], taken => some taken
  | hinting, entry :: rest, taken =>
    let took := (hintKey entry.1).elim (some taken) fun key => takeHint hinting.notification.hints key entry.2 taken
    took.bind (takeHints (hintEntry hinting (hintData entry)) rest)

/-- The strings of the members, and the actions. -/
def heldTexts (n : Notification) : List Resource :=
  heldString n.appName ++ heldString n.appIcon ++ heldString n.summary ++ heldString n.body

/-- An action is a block with two strings. -/
def heldAction (action : Action) : List Resource := [.action, .string action.id, .string action.name]

/-- The notification before its hints are read. -/
def unhinted (message : List Data) : Notification :=
  let replacesId := Cursor.next message
  let appIcon := replacesId.next
  let summary := appIcon.next
  let body := summary.next
  let named := notificationNew.appNameSet (readMember message)
  let replacing := named.replacesIdSet (UInt32.ofNat (readNumber 4 0 replacesId.head?))
  let texts := ((replacing.appIconSet (readMember appIcon)).summarySet (readMember summary)).bodySet (readMember body)
  (unmarshalNotifyActions texts body.next).1

/-- `e_notify_unmarshal_notify`. -/
def takeNotify (garbage : Garbage) (message : List Data) : Option Taken :=
  if Data.types message = notifySignature then
    let n := unhinted message
    takeHints (.start garbage n) (tableEntries (message.drop 6))
      ⟨.record :: (heldTexts n ++ n.actions.flatMap fun action => heldAction action ++ [.node]), []⟩
  else some ⟨[], []⟩

/-- The strings of the hints. -/
def heldHints (hints : Hints) : List Resource :=
  heldString hints.category ++ heldString hints.desktop ++ heldString hints.soundFile

/-- `e_notification_free`: of the actions only the list is freed, and the path of the image is kept. -/
def notificationFree (n : Notification) : List Resource :=
  .record :: (heldTexts n ++ n.actions.map (fun _ => .node) ++ heldHints n.hints ++ heldImage n.hints.imageData ++
    heldImage n.hints.iconData)

/-- Decoding the message and dropping the only reference on the notification leaves everything as it was. -/
def NotifyRestores (garbage : Garbage) (message : List Data) : Prop :=
  ∃ taken, takeNotify garbage message = some taken ∧
    Holdings.Returns taken.acquired
      (taken.released ++ (unmarshalNotify garbage message).elim [] fun decoded => notificationFree decoded.1)

/-! ## Hints -/

/-- The fields that hold something. -/
structure Fields where
  category : Option String
  desktop : Option String
  soundFile : Option String
  imagePath : Option String
  imageData : Option Image
  iconData : Option Image

def fieldsOf (hints : Hints) : Fields where
  category := hints.category
  desktop := hints.desktop
  soundFile := hints.soundFile
  imagePath := hints.imagePath
  imageData := hints.imageData
  iconData := hints.iconData

namespace Fields

/-- The strings of the fields. -/
def strings (fields : Fields) : List Resource :=
  heldString fields.category ++ heldString fields.desktop ++ heldString fields.soundFile ++
    heldString fields.imagePath

/-- A hint is read. -/
def read (fields : Fields) (key : HintKey) (value : Data) : Fields :=
  match key with
  | .category => { fields with category := textOf value }
  | .desktopEntry => { fields with desktop := textOf value }
  | .imagePath => { fields with imagePath := textOf value }
  | .soundFile => { fields with soundFile := textOf value }
  | .imageData => { fields with imageData := (unmarshalHintImage [value]).1 }
  | .iconData => { fields with iconData := (unmarshalHintImage [value]).1 }
  | _ => fields

/-- The hints are read. -/
def readAll (fields : Fields) (entries : List (String × Data)) : Fields :=
  entries.foldl (fun fields entry => (hintKey entry.1).elim fields fun key => fields.read key entry.2) fields

end Fields

/-- A value can be read for a key: it is a string if one is expected, and a number is not wider than the
variable. An image is read only if it is one. -/
def ReadsHint (key : HintKey) (value : Data) : Prop :=
  if key.type = .string then isText value.type = true
  else key.type = imageType ∨ ∃ size ≤ key.room, value.size = some size

/-- The hint can be read. -/
def ReadableHint (entry : String × Data) : Prop := ∀ key, hintKey entry.1 = some key → ReadsHint key entry.2

theorem ReadsHint.text {key : HintKey} {value : Data} (reads : ReadsHint key value) (isString : key.type = .string) :
    isText value.type = true := by
  rwa [ReadsHint, if_pos isString] at reads

theorem textOf_isSome {value : Data} : (textOf value).isSome = isText value.type := by
  cases value <;> rfl

theorem readString_text {value : Data} (text : isText value.type = true) (old : Option String) :
    readString old (some value) = textOf value := by
  cases value with
  | string value => rfl
  | objectPath value => rfl
  | signature value => rfl
  | _ => cases text

theorem fieldsOf_hintRead (hinting : Hinting) {key : HintKey} {value : Data}
    (text : key.type = .string → isText value.type = true) :
    fieldsOf (hintRead hinting key [value]).notification.hints =
      (fieldsOf hinting.notification.hints).read key value := by
  cases key with
  | category =>
      have isRead := readString_text (text rfl) hinting.sVal
      exact congrArg (fun new => { fieldsOf hinting.notification.hints with category := new }) isRead
  | desktopEntry =>
      have isRead := readString_text (text rfl) hinting.sVal
      exact congrArg (fun new => { fieldsOf hinting.notification.hints with desktop := new }) isRead
  | imagePath =>
      have isRead := readString_text (text rfl) hinting.sVal
      exact congrArg (fun new => { fieldsOf hinting.notification.hints with imagePath := new }) isRead
  | soundFile =>
      have isRead := readString_text (text rfl) hinting.sVal
      exact congrArg (fun new => { fieldsOf hinting.notification.hints with soundFile := new }) isRead
  | _ => rfl

theorem fieldsOf_hintEntry (hinting : Hinting) {entry : String × Data} (readable : ReadableHint entry) :
    fieldsOf (hintEntry hinting (hintData entry)).notification.hints =
      (hintKey entry.1).elim (fieldsOf hinting.notification.hints) fun key =>
        (fieldsOf hinting.notification.hints).read key entry.2 := by
  cases known : hintKey entry.1 with
  | none => rw [hintData, hintEntry_unknown known, Option.elim_none]
  | some key =>
      rw [hintData, hintEntry_known known, Option.elim_some]
      exact fieldsOf_hintRead _ (readable key known).text

/-- The fields after the loop. -/
theorem fieldsOf_foldl (hinting : Hinting) {entries : List (String × Data)}
    (readable : ∀ entry ∈ entries, ReadableHint entry) :
    fieldsOf ((entries.map hintData).foldl hintEntry hinting).notification.hints =
      (fieldsOf hinting.notification.hints).readAll entries := by
  induction entries generalizing hinting with
  | nil => rfl
  | cons entry rest ih =>
      rw [List.map_cons, List.foldl_cons, ih _ fun entry listed => readable entry (.tail _ listed),
        fieldsOf_hintEntry hinting (readable entry (.head _))]
      rfl

/-! ## What the loop takes -/

/-- The blocks of an image hint. -/
def hintBlocks (key : HintKey) (value : Data) : List Resource :=
  match key with
  | .imageData => heldImage (unmarshalHintImage [value]).1
  | .iconData => heldImage (unmarshalHintImage [value]).1
  | _ => []

/-- The blocks of all images that are read. -/
def blocksOf (entries : List (String × Data)) : List Resource :=
  entries.flatMap fun entry => (hintKey entry.1).elim [] fun key => hintBlocks key entry.2

/-- From what is taken, what is given back is missing: the strings that the fields hold, and the blocks. -/
structure Accounts (taken next : Taken) (before after : Fields) (blocks : List Resource) : Prop where
  count : ∀ kept : Resource, next.acquired.count kept + taken.released.count kept + before.strings.count kept =
    taken.acquired.count kept + next.released.count kept + after.strings.count kept + blocks.count kept

theorem Accounts.refl (taken : Taken) (fields : Fields) : Accounts taken taken fields fields [] := by
  constructor
  intro kept
  rw [List.count_nil]
  omega

theorem Accounts.trans {taken middle next : Taken} {before during after : Fields} {blocks later : List Resource}
    (first : Accounts taken middle before during blocks) (second : Accounts middle next during after later) :
    Accounts taken next before after (blocks ++ later) := by
  constructor
  intro kept
  have here := first.count kept
  have there := second.count kept
  rw [List.count_append]
  omega

theorem takeHint_accounts {hints : Hints} {key : HintKey} {value : Data} {taken next : Taken}
    (took : takeHint hints key value taken = some next) :
    Accounts taken next (fieldsOf hints) ((fieldsOf hints).read key value) (hintBlocks key value) := by
  constructor
  intro kept
  cases key with
  | category =>
      obtain ⟨text, isText, rfl⟩ := Option.map_eq_some_iff.mp took
      simp only [Fields.read, Fields.strings, fieldsOf, Taken.replace, List.count_append, isText, hintBlocks,
        List.count_nil]
      omega
  | desktopEntry =>
      obtain ⟨text, isText, rfl⟩ := Option.map_eq_some_iff.mp took
      simp only [Fields.read, Fields.strings, fieldsOf, Taken.replace, List.count_append, isText, hintBlocks,
        List.count_nil]
      omega
  | imagePath =>
      obtain ⟨text, isText, rfl⟩ := Option.map_eq_some_iff.mp took
      simp only [Fields.read, Fields.strings, fieldsOf, Taken.replace, List.count_append, isText, hintBlocks,
        List.count_nil]
      omega
  | soundFile =>
      obtain ⟨text, isText, rfl⟩ := Option.map_eq_some_iff.mp took
      simp only [Fields.read, Fields.strings, fieldsOf, Taken.replace, List.count_append, isText, hintBlocks,
        List.count_nil]
      omega
  | imageData =>
      obtain rfl := Option.some.inj took
      simp only [Fields.read, Fields.strings, fieldsOf, List.count_append, hintBlocks]
      omega
  | iconData =>
      obtain rfl := Option.some.inj took
      simp only [Fields.read, Fields.strings, fieldsOf, List.count_append, hintBlocks]
      omega
  | _ =>
      obtain ⟨-, same⟩ := Option.ite_none_right_eq_some.mp took
      obtain rfl := Option.some.inj same
      exact (Accounts.refl taken (fieldsOf hints)).count kept

theorem takeHint_isSome_iff (hints : Hints) (key : HintKey) (value : Data) (taken : Taken) :
    (takeHint hints key value taken).isSome = true ↔ ReadsHint key value := by
  cases key with
  | category => simp [takeHint, ReadsHint, HintKey.type, textOf_isSome]
  | desktopEntry => simp [takeHint, ReadsHint, HintKey.type, textOf_isSome]
  | imagePath => simp [takeHint, ReadsHint, HintKey.type, textOf_isSome]
  | soundFile => simp [takeHint, ReadsHint, HintKey.type, textOf_isSome]
  | imageData => exact iff_of_true rfl (.inl rfl)
  | iconData => exact iff_of_true rfl (.inl rfl)
  | _ =>
      simp only [takeHint]
      rw [Option.isSome_ite, Option.any_eq_true]
      simp [ReadsHint, HintKey.type, imageType, and_comm]

/-- The loop takes the strings and the blocks, if all hints can be read. -/
theorem takeHints_readable (hinting : Hinting) {entries : List (String × Data)}
    (readable : ∀ entry ∈ entries, ReadableHint entry) (taken : Taken) :
    ∃ next, takeHints hinting entries taken = some next ∧
      Accounts taken next (fieldsOf hinting.notification.hints)
        ((fieldsOf hinting.notification.hints).readAll entries) (blocksOf entries) := by
  induction entries generalizing hinting taken with
  | nil => exact ⟨taken, rfl, .refl _ _⟩
  | cons entry rest ih =>
      obtain ⟨reads, others⟩ := List.forall_mem_cons.mp readable
      obtain ⟨next, later, accounts⟩ := ih (hintEntry hinting (hintData entry)) others
        (((hintKey entry.1).elim (some taken) fun key =>
          takeHint hinting.notification.hints key entry.2 taken).getD taken)
      rw [fieldsOf_hintEntry hinting reads] at accounts
      rw [takeHints, blocksOf, List.flatMap_cons, Fields.readAll, List.foldl_cons]
      cases known : hintKey entry.1 with
      | none =>
          rw [known, Option.elim_none, Option.getD_some] at later
          rw [known, Option.elim_none, Option.elim_none, Option.getD_some] at accounts
          exact ⟨next, later, accounts⟩
      | some key =>
          obtain ⟨middle, took⟩ := Option.isSome_iff_exists.mp
            ((takeHint_isSome_iff hinting.notification.hints key entry.2 taken).mpr (reads key known))
          rw [known, Option.elim_some, took, Option.getD_some] at later
          rw [known, Option.elim_some, Option.elim_some, took, Option.getD_some] at accounts
          refine ⟨next, ?_, (takeHint_accounts took).trans accounts⟩
          rw [Option.elim_some, took]
          exact later

/-- The loop takes something that can be told only if all hints can be read. -/
theorem readable_of_takeHints {hinting : Hinting} {entries : List (String × Data)} {taken next : Taken}
    (took : takeHints hinting entries taken = some next) : ∀ entry ∈ entries, ReadableHint entry := by
  induction entries generalizing hinting taken with
  | nil => exact nofun
  | cons entry rest ih =>
      obtain ⟨middle, here, later⟩ := Option.bind_eq_some_iff.mp took
      rw [List.forall_mem_cons]
      refine ⟨fun key known => ?_, ih later⟩
      rw [known, Option.elim_some] at here
      exact (takeHint_isSome_iff hinting.notification.hints key entry.2 taken).mp (by rw [here]; rfl)

/-! ## Images and paths -/

/-- The hints of one of the two image keys. -/
def imagesOf (entries : List (String × Data)) (slot : HintKey) : List (String × Data) :=
  entries.filter fun entry => hintKey entry.1 = some slot

/-- What is read for an image key. -/
def imageRead (entry : String × Data) : Option Image := (unmarshalHintImage [entry.2]).1

theorem imageRead_isSome (entry : String × Data) : (imageRead entry).isSome = decide (entry.2.type = imageType) := by
  unfold imageRead
  by_cases typed : entry.2.type = imageType
  · have isImage : [entry.2].head?.map Data.type = some imageType := congrArg some typed
    rw [unmarshalHintImage, if_pos isImage, decide_eq_true typed]
    rfl
  · rw [unmarshalHintImage_other typed, decide_eq_false typed]
    rfl

/-- The field of an image key holds what the last hint for it was. -/
theorem readAll_slot {slot : HintKey} (field : Fields → Option Image)
    (own : ∀ (fields : Fields) value, field (fields.read slot value) = (unmarshalHintImage [value]).1)
    (other : ∀ (fields : Fields) key value, key ≠ slot → field (fields.read key value) = field fields)
    (fields : Fields) (entries : List (String × Data)) :
    field (fields.readAll entries) = (imagesOf entries slot).getLast?.elim (field fields) imageRead := by
  induction entries generalizing fields with
  | nil => rfl
  | cons entry rest ih =>
      rw [Fields.readAll, List.foldl_cons]
      refine (ih _).trans ?_
      unfold imagesOf
      by_cases known : hintKey entry.1 = some slot
      · rw [List.filter_cons_of_pos (by simp [known]), List.getLast?_cons, known, Option.elim_some, Option.elim_some, own]
        cases (rest.filter fun entry => hintKey entry.1 = some slot).getLast? <;> rfl
      · rw [List.filter_cons_of_neg (by simp [known])]
        congr 1
        cases found : hintKey entry.1 with
        | none => rfl
        | some key => exact other fields key entry.2 fun same => known (found.trans (congrArg some same))

theorem readAll_imageData (fields : Fields) (entries : List (String × Data)) :
    (fields.readAll entries).imageData = (imagesOf entries .imageData).getLast?.elim fields.imageData imageRead := by
  apply readAll_slot Fields.imageData fun _ _ => rfl
  intro fields key value different
  cases key with
  | imageData => exact absurd rfl different
  | _ => rfl

theorem readAll_iconData (fields : Fields) (entries : List (String × Data)) :
    (fields.readAll entries).iconData = (imagesOf entries .iconData).getLast?.elim fields.iconData imageRead := by
  apply readAll_slot Fields.iconData fun _ _ => rfl
  intro fields key value different
  cases key with
  | iconData => exact absurd rfl different
  | _ => rfl

/-- The path of the image is set by every hint for it. -/
theorem readAll_imagePath (fields : Fields) {entries : List (String × Data)}
    (readable : ∀ entry ∈ entries, ReadableHint entry) :
    (fields.readAll entries).imagePath = none ↔
      fields.imagePath = none ∧ ∀ entry ∈ entries, hintKey entry.1 ≠ some .imagePath := by
  induction entries generalizing fields with
  | nil => simp [Fields.readAll]
  | cons entry rest ih =>
      obtain ⟨reads, others⟩ := List.forall_mem_cons.mp readable
      rw [Fields.readAll, List.foldl_cons, List.forall_mem_cons]
      refine (ih _ others).trans ?_
      cases known : hintKey entry.1 with
      | none => simp
      | some key =>
          cases key with
          | imagePath =>
              have set : (textOf entry.2).isSome = true := textOf_isSome.trans ((reads .imagePath known).text rfl)
              simp [Fields.read, Option.isSome_iff_ne_none.mp set]
          | _ => simp [Fields.read]

theorem count_heldImage (image : Option Image) (kept : Resource) :
    (heldImage image).count kept = image.isSome.toNat * [Resource.image, .imageData].count kept := by
  cases image with
  | none => simp [heldImage]
  | some image => simp [heldImage]

/-- How many images are read for a key. -/
def imageCount (entries : List (String × Data)) (slot : HintKey) : Nat :=
  (imagesOf entries slot).countP fun entry => (imageRead entry).isSome

theorem imageCount_cons (entry : String × Data) (rest : List (String × Data)) (slot : HintKey) :
    imageCount (entry :: rest) slot =
      (if hintKey entry.1 = some slot then (imageRead entry).isSome.toNat else 0) + imageCount rest slot := by
  unfold imageCount imagesOf
  by_cases known : hintKey entry.1 = some slot
  · rw [List.filter_cons_of_pos (by simp [known]), List.countP_cons, if_pos known]
    cases (imageRead entry).isSome with
    | true => exact Nat.add_comm _ _
    | false => exact (Nat.zero_add _).symm
  · rw [List.filter_cons_of_neg (by simp [known]), if_neg known, Nat.zero_add]

theorem count_hintBlocks (key : HintKey) (entry : String × Data) (kept : Resource) :
    (hintBlocks key entry.2).count kept =
      ((if key = .imageData then (imageRead entry).isSome.toNat else 0) +
        if key = .iconData then (imageRead entry).isSome.toNat else 0) *
          [Resource.image, .imageData].count kept := by
  cases key with
  | imageData => exact (count_heldImage _ kept).trans rfl
  | iconData => exact (count_heldImage _ kept).trans (by rw [if_neg nofun, if_pos rfl, Nat.zero_add]; rfl)
  | _ => simp [hintBlocks]

/-- The blocks are those of the images for both keys. -/
theorem count_blocksOf (entries : List (String × Data)) (kept : Resource) :
    (blocksOf entries).count kept =
      (imageCount entries .imageData + imageCount entries .iconData) * [Resource.image, .imageData].count kept := by
  induction entries with
  | nil => simp [blocksOf, imageCount, imagesOf]
  | cons entry rest ih =>
      have split : (blocksOf (entry :: rest)).count kept =
          ((hintKey entry.1).elim [] fun key => hintBlocks key entry.2).count kept + (blocksOf rest).count kept :=
        List.count_append
      rw [split, ih, imageCount_cons, imageCount_cons]
      cases known : hintKey entry.1 with
      | none => simp
      | some key =>
          rw [Option.elim_some, count_hintBlocks]
          simp only [Option.some.injEq, Nat.add_mul]
          omega

/-- All images of a key are in the field at the end if and only if none but the last hint is one. -/
theorem imageCount_last_iff (entries : List (String × Data)) (slot : HintKey) :
    imageCount entries slot = ((imagesOf entries slot).getLast?.elim none imageRead).isSome.toNat ↔
      ∀ entry ∈ (imagesOf entries slot).dropLast, entry.2.type ≠ imageType := by
  unfold imageCount
  rcases List.eq_nil_or_concat (imagesOf entries slot) with none | ⟨before, last, isConcat⟩
  · rw [none]
    exact iff_of_true rfl nofun
  · rw [isConcat, List.concat_eq_append, List.getLast?_concat, List.dropLast_concat, List.countP_append,
      List.countP_singleton, Option.elim_some]
    have single : (if (imageRead last).isSome = true then 1 else 0) = (imageRead last).isSome.toNat := by
      cases (imageRead last).isSome <;> rfl
    rw [single, Nat.add_eq_right, List.countP_eq_zero]
    apply forall_congr'
    intro entry
    apply forall_congr'
    intro _
    rw [imageRead_isSome, decide_eq_true_eq]

theorem last_le_imageCount (entries : List (String × Data)) (slot : HintKey) :
    ((imagesOf entries slot).getLast?.elim none imageRead).isSome.toNat ≤ imageCount entries slot := by
  unfold imageCount
  rcases List.eq_nil_or_concat (imagesOf entries slot) with none | ⟨before, last, isConcat⟩
  · rw [none]
    exact le_rfl
  · rw [isConcat, List.concat_eq_append, List.getLast?_concat, List.countP_append, List.countP_singleton,
      Option.elim_some]
    cases (imageRead last).isSome with
    | true => exact Nat.le_add_left 1 _
    | false => exact Nat.zero_le _

/-! ## A whole message -/

/-- The members of a notification that hints do not change. -/
structure SameMembers (n other : Notification) : Prop where
  appName : n.appName = other.appName
  appIcon : n.appIcon = other.appIcon
  summary : n.summary = other.summary
  body : n.body = other.body
  actions : n.actions = other.actions

theorem hintEntry_sameMembers (hinting : Hinting) (entry : String × Data) :
    SameMembers (hintEntry hinting (hintData entry)).notification hinting.notification := by
  cases known : hintKey entry.1 with
  | none =>
      rw [hintData, hintEntry_unknown known]
      exact ⟨rfl, rfl, rfl, rfl, rfl⟩
  | some key =>
      rw [hintData, hintEntry_known known]
      cases key <;> exact ⟨rfl, rfl, rfl, rfl, rfl⟩

theorem foldl_hintEntry_sameMembers (hinting : Hinting) (entries : List (String × Data)) :
    SameMembers ((entries.map hintData).foldl hintEntry hinting).notification hinting.notification := by
  induction entries generalizing hinting with
  | nil => exact ⟨rfl, rfl, rfl, rfl, rfl⟩
  | cons entry rest ih =>
      obtain ⟨appName, appIcon, summary, body, actions⟩ := ih (hintEntry hinting (hintData entry))
      obtain ⟨appName', appIcon', summary', body', actions'⟩ := hintEntry_sameMembers hinting entry
      exact ⟨appName.trans appName', appIcon.trans appIcon', summary.trans summary', body.trans body',
        actions.trans actions'⟩

/-- The messages of which everything is given back: there are no actions, the hints can be read and none is
the path of an image, and of either image key only the last hint is an image. -/
structure Restorable (strings : List String) (entries : List (String × Data)) : Prop where
  actions : strings.length < 2
  readable : ∀ entry ∈ entries, ReadableHint entry
  paths : ∀ entry ∈ entries, hintKey entry.1 ≠ some .imagePath
  images : ∀ entry ∈ (imagesOf entries .imageData).dropLast, entry.2.type ≠ imageType
  icons : ∀ entry ∈ (imagesOf entries .iconData).dropLast, entry.2.type ≠ imageType

/-- The notification of a message, with its hints. -/
structure Hinted (garbage : Garbage) (message : List Data) (entries : List (String × Data)) (n : Notification) :
    Prop where
  decoded : ∃ reads, unmarshalNotify garbage message = some (n, reads)
  members : SameMembers n (unhinted message)
  fields : (∀ entry ∈ entries, ReadableHint entry) →
    fieldsOf n.hints = (fieldsOf (unhinted message).hints).readAll entries

theorem exists_hinted (garbage : Garbage) {message : List Data} (signed : Data.types message = notifySignature)
    {entries : List (String × Data)} {timeout : List Data} (isHints : message.drop 6 = hintDict entries :: timeout) :
    ∃ n, Hinted garbage message entries n := by
  have cursor : Cursor.next (Cursor.next (Cursor.next (Cursor.next (Cursor.next (Cursor.next message))))) =
      hintDict entries :: timeout := by
    rw [← isHints]
    simp only [Cursor.next, ← List.drop_one, List.drop_drop]
  refine ⟨_, ⟨_, by rw [unmarshalNotify, if_pos signed]⟩, ?_, fun readable => ?_⟩
  · simp only [cursor, unmarshalNotifyHints_foldl]
    have same := foldl_hintEntry_sameMembers (.start garbage (unhinted message)) entries
    obtain ⟨appName, appIcon, summary, body, actions⟩ := same
    unfold Hinting.finish
    split
    · exact ⟨appName, appIcon, summary, body, actions⟩
    · exact ⟨appName, appIcon, summary, body, actions⟩
  · simp only [cursor, unmarshalNotifyHints_foldl]
    have fields := fieldsOf_foldl (.start garbage (unhinted message)) readable
    unfold Hinting.finish
    split
    · exact fields
    · exact fields

/-- What stays behind: the actions with their strings, the path of the image, and the blocks of all images. -/
def leftover (n : Notification) (entries : List (String × Data)) : List Resource :=
  n.actions.flatMap heldAction ++ heldString n.hints.imagePath ++ blocksOf entries

theorem count_heldActions (actions : List Action) (kept : Resource) :
    (actions.flatMap fun action => heldAction action ++ [.node]).count kept =
      (actions.flatMap heldAction).count kept + (actions.map fun _ => Resource.node).count kept := by
  induction actions with
  | nil => rfl
  | cons action rest ih =>
      simp only [List.flatMap_cons, List.count_append, List.map_cons, List.count_cons, List.count_nil, ih]
      omega

/-- Everything is given back if and only if nothing stays behind but the images that are freed. -/
theorem returns_iff_leftover {garbage : Garbage} {message : List Data} {entries : List (String × Data)}
    {n : Notification} (hinted : Hinted garbage message entries n)
    (fresh : fieldsOf (unhinted message).hints = ⟨none, none, none, none, none, none⟩)
    (readable : ∀ entry ∈ entries, ReadableHint entry) {next : Taken}
    (took : takeHints (.start garbage (unhinted message)) entries
      ⟨.record :: (heldTexts (unhinted message) ++
        (unhinted message).actions.flatMap fun action => heldAction action ++ [.node]), []⟩ = some next) :
    Holdings.Returns next.acquired (next.released ++ notificationFree n) ↔
      ∀ kept, (leftover n entries).count kept =
        (heldImage n.hints.imageData ++ heldImage n.hints.iconData).count kept := by
  obtain ⟨next', took', accounts⟩ := takeHints_readable (.start garbage (unhinted message)) readable
    ⟨.record :: (heldTexts (unhinted message) ++
      (unhinted message).actions.flatMap fun action => heldAction action ++ [.node]), []⟩
  obtain rfl : next = next' := Option.some.inj (took.symm.trans took')
  have fields := hinted.fields readable
  have started : fieldsOf (Hinting.start garbage (unhinted message)).notification.hints =
      fieldsOf (unhinted message).hints := rfl
  rw [started, ← fields, fresh] at accounts
  obtain ⟨appName, appIcon, summary, body, actions⟩ := hinted.members
  have sameTexts : heldTexts n = heldTexts (unhinted message) := by
    rw [heldTexts, heldTexts, appName, appIcon, summary, body]
  rw [Holdings.returns_iff_perm, List.perm_iff_count]
  apply forall_congr'
  intro kept
  have balance := accounts.count kept
  have none : (Fields.mk none none none none none none).strings.count kept = 0 := rfl
  have strings : (fieldsOf n.hints).strings.count kept =
      (heldHints n.hints).count kept + (heldString n.hints.imagePath).count kept := List.count_append
  rw [none, strings, List.count_nil, List.count_cons, List.count_append, count_heldActions] at balance
  rw [List.count_append, notificationFree, List.count_cons, List.count_append, List.count_append, List.count_append,
    List.count_append, sameTexts, leftover, List.count_append, List.count_append, List.count_append, actions]
  omega

/-- Nothing stays behind if and only if there are no actions, no path, and no image that was stored over. -/
theorem leftover_iff {n : Notification} {entries : List (String × Data)} {fields : Fields}
    (isFields : fieldsOf n.hints = fields.readAll entries) (noPath : fields.imagePath = none)
    (noImage : fields.imageData = none) (noIcon : fields.iconData = none)
    (readable : ∀ entry ∈ entries, ReadableHint entry) :
    (∀ kept, (leftover n entries).count kept =
        (heldImage n.hints.imageData ++ heldImage n.hints.iconData).count kept) ↔
      n.actions = [] ∧ (∀ entry ∈ entries, hintKey entry.1 ≠ some .imagePath) ∧
        (∀ entry ∈ (imagesOf entries .imageData).dropLast, entry.2.type ≠ imageType) ∧
        ∀ entry ∈ (imagesOf entries .iconData).dropLast, entry.2.type ≠ imageType := by
  have path : n.hints.imagePath = none ↔ ∀ entry ∈ entries, hintKey entry.1 ≠ some .imagePath := by
    have set := readAll_imagePath fields readable
    rw [← isFields, noPath] at set
    exact set.trans (and_iff_right rfl)
  have isImage : n.hints.imageData = (imagesOf entries .imageData).getLast?.elim none imageRead := by
    rw [← noImage, ← readAll_imageData, ← isFields]
    rfl
  have isIcon : n.hints.iconData = (imagesOf entries .iconData).getLast?.elim none imageRead := by
    rw [← noIcon, ← readAll_iconData, ← isFields]
    rfl
  have image := imageCount_last_iff entries .imageData
  have icon := imageCount_last_iff entries .iconData
  have imageBound := last_le_imageCount entries .imageData
  have iconBound := last_le_imageCount entries .iconData
  rw [← isImage] at image imageBound
  rw [← isIcon] at icon iconBound
  rw [← path, ← image, ← icon]
  have counts : ∀ kept, (leftover n entries).count kept =
        (heldImage n.hints.imageData ++ heldImage n.hints.iconData).count kept ↔
      (n.actions.flatMap heldAction).count kept + (heldString n.hints.imagePath).count kept +
          (imageCount entries .imageData + imageCount entries .iconData) *
            [Resource.image, .imageData].count kept =
        (n.hints.imageData.isSome.toNat + n.hints.iconData.isSome.toNat) * [Resource.image, .imageData].count kept := by
    intro kept
    rw [leftover, List.count_append, List.count_append, List.count_append, count_blocksOf, count_heldImage,
      count_heldImage, ← Nat.add_mul]
  simp only [counts]
  constructor
  · intro balanced
    refine ⟨?_, ?_, ?_⟩
    · have none := balanced .action
      cases actions : n.actions with
      | nil => rfl
      | cons action rest =>
          rw [actions, List.flatMap_cons, List.count_append] at none
          simp [heldAction] at none
    · cases isPath : n.hints.imagePath with
      | none => rfl
      | some path =>
          have none := balanced (.string path)
          rw [isPath] at none
          simp [heldString] at none
    · have same := balanced .image
      have one : [Resource.image, .imageData].count .image = 1 := rfl
      rw [one] at same
      omega
  · rintro ⟨actions, path, imageSame, iconSame⟩ kept
    rw [actions, path, imageSame, iconSame]
    simp [heldString]

theorem pairs_eq_nil_iff (strings : List String) : pairs strings = [] ↔ strings.length < 2 := by
  obtain _ | ⟨first, _ | ⟨second, rest⟩⟩ := strings
  · exact iff_of_true rfl (by decide)
  · exact iff_of_true rfl (by simp)
  · exact iff_of_false nofun (by simp)

/-- The actions before the hints are read, and the fields. -/
theorem unhinted_members (appName : String) (replacesId : UInt32) (appIcon summary body : String)
    (strings : List String) (rest : List Data) :
    let n := unhinted (.string appName :: .uint32 replacesId :: .string appIcon :: .string summary :: .string body ::
      .array .string (strings.map .string) :: rest)
    n.actions = pairs strings ∧ fieldsOf n.hints = ⟨none, none, none, none, none, none⟩ := by
  simp only [unhinted, Cursor.next, List.tail_cons, List.head?_cons, readMember, readString, unmarshalNotifyActions,
    Cursor.recurse, Option.elim_some, Data.contents, unmarshalActions_strings]
  exact ⟨rfl, rfl⟩

theorem hintDict_injective {entries others : List (String × Data)} (same : hintDict entries = hintDict others) :
    entries = others := by
  have injective : Function.Injective hintData := by
    rintro ⟨key, value⟩ ⟨key', value'⟩ same
    obtain ⟨sameKey, sameValue⟩ := Data.dictEntry.inj same
    exact Prod.ext (Data.string.inj sameKey) (Data.variant.inj sameValue)
  exact List.map_injective_iff.mpr injective (Data.array.inj same).2

/-- A notification is given back if and only if it is restorable. -/
theorem notify_restores_iff (garbage : Garbage) (message : Semantics.Message) :
    NotifyRestores garbage message.body ↔
      (Data.types message.body = notifySignature →
        ∀ strings entries, message.body[5]? = some (.array .string (strings.map .string)) →
          message.body[6]? = some (hintDict entries) → Restorable strings entries) := by
  by_cases signed : Data.types message.body = notifySignature
  · obtain ⟨appName, replacesId, appIcon, summary, body, strings, entries, timeout, isBody⟩ :=
      members_of_signature message signed
    have isHints : message.body.drop 6 = hintDict entries :: [.int32 timeout] := by
      rw [isBody]
      rfl
    have listed : tableEntries (message.body.drop 6) = entries := by
      rw [isHints]
      exact filterMap_entryOf entries
    obtain ⟨actions, fresh⟩ := unhinted_members appName replacesId appIcon summary body strings
      [hintDict entries, .int32 timeout]
    have isMembers : message.body = .string appName :: .uint32 replacesId :: .string appIcon :: .string summary ::
      .string body :: .array .string (strings.map .string) :: [hintDict entries, .int32 timeout] := isBody
    rw [← isMembers] at actions fresh
    obtain ⟨n, hinted⟩ := exists_hinted garbage signed isHints
    obtain ⟨reads, decoded⟩ := hinted.decoded
    have noActions : n.actions = [] ↔ strings.length < 2 := by
      rw [hinted.members.actions, actions, pairs_eq_nil_iff]
    rw [NotifyRestores, takeNotify, if_pos signed, listed, decoded, Option.elim_some, forall_prop_of_true signed]
    constructor
    · rintro ⟨taken, took, returns⟩ others hints isStrings isEntries
      obtain rfl : strings = others := by
        rw [isBody] at isStrings
        have same := (Data.array.inj (Option.some.inj isStrings)).2
        exact List.map_injective_iff.mpr (fun _ _ => Data.string.inj) same
      obtain rfl : entries = hints := by
        rw [isMembers] at isEntries
        exact hintDict_injective (Option.some.inj isEntries)
      have readable := readable_of_takeHints took
      have balanced := (returns_iff_leftover hinted fresh readable took).mp returns
      have fields := hinted.fields readable
      rw [fresh] at fields
      obtain ⟨none, paths, images, icons⟩ := (leftover_iff fields rfl rfl rfl readable).mp balanced
      exact ⟨noActions.mp none, readable, paths, images, icons⟩
    · intro restorable
      have strings5 : message.body[5]? = some (.array .string (strings.map .string)) := by
        rw [isBody]
        rfl
      have hints6 : message.body[6]? = some (hintDict entries) := by
        rw [isBody]
        rfl
      obtain ⟨few, readable, paths, images, icons⟩ := restorable strings entries strings5 hints6
      obtain ⟨taken, took, -⟩ := takeHints_readable (.start garbage (unhinted message.body)) readable
        ⟨.record :: (heldTexts (unhinted message.body) ++
          (unhinted message.body).actions.flatMap fun action => heldAction action ++ [.node]), []⟩
      have fields := hinted.fields readable
      rw [fresh] at fields
      refine ⟨taken, took, (returns_iff_leftover hinted fresh readable took).mpr ?_⟩
      exact (leftover_iff fields rfl rfl rfl readable).mpr ⟨noActions.mpr few, paths, images, icons⟩
  · rw [NotifyRestores, takeNotify, if_neg signed, unmarshalNotify, if_neg signed]
    apply iff_of_true ⟨_, rfl, Holdings.returns_iff_perm.mpr (.refl _)⟩
    intro isSigned
    exact absurd isSigned signed

/-! ## All replies -/

/-- What is decoded is given back, if and only if: the arrays in a table of HAL are arrays of strings, there are no
strings in a table of UKit, at most one capability is listed, and a notification is restorable. -/
theorem replies_restored_iff (garbage : Garbage) (message : Semantics.Message) :
    (Restores (acquireTable halCases message.body) (Hal.unmarshalDeviceGetAllProperties message.body).result
        (freeTable halPropertyFree) ↔
      (Data.types message.body = tableSignature → ∀ entry ∈ tableEntries message.body, ReadsTexts entry.2)) ∧
    (Restores (acquireTable ukitCases message.body) (Ukit.unmarshalDeviceGetAllProperties message.body).result
        (freeTable ukitPropertyFree) ↔
      (Data.types message.body = tableSignature → ∀ entry ∈ tableEntries message.body, Stringless entry.2)) ∧
    (Restores (acquireCapabilities message.body) (unmarshalGetCapabilitiesReturn message.body).result
        freeCapabilities ↔
      ∀ strings : List String, message.body = [.array .string (strings.map .string)] → strings.length < 2) ∧
    (NotifyRestores garbage message.body ↔
      (Data.types message.body = notifySignature →
        ∀ strings entries, message.body[5]? = some (.array .string (strings.map .string)) →
          message.body[6]? = some (hintDict entries) → Restorable strings entries)) :=
  ⟨halTable_restores_iff message, ukitTable_restores_iff message, capabilities_restores_iff message,
    notify_restores_iff garbage message⟩

/-- The reply of a server with two capabilities. -/
def twoCapabilities : Semantics.Message where
  body := [.array .string [.string "body", .string "actions"]]
  wellTyped := by simp [Data.AllWellTyped, Data.WellTyped, Data.type]

/-- The first of two capabilities is never released. -/
theorem capabilities_leak :
    ¬ ∀ message : Semantics.Message, Restores (acquireCapabilities message.body)
      (unmarshalGetCapabilitiesReturn message.body).result freeCapabilities := by
  intro restores
  have short := (capabilities_restores_iff twoCapabilities).mp (restores twoCapabilities) ["body", "actions"] rfl
  exact absurd short (by decide)

end EDBus.Replies
