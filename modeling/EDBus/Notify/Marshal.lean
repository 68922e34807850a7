import EDBus.Notify.Image

/-!
# The Notify message

`e_notify_marshal_notify` writes a notification, and `e_notify_unmarshal_notify` reads
one. The reader trusts the signature of the message for everything but the hints, whose
variants it trusts to be what their keys say. All that is read into a variable is kept
as a list of reads.
-/

open EDBus.Semantics

namespace EDBus.Notify

/-- The signature `susssasa{sv}i`. -/
def notifySignature : DataTypes :=
  .ofList [.string, .uint32, .string, .string, .string, .array .string, .array (.dictEntry .string .variant), .int32]

/-! ## Writing -/

/-- `e_notify_marshal_dict_string`. -/
def marshalDictString (key value : String) : List Data := [.dictEntry (.string key) (.variant (.string value))]

/-- `e_notify_marshal_dict_byte`, which leaves zero out. -/
def marshalDictByte (key : String) (value : UInt8) : List Data :=
  if value = 0 then [] else [.dictEntry (.string key) (.variant (.byte value))]

/-- `e_notify_marshal_dict_int`, which leaves zero out. -/
def marshalDictInt (key : String) (value : Int32) : List Data :=
  if value = 0 then [] else [.dictEntry (.string key) (.variant (.int32 value))]

/-- A string hint, if it is set. -/
def marshalHintString (key : String) (value : Option String) : List Data :=
  value.elim [] (marshalDictString key)

/-- The image hint, if there is an image. -/
def marshalHintImageData (image : Option Image) : Option (List Data) :=
  match image with
  | none => some []
  | some img => (marshalHintImage img).map fun data => [.dictEntry (.string "image-data") (.variant data)]

/-- The numeric hints behind the sound file. -/
def marshalHintNumbers (hints : Hints) : List Data :=
  (if hints.suppressSound ≠ 0 then marshalDictByte "suppress-sound" hints.suppressSound else []) ++
    if -1 < hints.x ∧ -1 < hints.y then marshalDictInt "x" hints.x ++ marshalDictInt "y" hints.y else []

/-- The hints of a message. -/
def marshalHints (hints : Hints) : Option (List Data) :=
  (marshalHintImageData hints.imageData).map fun image =>
    (if hints.urgency ≠ 0 then marshalDictByte "urgency" hints.urgency else []) ++
      marshalHintString "category" hints.category ++ marshalHintString "desktop_entry" hints.desktop ++ image ++
      marshalHintString "sound-file" hints.soundFile ++ marshalHintNumbers hints

/-- The id and the name of an action. -/
def marshalAction (action : Action) : List Data := [.string action.id, .string action.name]

/-- `e_notify_marshal_notify`: the body of the message. It is `none` where the image cannot be
written. -/
def marshalNotify (n : Notification) : Option (List Data) :=
  (marshalHints n.hints).map fun hints =>
    [.string (n.appName.getD ""), .uint32 n.replacesId, .string (n.appIcon.getD ""),
      .string (n.summary.getD ""), .string (n.body.getD ""), .array .string (n.actions.flatMap marshalAction),
      .array (.dictEntry .string .variant) hints, .int32 n.expireTimeout]

/-! ## Reading actions -/

/-- The loop of `e_notify_unmarshal_notify_actions`, and what it reads. -/
def unmarshalActions (n : Notification) (arr : Cursor) : Notification × List Read :=
  if _more : arr.hasNext = true then
    let id := arr.head?
    let name := arr.next.head?
    let added := n.actionAdd ((readString none id).getD "") ((readString none name).getD "")
    let rest := unmarshalActions added arr.next.next
    (rest.1, ⟨.string, 8, id⟩ :: ⟨.string, 8, name⟩ :: rest.2)
  else (n, [])
termination_by arr.length
decreasing_by
  simp only [Cursor.hasNext, decide_eq_true_eq] at _more
  simp only [Cursor.next, List.length_tail]
  omega

/-- `e_notify_unmarshal_notify_actions`. -/
def unmarshalNotifyActions (n : Notification) (iter : Cursor) : Notification × List Read :=
  unmarshalActions n iter.recurse

/-! ## Reading hints -/

/-- What variables hold that were not assigned. -/
structure Garbage where
  x : UInt32
  y : UInt32
  yVal : UInt8
  bVal : UInt32

/-- What the loop of `e_notify_unmarshal_notify_hints` works on: the notification, its
variables and what it read. -/
structure Hinting where
  notification : Notification
  xSet : Bool
  ySet : Bool
  x : Nat
  y : Nat
  sVal : Option String
  yVal : Nat
  bVal : Nat
  reads : List Read

namespace Hinting

/-- A variant is read into `y_val`, and a hint set to it. -/
def readByte (hinting : Hinting) (value : Option Data) (set : Notification → UInt8 → Notification) : Hinting :=
  let yVal := readNumber 1 hinting.yVal value
  { hinting with
    yVal := yVal
    notification := set hinting.notification (UInt8.ofNat yVal)
    reads := hinting.reads ++ [⟨.byte, 1, value⟩] }

/-- A variant is read into `s_val`, and a hint set to it. -/
def readText (hinting : Hinting) (value : Option Data) (set : Notification → Option String → Notification) :
    Hinting :=
  let sVal := readString hinting.sVal value
  { hinting with
    sVal := sVal
    notification := set hinting.notification sVal
    reads := hinting.reads ++ [⟨.string, 8, value⟩] }

/-- A variant is read into `b_val`, and a hint set to its lowest byte. -/
def readBoolean (hinting : Hinting) (value : Option Data) (set : Notification → UInt8 → Notification) : Hinting :=
  let bVal := readNumber 4 hinting.bVal value
  { hinting with
    bVal := bVal
    notification := set hinting.notification (UInt8.ofNat bVal)
    reads := hinting.reads ++ [⟨.boolean, 4, value⟩] }

/-- A variant is read into `x`. -/
def readX (hinting : Hinting) (value : Option Data) : Hinting :=
  { hinting with xSet := true, x := readNumber 4 hinting.x value, reads := hinting.reads ++ [⟨.int32, 4, value⟩] }

/-- A variant is read into `y`. -/
def readY (hinting : Hinting) (value : Option Data) : Hinting :=
  { hinting with ySet := true, y := readNumber 4 hinting.y value, reads := hinting.reads ++ [⟨.int32, 4, value⟩] }

/-- A variant is read as an image, and a hint set to it. -/
def readImage (hinting : Hinting) (variant : Cursor) (set : Notification → Option Image → Notification) : Hinting :=
  let image := unmarshalHintImage variant
  { hinting with
    notification := set hinting.notification image.1
    reads := hinting.reads ++ image.2 }

end Hinting

/-- The key says what the hint is. -/
inductive HintKey where
  | urgency
  | category
  | desktopEntry
  | imagePath
  | imageData
  | soundFile
  | suppressSound
  | transient
  | resident
  | x
  | y
  | iconData
deriving DecidableEq, Repr

/-- The comparisons with `strcmp` and `strncmp`. A key that starts with `image` is compared
with nothing else. -/
def hintKey (key : String) : Option HintKey :=
  if key = "urgency" then some .urgency
  else if key = "category" then some .category
  else if key = "desktop-entry" then some .desktopEntry
  else if key.toList.take 5 = "image".toList then
    match key.toList.drop 5 with
    | [] => none
    | separator :: rest =>
      if separator ≠ '-' ∧ separator ≠ '_' then none
      else if rest = "path".toList then some .imagePath
      else if rest = "data".toList then some .imageData
      else none
  else if key = "sound-file" then some .soundFile
  else if key = "suppress-sound" then some .suppressSound
  else if key = "transient" then some .transient
  else if key = "resident" then some .resident
  else if key = "x" then some .x
  else if key = "y" then some .y
  else if key = "icon_data" then some .iconData
  else none

/-- A hint is set to what is read from the variant, which nobody compares the type of. -/
def hintRead (hinting : Hinting) (key : HintKey) (variant : Cursor) : Hinting :=
  match key with
  | .urgency => hinting.readByte variant.head? Notification.hintUrgencySet
  | .category => hinting.readText variant.head? Notification.hintCategorySet
  | .desktopEntry => hinting.readText variant.head? Notification.hintDesktopSet
  | .imagePath => hinting.readText variant.head? Notification.hintImagePathSet
  | .imageData => hinting.readImage variant Notification.hintImageDataSet
  | .soundFile => hinting.readText variant.head? Notification.hintSoundFileSet
  | .suppressSound => hinting.readBoolean variant.head? Notification.hintSuppressSoundSet
  | .transient => hinting.readBoolean variant.head? fun n value => n.hintTransientSet (value ≠ 0)
  | .resident => hinting.readBoolean variant.head? fun n value => n.hintResidentSet (value ≠ 0)
  | .x => hinting.readX variant.head?
  | .y => hinting.readY variant.head?
  | .iconData => hinting.readImage variant fun n image => { n with hints := { n.hints with iconData := image } }

/-- An entry of the dictionary: the inner loop runs once for the key and the value. -/
def hintEntry (hinting : Hinting) (entry : Data) : Hinting :=
  let dict := entry.contents
  let keyed := { hinting with reads := hinting.reads ++ [⟨.string, 8, dict.head?⟩] }
  match (readString none dict.head?).bind hintKey with
  | none => keyed
  | some key => hintRead keyed key dict.next.recurse

/-- The variables before the loop. -/
def Hinting.start (garbage : Garbage) (n : Notification) : Hinting where
  notification := n
  xSet := false
  ySet := false
  x := garbage.x.toNat
  y := garbage.y.toNat
  sVal := none
  yVal := garbage.yVal.toNat
  bVal := garbage.bVal.toNat
  reads := []

/-- The position is set if both coordinates were. -/
def Hinting.finish (hinting : Hinting) : Notification × List Read :=
  (if hinting.xSet && hinting.ySet then hinting.notification.hintXySet (intOf hinting.x) (intOf hinting.y)
    else hinting.notification, hinting.reads)

/-- `e_notify_unmarshal_notify_hints`. It returns at once if there are none. -/
def unmarshalNotifyHints (garbage : Garbage) (n : Notification) (iter : Cursor) : Notification × List Read :=
  match iter.recurse with
  | [] => (n, [])
  | entry :: rest => ((entry :: rest).foldl hintEntry (.start garbage n)).finish

/-! ## Reading notifications -/

/-- A string of the message is read. -/
def readMember (iter : Cursor) : Option String := readString none iter.head?

/-- `e_notify_unmarshal_notify`, and what it reads. -/
def unmarshalNotify (garbage : Garbage) (message : List Data) : Option (Notification × List Read) :=
  if Data.types message = notifySignature then
    let replacesId := Cursor.next message
    let appIcon := replacesId.next
    let summary := appIcon.next
    let body := summary.next
    let actions := body.next
    let hints := actions.next
    let timeout := hints.next
    let named := notificationNew.appNameSet (readMember message)
    let replacing := named.replacesIdSet (UInt32.ofNat (readNumber 4 0 replacesId.head?))
    let texts := ((replacing.appIconSet (readMember appIcon)).summarySet (readMember summary)).bodySet
      (readMember body)
    let acted := unmarshalNotifyActions texts actions
    let hinted := unmarshalNotifyHints garbage acted.1 hints
    some (hinted.1.timeoutSet (intOf (readNumber 4 0 timeout.head?)), acted.2 ++ hinted.2)
  else none

end EDBus.Notify
