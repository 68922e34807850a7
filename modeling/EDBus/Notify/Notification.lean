import EDBus.Semantics.Block

/-!
# Notifications

`E_Notification` as the setters and getters of `notification.c` see it. A string is
`none` where the pointer is `NULL`; numbers have the width of the C types. The id, the
reference count and the flag `closed` are not kept, as no function here reads them.
-/

open EDBus.Semantics

namespace EDBus.Notify

/-! ## Bits of `hint_flags` -/

/-- `E_NOTIFICATION_HINT_URGENCY`. -/
def hintUrgency : UInt32 := (1 : UInt32) <<< 0
/-- `E_NOTIFICATION_HINT_CATEGORY`. -/
def hintCategory : UInt32 := (1 : UInt32) <<< 1
/-- `E_NOTIFICATION_HINT_DESKTOP`. -/
def hintDesktop : UInt32 := (1 : UInt32) <<< 2
/-- `E_NOTIFICATION_HINT_SOUND_FILE`. -/
def hintSoundFile : UInt32 := (1 : UInt32) <<< 3
/-- `E_NOTIFICATION_HINT_TRANSIENT`. -/
def hintTransient : UInt32 := (1 : UInt32) <<< 4
/-- `E_NOTIFICATION_HINT_RESIDENT`. -/
def hintResident : UInt32 := (1 : UInt32) <<< 5
/-- `E_NOTIFICATION_HINT_ACTION_ICONS`. -/
def hintActionIcons : UInt32 := (1 : UInt32) <<< 6
/-- `E_NOTIFICATION_HINT_SUPPRESS_SOUND`, which is the bit of `hintTransient`. -/
def hintSuppressSound : UInt32 := 0x10
/-- `E_NOTIFICATION_HINT_XY`, which is the bit of `hintResident`. -/
def hintXy : UInt32 := 0x20

/-! ## Records -/

/-- `E_Notification_Action`, with an id and a name that are not `NULL`. -/
structure Action where
  id : String
  name : String
deriving DecidableEq, Repr

/-- `E_Notification_Image`. `data` is the block that was allocated, `none` before. -/
structure Image where
  width : Int32
  height : Int32
  rowstride : Int32
  hasAlpha : UInt8
  bitsPerSample : Int32
  channels : Int32
  data : Option Block
deriving DecidableEq, Repr

/-- `hints` of a notification. -/
structure Hints where
  urgency : UInt8
  category : Option String
  desktop : Option String
  soundFile : Option String
  imagePath : Option String
  suppressSound : UInt8
  x : Int32
  y : Int32
  imageData : Option Image
  iconData : Option Image
deriving DecidableEq, Repr

/-- `E_Notification`. -/
structure Notification where
  appName : Option String
  replacesId : UInt32
  appIcon : Option String
  summary : Option String
  body : Option String
  expireTimeout : Int32
  actions : List Action
  hints : Hints
  hintFlags : UInt32
deriving DecidableEq, Repr

/-- `e_notification_new`: all fields are zero. -/
def notificationNew : Notification where
  appName := none
  replacesId := 0
  appIcon := none
  summary := none
  body := none
  expireTimeout := 0
  actions := []
  hints := ⟨0, none, none, none, none, 0, 0, 0, none, none⟩
  hintFlags := 0

/-- `e_notification_full_new`. -/
def notificationFullNew (appName : Option String) (replacesId : UInt32) (appIcon summary body : Option String)
    (expireTimeout : Int32) : Notification :=
  { notificationNew with
    appName := appName
    replacesId := replacesId
    appIcon := appIcon
    summary := summary
    body := body
    expireTimeout := expireTimeout
    hints := { notificationNew.hints with x := -1, y := -1 } }

/-- `e_notification_image_new`. -/
def imageNew : Image where
  width := 0
  height := 0
  rowstride := 0
  hasAlpha := 0
  bitsPerSample := 8
  channels := 0
  data := none

namespace Notification

/-! ## Mutators -/

/-- `e_notification_app_name_set`. -/
def appNameSet (note : Notification) (appName : Option String) : Notification :=
  { note with appName := appName }

/-- `e_notification_app_icon_set`. -/
def appIconSet (note : Notification) (appIcon : Option String) : Notification :=
  { note with appIcon := appIcon }

/-- `e_notification_summary_set`. -/
def summarySet (note : Notification) (summary : Option String) : Notification :=
  { note with summary := summary }

/-- `e_notification_body_set`. -/
def bodySet (note : Notification) (body : Option String) : Notification :=
  { note with body := body }

/-- `e_notification_action_add`. -/
def actionAdd (n : Notification) (id name : String) : Notification :=
  { n with actions := n.actions ++ [⟨id, name⟩] }

/-- `e_notification_replaces_id_set`. -/
def replacesIdSet (note : Notification) (replacesId : UInt32) : Notification :=
  { note with replacesId := replacesId }

/-- `e_notification_timeout_set`. -/
def timeoutSet (note : Notification) (timeout : Int32) : Notification :=
  { note with expireTimeout := timeout }

/-! ## Hints -/

/-- A flag is set with `|=`, and flipped with `^=` to clear it. -/
def flagSet (n : Notification) (flag : UInt32) (value : Bool) : Notification :=
  { n with hintFlags := if value then n.hintFlags ||| flag else n.hintFlags ^^^ flag }

/-- `e_notification_hint_transient_set`. -/
def hintTransientSet (n : Notification) (transient : Bool) : Notification :=
  n.flagSet hintTransient transient

/-- `e_notification_hint_resident_set`. -/
def hintResidentSet (n : Notification) (resident : Bool) : Notification :=
  n.flagSet hintResident resident

/-- `e_notification_hint_action_icons_set`. -/
def hintActionIconsSet (n : Notification) (actionIcons : Bool) : Notification :=
  n.flagSet hintActionIcons actionIcons

/-- `e_notification_hint_urgency_set`. -/
def hintUrgencySet (n : Notification) (urgency : UInt8) : Notification :=
  { n with hints := { n.hints with urgency := urgency }, hintFlags := n.hintFlags ||| hintUrgency }

/-- `e_notification_hint_image_path_set`, which sets no flag. -/
def hintImagePathSet (n : Notification) (path : Option String) : Notification :=
  { n with hints := { n.hints with imagePath := path } }

/-- `e_notification_hint_category_set`. -/
def hintCategorySet (n : Notification) (category : Option String) : Notification :=
  { n with hints := { n.hints with category := category }, hintFlags := n.hintFlags ||| hintCategory }

/-- `e_notification_hint_desktop_set`. -/
def hintDesktopSet (n : Notification) (desktop : Option String) : Notification :=
  { n with hints := { n.hints with desktop := desktop }, hintFlags := n.hintFlags ||| hintDesktop }

/-- `e_notification_hint_sound_file_set`. -/
def hintSoundFileSet (n : Notification) (soundFile : Option String) : Notification :=
  { n with hints := { n.hints with soundFile := soundFile }, hintFlags := n.hintFlags ||| hintSoundFile }

/-- `e_notification_hint_suppress_sound_set`. -/
def hintSuppressSoundSet (n : Notification) (suppressSound : UInt8) : Notification :=
  { n with
    hints := { n.hints with suppressSound := suppressSound }
    hintFlags := n.hintFlags ||| hintSuppressSound }

/-- `e_notification_hint_xy_set`. -/
def hintXySet (n : Notification) (x y : Int32) : Notification :=
  { n with hints := { n.hints with x := x, y := y }, hintFlags := n.hintFlags ||| hintXy }

/-- `e_notification_hint_image_data_set`. -/
def hintImageDataSet (n : Notification) (image : Option Image) : Notification :=
  { n with hints := { n.hints with imageData := image } }

/-- `n->hint_flags & flag`. -/
def flagged (n : Notification) (flag : UInt32) : Bool := n.hintFlags &&& flag ≠ 0

/-- `e_notification_hint_urgency_get`. -/
def hintUrgencyGet (n : Notification) : UInt8 := if n.flagged hintUrgency then n.hints.urgency else 1

/-- `e_notification_hint_suppress_sound_get`. -/
def hintSuppressSoundGet (n : Notification) : UInt8 := n.hints.suppressSound

/-- `e_notification_hint_xy_get`: the result and the coordinates. -/
def hintXyGet (n : Notification) : Bool × Int32 × Int32 := (n.flagged hintXy, n.hints.x, n.hints.y)

/-- `e_notification_hint_category_get`. -/
def hintCategoryGet (n : Notification) : Option String := n.hints.category

/-- `e_notification_hint_desktop_get`. -/
def hintDesktopGet (n : Notification) : Option String := n.hints.desktop

/-- `e_notification_hint_image_path_get`. -/
def hintImagePathGet (n : Notification) : Option String := n.hints.imagePath

/-- `e_notification_hint_sound_file_get`. -/
def hintSoundFileGet (n : Notification) : Option String := n.hints.soundFile

end Notification

/-! ## Flags -/

/-- Setting a flag leaves those of other bits. -/
theorem or_and_apart (flags : UInt32) {flag other : UInt32} (apart : flag &&& other = 0) :
    (flags ||| flag) &&& other = flags &&& other := by
  apply UInt32.eq_of_toBitVec_eq
  ext index inside
  have bit : (flag &&& other).toBitVec[index] = (0 : UInt32).toBitVec[index] := by rw [apart]
  simp only [UInt32.toBitVec_and, UInt32.toBitVec_or, BitVec.getElem_and, BitVec.getElem_or,
    UInt32.toBitVec_ofNat, BitVec.getElem_zero] at bit ⊢
  rw [Bool.and_or_distrib_right, bit, Bool.or_false]

/-- Flipping a flag leaves those of other bits. -/
theorem xor_and_apart (flags : UInt32) {flag other : UInt32} (apart : flag &&& other = 0) :
    (flags ^^^ flag) &&& other = flags &&& other := by
  apply UInt32.eq_of_toBitVec_eq
  ext index inside
  have bit : (flag &&& other).toBitVec[index] = (0 : UInt32).toBitVec[index] := by rw [apart]
  simp only [UInt32.toBitVec_and, UInt32.toBitVec_xor, BitVec.getElem_and, BitVec.getElem_xor,
    UInt32.toBitVec_ofNat, BitVec.getElem_zero] at bit ⊢
  rw [Bool.and_xor_distrib_right, bit, Bool.xor_false]

/-- A flag that was set is there. -/
theorem or_and_self (flags flag : UInt32) : (flags ||| flag) &&& flag = flag := by
  apply UInt32.eq_of_toBitVec_eq
  ext index inside
  simp only [UInt32.toBitVec_and, UInt32.toBitVec_or, BitVec.getElem_and, BitVec.getElem_or]
  cases flag.toBitVec[index] <;> simp

/-- A bit is set or not. -/
theorem and_bit (flags flag : UInt32) (index : Nat) (isBit : flag.toBitVec = BitVec.twoPow 32 index) :
    flags &&& flag = 0 ∨ flags &&& flag = flag := by
  have bit := BitVec.and_twoPow flags.toBitVec index
  split at bit
  · exact .inr (UInt32.eq_of_toBitVec_eq (by rw [UInt32.toBitVec_and, isBit, bit]))
  · exact .inl (UInt32.eq_of_toBitVec_eq (by rw [UInt32.toBitVec_and, isBit, bit]; rfl))

end EDBus.Notify
