import EDBus.Semantics.Execution
import EDBus.Notify.Notification

/-!
# Flags of hints

All hints share the bits of `hint_flags`. `Notification.reported` is what the bits and the getters
say about the hints; `Reported.after` is what they should say, where every hint listens to its own
setter alone. `hints_independent_iff` finds the calls for which the two agree.
-/

open Semantics

namespace EDBus.Notify

/-! ## Setters and reports -/

/-- A call of a setter. -/
inductive HintCall where
  | transient (value : Bool)
  | resident (value : Bool)
  | actionIcons (value : Bool)
  | urgency (value : UInt8)
  | category (text : Option String)
  | desktop (text : Option String)
  | soundFile (text : Option String)
  | suppressSound (value : UInt8)
  | xy (x y : Int32)
deriving DecidableEq, Repr

/-- The setter is called. -/
def HintCall.apply (n : Notification) : HintCall → Notification
  | .transient value => n.hintTransientSet value
  | .resident value => n.hintResidentSet value
  | .actionIcons value => n.hintActionIconsSet value
  | .urgency value => n.hintUrgencySet value
  | .category text => n.hintCategorySet text
  | .desktop text => n.hintDesktopSet text
  | .soundFile text => n.hintSoundFileSet text
  | .suppressSound value => n.hintSuppressSoundSet value
  | .xy x y => n.hintXySet x y

/-- The setters as a machine. Every call can be made at any time. -/
def hintMachine : Machine Notification HintCall where
  step n call := some (call.apply n)

/-- What is reported of each hint. -/
@[ext] structure Reported where
  transient : Bool
  resident : Bool
  actionIcons : Bool
  urgency : UInt8
  category : Option String
  desktop : Option String
  soundFile : Option String
  suppressSound : UInt8
  xy : Bool × Int32 × Int32
deriving DecidableEq, Repr

/-- The bits of the boolean hints, and the getters of the others. -/
def Notification.reported (n : Notification) : Reported where
  transient := n.flagged hintTransient
  resident := n.flagged hintResident
  actionIcons := n.flagged hintActionIcons
  urgency := n.hintUrgencyGet
  category := n.hintCategoryGet
  desktop := n.hintDesktopGet
  soundFile := n.hintSoundFileGet
  suppressSound := n.hintSuppressSoundGet
  xy := n.hintXyGet

/-! ## Independent hints -/

namespace HintCall

def tellsTransient : HintCall → Option Bool
  | .transient value => some value
  | _ => none

def tellsResident : HintCall → Option Bool
  | .resident value => some value
  | _ => none

def tellsActionIcons : HintCall → Option Bool
  | .actionIcons value => some value
  | _ => none

def tellsUrgency : HintCall → Option UInt8
  | .urgency value => some value
  | _ => none

def tellsCategory : HintCall → Option (Option String)
  | .category text => some text
  | _ => none

def tellsDesktop : HintCall → Option (Option String)
  | .desktop text => some text
  | _ => none

def tellsSoundFile : HintCall → Option (Option String)
  | .soundFile text => some text
  | _ => none

def tellsSuppressSound : HintCall → Option UInt8
  | .suppressSound value => some value
  | _ => none

def tellsXy : HintCall → Option (Bool × Int32 × Int32)
  | .xy x y => some (true, x, y)
  | _ => none

end HintCall

/-- The last call that says something decides. -/
def lastTold {Value : Type} (tells : HintCall → Option Value) (initial : Value) (calls : List HintCall) : Value :=
  (calls.filterMap tells).getLastD initial

/-- What should be reported after some calls: of each hint what the last call of its own setter said, and what
was reported before if there was none. -/
def Reported.after (before : Reported) (calls : List HintCall) : Reported where
  transient := lastTold HintCall.tellsTransient before.transient calls
  resident := lastTold HintCall.tellsResident before.resident calls
  actionIcons := lastTold HintCall.tellsActionIcons before.actionIcons calls
  urgency := lastTold HintCall.tellsUrgency before.urgency calls
  category := lastTold HintCall.tellsCategory before.category calls
  desktop := lastTold HintCall.tellsDesktop before.desktop calls
  soundFile := lastTold HintCall.tellsSoundFile before.soundFile calls
  suppressSound := lastTold HintCall.tellsSuppressSound before.suppressSound calls
  xy := lastTold HintCall.tellsXy before.xy calls

theorem lastTold_cons {Value : Type} (tells : HintCall → Option Value) (initial : Value) (call : HintCall)
    (rest : List HintCall) :
    lastTold tells initial (call :: rest) = lastTold tells (lastTold tells initial [call]) rest := by
  unfold lastTold
  rw [List.filterMap_cons, List.filterMap_cons, List.filterMap_nil]
  cases tells call with
  | none => rfl
  | some value => rw [List.getLastD_cons, List.getLastD_cons, List.getLastD_nil]

theorem Reported.after_cons (before : Reported) (call : HintCall) (rest : List HintCall) :
    before.after (call :: rest) = (before.after [call]).after rest := by
  ext1 <;> exact lastTold_cons _ _ _ _

/-! ## Bits -/

/-- What is flipped is flipped. -/
theorem xor_and_self (flags flag : UInt32) : (flags ^^^ flag) &&& flag = (flags &&& flag) ^^^ flag := by
  apply UInt32.eq_of_toBitVec_eq
  ext index inside
  simp only [UInt32.toBitVec_and, UInt32.toBitVec_xor, BitVec.getElem_and, BitVec.getElem_xor]
  cases flags.toBitVec[index] <;> cases flag.toBitVec[index] <;> rfl

namespace Notification

/-- A bit that is set is there, and one that is flipped is there if it was not. -/
theorem flagged_flagSet_self (n : Notification) {flag : UInt32} (index : Nat)
    (isBit : flag.toBitVec = BitVec.twoPow 32 index) (nonzero : flag ≠ 0) (value : Bool) :
    (n.flagSet flag value).flagged flag = (value || !n.flagged flag) := by
  cases value with
  | true => simp [flagged, flagSet, or_and_self, nonzero]
  | false =>
      rcases and_bit n.hintFlags flag index isBit with clear | set
      · simp [flagged, flagSet, xor_and_self, clear, nonzero]
      · simp [flagged, flagSet, xor_and_self, set, nonzero]

/-- The other bits stay. -/
theorem flagged_flagSet_apart (n : Notification) {flag other : UInt32} (apart : flag &&& other = 0) (value : Bool) :
    (n.flagSet flag value).flagged other = n.flagged other := by
  cases value with
  | true => simp [flagged, flagSet, or_and_apart _ apart]
  | false => simp [flagged, flagSet, xor_and_apart _ apart]

end Notification

/-! ## One call -/

/-- The call leaves the hints of the other setters alone, and does to its own what it says: no bit is
cleared that is clear, and a bit that two hints share is set already. -/
def separate (n : Notification) : HintCall → Bool
  | .transient value => value || n.flagged hintTransient
  | .resident value => value && n.flagged hintResident
  | .actionIcons value => value || n.flagged hintActionIcons
  | .suppressSound _ => n.flagged hintSuppressSound
  | .xy _ _ => n.flagged hintXy
  | _ => true

/-- What a call does to what is reported. Residence and the position share a bit, and so do transience and the
suppression of sound; a bit is flipped to clear it. -/
def HintCall.effect (reported : Reported) : HintCall → Reported
  | .transient value => { reported with transient := value || !reported.transient }
  | .resident value =>
    { reported with
      resident := value || !reported.resident
      xy := (value || !reported.xy.1, reported.xy.2) }
  | .actionIcons value => { reported with actionIcons := value || !reported.actionIcons }
  | .urgency value => { reported with urgency := value }
  | .category text => { reported with category := text }
  | .desktop text => { reported with desktop := text }
  | .soundFile text => { reported with soundFile := text }
  | .suppressSound value => { reported with transient := true, suppressSound := value }
  | .xy x y => { reported with resident := true, xy := (true, x, y) }

/-- The urgency that is reported is the one that was set, or the default. -/
theorem hintUrgencyGet_flagSet_apart (n : Notification) {flag : UInt32} (apart : flag &&& hintUrgency = 0)
    (value : Bool) : (n.flagSet flag value).hintUrgencyGet = n.hintUrgencyGet := by
  simp only [Notification.hintUrgencyGet, Notification.flagged_flagSet_apart n apart]
  rfl

theorem reported_apply (n : Notification) (call : HintCall) :
    (call.apply n).reported = call.effect n.reported := by
  have self := @Notification.flagged_flagSet_self n
  have apart := @Notification.flagged_flagSet_apart n
  have urgency := @hintUrgencyGet_flagSet_apart n
  cases call with
  | transient value =>
      ext1
      case transient => exact self 4 rfl (by decide) value
      case urgency => exact urgency rfl value
      case xy => exact congrArg (·, n.hints.x, n.hints.y) (apart rfl value)
      case resident | actionIcons => exact apart rfl value
      all_goals rfl
  | resident value =>
      ext1
      case resident => exact self 5 rfl (by decide) value
      case urgency => exact urgency rfl value
      case xy => exact congrArg (·, n.hints.x, n.hints.y) (self 5 rfl (by decide) value)
      case transient | actionIcons => exact apart rfl value
      all_goals rfl
  | actionIcons value =>
      ext1
      case actionIcons => exact self 6 rfl (by decide) value
      case urgency => exact urgency rfl value
      case xy => exact congrArg (·, n.hints.x, n.hints.y) (apart rfl value)
      case transient | resident => exact apart rfl value
      all_goals rfl
  | urgency value =>
      ext1
      case urgency => exact if_pos (self 0 rfl (by decide) true)
      case xy => exact congrArg (·, n.hints.x, n.hints.y) (apart rfl true)
      case transient | resident | actionIcons => exact apart rfl true
      all_goals rfl
  | category text =>
      ext1
      case urgency => exact urgency rfl true
      case xy => exact congrArg (·, n.hints.x, n.hints.y) (apart rfl true)
      case transient | resident | actionIcons => exact apart rfl true
      all_goals rfl
  | desktop text =>
      ext1
      case urgency => exact urgency rfl true
      case xy => exact congrArg (·, n.hints.x, n.hints.y) (apart rfl true)
      case transient | resident | actionIcons => exact apart rfl true
      all_goals rfl
  | soundFile text =>
      ext1
      case urgency => exact urgency rfl true
      case xy => exact congrArg (·, n.hints.x, n.hints.y) (apart rfl true)
      case transient | resident | actionIcons => exact apart rfl true
      all_goals rfl
  | suppressSound value =>
      ext1
      case transient => exact self 4 rfl (by decide) true
      case urgency => exact urgency rfl true
      case xy => exact congrArg (·, n.hints.x, n.hints.y) (apart rfl true)
      case resident | actionIcons => exact apart rfl true
      all_goals rfl
  | xy x y =>
      ext1
      case resident => exact self 5 rfl (by decide) true
      case urgency => exact urgency rfl true
      case xy => exact congrArg (·, x, y) (self 5 rfl (by decide) true)
      case transient | actionIcons => exact apart rfl true
      all_goals rfl

/-- A call does what it should do if and only if it is separate. -/
theorem effect_eq_iff (n : Notification) (call : HintCall) :
    call.effect n.reported = n.reported.after [call] ↔ separate n call = true := by
  cases call with
  | transient value =>
      have told : n.reported.after [.transient value] = { n.reported with transient := value } := rfl
      rw [told, HintCall.effect, separate, Reported.mk.injEq]
      cases value <;> simp [Notification.reported]
  | resident value =>
      have told : n.reported.after [.resident value] = { n.reported with resident := value } := rfl
      have shared : n.reported.xy = (n.flagged hintResident, n.hints.x, n.hints.y) := rfl
      rw [told, HintCall.effect, separate, Reported.mk.injEq, shared]
      cases value <;> simp [Notification.reported]
  | actionIcons value =>
      have told : n.reported.after [.actionIcons value] = { n.reported with actionIcons := value } := rfl
      rw [told, HintCall.effect, separate, Reported.mk.injEq]
      cases value <;> simp [Notification.reported]
  | suppressSound value =>
      have told : n.reported.after [.suppressSound value] = { n.reported with suppressSound := value } := rfl
      have shared : n.reported.transient = n.flagged hintSuppressSound := rfl
      rw [told, HintCall.effect, separate, Reported.mk.injEq, shared]
      simp
  | xy x y =>
      have told : n.reported.after [.xy x y] = { n.reported with xy := (true, x, y) } := rfl
      have shared : n.reported.resident = n.flagged hintXy := rfl
      rw [told, HintCall.effect, separate, Reported.mk.injEq, shared]
      simp
  | urgency value => exact iff_of_true rfl rfl
  | category text => exact iff_of_true rfl rfl
  | desktop text => exact iff_of_true rfl rfl
  | soundFile text => exact iff_of_true rfl rfl

/-! ## Calls -/

/-- The hints are reported as if every one of them listened to its own setter alone, whenever the calls are
interrupted, if and only if every call is separate where it is made. -/
theorem hints_independent_iff (n : Notification) (calls : List HintCall) :
    (∀ before, before <+: calls → ∀ later, hintMachine.exec n before = some later →
        later.reported = n.reported.after before) ↔
      hintMachine.Along (fun n call _ => separate n call = true) n calls := by
  induction calls generalizing n with
  | nil =>
      apply iff_of_true _ trivial
      intro before isPrefix later executed
      rw [List.prefix_nil.mp isPrefix, Machine.exec_nil, Option.some.injEq] at executed
      rw [List.prefix_nil.mp isPrefix, ← executed]
      rfl
  | cons call rest ih =>
      have stepped : hintMachine.step n call = some (call.apply n) := rfl
      rw [Machine.along_cons stepped, ← ih, ← effect_eq_iff, ← reported_apply]
      constructor
      · intro told
        have single : (call.apply n).reported = n.reported.after [call] :=
          told [call] (List.cons_prefix_cons.mpr ⟨rfl, List.nil_prefix⟩) _ rfl
        refine ⟨single, fun before isPrefix later executed => ?_⟩
        rw [single, ← Reported.after_cons]
        exact told (call :: before) (List.cons_prefix_cons.mpr ⟨rfl, isPrefix⟩) later
          (Machine.exec_cons_iff.mpr ⟨_, stepped, executed⟩)
      · rintro ⟨single, told⟩ before isPrefix later executed
        cases before with
        | nil =>
            rw [Machine.exec_nil, Option.some.injEq] at executed
            rw [← executed]
            rfl
        | cons first others =>
            obtain ⟨rfl, isRest⟩ := List.cons_prefix_cons.mp isPrefix
            obtain ⟨next, taken, executed⟩ := Machine.exec_cons_iff.mp executed
            obtain rfl := Option.some.inj taken
            rw [Reported.after_cons, ← single]
            exact told others isRest later executed

/-- The position makes the notification resident. -/
theorem hints_dependent :
    ¬ ∀ (n : Notification) (calls : List HintCall) (before : List HintCall), before <+: calls →
      ∀ later, hintMachine.exec n before = some later → later.reported = n.reported.after before := by
  intro independent
  have told := independent notificationNew [.xy 3 4] [.xy 3 4] (List.prefix_refl _) _ rfl
  exact absurd (congrArg Reported.resident told) (by decide)

end EDBus.Notify
