import EDBus.Dbus.Exported
import EDBus.Semantics.Holdings
import Mathlib.Data.List.Nodup
import Mathlib.Data.List.ReduceOption

/-!
# The lifetime of interfaces

An interface is attached by name and detached by pointer. Its reference count is
the number of references that were given out and not given back, and of objects
that have it in their list, and it is freed when there are none (`Counted`).
-/

open EDBus.Semantics

namespace EDBus.Dbus.Exported

variable {Fn : Type} {state : State Fn}

/-- The object lives, and its list has the interface. -/
def State.lists (state : State Fn) (iface : InterfaceId) (obj : ObjectId) : Bool :=
  (state.objects obj).any fun object => decide (iface ∈ object.interfaces)

/-- How many objects that live have the interface in their list. -/
def State.holders (state : State Fn) (iface : InterfaceId) : Nat :=
  (List.range state.nextObject).countP (state.lists iface)

/-- The reference count of an interface, and `0` for one that is freed. -/
def State.counts (state : State Fn) : Holdings InterfaceId := fun iface =>
  ((state.interfaces iface).map Interface.refcount).getD 0

/-- The name of an interface that is not freed. -/
def State.nameOf (state : State Fn) (iface : InterfaceId) : Option String :=
  (state.interfaces iface).map Interface.name

/-- What holds of the references after every call. -/
structure Balanced (state : State Fn) : Prop where
  untouched : state.touchedFreed = false
  positive : ∀ iface interface, state.interfaces iface = some interface → 0 < interface.refcount
  counted : ∀ iface, state.counts iface = state.references iface + state.holders iface
  named : ∀ obj object, state.objects obj = some object → (object.interfaces.map state.nameOf).Nodup
  freshInterface : ∀ iface, state.nextInterface ≤ iface → state.interfaces iface = none
  freshObject : ∀ obj, state.nextObject ≤ obj → state.objects obj = none

theorem initial_balanced : Balanced (State.initial : State Fn) where
  untouched := rfl
  positive _ _ found := by cases found
  counted _ := rfl
  named _ _ found := by cases found
  freshInterface _ _ := rfl
  freshObject _ _ := rfl

/-! ## Counting the objects that list an interface -/

/-- Changing a test at one number changes the count by what changes there. -/
theorem countP_range_update {before after : Nat → Bool} {changed : Nat}
    (elsewhere : ∀ other, other ≠ changed → after other = before other) {bound : Nat} (inside : changed < bound) :
    (List.range bound).countP after + (before changed).toNat =
      (List.range bound).countP before + (after changed).toNat := by
  induction bound with
  | zero => cases inside
  | succ bound ih =>
      have last : ∀ test : Nat → Bool, (List.range (bound + 1)).countP test =
          (List.range bound).countP test + (test bound).toNat := by
        intro test
        rw [List.range_succ, List.countP_append, List.countP_singleton]
        cases test bound <;> rfl
      rw [last, last]
      by_cases atEnd : changed = bound
      · have same : (List.range bound).countP after = (List.range bound).countP before := by
          apply List.countP_congr
          intro other isBelow
          rw [elsewhere other (by have := List.mem_range.mp isBelow; omega)]
        rw [same, atEnd]
        omega
      · have earlier := ih (by omega)
        rw [elsewhere bound (Ne.symm atEnd)]
        omega

theorem holders_update {before : State Fn} (after : State Fn) {obj : ObjectId} (inside : obj < before.nextObject)
    (sameNext : after.nextObject = before.nextObject)
    (elsewhere : ∀ other, other ≠ obj → after.objects other = before.objects other) (iface : InterfaceId) :
    after.holders iface + (before.lists iface obj).toNat = before.holders iface + (after.lists iface obj).toNat := by
  rw [State.holders, State.holders, sameNext]
  refine countP_range_update (fun other different => ?_) inside
  rw [State.lists, State.lists, elsewhere other different]

theorem holders_congr {before after : State Fn} (sameNext : after.nextObject = before.nextObject)
    (sameLists : ∀ iface obj, after.lists iface obj = before.lists iface obj) (iface : InterfaceId) :
    after.holders iface = before.holders iface := by
  rw [State.holders, State.holders, sameNext]
  exact List.countP_congr fun obj _ => by rw [sameLists]

theorem holders_pos {iface : InterfaceId} {obj : ObjectId} {object : Object Fn} (inside : obj < state.nextObject)
    (found : state.objects obj = some object) (listed : iface ∈ object.interfaces) : 0 < state.holders iface := by
  apply List.countP_pos_iff.mpr
  refine ⟨obj, List.mem_range.mpr inside, ?_⟩
  simpa [State.lists, found] using listed

/-- A list that an object may have: of interfaces that are there, with distinct names. -/
structure Listable (state : State Fn) (obj : ObjectId) (listed : List InterfaceId) : Prop where
  inside : obj < state.nextObject
  named : (listed.map state.nameOf).Nodup
  alive : ∀ iface ∈ listed, ∃ interface, state.interfaces iface = some interface

namespace Balanced

theorem object_inside (balanced : Balanced state) {obj : ObjectId} {object : Object Fn}
    (found : state.objects obj = some object) : obj < state.nextObject := by
  by_contra outside
  rw [balanced.freshObject obj (Nat.le_of_not_lt outside)] at found
  cases found

/-- An interface is alive exactly if somebody has a reference or lists it. -/
theorem alive_iff (balanced : Balanced state) (iface : InterfaceId) :
    (∃ interface, state.interfaces iface = some interface) ↔
      0 < state.references iface + state.holders iface := by
  have counted := balanced.counted iface
  cases found : state.interfaces iface with
  | none =>
      have freed : state.counts iface = 0 := by
        rw [State.counts, found]
        rfl
      refine iff_of_false (by rintro ⟨_, ⟨⟩⟩) ?_
      omega
  | some interface =>
      have refcount : state.counts iface = interface.refcount := by
        rw [State.counts, found]
        rfl
      have positive := balanced.positive iface interface found
      refine iff_of_true ⟨interface, rfl⟩ ?_
      omega

theorem alive_of_listed (balanced : Balanced state) {iface : InterfaceId} {obj : ObjectId} {object : Object Fn}
    (found : state.objects obj = some object) (listed : iface ∈ object.interfaces) :
    ∃ interface, state.interfaces iface = some interface := by
  apply (balanced.alive_iff iface).mpr
  have holds := holders_pos (balanced.object_inside found) found listed
  omega

theorem listable (balanced : Balanced state) {obj : ObjectId} {object : Object Fn}
    (found : state.objects obj = some object) : Listable state obj object.interfaces where
  inside := balanced.object_inside found
  named := balanced.named obj object found
  alive _ listed := balanced.alive_of_listed found listed

/-- Lists are such that they can be had, interfaces keep their names, and the counts are right again. -/
theorem rebuild (balanced : Balanced state) {after : State Fn} (untouched : after.touchedFreed = state.touchedFreed)
    (nextObject : after.nextObject = state.nextObject)
    (lists : ∀ obj object, after.objects obj = some object → Listable state obj object.interfaces)
    (names : ∀ iface interface, after.interfaces iface = some interface → iface < state.nextInterface →
      state.nameOf iface = some interface.name)
    (positive : ∀ iface interface, after.interfaces iface = some interface → 0 < interface.refcount)
    (fresh : ∀ iface, after.nextInterface ≤ iface → after.interfaces iface = none)
    (counted : ∀ iface, after.counts iface = after.references iface + after.holders iface) :
    Balanced after := by
  have freshObject : ∀ obj, after.nextObject ≤ obj → after.objects obj = none := by
    intro obj outside
    by_contra isObject
    obtain ⟨object, found⟩ := Option.ne_none_iff_exists'.mp isObject
    have inside := (lists obj object found).inside
    rw [nextObject] at outside
    exact Nat.not_lt.mpr outside inside
  constructor
  case untouched => rw [untouched, balanced.untouched]
  case positive => exact positive
  case counted => exact counted
  case named =>
    intro obj object found
    obtain ⟨inside, named, wereAlive⟩ := lists obj object found
    have unchanged : object.interfaces.map after.nameOf = object.interfaces.map state.nameOf := by
      apply List.map_congr_left
      intro iface listed
      have holds : 0 < after.holders iface := by
        refine holders_pos ?_ found listed
        rw [nextObject]
        exact inside
      obtain ⟨earlier, wasAlive⟩ := wereAlive iface listed
      have known : iface < state.nextInterface := by
        by_contra outside
        rw [balanced.freshInterface iface (Nat.le_of_not_lt outside)] at wasAlive
        cases wasAlive
      have count := counted iface
      cases isAlive : after.interfaces iface with
      | none =>
          have freed : after.counts iface = 0 := by
            rw [State.counts, isAlive]
            rfl
          omega
      | some interface => rw [State.nameOf, isAlive, Option.map_some, names iface interface isAlive known]
    rw [unchanged]
    exact named
  case freshInterface => exact fresh
  case freshObject => exact freshObject

/-- No object changes its list, and the counts agree with the references. -/
theorem congr (balanced : Balanced state) {after : State Fn} (untouched : after.touchedFreed = state.touchedFreed)
    (nextObject : after.nextObject = state.nextObject)
    (lists : ∀ obj, (after.objects obj).map Object.interfaces = (state.objects obj).map Object.interfaces)
    (names : ∀ iface interface, after.interfaces iface = some interface → iface < state.nextInterface →
      state.nameOf iface = some interface.name)
    (positive : ∀ iface interface, after.interfaces iface = some interface → 0 < interface.refcount)
    (fresh : ∀ iface, after.nextInterface ≤ iface → after.interfaces iface = none)
    (counted : ∀ iface, after.counts iface - after.references iface = state.counts iface - state.references iface) :
    Balanced after := by
  have sameLists : ∀ iface obj, after.lists iface obj = state.lists iface obj := by
    intro iface obj
    have test : ∀ entry : Option (Object Fn), (entry.any fun object => decide (iface ∈ object.interfaces)) =
        (entry.map Object.interfaces).any fun interfaces => decide (iface ∈ interfaces) := by
      intro entry
      cases entry <;> rfl
    rw [State.lists, State.lists, test, test, lists obj]
  refine balanced.rebuild untouched nextObject ?_ names positive fresh fun iface => ?_
  · intro obj object found
    have same := lists obj
    rw [found, Option.map_some] at same
    obtain ⟨before, wasFound, sameList⟩ := Option.map_eq_some_iff.mp same.symm
    exact sameList ▸ balanced.listable wasFound
  · have before := balanced.counted iface
    have difference := counted iface
    rw [holders_congr nextObject sameLists]
    omega

end Balanced

/-! ## The operations -/

@[simp] theorem setInterface_counts (state : State Fn) (iface : InterfaceId) (value : Option (Interface (Func Fn)))
    (other : InterfaceId) : (state.setInterface iface value).counts other =
      if other = iface then (value.map Interface.refcount).getD 0 else state.counts other := by
  by_cases here : other = iface
  · simp [State.counts, State.setInterface, here]
  · simp [State.counts, State.setInterface, here]

theorem counts_of_found {iface : InterfaceId} {interface : Interface (Func Fn)}
    (found : state.interfaces iface = some interface) : state.counts iface = interface.refcount := by
  rw [State.counts, found]
  rfl

theorem interfaceRef_eq {iface : InterfaceId} {interface : Interface (Func Fn)}
    (found : state.interfaces iface = some interface) : interfaceRef state iface =
      state.setInterface iface (some { interface with refcount := interface.refcount + 1 }) := by
  rw [interfaceRef, found]

/-- Another value for an interface of the same name, with the count that the references tell. -/
structure Recounted (interface : Interface (Func Fn)) (count : Int) (value : Option (Interface (Func Fn))) : Prop where
  refcount : (value.map Interface.refcount).getD 0 = count
  left : ∀ remaining, value = some remaining → remaining.name = interface.name ∧ 0 < remaining.refcount

section Recounted

variable {iface : InterfaceId} {interface : Interface (Func Fn)} {count : Int} {value : Option (Interface (Func Fn))}

theorem Recounted.name (recounted : Recounted interface count value) (found : state.interfaces iface = some interface)
    (other : InterfaceId) (left : Interface (Func Fn))
    (isLeft : (state.setInterface iface value).interfaces other = some left) : state.nameOf other = some left.name := by
  by_cases here : other = iface
  · subst here
    simp only [State.setInterface, Function.update_self] at isLeft
    rw [State.nameOf, found, Option.map_some, (recounted.left left isLeft).1]
  · simp only [State.setInterface, ne_eq, here, not_false_eq_true, Function.update_of_ne] at isLeft
    rw [State.nameOf, isLeft, Option.map_some]

theorem Recounted.positive (recounted : Recounted interface count value)
    (positive : ∀ iface interface, state.interfaces iface = some interface → 0 < interface.refcount)
    (other : InterfaceId) (left : Interface (Func Fn))
    (isLeft : (state.setInterface iface value).interfaces other = some left) : 0 < left.refcount := by
  by_cases here : other = iface
  · simp only [State.setInterface, here, Function.update_self] at isLeft
    exact (recounted.left left isLeft).2
  · simp only [State.setInterface, ne_eq, here, not_false_eq_true, Function.update_of_ne] at isLeft
    exact positive other left isLeft

theorem Balanced.setInterface_fresh (balanced : Balanced state) (found : state.interfaces iface = some interface)
    (value : Option (Interface (Func Fn))) (other : InterfaceId) (outside : state.nextInterface ≤ other) :
    (state.setInterface iface value).interfaces other = none := by
  have different : other ≠ iface := by
    rintro rfl
    rw [balanced.freshInterface other outside] at found
    cases found
  simp only [State.setInterface, ne_eq, different, not_false_eq_true, Function.update_of_ne]
  exact balanced.freshInterface other outside

end Recounted

theorem interfaceUnref_recounted {iface : InterfaceId} {interface : Interface (Func Fn)}
    (found : state.interfaces iface = some interface) (positive : 0 < interface.refcount) :
    ∃ value, interfaceUnref state iface = state.setInterface iface value ∧
      Recounted interface (interface.refcount - 1) value := by
  rw [interfaceUnref, found]
  by_cases last : interface.refcount - 1 = 0
  · refine ⟨none, if_pos last, ?_, ?_⟩
    · exact last.symm
    · rintro _ ⟨⟩
  · refine ⟨_, if_neg last, rfl, ?_⟩
    rintro _ ⟨⟩
    exact ⟨rfl, by simp only; omega⟩

/-- A recounted interface whose references changed by as much. -/
theorem Balanced.recount (balanced : Balanced state) {iface : InterfaceId} {interface : Interface (Func Fn)}
    {count : Int} {value : Option (Interface (Func Fn))} {references : Nat}
    (found : state.interfaces iface = some interface) (recounted : Recounted interface count value)
    (agrees : count - references = interface.refcount - state.references iface) :
    Balanced { state.setInterface iface value with
      references := Function.update state.references iface references } := by
  refine balanced.congr rfl rfl (fun _ => rfl) (fun other left isLeft _ => recounted.name found other left isLeft)
    (recounted.positive balanced.positive) (balanced.setInterface_fresh found value) fun other => ?_
  have counts := setInterface_counts state iface value other
  by_cases here : other = iface
  · subst here
    have sameCount := counts_of_found found
    rw [if_pos rfl, recounted.refcount] at counts
    simp only [Function.update_self]
    exact (congrArg (· - (references : Int)) counts).trans (agrees.trans (by rw [sameCount]))
  · rw [if_neg here] at counts
    simp only [ne_eq, here, not_false_eq_true, Function.update_of_ne]
    exact congrArg (· - (state.references other : Int)) counts

theorem take_balanced (balanced : Balanced state) {iface : InterfaceId} (alive : state.alive iface = true) :
    Balanced (take state iface) := by
  obtain ⟨interface, found⟩ := Option.isSome_iff_exists.mp alive
  have positive := balanced.positive iface interface found
  have recounted : Recounted interface (interface.refcount + 1)
      (some { interface with refcount := interface.refcount + 1 }) := by
    refine ⟨rfl, ?_⟩
    rintro _ ⟨⟩
    exact ⟨rfl, by simp only; omega⟩
  rw [take, interfaceRef_eq found]
  refine balanced.recount found recounted ?_
  simp only [State.setInterface]
  push_cast
  omega

theorem giveBack_balanced (balanced : Balanced state) {iface : InterfaceId} (given : 0 < state.references iface) :
    Balanced (giveBack state iface) := by
  obtain ⟨interface, found⟩ := (balanced.alive_iff iface).mpr (by omega)
  obtain ⟨value, unreferred, recounted⟩ := interfaceUnref_recounted found (balanced.positive iface interface found)
  rw [giveBack, unreferred]
  refine balanced.recount found recounted ?_
  simp only [State.setInterface]
  omega

/-- A change of an interface that is none of its name or count. -/
theorem Balanced.setInterface (balanced : Balanced state) {iface : InterfaceId}
    {interface changed : Interface (Func Fn)} (found : state.interfaces iface = some interface)
    (name : changed.name = interface.name) (refcount : changed.refcount = interface.refcount) :
    Balanced (state.setInterface iface (some changed)) := by
  have recounted : Recounted interface interface.refcount (some changed) := by
    refine ⟨refcount, ?_⟩
    rintro _ ⟨⟩
    exact ⟨name, refcount ▸ balanced.positive iface interface found⟩
  have same := balanced.recount found recounted rfl
  rwa [Function.update_eq_self] at same

theorem interfaceMethodAdd_balanced (balanced : Balanced state) {iface : InterfaceId} (alive : state.alive iface = true)
    (member signature replySignature : Option String) (func : Option (Func Fn)) :
    Balanced (interfaceMethodAdd state iface member signature replySignature func) := by
  obtain ⟨interface, found⟩ := Option.isSome_iff_exists.mp alive
  unfold interfaceMethodAdd
  split
  · exact balanced
  · rw [found]
    exact balanced.setInterface found rfl rfl

theorem interfaceSignalAdd_balanced (balanced : Balanced state) {iface : InterfaceId} (alive : state.alive iface = true)
    (name signature : Option String) : Balanced (interfaceSignalAdd state iface name signature) := by
  obtain ⟨interface, found⟩ := Option.isSome_iff_exists.mp alive
  unfold interfaceSignalAdd
  split
  · exact balanced
  · rw [found]
    exact balanced.setInterface found rfl rfl

theorem interfaceNew_balanced (balanced : Balanced state) (name : String) : Balanced (interfaceNew state name).1 := by
  have unused := balanced.counted state.nextInterface
  have fresh := balanced.freshInterface state.nextInterface (Nat.le_refl _)
  refine balanced.congr rfl rfl (fun _ => rfl) ?_ ?_ ?_ fun other => ?_
  · intro other interface found known
    simp only [interfaceNew, ne_eq, known.ne, not_false_eq_true, Function.update_of_ne] at found
    rw [State.nameOf, found, Option.map_some]
  · intro other interface found
    by_cases isNew : other = state.nextInterface
    · simp only [interfaceNew, isNew, Function.update_self, Option.some.injEq] at found
      rw [← found]
      exact Int.one_pos
    · simp only [interfaceNew, ne_eq, isNew, not_false_eq_true, Function.update_of_ne] at found
      exact balanced.positive other interface found
  · intro other outside
    have outside : state.nextInterface < other := outside
    have different : other ≠ state.nextInterface := outside.ne'
    simpa [interfaceNew, different] using balanced.freshInterface other outside.le
  · by_cases isNew : other = state.nextInterface
    · have freed : state.counts state.nextInterface = 0 := by
        rw [State.counts, fresh]
        rfl
      simp only [isNew, interfaceNew, Function.update_self, freed]
      rw [State.counts]
      simp only [Function.update_self, Option.map_some, Option.getD_some]
      omega
    · simp [interfaceNew, State.counts, isNew]

/-! ## Attaching and detaching -/

theorem nameAttached_cases (name : String) {added : List InterfaceId}
    (alive : ∀ iface ∈ added, ∃ interface, state.interfaces iface = some interface) :
    nameAttached state name added = some true ∧ some name ∈ added.map state.nameOf ∨
      nameAttached state name added = some false ∧ some name ∉ added.map state.nameOf := by
  induction added with
  | nil => exact .inr ⟨rfl, nofun⟩
  | cons iface rest ih =>
      obtain ⟨interface, found⟩ := alive iface (List.mem_cons_self ..)
      have named : state.nameOf iface = some interface.name := by
        rw [State.nameOf, found, Option.map_some]
      by_cases same : name = interface.name
      · refine .inl ⟨?_, ?_⟩
        · rw [nameAttached, found]
          exact if_pos same
        · rw [List.map_cons, named, same]
          exact List.mem_cons_self ..
      · have turn : nameAttached state name (iface :: rest) = nameAttached state name rest := by
          rw [nameAttached, found]
          exact if_neg same
        have notFirst : some name ∈ (iface :: rest).map state.nameOf ↔ some name ∈ rest.map state.nameOf := by
          rw [List.map_cons, named, List.mem_cons, Option.some.injEq, or_iff_right same]
        rw [turn, notFirst]
        exact ih fun other listed => alive other (List.mem_cons_of_mem iface listed)

/-- Attaching is refused by name, and else appends the interface. -/
theorem interfaceAttach_some (balanced : Balanced state) {obj : ObjectId} {object : Object Fn} {added : InterfaceId}
    {interface : Interface (Func Fn)} (found : state.objects obj = some object)
    (isAlive : state.interfaces added = some interface) :
    some interface.name ∈ object.interfaces.map state.nameOf ∧ interfaceAttach state obj (some added) = state ∨
      some interface.name ∉ object.interfaces.map state.nameOf ∧
        interfaceAttach state obj (some added) =
          (state.setInterface added (some { interface with refcount := interface.refcount + 1 })).setObject obj
            (some { object with interfaces := object.interfaces ++ [added], introspectionDirty := true }) := by
  rcases nameAttached_cases interface.name (fun _ listed => balanced.alive_of_listed found listed) with
    ⟨attached, present⟩ | ⟨attached, fresh⟩
  · exact .inl ⟨present, by simp [interfaceAttach, found, isAlive, attached]⟩
  · exact .inr ⟨fresh, by simp [interfaceAttach, found, isAlive, attached, interfaceRef_eq isAlive]⟩

/-- What attaching does: nothing, or it appends an interface with a name that the object does not have. -/
theorem interfaceAttach_cases (balanced : Balanced state) {obj : ObjectId} {object : Object Fn}
    {iface : Option InterfaceId} (found : state.objects obj = some object) (alive : iface.all state.alive = true) :
    interfaceAttach state obj iface = state ∨
      ∃ added interface, iface = some added ∧ state.interfaces added = some interface ∧
        some interface.name ∉ object.interfaces.map state.nameOf ∧
        interfaceAttach state obj iface =
          (state.setInterface added (some { interface with refcount := interface.refcount + 1 })).setObject obj
            (some { object with interfaces := object.interfaces ++ [added], introspectionDirty := true }) := by
  cases iface with
  | none => exact .inl (by simp [interfaceAttach, found])
  | some added =>
      obtain ⟨interface, isAlive⟩ := Option.isSome_iff_exists.mp alive
      rcases interfaceAttach_some balanced found isAlive with ⟨-, unchanged⟩ | ⟨fresh, attached⟩
      · exact .inl unchanged
      · exact .inr ⟨added, interface, rfl, isAlive, fresh, attached⟩

theorem setObject_lists (state : State Fn) (obj : ObjectId) (object : Object Fn) (iface : InterfaceId) :
    (state.setObject obj (some object)).lists iface obj = decide (iface ∈ object.interfaces) := by
  simp [State.lists, State.setObject]

theorem lists_of_found {obj : ObjectId} {object : Object Fn} (found : state.objects obj = some object)
    (iface : InterfaceId) : state.lists iface obj = decide (iface ∈ object.interfaces) := by
  rw [State.lists, found]
  rfl

/-- An object is given another list, and the one interface that this is about a count to match. -/
theorem Balanced.relist (balanced : Balanced state) {obj : ObjectId} {object changed : Object Fn} {iface : InterfaceId}
    {interface : Interface (Func Fn)} {count : Int} {value : Option (Interface (Func Fn))}
    (found : state.objects obj = some object) (isAlive : state.interfaces iface = some interface)
    (recounted : Recounted interface count value) (listable : Listable state obj changed.interfaces)
    (elsewhere : ∀ other, other ≠ iface → (other ∈ changed.interfaces ↔ other ∈ object.interfaces))
    (agrees : count + (decide (iface ∈ object.interfaces)).toNat =
      interface.refcount + (decide (iface ∈ changed.interfaces)).toNat) :
    Balanced ((state.setInterface iface value).setObject obj (some changed)) := by
  refine balanced.rebuild rfl rfl ?_ (fun other left isLeft _ => recounted.name isAlive other left isLeft)
    (recounted.positive balanced.positive) (balanced.setInterface_fresh isAlive value) fun other => ?_
  · intro other left isLeft
    by_cases here : other = obj
    · subst here
      simp only [State.setObject, Function.update_self, Option.some.injEq] at isLeft
      exact isLeft ▸ listable
    · simp only [State.setObject, ne_eq, here, not_false_eq_true, Function.update_of_ne] at isLeft
      exact balanced.listable isLeft
  · have before := balanced.counted other
    have holders := holders_update ((state.setInterface iface value).setObject obj (some changed))
      (balanced.object_inside found) rfl (fun obj' different => Function.update_of_ne different _ _) other
    have counts : ((state.setInterface iface value).setObject obj (some changed)).counts other =
        if other = iface then count else state.counts other := by
      rw [← recounted.refcount]
      exact setInterface_counts state iface value other
    have references : ((state.setInterface iface value).setObject obj (some changed)).references =
        state.references := rfl
    rw [lists_of_found found, setObject_lists] at holders
    rw [counts, references]
    by_cases here : other = iface
    · subst here
      have refcount := counts_of_found isAlive
      rw [if_pos rfl]
      omega
    · simp only [elsewhere other here] at holders
      rw [if_neg here]
      omega

theorem interfaceAttach_balanced (balanced : Balanced state) {obj : ObjectId} {object : Object Fn}
    {iface : Option InterfaceId} (found : state.objects obj = some object) (alive : iface.all state.alive = true) :
    Balanced (interfaceAttach state obj iface) := by
  rcases interfaceAttach_cases balanced found alive with unchanged | ⟨added, interface, -, isAlive, fresh, attached⟩
  · rw [unchanged]
    exact balanced
  · have named : state.nameOf added = some interface.name := by
      rw [State.nameOf, isAlive, Option.map_some]
    have notListed : added ∉ object.interfaces := fun listed =>
      fresh (named ▸ List.mem_map_of_mem listed)
    have positive := balanced.positive added interface isAlive
    have recounted : Recounted interface (interface.refcount + 1)
        (some { interface with refcount := interface.refcount + 1 }) := by
      refine ⟨rfl, ?_⟩
      rintro _ ⟨⟩
      exact ⟨rfl, by simp only; omega⟩
    rw [attached]
    apply balanced.relist found isAlive recounted
    · refine ⟨balanced.object_inside found, ?_, fun other listed => ?_⟩
      · rw [List.map_append, List.map_singleton, named]
        exact (balanced.named obj object found).append (List.nodup_singleton _) (by simpa using fresh)
      · rcases List.mem_append.mp listed with early | isLast
        · exact balanced.alive_of_listed found early
        · exact ⟨interface, List.mem_singleton.mp isLast ▸ isAlive⟩
    · intro other different
      simp [different]
    · simp [notListed]

/-- What detaching does: nothing, or the reference goes with the entry in the list. -/
theorem interfaceDetach_cases (balanced : Balanced state) {obj : ObjectId} {object : Object Fn}
    (found : state.objects obj = some object) (iface : InterfaceId) :
    interfaceDetach state obj iface = state ∨
      ∃ interface value, iface ∈ object.interfaces ∧ state.interfaces iface = some interface ∧
        Recounted interface (interface.refcount - 1) value ∧
        interfaceDetach state obj iface =
          (state.setObject obj
            (some { object with interfaces := object.interfaces.erase iface, introspectionDirty := true })).setInterface
            iface value := by
  by_cases listed : iface ∈ object.interfaces
  · obtain ⟨interface, isAlive⟩ := balanced.alive_of_listed found listed
    have stillAlive : (state.setObject obj
        (some { object with interfaces := object.interfaces.erase iface, introspectionDirty := true })).interfaces
        iface = some interface := isAlive
    obtain ⟨value, unreferred, recounted⟩ := interfaceUnref_recounted stillAlive
      (balanced.positive iface interface isAlive)
    refine .inr ⟨interface, value, listed, isAlive, recounted, ?_⟩
    simp only [interfaceDetach, found, if_pos listed, unreferred]
  · exact .inl (by simp only [interfaceDetach, found, if_neg listed])

theorem interfaceDetach_balanced (balanced : Balanced state) {obj : ObjectId} {object : Object Fn}
    (found : state.objects obj = some object) (iface : InterfaceId) : Balanced (interfaceDetach state obj iface) := by
  rcases interfaceDetach_cases balanced found iface with
    unchanged | ⟨interface, value, listed, isAlive, recounted, detached⟩
  · rw [unchanged]
    exact balanced
  · have nodup : object.interfaces.Nodup := (balanced.named obj object found).of_map state.nameOf
    have remaining : Listable state obj (object.interfaces.erase iface) := by
      refine ⟨balanced.object_inside found, ?_, fun other left => ?_⟩
      · exact (balanced.named obj object found).sublist (List.erase_sublist.map state.nameOf)
      · exact balanced.alive_of_listed found (List.mem_of_mem_erase left)
    rw [detached]
    apply balanced.relist found isAlive recounted remaining
    · intro other different
      simp only [nodup.mem_erase_iff, ne_eq, different, not_false_eq_true, true_and]
    · simp only [nodup.mem_erase_iff, listed, ne_eq, not_true_eq_false, false_and, decide_true, decide_false,
        Bool.toNat_true, Bool.toNat_false]
      omega

/-! ## Objects come and go -/

theorem addObject_balanced (balanced : Balanced state) {object : Object Fn} (bare : object.interfaces = []) :
    Balanced (state.addObject object) := by
  have unlisted : ∀ iface, (state.addObject object).holders iface = state.holders iface := by
    intro iface
    have last : (state.addObject object).lists iface state.nextObject = false := by
      simp [State.lists, State.addObject, bare]
    have earlier : ∀ obj ∈ List.range state.nextObject,
        (state.addObject object).lists iface obj = state.lists iface obj := by
      intro obj isBelow
      have different : obj ≠ state.nextObject := (List.mem_range.mp isBelow).ne
      simp [State.lists, State.addObject, different]
    rw [State.holders, State.holders, show (state.addObject object).nextObject = state.nextObject + 1 from rfl,
      List.range_succ, List.countP_append, List.countP_singleton, last,
      List.countP_congr fun obj isBelow => by rw [earlier obj isBelow]]
    simp
  constructor
  case untouched => exact balanced.untouched
  case positive => exact balanced.positive
  case counted =>
    intro iface
    rw [unlisted]
    exact balanced.counted iface
  case named =>
    intro obj left isLeft
    by_cases isNew : obj = state.nextObject
    · simp only [State.addObject, isNew, Function.update_self, Option.some.injEq] at isLeft
      simp [← isLeft, bare]
    · simp only [State.addObject, ne_eq, isNew, not_false_eq_true, Function.update_of_ne] at isLeft
      exact balanced.named obj left isLeft
  case freshInterface => exact balanced.freshInterface
  case freshObject =>
    intro obj outside
    have outside : state.nextObject < obj := outside
    simpa [State.addObject, outside.ne'] using balanced.freshObject obj outside.le

/-- Dropping the references of a list of interfaces, each of which is there. -/
structure Dropped (listed : List InterfaceId) (before after : State Fn) : Prop where
  objects : after.objects = before.objects
  nextObject : after.nextObject = before.nextObject
  nextInterface : after.nextInterface = before.nextInterface
  references : after.references = before.references
  touchedFreed : after.touchedFreed = before.touchedFreed
  counts : after.counts = before.counts.releaseAll listed
  positive : ∀ iface interface, after.interfaces iface = some interface → 0 < interface.refcount
  names : ∀ iface interface, after.interfaces iface = some interface → before.nameOf iface = some interface.name

theorem foldl_interfaceUnref_dropped {listed : List InterfaceId}
    (positive : ∀ iface interface, state.interfaces iface = some interface → 0 < interface.refcount)
    (alive : ∀ iface ∈ listed, ∃ interface, state.interfaces iface = some interface) (nodup : listed.Nodup) :
    Dropped listed state (listed.foldl interfaceUnref state) := by
  induction listed generalizing state with
  | nil =>
      refine ⟨rfl, rfl, rfl, rfl, rfl, rfl, positive, fun iface interface found => ?_⟩
      have found : state.interfaces iface = some interface := found
      rw [State.nameOf, found, Option.map_some]
  | cons iface rest ih =>
      obtain ⟨fresh, nodupRest⟩ := List.nodup_cons.mp nodup
      obtain ⟨interface, found⟩ := alive iface (List.mem_cons_self ..)
      obtain ⟨value, unreferred, recounted⟩ := interfaceUnref_recounted found (positive iface interface found)
      rw [List.foldl_cons, unreferred]
      have restAlive : ∀ other ∈ rest, ∃ interface,
          (state.setInterface iface value).interfaces other = some interface := by
        intro other isIn
        have different : other ≠ iface := fun same => fresh (same ▸ isIn)
        simpa [State.setInterface, different] using alive other (List.mem_cons_of_mem iface isIn)
      have dropped := ih (recounted.positive positive) restAlive nodupRest
      obtain ⟨objects, nextObject, nextInterface, references, touchedFreed, counts, stillPositive, names⟩ := dropped
      refine ⟨objects, nextObject, nextInterface, references, touchedFreed, ?_, stillPositive, ?_⟩
      · rw [counts]
        have first : (state.setInterface iface value).counts = state.counts.release iface := by
          funext other
          rw [setInterface_counts, recounted.refcount, Holdings.release_apply]
          by_cases here : other = iface
          · rw [if_pos here, if_pos here.symm, here, counts_of_found found]
          · rw [if_neg here, if_neg (Ne.symm here), Int.sub_zero]
        rw [first]
        rfl
      · intro other left isLeft
        obtain ⟨remaining, isRemaining, sameName⟩ := Option.map_eq_some_iff.mp (names other left isLeft)
        rw [recounted.name found other remaining isRemaining, sameName]

theorem objectFree_balanced (balanced : Balanced state) {obj : ObjectId} {object : Object Fn}
    (found : state.objects obj = some object) : Balanced (objectFree state obj) := by
  have nodup : object.interfaces.Nodup := (balanced.named obj object found).of_map state.nameOf
  have dropped := foldl_interfaceUnref_dropped balanced.positive
    (fun _ listed => balanced.alive_of_listed found listed) nodup
  have freed : objectFree state obj = (object.interfaces.foldl interfaceUnref state).setObject obj none := by
    simp only [objectFree, found]
  rw [freed]
  generalize object.interfaces.foldl interfaceUnref state = unreferred at dropped
  obtain ⟨objects, nextObject, nextInterface, references, touchedFreed, counts, positive, names⟩ := dropped
  refine balanced.rebuild touchedFreed nextObject ?_ (fun iface interface isAlive _ => names iface interface isAlive)
    positive ?_ fun iface => ?_
  · intro other left isLeft
    by_cases here : other = obj
    · simp [State.setObject, here] at isLeft
    · simp only [State.setObject, ne_eq, here, not_false_eq_true, Function.update_of_ne, objects] at isLeft
      exact balanced.listable isLeft
  · intro iface outside
    by_contra isAlive
    obtain ⟨interface, isAlive⟩ := Option.ne_none_iff_exists'.mp isAlive
    have named := names iface interface isAlive
    have outside : state.nextInterface ≤ iface := nextInterface ▸ outside
    rw [State.nameOf, balanced.freshInterface iface outside] at named
    cases named
  · have before := balanced.counted iface
    have holders := holders_update (unreferred.setObject obj none) (balanced.object_inside found) nextObject
      (fun other different => by simp [State.setObject, different, objects]) iface
    have listsAfter : (unreferred.setObject obj none).lists iface obj = false := by
      simp [State.lists, State.setObject]
    have countsAfter : (unreferred.setObject obj none).counts iface =
        state.counts iface - object.interfaces.count iface := by
      rw [show (unreferred.setObject obj none).counts = unreferred.counts from rfl, counts, Holdings.releaseAll_apply]
    rw [lists_of_found found, listsAfter] at holders
    rw [countsAfter, show (unreferred.setObject obj none).references = state.references from references]
    by_cases listed : iface ∈ object.interfaces
    · rw [List.count_eq_one_of_mem nodup listed]
      simp only [listed, decide_true, Bool.toNat_true, Bool.toNat_false] at holders
      omega
    · rw [List.count_eq_zero_of_not_mem listed]
      simp only [listed, decide_false, Bool.toNat_false] at holders
      omega

/-- A change of an object that is none of its list. -/
theorem setObject_balanced (balanced : Balanced state) {obj : ObjectId} {object changed : Object Fn}
    (found : state.objects obj = some object) (same : changed.interfaces = object.interfaces) :
    Balanced (state.setObject obj (some changed)) := by
  refine balanced.congr rfl rfl (fun other => ?_) (fun iface interface isAlive _ => ?_) balanced.positive
    balanced.freshInterface fun _ => rfl
  · by_cases here : other = obj
    · subst here
      simp [State.setObject, found, same]
    · simp [State.setObject, here]
  · have isAlive : state.interfaces iface = some interface := isAlive
    rw [State.nameOf, isAlive, Option.map_some]

/-! ## The library's own references -/

/-- The library's pointers stay. Interfaces keep their names, and their methods come after those they had. -/
structure Continues (before after : State Fn) : Prop where
  introspectable : after.introspectable = before.introspectable
  properties : after.properties = before.properties
  nextInterface : after.nextInterface = before.nextInterface
  interfaces : ∀ iface interface, after.interfaces iface = some interface →
    ∃ earlier, before.interfaces iface = some earlier ∧ interface.name = earlier.name ∧
      earlier.methods <+: interface.methods

/-- The references that were given out stay, too. -/
structure SameLibrary (before after : State Fn) : Prop extends Continues before after where
  references : after.references = before.references

theorem SameLibrary.of_interfaces {before after : State Fn}
    (introspectable : after.introspectable = before.introspectable)
    (properties : after.properties = before.properties) (nextInterface : after.nextInterface = before.nextInterface)
    (interfaces : after.interfaces = before.interfaces) (references : after.references = before.references) :
    SameLibrary before after where
  introspectable := introspectable
  properties := properties
  nextInterface := nextInterface
  interfaces _ interface found := ⟨interface, interfaces ▸ found, rfl, List.prefix_refl _⟩
  references := references

theorem SameLibrary.refl (state : State Fn) : SameLibrary state state := .of_interfaces rfl rfl rfl rfl rfl

theorem SameLibrary.trans {before between after : State Fn} (first : SameLibrary before between)
    (second : SameLibrary between after) : SameLibrary before after where
  introspectable := second.introspectable.trans first.introspectable
  properties := second.properties.trans first.properties
  nextInterface := second.nextInterface.trans first.nextInterface
  references := second.references.trans first.references
  interfaces iface interface found := by
    obtain ⟨middle, foundMiddle, sameName, grows⟩ := second.interfaces iface interface found
    obtain ⟨earlier, foundEarlier, sameEarlier, growsEarlier⟩ := first.interfaces iface middle foundMiddle
    exact ⟨earlier, foundEarlier, sameName.trans sameEarlier, growsEarlier.trans grows⟩

theorem touch_library (state : State Fn) : SameLibrary state state.touch := .of_interfaces rfl rfl rfl rfl rfl

theorem setObject_library (state : State Fn) (obj : ObjectId) (object : Option (Object Fn)) :
    SameLibrary state (state.setObject obj object) := .of_interfaces rfl rfl rfl rfl rfl

theorem setInterface_library {iface : InterfaceId} {interface : Interface (Func Fn)}
    {value : Option (Interface (Func Fn))} (found : state.interfaces iface = some interface)
    (continues : ∀ changed, value = some changed →
      changed.name = interface.name ∧ interface.methods <+: changed.methods) :
    SameLibrary state (state.setInterface iface value) where
  introspectable := rfl
  properties := rfl
  nextInterface := rfl
  references := rfl
  interfaces other changed isChanged := by
    by_cases here : other = iface
    · simp only [State.setInterface, here, Function.update_self] at isChanged
      exact ⟨interface, here ▸ found, continues changed isChanged⟩
    · simp only [State.setInterface, ne_eq, here, not_false_eq_true, Function.update_of_ne] at isChanged
      exact ⟨changed, isChanged, rfl, List.prefix_refl _⟩

theorem Edit.library {after : State Fn} (edit : Edit state after) : SameLibrary state after := by
  cases edit with
  | touch => exact touch_library state
  | recount found refcount =>
      apply setInterface_library found
      rintro _ ⟨⟩
      exact ⟨rfl, List.prefix_refl _⟩
  | free iface =>
      refine ⟨⟨rfl, rfl, rfl, fun other interface isAlive => ?_⟩, rfl⟩
      by_cases here : other = iface
      · simp [State.setInterface, here] at isAlive
      · simp only [State.setInterface, ne_eq, here, not_false_eq_true, Function.update_of_ne] at isAlive
        exact ⟨interface, isAlive, rfl, List.prefix_refl _⟩
  | relist _ _ => exact setObject_library state _ _
  | forget obj => exact setObject_library state obj none

theorem Edited.library {after : State Fn} (edited : Edited state after) : SameLibrary state after := by
  induction edited with
  | refl => exact .refl state
  | tail _ edit ih => exact ih.trans edit.library

theorem interfaceMethodAdd_library (state : State Fn) (iface : InterfaceId)
    (member signature replySignature : Option String) (func : Option (Func Fn)) :
    SameLibrary state (interfaceMethodAdd state iface member signature replySignature func) := by
  unfold interfaceMethodAdd
  split
  · exact .refl state
  · split
    · exact touch_library state
    · next found =>
        apply setInterface_library found
        rintro _ ⟨⟩
        exact ⟨rfl, List.prefix_append _ _⟩

theorem interfaceSignalAdd_library (state : State Fn) (iface : InterfaceId) (name signature : Option String) :
    SameLibrary state (interfaceSignalAdd state iface name signature) := by
  unfold interfaceSignalAdd
  split
  · exact .refl state
  · split
    · exact touch_library state
    · next found =>
        apply setInterface_library found
        rintro _ ⟨⟩
        exact ⟨rfl, List.prefix_refl _⟩

theorem objectAdd_library (state : State Fn) (path : String) (registered : Bool) :
    SameLibrary state (objectAdd state path registered) := by
  rcases objectAdd_edited state path registered with unchanged | edited
  · rw [unchanged]
    exact .refl state
  · have added : SameLibrary state (state.addObject ⟨path, [], none, false, none, none⟩) :=
      .of_interfaces rfl rfl rfl rfl rfl
    exact added.trans edited.library

theorem giveBack_introspectable (state : State Fn) (iface : InterfaceId) :
    (giveBack state iface).introspectable = state.introspectable :=
  (interfaceUnref_edited state iface).library.introspectable

theorem giveBack_properties (state : State Fn) (iface : InterfaceId) :
    (giveBack state iface).properties = state.properties :=
  (interfaceUnref_edited state iface).library.properties

theorem giveBack_references (state : State Fn) (iface other : InterfaceId) :
    (giveBack state iface).references other = state.references other - if other = iface then 1 else 0 := by
  simp only [giveBack, (interfaceUnref_edited state iface).library.references]
  by_cases here : other = iface
  · rw [here, Function.update_self, if_pos rfl]
  · rw [Function.update_of_ne here, if_neg here, Nat.sub_zero]

/-- What holds in every state that is reached. -/
structure Sound (state : State Fn) : Prop where
  balanced : Balanced state
  library : ∀ iface, state.libraryReferences iface ≤ state.references iface

theorem initial_sound : Sound (State.initial : State Fn) where
  balanced := initial_balanced
  library _ := Nat.le_refl _

namespace Sound

theorem keep (sound : Sound state) {after : State Fn} (balanced : Balanced after) (same : SameLibrary state after) :
    Sound after where
  balanced := balanced
  library iface := by
    rw [State.libraryReferences, same.introspectable, same.properties, same.references]
    exact sound.library iface

/-- The interfaces of the library are not freed. -/
theorem library_alive (sound : Sound state) {pointer : Option InterfaceId}
    (isLibrary : pointer = state.introspectable ∨ pointer = state.properties) : pointer.all state.alive = true := by
  cases pointer with
  | none => rfl
  | some iface =>
      have referred : 0 < state.libraryReferences iface := by
        rcases isLibrary with isIntrospectable | isProperties
        · rw [State.libraryReferences, ← isIntrospectable, decide_eq_true rfl, Bool.toNat_true]
          omega
        · rw [State.libraryReferences, ← isProperties, decide_eq_true rfl, Bool.toNat_true]
          omega
      have given := sound.library iface
      obtain ⟨interface, found⟩ := (sound.balanced.alive_iff iface).mpr (by omega)
      simp [State.alive, found]

theorem interfaceNew (sound : Sound state) (name : String) : Sound (interfaceNew state name).1 := by
  refine ⟨interfaceNew_balanced sound.balanced name, fun iface => ?_⟩
  have before := sound.library iface
  by_cases isNew : iface = state.nextInterface
  · have counted := sound.balanced.counted state.nextInterface
    have freed : state.counts state.nextInterface = 0 := by
      rw [State.counts, sound.balanced.freshInterface state.nextInterface (Nat.le_refl _)]
      rfl
    have unused : state.libraryReferences iface = 0 := by
      rw [isNew] at before ⊢
      omega
    rw [show (Exported.interfaceNew state name).1.libraryReferences iface = state.libraryReferences iface from rfl,
      unused]
    exact Nat.zero_le _
  · have same : (Exported.interfaceNew state name).1.references iface = state.references iface :=
      Function.update_of_ne isNew _ _
    rw [same]
    exact before

theorem take (sound : Sound state) {iface : InterfaceId} (alive : state.alive iface = true) :
    Sound (take state iface) := by
  refine ⟨take_balanced sound.balanced alive, fun other => ?_⟩
  have same := (interfaceRef_edited state iface).library
  have before := sound.library other
  rw [State.libraryReferences] at before ⊢
  simp only [Exported.take, same.introspectable, same.properties, same.references]
  by_cases here : other = iface
  · rw [here, Function.update_self]
    rw [here] at before
    omega
  · rwa [Function.update_of_ne here]

/-- A reference is given back that is not the library's, or that the library forgets. -/
theorem giveBack (sound : Sound state) {iface : InterfaceId} (given : 0 < state.references iface)
    {after : State Fn} (library : ∀ other, after.libraryReferences other ≤
      state.references other - if other = iface then 1 else 0)
    (same : after = { Exported.giveBack state iface with
      introspectable := after.introspectable
      properties := after.properties }) : Sound after := by
  have balanced := giveBack_balanced sound.balanced given
  constructor
  case balanced =>
    rw [same]
    exact ⟨balanced.untouched, balanced.positive, balanced.counted, balanced.named, balanced.freshInterface,
      balanced.freshObject⟩
  case library =>
    intro other
    have references : after.references other = state.references other - if other = iface then 1 else 0 := by
      rw [same]
      exact giveBack_references state iface other
    rw [references]
    exact library other

theorem interfaceMethodAdd (sound : Sound state) {iface : InterfaceId} (alive : state.alive iface = true)
    (member signature replySignature : Option String) (func : Option (Func Fn)) :
    Sound (interfaceMethodAdd state iface member signature replySignature func) :=
  sound.keep (interfaceMethodAdd_balanced sound.balanced alive member signature replySignature func)
    (interfaceMethodAdd_library state iface member signature replySignature func)

theorem interfaceAttach (sound : Sound state) {obj : ObjectId} {object : Object Fn} {iface : Option InterfaceId}
    (found : state.objects obj = some object) (alive : iface.all state.alive = true) :
    Sound (interfaceAttach state obj iface) :=
  sound.keep (interfaceAttach_balanced sound.balanced found alive) (interfaceAttach_edited state obj iface).library

theorem setObject (sound : Sound state) {obj : ObjectId} {object changed : Object Fn}
    (found : state.objects obj = some object) (same : changed.interfaces = object.interfaces) :
    Sound (state.setObject obj (some changed)) :=
  sound.keep (setObject_balanced sound.balanced found same) (setObject_library state obj _)

theorem mapObject (sound : Sound state) (obj : ObjectId) {change : Object Fn → Object Fn}
    (same : ∀ object, (change object).interfaces = object.interfaces) : Sound (state.mapObject obj change) := by
  cases found : state.objects obj with
  | none =>
      have unchanged : state.mapObject obj change = state := by
        rw [State.mapObject, State.setObject, found, Option.map_none, ← found, Function.update_eq_self]
      rw [unchanged]
      exact sound
  | some object =>
      rw [State.mapObject, found, Option.map_some]
      exact sound.setObject found (same object)

theorem attachProperties (sound : Sound state) {obj : ObjectId} {object : Object Fn}
    (found : state.objects obj = some object) : Sound (attachProperties state obj object) := by
  unfold Exported.attachProperties
  split
  · exact sound.interfaceAttach found (sound.library_alive (.inr rfl))
  · exact sound

theorem objectAdd (sound : Sound state) (path : String) (registered : Bool) :
    Sound (objectAdd state path registered) := by
  unfold Exported.objectAdd
  split
  · have added : Sound (state.addObject ⟨path, [], none, false, none, none⟩) :=
      sound.keep (addObject_balanced sound.balanced rfl) (.of_interfaces rfl rfl rfl rfl rfl)
    exact added.interfaceAttach (Function.update_self ..) (added.library_alive (.inl rfl))
  · exact sound

theorem objectInit (sound : Sound state) : Sound (objectInit state) := by
  have first := sound.interfaceNew introspectableName
  have second := first.interfaceNew propertiesName
  generalize isCreated : (Exported.interfaceNew (Exported.interfaceNew state introspectableName).1 propertiesName).1 =
    created at second
  have references : ∀ iface, created.references iface =
      if iface = state.nextInterface + 1 then 1
      else if iface = state.nextInterface then 1 else state.references iface := by
    intro iface
    rw [← isCreated]
    simp only [Exported.interfaceNew, Function.update_apply]
  have pointed : Sound { created with
      introspectable := some state.nextInterface
      properties := some (state.nextInterface + 1) } := by
    refine ⟨⟨second.balanced.untouched, second.balanced.positive, second.balanced.counted, second.balanced.named,
      second.balanced.freshInterface, second.balanced.freshObject⟩, fun iface => ?_⟩
    simp only [State.libraryReferences, Option.some.injEq, references]
    by_cases isProperties : iface = state.nextInterface + 1
    · subst isProperties
      simp
    · by_cases isIntrospectable : iface = state.nextInterface
      · subst isIntrospectable
        simp
      · simp [Ne.symm isProperties, Ne.symm isIntrospectable]
  have introspect := pointed.interfaceMethodAdd (pointed.library_alive (.inl rfl)) (some "Introspect") (some "")
    (some "s") (some .introspect)
  have samePointers := interfaceMethodAdd_library { created with
      introspectable := some state.nextInterface
      properties := some (state.nextInterface + 1) } state.nextInterface (some "Introspect") (some "") (some "s")
      (some .introspect)
  have get := introspect.interfaceMethodAdd (introspect.library_alive (.inr samePointers.properties.symm)) (some "Get")
    (some "ss") (some "v") (some .propertiesGet)
  have stillPointers := samePointers.trans (interfaceMethodAdd_library _ (state.nextInterface + 1) (some "Get")
    (some "ss") (some "v") (some .propertiesGet))
  have set := get.interfaceMethodAdd (get.library_alive (.inr stillPointers.properties.symm)) (some "Set")
    (some "ssv") (some "") (some .propertiesSet)
  rw [← isCreated] at set
  exact set

theorem objectShutdown (sound : Sound state) {introspectable properties : InterfaceId}
    (isIntrospectable : state.introspectable = some introspectable)
    (isProperties : state.properties = some properties) :
    Sound (objectShutdown state introspectable properties) := by
  have within : ∀ iface, (decide (introspectable = iface)).toNat + (decide (properties = iface)).toNat ≤
      state.references iface := by
    intro iface
    have library := sound.library iface
    simpa only [State.libraryReferences, isIntrospectable, isProperties, Option.some.injEq] using library
  have firstGiven : 0 < state.references introspectable := by
    have given := within introspectable
    simp only [decide_true, Bool.toNat_true] at given
    omega
  have first : Sound { Exported.giveBack state introspectable with introspectable := none } := by
    refine sound.giveBack firstGiven (fun other => ?_) rfl
    have given := within other
    simp only [State.libraryReferences, giveBack_properties, isProperties, Option.some.injEq]
    by_cases here : other = introspectable
    · subst here
      simp only [decide_true, Bool.toNat_true, reduceCtorEq, decide_false, Bool.toNat_false, if_true] at given ⊢
      omega
    · simp only [Ne.symm here, decide_false, Bool.toNat_false, reduceCtorEq, here, if_false] at given ⊢
      omega
  have secondGiven : 0 < (Exported.giveBack state introspectable).references properties := by
    have given := within properties
    rw [giveBack_references]
    by_cases here : properties = introspectable
    · simp only [here, decide_true, Bool.toNat_true, if_true] at given ⊢
      omega
    · simp only [Ne.symm here, decide_false, decide_true, Bool.toNat_true, here, if_false] at given ⊢
      omega
  refine first.giveBack secondGiven (fun other => ?_) rfl
  have none : (Exported.objectShutdown state introspectable properties).libraryReferences other = 0 := by
    simp [State.libraryReferences, Exported.objectShutdown, giveBack_introspectable]
  rw [none]
  exact Nat.zero_le _

end Sound

/-! ## Runs -/

theorem cbIntrospect_interfaces (state : State Fn) (object : Object Fn) :
    (cbIntrospect state object).1.interfaces = object.interfaces := by
  unfold cbIntrospect
  split <;> rfl

theorem step_sound (label : Label Fn) {next : State Fn} (sound : Sound state) (stepped : step state label = some next) :
    Sound next := by
  cases step_cases stepped with
  | objectInit _ _ => exact sound.objectInit
  | objectShutdown isIntrospectable isProperties => exact sound.objectShutdown isIntrospectable isProperties
  | interfaceUnnamed => exact sound
  | interfaceNew name => exact sound.interfaceNew name
  | interfaceRef alive => exact sound.take alive
  | @interfaceUnref iface own =>
      refine sound.giveBack (by omega) (fun other => ?_) rfl
      have library := sound.library other
      rw [State.libraryReferences] at library
      rw [State.libraryReferences, giveBack_introspectable, giveBack_properties]
      by_cases here : other = iface
      · subst here
        rw [State.libraryReferences] at own
        rw [if_pos rfl]
        omega
      · rw [if_neg here]
        omega
  | interfaceMethodAdd alive member signature replySignature func =>
      exact sound.interfaceMethodAdd alive member signature replySignature _
  | interfaceSignalAdd alive name signature =>
      exact sound.keep (interfaceSignalAdd_balanced sound.balanced alive name signature)
        (interfaceSignalAdd_library state _ name signature)
  | interfaceAttach found alive => exact sound.interfaceAttach found alive
  | interfaceDetach found _ =>
      exact sound.keep (interfaceDetach_balanced sound.balanced found _) (interfaceDetach_edited state _ _).library
  | objectAdd path registered => exact sound.objectAdd path registered
  | objectFree found => exact sound.keep (objectFree_balanced sound.balanced found) (objectFree_edited state _).library
  | propertyGetCbSet found func => exact (sound.attachProperties found).mapObject _ fun _ => rfl
  | propertySetCbSet found func => exact (sound.attachProperties found).mapObject _ fun _ => rfl
  | introspected found _ => exact sound.setObject found (cbIntrospect_interfaces state _)
  | served _ _ => exact sound

theorem exec_sound {labels : List (Label Fn)} (executed : machine.exec State.initial labels = some state) :
    Sound state := by
  have preserved : ∀ (before : State Fn) label next, Sound before →
      machine.step before label = some next → Sound next :=
    fun _ label _ sound stepped => step_sound label sound stepped
  exact Semantics.Machine.Reachable.invariant preserved initial_sound ⟨labels, executed⟩

/-- The references of interfaces and the objects that list them. -/
structure Counted (state : State Fn) : Prop where
  untouched : state.touchedFreed = false
  distinct : ∀ obj object, state.objects obj = some object → ((state.attached object).map Interface.name).Nodup
  listed : ∀ obj object iface, state.objects obj = some object → iface ∈ object.interfaces →
    ∃ interface, state.interfaces iface = some interface
  counted : ∀ iface interface, state.interfaces iface = some interface →
    interface.refcount = state.references iface + state.holders iface
  freed : ∀ iface, state.interfaces iface = none ↔ state.references iface + state.holders iface = 0

theorem attached_names (state : State Fn) (object : Object Fn) :
    (state.attached object).map Interface.name = (object.interfaces.map state.nameOf).reduceOption := by
  rw [State.attached, List.map_filterMap, List.reduceOption, List.filterMap_map]
  rfl

theorem attached_distinct (balanced : Balanced state) {obj : ObjectId} {object : Object Fn}
    (found : state.objects obj = some object) : ((state.attached object).map Interface.name).Nodup := by
  rw [attached_names]
  apply (balanced.named obj object found).filterMap
  rintro first second name isFirst isSecond
  exact isFirst.trans isSecond.symm

/-- After any run the names of the interfaces of an object are distinct, every interface has as
many references as were given out or are in the lists of objects, and those with none are freed. -/
theorem interfaces_counted {labels : List (Label Fn)} {finish : State Fn}
    (executed : machine.exec State.initial labels = some finish) : Counted finish := by
  have balanced := (exec_sound executed).balanced
  constructor
  case untouched => exact balanced.untouched
  case distinct => exact fun obj object found => attached_distinct balanced found
  case listed => exact fun obj object iface found => balanced.alive_of_listed found
  case counted =>
    intro iface interface found
    rw [← counts_of_found found]
    exact balanced.counted iface
  case freed =>
    intro iface
    have alive := balanced.alive_iff iface
    rw [← Option.ne_none_iff_exists'] at alive
    rw [← not_iff_not, ← ne_eq, alive]
    omega

/-- The last object that lists an interface without references gives it up. -/
def detachedRun : List (Label Unit) :=
  [.objectInit, .objectAdd "/org/example" true, .interfaceNew (some "org.example.Clock"), .interfaceAttach 0 (some 2),
    .interfaceUnref 2, .interfaceAttach 0 (some 2), .interfaceDetach 0 2, .interfaceNew (some "org.example.Clock")]

theorem interfaces_counted_detached :
    ∃ finish, machine.exec State.initial detachedRun = some finish ∧ finish.interfaces 2 = none ∧ Counted finish := by
  have executed : machine.exec State.initial detachedRun = some _ := rfl
  exact ⟨_, executed, rfl, interfaces_counted executed⟩

end EDBus.Dbus.Exported
