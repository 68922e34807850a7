import EDBus.Elements.PropertyMessage
import EDBus.Semantics.Variable

/-!
# Getters of a type

The manager of connman has getters for single properties, and there is one for arrays of bytes. All of
them read through `e_connman_element_property_get_stringshared`, which writes whatever the server has
sent last. A getter respects a property if that has the getter's type or cannot be read.
-/

open EDBus.Semantics

namespace EDBus.Elements.Connman

/-! ## The getters -/

/-- What the pointers of a property, or of a getter, point to. -/
inductive Target where
  | text (value : String)
  | array (value : ElementArray)
  | element (e : ElementId)
deriving DecidableEq, Repr

/-- The bytes of an `unsigned short`. -/
def shortBytes (value : UInt16) : List UInt8 := [value.toUInt8, (value >>> 8).toUInt8]

/-- The bytes of an `unsigned int`. -/
def intBytes (value : UInt32) : List UInt8 :=
  [value.toUInt8, (value >>> 8).toUInt8, (value >>> 16).toUInt8, (value >>> 24).toUInt8]

/-- What is written for `p->value`, by `p->type`. -/
def unionCells : PropertyType → PropertyData → Variable Target
  | .boolean, .boolean value => .ofBytes [if value then 1 else 0]
  | .byte, .byte value => .ofBytes [value]
  | .uint16, .u16 value => .ofBytes (shortBytes value)
  | .uint32, .u32 value => .ofBytes (intBytes value)
  | .string, .str value => .ofPointer (some (.text value))
  | .objectPath, .path value => .ofPointer (some (.text value))
  | .array, .array value => .ofPointer (value.map .array)
  -- the value of a property is always of its type
  | _, _ => []

/-- `e_connman_element_property_get_stringshared` without the type. The callers pass no `NULL`. -/
def propertyGetStringshared (element : PropertyList) (name : String) (value : Variable Target) :
    Variable Target × Bool :=
  match propertyGet element name with
  | none => (value, false)
  | some (type, data) => (value.store (unionCells type data), true)

/-- A pointer that the library follows, as one to a text or to an `E_Connman_Array`. -/
inductive Access where
  | text (pointer : Loaded Target)
  | array (pointer : Loaded Target)
deriving DecidableEq, Repr

/-- The pointer points to what it is taken for. -/
def Access.Proper : Access → Prop
  | .text pointer => ∃ value, pointer = .object (.text value)
  | .array pointer => ∃ value, pointer = .object (.array value)

/-- What a getter returns, `none` for failure, the caller's variable after it, and the pointers followed. -/
structure Outcome (Result : Type) where
  result : Option Result
  written : Option (Variable Target)
  accesses : List Access

/-- A getter of the manager that hands its pointer on. -/
def managerPropertyGet (manager : Option PropertyList) (name : String) (value : Option (Variable Target)) :
    Outcome Unit :=
  match value, manager with
  | some cells, some element =>
    match propertyGetStringshared element name cells with
    | (written, found) => ⟨if found then some () else none, some written, []⟩
  | _, _ => ⟨none, value, []⟩

/-- `e_connman_manager_state_get`. -/
def managerStateGet (manager : Option PropertyList) (state : Option (Variable Target)) : Outcome Unit :=
  managerPropertyGet manager "State" state

/-- `e_connman_manager_offline_mode_get`. -/
def managerOfflineModeGet (manager : Option PropertyList) (offline : Option (Variable Target)) : Outcome Unit :=
  managerPropertyGet manager "OfflineMode" offline

/-- `e_connman_manager_technology_default_get`. -/
def managerTechnologyDefaultGet (manager : Option PropertyList) (type : Option (Variable Target)) : Outcome Unit :=
  managerPropertyGet manager "DefaultTechnology" type

/-- `e_connman_element_get`, given the table. What a lookup of anything but a text finds is not known. -/
def elementGetAt (elements : String → Option ElementId) : Loaded Target → Option Target × List Access
  | .null => (none, [])
  | .object (.text path) => ((elements path).map .element, [.text (.object (.text path))])
  | pointer => (none, [.text pointer])

/-- `e_connman_manager_profile_active_get`. `profile_path` is not initialised. -/
def managerProfileActiveGet (manager : Option PropertyList) (elements : String → Option ElementId)
    (profilePath : Variable Target) (profile : Option (Variable Target)) : Outcome Unit :=
  match profile, manager with
  | some cells, some element =>
    match propertyGetStringshared element "ActiveProfile" profilePath with
    | (_, false) => ⟨none, profile, []⟩
    | (path, true) =>
      ⟨some (), some (cells.store (.ofPointer (elementGetAt elements path.load).1)),
        (elementGetAt elements path.load).2⟩
  | _, _ => ⟨none, profile, []⟩

/-- `(unsigned char)(long)item`. Of an address it is the lowest byte, here `none`. -/
def itemOctet : Item → Option UInt8
  | .byte value => some value
  | _ => none

/-- The second half of `e_connman_element_bytes_array_get_stringshared`, which copies the array that
the pointer is taken for. -/
def bytesArrayCopy (count : Variable Target) (allocated : Bool) (pointer : Loaded Target) :
    Outcome (List (Option UInt8)) :=
  match pointer with
  | .null => ⟨none, some count, []⟩
  | .object (.array array) =>
    ⟨if allocated then some (array.items.map itemOctet) else none,
      some (count.store (.ofBytes (intBytes (.ofNat array.items.length)))),
      [.array (.object (.array array))]⟩
  -- nothing is known about what follows
  | pointer => ⟨none, some count, [.array pointer]⟩

/-- `e_connman_element_bytes_array_get_stringshared`. `array` is not initialised, and `allocated` is
whether there is memory for the result. -/
def bytesArrayGetStringshared (element : Option PropertyList) (property : Option String)
    (count : Option (Variable Target)) (array : Variable Target) (allocated : Bool) :
    Outcome (List (Option UInt8)) :=
  match element, property, count with
  | some element, some property, some count =>
    let cleared := count.store (.ofBytes (intBytes 0))
    match propertyGetStringshared element property array with
    | (_, false) => ⟨none, some cleared, []⟩
    | (array, true) => bytesArrayCopy cleared allocated array.load
  | _, _, _ => ⟨none, count, []⟩

/-! ## Types -/

/-- The getters that do not look at the type. -/
inductive Getter where
  | managerState
  | managerOfflineMode
  | managerTechnologyDefault
  | managerProfileActive
  | bytesArray (property : Option String)
deriving DecidableEq, Repr

namespace Getter

/-- The property that is read. -/
def property : Getter → Option String
  | managerState => some "State"
  | managerOfflineMode => some "OfflineMode"
  | managerTechnologyDefault => some "DefaultTechnology"
  | managerProfileActive => some "ActiveProfile"
  | bytesArray property => property

/-- The size of the caller's variable: a pointer, an `Eina_Bool` or an `unsigned int`. -/
def variableSize : Getter → Nat
  | managerOfflineMode => 1
  | bytesArray _ => 4
  | _ => pointerSize

/-- A stored value has the getter's type. -/
def HasType : Getter → PropertyType × PropertyData → Prop
  | managerState, stored => stored.1 = .string
  | managerOfflineMode, stored => stored.1 = .boolean
  | managerTechnologyDefault, stored => stored.1 = .string
  | managerProfileActive, stored => stored.1 = .objectPath
  | bytesArray _, stored => stored.1 = .array ∧ ∃ array, stored.2 = .array (some array) ∧ array.type = .byte

/-- A value that a getter may find stored: one of its type, or one that it cannot read. An array of
which nothing was stored is a `NULL` pointer. -/
def fits : Getter → Wire → Bool
  | _, .basic (.int16 _) => true
  | _, .other _ _ => true
  | managerState, .basic (.string _) => true
  | managerOfflineMode, .basic (.boolean _) => true
  | managerTechnologyDefault, .basic (.string _) => true
  | managerProfileActive, .basic (.objectPath _) => true
  | bytesArray _, .array .empty => true
  | bytesArray _, .array .other => true
  | bytesArray _, .array (.bytes _ _) => true
  | _, _ => false

end Getter

/-- What a call of a getter depends on but for the element: the caller's variable, which may be
`NULL`, the local one, the elements in the table, and whether memory can be allocated. -/
structure GetterCall (size : Nat) where
  target : Option (Variable Target)
  scratch : Variable Target
  elements : String → Option ElementId
  allocated : Bool
  targetSized : ∀ cells ∈ target, cells.length = size
  scratchSized : scratch.length = pointerSize

/-- A result is returned only for a stored value of the type, nothing but the variable is written, and
only pointers of the right type are followed. -/
structure Respects {Result : Type} (outcome : Outcome Result) (target : Option (Variable Target))
    (typed : Prop) : Prop where
  result : outcome.result.isSome → typed
  within : outcome.written.map List.length = target.map List.length
  accesses : ∀ access ∈ outcome.accesses, access.Proper

/-- The property of the getter has its type. -/
def Getter.Typed (getter : Getter) (element : Option PropertyList) : Prop :=
  ∃ list name stored, element = some list ∧ getter.property = some name ∧
    propertyGet list name = some stored ∧ getter.HasType stored

/-- A call of the getter respects the type. -/
def Getter.Respects (getter : Getter) (element : Option PropertyList) (call : GetterCall getter.variableSize) :
    Prop :=
  match getter with
  | .managerState =>
    Connman.Respects (managerStateGet element call.target) call.target (Getter.managerState.Typed element)
  | .managerOfflineMode =>
    Connman.Respects (managerOfflineModeGet element call.target) call.target
      (Getter.managerOfflineMode.Typed element)
  | .managerTechnologyDefault =>
    Connman.Respects (managerTechnologyDefaultGet element call.target) call.target
      (Getter.managerTechnologyDefault.Typed element)
  | .managerProfileActive =>
    Connman.Respects (managerProfileActiveGet element call.elements call.scratch call.target) call.target
      (Getter.managerProfileActive.Typed element)
  | .bytesArray property =>
    Connman.Respects (bytesArrayGetStringshared element property call.target call.scratch call.allocated)
      call.target ((Getter.bytesArray property).Typed element)

/-! ## One call -/

theorem unionCells_pointer (type : PropertyType) (data : PropertyData) :
    (unionCells type data).length ≤ pointerSize := by
  unfold unionCells
  split <;> simp [shortBytes, intBytes, pointerSize]

/-- A call that fails and changes nothing respects every type. -/
theorem respects_refused {Result : Type} (target : Option (Variable Target)) (typed : Prop) :
    Respects (⟨none, target, []⟩ : Outcome Result) target typed := by
  constructor
  case result => exact fun returned => by cases returned
  case within => rfl
  case accesses => exact fun access listed => absurd listed List.not_mem_nil

/-- A pointer that is handed on is written to exactly as far as the stored value goes. -/
theorem managerPropertyGet_respects {element : PropertyList} {name : String} {stored : PropertyType × PropertyData}
    (found : propertyGet element name = some stored) (cells : Variable Target) (typed : Prop) :
    Respects (managerPropertyGet (some element) name (some cells)) (some cells) typed ↔
      typed ∧ (unionCells stored.1 stored.2).length ≤ cells.length := by
  have outcome : managerPropertyGet (some element) name (some cells) =
      ⟨some (), some (cells.store (unionCells stored.1 stored.2)), []⟩ := by
    rw [managerPropertyGet, propertyGetStringshared, found]
    rfl
  rw [outcome]
  constructor
  · intro respects
    exact ⟨respects.result rfl, (Variable.length_store_eq_iff _ _).mp (Option.some.inj respects.within)⟩
  · rintro ⟨isTyped, fitting⟩
    constructor
    case result => exact fun _ => isTyped
    case within => exact congrArg some ((Variable.length_store_eq_iff _ _).mpr fitting)
    case accesses => exact fun access listed => absurd listed List.not_mem_nil

/-- The pointer is read back from the local variable, if it was written there. -/
theorem profilePath_text {scratch : Variable Target} (sized : scratch.length = pointerSize)
    (elements : String → Option ElementId) (path : String) :
    elementGetAt elements (scratch.store (unionCells .objectPath (.path path))).load =
      ((elements path).map .element, [.text (.object (.text path))]) := by
  rw [unionCells, Variable.load_store_ofPointer sized]
  rfl

theorem managerProfileActiveGet_found {element : PropertyList} {stored : PropertyType × PropertyData}
    (found : propertyGet element "ActiveProfile" = some stored) (elements : String → Option ElementId)
    (scratch cells : Variable Target) :
    managerProfileActiveGet (some element) elements scratch (some cells) =
      let looked := elementGetAt elements (scratch.store (unionCells stored.1 stored.2)).load
      ⟨some (), some (cells.store (.ofPointer looked.1)), looked.2⟩ := by
  rw [managerProfileActiveGet, propertyGetStringshared, found]

theorem bytesArrayGet_found {element : PropertyList} {name : String} {stored : PropertyType × PropertyData}
    (found : propertyGet element name = some stored) (count scratch : Variable Target) (allocated : Bool) :
    bytesArrayGetStringshared (some element) (some name) (some count) scratch allocated =
      bytesArrayCopy (count.store (.ofBytes (intBytes 0))) allocated
        (scratch.store (unionCells stored.1 stored.2)).load := by
  rw [bytesArrayGetStringshared, propertyGetStringshared, found]

/-- A number of four bytes is written over an `unsigned int`. -/
theorem store_int {count : Variable Target} (sized : count.length = 4) (value : UInt32) :
    (count.store (.ofBytes (intBytes value))).length = 4 := by
  have covered : (Variable.ofBytes (intBytes value) : Variable Target).length ≤ count.length := by
    rw [sized]
    exact Nat.le_refl _
  rw [(Variable.length_store_eq_iff count _).mpr covered, sized]

/-- An array of bytes is copied. -/
theorem bytesArrayCopy_respects {count target : Variable Target} (sized : count.length = 4)
    (targetSized : target.length = 4) (allocated : Bool) (array : ElementArray) {typed : Prop} (isTyped : typed) :
    Respects (bytesArrayCopy count allocated (.object (.array array))) (some target) typed := by
  constructor
  case result => exact fun _ => isTyped
  case within => exact congrArg some ((store_int sized _).trans targetSized.symm)
  case accesses =>
    intro access listed
    obtain rfl := List.mem_singleton.mp listed
    exact ⟨array, rfl⟩

/-- Nothing is copied from `NULL`. -/
theorem bytesArrayCopy_null {count target : Variable Target} (sized : count.length = 4)
    (targetSized : target.length = 4) (allocated : Bool) (typed : Prop) :
    Respects (bytesArrayCopy count allocated .null) (some target) typed := by
  constructor
  case result => exact fun returned => by cases returned
  case within => exact congrArg some (sized.trans targetSized.symm)
  case accesses => exact fun access listed => absurd listed List.not_mem_nil

/-! ## Every call -/

/-- A call with memory that holds ones everywhere. -/
def GetterCall.ones (size : Nat) : GetterCall size where
  target := some (List.replicate size (.byte 255))
  scratch := .garbage
  elements _ := none
  allocated := true
  targetSized cells isTarget := by
    obtain rfl := Option.some.inj isTarget
    exact List.length_replicate
  scratchSized := Variable.length_garbage

theorem readable_some {wire : Wire} {stored : PropertyType × PropertyData} (isRead : readable wire = some stored) :
    stored = (wireType wire, wireData wire) := by
  unfold readable at isRead
  split at isRead
  · cases isRead
  · exact (Option.some.inj isRead).symm

theorem Getter.typed_iff {getter : Getter} {list : PropertyList} {name : String}
    {stored : PropertyType × PropertyData} (reads : getter.property = some name)
    (found : propertyGet list name = some stored) : getter.Typed (some list) ↔ getter.HasType stored := by
  constructor
  · rintro ⟨_, other, read, ⟨⟩, sameName, sameRead, typed⟩
    obtain rfl := Option.some.inj (reads.symm.trans sameName)
    obtain rfl := Option.some.inj (found.symm.trans sameRead)
    exact typed
  · intro typed
    exact ⟨list, name, stored, rfl, reads, found, typed⟩

/-- The getters of the manager fit the values that have their type, among those that can be read. -/
theorem Getter.fits_iff_hasType (getter : Getter) (ofManager : ∀ property, getter ≠ .bytesArray property)
    {wire : Wire} {stored : PropertyType × PropertyData} (isRead : readable wire = some stored) :
    getter.fits wire = true ↔ getter.HasType stored := by
  obtain rfl := readable_some isRead
  cases wire with
  | basic value =>
      cases getter <;> cases value <;> first
        | exact absurd rfl (ofManager _)
        | exact iff_of_true rfl rfl
        | exact iff_of_false Bool.false_ne_true (fun typed => PropertyType.noConfusion typed)
        | exact nomatch isRead
  | array items =>
      cases getter with
      | bytesArray property => exact absurd rfl (ofManager property)
      | _ =>
          cases items <;>
            exact iff_of_false Bool.false_ne_true (fun typed => PropertyType.noConfusion typed)
  | other type isZero => exact nomatch isRead

/-! ## A property that cannot be read -/

theorem managerPropertyGet_unread {manager : Option PropertyList} {name : String}
    (unread : ∀ list ∈ manager, propertyGet list name = none) (target : Option (Variable Target)) :
    managerPropertyGet manager name target = ⟨none, target, []⟩ := by
  cases target with
  | none => rfl
  | some cells =>
      cases manager with
      | none => rfl
      | some list =>
          rw [managerPropertyGet, propertyGetStringshared, unread list rfl]
          rfl

theorem managerProfileActiveGet_unread {manager : Option PropertyList}
    (unread : ∀ list ∈ manager, propertyGet list "ActiveProfile" = none)
    (elements : String → Option ElementId) (scratch : Variable Target) (target : Option (Variable Target)) :
    managerProfileActiveGet manager elements scratch target = ⟨none, target, []⟩ := by
  cases target with
  | none => rfl
  | some cells =>
      cases manager with
      | none => rfl
      | some list => rw [managerProfileActiveGet, propertyGetStringshared, unread list rfl]

/-- Only the count is cleared. -/
theorem bytesArrayGet_unread {element : Option PropertyList} (property : Option String)
    (unread : ∀ list ∈ element, ∀ name ∈ property, propertyGet list name = none)
    (target : Option (Variable Target)) (scratch : Variable Target) (allocated : Bool) :
    ∃ count, bytesArrayGetStringshared element property target scratch allocated = ⟨none, count, []⟩ ∧
      (count = target ∨ ∃ cells, target = some cells ∧ count = some (cells.store (.ofBytes (intBytes 0)))) := by
  cases element with
  | none => exact ⟨target, rfl, .inl rfl⟩
  | some list =>
      cases property with
      | none => exact ⟨target, rfl, .inl rfl⟩
      | some name =>
          cases target with
          | none => exact ⟨none, rfl, .inl rfl⟩
          | some cells =>
              rw [bytesArrayGetStringshared, propertyGetStringshared, unread list rfl name rfl]
              exact ⟨_, rfl, .inr ⟨cells, rfl, rfl⟩⟩

/-- Where the property cannot be read every getter fails. -/
theorem Getter.respects_unread (getter : Getter) {element : Option PropertyList}
    (unread : ∀ list ∈ element, ∀ name ∈ getter.property, propertyGet list name = none)
    (call : GetterCall getter.variableSize) : getter.Respects element call := by
  cases getter with
  | managerState =>
      rw [Getter.Respects, managerStateGet, managerPropertyGet_unread fun list isList => unread list isList _ rfl]
      exact respects_refused call.target _
  | managerOfflineMode =>
      rw [Getter.Respects, managerOfflineModeGet,
        managerPropertyGet_unread fun list isList => unread list isList _ rfl]
      exact respects_refused call.target _
  | managerTechnologyDefault =>
      rw [Getter.Respects, managerTechnologyDefaultGet,
        managerPropertyGet_unread fun list isList => unread list isList _ rfl]
      exact respects_refused call.target _
  | managerProfileActive =>
      rw [Getter.Respects, managerProfileActiveGet_unread fun list isList => unread list isList _ rfl]
      exact respects_refused call.target _
  | bytesArray property =>
      rw [Getter.Respects]
      obtain ⟨count, outcome, isCount⟩ :=
        bytesArrayGet_unread property unread call.target call.scratch call.allocated
      rw [outcome]
      rcases isCount with rfl | ⟨cells, isTarget, rfl⟩
      · exact respects_refused call.target _
      · rw [isTarget]
        constructor
        case result => exact fun returned => by cases returned
        case within =>
          have sized := call.targetSized cells isTarget
          exact congrArg some ((store_int sized 0).trans sized.symm)
        case accesses => exact fun access listed => absurd listed List.not_mem_nil

/-! ## A property that can be read -/

/-- A getter that hands its pointer on respects a value of its type, if that is not wider than the
variable. -/
theorem managerPropertyGet_respects_iff {list : PropertyList} {name : String}
    {stored : PropertyType × PropertyData} (found : propertyGet list name = some stored) (size : Nat) (typed : Prop) :
    (∀ call : GetterCall size,
      Respects (managerPropertyGet (some list) name call.target) call.target typed) ↔
        typed ∧ (unionCells stored.1 stored.2).length ≤ size := by
  constructor
  · intro every
    have sample := (managerPropertyGet_respects found _ typed).mp (every (.ones size))
    rw [List.length_replicate] at sample
    exact sample
  · rintro ⟨isTyped, narrow⟩ call
    cases isTarget : call.target with
    | none => exact respects_refused none typed
    | some cells =>
        rw [← call.targetSized cells isTarget] at narrow
        exact (managerPropertyGet_respects found cells typed).mpr ⟨isTyped, narrow⟩

/-- The profile is looked up by the text of a path. -/
theorem managerProfileActiveGet_respects {list : PropertyList} {path : String}
    (found : propertyGet list "ActiveProfile" = some (.objectPath, .path path)) (call : GetterCall pointerSize)
    {typed : Prop} (isTyped : typed) :
    Respects (managerProfileActiveGet (some list) call.elements call.scratch call.target) call.target typed := by
  cases isTarget : call.target with
  | none => exact respects_refused none typed
  | some cells =>
      rw [managerProfileActiveGet_found found, profilePath_text call.scratchSized]
      constructor
      case result => exact fun _ => isTyped
      case within =>
        have sized := call.targetSized cells isTarget
        have covered : (Variable.ofPointer ((call.elements path).map Target.element)).length ≤ cells.length :=
          Nat.le_of_eq ((Variable.length_ofPointer _).trans sized.symm)
        exact congrArg some ((Variable.length_store_eq_iff cells _).mpr covered)
      case accesses =>
        intro access listed
        obtain rfl := List.mem_singleton.mp listed
        exact ⟨path, rfl⟩

/-- The pointer to an array is copied from. -/
theorem bytesArrayGet_array {list : PropertyList} {name : String} {array : Option ElementArray}
    (found : propertyGet list name = some (.array, .array array)) (cells : Variable Target)
    {scratch : Variable Target} (sized : scratch.length = pointerSize) (allocated : Bool) :
    bytesArrayGetStringshared (some list) (some name) (some cells) scratch allocated =
      bytesArrayCopy (cells.store (.ofBytes (intBytes 0))) allocated
        (array.elim .null fun array => .object (.array array)) := by
  rw [bytesArrayGet_found found, unionCells, Variable.load_store_ofPointer sized]
  cases array <;> rfl

/-- What is left in a pointer when anything but an array is written to it. -/
theorem unionCells_stray {stored : PropertyType × PropertyData} (notArray : ∀ array, stored.2 ≠ .array array) :
    (Variable.store .garbage (unionCells stored.1 stored.2)).load = .wild ∨
      ∃ text, (Variable.store .garbage (unionCells stored.1 stored.2)).load = .object (.text text) := by
  obtain ⟨type, data⟩ := stored
  unfold unionCells
  split
  case h_1 => exact .inl (Variable.load_store_ofBytes (by simp [pointerSize]))
  case h_2 => exact .inl (Variable.load_store_ofBytes (by simp [pointerSize]))
  case h_3 => exact .inl (Variable.load_store_ofBytes (by simp [shortBytes, pointerSize]))
  case h_4 => exact .inl (Variable.load_store_ofBytes (by simp [intBytes, pointerSize]))
  case h_5 text isText => exact .inr ⟨_, Variable.load_store_ofPointer Variable.length_garbage _⟩
  case h_6 text isText => exact .inr ⟨_, Variable.load_store_ofPointer Variable.length_garbage _⟩
  case h_7 isArray => exact absurd isArray (notArray _)
  case h_8 =>
    rw [show ([] : Variable Target) = Variable.ofBytes [] from rfl]
    exact .inl (Variable.load_store_ofBytes (by simp [pointerSize]))

/-- It is followed as if it were a pointer to an array. -/
theorem bytesArrayGet_stray {list : PropertyList} {name : String} {stored : PropertyType × PropertyData}
    (found : propertyGet list name = some stored) (notArray : ∀ array, stored.2 ≠ .array array)
    (cells : Variable Target) (typed : Prop) :
    ¬ Respects (bytesArrayGetStringshared (some list) (some name) (some cells) .garbage true) (some cells)
      typed := by
  rw [bytesArrayGet_found found]
  intro respects
  rcases unionCells_stray notArray with wild | ⟨text, isText⟩
  · rw [wild] at respects
    obtain ⟨array, isArray⟩ := respects.accesses _ List.mem_cons_self
    cases isArray
  · rw [isText] at respects
    obtain ⟨array, isArray⟩ := respects.accesses _ List.mem_cons_self
    cases isArray

/-- A `NULL` array is respected, another one exactly if it has bytes. -/
theorem bytesArray_respects_array_iff {list : PropertyList} {name : String} {array : Option ElementArray}
    (found : propertyGet list name = some (.array, .array array)) :
    (∀ call, (Getter.bytesArray (some name)).Respects (some list) call) ↔
      ∀ items, array = some items → items.type = .byte := by
  have typed : (Getter.bytesArray (some name)).Typed (some list) ↔ _ := Getter.typed_iff rfl found
  constructor
  · rintro every items rfl
    have sample := (every (.ones 4)).result
    rw [GetterCall.ones, bytesArrayGet_array found _ Variable.length_garbage] at sample
    obtain ⟨-, _, ⟨⟩, ofBytes⟩ := typed.mp (sample rfl)
    exact ofBytes
  · intro ofBytes call
    rw [Getter.Respects]
    cases isTarget : call.target with
    | none => exact respects_refused none _
    | some cells =>
        have sized := call.targetSized cells isTarget
        rw [bytesArrayGet_array found cells call.scratchSized]
        cases array with
        | none => exact bytesArrayCopy_null (store_int sized 0) sized call.allocated _
        | some items =>
            apply bytesArrayCopy_respects (store_int sized 0) sized call.allocated items
            exact typed.mpr ⟨rfl, items, rfl, ofBytes items rfl⟩

/-- The reader of arrays respects what it fits. -/
theorem bytesArray_respects_iff {list : PropertyList} {name : String} {wire : Wire}
    {stored : PropertyType × PropertyData} (found : propertyGet list name = some stored)
    (isRead : readable wire = some stored) :
    (∀ call, (Getter.bytesArray (some name)).Respects (some list) call) ↔
      (Getter.bytesArray (some name)).fits wire = true := by
  obtain rfl := readable_some isRead
  cases wire with
  | array items =>
      rw [bytesArray_respects_array_iff found]
      cases items with
      | empty => exact iff_of_true nofun rfl
      | other => exact iff_of_true nofun rfl
      | bytes first rest =>
          refine iff_of_true ?_ rfl
          intro array isArray
          obtain rfl := Option.some.inj isArray
          rfl
      | objectPaths first rest => exact iff_of_false (fun every => nomatch every _ rfl) nofun
      | strings first rest => exact iff_of_false (fun every => nomatch every _ rfl) nofun
      | entries first rest => exact iff_of_false (fun every => nomatch every _ rfl) nofun
  | other type isZero => cases isRead
  | basic value =>
      constructor
      · intro every
        have notArray : ∀ array, wireData (.basic value) ≠ .array array := by
          cases value <;> exact fun _ => nofun
        exact absurd (every (.ones 4)) (bytesArrayGet_stray found notArray _ _)
      · intro fitting
        cases value <;> first | cases isRead; done | cases fitting

theorem wireData_boolean {wire : Wire} (isBoolean : wireType wire = .boolean) :
    ∃ value, wireData wire = .boolean value := by
  cases wire with
  | basic value =>
      cases value with
      | boolean value => exact ⟨value, rfl⟩
      | _ => cases isBoolean
  | _ => cases isBoolean

theorem wireData_objectPath {wire : Wire} (isPath : wireType wire = .objectPath) :
    ∃ path, wireData wire = .path path := by
  cases wire with
  | basic value =>
      cases value with
      | objectPath path => exact ⟨path, rfl⟩
      | _ => cases isPath
  | _ => cases isPath

/-- A property that can be read is respected exactly if the getter fits it. -/
theorem Getter.respects_read_iff (getter : Getter) {list : PropertyList} {name : String} {wire : Wire}
    {stored : PropertyType × PropertyData} (reads : getter.property = some name)
    (found : propertyGet list name = some stored) (isRead : readable wire = some stored) :
    (∀ call, getter.Respects (some list) call) ↔ getter.fits wire = true := by
  have typed := Getter.typed_iff reads found
  cases getter with
  | managerState =>
      obtain rfl := Option.some.inj reads
      rw [fits_iff_hasType managerState (fun _ => nofun) isRead, ← typed]
      exact (managerPropertyGet_respects_iff found _ _).trans (and_iff_left (unionCells_pointer _ _))
  | managerOfflineMode =>
      obtain rfl := Option.some.inj reads
      rw [fits_iff_hasType managerOfflineMode (fun _ => nofun) isRead, ← typed]
      refine (managerPropertyGet_respects_iff found _ _).trans (and_iff_left_of_imp ?_)
      intro isTyped
      have isBoolean := typed.mp isTyped
      obtain rfl := readable_some isRead
      obtain ⟨value, isValue⟩ := wireData_boolean isBoolean
      rw [show wireType wire = .boolean from isBoolean, isValue]
      exact Nat.le_refl 1
  | managerTechnologyDefault =>
      obtain rfl := Option.some.inj reads
      rw [fits_iff_hasType managerTechnologyDefault (fun _ => nofun) isRead, ← typed]
      exact (managerPropertyGet_respects_iff found _ _).trans (and_iff_left (unionCells_pointer _ _))
  | managerProfileActive =>
      obtain rfl := Option.some.inj reads
      rw [fits_iff_hasType managerProfileActive (fun _ => nofun) isRead, ← typed]
      constructor
      · intro every
        have sample := (every (.ones pointerSize)).result
        rw [GetterCall.ones, managerProfileActiveGet_found found] at sample
        exact sample rfl
      · intro isTyped call
        have isPath := typed.mp isTyped
        obtain rfl := readable_some isRead
        obtain ⟨path, isValue⟩ := wireData_objectPath isPath
        rw [show wireType wire = .objectPath from isPath, isValue] at found
        exact managerProfileActiveGet_respects found call isTyped
  | bytesArray property =>
      obtain rfl := reads
      exact bytesArray_respects_iff found isRead

/-- The messages that an element got, one after the other. -/
def received (messages : List PropertyMessage) : PropertyList := messages.foldl PropertyMessage.receive .empty

theorem propertyGet_received_all (messages : List PropertyMessage) (name : String) :
    propertyGet (received messages) name =
      (lastReceived (messages.flatMap PropertyMessage.updates) name).bind readable := by
  rw [received, receive_updates, propertyGet_of (receiveAll_represents _)]

theorem Getter.fits_unreadable (getter : Getter) {wire : Wire} (unread : readable wire = none) :
    getter.fits wire = true := by
  cases wire with
  | basic value =>
      cases value with
      | int16 value => cases getter <;> rfl
      | _ => cases unread
  | array items => cases unread
  | other type isZero => cases getter <;> rfl

/-- Whatever an element was sent: every call of a getter respects its type if and only if the value
received last for the property is one that the getter fits. -/
theorem getter_respects_iff (getter : Getter) (history : Option (List PropertyMessage)) :
    (∀ call, getter.Respects (history.map received) call) ↔
      ∀ messages name wire, history = some messages → getter.property = some name →
        lastReceived (messages.flatMap PropertyMessage.updates) name = some wire → getter.fits wire = true := by
  constructor
  · rintro every messages name wire rfl reads last
    have found := propertyGet_received_all messages name
    rw [last, Option.bind_some] at found
    cases isRead : readable wire with
    | none => exact getter.fits_unreadable isRead
    | some stored => exact (getter.respects_read_iff reads (found.trans isRead) isRead).mp every
  · intro fitting
    by_cases unread : ∀ list ∈ history.map received, ∀ name ∈ getter.property, propertyGet list name = none
    · exact getter.respects_unread unread
    · push Not at unread
      obtain ⟨list, isList, name, reads, known⟩ := unread
      obtain ⟨messages, isHistory, rfl⟩ := Option.map_eq_some_iff.mp isList
      obtain ⟨stored, found⟩ := Option.ne_none_iff_exists'.mp known
      obtain ⟨wire, last, isRead⟩ :=
        Option.bind_eq_some_iff.mp ((propertyGet_received_all messages name).symm.trans found)
      rw [isList]
      exact (getter.respects_read_iff reads found isRead).mpr (fitting messages name wire isHistory reads last)

/-- The server sends a text for `OfflineMode`: a pointer is written over an `Eina_Bool`. -/
theorem getter_respects_fails_offlineMode :
    ¬ ∀ (getter : Getter) (history : Option (List PropertyMessage)) call,
      getter.Respects (history.map received) call := by
  intro always
  have respects := always .managerOfflineMode
    (some [.propertyChanged [.string "OfflineMode", .variant (.string "on")]]) (.ones 1)
  exact absurd respects.within (by decide)

end EDBus.Elements.Connman
