import EDBus.Elements.BytesArray
import EDBus.Elements.OfonoKeys
import EDBus.Semantics.Selection

/-!
# Arrays of objects

A property can list the paths of other elements, and a getter returns these elements. connman and
bluez look the paths up as they are. ofono needs an interface as well, and takes the name of the
property for it: `objectsArray_exact_iff` finds the tables in which that makes no difference.
-/

open EDBus.Semantics

namespace EDBus.Elements

open Connman (PropertyType PropertyData)

variable {family : Family} {state : State} {e : ElementId}

/-! ## The getter -/

/-- The lookup of a listed path. The items of an array of paths are texts. -/
def listedGet (family : Family) (state : State) (property : String) : Item → Option ElementId
  | .str path => elementGet family state path (if family = .ofono then property else "")
  | _ => none

/-- What the getter returns and writes: `*count`, the block behind `*p_elements`, and whether a write
missed the block. -/
structure ObjectsOutcome where
  returned : Bool
  count : Nat
  elements : Option (List (Option ElementId))
  outside : Bool
deriving DecidableEq, Repr

/-- The getter fails. -/
def ObjectsOutcome.failed : ObjectsOutcome := ⟨false, 0, none, false⟩

/-- The loop over an array of paths. -/
def objectsArrayFill (family : Family) (state : State) (property : String) (items : List Item) : ObjectsOutcome :=
  let ret := Selection.fill (listedGet family state property) (.allocate items.length) items
  ⟨true, ret.next, some ret.cells, ret.outside⟩

/-- `_element_objects_array_get_stringshared`. `allocated` is whether there is memory for the result. -/
def objectsArrayGetStringshared (family : Family) (state : State) (props : List Property) (property : String)
    (allocated : Bool) : ObjectsOutcome :=
  match (propsGet props property).bind Value.read with
  | some (.array, .array (some array)) =>
    if array.type = .objectPath then
      if allocated then objectsArrayFill family state property array.items else .failed
    else .failed
  -- no such property, no array, or none that holds anything
  | _ => .failed

/-! ## What it should return -/

/-- The element is the one for the path, and in ofono for the interface. -/
def Family.isFor (family : Family) (path interface : String) (element : Element) : Bool :=
  element.path = path && (family ≠ .ofono || element.interface = interface)

/-- The element that is registered for a path, and in ofono for an interface. -/
def State.registeredFor (family : Family) (state : State) (path interface : String) : Option ElementId :=
  state.entries.find? fun e => (state.elements e).any (family.isFor path interface)

/-- The getter succeeds with just these elements, and stays within its block. -/
structure ReturnsElements (outcome : ObjectsOutcome) (elements : List ElementId) : Prop where
  returned : outcome.returned = true
  count : outcome.count = elements.length
  array : ∃ block, outcome.elements = some block ∧ block.take outcome.count = elements.map some
  within : outcome.outside = false

/-- The getter finds what its lookups find. -/
theorem objectsArrayGet_found {props : List Property} {name : String} {paths : List String}
    (stored : propsGet props name = some (.array (some (pathArray paths)))) :
    objectsArrayGetStringshared family state props name true =
      let found := (pathArray paths).items.filterMap (listedGet family state name)
      ⟨true, found.length, some (Selection.Block.written found (paths.length - found.length)).cells, false⟩ := by
  have counted : (pathArray paths).items.length = paths.length := List.length_map ..
  have looped : objectsArrayGetStringshared family state props name true =
      objectsArrayFill family state name (pathArray paths).items := by
    rw [objectsArrayGetStringshared, stored]
    rfl
  rw [looped, objectsArrayFill, Selection.fill_allocate, counted]
  rfl

theorem returnsElements_found_iff {found elements : List ElementId} (room : Nat) :
    ReturnsElements ⟨true, found.length, some (Selection.Block.written found room).cells, false⟩ elements ↔
      found = elements := by
  have front : (Selection.Block.written found room).cells.take found.length = found.map some :=
    List.take_left' (List.length_map ..)
  constructor
  · rintro ⟨-, -, ⟨block, isBlock, same⟩, -⟩
    obtain rfl := Option.some.inj isBlock
    exact List.map_injective_iff.mpr (Option.some_injective ElementId) (front.symm.trans same)
  · rintro rfl
    exact ⟨rfl, rfl, ⟨_, rfl, front⟩, rfl⟩

/-! ## Registered elements -/

/-- An element that is registered for a path has its key. -/
theorem find_of_registeredFor (wf : TableWf family state) {path interface : String}
    (registered : state.registeredFor family path interface = some e) :
    ∃ element, state.elements e = some element ∧ family.isFor path interface element = true ∧
      state.find (family.key path interface) = some e := by
  have matched := List.find?_some registered
  obtain ⟨element, alive, isFor⟩ := (Option.any_eq_true _ _).mp matched
  refine ⟨element, alive, isFor, ?_⟩
  obtain ⟨⟨key, e'⟩, listed, rfl⟩ := List.mem_map.mp (List.mem_of_find?_eq_some registered)
  obtain ⟨element', alive', isKey, -⟩ := wf.entryAlive key e' listed
  obtain rfl := Option.some.inj (alive.symm.trans alive')
  rw [Family.isFor, Bool.and_eq_true, decide_eq_true_eq] at isFor
  obtain ⟨rfl, interfaces⟩ := isFor
  have sameKey : family.key element.path interface = key := by
    rw [isKey]
    cases family with
    | connman => rfl
    | bluez => rfl
    | ofono =>
        have same : element.interface = interface := by simpa using interfaces
        rw [same]
  rw [sameKey]
  exact wf.find_iff.mpr listed

/-- An element with the key of a path is registered for it, if it is one for the path. -/
theorem registeredFor_of_find (wf : TableWf family state) {path interface : String} {element : Element}
    (found : state.find (family.key path interface) = some e) (alive : state.elements e = some element)
    (isFor : family.isFor path interface element = true) : state.registeredFor family path interface = some e := by
  have listed : e ∈ state.entries := List.mem_map.mpr ⟨_, wf.find_iff.mp found, rfl⟩
  have present : (state.registeredFor family path interface).isSome = true := by
    rw [State.registeredFor, List.find?_isSome]
    exact ⟨e, listed, (Option.any_eq_true _ _).mpr ⟨element, alive, isFor⟩⟩
  obtain ⟨other, registered⟩ := Option.isSome_iff_exists.mp present
  obtain ⟨-, -, -, again⟩ := find_of_registeredFor wf registered
  rw [registered, ← found, again]

/-- connman and bluez find the element that is registered for a path. -/
theorem elementGet_eq_registeredFor (wf : TableWf family state) (notOfono : family ≠ .ofono)
    (path interface other : String) :
    elementGet family state path other = state.registeredFor family path interface := by
  have keys : family.key path other = family.key path interface := by
    rw [key_of_path notOfono, key_of_path notOfono]
  rw [elementGet, keys]
  cases found : state.find (family.key path interface) with
  | none =>
      cases registered : state.registeredFor family path interface with
      | none => rfl
      | some e =>
          obtain ⟨-, -, -, present⟩ := find_of_registeredFor wf registered
          rw [found] at present
          cases present
  | some e =>
      obtain ⟨element, alive, isKey, -⟩ := wf.found found
      rw [key_of_path notOfono, key_of_path notOfono] at isKey
      refine (registeredFor_of_find wf found alive ?_).symm
      simp [Family.isFor, isKey, notOfono]

/-! ## Keys that are cut off -/

theorem alphanum_code {char : Char} (isAlphanum : char.isAlphanum = true) :
    char.val.toNat ≤ 127 ∧ char.val.toNat ≠ 58 := by
  rcases (Bool.or_eq_true _ _).mp isAlphanum with isAlpha | isDigit
  · rcases (Bool.or_eq_true _ _).mp isAlpha with isUpper | isLower
    · obtain ⟨low, high⟩ : 65 ≤ char.val ∧ char.val ≤ 90 := of_decide_eq_true isUpper
      have low : 65 ≤ char.val.toNat := UInt32.le_iff_toNat_le.mp low
      have high : char.val.toNat ≤ 90 := UInt32.le_iff_toNat_le.mp high
      omega
    · obtain ⟨low, high⟩ := (Bool.and_eq_true _ _).mp isLower
      have low : 97 ≤ char.val.toNat := UInt32.le_iff_toNat_le.mp (of_decide_eq_true low)
      have high : char.val.toNat ≤ 122 := UInt32.le_iff_toNat_le.mp (of_decide_eq_true high)
      omega
  · obtain ⟨low, high⟩ := (Bool.and_eq_true _ _).mp isDigit
    have high : char.val.toNat ≤ 57 := UInt32.le_iff_toNat_le.mp (of_decide_eq_true high)
    omega

theorem pathChar_byte {char : Char} (isPathChar : pathChar char = true) : 58 ∉ String.utf8EncodeChar char := by
  have small : char.val.toNat ≤ 127 ∧ char.val.toNat ≠ 58 := by
    rcases (Bool.or_eq_true _ _).mp isPathChar with isNamed | isSlash
    · rcases (Bool.or_eq_true _ _).mp isNamed with isAlphanum | isUnderscore
      · exact alphanum_code isAlphanum
      · obtain rfl := of_decide_eq_true isUnderscore
        decide
    · obtain rfl := of_decide_eq_true isSlash
      decide
  have single : char.utf8Size = 1 := Char.utf8Size_eq_one_iff.mpr (UInt32.le_iff_toNat_le.mpr small.1)
  rw [String.utf8EncodeChar_eq_singleton single, List.mem_singleton]
  intro isByte
  have numbers := congrArg UInt8.toNat isByte
  rw [UInt32.toNat_toUInt8] at numbers
  have colon : (58 : UInt8).toNat = 58 := rfl
  omega

/-- No byte of a path is that of a colon. -/
theorem ObjectPath.no_colon_byte {path : String} (isPath : ObjectPath path) : 58 ∉ textBytes path := by
  have encoded : textBytes path = path.toList.flatMap String.utf8EncodeChar := by
    have bytes : ∀ chars, textBytes (String.ofList chars) = chars.flatMap String.utf8EncodeChar := by
      intro chars
      simp [textBytes, List.utf8Encode]
    rw [← bytes, String.ofList_toList]
  rw [encoded]
  intro listed
  obtain ⟨char, inside, isByte⟩ := List.mem_flatMap.mp listed
  exact pathChar_byte (List.all_eq_true.mp isPath.2 char inside) isByte

/-- Texts with different letters behind the first separator are cut off before these, if they are cut
off to the same text. -/
theorem cut_before {Letter : Type} {separator first second : Letter} (differ : first ≠ second)
    {left right leftRest rightRest : List Letter} {count : Nat} (leftFree : separator ∉ left)
    (rightFree : separator ∉ right)
    (same : (left ++ separator :: first :: leftRest).take count =
      (right ++ separator :: second :: rightRest).take count) :
    count ≤ right.length + 1 := by
  induction right generalizing left count with
  | nil =>
      match count, left with
      | 0, _ => exact Nat.zero_le _
      | 1, _ => exact Nat.le_refl _
      | _ + 2, [] =>
          rw [List.nil_append, List.nil_append, List.take_succ_cons, List.take_succ_cons, List.take_succ_cons,
            List.take_succ_cons] at same
          exact absurd (List.cons.inj (List.cons.inj same).2).1 differ
      | _ + 2, letter :: rest =>
          rw [List.nil_append, List.cons_append, List.take_succ_cons, List.take_succ_cons] at same
          obtain ⟨rfl, -⟩ := List.cons.inj same
          exact absurd List.mem_cons_self leftFree
  | cons letter rest ih =>
      match count, left with
      | 0, _ => exact Nat.zero_le _
      | _ + 1, [] =>
          rw [List.nil_append, List.cons_append, List.take_succ_cons, List.take_succ_cons] at same
          obtain ⟨rfl, -⟩ := List.cons.inj same
          exact absurd List.mem_cons_self rightFree
      | count + 1, other :: others =>
          rw [List.cons_append, List.cons_append, List.take_succ_cons, List.take_succ_cons] at same
          have shorter := ih (fun listed => leftFree (.tail _ listed)) (fun listed => rightFree (.tail _ listed))
            (List.cons.inj same).2
          rw [List.length_cons]
          omega

/-- The key of such a path has some of the interface. -/
def ReachesInterface (path : String) : Prop := path.utf8ByteSize + 2 < maxKeySize

instance (path : String) : Decidable (ReachesInterface path) :=
  inferInstanceAs (Decidable (_ < _))

theorem textBytes_key (path interface : String) :
    textBytes (path ++ ":" ++ interface) = textBytes path ++ 58 :: textBytes interface := by
  have colon : textBytes ":" = [58] := by decide
  rw [textBytes_append, textBytes_append, colon, List.append_assoc, List.singleton_append]

/-- For longer paths the interface does not matter. -/
theorem key_of_long {path : String} (long : ¬ ReachesInterface path) (interface other : String) :
    Family.ofono.key path interface = Family.ofono.key path other := by
  have front : ∀ interface, (textBytes (path ++ ":" ++ interface)).take (maxKeySize - 1) =
      (textBytes path ++ [58]).take (maxKeySize - 1) := by
    intro interface
    have split : textBytes path ++ 58 :: textBytes interface = (textBytes path ++ [58]) ++ textBytes interface := by
      rw [List.append_assoc, List.singleton_append]
    rw [textBytes_key, split]
    apply List.take_append_of_le_length
    rw [List.length_append, length_textBytes, List.length_singleton]
    unfold ReachesInterface at long
    omega
  exact keyPrint_eq_iff.mpr ((front interface).trans (front other).symm)

/-- A key for the property is that of a modem only where the interface does not matter. -/
theorem not_reaches_of_key {path other : String} (isPath : ObjectPath path) (isOther : ObjectPath other)
    (same : Family.ofono.key path "Modems" = Family.ofono.key other modemInterface) : ¬ ReachesInterface other := by
  have bytes := keyPrint_eq_iff.mp same
  rw [textBytes_key, textBytes_key] at bytes
  have property : textBytes "Modems" = 77 :: (textBytes "Modems").tail := by decide
  have interface : textBytes modemInterface = 111 :: (textBytes modemInterface).tail := by decide
  rw [property, interface] at bytes
  have differ : (77 : UInt8) ≠ 111 := by decide
  have cut := cut_before differ isPath.no_colon_byte isOther.no_colon_byte bytes
  rw [length_textBytes] at cut
  unfold ReachesInterface
  omega

/-! ## Modems -/

/-- A listed path is looked up with the name of the property as if it were with the interface: nothing is
found and nothing is registered for the path as a modem, or the key of the path is cut off before the
interface, and what has that key is this modem. -/
def ModemFound (state : State) (path : String) : Prop :=
  if ReachesInterface path then
    elementGet .ofono state path "Modems" = none ∧ state.registeredFor .ofono path modemInterface = none
  else ∀ e, elementGet .ofono state path modemInterface = some e → state.Named e path modemInterface

/-- A modem is found under its own key. -/
theorem elementGet_of_registeredFor (wf : TableWf .ofono state) {path interface : String}
    (registered : state.registeredFor .ofono path interface = some e) :
    elementGet .ofono state path interface = some e := by
  obtain ⟨-, -, -, found⟩ := find_of_registeredFor wf registered
  exact found

theorem registeredFor_of_named (wf : TableWf .ofono state) {path interface : String}
    (found : elementGet .ofono state path interface = some e) (named : state.Named e path interface) :
    state.registeredFor .ofono path interface = some e := by
  obtain ⟨element, alive, isPath, isInterface⟩ := named
  refine registeredFor_of_find wf found alive ?_
  simp [Family.isFor, isPath, isInterface]

theorem named_of_registeredFor (wf : TableWf .ofono state) {path interface : String}
    (registered : state.registeredFor .ofono path interface = some e) : state.Named e path interface := by
  obtain ⟨element, alive, isFor, -⟩ := find_of_registeredFor wf registered
  have names : element.path = path ∧ element.interface = interface := by simpa [Family.isFor] using isFor
  exact ⟨element, alive, names⟩

/-- One lookup finds what the other does if the listed path is `ModemFound`. -/
theorem modemFound_iff (wf : TableWf .ofono state) {path : String} (isPath : ObjectPath path) :
    elementGet .ofono state path "Modems" = state.registeredFor .ofono path modemInterface ↔
      ModemFound state path := by
  unfold ModemFound
  split
  · rename_i reaches
    constructor
    · intro same
      cases registered : state.registeredFor .ofono path modemInterface with
      | none => exact ⟨same.trans registered, rfl⟩
      | some e =>
          -- one element cannot have both keys
          have keys := wf.find_injective (same.trans registered) (elementGet_of_registeredFor wf registered)
          exact absurd reaches (not_reaches_of_key isPath isPath keys)
    · rintro ⟨absent, unregistered⟩
      rw [absent, unregistered]
  · rename_i long
    have sameGet : elementGet .ofono state path "Modems" = elementGet .ofono state path modemInterface := by
      rw [elementGet, elementGet, key_of_long long "Modems" modemInterface]
    rw [sameGet]
    constructor
    · intro same e found
      exact named_of_registeredFor wf (same.symm.trans found)
    · intro named
      cases found : elementGet .ofono state path modemInterface with
      | some e => exact (registeredFor_of_named wf found (named e found)).symm
      | none =>
          cases registered : state.registeredFor .ofono path modemInterface with
          | none => rfl
          | some e =>
              rw [elementGet_of_registeredFor wf registered] at found
              cases found

/-- What is found for a listed path by the name of the property is found so for every path at which it
is registered as a modem. -/
theorem modems_absorb (wf : TableWf .ofono state) {path other : String} (isPath : ObjectPath path)
    (isOther : ObjectPath other) (found : elementGet .ofono state path "Modems" = some e)
    (registered : state.registeredFor .ofono other modemInterface = some e) :
    elementGet .ofono state other "Modems" = some e := by
  have present := elementGet_of_registeredFor wf registered
  have long := not_reaches_of_key isPath isOther (wf.find_injective found present)
  rw [elementGet, key_of_long long "Modems" modemInterface]
  exact present

/-! ## All modules -/

/-- The getter returns just the elements that are registered for the listed paths, in order and with
repetitions, and stays within its block: always in connman and bluez, and in ofono if and only if every
listed path is looked up with the name of the property as if it were with the interface. -/
theorem objectsArray_exact_iff (wf : TableWf family state) {props : List Property} {name interface : String}
    {paths : List String} (mapped : family.getInterface name = some interface)
    (arePaths : ∀ path ∈ paths, ObjectPath path)
    (stored : propsGet props name = some (.array (some (pathArray paths)))) :
    ReturnsElements (objectsArrayGetStringshared family state props name true)
        (paths.filterMap fun path => state.registeredFor family path interface) ↔
      (family = .ofono → ∀ path ∈ paths, ModemFound state path) := by
  have looked : (pathArray paths).items.filterMap (listedGet family state name) =
      paths.filterMap fun path => elementGet family state path (if family = .ofono then name else "") :=
    List.filterMap_map ..
  rw [objectsArrayGet_found stored]
  simp only [looked]
  rw [returnsElements_found_iff]
  by_cases isOfono : family = .ofono
  · subst isOfono
    obtain ⟨rfl, rfl⟩ := getInterface_ofono.mp mapped
    rw [forall_prop_of_true rfl, if_pos rfl, Selection.filterMap_eq_filterMap_iff]
    · exact forall₂_congr fun path listed => modemFound_iff wf (arePaths path listed)
    · intro path listed other otherListed e found registered
      exact modems_absorb wf (arePaths path listed) (arePaths other otherListed) found registered
  · refine iff_of_true ?_ fun impossible => absurd impossible isOfono
    exact List.filterMap_congr fun path _ => elementGet_eq_registeredFor wf isOfono path interface _

/-- A module with one element. -/
def oneElement (family : Family) (path interface : String) : State :=
  (elementRegister family State.initial path interface).1

theorem oneElement_tableWf (family : Family) (path interface : String) :
    TableWf family (oneElement family path interface) :=
  elementRegister_tableWf (initial_tableWf family) path interface

theorem objectsArray_exact_iff_services :
    ReturnsElements
        (objectsArrayGetStringshared .connman (oneElement .connman "/service" "net.connman.Service")
          [⟨"Services", .array (some (pathArray ["/service", "/gone", "/service"]))⟩] "Services" true)
        (["/service", "/gone", "/service"].filterMap fun path =>
          (oneElement .connman "/service" "net.connman.Service").registeredFor .connman path "net.connman.Service") ↔
      (Family.connman = .ofono → ∀ path ∈ ["/service", "/gone", "/service"],
        ModemFound (oneElement .connman "/service" "net.connman.Service") path) :=
  objectsArray_exact_iff (oneElement_tableWf ..) rfl (by decide) rfl

/-- The only modem is missing in the list of modems. -/
theorem modem_missing :
    ¬ ∀ (family : Family) (state : State) (props : List Property) (name interface : String) (paths : List String),
      TableWf family state → family.getInterface name = some interface → (∀ path ∈ paths, ObjectPath path) →
        propsGet props name = some (.array (some (pathArray paths))) →
          ReturnsElements (objectsArrayGetStringshared family state props name true)
            (paths.filterMap fun path => state.registeredFor family path interface) := by
  intro always
  have exactly := always .ofono (oneElement .ofono "/modem" modemInterface)
    [⟨"Modems", .array (some (pathArray ["/modem"]))⟩] "Modems" modemInterface ["/modem"]
    (oneElement_tableWf ..) rfl (by decide) rfl
  have returned : (objectsArrayGetStringshared .ofono (oneElement .ofono "/modem" modemInterface)
      [⟨"Modems", .array (some (pathArray ["/modem"]))⟩] "Modems" true).count = 0 := by decide
  have registered : (["/modem"].filterMap fun path =>
      (oneElement .ofono "/modem" modemInterface).registeredFor .ofono path modemInterface) = [0] := by decide
  have counted := exactly.count
  rw [returned, registered] at counted
  cases counted

end EDBus.Elements
