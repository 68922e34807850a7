import EDBus.Elements.Integrity
import Mathlib.Data.List.Perm.Subperm

/-!
# Which interfaces of a modem are registered

ofono matches the interfaces of a modem with the code for object paths. It
registers an added interface as if it were the path, and for every removed one it
looks up the interface that the walk saw last. `InterfacesKept` finds the lists
that do not show it.
-/

namespace EDBus.Elements

variable {accepts : CallId → Bool} {state : State}

/-! ## Keys -/

/-- The characters of object paths. -/
def pathChar (char : Char) : Bool := char.isAlphanum || char = '_' || char = '/'

/-- A path that libdbus lets through. -/
def ObjectPath (path : String) : Prop :=
  path.toList.head? = some '/' ∧ path.toList.all pathChar = true

/-- The key is not cut off. -/
def Fits (path interface : String) : Prop := (path ++ ":" ++ interface).utf8ByteSize < maxKeySize

instance (path : String) : Decidable (ObjectPath path) :=
  inferInstanceAs (Decidable (_ ∧ _))

instance (path interface : String) : Decidable (Fits path interface) :=
  inferInstanceAs (Decidable (_ < _))

theorem byteChar_injective : Function.Injective fun byte : UInt8 => Char.ofNat byte.toNat := by
  intro left right same
  have number : ∀ byte : UInt8, (Char.ofNat byte.toNat).toNat = byte.toNat := by
    intro byte
    have small := byte.toNat_lt
    have valid : byte.toNat.isValidChar := Or.inl (by omega)
    rw [Char.ofNat, dif_pos valid]
    rfl
  have numbers := congrArg Char.toNat same
  simp only [number] at numbers
  exact UInt8.toNat_inj.mp numbers

/-- The bytes of a text. -/
def textBytes (text : String) : List UInt8 := text.toUTF8.data.toList

theorem length_textBytes (text : String) : (textBytes text).length = text.utf8ByteSize := by
  simp [textBytes]

theorem textBytes_append (left right : String) : textBytes (left ++ right) = textBytes left ++ textBytes right := by
  simp [textBytes]

theorem textBytes_injective : Function.Injective textBytes := fun _ _ same =>
  String.toByteArray_inj.mp (ByteArray.ext (Array.toList_inj.mp same))

/-- Two texts look the same if those of their bytes do that have room. -/
theorem keyPrint_eq_iff {left right : String} :
    keyPrint left = keyPrint right ↔
      (textBytes left).take (maxKeySize - 1) = (textBytes right).take (maxKeySize - 1) := by
  constructor
  · intro same
    exact List.map_injective_iff.mpr byteChar_injective (String.ofList_injective same)
  · intro same
    exact congrArg (fun bytes => String.ofList (bytes.map fun byte => Char.ofNat byte.toNat)) same

theorem keyPrint_injective {left right : String} (leftFits : left.utf8ByteSize < maxKeySize)
    (rightFits : right.utf8ByteSize < maxKeySize) (same : keyPrint left = keyPrint right) :
    left = right := by
  have whole : ∀ text : String, text.utf8ByteSize < maxKeySize →
      (textBytes text).take (maxKeySize - 1) = textBytes text := by
    intro text fits
    apply List.take_of_length_le
    have size := length_textBytes text
    omega
  have bytes := keyPrint_eq_iff.mp same
  rw [whole left leftFits, whole right rightFits] at bytes
  exact textBytes_injective bytes

theorem ObjectPath.no_colon {path : String} (isPath : ObjectPath path) : ':' ∉ path.toList := by
  intro listed
  exact absurd (List.all_eq_true.mp isPath.2 ':' listed) (by decide)

theorem ObjectPath.takeWhile {path : String} (isPath : ObjectPath path) (rest : List Char) :
    (path.toList ++ ':' :: rest).takeWhile (· != ':') = path.toList := by
  rw [List.takeWhile_append_of_pos]
  · simp
  · intro char listed
    simpa using ne_of_mem_of_not_mem listed isPath.no_colon

/-- The key tells the path and the interface. -/
theorem key_injective {path path' interface interface' : String} (isPath : ObjectPath path)
    (isPath' : ObjectPath path') (fits : Fits path interface) (fits' : Fits path' interface')
    (same : Family.ofono.key path interface = Family.ofono.key path' interface') :
    path = path' ∧ interface = interface' := by
  have texts := congrArg String.toList (keyPrint_injective fits fits' same)
  simp only [String.toList_append, List.append_assoc] at texts
  have colon : ":".toList = [':'] := rfl
  simp only [colon, List.singleton_append] at texts
  have front := congrArg (List.takeWhile (· != ':')) texts
  rw [isPath.takeWhile, isPath'.takeWhile] at front
  obtain rfl := String.toList_injective front
  refine ⟨rfl, ?_⟩
  have back := List.append_cancel_left texts
  exact String.toList_injective (List.cons.inj back).2

/-! ## Lists of interfaces -/

/-- The interface of modems themselves. -/
def modemInterface : String := "org.ofono.Modem"

/-- The lists whose match drops just what vanishes and adds nothing: one of them is
empty, the new list is the front of the old one, or the walk looks at the whole old
list and ends at an item that vanishes, where nothing vanishes but that item. The
interface of the modem itself may stay registered. -/
def InterfacesKept (old new : List Item) : Prop :=
  old = [] ∨ new = [] ∨ (new <+: old ∧ ∀ item ∈ old.drop new.length, item ∉ new) ∨
    (¬ new.Sublist old ∧ new.Subperm old ∧ (new.length = old.length ∨
      ∀ last, old.getLast? = some last → last ∉ new ∧
        ∀ item ∈ old, item ∉ new → item = last ∨ item = .str modemInterface))

/-- What the match of two lists of interfaces has to do. -/
structure MatchSound (old new : List Item) : Prop where
  adds : Semantics.CursorDiff.added old new = []
  known : ∀ item ∈ matchLookups .ofono "Interfaces" old new, item ∈ old
  spares : ∀ item ∈ matchLookups .ofono "Interfaces" old new, item ∉ new
  drops : ∀ item ∈ old, item ∉ new → item ≠ .str modemInterface →
    item ∈ matchLookups .ofono "Interfaces" old new

theorem matchSound_nil (old : List Item) : MatchSound old [] := by
  have lookups : matchLookups .ofono "Interfaces" old [] = old := by
    simp [matchLookups, Semantics.CursorDiff.leftover, Semantics.CursorDiff.reclaim]
  refine ⟨by simp [Semantics.CursorDiff.added, Semantics.CursorDiff.reclaim], by simp [lookups],
    by simp, ?_⟩
  intro item listed _ _
  rw [lookups]
  exact listed

theorem matchSound_append {new rest : List Item} (apart : ∀ item ∈ rest, item ∉ new) :
    MatchSound (new ++ rest) new := by
  obtain ⟨setAside, oldRest⟩ := Semantics.CursorDiff.walk_append new rest
  have finished := (Semantics.CursorDiff.walk_newRest_eq_nil_iff (new ++ rest) new).mpr
    (List.sublist_append_left new rest)
  obtain ⟨leftover, added⟩ := Semantics.CursorDiff.leftover_of_finished finished
  have lookups : matchLookups .ofono "Interfaces" (new ++ rest) new = rest := by
    rw [matchLookups, leftover, setAside, oldRest]
    rfl
  refine ⟨added, ?_, ?_, ?_⟩
  · rw [lookups]
    exact fun item listed => List.mem_append_right _ listed
  · rw [lookups]
    exact apart
  · intro item listed vanishes _
    rw [lookups]
    exact (List.mem_append.mp listed).resolve_left vanishes

/-- A walk over the whole old list looks up its last item for all that vanish. -/
theorem lookups_of_unfinished {old new : List Item} (unfinished : ¬ new.Sublist old) {item : Item} :
    item ∈ matchLookups .ofono "Interfaces" old new ↔
      Semantics.CursorDiff.leftover old new ≠ [] ∧ old.getLast? = some item := by
  have newRest : (Semantics.CursorDiff.walk old new).newRest ≠ [] := fun none =>
    unfinished ((Semantics.CursorDiff.walk_newRest_eq_nil_iff old new).mp none)
  have oldRest := (Semantics.CursorDiff.walk_exhausts old new).resolve_right newRest
  have lastSeen := Semantics.CursorDiff.walk_lastSeen_of_newRest newRest
  have kept := Semantics.CursorDiff.count_removed old new
  rw [matchLookups, oldRest, lastSeen, List.append_nil]
  cases last : old.getLast? with
  | none =>
      obtain rfl := List.getLast?_eq_none_iff.mp last
      have none : Semantics.CursorDiff.leftover [] new = [] := by
        rw [List.eq_nil_iff_forall_not_mem]
        intro item listed
        have counted := kept item
        have positive : 0 < (Semantics.CursorDiff.removed [] new).count item := by
          rw [List.count_pos_iff, Semantics.CursorDiff.removed]
          exact List.mem_append_left _ listed
        rw [List.count_nil] at counted
        omega
      simp [none]
  | some final =>
      have looked : deletedItem .ofono "Interfaces" (some final) = fun _ => final := by
        funext data
        rfl
      rw [looked, List.map_const', List.mem_replicate, Option.some.injEq, ne_eq,
        List.length_eq_zero_iff]
      exact and_congr_right fun _ => eq_comm

theorem matchSound_of_kept {old new : List Item} (kept : InterfacesKept old new)
    (nonempty : old ≠ []) : MatchSound old new := by
  rcases kept with empty | rfl | ⟨⟨rest, rfl⟩, apart⟩ | ⟨unfinished, subperm, final⟩
  · exact absurd empty nonempty
  · exact matchSound_nil old
  · rw [List.drop_left] at apart
    exact matchSound_append apart
  · have newRest : (Semantics.CursorDiff.walk old new).newRest ≠ [] := fun none =>
      unfinished ((Semantics.CursorDiff.walk_newRest_eq_nil_iff old new).mp none)
    have oldRest := (Semantics.CursorDiff.walk_exhausts old new).resolve_right newRest
    have added : Semantics.CursorDiff.added old new = [] := by
      rw [Semantics.CursorDiff.added_eq_nil_iff]
      intro item
      exact subperm.count_le item
    have leftover : ∀ item, item ∈ Semantics.CursorDiff.leftover old new ↔
        new.count item < old.count item := by
      intro item
      rw [← Semantics.CursorDiff.mem_removed, Semantics.CursorDiff.removed, oldRest, List.append_nil]
    have known : ∀ item ∈ matchLookups .ofono "Interfaces" old new, item ∈ old := fun item looked =>
      List.mem_of_getLast? ((lookups_of_unfinished unfinished).mp looked).2
    rcases final with sameLength | vanishes
    · -- a permutation: nothing is looked up, and nothing vanishes
      have perm := subperm.perm_of_length_le sameLength.ge
      have none : Semantics.CursorDiff.leftover old new = [] := by
        rw [List.eq_nil_iff_forall_not_mem]
        intro item listed
        have fewer := (leftover item).mp listed
        rw [perm.count_eq] at fewer
        exact Nat.lt_irrefl _ fewer
      refine ⟨added, known, ?_, ?_⟩
      · intro item looked
        exact absurd none ((lookups_of_unfinished unfinished).mp looked).1
      · intro item listed gone
        exact absurd (perm.mem_iff.mpr listed) gone
    · refine ⟨added, known, ?_, ?_⟩
      · intro item looked
        exact (vanishes item ((lookups_of_unfinished unfinished).mp looked).2).1
      · intro item listed gone notModem
        obtain ⟨last, isLast⟩ := Option.ne_none_iff_exists'.mp
          (fun none => nonempty (List.getLast?_eq_none_iff.mp none))
        obtain rfl := ((vanishes last isLast).2 item listed gone).resolve_right notModem
        refine (lookups_of_unfinished unfinished).mpr ⟨?_, isLast⟩
        refine List.ne_nil_of_mem ((leftover item).mpr ?_)
        rw [List.count_eq_zero_of_not_mem gone]
        exact List.count_pos_iff.mpr listed

/-! ## States of ofono -/

/-- An element keyed by the path and the interface is registered. -/
def Registered (state : State) (path interface : String) : Prop :=
  ∃ e element, elementGet .ofono state path interface = some e ∧ state.elements e = some element ∧
    element.path = path ∧ element.interface = interface

/-- The items of an array. -/
def Value.items : Value → List Item
  | .array (some stored) => stored.items
  | _ => []

/-- What an element last received for the property. -/
def State.received (state : State) (e : ElementId) (name : String) : Option Value :=
  propsGet (state.propsOf e) name

/-- The names of elements fit their keys, and the lists that are matched were
received as lists of such names. -/
structure Proper (state : State) : Prop where
  wf : TableWf .ofono state
  names : ∀ e element, state.elements e = some element →
    ObjectPath element.path ∧ Fits element.path element.interface
  modems : ∀ e value, state.received e "Modems" = some value → ∀ item ∈ value.items,
    ∃ path, item = .str path ∧ ObjectPath path ∧ Fits path modemInterface
  interfaces : ∀ e path value, state.HasPath e path → state.received e "Interfaces" = some value →
    value = .array none ∨ ∃ items, value = .array (some ⟨.string, items⟩) ∧ items ≠ [] ∧
      ∀ item ∈ items, ∃ interface, item = .str interface ∧ Fits path interface

/-- The key of a modem. -/
def ModemKey (key : String) : Prop :=
  ∃ path, ObjectPath path ∧ Fits path modemInterface ∧ Family.ofono.key path modemInterface = key

/-- Only elements with the keys change, and no list of interfaces. -/
structure Steady (keys : String → Prop) (before after : State) : Prop where
  find : ∀ key, ¬ keys key → after.find key = before.find key
  fresh : ∀ key e, after.find key = some e → before.find key = some e ∨ before.elements e = none
  received : ∀ e, after.received e "Interfaces" = before.received e "Interfaces"
  named : ∀ e, Named before after e
  proper : Proper after

section States

variable {before middle after : State} {e : ElementId} {path interface : String}

theorem Proper.registered_iff (proper : Proper state) :
    Registered state path interface ↔ ObjectPath path ∧ Fits path interface ∧
      state.find (Family.ofono.key path interface) ≠ none := by
  constructor
  · rintro ⟨e, element, found, alive, rfl, rfl⟩
    obtain ⟨isPath, fits⟩ := proper.names e element alive
    refine ⟨isPath, fits, ?_⟩
    rw [elementGet] at found
    rw [found]
    simp
  · rintro ⟨isPath, fits, present⟩
    obtain ⟨e, found⟩ := Option.ne_none_iff_exists'.mp present
    obtain ⟨element, alive, isKey, -⟩ := proper.wf.found found
    obtain ⟨isPath', fits'⟩ := proper.names e element alive
    obtain ⟨samePath, sameInterface⟩ := key_injective isPath isPath' fits fits' isKey
    exact ⟨e, element, found, alive, samePath.symm, sameInterface.symm⟩

theorem received_of_unborn (unborn : state.elements e = none) (name : String) :
    state.received e name = none := by
  simp [State.received, State.propsOf, unborn, propsGet]

theorem hasPath_of_named (named : Named before after e) (alive : before.elements e ≠ none)
    (hasPath : after.HasPath e path) : before.HasPath e path := by
  obtain ⟨element, found⟩ := Option.ne_none_iff_exists'.mp alive
  obtain ⟨inAfter, foundAfter, samePath, -⟩ := named element found
  obtain ⟨other, foundOther, rfl⟩ := hasPath
  obtain rfl := Option.some.inj (foundAfter.symm.trans foundOther)
  exact ⟨element, found, samePath.symm⟩

theorem Steady.refl {keys : String → Prop} (proper : Proper state) : Steady keys state state where
  find _ _ := rfl
  fresh _ _ found := Or.inl found
  received _ := rfl
  named e := .refl state e
  proper := proper

theorem Steady.trans {keys : String → Prop} (left : Steady keys before middle)
    (right : Steady keys middle after) : Steady keys before after where
  find key other := (right.find key other).trans (left.find key other)
  fresh key e found := by
    rcases right.fresh key e found with inMiddle | new
    · exact left.fresh key e inMiddle
    · refine Or.inr ?_
      by_contra old
      exact (left.named e).alive old new
  received e := (right.received e).trans (left.received e)
  named e := (left.named e).trans (right.named e)
  proper := right.proper

/-- An effect that registers elements with proper names. -/
theorem Effect.proper {gained : String → String → Prop} {lost : String → Prop}
    (effect : Effect .ofono before after gained lost)
    (named : ∀ path interface, gained path interface → ObjectPath path ∧ Fits path interface)
    (proper : Proper before) : Proper after := by
  have received : ∀ e name, after.received e name = before.received e name := fun e name => by
    rw [State.received, effect.props, State.received]
  refine ⟨effect.wf, ?_, ?_, ?_⟩
  · intro e element alive
    cases unborn : before.elements e with
    | none => exact named _ _ (effect.born e element unborn alive)
    | some element' =>
        obtain ⟨same, found, path, interface⟩ := effect.named e element' unborn
        obtain rfl := Option.some.inj (found.symm.trans alive)
        rw [path, interface]
        exact proper.names e element' unborn
  · intro e value isValue
    rw [received] at isValue
    exact proper.modems e value isValue
  · intro e path value hasPath isValue
    rw [received] at isValue
    refine proper.interfaces e path value (hasPath_of_named (effect.named e) ?_ hasPath) isValue
    intro unborn
    rw [received_of_unborn unborn] at isValue
    cases isValue

theorem Effect.steady {gained : String → String → Prop} {lost keys : String → Prop}
    (effect : Effect .ofono before after gained lost)
    (named : ∀ path interface, gained path interface → ObjectPath path ∧ Fits path interface)
    (covered : ∀ key, Gains .ofono gained key ∨ lost key → keys key) (proper : Proper before) :
    Steady keys before after := by
  refine ⟨?_, effect.fresh, ?_, effect.named, effect.proper named proper⟩
  · intro key other
    exact effect.find_eq (fun isLost => other (covered key (Or.inr isLost)))
      fun gains => other (covered key (Or.inl gains))
  · intro e
    rw [State.received, effect.props, State.received]

theorem Steady.registered {keys : String → Prop} (steady : Steady keys before after)
    (proper : Proper before) (other : ¬ keys (Family.ofono.key path interface)) :
    Registered after path interface ↔ Registered before path interface := by
  rw [steady.proper.registered_iff, proper.registered_iff, steady.find _ other]

/-- The registered interfaces of each modem are those of the list it received. -/
def InterfacesExact (state : State) : Prop :=
  ∀ e path value, elementGet .ofono state path modemInterface = some e → state.HasPath e path →
    state.received e "Interfaces" = some value → ∀ interface, interface ≠ modemInterface →
      (Registered state path interface ↔ .str interface ∈ value.items)

theorem Steady.interfacesExact {keys : String → Prop} (steady : Steady keys before after)
    (modem : ∀ key, keys key → ModemKey key) (proper : Proper before)
    (exact : InterfacesExact before) : InterfacesExact after := by
  intro e path value found hasPath isValue interface notModem
  have received := isValue
  rw [steady.received] at received
  rcases steady.fresh _ e found with wasFound | unborn
  · have alive : before.elements e ≠ none := by
      obtain ⟨element, alive, -⟩ := proper.wf.found wasFound
      simp [alive]
    have hadPath := hasPath_of_named (steady.named e) alive hasPath
    have isPath : ObjectPath path := by
      obtain ⟨element, alive, rfl⟩ := hasPath
      exact (steady.proper.names e element alive).1
    rw [← exact e path value wasFound hadPath received interface notModem]
    by_cases fits : Fits path interface
    · refine steady.registered proper fun isKey => ?_
      obtain ⟨path', isPath', fits', same⟩ := modem _ isKey
      exact notModem (key_injective isPath' isPath fits' fits same).2.symm
    · rw [steady.proper.registered_iff, proper.registered_iff]
      simp [fits]
  · rw [received_of_unborn unborn] at received
    cases received

/-! ## Updates of other properties -/

/-- A value is an array of object paths. -/
def Wire.isPathList : Wire → Bool
  | .array .empty => true
  | .array (.objectPaths _ _) => true
  | _ => false

/-- A value is an array of strings. -/
def Wire.isStringList : Wire → Bool
  | .array .empty => true
  | .array (.strings _ _) => true
  | _ => false

/-- Only the manager has a list of modems, and only modems have one of interfaces. -/
def Conforms (interface name : String) (wire : Wire) : Prop :=
  (∀ path ∈ wire.paths, ObjectPath path) ∧
  (name = "Modems" → interface = Family.ofono.managerInterface ∧ wire.isPathList = true) ∧
  (name = "Interfaces" → interface = modemInterface ∧ wire.isStringList = true)

/-- The keys of the modems in the value are not cut off. -/
def ModemsFit (name : String) (wire : Wire) : Prop :=
  name = "Modems" → ∀ path ∈ wire.paths, Fits path modemInterface

theorem getInterface_ofono {name : String} :
    Family.ofono.getInterface name = some interface ↔ name = "Modems" ∧ interface = modemInterface := by
  unfold Family.getInterface modemInterface
  split <;> simp_all [eq_comm]

theorem mem_value_of_pathList {wire : Wire} (isPathList : wire.isPathList = true) {item : Item}
    (listed : item ∈ (wire.value .ofono).items) : ∃ path ∈ wire.paths, item = .str path := by
  cases wire with
  | basic value => cases isPathList
  | other type isZero => cases isPathList
  | array items =>
      cases items with
      | empty => cases listed
      | objectPaths first rest =>
          obtain ⟨path, isListed, rfl⟩ := List.mem_map.mp listed
          exact ⟨path, isListed, rfl⟩
      | strings first rest => cases isPathList
      | bytes first rest => cases isPathList
      | entries first rest => cases isPathList
      | other => cases isPathList

/-- The lists that are matched are those of the stored and of the received value. -/
theorem updateMatches_items {name : String} {wire : Wire} {old : ElementArray}
    {new : Option ElementArray} (matches' : UpdateMatches .ofono state e name wire old new) :
    ∃ stored, state.received e name = some stored ∧ stored = .array (some old) ∧
      new.elim [] ElementArray.items = (wire.value .ofono).items := by
  obtain ⟨stored, known, matched⟩ := matches'
  refine ⟨stored, known, ?_⟩
  unfold Value.matched at matched
  split at matched
  · rename_i old' new' isNew
    obtain ⟨rfl, rfl⟩ := Prod.mk.inj (Option.some.inj matched)
    refine ⟨rfl, ?_⟩
    rw [isNew]
    cases new' <;> rfl
  · cases matched

/-- The pairs registered for another property are modems in its value. -/
theorem updateAdds_modem {name elementPath : String} {wire : Wire} (other : name ≠ "Interfaces")
    (conforms : Conforms interface name wire) (fit : ModemsFit name wire) {path interface' : String}
    (adds : UpdateAdds .ofono state e elementPath name wire path interface') :
    name = "Modems" ∧ interface' = modemInterface ∧ ObjectPath path ∧ Fits path modemInterface := by
  rcases adds with ⟨listed, mapped⟩ | ⟨old, new, updates, -, item, added, isItem, addsItem⟩
  · obtain ⟨isModems, isModem⟩ := getInterface_ofono.mp mapped
    exact ⟨isModems, isModem, conforms.1 path listed, fit isModems path listed⟩
  · have mapped := (addsItem.resolve_left fun interfaces => other interfaces.1.2).2
    obtain ⟨isModems, isModem⟩ := getInterface_ofono.mp mapped
    obtain ⟨stored, -, -, items⟩ := updateMatches_items updates
    have inNew : item ∈ (wire.value .ofono).items := by
      rw [items, Semantics.CursorDiff.mem_added] at added
      exact List.count_pos_iff.mp (Nat.zero_lt_of_lt added)
    obtain ⟨path', listed, isPath⟩ := mem_value_of_pathList (conforms.2.1 isModems).2 inNew
    obtain rfl := Item.str.inj (isItem.symm.trans isPath)
    exact ⟨isModems, isModem, conforms.1 path listed, fit isModems path listed⟩

/-- The keys dropped for another property are those of modems. -/
theorem updateDrops_modem (proper : Proper state) {name elementPath key : String} {wire : Wire}
    (other : name ≠ "Interfaces")
    (drops : UpdateDrops .ofono state e elementPath name wire key) :
    name = "Modems" ∧ ModemKey key := by
  obtain ⟨old, new, updates, -, item, looked, isKey⟩ := drops
  obtain ⟨stored, known, rfl, -⟩ := updateMatches_items updates
  have same : ∀ lastSeen, deletedItem .ofono name lastSeen = id := by
    intro lastSeen
    funext item
    simp [deletedItem, other]
  rw [matchLookups, same, List.map_id, ← Semantics.CursorDiff.removed,
    Semantics.CursorDiff.mem_removed] at looked
  have inOld : item ∈ old.items := List.count_pos_iff.mp (Nat.zero_lt_of_lt looked)
  cases item with
  | str text =>
      simp only [Family.lookupKey, if_true, if_neg other, Option.map_eq_some_iff] at isKey
      obtain ⟨interface, mapped, rfl⟩ := isKey
      obtain ⟨rfl, rfl⟩ := getInterface_ofono.mp mapped
      obtain ⟨path, isPath, proper', fits⟩ := proper.modems e _ known _ inOld
      obtain rfl := Item.str.inj isPath
      exact ⟨rfl, text, proper', fits, rfl⟩
  | byte value => cases isKey
  | entry value => cases isKey

theorem received_setProperty (alive : state.elements e ≠ none) (name : String) (value : Value)
    (other : ElementId) (otherName : String) :
    (state.modify e (Element.setProperty name value)).received other otherName =
      if other = e ∧ otherName = name then some value else state.received other otherName := by
  unfold State.received
  rw [propsOf_setProperty alive]
  by_cases here : other = e
  · subst here
    rw [if_pos rfl, propsGet_propsSet]
    simp
  · rw [if_neg here, if_neg fun both => here both.1]

theorem Proper.setProperty (proper : Proper state) (alive : state.elements e ≠ none) (name : String)
    (value : Value)
    (modems : name = "Modems" → ∀ item ∈ value.items,
      ∃ path, item = .str path ∧ ObjectPath path ∧ Fits path modemInterface)
    (interfaces : name = "Interfaces" → ∀ path, state.HasPath e path → value = .array none ∨
      ∃ items, value = .array (some ⟨.string, items⟩) ∧ items ≠ [] ∧
        ∀ item ∈ items, ∃ interface, item = .str interface ∧ Fits path interface) :
    Proper (state.modify e (Element.setProperty name value)) := by
  have received := received_setProperty alive name value
  have named := named_modify state e (Element.setProperty name value) (fun _ => rfl) fun _ => rfl
  refine ⟨proper.wf.modify e _ (fun _ => rfl) (fun _ => rfl) fun _ => rfl, ?_, ?_, ?_⟩
  · intro e' element found
    rw [modify_elements] at found
    split at found
    · obtain ⟨element', alive', rfl⟩ := Option.map_eq_some_iff.mp found
      exact proper.names e' element' alive'
    · exact proper.names e' element found
  · intro e' value' isValue item listed
    rw [received] at isValue
    split at isValue
    · rename_i updated
      obtain rfl := Option.some.inj isValue
      exact modems updated.2.symm item listed
    · exact proper.modems e' value' isValue item listed
  · intro e' path value' hasPath isValue
    rw [received] at isValue
    split at isValue
    · rename_i updated
      obtain ⟨rfl, isInterfaces⟩ := updated
      obtain rfl := Option.some.inj isValue
      exact interfaces isInterfaces.symm path (hasPath_of_named (named e') alive hasPath)
    · refine proper.interfaces e' path value' (hasPath_of_named (named e') ?_ hasPath) isValue
      intro unborn
      rw [received_of_unborn unborn] at isValue
      cases isValue

theorem steady_setProperty (proper : Proper state) (alive : state.elements e ≠ none)
    {name : String} {wire : Wire} (other : name ≠ "Interfaces")
    (conforms : Conforms interface name wire) (fit : ModemsFit name wire) {keys : String → Prop} :
    Steady keys state (state.modify e (Element.setProperty name (wire.value .ofono))) := by
  refine ⟨fun key _ => find_modify state e _ key,
    fun key e' found => Or.inl ((find_modify state e _ key).symm.trans found), ?_,
    named_modify state e _ (fun _ => rfl) fun _ => rfl,
    proper.setProperty alive name _ ?_ fun isInterfaces => absurd isInterfaces other⟩
  · intro e'
    rw [received_setProperty alive, if_neg fun both => other both.2.symm]
  · intro isModems item listed
    obtain ⟨path, inWire, rfl⟩ := mem_value_of_pathList (conforms.2.1 isModems).2 listed
    exact ⟨path, rfl, conforms.1 path inWire, fit isModems path inWire⟩

/-- An update of another property registers and unregisters modems at most, and
only if it is one of the list of modems. -/
theorem propertyReceive_steady (accepts : CallId → Bool) (proper : Proper state)
    (hasPath : state.HasPath e path) (again : Bool) {name : String} {wire : Wire}
    (other : name ≠ "Interfaces") (conforms : Conforms interface name wire)
    (fit : ModemsFit name wire) :
    Steady (fun key => name = "Modems" ∧ ModemKey key) state
      (propertyReceive accepts .ofono again state e name wire).1 := by
  have effect := updateMatched_effect accepts proper.wf hasPath name wire
  have matched : Steady (fun key => name = "Modems" ∧ ModemKey key) state
      (updateMatched accepts .ofono state e name wire) := by
    refine effect.steady ?_ ?_ proper
    · intro path interface adds
      obtain ⟨-, rfl, isPath, fits⟩ := updateAdds_modem other conforms fit adds
      exact ⟨isPath, fits⟩
    · rintro key (⟨path, interface, adds, rfl⟩ | drops)
      · obtain ⟨isModems, rfl, isPath, fits⟩ := updateAdds_modem other conforms fit adds
        exact ⟨isModems, path, isPath, fits, rfl⟩
      · exact updateDrops_modem proper other drops
  obtain ⟨element, alive, -⟩ := (effect.named e).hasPath hasPath
  have unchanged : ∀ state changed, (if changed = true then
      (interfacesRegister accepts .ofono again state e name wire, true) else (state, changed)).1 =
      state := by
    intro state changed
    simp only [interfacesRegister, other, and_false, if_false]
    split <;> rfl
  have after : (propertyReceive accepts .ofono again state e name wire).1 =
      (updateMatched accepts .ofono state e name wire).modify e
        (Element.setProperty name (wire.value .ofono)) :=
    (unchanged _ _).trans (propertyValueAdd_fst accepts proper.wf hasPath name wire)
  rw [after]
  exact matched.trans (steady_setProperty matched.proper (by simp [alive]) other conforms fit)

/-! ## Updates of the interfaces -/

/-- The list of interfaces that an element last received. -/
def State.interfaces (state : State) (e : ElementId) : List Item :=
  ((state.received e "Interfaces").map Value.items).getD []

theorem interfaces_of_received {value : Value} (known : state.received e "Interfaces" = some value) :
    state.interfaces e = value.items := by
  rw [State.interfaces, known]
  rfl

/-- A list of interfaces that a modem can receive without a fault: the match of the
two lists drops what vanishes, the keys are not cut off, and if it is the first
list, it has all interfaces that are registered. -/
structure UpdateKept (state : State) (e : ElementId) (path : String) (wire : Wire) : Prop where
  kept : InterfacesKept (state.interfaces e) (wire.value .ofono).items
  fits : ∀ interface, .str interface ∈ (wire.value .ofono).items → Fits path interface
  first : state.received e "Interfaces" = none → ∀ interface, interface ≠ modemInterface →
    Registered state path interface → .str interface ∈ (wire.value .ofono).items

/-- The registered interfaces of a path are replaced by those of a received list. -/
structure Replaced (e : ElementId) (path : String) (wire : Wire) (before after : State) : Prop where
  find : ∀ interface, Fits path interface → interface ≠ modemInterface →
    (after.find (Family.ofono.key path interface) ≠ none ↔
      .str interface ∈ (wire.value .ofono).items)
  keep : ∀ interface, Fits path interface → .str interface ∈ (wire.value .ofono).items →
    ∀ other, before.find (Family.ofono.key path interface) = some other →
      after.find (Family.ofono.key path interface) = some other
  elsewhere : ∀ key, (∀ interface, Fits path interface → Family.ofono.key path interface ≠ key) →
    after.find key = before.find key
  fresh : ∀ key e, after.find key = some e → before.find key = some e ∨ before.elements e = none
  received : ∀ other name, after.received other name =
    if other = e ∧ name = "Interfaces" then some (wire.value .ofono) else before.received other name
  named : ∀ e, Named before after e
  proper : Proper after

theorem value_of_stringList {wire : Wire} (isStringList : wire.isStringList = true) :
    wire.paths = [] ∧ (wire.value .ofono = .array none ∨
      ∃ items, wire.value .ofono = .array (some ⟨.string, items⟩) ∧ items ≠ [] ∧
        ∀ item ∈ items, ∃ interface, item = .str interface) := by
  cases wire with
  | basic value => cases isStringList
  | other type isZero => cases isStringList
  | array items =>
      cases items with
      | empty => exact ⟨rfl, Or.inl rfl⟩
      | strings first rest =>
          refine ⟨rfl, Or.inr ⟨_, rfl, by simp, ?_⟩⟩
          intro item listed
          obtain ⟨interface, -, rfl⟩ := List.mem_map.mp listed
          exact ⟨interface, rfl⟩
      | objectPaths first rest => cases isStringList
      | bytes first rest => cases isStringList
      | entries first rest => cases isStringList
      | other => cases isStringList

theorem interfaceRegister_effect (accepts : CallId → Bool) (wf : TableWf .ofono state)
    (hasPath : state.HasPath e path) (again : Bool) (item : Item) :
    Effect .ofono state (interfaceRegister accepts again e state item)
      (fun path' interface => path' = path ∧ item = .str interface) Nowhere := by
  obtain ⟨element, found, rfl⟩ := hasPath
  cases item with
  | str text =>
      simp only [interfaceRegister, found]
      have first := elementRegister_effect wf element.path text
      have registered : Effect .ofono state
          (if again = true then elementRegister .ofono (elementRegister .ofono state element.path text).1
            element.path text else elementRegister .ofono state element.path text).1
          (fun path' interface' => path' = element.path ∧ interface' = text) Nowhere := by
        split
        · refine (first.gain_trans (elementRegister_effect first.wf element.path text)).congr ?_
            fun _ => Iff.rfl
          intro path' interface'
          exact or_self_iff
        · exact first
      refine (registered.gain_trans (messageSend_effect accepts registered.wf _ .propertiesGet true
        false)).congr ?_ fun _ => Iff.rfl
      intro path' interface'
      simp [Nothing, eq_comm]
  | byte value =>
      have effect : Effect .ofono state state
          (fun path' interface => path' = element.path ∧ Item.byte value = .str interface) Nowhere :=
        (Effect.refl wf).congr (by simp [Nothing]) fun _ => Iff.rfl
      exact effect.settle rfl rfl rfl
  | entry value =>
      have effect : Effect .ofono state state
          (fun path' interface => path' = element.path ∧ Item.entry value = .str interface) Nowhere :=
        (Effect.refl wf).congr (by simp [Nothing]) fun _ => Iff.rfl
      exact effect.settle rfl rfl rfl

theorem interfacesRegister_effect (accepts : CallId → Bool) (wf : TableWf .ofono state)
    (hasPath : state.HasPath e path) (again : Bool) {wire : Wire}
    (isStringList : wire.isStringList = true) :
    Effect .ofono state (interfacesRegister accepts .ofono again state e "Interfaces" wire)
      (fun path' interface => path' = path ∧ .str interface ∈ (wire.value .ofono).items) Nowhere := by
  cases wire with
  | basic value => cases isStringList
  | other type isZero => cases isStringList
  | array items =>
      have same : (arrayBuild .ofono items).elim [] ElementArray.items =
          (Wire.value .ofono (.array items)).items := by
        simp only [Wire.value]
        cases arrayBuild .ofono items <;> rfl
      simp only [interfacesRegister, and_self, if_true, same]
      refine (Effect.foldl_gain
        (fun state item wf located => interfaceRegister_effect accepts wf (located rfl) again item) _ wf
        fun _ => hasPath).congr ?_ fun _ => Iff.rfl
      intro path' interface'
      simp [and_comm]

theorem propertyReceive_interfaces (accepts : CallId → Bool) (wf : TableWf .ofono state)
    (hasPath : state.HasPath e path) (again : Bool) {wire : Wire}
    (isStringList : wire.isStringList = true) :
    (propertyReceive accepts .ofono again state e "Interfaces" wire).1 =
      interfacesRegister accepts .ofono again
        ((updateMatched accepts .ofono state e "Interfaces" wire).modify e
          (Element.setProperty "Interfaces" (wire.value .ofono))) e "Interfaces" wire := by
  have stored := propertyValueAdd_fst accepts wf hasPath "Interfaces" wire
  have decoded := wireDecode_effect accepts wf hasPath "Interfaces" wire
  obtain ⟨element, found, -⟩ := (decoded.named e).hasPath hasPath
  have isArray : ∃ items, wire.value .ofono = .array items := by
    rcases (value_of_stringList isStringList).2 with none | ⟨items, some, -⟩
    · exact ⟨_, none⟩
    · exact ⟨_, some⟩
  have changed : (propertyValueAdd accepts .ofono (wireDecode accepts .ofono state "Interfaces" wire) e
      "Interfaces" (wire.value .ofono)).2 = true := by
    obtain ⟨items, isItems⟩ := isArray
    unfold propertyValueAdd
    simp only [found, isItems]
    split
    · rfl
    · exact Bool.or_true _
  rw [← stored]
  unfold propertyReceive
  simp only [changed, if_true]

/-- The interfaces that an element received fit their keys. -/
theorem fits_of_received (proper : Proper state) (hasPath : state.HasPath e path)
    (listed : .str interface ∈ state.interfaces e) : Fits path interface := by
  unfold State.interfaces at listed
  cases known : state.received e "Interfaces" with
  | none => simp [known] at listed
  | some value =>
      rw [known] at listed
      rcases proper.interfaces e path value hasPath known with rfl | ⟨items, rfl, -, fit⟩
      · cases listed
      · obtain ⟨interface', same, fits⟩ := fit _ listed
        obtain rfl := Item.str.inj same
        exact fits

/-- The keys dropped for the interfaces are looked up for the list of the element. -/
theorem updateDrops_interfaces (proper : Proper state) (hasPath : state.HasPath e path) {wire : Wire}
    (isStringList : wire.isStringList = true) (key : String) :
    UpdateDrops .ofono state e path "Interfaces" wire key ↔ state.interfaces e ≠ [] ∧
      ∃ interface, .str interface ∈ matchLookups .ofono "Interfaces" (state.interfaces e)
        (wire.value .ofono).items ∧ Family.ofono.key path interface = key := by
  constructor
  · rintro ⟨old, new, updates, -, item, looked, isKey⟩
    obtain ⟨stored, known, rfl, items⟩ := updateMatches_items updates
    have isOld : state.interfaces e = old.items := interfaces_of_received known
    rcases proper.interfaces e path _ hasPath known with none | ⟨list, isList, nonempty, -⟩
    · cases none
    · obtain rfl := Option.some.inj (Value.array.inj isList)
      rw [items] at looked
      rw [isOld]
      refine ⟨nonempty, ?_⟩
      cases item with
      | str interface =>
          refine ⟨interface, looked, ?_⟩
          simpa [Family.lookupKey] using isKey
      | byte value => cases isKey
      | entry value => cases isKey
  · rintro ⟨nonempty, interface, looked, rfl⟩
    have isArray : ∃ new, wire.value .ofono = .array new := by
      rcases (value_of_stringList isStringList).2 with none | ⟨items, some, -⟩
      · exact ⟨_, none⟩
      · exact ⟨_, some⟩
    obtain ⟨new, received⟩ := isArray
    cases known : state.received e "Interfaces" with
    | none => simp [State.interfaces, known] at nonempty
    | some value =>
        rcases proper.interfaces e path value hasPath known with rfl | ⟨list, rfl, -, -⟩
        · simp [State.interfaces, known, Value.items] at nonempty
        · have isOld : state.interfaces e = list := interfaces_of_received known
          refine ⟨⟨.string, list⟩, new, ⟨_, known, by rw [received]; rfl⟩, rfl, .str interface, ?_, rfl⟩
          rw [isOld, received] at looked
          cases new <;> exact looked

/-- First what vanishes is unregistered, and nothing is registered. -/
theorem updateMatched_interfaces (accepts : CallId → Bool) (proper : Proper state)
    (hasPath : state.HasPath e path) {wire : Wire} (isStringList : wire.isStringList = true)
    (kept : UpdateKept state e path wire) :
    Effect .ofono state (updateMatched accepts .ofono state e "Interfaces" wire) Nothing
      (UpdateDrops .ofono state e path "Interfaces" wire) := by
  refine (updateMatched_effect accepts proper.wf hasPath "Interfaces" wire).congr ?_ fun _ => Iff.rfl
  intro path' interface'
  refine ⟨?_, fun impossible => impossible.elim⟩
  rintro (⟨listed, -⟩ | ⟨old, new, updates, -, item, added, -⟩)
  · rw [(value_of_stringList isStringList).1] at listed
    cases listed
  · obtain ⟨stored, known, rfl, items⟩ := updateMatches_items updates
    have isOld : state.interfaces e = old.items := interfaces_of_received known
    rcases proper.interfaces e path _ hasPath known with none | ⟨list, isList, nonempty, -⟩
    · cases none
    · obtain rfl := Option.some.inj (Value.array.inj isList)
      have sound := matchSound_of_kept kept.kept (by rwa [isOld])
      rw [items, ← isOld, sound.adds] at added
      cases added

/-- The list is stored. -/
theorem proper_setInterfaces (proper : Proper state) (hasPath : state.HasPath e path) {wire : Wire}
    (isStringList : wire.isStringList = true)
    (fits : ∀ interface, .str interface ∈ (wire.value .ofono).items → Fits path interface) :
    Proper (state.modify e (Element.setProperty "Interfaces" (wire.value .ofono))) := by
  obtain ⟨element, alive, rfl⟩ := hasPath
  refine proper.setProperty (by simp [alive]) "Interfaces" _ (fun isModems => absurd isModems (by decide)) ?_
  rintro - path ⟨element', alive', rfl⟩
  obtain rfl := Option.some.inj (alive.symm.trans alive')
  rcases (value_of_stringList isStringList).2 with none | ⟨items, isItems, nonempty, strings⟩
  · exact Or.inl none
  · refine Or.inr ⟨items, isItems, nonempty, ?_⟩
    intro item listed
    obtain ⟨interface, rfl⟩ := strings item listed
    refine ⟨interface, rfl, fits interface ?_⟩
    rw [isItems]
    exact listed

/-- A list of interfaces that a modem can receive without a fault replaces the one
before. -/
theorem interfaces_replaced (accepts : CallId → Bool) (proper : Proper state)
    (exact' : InterfacesExact state) (found : elementGet .ofono state path modemInterface = some e)
    (hasPath : state.HasPath e path) (again : Bool) {wire : Wire}
    (isStringList : wire.isStringList = true) (kept : UpdateKept state e path wire) :
    Replaced e path wire state (propertyReceive accepts .ofono again state e "Interfaces" wire).1 := by
  have isPath : ObjectPath path := by
    obtain ⟨element, alive, rfl⟩ := hasPath
    exact (proper.names e element alive).1
  have drops := updateDrops_interfaces proper hasPath isStringList
  have first := updateMatched_interfaces accepts proper hasPath isStringList kept
  have firstPath := (first.named e).hasPath hasPath
  have firstProper := first.proper (fun _ _ impossible => impossible.elim) proper
  have setProper := proper_setInterfaces firstProper firstPath isStringList kept.fits
  rw [propertyReceive_interfaces accepts proper.wf hasPath again isStringList]
  have setNamed := named_modify (updateMatched accepts .ofono state e "Interfaces" wire) e
    (Element.setProperty "Interfaces" (wire.value .ofono)) (fun _ => rfl) fun _ => rfl
  have setFind := find_modify (updateMatched accepts .ofono state e "Interfaces" wire) e
    (Element.setProperty "Interfaces" (wire.value .ofono))
  have firstAlive : (updateMatched accepts .ofono state e "Interfaces" wire).elements e ≠ none := by
    obtain ⟨element, alive, -⟩ := firstPath
    simp [alive]
  have setReceived := received_setProperty firstAlive "Interfaces" (wire.value .ofono)
  have second := interfacesRegister_effect accepts setProper.wf ((setNamed e).hasPath firstPath) again
    isStringList
  generalize interfacesRegister accepts .ofono again _ e "Interfaces" wire = after at second ⊢
  generalize (updateMatched accepts .ofono state e "Interfaces" wire).modify e _ = stored at *
  generalize updateMatched accepts .ofono state e "Interfaces" wire = matched at *
  have lost_of_key : ∀ interface, Fits path interface →
      UpdateDrops .ofono state e path "Interfaces" wire (Family.ofono.key path interface) →
      .str interface ∉ (wire.value .ofono).items := by
    intro interface fits lost
    obtain ⟨nonempty, interface', looked, same⟩ := (drops _).mp lost
    have sound := matchSound_of_kept kept.kept nonempty
    have fits' := fits_of_received proper hasPath (sound.known _ looked)
    obtain ⟨-, rfl⟩ := key_injective isPath isPath fits' fits same
    exact sound.spares _ looked
  refine ⟨?_, ?_, ?_, ?_, ?_, ?_, ?_⟩
  · intro interface fits notModem
    constructor
    · intro present
      rcases (second.gain _ id).mp present with stays | ⟨path', interface', ⟨rfl, listed⟩, same⟩
      · -- what stays registered was registered before, and is looked up if it vanishes
        rw [setFind] at stays
        have undropped := mt (first.lose (Family.ofono.key path interface)) stays
        have before := ((first.gain _ undropped).mp stays).resolve_right (not_gains_nothing _ _)
        have registered := proper.registered_iff.mpr ⟨isPath, fits, before⟩
        cases known : state.received e "Interfaces" with
        | none => exact kept.first known interface notModem registered
        | some value =>
            have listed := (exact' e path value found hasPath known interface notModem).mp registered
            rw [← interfaces_of_received known] at listed
            by_contra vanishes
            have nonempty := List.ne_nil_of_mem listed
            refine undropped ((drops _).mpr ⟨nonempty, interface, ?_, rfl⟩)
            exact (matchSound_of_kept kept.kept nonempty).drops _ listed vanishes
              (by simpa using notModem)
      · obtain ⟨-, rfl⟩ := key_injective isPath isPath (kept.fits _ listed) fits same
        exact listed
    · intro listed
      exact (second.gain _ id).mpr (Or.inr ⟨path, interface, ⟨rfl, listed⟩, rfl⟩)
  · intro interface fits listed other before
    have undropped := fun lost => lost_of_key interface fits lost listed
    exact second.keep _ other id ((setFind _).trans (first.keep _ other undropped before))
  · intro key different
    have ungained : ¬ Gains .ofono (fun path' interface => path' = path ∧
        .str interface ∈ (wire.value .ofono).items) key := by
      rintro ⟨path', interface, ⟨rfl, listed⟩, same⟩
      exact different interface (kept.fits _ listed) same
    have undropped : ¬ UpdateDrops .ofono state e path "Interfaces" wire key := by
      intro lost
      obtain ⟨nonempty, interface, looked, same⟩ := (drops _).mp lost
      have sound := matchSound_of_kept kept.kept nonempty
      exact different interface (fits_of_received proper hasPath (sound.known _ looked)) same
    rw [second.find_eq id ungained, setFind, first.find_eq undropped (not_gains_nothing _ _)]
  · intro key x present
    rcases second.fresh key x present with inStored | unborn
    · exact first.fresh key x ((setFind key).symm.trans inStored)
    · refine Or.inr ?_
      by_contra alive
      exact (setNamed x).alive (first.alive x alive) unborn
  · intro other name
    rw [State.received, second.props, ← State.received, setReceived]
    refine if_congr Iff.rfl rfl ?_
    rw [State.received, first.props, ← State.received]
  · exact fun x => ((first.named x).trans (setNamed x)).trans (second.named x)
  · refine second.proper ?_ setProper
    rintro path' interface ⟨rfl, listed⟩
    exact ⟨isPath, kept.fits interface listed⟩

theorem Replaced.interfacesExact {wire : Wire} (replaced : Replaced e path wire before after)
    (proper : Proper before) (exact' : InterfacesExact before)
    (found : elementGet .ofono before path modemInterface = some e) (hasPath : before.HasPath e path)
    (fits : ∀ interface, .str interface ∈ (wire.value .ofono).items → Fits path interface) :
    InterfacesExact after := by
  intro x otherPath value foundAfter hasOtherPath isValue interface notModem
  have received := isValue
  rw [replaced.received] at received
  have isOtherPath : ObjectPath otherPath := by
    obtain ⟨element, alive, rfl⟩ := hasOtherPath
    exact (replaced.proper.names x element alive).1
  have samePath : after.HasPath e path := (replaced.named e).hasPath hasPath
  by_cases updated : x = e
  · subst updated
    obtain ⟨element, alive, rfl⟩ := samePath
    obtain ⟨element', alive', rfl⟩ := hasOtherPath
    obtain rfl := Option.some.inj (alive.symm.trans alive')
    rw [if_pos ⟨rfl, rfl⟩] at received
    obtain rfl := Option.some.inj received
    rw [replaced.proper.registered_iff]
    by_cases fit : Fits element.path interface
    · rw [← replaced.find interface fit notModem]
      exact ⟨fun all => all.2.2, fun present => ⟨isOtherPath, fit, present⟩⟩
    · exact iff_of_false (fun all => fit all.2.1) fun listed => fit (fits interface listed)
  · rw [if_neg fun both => updated both.1] at received
    rcases replaced.fresh _ x foundAfter with wasFound | unborn
    · have different : path ≠ otherPath := by
        rintro rfl
        exact updated (Option.some.inj (wasFound.symm.trans found))
      obtain ⟨element, alive, -⟩ := proper.wf.found wasFound
      have hadPath := hasPath_of_named (replaced.named x) (by simp [alive]) hasOtherPath
      rw [← exact' x otherPath value wasFound hadPath received interface notModem,
        replaced.proper.registered_iff, proper.registered_iff]
      refine and_congr_right fun _ => and_congr_right fun fit => ?_
      rw [replaced.elsewhere]
      intro interface' fits' same
      have isPath : ObjectPath path := by
        obtain ⟨own, ownAlive, rfl⟩ := hasPath
        exact (proper.names e own ownAlive).1
      exact different (key_injective isPath isOtherPath fits' fit same).1
    · rw [received_of_unborn unborn] at received
      cases received

end States

/-! ## Messages -/

/-- The properties that a message gives values. -/
def Message.updates : Message → List (String × Wire)
  | .properties _ received => received
  | .propertyChanged _ name wire => [(name, wire)]

/-- The list of interfaces in a message. -/
def Message.interfaces (message : Message) : Option Wire := message.updates.lookup "Interfaces"

/-- A message as ofono sends it to one of its elements. -/
def OfonoMessage (state : State) (message : Message) : Prop :=
  message.element ∈ state.table.map Prod.snd ∧ (message.updates.map Prod.fst).Nodup ∧
    ∃ element ∈ state.elements message.element,
      ∀ update ∈ message.updates, Conforms element.interface update.1 update.2

instance (interface name : String) (wire : Wire) : Decidable (Conforms interface name wire) :=
  inferInstanceAs (Decidable (_ ∧ _ ∧ _))

instance (name : String) (wire : Wire) : Decidable (ModemsFit name wire) :=
  inferInstanceAs (Decidable (_ → _))

instance (state : State) (message : Message) : Decidable (OfonoMessage state message) :=
  inferInstanceAs (Decidable (_ ∧ _ ∧ _))

/-- The messages of ofono to its elements. -/
def ofonoMessages (accepts : CallId → Bool) : Semantics.Machine State Message :=
  ⟨fun state message =>
    if OfonoMessage state message then some (receive accepts .ofono state message) else none⟩

/-- The list of interfaces in the message can be received without a fault, and the
keys of modems are not cut off. -/
structure MessageKept (state : State) (message : Message) : Prop where
  interfaces : ∀ wire path, message.interfaces = some wire → state.HasPath message.element path →
    UpdateKept state message.element path wire
  modems : ∀ update ∈ message.updates, ModemsFit update.1 update.2

/-- A message replaces the list of interfaces. The registered interfaces of every
modem are those of its list, an element listed before and after stays registered,
and no element is registered under an interface in place of a path. -/
structure InterfacesFollow (state : State) (message : Message) (next : State) : Prop where
  follow : InterfacesExact next
  stored : ∀ wire, message.interfaces = some wire →
    next.received message.element "Interfaces" = some (wire.value .ofono)
  kept : ∀ wire path interface e, message.interfaces = some wire →
    state.HasPath message.element path → .str interface ∈ state.interfaces message.element →
    .str interface ∈ (wire.value .ofono).items → elementGet .ofono state path interface = some e →
    elementGet .ofono next path interface = some e
  paths : ∀ key e, next.find key = some e →
    ∃ element, next.elements e = some element ∧ ObjectPath element.path

section Messages

variable {e : ElementId} {path interface : String}

theorem propertiesReceive_append (family : Family) (e : ElementId)
    (first second : List (String × Wire)) (received : State × Bool) :
    propertiesReceive accepts family e received (first ++ second) =
      propertiesReceive accepts family e (propertiesReceive accepts family e received first) second := by
  induction first generalizing received with
  | nil => rfl
  | cons update rest ih => exact ih _

theorem propertiesReceive_cons (family : Family) (e : ElementId) (name : String) (wire : Wire)
    (rest : List (String × Wire)) (received : State × Bool) :
    propertiesReceive accepts family e received ((name, wire) :: rest) =
      propertiesReceive accepts family e
        ((propertyReceive accepts family false received.1 e name wire).1,
          received.2 || (propertyReceive accepts family false received.1 e name wire).2) rest := rfl

/-- Updates of other properties are steady. -/
theorem propertiesReceive_steady (accepts : CallId → Bool) {keys : String → Prop}
    (updates : List (String × Wire))
    (other : ∀ update ∈ updates, update.1 ≠ "Interfaces" ∧ Conforms interface update.1 update.2 ∧
      ModemsFit update.1 update.2 ∧ (update.1 = "Modems" → ∀ key, ModemKey key → keys key)) :
    ∀ received : State × Bool, Proper received.1 → received.1.HasPath e path →
      Steady keys received.1 (propertiesReceive accepts .ofono e received updates).1 := by
  induction updates with
  | nil => exact fun _ proper _ => .refl proper
  | cons update rest ih =>
      obtain ⟨name, wire⟩ := update
      intro received proper hasPath
      obtain ⟨notInterfaces, conforms, fit, covered⟩ := other (name, wire) List.mem_cons_self
      have here := propertyReceive_steady accepts proper hasPath false notInterfaces conforms fit
      have here : Steady keys received.1
          (propertyReceive accepts .ofono false received.1 e name wire).1 :=
        { here with find := fun key free => here.find key fun modem => free (covered modem.1 key modem.2) }
      have later := ih (fun update listed => other update (.tail _ listed))
        ((propertyReceive accepts .ofono false received.1 e name wire).1, received.2 ||
          (propertyReceive accepts .ofono false received.1 e name wire).2)
        here.proper ((here.named e).hasPath hasPath)
      exact here.trans later

theorem listenersCall_steady (proper : Proper state) (e : ElementId) {keys : String → Prop} :
    Steady keys state (listenersCall state e) := by
  refine (listenersCall_effect proper.wf e).steady (fun _ _ impossible => impossible.elim) ?_ proper
  rintro key (gains | impossible)
  · exact absurd gains (not_gains_nothing _ _)
  · exact impossible.elim

theorem Steady.interfaces {keys : String → Prop} {before after : State}
    (steady : Steady keys before after) (e : ElementId) : after.interfaces e = before.interfaces e := by
  rw [State.interfaces, steady.received, State.interfaces]

theorem UpdateKept.steady {before after : State} {wire : Wire}
    (kept : UpdateKept before e path wire) (steady : Steady Nowhere before after)
    (proper : Proper before) : UpdateKept after e path wire where
  kept := by
    rw [steady.interfaces]
    exact kept.kept
  fits := kept.fits
  first unreceived interface notModem registered := by
    rw [steady.received] at unreceived
    exact kept.first unreceived interface notModem ((steady.registered proper id).mp registered)

/-- The state after the properties of a message were received. -/
def updated (accepts : CallId → Bool) (state : State) : Message → State
  | .properties e properties => (propertiesReceive accepts .ofono e (state, false) properties).1
  | .propertyChanged e name wire => (propertyReceive accepts .ofono true state e name wire).1

theorem receive_steady (message : Message) (proper : Proper (updated accepts state message)) :
    Steady Nowhere (updated accepts state message) (receive accepts .ofono state message) := by
  cases message with
  | properties e properties =>
      simp only [receive, getPropertiesCallback]
      split
      · exact listenersCall_steady proper e
      · exact .refl proper
  | propertyChanged e name wire =>
      simp only [receive, propertyChangedCallback]
      split
      · exact listenersCall_steady proper e
      · exact .refl proper

theorem paths_of_proper (proper : Proper state) {key : String} (found : state.find key = some e) :
    ∃ element, state.elements e = some element ∧ ObjectPath element.path := by
  obtain ⟨element, alive, -⟩ := proper.wf.found found
  exact ⟨element, alive, (proper.names e element alive).1⟩

/-- A message without a list of interfaces. -/
theorem updated_steady (accepts : CallId → Bool) (proper : Proper state) {message : Message}
    (isMessage : OfonoMessage state message) (kept : MessageKept state message)
    (without : message.interfaces = none) :
    Steady ModemKey state (updated accepts state message) := by
  obtain ⟨-, -, element, alive, conforms⟩ := isMessage
  have hasPath : state.HasPath message.element element.path := ⟨element, alive, rfl⟩
  have other : ∀ update ∈ message.updates, update.1 ≠ "Interfaces" := by
    intro update listed isInterfaces
    have absent := List.lookup_eq_none_iff.mp without update listed
    simp [isInterfaces] at absent
  cases message with
  | properties e properties =>
      exact propertiesReceive_steady accepts properties
        (fun update listed => ⟨other update listed, conforms update listed, kept.modems update listed,
          fun _ _ modem => modem⟩) (state, false) proper hasPath
  | propertyChanged e name wire =>
      have only : (name, wire) ∈ (Message.propertyChanged e name wire).updates := List.mem_singleton_self _
      have steady := propertyReceive_steady accepts proper hasPath true (other _ only) (conforms _ only)
        (kept.modems _ only)
      exact { steady with find := fun key free => steady.find key fun modem => free modem.2 }

/-- A message with a list of interfaces: what it does before and after the list is
received changes nothing else. -/
theorem updated_interfaces (accepts : CallId → Bool) (proper : Proper state) {message : Message}
    (isMessage : OfonoMessage state message) (kept : MessageKept state message) {wire : Wire}
    (isInterfaces : message.interfaces = some wire) :
    ∃ before again, Steady Nowhere state before ∧ ∀ element ∈ state.elements message.element,
      element.interface = modemInterface ∧ wire.isStringList = true ∧
      (Proper (propertyReceive accepts .ofono again before message.element "Interfaces" wire).1 →
        (propertyReceive accepts .ofono again before message.element "Interfaces" wire).1.HasPath
          message.element element.path →
        Steady Nowhere (propertyReceive accepts .ofono again before message.element "Interfaces" wire).1
          (updated accepts state message)) := by
  obtain ⟨-, nodup, element, alive, conforms⟩ := isMessage
  have hasPath : state.HasPath message.element element.path := ⟨element, alive, rfl⟩
  have isElement : ∀ other ∈ state.elements message.element, other = element := fun other isOther =>
    Option.some.inj (isOther.symm.trans alive)
  cases message with
  | propertyChanged e name wire' =>
      obtain ⟨rfl, rfl⟩ : "Interfaces" = name ∧ wire' = wire := by
        simp only [Message.interfaces, Message.updates, List.lookup_cons, List.lookup_nil] at isInterfaces
        split at isInterfaces
        · rename_i isName
          exact ⟨by simpa using isName, Option.some.inj isInterfaces⟩
        · cases isInterfaces
      refine ⟨state, true, .refl proper, fun other isOther => ?_⟩
      obtain rfl := isElement other isOther
      obtain ⟨isModem, isStringList⟩ := (conforms _ (List.mem_singleton_self _)).2.2 rfl
      exact ⟨isModem, isStringList, fun proper _ => .refl proper⟩
  | properties e properties =>
      obtain ⟨front, back, isSplit, first⟩ := List.lookup_eq_some_iff.mp isInterfaces
      simp only [Message.updates] at isSplit nodup conforms
      subst isSplit
      have isModem := (conforms ("Interfaces", wire) (by simp)).2.2 rfl
      have quiet : ∀ update ∈ front ++ back, update.1 ≠ "Interfaces" ∧
          Conforms element.interface update.1 update.2 ∧ ModemsFit update.1 update.2 ∧
          (update.1 = "Modems" → ∀ key, ModemKey key → Nowhere key) := by
        intro update listed
        have inAll : update ∈ front ++ ("Interfaces", wire) :: back := by
          rcases List.mem_append.mp listed with inFront | inBack
          · exact List.mem_append_left _ inFront
          · exact List.mem_append_right _ (.tail _ inBack)
        have conform := conforms update inAll
        refine ⟨?_, conform, kept.modems update inAll, ?_⟩
        · rcases List.mem_append.mp listed with inFront | inBack
          · intro same
            simpa [same] using first update inFront
          · rw [List.map_append, List.map_cons, List.nodup_append] at nodup
            intro same
            exact (List.nodup_cons.mp nodup.2.1).1 (List.mem_map.mpr ⟨update, inBack, same⟩)
        · intro isModems
          have isManager := (conform.2.1 isModems).1
          rw [isModem.1] at isManager
          exact absurd isManager (by decide)
      have before := propertiesReceive_steady accepts front
        (fun update listed => quiet update (List.mem_append_left _ listed)) (state, false) proper hasPath
      refine ⟨_, false, before, fun other isOther => ?_⟩
      obtain rfl := isElement other isOther
      have after : ∀ received : State × Bool, Proper received.1 → received.1.HasPath e other.path →
          Steady Nowhere received.1 (propertiesReceive accepts .ofono e received back).1 :=
        propertiesReceive_steady accepts back fun update listed =>
          quiet update (List.mem_append_right _ listed)
      refine ⟨isModem.1, isModem.2, fun proper hasPath => ?_⟩
      simp only [updated, Message.element] at proper hasPath ⊢
      rw [propertiesReceive_append, propertiesReceive_cons]
      generalize ((propertiesReceive accepts .ofono e (state, false) front).2 || _) = changed
      exact after (_, changed) proper hasPath

/-- One message to ofono. -/
theorem receive_follow (accepts : CallId → Bool) (proper : Proper state)
    (exact' : InterfacesExact state) (message : Message) (isMessage : OfonoMessage state message)
    (kept : MessageKept state message) :
    Proper (receive accepts .ofono state message) ∧
      InterfacesFollow state message (receive accepts .ofono state message) := by
  cases isInterfaces : message.interfaces with
  | none =>
      have received := updated_steady accepts proper isMessage kept isInterfaces
      have steady := receive_steady message received.proper
      refine ⟨steady.proper, ?_, ?_, ?_, fun key e found => paths_of_proper steady.proper found⟩
      · exact steady.interfacesExact (fun _ impossible => impossible.elim) received.proper
          (received.interfacesExact (fun _ modem => modem) proper exact')
      · intro wire isSome
        rw [isInterfaces] at isSome
        cases isSome
      · intro wire path interface e isSome
        rw [isInterfaces] at isSome
        cases isSome
  | some wire =>
      obtain ⟨before, again, steadyBefore, rest⟩ :=
        updated_interfaces accepts proper isMessage kept isInterfaces
      obtain ⟨registered, -, element, alive, -⟩ := isMessage
      obtain ⟨isModem, isStringList, steadyAfter⟩ := rest element alive
      have hasPath : state.HasPath message.element element.path := ⟨element, alive, rfl⟩
      have hadPath := (steadyBefore.named message.element).hasPath hasPath
      have found : elementGet .ofono state element.path modemInterface = some message.element := by
        obtain ⟨⟨key, e⟩, entry, isElement⟩ := List.mem_map.mp registered
        obtain ⟨own, ownAlive, isKey, -⟩ := proper.wf.entryAlive key e entry
        obtain rfl : e = message.element := isElement
        obtain rfl := Option.some.inj (alive.symm.trans ownAlive)
        rw [elementGet, ← isModem, ← isKey]
        exact proper.wf.find_iff.mpr entry
      have updateKept := kept.interfaces wire element.path isInterfaces hasPath
      have keptBefore := updateKept.steady steadyBefore proper
      have exactBefore := steadyBefore.interfacesExact (fun _ impossible => impossible.elim) proper exact'
      have foundBefore : elementGet .ofono before element.path modemInterface = some message.element :=
        (steadyBefore.find _ id).trans found
      have replaced := interfaces_replaced accepts steadyBefore.proper exactBefore foundBefore hadPath again
        isStringList keptBefore
      have exactReplaced := replaced.interfacesExact steadyBefore.proper exactBefore foundBefore hadPath
        keptBefore.fits
      have steadyUpdated := steadyAfter replaced.proper ((replaced.named message.element).hasPath hadPath)
      have steady := steadyUpdated.trans (receive_steady message steadyUpdated.proper)
      refine ⟨steady.proper, ?_, ?_, ?_, fun key e found => paths_of_proper steady.proper found⟩
      · exact steady.interfacesExact (fun _ impossible => impossible.elim) replaced.proper exactReplaced
      · intro wire' isSome
        obtain rfl := Option.some.inj (isInterfaces.symm.trans isSome)
        rw [steady.received, replaced.received, if_pos ⟨rfl, rfl⟩]
      · intro wire' path interface e isSome hasPath' _ listed isFound
        obtain rfl := Option.some.inj (isInterfaces.symm.trans isSome)
        obtain ⟨element', alive', rfl⟩ := hasPath'
        obtain rfl := Option.some.inj (alive.symm.trans alive')
        rw [elementGet] at isFound ⊢
        rw [steady.find _ id]
        exact replaced.keep interface (updateKept.fits interface listed) listed e
          ((steadyBefore.find _ id).trans isFound)

end Messages

theorem managerStart_proper (accepts : CallId → Bool) : Proper (managerStart accepts .ofono) := by
  have start := initial_tableWf .ofono
  have empty : Proper State.initial := by
    refine ⟨start, ?_, ?_, ?_⟩
    · rintro e element alive
      cases alive
    · intro e value isValue
      cases isValue
    · intro e path value hasPath isValue
      cases isValue
  have registered := elementRegister_effect start "/" Family.ofono.managerInterface
  have properRegistered := registered.proper (by
    rintro path interface ⟨rfl, rfl⟩
    decide) empty
  exact (messageSend_effect accepts registered.wf _ .propertiesGet true false).proper
    (fun _ _ impossible => impossible.elim) properRegistered

theorem managerStart_interfacesExact (accepts : CallId → Bool) :
    InterfacesExact (managerStart accepts .ofono) := by
  have start := initial_tableWf .ofono
  have registered := elementRegister_effect start "/" Family.ofono.managerInterface
  have called := messageSend_effect accepts registered.wf
    (elementRegister .ofono State.initial "/" Family.ofono.managerInterface).2 .propertiesGet true false
  intro e path value _ _ isValue
  have noProps : (managerStart accepts .ofono).propsOf e = [] :=
    (called.props e).trans ((registered.props e).trans rfl)
  rw [State.received, noProps] at isValue
  cases isValue

/-- Along a run of messages of ofono whose lists of interfaces can be received without
a fault, the registered interfaces follow the lists. -/
theorem interfaces_follow_along (accepts : CallId → Bool) (run : List Message)
    (kept : (ofonoMessages accepts).Along (fun state message _ => MessageKept state message)
      (managerStart accepts .ofono) run) :
    (ofonoMessages accepts).Along InterfacesFollow (managerStart accepts .ofono) run := by
  refine Semantics.Machine.along_of_condition (fun state => Proper state ∧ InterfacesExact state) ?_
    ⟨managerStart_proper accepts, managerStart_interfacesExact accepts⟩ kept
  rintro state message next ⟨proper, exact'⟩ stepped messageKept
  simp only [ofonoMessages, Option.ite_none_right_eq_some, Option.some.injEq] at stepped
  obtain ⟨isMessage, rfl⟩ := stepped
  obtain ⟨properNext, follow⟩ := receive_follow accepts proper exact' message isMessage messageKept
  exact ⟨⟨properNext, follow.follow⟩, follow⟩

/-- A list of strings. -/
def stringList (first : String) (rest : List String) : Wire := .array (.strings first rest)

/-- A modem gets two interfaces, and loses one. -/
def interfacesShrink : List Message :=
  [.propertyChanged 0 "Modems" (pathList "/modem" []),
    .properties 1 [("Powered", .basic (.boolean true)),
      ("Interfaces", stringList "org.ofono.SimManager" ["org.ofono.CallVolume"])],
    .propertyChanged 1 "Interfaces" (stringList "org.ofono.SimManager" [])]

theorem interfaces_follow_along_interfacesShrink :
    (ofonoMessages fun _ => true).Along InterfacesFollow (managerStart (fun _ => true) .ofono)
      interfacesShrink := by
  refine interfaces_follow_along (fun _ => true) interfacesShrink ?_
  refine (Semantics.Machine.along_cons rfl).mpr ⟨⟨?_, ?_⟩, ?_⟩
  · intro wire path without
    cases without
  · intro update listed _ path isModem
    obtain rfl := List.mem_singleton.mp listed
    obtain rfl := List.mem_singleton.mp isModem
    decide
  refine (Semantics.Machine.along_cons rfl).mpr ⟨⟨?_, by decide⟩, ?_⟩
  · intro wire path isInterfaces hasPath
    obtain rfl := Option.some.inj isInterfaces
    obtain ⟨element, alive, rfl⟩ := hasPath
    obtain rfl := Option.some.inj alive
    refine ⟨Or.inl rfl, fun interface listed => ?_, ?_⟩
    · rcases List.mem_cons.mp listed with first | second
      · obtain rfl := Item.str.inj first
        decide
      · obtain rfl := Item.str.inj (List.mem_singleton.mp second)
        decide
    · -- only the manager and the modem are registered
      rintro - interface notModem ⟨e, element, found, alive, samePath, rfl⟩
      have listed : e ∈ [0, 1] := List.mem_map_of_mem (f := Prod.snd) (Semantics.Keyed.mem_of_lookup found)
      rcases List.mem_cons.mp listed with rfl | second
      · obtain rfl := Option.some.inj alive
        exact absurd samePath (by decide)
      · obtain rfl := List.mem_singleton.mp second
        obtain rfl := Option.some.inj alive
        exact absurd rfl notModem
  refine (Semantics.Machine.along_cons rfl).mpr ⟨⟨?_, by decide⟩, trivial⟩
  · intro wire path isInterfaces hasPath
    obtain rfl := Option.some.inj isInterfaces
    obtain ⟨element, alive, rfl⟩ := hasPath
    obtain rfl := Option.some.inj alive
    refine ⟨Or.inr (Or.inr (Or.inl ?_)), fun interface listed => ?_, fun unreceived => ?_⟩
    · exact ⟨by decide, by decide⟩
    · obtain rfl := Item.str.inj (List.mem_singleton.mp listed)
      decide
    · cases unreceived

/-- A modem gets a second interface. -/
def interfacesGrow : List Message :=
  [.propertyChanged 0 "Modems" (pathList "/modem" []),
    .propertyChanged 1 "Interfaces" (stringList "org.ofono.SimManager" []),
    .propertyChanged 1 "Interfaces" (stringList "org.ofono.SimManager" ["org.ofono.CallVolume"])]

/-- The second interface is registered as if it were the path of the modem. -/
theorem interfaces_fail_interfacesGrow :
    ¬ ∀ (accepts : CallId → Bool) (run : List Message),
      (ofonoMessages accepts).Along InterfacesFollow (managerStart accepts .ofono) run := by
  intro always
  have first := ((Semantics.Machine.along_cons rfl).mp (always (fun _ => true) interfacesGrow)).2
  have second := ((Semantics.Machine.along_cons rfl).mp first).2
  have third := ((Semantics.Machine.along_cons rfl).mp second).1
  obtain ⟨element, alive, isPath⟩ := third.paths "org.ofono.CallVolume:/modem" 3 (by decide)
  obtain rfl := Option.some.inj alive
  exact absurd isPath (by decide)

end EDBus.Elements
