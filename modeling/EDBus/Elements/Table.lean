import EDBus.Elements.Store
import EDBus.Semantics.Keyed

/-!
# Facts about the element table

`TableWf` says that the table lists live elements under their own keys. What a
message does to a module is a sequence of registrations, unregistrations, calls
and property changes, so `Closed` collects what a fact about states must survive
for it to survive every message.
-/

namespace EDBus.Elements

variable {family : Family} {accepts : CallId → Bool} {state : State}

/-! ## Single operations -/

@[simp] theorem modify_table (state : State) (e : ElementId) (change : Element → Element) :
    (state.modify e change).table = state.table := by
  unfold State.modify
  split <;> rfl

@[simp] theorem modify_handlers (state : State) (e : ElementId) (change : Element → Element) :
    (state.modify e change).handlers = state.handlers := by
  unfold State.modify
  split <;> rfl

@[simp] theorem modify_nextElement (state : State) (e : ElementId) (change : Element → Element) :
    (state.modify e change).nextElement = state.nextElement := by
  unfold State.modify
  split <;> rfl

theorem modify_elements (state : State) (e other : ElementId) (change : Element → Element) :
    (state.modify e change).elements other =
      if other = e then (state.elements other).map change else state.elements other := by
  unfold State.modify
  split
  · rename_i gone
    by_cases here : other = e
    · simp [here, gone]
    · simp [here]
  · rename_i element found
    by_cases here : other = e
    · simp [here, found]
    · simp [here]

theorem elements_modify_ne_none (state : State) (e : ElementId) (change : Element → Element)
    (other : ElementId) :
    (state.modify e change).elements other ≠ none ↔ state.elements other ≠ none := by
  rw [modify_elements]
  split <;> simp

@[simp] theorem find_modify (state : State) (e : ElementId) (change : Element → Element)
    (key : String) : (state.modify e change).find key = state.find key := by
  simp [State.find]

/-- The table lists live elements, each under its own key. -/
structure TableWf (family : Family) (state : State) : Prop where
  keysNodup : (state.table.map Prod.fst).Nodup
  entryAlive : ∀ key e, (key, e) ∈ state.table → ∃ element, state.elements e = some element ∧
    key = family.key element.path element.interface ∧ element.signalHandler = true
  fresh : ∀ e, state.nextElement ≤ e → state.elements e = none

theorem initial_tableWf (family : Family) : TableWf family State.initial := by
  constructor <;> simp [State.initial]

theorem TableWf.find_iff (wf : TableWf family state) {key : String} {e : ElementId} :
    state.find key = some e ↔ (key, e) ∈ state.table :=
  ⟨Semantics.Keyed.mem_of_lookup, Semantics.Keyed.lookup_of_mem wf.keysNodup⟩

/-- An element found in the table is alive, and has the key it was found under. -/
theorem TableWf.found (wf : TableWf family state) {key : String} {e : ElementId}
    (found : state.find key = some e) : ∃ element, state.elements e = some element ∧
      key = family.key element.path element.interface ∧ element.signalHandler = true :=
  wf.entryAlive key e (Semantics.Keyed.mem_of_lookup found)

theorem TableWf.find_injective (wf : TableWf family state) {first second : String} {e : ElementId}
    (left : state.find first = some e) (right : state.find second = some e) : first = second := by
  obtain ⟨element, alive, firstKey, _⟩ := wf.found left
  obtain ⟨other, otherAlive, secondKey, _⟩ := wf.found right
  obtain rfl : element = other := Option.some.inj (alive.symm.trans otherAlive)
  rw [firstKey, secondKey]

/-- The table after a change that keeps its elements. -/
theorem TableWf.modify (wf : TableWf family state) (e : ElementId) (change : Element → Element)
    (path : ∀ element, (change element).path = element.path)
    (interface : ∀ element, (change element).interface = element.interface)
    (signalHandler : ∀ element, (change element).signalHandler = element.signalHandler) :
    TableWf family (state.modify e change) := by
  constructor
  · simpa using wf.keysNodup
  · intro key other listed
    rw [modify_table] at listed
    obtain ⟨element, alive, isKey, handled⟩ := wf.entryAlive key other listed
    rw [modify_elements]
    by_cases here : other = e
    · refine ⟨change element, by simp [here] at alive ⊢; simp [alive], ?_, ?_⟩
      · rw [path, interface, isKey]
      · rw [signalHandler, handled]
    · exact ⟨element, by simpa [here] using alive, isKey, handled⟩
  · intro other young
    rw [modify_nextElement] at young
    rw [modify_elements, wf.fresh other young]
    simp

/-- Only elements, table and counter matter. -/
theorem TableWf.congr {other : State} (wf : TableWf family state)
    (elements : other.elements = state.elements) (table : other.table = state.table)
    (nextElement : other.nextElement = state.nextElement) : TableWf family other := by
  obtain ⟨keysNodup, entryAlive, fresh⟩ := wf
  constructor
  · rw [table]
    exact keysNodup
  · rw [table, elements]
    exact entryAlive
  · rw [nextElement, elements]
    exact fresh

/-! ## Registering -/

theorem eventAdd_tableWf (wf : TableWf family state) (event : Event) (e : ElementId) :
    TableWf family (eventAdd state event e) :=
  (wf.modify e Element.addReference (fun _ => rfl) (fun _ => rfl) fun _ => rfl).congr rfl rfl rfl

@[simp] theorem find_eventAdd (state : State) (event : Event) (e : ElementId) (key : String) :
    (eventAdd state event e).find key = state.find key := by
  simp [eventAdd, ecoreEventAdd, State.find]

theorem find_elementInsert (state : State) (path interface key : String)
    (absent : elementGet family state path interface = none) :
    (elementInsert family state path interface).find key =
      if key = family.key path interface then some state.nextElement else state.find key := by
  unfold elementGet State.find at absent
  simp only [State.find, elementInsert, Semantics.Keyed.lookup_append_single]
  split
  · rename_i isKey
    subst isKey
    rw [absent, Option.none_or]
  · simp

theorem elementInsert_tableWf (wf : TableWf family state) {path interface : String}
    (absent : elementGet family state path interface = none) :
    TableWf family (elementInsert family state path interface) := by
  have unlisted : family.key path interface ∉ state.table.map Prod.fst := by
    intro listed
    obtain ⟨⟨key, e⟩, entry, isKey⟩ := List.mem_map.mp listed
    have found := wf.find_iff.mpr entry
    rw [show key = family.key path interface from isKey] at found
    rw [elementGet, found] at absent
    cases absent
  constructor
  · simp only [elementInsert, List.map_append, List.map_cons, List.map_nil]
    rw [List.nodup_append]
    refine ⟨wf.keysNodup, by simp, ?_⟩
    intro key listed other isNew
    rw [List.mem_singleton] at isNew
    rintro rfl
    exact unlisted (isNew ▸ listed)
  · intro key e listed
    simp only [elementInsert, List.mem_append, List.mem_singleton, Prod.mk.injEq] at listed ⊢
    rcases listed with before | ⟨rfl, rfl⟩
    · obtain ⟨element, alive, isKey, handled⟩ := wf.entryAlive key e before
      have old : e ≠ state.nextElement := by
        rintro rfl
        rw [wf.fresh _ (Nat.le_refl _)] at alive
        cases alive
      exact ⟨element, by rw [Function.update_of_ne old, alive], isKey, handled⟩
    · exact ⟨_, Function.update_self .., rfl, rfl⟩
  · intro e young
    simp only [elementInsert] at young ⊢
    have old : e ≠ state.nextElement := by
      rintro rfl
      exact Nat.lt_irrefl _ young
    rw [Function.update_of_ne old]
    exact wf.fresh e (Nat.le_of_succ_le young)

theorem elementRegister_tableWf (wf : TableWf family state) (path interface : String) :
    TableWf family (elementRegister family state path interface).1 := by
  unfold elementRegister
  split
  · exact wf
  · rename_i absent
    exact eventAdd_tableWf (elementInsert_tableWf wf absent) .add _

/-- Afterwards the element is registered under its key. -/
theorem find_elementRegister (state : State) (path interface key : String) :
    (elementRegister family state path interface).1.find key =
      if key = family.key path interface then
        some (elementRegister family state path interface).2
      else state.find key := by
  unfold elementRegister
  split
  · rename_i e present
    split
    · rename_i isKey
      rw [isKey]
      exact present
    · rfl
  · rename_i absent
    simp only [find_eventAdd]
    exact find_elementInsert state path interface key absent

/-! ## Unregistering -/

theorem unregisterInternal_find (state : State) (e : ElementId) (key : String) :
    (unregisterInternal state e).find key = state.find key := by
  unfold unregisterInternal
  split <;> rfl

theorem find_hashDel (state : State) (key other : String) :
    (hashDel state key).find other = if other = key then none else state.find other := by
  unfold hashDel
  split
  · rename_i absent
    split
    · rename_i isKey
      rw [isKey, absent]
    · rfl
  · rw [unregisterInternal_find]
    exact Semantics.Keyed.lookup_filter_ne state.table key other

theorem unregisterInternal_tableWf (wf : TableWf family state) {e : ElementId}
    (unlisted : ∀ key, (key, e) ∉ state.table) : TableWf family (unregisterInternal state e) := by
  unfold unregisterInternal
  split
  · exact wf.congr rfl rfl rfl
  · rename_i element found
    constructor
    · exact wf.keysNodup
    · intro key other listed
      have different : other ≠ e := by
        rintro rfl
        exact unlisted key listed
      simp only [ecoreEventAdd, Function.update_of_ne different]
      exact wf.entryAlive key other listed
    · intro other young
      have different : other ≠ e := by
        rintro rfl
        rw [wf.fresh other young] at found
        cases found
      simp only [ecoreEventAdd, Function.update_of_ne different]
      exact wf.fresh other young

theorem hashDel_tableWf (wf : TableWf family state) (key : String) :
    TableWf family (hashDel state key) := by
  unfold hashDel
  split
  · exact wf
  · rename_i e found
    have filtered : TableWf family
        { state with table := state.table.filter fun entry => entry.1 != key } := by
      constructor
      · exact wf.keysNodup.sublist (List.filter_sublist.map _)
      · intro other e' listed
        exact wf.entryAlive other e' (List.mem_filter.mp listed).1
      · exact wf.fresh
    refine unregisterInternal_tableWf filtered ?_
    intro other listed
    obtain ⟨before, kept⟩ := List.mem_filter.mp listed
    have same := wf.find_injective (wf.find_iff.mpr before) found
    simp [same] at kept

theorem elementUnregister_tableWf (wf : TableWf family state) (e : ElementId) :
    TableWf family (elementUnregister family state e) := by
  unfold elementUnregister
  split
  · exact wf.congr rfl rfl rfl
  · exact hashDel_tableWf wf _

theorem clearElements_tableWf (wf : TableWf family state) :
    TableWf family (clearElements state) := by
  unfold clearElements
  have start : TableWf family { state with table := [] } := by
    constructor
    · simp
    · simp
    · exact wf.fresh
  have noEntry : ({ state with table := [] } : State).table = [] := rfl
  generalize { state with table := [] } = cleared at start noEntry
  generalize state.table.map Prod.snd = left
  induction left generalizing cleared with
  | nil => exact start
  | cons e rest ih =>
      refine ih _ (unregisterInternal_tableWf start (by simp [noEntry])) ?_
      unfold unregisterInternal
      split <;> exact noEntry

/-! ## Calls and listeners -/

theorem messageSend_tableWf (wf : TableWf family state) (e : ElementId) (list : PendingList)
    (libraryCb userCb : Bool) : TableWf family (messageSend accepts state e list libraryCb userCb) := by
  unfold messageSend
  split
  · exact (wf.modify e (Element.appendCall list state.nextCall) (fun _ => rfl) (fun _ => rfl)
      fun _ => rfl).congr rfl rfl rfl
  · exact wf.congr rfl rfl rfl

theorem listenersCall_tableWf (wf : TableWf family state) (e : ElementId) :
    TableWf family (listenersCall state e) := by
  unfold listenersCall
  split
  · exact wf.congr rfl rfl rfl
  · split
    · exact wf
    · exact (wf.modify e Element.armIdler (fun _ => rfl) (fun _ => rfl) fun _ => rfl).congr rfl rfl rfl

/-! ## What messages are made of -/

/-- Whatever survives each turn of a loop survives the loop. -/
theorem foldl_keeps {Turn : Type} {property : State → Prop} {body : State → Turn → State}
    (each : ∀ state turn, property state → property (body state turn)) (turns : List Turn)
    (holds : property state) : property (turns.foldl body state) := by
  induction turns generalizing state with
  | nil => exact holds
  | cons turn rest ih => exact ih (each state turn holds)

/-- A fact that survives everything a message can make a module do. -/
structure Closed (family : Family) (accepts : CallId → Bool) (property : State → Prop) : Prop where
  fault : ∀ state, property state → property { state with fault := true }
  register : ∀ state path interface, property state →
    property (elementRegister family state path interface).1
  sync : ∀ state path interface, property state →
    property (propertiesSync accepts (elementRegister family state path interface).1
      (elementRegister family state path interface).2)
  unregister : ∀ state e, property state → property (elementUnregister family state e)
  setProperty : ∀ state e name (wire : Wire), property state →
    property (state.modify e (Element.setProperty name (wire.value family)))
  listeners : ∀ state e, property state → property (listenersCall state e)

section Closed

variable {property : State → Prop} (closed : Closed family accepts property)
include closed

theorem Closed.itemRegister (name item : String) (holds : property state) :
    property (itemRegister accepts family name state item) := by
  unfold Elements.itemRegister
  split
  · exact holds
  · exact closed.sync _ _ _ holds

theorem Closed.matchAdd (name : String) (e : ElementId) (item : Item) (holds : property state) :
    property (matchAdd accepts family name e state item) := by
  cases item with
  | str text =>
      simp only [Elements.matchAdd]
      split
      · split
        · exact closed.fault _ holds
        · exact closed.register _ _ _ holds
      · exact closed.itemRegister name text holds
  | byte value =>
      simp only [Elements.matchAdd]
      split
      · exact closed.fault _ holds
      · exact holds
  | entry value =>
      simp only [Elements.matchAdd]
      split
      · exact closed.fault _ holds
      · exact holds

theorem Closed.matchRemove (name : String) (e : ElementId) (item : Item) (holds : property state) :
    property (matchRemove family name e state item) := by
  unfold Elements.matchRemove
  split
  · exact holds
  · exact closed.unregister _ _ holds

theorem Closed.arrayMatch (old : ElementArray) (new : Option ElementArray) (name : String)
    (e : ElementId) (holds : property state) :
    property (arrayMatch accepts family state old new name e) := by
  unfold Elements.arrayMatch
  split
  · exact holds
  · have registered := foldl_keeps (fun _ item holds => closed.matchAdd name e item holds)
      (Semantics.CursorDiff.added old.items (new.elim [] ElementArray.items)) holds
    have deleted := foldl_keeps (fun _ item holds => closed.matchRemove name e item holds)
      ((Semantics.CursorDiff.leftover old.items (new.elim [] ElementArray.items)).map (deletedItem family
        name (Semantics.CursorDiff.walk old.items (new.elim [] ElementArray.items)).lastSeen)) registered
    exact foldl_keeps (fun _ item holds => closed.matchRemove name e item holds) _ deleted

theorem Closed.propertyValueAdd (e : ElementId) (name : String) (wire : Wire)
    (holds : property state) :
    property (propertyValueAdd accepts family state e name (wire.value family)).1 := by
  unfold Elements.propertyValueAdd
  split
  · exact closed.fault _ holds
  · split
    · exact closed.setProperty _ _ _ _ holds
    · refine closed.setProperty _ _ _ _ ?_
      split
      · exact holds
      · exact closed.arrayMatch _ _ _ _ holds

theorem Closed.wireDecode (name : String) (wire : Wire) (holds : property state) :
    property (wireDecode accepts family state name wire) :=
  foldl_keeps (fun _ item holds => closed.itemRegister name item holds) _ holds

theorem Closed.interfacesRegister (again : Bool) (e : ElementId) (name : String) (wire : Wire)
    (holds : property state) :
    property (interfacesRegister accepts family again state e name wire) := by
  unfold Elements.interfacesRegister
  split
  · rename_i isInterfaces
    obtain ⟨rfl, -⟩ := isInterfaces
    have each : ∀ state item, property state →
        property (interfaceRegister accepts again e state item) := by
      intro state item holds
      unfold interfaceRegister
      split
      · split
        · exact closed.fault _ holds
        · simp only
          split
          · exact closed.sync _ _ _ (closed.register _ _ _ holds)
          · exact closed.sync _ _ _ holds
      · exact closed.fault _ holds
    cases wire with
    | array items => exact foldl_keeps each _ holds
    | basic value =>
        simp only
        split
        · exact holds
        · exact closed.fault _ holds
    | other type isZero =>
        simp only
        split
        · exact holds
        · exact closed.fault _ holds
  · exact holds

theorem Closed.propertyReceive (again : Bool) (e : ElementId) (name : String) (wire : Wire)
    (holds : property state) :
    property (propertyReceive accepts family again state e name wire).1 := by
  have stored := closed.propertyValueAdd e name wire (closed.wireDecode name wire holds)
  unfold Elements.propertyReceive
  simp only
  split
  · exact closed.interfacesRegister again e name wire stored
  · exact stored

theorem Closed.propertiesReceive (e : ElementId) (properties : List (String × Wire)) :
    ∀ received : State × Bool, property received.1 →
      property (propertiesReceive accepts family e received properties).1 := by
  induction properties with
  | nil => exact fun _ holds => holds
  | cons entry rest ih =>
      obtain ⟨name, wire⟩ := entry
      intro received holds
      exact ih _ (closed.propertyReceive false e name wire holds)

theorem Closed.getPropertiesCallback (e : ElementId) (properties : List (String × Wire))
    (holds : property state) :
    property (getPropertiesCallback accepts family state e properties) := by
  have received := closed.propertiesReceive e properties (state, false) holds
  unfold Elements.getPropertiesCallback
  simp only
  split
  · exact closed.listeners _ _ received
  · exact received

theorem Closed.propertyChangedCallback (e : ElementId) (name : String) (wire : Wire)
    (holds : property state) :
    property (propertyChangedCallback accepts family state e name wire) := by
  have received := closed.propertyReceive true e name wire holds
  unfold Elements.propertyChangedCallback
  simp only
  split
  · exact closed.listeners _ _ received
  · exact received

end Closed

theorem tableWf_closed (family : Family) (accepts : CallId → Bool) :
    Closed family accepts (TableWf family) where
  fault _ wf := wf.congr rfl rfl rfl
  register _ path interface wf := elementRegister_tableWf wf path interface
  sync _ path interface wf :=
    messageSend_tableWf (elementRegister_tableWf wf path interface) _ .propertiesGet true false
  unregister _ e wf := elementUnregister_tableWf wf e
  setProperty _ e name wire wf :=
    wf.modify e (Element.setProperty name (wire.value family)) (fun _ => rfl) (fun _ => rfl) fun _ => rfl
  listeners _ e wf := listenersCall_tableWf wf e

end EDBus.Elements
