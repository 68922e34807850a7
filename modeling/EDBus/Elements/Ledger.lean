import EDBus.Elements.Machine
import EDBus.Elements.Table

/-!
# Who refers to an element

The `Ledger` accounts for the references to elements: an element has one for the
table, one for every queued event that carries it and those of users. It also says
that handlers and idlers belong to elements. No step breaks it, unless a listener
has dropped the last reference to its element.
-/

namespace EDBus.Elements

variable {family : Family} {accepts : CallId → Bool} {state after : State}
  {tabled : List ElementId} {e : ElementId}

/-- The event holds a reference to its element. -/
def Event.holds (event : Event) : Bool := event ≠ .deviceFound

/-- The references to an element that queued events hold. -/
def State.eventRefs (state : State) (e : ElementId) : Nat :=
  state.events.countP fun entry => entry.1.holds && entry.2 == e

/-- The elements in the table. -/
def State.entries (state : State) : List ElementId := state.table.map Prod.snd

/-- The accounts of a module whose table has the elements `tabled`. -/
structure Ledger (tabled : List ElementId) (state : State) : Prop where
  counted : ∀ e element, state.elements e = some element →
    element.references = tabled.count e + state.eventRefs e + state.userRefs e
  alive : ∀ e ∈ tabled, ∃ element, state.elements e = some element ∧ element.signalHandler = true
  queued : ∀ event e, (event, e) ∈ state.events → event.holds = true → state.elements e ≠ none
  handled : ∀ e, state.handlers.count (.propertyChanged, e) = tabled.count e
  idle : ∀ e ∈ state.idlers, ∃ element, state.elements e = some element ∧ element.idlerChanged = true
  idlersNodup : state.idlers.Nodup
  unborn : ∀ e, state.nextElement ≤ e → state.elements e = none ∧ state.userRefs e = 0

theorem initial_ledger : Ledger [] State.initial := by
  constructor <;> simp [State.initial]

/-- Only the elements in the table matter, not their order. -/
theorem Ledger.perm {other : List ElementId} (ledger : Ledger tabled state)
    (same : tabled.Perm other) : Ledger other state where
  counted e element found := by
    rw [← same.count_eq]
    exact ledger.counted e element found
  alive e listed := ledger.alive e (same.mem_iff.mpr listed)
  queued := ledger.queued
  handled e := by
    rw [← same.count_eq]
    exact ledger.handled e
  idle := ledger.idle
  idlersNodup := ledger.idlersNodup
  unborn := ledger.unborn

/-- The fields of an element that the ledger reads, apart from its idler. -/
def Element.account (element : Element) : Int × Bool := (element.references, element.signalHandler)

/-- The other fields do not matter, and the idlers are accounted for anew. -/
theorem Ledger.recount (ledger : Ledger tabled state)
    (elements : ∀ e, (after.elements e).map Element.account = (state.elements e).map Element.account)
    (events : after.events = state.events) (handlers : after.handlers = state.handlers)
    (nextElement : after.nextElement = state.nextElement) (userRefs : after.userRefs = state.userRefs)
    (idle : ∀ e ∈ after.idlers, ∃ element, after.elements e = some element ∧ element.idlerChanged = true)
    (idlersNodup : after.idlers.Nodup) : Ledger tabled after := by
  have back : ∀ e element, after.elements e = some element → ∃ element',
      state.elements e = some element' ∧ element'.account = element.account := by
    intro e element found
    have same := elements e
    rw [found, Option.map_some, eq_comm, Option.map_eq_some_iff] at same
    exact same
  have forth : ∀ e element, state.elements e = some element → ∃ element',
      after.elements e = some element' ∧ element'.account = element.account := by
    intro e element found
    have same := elements e
    rw [found, Option.map_some, Option.map_eq_some_iff] at same
    exact same
  refine ⟨?_, ?_, ?_, ?_, idle, idlersNodup, ?_⟩
  · intro e element found
    obtain ⟨element', found', same⟩ := back e element found
    have counted := ledger.counted e element' found'
    rw [State.eventRefs, events, userRefs, ← State.eventRefs, ← counted]
    exact (congrArg Prod.fst same).symm
  · intro e listed
    obtain ⟨element, found, handled⟩ := ledger.alive e listed
    obtain ⟨element', found', same⟩ := forth e element found
    exact ⟨element', found', (congrArg Prod.snd same).trans handled⟩
  · intro event e listed holds
    rw [events] at listed
    obtain ⟨element, found⟩ := Option.ne_none_iff_exists'.mp (ledger.queued event e listed holds)
    obtain ⟨element', found', -⟩ := forth e element found
    simp [found']
  · rw [handlers]
    exact ledger.handled
  · intro e young
    rw [nextElement] at young
    obtain ⟨unborn, unheld⟩ := ledger.unborn e young
    refine ⟨?_, by rw [userRefs, unheld]⟩
    have same := elements e
    rw [unborn, Option.map_none, Option.map_eq_none_iff] at same
    exact same

theorem map_modify {Field : Type} (field : Element → Field) (state : State) (e : ElementId)
    (change : Element → Element) (kept : ∀ element, field (change element) = field element)
    (other : ElementId) :
    ((state.modify e change).elements other).map field = (state.elements other).map field := by
  rw [modify_elements]
  split
  · cases state.elements other with
    | none => rfl
    | some element => exact congrArg some (kept element)
  · rfl

@[simp] theorem modify_events (state : State) (e : ElementId) (change : Element → Element) :
    (state.modify e change).events = state.events := by
  unfold State.modify
  split <;> rfl

@[simp] theorem modify_idlers (state : State) (e : ElementId) (change : Element → Element) :
    (state.modify e change).idlers = state.idlers := by
  unfold State.modify
  split <;> rfl

@[simp] theorem modify_userRefs (state : State) (e : ElementId) (change : Element → Element) :
    (state.modify e change).userRefs = state.userRefs := by
  unfold State.modify
  split <;> rfl

@[simp] theorem modify_stack (state : State) (e : ElementId) (change : Element → Element) :
    (state.modify e change).stack = state.stack := by
  unfold State.modify
  split <;> rfl

/-- What the ledger does not read may change. -/
theorem Ledger.congr (ledger : Ledger tabled state)
    (elements : ∀ e, (after.elements e).map Element.account = (state.elements e).map Element.account)
    (armed : ∀ e, (after.elements e).map Element.idlerChanged =
      (state.elements e).map Element.idlerChanged)
    (events : after.events = state.events) (handlers : after.handlers = state.handlers)
    (idlers : after.idlers = state.idlers) (nextElement : after.nextElement = state.nextElement)
    (userRefs : after.userRefs = state.userRefs) : Ledger tabled after := by
  refine ledger.recount elements events handlers nextElement userRefs ?_ ?_
  · intro e listed
    rw [idlers] at listed
    obtain ⟨element, found, changed⟩ := ledger.idle e listed
    have same := armed e
    rw [found, Option.map_some, changed, Option.map_eq_some_iff] at same
    exact same
  · rw [idlers]
    exact ledger.idlersNodup

/-- A change of an element that the ledger does not read. -/
theorem Ledger.modify (ledger : Ledger tabled state) (e : ElementId) (change : Element → Element)
    (account : ∀ element, (change element).account = element.account)
    (armed : ∀ element, (change element).idlerChanged = element.idlerChanged) :
    Ledger tabled (state.modify e change) :=
  ledger.congr (map_modify _ state e change account) (map_modify _ state e change armed)
    (modify_events ..) (modify_handlers ..) (modify_idlers ..) (modify_nextElement ..)
    (modify_userRefs ..)

/-! ## References -/

theorem eventRefs_cons (state : State) (event : Event) (e other : ElementId)
    (rest : List (Event × ElementId)) (events : state.events = (event, e) :: rest) :
    state.eventRefs other =
      (rest.countP fun entry => entry.1.holds && entry.2 == other) +
        if event.holds = true ∧ e = other then 1 else 0 := by
  simp [State.eventRefs, events, List.countP_cons]

theorem eventRefs_append (state : State) (event : Event) (e other : ElementId) :
    (ecoreEventAdd state event e).eventRefs other =
      state.eventRefs other + if event.holds = true ∧ e = other then 1 else 0 := by
  simp [State.eventRefs, ecoreEventAdd, List.countP_append, List.countP_cons]

theorem holdReference_userRefs (state : State) (e other : ElementId) :
    (holdReference state e).userRefs other = state.userRefs other + if other = e then 1 else 0 := by
  unfold holdReference
  simp only [Function.update_apply]
  split
  · rename_i here
    rw [here]
  · rfl

/-- The references of an element and those that users have of it change by as much. -/
theorem Ledger.rebalance (ledger : Ledger tabled state) (change : Element → Element)
    (kept : ∀ element, (change element).signalHandler = element.signalHandler ∧
      (change element).idlerChanged = element.idlerChanged)
    (elements : ∀ other, after.elements other =
      if other = e then (state.elements other).map change else state.elements other)
    (events : after.events = state.events) (handlers : after.handlers = state.handlers)
    (idlers : after.idlers = state.idlers) (nextElement : after.nextElement = state.nextElement)
    (others : ∀ other, other ≠ e → after.userRefs other = state.userRefs other)
    (balanced : ∀ element, state.elements e = some element →
      (change element).references + state.userRefs e = element.references + after.userRefs e)
    (dead : state.elements e = none → after.userRefs e ≤ state.userRefs e) : Ledger tabled after := by
  have forth : ∀ other element, state.elements other = some element → ∃ element',
      after.elements other = some element' ∧ element'.signalHandler = element.signalHandler ∧
        element'.idlerChanged = element.idlerChanged := by
    intro other element found
    rw [elements, found]
    split
    · exact ⟨change element, rfl, kept element⟩
    · exact ⟨element, rfl, rfl, rfl⟩
  have refs : ∀ other, after.eventRefs other = state.eventRefs other := by
    intro other
    rw [State.eventRefs, events, State.eventRefs]
  constructor
  case counted =>
    intro other element found
    rw [elements] at found
    rw [refs]
    split at found
    · rename_i here
      subst here
      obtain ⟨element', found', rfl⟩ := Option.map_eq_some_iff.mp found
      have counted := ledger.counted other element' found'
      have changed := balanced element' found'
      omega
    · rename_i elsewhere
      rw [others other elsewhere]
      exact ledger.counted other element found
  case alive =>
    intro other listed
    obtain ⟨element, found, handled⟩ := ledger.alive other listed
    obtain ⟨element', found', same, -⟩ := forth other element found
    exact ⟨element', found', same.trans handled⟩
  case queued =>
    intro event other listed holds
    rw [events] at listed
    obtain ⟨element, found⟩ := Option.ne_none_iff_exists'.mp (ledger.queued event other listed holds)
    obtain ⟨element', found', -⟩ := forth other element found
    simp [found']
  case handled =>
    rw [handlers]
    exact ledger.handled
  case idle =>
    intro other listed
    rw [idlers] at listed
    obtain ⟨element, found, changed⟩ := ledger.idle other listed
    obtain ⟨element', found', -, same⟩ := forth other element found
    exact ⟨element', found', same.trans changed⟩
  case idlersNodup =>
    rw [idlers]
    exact ledger.idlersNodup
  case unborn =>
    intro other young
    rw [nextElement] at young
    obtain ⟨unborn, unheld⟩ := ledger.unborn other young
    constructor
    · rw [elements, unborn]
      split <;> rfl
    · by_cases here : other = e
      · subst here
        exact Nat.eq_zero_of_le_zero (unheld ▸ dead unborn)
      · rw [others other here, unheld]

/-- A user takes a reference. -/
theorem Ledger.hold (ledger : Ledger tabled state) (alive : state.elements e ≠ none) :
    Ledger tabled (holdReference (state.modify e Element.addReference) e) := by
  have users := holdReference_userRefs (state.modify e Element.addReference) e
  rw [modify_userRefs] at users
  refine ledger.rebalance Element.addReference (fun _ => ⟨rfl, rfl⟩) (modify_elements state e · _) (modify_events ..)
    (modify_handlers ..) (modify_idlers ..) (modify_nextElement ..) ?_ ?_ ?_
  · intro other different
    rw [users, if_neg different, Nat.add_zero]
  · intro element found
    rw [users, if_pos rfl]
    simp only [Element.addReference]
    omega
  · exact fun dead => absurd dead alive

/-- Events are queued and done as far as they hold no reference. -/
theorem Ledger.requeue (ledger : Ledger tabled state) (elements : after.elements = state.elements)
    (handlers : after.handlers = state.handlers) (idlers : after.idlers = state.idlers)
    (nextElement : after.nextElement = state.nextElement) (userRefs : after.userRefs = state.userRefs)
    (refs : ∀ e, after.eventRefs e = state.eventRefs e)
    (events : ∀ event e, (event, e) ∈ after.events → event.holds = true → (event, e) ∈ state.events) :
    Ledger tabled after := by
  refine ⟨?_, ?_, ?_, ?_, ?_, ?_, ?_⟩
  · intro e element found
    rw [elements] at found
    rw [refs, userRefs]
    exact ledger.counted e element found
  · rw [elements]
    exact ledger.alive
  · intro event e listed holds
    rw [elements]
    exact ledger.queued event e (events event e listed holds) holds
  · rw [handlers]
    exact ledger.handled
  · rw [idlers, elements]
    exact ledger.idle
  · rw [idlers]
    exact ledger.idlersNodup
  · rw [nextElement, elements, userRefs]
    exact ledger.unborn

/-- The reference of a user goes to an event. -/
theorem Ledger.queue (ledger : Ledger tabled (holdReference state e)) (event : Event)
    (holds : event.holds = true) (alive : state.elements e ≠ none) :
    Ledger tabled (ecoreEventAdd state event e) := by
  have refs := eventRefs_append state event e
  have users := holdReference_userRefs state e
  refine ⟨?_, ledger.alive, ?_, ledger.handled, ledger.idle, ledger.idlersNodup, ?_⟩
  · intro other element found
    have counted := ledger.counted other element found
    have user := users other
    have ref := refs other
    rw [show (ecoreEventAdd state event e).userRefs other = state.userRefs other from rfl, ref]
    rw [user, show (holdReference state e).eventRefs other = state.eventRefs other from rfl] at counted
    by_cases here : e = other
    · subst here
      rw [if_pos rfl] at counted
      rw [if_pos ⟨holds, rfl⟩]
      omega
    · rw [if_neg fun same => here same.symm] at counted
      rw [if_neg fun both => here both.2]
      omega
  · intro event' other listed holds'
    rcases List.mem_append.mp listed with before | new
    · exact ledger.queued event' other before holds'
    · obtain ⟨-, rfl⟩ := Prod.mk.inj (List.mem_singleton.mp new)
      exact alive
  · intro other young
    obtain ⟨unborn, unheld⟩ := ledger.unborn other young
    have user := users other
    exact ⟨unborn, Nat.eq_zero_of_add_eq_zero_right (user.symm.trans unheld)⟩

/-- The reference of an event goes to a user. -/
theorem Ledger.dequeue (ledger : Ledger tabled state) {event : Event} {rest : List (Event × ElementId)}
    (events : state.events = (event, e) :: rest) (holds : event.holds = true) :
    Ledger tabled (holdReference { state with events := rest } e) := by
  have refs := fun other => eventRefs_cons state event e other rest events
  have users := holdReference_userRefs { state with events := rest } e
  have alive := ledger.queued event e (events ▸ List.mem_cons_self) holds
  refine ⟨?_, ledger.alive, ?_, ledger.handled, ledger.idle, ledger.idlersNodup, ?_⟩
  · intro other element found
    have counted := ledger.counted other element found
    rw [refs] at counted
    rw [users]
    by_cases here : e = other
    · subst here
      rw [if_pos ⟨holds, rfl⟩] at counted
      rw [if_pos rfl]
      simp only [State.eventRefs, holdReference]
      omega
    · rw [if_neg fun both => here both.2] at counted
      rw [if_neg fun same => here same.symm]
      simp only [State.eventRefs, holdReference]
      omega
  · intro event' other listed holds'
    exact ledger.queued event' other (events ▸ .tail _ listed) holds'
  · intro other young
    obtain ⟨unborn, unheld⟩ := ledger.unborn other young
    have different : other ≠ e := by
      rintro rfl
      exact alive unborn
    refine ⟨unborn, ?_⟩
    rw [users, if_neg different]
    exact unheld

/-- The number of references to an element and its accounts go up together. -/
theorem eventAdd_ledger (ledger : Ledger tabled state) (event : Event) (holds : event.holds = true)
    (alive : state.elements e ≠ none) : Ledger tabled (eventAdd state event e) :=
  (ledger.hold alive).queue event holds
    ((elements_modify_ne_none state e Element.addReference e).mpr alive)

theorem elementInsert_ledger (ledger : Ledger tabled state) (path interface : String) :
    Ledger (state.nextElement :: tabled) (elementInsert family state path interface) := by
  obtain ⟨unborn, unheld⟩ := ledger.unborn state.nextElement (Nat.le_refl _)
  have untabled : state.nextElement ∉ tabled := by
    intro listed
    obtain ⟨element, found, -⟩ := ledger.alive _ listed
    rw [unborn] at found
    cases found
  have unqueued : state.eventRefs state.nextElement = 0 := by
    rw [State.eventRefs, List.countP_eq_zero]
    rintro ⟨event, e⟩ listed
    simp only [Bool.and_eq_true, beq_iff_eq, not_and]
    rintro holds rfl
    exact ledger.queued event _ listed holds unborn
  have elements : ∀ other, (elementInsert family state path interface).elements other =
      if other = state.nextElement then some (elementNew path interface) else state.elements other :=
    fun other => Function.update_apply ..
  constructor
  · intro other element found
    have refs : (elementInsert family state path interface).eventRefs other = state.eventRefs other := rfl
    have users : (elementInsert family state path interface).userRefs = state.userRefs := rfl
    rw [elements] at found
    rw [refs, users, List.count_cons]
    split at found
    · rename_i here
      subst here
      obtain rfl := Option.some.inj found
      rw [unqueued, unheld, List.count_eq_zero_of_not_mem untabled]
      simp [elementNew]
    · rename_i elsewhere
      have counted := ledger.counted other element found
      have different : (state.nextElement == other) = false := by simpa using fun same => elsewhere same.symm
      simpa [different] using counted
  · intro other listed
    rw [elements]
    split
    · exact ⟨_, rfl, rfl⟩
    · rename_i elsewhere
      exact ledger.alive other ((List.mem_cons.mp listed).resolve_left elsewhere)
  · intro event other listed holds
    rw [elements]
    split
    · simp
    · exact ledger.queued event other listed holds
  · intro other
    have handlers : (elementInsert family state path interface).handlers =
        state.handlers ++ [(.propertyChanged, state.nextElement)] := rfl
    rw [handlers, List.count_append, ledger.handled]
    by_cases here : state.nextElement = other
    · simp [here]
    · have pair : ((Signal.propertyChanged, state.nextElement) == (Signal.propertyChanged, other)) =
          false := by simpa using here
      simp [here]
  · intro other listed
    obtain ⟨element, found, changed⟩ := ledger.idle other listed
    rw [elements, if_neg, found]
    · exact ⟨element, rfl, changed⟩
    · rintro rfl
      rw [unborn] at found
      cases found
  · exact ledger.idlersNodup
  · intro other young
    have next : (elementInsert family state path interface).nextElement = state.nextElement + 1 := rfl
    have users : (elementInsert family state path interface).userRefs = state.userRefs := rfl
    rw [next] at young
    rw [elements, if_neg (Nat.ne_of_gt young), users]
    exact ledger.unborn other (Nat.le_of_lt young)

/-- What leaves the table keeps its reference until the event is done. -/
theorem unregisterInternal_ledger (ledger : Ledger (e :: tabled) state) (once : e ∉ tabled) :
    Ledger tabled (unregisterInternal state e) := by
  obtain ⟨element, found, handled⟩ := ledger.alive e List.mem_cons_self
  have elements : ∀ other, (unregisterInternal state e).elements other =
      if other = e then some { element with signalHandler := false } else state.elements other := by
    intro other
    unfold unregisterInternal ecoreEventAdd
    rw [found]
    exact Function.update_apply ..
  have events : (unregisterInternal state e).events = state.events ++ [(.del, e)] := by
    simp [unregisterInternal, found, ecoreEventAdd]
  have refs : ∀ other, (unregisterInternal state e).eventRefs other =
      state.eventRefs other + if e = other then 1 else 0 := by
    intro other
    rw [State.eventRefs, events, List.countP_append, State.eventRefs, List.countP_singleton]
    simp [Event.holds]
  have users : (unregisterInternal state e).userRefs = state.userRefs := by
    simp [unregisterInternal, found, ecoreEventAdd]
  have idlers : (unregisterInternal state e).idlers = state.idlers := by
    simp [unregisterInternal, found, ecoreEventAdd]
  have handlers : (unregisterInternal state e).handlers = state.handlers.erase (.propertyChanged, e) := by
    simp [unregisterInternal, found, ecoreEventAdd, handled]
  have nextElement : (unregisterInternal state e).nextElement = state.nextElement := by
    simp [unregisterInternal, found, ecoreEventAdd]
  have counts : ∀ other, (e :: tabled).count other = tabled.count other + if e = other then 1 else 0 := by
    intro other
    rw [List.count_cons]
    simp
  constructor
  case counted =>
    intro other element' found'
    rw [elements] at found'
    rw [refs, users]
    have count := counts other
    split at found'
    · rename_i here
      subst here
      obtain rfl := Option.some.inj found'
      have counted := ledger.counted other element found
      rw [if_pos rfl] at count ⊢
      simp only
      omega
    · rename_i elsewhere
      have counted := ledger.counted other element' found'
      have different : ¬ e = other := fun same => elsewhere same.symm
      rw [if_neg different] at count ⊢
      omega
  case alive =>
    intro other listed
    have different : other ≠ e := by
      rintro rfl
      exact once listed
    rw [elements, if_neg different]
    exact ledger.alive other (.tail _ listed)
  case queued =>
    intro event other listed holds
    rw [elements]
    split
    · simp
    · rename_i elsewhere
      rw [events] at listed
      rcases List.mem_append.mp listed with before | new
      · exact ledger.queued event other before holds
      · exact absurd (Prod.mk.inj (List.mem_singleton.mp new)).2 elsewhere
  case handled =>
    intro other
    have handled' := ledger.handled other
    rw [counts] at handled'
    rw [handlers, List.count_erase, handled']
    by_cases here : e = other
    · simp [here]
    · have pair : ((Signal.propertyChanged, e) == (Signal.propertyChanged, other)) = false := by
        simpa using here
      simp [here, pair]
  case idle =>
    intro other listed
    rw [idlers] at listed
    obtain ⟨element', found', changed⟩ := ledger.idle other listed
    rw [elements]
    split
    · rename_i here
      subst here
      obtain rfl := Option.some.inj (found.symm.trans found')
      exact ⟨_, rfl, changed⟩
    · exact ⟨element', found', changed⟩
  case idlersNodup =>
    rw [idlers]
    exact ledger.idlersNodup
  case unborn =>
    intro other young
    rw [nextElement] at young
    obtain ⟨unborn, unheld⟩ := ledger.unborn other young
    have different : other ≠ e := by
      rintro rfl
      rw [unborn] at found
      cases found
    rw [elements, if_neg different, users]
    exact ⟨unborn, unheld⟩

/-! ## The table -/

/-- The accounts of a module. -/
structure Accounted (family : Family) (state : State) : Prop where
  wf : TableWf family state
  ledger : Ledger state.entries state

theorem initial_elements_accounted (family : Family) : Accounted family State.initial :=
  ⟨initial_tableWf family, initial_ledger⟩

/-- No element is in the table twice. -/
theorem TableWf.entries_nodup (wf : TableWf family state) : state.entries.Nodup := by
  rw [State.entries, List.nodup_map_iff_inj_on (List.Nodup.of_map _ wf.keysNodup)]
  rintro ⟨key, e⟩ first ⟨key', e'⟩ second same
  obtain rfl : e = e' := same
  have keys := wf.find_injective (wf.find_iff.mpr first) (wf.find_iff.mpr second)
  rw [keys]

theorem elementRegister_accounted (accounted : Accounted family state) (path interface : String) :
    Accounted family (elementRegister family state path interface).1 := by
  refine ⟨elementRegister_tableWf accounted.wf path interface, ?_⟩
  unfold elementRegister
  split
  · exact accounted.ledger
  · have inserted : Ledger (state.nextElement :: state.entries)
        (elementInsert family state path interface) :=
      elementInsert_ledger accounted.ledger path interface
    have alive : (elementInsert family state path interface).elements state.nextElement ≠ none := by
      simp [elementInsert]
    refine (eventAdd_ledger inserted .add rfl alive).perm ?_
    simp only [State.entries, eventAdd, ecoreEventAdd, modify_table, elementInsert, List.map_append]
    exact (List.perm_append_singleton _ _).symm

@[simp] theorem unregisterInternal_entries (state : State) (e : ElementId) :
    (unregisterInternal state e).entries = state.entries := by
  unfold unregisterInternal
  split <;> rfl

theorem hashDel_accounted (accounted : Accounted family state) (key : String) :
    Accounted family (hashDel state key) := by
  refine ⟨hashDel_tableWf accounted.wf key, ?_⟩
  unfold hashDel
  split
  · exact accounted.ledger
  · rename_i e found
    have split := Semantics.Keyed.perm_filter_key accounted.wf.keysNodup (accounted.wf.find_iff.mp found)
    have nodup := split.nodup_iff.mp accounted.wf.entries_nodup
    rw [unregisterInternal_entries]
    refine unregisterInternal_ledger ?_ (List.nodup_cons.mp nodup).1
    exact (accounted.ledger.perm split).congr (fun _ => rfl) (fun _ => rfl) rfl rfl rfl rfl rfl

theorem elementUnregister_accounted (accounted : Accounted family state) (e : ElementId) :
    Accounted family (elementUnregister family state e) := by
  unfold elementUnregister
  split
  · exact ⟨accounted.wf.congr rfl rfl rfl, accounted.ledger.congr (fun _ => rfl) (fun _ => rfl) rfl rfl rfl rfl rfl⟩
  · exact hashDel_accounted accounted _

/-- Elements leave the table one by one. -/
theorem unregisterAll_ledger (left : List ElementId) (nodup : left.Nodup) (ledger : Ledger left state) :
    Ledger [] (left.foldl unregisterInternal state) := by
  induction left generalizing state with
  | nil => exact ledger
  | cons e rest ih =>
      obtain ⟨once, restNodup⟩ := List.nodup_cons.mp nodup
      exact ih restNodup (unregisterInternal_ledger ledger once)

theorem unregisterAll_entries (left : List ElementId) (state : State) :
    (left.foldl unregisterInternal state).entries = state.entries := by
  induction left generalizing state with
  | nil => rfl
  | cons e rest ih => rw [List.foldl_cons, ih, unregisterInternal_entries]

theorem clearElements_accounted (accounted : Accounted family state) :
    Accounted family (clearElements state) := by
  refine ⟨clearElements_tableWf accounted.wf, ?_⟩
  have cleared : Ledger state.entries { state with table := [] } :=
    accounted.ledger.congr (fun _ => rfl) (fun _ => rfl) rfl rfl rfl rfl rfl
  have entries := unregisterAll_entries state.entries { state with table := [] }
  rw [show (clearElements state).entries = [] from entries]
  exact unregisterAll_ledger state.entries accounted.wf.entries_nodup cleared

/-! ## Calls, properties and listeners -/

/-- A change of an element that neither the table nor the ledger reads. -/
theorem Accounted.modify (accounted : Accounted family state) (e : ElementId)
    (change : Element → Element) (path : ∀ element, (change element).path = element.path)
    (interface : ∀ element, (change element).interface = element.interface)
    (account : ∀ element, (change element).account = element.account)
    (armed : ∀ element, (change element).idlerChanged = element.idlerChanged) :
    Accounted family (state.modify e change) := by
  refine ⟨accounted.wf.modify e change path interface fun element =>
    congrArg Prod.snd (account element), ?_⟩
  rw [State.entries, modify_table]
  exact accounted.ledger.modify e change account armed

/-- Fields that neither the table nor the ledger reads. -/
theorem Accounted.settle (accounted : Accounted family state) (elements : after.elements = state.elements)
    (table : after.table = state.table) (events : after.events = state.events)
    (handlers : after.handlers = state.handlers) (idlers : after.idlers = state.idlers)
    (nextElement : after.nextElement = state.nextElement) (userRefs : after.userRefs = state.userRefs) :
    Accounted family after := by
  refine ⟨accounted.wf.congr elements table nextElement, ?_⟩
  rw [State.entries, table]
  exact accounted.ledger.congr (by simp [elements]) (by simp [elements]) events handlers idlers
    nextElement userRefs

theorem messageSend_accounted (accounted : Accounted family state) (e : ElementId)
    (list : PendingList) (libraryCb userCb : Bool) :
    Accounted family (messageSend accepts state e list libraryCb userCb) := by
  unfold messageSend
  split
  · exact (accounted.modify e (Element.appendCall list state.nextCall) (fun _ => rfl) (fun _ => rfl)
      (fun _ => rfl) fun _ => rfl).settle rfl rfl rfl rfl rfl rfl rfl
  · exact accounted.settle rfl rfl rfl rfl rfl rfl rfl

theorem armIdler_ledger (ledger : Ledger tabled state) {element : Element}
    (found : state.elements e = some element) (unarmed : element.idlerChanged = false) :
    Ledger tabled (ecoreIdlerAdd (state.modify e Element.armIdler) e) := by
  have elements : ∀ other, (ecoreIdlerAdd (state.modify e Element.armIdler) e).elements other =
      if other = e then (state.elements other).map Element.armIdler else state.elements other :=
    fun other => modify_elements state e other Element.armIdler
  have idlers : (ecoreIdlerAdd (state.modify e Element.armIdler) e).idlers = state.idlers ++ [e] := by
    simp [ecoreIdlerAdd]
  have new : e ∉ state.idlers := by
    intro listed
    obtain ⟨element', found', changed⟩ := ledger.idle e listed
    obtain rfl := Option.some.inj (found.symm.trans found')
    rw [unarmed] at changed
    cases changed
  refine ledger.recount (map_modify Element.account state e Element.armIdler fun _ => rfl)
    (modify_events ..) (modify_handlers ..) (modify_nextElement ..) (modify_userRefs ..) ?_ ?_
  · intro other listed
    rw [idlers] at listed
    rw [elements]
    split
    · rename_i here
      subst here
      exact ⟨element.armIdler, by rw [found]; rfl, rfl⟩
    · rename_i elsewhere
      rcases List.mem_append.mp listed with before | last
      · exact ledger.idle other before
      · exact absurd (List.mem_singleton.mp last) elsewhere
  · rw [idlers]
    exact List.nodup_append.mpr ⟨ledger.idlersNodup, List.nodup_singleton e, by
      rintro other listed _ last rfl
      obtain rfl := List.mem_singleton.mp last
      exact new listed⟩

theorem listenersCall_accounted (accounted : Accounted family state) (e : ElementId) :
    Accounted family (listenersCall state e) := by
  refine ⟨listenersCall_tableWf accounted.wf e, ?_⟩
  unfold listenersCall
  split
  · exact accounted.ledger.congr (fun _ => rfl) (fun _ => rfl) rfl rfl rfl rfl rfl
  · rename_i element found
    split
    · exact accounted.ledger
    · rename_i unarmed
      have armed := armIdler_ledger accounted.ledger found (by simpa using unarmed)
      rw [show (ecoreIdlerAdd (state.modify e Element.armIdler) e).entries = state.entries by
        simp [State.entries, ecoreIdlerAdd]]
      exact armed

/-- Messages keep the accounts. -/
theorem accounted_closed (family : Family) (accepts : CallId → Bool) :
    Closed family accepts (Accounted family) where
  fault _ accounted := accounted.settle rfl rfl rfl rfl rfl rfl rfl
  register _ path interface accounted := elementRegister_accounted accounted path interface
  sync _ path interface accounted :=
    messageSend_accounted (elementRegister_accounted accounted path interface) _ .propertiesGet true false
  unregister _ e accounted := elementUnregister_accounted accounted e
  setProperty _ e name wire accounted :=
    accounted.modify e (Element.setProperty name (wire.value family)) (fun _ => rfl) (fun _ => rfl)
      (fun _ => rfl) fun _ => rfl
  listeners _ e accounted := listenersCall_accounted accounted e

/-! ## References of users and of events -/

/-- A user reference on an element that is not alive has no account. -/
theorem Ledger.of_dead (ledger : Ledger tabled (holdReference state e))
    (dead : state.elements e = none) : Ledger tabled state := by
  have users : ∀ other, other ≠ e → (holdReference state e).userRefs other = state.userRefs other :=
    fun other different => Function.update_of_ne different ..
  refine ⟨?_, ledger.alive, ledger.queued, ledger.handled, ledger.idle, ledger.idlersNodup, ?_⟩
  · intro other element found
    have different : other ≠ e := by
      rintro rfl
      rw [dead] at found
      cases found
    have counted := ledger.counted other element found
    rw [users other different] at counted
    exact counted
  · intro other young
    have unheld := (ledger.unborn other young).2
    by_cases here : other = e
    · subst here
      simp [holdReference] at unheld
    · rw [users other here] at unheld
      exact ⟨(ledger.unborn other young).1, unheld⟩

/-- A reference that is given up was accounted for as one of a user. -/
theorem Ledger.drop (ledger : Ledger tabled (holdReference state e)) :
    Ledger tabled (state.modify e Element.dropReference) := by
  have users := holdReference_userRefs state e
  refine ledger.rebalance Element.dropReference (fun _ => ⟨rfl, rfl⟩) (modify_elements state e · _) (modify_events ..)
    (modify_handlers ..) (modify_idlers ..) (modify_nextElement ..) ?_ ?_ ?_
  · intro other different
    rw [modify_userRefs, users, if_neg different, Nat.add_zero]
  · intro element found
    rw [modify_userRefs, users, if_pos rfl]
    simp only [Element.dropReference]
    omega
  · intro dead
    rw [modify_userRefs, users]
    exact Nat.le_add_right ..

/-! ## Frames -/

/-- An element that is being freed has no references left but those that users took
meanwhile, and listeners run at the bottom of the stack. -/
structure Framed (state : State) : Prop where
  freeing : ∀ e remaining, .freeing e remaining ∈ state.stack →
    e < state.nextElement ∧ e ∉ state.entries ∧ state.eventRefs e = 0 ∧ e ∉ state.idlers
  listening : ∀ e, .listeners e ∈ state.stack → e < state.nextElement
  bottom : ∀ e, .listeners e ∉ state.stack.dropLast

theorem framed_of_idle (idle : state.stack = []) : Framed state := by
  constructor <;> simp [idle]

/-- A frame other than that of listeners goes on the stack. -/
theorem bottom_cons {stack : List Frame} {frame : Frame} (other : ∀ e, frame ≠ .listeners e)
    (bottom : ∀ e, .listeners e ∉ stack.dropLast) (e : ElementId) :
    .listeners e ∉ (frame :: stack).dropLast := by
  cases stack with
  | nil => simp
  | cons next rest =>
      rw [List.dropLast_cons_cons]
      intro listed
      rcases List.mem_cons.mp listed with isFrame | inRest
      · exact other e isFrame.symm
      · exact bottom e inRest

/-- Frames leave, and nothing else changes for those that stay. -/
theorem Framed.shrink (framed : Framed state) (stack : after.stack.Sublist state.stack)
    (dropLast : after.stack.dropLast.Sublist state.stack.dropLast)
    (nextElement : state.nextElement ≤ after.nextElement)
    (entries : ∀ e, e < state.nextElement → e ∈ after.entries → e ∈ state.entries)
    (eventRefs : ∀ e, e < state.nextElement → e ∉ state.entries → state.eventRefs e = 0 →
      after.eventRefs e = 0)
    (idlers : ∀ e ∈ after.idlers, e ∈ state.idlers) : Framed after := by
  constructor
  · intro e remaining listed
    obtain ⟨old, untabled, unqueued, unarmed⟩ := framed.freeing e remaining (stack.subset listed)
    exact ⟨Nat.lt_of_lt_of_le old nextElement, fun isEntry => untabled (entries e old isEntry),
      eventRefs e old untabled unqueued, fun armed => unarmed (idlers e armed)⟩
  · intro e listed
    exact Nat.lt_of_lt_of_le (framed.listening e (stack.subset listed)) nextElement
  · intro e listed
    exact framed.bottom e (dropLast.subset listed)

/-- Only the stack, the table, the events and the idlers matter. -/
theorem Framed.congr (framed : Framed state) (stack : after.stack = state.stack)
    (nextElement : after.nextElement = state.nextElement) (table : after.table = state.table)
    (events : after.events = state.events) (idlers : after.idlers = state.idlers) : Framed after := by
  refine framed.shrink (by rw [stack]) (by rw [stack]) nextElement.ge ?_ ?_ ?_
  · intro e _ isEntry
    rwa [State.entries, table] at isEntry
  · intro e _ _ unqueued
    rwa [State.eventRefs, events]
  · intro e armed
    rwa [idlers] at armed

/-- A callback starts. -/
theorem Framed.callback (framed : Framed state) {c : CallId} {userCb : Bool}
    (stack : after.stack = .callback c userCb :: state.stack)
    (nextElement : after.nextElement = state.nextElement) (table : after.table = state.table)
    (events : after.events = state.events) (idlers : after.idlers = state.idlers) : Framed after := by
  constructor
  · intro e remaining listed
    rw [stack] at listed
    obtain ⟨old, untabled, unqueued, unarmed⟩ := framed.freeing e remaining
      ((List.mem_cons.mp listed).resolve_left (by simp))
    refine ⟨by rwa [nextElement], by rwa [State.entries, table], by rwa [State.eventRefs, events],
      by rwa [idlers]⟩
  · intro e listed
    rw [stack] at listed
    rw [nextElement]
    exact framed.listening e ((List.mem_cons.mp listed).resolve_left (by simp))
  · rw [stack]
    exact bottom_cons (by simp) framed.bottom

/-- Listeners are called from the main loop. -/
theorem Framed.listeners_last (framed : Framed state) {e : ElementId} {below : List Frame}
    (top : state.stack = .listeners e :: below) : below = [] := by
  cases below with
  | nil => rfl
  | cons next rest =>
      refine absurd ?_ (framed.bottom e)
      rw [top, List.dropLast_cons_cons]
      exact List.mem_cons_self

/-- The module keeps its accounts and its frames. -/
structure Kept (family : Family) (state : State) : Prop where
  accounted : Accounted family state
  framed : Framed state

theorem initial_kept (family : Family) : Kept family State.initial :=
  ⟨initial_elements_accounted family, framed_of_idle rfl⟩

theorem elementUnref_kept (accounted : Accounted family (holdReference state e))
    (framed : Framed (holdReference state e)) : Kept family (elementUnref family state e) := by
  unfold elementUnref
  split
  · rename_i dead
    have ledger := accounted.ledger.of_dead dead
    refine ⟨⟨accounted.wf.congr rfl rfl rfl, ?_⟩, framed.congr rfl rfl rfl rfl rfl⟩
    exact ledger.congr (fun _ => rfl) (fun _ => rfl) rfl rfl rfl rfl rfl
  · rename_i element found
    have dropped := accounted.ledger.drop
    have wf : TableWf family (state.modify e Element.dropReference) := by
      have wf : TableWf family state := accounted.wf.congr rfl rfl rfl
      exact wf.modify e Element.dropReference (fun _ => rfl) (fun _ => rfl) fun _ => rfl
    have after : (state.modify e Element.dropReference).elements e = some element.dropReference := by
      rw [modify_elements, if_pos rfl, found]
      rfl
    have entries : (state.modify e Element.dropReference).entries = (holdReference state e).entries := by
      rw [State.entries, modify_table]
      rfl
    have droppedFramed : Framed (state.modify e Element.dropReference) :=
      framed.congr (modify_stack ..) (modify_nextElement ..) (modify_table ..) (modify_events ..)
        (modify_idlers ..)
    simp only
    split
    · -- the last reference: nothing refers to the element
      rename_i last
      have counted := dropped.counted e _ after
      have zero : element.dropReference.references = 0 := last
      rw [zero] at counted
      have untabled : e ∉ (holdReference state e).entries :=
        List.count_eq_zero.mp (by omega)
      have unqueued : (state.modify e Element.dropReference).eventRefs e = 0 := by omega
      have old : e < (state.modify e Element.dropReference).nextElement := by
        refine Nat.lt_of_not_le fun young => ?_
        have unborn := (dropped.unborn e young).1
        rw [after] at unborn
        cases unborn
      have idlers : (elementFree family (state.modify e Element.dropReference) e
          element.idlerChanged).idlers = if element.idlerChanged then state.idlers.erase e
          else state.idlers := by
        simp [elementFree]
      have unarmed : e ∉ (elementFree family (state.modify e Element.dropReference) e
          element.idlerChanged).idlers := by
        have nodup : state.idlers.Nodup := accounted.ledger.idlersNodup
        rw [idlers]
        split
        · exact fun listed => (List.Nodup.mem_erase_iff nodup).mp listed |>.1 rfl
        · rename_i unchanged
          intro listed
          obtain ⟨element', found', changed⟩ := accounted.ledger.idle e listed
          obtain rfl := Option.some.inj (found.symm.trans found')
          exact unchanged changed
      have fewer : ∀ other ∈ (elementFree family (state.modify e Element.dropReference) e
          element.idlerChanged).idlers, other ∈ (state.modify e Element.dropReference).idlers := by
        intro other listed
        rw [idlers] at listed
        rw [modify_idlers]
        split at listed
        · exact List.mem_of_mem_erase listed
        · exact listed
      refine ⟨⟨wf.congr rfl rfl rfl, ?_⟩, ?_⟩
      · rw [← entries] at dropped
        refine dropped.recount (fun _ => rfl) rfl rfl rfl rfl
          (fun other listed => dropped.idle other (fewer other listed)) ?_
        rw [idlers]
        split
        · exact accounted.ledger.idlersNodup.erase e
        · exact accounted.ledger.idlersNodup
      · constructor
        · intro other remaining listed
          rcases List.mem_cons.mp listed with isNew | before
          · obtain ⟨rfl, -⟩ := Frame.freeing.inj isNew
            refine ⟨old, ?_, unqueued, unarmed⟩
            rw [← entries] at untabled
            exact untabled
          · obtain ⟨older, otherUntabled, otherUnqueued, otherUnarmed⟩ :=
              droppedFramed.freeing other remaining before
            exact ⟨older, otherUntabled, otherUnqueued, fun armed => otherUnarmed (fewer other armed)⟩
        · intro other listed
          exact droppedFramed.listening other ((List.mem_cons.mp listed).resolve_left (by simp))
        · exact bottom_cons (by simp) droppedFramed.bottom
    · refine ⟨⟨wf, ?_⟩, droppedFramed⟩
      rw [entries]
      exact dropped

/-! ## Steps -/

theorem register_stack (state : State) (path interface : String) :
    (elementRegister family state path interface).1.stack = state.stack := by
  unfold elementRegister
  split
  · rfl
  · simp [eventAdd, ecoreEventAdd, elementInsert]

theorem messageSend_stack (state : State) (e : ElementId) (list : PendingList)
    (libraryCb userCb : Bool) :
    (messageSend accepts state e list libraryCb userCb).stack = state.stack := by
  unfold messageSend
  split
  · simp [callNew]
  · rfl

theorem hashDel_stack (state : State) (key : String) : (hashDel state key).stack = state.stack := by
  unfold hashDel unregisterInternal ecoreEventAdd
  split
  · rfl
  · split <;> rfl

/-- Messages leave the stack alone. -/
theorem stack_closed (family : Family) (accepts : CallId → Bool) (stack : List Frame) :
    Closed family accepts (fun state => state.stack = stack) where
  fault _ same := same
  register state path interface same := (register_stack state path interface).trans same
  sync state path interface same :=
    (messageSend_stack _ _ .propertiesGet true false).trans ((register_stack ..).trans same)
  unregister state e same := by
    unfold elementUnregister
    split
    · exact same
    · exact (hashDel_stack state _).trans same
  setProperty state e name wire same := (modify_stack ..).trans same
  listeners state e same := by
    unfold listenersCall
    split
    · exact same
    · split
      · exact same
      · exact (modify_stack ..).trans same

theorem register_kept (kept : Kept family state) (path interface : String) :
    Kept family (elementRegister family state path interface).1 := by
  refine ⟨elementRegister_accounted kept.accounted path interface, ?_⟩
  unfold elementRegister
  split
  · exact kept.framed
  · have eventRefs : ∀ e, e < state.nextElement →
        (eventAdd (elementInsert family state path interface) .add state.nextElement).eventRefs e =
          state.eventRefs e := by
      intro e old
      refine (eventRefs_append _ _ _ _).trans ?_
      rw [State.eventRefs, modify_events, if_neg fun both => Nat.ne_of_lt old both.2.symm]
      rfl
    refine kept.framed.shrink ?_ ?_ ?_ ?_ ?_ ?_
    · simp [eventAdd, ecoreEventAdd, elementInsert]
    · simp [eventAdd, ecoreEventAdd, elementInsert]
    · simp [eventAdd, ecoreEventAdd, elementInsert]
    · intro e old isEntry
      simp only [State.entries, eventAdd, ecoreEventAdd, modify_table, elementInsert, List.map_append,
        List.map_cons, List.map_nil, List.mem_append, List.mem_singleton] at isEntry
      exact isEntry.resolve_right (Nat.ne_of_lt old)
    · intro e old _ unqueued
      rw [eventRefs e old, unqueued]
    · intro e armed
      simpa [eventAdd, ecoreEventAdd, elementInsert] using armed

theorem messageSend_kept (kept : Kept family state) (e : ElementId) (list : PendingList)
    (libraryCb userCb : Bool) : Kept family (messageSend accepts state e list libraryCb userCb) := by
  refine ⟨messageSend_accounted kept.accounted e list libraryCb userCb, ?_⟩
  unfold messageSend
  split
  · exact kept.framed.congr (modify_stack ..) (modify_nextElement ..) (modify_table ..)
      (modify_events ..) (modify_idlers ..)
  · exact kept.framed.congr rfl rfl rfl rfl rfl

/-- A change of calls and of the stack that starts a callback, or a fault. -/
theorem callBegin_kept (kept : Kept family state) (c : CallId) (answer : Answer) :
    Kept family (callBegin state c answer) := by
  unfold callBegin
  split
  · exact ⟨kept.accounted.settle rfl rfl rfl rfl rfl rfl rfl, kept.framed.congr rfl rfl rfl rfl rfl⟩
  · exact ⟨kept.accounted.settle rfl rfl rfl rfl rfl rfl rfl,
      kept.framed.callback rfl rfl rfl rfl rfl⟩

theorem withStack_framed (framed : Framed state) {frame : Frame} {below : List Frame}
    (top : state.stack = frame :: below) : Framed (state.withStack below) := by
  refine framed.shrink ?_ ?_ (Nat.le_refl _) (fun _ _ isEntry => isEntry) (fun _ _ _ unqueued => unqueued)
    fun _ armed => armed
  · rw [top]
    exact List.sublist_cons_self ..
  · rw [top]
    cases below with
    | nil => simp [State.withStack]
    | cons next rest =>
        rw [List.dropLast_cons_cons]
        exact List.sublist_cons_self ..

theorem withStack_accounted (accounted : Accounted family state) (stack : List Frame) :
    Accounted family (state.withStack stack) :=
  accounted.settle rfl rfl rfl rfl rfl rfl rfl

/-- A call leaves its list and is freed. -/
theorem callEnd_kept (kept : Kept family state) (c : CallId) : Kept family (callEnd state c) := by
  unfold callEnd
  split
  · exact ⟨kept.accounted.settle rfl rfl rfl rfl rfl rfl rfl, kept.framed.congr rfl rfl rfl rfl rfl⟩
  · rename_i call known
    have removed := kept.accounted.modify call.element (Element.removeCall call.list c) (fun _ => rfl)
      (fun _ => rfl) (fun _ => rfl) fun _ => rfl
    exact ⟨removed.settle rfl rfl rfl rfl rfl rfl rfl, kept.framed.congr (modify_stack ..)
      (modify_nextElement ..) (modify_table ..) (modify_events ..) (modify_idlers ..)⟩

/-- The element that the last turn frees is nobody's. -/
theorem elementGone_accounted (accounted : Accounted family state) (untabled : e ∉ state.entries)
    (unqueued : state.eventRefs e = 0) (unarmed : e ∉ state.idlers) :
    Accounted family (elementGone state e) := by
  have elements : ∀ other, other ≠ e → (elementGone state e).elements other = state.elements other :=
    fun other different => Function.update_of_ne different ..
  have gone : (elementGone state e).elements e = none := Function.update_self ..
  have ledger := accounted.ledger
  refine ⟨⟨accounted.wf.keysNodup, ?_, ?_⟩, ⟨?_, ?_, ?_, ledger.handled, ?_, ledger.idlersNodup, ?_⟩⟩
  · intro key other listed
    have different : other ≠ e := by
      rintro rfl
      exact untabled (List.mem_map.mpr ⟨_, listed, rfl⟩)
    rw [elements other different]
    exact accounted.wf.entryAlive key other listed
  · intro other young
    by_cases here : other = e
    · rw [here, gone]
    · rw [elements other here]
      exact accounted.wf.fresh other young
  · intro other element found
    have different : other ≠ e := by
      rintro rfl
      rw [gone] at found
      cases found
    rw [elements other different] at found
    exact ledger.counted other element found
  · intro other isEntry
    have different : other ≠ e := by
      rintro rfl
      exact untabled isEntry
    rw [elements other different]
    exact ledger.alive other isEntry
  · intro event other listed holds
    have different : other ≠ e := by
      rintro rfl
      rw [State.eventRefs, List.countP_eq_zero] at unqueued
      have notCounted := unqueued _ listed
      simp [holds] at notCounted
    rw [elements other different]
    exact ledger.queued event other listed holds
  · intro other armed
    have different : other ≠ e := by
      rintro rfl
      exact unarmed armed
    rw [elements other different]
    exact ledger.idle other armed
  · intro other young
    obtain ⟨unborn, unheld⟩ := ledger.unborn other young
    refine ⟨?_, unheld⟩
    by_cases here : other = e
    · rw [here, gone]
    · rw [elements other here, unborn]

/-- Listeners were called: the event is queued and the idler is done. -/
theorem listenersEnd_accounted (accounted : Accounted family state) (alive : state.elements e ≠ none) :
    Accounted family (listenersEnd state e) := by
  have added := eventAdd_ledger accounted.ledger .updated rfl alive
  have wf := eventAdd_tableWf accounted.wf .updated e
  have addedAccounted : Accounted family (eventAdd state .updated e) := by
    refine ⟨wf, ?_⟩
    rw [show (eventAdd state .updated e).entries = state.entries by
      simp [State.entries, eventAdd, ecoreEventAdd]]
    exact added
  have idlers : (listenersEnd state e).idlers = (eventAdd state .updated e).idlers.erase e := by
    simp [listenersEnd]
  have entries : (listenersEnd state e).entries = (eventAdd state .updated e).entries := by
    simp [State.entries, listenersEnd]
  refine ⟨(wf.modify e Element.disarmIdler (fun _ => rfl) (fun _ => rfl) fun _ => rfl).congr rfl rfl rfl, ?_⟩
  rw [entries]
  refine addedAccounted.ledger.recount
    (map_modify Element.account _ e Element.disarmIdler fun _ => rfl) (modify_events ..)
    (modify_handlers ..) (modify_nextElement ..) (modify_userRefs ..) ?_ ?_
  · intro other armed
    rw [idlers, List.Nodup.mem_erase_iff addedAccounted.ledger.idlersNodup] at armed
    obtain ⟨element, found, changed⟩ := addedAccounted.ledger.idle other armed.2
    refine ⟨element, ?_, changed⟩
    refine (modify_elements _ e other Element.disarmIdler).trans ?_
    rw [if_neg armed.1, found]
  · rw [idlers]
    exact addedAccounted.ledger.idlersNodup.erase e

/-- A listener dropped the last reference to its element. -/
def ListenerFreed (state : State) (label : Label) : Prop :=
  label = .listenersReturn ∧ ∃ e below, state.stack = .listeners e :: below ∧ state.elements e = none

theorem startDiscovery_kept (kept : Kept family state) (e : ElementId) (userCb : Bool) :
    Kept family (startDiscovery accepts state e userCb) := by
  unfold startDiscovery
  refine messageSend_kept ⟨⟨?_, ?_⟩, ?_⟩ e .startDiscovery false userCb
  · exact kept.accounted.wf.congr rfl rfl rfl
  case refine_3 => exact kept.framed.congr rfl rfl rfl rfl rfl
  have ledger := kept.accounted.ledger
  refine ⟨ledger.counted, ledger.alive, ledger.queued, ?_, ledger.idle, ledger.idlersNodup, ledger.unborn⟩
  intro other
  refine Eq.trans ?_ (ledger.handled other)
  simp

theorem clearElements_stack (state : State) : (clearElements state).stack = state.stack := by
  have each : ∀ before e, before.stack = state.stack → (unregisterInternal before e).stack = state.stack := by
    intro before e same
    unfold unregisterInternal ecoreEventAdd
    split
    · exact same
    · exact same
  exact foldl_keeps each _ (rfl : ({ state with table := [] } : State).stack = state.stack)

theorem eventFree_kept (accounted : Accounted family state) (idle : state.stack = [])
    {event : Event} {rest : List (Event × ElementId)} (head : state.events = (event, e) :: rest) :
    Kept family (eventFree family { state with events := rest } event e) := by
  unfold eventFree
  split
  · rename_i isDeviceFound
    refine ⟨⟨accounted.wf.congr rfl rfl rfl, ?_⟩, framed_of_idle idle⟩
    refine accounted.ledger.requeue rfl rfl rfl rfl rfl ?_ ?_
    · intro other
      rw [eventRefs_cons state event e other rest head, isDeviceFound]
      rfl
    · intro event' other listed _
      rw [head]
      exact .tail _ listed
  · rename_i other
    have holds : event.holds = true := by simpa [Event.holds] using other
    exact elementUnref_kept ⟨accounted.wf.congr rfl rfl rfl, accounted.ledger.dequeue head holds⟩
      (framed_of_idle idle)

theorem deviceFound_kept (accounted : Accounted family state) (idle : state.stack = []) :
    Kept family (ecoreEventAdd (state.touch e) .deviceFound e) := by
  refine ⟨⟨accounted.wf.congr rfl rfl rfl, ?_⟩, framed_of_idle idle⟩
  refine accounted.ledger.requeue rfl rfl rfl rfl rfl ?_ ?_
  · intro other
    exact eventRefs_append (state.touch e) .deviceFound e other
  · intro event other listed holds
    rcases List.mem_append.mp listed with before | new
    · exact before
    · obtain ⟨rfl, -⟩ := Prod.mk.inj (List.mem_singleton.mp new)
      cases holds

theorem replyRead_closed {property : State → Prop} (closed : Closed family accepts property)
    (call : Call) (reply : Reply) (holds : property state) :
    property (replyRead accepts family state call reply) := by
  cases reply with
  | error => exact holds
  | plain => exact holds
  | properties received =>
      simp only [replyRead]
      split
      · exact closed.getPropertiesCallback call.element received holds
      · exact holds

theorem callBegin_stack {c : CallId} {call : Call} (known : state.calls c = some call)
    (answer : Answer) : (callBegin state c answer).stack = .callback c call.userCb :: state.stack := by
  simp [callBegin, known]

/-- Steps keep the accounts. -/
theorem transition_kept {label : Label} {next : State} (kept : Kept family state)
    (transition : Transition accepts family state label next)
    (listener : ¬ ListenerFreed state label) : Kept family next := by
  cases transition with
  | sync => exact messageSend_kept (register_kept kept "/" family.managerInterface) _ _ _ _
  | ref e acts alive =>
      have counted := kept.accounted.wf.modify e Element.addReference (fun _ => rfl) (fun _ => rfl)
        fun _ => rfl
      refine ⟨⟨counted.congr rfl rfl rfl, ?_⟩, ?_⟩
      · have held := kept.accounted.ledger.hold alive
        rw [← show (state.modify e Element.addReference).entries = state.entries by
          rw [State.entries, modify_table, State.entries]] at held
        exact held
      · exact kept.framed.congr (modify_stack ..) (modify_nextElement ..) (modify_table ..)
          (modify_events ..) (modify_idlers ..)
  | unref e acts held =>
      have same : holdReference (returnReference state e) e = state := by
        have back : state.userRefs e - 1 + 1 = state.userRefs e := Nat.succ_pred_eq_of_pos held
        simp [holdReference, returnReference, back]
      refine elementUnref_kept ?_ ?_
      · rw [same]
        exact kept.accounted
      · rw [same]
        exact kept.framed
  | send e list libraryCb userCb => exact messageSend_kept kept e list libraryCb userCb
  | startDiscovery e userCb => exact startDiscovery_kept kept e userCb
  | register path interface => exact register_kept kept path interface
  | unregister e idle =>
      refine ⟨elementUnregister_accounted kept.accounted e, framed_of_idle ?_⟩
      exact (stack_closed family accepts []).unregister state e idle
  | clear idle =>
      exact ⟨clearElements_accounted kept.accounted,
        framed_of_idle ((clearElements_stack state).trans idle)⟩
  | deliver event e rest idle head => exact eventFree_kept kept.accounted idle head
  | propertyChanged e name wire idle =>
      exact ⟨(accounted_closed family accepts).propertyChangedCallback e name wire kept.accounted,
        framed_of_idle ((stack_closed family accepts []).propertyChangedCallback e name wire idle)⟩
  | deviceFound e idle => exact deviceFound_kept kept.accounted idle
  | idler e idle armed =>
      obtain ⟨element, found, -⟩ := kept.accounted.ledger.idle e armed
      refine ⟨withStack_accounted kept.accounted _, ?_⟩
      constructor
      · simp [State.withStack]
      · intro other listed
        obtain rfl := Frame.listeners.inj (List.mem_singleton.mp listed)
        refine Nat.lt_of_not_le fun young => ?_
        rw [(kept.accounted.ledger.unborn other young).1] at found
        cases found
      · simp [State.withStack]
  | reply c reply call idle known =>
      have begun := callBegin_kept kept c reply.answer
      have stack := callBegin_stack known reply.answer
      rw [idle] at stack
      refine ⟨replyRead_closed (accounted_closed family accepts) call reply begun.accounted, ?_⟩
      have same := replyRead_closed (stack_closed family accepts _) call reply stack
      constructor <;> simp [same]
  | listenersReturn e below top =>
      have alive : state.elements e ≠ none := fun dead => listener ⟨rfl, e, below, top, dead⟩
      obtain rfl := kept.framed.listeners_last top
      refine ⟨listenersEnd_accounted (withStack_accounted kept.accounted []) alive, framed_of_idle ?_⟩
      simp [listenersEnd, eventAdd, ecoreEventAdd, State.withStack]
  | callbackReturn c userCb below top =>
      exact callEnd_kept ⟨withStack_accounted kept.accounted below, withStack_framed kept.framed top⟩ c
  | freeDead e remaining below top =>
      exact ⟨kept.accounted.settle rfl rfl rfl rfl rfl rfl rfl,
        (withStack_framed kept.framed top).congr rfl rfl rfl rfl rfl⟩
  | freeDone e below element top alive =>
      obtain ⟨-, untabled, unqueued, unarmed⟩ := kept.framed.freeing e [] (top ▸ List.mem_cons_self)
      exact ⟨withStack_accounted (elementGone_accounted kept.accounted untabled unqueued unarmed) below,
        (withStack_framed kept.framed top).congr rfl rfl rfl rfl rfl⟩
  | freeList e list rest below element top =>
      refine ⟨withStack_accounted kept.accounted _, ?_⟩
      have lower := withStack_framed kept.framed top
      constructor
      · intro other remaining listed
        rcases List.mem_cons.mp listed with isTop | inBelow
        · obtain ⟨rfl, -⟩ := Frame.freeing.inj isTop
          exact kept.framed.freeing other (list :: rest) (top ▸ List.mem_cons_self)
        · exact lower.freeing other remaining inBelow
      · intro other listed
        exact lower.listening other ((List.mem_cons.mp listed).resolve_left (by simp))
      · exact bottom_cons (by simp) lower.bottom
  | freeCall e list rest below element c => exact callBegin_kept kept c .canceled

/-- Steps keep the table well formed, those that use freed memory too. -/
theorem transition_tableWf {label : Label} {next : State} (kept : Kept family state)
    (transition : Transition accepts family state label next) : TableWf family next := by
  by_cases freed : ListenerFreed state label
  · obtain ⟨rfl, -⟩ := freed
    cases transition with
    | listenersReturn e below =>
        have wf : TableWf family (state.withStack below) := kept.accounted.wf.congr rfl rfl rfl
        have updated := (eventAdd_tableWf wf .updated e).modify e Element.disarmIdler (fun _ => rfl) (fun _ => rfl)
          fun _ => rfl
        exact updated.congr rfl rfl rfl
  · exact (transition_kept kept transition freed).accounted.wf

/-! ## Facts about elements and the table -/

/-- A fact about elements with their properties, the table and the counter of elements, which survives what is
done to these. -/
structure Lasting (family : Family) (property : State → Prop) : Prop where
  congr : ∀ {state after}, property state → after.elements = state.elements → after.table = state.table →
    after.nextElement = state.nextElement → property after
  modify : ∀ state e change, (∀ element : Element, (change element).props = element.props) →
    property state → property (state.modify e change)
  setProperty : ∀ state e name (wire : Wire), property state →
    property (state.modify e (Element.setProperty name (wire.value family)))
  insert : ∀ state path interface, property state → property (elementInsert family state path interface)
  remove : ∀ state table, table.Sublist state.table → property state → property { state with table := table }
  gone : ∀ state e, property state → property (elementGone state e)

section Lasting

variable {property : State → Prop} (lasting : Lasting family property)
include lasting

theorem Lasting.register (path interface : String) (holds : property state) :
    property (elementRegister family state path interface).1 := by
  unfold elementRegister
  split
  · exact holds
  · have inserted := lasting.insert state path interface holds
    exact lasting.congr (lasting.modify _ state.nextElement Element.addReference (fun _ => rfl) inserted) rfl rfl rfl

theorem Lasting.messageSend (e : ElementId) (list : PendingList) (libraryCb userCb : Bool) (holds : property state) :
    property (messageSend accepts state e list libraryCb userCb) := by
  unfold Elements.messageSend
  split
  · have listed := lasting.modify state e (Element.appendCall list state.nextCall) (fun _ => rfl) holds
    exact lasting.congr listed rfl rfl rfl
  · exact lasting.congr holds rfl rfl rfl

theorem Lasting.unregisterInternal (e : ElementId) (holds : property state) :
    property (unregisterInternal state e) := by
  have deaf := lasting.modify state e (fun element => { element with signalHandler := false }) (fun _ => rfl) holds
  unfold State.modify at deaf
  unfold Elements.unregisterInternal
  split
  · exact lasting.congr holds rfl rfl rfl
  · rename_i element alive
    rw [alive] at deaf
    exact lasting.congr deaf rfl rfl rfl

theorem Lasting.unregister (e : ElementId) (holds : property state) : property (elementUnregister family state e) := by
  unfold elementUnregister
  split
  · exact lasting.congr holds rfl rfl rfl
  · unfold hashDel
    split
    · exact holds
    · exact lasting.unregisterInternal _ (lasting.remove state _ List.filter_sublist holds)

theorem Lasting.clear (holds : property state) : property (clearElements state) :=
  foldl_keeps (fun _ e holds => lasting.unregisterInternal e holds) _
    (lasting.remove state [] (List.nil_sublist _) holds)

/-- Such a fact survives messages. -/
theorem Lasting.closed (accepts : CallId → Bool) : Closed family accepts property where
  fault _ holds := lasting.congr holds rfl rfl rfl
  register _ path interface holds := lasting.register path interface holds
  sync _ path interface holds :=
    lasting.messageSend _ .propertiesGet true false (lasting.register path interface holds)
  unregister _ e holds := lasting.unregister e holds
  setProperty := lasting.setProperty
  listeners state e holds := by
    unfold listenersCall
    split
    · exact lasting.congr holds rfl rfl rfl
    · split
      · exact holds
      · exact lasting.congr (lasting.modify state e Element.armIdler (fun _ => rfl) holds) rfl rfl rfl

theorem Lasting.unref (e : ElementId) (holds : property state) : property (elementUnref family state e) := by
  have dropped := lasting.modify state e Element.dropReference (fun _ => rfl) holds
  unfold elementUnref
  split
  · exact lasting.congr holds rfl rfl rfl
  · simp only
    split
    · exact lasting.congr dropped rfl rfl rfl
    · exact dropped

theorem Lasting.callBegin (c : CallId) (answer : Answer) (holds : property state) :
    property (callBegin state c answer) := by
  unfold Elements.callBegin
  split <;> exact lasting.congr holds rfl rfl rfl

/-- Such a fact survives steps. -/
theorem Lasting.transition {label : Label} {next : State} (holds : property state)
    (transition : Transition accepts family state label next) : property next := by
  have closed := lasting.closed accepts
  have same : ∀ after, after.elements = state.elements → after.table = state.table →
      after.nextElement = state.nextElement → property after :=
    fun _ elements table nextElement => lasting.congr holds elements table nextElement
  cases transition with
  | sync => exact closed.sync state _ _ holds
  | ref e =>
      exact lasting.congr (lasting.modify state e Element.addReference (fun _ => rfl) holds) rfl rfl rfl
  | unref e => exact lasting.unref e (same _ rfl rfl rfl)
  | send e list libraryCb userCb => exact lasting.messageSend e list libraryCb userCb holds
  | startDiscovery e userCb => exact lasting.messageSend e .startDiscovery false userCb (same _ rfl rfl rfl)
  | register path interface => exact lasting.register path interface holds
  | unregister e => exact lasting.unregister e holds
  | clear => exact lasting.clear holds
  | deliver event e rest =>
      unfold eventFree
      split
      · exact same _ rfl rfl rfl
      · exact lasting.unref e (same _ rfl rfl rfl)
  | propertyChanged e name wire => exact closed.propertyChangedCallback e name wire holds
  | deviceFound e => exact same _ rfl rfl rfl
  | idler e => exact same _ rfl rfl rfl
  | reply c reply call => exact replyRead_closed closed call reply (lasting.callBegin c reply.answer holds)
  | listenersReturn e below =>
      have popped : property (state.withStack below) := same _ rfl rfl rfl
      have counted := lasting.modify _ e Element.addReference (fun _ => rfl) popped
      have queued : property (eventAdd (state.withStack below) .updated e) := lasting.congr counted rfl rfl rfl
      exact lasting.congr (lasting.modify _ e Element.disarmIdler (fun _ => rfl) queued) rfl rfl rfl
  | callbackReturn c userCb below =>
      unfold callEnd
      split
      · exact same _ rfl rfl rfl
      · have popped : property (state.withStack below) := same _ rfl rfl rfl
        exact lasting.congr (lasting.modify _ _ (Element.removeCall _ c) (fun _ => rfl) popped) rfl rfl rfl
  | freeDead => exact same _ rfl rfl rfl
  | freeDone e => exact lasting.congr (lasting.gone state e holds) rfl rfl rfl
  | freeList => exact same _ rfl rfl rfl
  | freeCall e list rest below element c => exact lasting.callBegin c .canceled holds

end Lasting

end EDBus.Elements
