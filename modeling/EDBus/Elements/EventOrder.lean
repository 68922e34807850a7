import EDBus.Elements.Ledger

/-!
# The order of an element's events

An element is added, updated any number of times and deleted at most once, and the
users are told so in that order. The exception is an idler that fires after its
element was unregistered: `eventsInOrder_iff_along` says that it is the only one.
-/

namespace EDBus.Elements

variable {family : Family} {accepts : CallId → Bool} {state after : State}
  {tabled : List ElementId} {e : ElementId}

/-! ## Orders of events -/

/-- The events of an element that was added and perhaps updated. -/
def AddUpdates (events : List Event) : Prop := ∃ n, events = .add :: List.replicate n .updated

/-- The events of an element that was deleted in the end. -/
def Complete (events : List Event) : Prop := ∃ before, AddUpdates before ∧ events = before ++ [.del]

/-- An element is added once, then updated, and then deleted at most once. -/
def InOrder (events : List Event) : Prop := AddUpdates events ∨ Complete events

theorem addUpdates_add : AddUpdates [.add] := ⟨0, rfl⟩

theorem AddUpdates.updated {events : List Event} (live : AddUpdates events) :
    AddUpdates (events ++ [.updated]) := by
  obtain ⟨n, rfl⟩ := live
  refine ⟨n + 1, ?_⟩
  rw [List.replicate_succ', List.cons_append]

theorem AddUpdates.del {events : List Event} (live : AddUpdates events) :
    Complete (events ++ [.del]) := ⟨events, live, rfl⟩

theorem AddUpdates.ne_nil {events : List Event} (live : AddUpdates events) : events ≠ [] := by
  obtain ⟨n, rfl⟩ := live
  exact List.cons_ne_nil _ _

theorem AddUpdates.del_notMem {events : List Event} (live : AddUpdates events) : .del ∉ events := by
  obtain ⟨n, rfl⟩ := live
  simp

/-- Nothing comes after the deletion. -/
theorem Complete.not_inOrder {events : List Event} (complete : Complete events) :
    ¬ InOrder (events ++ [.updated]) := by
  obtain ⟨before, -, rfl⟩ := complete
  rintro (live | ⟨other, live, same⟩)
  · exact live.del_notMem (by simp)
  · obtain ⟨-, last⟩ := List.append_inj' same rfl
    cases last

/-! ## The events of a module -/

/-- The events that were queued for an element. A found device is an event of its own. -/
def State.eventsOf (state : State) (e : ElementId) : List Event :=
  (state.queued.filter fun entry => entry.1.holds && entry.2 == e).map Prod.fst

/-- The users are told about each element in order. -/
def EventsInOrder (state : State) : Prop :=
  ∀ e, e < state.nextElement → InOrder (state.eventsOf e)

/-- The events tell whether an element is in the table. -/
structure Logged (tabled : List ElementId) (state : State) : Prop where
  unborn : ∀ e, state.nextElement ≤ e → state.eventsOf e = []
  live : ∀ e ∈ tabled, AddUpdates (state.eventsOf e)
  gone : ∀ e, e < state.nextElement → e ∉ tabled → Complete (state.eventsOf e)

theorem initial_logged : Logged [] State.initial where
  unborn _ _ := rfl
  live _ listed := by cases listed
  gone _ old := by cases old

theorem Logged.perm {other : List ElementId} (logged : Logged tabled state)
    (same : tabled.Perm other) : Logged other state where
  unborn := logged.unborn
  live e listed := logged.live e (same.mem_iff.mpr listed)
  gone e old untabled := logged.gone e old fun listed => untabled (same.mem_iff.mp listed)

/-- Only the events queued and the number of elements matter. -/
theorem Logged.congr (logged : Logged tabled state) (queued : after.queued = state.queued)
    (nextElement : after.nextElement = state.nextElement) : Logged tabled after := by
  have events : ∀ e, after.eventsOf e = state.eventsOf e := by
    intro e
    rw [State.eventsOf, queued, State.eventsOf]
  refine ⟨?_, ?_, ?_⟩
  · intro e young
    rw [events, logged.unborn e (nextElement ▸ young)]
  · intro e listed
    rw [events]
    exact logged.live e listed
  · intro e old untabled
    rw [events]
    exact logged.gone e (nextElement ▸ old) untabled

theorem Logged.inOrder (logged : Logged tabled state) : EventsInOrder state := by
  intro e old
  by_cases listed : e ∈ tabled
  · exact .inl (logged.live e listed)
  · exact .inr (logged.gone e old listed)

theorem eventsOf_append (state : State) (event : Event) (e other : ElementId) :
    (ecoreEventAdd state event e).eventsOf other =
      state.eventsOf other ++ if event.holds = true ∧ e = other then [event] else [] := by
  simp only [State.eventsOf, ecoreEventAdd, List.filter_append, List.map_append, List.filter_cons,
    List.filter_nil]
  congr 1
  by_cases both : event.holds = true ∧ e = other
  · simp [both]
  · rw [if_neg (by simpa using both), if_neg both]
    rfl

/-- A found device is nobody's event. -/
theorem Logged.deviceFound (logged : Logged tabled state) (e : ElementId) :
    Logged tabled (ecoreEventAdd (state.touch e) .deviceFound e) := by
  have events : ∀ other, (ecoreEventAdd (state.touch e) .deviceFound e).eventsOf other =
      state.eventsOf other := by
    intro other
    refine (eventsOf_append (state.touch e) .deviceFound e other).trans ?_
    simp [Event.holds, State.eventsOf, State.touch]
  refine ⟨?_, ?_, ?_⟩
  · intro other young
    rw [events, logged.unborn other young]
  · intro other listed
    rw [events]
    exact logged.live other listed
  · intro other old untabled
    rw [events]
    exact logged.gone other old untabled

@[simp] theorem modify_queued (state : State) (e : ElementId) (change : Element → Element) :
    (state.modify e change).queued = state.queued := by
  unfold State.modify
  split <;> rfl

/-- An event of an element, and those of the others. -/
theorem eventsOf_eventAdd (state : State) (event : Event) (holds : event.holds = true)
    (e other : ElementId) :
    (eventAdd state event e).eventsOf other =
      state.eventsOf other ++ if e = other then [event] else [] := by
  refine (eventsOf_append (state.modify e Element.addReference) event e other).trans ?_
  rw [State.eventsOf, modify_queued, State.eventsOf]
  simp [holds]

/-- A new element is told of. -/
theorem Logged.insert (logged : Logged tabled state) (family : Family) (path interface : String) :
    Logged (state.nextElement :: tabled)
      (eventAdd (elementInsert family state path interface) .add state.nextElement) := by
  have events := eventsOf_eventAdd (elementInsert family state path interface) .add rfl
    state.nextElement
  have before : ∀ other, (elementInsert family state path interface).eventsOf other =
      state.eventsOf other := fun _ => rfl
  have next : (eventAdd (elementInsert family state path interface) .add state.nextElement).nextElement =
      state.nextElement + 1 := by
    simp [eventAdd, ecoreEventAdd, elementInsert]
  refine ⟨?_, ?_, ?_⟩
  · intro other young
    rw [next] at young
    rw [events, before, if_neg (Nat.ne_of_lt young), List.append_nil]
    exact logged.unborn other (Nat.le_of_lt young)
  · intro other listed
    rw [events, before]
    by_cases here : state.nextElement = other
    · rw [if_pos here, logged.unborn other (Nat.le_of_eq here), List.nil_append]
      exact addUpdates_add
    · rw [if_neg here, List.append_nil]
      exact logged.live other ((List.mem_cons.mp listed).resolve_left fun same => here same.symm)
  · intro other old untabled
    rw [List.mem_cons, not_or] at untabled
    rw [next] at old
    have older : other < state.nextElement :=
      Nat.lt_of_le_of_ne (Nat.le_of_lt_succ old) untabled.1
    rw [events, before, if_neg fun same => untabled.1 same.symm, List.append_nil]
    exact logged.gone other older untabled.2

/-- An element that leaves the table is told of. -/
theorem Logged.unregister (logged : Logged (e :: tabled) state) (once : e ∉ tabled)
    (alive : state.elements e ≠ none) : Logged tabled (unregisterInternal state e) := by
  obtain ⟨element, found⟩ := Option.ne_none_iff_exists'.mp alive
  have events : ∀ other, (unregisterInternal state e).eventsOf other =
      state.eventsOf other ++ if e = other then [.del] else [] := by
    intro other
    simp only [unregisterInternal, found]
    refine (eventsOf_append _ .del e other).trans ?_
    simp [Event.holds, State.eventsOf]
  have nextElement : (unregisterInternal state e).nextElement = state.nextElement := by
    simp [unregisterInternal, found, ecoreEventAdd]
  refine ⟨?_, ?_, ?_⟩
  · intro other young
    rw [nextElement] at young
    have unlogged := logged.unborn other young
    have different : e ≠ other := by
      rintro rfl
      exact (logged.live e List.mem_cons_self).ne_nil unlogged
    rw [events, unlogged, if_neg different]
    rfl
  · intro other listed
    have different : e ≠ other := by
      rintro rfl
      exact once listed
    rw [events, if_neg different, List.append_nil]
    exact logged.live other (.tail _ listed)
  · intro other old untabled
    rw [nextElement] at old
    rw [events]
    by_cases here : e = other
    · rw [if_pos here]
      exact (logged.live other (here ▸ List.mem_cons_self)).del
    · rw [if_neg here, List.append_nil]
      refine logged.gone other old fun listed => ?_
      exact (List.mem_cons.mp listed).elim (fun same => here same.symm) untabled

/-- An element that is still in the table is updated. -/
theorem Logged.updated (logged : Logged tabled state) (listed : e ∈ tabled) :
    Logged tabled (eventAdd state .updated e) := by
  have events := eventsOf_eventAdd state .updated rfl e
  have nextElement : (eventAdd state .updated e).nextElement = state.nextElement := by
    simp [eventAdd, ecoreEventAdd]
  refine ⟨?_, ?_, ?_⟩
  · intro other young
    rw [nextElement] at young
    have unlogged := logged.unborn other young
    have different : e ≠ other := by
      rintro rfl
      exact (logged.live e listed).ne_nil unlogged
    rw [events, unlogged, if_neg different]
    rfl
  · intro other otherListed
    rw [events]
    split
    · exact (logged.live other otherListed).updated
    · rw [List.append_nil]
      exact logged.live other otherListed
  · intro other old untabled
    rw [nextElement] at old
    have different : e ≠ other := by
      rintro rfl
      exact untabled listed
    rw [events, if_neg different, List.append_nil]
    exact logged.gone other old untabled

/-- An element that left the table is updated too late. -/
theorem Logged.updated_late (logged : Logged tabled state) (old : e < state.nextElement)
    (untabled : e ∉ tabled) : ¬ InOrder ((eventAdd state .updated e).eventsOf e) := by
  rw [eventsOf_eventAdd state .updated rfl e e, if_pos rfl]
  exact (logged.gone e old untabled).not_inOrder

/-! ## Messages -/

/-- The table, the events queued and the number of elements. -/
structure SameLog (state after : State) : Prop where
  table : after.table = state.table
  queued : after.queued = state.queued
  nextElement : after.nextElement = state.nextElement

theorem SameLog.logged (same : SameLog state after) (logged : Logged state.entries state) :
    Logged after.entries after := by
  rw [State.entries, same.table]
  exact logged.congr same.queued same.nextElement

theorem modify_sameLog (state : State) (e : ElementId) (change : Element → Element) :
    SameLog state (state.modify e change) :=
  ⟨modify_table .., modify_queued .., modify_nextElement ..⟩

theorem elementUnref_sameLog (family : Family) (state : State) (e : ElementId) :
    SameLog state (elementUnref family state e) := by
  have dropped := modify_sameLog state e Element.dropReference
  unfold elementUnref
  split
  · exact ⟨rfl, rfl, rfl⟩
  · simp only
    split
    · exact ⟨dropped.table, dropped.queued, dropped.nextElement⟩
    · exact dropped

theorem callBegin_sameLog (state : State) (c : CallId) (answer : Answer) :
    SameLog state (callBegin state c answer) := by
  unfold callBegin
  split <;> exact ⟨rfl, rfl, rfl⟩

theorem callEnd_sameLog (state : State) (c : CallId) : SameLog state (callEnd state c) := by
  unfold callEnd
  split
  · exact ⟨rfl, rfl, rfl⟩
  · rename_i call known
    have removed := modify_sameLog state call.element (Element.removeCall call.list c)
    exact ⟨removed.table, removed.queued, removed.nextElement⟩

theorem messageSend_sameLog (state : State) (e : ElementId) (list : PendingList)
    (libraryCb userCb : Bool) :
    SameLog state (messageSend accepts state e list libraryCb userCb) := by
  unfold messageSend
  split
  · have sent := modify_sameLog state e (Element.appendCall list state.nextCall)
    exact ⟨sent.table, sent.queued, sent.nextElement⟩
  · exact ⟨rfl, rfl, rfl⟩

theorem listenersCall_sameLog (state : State) (e : ElementId) :
    SameLog state (listenersCall state e) := by
  unfold listenersCall
  split
  · exact ⟨rfl, rfl, rfl⟩
  · split
    · exact ⟨rfl, rfl, rfl⟩
    · have armed := modify_sameLog state e Element.armIdler
      exact ⟨armed.table, armed.queued, armed.nextElement⟩

/-- A module with its accounts, whose events tell what is in the table. -/
structure Chronicled (family : Family) (state : State) : Prop where
  accounted : Accounted family state
  logged : Logged state.entries state

theorem Chronicled.congr (chronicled : Chronicled family state) (accounted : Accounted family after)
    (same : SameLog state after) : Chronicled family after :=
  ⟨accounted, same.logged chronicled.logged⟩

theorem elementRegister_chronicled (chronicled : Chronicled family state) (path interface : String) :
    Chronicled family (elementRegister family state path interface).1 := by
  refine ⟨elementRegister_accounted chronicled.accounted path interface, ?_⟩
  unfold elementRegister
  split
  · exact chronicled.logged
  · refine (chronicled.logged.insert family path interface).perm ?_
    simp only [State.entries, eventAdd, ecoreEventAdd, modify_table, elementInsert, List.map_append]
    exact (List.perm_append_singleton _ _).symm

theorem messageSend_chronicled (chronicled : Chronicled family state) (e : ElementId)
    (list : PendingList) (libraryCb userCb : Bool) :
    Chronicled family (messageSend accepts state e list libraryCb userCb) :=
  chronicled.congr (messageSend_accounted chronicled.accounted e list libraryCb userCb)
    (messageSend_sameLog state e list libraryCb userCb)

theorem hashDel_chronicled (chronicled : Chronicled family state) (key : String) :
    Chronicled family (hashDel state key) := by
  refine ⟨hashDel_accounted chronicled.accounted key, ?_⟩
  unfold hashDel
  split
  · exact chronicled.logged
  · rename_i e found
    have wf := chronicled.accounted.wf
    have split := Semantics.Keyed.perm_filter_key wf.keysNodup (wf.find_iff.mp found)
    have nodup := split.nodup_iff.mp wf.entries_nodup
    obtain ⟨element, alive, -⟩ := wf.found found
    rw [unregisterInternal_entries]
    refine Logged.unregister ?_ (List.nodup_cons.mp nodup).1 (Option.ne_none_iff_exists'.mpr ⟨_, alive⟩)
    exact (chronicled.logged.perm split).congr rfl rfl

theorem elementUnregister_chronicled (chronicled : Chronicled family state) (e : ElementId) :
    Chronicled family (elementUnregister family state e) := by
  have accounted := elementUnregister_accounted chronicled.accounted e
  unfold elementUnregister at accounted ⊢
  split
  · rename_i dead
    rw [dead] at accounted
    exact chronicled.congr accounted ⟨rfl, rfl, rfl⟩
  · exact hashDel_chronicled chronicled _

/-- Elements leave the table one by one, and each is told of. -/
theorem unregisterAll_logged (left : List ElementId) (nodup : left.Nodup)
    (ledger : Ledger left state) (logged : Logged left state) :
    Logged [] (left.foldl unregisterInternal state) := by
  induction left generalizing state with
  | nil => exact logged
  | cons e rest ih =>
      obtain ⟨once, restNodup⟩ := List.nodup_cons.mp nodup
      obtain ⟨element, alive, -⟩ := ledger.alive e List.mem_cons_self
      exact ih restNodup (unregisterInternal_ledger ledger once)
        (logged.unregister once (Option.ne_none_iff_exists'.mpr ⟨_, alive⟩))

theorem clearElements_chronicled (chronicled : Chronicled family state) :
    Chronicled family (clearElements state) := by
  refine ⟨clearElements_accounted chronicled.accounted, ?_⟩
  have entries := unregisterAll_entries state.entries { state with table := [] }
  rw [show (clearElements state).entries = [] from entries]
  refine unregisterAll_logged state.entries chronicled.accounted.wf.entries_nodup ?_ ?_
  · exact chronicled.accounted.ledger.congr (fun _ => rfl) (fun _ => rfl) rfl rfl rfl rfl rfl
  · exact chronicled.logged.congr rfl rfl

/-- Messages are told of in order. -/
theorem chronicled_closed (family : Family) (accepts : CallId → Bool) :
    Closed family accepts (Chronicled family) where
  fault _ chronicled :=
    chronicled.congr (chronicled.accounted.settle rfl rfl rfl rfl rfl rfl rfl) ⟨rfl, rfl, rfl⟩
  register _ path interface chronicled := elementRegister_chronicled chronicled path interface
  sync _ path interface chronicled :=
    messageSend_chronicled (elementRegister_chronicled chronicled path interface) _ .propertiesGet
      true false
  unregister _ e chronicled := elementUnregister_chronicled chronicled e
  setProperty _ e name wire chronicled :=
    chronicled.congr (chronicled.accounted.modify e (Element.setProperty name (wire.value family))
      (fun _ => rfl) (fun _ => rfl) (fun _ => rfl) fun _ => rfl) (modify_sameLog ..)
  listeners _ e chronicled :=
    chronicled.congr (listenersCall_accounted chronicled.accounted e) (listenersCall_sameLog ..)

/-! ## Steps -/

/-- Listeners are called until they return for elements in the table only. -/
def UpdatesTabled (state : State) : Label → Prop
  | .listenersReturn => ∀ e below, state.stack = .listeners e :: below → e ∈ state.entries
  | _ => True

/-- No listener frees an element that is in the table. -/
theorem UpdatesTabled.not_freed {label : Label} (kept : Kept family state)
    (tabled : UpdatesTabled state label) : ¬ ListenerFreed state label := by
  rintro ⟨rfl, e, below, top, dead⟩
  obtain ⟨element, alive, -⟩ := kept.accounted.ledger.alive e (tabled e below top)
  rw [dead] at alive
  cases alive

theorem listenersEnd_queued (state : State) (e : ElementId) :
    SameLog (eventAdd state .updated e) (listenersEnd state e) := by
  have disarmed := modify_sameLog (eventAdd state .updated e) e Element.disarmIdler
  exact ⟨disarmed.table, disarmed.queued, disarmed.nextElement⟩

/-- Steps tell of elements in order. -/
theorem transition_logged {label : Label} {next : State} (kept : Kept family state)
    (logged : Logged state.entries state) (transition : Transition accepts family state label next)
    (tabled : UpdatesTabled state label) : Logged next.entries next := by
  have chronicled : Chronicled family state := ⟨kept.accounted, logged⟩
  have closed := chronicled_closed family accepts
  cases transition with
  | sync => exact (closed.sync state _ _ chronicled).logged
  | ref e =>
      have added := modify_sameLog state e Element.addReference
      exact SameLog.logged ⟨added.table, added.queued, added.nextElement⟩ logged
  | unref e =>
      have returned : SameLog state (returnReference state e) := ⟨rfl, rfl, rfl⟩
      exact (elementUnref_sameLog family _ e).logged (returned.logged logged)
  | send e list libraryCb userCb => exact (messageSend_sameLog ..).logged logged
  | startDiscovery e userCb =>
      refine (messageSend_sameLog _ e .startDiscovery false userCb).logged ?_
      exact logged.congr rfl rfl
  | register path interface => exact (closed.register state path interface chronicled).logged
  | unregister e => exact (closed.unregister state e chronicled).logged
  | clear => exact (clearElements_chronicled chronicled).logged
  | deliver event e rest =>
      have taken : SameLog state { state with events := rest } := ⟨rfl, rfl, rfl⟩
      unfold eventFree
      split
      · exact taken.logged logged
      · exact (elementUnref_sameLog family _ e).logged (taken.logged logged)
  | propertyChanged e name wire => exact (closed.propertyChangedCallback e name wire chronicled).logged
  | deviceFound e => exact logged.deviceFound e
  | idler e => exact logged.congr rfl rfl
  | reply c reply call =>
      have begun := (callBegin_sameLog state c reply.answer).logged logged
      refine (replyRead_closed closed call reply ⟨?_, begun⟩).logged
      exact (callBegin_kept kept c reply.answer).accounted
  | listenersReturn e below top =>
      have updated := logged.updated (tabled e below top)
      refine (listenersEnd_queued (state.withStack below) e).logged ?_
      rw [show (eventAdd (state.withStack below) .updated e).entries = state.entries by
        simp [State.entries, eventAdd, ecoreEventAdd, State.withStack]]
      refine updated.congr ?_ ?_
      · simp [eventAdd, ecoreEventAdd, State.withStack]
      · simp [eventAdd, ecoreEventAdd, State.withStack]
  | callbackReturn c userCb below =>
      have returned : SameLog state (state.withStack below) := ⟨rfl, rfl, rfl⟩
      exact (callEnd_sameLog _ c).logged (returned.logged logged)
  | freeDead => exact logged.congr rfl rfl
  | freeDone => exact logged.congr rfl rfl
  | freeList => exact logged.congr rfl rfl
  | freeCall e list rest below element c => exact (callBegin_sameLog state c .canceled).logged logged

/-- Listeners that return late make the order of events wrong. -/
theorem listenersReturn_late {below : List Frame} (kept : Kept family state)
    (logged : Logged state.entries state) (top : state.stack = .listeners e :: below)
    (untabled : e ∉ state.entries) : ¬ EventsInOrder (listenersEnd (state.withStack below) e) := by
  have old : e < state.nextElement := kept.framed.listening e (top ▸ List.mem_cons_self)
  have same := listenersEnd_queued (state.withStack below) e
  have nextElement : (listenersEnd (state.withStack below) e).nextElement = state.nextElement := by
    rw [same.nextElement]
    simp [eventAdd, ecoreEventAdd, State.withStack]
  intro inOrder
  have late : Logged state.entries (state.withStack below) := logged.congr rfl rfl
  refine late.updated_late old untabled ?_
  have here := inOrder e (nextElement.symm ▸ old)
  rw [State.eventsOf, same.queued] at here
  exact here

/-- The users are told about elements in order if and only if, whenever the listeners
of an element were called by the idler, the element is in the table. -/
theorem eventsInOrder_iff_along (accepts : CallId → Bool) (family : Family) (run : List Label) :
    (machine accepts family).Throughout EventsInOrder State.initial run ↔
      (machine accepts family).Along (fun state label _ => UpdatesTabled state label) State.initial run := by
  refine Semantics.Machine.throughout_iff_along
    (fun state => Kept family state ∧ Logged state.entries state) ?_ ?_
    ⟨initial_kept family, initial_logged⟩ initial_logged.inOrder
  · rintro state label next ⟨kept, logged⟩ stepped
    obtain ⟨-, -, transition⟩ := step_transition stepped
    constructor
    · intro inOrder
      by_contra late
      cases transition with
      | listenersReturn e below top =>
          refine late fun other rest same => ?_
          obtain ⟨isFrame, -⟩ := List.cons.inj (top.symm.trans same)
          obtain rfl := Frame.listeners.inj isFrame
          by_contra untabled
          exact listenersReturn_late kept logged top untabled inOrder
      | _ => exact late trivial
    · intro tabled
      exact (transition_logged kept logged transition tabled).inOrder
  · rintro state label next ⟨kept, logged⟩ stepped tabled
    obtain ⟨-, -, transition⟩ := step_transition stepped
    exact ⟨transition_kept kept transition (tabled.not_freed kept),
      transition_logged kept logged transition tabled⟩

/-- A property changes right before its element is unregistered. -/
def updateLate : List Label :=
  [.register "/" "net.connman.Manager", .propertyChanged 0 "State" (.basic (.string "online")),
    .unregister 0, .idler 0, .listenersReturn]

/-- The element is updated after it was deleted. -/
theorem eventsInOrder_fails_updateLate :
    ¬ ∀ (accepts : CallId → Bool) (run : List Label),
      (machine accepts .connman).Throughout EventsInOrder State.initial run := by
  intro always
  obtain ⟨final, executed, events, next⟩ : ∃ final,
      (machine (fun _ => true) .connman).exec State.initial updateLate = some final ∧
      final.eventsOf 0 = [.add, .del, .updated] ∧ final.nextElement = 1 :=
    ⟨_, rfl, by decide, by decide⟩
  have inOrder := (always (fun _ => true) updateLate).finish executed 0 (next ▸ Nat.zero_lt_one)
  rw [events] at inOrder
  exact Complete.not_inOrder ⟨[.add], addUpdates_add, rfl⟩ inOrder

end EDBus.Elements
