import EDBus.Elements.Calls
import EDBus.Elements.Integrity

/-!
# What outlives an element

After an element was freed no call waits for it and no handler, idler or event has it,
and no handler has an element that left the table. `nothingLeft_throughout` proves this
for the runs that steer clear of four defects: the signal handlers of discoveries, which
nothing removes; the lists of bluez that are not cancelled; calls that are sent while
their list was cancelled already; and listeners that free their own element.
-/

namespace EDBus.Elements

variable {family : Family} {accepts : CallId → Bool} {before state after : State}
  {e : ElementId} {c : CallId}

/-- Nothing has an element that was freed, and no handler one that was unregistered. -/
structure NothingLeft (state : State) : Prop where
  calls : ∀ c call, state.calls c = some call → call.outstanding = true →
    state.elements call.element ≠ none
  idlers : ∀ e ∈ state.idlers, state.elements e ≠ none
  events : ∀ event e, (event, e) ∈ state.events → state.elements e ≠ none
  handlers : ∀ signal e, (signal, e) ∈ state.handlers → e ∈ state.entries ∧ state.elements e ≠ none

/-! ## Calls that wait -/

/-- The calls that wait for a reply are in the lists of live elements. -/
def Waiting (state : State) : Prop :=
  ∀ c call, state.calls c = some call → call.outstanding = true → Listed state c call

theorem Waiting.congr (waiting : Waiting before) (lists : ListsSame before after)
    (calls : after.calls = before.calls) : Waiting after := by
  intro c call known outstanding
  rw [calls] at known
  exact lists.listed (waiting c call known outstanding)

theorem Waiting.same (waiting : Waiting before) (same : CallsSame before after) : Waiting after :=
  waiting.congr same.lists same.calls

theorem Waiting.alive (waiting : Waiting state) {call : Call} (known : state.calls c = some call)
    (outstanding : call.outstanding = true) : state.elements call.element ≠ none := by
  obtain ⟨lists, found, -⟩ := waiting c call known outstanding
  intro dead
  rw [State.pendingOf, dead] at found
  cases found

theorem Waiting.send (waiting : Waiting state) (alive : state.elements e ≠ none)
    (list : PendingList) (libraryCb userCb : Bool) :
    Waiting (messageSend accepts state e list libraryCb userCb) := by
  cases accepted : accepts state.nextCall with
  | false =>
      obtain ⟨lists, calls⟩ := messageSend_rejected state e list libraryCb userCb accepted
      exact waiting.congr lists calls
  | true =>
      intro c call known outstanding
      rw [messageSend_accepted state e list libraryCb userCb accepted, Function.update_apply] at known
      split at known
      · rename_i isNew
        obtain rfl := Option.some.inj known
        rw [isNew]
        exact messageSend_new alive list libraryCb userCb accepted
      · exact messageSend_listed (waiting c call known outstanding) e list libraryCb userCb

/-- Messages keep waiting calls in their lists. -/
theorem waiting_closed (family : Family) (accepts : CallId → Bool) :
    Closed family accepts (fun state => Accounted family state ∧ Waiting state) where
  fault _ both := ⟨(accounted_closed family accepts).fault _ both.1,
    both.2.congr (.of_eq fun _ => rfl) rfl⟩
  register _ path interface both := ⟨elementRegister_accounted both.1 path interface,
    both.2.same (elementRegister_callsSame both.1 path interface)⟩
  sync _ path interface both := by
    have registered := elementRegister_accounted both.1 path interface
    refine ⟨messageSend_accounted registered _ .propertiesGet true false, ?_⟩
    exact (both.2.same (elementRegister_callsSame both.1 path interface)).send
      (registered.entry_alive (elementRegister_entry both.1 path interface)) .propertiesGet true false
  unregister state e both := ⟨elementUnregister_accounted both.1 e,
    both.2.same (elementUnregister_callsSame state e)⟩
  setProperty state e name wire both := ⟨(accounted_closed family accepts).setProperty _ e name wire both.1,
    both.2.same (modify_callsSame state e _ fun _ => rfl)⟩
  listeners state e both := ⟨listenersCall_accounted both.1 e,
    both.2.same (listenersCall_callsSame state e)⟩

theorem Waiting.start (waiting : Waiting state) (c : CallId) (answer : Answer) :
    Waiting (callBegin state c answer) := by
  cases known : state.calls c with
  | none =>
      refine waiting.congr (callBegin_lists state c answer) ?_
      simp [callBegin, known]
  | some call =>
      intro c' call' known' outstanding
      rw [callBegin_calls known, Function.update_apply] at known'
      split at known'
      · obtain rfl := Option.some.inj known'
        cases outstanding
      · exact (callBegin_lists state c answer).listed (waiting c' call' known' outstanding)

theorem Waiting.finish (waiting : Waiting state) (c : CallId) : Waiting (callEnd state c) := by
  cases known : state.calls c with
  | none =>
      unfold callEnd
      rw [known]
      exact waiting.congr (.of_eq fun _ => rfl) rfl
  | some call =>
      intro c' call' known' outstanding
      rw [callEnd_calls known, Function.update_apply] at known'
      split at known'
      · cases known'
      · rename_i different
        exact callEnd_listed known different (waiting c' call' known' outstanding)

/-- An element that no call waits for is freed. -/
theorem Waiting.gone (waiting : Waiting state)
    (canceled : ∀ c call, state.calls c = some call → call.element = e → call.outstanding = false) :
    Waiting (elementGone state e) := by
  intro c call known outstanding
  have known : state.calls c = some call := known
  have different : call.element ≠ e := by
    intro here
    rw [canceled c call known here] at outstanding
    cases outstanding
  obtain ⟨lists, found, inList⟩ := waiting c call known outstanding
  exact ⟨lists, by rw [pendingOf_elementGone, if_neg different, found], inList⟩

/-! ## Discoveries -/

/-- The handlers of discoveries belong to elements of bluez in the table, and an event of
a found device has an element with such a handler. -/
structure Discovering (family : Family) (state : State) : Prop where
  handled : ∀ e, (.deviceFound, e) ∈ state.handlers → e ∈ state.entries
  isBluez : ∀ e, (.deviceFound, e) ∈ state.handlers → family = .bluez
  found : ∀ e, (.deviceFound, e) ∈ state.events → (.deviceFound, e) ∈ state.handlers

/-- The handlers of discoveries stay, and no event of a found device comes. -/
structure DiscoverySame (before after : State) : Prop where
  handlers : ∀ e, (.deviceFound, e) ∈ after.handlers ↔ (.deviceFound, e) ∈ before.handlers
  events : ∀ e, (.deviceFound, e) ∈ after.events → (.deviceFound, e) ∈ before.events

theorem DiscoverySame.refl (state : State) : DiscoverySame state state :=
  ⟨fun _ => .rfl, fun _ => id⟩

theorem DiscoverySame.trans {middle : State} (left : DiscoverySame before middle)
    (right : DiscoverySame middle after) : DiscoverySame before after :=
  ⟨fun e => (right.handlers e).trans (left.handlers e), fun e listed => left.events e (right.events e listed)⟩

theorem DiscoverySame.congr (same : DiscoverySame before state)
    (handlers : after.handlers = state.handlers) (events : after.events = state.events) :
    DiscoverySame before after := by
  refine ⟨?_, ?_⟩
  · intro e
    rw [handlers]
    exact same.handlers e
  · intro e
    rw [events]
    exact same.events e

theorem DiscoverySame.event (same : DiscoverySame before state) {event : Event}
    (holds : event.holds = true) (e : ElementId) : DiscoverySame before (ecoreEventAdd state event e) := by
  refine ⟨same.handlers, fun other listed => ?_⟩
  rcases List.mem_append.mp listed with old | new
  · exact same.events other old
  · obtain ⟨rfl, -⟩ := Prod.mk.inj (List.mem_singleton.mp new)
    cases holds

theorem DiscoverySame.modify (same : DiscoverySame before state) (e : ElementId)
    (change : Element → Element) : DiscoverySame before (state.modify e change) :=
  same.congr (modify_handlers ..) (modify_events ..)

theorem DiscoverySame.register (same : DiscoverySame before state) (path interface : String) :
    DiscoverySame before (elementRegister family state path interface).1 := by
  unfold elementRegister
  split
  · exact same
  · have inserted : DiscoverySame before (elementInsert family state path interface) := by
      refine ⟨fun e => ?_, same.events⟩
      rw [← same.handlers]
      simp [elementInsert]
    exact (inserted.modify _ Element.addReference).event rfl _

theorem DiscoverySame.unregisterInternal (same : DiscoverySame before state) (e : ElementId) :
    DiscoverySame before (unregisterInternal state e) := by
  unfold Elements.unregisterInternal
  split
  · exact same.congr rfl rfl
  · refine DiscoverySame.event ?_ (by decide) e
    refine ⟨fun other => ?_, same.events⟩
    rw [← same.handlers]
    split
    · exact List.mem_erase_of_ne (by simp)
    · exact .rfl

theorem DiscoverySame.send (same : DiscoverySame before state) (e : ElementId)
    (list : PendingList) (libraryCb userCb : Bool) :
    DiscoverySame before (messageSend accepts state e list libraryCb userCb) := by
  unfold messageSend
  split
  · exact same.congr (modify_handlers ..) (modify_events ..)
  · exact same.congr rfl rfl

/-- Messages leave discoveries alone. -/
theorem discoverySame_closed (family : Family) (accepts : CallId → Bool) (before : State) :
    Closed family accepts (DiscoverySame before) where
  fault _ same := same.congr rfl rfl
  register _ path interface same := same.register path interface
  sync _ path interface same := (same.register path interface).send _ .propertiesGet true false
  unregister _ e same := by
    unfold elementUnregister
    split
    · exact same.congr rfl rfl
    · unfold hashDel
      split
      · exact same
      · refine DiscoverySame.unregisterInternal ?_ _
        exact same.congr rfl rfl
  setProperty _ e name wire same := same.modify e _
  listeners _ e same := by
    unfold listenersCall
    split
    · exact same.congr rfl rfl
    · split
      · exact same
      · exact (same.modify e Element.armIdler).congr rfl rfl

theorem DiscoverySame.clear (same : DiscoverySame before state) :
    DiscoverySame before (clearElements state) := by
  have emptied : DiscoverySame before { state with table := [] } := same.congr rfl rfl
  have each : ∀ other e, DiscoverySame before other →
      DiscoverySame before (Elements.unregisterInternal other e) :=
    fun _ e same => same.unregisterInternal e
  exact foldl_keeps each _ emptied

theorem DiscoverySame.unref (same : DiscoverySame before state) (e : ElementId) :
    DiscoverySame before (elementUnref family state e) := by
  unfold elementUnref
  split
  · exact same.congr rfl rfl
  · simp only
    split
    · exact (same.modify e Element.dropReference).congr rfl rfl
    · exact same.modify e Element.dropReference

/-- Every element with a discovery that is in the table stays there. -/
def Stays (before after : State) : Prop :=
  ∀ e, (.deviceFound, e) ∈ before.handlers → e ∈ before.entries → e ∈ after.entries

theorem Discovering.same (discovering : Discovering family before) (same : DiscoverySame before after)
    (stays : Stays before after) : Discovering family after where
  handled e listed := by
    have was := (same.handlers e).mp listed
    exact stays e was (discovering.handled e was)
  isBluez e listed := discovering.isBluez e ((same.handlers e).mp listed)
  found e listed := (same.handlers e).mpr (discovering.found e (same.events e listed))

/-- The table stays. -/
theorem Discovering.table (discovering : Discovering family before) (same : DiscoverySame before after)
    (table : after.table = before.table) : Discovering family after := by
  refine discovering.same same fun e _ entry => ?_
  rwa [State.entries, table]

/-! ## Calls of an element that is being freed -/

/-- The calls that wait for an element that is being freed will be cancelled. -/
def Drained (state : State) : Prop :=
  ∀ e remaining, draining e state.stack = some remaining → ∀ c call, state.calls c = some call →
    call.element = e → call.outstanding = true → call.list ∈ remaining

theorem Drained.congr (drained : Drained before) (stack : after.stack = before.stack)
    (calls : after.calls = before.calls) : Drained after := by
  intro e remaining
  rw [stack, calls]
  exact drained e remaining

theorem drained_of_none (none : ∀ e remaining, .freeing e remaining ∉ state.stack) : Drained state :=
  fun e remaining drains => absurd (draining_mem drains) (none e remaining)

theorem drained_of_idle (idle : state.stack = []) : Drained state :=
  drained_of_none (by simp [idle])

theorem Drained.send (drained : Drained state) (list : PendingList) (libraryCb userCb : Bool)
    (listed : accepts state.nextCall = true → ∀ remaining,
      draining e state.stack = some remaining → list ∈ remaining) :
    Drained (messageSend accepts state e list libraryCb userCb) := by
  intro other remaining drains c call known isElement outstanding
  rw [messageSend_stack] at drains
  cases accepted : accepts state.nextCall with
  | false =>
      rw [(messageSend_rejected state e list libraryCb userCb accepted).2] at known
      exact drained other remaining drains c call known isElement outstanding
  | true =>
      rw [messageSend_accepted state e list libraryCb userCb accepted, Function.update_apply] at known
      split at known
      · obtain rfl := Option.some.inj known
        have here : e = other := isElement
        exact listed accepted remaining (here ▸ drains)
      · exact drained other remaining drains c call known isElement outstanding

theorem Drained.unref (drained : Drained state) (canceled : LastReference state e → ∀ c call,
      state.calls c = some call → call.element = e → call.outstanding = true → call.list ∈ family.freeOrder) :
    Drained (elementUnref family state e) := by
  have calls := (elementUnref_callsSame family state e).calls
  rcases elementUnref_stack family state e with ⟨last, stack⟩ | ⟨-, stack⟩
  · intro other remaining drains c call known isElement outstanding
    rw [calls] at known
    rw [stack, draining] at drains
    split at drains
    · rename_i here
      obtain rfl := Option.some.inj drains
      exact canceled last c call known (isElement.trans here.symm) outstanding
    · exact drained other remaining drains c call known isElement outstanding
  · exact drained.congr stack calls

/-- Fewer calls wait, and no freeing starts. -/
theorem Drained.fewer (drained : Drained before)
    (stack : ∀ e, draining e after.stack = draining e before.stack)
    (calls : ∀ c call, after.calls c = some call → call.outstanding = true →
      before.calls c = some call) : Drained after := by
  intro e remaining drains c call known isElement outstanding
  rw [stack] at drains
  exact drained e remaining drains c call (calls c call known outstanding) isElement outstanding

/-! ## Elements with discoveries stay in the table -/

/-- The update of a property unregisters no element with a discovery. -/
def UpdateQuiet (family : Family) (state : State) (e : ElementId) (name : String) (wire : Wire) :
    Prop :=
  ∀ path other, Vanishes family state e name wire path → state.find path = some other →
    (.deviceFound, other) ∉ state.handlers

/-- The same, for one update after the other. -/
def UpdatesQuiet (accepts : CallId → Bool) (family : Family) (state : State) (e : ElementId) :
    List (String × Wire) → Prop
  | [] => True
  | (name, wire) :: rest => UpdateQuiet family state e name wire ∧
      UpdatesQuiet accepts family (propertyReceive accepts family false state e name wire).1 e rest

/-- What happens unregisters no element with a discovery. -/
def StaysQuiet (accepts : CallId → Bool) (family : Family) (state : State) : Label → Prop
  | .unregister e => ∀ element other, state.elements e = some element →
      state.find (family.key element.path element.interface) = some other →
      (.deviceFound, other) ∉ state.handlers
  | .clear => ∀ e ∈ state.entries, (.deviceFound, e) ∉ state.handlers
  | .propertyChanged e name wire => UpdateQuiet family state e name wire
  | .reply c (.properties received) => ∀ call, state.calls c = some call → call.libraryCb = true →
      UpdatesQuiet accepts family (callBegin state c .reply) call.element received
  | _ => True

theorem Stays.table (table : after.table = before.table) : Stays before after := by
  intro e _ entry
  rwa [State.entries, table]

theorem Stays.trans {middle : State} (left : Stays before middle) (same : DiscoverySame before middle)
    (right : Stays middle after) : Stays before after :=
  fun e discovers entry => right e ((same.handlers e).mpr discovers) (left e discovers entry)

theorem elementRegister_stays (state : State) (path interface : String) :
    Stays state (elementRegister family state path interface).1 := by
  intro e _ entry
  unfold elementRegister
  split
  · exact entry
  · simp only [State.entries, eventAdd, ecoreEventAdd, modify_table, elementInsert, List.map_append]
    exact List.mem_append_left _ entry

theorem messageSend_table (state : State) (e : ElementId) (list : PendingList)
    (libraryCb userCb : Bool) :
    (messageSend accepts state e list libraryCb userCb).table = state.table := by
  unfold messageSend
  split
  · simp [callNew]
  · rfl

theorem listenersCall_table (state : State) (e : ElementId) :
    (listenersCall state e).table = state.table := by
  unfold listenersCall
  split
  · rfl
  · split
    · rfl
    · simp [ecoreIdlerAdd]

theorem propertyReceive_stays (notOfono : family ≠ .ofono) (wf : TableWf family state)
    (alive : state.elements e ≠ none) (again : Bool) (name : String) (wire : Wire)
    (quiet : UpdateQuiet family state e name wire) :
    Stays state (propertyReceive accepts family again state e name wire).1 := by
  obtain ⟨gained, matched, effect, -, isAfter⟩ :=
    propertyReceive_effect accepts notOfono wf alive again name wire
  intro other discovers entry
  obtain ⟨⟨key, _⟩, listed, rfl⟩ := List.mem_map.mp entry
  have found := wf.find_iff.mpr listed
  have kept : ¬ Vanishes family state e name wire key :=
    fun vanishes => quiet key _ vanishes found discovers
  have after := effect.wf.find_iff.mp (effect.keep key _ kept found)
  rw [isAfter, State.entries, modify_table]
  exact List.mem_map.mpr ⟨_, after, rfl⟩

theorem propertiesReceive_stays (notOfono : family ≠ .ofono) (properties : List (String × Wire)) :
    ∀ received : State × Bool, TableWf family received.1 → received.1.elements e ≠ none →
      UpdatesQuiet accepts family received.1 e properties →
      Stays received.1 (propertiesReceive accepts family e received properties).1 := by
  induction properties with
  | nil => exact fun _ _ _ _ => .table rfl
  | cons entry rest ih =>
      obtain ⟨name, wire⟩ := entry
      rintro received wf alive ⟨here, later⟩
      have first : Stays received.1 (propertyReceive accepts family false received.1 e name wire).1 :=
        propertyReceive_stays notOfono wf alive false name wire here
      refine first.trans ((discoverySame_closed family accepts received.1).propertyReceive false e name
        wire (.refl _)) ?_
      exact ih (_, received.2 || (propertyReceive accepts family false received.1 e name wire).2)
        ((tableWf_closed family accepts).propertyReceive false e name wire wf)
        (propertyReceive_alive notOfono wf alive false name wire) later

theorem hashDel_stays (wf : TableWf family state) (key : String)
    (quiet : ∀ other, state.find key = some other → (.deviceFound, other) ∉ state.handlers) :
    Stays state (hashDel state key) := by
  intro e discovers entry
  obtain ⟨⟨own, _⟩, listed, rfl⟩ := List.mem_map.mp entry
  have found := wf.find_iff.mpr listed
  have different : own ≠ key := by
    rintro rfl
    exact quiet _ found discovers
  have after : (hashDel state key).find own = state.find own := by
    rw [find_hashDel, if_neg different]
  exact List.mem_map.mpr ⟨_, (hashDel_tableWf wf key).find_iff.mp (after.trans found), rfl⟩

/-! ## Steps -/

/-- Discoveries are started on elements in the table only, and these stay there. An element
is freed when the calls that wait for it are in lists that are cancelled, while it is freed
calls are sent to lists that are not cancelled yet, and no listener frees its element. -/
structure Careful (accepts : CallId → Bool) (family : Family) (state : State) (label : Label) :
    Prop where
  started : ∀ e userCb, label = .startDiscovery e userCb → e ∈ state.entries
  stays : StaysQuiet accepts family state label
  canceled : ∀ e, DropsLast state label e → ∀ c call, state.calls c = some call →
    call.element = e → call.outstanding = true → call.list.forgotten = false
  resent : ∀ e list libraryCb userCb, label = .send e list libraryCb userCb →
    accepts state.nextCall = true → ∀ remaining, draining e state.stack = some remaining →
    list ∈ remaining
  listener : ¬ ListenerFreed state label

/-- What is known along runs whose steps are careful. -/
structure Attended (family : Family) (state : State) : Prop where
  kept : Kept family state
  placed : Placed family state
  waiting : Waiting state
  drained : Drained state
  discovering : Discovering family state

theorem initial_attended (family : Family) : Attended family State.initial where
  kept := initial_kept family
  placed _ _ known := by cases known
  waiting _ _ known := by cases known
  drained := drained_of_idle rfl
  discovering := by constructor <;> simp [State.initial]

theorem Attended.nothingLeft (attended : Attended family state) : NothingLeft state := by
  have ledger := attended.kept.accounted.ledger
  have handled : ∀ signal e, (signal, e) ∈ state.handlers → e ∈ state.entries := by
    intro signal e listed
    cases signal with
    | propertyChanged =>
        have counted := List.count_pos_iff.mpr listed
        rw [ledger.handled] at counted
        exact List.count_pos_iff.mp counted
    | deviceFound => exact attended.discovering.handled e listed
  refine ⟨?_, ?_, ?_, ?_⟩
  · intro c call known outstanding
    exact attended.waiting.alive known outstanding
  · intro e armed
    obtain ⟨element, found, -⟩ := ledger.idle e armed
    simp [found]
  · intro event e listed
    by_cases found : event = .deviceFound
    · subst found
      exact attended.kept.accounted.entry_alive
        (attended.discovering.handled e (attended.discovering.found e listed))
    · exact ledger.queued event e listed (by simpa [Event.holds] using found)
  · intro signal e listed
    exact ⟨handled signal e listed, attended.kept.accounted.entry_alive (handled signal e listed)⟩

/-- Only bluez has discoveries. -/
theorem Discovering.stays (discovering : Discovering family before)
    (stays : family = .bluez → Stays before after) : Stays before after :=
  fun e discovers entry => stays (discovering.isBluez e discovers) e discovers entry

theorem propertyChanged_stays (wf : TableWf family state) (isBluez : family = .bluez)
    (alive : state.elements e ≠ none) (name : String) (wire : Wire)
    (quiet : UpdateQuiet family state e name wire) :
    Stays state (propertyChangedCallback accepts family state e name wire) := by
  have received : Stays state (propertyReceive accepts family true state e name wire).1 :=
    propertyReceive_stays (by simp [isBluez]) wf alive true name wire quiet
  simp only [propertyChangedCallback]
  split
  · intro other discovers entry
    have stayed := received other discovers entry
    rwa [State.entries, listenersCall_table]
  · exact received

theorem getProperties_stays (wf : TableWf family state) (isBluez : family = .bluez)
    (alive : state.elements e ≠ none) (properties : List (String × Wire))
    (quiet : UpdatesQuiet accepts family state e properties) :
    Stays state (getPropertiesCallback accepts family state e properties) := by
  have received : Stays state (propertiesReceive accepts family e (state, false) properties).1 :=
    propertiesReceive_stays (by simp [isBluez]) properties (state, false) wf alive quiet
  simp only [getPropertiesCallback]
  split
  · intro other discovers entry
    have stayed := received other discovers entry
    rwa [State.entries, listenersCall_table]
  · exact received

theorem elementUnref_table (family : Family) (state : State) (e : ElementId) :
    (elementUnref family state e).table = state.table := by
  unfold elementUnref
  split
  · rfl
  · simp only
    split
    · simp [elementFree]
    · simp

theorem callBegin_table (state : State) (c : CallId) (answer : Answer) :
    (callBegin state c answer).table = state.table := by
  unfold callBegin
  split <;> rfl

theorem callBegin_discoverySame (state : State) (c : CallId) (answer : Answer) :
    DiscoverySame state (callBegin state c answer) := by
  unfold callBegin
  split <;> exact ⟨fun _ => .rfl, fun _ => id⟩

theorem callEnd_discoverySame (state : State) (c : CallId) : DiscoverySame state (callEnd state c) := by
  unfold callEnd
  split
  · exact ⟨fun _ => .rfl, fun _ => id⟩
  · exact ((DiscoverySame.refl state).modify _ _).congr rfl rfl

theorem callEnd_table (state : State) (c : CallId) : (callEnd state c).table = state.table := by
  unfold callEnd
  split
  · rfl
  · simp

/-- A step keeps waiting calls in their lists. -/
theorem transition_waiting {label : Label} {next : State} (attended : Attended family state)
    (transition : Transition accepts family state label next) : Waiting next := by
  have waiting := attended.waiting
  have accounted := attended.kept.accounted
  have closed := waiting_closed family accepts
  cases transition with
  | sync => exact (closed.sync state _ _ ⟨accounted, waiting⟩).2
  | ref e =>
      have added := modify_callsSame state e Element.addReference fun _ => rfl
      exact waiting.congr ⟨added.lists.kept, added.lists.fresh⟩ added.calls
  | unref e =>
      refine Waiting.same ?_ (elementUnref_callsSame family _ e)
      exact waiting.congr (.of_eq fun _ => rfl) rfl
  | send e list libraryCb userCb acts alive => exact waiting.send alive list libraryCb userCb
  | startDiscovery e userCb acts alive =>
      refine Waiting.send ?_ ?_ .startDiscovery false userCb
      · exact waiting.congr (.of_eq fun _ => rfl) rfl
      · exact alive
  | register path interface => exact (closed.register state path interface ⟨accounted, waiting⟩).2
  | unregister e => exact (closed.unregister state e ⟨accounted, waiting⟩).2
  | clear => exact waiting.same (clearElements_callsSame state)
  | deliver event e rest =>
      have taken : Waiting { state with events := rest } := waiting.congr (.of_eq fun _ => rfl) rfl
      unfold eventFree
      split
      · exact taken
      · exact taken.same (elementUnref_callsSame family _ e)
  | propertyChanged e name wire => exact (closed.propertyChangedCallback e name wire ⟨accounted, waiting⟩).2
  | deviceFound e => exact waiting.congr (.of_eq fun _ => rfl) rfl
  | idler e => exact waiting.congr (.of_eq fun _ => rfl) rfl
  | reply c reply call =>
      refine (replyRead_closed closed call reply ⟨?_, waiting.start c reply.answer⟩).2
      exact (callBegin_kept attended.kept c reply.answer).accounted
  | listenersReturn e below =>
      refine Waiting.same ?_ (listenersEnd_callsSame (state.withStack below) e)
      exact waiting.congr (.of_eq fun _ => rfl) rfl
  | callbackReturn c userCb below =>
      refine Waiting.finish ?_ c
      exact waiting.congr (.of_eq fun _ => rfl) rfl
  | freeDead e remaining below => exact waiting.congr (.of_eq fun _ => rfl) rfl
  | freeDone e below element top =>
      have gone : Waiting (elementGone state e) := by
        refine waiting.gone fun c call known isElement => ?_
        by_contra outstanding
        have drains : draining e state.stack = some [] := by rw [top, draining, if_pos rfl]
        have left := attended.drained e [] drains c call known isElement (by simpa using outstanding)
        cases left
      exact gone.congr (.of_eq fun _ => rfl) rfl
  | freeList e list rest below => exact waiting.congr (.of_eq fun _ => rfl) rfl
  | freeCall e list rest below element c => exact waiting.start c .canceled

theorem transition_discovering {label : Label} {next : State} (attended : Attended family state)
    (transition : Transition accepts family state label next)
    (careful : Careful accepts family state label) : Discovering family next := by
  have discovering := attended.discovering
  have same := discoverySame_closed family accepts state
  have start := DiscoverySame.refl state
  have wf := attended.kept.accounted.wf
  cases transition with
  | sync =>
      refine discovering.same (same.sync state _ _ start) fun e discovers entry => ?_
      have stayed : e ∈ (elementRegister family state "/" family.managerInterface).1.entries :=
        elementRegister_stays state _ _ e discovers entry
      rwa [State.entries, managerSync, propertiesSync, messageSend_table]
  | ref e => exact discovering.table (start.modify e _ |>.congr rfl rfl) (modify_table ..)
  | unref e =>
      have returned : DiscoverySame state (returnReference state e) := start.congr rfl rfl
      exact discovering.table (returned.unref e) (elementUnref_table ..)
  | send e list libraryCb userCb =>
      exact discovering.table (start.send e list libraryCb userCb) (messageSend_table ..)
  | startDiscovery e userCb acts alive isBluez =>
      have entry := careful.started e userCb rfl
      have started : Discovering family
          { state with handlers := state.handlers ++ [(.deviceFound, e)] } := by
        refine ⟨fun other listed => ?_, fun _ _ => isBluez, fun other listed => ?_⟩
        · rcases List.mem_append.mp listed with old | new
          · exact discovering.handled other old
          · obtain ⟨-, rfl⟩ := Prod.mk.inj (List.mem_singleton.mp new)
            exact entry
        · exact List.mem_append_left _ (discovering.found other listed)
      exact started.table (DiscoverySame.send (.refl _) e .startDiscovery false userCb)
        (messageSend_table ..)
  | register path interface =>
      exact discovering.same (start.register path interface)
        (elementRegister_stays state path interface)
  | unregister e idle alive =>
      refine discovering.same (same.unregister state e start) ?_
      obtain ⟨element, found⟩ := Option.ne_none_iff_exists'.mp alive
      have removed := hashDel_stays wf (family.key element.path element.interface) fun other here =>
        careful.stays element other found here
      rw [elementUnregister, found]
      exact removed
  | clear =>
      refine discovering.same start.clear fun e discovers entry => ?_
      exact absurd discovers (careful.stays e entry)
  | deliver event e rest =>
      unfold eventFree
      have taken : DiscoverySame state { state with events := rest } :=
        ⟨fun _ => .rfl, fun other listed => by simp_all⟩
      split
      · exact discovering.table taken rfl
      · exact discovering.table (taken.unref e) (elementUnref_table ..)
  | propertyChanged e name wire idle handled =>
      have entry : e ∈ state.entries := by
        have counted := List.count_pos_iff.mpr handled
        rw [attended.kept.accounted.ledger.handled] at counted
        exact List.count_pos_iff.mp counted
      refine discovering.same (same.propertyChangedCallback e name wire start) ?_
      exact discovering.stays fun isBluez => propertyChanged_stays wf isBluez
        (attended.kept.accounted.entry_alive entry) name wire careful.stays
  | deviceFound e idle handled =>
      refine ⟨discovering.handled, discovering.isBluez, fun other listed => ?_⟩
      rcases List.mem_append.mp listed with old | new
      · exact discovering.found other old
      · obtain ⟨-, rfl⟩ := Prod.mk.inj (List.mem_singleton.mp new)
        exact handled
  | idler e => exact discovering.table (start.congr rfl rfl) rfl
  | reply c reply call idle known outstanding =>
      have begun := callBegin_discoverySame state c reply.answer
      have begunDiscovering := discovering.table begun (callBegin_table state c reply.answer)
      cases reply with
      | error => exact begunDiscovering
      | plain => exact begunDiscovering
      | properties received =>
          simp only [replyRead]
          split
          · rename_i reads
            have quiet := careful.stays call known reads
            have alive := attended.waiting.alive known outstanding
            have begunWf : TableWf family (callBegin state c .reply) :=
              (callBegin_kept attended.kept c .reply).accounted.wf
            have begunAlive : (callBegin state c .reply).elements call.element ≠ none := by
              simpa [callBegin, known] using alive
            refine begunDiscovering.same ((discoverySame_closed family accepts _).getPropertiesCallback
              call.element received (.refl _)) ?_
            exact begunDiscovering.stays fun isBluez =>
              getProperties_stays begunWf isBluez begunAlive received quiet
          · exact begunDiscovering
  | listenersReturn e below =>
      have lower : DiscoverySame state (state.withStack below) := start.congr rfl rfl
      have updated : DiscoverySame state (eventAdd (state.withStack below) .updated e) :=
        (lower.modify e Element.addReference).event rfl e
      refine discovering.table ((updated.modify e Element.disarmIdler).congr rfl rfl) ?_
      simp [listenersEnd, eventAdd, ecoreEventAdd, State.withStack]
  | callbackReturn c userCb below =>
      have lower : Discovering family (state.withStack below) := discovering.table (start.congr rfl rfl) rfl
      exact lower.table (callEnd_discoverySame _ c) (callEnd_table ..)
  | freeDead e remaining below => exact discovering.table (start.congr rfl rfl) rfl
  | freeDone e below => exact discovering.table (start.congr rfl rfl) rfl
  | freeList e list rest below => exact discovering.table (start.congr rfl rfl) rfl
  | freeCall e list rest below element c =>
      exact discovering.table (callBegin_discoverySame state c .canceled) (callBegin_table ..)

/-- What is being freed is not in the table. -/
theorem draining_entry (framed : Framed state) (entry : e ∈ state.entries)
    (remaining : List PendingList) : draining e state.stack ≠ some remaining := by
  intro drains
  exact (framed.freeing e remaining (draining_mem drains)).2.1 entry

theorem transition_drained {label : Label} {next : State} (attended : Attended family state)
    (transition : Transition accepts family state label next)
    (careful : Careful accepts family state label) : Drained next := by
  have drained := attended.drained
  have kept := attended.kept
  have messages := fun stack => stack_closed family accepts stack
  cases transition with
  | sync =>
      have registered := register_kept kept "/" family.managerInterface
      have same := elementRegister_callsSame kept.accounted "/" family.managerInterface
      refine (drained.congr (register_stack ..) same.calls).send .propertiesGet true false ?_
      intro _ remaining drains
      exact absurd drains (draining_entry registered.framed
        (elementRegister_entry kept.accounted "/" family.managerInterface) remaining)
  | ref e => exact drained.congr (modify_stack ..) (modify_calls ..)
  | unref e =>
      refine Drained.unref (drained.congr rfl rfl) fun last c call known isElement outstanding => ?_
      exact (mem_freeOrder (attended.placed c call known)).mpr
        (careful.canceled e ⟨rfl, last⟩ c call known isElement outstanding)
  | send e list libraryCb userCb =>
      exact drained.send list libraryCb userCb (careful.resent e list libraryCb userCb rfl)
  | startDiscovery e userCb =>
      refine Drained.send ?_ .startDiscovery false userCb fun _ remaining drains => ?_
      · exact drained.congr rfl rfl
      · exact absurd drains (draining_entry kept.framed (careful.started e userCb rfl) remaining)
  | register path interface idle => exact drained_of_idle ((register_stack ..).trans idle)
  | unregister e idle => exact drained_of_idle ((messages []).unregister state e idle)
  | clear idle => exact drained_of_idle ((clearElements_stack state).trans idle)
  | deliver event e rest idle head =>
      have taken : Drained { state with events := rest } := drained.congr rfl rfl
      unfold eventFree
      split
      · exact taken
      · rename_i other
        refine taken.unref fun last c call known isElement outstanding => ?_
        have drops : DropsLast state .deliver e := ⟨event, rest, head, by simpa [Event.holds] using other, last⟩
        exact (mem_freeOrder (attended.placed c call known)).mpr
          (careful.canceled e drops c call known isElement outstanding)
  | propertyChanged e name wire idle =>
      exact drained_of_idle ((messages []).propertyChangedCallback e name wire idle)
  | deviceFound e idle => exact drained_of_idle idle
  | idler e => exact drained_of_none (by simp [State.withStack])
  | reply c reply call idle known =>
      have stack := callBegin_stack known reply.answer
      rw [idle] at stack
      have read := replyRead_closed (messages _) call reply stack
      exact drained_of_none (by simp [read])
  | listenersReturn e below top =>
      have lower : Drained (state.withStack below) := by
        refine drained.fewer (fun other => ?_) fun _ _ known _ => known
        rw [top]
        rfl
      refine lower.congr ?_ (listenersEnd_callsSame ..).calls
      simp [listenersEnd, eventAdd, ecoreEventAdd]
  | callbackReturn c userCb below top =>
      refine drained.fewer (fun other => ?_) fun c' call known _ => ?_
      · rw [callEnd_stack, top]
        rfl
      · exact callEnd_waits (state.withStack below) c c' known
  | freeDead e remaining below top dead =>
      intro other rest drains c call known isElement outstanding
      by_cases here : e = other
      · refine absurd ?_ (attended.waiting.alive known outstanding)
        rw [isElement, ← here, dead]
      · refine drained other rest ?_ c call known isElement outstanding
        rw [top, draining, if_neg here]
        exact drains
  | freeDone e below element top =>
      intro other rest drains c call known isElement outstanding
      by_cases here : e = other
      · have all : draining e state.stack = some [] := by rw [top, draining, if_pos rfl]
        have left := drained e [] all c call known (isElement.trans here.symm) outstanding
        cases left
      · refine drained other rest ?_ c call known isElement outstanding
        rw [top, draining, if_neg here]
        exact drains
  | freeList e list rest below element top alive emptied =>
      intro other remaining drains c call known isElement outstanding
      by_cases here : e = other
      · have all : draining e state.stack = some (list :: rest) := by rw [top, draining, if_pos rfl]
        have left := drained e _ all c call known (isElement.trans here.symm) outstanding
        obtain ⟨lists, found, inList⟩ := attended.waiting c call known outstanding
        have lists_eq : lists = element.pending := by
          rw [isElement, ← here, State.pendingOf, alive] at found
          exact (Option.some.inj found).symm
        have different : call.list ≠ list := by
          intro same
          rw [lists_eq, same, emptied] at inList
          cases inList
        have isRest : rest = remaining := by
          rw [State.withStack, draining, if_pos here] at drains
          exact Option.some.inj drains
        exact isRest ▸ (List.mem_cons.mp left).resolve_left different
      · refine drained other remaining ?_ c call known isElement outstanding
        rw [top, draining, if_neg here]
        rw [State.withStack, draining, if_neg here] at drains
        exact drains
  | freeCall e list rest below element c =>
      exact drained.fewer (draining_callBegin state c .canceled)
        fun c' call known outstanding => callBegin_waits state c c' .canceled known outstanding

/-- Along a run whose steps are careful nothing is left that has a freed element, and no
handler that has an unregistered one. -/
theorem nothingLeft_throughout (accepts : CallId → Bool) (family : Family) (run : List Label)
    (careful : (machine accepts family).Along (fun state label _ => Careful accepts family state label)
      State.initial run) :
    (machine accepts family).Throughout NothingLeft State.initial run := by
  refine Semantics.Machine.Throughout.mono (fun _ attended => attended.nothingLeft)
    (Semantics.Machine.throughout_of_along ?_ (initial_attended family) careful)
  intro state label next attended stepped steps
  obtain ⟨-, -, transition⟩ := step_transition stepped
  exact ⟨transition_kept attended.kept transition steps.listener,
    transition_placed attended.placed transition, transition_waiting attended transition,
    transition_drained attended transition steps, transition_discovering attended transition steps⟩

/-- A step that neither drops a reference nor is about discoveries, calls or listeners. -/
theorem careful_of_plain {label : Label} (stays : StaysQuiet accepts family state label)
    (started : ∀ e userCb, label ≠ .startDiscovery e userCb)
    (drops : ∀ e, ¬ DropsLast state label e)
    (sends : ∀ e list libraryCb userCb, label ≠ .send e list libraryCb userCb)
    (listens : label ≠ .listenersReturn) : Careful accepts family state label where
  started e userCb same := absurd same (started e userCb)
  stays := stays
  canceled e last := absurd last (drops e)
  resent e list libraryCb userCb same := absurd same (sends e list libraryCb userCb)
  listener freed := listens freed.1

/-- An event is done while every call is in a list that is cancelled. -/
theorem careful_deliver (lists : ∀ c call, state.calls c = some call → call.list.forgotten = false) :
    Careful accepts family state .deliver where
  started _ _ same := nomatch same
  stays := trivial
  canceled _ _ c call known _ _ := lists c call known
  resent _ _ _ _ same := nomatch same
  listener freed := nomatch freed.1

/-- An adapter leaves while a property is set. -/
def adapterLeaves : List Label :=
  [.register "/adapter" "org.bluez.Adapter", .send 0 .propertySet false true, .unregister 0,
    .deliver, .deliver, .freeNext, .freeNext, .callbackReturn]

theorem nothingLeft_throughout_adapterLeaves :
    (machine (fun _ => true) .bluez).Throughout NothingLeft State.initial adapterLeaves := by
  have canceled : ∀ c call, Function.update (fun _ => none) 0
      (some (⟨0, .propertySet, false, true, true⟩ : Call)) c = some call →
      call.list.forgotten = false := by
    intro c call known
    rw [Function.update_apply] at known
    split at known
    · obtain rfl := Option.some.inj known
      rfl
    · cases known
  refine nothingLeft_throughout (fun _ => true) .bluez adapterLeaves ?_
  refine (Semantics.Machine.along_cons rfl).mpr ⟨?_, ?_⟩
  · exact careful_of_plain trivial nofun (fun _ => id) nofun nofun
  refine (Semantics.Machine.along_cons rfl).mpr ⟨?_, ?_⟩
  · refine ⟨nofun, trivial, fun _ => nofun, ?_, nofun⟩
    intro e list libraryCb userCb _ _ remaining drains
    cases drains
  refine (Semantics.Machine.along_cons rfl).mpr ⟨?_, ?_⟩
  · refine careful_of_plain ?_ nofun (fun _ => id) nofun nofun
    intro element other _ _ listed
    cases listed with
    | tail _ none => cases none
  refine (Semantics.Machine.along_cons rfl).mpr ⟨careful_deliver canceled, ?_⟩
  refine (Semantics.Machine.along_cons rfl).mpr ⟨careful_deliver canceled, ?_⟩
  refine (Semantics.Machine.along_cons rfl).mpr ⟨?_, ?_⟩
  · exact careful_of_plain trivial nofun (fun _ => id) nofun nofun
  refine (Semantics.Machine.along_cons rfl).mpr ⟨?_, ?_⟩
  · exact careful_of_plain trivial nofun (fun _ => id) nofun nofun
  refine (Semantics.Machine.along_cons rfl).mpr ⟨?_, trivial⟩
  exact careful_of_plain trivial nofun (fun _ => id) nofun nofun

/-- A discovery is started on an adapter that leaves. -/
theorem nothingLeft_fails_discoveryLeft :
    ¬ ∀ (accepts : CallId → Bool) (run : List Label),
      (machine accepts .bluez).Throughout NothingLeft State.initial run := by
  intro always
  obtain ⟨final, executed, handled, entries⟩ : ∃ final,
      (machine (fun _ => true) .bluez).exec State.initial
        [.register "/adapter" "org.bluez.Adapter", .startDiscovery 0 true, .unregister 0] = some final ∧
      (.deviceFound, 0) ∈ final.handlers ∧ final.entries = [] :=
    ⟨_, rfl, by decide, by decide⟩
  have left := (always (fun _ => true) _).finish executed
  have entry := (left.handlers .deviceFound 0 handled).1
  rw [entries] at entry
  cases entry

end EDBus.Elements
