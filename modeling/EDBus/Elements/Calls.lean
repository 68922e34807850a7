import EDBus.Elements.Ledger

/-!
# Calls and their lists

A pending call is in a list of its element. Most of what a module does leaves calls
and lists alone, as `CallsSame` says; only `messageSend`, `callBegin`, `callEnd` and
the last turn of `elementFree` do not.
-/

namespace EDBus.Elements

variable {family : Family} {accepts : CallId → Bool} {before state middle after : State}
  {e : ElementId} {c : CallId}

/-- The lists of an element, while it is alive. -/
def State.pendingOf (state : State) (e : ElementId) : Option (PendingList → List CallId) :=
  (state.elements e).map Element.pending

/-- A call is in its list. -/
def Listed (state : State) (c : CallId) (call : Call) : Prop :=
  ∃ lists, state.pendingOf call.element = some lists ∧ c ∈ lists call.list

/-- The lists of all elements stay, and those of new elements are empty. -/
structure ListsSame (before after : State) : Prop where
  kept : ∀ e lists, before.pendingOf e = some lists → after.pendingOf e = some lists
  fresh : ∀ e lists, after.pendingOf e = some lists →
    before.pendingOf e = some lists ∨ ∀ list, lists list = []

/-- Nothing is done about calls. -/
structure CallsSame (before after : State) : Prop where
  lists : ListsSame before after
  calls : after.calls = before.calls
  answers : after.answers = before.answers
  nextCall : after.nextCall = before.nextCall
  callFault : after.callFault = before.callFault

theorem ListsSame.trans (left : ListsSame before middle) (right : ListsSame middle after) :
    ListsSame before after where
  kept e lists found := right.kept e lists (left.kept e lists found)
  fresh e lists found := by
    rcases right.fresh e lists found with inMiddle | empty
    · exact left.fresh e lists inMiddle
    · exact .inr empty

/-- The lists of every element are as before. -/
theorem ListsSame.of_eq (same : ∀ e, after.pendingOf e = before.pendingOf e) :
    ListsSame before after where
  kept e _ found := (same e).trans found
  fresh e _ found := .inl ((same e).symm.trans found)

theorem ListsSame.listed (same : ListsSame before after) {call : Call}
    (listed : Listed before c call) : Listed after c call := by
  obtain ⟨lists, found, inList⟩ := listed
  exact ⟨lists, same.kept _ _ found, inList⟩

theorem CallsSame.refl (state : State) : CallsSame state state :=
  ⟨.of_eq fun _ => rfl, rfl, rfl, rfl, rfl⟩

theorem CallsSame.trans (left : CallsSame before middle) (right : CallsSame middle after) :
    CallsSame before after :=
  ⟨left.lists.trans right.lists, right.calls.trans left.calls, right.answers.trans left.answers,
    right.nextCall.trans left.nextCall, right.callFault.trans left.callFault⟩

/-! ## What leaves calls alone -/

@[simp] theorem modify_calls (state : State) (e : ElementId) (change : Element → Element) :
    (state.modify e change).calls = state.calls := by
  unfold State.modify
  split <;> rfl

@[simp] theorem modify_answers (state : State) (e : ElementId) (change : Element → Element) :
    (state.modify e change).answers = state.answers := by
  unfold State.modify
  split <;> rfl

@[simp] theorem modify_nextCall (state : State) (e : ElementId) (change : Element → Element) :
    (state.modify e change).nextCall = state.nextCall := by
  unfold State.modify
  split <;> rfl

@[simp] theorem modify_callFault (state : State) (e : ElementId) (change : Element → Element) :
    (state.modify e change).callFault = state.callFault := by
  unfold State.modify
  split <;> rfl

theorem modify_callsSame (state : State) (e : ElementId) (change : Element → Element)
    (pending : ∀ element, (change element).pending = element.pending) :
    CallsSame state (state.modify e change) :=
  ⟨.of_eq (map_modify Element.pending state e change pending), modify_calls .., modify_answers ..,
    modify_nextCall .., modify_callFault ..⟩

theorem eventAdd_callsSame (state : State) (event : Event) (e : ElementId) :
    CallsSame state (eventAdd state event e) := by
  have added := modify_callsSame state e Element.addReference fun _ => rfl
  exact ⟨⟨added.lists.kept, added.lists.fresh⟩, added.calls, added.answers, added.nextCall,
    added.callFault⟩

theorem elementInsert_callsSame (state : State) (unborn : state.elements state.nextElement = none)
    (path interface : String) : CallsSame state (elementInsert family state path interface) := by
  have lists : ∀ e, (elementInsert family state path interface).pendingOf e =
      if e = state.nextElement then some fun _ => [] else state.pendingOf e := by
    intro e
    simp only [State.pendingOf, elementInsert, Function.update_apply]
    split <;> rfl
  refine ⟨⟨?_, ?_⟩, rfl, rfl, rfl, rfl⟩
  · intro e known found
    have old : e ≠ state.nextElement := by
      rintro rfl
      rw [State.pendingOf, unborn] at found
      cases found
    rw [lists, if_neg old, found]
  · intro e known found
    rw [lists] at found
    split at found
    · obtain rfl := Option.some.inj found
      exact .inr fun _ => rfl
    · exact .inl found

theorem elementRegister_callsSame (accounted : Accounted family state) (path interface : String) :
    CallsSame state (elementRegister family state path interface).1 := by
  unfold elementRegister
  split
  · exact .refl state
  · exact (elementInsert_callsSame state (accounted.wf.fresh _ (Nat.le_refl _)) path interface).trans
      (eventAdd_callsSame ..)

theorem unregisterInternal_callsSame (state : State) (e : ElementId) :
    CallsSame state (unregisterInternal state e) := by
  unfold unregisterInternal
  split
  · exact ⟨.of_eq fun _ => rfl, rfl, rfl, rfl, rfl⟩
  · rename_i element found
    refine ⟨.of_eq fun other => ?_, rfl, rfl, rfl, rfl⟩
    simp only [State.pendingOf, ecoreEventAdd, Function.update_apply]
    split
    · rename_i here
      rw [here, found]
      rfl
    · rfl

theorem hashDel_callsSame (state : State) (key : String) : CallsSame state (hashDel state key) := by
  unfold hashDel
  split
  · exact .refl state
  · refine CallsSame.trans ?_ (unregisterInternal_callsSame ..)
    exact ⟨.of_eq fun _ => rfl, rfl, rfl, rfl, rfl⟩

theorem elementUnregister_callsSame (state : State) (e : ElementId) :
    CallsSame state (elementUnregister family state e) := by
  unfold elementUnregister
  split
  · exact ⟨.of_eq fun _ => rfl, rfl, rfl, rfl, rfl⟩
  · exact hashDel_callsSame state _

theorem clearElements_callsSame (state : State) : CallsSame state (clearElements state) := by
  have emptied : CallsSame state { state with table := [] } :=
    ⟨.of_eq fun _ => rfl, rfl, rfl, rfl, rfl⟩
  have each : ∀ other e, CallsSame state other → CallsSame state (unregisterInternal other e) :=
    fun other e same => same.trans (unregisterInternal_callsSame other e)
  exact foldl_keeps each _ emptied

theorem listenersCall_callsSame (state : State) (e : ElementId) :
    CallsSame state (listenersCall state e) := by
  unfold listenersCall
  split
  · exact ⟨.of_eq fun _ => rfl, rfl, rfl, rfl, rfl⟩
  · split
    · exact .refl state
    · have armed := modify_callsSame state e Element.armIdler fun _ => rfl
      exact ⟨⟨armed.lists.kept, armed.lists.fresh⟩, armed.calls, armed.answers, armed.nextCall,
        armed.callFault⟩

theorem elementUnref_callsSame (family : Family) (state : State) (e : ElementId) :
    CallsSame state (elementUnref family state e) := by
  have dropped := modify_callsSame state e Element.dropReference fun _ => rfl
  unfold elementUnref
  split
  · exact ⟨.of_eq fun _ => rfl, rfl, rfl, rfl, rfl⟩
  · simp only
    split
    · exact ⟨⟨dropped.lists.kept, dropped.lists.fresh⟩, dropped.calls, dropped.answers,
        dropped.nextCall, dropped.callFault⟩
    · exact dropped

theorem listenersEnd_callsSame (state : State) (e : ElementId) :
    CallsSame state (listenersEnd state e) := by
  have updated := (eventAdd_callsSame state .updated e).trans
    (modify_callsSame _ e Element.disarmIdler fun _ => rfl)
  exact ⟨⟨updated.lists.kept, updated.lists.fresh⟩, updated.calls, updated.answers,
    updated.nextCall, updated.callFault⟩

/-! ## The lists of a module -/

/-- The lists of bluez that `_element_free` does not cancel. -/
def PendingList.forgotten : PendingList → Bool
  | .startDiscovery | .stopDiscovery | .createPairedDevice => true
  | _ => false

/-- Of the lists that an element has, these are the ones that are not cancelled. -/
theorem mem_freeOrder {list : PendingList} (known : list ∈ family.pendingLists) :
    list ∈ family.freeOrder ↔ list.forgotten = false := by
  cases family <;> cases list <;> revert known <;> decide

/-- Calls are in lists that elements of the module have. -/
def Placed (family : Family) (state : State) : Prop :=
  ∀ c call, state.calls c = some call → call.list ∈ family.pendingLists

theorem Placed.congr (placed : Placed family before) (calls : after.calls = before.calls) : Placed family after := by
  intro c call known
  rw [calls] at known
  exact placed c call known

theorem elementRegister_calls (state : State) (path interface : String) :
    (elementRegister family state path interface).1.calls = state.calls := by
  unfold elementRegister
  split
  · rfl
  · simp [eventAdd, ecoreEventAdd, elementInsert]

theorem Placed.send (placed : Placed family state) (e : ElementId) {list : PendingList}
    (known : list ∈ family.pendingLists) (libraryCb userCb : Bool) :
    Placed family (messageSend accepts state e list libraryCb userCb) := by
  unfold messageSend
  split
  · intro c call found
    simp only [callNew, modify_calls, modify_nextCall, Function.update_apply] at found
    split at found
    · obtain rfl := Option.some.inj found
      exact known
    · exact placed c call found
  · exact placed

/-- Messages send `GetProperties` only, which every module has a list for. -/
theorem placed_closed (family : Family) (accepts : CallId → Bool) : Closed family accepts (Placed family) where
  fault _ placed := placed
  register _ path interface placed := placed.congr (elementRegister_calls _ path interface)
  sync _ path interface placed := by
    refine (placed.congr (elementRegister_calls _ path interface)).send _ ?_ true false
    cases family <;> decide
  unregister state e placed := placed.congr (elementUnregister_callsSame state e).calls
  setProperty state e name wire placed := placed.congr (modify_calls ..)
  listeners state e placed := placed.congr (listenersCall_callsSame state e).calls

/-- A call is answered, and keeps its list. -/
theorem Placed.start (placed : Placed family state) (c : CallId) (answer : Answer) :
    Placed family (callBegin state c answer) := by
  unfold callBegin
  split
  · exact placed
  · next call known =>
      intro c' call' found
      simp only [Function.update_apply] at found
      split at found
      · obtain rfl := Option.some.inj found
        exact placed c call known
      · exact placed c' call' found

theorem Placed.finish (placed : Placed family state) (c : CallId) : Placed family (callEnd state c) := by
  unfold callEnd
  split
  · exact placed
  · intro c' call' found
    simp only [modify_calls, Function.update_apply] at found
    split at found
    · cases found
    · exact placed c' call' found

/-- Steps keep calls in such lists. -/
theorem transition_placed {label : Label} {next : State} (placed : Placed family state)
    (transition : Transition accepts family state label next) : Placed family next := by
  have closed := placed_closed family accepts
  cases transition with
  | sync => exact closed.sync state _ _ placed
  | ref e => exact placed.congr (modify_calls state e Element.addReference)
  | unref e => exact placed.congr (elementUnref_callsSame family (returnReference state e) e).calls
  | send e list libraryCb userCb acts alive known => exact placed.send e known libraryCb userCb
  | startDiscovery e userCb acts alive isBluez =>
      subst isBluez
      have handled : Placed .bluez { state with handlers := state.handlers ++ [(.deviceFound, e)] } := placed
      exact handled.send e (by decide) false userCb
  | register path interface => exact closed.register state path interface placed
  | unregister e => exact closed.unregister state e placed
  | clear => exact placed.congr (clearElements_callsSame state).calls
  | deliver event e rest =>
      unfold eventFree
      split
      · exact placed
      · exact placed.congr (elementUnref_callsSame family { state with events := rest } e).calls
  | propertyChanged e name wire => exact closed.propertyChangedCallback e name wire placed
  | deviceFound e => exact placed
  | idler e => exact placed
  | reply c reply call => exact replyRead_closed closed call reply (placed.start c reply.answer)
  | listenersReturn e below => exact placed.congr (listenersEnd_callsSame (state.withStack below) e).calls
  | callbackReturn c userCb below =>
      have lower : Placed family (state.withStack below) := placed
      exact lower.finish c
  | freeDead e remaining below => exact placed
  | freeDone e below => exact placed
  | freeList e list rest below => exact placed
  | freeCall e list rest below element c => exact placed.start c .canceled

/-! ## Sending -/

theorem pendingOf_modify (state : State) (e other : ElementId) (change : Element → Element) :
    (state.modify e change).pendingOf other =
      if other = e then (state.elements other).map fun element => (change element).pending
      else state.pendingOf other := by
  unfold State.pendingOf
  rw [modify_elements]
  split
  · rw [Option.map_map]
    rfl
  · rfl

/-- A call that is sent joins its list. -/
theorem pendingOf_messageSend (state : State) (e other : ElementId) (list : PendingList)
    (libraryCb userCb : Bool) (accepted : accepts state.nextCall = true) :
    (messageSend accepts state e list libraryCb userCb).pendingOf other =
      if other = e then (state.pendingOf e).map fun lists =>
        Function.update lists list (lists list ++ [state.nextCall])
      else state.pendingOf other := by
  have modified : (messageSend accepts state e list libraryCb userCb).pendingOf other =
      (state.modify e (Element.appendCall list state.nextCall)).pendingOf other := by
    rw [messageSend, if_pos accepted]
    rfl
  rw [modified, pendingOf_modify]
  split
  · rename_i here
    rw [here, State.pendingOf, Option.map_map]
    rfl
  · rfl

theorem messageSend_accepted (state : State) (e : ElementId) (list : PendingList)
    (libraryCb userCb : Bool) (accepted : accepts state.nextCall = true) :
    (messageSend accepts state e list libraryCb userCb).calls =
      Function.update state.calls state.nextCall (some ⟨e, list, libraryCb, userCb, true⟩) := by
  rw [messageSend, if_pos accepted]
  simp [callNew]

/-- A call that cannot be sent changes no list. -/
theorem messageSend_rejected (state : State) (e : ElementId) (list : PendingList)
    (libraryCb userCb : Bool) (rejected : accepts state.nextCall = false) :
    ListsSame state (messageSend accepts state e list libraryCb userCb) ∧
      (messageSend accepts state e list libraryCb userCb).calls = state.calls := by
  rw [messageSend, if_neg (by simp [rejected])]
  exact ⟨.of_eq fun _ => rfl, rfl⟩

@[simp] theorem messageSend_answers (state : State) (e : ElementId) (list : PendingList)
    (libraryCb userCb : Bool) :
    (messageSend accepts state e list libraryCb userCb).answers = state.answers := by
  unfold messageSend
  split
  · simp [callNew]
  · rfl

@[simp] theorem messageSend_nextCall (state : State) (e : ElementId) (list : PendingList)
    (libraryCb userCb : Bool) :
    (messageSend accepts state e list libraryCb userCb).nextCall = state.nextCall + 1 := by
  unfold messageSend
  split
  · simp [callNew]
  · rfl

@[simp] theorem messageSend_callFault (state : State) (e : ElementId) (list : PendingList)
    (libraryCb userCb : Bool) :
    (messageSend accepts state e list libraryCb userCb).callFault = state.callFault := by
  unfold messageSend
  split
  · simp [callNew]
  · rfl

theorem pendingOf_isSome (alive : state.elements e ≠ none) : ∃ lists, state.pendingOf e = some lists := by
  obtain ⟨element, found⟩ := Option.ne_none_iff_exists'.mp alive
  exact ⟨element.pending, by rw [State.pendingOf, found]; rfl⟩

/-- What is listed stays listed. -/
theorem messageSend_listed {call : Call} (listed : Listed state c call) (e : ElementId)
    (list : PendingList) (libraryCb userCb : Bool) :
    Listed (messageSend accepts state e list libraryCb userCb) c call := by
  cases accepted : accepts state.nextCall with
  | false => exact (messageSend_rejected state e list libraryCb userCb accepted).1.listed listed
  | true =>
      obtain ⟨lists, found, inList⟩ := listed
      unfold Listed
      rw [pendingOf_messageSend state e _ list libraryCb userCb accepted]
      split
      · rename_i here
        rw [here] at found
        refine ⟨Function.update lists list (lists list ++ [state.nextCall]), by rw [found]; rfl, ?_⟩
        rw [Function.update_apply]
        split
        · rename_i sameList
          rw [sameList] at inList
          exact List.mem_append_left _ inList
        · exact inList
      · exact ⟨lists, found, inList⟩

/-- The new call is listed. -/
theorem messageSend_new (alive : state.elements e ≠ none) (list : PendingList)
    (libraryCb userCb : Bool) (accepted : accepts state.nextCall = true) :
    Listed (messageSend accepts state e list libraryCb userCb) state.nextCall
      ⟨e, list, libraryCb, userCb, true⟩ := by
  obtain ⟨lists, found⟩ := pendingOf_isSome alive
  refine ⟨Function.update lists list (lists list ++ [state.nextCall]), ?_, ?_⟩
  · rw [pendingOf_messageSend state e e list libraryCb userCb accepted, if_pos rfl, found]
    rfl
  · simp

/-- A registered element is in the table. -/
theorem elementRegister_entry (accounted : Accounted family state) (path interface : String) :
    (elementRegister family state path interface).2 ∈
      (elementRegister family state path interface).1.entries := by
  have registered := elementRegister_accounted accounted path interface
  have found : (elementRegister family state path interface).1.find (family.key path interface) =
      some (elementRegister family state path interface).2 := by
    rw [find_elementRegister, if_pos rfl]
  exact List.mem_map.mpr ⟨_, registered.wf.find_iff.mp found, rfl⟩

/-- What is in the table is alive. -/
theorem Accounted.entry_alive (accounted : Accounted family state) (entry : e ∈ state.entries) :
    state.elements e ≠ none := by
  obtain ⟨element, found, -⟩ := accounted.ledger.alive e entry
  simp [found]

/-! ## Dispatching -/

theorem callBegin_lists (state : State) (c : CallId) (answer : Answer) :
    ListsSame state (callBegin state c answer) := by
  unfold callBegin
  split <;> exact .of_eq fun _ => rfl

theorem callBegin_calls {call : Call} (known : state.calls c = some call) (answer : Answer) :
    (callBegin state c answer).calls =
      Function.update state.calls c (some { call with outstanding := false }) := by
  simp [callBegin, known]

theorem callEnd_calls {call : Call} (known : state.calls c = some call) :
    (callEnd state c).calls = Function.update state.calls c none := by
  simp [callEnd, known]

theorem callEnd_answers {call : Call} (known : state.calls c = some call) :
    (callEnd state c).answers = state.answers := by
  simp [callEnd, known]

theorem callEnd_nextCall {call : Call} (known : state.calls c = some call) :
    (callEnd state c).nextCall = state.nextCall := by
  simp [callEnd, known]

theorem pendingOf_callEnd {call : Call} (known : state.calls c = some call) (other : ElementId) :
    (callEnd state c).pendingOf other =
      if other = call.element then (state.pendingOf other).map fun lists =>
        Function.update lists call.list ((lists call.list).erase c)
      else state.pendingOf other := by
  have modified : (callEnd state c).pendingOf other =
      (state.modify call.element (Element.removeCall call.list c)).pendingOf other := by
    simp [callEnd, known, State.pendingOf]
  rw [modified, pendingOf_modify]
  split
  · rw [State.pendingOf, Option.map_map]
    rfl
  · rfl

/-- Other calls than the one that is freed stay listed. -/
theorem callEnd_listed {call other : Call} {c' : CallId} (known : state.calls c = some call)
    (different : c' ≠ c) (listed : Listed state c' other) : Listed (callEnd state c) c' other := by
  obtain ⟨lists, found, inList⟩ := listed
  unfold Listed
  rw [pendingOf_callEnd known]
  split
  · refine ⟨Function.update lists call.list ((lists call.list).erase c), by rw [found]; rfl, ?_⟩
    rw [Function.update_apply]
    split
    · rename_i sameList
      rw [sameList] at inList
      exact (List.mem_erase_of_ne different).mpr inList
    · exact inList
  · exact ⟨lists, found, inList⟩

theorem pendingOf_elementGone (state : State) (e other : ElementId) :
    (elementGone state e).pendingOf other = if other = e then none else state.pendingOf other := by
  simp only [State.pendingOf, elementGone, Function.update_apply]
  split <;> rfl

/-- A call that waits after another one was answered did so before. -/
theorem callBegin_waits (state : State) (c c' : CallId) (answer : Answer) {call : Call}
    (known : (callBegin state c answer).calls c' = some call) (outstanding : call.outstanding = true) :
    state.calls c' = some call := by
  cases here : state.calls c with
  | none =>
      unfold callBegin at known
      rw [here] at known
      exact known
  | some begun =>
      rw [callBegin_calls here, Function.update_apply] at known
      split at known
      · obtain rfl := Option.some.inj known
        cases outstanding
      · exact known

theorem callEnd_waits (state : State) (c c' : CallId) {call : Call}
    (known : (callEnd state c).calls c' = some call) : state.calls c' = some call := by
  cases here : state.calls c with
  | none =>
      unfold callEnd at known
      rw [here] at known
      exact known
  | some ended =>
      rw [callEnd_calls here, Function.update_apply] at known
      split at known
      · cases known
      · exact known

/-! ## Frames of frees -/

/-- The element is being freed. -/
def BeingFreed (e : ElementId) (state : State) : Prop := ∃ remaining, .freeing e remaining ∈ state.stack

/-- The lists that the innermost freeing of an element has not cancelled yet. -/
def draining (e : ElementId) : List Frame → Option (List PendingList)
  | [] => none
  | .freeing other remaining :: below => if other = e then some remaining else draining e below
  | .callback _ _ :: below => draining e below
  | .listeners _ :: below => draining e below

theorem draining_mem {stack : List Frame} {remaining : List PendingList}
    (drains : draining e stack = some remaining) : .freeing e remaining ∈ stack := by
  induction stack with
  | nil => cases drains
  | cons frame below ih =>
      cases frame with
      | freeing other rest =>
          simp only [draining] at drains
          split at drains
          · rename_i here
            obtain rfl := Option.some.inj drains
            rw [here]
            exact List.mem_cons_self
          · exact .tail _ (ih drains)
      | callback c userCb => exact .tail _ (ih drains)
      | listeners other => exact .tail _ (ih drains)

/-- A callback starts, or a freed call is used. -/
theorem draining_callBegin (state : State) (c : CallId) (answer : Answer) (e : ElementId) :
    draining e (callBegin state c answer).stack = draining e state.stack := by
  unfold callBegin
  split <;> rfl

theorem callEnd_stack (state : State) (c : CallId) : (callEnd state c).stack = state.stack := by
  unfold callEnd
  split
  · rfl
  · simp

/-- There is one reference left. -/
def LastReference (state : State) (e : ElementId) : Prop :=
  (state.elements e).map Element.references = some 1

theorem elementUnref_stack (family : Family) (state : State) (e : ElementId) :
    LastReference state e ∧ (elementUnref family state e).stack = .freeing e family.freeOrder :: state.stack ∨
      ¬ LastReference state e ∧ (elementUnref family state e).stack = state.stack := by
  unfold elementUnref LastReference
  cases found : state.elements e with
  | none => simp
  | some element =>
      by_cases last : element.references = 1
      · refine .inl ⟨by simp [last], ?_⟩
        simp [last, elementFree]
      · refine .inr ⟨by simp [last], ?_⟩
        have more : ¬ element.references - 1 = 0 := by omega
        simp [more]

/-- The step gives up the last reference to the element. -/
def DropsLast (state : State) : Label → ElementId → Prop
  | .unref e, other => other = e ∧ LastReference state e
  | .deliver, other => ∃ event rest, state.events = (event, other) :: rest ∧ event.holds = true ∧
      LastReference state other
  | _, _ => False

end EDBus.Elements
