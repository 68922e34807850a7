import EDBus.Elements.EventOrder
import EDBus.Elements.Lifetime
import EDBus.Elements.NameOwner

/-!
# The reference count of an element

The reference that `_element_new` gives an element stands for the table, and passes to
the event `ELEMENT_DEL` when the element leaves the table. All other references belong
to events of the element and to users, and the element is freed when none is left.
-/

namespace EDBus.Elements

variable {accepts : CallId → Bool} {before state after : State} {tabled : List ElementId}
  {e : ElementId}

/-! ## The module and its hash -/

/-- `e_connman` and whether its hash `elements` exists. -/
structure Session where
  state : State
  initialised : Bool

/-- What `e_connman` is asked to do, and the functions for its hash. -/
inductive Operation where
  | perform (label : Label)
  | init
  | shutdown

/-- The label does not use the hash. -/
def Label.sparesTable : Label → Bool
  | .ref _ | .unref _ | .send .. | .deliver | .idler _ => true
  | .listenersReturn | .callbackReturn | .freeNext => true
  | .reply _ .error | .reply _ .plain => true
  | _ => false

/-- `e_connman_elements_init`. -/
def elementsInit (session : Session) : Session := { session with initialised := true }

/-- `e_connman_elements_shutdown`: `eina_hash_free` hands every element to
`_e_connman_element_unregister_internal`. -/
def elementsShutdown (session : Session) : Session where
  state := (session.state.table.map Prod.snd).foldl unregisterInternal
    { session.state with table := [] }
  initialised := false

/-- One step. Without the hash only labels are taken that do not use it. -/
def Session.step (accepts : CallId → Bool) (session : Session) : Operation → Option Session
  | .perform label =>
    if session.initialised ∨ label.sparesTable then
      (Elements.step accepts .connman session.state label).map fun next => { session with state := next }
    else none
  | .init => if session.initialised then none else some (elementsInit session)
  | .shutdown =>
    if session.initialised ∧ session.state.stack = [] then some (elementsShutdown session) else none

/-- `e_connman` from its initialisation on. -/
def sessions (accepts : CallId → Bool) : Semantics.Machine Session Operation :=
  ⟨Session.step accepts⟩

/-- `e_connman_elements_init` was called. -/
def Session.start : Session := ⟨State.initial, true⟩

/-- `e_connman_manager_clear_elements` is a shutdown and an initialisation. -/
theorem clearElements_eq_init_shutdown (state : State) :
    elementsInit (elementsShutdown ⟨state, true⟩) = ⟨clearElements state, true⟩ := rfl

/-! ## What references stand for -/

/-- Who has a reference to an element: the table or else the event of its deletion, the
events that add and update it, and users. -/
def State.holders (state : State) (e : ElementId) : Nat :=
  (if e ∈ state.entries ∨ (.del, e) ∈ state.events then 1 else 0) + state.events.count (.add, e) +
    state.events.count (.updated, e) + state.userRefs e

/-- The element is freed, or being freed. -/
def State.isFreed (state : State) (e : ElementId) : Prop :=
  state.elements e = none ∨ BeingFreed e state

/-- References are counted exactly, the table has one element for a path, elements are
freed when nobody has a reference, and the table is left with one event and without the
signal handler. -/
structure ReferencesCounted (state : State) : Prop where
  counted : ∀ e element, state.elements e = some element → element.references = state.holders e
  onePerPath : ∀ first ∈ state.entries, ∀ second ∈ state.entries,
    (state.elements first).map Element.path = (state.elements second).map Element.path →
      first = second
  freed : ∀ e, e < state.nextElement → (state.isFreed e ↔ state.holders e = 0)
  nowhere : ∀ e, state.isFreed e → e ∉ state.entries ∧ ∀ event, (event, e) ∉ state.events
  deleted : ∀ e, e < state.nextElement →
    state.queued.count (.del, e) = if e ∈ state.entries then 0 else 1
  handled : ∀ e, state.handlers.count (.propertyChanged, e) = if e ∈ state.entries then 1 else 0

/-- Whatever leaves the table in a step gets its deletion queued once, and its signal
handler is dropped. -/
def LeavesOnce (before after : Session) : Prop :=
  ∀ e ∈ before.state.entries, e ∉ after.state.entries →
    after.state.queued.count (.del, e) = before.state.queued.count (.del, e) + 1 ∧
    before.state.handlers.count (.propertyChanged, e) = 1 ∧
    after.state.handlers.count (.propertyChanged, e) = 0

/-- What users keep to: callbacks drop no last reference, and no reference is taken to an
element that is being freed. -/
def Considerate (state : State) : Label → Prop
  | .ref e => ¬ BeingFreed e state
  | .unref e => state.stack = [] ∨ ¬ LastReference state e
  | _ => True

/-! ## Deletions -/

/-- Every element outside the table was deleted once. -/
structure Departures (tabled : List ElementId) (state : State) : Prop where
  counted : ∀ e, state.queued.count (.del, e) = if e < state.nextElement ∧ e ∉ tabled then 1 else 0
  pending : state.events <:+ state.queued

theorem initial_departures : Departures [] State.initial where
  counted e := by simp [State.initial]
  pending := List.suffix_rfl

/-- Only which elements are in the table matters. -/
theorem Departures.perm {other : List ElementId} (departures : Departures tabled state)
    (same : tabled.Perm other) : Departures other state where
  counted e := by
    rw [departures.counted e]
    simp only [same.mem_iff]
  pending := departures.pending

/-- Events are only done. -/
theorem Departures.congr (departures : Departures tabled state) (queued : after.queued = state.queued)
    (nextElement : after.nextElement = state.nextElement) (events : after.events <:+ state.events) :
    Departures tabled after where
  counted e := by
    rw [queued, nextElement]
    exact departures.counted e
  pending := by
    rw [queued]
    exact events.trans departures.pending

/-- An event other than a deletion is queued. -/
theorem Departures.event (departures : Departures tabled state) {event : Event} (other : event ≠ .del)
    (e : ElementId) : Departures tabled (ecoreEventAdd state event e) where
  counted gone := by
    refine Eq.trans ?_ (departures.counted gone)
    simp [ecoreEventAdd, List.count_append, other]
  pending := by
    obtain ⟨done, split⟩ := departures.pending
    exact ⟨done, by simp [ecoreEventAdd, ← split]⟩

theorem Departures.eventAdd (departures : Departures tabled state) {event : Event}
    (other : event ≠ .del) (e : ElementId) : Departures tabled (eventAdd state event e) := by
  refine Departures.event ?_ other e
  exact departures.congr (modify_queued ..) (modify_nextElement ..) (modify_events state e _ ▸ List.suffix_rfl)

/-- A new element is in the table. -/
theorem Departures.insert (departures : Departures tabled state) (family : Family)
    (path interface : String) :
    Departures (state.nextElement :: tabled) (elementInsert family state path interface) where
  counted e := by
    have queued : (elementInsert family state path interface).queued = state.queued := rfl
    have next : (elementInsert family state path interface).nextElement = state.nextElement + 1 := rfl
    rw [queued, next, departures.counted e]
    refine if_congr ?_ rfl rfl
    rw [List.mem_cons, not_or]
    constructor
    · rintro ⟨old, untabled⟩
      exact ⟨Nat.lt_succ_of_lt old, Nat.ne_of_lt old, untabled⟩
    · rintro ⟨young, different, untabled⟩
      exact ⟨Nat.lt_of_le_of_ne (Nat.le_of_lt_succ young) different, untabled⟩
  pending := departures.pending

/-- An element leaves the table. -/
theorem Departures.unregister (departures : Departures (e :: tabled) state) (once : e ∉ tabled)
    (alive : state.elements e ≠ none) (old : e < state.nextElement) :
    Departures tabled (unregisterInternal state e) := by
  obtain ⟨element, found⟩ := Option.ne_none_iff_exists'.mp alive
  constructor
  · intro gone
    have queued : (unregisterInternal state e).queued = state.queued ++ [(.del, e)] := by
      simp [unregisterInternal, found, ecoreEventAdd]
    have next : (unregisterInternal state e).nextElement = state.nextElement := by
      simp [unregisterInternal, found, ecoreEventAdd]
    rw [queued, next, List.count_append, departures.counted gone]
    by_cases here : e = gone
    · subst here
      simp [once, old]
    · have elsewhere : gone ≠ e := fun same => here same.symm
      simp [here, elsewhere]
  · obtain ⟨done, split⟩ := departures.pending
    exact ⟨done, by simp [unregisterInternal, found, ecoreEventAdd, ← split]⟩

/-- What changes neither the table nor the events queued. -/
theorem SameLog.departures (same : SameLog before after) (departures : Departures before.entries before)
    (events : after.events <:+ before.events) : Departures after.entries after := by
  rw [State.entries, same.table]
  exact departures.congr same.queued same.nextElement events

/-! ## Messages -/

/-- What messages leave alone: the stack, the references of users and those of elements
that exist. New elements have references. -/
structure Messaged (family : Family) (before after : State) : Prop where
  accounted : Accounted family after
  departures : Departures after.entries after
  stack : after.stack = before.stack
  userRefs : after.userRefs = before.userRefs
  old : ∀ e element, before.elements e = some element →
    (after.elements e).map Element.references = some element.references
  young : ∀ e element, before.elements e = none → after.elements e = some element →
    element.references ≠ 0 ∧ before.nextElement ≤ e
  nextElement : before.nextElement ≤ after.nextElement

section Messaged

variable {family : Family}

theorem Messaged.refl (accounted : Accounted family state) (departures : Departures state.entries state) :
    Messaged family state state where
  accounted := accounted
  departures := departures
  stack := rfl
  userRefs := rfl
  old e element found := by rw [found]; rfl
  young e element unborn found := by
    rw [unborn] at found
    cases found
  nextElement := Nat.le_refl _

/-- A step that leaves references alone. -/
theorem Messaged.settle (messaged : Messaged family before state) (accounted : Accounted family after)
    (departures : Departures after.entries after) (stack : after.stack = state.stack)
    (userRefs : after.userRefs = state.userRefs)
    (references : ∀ e, (after.elements e).map Element.references =
      (state.elements e).map Element.references)
    (nextElement : after.nextElement = state.nextElement) : Messaged family before after where
  accounted := accounted
  departures := departures
  stack := stack.trans messaged.stack
  userRefs := userRefs.trans messaged.userRefs
  old e element found := by
    rw [references]
    exact messaged.old e element found
  young e element unborn found := by
    have same := references e
    rw [found, Option.map_some, eq_comm, Option.map_eq_some_iff] at same
    obtain ⟨element', found', same⟩ := same
    obtain ⟨nonzero, late⟩ := messaged.young e element' unborn found'
    exact ⟨same ▸ nonzero, late⟩
  nextElement := by
    rw [nextElement]
    exact messaged.nextElement

theorem Messaged.register (messaged : Messaged family before state) (path interface : String) :
    Messaged family before (elementRegister family state path interface).1 := by
  have accounted := elementRegister_accounted messaged.accounted path interface
  unfold elementRegister at accounted ⊢
  split
  · exact messaged
  · rename_i unknown
    rw [unknown] at accounted
    have inserted := messaged.departures.insert family path interface
    have elements : ∀ e, (eventAdd (elementInsert family state path interface) .add
        state.nextElement).elements e = if e = state.nextElement
          then some (elementNew path interface).addReference else state.elements e := by
      intro e
      refine (modify_elements (elementInsert family state path interface) state.nextElement e
        Element.addReference).trans ?_
      split
      · rename_i here
        simp [elementInsert, here]
      · rename_i elsewhere
        simp [elementInsert, elsewhere]
    have unborn : state.elements state.nextElement = none :=
      (messaged.accounted.ledger.unborn _ (Nat.le_refl _)).1
    constructor
    · exact accounted
    · refine (inserted.eventAdd (by decide) state.nextElement).perm ?_
      simp only [State.entries, eventAdd, ecoreEventAdd, modify_table, elementInsert, List.map_append]
      exact (List.perm_append_singleton _ _).symm
    · refine Eq.trans ?_ messaged.stack
      simp [eventAdd, ecoreEventAdd, elementInsert]
    · refine Eq.trans ?_ messaged.userRefs
      simp [eventAdd, ecoreEventAdd, elementInsert]
    · intro e element found
      have kept := messaged.old e element found
      have different : e ≠ state.nextElement := by
        rintro rfl
        rw [unborn] at kept
        cases kept
      rw [elements, if_neg different]
      exact kept
    · intro e element unbornBefore found
      rw [elements] at found
      split at found
      · rename_i here
        obtain rfl := Option.some.inj found
        exact ⟨by simp [Element.addReference, elementNew], here ▸ messaged.nextElement⟩
      · exact messaged.young e element unbornBefore found
    · refine Nat.le_trans messaged.nextElement ?_
      simp [eventAdd, ecoreEventAdd, elementInsert]

theorem Messaged.send (messaged : Messaged family before state) (accepts : CallId → Bool)
    (e : ElementId) (list : PendingList) (libraryCb userCb : Bool) :
    Messaged family before (messageSend accepts state e list libraryCb userCb) := by
  have same : SameLog state (messageSend accepts state e list libraryCb userCb) :=
    messageSend_sameLog state e list libraryCb userCb
  have events : (messageSend accepts state e list libraryCb userCb).events = state.events := by
    unfold messageSend
    split
    · exact modify_events ..
    · rfl
  refine messaged.settle (messageSend_accounted messaged.accounted e list libraryCb userCb)
    (same.departures messaged.departures (events ▸ List.suffix_rfl))
    (messageSend_stack state e list libraryCb userCb) ?_ ?_ same.nextElement
  · unfold messageSend
    split
    · exact modify_userRefs ..
    · rfl
  · intro other
    unfold messageSend
    split
    · exact map_modify Element.references state e (Element.appendCall list state.nextCall) (fun _ => rfl) other
    · rfl

/-- What leaves the table keeps its references. -/
theorem unregisterInternal_references (state : State) (e other : ElementId) :
    ((unregisterInternal state e).elements other).map Element.references =
      (state.elements other).map Element.references := by
  unfold unregisterInternal ecoreEventAdd
  split
  · rfl
  · rename_i element found
    simp only [Function.update_apply]
    split
    · rename_i here
      rw [here, found]
      rfl
    · rfl

theorem unregisterInternal_userRefs (state : State) (e : ElementId) :
    (unregisterInternal state e).userRefs = state.userRefs := by
  unfold unregisterInternal ecoreEventAdd
  split <;> rfl

theorem Messaged.hashDel (messaged : Messaged family before state) (key : String) :
    Messaged family before (hashDel state key) := by
  have accounted := hashDel_accounted messaged.accounted key
  have stack := hashDel_stack state key
  unfold Elements.hashDel at accounted stack ⊢
  split
  · exact messaged
  · rename_i e found
    rw [found] at accounted stack
    have wf := messaged.accounted.wf
    have split := Semantics.Keyed.perm_filter_key wf.keysNodup (wf.find_iff.mp found)
    have nodup := split.nodup_iff.mp wf.entries_nodup
    obtain ⟨element, alive, -⟩ := wf.found found
    have old : e < state.nextElement := by
      refine Nat.lt_of_not_le fun young => ?_
      rw [wf.fresh e young] at alive
      cases alive
    have departed : Departures ((state.table.filter fun entry => entry.1 != key).map Prod.snd)
        (unregisterInternal
          { state with table := state.table.filter fun entry => entry.1 != key } e) := by
      refine Departures.unregister ?_ (List.nodup_cons.mp nodup).1
        (Option.ne_none_iff_exists'.mpr ⟨element, alive⟩) old
      exact (messaged.departures.perm split).congr rfl rfl List.suffix_rfl
    refine messaged.settle accounted ?_ stack (unregisterInternal_userRefs ..)
      (unregisterInternal_references _ e) (unregisterInternal_nextElement ..)
    rw [unregisterInternal_entries]
    exact departed

/-- Messages keep to it. -/
theorem messaged_closed (family : Family) (accepts : CallId → Bool) (before : State) :
    Closed family accepts (Messaged family before) where
  fault _ messaged :=
    messaged.settle (messaged.accounted.settle rfl rfl rfl rfl rfl rfl rfl)
      (messaged.departures.congr rfl rfl List.suffix_rfl) rfl rfl (fun _ => rfl) rfl
  register _ path interface messaged := messaged.register path interface
  sync _ path interface messaged :=
    (messaged.register path interface).send accepts _ .propertiesGet true false
  unregister _ e messaged := by
    unfold elementUnregister
    split
    · exact messaged.settle (messaged.accounted.settle rfl rfl rfl rfl rfl rfl rfl)
        (messaged.departures.congr rfl rfl List.suffix_rfl) rfl rfl (fun _ => rfl) rfl
    · exact messaged.hashDel _
  setProperty state e name wire messaged :=
    messaged.settle
      (messaged.accounted.modify e (Element.setProperty name (wire.value family)) (fun _ => rfl)
        (fun _ => rfl) (fun _ => rfl) fun _ => rfl)
      ((modify_sameLog state e (Element.setProperty name (wire.value family))).departures messaged.departures
        (modify_events state e _ ▸ List.suffix_rfl))
      (modify_stack ..) (modify_userRefs ..)
      (map_modify Element.references state e (Element.setProperty name (wire.value family)) fun _ => rfl)
      (modify_nextElement ..)
  listeners state e messaged := by
    have accounted := listenersCall_accounted messaged.accounted e
    have same := listenersCall_sameLog state e
    have events : (listenersCall state e).events = state.events := by
      unfold listenersCall
      split
      · rfl
      · split
        · rfl
        · exact modify_events ..
    refine messaged.settle accounted
      (same.departures messaged.departures (events ▸ List.suffix_rfl)) ?_ ?_ ?_ same.nextElement
    · exact (stack_closed family accepts _).listeners state e rfl
    · unfold listenersCall
      split
      · rfl
      · split
        · rfl
        · exact modify_userRefs ..
    · intro other
      unfold listenersCall
      split
      · rfl
      · split
        · rfl
        · exact map_modify Element.references state e Element.armIdler (fun _ => rfl) other

/-- Elements leave the table one by one, each with a deletion. -/
theorem unregisterAll_departures (left : List ElementId) (nodup : left.Nodup) (ledger : Ledger left state)
    (departures : Departures left state) (old : ∀ e ∈ left, e < state.nextElement) :
    Departures [] (left.foldl unregisterInternal state) := by
  induction left generalizing state with
  | nil => exact departures
  | cons e rest ih =>
      obtain ⟨once, restNodup⟩ := List.nodup_cons.mp nodup
      obtain ⟨element, alive, -⟩ := ledger.alive e List.mem_cons_self
      refine ih restNodup (unregisterInternal_ledger ledger once) ?_ ?_
      · exact departures.unregister once (Option.ne_none_iff_exists'.mpr ⟨element, alive⟩)
          (old e List.mem_cons_self)
      · intro other listed
        rw [unregisterInternal_nextElement]
        exact old other (.tail _ listed)

theorem Messaged.clear (messaged : Messaged family before state) :
    Messaged family before (clearElements state) := by
  have accounted := clearElements_accounted messaged.accounted
  have entries := unregisterAll_entries state.entries { state with table := [] }
  have emptied : Departures state.entries { state with table := [] } :=
    messaged.departures.congr rfl rfl List.suffix_rfl
  have ledger : Ledger state.entries { state with table := [] } :=
    messaged.accounted.ledger.congr (fun _ => rfl) (fun _ => rfl) rfl rfl rfl rfl rfl
  have old : ∀ e ∈ state.entries, e < state.nextElement := by
    intro e listed
    obtain ⟨element, alive, -⟩ := messaged.accounted.ledger.alive e listed
    refine Nat.lt_of_not_le fun young => ?_
    rw [(messaged.accounted.ledger.unborn e young).1] at alive
    cases alive
  refine messaged.settle accounted ?_ (clearElements_stack state) ?_ ?_ ?_
  · rw [show (clearElements state).entries = [] from entries]
    exact unregisterAll_departures state.entries messaged.accounted.wf.entries_nodup ledger emptied old
  · exact @foldl_keeps _ _ (fun after => after.userRefs = state.userRefs) _
      (fun after e same => (unregisterInternal_userRefs after e).trans same) _ rfl
  · exact @foldl_keeps _ _
      (fun after => ∀ e, (after.elements e).map Element.references =
        (state.elements e).map Element.references) _
      (fun after e same other => (unregisterInternal_references after e other).trans (same other)) _
      fun _ => rfl
  · exact clearElements_nextElement state

end Messaged

/-! ## Frees -/

/-- Elements without references are being freed, one at a time, and users have no
references to elements that are gone. -/
structure Referenced (state : State) : Prop where
  departures : Departures state.entries state
  single : ∀ e remaining, .freeing e remaining ∉ state.stack.dropLast
  alive : ∀ e, .listeners e ∈ state.stack ∨ BeingFreed e state → state.elements e ≠ none
  zero : ∀ e element, state.elements e = some element →
    (element.references = 0 ↔ BeingFreed e state)
  unheld : ∀ e, state.elements e = none → state.userRefs e = 0

/-- Freeing is at the bottom of the stack. -/
theorem Referenced.last (referenced : Referenced state) {remaining : List PendingList}
    {below : List Frame} (top : state.stack = .freeing e remaining :: below) : below = [] := by
  cases below with
  | nil => rfl
  | cons next rest =>
      refine absurd ?_ (referenced.single e remaining)
      rw [top, List.dropLast_cons_cons]
      exact List.mem_cons_self

theorem initial_referenced : Referenced State.initial where
  departures := initial_departures
  single _ _ := List.not_mem_nil
  alive e running := by
    rcases running with listening | ⟨remaining, freeing⟩
    · cases listening
    · cases freeing
  zero _ _ found := by cases found
  unheld _ _ := rfl

/-- References stay as they are, and so do the elements that are being freed. -/
theorem Referenced.settle (referenced : Referenced state) (departures : Departures after.entries after)
    (references : ∀ e, (after.elements e).map Element.references =
      (state.elements e).map Element.references)
    (userRefs : after.userRefs = state.userRefs)
    (freed : ∀ e, BeingFreed e after ↔ BeingFreed e state)
    (listening : ∀ e, .listeners e ∈ after.stack → .listeners e ∈ state.stack)
    (single : ∀ e remaining, .freeing e remaining ∉ after.stack.dropLast) : Referenced after where
  departures := departures
  single := single
  alive e running := by
    have alive := referenced.alive e (running.imp (listening e) (freed e).mp)
    intro dead
    have same := references e
    rw [dead, Option.map_none, eq_comm, Option.map_eq_none_iff] at same
    exact alive same
  zero e element found := by
    have same := references e
    rw [found, Option.map_some, eq_comm, Option.map_eq_some_iff] at same
    obtain ⟨element', found', same⟩ := same
    rw [← same, freed]
    exact referenced.zero e element' found'
  unheld e dead := by
    have same := references e
    rw [dead, Option.map_none, eq_comm, Option.map_eq_none_iff] at same
    rw [userRefs]
    exact referenced.unheld e same

theorem Messaged.referenced {family : Family} (messaged : Messaged family before after)
    (referenced : Referenced before) (framed : Framed before) :
    Referenced after := by
  have freed : ∀ e, BeingFreed e after ↔ BeingFreed e before := by
    intro e
    rw [BeingFreed, BeingFreed, messaged.stack]
  constructor
  case departures => exact messaged.departures
  case single =>
    rw [messaged.stack]
    exact referenced.single
  case alive =>
    intro e running dead
    rw [messaged.stack, freed] at running
    obtain ⟨element, found⟩ := Option.ne_none_iff_exists'.mp (referenced.alive e running)
    have kept := messaged.old e element found
    rw [dead] at kept
    cases kept
  case zero =>
    intro e element found
    rw [freed]
    cases was : before.elements e with
    | none =>
        obtain ⟨nonzero, young⟩ := messaged.young e element was found
        refine iff_of_false nonzero ?_
        rintro ⟨remaining, freeing⟩
        exact Nat.not_lt_of_le young (framed.freeing e remaining freeing).1
    | some element' =>
        have kept := messaged.old e element' was
        rw [found, Option.map_some, Option.some.injEq] at kept
        rw [kept]
        exact referenced.zero e element' was
  case unheld =>
    intro e dead
    cases was : before.elements e with
    | none =>
        rw [messaged.userRefs]
        exact referenced.unheld e was
    | some element' =>
        have kept := messaged.old e element' was
        rw [dead] at kept
        cases kept

/-- One reference is given up. The last one is not given up in a callback. -/
theorem Referenced.unref (referenced : Referenced state) (family : Family) {element : Element}
    (found : state.elements e = some element) (held : element.references ≠ 0)
    (careful : state.stack = [] ∨ element.references ≠ 1) :
    Referenced (elementUnref family state e) := by
  have elements : ∀ other, (state.modify e Element.dropReference).elements other =
      if other = e then some element.dropReference else state.elements other := by
    intro other
    rw [modify_elements]
    split
    · rename_i here
      rw [here, found]
      rfl
    · rfl
  have same := elementUnref_sameLog family state e
  have departures : Departures (elementUnref family state e).entries (elementUnref family state e) := by
    refine same.departures referenced.departures ?_
    unfold elementUnref
    rw [found]
    simp only
    split
    · exact modify_events state e _ ▸ List.suffix_rfl
    · exact modify_events state e _ ▸ List.suffix_rfl
  have notFreed : ¬ BeingFreed e state := fun freed => held ((referenced.zero e element found).mpr freed)
  unfold elementUnref at departures ⊢
  rw [found] at departures ⊢
  simp only at departures ⊢
  split
  · -- the last reference, given up in the main loop
    rename_i last
    rw [if_pos last] at departures
    have idle : state.stack = [] := careful.resolve_right fun other => other (by omega)
    have stack : (elementFree family (state.modify e Element.dropReference) e
        element.idlerChanged).stack = [.freeing e family.freeOrder] := by
      simp [elementFree, idle]
    have freed : ∀ other, BeingFreed other (elementFree family (state.modify e Element.dropReference) e
        element.idlerChanged) ↔ other = e := by
      intro other
      simp [BeingFreed, stack]
    constructor
    · exact departures
    · simp [stack]
    · intro other running
      rw [stack, freed] at running
      have here : other = e := by simpa using running
      refine Eq.trans_ne (elements other) ?_
      rw [if_pos here]
      simp
    · intro other element' found'
      have found' := (elements other).symm.trans found'
      rw [freed]
      split at found'
      · rename_i here
        obtain rfl := Option.some.inj found'
        exact iff_of_true last here
      · rename_i elsewhere
        refine iff_of_false (fun zero => ?_) elsewhere
        obtain ⟨remaining, freeing⟩ := (referenced.zero other element' found').mp zero
        rw [idle] at freeing
        cases freeing
    · intro other dead
      have dead := (elements other).symm.trans dead
      refine Eq.trans (congrFun (modify_userRefs state e Element.dropReference) other) ?_
      split at dead
      · cases dead
      · exact referenced.unheld other dead
  · rename_i more
    rw [if_neg more] at departures
    have freed : ∀ other, BeingFreed other (state.modify e Element.dropReference) ↔
        BeingFreed other state := by
      intro other
      rw [BeingFreed, BeingFreed, modify_stack]
    constructor
    · exact departures
    · rw [modify_stack]
      exact referenced.single
    · intro other running
      rw [modify_stack, freed] at running
      rw [elements]
      split
      · simp
      · exact referenced.alive other running
    · intro other element' found'
      rw [elements] at found'
      rw [freed]
      split at found'
      · rename_i here
        obtain rfl := Option.some.inj found'
        rw [here]
        exact iff_of_false more notFreed
      · exact referenced.zero other element' found'
    · intro other dead
      rw [elements] at dead
      rw [modify_userRefs]
      split at dead
      · cases dead
      · exact referenced.unheld other dead

/-- An element that is not being freed gets a reference more. -/
theorem Referenced.raise (referenced : Referenced state) (notFreed : ¬ BeingFreed e state)
    {element : Element} (found : state.elements e = some element) (counted : 0 ≤ element.references)
    (departures : Departures after.entries after)
    (raised : (after.elements e).map Element.references = some (element.references + 1))
    (others : ∀ other, other ≠ e → (after.elements other).map Element.references =
      (state.elements other).map Element.references)
    (userRefs : ∀ other, other ≠ e → after.userRefs other = state.userRefs other)
    (stack : after.stack = state.stack) : Referenced after := by
  have freed : ∀ other, BeingFreed other after ↔ BeingFreed other state := by
    intro other
    rw [BeingFreed, BeingFreed, stack]
  have dead : ∀ other, after.elements other = none → other ≠ e ∧ state.elements other = none := by
    intro other dead
    have different : other ≠ e := by
      rintro rfl
      rw [dead] at raised
      cases raised
    have same := others other different
    rw [dead, Option.map_none, eq_comm, Option.map_eq_none_iff] at same
    exact ⟨different, same⟩
  constructor
  case departures => exact departures
  case single =>
    rw [stack]
    exact referenced.single
  case alive =>
    intro other running gone
    rw [stack, freed] at running
    exact referenced.alive other running (dead other gone).2
  case zero =>
    intro other element' found'
    rw [freed]
    by_cases here : other = e
    · rw [here] at found' ⊢
      rw [found', Option.map_some, Option.some.injEq] at raised
      exact iff_of_false (by omega) notFreed
    · have same := others other here
      rw [found', Option.map_some, eq_comm, Option.map_eq_some_iff] at same
      obtain ⟨element'', found'', same⟩ := same
      rw [← same]
      exact referenced.zero other element'' found''
  case unheld =>
    intro other gone
    obtain ⟨different, unborn⟩ := dead other gone
    rw [userRefs other different]
    exact referenced.unheld other unborn

/-- The element that was being freed is gone. -/
theorem Referenced.gone (referenced : Referenced state) {below : List Frame}
    (top : state.stack = .freeing e [] :: below) (unheld : state.userRefs e = 0) :
    Referenced ((elementGone state e).withStack below) := by
  obtain rfl := referenced.last top
  have elements : ∀ other, ((elementGone state e).withStack []).elements other =
      if other = e then none else state.elements other := fun other => Function.update_apply ..
  have freed : ∀ other, ¬ BeingFreed other ((elementGone state e).withStack []) := by
    rintro other ⟨remaining, freeing⟩
    cases freeing
  have others : ∀ other, BeingFreed other state → other = e := by
    rintro other ⟨remaining, freeing⟩
    rw [top] at freeing
    exact (Frame.freeing.inj (List.mem_singleton.mp freeing)).1
  constructor
  case departures => exact referenced.departures.congr rfl rfl List.suffix_rfl
  case single => exact fun _ _ => List.not_mem_nil
  case alive =>
    rintro other (listening | freeing)
    · cases listening
    · exact absurd freeing (freed other)
  case zero =>
    intro other element found
    rw [elements] at found
    split at found
    · cases found
    · rename_i elsewhere
      refine iff_of_false (fun zero => ?_) (freed other)
      exact elsewhere (others other ((referenced.zero other element found).mp zero))
  case unheld =>
    intro other dead
    rw [elements] at dead
    split at dead
    · rename_i here
      rw [here]
      exact unheld
    · exact referenced.unheld other dead

/-! ## Steps -/

/-- What is known of `e_connman` as long as users are considerate. -/
structure Audited (state : State) : Prop where
  kept : Kept .connman state
  referenced : Referenced state
  discoveries : DiscoverySame State.initial state

theorem initial_audited : Audited State.initial :=
  ⟨initial_kept .connman, initial_referenced, DiscoverySame.refl _⟩

/-- No element is freed while its listeners are called. -/
theorem Audited.not_listenerFreed (audited : Audited state) (label : Label) :
    ¬ ListenerFreed state label := by
  rintro ⟨-, e, below, top, dead⟩
  exact audited.referenced.alive e (.inl (top ▸ List.mem_cons_self)) dead

/-- connman finds no devices. -/
theorem transition_discoverySame {label : Label} {next : State} (audited : Audited state)
    (transition : Transition accepts .connman state label next) :
    DiscoverySame State.initial next := by
  have same := audited.discoveries
  have closed := discoverySame_closed .connman accepts State.initial
  cases transition with
  | sync => exact closed.sync state _ _ same
  | ref e => exact same.congr (modify_handlers ..) (modify_events ..)
  | unref e =>
      have returned : DiscoverySame State.initial (returnReference state e) := same.congr rfl rfl
      exact returned.unref e
  | send e list libraryCb userCb => exact same.send e list libraryCb userCb
  | startDiscovery e userCb acts alive isBluez => cases isBluez
  | register path interface => exact closed.register state path interface same
  | unregister e => exact closed.unregister state e same
  | clear => exact same.clear
  | deliver event e rest idle head =>
      have fewer : DiscoverySame State.initial { state with events := rest } :=
        ⟨same.handlers, fun other listed => same.events other (head ▸ .tail _ listed)⟩
      unfold eventFree
      split
      · exact fewer
      · exact fewer.unref e
  | propertyChanged e name wire => exact closed.propertyChangedCallback e name wire same
  | deviceFound e idle handled => exact absurd ((same.handlers e).mp handled) (by simp [State.initial])
  | idler e => exact same.congr rfl rfl
  | reply c reply call =>
      exact replyRead_closed closed call reply (same.trans (callBegin_discoverySame state c reply.answer))
  | listenersReturn e below =>
      have returned : DiscoverySame State.initial (state.withStack below) := same.congr rfl rfl
      have added := (returned.modify e Element.addReference).event (show Event.updated.holds = true from rfl) e
      exact (added.modify e Element.disarmIdler).congr rfl rfl
  | callbackReturn c userCb below =>
      have returned : DiscoverySame State.initial (state.withStack below) := same.congr rfl rfl
      exact returned.trans (callEnd_discoverySame _ c)
  | freeDead => exact same.congr rfl rfl
  | freeDone => exact same.congr rfl rfl
  | freeList => exact same.congr rfl rfl
  | freeCall e list rest below element c => exact same.trans (callBegin_discoverySame state c .canceled)

/-- A callback starts. -/
theorem Referenced.callback (referenced : Referenced state) {c : CallId} {call : Call}
    (known : state.calls c = some call) (answer : Answer) : Referenced (callBegin state c answer) := by
  have stack := callBegin_stack known answer
  have same := callBegin_sameLog state c answer
  have begun : (callBegin state c answer).elements = state.elements ∧
      (callBegin state c answer).events = state.events ∧
      (callBegin state c answer).userRefs = state.userRefs := by
    simp [callBegin, known]
  obtain ⟨elements, events, userRefs⟩ := begun
  refine referenced.settle (same.departures referenced.departures (events ▸ List.suffix_rfl))
    (fun e => by rw [elements]) userRefs ?_ ?_ ?_
  · intro e
    simp [BeingFreed, stack]
  · intro e listening
    rw [stack] at listening
    exact (List.mem_cons.mp listening).resolve_left (by simp)
  · intro e remaining
    rw [stack]
    cases lower : state.stack with
    | nil => simp
    | cons next rest =>
        rw [List.dropLast_cons_cons]
        intro freeing
        refine referenced.single e remaining ?_
        rw [lower]
        exact (List.mem_cons.mp freeing).resolve_left (by simp)

/-- The top of the stack goes, which was not freeing an element. -/
theorem Referenced.pop (referenced : Referenced state) {frame : Frame} {below : List Frame}
    (top : state.stack = frame :: below) (other : ∀ e remaining, frame ≠ .freeing e remaining) :
    Referenced (state.withStack below) := by
  refine referenced.settle (referenced.departures.congr rfl rfl List.suffix_rfl) (fun _ => rfl) rfl
    ?_ ?_ ?_
  · intro e
    refine exists_congr fun remaining => ?_
    rw [top, List.mem_cons]
    exact (or_iff_right fun same => other e remaining same.symm).symm
  · intro e listening
    rw [top]
    exact .tail _ listening
  · intro e remaining freeing
    refine referenced.single e remaining ?_
    rw [top]
    cases below with
    | nil => cases freeing
    | cons next rest =>
        rw [List.dropLast_cons_cons]
        exact .tail _ freeing

/-- A user takes a reference to an element that is not being freed. -/
theorem Referenced.hold (referenced : Referenced state) (notFreed : ¬ BeingFreed e state) {element : Element}
    (found : state.elements e = some element) (counted : 0 ≤ element.references) :
    Referenced (holdReference (state.modify e Element.addReference) e) := by
  have elements := fun other => modify_elements state e other Element.addReference
  have departures := (modify_sameLog state e Element.addReference).departures referenced.departures
    (modify_events state e _ ▸ List.suffix_rfl)
  refine referenced.raise notFreed found counted (departures.congr rfl rfl List.suffix_rfl) ?_ ?_ ?_
    (modify_stack ..)
  · refine (congrArg (Option.map Element.references) (elements e)).trans ?_
    rw [if_pos rfl, found]
    rfl
  · intro other different
    refine (congrArg (Option.map Element.references) (elements other)).trans ?_
    rw [if_neg different]
  · intro other different
    rw [holdReference_userRefs, if_neg different, modify_userRefs]
    rfl

/-- A user gives a reference to a live element back. -/
theorem Referenced.giveBack (referenced : Referenced state) (alive : state.elements e ≠ none) :
    Referenced (returnReference state e) where
  departures := referenced.departures.congr rfl rfl List.suffix_rfl
  single := referenced.single
  alive := referenced.alive
  zero := referenced.zero
  unheld other dead := by
    have unheld := referenced.unheld other dead
    have different : other ≠ e := by
      rintro rfl
      exact alive dead
    simpa [returnReference, different] using unheld

/-- The head of the event queue is taken. -/
theorem Referenced.take (referenced : Referenced state) {rest : List (Event × ElementId)}
    (fewer : rest <:+ state.events) : Referenced { state with events := rest } where
  departures := referenced.departures.congr rfl rfl fewer
  single := referenced.single
  alive := referenced.alive
  zero := referenced.zero
  unheld := referenced.unheld

/-- The idler of a live element calls its listeners. -/
theorem Referenced.listen (referenced : Referenced state) (idle : state.stack = [])
    (alive : state.elements e ≠ none) : Referenced (state.withStack [.listeners e]) := by
  have none : ∀ other, ¬ BeingFreed other state := by
    rintro other ⟨remaining, freeing⟩
    rw [idle] at freeing
    cases freeing
  refine ⟨referenced.departures.congr rfl rfl List.suffix_rfl, fun _ _ => List.not_mem_nil, ?_, ?_,
    referenced.unheld⟩
  · rintro other (listening | ⟨remaining, freeing⟩)
    · obtain rfl := Frame.listeners.inj (List.mem_singleton.mp listening)
      exact alive
    · cases List.mem_singleton.mp freeing
  · intro other element' found'
    refine (referenced.zero other element' found').trans (iff_of_false (none other) ?_)
    rintro ⟨remaining, freeing⟩
    cases List.mem_singleton.mp freeing

/-- The listeners were called, and the event `ELEMENT_UPDATED` gets a reference. -/
theorem Referenced.listenersReturn (referenced : Referenced state) (idle : state.stack = []) {element : Element}
    (found : state.elements e = some element) (counted : 0 ≤ element.references) :
    Referenced (listenersEnd state e) := by
  have added := referenced.departures.eventAdd (show Event.updated ≠ .del by decide) e
  have same := listenersEnd_queued state e
  have entries : (eventAdd state .updated e).entries = state.entries := by
    simp [State.entries, eventAdd, ecoreEventAdd]
  have elements : ∀ other, ((listenersEnd state e).elements other).map Element.references =
      ((state.modify e Element.addReference).elements other).map Element.references := by
    intro other
    exact map_modify Element.references (eventAdd state .updated e) e Element.disarmIdler (fun _ => rfl) other
  have raised := fun other => modify_elements state e other Element.addReference
  refine referenced.raise ?_ found counted ?_ ?_ ?_ ?_ ?_
  · rintro ⟨remaining, freeing⟩
    rw [idle] at freeing
    cases freeing
  · refine same.departures (entries ▸ added) ?_
    simp [listenersEnd]
  · rw [elements, raised, if_pos rfl, found]
    rfl
  · intro other different
    rw [elements, raised, if_neg different]
  · intro other different
    simp [listenersEnd, eventAdd, ecoreEventAdd]
  · simp [listenersEnd, eventAdd, ecoreEventAdd]

/-- The callbacks of a call returned. -/
theorem Referenced.callbackReturn (referenced : Referenced state) (c : CallId) : Referenced (callEnd state c) := by
  have same := callEnd_sameLog state c
  have ended : (callEnd state c).events = state.events ∧
      (callEnd state c).userRefs = state.userRefs ∧
      ∀ e, ((callEnd state c).elements e).map Element.references =
        (state.elements e).map Element.references := by
    unfold callEnd
    split
    · exact ⟨rfl, rfl, fun _ => rfl⟩
    · rename_i call known
      exact ⟨modify_events .., modify_userRefs .., map_modify Element.references
        state call.element (Element.removeCall call.list c) fun _ => rfl⟩
  obtain ⟨events, userRefs, references⟩ := ended
  have stack := callEnd_stack state c
  refine referenced.settle (same.departures referenced.departures (events ▸ List.suffix_rfl)) references
    userRefs (fun e => ?_) (fun e => ?_) fun e remaining => ?_
  · rw [BeingFreed, BeingFreed, stack]
  · rw [stack]
    exact id
  · rw [stack]
    exact referenced.single e remaining

/-- A list of calls is done while an element is being freed. -/
theorem Referenced.nextList (referenced : Referenced state) {list : PendingList} {rest : List PendingList}
    {below : List Frame} (top : state.stack = .freeing e (list :: rest) :: below) :
    Referenced (state.withStack (.freeing e rest :: below)) := by
  refine referenced.settle (referenced.departures.congr rfl rfl List.suffix_rfl) (fun _ => rfl) rfl ?_ ?_ ?_
  · intro other
    simp only [BeingFreed, State.withStack, top, List.mem_cons, exists_or, Frame.freeing.injEq]
    simp
  · intro other listening
    rw [top]
    exact .tail _ ((List.mem_cons.mp listening).resolve_left (by simp))
  · intro other remaining freeing
    obtain rfl := referenced.last top
    cases freeing

/-- Steps of considerate users and of the main loop count references exactly. -/
theorem transition_referenced {label : Label} {next : State} (audited : Audited state)
    (transition : Transition accepts .connman state label next) (considerate : Considerate state label) :
    Referenced next := by
  have referenced := audited.referenced
  have accounted := audited.kept.accounted
  have ledger := accounted.ledger
  have framed := audited.kept.framed
  have messaged := Messaged.refl accounted referenced.departures
  have closed := messaged_closed .connman accepts state
  have positive : ∀ e element, state.elements e = some element → 0 ≤ element.references := by
    intro e element found
    have counted := ledger.counted e element found
    omega
  cases transition with
  | sync => exact (closed.sync state _ _ messaged).referenced referenced framed
  | ref e acts alive =>
      obtain ⟨element, found⟩ := Option.ne_none_iff_exists'.mp alive
      exact referenced.hold considerate found (positive e element found)
  | unref e acts held =>
      have alive : state.elements e ≠ none := by
        intro dead
        rw [referenced.unheld e dead] at held
        cases held
      obtain ⟨element, found⟩ := Option.ne_none_iff_exists'.mp alive
      have counted := ledger.counted e element found
      refine (referenced.giveBack alive).unref .connman found (by omega)
        (considerate.imp id fun more same => more ?_)
      rw [LastReference, found, Option.map_some, same]
  | send e list libraryCb userCb =>
      exact (messaged.send accepts e list libraryCb userCb).referenced referenced framed
  | startDiscovery e userCb acts alive isBluez => cases isBluez
  | register path interface => exact (messaged.register path interface).referenced referenced framed
  | unregister e => exact (closed.unregister state e messaged).referenced referenced framed
  | clear => exact messaged.clear.referenced referenced framed
  | deliver event e rest idle head =>
      have listed : (event, e) ∈ state.events := head ▸ List.mem_cons_self
      have holds : event ≠ .deviceFound := by
        rintro rfl
        have none := audited.discoveries.events e listed
        cases none
      obtain ⟨element, found⟩ := Option.ne_none_iff_exists'.mp
        (ledger.queued event e listed (by simpa [Event.holds] using holds))
      have counted := ledger.counted e element found
      rw [eventRefs_cons state event e e rest head,
        if_pos ⟨by simpa [Event.holds] using holds, rfl⟩] at counted
      unfold eventFree
      rw [if_neg holds]
      exact (referenced.take ⟨[(event, e)], head.symm⟩).unref .connman found (by omega) (.inl idle)
  | propertyChanged e name wire =>
      exact (closed.propertyChangedCallback e name wire messaged).referenced referenced framed
  | deviceFound e idle handled =>
      exact absurd ((audited.discoveries.handlers e).mp handled) (by simp [State.initial])
  | idler e idle armed =>
      obtain ⟨element, found, -⟩ := ledger.idle e armed
      exact referenced.listen idle (found ▸ Option.some_ne_none element)
  | reply c reply call idle known =>
      have begun := referenced.callback known reply.answer
      have kept := callBegin_kept audited.kept c reply.answer
      refine (replyRead_closed (messaged_closed .connman accepts _) call reply ?_).referenced begun
        kept.framed
      exact Messaged.refl kept.accounted begun.departures
  | listenersReturn e below top =>
      obtain ⟨element, found⟩ := Option.ne_none_iff_exists'.mp
        (referenced.alive e (.inl (top ▸ List.mem_cons_self)))
      obtain rfl := framed.listeners_last top
      have popped := referenced.pop top (by simp)
      exact popped.listenersReturn rfl found (positive e element found)
  | callbackReturn c userCb below top => exact (referenced.pop top (by simp)).callbackReturn c
  | freeDead e remaining below top dead =>
      exact absurd dead (referenced.alive e (.inr ⟨remaining, top ▸ List.mem_cons_self⟩))
  | freeDone e below element top alive =>
      have zero := (referenced.zero e element alive).mpr ⟨[], top ▸ List.mem_cons_self⟩
      have counted := ledger.counted e element alive
      exact referenced.gone top (by omega)
  | freeList e list rest below element top => exact referenced.nextList top
  | freeCall e list rest below element c others top alive head =>
      cases known : state.calls c with
      | some call => exact referenced.callback known .canceled
      | none =>
          have begun : callBegin state c .canceled = { state with callFault := true } := by
            simp [callBegin, known]
          rw [begun]
          exact ⟨referenced.departures.congr rfl rfl List.suffix_rfl, referenced.single,
            referenced.alive, referenced.zero, referenced.unheld⟩

/-- Considerate users and the main loop keep the books. -/
theorem transition_audited {label : Label} {next : State} (audited : Audited state)
    (transition : Transition accepts .connman state label next) (considerate : Considerate state label) :
    Audited next where
  kept := transition_kept audited.kept transition (audited.not_listenerFreed label)
  referenced := transition_referenced audited transition considerate
  discoveries := transition_discoverySame audited transition

/-- So does the end of the hash. -/
theorem clearElements_audited (audited : Audited state) (idle : state.stack = []) :
    Audited (clearElements state) := by
  have transition : Transition (fun _ => true) .connman state .clear (clearElements state) :=
    .clear idle
  exact transition_audited audited transition trivial

/-! ## What the references are -/

theorem eventRefs_eq_counts (state : State) (e : ElementId) :
    state.eventRefs e = state.events.count (.add, e) + state.events.count (.updated, e) +
      state.events.count (.del, e) := by
  unfold State.eventRefs
  induction state.events with
  | nil => rfl
  | cons entry rest ih =>
      obtain ⟨event, other⟩ := entry
      rw [List.countP_cons, List.count_cons, List.count_cons, List.count_cons, ih]
      by_cases here : other = e
      · cases event <;> simp [Event.holds, here] <;> omega
      · simp [here]

theorem count_eq_ite {Item : Type} [BEq Item] [LawfulBEq Item] [DecidableEq Item] {list : List Item}
    {item : Item} (once : list.count item ≤ 1) : list.count item = if item ∈ list then 1 else 0 := by
  split
  · rename_i listed
    have some := List.count_pos_iff.mpr listed
    omega
  · rename_i unlisted
    exact List.count_eq_zero_of_not_mem unlisted

/-- The holders are those that the ledger counts. -/
theorem Audited.holders_eq (audited : Audited state) (e : ElementId) :
    state.holders e = state.entries.count e + state.eventRefs e + state.userRefs e := by
  have departed := audited.referenced.departures.counted e
  have fewer := (audited.referenced.departures.pending.sublist).count_le (.del, e)
  have entries := count_eq_ite (List.nodup_iff_count_le_one.mp audited.kept.accounted.wf.entries_nodup e)
  have once : state.events.count (.del, e) ≤ 1 := by
    split at departed <;> omega
  have deletion := count_eq_ite once
  have registered : (if e ∈ state.entries ∨ (.del, e) ∈ state.events then 1 else 0) =
      state.entries.count e + state.events.count (.del, e) := by
    by_cases listed : e ∈ state.entries
    · have unqueued : state.events.count (.del, e) = 0 := by
        rw [if_neg fun both => both.2 listed] at departed
        omega
      rw [if_pos (.inl listed), entries, if_pos listed, unqueued]
    · rw [entries, if_neg listed, deletion, Nat.zero_add]
      simp only [listed, false_or]
  rw [State.holders, registered, eventRefs_eq_counts]
  omega

/-- What is freed is neither in the table nor in an event. -/
theorem Audited.nowhere (audited : Audited state) (freed : state.isFreed e) :
    e ∉ state.entries ∧ state.eventRefs e = 0 := by
  have ledger := audited.kept.accounted.ledger
  rcases freed with dead | ⟨remaining, freeing⟩
  · constructor
    · intro listed
      obtain ⟨element, alive, -⟩ := ledger.alive e listed
      rw [dead] at alive
      cases alive
    · rw [State.eventRefs, List.countP_eq_zero]
      rintro ⟨event, other⟩ listed
      simp only [Bool.and_eq_true, beq_iff_eq, not_and]
      rintro holds rfl
      exact ledger.queued event other listed holds dead
  · obtain ⟨-, untabled, unqueued, -⟩ := audited.kept.framed.freeing e remaining freeing
    exact ⟨untabled, unqueued⟩

theorem Audited.counted (audited : Audited state) : ReferencesCounted state := by
  have ledger := audited.kept.accounted.ledger
  have wf := audited.kept.accounted.wf
  have entries := fun e => count_eq_ite (List.nodup_iff_count_le_one.mp wf.entries_nodup e)
  have counted : ∀ e element, state.elements e = some element →
      element.references = state.holders e := by
    intro e element found
    have counted := ledger.counted e element found
    rw [audited.holders_eq]
    omega
  constructor
  case counted => exact counted
  case onePerPath =>
    intro first firstListed second secondListed samePath
    obtain ⟨⟨firstKey, _⟩, firstEntry, rfl⟩ := List.mem_map.mp firstListed
    obtain ⟨⟨secondKey, _⟩, secondEntry, rfl⟩ := List.mem_map.mp secondListed
    obtain ⟨firstElement, firstFound, firstIs⟩ := wf.found (wf.find_iff.mpr firstEntry)
    obtain ⟨secondElement, secondFound, secondIs⟩ := wf.found (wf.find_iff.mpr secondEntry)
    have sameKey : firstKey = secondKey := by
      rw [firstFound, secondFound, Option.map_some, Option.map_some, Option.some.injEq] at samePath
      exact firstIs.1.trans (samePath.trans secondIs.1.symm)
    subst sameKey
    exact Option.some.inj ((wf.find_iff.mpr firstEntry).symm.trans (wf.find_iff.mpr secondEntry))
  case freed =>
    intro e old
    constructor
    · rintro (dead | freed)
      · obtain ⟨untabled, unqueued⟩ := audited.nowhere (.inl dead)
        rw [audited.holders_eq, List.count_eq_zero_of_not_mem untabled, unqueued,
          audited.referenced.unheld e dead]
      · obtain ⟨element, found⟩ := Option.ne_none_iff_exists'.mp (audited.referenced.alive e (.inr freed))
        have zero := (audited.referenced.zero e element found).mpr freed
        have holders := counted e element found
        omega
    · intro none
      cases found : state.elements e with
      | none => exact .inl found
      | some element =>
          have holders := counted e element found
          exact .inr ((audited.referenced.zero e element found).mp (by omega))
  case nowhere =>
    intro e freed
    obtain ⟨untabled, unqueued⟩ := audited.nowhere freed
    refine ⟨untabled, fun event listed => ?_⟩
    cases holds : event.holds with
    | true =>
        rw [State.eventRefs, List.countP_eq_zero] at unqueued
        exact unqueued (event, e) listed (by simp [holds])
    | false =>
        obtain rfl : event = .deviceFound := by simpa [Event.holds] using holds
        cases audited.discoveries.events e listed
  case deleted =>
    intro e old
    rw [audited.referenced.departures.counted e]
    by_cases listed : e ∈ state.entries <;> simp [listed, old]
  case handled =>
    intro e
    rw [ledger.handled e, entries e]

/-! ## Sessions -/

/-- In a session users are considerate. -/
def Operation.considerate (session : Session) : Operation → Prop
  | .perform label => Considerate session.state label
  | .init => True
  | .shutdown => True

theorem sessions_audited {session next : Session} {operation : Operation} (audited : Audited session.state)
    (stepped : session.step accepts operation = some next) (considerate : operation.considerate session) :
    Audited next.state := by
  cases operation with
  | perform label =>
      rw [Session.step, Option.ite_none_right_eq_some, Option.map_eq_some_iff] at stepped
      obtain ⟨-, after, stepped, rfl⟩ := stepped
      obtain ⟨-, -, transition⟩ := step_transition stepped
      exact transition_audited audited transition considerate
  | init =>
      rw [Session.step, Option.ite_none_left_eq_some, Option.some.injEq] at stepped
      obtain ⟨-, rfl⟩ := stepped
      exact audited
  | shutdown =>
      rw [Session.step, Option.ite_none_right_eq_some, Option.some.injEq] at stepped
      obtain ⟨⟨-, idle⟩, rfl⟩ := stepped
      exact clearElements_audited audited idle

theorem sessions_grown {session next : Session} {operation : Operation}
    (stepped : session.step accepts operation = some next) : Grown session.state next.state := by
  cases operation with
  | perform label =>
      rw [Session.step, Option.ite_none_right_eq_some, Option.map_eq_some_iff] at stepped
      obtain ⟨-, after, stepped, rfl⟩ := stepped
      exact transition_grown (step_transition stepped).2.2
  | init =>
      rw [Session.step, Option.ite_none_left_eq_some, Option.some.injEq] at stepped
      obtain ⟨-, rfl⟩ := stepped
      exact Grown.refl _
  | shutdown =>
      rw [Session.step, Option.ite_none_right_eq_some, Option.some.injEq] at stepped
      obtain ⟨-, rfl⟩ := stepped
      exact (grown_lasting .connman session.state).clear (Grown.refl _)

/-- References of connman elements are counted exactly in every state, and whatever leaves
the table gets one deletion and loses its signal handler once. -/
theorem referencesCounted_throughout (accepts : CallId → Bool) (run : List Operation)
    (considerate : (sessions accepts).Along (fun session operation _ => operation.considerate session)
      Session.start run) :
    (sessions accepts).Throughout (fun session => ReferencesCounted session.state) Session.start run ∧
      (sessions accepts).Along (fun before _ after => LeavesOnce before after) Session.start run := by
  have audited : (sessions accepts).Throughout (fun session => Audited session.state) Session.start run :=
    Semantics.Machine.throughout_of_along
      (fun _ _ _ audited stepped considerate => sessions_audited audited stepped considerate)
      initial_audited considerate
  refine ⟨audited.mono fun _ audited => audited.counted, ?_⟩
  refine Semantics.Machine.along_of_throughout ?_ audited
  intro before operation after auditedBefore auditedAfter stepped e listed left
  have countedBefore := auditedBefore.counted
  have countedAfter := auditedAfter.counted
  have old : e < before.state.nextElement := by
    obtain ⟨element, alive, -⟩ := auditedBefore.kept.accounted.ledger.alive e listed
    refine Nat.lt_of_not_le fun young => ?_
    rw [auditedBefore.kept.accounted.wf.fresh e young] at alive
    cases alive
  have stillOld := Nat.lt_of_lt_of_le old (sessions_grown stepped).nextElement
  refine ⟨?_, ?_, ?_⟩
  · rw [countedAfter.deleted e stillOld, countedBefore.deleted e old, if_neg left, if_pos listed]
  · rw [countedBefore.handled e, if_pos listed]
  · rw [countedAfter.handled e, if_neg left]

/-- connman is shut down while a user has a reference to a service. -/
def serviceHeld : List Operation :=
  [.perform (.register "/service" "net.connman.Service"), .perform (.ref 0),
    .perform (.propertyChanged 0 "State" (.basic (.string "online"))), .shutdown,
    .perform (.idler 0), .perform .listenersReturn, .perform .deliver, .perform .deliver,
    .perform .deliver, .perform (.unref 0), .perform .freeNext]

theorem referencesCounted_throughout_serviceHeld :
    (sessions fun _ => true).Throughout (fun session => ReferencesCounted session.state) Session.start
        serviceHeld ∧
      (sessions fun _ => true).Along (fun before _ after => LeavesOnce before after) Session.start
        serviceHeld := by
  refine referencesCounted_throughout (fun _ => true) serviceHeld ?_
  refine (Semantics.Machine.along_cons rfl).mpr ⟨trivial, ?_⟩
  refine (Semantics.Machine.along_cons rfl).mpr ⟨?_, ?_⟩
  · rintro ⟨remaining, freeing⟩
    cases freeing
  refine (Semantics.Machine.along_cons rfl).mpr ⟨trivial, ?_⟩
  refine (Semantics.Machine.along_cons rfl).mpr ⟨trivial, ?_⟩
  refine (Semantics.Machine.along_cons rfl).mpr ⟨trivial, ?_⟩
  refine (Semantics.Machine.along_cons rfl).mpr ⟨trivial, ?_⟩
  refine (Semantics.Machine.along_cons rfl).mpr ⟨trivial, ?_⟩
  refine (Semantics.Machine.along_cons rfl).mpr ⟨trivial, ?_⟩
  refine (Semantics.Machine.along_cons rfl).mpr ⟨trivial, ?_⟩
  refine (Semantics.Machine.along_cons rfl).mpr ⟨.inl rfl, ?_⟩
  exact (Semantics.Machine.along_cons rfl).mpr ⟨trivial, trivial⟩

end EDBus.Elements
