import EDBus.Elements.Store
import EDBus.Semantics.Execution

/-!
# A module as a machine

The main loop delivers Ecore events, signals and replies and fires idlers, one at
a time. Users act between them, and in the callbacks of calls and listeners. The
`stack` says which callbacks are running and which elements are being freed.
-/

namespace EDBus.Elements

/-- How a call is answered. A reply without properties is `plain`. -/
inductive Reply where
  | error
  | plain
  | properties (received : List (String × Wire))

/-- What the callbacks get from a reply. -/
def Reply.answer : Reply → Answer
  | .error => .error
  | .plain => .reply
  | .properties _ => .reply

/-- What a module can be asked to do next. -/
inductive Label where
  | register (path interface : String)
  | unregister (e : ElementId)
  | clear
  | sync
  | ref (e : ElementId)
  | unref (e : ElementId)
  | send (e : ElementId) (list : PendingList) (libraryCb userCb : Bool)
  | startDiscovery (e : ElementId) (userCb : Bool)
  | deliver
  | propertyChanged (e : ElementId) (name : String) (wire : Wire)
  | deviceFound (e : ElementId)
  | idler (e : ElementId)
  | reply (call : CallId) (reply : Reply)
  | listenersReturn
  | callbackReturn
  | freeNext

/-- The field `_references` goes down. -/
def Element.dropReference (element : Element) : Element :=
  { element with references := element.references - 1 }

/-- A call leaves its list. -/
def Element.removeCall (list : PendingList) (call : CallId) (element : Element) : Element :=
  { element with
    pending := Function.update element.pending list ((element.pending list).erase call) }

/-- The field `_idler.changed` is cleared. -/
def Element.disarmIdler (element : Element) : Element :=
  { element with idlerChanged := false }

/-! ## References -/

/-- `_element_free` up to the first pending call. -/
def elementFree (family : Family) (state : State) (e : ElementId) (idlerChanged : Bool) : State :=
  { state with
    idlers := if idlerChanged then state.idlers.erase e else state.idlers
    stack := .freeing e family.freeOrder :: state.stack }

/-- `_element_unref`. -/
def elementUnref (family : Family) (state : State) (e : ElementId) : State :=
  match state.elements e with
  | none => { state with fault := true }
  | some element =>
    let dropped := state.modify e Element.dropReference
    if element.references - 1 = 0 then elementFree family dropped e element.idlerChanged else dropped

/-- A user gets a reference. -/
def holdReference (state : State) (e : ElementId) : State :=
  { state with userRefs := Function.update state.userRefs e (state.userRefs e + 1) }

/-- A user gives a reference back. -/
def returnReference (state : State) (e : ElementId) : State :=
  { state with userRefs := Function.update state.userRefs e (state.userRefs e - 1) }

/-! ## Events, idlers and calls -/

/-- The head of the event queue is done, and its free function called. That of
`E_BLUEZ_EVENT_DEVICE_FOUND` does not touch the element. -/
def eventFree (family : Family) (state : State) (event : Event) (e : ElementId) : State :=
  if event = .deviceFound then state else elementUnref family state e

/-- `_element_listeners_call_idler` after the listeners were called. -/
def listenersEnd (state : State) (e : ElementId) : State :=
  let updated := (eventAdd state .updated e).modify e Element.disarmIdler
  { updated with idlers := updated.idlers.erase e }

/-- `_element_call_dispatch_and_free` up to the callbacks. -/
def callBegin (state : State) (c : CallId) (answer : Answer) : State :=
  match state.calls c with
  | none => { state with callFault := true }
  | some call =>
    { state with
      calls := Function.update state.calls c (some { call with outstanding := false })
      stack := .callback c call.userCb :: state.stack
      answers := Function.update state.answers c (state.answers c ++ [answer]) }

/-- `_element_call_dispatch_and_free` after the callbacks. -/
def callEnd (state : State) (c : CallId) : State :=
  match state.calls c with
  | none => { state with callFault := true }
  | some call =>
    let removed := state.modify call.element (Element.removeCall call.list c)
    { removed with calls := Function.update removed.calls c none }

/-- A reply is dispatched: the callback of the call data reads it. -/
def replyRead (accepts : CallId → Bool) (family : Family) (state : State) (call : Call) :
    Reply → State
  | .properties received =>
    if call.libraryCb then getPropertiesCallback accepts family state call.element received else state
  | .error => state
  | .plain => state

/-- `e_bluez_adapter_start_discovery`. The handler is added anew every time. -/
def startDiscovery (accepts : CallId → Bool) (state : State) (e : ElementId) (userCb : Bool) : State :=
  messageSend accepts { state with handlers := state.handlers ++ [(.deviceFound, e)] } e
    .startDiscovery false userCb

/-- The element is freed. -/
def elementGone (state : State) (e : ElementId) : State :=
  { state with elements := Function.update state.elements e none }

/-- The stack gets another shape. -/
def State.withStack (state : State) (stack : List Frame) : State := { state with stack := stack }

/-- A freed or invalid pointer is used. -/
def State.failed (state : State) : State := { state with fault := true }

/-- One turn of the loops in `_element_free`. After the last list the element is freed. -/
def freeTurn (state : State) (e : ElementId) (remaining : List PendingList) (below : List Frame) :
    State :=
  match state.elements e with
  | none => state.failed.withStack below
  | some element =>
    match remaining with
    | [] => (elementGone state e).withStack below
    | list :: rest =>
      match element.pending list with
      | [] => state.withStack (.freeing e rest :: below)
      | c :: _ => callBegin state c .canceled

/-! ## Steps -/

/-- Users act in the main loop, in the callback of a call that has one, and in
listeners. -/
def State.userActs (state : State) : Bool :=
  match state.stack with
  | [] => true
  | .callback _ userCb :: _ => userCb
  | .listeners _ :: _ => true
  | .freeing _ _ :: _ => false

/-- What users do, with elements that they can refer to. -/
def userStep (accepts : CallId → Bool) (family : Family) (state : State) : Label → Option State
  | .sync => some (managerSync accepts family state)
  | .ref e =>
    if (state.elements e).isSome then
      some (holdReference (state.modify e Element.addReference) e)
    else none
  | .unref e =>
    if 0 < state.userRefs e then some (elementUnref family (returnReference state e) e) else none
  | .send e list libraryCb userCb =>
    if (state.elements e).isSome ∧ list ∈ family.pendingLists then
      some (messageSend accepts state e list libraryCb userCb)
    else none
  | .startDiscovery e userCb =>
    if (state.elements e).isSome ∧ family = .bluez then some (startDiscovery accepts state e userCb)
    else none
  | _ => none

/-- What the main loop does. -/
def loopStep (accepts : CallId → Bool) (family : Family) (state : State) : Label → Option State
  | .register path interface => some (elementRegister family state path interface).1
  | .unregister e =>
    if (state.elements e).isSome then some (elementUnregister family state e) else none
  | .clear => some (clearElements state)
  | .deliver =>
    match state.events with
    | [] => none
    | (event, e) :: rest => some (eventFree family { state with events := rest } event e)
  | .propertyChanged e name wire =>
    if (.propertyChanged, e) ∈ state.handlers then
      some (propertyChangedCallback accepts family state e name wire)
    else none
  | .deviceFound e =>
    if (.deviceFound, e) ∈ state.handlers then some (ecoreEventAdd (state.touch e) .deviceFound e)
    else none
  | .idler e => if e ∈ state.idlers then some (state.withStack [.listeners e]) else none
  | .reply c reply =>
    match state.calls c with
    | some call =>
      if call.outstanding then some (replyRead accepts family (callBegin state c reply.answer) call reply) else none
    | none => none
  | _ => none

/-- A running function goes on. -/
def returnStep (state : State) : Label → Option State
  | .listenersReturn =>
    match state.stack with
    | .listeners e :: below => some (listenersEnd (state.withStack below) e)
    | _ => none
  | .callbackReturn =>
    match state.stack with
    | .callback c _ :: below => some (callEnd (state.withStack below) c)
    | _ => none
  | .freeNext =>
    match state.stack with
    | .freeing e remaining :: below => some (freeTurn state e remaining below)
    | _ => none
  | _ => none

/-- One step. There is none after memory was used that had been freed. -/
def step (accepts : CallId → Bool) (family : Family) (state : State) (label : Label) : Option State :=
  if state.fault ∨ state.callFault then none
  else match label with
    | .sync | .ref _ | .unref _ | .send .. | .startDiscovery .. =>
      if state.userActs then userStep accepts family state label else none
    | .listenersReturn | .callbackReturn | .freeNext => returnStep state label
    | _ => if state.stack = [] then loopStep accepts family state label else none

/-- A module as a machine. -/
def machine (accepts : CallId → Bool) (family : Family) : Semantics.Machine State Label :=
  ⟨step accepts family⟩

/-! ## What a step can be -/

section Transitions

variable {accepts : CallId → Bool} {family : Family}

/-- The steps, one by one. -/
inductive Transition (accepts : CallId → Bool) (family : Family) (state : State) :
    Label → State → Prop where
  | sync (acts : state.userActs = true) :
      Transition accepts family state .sync (managerSync accepts family state)
  | ref (e : ElementId) (acts : state.userActs = true) (alive : state.elements e ≠ none) :
      Transition accepts family state (.ref e)
        (holdReference (state.modify e Element.addReference) e)
  | unref (e : ElementId) (acts : state.userActs = true) (held : 0 < state.userRefs e) :
      Transition accepts family state (.unref e) (elementUnref family (returnReference state e) e)
  | send (e : ElementId) (list : PendingList) (libraryCb userCb : Bool)
      (acts : state.userActs = true) (alive : state.elements e ≠ none)
      (known : list ∈ family.pendingLists) :
      Transition accepts family state (.send e list libraryCb userCb)
        (messageSend accepts state e list libraryCb userCb)
  | startDiscovery (e : ElementId) (userCb : Bool) (acts : state.userActs = true)
      (alive : state.elements e ≠ none) (isBluez : family = .bluez) :
      Transition accepts family state (.startDiscovery e userCb) (startDiscovery accepts state e userCb)
  | register (path interface : String) (idle : state.stack = []) :
      Transition accepts family state (.register path interface)
        (elementRegister family state path interface).1
  | unregister (e : ElementId) (idle : state.stack = []) (alive : state.elements e ≠ none) :
      Transition accepts family state (.unregister e) (elementUnregister family state e)
  | clear (idle : state.stack = []) : Transition accepts family state .clear (clearElements state)
  | deliver (event : Event) (e : ElementId) (rest : List (Event × ElementId))
      (idle : state.stack = []) (head : state.events = (event, e) :: rest) :
      Transition accepts family state .deliver
        (eventFree family { state with events := rest } event e)
  | propertyChanged (e : ElementId) (name : String) (wire : Wire) (idle : state.stack = [])
      (handled : (.propertyChanged, e) ∈ state.handlers) :
      Transition accepts family state (.propertyChanged e name wire)
        (propertyChangedCallback accepts family state e name wire)
  | deviceFound (e : ElementId) (idle : state.stack = [])
      (handled : (.deviceFound, e) ∈ state.handlers) :
      Transition accepts family state (.deviceFound e) (ecoreEventAdd (state.touch e) .deviceFound e)
  | idler (e : ElementId) (idle : state.stack = []) (armed : e ∈ state.idlers) :
      Transition accepts family state (.idler e) (state.withStack [.listeners e])
  | reply (c : CallId) (reply : Reply) (call : Call) (idle : state.stack = [])
      (known : state.calls c = some call) (outstanding : call.outstanding = true) :
      Transition accepts family state (.reply c reply)
        (replyRead accepts family (callBegin state c reply.answer) call reply)
  | listenersReturn (e : ElementId) (below : List Frame) (top : state.stack = .listeners e :: below) :
      Transition accepts family state .listenersReturn (listenersEnd (state.withStack below) e)
  | callbackReturn (c : CallId) (userCb : Bool) (below : List Frame)
      (top : state.stack = .callback c userCb :: below) :
      Transition accepts family state .callbackReturn (callEnd (state.withStack below) c)
  | freeDead (e : ElementId) (remaining : List PendingList) (below : List Frame)
      (top : state.stack = .freeing e remaining :: below) (dead : state.elements e = none) :
      Transition accepts family state .freeNext (state.failed.withStack below)
  | freeDone (e : ElementId) (below : List Frame) (element : Element)
      (top : state.stack = .freeing e [] :: below) (alive : state.elements e = some element) :
      Transition accepts family state .freeNext ((elementGone state e).withStack below)
  | freeList (e : ElementId) (list : PendingList) (rest : List PendingList) (below : List Frame)
      (element : Element) (top : state.stack = .freeing e (list :: rest) :: below)
      (alive : state.elements e = some element) (drained : element.pending list = []) :
      Transition accepts family state .freeNext (state.withStack (.freeing e rest :: below))
  | freeCall (e : ElementId) (list : PendingList) (rest : List PendingList) (below : List Frame)
      (element : Element) (c : CallId) (others : List CallId)
      (top : state.stack = .freeing e (list :: rest) :: below)
      (alive : state.elements e = some element) (head : element.pending list = c :: others) :
      Transition accepts family state .freeNext (callBegin state c .canceled)

theorem userStep_transition {state next : State} {label : Label} (acts : state.userActs = true)
    (stepped : userStep accepts family state label = some next) :
    Transition accepts family state label next := by
  cases label <;> simp only [userStep, Option.ite_none_right_eq_some, Option.some.injEq, reduceCtorEq]
    at stepped
  case sync =>
    obtain rfl := stepped
    exact .sync acts
  case ref e =>
    obtain ⟨alive, rfl⟩ := stepped
    exact .ref e acts (Option.isSome_iff_ne_none.mp alive)
  case unref e =>
    obtain ⟨held, rfl⟩ := stepped
    exact .unref e acts held
  case send e list libraryCb userCb =>
    obtain ⟨⟨alive, known⟩, rfl⟩ := stepped
    exact .send e list libraryCb userCb acts (Option.isSome_iff_ne_none.mp alive) known
  case startDiscovery e userCb =>
    obtain ⟨⟨alive, isBluez⟩, rfl⟩ := stepped
    exact .startDiscovery e userCb acts (Option.isSome_iff_ne_none.mp alive) isBluez

theorem loopStep_transition {state next : State} {label : Label} (idle : state.stack = [])
    (stepped : loopStep accepts family state label = some next) :
    Transition accepts family state label next := by
  cases label <;> simp only [loopStep, Option.ite_none_right_eq_some, Option.some.injEq, reduceCtorEq]
    at stepped
  case register path interface =>
    obtain rfl := stepped
    exact .register path interface idle
  case unregister e =>
    obtain ⟨alive, rfl⟩ := stepped
    exact .unregister e idle (Option.isSome_iff_ne_none.mp alive)
  case clear =>
    obtain rfl := stepped
    exact .clear idle
  case deliver =>
    split at stepped
    · cases stepped
    · rename_i event e rest head
      obtain rfl := Option.some.inj stepped
      exact .deliver event e rest idle head
  case propertyChanged e name wire =>
    obtain ⟨handled, rfl⟩ := stepped
    exact .propertyChanged e name wire idle handled
  case deviceFound e =>
    obtain ⟨handled, rfl⟩ := stepped
    exact .deviceFound e idle handled
  case idler e =>
    obtain ⟨armed, rfl⟩ := stepped
    exact .idler e idle armed
  case reply c reply =>
    split at stepped
    · rename_i call known
      rw [Option.ite_none_right_eq_some, Option.some.injEq] at stepped
      obtain ⟨outstanding, rfl⟩ := stepped
      exact .reply c reply call idle known outstanding
    · cases stepped

theorem returnStep_transition {state next : State} {label : Label}
    (stepped : returnStep state label = some next) : Transition accepts family state label next := by
  cases label <;> simp only [returnStep, reduceCtorEq] at stepped
  case listenersReturn =>
    split at stepped
    · rename_i e below top
      obtain rfl := Option.some.inj stepped
      exact .listenersReturn e below top
    · cases stepped
  case callbackReturn =>
    split at stepped
    · rename_i c userCb below top
      obtain rfl := Option.some.inj stepped
      exact .callbackReturn c userCb below top
    · cases stepped
  case freeNext =>
    split at stepped
    · rename_i e remaining below top
      obtain rfl := Option.some.inj stepped
      unfold freeTurn
      split
      · rename_i dead
        exact .freeDead e remaining below top dead
      · rename_i element alive
        split
        · exact .freeDone e below element top alive
        · rename_i list rest
          split
          · rename_i drained
            exact .freeList e list rest below element top alive drained
          · rename_i c others head
            exact .freeCall e list rest below element c others top alive head
    · cases stepped

theorem step_transition {state next : State} {label : Label}
    (stepped : step accepts family state label = some next) :
    state.fault = false ∧ state.callFault = false ∧ Transition accepts family state label next := by
  unfold step at stepped
  split at stepped
  · cases stepped
  · rename_i sound
    rw [not_or, Bool.not_eq_true, Bool.not_eq_true] at sound
    refine ⟨sound.1, sound.2, ?_⟩
    split at stepped <;> first
      | exact returnStep_transition stepped
      | rw [Option.ite_none_right_eq_some] at stepped
        first
          | exact userStep_transition stepped.1 stepped.2
          | exact loopStep_transition stepped.1 stepped.2

end Transitions

end EDBus.Elements
