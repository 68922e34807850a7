import EDBus.Dbus.SignalRegistry
import EDBus.Semantics.Keyed

/-!
# Deleting handlers while messages are dispatched

The loop of `cb_signal_dispatcher` runs over a list that callbacks extend and
nested idlers try to clean up. As long as an idler runs the lists only grow, so
a position in a list means the same handler for the whole loop.
-/

namespace EDBus.Dbus.Signal

variable {state : State}

/-! ## What a step does to the handlers -/

theorem signalBegin_keeps (state : State) (conn : ConnId) (message : Message) :
    Keeps state (signalBegin state conn message) ∧ (signalBegin state conn message).marked = state.marked := by
  unfold signalBegin
  split
  · split
    · exact ⟨⟨rfl, rfl, rfl, rfl, fun _ => rfl⟩, rfl⟩
    · rename_i bus _ newOwner _
      have sameRules : ∀ handler, (nameOwnerChanged bus newOwner handler).rules = handler.rules := by
        intro handler
        unfold nameOwnerChanged
        split <;> rfl
      have sameMark : ∀ handler, (nameOwnerChanged bus newOwner handler).deleteMe = handler.deleteMe :=
        fun handler => (nameOwnerChanged_fields bus newOwner handler).1
      refine ⟨⟨rfl, rfl, rfl, rfl, fun sh => ?_⟩, funext fun sh => ?_⟩
      · simp only
        split
        · simp [Function.comp_def, sameRules]
        · rfl
      · simp only [State.marked]
        split
        · cases state.handlers sh <;> simp [sameMark]
        · rfl
  · exact ⟨⟨rfl, rfl, rfl, rfl, fun _ => rfl⟩, rfl⟩

theorem dispatchBegin_keeps {conn : ConnId} {incoming : Incoming} {next : State}
    (begun : dispatchBegin state conn incoming = some next) :
    Keeps state next ∧ next.marked = state.marked := by
  cases incoming with
  | signal message =>
      obtain rfl := Option.some.inj begun
      exact signalBegin_keeps state conn message
  | nameOwner sh reply =>
      simp only [dispatchBegin] at begun
      split at begun
      · cases begun
      · rename_i handler found
        rw [Option.ite_none_right_eq_some, Option.some.injEq] at begun
        obtain ⟨-, rfl⟩ := begun
        have sameRules : (cbNameOwner handler reply).rules = handler.rules := by
          cases reply <;> rfl
        have sameMark := (cbNameOwner_fields handler reply).1
        refine ⟨⟨rfl, rfl, rfl, rfl, fun other => ?_⟩, funext fun other => ?_⟩
        · by_cases here : other = sh
          · subst here
            simp [found, sameRules]
          · simp [here]
        · by_cases here : other = sh
          · subst here
            simp [State.marked, found, sameMark]
          · simp [State.marked, here]
  | other =>
      obtain rfl := Option.some.inj begun
      exact ⟨⟨rfl, rfl, rfl, rfl, fun _ => rfl⟩, rfl⟩

/-- Every dispatch adds one frame, and leaves the flag. -/
theorem dispatchBegin_frame {conn : ConnId} {incoming : Incoming} {next : State}
    (begun : dispatchBegin state conn incoming = some next) :
    (∃ loop inCallback, next.dispatches = ⟨conn, loop, inCallback⟩ :: state.dispatches) ∧
      next.deletions = state.deletions := by
  cases incoming with
  | signal message =>
      obtain rfl := Option.some.inj begun
      unfold signalBegin
      split
      · split
        · exact ⟨⟨_, _, rfl⟩, rfl⟩
        · exact ⟨⟨_, _, rfl⟩, rfl⟩
      · exact ⟨⟨_, _, rfl⟩, rfl⟩
  | nameOwner sh reply =>
      simp only [dispatchBegin] at begun
      split at begun
      · cases begun
      · rw [Option.ite_none_right_eq_some, Option.some.injEq] at begun
        obtain ⟨-, rfl⟩ := begun
        exact ⟨⟨_, _, rfl⟩, rfl⟩
  | other =>
      obtain rfl := Option.some.inj begun
      exact ⟨⟨_, _, rfl⟩, rfl⟩

/-- The turns of a loop: either the list is at its end, or the next handler is
looked at and called if it accepts the message. -/
inductive Turned (state next : State) : Prop where
  | ended (conn : ConnId) (message : Message) (position : Nat) (inCallback : Bool) (outer : List Dispatch)
      (running : state.dispatches = ⟨conn, some ⟨message, position⟩, inCallback⟩ :: outer)
      (atEnd : (state.signalHandlers conn)[position]? = none)
      (moved : next = { state with dispatches := ⟨conn, none, false⟩ :: outer })
  | looked (conn : ConnId) (message : Message) (position : Nat) (inCallback : Bool) (outer : List Dispatch)
      (sh : HandlerId) (handler : Handler)
      (running : state.dispatches = ⟨conn, some ⟨message, position⟩, inCallback⟩ :: outer)
      (located : (state.signalHandlers conn)[position]? = some sh)
      (found : state.handlers sh = some handler)
      (moved : next = { state with
        dispatches := ⟨conn, some ⟨message, position + 1⟩, accepts handler message⟩ :: outer })

theorem advance_turned (registered : Registered state) {next : State} (advanced : advance state = some next) :
    Turned state next := by
  unfold advance at advanced
  split at advanced
  · rename_i conn message position inCallback outer running
    split at advanced
    · rename_i atEnd
      exact .ended conn message position inCallback outer running atEnd (Option.some.inj advanced).symm
    · rename_i sh located
      obtain ⟨handler, found⟩ := registered.allocated conn sh (List.mem_of_getElem? located)
      rw [found] at advanced
      exact .looked conn message position inCallback outer sh handler running located found
        (Option.some.inj advanced).symm
  · cases advanced

theorem Turned.keeps {next : State} (turned : Turned state next) :
    Keeps state next ∧ next.marked = state.marked ∧ next.dispatches.length = state.dispatches.length := by
  cases turned with
  | ended conn message position inCallback outer running atEnd moved =>
      subst moved
      exact ⟨⟨rfl, rfl, rfl, rfl, fun _ => rfl⟩, rfl, by simp [running]⟩
  | looked conn message position inCallback outer sh handler running located found moved =>
      subst moved
      exact ⟨⟨rfl, rfl, rfl, rfl, fun _ => rfl⟩, rfl, by simp [running]⟩

/-- What a step can do. -/
inductive Effect (state : State) : Label → State → Prop where
  | added (conn : ConnId) (sender path interface member : Option String) (hasCallback lookupSent : Bool) :
      Effect state (.handlerAdd conn sender path interface member hasCallback lookupSent)
        (handlerAdd state conn (handlerNew sender path interface member hasCallback lookupSent))
  | deleted (conn : ConnId) (sh : HandlerId) (runs : state.userRuns = true)
      (listed : sh ∈ state.signalHandlers conn) :
      Effect state (.handlerDel conn sh) (handlerDel state conn sh)
  | begun (conn : ConnId) (incoming : Incoming) (next : State) (runs : state.userRuns = true)
      (begins : dispatchBegin state conn incoming = some next) : Effect state (.dispatch conn incoming) next
  | turned (next : State) (turns : Turned state next) : Effect state .advance next
  | left (conn : ConnId) (inCallback : Bool) (outer : List Dispatch)
      (running : state.dispatches = ⟨conn, none, inCallback⟩ :: outer) :
      Effect state .idlerLeave (handlersClean { state with dispatches := outer } conn)

theorem step_effect (registered : Registered state) {label : Label} {next : State}
    (stepped : step state label = some next) : Effect state label next := by
  unfold step at stepped
  rw [if_neg (by simp [registered.untouched])] at stepped
  cases label with
  | handlerAdd conn sender path interface member hasCallback lookupSent =>
      simp only [Option.ite_none_right_eq_some, Option.some.injEq] at stepped
      obtain ⟨-, rfl⟩ := stepped
      exact .added conn sender path interface member hasCallback lookupSent
  | handlerDel conn sh =>
      simp only [Option.ite_none_right_eq_some, Option.some.injEq] at stepped
      obtain ⟨⟨runs, listed⟩, rfl⟩ := stepped
      exact .deleted conn sh runs listed
  | dispatch conn incoming =>
      simp only [Option.ite_none_right_eq_some] at stepped
      exact .begun conn incoming next stepped.1 stepped.2
  | advance => exact .turned next (advance_turned registered stepped)
  | idlerLeave =>
      simp only at stepped
      split at stepped
      · rename_i conn inCallback outer running
        obtain rfl := Option.some.inj stepped
        exact .left conn inCallback outer running
      · cases stepped

theorem pop_keeps (state : State) (outer : List Dispatch) : Keeps state { state with dispatches := outer } :=
  ⟨rfl, rfl, rfl, rfl, fun _ => rfl⟩

theorem step_registered (label : Label) {next : State} (registered : Registered state)
    (stepped : step state label = some next) : Registered next := by
  cases step_effect registered stepped with
  | added conn sender path interface member hasCallback lookupSent =>
      exact handlerAdd_registered registered conn _
  | deleted conn sh runs listed =>
      obtain ⟨handler, found⟩ := registered.allocated conn sh listed
      by_cases idle : state.dispatches = []
      · exact handlerDel_idle_registered registered listed idle
      · exact registered.keep (handlerDel_nested found idle conn).1
  | begun conn incoming _ runs begins => exact registered.keep (dispatchBegin_keeps begins).1
  | turned _ turns => exact registered.keep turns.keeps.1
  | left conn inCallback outer running =>
      have popped : Registered { state with dispatches := outer } := registered.keep (pop_keeps state outer)
      by_cases idle : outer = []
      · rcases handlersClean_idle popped idle conn with ⟨-, unchanged⟩ | ⟨-, swept⟩
        · rw [unchanged]
          exact popped
        · exact swept.registered
      · exact popped.keep (handlersClean_nested popped idle conn).1

/-! ## Requested deletions -/

/-- A handler is marked exactly if its deletion was requested; only handlers
that were added are deleted. -/
structure Requested (labels : List Label) (state : State) : Prop where
  registered : Registered state
  known : ∀ conn sh, .handlerDel conn sh ∈ labels → sh < state.nextHandler
  marked : ∀ conn sh, sh ∈ state.signalHandlers conn →
    (state.marked sh = true ↔ ∃ asked, .handlerDel asked sh ∈ labels)

theorem Requested.keep {before : List Label} {label : Label} {next : State} (requested : Requested before state)
    (registered : Registered next) (keeps : Keeps state next) (marks : next.marked = state.marked)
    (other : ∀ conn sh, label ≠ .handlerDel conn sh) : Requested (before ++ [label]) next := by
  have sameLabels : ∀ conn sh, .handlerDel conn sh ∈ before ++ [label] ↔ .handlerDel conn sh ∈ before := by
    intro conn sh
    simp [(other conn sh).symm]
  constructor
  case registered => exact registered
  case known =>
    intro conn sh isIn
    rw [keeps.nextHandler]
    exact requested.known conn sh ((sameLabels conn sh).mp isIn)
  case marked =>
    intro conn sh listed
    rw [keeps.signalHandlers] at listed
    simp only [marks, sameLabels]
    exact requested.marked conn sh listed

theorem initial_requested : Requested [] State.initial where
  registered := initial_registered
  known _ _ isIn := by cases isIn
  marked _ _ listed := by cases listed

theorem step_requested {before : List Label} (label : Label) {next : State} (requested : Requested before state)
    (stepped : step state label = some next) : Requested (before ++ [label]) next := by
  have registered := requested.registered
  have registeredNext := step_registered label registered stepped
  cases step_effect registered stepped with
  | added conn sender path interface member hasCallback lookupSent =>
      have sameLabels : ∀ asked sh, .handlerDel asked sh ∈ before ++ [.handlerAdd conn sender path interface member
          hasCallback lookupSent] ↔ .handlerDel asked sh ∈ before := by
        intro asked sh
        simp
      refine ⟨registeredNext, fun asked sh isIn => ?_, fun other sh listed => ?_⟩
      · exact Nat.lt_succ_of_lt (requested.known asked sh ((sameLabels asked sh).mp isIn))
      · simp only [sameLabels, handlerAdd_marked]
        rcases listed_handlerAdd state listed with ⟨rfl, -⟩ | earlier
        · have never : ¬ ∃ asked, .handlerDel asked state.nextHandler ∈ before := by
            rintro ⟨asked, isIn⟩
            exact absurd (requested.known asked _ isIn) (Nat.lt_irrefl _)
          simp [handlerNew, never]
        · rw [if_neg (registered.old other sh earlier).ne]
          exact requested.marked other sh earlier
  | deleted conn sh runs listed =>
      obtain ⟨handler, found⟩ := registered.allocated conn sh listed
      have labels : ∀ sh', (∃ asked, .handlerDel asked sh' ∈ before ++ [.handlerDel conn sh]) ↔
          (∃ asked, .handlerDel asked sh' ∈ before) ∨ sh' = sh := by
        intro sh'
        constructor
        · rintro ⟨asked, isIn⟩
          rcases List.mem_append.mp isIn with earlier | now
          · exact .inl ⟨asked, earlier⟩
          · cases List.mem_singleton.mp now
            exact .inr rfl
        · rintro (⟨asked, earlier⟩ | rfl)
          · exact ⟨asked, List.mem_append_left _ earlier⟩
          · exact ⟨conn, List.mem_append_right _ (List.mem_singleton.mpr rfl)⟩
      have known : ∀ sh', (∃ asked, .handlerDel asked sh' ∈ before ++ [.handlerDel conn sh]) →
          sh' < state.nextHandler := by
        intro sh' isIn
        rcases (labels sh').mp isIn with ⟨asked, earlier⟩ | rfl
        · exact requested.known asked sh' earlier
        · exact registered.old conn sh' listed
      by_cases idle : state.dispatches = []
      · have freed := handlerDel_idle found idle conn
        refine ⟨registeredNext, fun asked sh' isIn => ?_, fun other sh' listed' => ?_⟩
        · rw [freed]
          exact known sh' ⟨asked, isIn⟩
        · rw [labels]
          have different : sh' ≠ sh := by
            rintro rfl
            obtain ⟨kept, isKept⟩ := registeredNext.allocated other sh' listed'
            rw [freed] at isKept
            simp at isKept
          have wasListed : sh' ∈ state.signalHandlers other :=
            (handlerDel_narrows state conn sh).listed other sh' listed'
          have sameMark : (handlerDel state conn sh).marked sh' = state.marked sh' := by
            rw [freed]
            simp [State.marked, different]
          rw [sameMark, requested.marked other sh' wasListed]
          simp [different]
      · obtain ⟨keeps, -, -, marks⟩ := handlerDel_nested found idle conn
        refine ⟨registeredNext, fun asked sh' isIn => ?_, fun other sh' listed' => ?_⟩
        · rw [keeps.nextHandler]
          exact known sh' ⟨asked, isIn⟩
        · rw [keeps.signalHandlers] at listed'
          rw [labels, marks, Bool.or_eq_true, decide_eq_true_eq, requested.marked other sh' listed']
  | begun conn incoming _ runs begins =>
      obtain ⟨keeps, marks⟩ := dispatchBegin_keeps begins
      exact requested.keep registeredNext keeps marks (by simp)
  | turned _ turns => exact requested.keep registeredNext turns.keeps.1 turns.keeps.2.1 (by simp)
  | left conn inCallback outer running =>
      have popped : Registered { state with dispatches := outer } := registered.keep (pop_keeps state outer)
      by_cases idle : outer = []
      · rcases handlersClean_idle popped idle conn with ⟨-, unchanged⟩ | ⟨-, swept⟩
        · rw [unchanged]
          exact requested.keep popped (pop_keeps state outer) rfl (by simp)
        · refine ⟨swept.registered, fun asked sh isIn => ?_, fun other sh listed => ?_⟩
          · rw [swept.nextHandler]
            exact requested.known asked sh (by simpa using isIn)
          · have narrows := handlersClean_narrows { state with dispatches := outer } conn
            have sameMark : (handlersClean { state with dispatches := outer } conn).marked sh = state.marked sh := by
              obtain ⟨kept, isKept⟩ := swept.registered.allocated other sh listed
              have same := isKept
              rw [swept.handlers sh] at same
              split at same
              · cases same
              · rw [State.marked, State.marked, isKept, same]
            rw [sameMark, requested.marked other sh (narrows.listed other sh listed)]
            simp
      · obtain ⟨keeps, -, marks⟩ := handlersClean_nested popped idle conn
        exact requested.keep registeredNext ((pop_keeps state outer).trans keeps) marks (by simp)

theorem exec_requested {labels : List Label} {finish : State}
    (executed : machine.exec State.initial labels = some finish) : Requested labels finish := by
  have preserved : ∀ before state label next, Requested before state → machine.step state label = some next →
      Requested (before ++ [label]) next :=
    fun _ _ label _ requested stepped => step_requested label requested stepped
  exact Semantics.Machine.history_invariant preserved initial_requested executed

/-! ## Running idlers -/

/-- The running dispatch that has the given number of others around it. -/
def State.frameAt (state : State) (depth : Nat) : Option Dispatch := state.dispatches.reverse[depth]?

theorem frameAt_cons {dispatch : Dispatch} {outer : List Dispatch} (running : state.dispatches = dispatch :: outer)
    (depth : Nat) :
    state.frameAt depth = if depth = outer.length then some dispatch else outer.reverse[depth]? := by
  rw [State.frameAt, running, List.reverse_cons]
  by_cases here : depth = outer.length
  · rw [if_pos here, here, ← List.length_reverse, List.getElem?_concat_length]
  · rw [if_neg here, List.getElem?_append]
    by_cases below : depth < outer.length
    · rw [if_pos (by simpa using below)]
    · have above : outer.length < depth := by omega
      rw [if_neg (by simpa using below), List.getElem?_eq_none (by simp; omega),
        List.getElem?_eq_none (by simp; omega)]

/-- As long as an idler runs, every list only grows and every handler stays. -/
structure Grows (before after : State) : Prop where
  lists : ∀ conn, before.signalHandlers conn <+: after.signalHandlers conn
  handlers : ∀ sh, (before.handlers sh).isSome = true → (after.handlers sh).isSome = true

theorem Keeps.grows {before after : State} (keeps : Keeps before after) : Grows before after where
  lists conn := by
    have same : before.signalHandlers conn = after.signalHandlers conn := by rw [keeps.signalHandlers]
    exact same ▸ List.prefix_refl _
  handlers sh isSome := by
    have same := congrArg Option.isSome (keeps.rules sh)
    simp only [Option.isSome_map] at same
    rwa [same]

theorem handlerAdd_grows (state : State) (conn : ConnId) (handler : Handler) :
    Grows state (handlerAdd state conn handler) where
  lists other := by
    by_cases here : other = conn
    · subst here
      simp [handlerAdd]
    · simp [handlerAdd, here]
  handlers sh isSome := by
    by_cases isNew : sh = state.nextHandler
    · simp [handlerAdd, isNew]
    · simpa [handlerAdd, isNew] using isSome

theorem step_grows (registered : Registered state) {label : Label} {next : State}
    (stepped : step state label = some next) (busy : next.dispatches ≠ []) : Grows state next := by
  cases step_effect registered stepped with
  | added conn sender path interface member hasCallback lookupSent => exact handlerAdd_grows state conn _
  | deleted conn sh runs listed =>
      obtain ⟨handler, found⟩ := registered.allocated conn sh listed
      have running : state.dispatches ≠ [] := by
        intro idle
        rw [handlerDel_idle found idle] at busy
        exact busy idle
      exact (handlerDel_nested found running conn).1.grows
  | begun conn incoming _ runs begins => exact (dispatchBegin_keeps begins).1.grows
  | turned _ turns => exact turns.keeps.1.grows
  | left conn inCallback outer running =>
      have popped : Registered { state with dispatches := outer } := registered.keep (pop_keeps state outer)
      have nested : outer ≠ [] := by
        intro idle
        apply busy
        rcases handlersClean_idle popped idle conn with ⟨-, unchanged⟩ | ⟨-, swept⟩
        · rw [unchanged]
          exact idle
        · rw [swept.dispatches]
          exact idle
      exact ((pop_keeps state outer).trans (handlersClean_nested popped nested conn).1).grows

/-! ## The turns of one dispatch -/

/-- The criteria of a handler, as `cb_signal_dispatcher` tests them. -/
def meets (handler : Handler) (message : Message) : Bool :=
  handler.hasCallback && !handler.pending && handler.owner.all message.hasSender &&
    handler.path.all message.hasPath && handler.interface.all message.hasInterface &&
    handler.member.all message.hasMember

theorem accepts_eq_meets (handler : Handler) (message : Message) :
    accepts handler message = (!handler.deleteMe && meets handler message) := by
  rw [Bool.eq_iff_iff]
  simp only [accepts, passes, meets, Bool.and_eq_true]
  constructor
  · rintro ⟨⟨⟨⟨⟨⟨callback, kept⟩, known⟩, path⟩, interface⟩, member⟩, owner⟩
    exact ⟨kept, ⟨⟨⟨⟨callback, known⟩, owner⟩, path⟩, interface⟩, member⟩
  · rintro ⟨kept, ⟨⟨⟨⟨callback, known⟩, owner⟩, path⟩, interface⟩, member⟩
    exact ⟨⟨⟨⟨⟨⟨callback, kept⟩, known⟩, path⟩, interface⟩, member⟩, owner⟩

/-- The handler that a loop looks at, as it is then, and whether it is called. -/
structure Turn where
  sh : HandlerId
  handler : Handler
  called : Bool
deriving DecidableEq, Repr

/-- The turn that a step takes in the loop of the innermost dispatch. -/
def turnOf (state : State) (label : Label) (next : State) : Option Turn :=
  match label, state.dispatches with
  | .advance, ⟨conn, some ⟨_, position⟩, _⟩ :: _ =>
    (state.signalHandlers conn)[position]?.bind fun sh =>
      (state.handlers sh).map fun handler => ⟨sh, handler, next.userRuns⟩
  | _, _ => none

/-- The turns that the dispatch at a depth takes. -/
def turnsAt (depth : Nat) (state : State) (labels : List Label) : List Turn :=
  (machine.observed (fun state label next =>
    if state.dispatches.length = depth + 1 then (turnOf state label next).toList else []) state labels).flatten

/-- How far the loop of a dispatch is: it has looked at the handlers before its
position, or at all that were listed when it ended. -/
inductive Progress (conn : ConnId) (message : Message) (listed : List HandlerId) (seen : List Turn)
    (state : State) : Option Loop → Prop where
  | looping (position : Nat) (bounded : position ≤ (state.signalHandlers conn).length)
      (taken : seen.map Turn.sh = (state.signalHandlers conn).take position)
      (older : listed <+: state.signalHandlers conn) :
      Progress conn message listed seen state (some ⟨message, position⟩)
  | ended (taken : seen.map Turn.sh <+: state.signalHandlers conn) (older : listed <+: seen.map Turn.sh) :
      Progress conn message listed seen state none

theorem Progress.grow {conn : ConnId} {message : Message} {listed : List HandlerId} {seen : List Turn}
    {loop : Option Loop} {next : State} (progress : Progress conn message listed seen state loop)
    (grows : state.signalHandlers conn <+: next.signalHandlers conn) :
    Progress conn message listed seen next loop := by
  cases progress with
  | looping position bounded taken older =>
      refine .looping position (bounded.trans grows.length_le) ?_ (older.trans grows)
      obtain ⟨added, appended⟩ := grows
      rw [taken, ← appended, List.take_append_of_le_length bounded]
  | ended taken older => exact .ended (taken.trans grows) older

theorem Progress.message_eq {conn : ConnId} {message : Message} {listed : List HandlerId} {seen : List Turn}
    {loop : Loop} (progress : Progress conn message listed seen state (some loop)) : loop.message = message := by
  cases progress
  rfl

/-- The loop finds no handler at its position. -/
theorem Progress.finish {conn : ConnId} {message : Message} {listed : List HandlerId} {seen : List Turn} {position : Nat}
    (progress : Progress conn message listed seen state (some ⟨message, position⟩))
    (atEnd : (state.signalHandlers conn)[position]? = none) : Progress conn message listed seen state none := by
  cases progress with
  | looping _ bounded taken older =>
      have all : (state.signalHandlers conn).take position = state.signalHandlers conn :=
        List.take_of_length_le (List.getElem?_eq_none_iff.mp atEnd)
      rw [all] at taken
      exact .ended (taken ▸ List.prefix_refl _) (taken ▸ older)

/-- The loop looks at the handler at its position. -/
theorem Progress.look {conn : ConnId} {message : Message} {listed : List HandlerId} {seen : List Turn} {position : Nat}
    (progress : Progress conn message listed seen state (some ⟨message, position⟩)) (turn : Turn)
    (located : (state.signalHandlers conn)[position]? = some turn.sh) :
    Progress conn message listed (seen ++ [turn]) state (some ⟨message, position + 1⟩) := by
  cases progress with
  | looping _ bounded taken older =>
      refine .looping (position + 1) ?_ ?_ older
      · obtain ⟨inside, -⟩ := List.getElem?_eq_some_iff.mp located
        exact inside
      · rw [List.map_append, taken, List.take_add_one, located]
        rfl

/-- The dispatch at a depth serves the message, and called whom it should have. -/
structure Serving (depth : Nat) (conn : ConnId) (message : Message) (listed : List HandlerId)
    (seen : List Turn) (state : State) : Prop where
  registered : Registered state
  progress : ∃ loop inCallback, state.frameAt depth = some ⟨conn, loop, inCallback⟩ ∧
    Progress conn message listed seen state loop
  called : ∀ turn ∈ seen, turn.called = accepts turn.handler message

theorem turnOf_of_ne {label : Label} (other : label ≠ .advance) (next : State) : turnOf state label next = none := by
  unfold turnOf
  split
  · exact absurd rfl other
  · rfl

theorem step_serving {depth : Nat} {conn : ConnId} {message : Message} {listed : List HandlerId} {seen : List Turn}
    (label : Label) {next : State} (serving : Serving depth conn message listed seen state)
    (stepped : step state label = some next) (within : depth < next.dispatches.length) :
    Serving depth conn message listed (seen ++
      if state.dispatches.length = depth + 1 then (turnOf state label next).toList else []) next := by
  obtain ⟨registered, ⟨loop, inCallback, frame, progress⟩, called⟩ := serving
  have registeredNext := step_registered label registered stepped
  have grows := step_grows registered stepped (by
    rintro idle
    simp [idle] at within)
  have progressNext := progress.grow (grows.lists conn)
  -- a step that is no turn of this loop leaves its frame alone
  have elsewhere : next.frameAt depth = state.frameAt depth →
      (state.dispatches.length = depth + 1 → turnOf state label next = none) →
      Serving depth conn message listed (seen ++
        if state.dispatches.length = depth + 1 then (turnOf state label next).toList else []) next := by
    intro sameFrame noTurn
    have nothing : (if state.dispatches.length = depth + 1 then (turnOf state label next).toList else []) = [] := by
      split
      · next here => rw [noTurn here, Option.toList_none]
      · rfl
    rw [nothing, List.append_nil]
    exact ⟨registeredNext, ⟨loop, inCallback, sameFrame.trans frame, progressNext⟩, called⟩
  cases step_effect registered stepped with
  | added => exact elsewhere rfl fun _ => turnOf_of_ne (by simp) _
  | deleted other sh runs isListed =>
      refine elsewhere ?_ fun _ => turnOf_of_ne (by simp) _
      have sameDispatches : (handlerDel state other sh).dispatches = state.dispatches := by
        unfold handlerDel
        split
        · rfl
        · split <;> rfl
      rw [State.frameAt, State.frameAt, sameDispatches]
  | begun other incoming _ runs begins =>
      refine elsewhere ?_ fun _ => turnOf_of_ne (by simp) _
      obtain ⟨⟨newLoop, newCallback, running⟩, -⟩ := dispatchBegin_frame begins
      have below : depth < state.dispatches.length := by
        obtain ⟨bounded, -⟩ := List.getElem?_eq_some_iff.mp frame
        simpa using bounded
      rw [frameAt_cons running, if_neg below.ne, State.frameAt]
  | left other _ outer running =>
      have popped : Registered { state with dispatches := outer } := registered.keep (pop_keeps state outer)
      have sameDispatches : (handlersClean { state with dispatches := outer } other).dispatches = outer := by
        by_cases idle : outer = []
        · rcases handlersClean_idle popped idle other with ⟨-, unchanged⟩ | ⟨-, swept⟩
          · rw [unchanged]
          · exact swept.dispatches
        · exact (handlersClean_nested popped idle other).2.1
      rw [sameDispatches] at within
      refine elsewhere ?_ fun _ => turnOf_of_ne (by simp) _
      rw [frameAt_cons running, if_neg within.ne, State.frameAt, sameDispatches]
  | turned _ turns =>
      cases turns with
      | ended other text position calling outer running atEnd moved =>
          by_cases own : depth = outer.length
          · rw [frameAt_cons running, if_pos own] at frame
            cases frame
            have noTurn : turnOf state .advance next = none := by
              simp [turnOf, running, atEnd]
            rw [noTurn, Option.toList_none, ite_self, List.append_nil]
            obtain rfl : text = message := progress.message_eq
            refine ⟨registeredNext, ⟨none, false, ?_, (progress.finish atEnd).grow (grows.lists conn)⟩, called⟩
            subst moved
            rw [frameAt_cons rfl, if_pos own]
          · refine elsewhere ?_ fun here => ?_
            · rw [frameAt_cons running, if_neg own, moved, frameAt_cons rfl, if_neg own]
            · rw [running, List.length_cons] at here
              omega
      | looked other text position calling outer sh handler running located found moved =>
          by_cases own : depth = outer.length
          · rw [frameAt_cons running, if_pos own] at frame
            cases frame
            have turn : turnOf state .advance next = some ⟨sh, handler, accepts handler text⟩ := by
              simp [turnOf, running, located, found, moved, State.userRuns]
            rw [turn, Option.toList_some, if_pos (by rw [running, List.length_cons, own])]
            obtain rfl : text = message := progress.message_eq
            have looked := (progress.look ⟨sh, handler, accepts handler text⟩ located).grow (grows.lists conn)
            refine ⟨registeredNext, ⟨some ⟨text, position + 1⟩, accepts handler text, ?_, looked⟩, ?_⟩
            · subst moved
              rw [frameAt_cons rfl, if_pos own]
            · intro other isIn
              rcases List.mem_append.mp isIn with earlier | now
              · exact called other earlier
              · rw [List.mem_singleton.mp now]
          · refine elsewhere ?_ fun here => ?_
            · rw [frameAt_cons running, if_neg own, moved, frameAt_cons rfl, if_neg own]
            · rw [running, List.length_cons] at here
              omega

/-! ## Safety -/

/-- What callbacks can rely on that add and delete handlers, for the dispatched
messages: nothing freed is touched, nobody is called after its deletion was
requested, who was listed before the message gets exactly one turn and is called
in it if it is not deleted by then and its criteria are met, and nothing is freed
before the outermost idler is done. -/
structure SafeDeletion (dispatched : Message → Prop) : Prop where
  untouched : ∀ before state, machine.exec State.initial before = some state → state.touchedFreed = false
  requested : ∀ before state, machine.exec State.initial before = some state →
    ∀ conn sh handler, sh ∈ state.signalHandlers conn → state.handlers sh = some handler →
      (handler.deleteMe = true ↔ ∃ asked, .handlerDel asked sh ∈ before)
  notAfter : ∀ before state label next turn, machine.exec State.initial before = some state →
    machine.step state label = some next → turnOf state label next = some turn → turn.called = true →
      ∀ asked, .handlerDel asked turn.sh ∉ before
  once : ∀ before start conn message next during finish inCallback,
    machine.exec State.initial before = some start → dispatched message →
      machine.step start (.dispatch conn (.signal message)) = some next →
      machine.Along (fun _ _ later => start.dispatches.length < later.dispatches.length) next during →
      machine.exec next during = some finish →
      finish.dispatches = ⟨conn, none, inCallback⟩ :: start.dispatches →
      ∀ sh ∈ start.signalHandlers conn, ∃ turn,
        ((turnsAt start.dispatches.length next during).filter fun turn => turn.sh == sh) = [turn] ∧
        (turn.called = true ↔ turn.handler.deleteMe = false ∧ meets turn.handler message = true)
  kept : ∀ before state label next, machine.exec State.initial before = some state →
    machine.step state label = some next → next.dispatches ≠ [] →
      ∀ sh, (state.handlers sh).isSome = true → (next.handlers sh).isSome = true

/-- The message reaches the loop over the handlers. -/
def ReachesLoop (message : Message) : Prop :=
  isNameOwnerChanged message = true → message.threeStrings ≠ none

theorem reachable_registered {before : List Label} (reached : machine.exec State.initial before = some state) :
    Registered state := (exec_requested reached).registered

theorem turnOf_looked (registered : Registered state) {label : Label} {next : State} {turn : Turn}
    (stepped : step state label = some next) (turned : turnOf state label next = some turn) :
    ∃ conn message, turn.sh ∈ state.signalHandlers conn ∧ state.handlers turn.sh = some turn.handler ∧
      turn.called = accepts turn.handler message := by
  cases step_effect registered stepped with
  | added => simp [turnOf] at turned
  | deleted => simp [turnOf] at turned
  | begun => simp [turnOf] at turned
  | left => simp [turnOf] at turned
  | turned _ turns =>
      cases turns with
      | ended conn message position inCallback outer running atEnd moved =>
          simp [turnOf, running, atEnd] at turned
      | looked conn message position inCallback outer sh handler running located found moved =>
          simp only [turnOf, running, located, found, moved, State.userRuns, Option.bind_some, Option.map_some,
            Option.some.injEq] at turned
          subst turned
          exact ⟨conn, message, List.mem_of_getElem? located, found, rfl⟩

theorem signalBegin_serving {conn : ConnId} {message : Message} (registered : Registered state)
    (reaches : ReachesLoop message) :
    Serving state.dispatches.length conn message (state.signalHandlers conn) [] (signalBegin state conn message) := by
  obtain ⟨keeps, -⟩ := signalBegin_keeps state conn message
  have running : (signalBegin state conn message).dispatches =
      ⟨conn, some ⟨message, 0⟩, false⟩ :: state.dispatches := by
    unfold signalBegin
    split
    · next isChange =>
        split
        · next unreadable => exact absurd unreadable (reaches isChange)
        · rfl
    · rfl
  refine ⟨registered.keep keeps, ⟨_, _, (frameAt_cons running _).trans (if_pos rfl), ?_⟩, ?_⟩
  · exact .looping 0 (Nat.zero_le _) rfl (keeps.grows.lists conn)
  · intro turn isIn
    cases isIn

/-- The turns of a dispatch that is over. -/
theorem served {start next finish : State} {conn : ConnId} {message : Message} {during : List Label}
    {inCallback : Bool} (registered : Registered start) (reaches : ReachesLoop message)
    (begun : machine.step start (.dispatch conn (.signal message)) = some next)
    (within : machine.Along (fun _ _ later => start.dispatches.length < later.dispatches.length) next during)
    (executed : machine.exec next during = some finish)
    (ended : finish.dispatches = ⟨conn, none, inCallback⟩ :: start.dispatches) :
    start.signalHandlers conn <+: (turnsAt start.dispatches.length next during).map Turn.sh ∧
      ((turnsAt start.dispatches.length next during).map Turn.sh).Nodup ∧
      ∀ turn ∈ turnsAt start.dispatches.length next during, turn.called = accepts turn.handler message := by
  have initial : Serving start.dispatches.length conn message (start.signalHandlers conn)
      ([] : List (List Turn)).flatten next := by
    have stepped : step start (.dispatch conn (.signal message)) = some next := begun
    cases step_effect registered stepped with
    | begun _ _ _ _ begins =>
        obtain rfl := Option.some.inj begins
        exact signalBegin_serving registered reaches
  have preserved : ∀ (seen : List (List Turn)) state label later,
      Serving start.dispatches.length conn message (start.signalHandlers conn) seen.flatten state →
      machine.step state label = some later → start.dispatches.length < later.dispatches.length →
      Serving start.dispatches.length conn message (start.signalHandlers conn)
        (seen ++ [if state.dispatches.length = start.dispatches.length + 1 then
          (turnOf state label later).toList else []]).flatten later := by
    intro seen state label later serving stepped deep
    rw [List.flatten_append, List.flatten_singleton]
    exact step_serving label serving stepped deep
  have serving := Semantics.Machine.observed_invariant preserved initial within executed
  rw [List.nil_append] at serving
  obtain ⟨registeredFinish, ⟨loop, _, frame, progress⟩, called⟩ := serving
  rw [frameAt_cons ended, if_pos rfl] at frame
  cases frame
  cases progress with
  | ended taken older => exact ⟨older, (registeredFinish.nodup conn).sublist taken.sublist, called⟩

/-- Handlers can be deleted from callbacks. A `NameOwnerChanged` of the bus
without three strings is dropped before the handlers are looked at. -/
theorem safeDeletion : SafeDeletion ReachesLoop where
  untouched before state reached := (reachable_registered reached).untouched
  requested before state reached := by
    intro conn sh handler listed found
    have marked := (exec_requested reached).marked conn sh listed
    rw [State.marked, found, Option.any_some] at marked
    exact marked
  notAfter before state label next turn reached stepped turned called := by
    have requested := exec_requested reached
    obtain ⟨conn, message, listed, found, accepted⟩ := turnOf_looked requested.registered stepped turned
    intro asked isIn
    have marked := (requested.marked conn turn.sh listed).mpr ⟨asked, isIn⟩
    rw [State.marked, found, Option.any_some] at marked
    rw [accepted, accepts_eq_meets, marked] at called
    cases called
  once before start conn message next during finish inCallback reached reaches begun within executed ended := by
    intro sh listed
    obtain ⟨older, nodup, calledIff⟩ := served (reachable_registered reached) reaches begun within executed ended
    obtain ⟨turn, isTurn, rfl⟩ := List.mem_map.mp (older.subset listed)
    have sameTest : (fun other : Turn => other.sh == turn.sh) = fun other => turn.sh == other.sh :=
      funext fun _ => BEq.comm
    refine ⟨turn, sameTest ▸ Semantics.Keyed.filter_key nodup isTurn, ?_⟩
    rw [calledIff turn isTurn, accepts_eq_meets]
    simp
  kept before state label next reached stepped busy := by
    exact (step_grows (reachable_registered reached) stepped busy).handlers

/-- A `NameOwnerChanged` of the bus without arguments. -/
def unreadable : Message := ⟨some fdoBus, some fdoPath, some fdoInterface, some "NameOwnerChanged", []⟩

/-- A handler without criteria is not called for such a message. -/
theorem safeDeletion_fails_unreadable : ¬ SafeDeletion fun _ => True := by
  intro safe
  obtain ⟨turn, single, -⟩ := safe.once [.handlerAdd 0 none none none none true false] _ 0 unreadable _ [] _ false
    rfl trivial rfl trivial rfl rfl 0 (List.mem_singleton.mpr rfl)
  cases single

end EDBus.Dbus.Signal
