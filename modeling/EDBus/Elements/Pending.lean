import EDBus.Elements.Calls
import Mathlib.Data.Finset.Card

/-!
# Pending calls complete once

A call that was sent is answered once, by its reply or when its element is freed, and
its record is freed then. `complete_once` proves this for runs in which no callback frees
the element of its own call, no list is forgotten when an element is freed, and calls
that are sent while an element is freed join a list that is not cancelled yet. Such frees
also come to their end if the callbacks that run only return.
-/

namespace EDBus.Elements

variable {family : Family} {accepts : CallId → Bool} {before state after : State}
  {e : ElementId} {c : CallId}

/-- Every call that was sent is answered once before its record is freed, other calls are
not answered, no freed record is used, and none is left when its element is freed. -/
structure CompleteOnce (accepts : CallId → Bool) (state : State) : Prop where
  sound : state.callFault = false
  once : ∀ c, (state.answers c).length ≤ 1
  freed : ∀ c, c < state.nextCall → accepts c = true → state.calls c = none →
    (state.answers c).length = 1
  rejected : ∀ c, accepts c = false → state.calls c = none ∧ state.answers c = []
  alive : ∀ c call, state.calls c = some call → state.elements call.element ≠ none

/-! ## Callbacks that run -/

/-- The call whose callbacks a frame runs. -/
def Frame.runs : Frame → Option CallId
  | .callback c _ => some c
  | .freeing _ _ => none
  | .listeners _ => none

/-- The calls whose callbacks run. -/
def running (stack : List Frame) : List CallId := stack.filterMap Frame.runs

@[simp] theorem running_callback (c : CallId) (userCb : Bool) (below : List Frame) :
    running (.callback c userCb :: below) = c :: running below := rfl

@[simp] theorem running_freeing (e : ElementId) (remaining : List PendingList) (below : List Frame) :
    running (.freeing e remaining :: below) = running below := rfl

/-- An element is freed once at a time, and while no callback of its calls runs. -/
def Nested (calls : CallId → Option Call) : List Frame → Prop
  | [] => True
  | .freeing e _ :: below => (∀ remaining, .freeing e remaining ∉ below) ∧
      (∀ c ∈ running below, ∀ call, calls c = some call → call.element ≠ e) ∧ Nested calls below
  | .callback _ _ :: below => Nested calls below
  | .listeners _ :: below => Nested calls below

/-- Calls that run keep their elements. -/
theorem Nested.congr {calls calls' : CallId → Option Call} {stack : List Frame}
    (nested : Nested calls stack)
    (same : ∀ c ∈ running stack, ∀ call', calls' c = some call' →
      ∃ call, calls c = some call ∧ call.element = call'.element) : Nested calls' stack := by
  induction stack with
  | nil => trivial
  | cons frame below ih =>
      cases frame with
      | freeing e remaining =>
          obtain ⟨once, others, lower⟩ := nested
          refine ⟨once, fun c runs call' known => ?_, ih lower same⟩
          obtain ⟨call, known, element⟩ := same c runs call' known
          exact element ▸ others c runs call known
      | callback c userCb => exact ih nested fun c' runs => same c' (.tail _ runs)
      | listeners e => exact ih nested same

/-- No call is twice in the lists of an element, and each is in its own list. -/
def ListsOrdered (calls : CallId → Option Call) (e : ElementId) (lists : PendingList → List CallId) : Prop :=
  ∀ list, (lists list).Nodup ∧
    ∀ c ∈ lists list, ∃ call, calls c = some call ∧ call.element = e ∧ call.list = list

section ListsOrdered

variable {calls : CallId → Option Call} {lists : PendingList → List CallId}

/-- A call that was not there yet is appended to its list. -/
theorem ListsOrdered.append (order : ListsOrdered calls e lists) (unknown : calls c = none) (call : Call)
    (element : call.element = e) :
    ListsOrdered (Function.update calls c (some call)) e
      (Function.update lists call.list (lists call.list ++ [c])) := by
  intro list
  obtain ⟨nodup, members⟩ := order list
  have apart : ∀ c' ∈ lists list, c' ≠ c := by
    rintro c' inList rfl
    obtain ⟨_, known, -⟩ := members c' inList
    exact Option.some_ne_none _ (known.symm.trans unknown)
  have kept : ∀ c' ∈ lists list, ∃ call', Function.update calls c (some call) c' = some call' ∧
      call'.element = e ∧ call'.list = list := by
    intro c' inList
    obtain ⟨call', known, isCall⟩ := members c' inList
    exact ⟨call', (Function.update_of_ne (apart c' inList) ..).trans known, isCall⟩
  by_cases sameList : list = call.list
  · subst sameList
    rw [Function.update_self]
    refine ⟨List.nodup_append.mpr ⟨nodup, List.nodup_singleton c, ?_⟩, fun c' inList => ?_⟩
    · rintro c' inList _ last rfl
      exact apart c' inList (List.mem_singleton.mp last)
    · rcases List.mem_append.mp inList with before | last
      · exact kept c' before
      · obtain rfl := List.mem_singleton.mp last
        exact ⟨call, Function.update_self .., element, rfl⟩
  · rw [Function.update_of_ne sameList]
    exact ⟨nodup, kept⟩

/-- The record of a call is written again. -/
theorem ListsOrdered.rewrite (order : ListsOrdered calls e lists) {was call : Call} (known : calls c = some was)
    (element : call.element = was.element) (sameList : call.list = was.list) :
    ListsOrdered (Function.update calls c (some call)) e lists := by
  intro list
  obtain ⟨nodup, members⟩ := order list
  refine ⟨nodup, fun c' inList => ?_⟩
  obtain ⟨call', known', isElement, isList⟩ := members c' inList
  by_cases here : c' = c
  · subst here
    obtain rfl := Option.some.inj (known.symm.trans known')
    exact ⟨call, Function.update_self .., element.trans isElement, sameList.trans isList⟩
  · exact ⟨call', (Function.update_of_ne here ..).trans known', isElement, isList⟩

/-- The record of a call goes, and the call leaves its list. -/
theorem ListsOrdered.erase (order : ListsOrdered calls e lists) {call : Call} (known : calls c = some call) :
    ListsOrdered (Function.update calls c none) e
      (Function.update lists call.list ((lists call.list).erase c)) := by
  intro list
  obtain ⟨nodup, members⟩ := order list
  by_cases sameList : list = call.list
  · subst sameList
    rw [Function.update_self]
    refine ⟨nodup.erase c, fun c' inList => ?_⟩
    obtain ⟨other, before⟩ := (List.Nodup.mem_erase_iff nodup).mp inList
    obtain ⟨call', known', isCall⟩ := members c' before
    exact ⟨call', (Function.update_of_ne other ..).trans known', isCall⟩
  · rw [Function.update_of_ne sameList]
    refine ⟨nodup, fun c' inList => ?_⟩
    obtain ⟨call', known', element, isList⟩ := members c' inList
    have other : c' ≠ c := by
      rintro rfl
      obtain rfl := Option.some.inj (known.symm.trans known')
      exact sameList isList.symm
    exact ⟨call', (Function.update_of_ne other ..).trans known', element, isList⟩

/-- A call of another element does not matter. -/
theorem ListsOrdered.elsewhere (order : ListsOrdered calls e lists)
    (foreign : ∀ call, calls c = some call → call.element ≠ e) (record : Option Call) :
    ListsOrdered (Function.update calls c record) e lists := by
  intro list
  obtain ⟨nodup, members⟩ := order list
  refine ⟨nodup, fun c' inList => ?_⟩
  obtain ⟨call, known, element, isList⟩ := members c' inList
  have other : c' ≠ c := by
    rintro rfl
    exact foreign call known element
  exact ⟨call, (Function.update_of_ne other ..).trans known, element, isList⟩

end ListsOrdered

/-- A call is in order as long as its record exists: it is in its list, and it waits, or
it was answered once and its callback runs. -/
structure Pended (accepts : CallId → Bool) (state : State) : Prop where
  sound : state.callFault = false
  unsent : ∀ c, state.nextCall ≤ c → state.calls c = none ∧ state.answers c = []
  recorded : ∀ c call, state.calls c = some call → accepts c = true ∧ Listed state c call
  listed : ∀ e lists, state.pendingOf e = some lists → ∀ list, (lists list).Nodup ∧
    ∀ c ∈ lists list, ∃ call, state.calls c = some call ∧ call.element = e ∧ call.list = list
  waiting : ∀ c call, state.calls c = some call → call.outstanding = true →
    state.answers c = [] ∧ c ∉ running state.stack
  dispatched : ∀ c call, state.calls c = some call → call.outstanding = false →
    (state.answers c).length = 1 ∧ c ∈ running state.stack
  runNodup : (running state.stack).Nodup
  runKnown : ∀ c ∈ running state.stack, state.calls c ≠ none
  done : ∀ c, c < state.nextCall → state.calls c = none →
    (state.answers c).length = if accepts c = true then 1 else 0
  draining : ∀ e remaining, .freeing e remaining ∈ state.stack → ∀ c call,
    state.calls c = some call → call.element = e → call.list ∈ remaining
  nested : Nested state.calls state.stack

theorem initial_pended (accepts : CallId → Bool) : Pended accepts State.initial := by
  constructor <;> simp [State.initial, State.pendingOf, running, Nested]

theorem Pended.completeOnce (pended : Pended accepts state) : CompleteOnce accepts state := by
  refine ⟨pended.sound, ?_, ?_, ?_, ?_⟩
  · intro c
    by_cases young : state.nextCall ≤ c
    · simp [(pended.unsent c young).2]
    · cases known : state.calls c with
      | none =>
          rw [pended.done c (Nat.lt_of_not_le young) known]
          split <;> simp
      | some call =>
          cases waits : call.outstanding with
          | true => simp [(pended.waiting c call known waits).1]
          | false => exact Nat.le_of_eq (pended.dispatched c call known waits).1
  · intro c old accepted freed
    rw [pended.done c old freed, if_pos accepted]
  · intro c rejected
    have unknown : state.calls c = none := by
      by_contra known
      obtain ⟨call, known⟩ := Option.ne_none_iff_exists'.mp known
      rw [(pended.recorded c call known).1] at rejected
      cases rejected
    refine ⟨unknown, ?_⟩
    by_cases young : state.nextCall ≤ c
    · exact (pended.unsent c young).2
    · have none := pended.done c (Nat.lt_of_not_le young) unknown
      rw [if_neg (by simp [rejected])] at none
      exact List.eq_nil_of_length_eq_zero none
  · intro c call known dead
    obtain ⟨-, lists, found, -⟩ := pended.recorded c call known
    rw [State.pendingOf, dead] at found
    cases found

/-! ## What a step does to pending calls -/

/-- Nothing is done about calls, and the same callbacks run. -/
theorem Pended.congr (pended : Pended accepts state) (same : CallsSame state after)
    (runs : running after.stack = running state.stack)
    (draining : ∀ e remaining, .freeing e remaining ∈ after.stack → ∀ c call,
      state.calls c = some call → call.element = e → call.list ∈ remaining)
    (nested : Nested state.calls after.stack) : Pended accepts after where
  sound := same.callFault.trans pended.sound
  unsent c young := by
    rw [same.calls, same.answers]
    exact pended.unsent c (same.nextCall ▸ young)
  recorded c call known := by
    rw [same.calls] at known
    obtain ⟨accepted, listed⟩ := pended.recorded c call known
    exact ⟨accepted, same.lists.listed listed⟩
  listed e lists found list := by
    rcases same.lists.fresh e lists found with old | empty
    · rw [same.calls]
      exact pended.listed e lists old list
    · simp [empty list]
  waiting c call known waits := by
    rw [same.calls] at known
    rw [same.answers, runs]
    exact pended.waiting c call known waits
  dispatched c call known runs' := by
    rw [same.calls] at known
    rw [same.answers, runs]
    exact pended.dispatched c call known runs'
  runNodup := runs ▸ pended.runNodup
  runKnown c isRunning := by
    rw [same.calls]
    exact pended.runKnown c (runs ▸ isRunning)
  done c old freed := by
    rw [same.calls] at freed
    rw [same.answers]
    exact pended.done c (same.nextCall ▸ old) freed
  draining := by
    rw [same.calls]
    exact draining
  nested := by
    rw [same.calls]
    exact nested

/-- The stack stays, too. -/
theorem Pended.same (pended : Pended accepts state) (same : CallsSame state after)
    (stack : after.stack = state.stack) : Pended accepts after :=
  pended.congr same (by rw [stack]) (by rw [stack]; exact pended.draining) (by rw [stack]; exact pended.nested)

/-- A call that could not be sent is done. -/
theorem Pended.reject (pended : Pended accepts state) (e : ElementId) (list : PendingList)
    (libraryCb userCb : Bool) (rejected : accepts state.nextCall = false) :
    Pended accepts (messageSend accepts state e list libraryCb userCb) := by
  obtain ⟨lists, calls⟩ := messageSend_rejected state e list libraryCb userCb rejected
  have stack : (messageSend accepts state e list libraryCb userCb).stack = state.stack :=
    messageSend_stack ..
  constructor
  case sound =>
    rw [messageSend_callFault]
    exact pended.sound
  case unsent =>
    intro c young
    rw [messageSend_nextCall] at young
    rw [calls, messageSend_answers]
    exact pended.unsent c (Nat.le_of_succ_le young)
  case recorded =>
    intro c call known
    rw [calls] at known
    obtain ⟨accepted, listed⟩ := pended.recorded c call known
    exact ⟨accepted, lists.listed listed⟩
  case listed =>
    intro other known found list
    rw [calls]
    rcases lists.fresh other known found with old | empty
    · exact pended.listed other known old list
    · simp [empty list]
  case waiting =>
    rw [calls, messageSend_answers, stack]
    exact pended.waiting
  case dispatched =>
    rw [calls, messageSend_answers, stack]
    exact pended.dispatched
  case runNodup =>
    rw [stack]
    exact pended.runNodup
  case runKnown =>
    rw [stack, calls]
    exact pended.runKnown
  case done =>
    intro c old freed
    rw [messageSend_nextCall] at old
    rw [calls] at freed
    rw [messageSend_answers]
    rcases Nat.lt_succ_iff_lt_or_eq.mp old with older | rfl
    · exact pended.done c older freed
    · rw [(pended.unsent _ (Nat.le_refl _)).2, if_neg (by simp [rejected])]
      rfl
  case draining =>
    rw [stack, calls]
    exact pended.draining
  case nested =>
    rw [stack, calls]
    exact pended.nested

/-- A call that is sent waits. -/
theorem Pended.accept (pended : Pended accepts state) (alive : state.elements e ≠ none)
    (list : PendingList) (libraryCb userCb : Bool) (accepted : accepts state.nextCall = true)
    (kept : ∀ remaining, .freeing e remaining ∈ state.stack → list ∈ remaining) :
    Pended accepts (messageSend accepts state e list libraryCb userCb) := by
  have calls := messageSend_accepted state e list libraryCb userCb accepted
  have stack : (messageSend accepts state e list libraryCb userCb).stack = state.stack :=
    messageSend_stack ..
  obtain ⟨unknown, unanswered⟩ := pended.unsent state.nextCall (Nat.le_refl _)
  have callsAt : ∀ c, (messageSend accepts state e list libraryCb userCb).calls c =
      if c = state.nextCall then some ⟨e, list, libraryCb, userCb, true⟩ else state.calls c := by
    intro c
    rw [calls, Function.update_apply]
  have notRunning : state.nextCall ∉ running state.stack :=
    fun runs => pended.runKnown _ runs unknown
  constructor
  case sound =>
    rw [messageSend_callFault]
    exact pended.sound
  case unsent =>
    intro c young
    rw [messageSend_nextCall] at young
    rw [callsAt, if_neg (Nat.ne_of_gt young), messageSend_answers]
    exact pended.unsent c (Nat.le_of_succ_le young)
  case recorded =>
    intro c call known
    rw [callsAt] at known
    split at known
    · rename_i isNew
      obtain rfl := Option.some.inj known
      rw [isNew]
      exact ⟨accepted, messageSend_new alive list libraryCb userCb accepted⟩
    · obtain ⟨wasAccepted, listed⟩ := pended.recorded c call known
      exact ⟨wasAccepted, messageSend_listed listed e list libraryCb userCb⟩
  case listed =>
    intro other lists found
    rw [calls]
    rw [pendingOf_messageSend state e other list libraryCb userCb accepted] at found
    split at found
    · rename_i here
      subst here
      obtain ⟨lists', found', rfl⟩ := Option.map_eq_some_iff.mp found
      have order : ListsOrdered state.calls other lists' := pended.listed other lists' found'
      exact order.append unknown ⟨other, list, libraryCb, userCb, true⟩ rfl
    · have order : ListsOrdered state.calls other lists := pended.listed other lists found
      refine order.elsewhere (fun call known => ?_) _
      rw [unknown] at known
      cases known
  case waiting =>
    intro c call known waits
    rw [callsAt] at known
    rw [messageSend_answers, stack]
    split at known
    · rename_i isNew
      subst isNew
      exact ⟨unanswered, notRunning⟩
    · exact pended.waiting c call known waits
  case dispatched =>
    intro c call known runs
    rw [callsAt] at known
    rw [messageSend_answers, stack]
    split at known
    · obtain rfl := Option.some.inj known
      cases runs
    · exact pended.dispatched c call known runs
  case runNodup =>
    rw [stack]
    exact pended.runNodup
  case runKnown =>
    intro c runs
    rw [stack] at runs
    rw [callsAt]
    split
    · simp
    · exact pended.runKnown c runs
  case done =>
    intro c old freed
    rw [messageSend_nextCall] at old
    rw [callsAt] at freed
    rw [messageSend_answers]
    split at freed
    · cases freed
    · rename_i other
      exact pended.done c (Nat.lt_of_le_of_ne (Nat.le_of_lt_succ old) other) freed
  case draining =>
    intro other remaining listed c call known element
    rw [stack] at listed
    rw [callsAt] at known
    split at known
    · obtain rfl := Option.some.inj known
      have here : e = other := element
      exact kept remaining (here ▸ listed)
    · exact pended.draining other remaining listed c call known element
  case nested =>
    rw [stack]
    refine pended.nested.congr fun c runs call known => ⟨call, ?_, rfl⟩
    rw [callsAt, if_neg] at known
    · exact known
    · rintro rfl
      exact notRunning runs

theorem Pended.send (pended : Pended accepts state) (alive : state.elements e ≠ none)
    (list : PendingList) (libraryCb userCb : Bool)
    (kept : accepts state.nextCall = true →
      ∀ remaining, .freeing e remaining ∈ state.stack → list ∈ remaining) :
    Pended accepts (messageSend accepts state e list libraryCb userCb) := by
  cases accepted : accepts state.nextCall with
  | true => exact pended.accept alive list libraryCb userCb accepted (kept accepted)
  | false => exact pended.reject e list libraryCb userCb accepted

/-- A call that waits is answered, and its callbacks start. -/
theorem Pended.start (pended : Pended accepts state) {call : Call} (known : state.calls c = some call)
    (waits : call.outstanding = true) (answer : Answer) : Pended accepts (callBegin state c answer) := by
  obtain ⟨unanswered, notRunning⟩ := pended.waiting c call known waits
  have lists := callBegin_lists state c answer
  have stack := callBegin_stack known answer
  have callsAt : ∀ c', (callBegin state c answer).calls c' =
      if c' = c then some { call with outstanding := false } else state.calls c' := by
    intro c'
    rw [callBegin_calls known, Function.update_apply]
  have answersAt : ∀ c', (callBegin state c answer).answers c' =
      if c' = c then [answer] else state.answers c' := by
    intro c'
    simp only [callBegin, known, Function.update_apply, unanswered, List.nil_append]
  have nextCall : (callBegin state c answer).nextCall = state.nextCall := by simp [callBegin, known]
  have sameCall : ∀ c' call', (callBegin state c answer).calls c' = some call' →
      ∃ was, state.calls c' = some was ∧ was.element = call'.element ∧ was.list = call'.list := by
    intro c' call' known'
    rw [callsAt] at known'
    split at known'
    · rename_i here
      obtain rfl := Option.some.inj known'
      exact ⟨call, by rw [here, known], rfl, rfl⟩
    · exact ⟨call', known', rfl, rfl⟩
  constructor
  case sound =>
    simp only [callBegin, known]
    exact pended.sound
  case unsent =>
    intro c' young
    rw [nextCall] at young
    have other : c' ≠ c := by
      rintro rfl
      rw [(pended.unsent c' young).1] at known
      cases known
    rw [callsAt, if_neg other, answersAt, if_neg other]
    exact pended.unsent c' young
  case recorded =>
    intro c' call' known'
    obtain ⟨was, wasKnown, element, isList⟩ := sameCall c' call' known'
    obtain ⟨accepted, listed⟩ := pended.recorded c' was wasKnown
    refine ⟨accepted, ?_⟩
    unfold Listed at listed ⊢
    rw [element, isList] at listed
    obtain ⟨known, found, inList⟩ := listed
    exact ⟨known, lists.kept _ _ found, inList⟩
  case listed =>
    intro other known' found
    rw [callBegin_calls known]
    rcases lists.fresh other known' found with old | empty
    · have order : ListsOrdered state.calls other known' := pended.listed other known' old
      exact order.rewrite known rfl rfl
    · intro list
      simp [empty list]
  case waiting =>
    intro c' call' known' waits'
    rw [callsAt] at known'
    rw [answersAt, stack, running_callback]
    split at known'
    · obtain rfl := Option.some.inj known'
      cases waits'
    · rename_i other
      obtain ⟨unanswered', notRunning'⟩ := pended.waiting c' call' known' waits'
      rw [if_neg other]
      exact ⟨unanswered', fun runs => (List.mem_cons.mp runs).elim other notRunning'⟩
  case dispatched =>
    intro c' call' known' runs
    rw [callsAt] at known'
    rw [answersAt, stack, running_callback]
    split at known'
    · rename_i here
      rw [if_pos here, here]
      exact ⟨rfl, List.mem_cons_self⟩
    · rename_i other
      obtain ⟨answered, runs'⟩ := pended.dispatched c' call' known' runs
      rw [if_neg other]
      exact ⟨answered, .tail _ runs'⟩
  case runNodup =>
    rw [stack, running_callback]
    exact List.nodup_cons.mpr ⟨notRunning, pended.runNodup⟩
  case runKnown =>
    intro c' runs
    rw [stack, running_callback] at runs
    rw [callsAt]
    split
    · simp
    · rename_i other
      exact pended.runKnown c' ((List.mem_cons.mp runs).resolve_left other)
  case done =>
    intro c' old freed
    rw [nextCall] at old
    rw [callsAt] at freed
    split at freed
    · cases freed
    · rename_i other
      rw [answersAt, if_neg other]
      exact pended.done c' old freed
  case draining =>
    intro other remaining listed c' call' known' element
    rw [stack] at listed
    obtain ⟨was, wasKnown, sameElement, sameList⟩ := sameCall c' call' known'
    rw [← sameList]
    exact pended.draining other remaining ((List.mem_cons.mp listed).resolve_left (by simp)) c' was
      wasKnown (sameElement.trans element)
  case nested =>
    rw [stack]
    have pushed : Nested state.calls (.callback c call.userCb :: state.stack) := pended.nested
    refine pushed.congr fun c' runs call' known' => ?_
    obtain ⟨was, wasKnown, element, -⟩ := sameCall c' call' known'
    exact ⟨was, wasKnown, element⟩

/-- The callbacks of a call return, and its record is freed. -/
theorem Pended.finish (pended : Pended accepts state) {userCb : Bool} {below : List Frame}
    (top : state.stack = .callback c userCb :: below) :
    Pended accepts (callEnd (state.withStack below) c) := by
  have runs : c ∈ running state.stack := by simp [top]
  obtain ⟨call, known⟩ := Option.ne_none_iff_exists'.mp (pended.runKnown c runs)
  have begun : call.outstanding = false := by
    by_contra waits
    exact (pended.waiting c call known (by simpa using waits)).2 runs
  have answered := (pended.dispatched c call known begun).1
  have accepted := (pended.recorded c call known).1
  have lower : (state.withStack below).calls c = some call := known
  have callsAt : ∀ c', (callEnd (state.withStack below) c).calls c' =
      if c' = c then none else state.calls c' := by
    intro c'
    rw [callEnd_calls lower, Function.update_apply]
    rfl
  have answers : (callEnd (state.withStack below) c).answers = state.answers := callEnd_answers lower
  have nextCall : (callEnd (state.withStack below) c).nextCall = state.nextCall := callEnd_nextCall lower
  have stack : (callEnd (state.withStack below) c).stack = below := callEnd_stack ..
  have nodup := pended.runNodup
  rw [top, running_callback, List.nodup_cons] at nodup
  have others : ∀ c' ∈ running below, c' ≠ c := by
    rintro c' inBelow rfl
    exact nodup.1 inBelow
  constructor
  case sound =>
    simp only [callEnd, lower, modify_callFault]
    exact pended.sound
  case unsent =>
    intro c' young
    rw [nextCall] at young
    rw [callsAt, answers]
    split
    · exact ⟨rfl, (pended.unsent c' young).2⟩
    · exact pended.unsent c' young
  case recorded =>
    intro c' call' known'
    rw [callsAt] at known'
    split at known'
    · cases known'
    · rename_i other
      obtain ⟨wasAccepted, listed⟩ := pended.recorded c' call' known'
      exact ⟨wasAccepted, callEnd_listed lower other listed⟩
  case listed =>
    intro e lists found
    rw [callEnd_calls lower]
    rw [pendingOf_callEnd lower] at found
    split at found
    · rename_i here
      subst here
      obtain ⟨lists', found', rfl⟩ := Option.map_eq_some_iff.mp found
      have order : ListsOrdered state.calls call.element lists' := pended.listed call.element lists' found'
      exact order.erase known
    · rename_i elsewhere
      have order : ListsOrdered state.calls e lists := pended.listed e lists found
      refine order.elsewhere (fun call' known' => ?_) none
      obtain rfl := Option.some.inj (known.symm.trans known')
      exact Ne.symm elsewhere
  case waiting =>
    intro c' call' known' waits
    rw [callsAt] at known'
    rw [answers, stack]
    split at known'
    · cases known'
    · obtain ⟨unanswered, notRunning⟩ := pended.waiting c' call' known' waits
      rw [top] at notRunning
      exact ⟨unanswered, fun inBelow => notRunning (.tail _ inBelow)⟩
  case dispatched =>
    intro c' call' known' runs'
    rw [callsAt] at known'
    rw [answers, stack]
    split at known'
    · cases known'
    · rename_i other
      obtain ⟨wasAnswered, inStack⟩ := pended.dispatched c' call' known' runs'
      rw [top] at inStack
      exact ⟨wasAnswered, (List.mem_cons.mp inStack).resolve_left other⟩
  case runNodup =>
    rw [stack]
    exact nodup.2
  case runKnown =>
    intro c' inBelow
    rw [stack] at inBelow
    rw [callsAt, if_neg (others c' inBelow)]
    refine pended.runKnown c' ?_
    rw [top]
    exact .tail _ inBelow
  case done =>
    intro c' old freed
    rw [nextCall] at old
    rw [callsAt] at freed
    rw [answers]
    split at freed
    · rename_i here
      rw [here, answered, if_pos accepted]
    · exact pended.done c' old freed
  case draining =>
    intro e remaining listed c' call' known' element
    rw [stack] at listed
    rw [callsAt] at known'
    split at known'
    · cases known'
    · exact pended.draining e remaining (top ▸ .tail _ listed) c' call' known' element
  case nested =>
    rw [stack]
    have nested : Nested state.calls below := by
      have whole := pended.nested
      rw [top] at whole
      exact whole
    refine nested.congr fun c' inBelow call' known' => ?_
    rw [callsAt, if_neg (others c' inBelow)] at known'
    exact ⟨call', known', rfl⟩

/-- An element without calls is freed. -/
theorem Pended.gone (pended : Pended accepts state) {below : List Frame}
    (top : state.stack = .freeing e [] :: below) :
    Pended accepts ((elementGone state e).withStack below) := by
  have nobody : ∀ c call, state.calls c = some call → call.element ≠ e := by
    intro c call known element
    have left := pended.draining e [] (top ▸ List.mem_cons_self) c call known element
    cases left
  have runs : running state.stack = running below := by rw [top, running_freeing]
  have lists : ∀ other, ((elementGone state e).withStack below).pendingOf other =
      if other = e then none else state.pendingOf other := pendingOf_elementGone state e
  constructor
  case sound => exact pended.sound
  case unsent => exact pended.unsent
  case recorded =>
    intro c call known
    obtain ⟨accepted, found, isFound, inList⟩ := pended.recorded c call known
    exact ⟨accepted, found, by rw [lists, if_neg (nobody c call known), isFound], inList⟩
  case listed =>
    intro other found isFound
    rw [lists] at isFound
    split at isFound
    · cases isFound
    · exact pended.listed other found isFound
  case waiting =>
    have waiting := pended.waiting
    rw [runs] at waiting
    exact waiting
  case dispatched =>
    have dispatched := pended.dispatched
    rw [runs] at dispatched
    exact dispatched
  case runNodup => exact runs ▸ pended.runNodup
  case runKnown =>
    have known := pended.runKnown
    rw [runs] at known
    exact known
  case done => exact pended.done
  case draining =>
    intro other remaining listed
    exact pended.draining other remaining (top ▸ .tail _ listed)
  case nested =>
    have nested := pended.nested
    rw [top] at nested
    exact nested.2.2

/-! ## Steps -/

/-- The step sends a call on the element. -/
def SendsOn : Label → ElementId → PendingList → Prop
  | .send e list _ _, other, list' => other = e ∧ list' = list
  | .startDiscovery e _, other, list' => other = e ∧ list' = .startDiscovery
  | _, _, _ => False

/-- An element loses its last reference while it is not being freed, no callback of its
calls runs and its calls are in no list that is forgotten. While an element is freed, calls
that can be sent join a list that is not cancelled yet. -/
structure Orderly (accepts : CallId → Bool) (state : State) (label : Label) : Prop where
  alone : ∀ e, DropsLast state label e → (∀ remaining, .freeing e remaining ∉ state.stack) ∧
    ∀ c ∈ running state.stack, ∀ call, state.calls c = some call → call.element ≠ e
  canceled : ∀ e, DropsLast state label e → ∀ c call, state.calls c = some call →
    call.element = e → call.list.forgotten = false
  resent : ∀ e list, SendsOn label e list → accepts state.nextCall = true →
    ∀ remaining, .freeing e remaining ∈ state.stack → list ∈ remaining

theorem Pended.unref (pended : Pended accepts state)
    (alone : LastReference state e → (∀ remaining, .freeing e remaining ∉ state.stack) ∧
      ∀ c ∈ running state.stack, ∀ call, state.calls c = some call → call.element ≠ e)
    (canceled : LastReference state e → ∀ c call, state.calls c = some call →
      call.element = e → call.list ∈ family.freeOrder) :
    Pended accepts (elementUnref family state e) := by
  have same := elementUnref_callsSame family state e
  rcases elementUnref_stack family state e with ⟨last, stack⟩ | ⟨-, stack⟩
  · obtain ⟨once, others⟩ := alone last
    refine pended.congr same (by rw [stack, running_freeing]) ?_ ?_
    · intro other remaining listed c call known element
      rw [stack] at listed
      rcases List.mem_cons.mp listed with isNew | before
      · obtain ⟨rfl, rfl⟩ := Frame.freeing.inj isNew
        exact canceled last c call known element
      · exact pended.draining other remaining before c call known element
    · rw [stack]
      exact ⟨once, others, pended.nested⟩
  · exact pended.same same stack

theorem Nested.tail {calls : CallId → Option Call} {frame : Frame} {below : List Frame}
    (nested : Nested calls (frame :: below)) : Nested calls below := by
  cases frame with
  | freeing e remaining => exact nested.2.2
  | callback c userCb => exact nested
  | listeners e => exact nested

/-- A frame that runs no callback of a call leaves. -/
theorem Pended.pop (pended : Pended accepts state) {frame : Frame} {below : List Frame}
    (top : state.stack = frame :: below) (runs : frame.runs = none)
    (same : CallsSame state after) (stack : after.stack = below) : Pended accepts after := by
  refine pended.congr same ?_ ?_ ?_
  · rw [stack, top, running, running, List.filterMap_cons, runs]
  · intro e remaining listed
    rw [stack] at listed
    exact pended.draining e remaining (top ▸ .tail _ listed)
  · have nested := pended.nested
    rw [top] at nested
    exact stack ▸ nested.tail

/-- Messages keep pending calls in order while nothing is being freed. -/
theorem pended_closed (family : Family) (accepts : CallId → Bool) :
    Closed family accepts (fun state => Accounted family state ∧ Pended accepts state ∧
      ∀ e remaining, .freeing e remaining ∉ state.stack) where
  fault state all := ⟨(accounted_closed family accepts).fault state all.1,
    all.2.1.same ⟨.of_eq fun _ => rfl, rfl, rfl, rfl, rfl⟩ rfl, all.2.2⟩
  register state path interface all := by
    have stack : (elementRegister family state path interface).1.stack = state.stack :=
      register_stack ..
    exact ⟨elementRegister_accounted all.1 path interface,
      all.2.1.same (elementRegister_callsSame all.1 path interface) stack, stack ▸ all.2.2⟩
  sync state path interface all := by
    have stack : (elementRegister family state path interface).1.stack = state.stack :=
      register_stack ..
    have registered := elementRegister_accounted all.1 path interface
    have pended := all.2.1.same (elementRegister_callsSame all.1 path interface) stack
    refine ⟨messageSend_accounted registered _ .propertiesGet true false, ?_, ?_⟩
    · refine pended.send (registered.entry_alive (elementRegister_entry all.1 path interface))
        .propertiesGet true false ?_
      intro _ remaining listed
      exact absurd listed (stack ▸ all.2.2 _ remaining)
    · rw [propertiesSync, messageSend_stack, stack]
      exact all.2.2
  unregister state e all := by
    have stack := (stack_closed family accepts state.stack).unregister state e rfl
    exact ⟨elementUnregister_accounted all.1 e,
      all.2.1.same (elementUnregister_callsSame state e) stack, stack ▸ all.2.2⟩
  setProperty state e name wire all := by
    have stack := modify_stack state e (Element.setProperty name (wire.value family))
    exact ⟨(accounted_closed family accepts).setProperty state e name wire all.1,
      all.2.1.same (modify_callsSame state e _ fun _ => rfl) stack, stack ▸ all.2.2⟩
  listeners state e all := by
    have stack := (stack_closed family accepts state.stack).listeners state e rfl
    exact ⟨listenersCall_accounted all.1 e, all.2.1.same (listenersCall_callsSame state e) stack,
      stack ▸ all.2.2⟩

/-- The call that a turn cancels waits: no callback of the element's calls runs below the
frame that frees it. -/
theorem Pended.head_waits (pended : Pended accepts state) {element : Element} {list : PendingList}
    {rest : List PendingList} {below : List Frame} {others : List CallId}
    (top : state.stack = .freeing e (list :: rest) :: below) (alive : state.elements e = some element)
    (head : element.pending list = c :: others) :
    ∃ call, state.calls c = some call ∧ call.element = e ∧ call.outstanding = true := by
  have found : state.pendingOf e = some element.pending := by
    rw [State.pendingOf, alive]
    rfl
  obtain ⟨call, known, isElement, -⟩ := (pended.listed e _ found list).2 c (head ▸ List.mem_cons_self)
  refine ⟨call, known, isElement, ?_⟩
  by_contra begun
  have runs := (pended.dispatched c call known (by simpa using begun)).2
  have whole := pended.nested
  rw [top] at runs whole
  exact whole.2.1 c runs call known isElement

/-- A step keeps pending calls in order. -/
theorem transition_pended {label : Label} {next : State} (kept : Kept family state)
    (placed : Placed family state) (pended : Pended accepts state) (transition : Transition accepts family state label next)
    (orderly : Orderly accepts state label) : Pended accepts next := by
  have closed := pended_closed family accepts
  have accounted := kept.accounted
  have messages := stack_closed family accepts []
  have idleFrames : state.stack = [] → ∀ e remaining, .freeing e remaining ∉ state.stack := by
    intro idle e remaining
    simp [idle]
  cases transition with
  | sync =>
      have registered := register_kept kept "/" family.managerInterface
      have same := elementRegister_callsSame accounted "/" family.managerInterface
      have entry := elementRegister_entry accounted "/" family.managerInterface
      refine (pended.same same (register_stack ..)).send (registered.accounted.entry_alive entry)
        .propertiesGet true false ?_
      intro _ remaining listed
      exact absurd entry (registered.framed.freeing _ remaining listed).2.1
  | ref e =>
      have added := modify_callsSame state e Element.addReference fun _ => rfl
      exact pended.same ⟨⟨added.lists.kept, added.lists.fresh⟩, added.calls, added.answers,
        added.nextCall, added.callFault⟩ (modify_stack ..)
  | unref e =>
      have returned : Pended accepts (returnReference state e) :=
        pended.same ⟨.of_eq fun _ => rfl, rfl, rfl, rfl, rfl⟩ rfl
      refine returned.unref (fun last => orderly.alone e ⟨rfl, last⟩) fun last c call known isElement => ?_
      exact (mem_freeOrder (placed c call known)).mpr (orderly.canceled e ⟨rfl, last⟩ c call known isElement)
  | send e list libraryCb userCb acts alive =>
      exact pended.send alive list libraryCb userCb (orderly.resent e list ⟨rfl, rfl⟩)
  | startDiscovery e userCb acts alive =>
      have handled : Pended accepts { state with handlers := state.handlers ++ [(.deviceFound, e)] } :=
        pended.same ⟨.of_eq fun _ => rfl, rfl, rfl, rfl, rfl⟩ rfl
      exact handled.send alive .startDiscovery false userCb (orderly.resent e .startDiscovery ⟨rfl, rfl⟩)
  | register path interface idle =>
      exact (closed.register state path interface ⟨accounted, pended, idleFrames idle⟩).2.1
  | unregister e idle => exact (closed.unregister state e ⟨accounted, pended, idleFrames idle⟩).2.1
  | clear idle => exact pended.same (clearElements_callsSame state) (clearElements_stack state)
  | deliver event e rest idle head =>
      have taken : Pended accepts { state with events := rest } :=
        pended.same ⟨.of_eq fun _ => rfl, rfl, rfl, rfl, rfl⟩ rfl
      unfold eventFree
      split
      · exact taken
      · rename_i other
        have holds : event.holds = true := by simpa [Event.holds] using other
        have drops : LastReference state e → DropsLast state .deliver e :=
          fun last => ⟨event, rest, head, holds, last⟩
        refine taken.unref (fun last => orderly.alone e (drops last)) fun last c call known isElement => ?_
        exact (mem_freeOrder (placed c call known)).mpr (orderly.canceled e (drops last) c call known isElement)
  | propertyChanged e name wire idle =>
      exact (closed.propertyChangedCallback e name wire ⟨accounted, pended, idleFrames idle⟩).2.1
  | deviceFound e => exact pended.same ⟨.of_eq fun _ => rfl, rfl, rfl, rfl, rfl⟩ rfl
  | idler e idle =>
      refine pended.congr ⟨.of_eq fun _ => rfl, rfl, rfl, rfl, rfl⟩ ?_ ?_ trivial
      · rw [idle]
        rfl
      · simp [State.withStack]
  | reply c reply call idle known outstanding =>
      have begun := callBegin_kept kept c reply.answer
      have stack := callBegin_stack known reply.answer
      rw [idle] at stack
      refine (replyRead_closed closed call reply ⟨begun.accounted, pended.start known outstanding _, ?_⟩).2.1
      simp [stack]
  | listenersReturn e below top =>
      have lower : CallsSame state (state.withStack below) := ⟨.of_eq fun _ => rfl, rfl, rfl, rfl, rfl⟩
      refine pended.pop top rfl (lower.trans (listenersEnd_callsSame _ e)) ?_
      simp [listenersEnd, eventAdd, ecoreEventAdd, State.withStack]
  | callbackReturn c userCb below top => exact pended.finish top
  | freeDead e remaining below top =>
      exact pended.pop top rfl ⟨.of_eq fun _ => rfl, rfl, rfl, rfl, rfl⟩ rfl
  | freeDone e below element top => exact pended.gone top
  | freeList e list rest below element top alive emptied =>
      have whole := pended.nested
      rw [top] at whole
      refine pended.congr ⟨.of_eq fun _ => rfl, rfl, rfl, rfl, rfl⟩ ?_ ?_ ⟨whole.1, whole.2.1, whole.2.2⟩
      · rw [top]
        rfl
      · intro other remaining listed c call known isElement
        rcases List.mem_cons.mp listed with isTop | inBelow
        · obtain ⟨rfl, rfl⟩ := Frame.freeing.inj isTop
          have left := pended.draining other (list :: remaining) (top ▸ List.mem_cons_self) c call
            known isElement
          obtain ⟨-, lists, found, inList⟩ := pended.recorded c call known
          rw [isElement, State.pendingOf, alive] at found
          obtain rfl := Option.some.inj found
          refine (List.mem_cons.mp left).resolve_left fun same => ?_
          rw [same, emptied] at inList
          cases inList
        · exact pended.draining other remaining (top ▸ .tail _ inBelow) c call known isElement
  | freeCall e list rest below element c others top alive head =>
      obtain ⟨call, known, -, waits⟩ := pended.head_waits top alive head
      exact pended.start known waits .canceled

/-! ## Answers -/

/-- The frames that run callbacks of calls. -/
def callbacks (stack : List Frame) : List Frame := stack.filter fun frame => frame.runs.isSome

@[simp] theorem callbacks_freeing (e : ElementId) (remaining : List PendingList) (below : List Frame) :
    callbacks (.freeing e remaining :: below) = callbacks below := rfl

@[simp] theorem callbacks_listeners (e : ElementId) (below : List Frame) :
    callbacks (.listeners e :: below) = callbacks below := rfl

/-- No callbacks of calls start or return, and the calls that were sent before are left alone. -/
structure Silent (state next : State) : Prop where
  answers : next.answers = state.answers
  runs : callbacks next.stack = callbacks state.stack
  records : ∀ c < state.nextCall, next.calls c = state.calls c

/-- A call is sent, or could not be. -/
structure Sent (accepts : CallId → Bool) (state : State) (call : Call) (next : State) : Prop where
  silent : Silent state next
  record : next.calls state.nextCall = if accepts state.nextCall then some call else none

/-- The callbacks of a call that waits for its answer start with it. -/
structure Answered (state : State) (c : CallId) (answer : Answer) (next : State) : Prop where
  waits : ∃ call, state.calls c = some call ∧ call.outstanding = true ∧
    next.calls c = some { call with outstanding := false } ∧ next.stack = .callback c call.userCb :: state.stack
  answers : next.answers = Function.update state.answers c (state.answers c ++ [answer])
  records : ∀ other < state.nextCall, other ≠ c → next.calls other = state.calls other

/-- The callbacks of a call return, and its record is freed. -/
structure Returned (state next : State) : Prop where
  freed : ∃ c userCb, state.stack = .callback c userCb :: next.stack ∧ next.calls = Function.update state.calls c none
  answers : next.answers = state.answers

/-- The call that the next turn of the loops in `_element_free` finds in its list. -/
def canceledNext (state : State) : Option CallId :=
  match state.stack with
  | .freeing e (list :: _) :: _ => (state.elements e).bind fun element => (element.pending list).head?
  | _ => none

/-- The callbacks of a call start with the reply that comes for it, or with the error `Canceled` when a
turn finds it in its list. They start by nothing else, and only their return frees the record. -/
def AnsweredRightly (accepts : CallId → Bool) (state : State) (label : Label) (next : State) : Prop :=
  match label with
  | .send e list libraryCb userCb => Sent accepts state ⟨e, list, libraryCb, userCb, true⟩ next
  | .startDiscovery e userCb => Sent accepts state ⟨e, .startDiscovery, false, userCb, true⟩ next
  | .reply c reply => Answered state c reply.answer next
  | .callbackReturn => Returned state next
  | .freeNext =>
    match canceledNext state with
    | some c => Answered state c .canceled next
    | none => Silent state next
  | _ => Silent state next

theorem Silent.refl (state : State) : Silent state state := ⟨rfl, rfl, fun _ _ => rfl⟩

/-- Nothing else is done to calls, and the same callbacks run. -/
theorem Silent.congr (silent : Silent before state) (answers : after.answers = state.answers)
    (stack : callbacks after.stack = callbacks state.stack) (calls : after.calls = state.calls) :
    Silent before after where
  answers := answers.trans silent.answers
  runs := stack.trans silent.runs
  records c old := by rw [calls, silent.records c old]

theorem Silent.send (silent : Silent before state) (older : before.nextCall ≤ state.nextCall) (e : ElementId)
    (list : PendingList) (libraryCb userCb : Bool) :
    Silent before (messageSend accepts state e list libraryCb userCb) where
  answers := (messageSend_answers ..).trans silent.answers
  runs := by rw [messageSend_stack, silent.runs]
  records c old := by
    rw [← silent.records c old]
    cases accepted : accepts state.nextCall with
    | false => rw [(messageSend_rejected state e list libraryCb userCb accepted).2]
    | true =>
        rw [messageSend_accepted state e list libraryCb userCb accepted]
        exact Function.update_of_ne (Nat.ne_of_lt (Nat.lt_of_lt_of_le old older)) ..

theorem elementRegister_answers (family : Family) (state : State) (path interface : String) :
    (elementRegister family state path interface).1.answers = state.answers ∧
      (elementRegister family state path interface).1.nextCall = state.nextCall := by
  unfold elementRegister
  split
  · exact ⟨rfl, rfl⟩
  · simp [eventAdd, ecoreEventAdd, elementInsert]

/-- Messages send calls, but answer none. -/
theorem silent_closed (family : Family) (accepts : CallId → Bool) (before : State) :
    Closed family accepts (fun state => before.nextCall ≤ state.nextCall ∧ Silent before state) where
  fault state both := ⟨both.1, both.2.congr rfl rfl rfl⟩
  register state path interface both := by
    obtain ⟨answers, nextCall⟩ := elementRegister_answers family state path interface
    refine ⟨nextCall ▸ both.1, both.2.congr answers ?_ (elementRegister_calls ..)⟩
    rw [register_stack]
  sync state path interface both := by
    obtain ⟨answers, nextCall⟩ := elementRegister_answers family state path interface
    have registered : Silent before (elementRegister family state path interface).1 := by
      refine both.2.congr answers ?_ (elementRegister_calls ..)
      rw [register_stack]
    have older : before.nextCall ≤ (elementRegister family state path interface).1.nextCall := nextCall ▸ both.1
    refine ⟨?_, registered.send older _ .propertiesGet true false⟩
    rw [propertiesSync, messageSend_nextCall]
    exact Nat.le_succ_of_le older
  unregister state e both := by
    have same : CallsSame state (elementUnregister family state e) := elementUnregister_callsSame state e
    have stack := (stack_closed family accepts state.stack).unregister state e rfl
    exact ⟨same.nextCall ▸ both.1, both.2.congr same.answers (by rw [stack]) same.calls⟩
  setProperty state e name wire both := by
    refine ⟨?_, both.2.congr (modify_answers ..) ?_ (modify_calls ..)⟩
    · rw [modify_nextCall]
      exact both.1
    · rw [modify_stack]
  listeners state e both := by
    have same := listenersCall_callsSame state e
    have stack := (stack_closed family accepts state.stack).listeners state e rfl
    exact ⟨same.nextCall ▸ both.1, both.2.congr same.answers (by rw [stack]) same.calls⟩

theorem CallsSame.silent (same : CallsSame state after) (stack : callbacks after.stack = callbacks state.stack) :
    Silent state after := (Silent.refl state).congr same.answers stack same.calls

theorem elementUnref_silent (family : Family) (state : State) (e : ElementId) :
    Silent state (elementUnref family state e) := by
  refine (elementUnref_callsSame family state e).silent ?_
  rcases elementUnref_stack family state e with ⟨-, stack⟩ | ⟨-, stack⟩
  · rw [stack, callbacks_freeing]
  · rw [stack]

theorem messageSend_sent (pended : Pended accepts state) (e : ElementId) (list : PendingList)
    (libraryCb userCb : Bool) : Sent accepts state ⟨e, list, libraryCb, userCb, true⟩
      (messageSend accepts state e list libraryCb userCb) where
  silent := (Silent.refl state).send (Nat.le_refl _) e list libraryCb userCb
  record := by
    cases accepted : accepts state.nextCall with
    | false =>
        rw [(messageSend_rejected state e list libraryCb userCb accepted).2]
        exact (pended.unsent state.nextCall (Nat.le_refl _)).1
    | true =>
        rw [messageSend_accepted state e list libraryCb userCb accepted, Function.update_self]
        rfl

theorem callBegin_answered {call : Call} (known : state.calls c = some call) (waits : call.outstanding = true)
    (answer : Answer) : Answered state c answer (callBegin state c answer) where
  waits := by
    refine ⟨call, known, waits, ?_, callBegin_stack known answer⟩
    rw [callBegin_calls known, Function.update_self]
  answers := by simp [callBegin, known]
  records other _ different := by
    rw [callBegin_calls known]
    exact Function.update_of_ne different ..

/-- What is done after callbacks started leaves their calls alone. -/
theorem Answered.silent {answer : Answer} {next : State} (answered : Answered state c answer after)
    (known : c < state.nextCall) (older : state.nextCall ≤ after.nextCall) (silent : Silent after next)
    (stack : next.stack = after.stack) : Answered state c answer next where
  waits := by
    obtain ⟨call, was, waits, record, pushed⟩ := answered.waits
    refine ⟨call, was, waits, ?_, stack.trans pushed⟩
    rw [silent.records c (Nat.lt_of_lt_of_le known older), record]
  answers := silent.answers.trans answered.answers
  records other old different := by
    rw [silent.records other (Nat.lt_of_lt_of_le old older), answered.records other old different]

/-- A call with a record was sent. -/
theorem Pended.sent (pended : Pended accepts state) {call : Call} (known : state.calls c = some call) :
    c < state.nextCall := by
  refine Nat.lt_of_not_le fun late => ?_
  rw [(pended.unsent c late).1] at known
  cases known

theorem transition_answered {label : Label} {next : State} (pended : Pended accepts state)
    (transition : Transition accepts family state label next) : AnsweredRightly accepts state label next := by
  have closed := silent_closed family accepts state
  have start : state.nextCall ≤ state.nextCall ∧ Silent state state := ⟨Nat.le_refl _, .refl state⟩
  cases transition with
  | sync => exact (closed.sync state _ _ start).2
  | ref e =>
      refine (Silent.refl state).congr (modify_answers state e Element.addReference) ?_
        (modify_calls state e Element.addReference)
      rw [← modify_stack state e Element.addReference]
      rfl
  | unref e =>
      obtain ⟨answers, runs, records⟩ := elementUnref_silent family (returnReference state e) e
      exact ⟨answers, runs, records⟩
  | send e list libraryCb userCb => exact messageSend_sent pended e list libraryCb userCb
  | startDiscovery e userCb =>
      have handled : Pended accepts { state with handlers := state.handlers ++ [(.deviceFound, e)] } :=
        pended.same ⟨.of_eq fun _ => rfl, rfl, rfl, rfl, rfl⟩ rfl
      obtain ⟨silent, record⟩ := messageSend_sent handled e .startDiscovery false userCb
      exact ⟨⟨silent.answers, silent.runs, silent.records⟩, record⟩
  | register path interface => exact (closed.register state path interface start).2
  | unregister e => exact (closed.unregister state e start).2
  | clear => exact (clearElements_callsSame state).silent (by rw [clearElements_stack])
  | deliver event e rest =>
      change Silent state (eventFree family { state with events := rest } event e)
      unfold eventFree
      split
      · exact (Silent.refl state).congr rfl rfl rfl
      · obtain ⟨answers, runs, records⟩ := elementUnref_silent family { state with events := rest } e
        exact ⟨answers, runs, records⟩
  | propertyChanged e name wire => exact (closed.propertyChangedCallback e name wire start).2
  | deviceFound e => exact (Silent.refl state).congr rfl rfl rfl
  | idler e idle =>
      refine (Silent.refl state).congr rfl ?_ rfl
      rw [idle]
      rfl
  | reply c reply call idle known outstanding =>
      have begun := callBegin_answered known outstanding reply.answer
      have nextCall : (callBegin state c reply.answer).nextCall = state.nextCall := by simp [callBegin, known]
      have read := replyRead_closed (silent_closed family accepts (callBegin state c reply.answer)) call reply
        ⟨Nat.le_refl _, .refl _⟩
      exact begun.silent (pended.sent known) (Nat.le_of_eq nextCall.symm) read.2
        (replyRead_closed (stack_closed family accepts _) call reply rfl)
  | listenersReturn e below top =>
      have lower : CallsSame state (state.withStack below) := ⟨.of_eq fun _ => rfl, rfl, rfl, rfl, rfl⟩
      refine (lower.trans (listenersEnd_callsSame _ e)).silent ?_
      rw [top, callbacks_listeners]
      simp [listenersEnd, eventAdd, ecoreEventAdd, State.withStack]
  | callbackReturn c userCb below top =>
      have runs : c ∈ running state.stack := by simp [top]
      obtain ⟨call, known⟩ := Option.ne_none_iff_exists'.mp (pended.runKnown c runs)
      have lower : (state.withStack below).calls c = some call := known
      refine ⟨⟨c, userCb, ?_, callEnd_calls lower⟩, callEnd_answers lower⟩
      rw [top, callEnd_stack]
      rfl
  | freeDead e remaining below top dead =>
      have nobody : canceledNext state = none := by
        unfold canceledNext
        rw [top]
        cases remaining <;> simp [dead]
      rw [AnsweredRightly, nobody]
      refine (Silent.refl state).congr rfl ?_ rfl
      rw [top, callbacks_freeing]
      rfl
  | freeDone e below element top =>
      have nobody : canceledNext state = none := by
        unfold canceledNext
        rw [top]
      rw [AnsweredRightly, nobody]
      refine (Silent.refl state).congr rfl ?_ rfl
      rw [top, callbacks_freeing]
      rfl
  | freeList e list rest below element top alive emptied =>
      have nobody : canceledNext state = none := by
        unfold canceledNext
        rw [top]
        simp [alive, emptied]
      rw [AnsweredRightly, nobody]
      refine (Silent.refl state).congr rfl ?_ rfl
      rw [top, callbacks_freeing]
      rfl
  | freeCall e list rest below element c others top alive head =>
      have found : canceledNext state = some c := by
        unfold canceledNext
        rw [top]
        simp [alive, head]
      rw [AnsweredRightly, found]
      obtain ⟨call, known, -, waits⟩ := pended.head_waits top alive head
      exact callBegin_answered known waits .canceled

/-! ## Turns -/

/-- The frame frees the element. -/
def Frame.frees (e : ElementId) : Frame → Bool
  | .freeing other _ => other == e
  | .callback _ _ => false
  | .listeners _ => false

/-- The step is a turn of the loops that free the element. -/
def isTurn (e : ElementId) (state : State) : Label → Bool
  | .freeNext => state.stack.head?.any (Frame.frees e)
  | _ => false

/-- The step sends a call on the element, which libdbus can send. -/
def isResend (accepts : CallId → Bool) (e : ElementId) (state : State) : Label → Bool
  | .send other _ _ _ => other == e && accepts state.nextCall
  | .startDiscovery other _ => other == e && accepts state.nextCall
  | _ => false

/-- The calls that wait for an element. -/
def waitingCalls (state : State) (e : ElementId) : Finset CallId :=
  (Finset.range state.nextCall).filter fun c =>
    (state.calls c).any fun call => call.element == e && call.outstanding

/-- What is left to do while an element is freed: the lists, the calls that wait and the end. -/
def leftToFree (e : ElementId) (state : State) : Nat :=
  (draining e state.stack).elim 0 fun remaining => remaining.length + 1 + (waitingCalls state e).card

theorem mem_waitingCalls : c ∈ waitingCalls state e ↔ c < state.nextCall ∧
    ∃ call, state.calls c = some call ∧ call.element = e ∧ call.outstanding = true := by
  simp [waitingCalls, Option.any_eq_true]

/-- No more calls wait, and the lists are the same. -/
theorem leftToFree_le (drains : draining e after.stack = draining e state.stack)
    (calls : waitingCalls after e ⊆ waitingCalls state e) : leftToFree e after ≤ leftToFree e state := by
  unfold leftToFree
  rw [drains]
  cases draining e state.stack with
  | none => exact Nat.le_refl _
  | some remaining => exact Nat.add_le_add_left (Finset.card_le_card calls) _

theorem waitingCalls_same (calls : after.calls = state.calls)
    (nextCall : after.nextCall = state.nextCall) : waitingCalls after e ⊆ waitingCalls state e := by
  intro c
  rw [mem_waitingCalls, mem_waitingCalls, nextCall, calls]
  exact id

/-- A call that is sent waits for its element. -/
theorem waitingCalls_send (pended : Pended accepts state) (other : ElementId) (list : PendingList)
    (libraryCb userCb : Bool) :
    waitingCalls (messageSend accepts state other list libraryCb userCb) e ⊆
      if other = e ∧ accepts state.nextCall = true then insert state.nextCall (waitingCalls state e)
      else waitingCalls state e := by
  intro c waits
  rw [mem_waitingCalls, messageSend_nextCall] at waits
  obtain ⟨young, call, known, isElement, outstanding⟩ := waits
  cases accepted : accepts state.nextCall with
  | false =>
      rw [(messageSend_rejected state other list libraryCb userCb accepted).2] at known
      rw [if_neg (by simp), mem_waitingCalls]
      refine ⟨Nat.lt_of_not_le fun late => ?_, call, known, isElement, outstanding⟩
      rw [(pended.unsent c late).1] at known
      cases known
  | true =>
      rw [messageSend_accepted state other list libraryCb userCb accepted, Function.update_apply] at known
      split at known
      · rename_i isNew
        obtain rfl := Option.some.inj known
        rw [if_pos ⟨isElement, rfl⟩, isNew]
        exact Finset.mem_insert_self ..
      · rename_i isOld
        have waits : c ∈ waitingCalls state e :=
          mem_waitingCalls.mpr ⟨Nat.lt_of_le_of_ne (Nat.le_of_lt_succ young) isOld, call, known,
            isElement, outstanding⟩
        split
        · exact Finset.mem_insert_of_mem waits
        · exact waits

theorem draining_none {stack : List Frame} (none : ∀ remaining, .freeing e remaining ∉ stack) :
    draining e stack = .none := by
  by_contra some
  obtain ⟨remaining, drains⟩ := Option.ne_none_iff_exists'.mp some
  exact none remaining (draining_mem drains)

theorem leftToFree_top {remaining : List PendingList} {below : List Frame}
    (top : state.stack = .freeing e remaining :: below) :
    leftToFree e state = remaining.length + 1 + (waitingCalls state e).card := by
  rw [leftToFree, top, draining, if_pos rfl]
  rfl

/-- A call that is sent adds to what is left only if it is sent on the element. -/
theorem leftToFree_send (pended : Pended accepts state) (other : ElementId) (list : PendingList)
    (libraryCb userCb : Bool) :
    leftToFree e (messageSend accepts state other list libraryCb userCb) ≤
      leftToFree e state + (other == e && accepts state.nextCall).toNat := by
  have calls := waitingCalls_send (e := e) pended other list libraryCb userCb
  have drains : draining e (messageSend accepts state other list libraryCb userCb).stack =
      draining e state.stack := by rw [messageSend_stack]
  split at calls
  · rename_i here
    have counted := (Finset.card_le_card calls).trans (Finset.card_insert_le _ _)
    rw [show (other == e && accepts state.nextCall) = true by simp [here], Bool.toNat_true, leftToFree,
      leftToFree, drains]
    cases draining e state.stack with
    | none => exact Nat.zero_le _
    | some remaining =>
        simp only [Option.elim_some]
        omega
  · exact Nat.le_trans (leftToFree_le drains calls) (Nat.le_add_right _ _)

/-- A turn uses up a list, a call or the end. -/
theorem freeTurn_leftToFree {label : Label} {next : State} {other : ElementId}
    {remaining : List PendingList} {below : List Frame} (pended : Pended accepts state)
    (top : state.stack = .freeing other remaining :: below)
    (transition : Transition accepts family state label next) (turn : label = .freeNext) :
    (isTurn e state label).toNat + leftToFree e next ≤ leftToFree e state := by
  subst turn
  have counted : isTurn e state .freeNext = (other == e) := by simp [isTurn, top, Frame.frees]
  have whole := pended.nested
  rw [top] at whole
  rw [counted]
  by_cases here : other = e
  · subst here
    rw [beq_self_eq_true, Bool.toNat_true, leftToFree_top top]
    have popped : ∀ after, after.stack = below → leftToFree other after = 0 := by
      intro after stack
      rw [leftToFree, stack, draining_none whole.1]
      rfl
    cases transition with
    | freeDead e remaining' below' top' =>
        obtain ⟨isTop, rfl⟩ := List.cons.inj (top.symm.trans top')
        rw [popped _ rfl]
        omega
    | freeDone e below' element top' =>
        obtain ⟨isTop, rfl⟩ := List.cons.inj (top.symm.trans top')
        rw [popped _ rfl]
        omega
    | freeList e list rest below' element top' =>
        obtain ⟨isTop, rfl⟩ := List.cons.inj (top.symm.trans top')
        obtain ⟨rfl, rfl⟩ := Frame.freeing.inj isTop
        have next : leftToFree other (state.withStack (.freeing other rest :: below)) =
            rest.length + 1 + (waitingCalls state other).card := leftToFree_top rfl
        rw [next, List.length_cons]
        omega
    | freeCall e list rest below' element c others top' alive head =>
        obtain ⟨isTop, rfl⟩ := List.cons.inj (top.symm.trans top')
        obtain ⟨rfl, rfl⟩ := Frame.freeing.inj isTop
        obtain ⟨call, known, isElement, outstanding⟩ := pended.head_waits top alive head
        have waits : c ∈ waitingCalls state other := by
          refine mem_waitingCalls.mpr ⟨Nat.lt_of_not_le fun late => ?_, call, known, isElement, outstanding⟩
          rw [(pended.unsent c late).1] at known
          cases known
        have fewer : waitingCalls (callBegin state c .canceled) other ⊆ (waitingCalls state other).erase c := by
          intro c' waits'
          obtain ⟨young, call', known', isElement', outstanding'⟩ := mem_waitingCalls.mp waits'
          rw [callBegin_calls known, Function.update_apply] at known'
          split at known'
          · obtain rfl := Option.some.inj known'
            cases outstanding'
          · rename_i different
            refine Finset.mem_erase.mpr ⟨different, mem_waitingCalls.mpr ⟨?_, call', known', isElement', outstanding'⟩⟩
            simpa [callBegin, known] using young
        have card := Finset.card_le_card fewer
        rw [Finset.card_erase_of_mem waits] at card
        have positive := Finset.card_pos.mpr ⟨c, waits⟩
        have drains : draining other (callBegin state c .canceled).stack = some (list :: rest) := by
          rw [draining_callBegin, top, draining, if_pos rfl]
        rw [leftToFree, drains, Option.elim_some]
        omega
  · -- the frame frees another element
    rw [show (other == e) = false by simpa using here, Bool.toNat_false, Nat.zero_add]
    have drains : draining e state.stack = draining e below := by rw [top, draining, if_neg here]
    cases transition with
    | freeDead e' remaining' below' top' =>
        obtain ⟨isTop, rfl⟩ := List.cons.inj (top.symm.trans top')
        exact leftToFree_le drains.symm (waitingCalls_same rfl rfl)
    | freeDone e' below' element top' =>
        obtain ⟨isTop, rfl⟩ := List.cons.inj (top.symm.trans top')
        exact leftToFree_le drains.symm (waitingCalls_same rfl rfl)
    | freeList e' list rest below' element top' =>
        obtain ⟨isTop, rfl⟩ := List.cons.inj (top.symm.trans top')
        obtain ⟨rfl, rfl⟩ := Frame.freeing.inj isTop
        refine leftToFree_le ?_ (waitingCalls_same rfl rfl)
        rw [drains, State.withStack, draining, if_neg here]
    | freeCall e' list rest below' element c others top' alive head =>
        obtain ⟨call, known, -⟩ := pended.head_waits top' alive head
        refine leftToFree_le (draining_callBegin ..) fun c' waits => ?_
        obtain ⟨young, call', known', isElement, outstanding⟩ := mem_waitingCalls.mp waits
        have was := callBegin_waits state c c' .canceled known' outstanding
        refine mem_waitingCalls.mpr ⟨?_, call', was, isElement, outstanding⟩
        simpa [callBegin, known] using young

/-- While an element is freed, turns use up what is left, and only calls that are sent on
it add to that. -/
theorem transition_leftToFree {label : Label} {next : State} (kept : Kept family state)
    (pended : Pended accepts state) (transition : Transition accepts family state label next)
    (orderly : Orderly accepts state label) (freed : BeingFreed e state) :
    (isTurn e state label).toNat + leftToFree e next ≤
      leftToFree e state + (isResend accepts e state label).toNat := by
  obtain ⟨remaining, listed⟩ := freed
  have busy : state.stack ≠ [] := List.ne_nil_of_mem listed
  -- for a label that is neither a turn nor a call
  have plain : leftToFree e next ≤ leftToFree e state → isTurn e state label = false →
      (isTurn e state label).toNat + leftToFree e next ≤
        leftToFree e state + (isResend accepts e state label).toNat := by
    intro fewer noTurn
    rw [noTurn, Bool.toNat_false, Nat.zero_add]
    exact Nat.le_trans fewer (Nat.le_add_right _ _)
  cases transition with
  | sync =>
      have same := elementRegister_callsSame kept.accounted "/" family.managerInterface
      have stack : (elementRegister family state "/" family.managerInterface).1.stack = state.stack :=
        register_stack ..
      have registered := register_kept kept "/" family.managerInterface
      have entry := elementRegister_entry kept.accounted "/" family.managerInterface
      have different : (elementRegister family state "/" family.managerInterface).2 ≠ e := by
        rintro rfl
        exact (registered.framed.freeing _ remaining (stack ▸ listed)).2.1 entry
      refine plain (Nat.le_trans (leftToFree_send (pended.same same stack) _ .propertiesGet true false) ?_) rfl
      rw [show ((elementRegister family state "/" family.managerInterface).2 == e) = false by
        simpa using different, Bool.false_and, Bool.toNat_false, Nat.add_zero]
      exact leftToFree_le (by rw [stack]) (waitingCalls_same same.calls same.nextCall)
  | ref e' =>
      refine plain (leftToFree_le ?_ (waitingCalls_same (modify_calls ..) (modify_nextCall ..))) rfl
      exact congrArg (draining e) (modify_stack state e' Element.addReference)
  | unref e' =>
      have same := elementUnref_callsSame family (returnReference state e') e'
      refine plain (leftToFree_le ?_ (waitingCalls_same same.calls same.nextCall)) rfl
      rcases elementUnref_stack family (returnReference state e') e' with ⟨last, stack⟩ | ⟨-, stack⟩
      · have different : e' ≠ e := by
          rintro rfl
          exact (orderly.alone e' ⟨rfl, last⟩).1 remaining listed
        rw [stack, draining, if_neg different]
        rfl
      · rw [stack]
        rfl
  | send e' list libraryCb userCb =>
      exact Nat.le_trans (Nat.le_of_eq (Nat.zero_add _)) (leftToFree_send pended e' list libraryCb userCb)
  | startDiscovery e' userCb =>
      have handled : Pended accepts { state with handlers := state.handlers ++ [(.deviceFound, e')] } :=
        pended.same ⟨.of_eq fun _ => rfl, rfl, rfl, rfl, rfl⟩ rfl
      exact Nat.le_trans (Nat.le_of_eq (Nat.zero_add _))
        (leftToFree_send handled e' .startDiscovery false userCb)
  | register path interface idle => exact absurd idle busy
  | unregister e' idle => exact absurd idle busy
  | clear idle => exact absurd idle busy
  | deliver event e' rest idle => exact absurd idle busy
  | propertyChanged e' name wire idle => exact absurd idle busy
  | deviceFound e' idle => exact absurd idle busy
  | idler e' idle => exact absurd idle busy
  | reply c reply call idle => exact absurd idle busy
  | listenersReturn e' below top =>
      have same := listenersEnd_callsSame (state.withStack below) e'
      refine plain (leftToFree_le ?_ (waitingCalls_same same.calls same.nextCall)) rfl
      rw [top, draining]
      simp [listenersEnd, eventAdd, ecoreEventAdd, State.withStack]
  | callbackReturn c userCb below top =>
      have runs : c ∈ running state.stack := by simp [top]
      obtain ⟨call, known⟩ := Option.ne_none_iff_exists'.mp (pended.runKnown c runs)
      have lower : (state.withStack below).calls c = some call := known
      refine plain (leftToFree_le ?_ fun c' waits => ?_) rfl
      · rw [callEnd_stack, top]
        rfl
      · obtain ⟨young, call', known', isElement, outstanding⟩ := mem_waitingCalls.mp waits
        rw [callEnd_nextCall lower] at young
        exact mem_waitingCalls.mpr ⟨young, call', callEnd_waits (state.withStack below) c c' known',
          isElement, outstanding⟩
  | freeDead e' remaining' below top dead =>
      have turn : Transition accepts family state .freeNext (state.failed.withStack below) :=
        .freeDead e' remaining' below top dead
      exact freeTurn_leftToFree pended top turn rfl
  | freeDone e' below element top alive =>
      have turn : Transition accepts family state .freeNext ((elementGone state e').withStack below) :=
        .freeDone e' below element top alive
      exact freeTurn_leftToFree pended top turn rfl
  | freeList e' list rest below element top alive emptied =>
      have turn : Transition accepts family state .freeNext (state.withStack (.freeing e' rest :: below)) :=
        .freeList e' list rest below element top alive emptied
      exact freeTurn_leftToFree pended top turn rfl
  | freeCall e' list rest below element c others top alive head =>
      have turn : Transition accepts family state .freeNext (callBegin state c .canceled) :=
        .freeCall e' list rest below element c others top alive head
      exact freeTurn_leftToFree pended top turn rfl

/-! ## Frees come to their end -/

theorem modify_fault_of_alive (alive : state.elements e ≠ none) (change : Element → Element) :
    (state.modify e change).fault = state.fault := by
  obtain ⟨element, found⟩ := Option.ne_none_iff_exists'.mp alive
  simp [State.modify, found]

/-- Elements whose lists stay are there. -/
theorem ListsSame.alive (same : ListsSame before after) (alive : before.elements e ≠ none) :
    after.elements e ≠ none := by
  obtain ⟨lists, found⟩ := pendingOf_isSome alive
  intro dead
  have kept := same.kept e lists found
  rw [State.pendingOf, dead] at kept
  cases kept

theorem messageSend_alive {other : ElementId} (alive : state.elements other ≠ none) (e : ElementId)
    (list : PendingList) (libraryCb userCb : Bool) :
    (messageSend accepts state e list libraryCb userCb).elements other ≠ none := by
  unfold messageSend
  split
  · simp only [callNew, modify_elements]
    split
    · simpa using alive
    · exact alive
  · exact alive

theorem messageSend_fault (alive : state.elements e ≠ none) (list : PendingList) (libraryCb userCb : Bool) :
    (messageSend accepts state e list libraryCb userCb).fault = state.fault := by
  unfold messageSend
  split
  · exact modify_fault_of_alive alive _
  · simp [callDrop, State.touch, Option.isNone_iff_eq_none, alive]

theorem elementRegister_fault (state : State) (path interface : String) :
    (elementRegister family state path interface).1.fault = state.fault := by
  unfold elementRegister
  split
  · rfl
  · refine modify_fault_of_alive ?_ Element.addReference
    simp [elementInsert]

theorem Pended.callAlive (pended : Pended accepts state) {call : Call} (known : state.calls c = some call) :
    state.elements call.element ≠ none := by
  obtain ⟨-, lists, found, -⟩ := pended.recorded c call known
  intro dead
  rw [State.pendingOf, dead] at found
  cases found

theorem callEnd_fault (pended : Pended accepts state) {call : Call} (known : state.calls c = some call)
    (below : List Frame) : (callEnd (state.withStack below) c).fault = state.fault := by
  have lower : (state.withStack below).calls c = some call := known
  have there : (state.withStack below).elements call.element ≠ none := pended.callAlive known
  simp only [callEnd, lower]
  exact modify_fault_of_alive there _

/-- Only a freed element cannot be unreferenced. -/
theorem elementUnref_fault (family : Family) (alive : state.elements e ≠ none) :
    (elementUnref family state e).fault = state.fault := by
  obtain ⟨element, found⟩ := Option.ne_none_iff_exists'.mp alive
  simp only [elementUnref, found]
  split
  · exact modify_fault_of_alive alive Element.dropReference
  · exact modify_fault_of_alive alive Element.dropReference

/-- The element whose last reference goes is there when it starts to be freed. -/
theorem elementUnref_freed (family : Family) {other : ElementId}
    (freed : BeingFreed other (elementUnref family state e)) :
    BeingFreed other state ∨ other = e ∧ state.elements e ≠ none := by
  obtain ⟨remaining, listed⟩ := freed
  rcases elementUnref_stack family state e with ⟨last, stack⟩ | ⟨-, stack⟩
  · rw [stack] at listed
    rcases List.mem_cons.mp listed with isTop | below
    · obtain ⟨rfl, -⟩ := Frame.freeing.inj isTop
      refine .inr ⟨rfl, fun dead => ?_⟩
      rw [LastReference, dead] at last
      cases last
    · exact .inl ⟨remaining, below⟩
  · rw [stack] at listed
    exact .inl ⟨remaining, listed⟩

/-- What is being freed exists, and while something is being freed no freed element is used, unless users
give a reference to one back. -/
theorem transition_freed {label : Label} {next : State} (kept : Kept family state) (pended : Pended accepts state)
    (sound : state.fault = false) (alive : ∀ e, BeingFreed e state → state.elements e ≠ none)
    (transition : Transition accepts family state label next) (freed : BeingFreed e next) :
    next.elements e ≠ none ∧ (next.fault = true → ∃ gone, label = .unref gone ∧ state.elements gone = none) := by
  have messages := stack_closed family accepts []
  -- nothing is freed where the stack holds no such frame
  have nothing : (∀ remaining, .freeing e remaining ∉ next.stack) →
      next.elements e ≠ none ∧ (next.fault = true → ∃ gone, label = .unref gone ∧ state.elements gone = none) := by
    obtain ⟨remaining, listed⟩ := freed
    exact fun none => absurd listed (none remaining)
  have idle : next.stack = [] →
      next.elements e ≠ none ∧ (next.fault = true → ∃ gone, label = .unref gone ∧ state.elements gone = none) :=
    fun empty => nothing (by simp [empty])
  -- the frames are those from before, or fewer
  have before : (∀ remaining, .freeing e remaining ∈ next.stack → BeingFreed e state) →
      (state.elements e ≠ none → next.elements e ≠ none) → next.fault = state.fault →
      next.elements e ≠ none ∧ (next.fault = true → ∃ gone, label = .unref gone ∧ state.elements gone = none) := by
    obtain ⟨remaining, listed⟩ := freed
    intro was stays same
    refine ⟨stays (alive e (was remaining listed)), fun faulted => ?_⟩
    rw [same, sound] at faulted
    cases faulted
  cases transition with
  | sync =>
      have registered := register_kept kept "/" family.managerInterface
      have entry := elementRegister_entry kept.accounted "/" family.managerInterface
      refine before (fun remaining listed => ?_) (fun was => ?_) ?_
      · rw [managerSync, propertiesSync, messageSend_stack, register_stack] at listed
        exact ⟨remaining, listed⟩
      · exact messageSend_alive ((elementRegister_callsSame kept.accounted _ _).lists.alive was) _ _ _ _
      · rw [managerSync, propertiesSync, messageSend_fault (registered.accounted.entry_alive entry),
          elementRegister_fault]
  | ref other acts there =>
      refine before (fun remaining listed => ?_) (fun was => ?_) ?_
      · exact ⟨remaining, modify_stack state other Element.addReference ▸ listed⟩
      · exact (modify_callsSame state other Element.addReference fun _ => rfl).lists.alive was
      · exact modify_fault_of_alive there Element.addReference
  | unref other =>
      have lists := (elementUnref_callsSame family (returnReference state other) other).lists
      refine ⟨?_, fun faulted => ?_⟩
      · rcases elementUnref_freed family freed with was | ⟨rfl, there⟩
        · exact lists.alive (alive e was)
        · exact lists.alive there
      · refine ⟨other, rfl, ?_⟩
        by_contra there
        have same : (elementUnref family (returnReference state other) other).fault = state.fault :=
          elementUnref_fault family there
        rw [same, sound] at faulted
        cases faulted
  | send other list libraryCb userCb acts there =>
      refine before (fun remaining listed => ?_) (messageSend_alive · _ _ _ _) (messageSend_fault there ..)
      rw [messageSend_stack] at listed
      exact ⟨remaining, listed⟩
  | startDiscovery other userCb acts there =>
      have handled : ∀ e, state.elements e ≠ none →
          ({ state with handlers := state.handlers ++ [(.deviceFound, other)] } : State).elements e ≠ none :=
        fun _ => id
      refine before (fun remaining listed => ?_) (fun was => messageSend_alive (handled e was) _ _ _ _)
        (messageSend_fault (handled other there) ..)
      rw [startDiscovery, messageSend_stack] at listed
      exact ⟨remaining, listed⟩
  | register path interface empty => exact idle ((register_stack ..).trans empty)
  | unregister other empty => exact idle (messages.unregister state other empty)
  | clear empty => exact idle ((clearElements_stack state).trans empty)
  | deliver event other rest empty =>
      revert freed nothing idle before
      unfold eventFree
      split
      · intro _ _ idle _
        exact idle empty
      · intro freed _ _ _
        have lists := (elementUnref_callsSame family { state with events := rest } other).lists
        rcases elementUnref_freed family freed with ⟨remaining, was⟩ | ⟨rfl, there⟩
        · change .freeing e remaining ∈ state.stack at was
          rw [empty] at was
          cases was
        · refine ⟨lists.alive there, fun faulted => ?_⟩
          have same : (elementUnref family { state with events := rest } e).fault = state.fault :=
            elementUnref_fault family there
          rw [same, sound] at faulted
          cases faulted
  | propertyChanged other name wire empty => exact idle (messages.propertyChangedCallback other name wire empty)
  | deviceFound other empty => exact idle empty
  | idler other empty => exact nothing (by simp [State.withStack])
  | reply c reply call empty known =>
      have stack := callBegin_stack known reply.answer
      rw [empty] at stack
      have read := replyRead_closed (stack_closed family accepts _) call reply stack
      exact nothing (by simp [read])
  | listenersReturn other below top =>
      obtain rfl := kept.framed.listeners_last top
      exact idle (by simp [listenersEnd, eventAdd, ecoreEventAdd, State.withStack])
  | callbackReturn c userCb below top =>
      have runs : c ∈ running state.stack := by simp [top]
      obtain ⟨call, known⟩ := Option.ne_none_iff_exists'.mp (pended.runKnown c runs)
      have lower : (state.withStack below).calls c = some call := known
      refine before (fun remaining listed => ?_) (fun was => ?_) (callEnd_fault pended known below)
      · rw [callEnd_stack] at listed
        exact ⟨remaining, top ▸ .tail _ listed⟩
      · have stays : (state.withStack below).elements e ≠ none := was
        simp only [callEnd, lower, modify_elements]
        split
        · simpa using stays
        · exact stays
  | freeDead other remaining below top dead =>
      exact absurd dead (alive other ⟨remaining, top ▸ List.mem_cons_self⟩)
  | freeDone other below element top =>
      have whole := pended.nested
      rw [top] at whole
      refine before (fun remaining listed => ⟨remaining, top ▸ .tail _ listed⟩) (fun was => ?_) rfl
      have different : e ≠ other := by
        rintro rfl
        obtain ⟨remaining, listed⟩ := freed
        exact whole.1 remaining listed
      intro gone
      exact was ((Function.update_of_ne different ..).symm.trans gone)
  | freeList other list rest below element top =>
      refine before (fun remaining listed => ?_) id rfl
      rcases List.mem_cons.mp listed with isTop | inBelow
      · obtain ⟨rfl, -⟩ := Frame.freeing.inj isTop
        exact ⟨list :: rest, top ▸ List.mem_cons_self⟩
      · exact ⟨remaining, top ▸ .tail _ inBelow⟩
  | freeCall other list rest below element c others top there head =>
      obtain ⟨call, known, -⟩ := pended.head_waits top there head
      refine before (fun remaining listed => ?_) (fun was => ?_) (by simp [callBegin, known])
      · rw [callBegin_stack known] at listed
        exact ⟨remaining, (List.mem_cons.mp listed).resolve_left (by simp)⟩
      · exact (callBegin_lists state c .canceled).alive was

/-! ## Runs -/

/-- What is known along orderly runs. Frees that faulted keep no accounts. -/
structure Settled (accepts : CallId → Bool) (family : Family) (state : State) : Prop where
  pended : Pended accepts state
  placed : Placed family state
  freed : ∀ e, BeingFreed e state → state.elements e ≠ none
  kept : state.fault = false → Kept family state

theorem initial_settled (accepts : CallId → Bool) (family : Family) : Settled accepts family State.initial where
  pended := initial_pended accepts
  placed _ _ known := by cases known
  freed _ freed := by
    obtain ⟨_, listed⟩ := freed
    cases listed
  kept _ := initial_kept family

theorem modify_dead (dead : state.elements e = none) (change : Element → Element) :
    (state.modify e change).fault = true := by
  simp [State.modify, dead]

theorem modify_fault (faulted : state.fault = true) (change : Element → Element) :
    (state.modify e change).fault = true := by
  unfold State.modify
  split
  · rfl
  · exact faulted

/-- A listener that freed its element makes the module use it. -/
theorem listenersEnd_dead (dead : state.elements e = none) : (listenersEnd state e).fault = true := by
  have updated : (eventAdd state .updated e).fault = true := modify_dead dead Element.addReference
  exact modify_fault updated Element.disarmIdler

/-- Steps keep the accounts, unless they use memory that was freed. -/
theorem transition_kept_of_sound {label : Label} {next : State} (kept : Kept family state)
    (transition : Transition accepts family state label next) (sound : next.fault = false) : Kept family next := by
  refine transition_kept kept transition ?_
  rintro ⟨rfl, e, below, top, dead⟩
  cases transition with
  | listenersReturn e' below' top' =>
      obtain ⟨isTop, rfl⟩ := List.cons.inj (top.symm.trans top')
      obtain rfl := Frame.listeners.inj isTop
      have faulted : (listenersEnd (state.withStack below) e).fault = true := listenersEnd_dead dead
      rw [faulted] at sound
      cases sound

theorem transition_settled {label : Label} {next : State} (sound : state.fault = false)
    (settled : Settled accepts family state) (transition : Transition accepts family state label next)
    (orderly : Orderly accepts state label) : Settled accepts family next := by
  have kept := settled.kept sound
  exact ⟨transition_pended kept settled.placed settled.pended transition orderly,
    transition_placed settled.placed transition,
    fun _ freed => (transition_freed kept settled.pended sound settled.freed transition freed).1,
    transition_kept_of_sound kept transition⟩

/-- A step that neither drops a reference nor sends a call. -/
theorem orderly_of_plain {label : Label} (drops : ∀ e, ¬ DropsLast state label e)
    (sends : ∀ e list, ¬ SendsOn label e list) : Orderly accepts state label where
  alone e last := absurd last (drops e)
  canceled e last := absurd last (drops e)
  resent e list sent := absurd sent (sends e list)

/-- The functions that run return, and no callback does anything else. -/
def Label.returns : Label → Bool
  | .freeNext | .callbackReturn => true
  | _ => false

theorem orderly_returns {label : Label} (returns : label.returns = true) : Orderly accepts state label := by
  cases label <;> first
    | exact orderly_of_plain (fun _ => id) (fun _ _ => id)
    | cases returns

/-- If callbacks only return, every element that is being freed is freed, and no freed memory is used. -/
def Finishes (accepts : CallId → Bool) (family : Family) (state : State) : Prop :=
  ∃ labels final, (∀ label ∈ labels, label.returns = true) ∧
    (machine accepts family).exec state labels = some final ∧
    (∀ e, ¬ BeingFreed e final) ∧ final.fault = false ∧ final.callFault = false

/-- The turns and returns that a frame takes, apart from the calls that it cancels. -/
def Frame.work : Frame → Nat
  | .callback _ _ => 1
  | .freeing _ remaining => remaining.length + 1
  | .listeners _ => 0

/-- Those of all frames. -/
def stackWork : List Frame → Nat
  | [] => 0
  | frame :: below => frame.work + stackWork below

/-- The calls that wait. -/
def unanswered (state : State) : Finset CallId :=
  (Finset.range state.nextCall).filter fun c => (state.calls c).any Call.outstanding

/-- A bound on the turns and returns until nothing is being freed. -/
def leftToReturn (state : State) : Nat :=
  2 * (unanswered state).card + stackWork state.stack

theorem mem_unanswered : c ∈ unanswered state ↔ c < state.nextCall ∧
    ∃ call, state.calls c = some call ∧ call.outstanding = true := by
  simp [unanswered, Option.any_eq_true]

theorem leftToReturn_lt (calls : unanswered after ⊆ unanswered state)
    (work : stackWork after.stack < stackWork state.stack) :
    leftToReturn after < leftToReturn state := by
  have fewer := Finset.card_le_card calls
  unfold leftToReturn
  omega

theorem unanswered_same (calls : after.calls = state.calls) (nextCall : after.nextCall = state.nextCall) :
    unanswered after ⊆ unanswered state := by
  intro c
  rw [mem_unanswered, mem_unanswered, nextCall, calls]
  exact id

/-- The call that a turn cancels waits no more. -/
theorem leftToReturn_callBegin (pended : Pended accepts state) {call : Call} (known : state.calls c = some call)
    (waits : call.outstanding = true) (answer : Answer) :
    leftToReturn (callBegin state c answer) < leftToReturn state := by
  have member : c ∈ unanswered state := mem_unanswered.mpr ⟨pended.sent known, call, known, waits⟩
  have fewer : unanswered (callBegin state c answer) ⊆ (unanswered state).erase c := by
    intro c' waits'
    obtain ⟨young, call', known', outstanding⟩ := mem_unanswered.mp waits'
    have was := callBegin_waits state c c' answer known' outstanding
    refine Finset.mem_erase.mpr ⟨?_, mem_unanswered.mpr ⟨pended.sent was, call', was, outstanding⟩⟩
    rintro rfl
    rw [callBegin_calls known, Function.update_self] at known'
    obtain rfl := Option.some.inj known'
    cases outstanding
  have card := Finset.card_le_card fewer
  rw [Finset.card_erase_of_mem member] at card
  have positive := Finset.card_pos.mpr ⟨c, member⟩
  rw [leftToReturn, callBegin_stack known, stackWork, Frame.work, leftToReturn]
  omega

/-- Running functions go on unless memory was used that had been freed. -/
theorem step_returns (sound : state.fault = false) (callSound : state.callFault = false) {label : Label}
    (returns : label.returns = true) : step accepts family state label = returnStep state label := by
  cases label <;> first
    | exact if_neg (by simp [sound, callSound])
    | cases returns

/-- While something is being freed, the running function can go on, and this brings the end nearer. -/
theorem Settled.goesOn (settled : Settled accepts family state) (sound : state.fault = false)
    (freed : BeingFreed e state) :
    ∃ label next, label.returns = true ∧ step accepts family state label = some next ∧ next.fault = false ∧
      leftToReturn next < leftToReturn state := by
  have kept := settled.kept sound
  have pended := settled.pended
  have enabled : ∀ label, label.returns = true → step accepts family state label = returnStep state label :=
    fun _ => step_returns sound pended.sound
  obtain ⟨remaining, listed⟩ := freed
  cases top : state.stack with
  | nil =>
      rw [top] at listed
      cases listed
  | cons frame below =>
      cases frame with
      | callback c userCb =>
          have runs : c ∈ running state.stack := by simp [top]
          obtain ⟨call, known⟩ := Option.ne_none_iff_exists'.mp (pended.runKnown c runs)
          have lower : (state.withStack below).calls c = some call := known
          refine ⟨.callbackReturn, callEnd (state.withStack below) c, rfl, ?_, ?_, ?_⟩
          · simp only [enabled .callbackReturn rfl, returnStep, top]
          · rw [callEnd_fault pended known, sound]
          · refine leftToReturn_lt (fun c' waits => ?_) ?_
            · obtain ⟨-, call', known', outstanding⟩ := mem_unanswered.mp waits
              have was : state.calls c' = some call' := callEnd_waits (state.withStack below) c c' known'
              exact mem_unanswered.mpr ⟨pended.sent was, call', was, outstanding⟩
            · rw [callEnd_stack, top, stackWork]
              exact Nat.lt_add_of_pos_left Nat.one_pos
      | freeing other lists =>
          obtain ⟨element, alive⟩ := Option.ne_none_iff_exists'.mp
            (settled.freed other ⟨lists, top ▸ List.mem_cons_self⟩)
          have turn : step accepts family state .freeNext = some (freeTurn state other lists below) := by
            simp only [enabled .freeNext rfl, returnStep, top]
          cases lists with
          | nil =>
              refine ⟨.freeNext, (elementGone state other).withStack below, rfl, ?_, sound, ?_⟩
              · rw [turn, freeTurn, alive]
              · refine leftToReturn_lt (unanswered_same rfl rfl) ?_
                rw [top, stackWork]
                exact Nat.lt_add_of_pos_left (Nat.succ_pos _)
          | cons list rest =>
              cases head : element.pending list with
              | nil =>
                  refine ⟨.freeNext, state.withStack (.freeing other rest :: below), rfl, ?_, sound, ?_⟩
                  · rw [turn, freeTurn, alive]
                    simp only [head]
                  · refine leftToReturn_lt (unanswered_same rfl rfl) ?_
                    rw [top, State.withStack]
                    simp [stackWork, Frame.work]
              | cons c others =>
                  obtain ⟨call, known, -, waits⟩ := pended.head_waits top alive head
                  refine ⟨.freeNext, callBegin state c .canceled, rfl, ?_, ?_,
                    leftToReturn_callBegin pended known waits .canceled⟩
                  · rw [turn, freeTurn, alive]
                    simp only [head]
                  · simp only [callBegin, known]
                    exact sound
      | listeners other =>
          -- listeners run at the bottom of the stack, where nothing is freed
          rw [top, kept.framed.listeners_last top] at listed
          cases List.mem_singleton.mp listed

theorem Settled.finishes (settled : Settled accepts family state) (sound : state.fault = false) :
    Finishes accepts family state := by
  -- the induction is on what is left to do, which every turn and return takes from
  induction left : leftToReturn state using Nat.strong_induction_on generalizing state with
  | _ count ih =>
      by_cases freed : ∃ e, BeingFreed e state
      · obtain ⟨e, freed⟩ := freed
        obtain ⟨label, next, returns, stepped, unfaulted, fewer⟩ := settled.goesOn sound freed
        obtain ⟨-, -, transition⟩ := step_transition stepped
        have settledNext := transition_settled sound settled transition (orderly_returns returns)
        obtain ⟨labels, final, returned, executed, ended⟩ := ih _ (left ▸ fewer) settledNext unfaulted rfl
        refine ⟨label :: labels, final, ?_, Semantics.Machine.exec_cons_iff.mpr ⟨next, stepped, executed⟩, ended⟩
        intro other listed
        rcases List.mem_cons.mp listed with rfl | inRest
        · exact returns
        · exact returned other inRest
      · exact ⟨[], state, nofun, rfl, fun e here => freed ⟨e, here⟩, sound, settled.pended.sound⟩

/-- While something is being freed, no freed memory is used, unless users give back a reference to an
element that was freed. -/
def Unfaulted (state : State) (label : Label) (next : State) : Prop :=
  (∃ e, BeingFreed e next) → next.fault = true → ∃ gone, label = .unref gone ∧ state.elements gone = none

/-- Along an orderly run every call completes once and gets the right answer. The loops that free an
element make at most one turn for each list, for each call that waits and for each call that is sent
on the element meanwhile, and a last one; they never get stuck, and end if callbacks only return. -/
theorem complete_once (accepts : CallId → Bool) (family : Family) (run : List Label)
    (orderly : (machine accepts family).Along (fun state label _ => Orderly accepts state label)
      State.initial run) :
    (machine accepts family).Throughout (CompleteOnce accepts) State.initial run ∧
      (machine accepts family).Along (AnsweredRightly accepts) State.initial run ∧
      (machine accepts family).Throughout (fun state => state.fault = false → Finishes accepts family state)
        State.initial run ∧
      (machine accepts family).Along Unfaulted State.initial run ∧
      ∀ before during state e, run = before ++ during →
        (machine accepts family).exec State.initial before = some state →
        (machine accepts family).Along (fun state _ _ => BeingFreed e state) state during →
        (machine accepts family).countAlong (isTurn e) state during ≤
          leftToFree e state + (machine accepts family).countAlong (isResend accepts e) state during := by
  have throughout : (machine accepts family).Throughout (Settled accepts family) State.initial run := by
    refine Semantics.Machine.throughout_of_along ?_ (initial_settled accepts family) orderly
    intro state label next settled stepped steps
    obtain ⟨sound, -, transition⟩ := step_transition stepped
    exact transition_settled sound settled transition steps
  refine ⟨throughout.mono fun _ settled => settled.pended.completeOnce, ?_,
    throughout.mono fun _ settled => settled.finishes, ?_, ?_⟩
  · refine Semantics.Machine.along_of_throughout ?_ throughout
    intro state label next settled _ stepped
    obtain ⟨-, -, transition⟩ := step_transition stepped
    exact transition_answered settled.pended transition
  · refine Semantics.Machine.along_of_throughout ?_ throughout
    rintro state label next settled _ stepped ⟨e, freed⟩
    obtain ⟨sound, -, transition⟩ := step_transition stepped
    exact (transition_freed (settled.kept sound) settled.pended sound settled.freed transition freed).2
  · rintro before during state e rfl executed freed
    have here : Settled accepts family state :=
      Semantics.Machine.throughout_iff_prefix.mp throughout before (List.prefix_append ..) state executed
    refine Semantics.Machine.countAlong_le (Settled accepts family) (leftToFree e) ?_ here
      ((orderly.suffix executed).and freed)
    rintro state label next settled stepped ⟨steps, beingFreed⟩
    obtain ⟨sound, -, transition⟩ := step_transition stepped
    exact ⟨transition_settled sound settled transition steps,
      transition_leftToFree (settled.kept sound) settled.pended transition steps beingFreed⟩

/-- An event is done in the main loop. -/
theorem orderly_deliver (idle : state.stack = [])
    (lists : ∀ c call, state.calls c = some call → call.list.forgotten = false) :
    Orderly accepts state .deliver where
  alone _ _ := by simp [idle, running]
  canceled _ _ c call known _ := lists c call known
  resent _ _ sent := absurd sent id

/-- A call is sent while no element is freed, or on the one that is freed. -/
theorem orderly_send {list : PendingList} {libraryCb userCb : Bool}
    (kept : ∀ remaining, .freeing e remaining ∈ state.stack → list ∈ remaining) :
    Orderly accepts state (.send e list libraryCb userCb) where
  alone _ last := absurd last id
  canceled _ last := absurd last id
  resent other list' sent _ remaining listed := by
    obtain ⟨rfl, rfl⟩ := sent
    exact kept remaining listed

/-- A service leaves while a property is set, and the callback tries again. -/
def serviceRetries : List Label :=
  [.register "/service" "net.connman.Service", .send 0 .propertySet false true, .unregister 0,
    .deliver, .deliver, .freeNext, .freeNext, .send 0 .propertySet false false, .callbackReturn,
    .freeNext, .callbackReturn]

theorem complete_once_serviceRetries :
    (machine (fun _ => true) .connman).Throughout (CompleteOnce fun _ => true) State.initial
      serviceRetries := by
  have canceled : ∀ c call, Function.update (fun _ => none) 0
      (some (⟨0, .propertySet, false, true, true⟩ : Call)) c = some call →
      call.list.forgotten = false := by
    intro c call known
    rw [Function.update_apply] at known
    split at known
    · obtain rfl := Option.some.inj known
      rfl
    · cases known
  have along : (machine (fun _ => true) .connman).Along
      (fun state label _ => Orderly (fun _ => true) state label) State.initial serviceRetries := by
    refine (Semantics.Machine.along_cons rfl).mpr ⟨orderly_of_plain (fun _ => id) (fun _ _ => id), ?_⟩
    refine (Semantics.Machine.along_cons rfl).mpr ⟨orderly_send nofun, ?_⟩
    refine (Semantics.Machine.along_cons rfl).mpr ⟨orderly_of_plain (fun _ => id) (fun _ _ => id), ?_⟩
    refine (Semantics.Machine.along_cons rfl).mpr ⟨orderly_deliver rfl canceled, ?_⟩
    refine (Semantics.Machine.along_cons rfl).mpr ⟨orderly_deliver rfl canceled, ?_⟩
    refine (Semantics.Machine.along_cons rfl).mpr ⟨orderly_of_plain (fun _ => id) (fun _ _ => id), ?_⟩
    refine (Semantics.Machine.along_cons rfl).mpr ⟨orderly_of_plain (fun _ => id) (fun _ _ => id), ?_⟩
    refine (Semantics.Machine.along_cons rfl).mpr ⟨orderly_send fun remaining listed => ?_, ?_⟩
    · cases listed with
      | tail _ lower =>
          obtain ⟨-, rfl⟩ := Frame.freeing.inj (List.mem_singleton.mp lower)
          decide
    refine (Semantics.Machine.along_cons rfl).mpr ⟨orderly_of_plain (fun _ => id) (fun _ _ => id), ?_⟩
    refine (Semantics.Machine.along_cons rfl).mpr ⟨orderly_of_plain (fun _ => id) (fun _ _ => id), ?_⟩
    exact (Semantics.Machine.along_cons rfl).mpr ⟨orderly_of_plain (fun _ => id) (fun _ _ => id), trivial⟩
  exact (complete_once (fun _ => true) .connman serviceRetries along).1

/-- The callback of a reply drops the last reference to the element. -/
def replyFrees : List Label :=
  [.register "/service" "net.connman.Service", .ref 0, .send 0 .propertySet false true, .unregister 0,
    .deliver, .deliver, .reply 0 .plain, .unref 0, .freeNext, .freeNext]

/-- The callbacks get the reply, and then `Canceled`. -/
theorem complete_once_fails_replyFrees :
    ¬ ∀ (accepts : CallId → Bool) (run : List Label),
      (machine accepts .connman).Throughout (CompleteOnce accepts) State.initial run := by
  intro always
  obtain ⟨final, executed, answers⟩ : ∃ final,
      (machine (fun _ => true) .connman).exec State.initial replyFrees = some final ∧
      final.answers 0 = [.reply, .canceled] :=
    ⟨_, rfl, by decide⟩
  have complete := (always (fun _ => true) replyFrees).finish executed
  have once := complete.once 0
  rw [answers] at once
  exact absurd once (by decide)

end EDBus.Elements
