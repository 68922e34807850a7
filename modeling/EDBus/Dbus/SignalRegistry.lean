import EDBus.Dbus.SignalOwner
import Mathlib.Data.List.Nodup

/-!
# The handlers of a connection and the match rules of its bus

Deleting a handler takes it off its list at once when no `e_dbus_idler` runs,
and otherwise only marks it. What the operations do to lists, marks and rules
is said once here: `Keeps` for those that leave the lists alone, `Swept` for the
clean-up of the outermost idler.
-/

namespace EDBus.Dbus.Signal

variable {state : State}

/-- The deletion of the handler is put off. -/
def State.marked (state : State) (sh : HandlerId) : Bool :=
  (state.handlers sh).any Handler.deleteMe

/-- The match rules of a handler that is allocated. -/
def State.rulesOf (state : State) (sh : HandlerId) : List String :=
  ((state.handlers sh).map Handler.rules).getD []

/-- The match rules of the handlers in the list of a connection. -/
def State.rulesListed (state : State) (conn : ConnId) : List String :=
  (state.signalHandlers conn).flatMap state.rulesOf

/-- Handlers are listed once, as long as they are allocated, and the bus of a
connection has their rules and no others. -/
structure Registered (state : State) : Prop where
  untouched : state.touchedFreed = false
  allocated : ∀ conn sh, sh ∈ state.signalHandlers conn → ∃ handler, state.handlers sh = some handler
  nodup : ∀ conn, (state.signalHandlers conn).Nodup
  old : ∀ conn sh, sh ∈ state.signalHandlers conn → sh < state.nextHandler
  single : ∀ first second sh, sh ∈ state.signalHandlers first →
    sh ∈ state.signalHandlers second → first = second
  rules : ∀ conn, (state.matchRules conn).Perm (state.rulesListed conn)

theorem initial_registered : Registered State.initial where
  untouched := rfl
  allocated _ _ listed := by cases listed
  nodup _ := List.nodup_nil
  old _ _ listed := by cases listed
  single _ _ _ listed := by cases listed
  rules _ := .refl _

/-- Lists and rules stay, and every handler keeps its rules. -/
structure Keeps (before after : State) : Prop where
  signalHandlers : after.signalHandlers = before.signalHandlers
  matchRules : after.matchRules = before.matchRules
  nextHandler : after.nextHandler = before.nextHandler
  touchedFreed : after.touchedFreed = before.touchedFreed
  rules : ∀ sh, (after.handlers sh).map Handler.rules = (before.handlers sh).map Handler.rules

theorem Keeps.refl (state : State) : Keeps state state := ⟨rfl, rfl, rfl, rfl, fun _ => rfl⟩

theorem Keeps.trans {before between after : State} (first : Keeps before between) (second : Keeps between after) :
    Keeps before after where
  signalHandlers := second.signalHandlers.trans first.signalHandlers
  matchRules := second.matchRules.trans first.matchRules
  nextHandler := second.nextHandler.trans first.nextHandler
  touchedFreed := second.touchedFreed.trans first.touchedFreed
  rules sh := (second.rules sh).trans (first.rules sh)

theorem Keeps.rulesListed {before after : State} (keeps : Keeps before after) (conn : ConnId) :
    after.rulesListed conn = before.rulesListed conn := by
  have same : after.rulesOf = before.rulesOf := by
    funext sh
    rw [State.rulesOf, State.rulesOf, keeps.rules sh]
  rw [State.rulesListed, State.rulesListed, keeps.signalHandlers, same]

theorem Keeps.allocated {before after : State} (keeps : Keeps before after) (sh : HandlerId) :
    (∃ handler, after.handlers sh = some handler) ↔ ∃ handler, before.handlers sh = some handler := by
  have same := congrArg Option.isSome (keeps.rules sh)
  simp only [Option.isSome_map] at same
  rw [← Option.isSome_iff_exists, ← Option.isSome_iff_exists, same]

theorem Registered.keep {after : State} (registered : Registered state) (keeps : Keeps state after) :
    Registered after := by
  constructor
  case untouched => rw [keeps.touchedFreed, registered.untouched]
  case allocated =>
    intro conn sh listed
    rw [keeps.signalHandlers] at listed
    exact (keeps.allocated sh).mpr (registered.allocated conn sh listed)
  case nodup =>
    intro conn
    rw [keeps.signalHandlers]
    exact registered.nodup conn
  case old =>
    rw [keeps.signalHandlers, keeps.nextHandler]
    exact registered.old
  case single =>
    rw [keeps.signalHandlers]
    exact registered.single
  case rules =>
    intro conn
    rw [keeps.matchRules, keeps.rulesListed]
    exact registered.rules conn

/-! ## Adding -/

theorem handlerAdd_marked (state : State) (conn : ConnId) (handler : Handler) (sh : HandlerId) :
    (handlerAdd state conn handler).marked sh =
      if sh = state.nextHandler then handler.deleteMe else state.marked sh := by
  by_cases isNew : sh = state.nextHandler
  · simp [State.marked, handlerAdd, isNew]
  · simp [State.marked, handlerAdd, isNew]

theorem handlerAdd_rulesListed (registered : Registered state) (conn : ConnId) (handler : Handler) (other : ConnId) :
    (handlerAdd state conn handler).rulesListed other =
      state.rulesListed other ++ if other = conn then handler.rules else [] := by
  have listedRules : ∀ sh ∈ state.signalHandlers other,
      (handlerAdd state conn handler).rulesOf sh = state.rulesOf sh := by
    intro sh listed
    have different : sh ≠ state.nextHandler := (registered.old other sh listed).ne
    simp [State.rulesOf, handlerAdd, different]
  have ownRules : (handlerAdd state conn handler).rulesOf state.nextHandler = handler.rules := by
    simp [State.rulesOf, handlerAdd]
  have before : (state.signalHandlers other).flatMap (handlerAdd state conn handler).rulesOf =
      state.rulesListed other := List.flatMap_congr listedRules
  by_cases here : other = conn
  · subst here
    have appended : (handlerAdd state other handler).signalHandlers other =
        state.signalHandlers other ++ [state.nextHandler] := by
      simp [handlerAdd]
    rw [State.rulesListed, appended, List.flatMap_append, before, List.flatMap_singleton, ownRules, if_pos rfl]
  · have same : (handlerAdd state conn handler).signalHandlers other = state.signalHandlers other := by
      simp [handlerAdd, here]
    rw [State.rulesListed, same, before, if_neg here, List.append_nil]

theorem handlerAdd_registered (registered : Registered state) (conn : ConnId) (handler : Handler) :
    Registered (handlerAdd state conn handler) := by
  constructor
  case untouched => exact registered.untouched
  case allocated =>
    intro other sh listed
    simp only [handlerAdd, Function.update_apply]
    split
    · exact ⟨handler, rfl⟩
    · rename_i different
      rcases listed_handlerAdd state listed with ⟨isNew, -⟩ | before
      · exact absurd isNew different
      · exact registered.allocated other sh before
  case nodup =>
    intro other
    by_cases here : other = conn
    · subst here
      have fresh : state.nextHandler ∉ state.signalHandlers other := fun listed =>
        absurd (registered.old other _ listed) (Nat.lt_irrefl _)
      simpa [handlerAdd] using
        (registered.nodup other).append (List.nodup_singleton _) (by simpa using fresh)
    · simpa [handlerAdd, here] using registered.nodup other
  case old => exact handlerAdd_old registered.old conn handler
  case single => exact handlerAdd_single registered.old registered.single conn handler
  case rules =>
    intro other
    rw [handlerAdd_rulesListed registered]
    by_cases here : other = conn
    · subst here
      simpa [handlerAdd] using (registered.rules other).append_right handler.rules
    · simpa [handlerAdd, here] using registered.rules other

/-! ## Deleting -/

theorem handlerDel_nested {sh : HandlerId} {handler : Handler} (found : state.handlers sh = some handler)
    (nested : state.dispatches ≠ []) (conn : ConnId) :
    Keeps state (handlerDel state conn sh) ∧ (handlerDel state conn sh).deletions = true ∧
      (handlerDel state conn sh).dispatches = state.dispatches ∧
      ∀ other, (handlerDel state conn sh).marked other = (state.marked other || decide (other = sh)) := by
  have deleted : handlerDel state conn sh = { state with
      handlers := Function.update state.handlers sh
        (some { handler with pending := false, deleteMe := true })
      deletions := true } := by
    simp [handlerDel, found, nested]
  rw [deleted]
  refine ⟨⟨rfl, rfl, rfl, rfl, fun other => ?_⟩, rfl, rfl, fun other => ?_⟩
  · by_cases here : other = sh
    · subst here
      simp [found, Handler.rules]
    · simp [here]
  · by_cases here : other = sh
    · simp [State.marked, here]
    · simp [State.marked, here]

/-- The rules of a handler are taken off a bus that has them. -/
theorem foldl_erase_perm {rules others bus : List String} (has : bus.Perm (rules ++ others)) :
    (rules.foldl List.erase bus).Perm others := by
  induction rules generalizing bus with
  | nil => exact has
  | cons rule rest ih =>
      apply ih
      have erased := has.erase rule
      simpa using erased

/-- What `e_dbus_signal_handler_del` does when no idler runs. -/
theorem handlerDel_idle {sh : HandlerId} {handler : Handler} (found : state.handlers sh = some handler)
    (idle : state.dispatches = []) (conn : ConnId) :
    handlerDel state conn sh = { state with
      handlers := Function.update state.handlers sh none
      signalHandlers := Function.update state.signalHandlers conn ((state.signalHandlers conn).erase sh)
      matchRules := Function.update state.matchRules conn
        (handler.rules.foldl List.erase (state.matchRules conn)) } := by
  simp [handlerDel, found, idle]

theorem handlerDel_idle_registered (registered : Registered state) {conn : ConnId} {sh : HandlerId}
    (listed : sh ∈ state.signalHandlers conn) (idle : state.dispatches = []) :
    Registered (handlerDel state conn sh) := by
  obtain ⟨handler, found⟩ := registered.allocated conn sh listed
  have narrower : ∀ other sh', sh' ∈ (handlerDel state conn sh).signalHandlers other →
      sh' ∈ state.signalHandlers other ∧ sh' ≠ sh := by
    intro other sh' listed'
    rw [handlerDel_idle found idle] at listed'
    by_cases here : other = conn
    · subst here
      simp only [Function.update_self, (registered.nodup other).mem_erase_iff] at listed'
      exact ⟨listed'.2, listed'.1⟩
    · simp only [ne_eq, here, not_false_eq_true, Function.update_of_ne] at listed'
      refine ⟨listed', ?_⟩
      rintro rfl
      exact here (registered.single other conn sh' listed' listed)
  constructor
  case untouched =>
    rw [handlerDel_idle found idle]
    exact registered.untouched
  case allocated =>
    intro other sh' listed'
    obtain ⟨before, different⟩ := narrower other sh' listed'
    obtain ⟨kept, isKept⟩ := registered.allocated other sh' before
    refine ⟨kept, ?_⟩
    rw [handlerDel_idle found idle]
    simpa [different] using isKept
  case nodup =>
    intro other
    rw [handlerDel_idle found idle]
    by_cases here : other = conn
    · subst here
      simpa using (registered.nodup other).erase sh
    · simpa [here] using registered.nodup other
  case old =>
    intro other sh' listed'
    rw [handlerDel_idle found idle]
    exact registered.old other sh' (narrower other sh' listed').1
  case single =>
    intro first second sh' left right
    exact registered.single first second sh' (narrower first sh' left).1 (narrower second sh' right).1
  case rules =>
    intro other
    have sameRules : ∀ sh' ∈ (handlerDel state conn sh).signalHandlers other,
        (handlerDel state conn sh).rulesOf sh' = state.rulesOf sh' := by
      intro sh' listed'
      have different := (narrower other sh' listed').2
      rw [handlerDel_idle found idle]
      simp [State.rulesOf, different]
    rw [State.rulesListed, List.flatMap_congr sameRules, handlerDel_idle found idle]
    by_cases here : other = conn
    · subst here
      simp only [Function.update_self]
      apply foldl_erase_perm
      have ownRules : state.rulesOf sh = handler.rules := by
        simp [State.rulesOf, found]
      have split : (state.rulesListed other).Perm
          (state.rulesOf sh ++ ((state.signalHandlers other).erase sh).flatMap state.rulesOf) := by
        simpa [State.rulesListed] using (List.perm_cons_erase listed).flatMap_right state.rulesOf
      rw [ownRules] at split
      exact (registered.rules other).trans split
    · simpa [here, State.rulesListed] using registered.rules other

/-! ## Cleaning up -/

theorem handlersClean_unset (unset : state.deletions = false) (conn : ConnId) :
    handlersClean state conn = state := by
  simp [handlersClean, unset]

/-- Below a running idler the loop of `e_dbus_signal_handlers_clean` frees
nothing, and sets the flag again if it finds a handler to delete. -/
theorem clean_nested (conn : ConnId) (rest : List HandlerId) {cleaned : State}
    (nested : cleaned.dispatches ≠ [])
    (allocated : ∀ sh ∈ rest, ∃ handler, cleaned.handlers sh = some handler) :
    Keeps cleaned (rest.foldl (handlerClean conn) cleaned) ∧
      (rest.foldl (handlerClean conn) cleaned).deletions = (cleaned.deletions || rest.any cleaned.marked) ∧
      (rest.foldl (handlerClean conn) cleaned).dispatches = cleaned.dispatches ∧
      (rest.foldl (handlerClean conn) cleaned).marked = cleaned.marked := by
  induction rest generalizing cleaned with
  | nil => exact ⟨.refl cleaned, by simp, rfl, rfl⟩
  | cons sh rest ih =>
      obtain ⟨handler, found⟩ := allocated sh (List.mem_cons_self ..)
      have turn : Keeps cleaned (handlerClean conn cleaned sh) ∧
          (handlerClean conn cleaned sh).deletions = (cleaned.deletions || cleaned.marked sh) ∧
          (handlerClean conn cleaned sh).dispatches = cleaned.dispatches ∧
          (handlerClean conn cleaned sh).marked = cleaned.marked := by
        by_cases isMarked : handler.deleteMe = true
        · have deleted : handlerClean conn cleaned sh = handlerDel cleaned conn sh := by
            simp [handlerClean, found, isMarked]
          have wasMarked : cleaned.marked sh = true := by
            simp [State.marked, found, isMarked]
          obtain ⟨keeps, flag, same, marks⟩ := handlerDel_nested found nested conn
          rw [deleted]
          refine ⟨keeps, by simp [flag, wasMarked], same, funext fun other => ?_⟩
          rw [marks other]
          by_cases here : other = sh
          · simp [here, wasMarked]
          · simp [here]
        · have unchanged : handlerClean conn cleaned sh = cleaned := by
            simp [handlerClean, found, isMarked]
          rw [unchanged]
          exact ⟨.refl cleaned, by simp [State.marked, found, isMarked], rfl, rfl⟩
      obtain ⟨keeps, flag, same, marks⟩ := turn
      have restNested : (handlerClean conn cleaned sh).dispatches ≠ [] := same ▸ nested
      have restAllocated : ∀ other ∈ rest, ∃ handler, (handlerClean conn cleaned sh).handlers other = some handler :=
        fun other listed => (keeps.allocated other).mpr (allocated other (List.mem_cons_of_mem sh listed))
      obtain ⟨keepsLater, flagLater, sameLater, marksLater⟩ := ih restNested restAllocated
      refine ⟨keeps.trans keepsLater, ?_, sameLater.trans same, marksLater.trans marks⟩
      rw [List.foldl_cons, flagLater, flag, marks, List.any_cons, Bool.or_assoc]

theorem handlersClean_nested (registered : Registered state) (nested : state.dispatches ≠ []) (conn : ConnId) :
    Keeps state (handlersClean state conn) ∧ (handlersClean state conn).dispatches = state.dispatches ∧
      (handlersClean state conn).marked = state.marked := by
  cases flag : state.deletions with
  | false =>
      rw [handlersClean_unset flag]
      exact ⟨.refl state, rfl, rfl⟩
  | true =>
      have start : Keeps state { state with deletions := false } := ⟨rfl, rfl, rfl, rfl, fun _ => rfl⟩
      have stillNested : { state with deletions := false }.dispatches ≠ [] := nested
      obtain ⟨keeps, -, same, marks⟩ := clean_nested conn (state.signalHandlers conn) stillNested
        (registered.allocated conn)
      rw [handlersClean, if_pos flag]
      exact ⟨start.trans keeps, same, marks⟩

/-- A nested idler leaves the flag set only if it was, and a handler of its connection waits. -/
theorem handlersClean_nested_deletions (registered : Registered state) (nested : state.dispatches ≠ [])
    (conn : ConnId) :
    (handlersClean state conn).deletions = (state.deletions && (state.signalHandlers conn).any state.marked) := by
  cases flag : state.deletions with
  | false => rw [handlersClean_unset flag, flag, Bool.false_and]
  | true =>
      have stillNested : { state with deletions := false }.dispatches ≠ [] := nested
      obtain ⟨-, left, -, -⟩ := clean_nested conn (state.signalHandlers conn) stillNested (registered.allocated conn)
      rw [handlersClean, if_pos flag, left, Bool.false_or, Bool.true_and]
      rfl

/-- When no idler runs, deleting does not touch the flag. -/
theorem handlerClean_idle (idle : state.dispatches = []) (conn : ConnId) (sh : HandlerId) :
    (handlerClean conn state sh).dispatches = [] ∧ (handlerClean conn state sh).deletions = state.deletions := by
  unfold handlerClean
  split
  · exact ⟨idle, rfl⟩
  · split
    · next handler found _ =>
        rw [handlerDel_idle found idle]
        exact ⟨idle, rfl⟩
    · exact ⟨idle, rfl⟩

/-- The outermost idler leaves the flag unset. -/
theorem handlersClean_idle_deletions (idle : state.dispatches = []) (conn : ConnId) :
    (handlersClean state conn).deletions = false := by
  have kept : ∀ (rest : List HandlerId) (cleaned : State), cleaned.dispatches = [] →
      (rest.foldl (handlerClean conn) cleaned).deletions = cleaned.deletions := by
    intro rest
    induction rest with
    | nil => exact fun _ _ => rfl
    | cons sh rest ih =>
        intro cleaned idle
        obtain ⟨stillIdle, same⟩ := handlerClean_idle idle conn sh
        exact (ih _ stillIdle).trans same
  cases flag : state.deletions with
  | false => rw [handlersClean_unset flag, flag]
  | true =>
      rw [handlersClean, if_pos flag]
      exact kept _ { state with deletions := false } idle

/-- The marked ones among the given handlers of a connection are freed. -/
structure Swept (conn : ConnId) (rest : List HandlerId) (before after : State) : Prop where
  registered : Registered after
  dispatches : after.dispatches = before.dispatches
  nextHandler : after.nextHandler = before.nextHandler
  signalHandlers : ∀ other, after.signalHandlers other =
    if other = conn then (before.signalHandlers conn).filter fun sh => !(rest.contains sh && before.marked sh)
    else before.signalHandlers other
  handlers : ∀ sh, after.handlers sh =
    if sh ∈ rest ∧ before.marked sh = true then none else before.handlers sh

theorem erase_eq_filter_of_nodup {listed : List HandlerId} (nodup : listed.Nodup) (sh : HandlerId) :
    listed.erase sh = listed.filter fun other => !(other == sh) := by
  rw [nodup.erase_eq_filter]
  rfl

/-- When no idler runs, the loop of `e_dbus_signal_handlers_clean` frees the
marked handlers it comes by. -/
theorem clean_idle {conn : ConnId} {rest : List HandlerId} (idle : state.dispatches = [])
    (registered : Registered state) (nodup : rest.Nodup)
    (listed : ∀ sh ∈ rest, sh ∈ state.signalHandlers conn) :
    Swept conn rest state (rest.foldl (handlerClean conn) state) := by
  induction rest generalizing state with
  | nil =>
      refine ⟨registered, rfl, rfl, fun other => ?_, fun sh => by simp⟩
      by_cases here : other = conn
      · simp [here]
      · simp [here]
  | cons sh rest ih =>
      obtain ⟨fresh, nodupRest⟩ := List.nodup_cons.mp nodup
      have isListed : sh ∈ state.signalHandlers conn := listed sh (List.mem_cons_self ..)
      have restListed : ∀ other ∈ rest, other ∈ state.signalHandlers conn := fun other isIn =>
        listed other (List.mem_cons_of_mem sh isIn)
      obtain ⟨handler, found⟩ := registered.allocated conn sh isListed
      rw [List.foldl_cons]
      cases isMarked : handler.deleteMe with
      | false =>
          have unchanged : handlerClean conn state sh = state := by
            simp [handlerClean, found, isMarked]
          have unmarked : state.marked sh = false := by
            simp [State.marked, found, isMarked]
          rw [unchanged]
          obtain ⟨after, dispatches, next, lists, handlers⟩ := ih idle registered nodupRest restListed
          refine ⟨after, dispatches, next, fun other => ?_, fun other => ?_⟩
          · rw [lists other]
            refine if_congr Iff.rfl (List.filter_congr fun other _ => ?_) rfl
            by_cases here : other = sh
            · simp [here, unmarked]
            · simp [here]
          · rw [handlers other]
            by_cases here : other = sh
            · simp [here, unmarked]
            · simp [here]
      | true =>
          have deleted : handlerClean conn state sh = handlerDel state conn sh := by
            simp [handlerClean, found, isMarked]
          have wasMarked : state.marked sh = true := by
            simp [State.marked, found, isMarked]
          have freed := handlerDel_idle found idle conn
          have ownLists : (handlerDel state conn sh).signalHandlers conn = (state.signalHandlers conn).erase sh := by
            rw [freed]
            simp
          have otherMarks : ∀ other, other ≠ sh → (handlerDel state conn sh).marked other = state.marked other := by
            intro other different
            rw [freed]
            simp [State.marked, different]
          rw [deleted]
          have stillIdle : (handlerDel state conn sh).dispatches = [] := by
            rw [freed]
            exact idle
          have stillListed : ∀ other ∈ rest, other ∈ (handlerDel state conn sh).signalHandlers conn := by
            intro other isIn
            rw [ownLists, (registered.nodup conn).mem_erase_iff]
            exact ⟨fun same => fresh (same ▸ isIn), restListed other isIn⟩
          obtain ⟨after, dispatches, next, lists, handlers⟩ :=
            ih stillIdle (handlerDel_idle_registered registered isListed idle) nodupRest stillListed
          refine ⟨after, ?_, ?_, fun other => ?_, fun other => ?_⟩
          · rw [dispatches, freed]
          · rw [next, freed]
          · rw [lists other]
            by_cases here : other = conn
            · subst here
              rw [if_pos rfl, if_pos rfl, ownLists, erase_eq_filter_of_nodup (registered.nodup other),
                List.filter_filter]
              refine List.filter_congr fun sh' _ => ?_
              by_cases same : sh' = sh
              · simp [same, wasMarked]
              · simp [same, otherMarks sh' same]
            · rw [if_neg here, if_neg here, freed]
              simp [here]
          · rw [handlers other]
            by_cases same : other = sh
            · subst same
              rw [if_pos (⟨List.mem_cons_self .., wasMarked⟩ : other ∈ other :: rest ∧ _), if_neg (by simp [fresh]),
                freed]
              simp
            · rw [otherMarks other same, freed]
              simp [same]

/-- What the clean-up of the outermost idler does: nothing if the flag is not
set, and otherwise it frees the marked handlers of its own connection. -/
theorem handlersClean_idle (registered : Registered state) (idle : state.dispatches = []) (conn : ConnId) :
    state.deletions = false ∧ handlersClean state conn = state ∨
      state.deletions = true ∧ Swept conn (state.signalHandlers conn) state (handlersClean state conn) := by
  cases flag : state.deletions with
  | false => exact .inl ⟨rfl, handlersClean_unset flag conn⟩
  | true =>
      refine .inr ⟨rfl, ?_⟩
      have start : Keeps state { state with deletions := false } := ⟨rfl, rfl, rfl, rfl, fun _ => rfl⟩
      have stillIdle : { state with deletions := false }.dispatches = [] := idle
      obtain ⟨after, dispatches, next, lists, handlers⟩ :=
        clean_idle stillIdle (registered.keep start) (registered.nodup conn) fun _ listed => listed
      rw [handlersClean, if_pos flag]
      exact ⟨after, dispatches, next, lists, handlers⟩

end EDBus.Dbus.Signal
