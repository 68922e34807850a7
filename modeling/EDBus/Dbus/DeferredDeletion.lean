import EDBus.Dbus.HandlerDeletion

/-!
# Deletions that were put off

`e_dbus_handler_deletions` is one flag for all connections, and the first idler
that returns clears it for the handlers of its own connection only. `Sweeps` is
when that is enough: it tells from the deletions that were requested and the idlers
that returned what the flag and the marks are (`Tallied`).
-/

namespace EDBus.Dbus.Signal

variable {state : State}

/-- When no idler runs, the handlers whose deletion was requested are off every
list, and each bus has the rules of the handlers that are listed, each once. -/
def Completed (labels : List Label) : Prop :=
  ∀ before, before <+: labels → ∀ state, machine.exec State.initial before = some state →
    state.dispatches = [] → ∀ conn,
      (∀ sh ∈ state.signalHandlers conn, ∀ asked, .handlerDel asked sh ∉ before) ∧
      (state.matchRules conn).Perm (state.rulesListed conn)

/-! ## What the labels tell -/

/-- What matters to the outermost idler: a deletion of a handler of a connection is
requested, or an idler of a connection returns that ran below it. -/
inductive Deed where
  | requests (conn : ConnId)
  | returns (conn : ConnId)
deriving DecidableEq, Repr

/-- The connections of the idlers that run, innermost first, and what happened since
the outermost of them began. -/
structure Idlers where
  running : List ConnId
  deeds : List Deed

/-- One more label. -/
def Idlers.after (idlers : Idlers) : Label → Idlers
  | .dispatch conn _ => { idlers with running := conn :: idlers.running }
  | .handlerDel conn _ =>
    if idlers.running = [] then idlers else { idlers with deeds := idlers.deeds ++ [.requests conn] }
  | .idlerLeave =>
    match idlers.running with
    | [] => idlers
    | [_] => ⟨[], []⟩
    | conn :: outer => ⟨outer, idlers.deeds ++ [.returns conn]⟩
  | _ => idlers

/-- The idlers after some labels. -/
def idlersOf (labels : List Label) : Idlers := labels.foldl Idlers.after ⟨[], []⟩

theorem idlersOf_append (labels : List Label) (label : Label) :
    idlersOf (labels ++ [label]) = (idlersOf labels).after label := by
  simp only [idlersOf, List.foldl_append, List.foldl_cons, List.foldl_nil]

/-- Deletions are requested of handlers of the connection only, and after one of
these requests no idler of another connection returns. -/
structure OwnDeeds (conn : ConnId) (deeds : List Deed) : Prop where
  requests : ∀ other, .requests other ∈ deeds → other = conn
  returns : .requests conn ∈ deeds → ∃ earlier later, deeds = earlier ++ .requests conn :: later ∧
    ∀ other, .returns other ∈ later → other = conn

/-- An outermost idler returns only if its own connection is all that it has to
clean up. -/
def Sweeps (labels : List Label) (label : Label) : Prop :=
  label = .idlerLeave → ∀ conn, (idlersOf labels).running = [conn] → OwnDeeds conn (idlersOf labels).deeds

/-! ## What an outermost idler leaves -/

/-- When the outermost idler returns, the marked handlers are all of its
connection, and if there are any the flag is set. -/
def Finds (state : State) (label : Label) : Prop :=
  label = .idlerLeave → ∀ conn loop inCallback, state.dispatches = [⟨conn, loop, inCallback⟩] →
    ∀ other, ∀ sh ∈ state.signalHandlers other, state.marked sh = true →
      other = conn ∧ state.deletions = true

/-- No handler waits for its deletion when no idler runs. -/
def Settled (state : State) : Prop :=
  state.dispatches = [] → ∀ conn, ∀ sh ∈ state.signalHandlers conn, state.marked sh = false

theorem settled_of_busy (busy : state.dispatches ≠ []) : Settled state := fun idle => absurd idle busy

theorem handlerAdd_settled (registered : Registered state) (settled : Settled state) (conn : ConnId)
    (sender path interface member : Option String) (hasCallback lookupSent : Bool) :
    Settled (handlerAdd state conn (handlerNew sender path interface member hasCallback lookupSent)) := by
  intro idle other sh listed
  rw [handlerAdd_marked]
  rcases listed_handlerAdd state listed with ⟨rfl, -⟩ | before
  · rw [if_pos rfl]
    rfl
  · rw [if_neg (registered.old other sh before).ne]
    exact settled idle other sh before

theorem handlerDel_settled (registered : Registered state) (settled : Settled state) {conn : ConnId} {sh : HandlerId}
    (listed : sh ∈ state.signalHandlers conn) : Settled (handlerDel state conn sh) := by
  obtain ⟨handler, found⟩ := registered.allocated conn sh listed
  by_cases idle : state.dispatches = []
  · intro _ other sh' listed'
    have before := (handlerDel_narrows state conn sh).listed other sh' listed'
    have unmarked := settled idle other sh' before
    rw [handlerDel_idle found idle]
    by_cases same : sh' = sh
    · simp [State.marked, same]
    · simpa [State.marked, same] using unmarked
  · apply settled_of_busy
    rw [(handlerDel_nested found idle conn).2.2.1]
    exact idle

/-- After the sweep of the outermost idler nothing waits exactly if it had
nothing to leave behind. -/
theorem sweep_settled_iff (registered : Registered state) {conn : ConnId} {inCallback : Bool}
    (running : state.dispatches = [⟨conn, none, inCallback⟩]) :
    Settled (handlersClean { state with dispatches := [] } conn) ↔ Finds state .idlerLeave := by
  have popped : Registered { state with dispatches := [] } := registered.keep (pop_keeps state [])
  have findsIff : Finds state .idlerLeave ↔
      ∀ other, ∀ sh ∈ state.signalHandlers other, state.marked sh = true → other = conn ∧ state.deletions = true := by
    constructor
    · intro finds
      exact finds rfl conn none inCallback running
    · intro all _ conn' loop' inCallback' running'
      rw [running, List.cons.injEq, Dispatch.mk.injEq] at running'
      obtain ⟨⟨rfl, -, -⟩, -⟩ := running'
      exact all
  rw [findsIff]
  rcases handlersClean_idle popped rfl conn with ⟨unset, unchanged⟩ | ⟨set, swept⟩
  · rw [unchanged]
    constructor
    · intro settled other sh listed marked
      have unmarked : state.marked sh = false := settled rfl other sh listed
      rw [unmarked] at marked
      cases marked
    · intro all _ other sh listed
      by_contra marked
      have flag := (all other sh listed (eq_true_of_ne_false marked)).2
      rw [show state.deletions = false from unset] at flag
      cases flag
  · constructor
    · intro settled other sh listed marked
      refine ⟨?_, set⟩
      by_contra elsewhere
      have listedAfter : sh ∈ (handlersClean { state with dispatches := [] } conn).signalHandlers other := by
        rw [swept.signalHandlers, if_neg elsewhere]
        exact listed
      have unmarked := settled swept.dispatches other sh listedAfter
      have notSwept : sh ∉ state.signalHandlers conn := fun here =>
        elsewhere (registered.single other conn sh listed here)
      rw [State.marked, swept.handlers, if_neg (fun both => notSwept both.1)] at unmarked
      rw [State.marked, unmarked] at marked
      cases marked
    · intro all _ other sh listed
      by_contra marked
      have before := (handlersClean_narrows { state with dispatches := [] } conn).listed other sh listed
      rw [State.marked, swept.handlers] at marked
      split at marked
      · exact marked rfl
      · rename_i notSwept
        have isMarked : state.marked sh = true := eq_true_of_ne_false marked
        obtain ⟨rfl, -⟩ := all other sh before isMarked
        exact notSwept ⟨before, isMarked⟩

theorem step_settled_iff (label : Label) {next : State} (registered : Registered state) (settled : Settled state)
    (stepped : step state label = some next) : Settled next ↔ Finds state label := by
  cases step_effect registered stepped with
  | added conn sender path interface member hasCallback lookupSent =>
      refine iff_of_true ?_ (by rintro ⟨⟩)
      exact handlerAdd_settled registered settled conn sender path interface member hasCallback lookupSent
  | deleted conn sh runs listed =>
      refine iff_of_true ?_ (by rintro ⟨⟩)
      exact handlerDel_settled registered settled listed
  | begun conn incoming _ runs begins =>
      refine iff_of_true (settled_of_busy ?_) (by rintro ⟨⟩)
      obtain ⟨⟨loop, inCallback, running⟩, -⟩ := dispatchBegin_frame begins
      rw [running]
      exact List.cons_ne_nil _ _
  | turned _ turns =>
      refine iff_of_true (settled_of_busy ?_) (by rintro ⟨⟩)
      cases turns with
      | ended conn message position inCallback outer running atEnd moved =>
          subst moved
          exact List.cons_ne_nil _ _
      | looked conn message position inCallback outer sh handler running located found moved =>
          subst moved
          exact List.cons_ne_nil _ _
  | left conn inCallback outer running =>
      by_cases idle : outer = []
      · subst idle
        exact sweep_settled_iff registered running
      · have popped : Registered { state with dispatches := outer } := registered.keep (pop_keeps state outer)
        refine iff_of_true (settled_of_busy ?_) ?_
        · rw [(handlersClean_nested popped idle conn).2.1]
          exact idle
        · intro _ conn' loop' inCallback' outermost
          rw [running, List.cons.injEq] at outermost
          exact absurd outermost.2 idle

theorem completed_iff_settled (labels : List Label) :
    Completed labels ↔ machine.Throughout Settled State.initial labels := by
  rw [Semantics.Machine.throughout_iff_prefix]
  refine forall_congr' fun before => forall_congr' fun isPrefix => forall_congr' fun state =>
    forall_congr' fun executed => forall_congr' fun idle => forall_congr' fun conn => ?_
  have requested := exec_requested executed
  constructor
  · rintro ⟨gone, -⟩ sh listed
    by_contra marked
    obtain ⟨asked, isIn⟩ := (requested.marked conn sh listed).mp (by simpa using marked)
    exact gone sh listed asked isIn
  · intro unmarked
    refine ⟨fun sh listed asked isIn => ?_, requested.registered.rules conn⟩
    have marked := (requested.marked conn sh listed).mpr ⟨asked, isIn⟩
    rw [unmarked sh listed] at marked
    cases marked

/-! ## The flag and the marks -/

/-- After a request only idlers returned of whose connections a deletion was
requested. -/
def Raised (deeds : List Deed) : Prop :=
  ∃ earlier conn later, deeds = earlier ++ .requests conn :: later ∧
    ∀ other, .returns other ∈ later → .requests other ∈ deeds

theorem raised_append_requests (deeds : List Deed) (conn : ConnId) : Raised (deeds ++ [.requests conn]) :=
  ⟨deeds, conn, [], rfl, fun _ listed => absurd listed List.not_mem_nil⟩

theorem raised_append_returns {deeds : List Deed} {conn : ConnId} :
    Raised (deeds ++ [.returns conn]) ↔ Raised deeds ∧ .requests conn ∈ deeds := by
  have asked : ∀ other, .requests other ∈ deeds ++ [.returns conn] ↔ .requests other ∈ deeds := by
    intro other
    simp
  constructor
  · rintro ⟨earlier, first, later, split, answered⟩
    rcases List.eq_nil_or_concat later with rfl | ⟨later, last, rfl⟩
    · have ends := congrArg List.getLast? split
      simp at ends
    · rw [List.concat_eq_append, ← List.cons_append, ← List.append_assoc] at split
      obtain ⟨same, isLast⟩ := List.append_inj' split rfl
      obtain rfl := List.singleton_inj.mp isLast
      refine ⟨⟨earlier, first, later, same, fun other listed => ?_⟩, ?_⟩
      · exact (asked other).mp (answered other (by simp [listed]))
      · exact (asked conn).mp (answered conn (by simp))
  · rintro ⟨⟨earlier, first, later, split, answered⟩, isAsked⟩
    refine ⟨earlier, first, later ++ [.returns conn], by simp [split], fun other listed => ?_⟩
    rw [asked]
    rcases List.mem_append.mp listed with before | now
    · exact answered other before
    · cases List.mem_singleton.mp now
      exact isAsked

/-- If only handlers of a connection are to be deleted, the flag is set as long as no
idler of another connection returned. -/
theorem raised_iff {conn : ConnId} {deeds : List Deed} (requests : ∀ other, .requests other ∈ deeds → other = conn) :
    Raised deeds ↔ ∃ earlier later, deeds = earlier ++ .requests conn :: later ∧
      ∀ other, .returns other ∈ later → other = conn := by
  constructor
  · rintro ⟨earlier, first, later, split, answered⟩
    obtain rfl : first = conn := requests first (by simp [split])
    exact ⟨earlier, later, split, fun other listed => requests other (answered other listed)⟩
  · rintro ⟨earlier, later, split, own⟩
    refine ⟨earlier, conn, later, split, fun other listed => ?_⟩
    rw [own other listed, split]
    simp

/-- The labels tell which idlers run, of which connections handlers wait for their
deletion, and the flag. -/
structure Tallied (labels : List Label) (state : State) : Prop where
  registered : Registered state
  settled : Settled state
  running : (idlersOf labels).running = state.dispatches.map Dispatch.conn
  resting : state.dispatches = [] → (idlersOf labels).deeds = []
  marked : ∀ conn, (∃ sh ∈ state.signalHandlers conn, state.marked sh = true) ↔
    .requests conn ∈ (idlersOf labels).deeds
  flag : state.deletions = true ↔ Raised (idlersOf labels).deeds

variable {labels : List Label}

/-- The labels tell what the outermost idler finds. -/
theorem Tallied.finds_iff (tallied : Tallied labels state) (label : Label) :
    Finds state label ↔ Sweeps labels label := by
  refine forall_congr' fun _ => ?_
  constructor
  · intro finds conn alone
    have ran : ∃ loop inCallback, state.dispatches = [⟨conn, loop, inCallback⟩] := by
      rw [tallied.running, List.map_eq_singleton_iff] at alone
      obtain ⟨⟨_, loop, inCallback⟩, running, rfl⟩ := alone
      exact ⟨loop, inCallback, running⟩
    obtain ⟨loop, inCallback, running⟩ := ran
    have own : ∀ other, .requests other ∈ (idlersOf labels).deeds → other = conn ∧ state.deletions = true := by
      intro other asked
      obtain ⟨sh, listed, marked⟩ := (tallied.marked other).mpr asked
      exact finds conn loop inCallback running other sh listed marked
    have requests := fun other asked => (own other asked).1
    exact ⟨requests, fun asked => (raised_iff requests).mp (tallied.flag.mp (own conn asked).2)⟩
  · intro sweeps conn loop inCallback running other sh listed marked
    obtain ⟨requests, returns⟩ := sweeps conn (by rw [tallied.running, running]; rfl)
    have asked := (tallied.marked other).mp ⟨sh, listed, marked⟩
    obtain rfl := requests other asked
    exact ⟨rfl, tallied.flag.mpr ((raised_iff requests).mpr (returns asked))⟩

/-- A step that leaves the marks and the flag alone. -/
theorem Tallied.keep (tallied : Tallied labels state) {label : Label} {next : State} (registered : Registered next)
    (settled : Settled next) (deeds : (idlersOf (labels ++ [label])).deeds = (idlersOf labels).deeds)
    (running : (idlersOf (labels ++ [label])).running = next.dispatches.map Dispatch.conn)
    (started : next.dispatches = [] → state.dispatches = [])
    (marked : ∀ conn, (∃ sh ∈ next.signalHandlers conn, next.marked sh = true) ↔
      ∃ sh ∈ state.signalHandlers conn, state.marked sh = true)
    (deletions : next.deletions = state.deletions) : Tallied (labels ++ [label]) next where
  registered := registered
  settled := settled
  running := running
  resting idle := deeds.trans (tallied.resting (started idle))
  marked conn := by rw [marked, deeds, tallied.marked]
  flag := by rw [deletions, deeds, tallied.flag]

theorem step_tallied {label : Label} {next : State} (tallied : Tallied labels state)
    (stepped : step state label = some next) (settled : Settled next) : Tallied (labels ++ [label]) next := by
  have registered := tallied.registered
  have registeredNext := step_registered label registered stepped
  have idlers := idlersOf_append labels label
  cases step_effect registered stepped with
  | added conn sender path interface member hasCallback lookupSent =>
      refine tallied.keep registeredNext settled (congrArg Idlers.deeds idlers)
        ((congrArg Idlers.running idlers).trans tallied.running) id (fun other => ?_) rfl
      constructor
      · rintro ⟨sh, listed, marked⟩
        rw [handlerAdd_marked] at marked
        rcases listed_handlerAdd state listed with ⟨rfl, -⟩ | before
        · rw [if_pos rfl] at marked
          cases marked
        · rw [if_neg (registered.old other sh before).ne] at marked
          exact ⟨sh, before, marked⟩
      · rintro ⟨sh, listed, marked⟩
        refine ⟨sh, ?_, ?_⟩
        · exact ((handlerAdd_grows state conn _).lists other).subset listed
        · rw [handlerAdd_marked, if_neg (registered.old other sh listed).ne]
          exact marked
  | deleted conn sh runs listed =>
      obtain ⟨handler, found⟩ := registered.allocated conn sh listed
      have running := tallied.running
      by_cases idle : state.dispatches = []
      · have freed := handlerDel_idle found idle conn
        have none : (idlersOf labels).running = [] := by rw [running, idle, List.map_nil]
        have same : idlersOf (labels ++ [.handlerDel conn sh]) = idlersOf labels := by
          rw [idlers, Idlers.after, if_pos none]
        have stillIdle : (handlerDel state conn sh).dispatches = [] := by
          rw [freed]
          exact idle
        refine tallied.keep registeredNext settled (by rw [same]) (by rw [same, none, stillIdle, List.map_nil])
          (fun _ => idle) (fun other => ?_) (by rw [freed])
        refine iff_of_false ?_ ?_
        · rintro ⟨sh', listed', marked⟩
          rw [settled stillIdle other sh' listed'] at marked
          cases marked
        · rintro ⟨sh', listed', marked⟩
          rw [tallied.settled idle other sh' listed'] at marked
          cases marked
      · obtain ⟨keeps, raised, same, marks⟩ := handlerDel_nested found idle conn
        have some : (idlersOf labels).running ≠ [] := by
          rw [running]
          exact fun none => idle (List.map_eq_nil_iff.mp none)
        have after : idlersOf (labels ++ [.handlerDel conn sh]) =
            { idlersOf labels with deeds := (idlersOf labels).deeds ++ [.requests conn] } := by
          rw [idlers, Idlers.after, if_neg some]
        refine ⟨registeredNext, settled, ?_, fun stopped => ?_, fun other => ?_, ?_⟩
        · rw [after, same]
          exact running
        · exact absurd (same.symm.trans stopped) idle
        · rw [after, List.mem_append, ← tallied.marked other, List.mem_singleton, keeps.signalHandlers]
          constructor
          · rintro ⟨sh', listed', marked⟩
            rw [marks, Bool.or_eq_true, decide_eq_true_eq] at marked
            rcases marked with before | rfl
            · exact .inl ⟨sh', listed', before⟩
            · exact .inr (by rw [registered.single other conn sh' listed' listed])
          · rintro (⟨sh', listed', before⟩ | ⟨⟨⟩⟩)
            · exact ⟨sh', listed', by rw [marks, before, Bool.true_or]⟩
            · exact ⟨sh, listed, by rw [marks, decide_eq_true rfl, Bool.or_true]⟩
        · rw [after]
          exact iff_of_true raised (raised_append_requests _ conn)
  | begun conn incoming _ runs begins =>
      obtain ⟨keeps, marks⟩ := dispatchBegin_keeps begins
      obtain ⟨⟨loop, inCallback, running⟩, flag⟩ := dispatchBegin_frame begins
      refine tallied.keep registeredNext settled (by rw [idlers]; rfl) ?_ ?_ (fun other => ?_) flag
      · rw [idlers, running, List.map_cons, ← tallied.running]
        rfl
      · intro none
        rw [running] at none
        cases none
      · rw [keeps.signalHandlers, marks]
  | turned _ turns =>
      obtain ⟨keeps, marks, -⟩ := turns.keeps
      have conns : next.dispatches.map Dispatch.conn = state.dispatches.map Dispatch.conn ∧
          next.deletions = state.deletions := by
        cases turns with
        | ended conn message position inCallback outer running atEnd moved =>
            rw [moved, running]
            exact ⟨rfl, rfl⟩
        | looked conn message position inCallback outer sh handler running located found moved =>
            rw [moved, running]
            exact ⟨rfl, rfl⟩
      refine tallied.keep registeredNext settled (congrArg Idlers.deeds idlers) ?_ ?_ (fun other => ?_) conns.2
      · rw [idlers, conns.1, ← tallied.running]
        rfl
      · intro none
        rw [← List.map_eq_nil_iff (f := Dispatch.conn), ← conns.1, none, List.map_nil]
      · rw [keeps.signalHandlers, marks]
  | left conn inCallback outer running =>
      have popped : Registered { state with dispatches := outer } := registered.keep (pop_keeps state outer)
      have conns := tallied.running
      rw [running, List.map_cons] at conns
      by_cases idle : outer = []
      · subst idle
        have reset : idlersOf (labels ++ [.idlerLeave]) = ⟨[], []⟩ := by
          rw [idlers, Idlers.after, conns]
          rfl
        have stopped : (handlersClean { state with dispatches := [] } conn).dispatches = [] := by
          rcases handlersClean_idle popped rfl conn with ⟨-, unchanged⟩ | ⟨-, swept⟩
          · rw [unchanged]
          · exact swept.dispatches
        refine ⟨registeredNext, settled, ?_, fun _ => ?_, fun other => ?_, ?_⟩
        · rw [reset, stopped, List.map_nil]
        · rw [reset]
        · rw [reset]
          refine iff_of_false ?_ List.not_mem_nil
          rintro ⟨sh, listed, marked⟩
          rw [settled stopped other sh listed] at marked
          cases marked
        · have unset : (handlersClean { state with dispatches := [] } conn).deletions = false :=
            handlersClean_idle_deletions rfl conn
          rw [reset, unset]
          refine iff_of_false Bool.false_ne_true ?_
          rintro ⟨earlier, first, later, split, -⟩
          simp at split
      · obtain ⟨keeps, same, marks⟩ := handlersClean_nested popped idle conn
        have after : idlersOf (labels ++ [.idlerLeave]) =
            ⟨outer.map Dispatch.conn, (idlersOf labels).deeds ++ [.returns conn]⟩ := by
          rw [idlers, Idlers.after, conns]
          cases outer with
          | nil => exact absurd rfl idle
          | cons first rest => rfl
        have unchanged : ∀ other, .requests other ∈ (idlersOf labels).deeds ++ [.returns conn] ↔
            .requests other ∈ (idlersOf labels).deeds := by
          intro other
          simp
        refine ⟨registeredNext, settled, ?_, fun stopped => ?_, fun other => ?_, ?_⟩
        · rw [after, same]
        · exact absurd (same.symm.trans stopped) idle
        · rw [after, unchanged, ← tallied.marked other, keeps.signalHandlers, marks]
          rfl
        · rw [after, raised_append_returns, handlersClean_nested_deletions popped idle, Bool.and_eq_true,
            List.any_eq_true, ← tallied.marked conn, ← tallied.flag]
          rfl

theorem initial_tallied : Tallied [] State.initial where
  registered := initial_registered
  settled _ _ _ listed := by cases listed
  running := rfl
  resting _ := rfl
  marked _ := iff_of_false (fun ⟨_, listed, _⟩ => by cases listed) List.not_mem_nil
  flag := by
    refine iff_of_false Bool.false_ne_true ?_
    rintro ⟨earlier, first, later, split, -⟩
    simp [idlersOf] at split

/-- The deletions of a run are all completed exactly if every outermost idler was
asked to delete handlers of its own connection only, and no idler of another one
returned after the last request. -/
theorem completed_iff (labels : List Label) :
    Completed labels ↔
      machine.recording.Along (fun recorded label _ => Sweeps recorded.1 label) ([], State.initial) labels := by
  rw [completed_iff_settled, ← Semantics.Machine.throughout_recording]
  apply Semantics.Machine.throughout_iff_along fun recorded => Tallied recorded.1 recorded.2
  case decides =>
    rintro ⟨before, state⟩ label recorded tallied stepped
    obtain ⟨next, taken, rfl⟩ := Option.map_eq_some_iff.mp stepped
    rw [← tallied.finds_iff]
    exact step_settled_iff label tallied.registered tallied.settled taken
  case keeps =>
    rintro ⟨before, state⟩ label recorded tallied stepped sweeps
    obtain ⟨next, taken, rfl⟩ := Option.map_eq_some_iff.mp stepped
    have settled := (step_settled_iff label tallied.registered tallied.settled taken).mpr
      ((tallied.finds_iff label).mpr sweeps)
    exact step_tallied tallied taken settled
  case initial => exact initial_tallied
  case good => exact fun _ _ _ listed => by cases listed

/-- A callback on one connection deletes a handler of another. -/
theorem completed_fails_otherConnection : ¬ ∀ labels, Completed labels := by
  intro completed
  have gone := completed
    [.handlerAdd 1 none none none none true false, .dispatch 0 .other, .handlerDel 1 0, .idlerLeave]
    _ (List.prefix_refl _) _ rfl rfl 1
  exact gone.1 0 (List.mem_singleton.mpr rfl) 1 (by simp)

/-- A nested idler on another connection clears the flag before the handler's own. -/
example : ¬ Completed [.handlerAdd 0 none none none none true false, .dispatch 0 .other, .handlerDel 0 0,
    .dispatch 1 .other, .idlerLeave, .idlerLeave] := by
  intro completed
  have gone := completed _ (List.prefix_refl _) _ rfl rfl 0
  exact gone.1 0 (List.mem_singleton.mpr rfl) 0 (by simp)

end EDBus.Dbus.Signal
