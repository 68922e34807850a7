import EDBus.Dbus.Connection
import Mathlib.Tactic.Linarith

/-!
# When reference counts stay balanced

`Accounted` is the invariant of the runs that went well so far: the refcount of
a live connection lacks the closes already carried out, and the deferred ones
are still to come. `replayCloses_spec` says what the loop of the outermost idler
does to its connection, and with it `step_balanced_iff` decides whether a step
keeps the accounts balanced.
-/

namespace EDBus.Dbus.Connection

variable {state : State}

/-- Connections, counts and tables agree, with the closes of `owed` still to be
carried out. -/
structure Owing (state : State) (owed : List ConnId) : Prop where
  untouched : state.touchedFreed = false
  live : ∀ conn record, state.conns conn = some record → 1 ≤ record.refcount ∧
    record.refcount + state.requested conn = state.acquired conn + owed.count conn
  torn : ∀ conn, conn < state.nextConn → state.conns conn = none →
    state.requested conn = state.acquired conn + owed.count conn
  fresh : ∀ conn, state.nextConn ≤ conn →
    state.conns conn = none ∧ state.acquired conn = 0 ∧ state.requested conn = 0
  owedOld : ∀ conn ∈ owed, conn < state.nextConn
  objectsOld : ∀ object conn, state.objects object = some conn → conn < state.nextConn
  idlersLive : ∀ conn ∈ state.idlers, state.conns conn ≠ none
  sharedLive : ∀ type conn, state.sharedConnections type = some conn →
    ∃ record, state.conns conn = some record ∧ record.sharedType = some type
  sharedSlot : ∀ conn record type, state.conns conn = some record →
    record.sharedType = some type → state.sharedConnections type = some conn

/-- What holds while every step was orderly. -/
structure Accounted (state : State) : Prop extends Owing state state.deferred where
  counted : state.closeConnection = state.deferred.length
  settled : state.idlers = [] → state.deferred = []

theorem Owing.old {owed : List ConnId} (owing : Owing state owed) {conn : ConnId}
    (found : state.conns conn ≠ none) : conn < state.nextConn := by
  by_contra young
  exact found (owing.fresh conn (Nat.le_of_not_lt young)).1

/-- With nothing owed the accounts balance. -/
theorem Owing.balanced (owing : Owing state []) : Balanced state := by
  refine ⟨owing.untouched, ?_, ?_⟩
  · intro _ conn record found
    have kept := (owing.live conn record found).2
    rw [List.count_nil] at kept
    omega
  · intro _ conn old
    cases found : state.conns conn with
    | none =>
        have kept := owing.torn conn old found
        rw [List.count_nil] at kept
        exact iff_of_true rfl (by omega)
    | some record =>
        have kept := owing.live conn record found
        rw [List.count_nil] at kept
        exact iff_of_false (by simp) (by omega)

theorem Accounted.balanced (accounted : Accounted state) : Balanced state := by
  by_cases idle : state.idlers = []
  · have owing := accounted.toOwing
    rw [accounted.settled idle] at owing
    exact owing.balanced
  · exact ⟨accounted.untouched, fun isIdle => absurd isIdle idle, fun isIdle => absurd isIdle idle⟩

theorem initial_accounted : Accounted State.initial := by
  constructor
  · constructor <;> simp [State.initial]
  · rfl
  · intro _
    rfl

/-! ## Acquiring -/

/-- The counts of one live connection change and still agree. -/
theorem Owing.recount {owed later : List ConnId} (owing : Owing state owed) {conn : ConnId}
    {record : SharedConnection} (found : state.conns conn = some record) {refcount : Int} {acquired : ConnId → Nat}
    (positive : 1 ≤ refcount) (balance : refcount + state.requested conn = acquired conn + later.count conn)
    (others : ∀ other, other ≠ conn → acquired other = state.acquired other ∧ later.count other = owed.count other)
    (owedOld : ∀ other ∈ later, other < state.nextConn) :
    Owing
      { state with
        conns := Function.update state.conns conn (some { record with refcount := refcount })
        acquired := acquired } later := by
  have old : conn < state.nextConn := owing.old (by simp [found])
  constructor <;> simp only [Function.update_apply]
  case untouched => exact owing.untouched
  case live =>
    intro other otherRecord alive
    split at alive
    · next here =>
        obtain rfl := Option.some.inj alive
        exact here ▸ ⟨positive, balance⟩
    · next different =>
        obtain ⟨sameAcquired, sameOwed⟩ := others other different
        rw [sameAcquired, sameOwed]
        exact owing.live other otherRecord alive
  case torn =>
    intro other isOld gone
    split at gone
    · cases gone
    · next different =>
        obtain ⟨sameAcquired, sameOwed⟩ := others other different
        rw [sameAcquired, sameOwed]
        exact owing.torn other isOld gone
  case fresh =>
    intro other young
    have different : other ≠ conn := Nat.ne_of_gt (Nat.lt_of_lt_of_le old young)
    rw [if_neg different, (others other different).1]
    exact owing.fresh other young
  case owedOld => exact owedOld
  case objectsOld => exact owing.objectsOld
  case idlersLive =>
    intro other running
    split
    · exact Option.some_ne_none _
    · exact owing.idlersLive other running
  case sharedLive =>
    intro type other slot
    obtain ⟨shared, alive, sharedType⟩ := owing.sharedLive type other slot
    by_cases same : other = conn
    · subst same
      obtain rfl : record = shared := Option.some.inj (found.symm.trans alive)
      exact ⟨_, if_pos rfl, sharedType⟩
    · exact ⟨shared, by rw [if_neg same, alive], sharedType⟩
  case sharedSlot =>
    intro other otherRecord type alive sharedType
    split at alive
    · next here =>
        obtain rfl := Option.some.inj alive
        exact here ▸ owing.sharedSlot conn record type found sharedType
    · exact owing.sharedSlot other otherRecord type alive sharedType

theorem connectionRef_owing {owed : List ConnId} (owing : Owing state owed) {conn : ConnId}
    (found : state.conns conn ≠ none) : Owing (connectionRef state conn) owed := by
  obtain ⟨record, found⟩ := Option.ne_none_iff_exists'.mp found
  obtain ⟨positive, balance⟩ := owing.live conn record found
  simp only [connectionRef, found]
  refine owing.recount found (by omega) ?_ ?_ owing.owedOld
  · rw [Function.update_self]
    push_cast
    omega
  · intro other different
    exact ⟨Function.update_of_ne different .., rfl⟩

@[simp] theorem connectionRef_deferred (state : State) (conn : ConnId) :
    (connectionRef state conn).deferred = state.deferred := by
  unfold connectionRef
  split <;> rfl

@[simp] theorem connectionRef_closeConnection (state : State) (conn : ConnId) :
    (connectionRef state conn).closeConnection = state.closeConnection := by
  unfold connectionRef
  split <;> rfl

@[simp] theorem connectionRef_idlers (state : State) (conn : ConnId) :
    (connectionRef state conn).idlers = state.idlers := by
  unfold connectionRef
  split <;> rfl

@[simp] theorem connectionRef_nextConn (state : State) (conn : ConnId) :
    (connectionRef state conn).nextConn = state.nextConn := by
  unfold connectionRef
  split <;> rfl

theorem connectionRef_accounted (accounted : Accounted state) {conn : ConnId}
    (found : state.conns conn ≠ none) : Accounted (connectionRef state conn) where
  toOwing := by
    rw [connectionRef_deferred]
    exact connectionRef_owing accounted.toOwing found
  counted := by simpa using accounted.counted
  settled := by simpa using accounted.settled

theorem connectionRef_dead {conn : ConnId} (gone : state.conns conn = none) :
    (connectionRef state conn).touchedFreed = true := by
  simp only [connectionRef, gone]

/-- `e_dbus_connection_setup` leaves a connection with refcount 0, which the
caller acquires at once. -/
theorem connectionSetup_ref_accounted (accounted : Accounted state) (type : BusType)
    (vacant : type.isShared = true → state.sharedConnections type = none) :
    Accounted (connectionRef (connectionSetup state type) state.nextConn) := by
  obtain ⟨⟨untouched, live, torn, fresh, owedOld, objectsOld, idlersLive, sharedLive, sharedSlot⟩,
    counted, settled⟩ := accounted
  have unlisted : state.nextConn ∉ state.deferred := fun listed =>
    absurd (owedOld _ listed) (Nat.lt_irrefl _)
  have uncounted : state.deferred.count state.nextConn = 0 := List.count_eq_zero_of_not_mem unlisted
  have vacantConn := fresh state.nextConn (Nat.le_refl _)
  have elsewhere : ∀ conn, state.conns conn ≠ none → conn ≠ state.nextConn := by
    rintro conn alive rfl
    exact alive vacantConn.1
  simp only [connectionRef, connectionSetup, Function.update_self]
  refine ⟨?_, counted, settled⟩
  constructor <;> simp only [Function.update_apply]
  case untouched => exact untouched
  case live =>
    intro conn record alive
    by_cases here : conn = state.nextConn
    · subst here
      rw [if_pos rfl, Option.some.injEq] at alive
      subst alive
      rw [if_pos rfl, uncounted, vacantConn.2.1, vacantConn.2.2]
      simp
    · rw [if_neg here, if_neg here] at alive
      rw [if_neg here]
      exact live conn record alive
  case torn =>
    intro conn old gone
    by_cases here : conn = state.nextConn
    · rw [if_pos here] at gone
      cases gone
    · rw [if_neg here, if_neg here] at gone
      rw [if_neg here]
      exact torn conn (Nat.lt_of_le_of_ne (Nat.le_of_lt_succ old) here) gone
  case fresh =>
    intro conn young
    have here : conn ≠ state.nextConn := Nat.ne_of_gt young
    rw [if_neg here, if_neg here, if_neg here]
    exact fresh conn (Nat.le_of_succ_le young)
  case owedOld =>
    intro conn owed
    exact Nat.lt_succ_of_lt (owedOld conn owed)
  case objectsOld =>
    intro object conn owner
    exact Nat.lt_succ_of_lt (objectsOld object conn owner)
  case idlersLive =>
    intro conn running
    have alive := idlersLive conn running
    rw [if_neg (elsewhere conn alive), if_neg (elsewhere conn alive)]
    exact alive
  case sharedLive =>
    intro other conn slot
    by_cases fits : type.isShared = true ∧ other = type
    · obtain ⟨shared, rfl⟩ := fits
      obtain rfl : state.nextConn = conn := by simpa [shared] using slot
      exact ⟨_, if_pos rfl, if_pos shared⟩
    · have before : state.sharedConnections other = some conn := by
        cases shared : type.isShared with
        | false => simpa [shared] using slot
        | true =>
            have different : other ≠ type := fun same => fits ⟨shared, same⟩
            simpa [shared, Function.update_of_ne different] using slot
      obtain ⟨record, alive, sharedType⟩ := sharedLive other conn before
      have old := elsewhere conn (by simp [alive])
      exact ⟨record, by rw [if_neg old, if_neg old, alive], sharedType⟩
  case sharedSlot =>
    intro conn record other alive sharedType
    by_cases here : conn = state.nextConn
    · subst here
      rw [if_pos rfl, Option.some.injEq] at alive
      subst alive
      simp only [Option.ite_none_right_eq_some, Option.some.injEq] at sharedType
      obtain ⟨shared, rfl⟩ := sharedType
      rw [if_pos shared, Function.update_self]
    · rw [if_neg here, if_neg here] at alive
      have listed := sharedSlot conn record other alive sharedType
      cases shared : type.isShared with
      | false => simpa [shared] using listed
      | true =>
          have different : other ≠ type := by
            rintro rfl
            rw [vacant shared] at listed
            cases listed
          simpa [shared, Function.update_of_ne different] using listed

theorem busGet_accounted (accounted : Accounted state) (type : BusType) (connected : Bool) :
    Accounted (busGet state type connected) := by
  unfold busGet
  split
  · rename_i conn slot
    have listed : state.sharedConnections type = some conn := by
      cases shared : type.isShared <;> simp_all
    obtain ⟨record, alive, _⟩ := accounted.sharedLive type conn listed
    exact connectionRef_accounted accounted (by simp [alive])
  · rename_i slot
    cases connected with
    | false => exact accounted
    | true =>
        exact connectionSetup_ref_accounted accounted type fun shared => by
          simpa [shared] using slot

theorem touch_of_live {conn : ConnId} (found : state.conns conn ≠ none) :
    touch state conn = state := by
  have alive : (state.conns conn).isNone = false := by
    rw [Option.isNone_eq_false_iff]
    exact Option.isSome_iff_ne_none.mpr found
  simp [touch, alive]

theorem objectAdd_accounted (accounted : Accounted state) {conn : ConnId}
    (found : state.conns conn ≠ none) (registered : Bool) :
    Accounted (objectAdd state conn registered) := by
  unfold objectAdd
  rw [touch_of_live found]
  cases registered with
  | false => exact accounted
  | true =>
      have acquired := connectionRef_accounted accounted found
      refine { acquired with objectsOld := ?_ }
      simp only [if_true, Function.update_apply, connectionRef_nextConn]
      intro object other owned
      split at owned
      · obtain rfl : conn = other := by simpa using owned
        exact accounted.old found
      · exact accounted.objectsOld object other owned

/-! ## Closing -/

theorem connectionFree_sharedConnections (state : State) (conn : ConnId)
    (record : SharedConnection) (type : BusType) :
    (connectionFree state conn record).sharedConnections type =
      if record.sharedType = some type then none else state.sharedConnections type := by
  unfold connectionFree
  cases shared : record.sharedType with
  | none => simp
  | some own => simp [Function.update_apply, eq_comm]

/-- A close outside of all dispatches, by what remains of the refcount. -/
theorem connectionClose_idle (idle : state.idlers = []) {conn : ConnId} {record : SharedConnection}
    (found : state.conns conn = some record) :
    connectionClose state conn =
      if record.refcount = 1 then connectionFree state conn record
      else
        { state with
          conns := Function.update state.conns conn
            (some { record with refcount := record.refcount - 1 }) } := by
  simp only [connectionClose, idle, found, List.isEmpty_nil, if_true]
  by_cases last : record.refcount = 1
  · simp [last]
  · have more : record.refcount - 1 ≠ 0 := by omega
    simp [last, more]

theorem connectionClose_dead (idle : state.idlers = []) {conn : ConnId}
    (gone : state.conns conn = none) : (connectionClose state conn).touchedFreed = true := by
  simp [connectionClose, idle, gone]

/-- What a close is: a touch of freed memory, a count taken, a connection freed or a close deferred. -/
theorem connectionClose_cases (state : State) (conn : ConnId) :
    connectionClose state conn = { state with touchedFreed := true } ∨
      (∃ record, connectionClose state conn =
        { state with conns := Function.update state.conns conn (some record) }) ∨
      (∃ record, connectionClose state conn = connectionFree state conn record) ∨
      state.idlers ≠ [] ∧ connectionClose state conn =
        { state with closeConnection := state.closeConnection + 1, deferred := conn :: state.deferred } := by
  unfold connectionClose
  split
  · split
    · exact .inl rfl
    · dsimp only
      split
      · exact .inr (.inl ⟨_, rfl⟩)
      · exact .inr (.inr (.inl ⟨_, rfl⟩))
  · next busy => exact .inr (.inr (.inr ⟨by simpa using busy, rfl⟩))

@[simp] theorem connectionClose_idlers (state : State) (conn : ConnId) :
    (connectionClose state conn).idlers = state.idlers := by
  obtain closed | ⟨_, closed⟩ | ⟨_, closed⟩ | ⟨_, closed⟩ := connectionClose_cases state conn <;>
    exact (congrArg State.idlers closed).trans rfl

@[simp] theorem connectionClose_acquired (state : State) (conn : ConnId) :
    (connectionClose state conn).acquired = state.acquired := by
  obtain closed | ⟨_, closed⟩ | ⟨_, closed⟩ | ⟨_, closed⟩ := connectionClose_cases state conn <;>
    exact (congrArg State.acquired closed).trans rfl

@[simp] theorem connectionClose_requested (state : State) (conn : ConnId) :
    (connectionClose state conn).requested = state.requested := by
  obtain closed | ⟨_, closed⟩ | ⟨_, closed⟩ | ⟨_, closed⟩ := connectionClose_cases state conn <;>
    exact (congrArg State.requested closed).trans rfl

@[simp] theorem connectionClose_nextConn (state : State) (conn : ConnId) :
    (connectionClose state conn).nextConn = state.nextConn := by
  obtain closed | ⟨_, closed⟩ | ⟨_, closed⟩ | ⟨_, closed⟩ := connectionClose_cases state conn <;>
    exact (congrArg State.nextConn closed).trans rfl

theorem connectionClose_idle_deferred (idle : state.idlers = []) (conn : ConnId) :
    (connectionClose state conn).deferred = state.deferred ∧
      (connectionClose state conn).closeConnection = state.closeConnection := by
  obtain closed | ⟨_, closed⟩ | ⟨_, closed⟩ | ⟨busy, _⟩ := connectionClose_cases state conn
  · exact closed ▸ ⟨rfl, rfl⟩
  · exact closed ▸ ⟨rfl, rfl⟩
  · exact closed ▸ ⟨rfl, rfl⟩
  · exact absurd idle busy

theorem connectionClose_other {conn other : ConnId} (different : other ≠ conn) :
    (connectionClose state conn).conns other = state.conns other := by
  unfold connectionClose connectionFree
  split
  · split
    · rfl
    · simp only
      split <;> simp [different]
  · rfl

/-- During a dispatch a close is only counted. -/
theorem connectionClose_busy (busy : state.idlers ≠ []) (conn : ConnId) :
    connectionClose state conn =
      { state with
        closeConnection := state.closeConnection + 1
        deferred := conn :: state.deferred } := by
  simp [connectionClose, busy]

/-- The last reference is given back. -/
theorem connectionFree_owing {conn : ConnId} {owed : List ConnId} (owing : Owing state (conn :: owed))
    (idle : state.idlers = []) {record : SharedConnection} (found : state.conns conn = some record)
    (last : record.refcount = 1) : Owing (connectionFree state conn record) owed := by
  obtain ⟨-, balance⟩ := owing.live conn record found
  rw [List.count_cons_self, last] at balance
  have countOther : ∀ other, other ≠ conn → (conn :: owed).count other = owed.count other :=
    fun other different => List.count_cons_of_ne different.symm
  have kept : ∀ other, other ≠ conn → (connectionFree state conn record).conns other = state.conns other :=
    fun other different => Function.update_of_ne different ..
  have gone : (connectionFree state conn record).conns conn = none := Function.update_self ..
  have remaining : ∀ other otherRecord, (connectionFree state conn record).conns other = some otherRecord →
      other ≠ conn ∧ state.conns other = some otherRecord := by
    intro other otherRecord alive
    have different : other ≠ conn := by
      rintro rfl
      rw [gone] at alive
      cases alive
    exact ⟨different, kept other different ▸ alive⟩
  constructor
  case untouched => exact owing.untouched
  case live =>
    intro other otherRecord alive
    obtain ⟨different, alive⟩ := remaining other otherRecord alive
    rw [← countOther other different]
    exact owing.live other otherRecord alive
  case torn =>
    intro other old dead
    by_cases here : other = conn
    · subst here
      have counts : state.requested other = state.acquired other + owed.count other := by
        push_cast at balance
        omega
      exact counts
    · rw [← countOther other here]
      exact owing.torn other old (kept other here ▸ dead)
  case fresh =>
    intro other young
    obtain ⟨unborn, counts⟩ := owing.fresh other young
    have different : other ≠ conn := by
      rintro rfl
      rw [found] at unborn
      cases unborn
    exact ⟨(kept other different).trans unborn, counts⟩
  case owedOld => exact fun other later => owing.owedOld other (.tail _ later)
  case objectsOld => exact owing.objectsOld
  case idlersLive =>
    intro other running
    have nobody : (connectionFree state conn record).idlers = [] := idle
    rw [nobody] at running
    cases running
  case sharedLive =>
    intro type other slot
    rw [connectionFree_sharedConnections] at slot
    split at slot
    · cases slot
    · next different =>
        obtain ⟨shared, alive, sharedType⟩ := owing.sharedLive type other slot
        have elsewhere : other ≠ conn := by
          rintro rfl
          obtain rfl : record = shared := Option.some.inj (found.symm.trans alive)
          exact different sharedType
        exact ⟨shared, (kept other elsewhere).trans alive, sharedType⟩
  case sharedSlot =>
    intro other otherRecord type alive sharedType
    obtain ⟨different, alive⟩ := remaining other otherRecord alive
    have slot := owing.sharedSlot other otherRecord type alive sharedType
    rw [connectionFree_sharedConnections]
    split
    · next own =>
        have same := owing.sharedSlot conn record type found own
        exact absurd (Option.some.inj (slot.symm.trans same)) different
    · exact slot

/-- One owed close is carried out. -/
theorem connectionClose_owing {conn : ConnId} {owed : List ConnId}
    (owing : Owing state (conn :: owed)) (idle : state.idlers = [])
    (found : state.conns conn ≠ none) : Owing (connectionClose state conn) owed := by
  obtain ⟨record, found⟩ := Option.ne_none_iff_exists'.mp found
  obtain ⟨positive, balance⟩ := owing.live conn record found
  rw [List.count_cons_self] at balance
  rw [connectionClose_idle idle found]
  split
  · next last => exact connectionFree_owing owing idle found last
  · next more =>
      refine owing.recount found (by omega) ?_ ?_ fun other later => owing.owedOld other (.tail _ later)
      · push_cast at balance
        omega
      · intro other different
        exact ⟨rfl, (List.count_cons_of_ne different.symm).symm⟩

/-- The loop of the outermost idler carries out all owed closes if they are
closes of its connection and no more than the connection has references. -/
theorem replayCloses_owing {conn : ConnId} {owed : List ConnId} (owing : Owing state owed)
    (idle : state.idlers = []) (own : ∀ other ∈ owed, other = conn)
    (covered : ∀ record, state.conns conn = some record → (owed.length : Int) ≤ record.refcount)
    (found : owed = [] ∨ state.conns conn ≠ none) :
    Owing (replayCloses owed.length state conn) [] := by
  induction owed generalizing state with
  | nil => exact owing
  | cons first rest ih =>
      obtain rfl : first = conn := own first List.mem_cons_self
      have alive : state.conns first ≠ none := by simpa using found
      obtain ⟨record, isRecord⟩ := Option.ne_none_iff_exists'.mp alive
      have enough := covered record isRecord
      have closed := connectionClose_owing owing idle alive
      rw [List.length_cons] at enough
      refine ih closed (by simpa using idle) (fun other later => own other (.tail _ later)) ?_ ?_
      · intro after isAfter
        rw [connectionClose_idle idle isRecord] at isAfter
        split at isAfter
        · simp [connectionFree] at isAfter
        · simp only [Function.update_self, Option.some.injEq] at isAfter
          subst isAfter
          push_cast at enough
          simp only
          omega
      · by_cases last : rest = []
        · exact Or.inl last
        · right
          have remaining : 0 < rest.length := List.length_pos_iff.mpr last
          rw [connectionClose_idle idle isRecord, if_neg (by omega)]
          simp

@[simp] theorem connectionClose_touched {conn : ConnId} (touched : state.touchedFreed = true) :
    (connectionClose state conn).touchedFreed = true := by
  obtain closed | ⟨_, closed⟩ | ⟨_, closed⟩ | ⟨_, closed⟩ := connectionClose_cases state conn
  · rw [closed]
  · rw [closed, touched]
  · rw [closed]
    exact touched
  · rw [closed, touched]

theorem replayCloses_touched (count : Nat) (conn : ConnId) (touched : state.touchedFreed = true) :
    (replayCloses count state conn).touchedFreed = true := by
  induction count generalizing state with
  | zero => exact touched
  | succ count ih => exact ih (connectionClose_touched touched)

/-- More closes than references end in a connection that is gone. -/
theorem replayCloses_overdrawn {conn : ConnId} {record : SharedConnection} (count : Nat)
    (idle : state.idlers = []) (found : state.conns conn = some record)
    (positive : 1 ≤ record.refcount) (overdrawn : record.refcount < count) :
    (replayCloses count state conn).touchedFreed = true := by
  induction count generalizing state record with
  | zero => omega
  | succ count ih =>
      rw [replayCloses, connectionClose_idle idle found]
      split
      · rename_i last
        cases count with
        | zero => omega
        | succ count =>
            rw [replayCloses]
            have gone : (connectionFree state conn record).conns conn = none := by
              simp [connectionFree]
            exact replayCloses_touched count conn (connectionClose_dead (by simpa [connectionFree]) gone)
      · rename_i more
        exact ih idle (Function.update_self ..) (by simp only; omega) (by simp only; omega)

/-- What an idler leaves as it was: the ghost counts and all other connections. -/
theorem replayCloses_frame (count : Nat) (idle : state.idlers = []) (conn : ConnId) :
    (replayCloses count state conn).idlers = [] ∧
    (replayCloses count state conn).acquired = state.acquired ∧
    (replayCloses count state conn).requested = state.requested ∧
    (replayCloses count state conn).nextConn = state.nextConn ∧
    ∀ other, other ≠ conn → (replayCloses count state conn).conns other = state.conns other := by
  induction count generalizing state with
  | zero => exact ⟨idle, rfl, rfl, rfl, fun _ _ => rfl⟩
  | succ count ih =>
      obtain ⟨idle', acquired, requested, nextConn, conns⟩ :=
        @ih (connectionClose state conn) (by simpa using idle)
      rw [replayCloses]
      refine ⟨idle', ?_, ?_, ?_, fun other different => ?_⟩
      · simpa using acquired
      · simpa using requested
      · simpa using nextConn
      · exact (conns other different).trans (connectionClose_other different)

/-! ## Each call -/

/-- A close request is owed until it is carried out. -/
theorem request_owing (owing : Owing state state.deferred) {conn : ConnId}
    (old : conn < state.nextConn) :
    Owing (countRequest state conn) (conn :: state.deferred) := by
  -- the request and the debt of the connection grow together
  have moved : ∀ other, ∃ more, (countRequest state conn).requested other = state.requested other + more ∧
      (conn :: state.deferred).count other = state.deferred.count other + more := by
    intro other
    by_cases here : other = conn
    · subst here
      exact ⟨1, Function.update_self .., List.count_cons_self⟩
    · exact ⟨0, Function.update_of_ne here .., List.count_cons_of_ne (Ne.symm here)⟩
  constructor
  case untouched => exact owing.untouched
  case live =>
    intro other record alive
    obtain ⟨positive, balance⟩ := owing.live other record alive
    obtain ⟨more, requested, counted⟩ := moved other
    refine ⟨positive, ?_⟩
    rw [requested, counted]
    push_cast
    have acquired : (countRequest state conn).acquired = state.acquired := rfl
    rw [acquired]
    omega
  case torn =>
    intro other isOld gone
    have balance := owing.torn other isOld gone
    obtain ⟨more, requested, counted⟩ := moved other
    rw [requested, counted, balance, Nat.add_assoc]
    rfl
  case fresh =>
    intro other young
    obtain ⟨unborn, acquired, requested⟩ := owing.fresh other young
    have different : other ≠ conn := Nat.ne_of_gt (Nat.lt_of_lt_of_le old young)
    exact ⟨unborn, acquired, (Function.update_of_ne different ..).trans requested⟩
  case owedOld =>
    intro other owed
    rcases List.mem_cons.mp owed with rfl | earlier
    · exact old
    · exact owing.owedOld other earlier
  case objectsOld => exact owing.objectsOld
  case idlersLive => exact owing.idlersLive
  case sharedLive => exact owing.sharedLive
  case sharedSlot => exact owing.sharedSlot

theorem closeRequest_accounted (accounted : Accounted state) {conn : ConnId}
    (old : conn < state.nextConn) (found : state.idlers = [] → state.conns conn ≠ none) :
    Accounted (closeRequest state conn) := by
  have owing := request_owing accounted.toOwing old
  unfold closeRequest
  by_cases idle : state.idlers = []
  · have idleAfter : (countRequest state conn).idlers = [] := idle
    have closed := connectionClose_owing owing idleAfter (found idle)
    obtain ⟨deferred, closeConnection⟩ := connectionClose_idle_deferred idleAfter conn
    refine ⟨?_, ?_, fun _ => ?_⟩
    · rw [deferred]
      exact closed
    · rw [deferred, closeConnection]
      exact accounted.counted
    · rw [deferred]
      exact accounted.settled idle
  · have busy : (countRequest state conn).idlers ≠ [] := idle
    rw [connectionClose_busy busy]
    exact ⟨{ owing with }, congrArg (· + 1) accounted.counted, fun isIdle => absurd isIdle idle⟩

theorem objectFree_accounted (accounted : Accounted state) {object : ObjectId} {conn : ConnId}
    (owned : state.objects object = some conn) (found : state.conns conn ≠ none) :
    Accounted (objectFree state object conn) := by
  unfold objectFree
  rw [touch_of_live found]
  have detached : Accounted
      { state with objects := Function.update state.objects object none } := by
    refine { accounted with objectsOld := ?_ }
    simp only [Function.update_apply]
    intro other owner isOwner
    split at isOwner
    · cases isOwner
    · exact accounted.objectsOld other owner isOwner
  exact closeRequest_accounted detached (accounted.objectsOld object conn owned) fun _ => found

theorem idlerEnter_accounted (accounted : Accounted state) {conn : ConnId}
    (found : state.conns conn ≠ none) :
    Accounted (idlerEnter state conn) := by
  refine { accounted with idlersLive := ?_, settled := ?_ }
  · intro other running
    rcases List.mem_cons.mp running with rfl | outer
    · exact found
    · exact accounted.idlersLive other outer
  · intro isIdle
    cases isIdle

theorem idlerLeave_accounted (accounted : Accounted state) {conn : ConnId} {outer : List ConnId}
    (running : state.idlers = conn :: outer) (orderly : Orderly state .idlerLeave) :
    Accounted (idlerLeave state conn outer) := by
  have alive : state.conns conn ≠ none := accounted.idlersLive conn (by simp [running])
  have left : Owing (idlerPop state outer) state.deferred :=
    { accounted.toOwing with
      idlersLive := fun other later => by
        refine accounted.idlersLive other ?_
        rw [running]
        exact .tail _ later }
  have aliveAfter : (idlerPop state outer).conns conn ≠ none := alive
  simp only [idlerLeave, touch_of_live aliveAfter]
  cases outer with
  | cons next rest => exact ⟨left, accounted.counted, fun isIdle => by cases isIdle⟩
  | nil =>
      obtain ⟨record, found⟩ := Option.ne_none_iff_exists'.mp alive
      obtain ⟨own, covered⟩ := orderly conn record running found
      have replayed := replayCloses_owing left rfl own
        (fun other isOther => by
          obtain rfl : record = other := Option.some.inj (found.symm.trans isOther)
          exact covered)
        (Or.inr alive)
      rw [← accounted.counted] at replayed
      exact ⟨{ replayed with }, rfl, fun _ => rfl⟩

/-- What a step does, and what it needs. -/
theorem step_cases {label : Label} {next : State} (untouched : state.touchedFreed = false)
    (stepped : step state label = some next) :
    match label with
    | .busGet type connected => busGet state type connected = next
    | .connectionRef conn => conn < state.nextConn ∧ connectionRef state conn = next
    | .connectionClose conn => conn < state.nextConn ∧ closeRequest state conn = next
    | .objectAdd conn registered => conn < state.nextConn ∧ objectAdd state conn registered = next
    | .objectFree object => ∃ conn, state.objects object = some conn ∧ objectFree state object conn = next
    | .idlerEnter conn => state.conns conn ≠ none ∧ idlerEnter state conn = next
    | .idlerLeave => ∃ conn outer, state.idlers = conn :: outer ∧ idlerLeave state conn outer = next := by
  simp only [step, untouched, Bool.false_eq_true, if_false] at stepped
  cases label with
  | busGet type connected => exact Option.some.inj stepped
  | connectionRef conn =>
      simpa only [Option.ite_none_right_eq_some, Option.some.injEq] using stepped
  | connectionClose conn =>
      simpa only [Option.ite_none_right_eq_some, Option.some.injEq] using stepped
  | objectAdd conn registered =>
      simpa only [Option.ite_none_right_eq_some, Option.some.injEq] using stepped
  | objectFree object => exact Option.map_eq_some_iff.mp stepped
  | idlerEnter conn =>
      simpa only [Option.ite_none_right_eq_some, Option.some.injEq, Option.isSome_iff_ne_none] using stepped
  | idlerLeave =>
      cases running : state.idlers with
      | nil =>
          rw [running] at stepped
          cases stepped
      | cons conn outer =>
          rw [running] at stepped
          exact ⟨conn, outer, rfl, Option.some.inj stepped⟩

theorem step_accounted (label : Label) {next : State} (accounted : Accounted state)
    (stepped : step state label = some next) (orderly : Orderly state label) : Accounted next := by
  have performed := step_cases accounted.untouched stepped
  cases label with
  | busGet type connected =>
      have isNext : busGet state type connected = next := performed
      rw [← isNext]
      exact busGet_accounted accounted type connected
  | connectionRef conn =>
      obtain ⟨-, rfl⟩ := performed
      exact connectionRef_accounted accounted orderly
  | connectionClose conn =>
      obtain ⟨old, rfl⟩ := performed
      exact closeRequest_accounted accounted old orderly
  | objectAdd conn registered =>
      obtain ⟨-, rfl⟩ := performed
      exact objectAdd_accounted accounted orderly registered
  | objectFree object =>
      obtain ⟨conn, owned, rfl⟩ := performed
      exact objectFree_accounted accounted owned (orderly conn owned)
  | idlerEnter conn =>
      obtain ⟨alive, rfl⟩ := performed
      exact idlerEnter_accounted accounted alive
  | idlerLeave =>
      obtain ⟨conn, outer, running, rfl⟩ := performed
      exact idlerLeave_accounted accounted running orderly

/-! ## What goes wrong otherwise -/

theorem closeRequest_dead (idle : state.idlers = []) {conn : ConnId}
    (gone : state.conns conn = none) : (closeRequest state conn).touchedFreed = true := by
  have idleAfter : (countRequest state conn).idlers = [] := idle
  exact connectionClose_dead idleAfter gone

theorem objectAdd_dead {conn : ConnId} (gone : state.conns conn = none) (registered : Bool) :
    (objectAdd state conn registered).touchedFreed = true := by
  cases registered with
  | false => simp [objectAdd, touch, gone]
  | true => simp [objectAdd, connectionRef, touch, gone]

theorem objectFree_dead (object : ObjectId) {conn : ConnId} (gone : state.conns conn = none) :
    (objectFree state object conn).touchedFreed = true := by
  exact connectionClose_touched (by simp [countRequest, touch, gone])

/-- A balanced outermost dispatch left only closes that its connection could take:
another connection keeps a refcount that its own closes should have lowered. -/
theorem idlerLeave_orderly (accounted : Accounted state) {conn : ConnId}
    (running : state.idlers = [conn]) (balanced : Balanced (idlerLeave state conn [])) :
    Orderly state .idlerLeave := by
  intro owner record alone found
  obtain rfl : conn = owner := by
    rw [running] at alone
    exact (List.cons.inj alone).1
  have alive : (idlerPop state []).conns conn ≠ none := by simp [idlerPop, found]
  simp only [idlerLeave, touch_of_live alive, List.isEmpty_nil, if_true] at balanced
  obtain ⟨idle, acquired, requested, nextConn, conns⟩ :=
    @replayCloses_frame (idlerPop state []) (idlerPop state []).closeConnection rfl conn
  have drawn := @replayCloses_overdrawn (idlerPop state []) conn record
    (idlerPop state []).closeConnection rfl found (accounted.live conn record found).1
  have counted : (idlerPop state []).closeConnection = state.deferred.length := accounted.counted
  generalize replayCloses (idlerPop state []).closeConnection (idlerPop state []) conn = replayed
    at balanced idle acquired requested nextConn conns drawn
  change replayed.acquired = state.acquired at acquired
  change replayed.requested = state.requested at requested
  change replayed.nextConn = state.nextConn at nextConn
  change ∀ other, other ≠ conn → replayed.conns other = state.conns other at conns
  obtain ⟨untouched, refcounts, tornDown⟩ := balanced
  simp only [acquired, requested, nextConn] at refcounts tornDown
  constructor
  · intro other deferred
    by_contra different
    have pending : 0 < state.deferred.count other := List.count_pos_iff.mpr deferred
    have kept := conns other different
    cases found : state.conns other with
    | none =>
        rw [found] at kept
        have torn := accounted.torn other (accounted.owedOld other deferred) found
        have equal := (tornDown idle other (accounted.owedOld other deferred)).mp kept
        omega
    | some record =>
        rw [found] at kept
        have live := (accounted.live other record found).2
        have equal := refcounts idle other record kept
        omega
  · by_contra overdrawn
    have touched := drawn (by
      rw [counted]
      omega)
    exact absurd (untouched.symm.trans touched) Bool.false_ne_true

theorem step_orderly (label : Label) {next : State} (accounted : Accounted state)
    (stepped : step state label = some next) (balanced : Balanced next) : Orderly state label := by
  have performed := step_cases accounted.untouched stepped
  have untouched := balanced.untouched
  cases label with
  | busGet type connected => trivial
  | connectionRef conn =>
      obtain ⟨-, rfl⟩ := performed
      intro gone
      simp [connectionRef_dead gone] at untouched
  | connectionClose conn =>
      obtain ⟨-, rfl⟩ := performed
      intro idle gone
      simp [closeRequest_dead idle gone] at untouched
  | objectAdd conn registered =>
      obtain ⟨-, rfl⟩ := performed
      intro gone
      simp [objectAdd_dead gone] at untouched
  | objectFree object =>
      obtain ⟨conn, owned, rfl⟩ := performed
      intro other isOwner gone
      obtain rfl : conn = other := Option.some.inj (owned.symm.trans isOwner)
      simp [objectFree_dead object gone] at untouched
  | idlerEnter conn => trivial
  | idlerLeave =>
      obtain ⟨dispatching, outer, isRunning, rfl⟩ := performed
      intro conn record running found
      obtain ⟨rfl, rfl⟩ := List.cons.inj (isRunning.symm.trans running)
      exact idlerLeave_orderly accounted running balanced _ record running found

/-- The accounts stay balanced along a run exactly if every step is orderly. -/
theorem balanced_throughout_iff (labels : List Label) :
    machine.Throughout Balanced State.initial labels ↔
      machine.Along (fun state label _ => Orderly state label) State.initial labels :=
  Semantics.Machine.throughout_iff_along Accounted
    (fun _ label _ accounted stepped => ⟨step_orderly label accounted stepped,
      fun orderly => (step_accounted label accounted stepped orderly).balanced⟩)
    (fun _ label _ accounted stepped orderly => step_accounted label accounted stepped orderly)
    initial_accounted initial_accounted.balanced

/-- Two private connections; the second is closed while the first dispatches. -/
def closeOther : List Label :=
  [.busGet .starter true, .busGet .starter true, .idlerEnter 0, .connectionClose 1, .idlerLeave]

/-- The dispatching connection is torn down in place of the closed one. -/
theorem balanced_fails_closeOther :
    ¬ ∀ labels, machine.Throughout Balanced State.initial labels := by
  intro always
  have balanced := Semantics.Machine.throughout_iff_prefix.mp (always closeOther) closeOther
    (List.prefix_refl _)
  obtain ⟨final, executed, gone⟩ : ∃ final, machine.exec State.initial closeOther = some final ∧
      final.idlers = [] ∧ 0 < final.nextConn ∧ final.conns 0 = none ∧
        final.acquired 0 = 1 ∧ final.requested 0 = 0 := ⟨_, rfl, by decide⟩
  obtain ⟨idle, old, gone, acquired, requested⟩ := gone
  have equal := ((balanced final executed).tornDown idle 0 old).mp gone
  omega

end EDBus.Dbus.Connection
