import EDBus.Dbus.Timeout
import Mathlib.Data.List.Nodup

/-!
# Which runs leave the timers of a connection sound

`Linked` relates the two places that a timer is kept in. Each step of a sound state is decided by
`Orderly`, and an orderly one keeps the links.
-/

namespace EDBus.Dbus.Timeout

variable {state : State}

/-- The data of the timeouts and the timers point to each other. Once the connection is freed no timer
is left, but the data still point to them. -/
structure Linked (state : State) : Prop where
  dataOf : ∀ timeout td, state.timeoutData timeout = some td →
    ∃ record, state.data td = some record ∧ record.timeout = timeout
  ownerOf : ∀ td record, state.data td = some record → state.timeoutData record.timeout = some td
  attached : ∀ timeout, state.added timeout = true → ∃ td, state.timeoutData timeout = some td
  held : ∀ id timer, state.timers id = some timer →
    ∃ record, state.data timer.data = some record ∧ record.handler = some id
  handle : state.connected = true → ∀ td record id, state.data td = some record →
    record.handler = some id → ∃ timer, state.timers id = some timer ∧ timer.data = td
  eager : ∀ timeout, state.added timeout = true → state.enabled timeout = true ∧ state.interval timeout = 0
  closed : state.connected = false → (∀ id, state.timers id = none) ∧ state.timeouts = [] ∧
    ∀ timeout, state.added timeout = false
  freshData : ∀ td, state.nextData ≤ td → state.data td = none
  freshTimer : ∀ id, state.nextTimer ≤ id → state.timers id = none

theorem timerDel_live {id : TimerId} (live : (state.timers id).isSome) :
    timerDel state (some id) = { state with timers := Function.update state.timers id none } :=
  if_pos live

theorem timerDel_dead {id : TimerId} (dead : state.timers id = none) :
    timerDel state (some id) = { state with misused := true } := by
  simp [timerDel, dead]

/-- A timer is that of the timeout whose data it has. -/
theorem Linked.timeoutOf_eq (linked : Linked state) {id : TimerId} {timer : Timer}
    (live : state.timers id = some timer) :
    ∃ record, state.data timer.data = some record ∧ record.handler = some id ∧
      state.timeoutOf timer = some record.timeout ∧ state.timeoutData record.timeout = some timer.data := by
  obtain ⟨record, found, isHandler⟩ := linked.held id timer live
  exact ⟨record, found, isHandler, by rw [State.timeoutOf, found]; rfl, linked.ownerOf _ _ found⟩

/-- A timeout has one timer at most. -/
theorem Linked.single (linked : Linked state) {first second : TimerId} {left right : Timer}
    (one : state.timers first = some left) (other : state.timers second = some right)
    (same : state.timeoutOf left = state.timeoutOf right) : first = second := by
  obtain ⟨record, found, isHandler, isOf, owner⟩ := linked.timeoutOf_eq one
  obtain ⟨record', found', isHandler', isOf', owner'⟩ := linked.timeoutOf_eq other
  rw [isOf, isOf', Option.some.injEq] at same
  rw [same, owner', Option.some.injEq] at owner
  rw [← owner, found', Option.some.injEq] at found
  rw [← found, isHandler', Option.some.injEq] at isHandler
  exact isHandler.symm

/-- The timer of an added timeout is the one in its data. -/
theorem Linked.handler_of_added (linked : Linked state) (sound : Sound state) {timeout : TimeoutId}
    (isAdded : state.added timeout = true) :
    ∃ td record id, state.timeoutData timeout = some td ∧ state.data td = some record ∧
      record.timeout = timeout ∧ record.handler = some id ∧ (state.timers id).isSome ∧
      some id ∈ state.timeouts := by
  obtain ⟨id, timer, live, isOf, -⟩ := sound.armed timeout isAdded (linked.eager timeout isAdded).1
  obtain ⟨record, found, isHandler, isOf', owner⟩ := linked.timeoutOf_eq live
  rw [isOf, Option.some.injEq] at isOf'
  have isLive : (state.timers id).isSome := by
    rw [live]
    rfl
  exact ⟨timer.data, record, id, isOf' ▸ owner, found, isOf'.symm, isHandler, isLive,
    (sound.listed id).mpr isLive⟩

/-- A timeout that is not added has no timer in its data, while the connection is there. -/
theorem Linked.handler_of_removed (linked : Linked state) (sound : Sound state)
    (isConnected : state.connected = true) {timeout : TimeoutId} (removed : state.added timeout = false)
    {td : DataId} (isData : state.timeoutData timeout = some td) {record : TimeoutData}
    (found : state.data td = some record) : record.handler = none := by
  cases isHandler : record.handler with
  | none => rfl
  | some id =>
      obtain ⟨timer, live, rfl⟩ := linked.handle isConnected td record id found isHandler
      obtain ⟨record', found', same⟩ := linked.dataOf timeout _ isData
      obtain rfl := Option.some.inj (found.symm.trans found')
      obtain ⟨other, isOf, isAdded, -⟩ := sound.wanted id timer live
      rw [State.timeoutOf, found, Option.map_some, Option.some.injEq, same] at isOf
      rw [← isOf, removed] at isAdded
      cases isAdded

/-! ## Adding -/

/-- The data without those of a timeout. -/
def State.dataWithout (state : State) (timeout : TimeoutId) (td : DataId) : Option TimeoutData :=
  if state.timeoutData timeout = some td then none else state.data td

/-- The data that the timeout had before is freed, and it has no timer. -/
theorem timeoutDataNew_eq (linked : Linked state) (sound : Sound state) (isConnected : state.connected = true)
    {timeout : TimeoutId} (removed : state.added timeout = false) (enabled : Bool) (interval : Int) :
    timeoutDataNew state timeout enabled interval =
      { state with
        nextData := state.nextData + 1
        enabled := Function.update state.enabled timeout enabled
        interval := Function.update state.interval timeout interval
        added := Function.update state.added timeout true
        timeoutData := Function.update state.timeoutData timeout (some state.nextData)
        data := Function.update (state.dataWithout timeout) state.nextData
          (some ⟨none, timeout, interval⟩) } := by
  unfold timeoutDataNew timeoutSetData
  cases isData : state.timeoutData timeout with
  | none =>
      have same : state.dataWithout timeout = state.data := by
        funext td
        simp [State.dataWithout, isData]
      simp only [isData, same]
  | some old =>
      obtain ⟨record, found, -⟩ := linked.dataOf timeout old isData
      have idle := linked.handler_of_removed sound isConnected removed isData found
      have same : state.dataWithout timeout = Function.update state.data old none := by
        funext td
        by_cases here : td = old
        · simp [State.dataWithout, isData, here]
        · have elsewhere : ¬ old = td := fun equal => here equal.symm
          simp [State.dataWithout, isData, here, elsewhere]
      simp only [isData, timeoutDataFree, found, idle, timerDel, same]

theorem dataWithout_some {timeout : TimeoutId} {td : DataId} {record : TimeoutData} :
    state.dataWithout timeout td = some record ↔
      state.timeoutData timeout ≠ some td ∧ state.data td = some record := by
  unfold State.dataWithout
  split
  · rename_i isData
    simp [isData]
  · rename_i notData
    simp [notData]

/-- The data of a live timer stay, unless its timeout is the one that is added. -/
theorem Linked.data_stays (linked : Linked state) (sound : Sound state) {timeout : TimeoutId}
    (removed : state.added timeout = false) {id : TimerId} {timer : Timer}
    (live : state.timers id = some timer) (replacement : TimeoutData) :
    Function.update (state.dataWithout timeout) state.nextData (some replacement) timer.data =
      state.data timer.data := by
  obtain ⟨record, found, -, isOf, owner⟩ := linked.timeoutOf_eq live
  have old : timer.data ≠ state.nextData := by
    intro same
    rw [linked.freshData timer.data (Nat.le_of_eq same.symm)] at found
    cases found
  rw [Function.update_of_ne old, found, dataWithout_some]
  refine ⟨?_, found⟩
  intro isData
  obtain ⟨record', found', same⟩ := linked.dataOf timeout _ isData
  obtain rfl := Option.some.inj (found.symm.trans found')
  obtain ⟨other, isOf', isAdded, -⟩ := sound.wanted id timer live
  rw [isOf, Option.some.injEq, same] at isOf'
  rw [← isOf', removed] at isAdded
  cases isAdded

/-- The state after an enabled timeout was added. -/
theorem timeoutAdd_eq (linked : Linked state) (sound : Sound state) (isConnected : state.connected = true)
    {timeout : TimeoutId} (removed : state.added timeout = false) (interval : Int) :
    timeoutAdd state timeout true interval =
      { state with
        nextData := state.nextData + 1
        nextTimer := state.nextTimer + 1
        enabled := Function.update state.enabled timeout true
        interval := Function.update state.interval timeout interval
        added := Function.update state.added timeout true
        timeoutData := Function.update state.timeoutData timeout (some state.nextData)
        data := Function.update (state.dataWithout timeout) state.nextData
          (some ⟨some state.nextTimer, timeout, interval⟩)
        timers := Function.update state.timers state.nextTimer (some ⟨interval, state.nextData⟩)
        timeouts := state.timeouts ++ [some state.nextTimer] } := by
  simp only [timeoutAdd, if_true, timeoutDataNew_eq linked sound isConnected removed, timerAdd,
    State.setHandler, Function.update_idem]

theorem timeoutAdd_linked (linked : Linked state) (sound : Sound state) (isConnected : state.connected = true)
    {timeout : TimeoutId} (removed : state.added timeout = false) :
    Linked (timeoutAdd state timeout true 0) := by
  have stays : ∀ {id timer}, state.timers id = some timer → _ :=
    fun live => linked.data_stays sound removed live ⟨some state.nextTimer, timeout, 0⟩
  have noData : ∀ other, state.timeoutData other ≠ some state.nextData := by
    intro other isData
    obtain ⟨record, found, -⟩ := linked.dataOf other _ isData
    rw [linked.freshData _ (Nat.le_refl _)] at found
    cases found
  rw [timeoutAdd_eq linked sound isConnected removed]
  constructor
  case dataOf =>
    intro other td isData
    simp only [Function.update_apply] at isData
    split at isData
    · rename_i here
      obtain rfl := Option.some.inj isData
      exact ⟨_, Function.update_self .., here.symm⟩
    · rename_i elsewhere
      obtain ⟨record, found, same⟩ := linked.dataOf other td isData
      have old : td ≠ state.nextData := fun equal => noData other (equal ▸ isData)
      refine ⟨record, ?_, same⟩
      simp only [Function.update_of_ne old]
      refine dataWithout_some.mpr ⟨?_, found⟩
      intro isTimeout
      obtain ⟨record', found', same'⟩ := linked.dataOf timeout td isTimeout
      obtain rfl := Option.some.inj (found.symm.trans found')
      exact elsewhere (same.symm.trans same')
  case ownerOf =>
    intro td record found
    simp only [Function.update_apply] at found ⊢
    split at found
    · rename_i isNew
      obtain rfl := Option.some.inj found
      rw [if_pos rfl, isNew]
    · obtain ⟨notTimeout, found⟩ := dataWithout_some.mp found
      have owner := linked.ownerOf td record found
      rw [if_neg, owner]
      intro same
      exact notTimeout (same ▸ owner)
  case attached =>
    intro other isAdded
    simp only [Function.update_apply] at isAdded ⊢
    split
    · exact ⟨_, rfl⟩
    · rename_i elsewhere
      rw [if_neg elsewhere] at isAdded
      exact linked.attached other isAdded
  case held =>
    intro id timer live
    simp only [Function.update_apply] at live
    split at live
    · rename_i isNew
      obtain rfl := Option.some.inj live
      exact ⟨_, Function.update_self .., congrArg some isNew.symm⟩
    · obtain ⟨record, found, isHandler⟩ := linked.held id timer live
      exact ⟨record, (stays live).trans found, isHandler⟩
  case handle =>
    intro _ td record id found isHandler
    simp only [Function.update_apply] at found ⊢
    split at found
    · rename_i isNew
      obtain rfl := Option.some.inj found
      obtain rfl := Option.some.inj isHandler
      exact ⟨_, if_pos rfl, isNew.symm⟩
    · obtain ⟨-, found⟩ := dataWithout_some.mp found
      obtain ⟨timer, live, isData⟩ := linked.handle isConnected td record id found isHandler
      refine ⟨timer, ?_, isData⟩
      rw [if_neg, live]
      rintro rfl
      rw [linked.freshTimer _ (Nat.le_refl _)] at live
      cases live
  case eager =>
    intro other isAdded
    simp only [Function.update_apply] at isAdded ⊢
    split
    · exact ⟨rfl, rfl⟩
    · rename_i elsewhere
      rw [if_neg elsewhere] at isAdded
      exact linked.eager other isAdded
  case closed =>
    intro isClosed
    rw [isConnected] at isClosed
    cases isClosed
  case freshData =>
    intro td less
    have old : td ≠ state.nextData := by
      rintro rfl
      exact Nat.not_succ_le_self _ less
    simp only [Function.update_of_ne old, State.dataWithout, linked.freshData td (Nat.le_of_succ_le less),
      ite_self]
  case freshTimer =>
    intro id less
    have old : id ≠ state.nextTimer := by
      rintro rfl
      exact Nat.not_succ_le_self _ less
    simp only [Function.update_of_ne old, linked.freshTimer id (Nat.le_of_succ_le less)]

/-- An added timeout gets a timer for its interval exactly if it is enabled and the interval is zero
in any unit. -/
theorem timeoutAdd_sound_iff (linked : Linked state) (sound : Sound state) (isConnected : state.connected = true)
    {timeout : TimeoutId} (removed : state.added timeout = false) (enabled : Bool) (interval : Int) :
    Sound (timeoutAdd state timeout enabled interval) ↔ enabled = true ∧ interval = 0 := by
  cases enabled with
  | false =>
      refine iff_of_false ?_ (by simp)
      intro after
      apply after.noNull
      simp only [timeoutAdd, Bool.false_eq_true, if_false]
      exact List.mem_append_right _ (List.mem_singleton_self none)
  | true =>
      have stays : ∀ {id timer}, state.timers id = some timer → _ :=
        fun live => linked.data_stays sound removed live ⟨some state.nextTimer, timeout, interval⟩
      have young : ∀ {id timer}, state.timers id = some timer → id ≠ state.nextTimer := by
        rintro id timer live rfl
        rw [linked.freshTimer _ (Nat.le_refl _)] at live
        cases live
      have others : ∀ {id timer}, state.timers id = some timer → state.timeoutOf timer ≠ some timeout := by
        intro id timer live isOf
        obtain ⟨other, isOf', isAdded, -⟩ := sound.wanted id timer live
        rw [isOf, Option.some.injEq] at isOf'
        rw [← isOf', removed] at isAdded
        cases isAdded
      rw [timeoutAdd_eq linked sound isConnected removed]
      constructor
      · intro after
        refine ⟨rfl, ?_⟩
        obtain ⟨id, timer, live, isOf, isArmed⟩ := after.armed timeout (Function.update_self ..)
          (Function.update_self ..)
        simp only [Function.update_self] at isArmed
        simp only [Function.update_apply] at live
        split at live
        · obtain rfl := Option.some.inj live
          simp only at isArmed
          omega
        · refine absurd ?_ (others live)
          rw [State.timeoutOf, ← stays live]
          exact isOf
      · rintro ⟨-, rfl⟩
        have linkedAfter := timeoutAdd_linked linked sound isConnected removed
        rw [timeoutAdd_eq linked sound isConnected removed] at linkedAfter
        constructor
        case armed =>
          intro other isAdded isEnabled
          simp only [Function.update_apply] at isAdded isEnabled ⊢
          by_cases here : other = timeout
          · refine ⟨state.nextTimer, ⟨0, state.nextData⟩, if_pos rfl, ?_, ?_⟩
            · simp [State.timeoutOf, here]
            · rw [if_pos here]
              rfl
          · rw [if_neg here] at isAdded isEnabled
            obtain ⟨id, timer, live, isOf, isArmed⟩ := sound.armed other isAdded isEnabled
            refine ⟨id, timer, (if_neg (young live)).trans live, ?_, ?_⟩
            · rw [← isOf, State.timeoutOf, State.timeoutOf, ← stays live]
            · rw [if_neg here]
              exact isArmed
        case single => exact fun first second left right => linkedAfter.single
        case wanted =>
          intro id timer live
          simp only [Function.update_apply] at live
          split at live
          · obtain rfl := Option.some.inj live
            refine ⟨timeout, ?_, Function.update_self .., Function.update_self ..⟩
            simp [State.timeoutOf]
          · obtain ⟨other, isOf, isAdded, isEnabled⟩ := sound.wanted id timer live
            have different : other ≠ timeout := by
              rintro rfl
              exact others live isOf
            refine ⟨other, ?_, ?_, ?_⟩
            · rw [← isOf, State.timeoutOf, State.timeoutOf, ← stays live]
            · exact (Function.update_of_ne different ..).trans isAdded
            · exact (Function.update_of_ne different ..).trans isEnabled
        case listed =>
          intro id
          simp only [List.mem_append, List.mem_singleton, Option.some.injEq, sound.listed id,
            Function.update_apply]
          split
          · rename_i isNew
            exact iff_of_true (Or.inr isNew) rfl
          · rename_i old
            exact or_iff_left old
        case once =>
          rw [List.nodup_append']
          refine ⟨sound.once, List.nodup_singleton _, ?_⟩
          intro entry isListed isNew
          obtain rfl := List.mem_singleton.mp isNew
          have live := (sound.listed _).mp isListed
          rw [linked.freshTimer _ (Nat.le_refl _)] at live
          cases live
        case noNull =>
          intro isNull
          rcases List.mem_append.mp isNull with old | isNew
          · exact sound.noNull old
          · cases List.mem_singleton.mp isNew
        case proper => exact sound.proper

/-! ## Toggling and removing -/

/-- An enabled timer that is toggled on gets a second timer, which the list does not have. One that is
toggled off leaves its timer in the list. -/
theorem timeoutToggle_unsound (linked : Linked state) (sound : Sound state) {timeout : TimeoutId}
    (isAdded : state.added timeout = true) (enabled : Bool) (interval : Int) :
    ¬ Sound (timeoutToggle state timeout enabled interval) := by
  obtain ⟨td, record, id, isData, found, -, isHandler, isLive, isListed⟩ :=
    linked.handler_of_added sound isAdded
  intro after
  cases enabled with
  | true =>
      have toggled : timeoutToggle state timeout true interval =
          (timerAdd { state with
              enabled := Function.update state.enabled timeout true
              interval := Function.update state.interval timeout interval } interval td).setHandler td
            { record with interval := interval } (some state.nextTimer) := by
        simp only [timeoutToggle, isData, found, if_true]
      rw [toggled] at after
      have inList : some state.nextTimer ∈ state.timeouts := by
        apply (after.listed state.nextTimer).mpr
        simp [State.setHandler, timerAdd]
      have wasLive := (sound.listed _).mp inList
      rw [linked.freshTimer _ (Nat.le_refl _)] at wasLive
      cases wasLive
  | false =>
      have toggled : timeoutToggle state timeout false interval =
          (timerDel { state with
              enabled := Function.update state.enabled timeout false
              interval := Function.update state.interval timeout interval } (some id)).setHandler td
            record none := by
        simp only [timeoutToggle, isData, found, isHandler, Bool.false_eq_true, if_false]
      have isLive' : (({ state with
          enabled := Function.update state.enabled timeout false
          interval := Function.update state.interval timeout interval } : State).timers id).isSome := isLive
      rw [toggled, timerDel_live isLive'] at after
      have stillLive := (after.listed id).mp isListed
      simp [State.setHandler] at stillLive

/-- The state after a timeout was removed. -/
theorem timeoutDel_eq (linked : Linked state) (sound : Sound state) {timeout : TimeoutId}
    (isAdded : state.added timeout = true) :
    ∃ td record id, state.timeoutData timeout = some td ∧ state.data td = some record ∧
      record.timeout = timeout ∧ record.handler = some id ∧
      timeoutDel state timeout =
        { state with
          timeouts := state.timeouts.erase (some id)
          timers := Function.update state.timers id none
          data := Function.update state.data td (some { record with handler := none })
          added := Function.update state.added timeout false } := by
  obtain ⟨td, record, id, isData, found, same, isHandler, isLive, -⟩ :=
    linked.handler_of_added sound isAdded
  refine ⟨td, record, id, isData, found, same, isHandler, ?_⟩
  have isLive' : (({ state with timeouts := state.timeouts.erase (some id) } : State).timers id).isSome :=
    isLive
  simp only [timeoutDel, isData, found, isHandler, timerDel_live isLive', State.setHandler]

theorem timeoutDel_linked (linked : Linked state) (sound : Sound state) {timeout : TimeoutId}
    (isAdded : state.added timeout = true) : Linked (timeoutDel state timeout) := by
  obtain ⟨td, record, id, isData, found, same, isHandler, after⟩ := timeoutDel_eq linked sound isAdded
  have one : ∀ other record', state.data other = some record' → record'.handler = some id →
      state.connected = true → other = td := by
    intro other record' found' isHandler' isConnected
    obtain ⟨timer, live, rfl⟩ := linked.handle isConnected other record' id found' isHandler'
    obtain ⟨timer', live', rfl⟩ := linked.handle isConnected td record id found isHandler
    rw [live, Option.some.injEq] at live'
    rw [live']
  rw [after]
  constructor
  case dataOf =>
    intro other td' isData'
    obtain ⟨record', found', same'⟩ := linked.dataOf other td' isData'
    by_cases here : td' = td
    · subst here
      obtain rfl := Option.some.inj (found.symm.trans found')
      exact ⟨_, Function.update_self .., same'⟩
    · exact ⟨record', (Function.update_of_ne here ..).trans found', same'⟩
  case ownerOf =>
    intro td' record' found'
    simp only [Function.update_apply] at found'
    split at found'
    · rename_i here
      obtain rfl := Option.some.inj found'
      rw [here]
      exact linked.ownerOf td record found
    · exact linked.ownerOf td' record' found'
  case attached =>
    intro other isAdded'
    simp only [Function.update_apply] at isAdded'
    split at isAdded'
    · cases isAdded'
    · exact linked.attached other isAdded'
  case held =>
    intro other timer live
    simp only [Function.update_apply] at live
    split at live
    · cases live
    · rename_i different
      obtain ⟨record', found', isHandler'⟩ := linked.held other timer live
      have elsewhere : timer.data ≠ td := by
        intro here
        rw [here, found, Option.some.injEq] at found'
        rw [← found', isHandler, Option.some.injEq] at isHandler'
        exact different isHandler'.symm
      exact ⟨record', (Function.update_of_ne elsewhere ..).trans found', isHandler'⟩
  case handle =>
    intro isConnected td' record' other found' isHandler'
    simp only [Function.update_apply] at found' ⊢
    split at found'
    · obtain rfl := Option.some.inj found'
      cases isHandler'
    · rename_i elsewhere
      obtain ⟨timer, live, isOf⟩ := linked.handle isConnected td' record' other found' isHandler'
      refine ⟨timer, ?_, isOf⟩
      rw [if_neg, live]
      rintro rfl
      exact elsewhere (one td' record' found' isHandler' isConnected)
  case eager =>
    intro other isAdded'
    simp only [Function.update_apply] at isAdded'
    split at isAdded'
    · cases isAdded'
    · exact linked.eager other isAdded'
  case closed =>
    intro isClosed
    rw [(linked.closed isClosed).2.2 timeout] at isAdded
    cases isAdded
  case freshData =>
    intro td' less
    have elsewhere : td' ≠ td := by
      rintro rfl
      rw [linked.freshData td' less] at found
      cases found
    exact (Function.update_of_ne elsewhere ..).trans (linked.freshData td' less)
  case freshTimer =>
    intro other less
    simp only [Function.update_apply, linked.freshTimer other less, ite_self]

/-- A removed timeout leaves no timer. -/
theorem timeoutDel_sound (linked : Linked state) (sound : Sound state) {timeout : TimeoutId}
    (isAdded : state.added timeout = true) : Sound (timeoutDel state timeout) := by
  have linkedAfter := timeoutDel_linked linked sound isAdded
  obtain ⟨td, record, id, isData, found, same, isHandler, after⟩ := timeoutDel_eq linked sound isAdded
  rw [after] at linkedAfter ⊢
  have timeoutOf : ∀ timer : Timer, (Function.update state.data td (some { record with handler := none })
      timer.data).map TimeoutData.timeout = state.timeoutOf timer := by
    intro timer
    unfold State.timeoutOf
    by_cases here : timer.data = td
    · rw [here, Function.update_self, found]
      rfl
    · rw [Function.update_of_ne here]
  have isOf : ∀ other timer, state.timers other = some timer → state.timeoutOf timer = some timeout →
      other = id := by
    intro other timer live isTimeout
    obtain ⟨record', found', isHandler', isOf', owner⟩ := linked.timeoutOf_eq live
    rw [isTimeout, Option.some.injEq] at isOf'
    rw [← isOf', isData, Option.some.injEq] at owner
    rw [← owner, found, Option.some.injEq] at found'
    rw [← found', isHandler, Option.some.injEq] at isHandler'
    exact isHandler'.symm
  constructor
  case armed =>
    intro other isAdded' isEnabled
    simp only [Function.update_apply] at isAdded'
    split at isAdded'
    · cases isAdded'
    · rename_i different
      obtain ⟨other', timer, live, isTimeout, isArmed⟩ := sound.armed other isAdded' isEnabled
      refine ⟨other', timer, ?_, (timeoutOf timer).trans isTimeout, isArmed⟩
      refine (Function.update_of_ne ?_ ..).trans live
      rintro rfl
      obtain ⟨record', found', isHandler', isOf', owner⟩ := linked.timeoutOf_eq live
      rw [isTimeout, Option.some.injEq] at isOf'
      have isConnected : state.connected = true := by
        by_contra isClosed
        rw [(linked.closed (by simpa using isClosed)).1] at live
        cases live
      obtain ⟨timer', live', isTd⟩ := linked.handle isConnected td record other' found isHandler
      rw [live, Option.some.injEq] at live'
      rw [live', isTd, found, Option.some.injEq] at found'
      exact different (isOf'.trans (found' ▸ same))
  case single => exact fun first second left right => linkedAfter.single
  case wanted =>
    intro other timer live
    simp only [Function.update_apply] at live
    split at live
    · cases live
    · rename_i different
      obtain ⟨timeout', isTimeout, isAdded', isEnabled⟩ := sound.wanted other timer live
      refine ⟨timeout', (timeoutOf timer).trans isTimeout, ?_, isEnabled⟩
      refine (Function.update_of_ne ?_ ..).trans isAdded'
      rintro rfl
      exact different (isOf other timer live isTimeout)
  case listed =>
    intro other
    rw [sound.once.mem_erase_iff, sound.listed other]
    simp only [Function.update_apply]
    split
    · rename_i here
      simp [here]
    · rename_i different
      simp [different]
  case once => exact sound.once.erase _
  case noNull => exact fun isNull => sound.noNull (List.mem_of_mem_erase isNull)
  case proper => exact sound.proper

/-! ## Expiry -/

/-- Which timers are being called does not matter. -/
theorem Linked.refire (linked : Linked state) (firing : List TimerId) :
    Linked { state with firing := firing } :=
  ⟨linked.dataOf, linked.ownerOf, linked.attached, linked.held, linked.handle, linked.eager, linked.closed,
    linked.freshData, linked.freshTimer⟩

theorem Sound.refire (sound : Sound state) (firing : List TimerId) : Sound { state with firing := firing } :=
  ⟨sound.armed, sound.single, sound.wanted, sound.listed, sound.once, sound.noNull, sound.proper⟩

/-- A live timer is that of an enabled timeout, so its callback calls libdbus. -/
theorem timeoutHandler_eq (linked : Linked state) (sound : Sound state) {id : TimerId}
    (isLive : (state.timers id).isSome) :
    timeoutHandler state id = { state with firing := id :: state.firing } := by
  obtain ⟨timer, live⟩ := Option.isSome_iff_exists.mp isLive
  obtain ⟨record, found, -, isOf, -⟩ := linked.timeoutOf_eq live
  obtain ⟨timeout, isTimeout, -, isEnabled⟩ := sound.wanted id timer live
  rw [isOf, Option.some.injEq] at isTimeout
  simp only [timeoutHandler, live, Option.bind_some, found, Option.map_some, isTimeout, isEnabled, if_true]

/-- A timer that is cancelled after its callback was deleted before, if all is well. -/
theorem timerCancel_iff (linked : Linked state) (sound : Sound state) (id : TimerId) (outer : List TimerId) :
    (Sound (timerCancel state id outer) ↔ state.timers id = none) ∧
      (state.timers id = none → Linked (timerCancel state id outer)) := by
  have same : state.timers id = none →
      timerCancel state id outer = { state with firing := outer } := by
    intro dead
    have still : Function.update state.timers id none = state.timers := by
      rw [← dead, Function.update_eq_self]
    rw [timerCancel, still]
  refine ⟨⟨?_, ?_⟩, ?_⟩
  · intro after
    by_contra live
    have isListed := (sound.listed id).mpr (Option.isSome_iff_ne_none.mpr live)
    have stillLive := (after.listed id).mp isListed
    simp [timerCancel] at stillLive
  · intro dead
    rw [same dead]
    exact sound.refire outer
  · intro dead
    rw [same dead]
    exact linked.refire outer

/-! ## Freeing -/

/-- The state after the data of a timeout were freed, which had no timer. -/
def State.withoutData (state : State) (timeout : TimeoutId) (td : DataId) : State :=
  { state with
    data := Function.update state.data td none
    timeoutData := Function.update state.timeoutData timeout none }

/-- The data of a live timer are not those without a timer. -/
theorem Linked.data_ne (linked : Linked state) {td : DataId} {record : TimeoutData} (found : state.data td = some record)
    (idle : record.handler = none) {id : TimerId} {timer : Timer} (live : state.timers id = some timer) :
    timer.data ≠ td := by
  intro here
  obtain ⟨record', found', isHandler⟩ := linked.held id timer live
  rw [here, found, Option.some.injEq] at found'
  rw [← found', idle] at isHandler
  cases isHandler

theorem Sound.withoutData (sound : Sound state) {td : DataId}
    (elsewhere : ∀ id timer, state.timers id = some timer → timer.data ≠ td) (timeout : TimeoutId) :
    Sound (state.withoutData timeout td) := by
  have timeoutOf : ∀ id timer, state.timers id = some timer →
      (state.withoutData timeout td).timeoutOf timer = state.timeoutOf timer := by
    intro id timer live
    simp only [State.timeoutOf, State.withoutData, Function.update_of_ne (elsewhere id timer live)]
  constructor
  case armed =>
    intro other isAdded isEnabled
    obtain ⟨id, timer, live, isOf, isArmed⟩ := sound.armed other isAdded isEnabled
    exact ⟨id, timer, live, (timeoutOf id timer live).trans isOf, isArmed⟩
  case single =>
    intro first second left right one two sameOf
    refine sound.single first second left right one two ?_
    rw [← timeoutOf first left one, ← timeoutOf second right two]
    exact sameOf
  case wanted =>
    intro id timer live
    obtain ⟨other, isOf, isAdded, isEnabled⟩ := sound.wanted id timer live
    exact ⟨other, (timeoutOf id timer live).trans isOf, isAdded, isEnabled⟩
  case listed => exact sound.listed
  case once => exact sound.once
  case noNull => exact sound.noNull
  case proper => exact sound.proper

theorem Linked.withoutData (linked : Linked state) {timeout : TimeoutId} (removed : state.added timeout = false)
    {td : DataId} (isData : state.timeoutData timeout = some td)
    (elsewhere : ∀ id timer, state.timers id = some timer → timer.data ≠ td) :
    Linked (state.withoutData timeout td) := by
  constructor
  case dataOf =>
    intro other td' isTd
    simp only [State.withoutData, Function.update_apply] at isTd
    split at isTd
    · cases isTd
    · rename_i different
      obtain ⟨record, found, same⟩ := linked.dataOf other td' isTd
      refine ⟨record, (Function.update_of_ne ?_ ..).trans found, same⟩
      rintro rfl
      obtain ⟨record', found', same'⟩ := linked.dataOf timeout td' isData
      obtain rfl := Option.some.inj (found.symm.trans found')
      exact different (same.symm.trans same')
  case ownerOf =>
    intro td' record found
    simp only [State.withoutData, Function.update_apply] at found ⊢
    split at found
    · cases found
    · rename_i different
      have owner := linked.ownerOf td' record found
      rw [if_neg, owner]
      intro here
      rw [here, isData, Option.some.injEq] at owner
      exact different owner.symm
  case attached =>
    intro other isAdded
    have different : other ≠ timeout := by
      rintro rfl
      rw [State.withoutData, removed] at isAdded
      cases isAdded
    obtain ⟨td', isTd⟩ := linked.attached other isAdded
    exact ⟨td', (Function.update_of_ne different ..).trans isTd⟩
  case held =>
    intro id timer live
    obtain ⟨record, found, isHandler⟩ := linked.held id timer live
    exact ⟨record, (Function.update_of_ne (elsewhere id timer live) ..).trans found, isHandler⟩
  case handle =>
    intro isConnected td' record id found isHandler
    simp only [State.withoutData, Function.update_apply] at found
    split at found
    · cases found
    · exact linked.handle isConnected td' record id found isHandler
  case eager => exact linked.eager
  case closed => exact linked.closed
  case freshData =>
    intro td' less
    simp only [State.withoutData, Function.update_apply, linked.freshData td' less, ite_self]
  case freshTimer => exact linked.freshTimer

/-- The data of a removed timeout are freed well if they have no timer. -/
theorem timeoutFinalize_iff (linked : Linked state) (sound : Sound state) {timeout : TimeoutId}
    (removed : state.added timeout = false) :
    (Sound (timeoutFinalize state timeout) ↔ Orderly state (.dataFree timeout)) ∧
      (Orderly state (.dataFree timeout) → Linked (timeoutFinalize state timeout)) := by
  cases isData : state.timeoutData timeout with
  | none =>
      have same : timeoutFinalize state timeout = state := by rw [timeoutFinalize, isData]
      have orderly : Orderly state (.dataFree timeout) := by
        intro td isTd
        rw [isData] at isTd
        cases isTd
      rw [same]
      exact ⟨iff_of_true sound orderly, fun _ => linked⟩
  | some td =>
      obtain ⟨record, found, same⟩ := linked.dataOf timeout td isData
      have orderly_iff : Orderly state (.dataFree timeout) ↔ record.handler = none := by
        constructor
        · exact fun orderly => orderly td isData record found
        · intro idle td' isTd record' found'
          obtain rfl := Option.some.inj (isData.symm.trans isTd)
          obtain rfl := Option.some.inj (found.symm.trans found')
          exact idle
      rw [orderly_iff]
      cases isHandler : record.handler with
      | some id =>
          have isClosed : state.connected = false := by
            by_contra isConnected
            have idle := linked.handler_of_removed sound (by simpa using isConnected) removed isData found
            rw [isHandler] at idle
            cases idle
          have dead := (linked.closed isClosed).1 id
          refine ⟨iff_of_false ?_ (by simp), by simp⟩
          intro after
          have isProper := after.proper
          simp only [timeoutFinalize, isData, timeoutDataFree, found, isHandler, timerDel_dead dead] at isProper
          cases isProper
      | none =>
          have freed : timeoutFinalize state timeout = state.withoutData timeout td := by
            simp only [timeoutFinalize, isData, timeoutDataFree, found, isHandler, timerDel, State.withoutData]
          have elsewhere : ∀ id timer, state.timers id = some timer → timer.data ≠ td :=
            fun _ _ live => linked.data_ne found isHandler live
          rw [freed]
          exact ⟨iff_of_true (sound.withoutData elsewhere timeout) rfl,
            fun _ => linked.withoutData removed isData elsewhere⟩

/-- The timers of a list of live ones are deleted. -/
theorem foldl_timerDel (entries : List (Option TimerId)) (distinct : entries.Nodup) (noNull : none ∉ entries)
    (live : ∀ id, some id ∈ entries → (state.timers id).isSome) :
    entries.foldl timerDel state =
      { state with timers := fun id => if some id ∈ entries then none else state.timers id } := by
  induction entries generalizing state with
  | nil => simp
  | cons entry rest ih =>
      cases entry with
      | none => exact absurd List.mem_cons_self noNull
      | some first =>
          obtain ⟨apart, restDistinct⟩ := List.nodup_cons.mp distinct
          rw [List.foldl_cons, timerDel_live (live first List.mem_cons_self),
            ih restDistinct (fun isNull => noNull (.tail _ isNull))]
          · congr 1
            funext id
            by_cases here : id = first
            · simp [here]
            · simp [here]
          · intro id listed
            have different : id ≠ first := by
              rintro rfl
              exact apart listed
            simp only [Function.update_of_ne different]
            exact live id (.tail _ listed)

/-- The connection takes all timers with it. -/
theorem connectionFree_eq (sound : Sound state) :
    connectionFree state =
      { state with
        timers := fun _ => none
        timeouts := []
        connected := false
        added := fun _ => false } := by
  have noTimer : (fun id => if some id ∈ state.timeouts then none else state.timers id) = fun _ => none := by
    funext id
    split
    · rfl
    · rename_i unlisted
      rw [sound.listed id] at unlisted
      simpa using unlisted
  simp only [connectionFree, foldl_timerDel state.timeouts sound.once sound.noNull
    fun id listed => (sound.listed id).mp listed, noTimer]

theorem connectionFree_sound (sound : Sound state) : Sound (connectionFree state) := by
  rw [connectionFree_eq sound]
  constructor
  case armed => exact fun timeout isAdded => by cases isAdded
  case single => exact fun first second left right live => by cases live
  case wanted => exact fun id timer live => by cases live
  case listed => exact fun id => iff_of_false List.not_mem_nil (by simp)
  case once => exact List.nodup_nil
  case noNull => exact List.not_mem_nil
  case proper => exact sound.proper

theorem connectionFree_linked (linked : Linked state) (sound : Sound state) :
    Linked (connectionFree state) := by
  rw [connectionFree_eq sound]
  constructor
  case dataOf => exact linked.dataOf
  case ownerOf => exact linked.ownerOf
  case attached => exact fun timeout isAdded => by cases isAdded
  case held => exact fun id timer live => by cases live
  case handle => exact fun isConnected => by cases isConnected
  case eager => exact fun timeout isAdded => by cases isAdded
  case closed => exact fun _ => ⟨fun _ => rfl, rfl, fun _ => rfl⟩
  case freshData => exact linked.freshData
  case freshTimer => exact fun _ _ => rfl

/-! ## Runs -/

theorem initial_linked : Linked State.initial := by
  constructor <;> simp [State.initial]

theorem initial_sound : Sound State.initial := by
  constructor <;> simp [State.initial]

/-- A step of a sound state leaves it sound exactly if it is orderly, and then keeps the links. -/
theorem step_sound_iff (linked : Linked state) (sound : Sound state) (label : Label) {next : State}
    (stepped : step state label = some next) :
    (Sound next ↔ Orderly state label) ∧ (Orderly state label → Linked next) := by
  cases label with
  | timeoutAdd timeout enabled interval =>
      obtain ⟨⟨isConnected, removed⟩, isNext⟩ := Option.ite_none_right_eq_some.mp stepped
      obtain rfl := Option.some.inj isNext
      refine ⟨timeoutAdd_sound_iff linked sound isConnected removed enabled interval, ?_⟩
      rintro ⟨rfl, rfl⟩
      exact timeoutAdd_linked linked sound isConnected removed
  | timeoutToggle timeout enabled interval =>
      obtain ⟨isAdded, isNext⟩ := Option.ite_none_right_eq_some.mp stepped
      obtain rfl := Option.some.inj isNext
      exact ⟨iff_of_false (timeoutToggle_unsound linked sound isAdded enabled interval) id, False.elim⟩
  | timeoutDel timeout =>
      obtain ⟨isAdded, isNext⟩ := Option.ite_none_right_eq_some.mp stepped
      obtain rfl := Option.some.inj isNext
      exact ⟨iff_of_true (timeoutDel_sound linked sound isAdded) trivial,
        fun _ => timeoutDel_linked linked sound isAdded⟩
  | dataFree timeout =>
      obtain ⟨removed, isNext⟩ := Option.ite_none_left_eq_some.mp stepped
      obtain rfl := Option.some.inj isNext
      exact timeoutFinalize_iff linked sound (by simpa using removed)
  | expire timer =>
      obtain ⟨isLive, isNext⟩ := Option.ite_none_right_eq_some.mp stepped
      obtain rfl := Option.some.inj isNext
      rw [timeoutHandler_eq linked sound isLive]
      exact ⟨iff_of_true (sound.refire _) trivial, fun _ => linked.refire _⟩
  | expired =>
      cases isFiring : state.firing with
      | nil =>
          rw [step, isFiring] at stepped
          cases stepped
      | cons timer outer =>
          rw [step, isFiring] at stepped
          obtain rfl := Option.some.inj stepped
          have orderly_iff : Orderly state .expired ↔ state.timers timer = none := by
            rw [Orderly, isFiring, List.head?_cons]
            simp
          rw [orderly_iff]
          exact timerCancel_iff linked sound timer outer
  | connectionFree =>
      obtain ⟨-, isNext⟩ := Option.ite_none_right_eq_some.mp stepped
      obtain rfl := Option.some.inj isNext
      exact ⟨iff_of_true (connectionFree_sound sound) trivial, fun _ => connectionFree_linked linked sound⟩

/-- The timers of a connection are sound along a run exactly if every step is orderly: timeouts are
added enabled and with the interval zero, never toggled, removed when they expire, and their data are
freed without a timer. -/
theorem sound_throughout_iff (labels : List Label) :
    machine.Throughout Sound State.initial labels ↔
      machine.Along (fun state label _ => Orderly state label) State.initial labels :=
  Semantics.Machine.throughout_iff_along (fun state => Linked state ∧ Sound state)
    (fun _ label _ good stepped => (step_sound_iff good.1 good.2 label stepped).1)
    (fun _ label _ good stepped orderly =>
      ⟨(step_sound_iff good.1 good.2 label stepped).2 orderly,
        (step_sound_iff good.1 good.2 label stepped).1.mpr orderly⟩)
    ⟨initial_linked, initial_sound⟩ initial_sound

/-- A call is to time out after 25 seconds, and its timer is armed for 25000. -/
theorem sound_fails_milliseconds :
    ¬ ∀ labels, machine.Throughout Sound State.initial labels := by
  intro always
  obtain ⟨-, after⟩ := always [.timeoutAdd 0 true 25000]
  have sound := (after _ rfl).start
  exact absurd ((timeoutAdd_sound_iff initial_linked initial_sound rfl rfl true 25000).mp sound).2 (by decide)

end EDBus.Dbus.Timeout
