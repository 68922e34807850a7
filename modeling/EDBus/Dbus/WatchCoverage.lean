import EDBus.Dbus.Watch
import Mathlib.Data.List.Basic

/-!
# When every enabled watch is polled

`Wf` holds of all runs: handler data, watches, live fd handlers and
`cd->fd_handlers` stay linked, and only enabled watches have handlers. On top of
it `Coverage` reduces to "every enabled watch has a handler"
(`coverage_iff`), and `step_coverage_iff` finds the one way to lose it: enabling
a watch whose descriptor an enabled watch already has.
-/

namespace EDBus.Dbus.Watch

/-- How handler data, watches, live handlers and `cd->fd_handlers` hang together,
whatever is enabled. -/
structure Links (libdbus : Libdbus) (state : State) : Prop where
  dataOf : ∀ watch hd, state.watchData watch = some hd →
    ∃ record, state.data hd = some record ∧ record.watch = watch
  watchOf : ∀ hd record, state.data hd = some record →
    state.watchData record.watch = some hd ∧ record.fd = libdbus.unixFd record.watch
  handlerOf : ∀ hd record handler, state.data hd = some record →
    record.fdHandler = some handler →
    state.ecore handler = some ⟨record.fd, eflags (libdbus.flags record.watch), hd⟩
  ownerOf : ∀ handler registered, state.ecore handler = some registered →
    ∃ record, state.data registered.data = some record ∧ record.fdHandler = some handler
  listed : ∀ handler, handler ∈ state.fdHandlers ↔ (state.ecore handler).isSome
  nodup : state.fdHandlers.Nodup
  single : ∀ first second left right, state.ecore first = some left →
    state.ecore second = some right → left.fd = right.fd → first = second
  dataFresh : ∀ hd, (state.data hd).isSome → hd < state.nextData
  handlerFresh : ∀ handler, (state.ecore handler).isSome → handler < state.nextFdHandler

variable {libdbus : Libdbus} {state : State}

/-- The data of a watch points back to it. -/
theorem Links.watch_eq (links : Links libdbus state) {watch : WatchId} {hd : DataId} {record : HandlerData}
    (owner : state.watchData watch = some hd) (found : state.data hd = some record) : record.watch = watch := by
  obtain ⟨record', found', isWatch⟩ := links.dataOf watch hd owner
  rw [found, Option.some.injEq] at found'
  rw [found', isWatch]

/-- Two watches have data of their own. -/
theorem Links.data_ne (links : Links libdbus state) {first second : WatchId} {left right : DataId}
    (firstOwner : state.watchData first = some left) (secondOwner : state.watchData second = some right)
    (different : first ≠ second) : left ≠ right := by
  rintro rfl
  obtain ⟨record, found, isFirst⟩ := links.dataOf first left firstOwner
  exact different (isFirst.symm.trans (links.watch_eq secondOwner found))

/-- Data that exists is not the one allocated next. -/
theorem Links.data_fresh (links : Links libdbus state) {hd : DataId} {record : HandlerData}
    (found : state.data hd = some record) : hd ≠ state.nextData :=
  (links.dataFresh hd (by simp [found])).ne

/-! ## Data that gets another handler, or loses it -/

section Attach

variable {hd : DataId} {record : HandlerData} {handler : Option FdHandlerId}

/-- The data of a watch is the data of the watch still. -/
theorem Links.dataOf_attach (links : Links libdbus state) (found : state.data hd = some record)
    (handler : Option FdHandlerId) {watch : WatchId} {other : DataId} (linked : state.watchData watch = some other) :
    ∃ otherRecord, (if other = hd then some { record with fdHandler := handler } else state.data other) =
      some otherRecord ∧ otherRecord.watch = watch := by
  obtain ⟨otherRecord, otherFound, isWatch⟩ := links.dataOf watch other linked
  by_cases here : other = hd
  · obtain rfl : record = otherRecord := by simpa [here, found] using otherFound
    exact ⟨{ record with fdHandler := handler }, if_pos here, isWatch⟩
  · exact ⟨otherRecord, by rw [if_neg here, otherFound], isWatch⟩

theorem Links.watchOf_attach (links : Links libdbus state) (found : state.data hd = some record)
    {other : DataId} {otherRecord : HandlerData}
    (otherFound : (if other = hd then some { record with fdHandler := handler } else state.data other) =
      some otherRecord) :
    state.watchData otherRecord.watch = some other ∧ otherRecord.fd = libdbus.unixFd otherRecord.watch := by
  by_cases here : other = hd
  · obtain rfl : { record with fdHandler := handler } = otherRecord := by simpa [here] using otherFound
    exact here ▸ links.watchOf hd record found
  · exact links.watchOf other otherRecord (by simpa [here] using otherFound)

/-- No data is new. -/
theorem Links.dataFresh_attach (links : Links libdbus state) (found : state.data hd = some record)
    {other : DataId}
    (present : (if other = hd then some { record with fdHandler := handler } else state.data other).isSome) :
    other < state.nextData := by
  by_cases here : other = hd
  · exact here ▸ links.dataFresh hd (by simp [found])
  · exact links.dataFresh other (by simpa [here] using present)

end Attach

theorem fdHandlerDel_links (links : Links libdbus state) (hd : DataId) :
    Links libdbus (fdHandlerDel state hd) := by
  unfold fdHandlerDel
  split
  · exact links
  · rename_i record found
    split
    · exact links
    · rename_i handler attached
      have own := links.handlerOf hd record handler found attached
      -- the handler belongs to this data only
      have foreign : ∀ other otherRecord, other ≠ hd → state.data other = some otherRecord →
          otherRecord.fdHandler ≠ some handler := by
        intro other otherRecord different otherFound same
        have theirs := links.handlerOf other otherRecord handler otherFound same
        rw [own, Option.some.injEq, FdHandler.mk.injEq] at theirs
        exact different theirs.2.2.symm
      constructor <;> simp only [Function.update_apply]
      case dataOf => exact fun _ _ linked => links.dataOf_attach found _ linked
      case watchOf => exact fun _ _ otherFound => links.watchOf_attach found otherFound
      case handlerOf =>
        intro other otherRecord otherHandler otherFound otherAttached
        by_cases here : other = hd
        · obtain rfl : { record with fdHandler := none } = otherRecord := by simpa [here] using otherFound
          cases otherAttached
        · rw [if_neg here] at otherFound
          have different : otherHandler ≠ handler := by
            rintro rfl
            exact foreign other otherRecord here otherFound otherAttached
          rw [if_neg different]
          exact links.handlerOf other otherRecord otherHandler otherFound otherAttached
      case ownerOf =>
        intro otherHandler registered live
        split at live
        · cases live
        · rename_i different
          obtain ⟨otherRecord, otherFound, otherAttached⟩ := links.ownerOf otherHandler registered live
          have elsewhere : registered.data ≠ hd := by
            intro here
            rw [here, found] at otherFound
            obtain rfl := Option.some.inj otherFound
            exact different (Option.some.inj (otherAttached.symm.trans attached))
          exact ⟨otherRecord, by rw [if_neg elsewhere, otherFound], otherAttached⟩
      case listed =>
        intro otherHandler
        rw [links.nodup.mem_erase_iff, links.listed]
        split
        · rename_i here
          simp [here]
        · rename_i different
          simp [different]
      case nodup => exact links.nodup.erase handler
      case single =>
        intro first second left right firstLive secondLive
        split at firstLive
        · cases firstLive
        · split at secondLive
          · cases secondLive
          · exact links.single first second left right firstLive secondLive
      case dataFresh => exact fun _ present => links.dataFresh_attach found present
      case handlerFresh =>
        intro otherHandler present
        by_cases here : otherHandler = handler
        · simp [here] at present
        · exact links.handlerFresh otherHandler (by simpa [here] using present)

theorem fdHandlerAdd_links (links : Links libdbus state) (hd : DataId) :
    Links libdbus (fdHandlerAdd libdbus state hd) := by
  unfold fdHandlerAdd
  split
  · exact links
  · rename_i record found
    split
    · exact links
    · rename_i unattached
      split
      · exact links
      · rename_i alone
        have unborn : state.ecore state.nextFdHandler = none := by
          by_contra present
          exact Nat.lt_irrefl _ (links.handlerFresh _ (Option.isSome_iff_ne_none.mpr present))
        have noHandler : record.fdHandler = none := by simpa using unattached
        -- no live handler has the descriptor
        have free : ∀ handler registered, state.ecore handler = some registered →
            registered.fd ≠ record.fd := by
          intro handler registered live same
          refine alone (List.any_eq_true.mpr ⟨handler, (links.listed handler).mpr (by simp [live]), ?_⟩)
          simp [State.fdGet, live, same]
        constructor <;> simp only [Function.update_apply]
        case dataOf => exact fun _ _ linked => links.dataOf_attach found _ linked
        case watchOf => exact fun _ _ otherFound => links.watchOf_attach found otherFound
        case handlerOf =>
          intro other otherRecord handler otherFound attached
          by_cases here : other = hd
          · obtain rfl : { record with fdHandler := some state.nextFdHandler } = otherRecord := by
              simpa [here] using otherFound
            obtain rfl := Option.some.inj attached
            rw [if_pos rfl, here]
          · rw [if_neg here] at otherFound
            have live := links.handlerOf other otherRecord handler otherFound attached
            have old : handler ≠ state.nextFdHandler := by
              rintro rfl
              rw [unborn] at live
              cases live
            rw [if_neg old, live]
        case ownerOf =>
          intro handler registered live
          split at live
          · rename_i isNew
            obtain rfl := Option.some.inj live
            exact ⟨_, if_pos rfl, congrArg some isNew.symm⟩
          · obtain ⟨otherRecord, otherFound, attached⟩ := links.ownerOf handler registered live
            have elsewhere : registered.data ≠ hd := by
              intro here
              rw [here, found] at otherFound
              obtain rfl := Option.some.inj otherFound
              rw [noHandler] at attached
              cases attached
            exact ⟨otherRecord, by rw [if_neg elsewhere, otherFound], attached⟩
        case listed =>
          intro handler
          rw [List.mem_append, List.mem_singleton, links.listed]
          split
          · rename_i isNew
            simp [isNew]
          · rename_i isOld
            simp [isOld]
        case nodup =>
          refine List.nodup_append.mpr ⟨links.nodup, by simp, ?_⟩
          rintro handler listed _ last rfl
          rw [List.mem_singleton.mp last, links.listed, unborn] at listed
          cases listed
        case single =>
          intro first second left right firstLive secondLive same
          split at firstLive
          · rename_i firstNew
            obtain rfl := Option.some.inj firstLive
            split at secondLive
            · rename_i secondNew
              rw [firstNew, secondNew]
            · exact absurd same.symm (free second right secondLive)
          · split at secondLive
            · obtain rfl := Option.some.inj secondLive
              exact absurd same (free first left firstLive)
            · exact links.single first second left right firstLive secondLive same
        case dataFresh => exact fun _ present => links.dataFresh_attach found present
        case handlerFresh =>
          intro handler present
          by_cases isNew : handler = state.nextFdHandler
          · exact isNew ▸ Nat.lt_succ_self _
          · exact Nat.lt_succ_of_lt (links.handlerFresh handler (by simpa [isNew] using present))

/-! ## What each function changes -/

@[simp] theorem fdHandlerDel_watches (state : State) (hd : DataId) :
    (fdHandlerDel state hd).watches = state.watches := by
  unfold fdHandlerDel
  split
  · rfl
  · split <;> rfl

@[simp] theorem fdHandlerDel_watchData (state : State) (hd : DataId) :
    (fdHandlerDel state hd).watchData = state.watchData := by
  unfold fdHandlerDel
  split
  · rfl
  · split <;> rfl

@[simp] theorem handlerDataFree_watches (state : State) (hd : DataId) :
    (handlerDataFree state hd).watches = state.watches := by
  unfold handlerDataFree
  split
  · rfl
  · split <;> rfl

@[simp] theorem watchSetData_watches (state : State) (watch : WatchId) (hd : DataId) :
    (watchSetData state watch hd).watches = state.watches := by
  unfold watchSetData
  cases state.watchData watch <;> simp

@[simp] theorem watchDataNew_watches (watch : WatchId) (enabled : Bool) :
    (watchDataNew libdbus state watch enabled).watches =
      Function.update state.watches watch (some enabled) := by
  simp [watchDataNew]

theorem fdHandlerDel_data (state : State) (hd other : DataId) :
    (fdHandlerDel state hd).data other =
      if other = hd then (state.data other).map fun record => { record with fdHandler := none }
      else state.data other := by
  unfold fdHandlerDel
  by_cases here : other = hd
  · subst here
    split
    · next missing => simp [missing]
    · next record found =>
        split
        · next unattached => simp [found, ← unattached]
        · simp [found]
  · rw [if_neg here]
    split
    · rfl
    · split
      · rfl
      · exact Function.update_of_ne here ..

@[simp] theorem fdHandlerAdd_watches (hd : DataId) :
    (fdHandlerAdd libdbus state hd).watches = state.watches := by
  unfold fdHandlerAdd
  split
  · rfl
  · split
    · rfl
    · split <;> rfl

@[simp] theorem fdHandlerAdd_watchData (hd : DataId) :
    (fdHandlerAdd libdbus state hd).watchData = state.watchData := by
  unfold fdHandlerAdd
  split
  · rfl
  · split
    · rfl
    · split <;> rfl

/-- A watch gets a handler unless it has one or its descriptor is occupied. -/
theorem fdHandlerAdd_data {hd : DataId} {record : HandlerData}
    (found : state.data hd = some record) (other : DataId) :
    (fdHandlerAdd libdbus state hd).data other =
      if other = hd then
        some { record with fdHandler :=
          if record.fdHandler.isSome then record.fdHandler
          else if state.occupied record.fd then none else some state.nextFdHandler }
      else state.data other := by
  obtain ⟨fd, attached, watch, enabled⟩ := record
  unfold fdHandlerAdd
  simp only [found]
  have kept : state.data other = if other = hd then some ⟨fd, attached, watch, enabled⟩ else state.data other := by
    split
    · next here => rw [here, found]
    · rfl
  cases attached with
  | some handler => exact kept
  | none =>
      simp only [Option.isSome_none, Bool.false_eq_true, if_false]
      split
      · exact kept
      · simp only [Function.update_apply]

theorem occupied_iff (links : Links libdbus state) (fd : Int) :
    state.occupied fd = true ↔ ∃ hd record, state.data hd = some record ∧
      record.fdHandler.isSome ∧ record.fd = fd := by
  obtain ⟨dataOf, watchOf, handlerOf, ownerOf, listed, -, -, -, -⟩ := links
  simp only [State.occupied, List.any_eq_true, beq_iff_eq, State.fdGet, Option.map_eq_some_iff]
  constructor
  · rintro ⟨handler, member, registered, live, sameFd⟩
    obtain ⟨record, found, attached⟩ := ownerOf handler registered live
    have linked := handlerOf _ _ _ found attached
    rw [live, Option.some.injEq] at linked
    exact ⟨registered.data, record, found, by simp [attached], by rw [← sameFd, linked]⟩
  · rintro ⟨hd, record, found, attached, rfl⟩
    obtain ⟨handler, attached⟩ := Option.isSome_iff_exists.mp attached
    have linked := handlerOf _ _ _ found attached
    exact ⟨handler, (listed handler).mpr (by simp [linked]), _, linked, rfl⟩

/-- Only added and enabled watches have handlers, and the enabled bit of the
handler data is the one of libdbus. -/
structure Enabledness (state : State) : Prop where
  recorded : ∀ watch enabled, state.watches watch = some enabled →
    ∃ hd record, state.watchData watch = some hd ∧ state.data hd = some record ∧
      record.enabled = enabled
  attachedOn : ∀ hd record, state.data hd = some record → record.fdHandler ≠ none →
    record.enabled = true ∧ state.watches record.watch = some true

/-- The invariant of all runs. -/
structure Wf (libdbus : Libdbus) (state : State) : Prop extends
  Links libdbus state, Enabledness state

/-- Data of a watch that was not added has no handler. -/
theorem Wf.unattached (wf : Wf libdbus state) {hd : DataId} {record : HandlerData}
    (found : state.data hd = some record) (absent : state.watches record.watch ≠ some true) :
    record.fdHandler = none := by
  by_contra attached
  exact absent (wf.attachedOn hd record found attached).2

theorem watchFinalize_wf (wf : Wf libdbus state) {watch : WatchId}
    (absent : state.watches watch = none) : Wf libdbus (watchFinalize state watch) := by
  unfold watchFinalize
  cases owner : state.watchData watch with
  | none => exact wf
  | some hd =>
      obtain ⟨record, found, rfl⟩ := wf.dataOf watch hd owner
      have unattached := wf.unattached found (by simp [absent])
      simp only [handlerDataFree, found, unattached]
      -- the data of another watch stays
      have kept : ∀ other otherRecord, (if other = hd then none else state.data other) = some otherRecord →
          other ≠ hd ∧ state.data other = some otherRecord := by
        intro other otherRecord otherFound
        split at otherFound
        · cases otherFound
        · next elsewhere => exact ⟨elsewhere, otherFound⟩
      constructor <;> constructor <;> simp only [Function.update_apply]
      case dataOf =>
        intro other otherHd linked
        split at linked
        · cases linked
        · next different =>
            obtain ⟨otherRecord, otherFound, isWatch⟩ := wf.dataOf other otherHd linked
            exact ⟨otherRecord, by rw [if_neg (wf.data_ne linked owner different), otherFound], isWatch⟩
      case watchOf =>
        intro other otherRecord otherFound
        obtain ⟨elsewhere, otherFound⟩ := kept other otherRecord otherFound
        obtain ⟨linked, sameFd⟩ := wf.watchOf other otherRecord otherFound
        have different : otherRecord.watch ≠ record.watch := by
          intro same
          rw [same, owner] at linked
          exact elsewhere (Option.some.inj linked).symm
        exact ⟨by rw [if_neg different, linked], sameFd⟩
      case handlerOf =>
        intro other otherRecord handler otherFound attached
        exact wf.handlerOf other otherRecord handler (kept other otherRecord otherFound).2 attached
      case ownerOf =>
        intro handler registered live
        obtain ⟨otherRecord, otherFound, attached⟩ := wf.ownerOf handler registered live
        have elsewhere : registered.data ≠ hd := by
          intro here
          rw [here, found] at otherFound
          obtain rfl := Option.some.inj otherFound
          rw [unattached] at attached
          cases attached
        exact ⟨otherRecord, by rw [if_neg elsewhere, otherFound], attached⟩
      case listed => exact wf.listed
      case nodup => exact wf.nodup
      case single => exact wf.single
      case dataFresh =>
        intro other present
        obtain ⟨otherRecord, otherFound⟩ := Option.isSome_iff_exists.mp present
        exact wf.dataFresh other (by simp [(kept other otherRecord otherFound).2])
      case handlerFresh => exact wf.handlerFresh
      case recorded =>
        intro other enabled listedAs
        obtain ⟨otherHd, otherRecord, linked, otherFound, copied⟩ := wf.recorded other enabled listedAs
        have different : other ≠ record.watch := by
          rintro rfl
          rw [absent] at listedAs
          cases listedAs
        exact ⟨otherHd, otherRecord, by rw [if_neg different, linked],
          by rw [if_neg (wf.data_ne linked owner different), otherFound], copied⟩
      case attachedOn =>
        intro other otherRecord otherFound attached
        exact wf.attachedOn other otherRecord (kept other otherRecord otherFound).2 attached

/-- libdbus frees the data that a watch had as it does when it finalises the watch. -/
theorem watchDataNew_finalize (watch : WatchId) (enabled : Bool) :
    watchDataNew libdbus state watch enabled = watchDataNew libdbus (watchFinalize state watch) watch enabled := by
  unfold watchDataNew watchSetData watchFinalize
  cases previous : state.watchData watch with
  | none => simp [previous]
  | some hd =>
      unfold handlerDataFree
      cases found : state.data hd with
      | none => simp [previous, found]
      | some record =>
          cases attached : record.fdHandler with
          | none => simp [previous, found, attached]
          | some handler => simp [previous, found, attached]

/-- A watch that had no data gets some. -/
theorem watchDataNew_none (watch : WatchId) (enabled : Bool) (previous : state.watchData watch = none) :
    watchDataNew libdbus state watch enabled =
      { state with
        watches := Function.update state.watches watch (some enabled)
        watchData := Function.update state.watchData watch (some state.nextData)
        data := Function.update state.data state.nextData
          (some ⟨libdbus.unixFd watch, none, watch, enabled⟩)
        nextData := state.nextData + 1 } := by
  simp only [watchDataNew, watchSetData, previous]

theorem watchFinalize_watchData (state : State) (watch : WatchId) :
    (watchFinalize state watch).watchData watch = none := by
  unfold watchFinalize
  cases owner : state.watchData watch with
  | none => exact owner
  | some hd => simp

theorem watchFinalize_watches (state : State) (watch : WatchId) :
    (watchFinalize state watch).watches = state.watches := by
  unfold watchFinalize
  cases state.watchData watch with
  | none => rfl
  | some hd => exact handlerDataFree_watches state hd

theorem watchDataNew_wf (wf : Wf libdbus state) {watch : WatchId} (enabled : Bool)
    (absent : state.watches watch = none) : Wf libdbus (watchDataNew libdbus state watch enabled) := by
  have previous := watchFinalize_watchData state watch
  have finalized := watchFinalize_wf wf absent
  rw [← watchFinalize_watches state watch] at absent
  rw [watchDataNew_finalize, watchDataNew_none watch enabled previous]
  generalize watchFinalize state watch = state at previous finalized absent ⊢
  constructor <;> constructor <;> simp only [Function.update_apply]
  case dataOf =>
    intro other hd linked
    split at linked
    · next here =>
        obtain rfl := Option.some.inj linked
        exact ⟨_, if_pos rfl, here.symm⟩
    · obtain ⟨record, found, isWatch⟩ := finalized.dataOf other hd linked
      exact ⟨record, by rw [if_neg (finalized.data_fresh found), found], isWatch⟩
  case watchOf =>
    intro hd record found
    split at found
    · next here =>
        obtain rfl := Option.some.inj found
        exact ⟨by rw [if_pos rfl, here], rfl⟩
    · obtain ⟨linked, sameFd⟩ := finalized.watchOf hd record found
      have different : record.watch ≠ watch := by
        intro same
        rw [same, previous] at linked
        cases linked
      exact ⟨by rw [if_neg different, linked], sameFd⟩
  case handlerOf =>
    intro hd record handler found attached
    split at found
    · obtain rfl := Option.some.inj found
      cases attached
    · exact finalized.handlerOf hd record handler found attached
  case ownerOf =>
    intro handler registered live
    obtain ⟨record, found, attached⟩ := finalized.ownerOf handler registered live
    exact ⟨record, by rw [if_neg (finalized.data_fresh found), found], attached⟩
  case listed => exact finalized.listed
  case nodup => exact finalized.nodup
  case single => exact finalized.single
  case dataFresh =>
    intro hd present
    by_cases here : hd = state.nextData
    · exact here ▸ Nat.lt_succ_self _
    · exact Nat.lt_succ_of_lt (finalized.dataFresh hd (by simpa [here] using present))
  case handlerFresh => exact finalized.handlerFresh
  case recorded =>
    intro other wanted listedAs
    by_cases here : other = watch
    · obtain rfl : enabled = wanted := by simpa [here] using listedAs
      exact ⟨state.nextData, _, if_pos here, if_pos rfl, rfl⟩
    · rw [if_neg here] at listedAs
      obtain ⟨hd, record, linked, found, copied⟩ := finalized.recorded other wanted listedAs
      exact ⟨hd, record, by rw [if_neg here, linked], by rw [if_neg (finalized.data_fresh found), found], copied⟩
  case attachedOn =>
    intro hd record found attached
    split at found
    · obtain rfl := Option.some.inj found
      exact absurd rfl attached
    · obtain ⟨isOn, present⟩ := finalized.attachedOn hd record found attached
      have different : record.watch ≠ watch := by
        intro same
        rw [same, absent] at present
        cases present
      exact ⟨isOn, by rw [if_neg different, present]⟩

theorem fdHandlerAdd_wf (wf : Wf libdbus state) {hd : DataId} {record : HandlerData}
    (found : state.data hd = some record) (enabled : record.enabled = true)
    (present : state.watches record.watch = some true) :
    Wf libdbus (fdHandlerAdd libdbus state hd) := by
  refine ⟨fdHandlerAdd_links wf.toLinks hd, ?_⟩
  obtain ⟨recorded, attachedOn⟩ := wf.toEnabledness
  constructor <;> simp only [fdHandlerAdd_watches, fdHandlerAdd_watchData, fdHandlerAdd_data found]
  · intro watch wanted listedAs
    obtain ⟨owner, ownRecord, linked, ownFound, copied⟩ := recorded watch wanted listedAs
    by_cases here : owner = hd
    · subst here
      obtain rfl := Option.some.inj (found.symm.trans ownFound)
      exact ⟨owner, _, linked, if_pos rfl, copied⟩
    · exact ⟨owner, ownRecord, linked, by rw [if_neg here, ownFound], copied⟩
  · intro other otherRecord otherFound attached
    split at otherFound
    · obtain rfl := Option.some.inj otherFound
      exact ⟨enabled, present⟩
    · exact attachedOn other otherRecord otherFound attached

theorem fdHandlerDel_wf (wf : Wf libdbus state) (hd : DataId) :
    Wf libdbus (fdHandlerDel state hd) := by
  refine ⟨fdHandlerDel_links wf.toLinks hd, ?_⟩
  obtain ⟨recorded, attachedOn⟩ := wf.toEnabledness
  constructor <;> simp only [fdHandlerDel_watches, fdHandlerDel_watchData, fdHandlerDel_data]
  · intro watch enabled listedAs
    obtain ⟨owner, record, linked, found, copied⟩ := recorded watch enabled listedAs
    by_cases here : owner = hd
    · subst here
      exact ⟨owner, { record with fdHandler := none }, linked, by simp [found], copied⟩
    · exact ⟨owner, record, linked, by simpa [here] using found, copied⟩
  · intro other record found attached
    by_cases here : other = hd
    · simp only [here, if_true, Option.map_eq_some_iff] at found
      obtain ⟨before, _, rfl⟩ := found
      exact absurd rfl attached
    · exact attachedOn other record (by simpa [here] using found) attached

theorem watchAdd_wf (wf : Wf libdbus state) {watch : WatchId} (enabled : Bool)
    (absent : state.watches watch = none) : Wf libdbus (watchAdd libdbus state watch enabled) := by
  have added := watchDataNew_wf wf enabled absent
  cases enabled with
  | false => exact added
  | true =>
      have found : (watchDataNew libdbus state watch true).data state.nextData =
          some ⟨libdbus.unixFd watch, none, watch, true⟩ := by simp [watchDataNew]
      exact fdHandlerAdd_wf added found rfl (by simp [watchDataNew])

/-- The data of the watch that was toggled, and all other data. -/
theorem watchEnabledSet_data (watch : WatchId) {hd : DataId} {record : HandlerData}
    (found : state.data hd = some record) (enabled : Bool) (other : DataId) :
    (watchEnabledSet state watch hd enabled).data other =
      if other = hd then some { record with enabled := enabled } else state.data other := by
  simp only [watchEnabledSet, Function.update_apply, found, Option.map_some]

theorem watchEnabledSet_links (links : Links libdbus state) (watch : WatchId) {hd : DataId}
    {record : HandlerData} (found : state.data hd = some record) (enabled : Bool) :
    Links libdbus (watchEnabledSet state watch hd enabled) := by
  have data := watchEnabledSet_data watch found enabled
  -- only the enabled bit differs from what was there before
  have before : ∀ other after, (watchEnabledSet state watch hd enabled).data other = some after →
      ∃ prior, state.data other = some prior ∧ after.watch = prior.watch ∧ after.fd = prior.fd ∧
        after.fdHandler = prior.fdHandler := by
    intro other after isAfter
    rw [data] at isAfter
    split at isAfter
    · next here =>
        obtain rfl := Option.some.inj isAfter
        exact ⟨record, here ▸ found, rfl, rfl, rfl⟩
    · exact ⟨after, isAfter, rfl, rfl, rfl⟩
  have later : ∀ other prior, state.data other = some prior →
      ∃ after, (watchEnabledSet state watch hd enabled).data other = some after ∧
        after.watch = prior.watch ∧ after.fdHandler = prior.fdHandler := by
    intro other prior isPrior
    rw [data]
    split
    · next here =>
        obtain rfl := Option.some.inj (found.symm.trans (here ▸ isPrior))
        exact ⟨_, rfl, rfl, rfl⟩
    · exact ⟨prior, isPrior, rfl, rfl⟩
  constructor
  case dataOf =>
    intro other otherHd linked
    obtain ⟨prior, isPrior, isWatch⟩ := links.dataOf other otherHd linked
    obtain ⟨after, isAfter, sameWatch, -⟩ := later otherHd prior isPrior
    exact ⟨after, isAfter, sameWatch.trans isWatch⟩
  case watchOf =>
    intro other after isAfter
    obtain ⟨prior, isPrior, sameWatch, sameFd, -⟩ := before other after isAfter
    rw [sameWatch, sameFd]
    exact links.watchOf other prior isPrior
  case handlerOf =>
    intro other after handler isAfter attached
    obtain ⟨prior, isPrior, sameWatch, sameFd, sameHandler⟩ := before other after isAfter
    rw [sameWatch, sameFd]
    exact links.handlerOf other prior handler isPrior (sameHandler ▸ attached)
  case ownerOf =>
    intro handler registered live
    obtain ⟨prior, isPrior, attached⟩ := links.ownerOf handler registered live
    obtain ⟨after, isAfter, -, sameHandler⟩ := later registered.data prior isPrior
    exact ⟨after, isAfter, sameHandler.trans attached⟩
  case listed => exact links.listed
  case nodup => exact links.nodup
  case single => exact links.single
  case dataFresh =>
    intro other present
    obtain ⟨after, isAfter⟩ := Option.isSome_iff_exists.mp present
    obtain ⟨prior, isPrior, -⟩ := before other after isAfter
    exact links.dataFresh other (by simp [isPrior])
  case handlerFresh => exact links.handlerFresh

/-- The bit of the toggled watch is recorded as that of libdbus. -/
theorem watchEnabledSet_recorded (wf : Wf libdbus state) {watch : WatchId} {hd : DataId} {record : HandlerData}
    (owner : state.watchData watch = some hd) (found : state.data hd = some record) (enabled : Bool)
    {other : WatchId} {wanted : Bool}
    (listedAs : (watchEnabledSet state watch hd enabled).watches other = some wanted) :
    ∃ otherHd otherRecord, state.watchData other = some otherHd ∧
      (watchEnabledSet state watch hd enabled).data otherHd = some otherRecord ∧
      otherRecord.enabled = wanted := by
  simp only [watchEnabledSet, Function.update_apply] at listedAs
  split at listedAs
  · next here =>
      obtain rfl := Option.some.inj listedAs
      exact ⟨hd, _, here ▸ owner, by rw [watchEnabledSet_data watch found, if_pos rfl], rfl⟩
  · next different =>
      obtain ⟨otherHd, otherRecord, linked, otherFound, copied⟩ := wf.recorded other wanted listedAs
      have elsewhere := wf.data_ne linked owner different
      exact ⟨otherHd, otherRecord, linked, by rw [watchEnabledSet_data watch found, if_neg elsewhere, otherFound], copied⟩

/-- What other watches have is as it was. -/
theorem watchEnabledSet_other (wf : Wf libdbus state) {watch : WatchId} {hd : DataId} {record : HandlerData}
    (owner : state.watchData watch = some hd) (found : state.data hd = some record) (enabled : Bool)
    {other : DataId} {otherRecord : HandlerData} (elsewhere : other ≠ hd)
    (otherFound : (watchEnabledSet state watch hd enabled).data other = some otherRecord)
    (attached : otherRecord.fdHandler ≠ none) :
    otherRecord.enabled = true ∧
      (watchEnabledSet state watch hd enabled).watches otherRecord.watch = some true := by
  rw [watchEnabledSet_data watch found, if_neg elsewhere] at otherFound
  obtain ⟨isOn, present⟩ := wf.attachedOn other otherRecord otherFound attached
  have different : otherRecord.watch ≠ watch := by
    intro same
    have linked := (wf.watchOf other otherRecord otherFound).1
    rw [same, owner] at linked
    exact elsewhere (Option.some.inj linked).symm
  exact ⟨isOn, (Function.update_of_ne different ..).trans present⟩

theorem watchToggle_wf (wf : Wf libdbus state) {watch : WatchId} (enabled : Bool)
    (present : (state.watches watch).isSome) :
    Wf libdbus (watchToggle libdbus state watch enabled) := by
  obtain ⟨before, wasPresent⟩ := Option.isSome_iff_exists.mp present
  obtain ⟨hd, record, owner, found, rfl⟩ := wf.recorded watch before wasPresent
  have sameWatch := wf.watch_eq owner found
  have links := watchEnabledSet_links wf.toLinks watch found enabled
  have data := watchEnabledSet_data watch found enabled
  have toggled : (watchEnabledSet state watch hd enabled).watches watch = some enabled := Function.update_self ..
  unfold watchToggle
  simp only [owner]
  cases enabled with
  | true =>
      simp only [if_true]
      have switched : Wf libdbus (watchEnabledSet state watch hd true) := by
        refine ⟨links, fun _ _ listedAs => watchEnabledSet_recorded wf owner found true listedAs, ?_⟩
        intro other otherRecord otherFound attached
        by_cases here : other = hd
        · rw [data, if_pos here] at otherFound
          obtain rfl := Option.some.inj otherFound
          exact ⟨rfl, sameWatch ▸ toggled⟩
        · exact watchEnabledSet_other wf owner found true here otherFound attached
      have foundAfter : (watchEnabledSet state watch hd true).data hd =
          some { record with enabled := true } := by rw [data, if_pos rfl]
      exact fdHandlerAdd_wf switched foundAfter rfl (sameWatch ▸ toggled)
  | false =>
      simp only [Bool.false_eq_true, if_false]
      refine ⟨fdHandlerDel_links links hd, ?_⟩
      constructor <;> simp only [fdHandlerDel_watches, fdHandlerDel_watchData, fdHandlerDel_data]
      · intro other wanted listedAs
        obtain ⟨otherHd, otherRecord, linked, otherFound, copied⟩ :=
          watchEnabledSet_recorded wf owner found false listedAs
        by_cases here : otherHd = hd
        · exact ⟨otherHd, { otherRecord with fdHandler := none }, linked,
            by rw [if_pos here, otherFound, Option.map_some], copied⟩
        · exact ⟨otherHd, otherRecord, linked, by rw [if_neg here, otherFound], copied⟩
      · intro other otherRecord otherFound attached
        split at otherFound
        · obtain ⟨_, -, rfl⟩ := Option.map_eq_some_iff.mp otherFound
          exact absurd rfl attached
        · next elsewhere => exact watchEnabledSet_other wf owner found false elsewhere otherFound attached

theorem watchDel_wf (wf : Wf libdbus state) (watch : WatchId) : Wf libdbus (watchDel state watch) := by
  -- a watch without a handler leaves the list
  have removed : ∀ state, Wf libdbus state →
      (∀ hd record, state.watchData watch = some hd → state.data hd = some record → record.fdHandler = none) →
      Wf libdbus { state with watches := Function.update state.watches watch none } := by
    intro state wf detached
    refine ⟨{ wf.toLinks with }, ?_⟩
    constructor <;> simp only [Function.update_apply]
    · intro other enabled listedAs
      split at listedAs
      · cases listedAs
      · exact wf.recorded other enabled listedAs
    · intro hd record found attached
      have different : record.watch ≠ watch := by
        intro same
        exact attached (detached hd record (same ▸ (wf.watchOf hd record found).1) found)
      rw [if_neg different]
      exact wf.attachedOn hd record found attached
  unfold watchDel
  cases owner : state.watchData watch with
  | none =>
      refine removed state wf fun hd record linked _ => ?_
      rw [owner] at linked
      cases linked
  | some hd =>
      refine removed (fdHandlerDel state hd) (fdHandlerDel_wf wf hd) fun other record linked found => ?_
      rw [fdHandlerDel_watchData, owner, Option.some.injEq] at linked
      rw [fdHandlerDel_data, if_pos linked.symm] at found
      obtain ⟨_, -, rfl⟩ := Option.map_eq_some_iff.mp found
      rfl

theorem fdHandler_wf (wf : Wf libdbus state) (handler : FdHandlerId) (active : FdHandlerFlags) :
    Wf libdbus (fdHandler state handler active).1 := by
  unfold fdHandler
  split
  · exact wf
  · split
    · exact wf
    · split
      · exact wf
      · exact fdHandlerDel_wf wf _

/-- What a step does, and what it needs. -/
theorem step_cases {label : Label} {next : State} (stepped : step libdbus state label = some next) :
    match label with
    | .watchAdd watch enabled => state.watches watch = none ∧ watchAdd libdbus state watch enabled = next
    | .watchToggle watch enabled =>
      (state.watches watch).isSome = true ∧ watchToggle libdbus state watch enabled = next
    | .watchDel watch => (state.watches watch).isSome = true ∧ watchDel state watch = next
    | .dataFree watch => state.watches watch = none ∧ watchFinalize state watch = next
    | .fdReady handler active =>
      (state.ecore handler).isSome = true ∧ (fdHandler state handler active).1 = next := by
  cases label with
  | watchAdd watch enabled =>
      simpa only [step, Option.isNone_iff_eq_none, Option.ite_none_right_eq_some, Option.some.injEq] using stepped
  | watchToggle watch enabled =>
      simpa only [step, Option.ite_none_right_eq_some, Option.some.injEq] using stepped
  | watchDel watch =>
      simpa only [step, Option.ite_none_right_eq_some, Option.some.injEq] using stepped
  | dataFree watch =>
      simpa only [step, Option.isNone_iff_eq_none, Option.ite_none_right_eq_some, Option.some.injEq] using stepped
  | fdReady handler active =>
      simpa only [step, Option.ite_none_right_eq_some, Option.some.injEq] using stepped

theorem step_wf (label : Label) {next : State} (wf : Wf libdbus state)
    (stepped : step libdbus state label = some next) : Wf libdbus next := by
  cases label with
  | watchAdd watch enabled =>
      obtain ⟨absent, rfl⟩ := step_cases stepped
      exact watchAdd_wf wf enabled absent
  | watchToggle watch enabled =>
      obtain ⟨present, rfl⟩ := step_cases stepped
      exact watchToggle_wf wf enabled present
  | watchDel watch =>
      obtain ⟨-, rfl⟩ := step_cases stepped
      exact watchDel_wf wf watch
  | dataFree watch =>
      obtain ⟨absent, rfl⟩ := step_cases stepped
      exact watchFinalize_wf wf absent
  | fdReady handler active =>
      obtain ⟨-, rfl⟩ := step_cases stepped
      exact fdHandler_wf wf handler active

/-! ## Coverage -/

/-- The intended state of a connection's watches. -/
structure Coverage (libdbus : Libdbus) (state : State) : Prop where
  /-- Every added and enabled watch is polled for all its conditions by a handler
  whose firing handles that watch. -/
  covered : ∀ watch, state.watches watch = some true →
    ∃ handler registered, state.ecore handler = some registered ∧
      registered.fd = libdbus.unixFd watch ∧
      ((libdbus.flags watch).readable = true → registered.flags.read = true) ∧
      ((libdbus.flags watch).writable = true → registered.flags.write = true) ∧
      ∀ active, (fdHandler state handler active).2 = some (watch, active)
  /-- A live handler belongs to an added and enabled watch. -/
  owned : ∀ handler registered, state.ecore handler = some registered →
    ∃ record, state.data registered.data = some record ∧ state.watches record.watch = some true
  /-- `cd->fd_handlers` holds exactly the live handlers, each once. -/
  listed : ∀ handler, handler ∈ state.fdHandlers ↔ (state.ecore handler).isSome
  nodup : state.fdHandlers.Nodup

/-- The watch enabled by the step is the only enabled one on its descriptor. -/
def Exclusive (libdbus : Libdbus) (state : State) : Label → Prop
  | .watchAdd watch true | .watchToggle watch true =>
    ∀ other, other ≠ watch → state.watches other = some true →
      libdbus.unixFd other ≠ libdbus.unixFd watch
  | _ => True

/-- The watch has a handler of its own. -/
def State.attached (state : State) (watch : WatchId) : Prop :=
  ∃ hd record, state.watchData watch = some hd ∧ state.data hd = some record ∧
    record.fdHandler ≠ none

/-- Whether a watch has a handler is kept in its data. -/
theorem Links.attached_iff (links : Links libdbus state) {hd : DataId} {record : HandlerData}
    (found : state.data hd = some record) : state.attached record.watch ↔ record.fdHandler ≠ none := by
  have owner := (links.watchOf hd record found).1
  constructor
  · rintro ⟨hd', record', owner', found', isAttached⟩
    obtain rfl := Option.some.inj (owner.symm.trans owner')
    obtain rfl := Option.some.inj (found.symm.trans found')
    exact isAttached
  · intro isAttached
    exact ⟨hd, record, owner, found, isAttached⟩

/-- Only one watch has a handler on a descriptor. -/
theorem Links.attached_unique (links : Links libdbus state) {first second : WatchId}
    (firstAttached : state.attached first) (secondAttached : state.attached second)
    (sameFd : libdbus.unixFd first = libdbus.unixFd second) : first = second := by
  obtain ⟨left, leftRecord, leftOwner, leftFound, leftAttached⟩ := firstAttached
  obtain ⟨right, rightRecord, rightOwner, rightFound, rightAttached⟩ := secondAttached
  obtain ⟨leftHandler, isLeft⟩ := Option.ne_none_iff_exists'.mp leftAttached
  obtain ⟨rightHandler, isRight⟩ := Option.ne_none_iff_exists'.mp rightAttached
  have leftLive := links.handlerOf left leftRecord leftHandler leftFound isLeft
  have rightLive := links.handlerOf right rightRecord rightHandler rightFound isRight
  have sameHandler : leftHandler = rightHandler := by
    refine links.single leftHandler rightHandler _ _ leftLive rightLive ?_
    rw [(links.watchOf left leftRecord leftFound).2, (links.watchOf right rightRecord rightFound).2,
      links.watch_eq leftOwner leftFound, links.watch_eq rightOwner rightFound, sameFd]
  subst sameHandler
  rw [leftLive, Option.some.injEq, FdHandler.mk.injEq] at rightLive
  by_contra different
  exact links.data_ne leftOwner rightOwner different rightLive.2.2

theorem coverage_iff (wf : Wf libdbus state) :
    Coverage libdbus state ↔ ∀ watch, state.watches watch = some true → state.attached watch := by
  constructor
  · intro coverage watch enabled
    obtain ⟨handler, registered, live, -, -, -, fires⟩ := coverage.covered watch enabled
    obtain ⟨record, found, attached⟩ := wf.ownerOf handler registered live
    have handled := fires ⟨true, true, true⟩
    have isOn : record.enabled = true := (wf.attachedOn _ _ found (by simp [attached])).1
    simp only [fdHandler, live, found, isOn, if_true, Option.some.injEq, Prod.mk.injEq,
      and_true] at handled
    exact ⟨registered.data, record, handled ▸ (wf.watchOf _ _ found).1, found, by simp [attached]⟩
  · intro attached
    refine ⟨fun watch enabled => ?_, fun handler registered live => ?_, wf.listed, wf.nodup⟩
    · obtain ⟨hd, record, owner, found, isAttached⟩ := attached watch enabled
      obtain ⟨handler, isHandler⟩ := Option.ne_none_iff_exists'.mp isAttached
      have live := wf.handlerOf hd record handler found isHandler
      have isOn : record.enabled = true := (wf.attachedOn hd record found isAttached).1
      have sameRecord := wf.watch_eq owner found
      refine ⟨handler, _, live, ?_, ?_, ?_, fun active => ?_⟩
      · rw [(wf.watchOf hd record found).2, sameRecord]
      · simp [eflags, sameRecord]
      · simp [eflags, sameRecord]
      · simp [fdHandler, live, found, isOn, sameRecord]
    · obtain ⟨record, found, isAttached⟩ := wf.ownerOf handler registered live
      exact ⟨record, found, (wf.attachedOn _ _ found (by simp [isAttached])).2⟩

theorem fdHandlerAdd_attached_iff (links : Links libdbus state) {hd : DataId} {record : HandlerData}
    (found : state.data hd = some record) (other : WatchId) :
    (fdHandlerAdd libdbus state hd).attached other ↔
      state.attached other ∨ (other = record.watch ∧ state.occupied record.fd = false) := by
  have owner := (links.watchOf hd record found).1
  simp only [State.attached, fdHandlerAdd_watchData, fdHandlerAdd_data found]
  constructor
  · rintro ⟨found', record', owner', isFound, attached⟩
    by_cases here : found' = hd
    · have same := links.watch_eq (here ▸ owner') found
      rw [if_pos here, Option.some.injEq] at isFound
      subst isFound
      cases before : record.fdHandler with
      | some handler => exact .inl ⟨hd, record, here ▸ owner', found, by simp [before]⟩
      | none =>
          refine .inr ⟨same.symm, ?_⟩
          by_contra occupied
          simp [before, occupied] at attached
    · exact .inl ⟨found', record', owner', by simpa [here] using isFound, attached⟩
  · rintro (⟨found', record', owner', isFound, attached⟩ | ⟨rfl, free⟩)
    · by_cases here : found' = hd
      · subst here
        obtain rfl : record = record' := by simpa [found] using isFound
        refine ⟨found', _, owner', if_pos rfl, ?_⟩
        simp [Option.isSome_iff_ne_none, attached]
      · exact ⟨found', record', owner', by simpa [here] using isFound, attached⟩
    · refine ⟨hd, _, owner, if_pos rfl, ?_⟩
      cases before : record.fdHandler <;> simp [free]

theorem fdHandlerDel_attached (links : Links libdbus state) {hd : DataId} {record : HandlerData}
    (found : state.data hd = some record) {other : WatchId} (different : other ≠ record.watch)
    (attached : state.attached other) : (fdHandlerDel state hd).attached other := by
  obtain ⟨found', record', owner', isFound, isAttached⟩ := attached
  have elsewhere := links.data_ne owner' (links.watchOf hd record found).1 different
  exact ⟨found', record', by simpa using owner', by simpa [fdHandlerDel_data, elsewhere] using isFound,
    isAttached⟩

/-- In a covered state a descriptor is occupied exactly if an enabled watch has it. -/
theorem occupied_iff_enabled (wf : Wf libdbus state) (coverage : Coverage libdbus state) (fd : Int) :
    state.occupied fd = true ↔
      ∃ watch, state.watches watch = some true ∧ libdbus.unixFd watch = fd := by
  rw [occupied_iff wf.toLinks]
  constructor
  · rintro ⟨hd, record, found, attached, rfl⟩
    have isAttached : record.fdHandler ≠ none := Option.isSome_iff_ne_none.mp attached
    exact ⟨record.watch, (wf.attachedOn hd record found isAttached).2, (wf.watchOf hd record found).2.symm⟩
  · rintro ⟨watch, enabled, rfl⟩
    obtain ⟨hd, record, owner, found, attached⟩ := (coverage_iff wf).mp coverage watch enabled
    refine ⟨hd, record, found, Option.isSome_iff_ne_none.mpr attached, ?_⟩
    rw [(wf.watchOf hd record found).2, wf.watch_eq owner found]

/-! ## One step -/

theorem watchFinalize_occupied (wf : Wf libdbus state) {watch : WatchId}
    (absent : state.watches watch = none) (fd : Int) :
    (watchFinalize state watch).occupied fd = state.occupied fd := by
  unfold watchFinalize
  cases owner : state.watchData watch with
  | none => rfl
  | some hd =>
      obtain ⟨record, found, rfl⟩ := wf.dataOf watch hd owner
      simp only [handlerDataFree, found, wf.unattached found (by simp [absent])]
      rfl

theorem watchFinalize_attached (wf : Wf libdbus state) {watch other : WatchId} (different : other ≠ watch)
    (attached : state.attached other) : (watchFinalize state watch).attached other := by
  unfold watchFinalize
  cases owner : state.watchData watch with
  | none => exact attached
  | some hd =>
      obtain ⟨hd', record', owner', found', isAttached⟩ := attached
      obtain ⟨record, found, sameWatch⟩ := wf.dataOf watch hd owner
      have elsewhere := wf.data_ne owner' owner different
      unfold handlerDataFree
      simp only [found]
      cases record.fdHandler with
      | none => exact ⟨hd', record', by simpa [different] using owner', by simpa [elsewhere] using found', isAttached⟩
      | some handler =>
          exact ⟨hd', record', by simpa [different] using owner', by simpa [elsewhere] using found', isAttached⟩

theorem watchDataNew_occupied (wf : Wf libdbus state) {watch : WatchId} (enabled : Bool)
    (absent : state.watches watch = none) (fd : Int) :
    (watchDataNew libdbus state watch enabled).occupied fd = state.occupied fd := by
  rw [watchDataNew_finalize, watchDataNew_none watch enabled (watchFinalize_watchData state watch)]
  exact watchFinalize_occupied wf absent fd

theorem watchDataNew_attached (wf : Wf libdbus state) {watch : WatchId} (enabled : Bool)
    (absent : state.watches watch = none) {other : WatchId} (different : other ≠ watch)
    (attached : state.attached other) : (watchDataNew libdbus state watch enabled).attached other := by
  have finalized := watchFinalize_wf wf absent
  rw [watchDataNew_finalize, watchDataNew_none watch enabled (watchFinalize_watchData state watch)]
  obtain ⟨hd, record, owner, found, isAttached⟩ := watchFinalize_attached wf different attached
  have fresh := finalized.data_fresh found
  exact ⟨hd, record, by simpa [different] using owner, by simpa [fresh] using found, isAttached⟩

theorem watchAdd_coverage_iff (wf : Wf libdbus state) (coverage : Coverage libdbus state)
    {watch : WatchId} (enabled : Bool) (absent : state.watches watch = none) :
    Coverage libdbus (watchAdd libdbus state watch enabled) ↔
      Exclusive libdbus state (.watchAdd watch enabled) := by
  have attached := (coverage_iff wf).mp coverage
  have added := watchDataNew_wf wf enabled absent
  rw [coverage_iff (watchAdd_wf wf enabled absent)]
  unfold watchAdd
  cases enabled with
  | false =>
      refine iff_of_true (fun other present => ?_) trivial
      simp only [Bool.false_eq_true, if_false, watchDataNew_watches, Function.update_apply] at present ⊢
      have different : other ≠ watch := by
        rintro rfl
        simp at present
      exact watchDataNew_attached wf false absent different (attached other (by simpa [different] using present))
  | true =>
      have found : (watchDataNew libdbus state watch true).data state.nextData =
          some ⟨libdbus.unixFd watch, none, watch, true⟩ := by simp [watchDataNew]
      simp only [if_true, fdHandlerAdd_watches, watchDataNew_watches,
        fdHandlerAdd_attached_iff added.toLinks found, watchDataNew_occupied wf true absent]
      constructor
      · intro covered other different present sameFd
        have isFree : state.occupied (libdbus.unixFd watch) = false := by
          rcases covered watch (by simp) with isAttached | ⟨_, isFree⟩
          · exact absurd rfl ((added.attached_iff found).mp isAttached)
          · exact isFree
        have occupied : state.occupied (libdbus.unixFd watch) = true :=
          (occupied_iff_enabled wf coverage _).mpr ⟨other, present, sameFd⟩
        simp [occupied] at isFree
      · intro exclusive other present
        by_cases here : other = watch
        · refine .inr ⟨here, ?_⟩
          by_contra occupied
          obtain ⟨holder, isOn, sameFd⟩ := (occupied_iff_enabled wf coverage _).mp
            (by simpa using occupied)
          refine exclusive holder ?_ isOn sameFd
          rintro rfl
          simp [absent] at isOn
        · exact .inl (watchDataNew_attached wf true absent here
            (attached other (by simpa [Function.update_apply, here] using present)))

theorem watchEnabledSet_attached_iff {watch : WatchId} {hd : DataId} {enabled : Bool}
    (other : WatchId) : (watchEnabledSet state watch hd enabled).attached other ↔
      state.attached other := by
  simp only [State.attached, watchEnabledSet, Function.update_apply]
  constructor
  · rintro ⟨found, record, owner, isFound, isAttached⟩
    by_cases here : found = hd
    · simp only [here, if_true, Option.map_eq_some_iff] at isFound
      obtain ⟨before, isBefore, rfl⟩ := isFound
      exact ⟨found, before, owner, here ▸ isBefore, isAttached⟩
    · exact ⟨found, record, owner, by simpa [here] using isFound, isAttached⟩
  · rintro ⟨found, record, owner, isFound, isAttached⟩
    by_cases here : found = hd
    · subst here
      exact ⟨found, { record with enabled := enabled }, owner, by simp [isFound], isAttached⟩
    · exact ⟨found, record, owner, by simpa [here] using isFound, isAttached⟩

theorem watchToggle_coverage_iff (wf : Wf libdbus state) (coverage : Coverage libdbus state)
    {watch : WatchId} (enabled : Bool) (present : (state.watches watch).isSome) :
    Coverage libdbus (watchToggle libdbus state watch enabled) ↔
      Exclusive libdbus state (.watchToggle watch enabled) := by
  have attached := (coverage_iff wf).mp coverage
  rw [coverage_iff (watchToggle_wf wf enabled present)]
  obtain ⟨before, wasPresent⟩ := Option.isSome_iff_exists.mp present
  obtain ⟨hd, record, owner, found, rfl⟩ := wf.recorded watch before wasPresent
  have sameWatch := wf.watch_eq owner found
  have sameFd : record.fd = libdbus.unixFd watch := by rw [(wf.watchOf hd record found).2, sameWatch]
  have links := watchEnabledSet_links wf.toLinks watch found enabled
  have foundAfter : (watchEnabledSet state watch hd enabled).data hd =
      some { record with enabled := enabled } := by simp [watchEnabledSet, found]
  have watches : (watchEnabledSet state watch hd enabled).watches =
      Function.update state.watches watch (some enabled) := rfl
  have occupied : (watchEnabledSet state watch hd enabled).occupied record.fd =
      state.occupied record.fd := rfl
  unfold watchToggle
  simp only [owner]
  cases enabled with
  | false =>
      refine iff_of_true (fun other isOn => ?_) trivial
      simp only [Bool.false_eq_true, if_false, fdHandlerDel_watches, watches] at isOn ⊢
      have different : other ≠ watch := by
        rintro rfl
        simp at isOn
      have wasOn : state.watches other = some true := by simpa [different] using isOn
      exact fdHandlerDel_attached links foundAfter (by simpa [sameWatch] using different)
        ((watchEnabledSet_attached_iff other).mpr (attached other wasOn))
  | true =>
      simp only [if_true, fdHandlerAdd_watches, watches,
        fdHandlerAdd_attached_iff links foundAfter, watchEnabledSet_attached_iff, occupied]
      constructor
      · intro covered other different isOn sameDescriptor
        have isOccupied : state.occupied record.fd = true :=
          (occupied_iff_enabled wf coverage _).mpr ⟨other, isOn, by rw [sameDescriptor, sameFd]⟩
        rcases covered watch (by simp) with isAttached | ⟨_, isFree⟩
        · exact different (wf.attached_unique (attached other isOn) isAttached sameDescriptor)
        · simp [isOccupied] at isFree
      · intro exclusive other isOn
        by_cases here : other = watch
        · by_cases isAttached : record.fdHandler = none
          · refine .inr ⟨by rw [here, sameWatch], ?_⟩
            by_contra isOccupied
            obtain ⟨holder, holderOn, holderFd⟩ := (occupied_iff_enabled wf coverage _).mp
              (by simpa using isOccupied)
            refine exclusive holder ?_ holderOn (by rw [holderFd, sameFd])
            intro isToggled
            have toggledAttached := attached holder holderOn
            rw [isToggled, ← sameWatch] at toggledAttached
            exact (wf.attached_iff found).mp toggledAttached isAttached
          · exact .inl ⟨hd, record, here ▸ owner, found, isAttached⟩
        · exact .inl (attached other (by simpa [Function.update_apply, here] using isOn))

/-- A step that enables no watch and takes no enabled watch's handler keeps coverage. -/
theorem coverage_of_unchanged (wf : Wf libdbus state) (coverage : Coverage libdbus state)
    {next : State} (wfNext : Wf libdbus next)
    (fewer : ∀ watch, next.watches watch = some true →
      state.watches watch = some true ∧ (state.attached watch → next.attached watch)) :
    Coverage libdbus next := by
  refine (coverage_iff wfNext).mpr fun watch isOn => ?_
  obtain ⟨wasOn, kept⟩ := fewer watch isOn
  exact kept ((coverage_iff wf).mp coverage watch wasOn)

theorem watchDel_coverage (wf : Wf libdbus state) (coverage : Coverage libdbus state)
    (watch : WatchId) : Coverage libdbus (watchDel state watch) := by
  refine coverage_of_unchanged wf coverage (watchDel_wf wf watch) fun other isOn => ?_
  have different : other ≠ watch := by
    rintro rfl
    simp [watchDel] at isOn
  unfold watchDel at isOn ⊢
  cases owner : state.watchData watch with
  | none =>
      simp only [owner, Function.update_apply, different, if_false] at isOn
      exact ⟨isOn, id⟩
  | some hd =>
      simp only [owner, Function.update_apply, different, if_false, fdHandlerDel_watches] at isOn
      obtain ⟨record, found, sameWatch⟩ := wf.dataOf watch hd owner
      exact ⟨isOn, fdHandlerDel_attached wf.toLinks found (by rw [sameWatch]; exact different)⟩

theorem watchFinalize_coverage (wf : Wf libdbus state) (coverage : Coverage libdbus state)
    {watch : WatchId} (absent : state.watches watch = none) :
    Coverage libdbus (watchFinalize state watch) := by
  refine coverage_of_unchanged wf coverage (watchFinalize_wf wf absent) fun other isOn => ?_
  rw [watchFinalize_watches] at isOn
  have different : other ≠ watch := by
    rintro rfl
    simp [absent] at isOn
  exact ⟨isOn, watchFinalize_attached wf different⟩

theorem fdHandler_coverage (wf : Wf libdbus state) (coverage : Coverage libdbus state)
    (handler : FdHandlerId) (active : FdHandlerFlags) :
    Coverage libdbus (fdHandler state handler active).1 := by
  unfold fdHandler
  split
  · exact coverage
  · rename_i registered live
    split
    · exact coverage
    · rename_i record found
      obtain ⟨owned, isFound, isAttached⟩ := wf.ownerOf handler registered live
      rw [found, Option.some.injEq] at isFound
      have isOn : record.enabled = true := by
        refine (wf.attachedOn registered.data record found ?_).1
        simp [isFound, isAttached]
      simpa [isOn] using coverage

/-- A step keeps coverage exactly if the watch it enables is alone on its descriptor. -/
theorem step_coverage_iff (label : Label) {next : State} (wf : Wf libdbus state)
    (coverage : Coverage libdbus state) (stepped : step libdbus state label = some next) :
    Coverage libdbus next ↔ Exclusive libdbus state label := by
  cases label with
  | watchAdd watch enabled =>
      obtain ⟨absent, rfl⟩ := step_cases stepped
      exact watchAdd_coverage_iff wf coverage enabled absent
  | watchToggle watch enabled =>
      obtain ⟨present, rfl⟩ := step_cases stepped
      exact watchToggle_coverage_iff wf coverage enabled present
  | watchDel watch =>
      obtain ⟨-, rfl⟩ := step_cases stepped
      exact iff_of_true (watchDel_coverage wf coverage watch) trivial
  | dataFree watch =>
      obtain ⟨absent, rfl⟩ := step_cases stepped
      exact iff_of_true (watchFinalize_coverage wf coverage absent) trivial
  | fdReady handler active =>
      obtain ⟨-, rfl⟩ := step_cases stepped
      exact iff_of_true (fdHandler_coverage wf coverage handler active) trivial

theorem initial_wf : Wf libdbus State.initial := by
  constructor <;> constructor <;> simp [State.initial]

theorem initial_coverage : Coverage libdbus State.initial := by
  constructor <;> simp [State.initial]

/-- Along a run of the watch callbacks every state is covered exactly if every
step enables a watch that is alone on its descriptor. -/
theorem coverage_throughout_iff (libdbus : Libdbus) (labels : List Label) :
    (machine libdbus).Throughout (Coverage libdbus) State.initial labels ↔
      (machine libdbus).Along (fun state label _ => Exclusive libdbus state label)
        State.initial labels :=
  Semantics.Machine.throughout_iff_along
    (fun state => Wf libdbus state ∧ Coverage libdbus state)
    (fun _ label _ good stepped => step_coverage_iff label good.1 good.2 stepped)
    (fun _ label _ good stepped exclusive =>
      ⟨step_wf label good.1 stepped, (step_coverage_iff label good.1 good.2 stepped).mpr exclusive⟩)
    ⟨initial_wf, initial_coverage⟩ initial_coverage

/-- A read watch and a write watch on one descriptor, as libdbus creates them
for a socket. -/
def socketWatches : Libdbus where
  unixFd _ := 3
  flags watch := ⟨watch == 0, watch == 1⟩

/-- The second watch on a descriptor is left without a handler. -/
theorem coverage_fails_socketWatches :
    ¬ ∀ (libdbus : Libdbus) (labels : List Label),
      (machine libdbus).Throughout (Coverage libdbus) State.initial labels := by
  intro always
  obtain ⟨_, afterFirst⟩ := always socketWatches [.watchAdd 0 true, .watchAdd 1 true]
  obtain ⟨coveredFirst, afterSecond⟩ := afterFirst _ rfl
  have coveredSecond := afterSecond _ rfl
  have wf := step_wf (.watchAdd 0 true) (@initial_wf socketWatches) rfl
  have exclusive := (step_coverage_iff (.watchAdd 1 true) wf coveredFirst rfl).mp coveredSecond
  exact exclusive 0 (by decide) rfl rfl

end EDBus.Dbus.Watch
