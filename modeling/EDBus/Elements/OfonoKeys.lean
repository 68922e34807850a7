import EDBus.Elements.Interfaces
import EDBus.Elements.Lifetime
import EDBus.Elements.NameOwner
import EDBus.Elements.Pending

/-!
# What the keys of ofono tell apart

ofono keeps its elements under one text for the path and the interface, of which only what fits into
a buffer is the key. `registry` is the table as its callers see it: the pairs that were registered and
not unregistered since. `keys_exact_iff` finds the pairs for which the table is no other, whatever
else was registered.
-/

namespace EDBus.Elements

variable {accepts : CallId → Bool} {state after : State}

/-! ## Pairs and keys -/

/-- The characters of interface names. -/
def interfaceChar (char : Char) : Bool := char.isAlphanum || char = '_' || char = '.'

/-- An interface name has no other characters. -/
def InterfaceName (interface : String) : Prop := interface.toList.all interfaceChar = true

/-- The key does not fill its buffer. -/
def LeavesRoom (path interface : String) : Prop := (path ++ ":" ++ interface).utf8ByteSize + 1 < maxKeySize

instance (interface : String) : Decidable (InterfaceName interface) :=
  inferInstanceAs (Decidable (_ = _))

instance (path interface : String) : Decidable (LeavesRoom path interface) :=
  inferInstanceAs (Decidable (_ < _))

theorem InterfaceName.no_colon {interface : String} (isInterface : InterfaceName interface) :
    ':' ∉ interface.toList := by
  intro listed
  exact absurd (List.all_eq_true.mp isInterface ':' listed) (by decide)

/-- A text that leaves room is no other text cut off. -/
theorem eq_of_keyPrint {left right : String} (room : right.utf8ByteSize + 1 < maxKeySize)
    (same : keyPrint left = keyPrint right) : left = right := by
  have sizes := congrArg List.length (keyPrint_eq_iff.mp same)
  rw [List.length_take, List.length_take, length_textBytes, length_textBytes] at sizes
  exact keyPrint_injective (by omega) (by omega) same

/-- The key of such a pair is that of no other pair, valid or not. -/
theorem key_eq_iff {path interface : String} (isPath : ObjectPath path) (isInterface : InterfaceName interface)
    (room : LeavesRoom path interface) (other otherInterface : String) :
    Family.ofono.key other otherInterface = Family.ofono.key path interface ↔
      other = path ∧ otherInterface = interface := by
  constructor
  · intro same
    have texts := congrArg String.toList (eq_of_keyPrint room same)
    have colon : ":".toList = [':'] := rfl
    simp only [String.toList_append, List.append_assoc, colon, List.singleton_append] at texts
    -- the only colon is the one between path and interface
    obtain ⟨samePath, -, sameInterface⟩ :=
      (List.append_cons_inj_of_notMem isPath.no_colon isInterface.no_colon).mp texts.symm
    exact ⟨String.toList_injective samePath.symm, String.toList_injective sameInterface.symm⟩
  · rintro ⟨rfl, rfl⟩
    rfl

/-- Where no room is left, a longer interface has the same key. -/
theorem key_append {path interface : String} (full : ¬ LeavesRoom path interface) (more : String) :
    Family.ofono.key path (interface ++ more) = Family.ofono.key path interface := by
  have long : maxKeySize - 1 ≤ (textBytes (path ++ ":" ++ interface)).length := by
    rw [length_textBytes]
    unfold LeavesRoom at full
    omega
  refine keyPrint_eq_iff.mpr ?_
  rw [← String.append_assoc, textBytes_append, List.take_append_of_le_length long]

/-! ## The pairs that are registered -/

/-- A call that changes the table. An element is unregistered by its path and its interface. -/
inductive TableCall where
  | register (path interface : String)
  | unregister (path interface : String)
  | clear
deriving DecidableEq, Repr

/-- The pairs after a call. -/
def registryCall (pairs : List (String × String)) : TableCall → List (String × String)
  | .register path interface =>
    if (path, interface) ∈ pairs then pairs else pairs ++ [(path, interface)]
  | .unregister path interface => pairs.filter fun pair => pair ≠ (path, interface)
  | .clear => []

/-- The pairs that were registered and not unregistered since. -/
def registry (calls : List TableCall) : List (String × String) := calls.foldl registryCall []

theorem registry_append (calls : List TableCall) (call : TableCall) :
    registry (calls ++ [call]) = registryCall (registry calls) call := by
  rw [registry, List.foldl_append]
  rfl

theorem mem_registry_register (calls : List TableCall) (path interface : String) (pair : String × String) :
    pair ∈ registry (calls ++ [.register path interface]) ↔ pair = (path, interface) ∨ pair ∈ registry calls := by
  rw [registry_append, registryCall]
  split
  · rename_i present
    constructor
    · exact Or.inr
    · rintro (rfl | before)
      · exact present
      · exact before
  · rw [List.mem_append, List.mem_singleton, or_comm]

theorem mem_registry_unregister (calls : List TableCall) (path interface : String) (pair : String × String) :
    pair ∈ registry (calls ++ [.unregister path interface]) ↔ pair ≠ (path, interface) ∧ pair ∈ registry calls := by
  rw [registry_append, registryCall, List.mem_filter, decide_eq_true_eq, and_comm]

theorem not_mem_registry_clear (calls : List TableCall) (pair : String × String) :
    pair ∉ registry (calls ++ [.clear]) := by
  rw [registry_append]
  exact List.not_mem_nil

/-- The calls that made the table of a state. All else that happens leaves the table as it is. -/
inductive Recorded : List TableCall → State → Prop where
  | initial : Recorded [] State.initial
  | register {calls : List TableCall} {state : State} (recorded : Recorded calls state) (path interface : String) :
      Recorded (calls ++ [.register path interface]) (elementRegister .ofono state path interface).1
  | unregister {calls : List TableCall} {state : State} (recorded : Recorded calls state) {e : ElementId}
      {element : Element} (alive : state.elements e = some element) :
      Recorded (calls ++ [.unregister element.path element.interface]) (elementUnregister .ofono state e)
  | clear {calls : List TableCall} {state : State} (recorded : Recorded calls state) :
      Recorded (calls ++ [.clear]) (clearElements state)
  | other {calls : List TableCall} {state after : State} (recorded : Recorded calls state)
      (table : after.table = state.table) (wf : TableWf .ofono after) : Recorded calls after

theorem Recorded.wf {calls : List TableCall} (recorded : Recorded calls state) : TableWf .ofono state := by
  induction recorded with
  | initial => exact initial_tableWf .ofono
  | register _ path interface ih => exact elementRegister_tableWf ih path interface
  | unregister _ alive ih => exact elementUnregister_tableWf ih _
  | clear _ ih => exact clearElements_tableWf ih
  | other _ _ wf _ => exact wf

/-- The keys of an element that is unregistered are gone. -/
theorem find_elementUnregister {e : ElementId} {element : Element} (alive : state.elements e = some element)
    (key : String) :
    (elementUnregister .ofono state e).find key =
      if key = Family.ofono.key element.path element.interface then none else state.find key := by
  unfold elementUnregister
  rw [alive]
  exact find_hashDel state _ key

theorem find_clearElements (state : State) (key : String) : (clearElements state).find key = none := by
  have empty : (clearElements state).table = [] := List.map_eq_nil_iff.mp (clearElements_entries state)
  rw [State.find, empty]
  rfl

/-! ## Exact keys -/

/-- The element has the path and the interface. -/
def State.Named (state : State) (e : ElementId) (path interface : String) : Prop :=
  ∃ element, state.elements e = some element ∧ element.path = path ∧ element.interface = interface

/-- The pair is treated as a pair: something is found for it if it is registered, what is found or is
registered for it has its path and its interface, and unregistering that takes no element with another
path or interface out of the table. -/
structure KeyExact (calls : List TableCall) (state : State) (path interface : String) : Prop where
  get : elementGet .ofono state path interface ≠ none ↔ (path, interface) ∈ registry calls
  found : ∀ e, elementGet .ofono state path interface = some e → state.Named e path interface
  register : (elementRegister .ofono state path interface).1.Named
    (elementRegister .ofono state path interface).2 path interface
  unregister : ∀ e element, state.elements e = some element → element.path = path → element.interface = interface →
    ∀ key other otherElement, (key, other) ∈ state.table → state.elements other = some otherElement →
      ¬ (otherElement.path = path ∧ otherElement.interface = interface) →
        (key, other) ∈ (elementUnregister .ofono state e).table

section Exact

variable {calls : List TableCall} {path interface : String}

/-- The table has a key of its own for the pair if and only if the pair is registered. -/
theorem Recorded.find_iff (recorded : Recorded calls state) (isPath : ObjectPath path)
    (isInterface : InterfaceName interface) (room : LeavesRoom path interface) :
    state.find (Family.ofono.key path interface) ≠ none ↔ (path, interface) ∈ registry calls := by
  have keys := key_eq_iff isPath isInterface room
  induction recorded with
  | initial => exact iff_of_false (fun found => found rfl) List.not_mem_nil
  | @register calls state recorded path' interface' ih =>
      rw [find_elementRegister, mem_registry_register]
      by_cases here : path' = path ∧ interface' = interface
      · obtain ⟨rfl, rfl⟩ := here
        rw [if_pos rfl]
        exact iff_of_true (Option.some_ne_none _) (.inl rfl)
      · have elsewhere : Family.ofono.key path interface ≠ Family.ofono.key path' interface' :=
          fun same => here ((keys _ _).mp same.symm)
        rw [if_neg elsewhere]
        constructor
        · exact fun found => .inr (ih.mp found)
        · rintro (same | listed)
          · obtain ⟨rfl, rfl⟩ := Prod.mk.inj same
            exact absurd ⟨rfl, rfl⟩ here
          · exact ih.mpr listed
  | @unregister calls state recorded e element alive ih =>
      rw [find_elementUnregister alive, mem_registry_unregister]
      by_cases here : element.path = path ∧ element.interface = interface
      · obtain ⟨rfl, rfl⟩ := here
        rw [if_pos rfl]
        exact iff_of_false (fun found => found rfl) fun listed => listed.1 rfl
      · have elsewhere : Family.ofono.key path interface ≠ Family.ofono.key element.path element.interface :=
          fun same => here ((keys _ _).mp same.symm)
        rw [if_neg elsewhere]
        constructor
        · intro found
          refine ⟨fun same => ?_, ih.mp found⟩
          obtain ⟨rfl, rfl⟩ := Prod.mk.inj same
          exact here ⟨rfl, rfl⟩
        · exact fun listed => ih.mpr listed.2
  | clear recorded ih =>
      rw [find_clearElements]
      exact iff_of_false (fun found => found rfl) (not_mem_registry_clear _ _)
  | @other calls state after recorded table wf ih =>
      have before : state.find _ ≠ none ↔ (path, interface) ∈ registry calls := ih
      rwa [State.find, table]

/-- An element with the key of the pair is that of the pair. -/
theorem named_of_find (wf : TableWf .ofono state) (isPath : ObjectPath path)
    (isInterface : InterfaceName interface) (room : LeavesRoom path interface) {e : ElementId}
    (found : state.find (Family.ofono.key path interface) = some e) : state.Named e path interface := by
  obtain ⟨element, alive, isKey, -⟩ := wf.found found
  exact ⟨element, alive, (key_eq_iff isPath isInterface room _ _).mp isKey.symm⟩

theorem Recorded.keyExact (recorded : Recorded calls state) (isPath : ObjectPath path)
    (isInterface : InterfaceName interface) (room : LeavesRoom path interface) :
    KeyExact calls state path interface where
  get := recorded.find_iff isPath isInterface room
  found _ found := named_of_find recorded.wf isPath isInterface room found
  register := by
    refine named_of_find (elementRegister_tableWf recorded.wf path interface) isPath isInterface room ?_
    rw [find_elementRegister, if_pos rfl]
  unregister := by
    rintro e element alive rfl rfl key other otherElement listed otherAlive different
    have after := elementUnregister_tableWf recorded.wf e
    obtain ⟨listedElement, listedAlive, isKey, -⟩ := recorded.wf.entryAlive key other listed
    obtain rfl := Option.some.inj (otherAlive.symm.trans listedAlive)
    have kept : key ≠ Family.ofono.key element.path element.interface := by
      intro same
      exact different ((key_eq_iff isPath isInterface room _ _).mp (isKey.symm.trans same))
    rw [← after.find_iff, find_elementUnregister alive, if_neg kept]
    exact recorded.wf.find_iff.mpr listed

/-- A pair whose key fills the buffer is found after a longer one was registered. -/
theorem not_keyExact_of_full (full : ¬ LeavesRoom path interface) :
    ∃ calls state, Recorded calls state ∧ ¬ KeyExact calls state path interface := by
  refine ⟨_, _, Recorded.initial.register path (interface ++ "x"), ?_⟩
  intro exactly
  have found : elementGet .ofono (elementRegister .ofono State.initial path (interface ++ "x")).1 path interface ≠
      none := by
    rw [elementGet, find_elementRegister, key_append full "x", if_pos rfl]
    exact Option.some_ne_none _
  have registered := (mem_registry_register [] path (interface ++ "x") (path, interface)).mp (exactly.get.mp found)
  rcases registered with same | listed
  · have sizes := congrArg String.utf8ByteSize (Prod.mk.inj same).2
    rw [String.utf8ByteSize_append] at sizes
    have more : "x".utf8ByteSize = 1 := rfl
    omega
  · cases listed

end Exact

/-! ## Runs -/

/-- Messages register, unregister and leave the table alone. -/
theorem recorded_closed (accepts : CallId → Bool) :
    Closed .ofono accepts fun state => ∃ calls, Recorded calls state where
  fault := by
    rintro state ⟨calls, recorded⟩
    exact ⟨calls, recorded.other rfl (recorded.wf.congr rfl rfl rfl)⟩
  register := by
    rintro state path interface ⟨calls, recorded⟩
    exact ⟨_, recorded.register path interface⟩
  sync := by
    rintro state path interface ⟨calls, recorded⟩
    have registered := recorded.register path interface
    exact ⟨_, registered.other (messageSend_table ..) (messageSend_tableWf registered.wf _ .propertiesGet true false)⟩
  unregister := by
    rintro state e ⟨calls, recorded⟩
    cases alive : state.elements e with
    | none =>
        have faulted : elementUnregister .ofono state e = { state with fault := true } := by
          rw [elementUnregister, alive]
        rw [faulted]
        exact ⟨calls, recorded.other rfl (recorded.wf.congr rfl rfl rfl)⟩
    | some element => exact ⟨_, recorded.unregister alive⟩
  setProperty := by
    rintro state e name wire ⟨calls, recorded⟩
    exact ⟨calls, recorded.other (modify_table ..) (recorded.wf.modify e
      (Element.setProperty name (wire.value .ofono)) (fun _ => rfl) (fun _ => rfl) fun _ => rfl)⟩
  listeners := by
    rintro state e ⟨calls, recorded⟩
    exact ⟨calls, recorded.other (listenersCall_table ..) (listenersCall_tableWf recorded.wf e)⟩

/-- Steps register, unregister and leave the table alone. -/
theorem transition_recorded {label : Label} {next : State} (kept : Kept .ofono state)
    (known : ∃ calls, Recorded calls state) (transition : Transition accepts .ofono state label next) :
    ∃ calls, Recorded calls next := by
  obtain ⟨calls, recorded⟩ := known
  have closed := recorded_closed accepts
  have untouched : next.table = state.table → ∃ calls, Recorded calls next :=
    fun table => ⟨calls, recorded.other table (transition_tableWf kept transition)⟩
  cases transition with
  | sync => exact closed.sync state _ _ ⟨calls, recorded⟩
  | ref e => exact untouched (modify_table ..)
  | unref e => exact untouched (elementUnref_table ..)
  | send e list libraryCb userCb => exact untouched (messageSend_table ..)
  | startDiscovery e userCb acts alive isBluez => cases isBluez
  | register path interface => exact ⟨_, recorded.register path interface⟩
  | unregister e => exact closed.unregister state e ⟨calls, recorded⟩
  | clear => exact ⟨_, recorded.clear⟩
  | deliver event e rest =>
      refine untouched ?_
      unfold eventFree
      split
      · rfl
      · exact elementUnref_table ..
  | propertyChanged e name wire => exact closed.propertyChangedCallback e name wire ⟨calls, recorded⟩
  | deviceFound e => exact untouched rfl
  | idler e => exact untouched rfl
  | reply c reply call =>
      have begun := recorded.other (callBegin_table state c reply.answer)
        (callBegin_kept kept c reply.answer).accounted.wf
      exact replyRead_closed closed call reply ⟨calls, begun⟩
  | listenersReturn e below =>
      refine untouched ?_
      simp [listenersEnd, eventAdd, ecoreEventAdd, State.withStack]
  | callbackReturn c userCb below => exact untouched (callEnd_table ..)
  | freeDead => exact untouched rfl
  | freeDone => exact untouched rfl
  | freeList => exact untouched rfl
  | freeCall e list rest below element c => exact untouched (callBegin_table ..)

/-- What steps preserve holds throughout a run, and so do the accounts until freed memory is used. -/
theorem throughout_of_transition {family : Family} {invariant : State → Prop} (initial : invariant State.initial)
    (preserved : ∀ {state next : State} {label : Label}, Kept family state → invariant state →
      Transition accepts family state label next → invariant next) (run : List Label) :
    (machine accepts family).Throughout
      (fun state => invariant state ∧ (state.fault = false → Kept family state)) State.initial run := by
  refine Semantics.Machine.throughout_of_preserved ?_ run ⟨initial, fun _ => initial_kept family⟩
  rintro state label next ⟨holds, kept⟩ stepped
  obtain ⟨sound, -, transition⟩ := step_transition stepped
  exact ⟨preserved (kept sound) holds transition, transition_kept_of_sound (kept sound) transition⟩

/-- The accounts of every state of a run are sound until freed memory is used, and its table is well
formed even then. -/
theorem tableWf_throughout (accepts : CallId → Bool) (family : Family) (run : List Label) :
    (machine accepts family).Throughout
      (fun state => TableWf family state ∧ (state.fault = false → Kept family state)) State.initial run := by
  apply throughout_of_transition (initial_tableWf family)
  intro state next label kept _ transition
  exact transition_tableWf kept transition

/-- The table of every state of a run was made by calls. -/
theorem recorded_throughout (accepts : CallId → Bool) (run : List Label) :
    (machine accepts .ofono).Throughout (fun state => ∃ calls, Recorded calls state) State.initial run := by
  have accounted : (machine accepts .ofono).Throughout
      (fun state => (∃ calls, Recorded calls state) ∧ (state.fault = false → Kept .ofono state)) State.initial run :=
    throughout_of_transition ⟨[], .initial⟩ transition_recorded run
  exact accounted.mono fun _ both => both.1

/-- Every table was made by calls, and a path and an interface are treated as a pair, whatever these
calls were, if and only if their key does not fill its buffer. -/
theorem keys_exact_iff (accepts : CallId → Bool) :
    (∀ run, (machine accepts .ofono).Throughout (fun state => ∃ calls, Recorded calls state) State.initial run) ∧
      ∀ path interface, ObjectPath path → InterfaceName interface →
        ((∀ calls state, Recorded calls state → KeyExact calls state path interface) ↔ LeavesRoom path interface) := by
  constructor
  · exact recorded_throughout accepts
  · intro path interface isPath isInterface
    constructor
    · intro always
      by_contra full
      obtain ⟨calls, state, recorded, wrong⟩ := not_keyExact_of_full full
      exact wrong (always calls state recorded)
    · intro room calls state recorded
      exact recorded.keyExact isPath isInterface room

theorem keys_exact_iff_modem :
    (∀ calls state, Recorded calls state → KeyExact calls state "/modem" "org.ofono.Modem") ↔
      LeavesRoom "/modem" "org.ofono.Modem" :=
  (keys_exact_iff fun _ => true).2 "/modem" "org.ofono.Modem" (by decide) (by decide)

/-- A path with one long name. -/
def longPath (length : Nat) : String := "/" ++ String.ofList (List.replicate length 'a')

theorem longPath_objectPath (length : Nat) : ObjectPath (longPath length) := by
  have slash : "/".toList = ['/'] := rfl
  have letters : (List.replicate length 'a').all pathChar = true := by
    rw [List.all_eq_true]
    intro char listed
    rw [List.eq_of_mem_replicate listed]
    decide
  constructor
  · simp [longPath, slash]
  · rw [longPath, String.toList_append, List.all_append, slash, String.toList_ofList, letters]
    decide

theorem longPath_size (length : Nat) : (longPath length).utf8ByteSize = length + 1 := by
  have letters : ∀ length, (String.ofList (List.replicate length 'a')).utf8ByteSize = length := by
    intro length
    induction length with
    | zero => rfl
    | succ length ih =>
        rw [List.replicate_succ, String.ofList_cons, String.utf8ByteSize_append, ih, Nat.add_comm]
        rfl
  rw [longPath, String.utf8ByteSize_append, letters, Nat.add_comm]
  rfl

/-- Two interfaces at a path that fills the buffer alone are one element. -/
theorem keys_confused :
    ¬ ∀ path interface, ObjectPath path → InterfaceName interface →
      ∀ calls state, Recorded calls state → KeyExact calls state path interface := by
  intro always
  have full : ¬ LeavesRoom (longPath 4094) "org.ofono.Modem" := by
    have size := longPath_size 4094
    rw [LeavesRoom, String.utf8ByteSize_append, String.utf8ByteSize_append, size]
    unfold maxKeySize
    omega
  obtain ⟨calls, state, recorded, wrong⟩ := not_keyExact_of_full full
  exact wrong (always (longPath 4094) "org.ofono.Modem" (longPath_objectPath 4094) (by decide) calls state recorded)

end EDBus.Elements
