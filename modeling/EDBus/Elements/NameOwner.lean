import EDBus.Elements.Ledger

/-!
# Following the owner of the service name

A module learns from `NameOwnerChanged` signals and from the reply to its one
`GetNameOwner` call who has the name of the service. `tracks_iff_along` finds
exactly the deliveries along which it is never wrong.
-/

namespace EDBus.Elements

variable {family : Family} {accepts : CallId → Bool} {state after : State} {e : ElementId}

/-- The `bus_name` of a module. -/
def Family.busName : Family → String
  | .connman => "net.connman"
  | .bluez => "org.bluez"
  | .ofono => "org.ofono"

/-- The events about a manager. -/
inductive ManagerEvent where
  | managerIn
  | managerOut
deriving DecidableEq, Repr

/-- A module with the name it follows. `managerEvents` are those ever queued.
`nullDereferenced` if `strcmp` was given a `NULL`. The last three fields are not kept
by the code: who has the name, or no one if it is empty; what the messages delivered
so far say about that; and the number of elements when an owner was last replaced. -/
structure System where
  elements : State
  uniqueName : Option String
  pendingGetNameOwner : Bool
  managerEvents : List ManagerEvent
  nullDereferenced : Bool
  owner : String
  implied : Option String
  former : ElementId

/-- A module after `_system_init`. -/
def System.start (owner : String) : System where
  elements := State.initial
  uniqueName := none
  pendingGetNameOwner := true
  managerEvents := []
  nullDereferenced := false
  owner := owner
  implied := none
  former := 0

/-! ## The functions -/

section Functions

variable (accepts : CallId → Bool) (family : Family)

/-- `_manager_sync_elements`. -/
def managerSyncElements (system : System) : System :=
  match system.uniqueName with
  | none => system
  | some _ => { system with elements := managerSync accepts family system.elements }

/-- `_system_name_owner_exit`. -/
def systemNameOwnerExit (system : System) : System :=
  { system with
    elements := clearElements system.elements
    managerEvents := system.managerEvents ++ [.managerOut]
    uniqueName := none }

/-- `_system_name_owner_enter`. -/
def systemNameOwnerEnter (system : System) (uid : String) : System :=
  if system.uniqueName = some uid then system
  else
    let left := if system.uniqueName.isSome then systemNameOwnerExit system else system
    managerSyncElements accepts family
      { left with uniqueName := some uid, managerEvents := left.managerEvents ++ [.managerIn] }

/-- `_system_name_owner_changed`. `from` and `to` are `previous` and `next`. -/
def systemNameOwnerChanged (system : System) (name previous next : String) : System :=
  if name ≠ family.busName then system
  else if previous = "" ∧ next ≠ "" then systemNameOwnerEnter accepts family system next
  else if previous ≠ "" ∧ next = "" then
    match system.uniqueName with
    | none => { system with nullDereferenced := true }
    | some known => if known ≠ previous then system else systemNameOwnerExit system
  else system

/-- `_get_name_owner`. -/
def getNameOwner (system : System) (reply : Option String) : System :=
  let answered := { system with pendingGetNameOwner := false }
  match reply with
  | none => answered
  | some uid => systemNameOwnerEnter accepts family answered uid

end Functions

/-! ## Deliveries -/

/-- What is delivered next: a signal about the name or another one, the reply, or
something else that the module does. -/
inductive Delivery where
  | ownerChanged (next : String)
  | otherChanged (name previous next : String)
  | replied (error : Bool)
  | module (label : Label)

/-- A message says who has the name. -/
def System.told (system : System) (owner : Option String) : System :=
  { system with
    implied := owner
    former := if system.implied.isSome ∧ system.implied ≠ owner then system.elements.nextElement
      else system.former }

/-- The name gets another owner. -/
def System.withOwner (system : System) (owner : String) : System := { system with owner := owner }

/-- No owner has the empty name. -/
def ownerOf (owner : String) : Option String := if owner = "" then none else some owner

/-- The main loop runs. -/
def System.idle (system : System) : Bool :=
  system.elements.stack = [] ∧ system.elements.fault = false ∧ system.elements.callFault = false

/-- `_manager_sync_elements` does nothing without an owner. -/
def Label.readsName : Label → Bool
  | .sync => true
  | _ => false

/-- One delivery. The bus sends signals and the reply in one order, so the reply says who
has the name at its place in that order, unless it is an error. -/
def System.step (accepts : CallId → Bool) (family : Family) (system : System) :
    Delivery → Option System
  | .ownerChanged next =>
    if system.nullDereferenced = false ∧ system.idle ∧ next ≠ system.owner then
      some (systemNameOwnerChanged accepts family
        ((system.told (ownerOf next)).withOwner next) family.busName system.owner next)
    else none
  | .otherChanged name previous next =>
    if system.nullDereferenced = false ∧ system.idle ∧ name ≠ family.busName then
      some (systemNameOwnerChanged accepts family system name previous next)
    else none
  | .replied error =>
    if system.nullDereferenced = false ∧ system.idle ∧ system.pendingGetNameOwner = true then
      if error then some (getNameOwner accepts family system none)
      else if system.owner ≠ "" then
        some (getNameOwner accepts family (system.told (some system.owner)) (some system.owner))
      else none
    else none
  | .module label =>
    if system.nullDereferenced = false ∧ (label.readsName = false ∨ system.uniqueName.isSome) then
      (Elements.step accepts family system.elements label).map fun elements =>
        { system with elements := elements }
    else none

/-- A module and its name as a machine. -/
def deliveries (accepts : CallId → Bool) (family : Family) : Semantics.Machine System Delivery :=
  ⟨System.step accepts family⟩

/-! ## What the module should know -/

/-- The event that comes after so many of them. -/
def turn (count : Nat) : ManagerEvent := if count % 2 = 0 then .managerIn else .managerOut

/-- The events alternate, and start with `managerIn`. -/
def Alternates (events : List ManagerEvent) : Prop :=
  events = (List.range events.length).map turn

theorem Alternates.snoc {events : List ManagerEvent} (alternates : Alternates events) :
    Alternates (events ++ [turn events.length]) := by
  unfold Alternates at alternates ⊢
  rw [List.length_append, List.length_singleton, List.range_succ, List.map_append, ← alternates]
  rfl

/-- The module follows the name: it gave no `NULL` to `strcmp`, knows the owner that the
messages imply, has no element of an earlier owner, and its events alternate. -/
structure Tracks (system : System) : Prop where
  sound : system.nullDereferenced = false
  uniqueName : system.uniqueName = system.implied
  cleared : ∀ e ∈ system.elements.entries, system.former ≤ e
  alternates : Alternates system.managerEvents

/-- No message says that one owner follows another, and none that an owner left before one
said who it was. -/
def OwnersKnown (system : System) : Delivery → Prop
  | .ownerChanged next => system.owner = "" ∨ next = "" ∧ system.implied ≠ none
  | _ => True

/-- What else is known as long as the module follows the name. -/
structure Followed (system : System) : Prop where
  tracks : Tracks system
  implied : system.implied = none ∨ system.implied = ownerOf system.owner
  former : system.former ≤ system.elements.nextElement
  parity : system.uniqueName = none ↔ system.managerEvents.length % 2 = 0

theorem followed_start (owner : String) : Followed (System.start owner) where
  tracks := ⟨rfl, rfl, fun _ _ => Nat.zero_le _, rfl⟩
  implied := .inl rfl
  former := Nat.le_refl _
  parity := ⟨fun _ => rfl, fun _ => rfl⟩

/-! ## The table grows by new elements -/

/-- What is new in the table is a new element. -/
structure Grown (before after : State) : Prop where
  nextElement : before.nextElement ≤ after.nextElement
  entries : ∀ e ∈ after.entries, e ∈ before.entries ∨ before.nextElement ≤ e

theorem Grown.refl (state : State) : Grown state state :=
  ⟨Nat.le_refl _, fun _ listed => .inl listed⟩

/-- The table of one element more. -/
theorem elementInsert_entries (family : Family) (state : State) (path interface : String) :
    (elementInsert family state path interface).entries = state.entries ++ [state.nextElement] := by
  simp only [State.entries, elementInsert, List.map_append, List.map_cons, List.map_nil]

/-- Entries come with new elements only. -/
theorem grown_lasting (family : Family) (before : State) : Lasting family (Grown before) where
  congr grown _ table nextElement :=
    ⟨nextElement ▸ grown.nextElement, fun e listed => grown.entries e (by rwa [State.entries, table] at listed)⟩
  modify state e change _ grown := by
    refine ⟨?_, fun other listed => grown.entries other ?_⟩
    · rw [modify_nextElement]
      exact grown.nextElement
    · rwa [State.entries, modify_table] at listed
  setProperty state e name wire grown := by
    refine ⟨?_, fun other listed => grown.entries other ?_⟩
    · rw [modify_nextElement]
      exact grown.nextElement
    · rwa [State.entries, modify_table] at listed
  insert state path interface grown := by
    refine ⟨Nat.le_succ_of_le grown.nextElement, fun e listed => ?_⟩
    rw [elementInsert_entries, List.mem_append, List.mem_singleton] at listed
    rcases listed with old | rfl
    · exact grown.entries e old
    · exact .inr grown.nextElement
  remove _ _ fewer grown :=
    ⟨grown.nextElement, fun e listed => grown.entries e ((fewer.map _).subset listed)⟩
  gone _ _ grown := ⟨grown.nextElement, grown.entries⟩

/-- Steps grow the table by new elements only. -/
theorem transition_grown {label : Label} {next : State}
    (transition : Transition accepts family state label next) : Grown state next :=
  (grown_lasting family state).transition (Grown.refl state) transition

@[simp] theorem clearElements_entries (state : State) : (clearElements state).entries = [] :=
  unregisterAll_entries state.entries { state with table := [] }

theorem unregisterInternal_nextElement (state : State) (e : ElementId) :
    (unregisterInternal state e).nextElement = state.nextElement := by
  unfold unregisterInternal ecoreEventAdd
  split <;> rfl

theorem clearElements_nextElement (state : State) :
    (clearElements state).nextElement = state.nextElement :=
  @foldl_keeps _ _ (fun after => after.nextElement = state.nextElement) _
    (fun after e same => (unregisterInternal_nextElement after e).trans same) _ rfl

/-! ## Deliveries keep the module right -/

variable {system : System}

/-- Only what the tracking reads matters. -/
theorem Followed.congr {other : System} (followed : Followed system)
    (sound : other.nullDereferenced = system.nullDereferenced)
    (uniqueName : other.uniqueName = system.uniqueName) (owner : other.owner = system.owner)
    (implied : other.implied = system.implied) (former : other.former = system.former)
    (managerEvents : other.managerEvents = system.managerEvents)
    (grown : Grown system.elements other.elements) : Followed other where
  tracks := by
    refine ⟨sound.trans followed.tracks.sound, ?_, ?_, ?_⟩
    · rw [uniqueName, implied]
      exact followed.tracks.uniqueName
    · intro e listed
      rw [former]
      rcases grown.entries e listed with old | new
      · exact followed.tracks.cleared e old
      · exact Nat.le_trans followed.former new
    · rw [managerEvents]
      exact followed.tracks.alternates
  implied := by
    rw [implied, owner]
    exact followed.implied
  former := by
    rw [former]
    exact Nat.le_trans followed.former grown.nextElement
  parity := by
    rw [uniqueName, managerEvents]
    exact followed.parity

/-- An owner comes after none. -/
theorem enter_followed (followed : Followed system) (unknown : system.uniqueName = none)
    (uid : String) (nonempty : uid ≠ "") :
    Followed (systemNameOwnerEnter accepts family ((system.told (some uid)).withOwner uid) uid) := by
  have implied : system.implied = none := followed.tracks.uniqueName.symm.trans unknown
  have even : system.managerEvents.length % 2 = 0 := followed.parity.mp unknown
  have grown : Grown system.elements (managerSync accepts family system.elements) :=
    ((grown_lasting family system.elements).closed accepts).sync system.elements _ _ (Grown.refl _)
  have entered : systemNameOwnerEnter accepts family ((system.told (some uid)).withOwner uid) uid =
      { system with
        elements := managerSync accepts family system.elements
        uniqueName := some uid
        managerEvents := system.managerEvents ++ [.managerIn]
        owner := uid
        implied := some uid } := by
    simp [systemNameOwnerEnter, System.told, System.withOwner, managerSyncElements, unknown, implied]
  rw [entered]
  refine ⟨⟨followed.tracks.sound, rfl, ?_, ?_⟩, ?_, ?_, ?_⟩
  · intro e listed
    rcases grown.entries e listed with old | new
    · exact followed.tracks.cleared e old
    · exact Nat.le_trans followed.former new
  · have turned : turn system.managerEvents.length = .managerIn := by simp [turn, even]
    exact turned ▸ followed.tracks.alternates.snoc
  · exact .inr (by simp [ownerOf, nonempty])
  · exact Nat.le_trans followed.former grown.nextElement
  · simp only [reduceCtorEq, List.length_append, List.length_singleton, false_iff]
    omega

/-- The owner leaves. -/
theorem exit_followed (followed : Followed system) {owner : String}
    (known : system.uniqueName = some owner) :
    Followed (systemNameOwnerExit ((system.told none).withOwner "")) := by
  have implied : system.implied = some owner := followed.tracks.uniqueName.symm.trans known
  have odd : system.managerEvents.length % 2 ≠ 0 := by
    intro even
    rw [followed.parity.mpr even] at known
    cases known
  have left : systemNameOwnerExit ((system.told none).withOwner "") =
      { system with
        elements := clearElements system.elements
        uniqueName := none
        managerEvents := system.managerEvents ++ [.managerOut]
        owner := ""
        implied := none
        former := system.elements.nextElement } := by
    simp [systemNameOwnerExit, System.told, System.withOwner, implied]
  rw [left]
  refine ⟨⟨followed.tracks.sound, rfl, ?_, ?_⟩, .inl rfl, ?_, ?_⟩
  · intro e listed
    rw [clearElements_entries] at listed
    cases listed
  · have turned : turn system.managerEvents.length = .managerOut := by simp [turn, odd]
    exact turned ▸ followed.tracks.alternates.snoc
  · exact Nat.le_of_eq (clearElements_nextElement system.elements).symm
  · simp only [List.length_append, List.length_singleton, true_iff]
    omega

/-- A signal that keeps the module right. -/
theorem ownerChanged_followed (followed : Followed system) {next : String}
    (changed : next ≠ system.owner) (known : OwnersKnown system (.ownerChanged next)) :
    Followed (systemNameOwnerChanged accepts family ((system.told (ownerOf next)).withOwner next)
      family.busName system.owner next) := by
  rcases known with noOwner | ⟨rfl, heard⟩
  · have nonempty : next ≠ "" := noOwner ▸ changed
    have unknown : system.uniqueName = none := by
      rw [followed.tracks.uniqueName]
      exact followed.implied.elim id fun same => by rw [same, ownerOf, if_pos noOwner]
    have entered : Followed (systemNameOwnerEnter accepts family
        ((system.told (some next)).withOwner next) next) := enter_followed followed unknown next nonempty
    simpa [systemNameOwnerChanged, noOwner, nonempty, ownerOf] using entered
  · have owned : system.owner ≠ "" := changed.symm
    have implied : system.implied = some system.owner := by
      have same := followed.implied.resolve_left heard
      rwa [ownerOf, if_neg owned] at same
    have known : system.uniqueName = some system.owner := followed.tracks.uniqueName.trans implied
    have left := exit_followed followed known
    have kept : ((system.told none).withOwner "").uniqueName = some system.owner := known
    simpa [systemNameOwnerChanged, owned, ownerOf, kept] using left

/-- A signal that makes the module wrong. -/
theorem ownerChanged_lost (followed : Followed system) {next : String}
    (changed : next ≠ system.owner) (unknown : ¬ OwnersKnown system (.ownerChanged next)) :
    ¬ Tracks (systemNameOwnerChanged accepts family ((system.told (ownerOf next)).withOwner next)
      family.busName system.owner next) := by
  simp only [OwnersKnown, not_or, not_and, not_not] at unknown
  obtain ⟨owned, unheard⟩ := unknown
  by_cases left : next = ""
  · -- the owner leaves before anyone said who it was
    subst left
    have noName : ((system.told none).withOwner "").uniqueName = none :=
      followed.tracks.uniqueName.trans (unheard rfl)
    intro tracks
    have sound := tracks.sound
    simp [systemNameOwnerChanged, owned, ownerOf, noName] at sound
  · -- one owner follows another
    intro tracks
    have ignored : systemNameOwnerChanged accepts family ((system.told (ownerOf next)).withOwner next)
        family.busName system.owner next = (system.told (ownerOf next)).withOwner next := by
      simp [systemNameOwnerChanged, owned, left]
    rw [ignored] at tracks
    have same : system.uniqueName = ownerOf next := tracks.uniqueName
    rw [followed.tracks.uniqueName, ownerOf, if_neg left] at same
    rcases followed.implied with none | some
    · rw [none] at same
      cases same
    · rw [some, ownerOf, if_neg owned] at same
      exact changed (Option.some.inj same).symm

/-- The reply keeps the module right. -/
theorem replied_followed (followed : Followed system) (owned : system.owner ≠ "") :
    Followed (getNameOwner accepts family (system.told (some system.owner)) (some system.owner)) := by
  have answered : Followed { system with pendingGetNameOwner := false } :=
    followed.congr rfl rfl rfl rfl rfl rfl (Grown.refl _)
  rcases followed.implied with unheard | heard
  · have unknown : system.uniqueName = none := followed.tracks.uniqueName.trans unheard
    exact enter_followed answered unknown system.owner owned
  · rw [ownerOf, if_neg owned] at heard
    have known : system.uniqueName = some system.owner := followed.tracks.uniqueName.trans heard
    have same : getNameOwner accepts family (system.told (some system.owner)) (some system.owner) =
        { system with pendingGetNameOwner := false } := by
      simp [getNameOwner, systemNameOwnerEnter, System.told, known, heard]
    rw [same]
    exact answered

/-- A module follows its name if and only if no signal says that one owner follows
another, and none that an owner left before a message said who it was. -/
theorem tracks_iff_along (accepts : CallId → Bool) (family : Family) (owner : String)
    (run : List Delivery) :
    (deliveries accepts family).Throughout Tracks (System.start owner) run ↔
      (deliveries accepts family).Along (fun system delivery _ => OwnersKnown system delivery)
        (System.start owner) run := by
  have kept : ∀ system delivery next, Followed system →
      (deliveries accepts family).step system delivery = some next →
      OwnersKnown system delivery → Followed next := by
    intro system delivery next followed stepped known
    cases delivery <;> simp only [deliveries, System.step, Option.ite_none_right_eq_some,
      Option.some.injEq] at stepped
    case ownerChanged name =>
      obtain ⟨⟨-, -, changed⟩, rfl⟩ := stepped
      exact ownerChanged_followed followed changed known
    case otherChanged name previous other =>
      obtain ⟨⟨-, -, different⟩, rfl⟩ := stepped
      have ignored : systemNameOwnerChanged accepts family system name previous other = system := by
        simp [systemNameOwnerChanged, different]
      rw [ignored]
      exact followed
    case replied error =>
      obtain ⟨-, stepped⟩ := stepped
      split at stepped
      · obtain rfl := Option.some.inj stepped
        exact followed.congr rfl rfl rfl rfl rfl rfl (Grown.refl _)
      · rw [Option.ite_none_right_eq_some, Option.some.injEq] at stepped
        obtain ⟨owned, rfl⟩ := stepped
        exact replied_followed followed owned
    case module label =>
      obtain ⟨-, stepped⟩ := stepped
      obtain ⟨elements, taken, rfl⟩ := Option.map_eq_some_iff.mp stepped
      exact followed.congr rfl rfl rfl rfl rfl rfl (transition_grown (step_transition taken).2.2)
  refine Semantics.Machine.throughout_iff_along Followed ?_ kept (followed_start owner)
    (followed_start owner).tracks
  intro system delivery next followed stepped
  refine ⟨fun tracks => ?_, fun known => (kept system delivery next followed stepped known).tracks⟩
  by_contra unknown
  cases delivery with
  | ownerChanged name =>
      simp only [deliveries, System.step, Option.ite_none_right_eq_some, Option.some.injEq] at stepped
      obtain ⟨⟨-, -, changed⟩, rfl⟩ := stepped
      exact ownerChanged_lost followed changed unknown tracks
  | otherChanged name previous other => exact unknown trivial
  | replied error => exact unknown trivial
  | module label => exact unknown trivial

/-- The owner leaves before the reply to `GetNameOwner`. -/
theorem tracks_fails_exitFirst :
    ¬ ∀ (accepts : CallId → Bool) (owner : String) (run : List Delivery),
      (deliveries accepts .connman).Throughout Tracks (System.start owner) run := by
  intro always
  obtain ⟨final, executed, dereferenced⟩ : ∃ final,
      (deliveries (fun _ => true) .connman).exec (System.start ":1.1") [.ownerChanged ""] = some final ∧
      final.nullDereferenced = true :=
    ⟨_, rfl, by decide⟩
  have tracks := (always (fun _ => true) ":1.1" [.ownerChanged ""]).finish executed
  rw [tracks.sound] at dereferenced
  cases dereferenced

end EDBus.Elements
