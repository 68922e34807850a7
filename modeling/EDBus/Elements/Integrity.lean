import EDBus.Elements.Effect
import EDBus.Semantics.Execution

/-!
# Which object paths stay registered

connman and bluez unregister what vanishes from one list of object paths without
a look at other lists. `propertyReceive_integrity_iff` finds exactly the property
updates after which every listed path is still registered.
-/

namespace EDBus.Elements

variable {family : Family} {accepts : CallId → Bool} {state : State}

/-- The key of connman and bluez. -/
theorem key_of_path (notOfono : family ≠ .ofono) (path interface : String) :
    family.key path interface = path := by
  cases family with
  | connman => rfl
  | bluez => rfl
  | ofono => exact absurd rfl notOfono

/-- The paths that vanish from the list when a property gets a value: those that
the stored list has more of. -/
def Vanishes (family : Family) (state : State) (e : ElementId) (name : String) (wire : Wire)
    (path : String) : Prop :=
  ∃ old new, UpdateMatches family state e name wire old new ∧ matchesType family old.type = true ∧
    (new.elim [] ElementArray.items).count (.str path) < old.items.count (.str path)

theorem matchDrops_iff (notOfono : family ≠ .ofono) (name path : String) (old : ElementArray)
    (new : Option ElementArray) (key : String) :
    MatchDrops family name path old new key ↔ matchesType family old.type = true ∧
      (new.elim [] ElementArray.items).count (.str key) < old.items.count (.str key) := by
  have same : ∀ lastSeen, deletedItem family name lastSeen = id := by
    intro lastSeen
    funext item
    simp [deletedItem, notOfono]
  have looked : ∀ item, family.lookupKey name path item = some key ↔ item = .str key := by
    intro item
    cases item <;> simp [Family.lookupKey, notOfono, key_of_path notOfono]
  simp only [MatchDrops, matchLookups, same, List.map_id, looked, exists_eq_right]
  rw [← Semantics.CursorDiff.mem_removed]
  rfl

theorem updateDrops_iff (notOfono : family ≠ .ofono) (e : ElementId) (path name : String)
    (wire : Wire) (key : String) :
    UpdateDrops family state e path name wire key ↔ Vanishes family state e name wire key := by
  simp only [UpdateDrops, Vanishes, matchDrops_iff notOfono]

/-- A property update has an effect on the table, and then stores the value. -/
theorem propertyReceive_effect (accepts : CallId → Bool) (notOfono : family ≠ .ofono) (wf : TableWf family state)
    {e : ElementId} (alive : state.elements e ≠ none) (again : Bool) (name : String) (wire : Wire) :
    ∃ gained matched, Effect family state matched gained (Vanishes family state e name wire) ∧
      (∀ path ∈ wire.paths, (family.getInterface name).isSome → Gains family gained path) ∧
      (propertyReceive accepts family again state e name wire).1 =
        matched.modify e (Element.setProperty name (wire.value family)) := by
  obtain ⟨element, found⟩ := Option.ne_none_iff_exists'.mp alive
  have hasPath : state.HasPath e element.path := ⟨element, found, rfl⟩
  have unchanged : ∀ state changed, (if changed = true then
      (interfacesRegister accepts family again state e name wire, true) else (state, changed)).1 =
      state := by
    intro state changed
    simp only [interfacesRegister, notOfono, false_and, if_false]
    split <;> rfl
  refine ⟨_, _, (updateMatched_effect accepts wf hasPath name wire).congr (fun _ _ => Iff.rfl)
    (updateDrops_iff notOfono e element.path name wire), ?_,
    (unchanged _ _).trans (propertyValueAdd_fst accepts wf hasPath name wire)⟩
  intro path listed mapped
  obtain ⟨interface, isInterface⟩ := Option.isSome_iff_exists.mp mapped
  exact ⟨path, interface, Or.inl ⟨listed, isInterface⟩, key_of_path notOfono path interface⟩

theorem propsGet_propsSet (props : List Property) (name other : String) (value : Value) :
    propsGet (propsSet props name value) other =
      if other = name then some value else propsGet props other := by
  induction props with
  | nil =>
      by_cases same : other = name
      · simp [propsGet, propsSet, same]
      · have differs : (name == other) = false := by simpa using fun equal => same equal.symm
        simp [propsGet, propsSet, same, differs]
  | cons property rest ih =>
      unfold propsGet at ih ⊢
      rw [propsSet]
      split
      · rename_i here
        by_cases same : other = name
        · simp [same]
        · have differs : (name == other) = false := by simpa using fun equal => same equal.symm
          simp [differs, same, here]
      · rename_i elsewhere
        by_cases first : property.name = other
        · have differs : other ≠ name := fun equal => elsewhere (first.trans equal)
          simp [first, differs]
        · have differs : (property.name == other) = false := by simpa using first
          simpa [List.find?_cons, differs] using ih

/-- A stored list of a property that stands for elements has the path. -/
def Names (family : Family) (state : State) (e : ElementId) (name path : String) : Prop :=
  (family.getInterface name).isSome ∧ ∃ array, propsGet (state.propsOf e) name =
    some (.array (some array)) ∧ array.type = .objectPath ∧ .str path ∈ array.items

/-- Every path in a stored list of a registered element is registered. -/
def Integrity (family : Family) (state : State) : Prop :=
  ∀ key e name path, state.find key = some e → Names family state e name path →
    state.find path ≠ none

/-- The path is in a list after the update: in the one received, or in another one. -/
def StillNames (family : Family) (state : State) (e : ElementId) (name : String) (wire : Wire)
    (other : ElementId) (otherName path : String) : Prop :=
  if other = e ∧ otherName = name then (family.getInterface name).isSome ∧ path ∈ wire.paths
  else Names family state other otherName path

/-- What the update drops is in no list of an element that remains registered. -/
def Unshared (family : Family) (state : State) (e : ElementId) (name : String) (wire : Wire) : Prop :=
  ∀ path key other otherName, Vanishes family state e name wire path →
    state.find key = some other → ¬ Vanishes family state e name wire key →
      ¬ StillNames family state e name wire other otherName path

/-- The received list has just the paths of the message. -/
theorem wire_value_paths (family : Family) (wire : Wire) (path : String) :
    (∃ array, wire.value family = .array (some array) ∧ array.type = .objectPath ∧
      .str path ∈ array.items) ↔ path ∈ wire.paths := by
  cases wire with
  | basic value => cases value <;> simp [Wire.value, Wire.paths]
  | other type isZero => simp [Wire.value, Wire.paths]
  | array items =>
      cases items <;> simp [Wire.value, Wire.paths, arrayBuild, WireArray.paths, eq_comm]

theorem propsOf_setProperty {e : ElementId} (alive : state.elements e ≠ none) (name : String)
    (value : Value) (other : ElementId) :
    (state.modify e (Element.setProperty name value)).propsOf other =
      if other = e then propsSet (state.propsOf e) name value else state.propsOf other := by
  obtain ⟨element, found⟩ := Option.ne_none_iff_exists'.mp alive
  unfold State.propsOf
  rw [modify_elements]
  split
  · rename_i here
    subst here
    simp [found, Element.setProperty]
  · rfl

theorem names_propertyReceive (family : Family) {e : ElementId} (name : String) (wire : Wire)
    {matched : State}
    (props : ∀ e, matched.propsOf e = state.propsOf e) (alive : matched.elements e ≠ none)
    (other : ElementId) (otherName path : String) :
    Names family (matched.modify e (Element.setProperty name (wire.value family))) other otherName
      path ↔ StillNames family state e name wire other otherName path := by
  unfold Names StillNames
  rw [propsOf_setProperty alive]
  by_cases here : other = e
  · subst here
    rw [if_pos rfl, propsGet_propsSet, props]
    by_cases sameName : otherName = name
    · subst sameName
      rw [if_pos rfl, if_pos ⟨rfl, rfl⟩]
      simp only [Option.some.injEq]
      rw [wire_value_paths]
    · rw [if_neg sameName, if_neg fun both => sameName both.2]
      rfl
  · rw [if_neg here, if_neg fun both => here both.1, props]
    exact Iff.rfl

/-- After a property update every listed path is registered exactly if the update
dropped none that is listed elsewhere or still in the same list. -/
theorem propertyReceive_integrity_iff (accepts : CallId → Bool) (notOfono : family ≠ .ofono) (wf : TableWf family state)
    {e : ElementId} (alive : state.elements e ≠ none) (integrity : Integrity family state)
    (again : Bool) (name : String) (wire : Wire) :
    Integrity family (propertyReceive accepts family again state e name wire).1 ↔
      Unshared family state e name wire := by
  obtain ⟨gained, matched, effect, fromWire, isAfter⟩ :=
    propertyReceive_effect accepts notOfono wf alive again name wire
  have names := names_propertyReceive family name wire effect.props
    (effect.alive e alive)
  rw [isAfter]
  constructor
  · intro after path key other otherName dropped registered remains still
    have present := after key other otherName path
      (by rw [find_modify]; exact effect.keep key other remains registered)
      ((names other otherName path).mpr still)
    rw [find_modify] at present
    exact present (effect.lose path dropped)
  · intro unshared key other otherName path registered named
    rw [find_modify] at registered ⊢
    have still := (names other otherName path).mp named
    have remains : ¬ Vanishes family state e name wire key := by
      intro dropped
      rw [effect.lose key dropped] at registered
      cases registered
    rcases effect.fresh key other registered with wasRegistered | isNew
    · have kept : ¬ Vanishes family state e name wire path := fun dropped =>
        unshared path key other otherName dropped wasRegistered remains still
      refine (effect.gain path kept).mpr ?_
      unfold StillNames at still
      split at still
      · exact Or.inr (fromWire path still.2 still.1)
      · exact Or.inl (integrity key other otherName path wasRegistered still)
    · -- an element that the update created has no properties
      have different : other ≠ e := by
        rintro rfl
        exact alive isNew
      have noProps : state.propsOf other = [] := by simp [State.propsOf, isNew]
      rw [StillNames, if_neg fun both => different both.1, Names, noProps] at still
      obtain ⟨-, array, impossible, -⟩ := still
      cases impossible

/-! ## Messages -/

/-- What the server sends to an element. -/
inductive Message where
  | properties (e : ElementId) (properties : List (String × Wire))
  | propertyChanged (e : ElementId) (name : String) (wire : Wire)

/-- The element a message is for. -/
def Message.element : Message → ElementId
  | .properties e _ => e
  | .propertyChanged e _ _ => e

/-- The callback that reads a message. -/
def receive (accepts : CallId → Bool) (family : Family) (state : State) : Message → State
  | .properties e properties => getPropertiesCallback accepts family state e properties
  | .propertyChanged e name wire => propertyChangedCallback accepts family state e name wire

/-- Messages are delivered to registered elements. -/
def messages (accepts : CallId → Bool) (family : Family) : Semantics.Machine State Message :=
  ⟨fun state message =>
    if message.element ∈ state.table.map Prod.snd then some (receive accepts family state message)
    else none⟩

/-- No update of the message drops a path that is still listed. -/
def MessageUnshared (accepts : CallId → Bool) (family : Family) (state : State) : Message → Prop
  | .propertyChanged e name wire => Unshared family state e name wire
  | .properties e properties => each state e properties
where
  each (state : State) (e : ElementId) : List (String × Wire) → Prop
    | [] => True
    | (name, wire) :: rest => Unshared family state e name wire ∧
        each (propertyReceive accepts family false state e name wire).1 e rest

theorem Integrity.listenersCall (integrity : Integrity family state) (wf : TableWf family state)
    (e : ElementId) : Integrity family (listenersCall state e) := by
  have effect := listenersCall_effect wf e
  intro key other name path registered named
  rw [effect.gain path id]
  refine Or.inl ?_
  unfold Names at named
  rw [effect.props] at named
  rcases effect.fresh key other registered with before | isNew
  · exact integrity key other name path before named
  · have noProps : state.propsOf other = [] := by simp [State.propsOf, isNew]
    rw [noProps] at named
    obtain ⟨-, array, impossible, -⟩ := named
    cases impossible

theorem propertyReceive_alive (notOfono : family ≠ .ofono) (wf : TableWf family state)
    {e : ElementId} (alive : state.elements e ≠ none) (again : Bool) (name : String) (wire : Wire) :
    (propertyReceive accepts family again state e name wire).1.elements e ≠ none := by
  obtain ⟨gained, matched, effect, -, isAfter⟩ :=
    propertyReceive_effect accepts notOfono wf alive again name wire
  rw [isAfter]
  exact (elements_modify_ne_none matched e _ e).mpr (effect.alive e alive)

theorem propertiesReceive_integrity (notOfono : family ≠ .ofono) {e : ElementId}
    (properties : List (String × Wire)) :
    ∀ received : State × Bool, TableWf family received.1 → received.1.elements e ≠ none →
      Integrity family received.1 → MessageUnshared.each accepts family received.1 e properties →
      Integrity family (propertiesReceive accepts family e received properties).1 := by
  induction properties with
  | nil => exact fun _ _ _ integrity _ => integrity
  | cons entry rest ih =>
      obtain ⟨name, wire⟩ := entry
      rintro received wf alive integrity ⟨here, later⟩
      refine ih _ ((tableWf_closed family accepts).propertyReceive false e name wire wf)
        (propertyReceive_alive notOfono wf alive false name wire) ?_ later
      exact (propertyReceive_integrity_iff accepts notOfono wf alive integrity false name wire).mpr here

theorem receive_integrity (notOfono : family ≠ .ofono) (wf : TableWf family state)
    (message : Message) (alive : state.elements message.element ≠ none)
    (integrity : Integrity family state) (unshared : MessageUnshared accepts family state message) :
    Integrity family (receive accepts family state message) := by
  cases message with
  | properties e properties =>
      have received := propertiesReceive_integrity notOfono properties (state, false) wf alive integrity
        unshared
      have receivedWf := (tableWf_closed family accepts).propertiesReceive e properties (state, false) wf
      simp only [receive, getPropertiesCallback]
      split
      · exact received.listenersCall receivedWf e
      · exact received
  | propertyChanged e name wire =>
      have received := (propertyReceive_integrity_iff accepts notOfono wf alive integrity true
        name wire).mpr unshared
      have receivedWf := (tableWf_closed family accepts).propertyReceive true e name wire wf
      simp only [receive, propertyChangedCallback]
      split
      · exact received.listenersCall receivedWf e
      · exact received

theorem receive_tableWf (wf : TableWf family state) (message : Message) :
    TableWf family (receive accepts family state message) := by
  cases message with
  | properties e properties =>
      exact (tableWf_closed family accepts).getPropertiesCallback e properties wf
  | propertyChanged e name wire =>
      exact (tableWf_closed family accepts).propertyChangedCallback e name wire wf

/-- The module after its name got an owner. -/
def managerStart (accepts : CallId → Bool) (family : Family) : State :=
  managerSync accepts family State.initial

theorem managerStart_tableWf (accepts : CallId → Bool) (family : Family) :
    TableWf family (managerStart accepts family) :=
  messageSend_tableWf (elementRegister_tableWf (initial_tableWf family) _ _) _ _ _ _

theorem managerStart_integrity (accepts : CallId → Bool) (family : Family) :
    Integrity family (managerStart accepts family) := by
  have start := initial_tableWf family
  have registered := elementRegister_effect start "/" family.managerInterface
  have called := messageSend_effect accepts registered.wf
    (elementRegister family State.initial "/" family.managerInterface).2 .propertiesGet true false
  rintro key e name path - ⟨-, array, named, -⟩
  have noProps : (managerStart accepts family).propsOf e = [] :=
    (called.props e).trans ((registered.props e).trans rfl)
  rw [noProps] at named
  cases named

/-- Along a run of messages to connman or bluez whose updates drop no path that is
still listed, every listed path stays registered. -/
theorem integrity_throughout (accepts : CallId → Bool) {family : Family}
    (notOfono : family ≠ .ofono) (run : List Message)
    (unshared : (messages accepts family).Along
      (fun state message _ => MessageUnshared accepts family state message)
      (managerStart accepts family) run) :
    (messages accepts family).Throughout (Integrity family) (managerStart accepts family) run := by
  have both : (messages accepts family).Throughout
      (fun state => TableWf family state ∧ Integrity family state) (managerStart accepts family) run := by
    refine Semantics.Machine.throughout_of_along ?_
      ⟨managerStart_tableWf accepts family, managerStart_integrity accepts family⟩ unshared
    rintro state message next ⟨wf, integrity⟩ stepped kept
    simp only [messages, Option.ite_none_right_eq_some, Option.some.injEq] at stepped
    obtain ⟨registered, rfl⟩ := stepped
    obtain ⟨⟨key, e⟩, entry, isElement⟩ := List.mem_map.mp registered
    obtain ⟨element, found, -, -⟩ := wf.entryAlive key e entry
    have alive : state.elements message.element ≠ none := by
      rw [← isElement, found]
      simp
    exact ⟨receive_tableWf wf message, receive_integrity notOfono wf message alive integrity kept⟩
  exact both.mono fun _ good => good.2

/-- A list of object paths. -/
def pathList (first : String) (rest : List String) : Wire := .array (.objectPaths first rest)

/-- Two services appear one after the other. -/
def servicesGrow : List Message :=
  [.propertyChanged 0 "Services" (pathList "/first" []),
    .propertyChanged 0 "Services" (pathList "/first" ["/second"])]

theorem integrity_throughout_servicesGrow :
    (messages (fun _ => true) .connman).Throughout (Integrity .connman)
      (managerStart (fun _ => true) .connman) servicesGrow := by
  refine integrity_throughout (fun _ => true) (by decide) servicesGrow ?_
  refine (Semantics.Machine.along_cons rfl).mpr ⟨?_, ?_⟩
  · rintro path key other otherName ⟨old, new, ⟨stored, known, -⟩, -⟩
    cases known
  · refine (Semantics.Machine.along_cons rfl).mpr ⟨?_, trivial⟩
    rintro path key other otherName ⟨old, new, ⟨stored, known, matched⟩, -, dropped⟩
    obtain rfl := Option.some.inj known
    obtain ⟨rfl, rfl⟩ := Prod.mk.inj (Option.some.inj matched)
    have grows : [Item.str "/first"].Sublist [.str "/first", .str "/second"] := by decide
    exact (Nat.not_lt.mpr (grows.count_le (.str path)) dropped).elim

/-- A service that the manager and a profile list leaves the list of the manager. -/
def serviceLeaves : List Message :=
  [.propertyChanged 0 "Profiles" (pathList "/profile" []),
    .propertyChanged 0 "Services" (pathList "/service" []),
    .propertyChanged 1 "Services" (pathList "/service" []),
    .propertyChanged 0 "Services" (.array .empty)]

/-- The profile still lists the service, which is no longer registered. -/
theorem integrity_fails_serviceLeaves :
    ¬ ∀ (accepts : CallId → Bool) (run : List Message),
      (messages accepts .connman).Throughout (Integrity .connman) (managerStart accepts .connman) run := by
  intro always
  have holds := Semantics.Machine.throughout_iff_prefix.mp (always (fun _ => true) serviceLeaves)
    serviceLeaves (List.prefix_refl _)
  obtain ⟨final, executed, profile, listed, gone⟩ : ∃ final,
      (messages (fun _ => true) .connman).exec (managerStart (fun _ => true) .connman) serviceLeaves =
        some final ∧ final.find "/profile" = some 1 ∧
      propsGet (final.propsOf 1) "Services" =
        some (.array (some ⟨.objectPath, [.str "/service"]⟩)) ∧ final.find "/service" = none :=
    ⟨_, rfl, by decide, by decide, by decide⟩
  exact holds final executed "/profile" 1 "Services" "/service" profile
    ⟨rfl, _, listed, rfl, by simp⟩ gone

/-! ## The match of two lists of paths -/

/-- An array of object paths. -/
def pathArray (paths : List String) : ElementArray := ⟨.objectPath, paths.map .str⟩

/-- The table follows the step from an old list of paths to a new one. -/
structure Follows (before after : State) (old new : List String) : Prop where
  lost : ∀ path ∈ old, path ∉ new → after.find path = none
  added : ∀ path ∈ new, path ∉ old → after.find path ≠ none
  kept : old.Nodup → new.Nodup → ∀ path ∈ old, path ∈ new → after.find path = before.find path
  untouched : ∀ path, path ∉ old → path ∉ new → after.find path = before.find path

theorem count_pathArray (paths : List String) (path : String) :
    (pathArray paths).items.count (.str path) = paths.count path := by
  have injective : Function.Injective Item.str := fun _ _ equal => Item.str.inj equal
  exact List.count_map_of_injective paths Item.str injective path

theorem items_pathArray (new : Option (List String)) :
    (new.map pathArray).elim [] ElementArray.items = (pathArray (new.getD [])).items := by
  cases new <;> rfl

/-- The paths of which the old list has more are dropped. -/
theorem matchDrops_pathArray (notOfono : family ≠ .ofono) (name elementPath : String)
    (old : List String) (new : Option (List String)) (path : String) :
    MatchDrops family name elementPath (pathArray old) (new.map pathArray) path ↔
      (new.getD []).count path < old.count path := by
  rw [matchDrops_iff notOfono, items_pathArray, count_pathArray, count_pathArray]
  exact and_iff_right rfl

/-- The paths of which the new list has more are registered, under themselves. -/
theorem gains_pathArray (notOfono : family ≠ .ofono) {name : String}
    (mapped : (family.getInterface name).isSome) (elementPath : String) (old : List String)
    (new : Option (List String)) (path : String) :
    Gains family (MatchAdds family name elementPath (pathArray old) (new.map pathArray)) path ↔
      old.count path < (new.getD []).count path := by
  obtain ⟨interface, isInterface⟩ := Option.isSome_iff_exists.mp mapped
  have mem : .str path ∈ Semantics.CursorDiff.added (pathArray old).items
      (pathArray (new.getD [])).items ↔ old.count path < (new.getD []).count path := by
    rw [Semantics.CursorDiff.mem_added, count_pathArray, count_pathArray]
  rw [← mem]
  unfold Gains MatchAdds
  rw [items_pathArray]
  constructor
  · rintro ⟨path', interface', ⟨-, item, listed, isPath, -⟩, isKey⟩
    rw [key_of_path notOfono] at isKey
    subst isKey isPath
    exact listed
  · intro listed
    refine ⟨path, interface, ⟨rfl, .str path, listed, rfl, Or.inr ⟨?_, isInterface⟩⟩,
      key_of_path notOfono path interface⟩
    exact fun isInterfaces => notOfono isInterfaces.1

/-- The match of connman and bluez follows any two lists, with or without
duplicates; the new one may be `NULL`. -/
theorem arrayMatch_follows (accepts : CallId → Bool) (notOfono : family ≠ .ofono)
    (wf : TableWf family state) {name : String} (mapped : (family.getInterface name).isSome)
    (old : List String) (new : Option (List String)) (e : ElementId) :
    Follows state (arrayMatch accepts family state (pathArray old) (new.map pathArray) name e) old
      (new.getD []) := by
  have effect : Effect family state
      (arrayMatch accepts family state (pathArray old) (new.map pathArray) name e)
      (MatchAdds family name "" (pathArray old) (new.map pathArray))
      (MatchDrops family name "" (pathArray old) (new.map pathArray)) :=
    arrayMatch_effect accepts wf (fun isOfono => absurd isOfono notOfono) _ _ name
  have drops := matchDrops_pathArray notOfono name "" old new
  have gains := gains_pathArray notOfono mapped "" old new
  have balanced : ∀ path, old.count path = (new.getD []).count path →
      (arrayMatch accepts family state (pathArray old) (new.map pathArray) name e).find path =
        state.find path := by
    intro path same
    apply effect.find_eq
    · rw [drops]
      omega
    · rw [gains]
      omega
  refine ⟨?_, ?_, ?_, ?_⟩
  · intro path inOld notInNew
    apply effect.lose
    rw [drops, List.count_eq_zero_of_not_mem notInNew]
    exact List.count_pos_iff.mpr inOld
  · intro path inNew notInOld
    have more : old.count path < (new.getD []).count path := by
      rw [List.count_eq_zero_of_not_mem notInOld]
      exact List.count_pos_iff.mpr inNew
    rw [effect.gain path]
    · exact Or.inr ((gains path).mpr more)
    · rw [drops]
      omega
  · intro oldNodup newNodup path inOld inNew
    apply balanced
    rw [List.count_eq_one_of_mem oldNodup inOld, List.count_eq_one_of_mem newNodup inNew]
  · intro path notInOld notInNew
    apply balanced
    rw [List.count_eq_zero_of_not_mem notInOld, List.count_eq_zero_of_not_mem notInNew]

/-- Two services change places, one leaves and one comes, on a table that lists the manager. -/
theorem arrayMatch_follows_services :
    Follows (managerStart (fun _ => true) .connman)
      (arrayMatch (fun _ => true) .connman (managerStart (fun _ => true) .connman)
        (pathArray ["/a", "/b", "/c"]) (some (pathArray ["/b", "/d", "/a"])) "Services" 0)
      ["/a", "/b", "/c"] ["/b", "/d", "/a"] :=
  arrayMatch_follows (fun _ => true) (by decide) (managerStart_tableWf _ .connman) (by decide)
    ["/a", "/b", "/c"] (some ["/b", "/d", "/a"]) 0

end EDBus.Elements
