import EDBus.Elements.Table

/-!
# What a part of a message does to the table

An `Effect` registers elements for some pairs of a path and an interface, and
then unregisters those with some keys, without a change of any property. Effects
compose, and each operation of the table has one.
-/

namespace EDBus.Elements

variable {family : Family} {state before middle after : State}

/-- The properties of an element. -/
def State.propsOf (state : State) (e : ElementId) : List Property :=
  (state.elements e).elim [] Element.props

/-- An element stays, with its path and its interface. -/
def Named (before after : State) (e : ElementId) : Prop :=
  ∀ element, before.elements e = some element → ∃ element', after.elements e = some element' ∧
    element'.path = element.path ∧ element'.interface = element.interface

/-- The element is alive and has the path. -/
def State.HasPath (state : State) (e : ElementId) (path : String) : Prop :=
  ∃ element, state.elements e = some element ∧ element.path = path

/-- Only ofono asks the element of a list for its path. -/
def State.Located (family : Family) (state : State) (e : ElementId) (path : String) : Prop :=
  family = .ofono → state.HasPath e path

/-- The key is that of a gained pair of a path and an interface. -/
def Gains (family : Family) (gained : String → String → Prop) (key : String) : Prop :=
  ∃ path interface, gained path interface ∧ family.key path interface = key

/-- Keys are gained, then others are lost; the properties of all elements stay. -/
structure Effect (family : Family) (before after : State) (gained : String → String → Prop)
    (lost : String → Prop) : Prop where
  lose : ∀ key, lost key → after.find key = none
  gain : ∀ key, ¬ lost key →
    (after.find key ≠ none ↔ before.find key ≠ none ∨ Gains family gained key)
  keep : ∀ key e, ¬ lost key → before.find key = some e → after.find key = some e
  fresh : ∀ key e, after.find key = some e → before.find key = some e ∨ before.elements e = none
  props : ∀ e, after.propsOf e = before.propsOf e
  named : ∀ e, Named before after e
  born : ∀ e element, before.elements e = none → after.elements e = some element →
    gained element.path element.interface
  wf : TableWf family after

/-- No pair of a path and an interface. -/
def Nothing (_ _ : String) : Prop := False

/-- No key at all. -/
def Nowhere (_ : String) : Prop := False

theorem Named.refl (state : State) (e : ElementId) : Named state state e :=
  fun element found => ⟨element, found, rfl, rfl⟩

theorem Named.trans {e : ElementId} (left : Named before middle e) (right : Named middle after e) :
    Named before after e := by
  intro element found
  obtain ⟨inMiddle, foundMiddle, path, interface⟩ := left element found
  obtain ⟨inAfter, foundAfter, path', interface'⟩ := right inMiddle foundMiddle
  exact ⟨inAfter, foundAfter, path'.trans path, interface'.trans interface⟩

theorem Named.alive {e : ElementId} (named : Named before after e)
    (alive : before.elements e ≠ none) : after.elements e ≠ none := by
  obtain ⟨element, found⟩ := Option.ne_none_iff_exists'.mp alive
  obtain ⟨inAfter, foundAfter, -⟩ := named element found
  simp [foundAfter]

theorem Named.hasPath {e : ElementId} {path : String} (named : Named before after e)
    (hasPath : before.HasPath e path) : after.HasPath e path := by
  obtain ⟨element, found, isPath⟩ := hasPath
  obtain ⟨inAfter, foundAfter, same, -⟩ := named element found
  exact ⟨inAfter, foundAfter, same.trans isPath⟩

theorem Named.located {e : ElementId} {path : String} (named : Named before after e)
    (located : before.Located family e path) : after.Located family e path :=
  fun isOfono => named.hasPath (located isOfono)

theorem not_gains_nothing (family : Family) (key : String) : ¬ Gains family Nothing key := by
  rintro ⟨path, interface, impossible, -⟩
  exact impossible

theorem Effect.refl (wf : TableWf family state) : Effect family state state Nothing Nowhere where
  lose _ impossible := impossible.elim
  gain key _ := ⟨Or.inl, fun either => either.resolve_right (not_gains_nothing family key)⟩
  keep _ _ _ found := found
  fresh _ _ found := Or.inl found
  props _ := rfl
  named e := .refl state e
  born e element young alive := by
    rw [young] at alive
    cases alive
  wf := wf

theorem Effect.alive {gained : String → String → Prop} {lost : String → Prop}
    (effect : Effect family before after gained lost) (e : ElementId)
    (alive : before.elements e ≠ none) : after.elements e ≠ none :=
  (effect.named e).alive alive

/-- What is neither gained nor lost is as before. -/
theorem Effect.find_eq {gained : String → String → Prop} {lost : String → Prop}
    (effect : Effect family before after gained lost) {key : String} (kept : ¬ lost key)
    (ungained : ¬ Gains family gained key) : after.find key = before.find key := by
  cases found : before.find key with
  | some e => exact effect.keep key e kept found
  | none =>
      by_contra present
      exact ((effect.gain key kept).mp present).elim (fun remains => remains found) ungained

/-- Two effects one after the other: what the first gains or loses, the second
does not take back. -/
theorem Effect.trans {first second gained : String → String → Prop} {left right lost : String → Prop}
    (former : Effect family before middle first left)
    (latter : Effect family middle after second right)
    (gains : ∀ path interface, gained path interface ↔ first path interface ∨ second path interface)
    (losses : ∀ key, lost key ↔ left key ∨ right key)
    (final : ∀ key, left key → ¬ Gains family second key) :
    Effect family before after gained lost where
  lose key isLost := by
    by_cases isRight : right key
    · exact latter.lose key isRight
    · have isLeft := ((losses key).mp isLost).resolve_right isRight
      by_contra remains
      rcases (latter.gain key isRight).mp remains with inMiddle | regained
      · exact inMiddle (former.lose key isLeft)
      · exact final key isLeft regained
  gain key kept := by
    rw [losses, not_or] at kept
    rw [latter.gain key kept.2, former.gain key kept.1, or_assoc]
    refine or_congr_right ?_
    constructor
    · rintro (⟨path, interface, isGained, isKey⟩ | ⟨path, interface, isGained, isKey⟩)
      · exact ⟨path, interface, (gains path interface).mpr (Or.inl isGained), isKey⟩
      · exact ⟨path, interface, (gains path interface).mpr (Or.inr isGained), isKey⟩
    · rintro ⟨path, interface, isGained, isKey⟩
      rcases (gains path interface).mp isGained with isFirst | isSecond
      · exact Or.inl ⟨path, interface, isFirst, isKey⟩
      · exact Or.inr ⟨path, interface, isSecond, isKey⟩
  keep key e kept found := by
    rw [losses, not_or] at kept
    exact latter.keep key e kept.2 (former.keep key e kept.1 found)
  fresh key e found := by
    rcases latter.fresh key e found with inMiddle | new
    · exact former.fresh key e inMiddle
    · refine Or.inr ?_
      by_contra old
      exact former.alive e old new
  props e := (latter.props e).trans (former.props e)
  named e := (former.named e).trans (latter.named e)
  born e element young alive := by
    rw [gains]
    cases inMiddle : middle.elements e with
    | none => exact Or.inr (latter.born e element inMiddle alive)
    | some element' =>
        obtain ⟨same, found, path, interface⟩ := latter.named e element' inMiddle
        obtain rfl := Option.some.inj (found.symm.trans alive)
        rw [path, interface]
        exact Or.inl (former.born e element' young inMiddle)
  wf := latter.wf

theorem Effect.gain_trans {first second : String → String → Prop} {lost : String → Prop}
    (left : Effect family before middle first Nowhere)
    (right : Effect family middle after second lost) :
    Effect family before after (fun path interface => first path interface ∨ second path interface)
      lost :=
  left.trans right (fun _ _ => Iff.rfl) (by simp [Nowhere]) fun _ impossible => impossible.elim

theorem Effect.lose_trans {gained : String → String → Prop} {first second : String → Prop}
    (left : Effect family before middle gained first)
    (right : Effect family middle after Nothing second) :
    Effect family before after gained (fun key => first key ∨ second key) :=
  left.trans right (by simp [Nothing]) (fun _ => Iff.rfl) fun key _ => not_gains_nothing family key

/-- The pairs and the keys may be described otherwise. -/
theorem Effect.congr {gained gained' : String → String → Prop} {lost lost' : String → Prop}
    (effect : Effect family before after gained lost)
    (sameGain : ∀ path interface, gained path interface ↔ gained' path interface)
    (sameLoss : ∀ key, lost key ↔ lost' key) : Effect family before after gained' lost' := by
  obtain rfl : gained = gained' := funext₂ fun path interface => propext (sameGain path interface)
  obtain rfl : lost = lost' := funext fun key => propext (sameLoss key)
  exact effect

/-! ## Single operations -/

theorem propsOf_modify (state : State) (e : ElementId) (change : Element → Element)
    (props : ∀ element, (change element).props = element.props) (other : ElementId) :
    (state.modify e change).propsOf other = state.propsOf other := by
  unfold State.propsOf
  rw [modify_elements]
  split
  · cases state.elements other with
    | none => rfl
    | some element => exact props element
  · rfl

theorem named_modify (state : State) (e : ElementId) (change : Element → Element)
    (path : ∀ element, (change element).path = element.path)
    (interface : ∀ element, (change element).interface = element.interface) (other : ElementId) :
    Named state (state.modify e change) other := by
  intro element found
  rw [modify_elements, found]
  split
  · exact ⟨change element, rfl, path element, interface element⟩
  · exact ⟨element, rfl, rfl, rfl⟩

/-- Nothing but other fields changes. -/
theorem Effect.still (wf : TableWf family after) (find : ∀ key, after.find key = before.find key)
    (props : ∀ e, after.propsOf e = before.propsOf e) (named : ∀ e, Named before after e)
    (born : ∀ e, before.elements e = none → after.elements e = none) :
    Effect family before after Nothing Nowhere where
  lose _ impossible := impossible.elim
  gain key _ := by
    rw [find key]
    exact ⟨Or.inl, fun either => either.resolve_right (not_gains_nothing family key)⟩
  keep key e _ found := (find key).trans found
  fresh key e found := Or.inl ((find key).symm.trans found)
  props := props
  named := named
  born e element young alive := by
    rw [born e young] at alive
    cases alive
  wf := wf

/-- A change of an element that keeps its names and its properties. -/
theorem Effect.modify (wf : TableWf family state) (e : ElementId) (change : Element → Element)
    (path : ∀ element, (change element).path = element.path)
    (interface : ∀ element, (change element).interface = element.interface)
    (signalHandler : ∀ element, (change element).signalHandler = element.signalHandler)
    (props : ∀ element, (change element).props = element.props) :
    Effect family state (state.modify e change) Nothing Nowhere := by
  refine .still (wf.modify e change path interface signalHandler) (find_modify state e change)
    (propsOf_modify state e change props) (named_modify state e change path interface) ?_
  intro other young
  by_contra alive
  exact (elements_modify_ne_none state e change other).mp alive young

/-- Only elements, table and counter matter. -/
theorem Effect.settle {gained : String → String → Prop} {lost : String → Prop} {other : State}
    (effect : Effect family before after gained lost) (elements : other.elements = after.elements)
    (table : other.table = after.table) (nextElement : other.nextElement = after.nextElement) :
    Effect family before other gained lost := by
  have find : ∀ key, other.find key = after.find key := fun key => by rw [State.find, table]; rfl
  refine ⟨?_, ?_, ?_, ?_, ?_, ?_, ?_, effect.wf.congr elements table nextElement⟩
  · exact fun key isLost => (find key).trans (effect.lose key isLost)
  · intro key kept
    rw [find]
    exact effect.gain key kept
  · exact fun key e kept found => (find key).trans (effect.keep key e kept found)
  · exact fun key e found => effect.fresh key e ((find key).symm.trans found)
  · intro e
    rw [State.propsOf, elements]
    exact effect.props e
  · intro e element found
    rw [elements]
    exact effect.named e element found
  · intro e element young alive
    rw [elements] at alive
    exact effect.born e element young alive

theorem messageSend_effect (accepts : CallId → Bool) (wf : TableWf family state) (e : ElementId) (list : PendingList)
    (libraryCb userCb : Bool) :
    Effect family state (messageSend accepts state e list libraryCb userCb) Nothing Nowhere := by
  unfold messageSend
  split
  · exact (Effect.modify wf e (Element.appendCall list state.nextCall) (fun _ => rfl) (fun _ => rfl)
      (fun _ => rfl) fun _ => rfl).settle rfl rfl rfl
  · exact (Effect.refl wf).settle rfl rfl rfl

theorem listenersCall_effect (wf : TableWf family state) (e : ElementId) :
    Effect family state (listenersCall state e) Nothing Nowhere := by
  unfold listenersCall
  split
  · exact (Effect.refl wf).settle rfl rfl rfl
  · split
    · exact .refl wf
    · exact (Effect.modify wf e Element.armIdler (fun _ => rfl) (fun _ => rfl) (fun _ => rfl)
        fun _ => rfl).settle rfl rfl rfl

theorem elementInsert_effect (wf : TableWf family state) {path interface : String}
    (absent : elementGet family state path interface = none) :
    Effect family state (elementInsert family state path interface)
      (fun path' interface' => path' = path ∧ interface' = interface) Nowhere := by
  have insertFind := fun key => find_elementInsert state path interface key absent
  have young := wf.fresh state.nextElement (Nat.le_refl _)
  have elements : ∀ other, other ≠ state.nextElement →
      (elementInsert family state path interface).elements other = state.elements other :=
    fun other old => Function.update_of_ne old ..
  have inserted : (elementInsert family state path interface).elements state.nextElement =
      some (elementNew path interface) := Function.update_self ..
  refine ⟨fun _ impossible => impossible.elim, ?_, ?_, ?_, ?_, ?_, ?_, elementInsert_tableWf wf absent⟩
  · intro key _
    rw [insertFind]
    constructor
    · intro found
      split at found
      · rename_i isKey
        exact Or.inr ⟨path, interface, ⟨rfl, rfl⟩, isKey.symm⟩
      · exact Or.inl found
    · rintro (found | ⟨path', interface', ⟨rfl, rfl⟩, rfl⟩)
      · split
        · simp
        · exact found
      · simp
  · intro key e _ found
    rw [insertFind, if_neg, found]
    rintro rfl
    rw [elementGet, found] at absent
    cases absent
  · intro key e found
    rw [insertFind] at found
    split at found
    · obtain rfl := Option.some.inj found
      exact Or.inr young
    · exact Or.inl found
  · intro other
    unfold State.propsOf
    by_cases isNew : other = state.nextElement
    · subst isNew
      rw [inserted, young]
      rfl
    · rw [elements other isNew]
  · intro other element found
    have old : other ≠ state.nextElement := by
      rintro rfl
      rw [young] at found
      cases found
    exact ⟨element, (elements other old).trans found, rfl, rfl⟩
  · intro other element unborn alive
    by_cases isNew : other = state.nextElement
    · subst isNew
      obtain rfl := Option.some.inj (inserted.symm.trans alive)
      exact ⟨rfl, rfl⟩
    · rw [elements other isNew, unborn] at alive
      cases alive

theorem elementRegister_effect (wf : TableWf family state) (path interface : String) :
    Effect family state (elementRegister family state path interface).1
      (fun path' interface' => path' = path ∧ interface' = interface) Nowhere := by
  unfold elementRegister
  split
  · rename_i e present
    -- nothing is gained that is not there
    have effect := Effect.refl wf
    refine ⟨effect.lose, ?_, effect.keep, effect.fresh, effect.props, effect.named, ?_, wf⟩
    · intro key _
      refine ⟨Or.inl, ?_⟩
      rintro (registered | ⟨path', interface', ⟨rfl, rfl⟩, rfl⟩)
      · exact registered
      · intro absent
        rw [elementGet, absent] at present
        cases present
    · exact fun e element young alive => (effect.born e element young alive).elim
  · rename_i absent
    have inserted := elementInsert_effect wf absent
    have counted := Effect.modify inserted.wf state.nextElement Element.addReference (fun _ => rfl)
      (fun _ => rfl) (fun _ => rfl) fun _ => rfl
    exact ((inserted.gain_trans counted).congr (by simp [Nothing]) fun _ => Iff.rfl).settle rfl rfl rfl

theorem unregisterInternal_props (state : State) (e other : ElementId) :
    (unregisterInternal state e).propsOf other = state.propsOf other := by
  unfold unregisterInternal State.propsOf ecoreEventAdd
  split
  · rfl
  · rename_i element found
    by_cases here : other = e
    · subst here
      simp [found]
    · simp [here]

theorem unregisterInternal_named (state : State) (e other : ElementId) :
    Named state (unregisterInternal state e) other := by
  unfold unregisterInternal ecoreEventAdd
  split
  · exact .refl state other
  · rename_i element found
    intro element' found'
    by_cases here : other = e
    · subst here
      obtain rfl := Option.some.inj (found.symm.trans found')
      exact ⟨_, Function.update_self .., rfl, rfl⟩
    · exact ⟨element', by simpa [here] using found', rfl, rfl⟩

theorem unregisterInternal_unborn (state : State) (e other : ElementId)
    (unborn : state.elements other = none) : (unregisterInternal state e).elements other = none := by
  unfold unregisterInternal ecoreEventAdd
  split
  · exact unborn
  · rename_i element found
    have different : other ≠ e := by
      rintro rfl
      rw [unborn] at found
      cases found
    simpa [different] using unborn

theorem hashDel_effect (wf : TableWf family state) (key : String) :
    Effect family state (hashDel state key) Nothing (fun other => other = key) := by
  have find := find_hashDel state key
  refine ⟨?_, ?_, ?_, ?_, ?_, ?_, ?_, hashDel_tableWf wf key⟩
  · intro other isKey
    rw [find, if_pos isKey]
  · intro other different
    rw [find, if_neg different]
    exact ⟨Or.inl, fun either => either.resolve_right (not_gains_nothing family other)⟩
  · intro other e different found
    rw [find, if_neg different, found]
  · intro other e found
    rw [find] at found
    split at found
    · cases found
    · exact Or.inl found
  · intro e
    unfold hashDel
    split
    · rfl
    · exact unregisterInternal_props _ _ e
  · intro e
    unfold hashDel
    split
    · exact .refl state e
    · intro element alive
      exact unregisterInternal_named _ _ e element alive
  · intro e element unborn alive
    unfold hashDel at alive
    split at alive
    · rw [unborn] at alive
      cases alive
    · cases alive.symm.trans (unregisterInternal_unborn _ _ e unborn)

/-! ## Loops -/

section Loops

variable {Turn : Type} {body : State → Turn → State} {e : ElementId} {path : String}

theorem Effect.foldl_gain {gains : Turn → String → String → Prop}
    (each : ∀ state turn, TableWf family state → state.Located family e path →
      Effect family state (body state turn) (gains turn) Nowhere)
    (turns : List Turn) (wf : TableWf family state) (located : state.Located family e path) :
    Effect family state (turns.foldl body state)
      (fun path interface => ∃ turn ∈ turns, gains turn path interface) Nowhere := by
  induction turns generalizing state with
  | nil => exact (Effect.refl wf).congr (by simp [Nothing]) fun _ => Iff.rfl
  | cons turn rest ih =>
      have first := each state turn wf located
      exact (first.gain_trans (ih first.wf ((first.named e).located located))).congr (by simp)
        fun _ => Iff.rfl

theorem Effect.foldl_lose {losses : Turn → String → Prop}
    (each : ∀ state turn, TableWf family state → state.Located family e path →
      Effect family state (body state turn) Nothing (losses turn))
    (turns : List Turn) (wf : TableWf family state) (located : state.Located family e path) :
    Effect family state (turns.foldl body state) Nothing
      (fun key => ∃ turn ∈ turns, losses turn key) := by
  induction turns generalizing state with
  | nil => exact (Effect.refl wf).congr (fun _ _ => Iff.rfl) (by simp [Nowhere])
  | cons turn rest ih =>
      have first := each state turn wf located
      exact (first.lose_trans (ih first.wf ((first.named e).located located))).congr
        (fun _ _ => Iff.rfl) (by simp)

end Loops

/-! ## The parts of a message -/

section Parts

variable {e : ElementId} {path : String}

/-- The interfaces of ofono are matched in their own way. -/
def Family.isInterfaces (family : Family) (name : String) : Prop :=
  family = .ofono ∧ name = "Interfaces"

/-- The pair that `_element_array_match` registers for an added item. -/
def Family.adds (family : Family) (name elementPath : String) (item : Item)
    (path interface : String) : Prop :=
  item = .str path ∧ (family.isInterfaces name ∧ interface = elementPath ∨
    ¬ family.isInterfaces name ∧ family.getInterface name = some interface)

/-- The key that `_element_array_match` looks up for a removed item. -/
def Family.lookupKey (family : Family) (name elementPath : String) : Item → Option String
  | .str item =>
    if family = .ofono then
      if name = "Interfaces" then some (family.key elementPath item)
      else (family.getInterface name).map (family.key item)
    else some (family.key item "")
  | _ => none

theorem itemRegister_effect (accepts : CallId → Bool) (wf : TableWf family state) (name item : String) :
    Effect family state (itemRegister accepts family name state item)
      (fun path interface => path = item ∧ family.getInterface name = some interface) Nowhere := by
  unfold itemRegister
  split
  · rename_i unmapped
    exact (Effect.refl wf).congr (by simp [Nothing, unmapped]) fun _ => Iff.rfl
  · rename_i interface mapped
    have registered := elementRegister_effect wf item interface
    have called := messageSend_effect accepts registered.wf
      (elementRegister family state item interface).2 .propertiesGet true false
    refine (registered.gain_trans called).congr ?_ fun _ => Iff.rfl
    simp [Nothing, mapped, eq_comm]

theorem matchAdd_effect (accepts : CallId → Bool) (wf : TableWf family state) (located : state.Located family e path) (name : String)
    (item : Item) :
    Effect family state (matchAdd accepts family name e state item) (family.adds name path item)
      Nowhere := by
  cases item with
  | str text =>
      simp only [matchAdd]
      split
      · rename_i isInterfaces
        obtain ⟨element, found, rfl⟩ := located isInterfaces.1
        simp only [found]
        refine (elementRegister_effect wf text element.path).congr ?_ fun _ => Iff.rfl
        intro path interface
        have isInterfaces : family.isInterfaces name := isInterfaces
        simp [Family.adds, isInterfaces, eq_comm]
      · rename_i otherwise
        refine (itemRegister_effect accepts wf name text).congr ?_ fun _ => Iff.rfl
        intro path interface
        have otherwise : ¬ family.isInterfaces name := otherwise
        simp [Family.adds, otherwise, eq_comm]
  | byte value =>
      simp only [matchAdd]
      have effect : Effect family state state (family.adds name path (.byte value)) Nowhere :=
        (Effect.refl wf).congr (by simp [Nothing, Family.adds]) fun _ => Iff.rfl
      split
      · exact effect.settle rfl rfl rfl
      · exact effect
  | entry value =>
      simp only [matchAdd]
      have effect : Effect family state state (family.adds name path (.entry value)) Nowhere :=
        (Effect.refl wf).congr (by simp [Nothing, Family.adds]) fun _ => Iff.rfl
      split
      · exact effect.settle rfl rfl rfl
      · exact effect

theorem matchGet_eq (located : state.Located family e path) (name : String) (item : Item) :
    matchGet family name e state item = (family.lookupKey name path item).bind state.find := by
  cases item with
  | str text =>
      simp only [matchGet, Family.lookupKey]
      split
      · rename_i isOfono
        obtain ⟨element, found, rfl⟩ := located isOfono
        rw [found]
        split
        · rfl
        · cases family.getInterface name <;> rfl
      · rfl
  | byte value => rfl
  | entry value => rfl

theorem matchRemove_effect (wf : TableWf family state) (located : state.Located family e path)
    (name : String) (item : Item) :
    Effect family state (matchRemove family name e state item) Nothing
      (fun key => family.lookupKey name path item = some key) := by
  unfold matchRemove
  rw [matchGet_eq located]
  cases looked : family.lookupKey name path item with
  | none => exact (Effect.refl wf).congr (fun _ _ => Iff.rfl) (by simp [Nowhere])
  | some key =>
      simp only [Option.bind_some]
      split
      · rename_i absent
        have effect := Effect.refl wf
        refine ⟨?_, ?_, ?_, effect.fresh, effect.props, effect.named, effect.born, wf⟩
        · intro other isKey
          obtain rfl := Option.some.inj isKey
          exact absent
        · exact fun key _ => effect.gain key id
        · exact fun key e _ found => found
      · rename_i removed present
        obtain ⟨element, alive, isKey, -⟩ := wf.found present
        simp only [elementUnregister, alive]
        refine (hashDel_effect wf _).congr (fun _ _ => Iff.rfl) ?_
        intro other
        rw [← isKey, Option.some.injEq, eq_comm]

/-- The items whose elements `_element_array_match` unregisters. -/
def matchLookups (family : Family) (name : String) (old new : List Item) : List Item :=
  (Semantics.CursorDiff.leftover old new).map
    (deletedItem family name (Semantics.CursorDiff.walk old new).lastSeen) ++
    (Semantics.CursorDiff.walk old new).oldRest

/-- The keys that the match of two lists drops. -/
def MatchDrops (family : Family) (name path : String) (old : ElementArray)
    (new : Option ElementArray) (key : String) : Prop :=
  matchesType family old.type = true ∧
    ∃ item ∈ matchLookups family name old.items (new.elim [] ElementArray.items),
      family.lookupKey name path item = some key

/-- The pairs that the match of two lists registers. -/
def MatchAdds (family : Family) (name elementPath : String) (old : ElementArray)
    (new : Option ElementArray) (path interface : String) : Prop :=
  matchesType family old.type = true ∧
    ∃ item ∈ Semantics.CursorDiff.added old.items (new.elim [] ElementArray.items),
      family.adds name elementPath item path interface

theorem arrayMatch_effect (accepts : CallId → Bool) (wf : TableWf family state) (located : state.Located family e path)
    (old : ElementArray) (new : Option ElementArray) (name : String) :
    Effect family state (arrayMatch accepts family state old new name e)
      (MatchAdds family name path old new) (MatchDrops family name path old new) := by
  unfold arrayMatch
  split
  · rename_i unmatched
    refine (Effect.refl wf).congr ?_ ?_
    · simp_all [Nothing, MatchAdds]
    · simp_all [Nowhere, MatchDrops]
  · rename_i matched
    have matched : matchesType family old.type = true := by simpa using matched
    have registered := Effect.foldl_gain
      (fun state item wf located => matchAdd_effect accepts wf located name item)
      (Semantics.CursorDiff.added old.items (new.elim [] ElementArray.items)) wf located
    have removed := Effect.foldl_lose
      (fun state item wf located => matchRemove_effect wf located name item)
      (matchLookups family name old.items (new.elim [] ElementArray.items)) registered.wf
      ((registered.named e).located located)
    simp only [← List.foldl_append]
    refine (registered.gain_trans removed).congr ?_ ?_
    · intro path interface
      simp [Nothing, MatchAdds, matched]
    · intro key
      simp [MatchDrops, matched]

theorem wireDecode_effect (accepts : CallId → Bool) (wf : TableWf family state) (hasPath : state.HasPath e path)
    (name : String) (wire : Wire) :
    Effect family state (wireDecode accepts family state name wire)
      (fun path interface => path ∈ wire.paths ∧ family.getInterface name = some interface)
      Nowhere := by
  refine (Effect.foldl_gain
    (fun state item wf _ => itemRegister_effect accepts wf name item) wire.paths wf fun _ => hasPath).congr ?_
    fun _ => Iff.rfl
  intro path interface
  simp

/-! ## Property updates -/

/-- The lists that `_element_array_match` gets for the new value of a property. -/
def UpdateMatches (family : Family) (state : State) (e : ElementId) (name : String) (wire : Wire)
    (old : ElementArray) (new : Option ElementArray) : Prop :=
  ∃ stored, propsGet (state.propsOf e) name = some stored ∧
    stored.matched (wire.value family) = some (old, new)

/-- The keys that are unregistered when a property gets a value. -/
def UpdateDrops (family : Family) (state : State) (e : ElementId) (path name : String) (wire : Wire)
    (key : String) : Prop :=
  ∃ old new, UpdateMatches family state e name wire old new ∧ MatchDrops family name path old new key

/-- The pairs that are registered when a property gets a value, before it is stored. -/
def UpdateAdds (family : Family) (state : State) (e : ElementId) (elementPath name : String)
    (wire : Wire) (path interface : String) : Prop :=
  path ∈ wire.paths ∧ family.getInterface name = some interface ∨
    ∃ old new, UpdateMatches family state e name wire old new ∧
      MatchAdds family name elementPath old new path interface

/-- The state in which a received value is stored. -/
def updateMatched (accepts : CallId → Bool) (family : Family) (state : State) (e : ElementId)
    (name : String) (wire : Wire) : State :=
  match (propsGet (state.propsOf e) name).bind fun stored => stored.matched (wire.value family) with
  | none => wireDecode accepts family state name wire
  | some (old, new) => arrayMatch accepts family (wireDecode accepts family state name wire) old new name e

theorem updateMatched_effect (accepts : CallId → Bool) (wf : TableWf family state) (hasPath : state.HasPath e path)
    (name : String) (wire : Wire) :
    Effect family state (updateMatched accepts family state e name wire)
      (UpdateAdds family state e path name wire) (UpdateDrops family state e path name wire) := by
  have decoded := wireDecode_effect accepts wf hasPath name wire
  unfold updateMatched
  split
  · rename_i unmatched
    have none : ∀ old new, ¬ UpdateMatches family state e name wire old new := by
      rintro old new ⟨stored, known, matched⟩
      rw [known, Option.bind_some, matched] at unmatched
      cases unmatched
    refine decoded.congr ?_ ?_
    · simp [UpdateAdds, none]
    · simp [UpdateDrops, none, Nowhere]
  · rename_i old new matched
    have only : ∀ old' new', UpdateMatches family state e name wire old' new' ↔
        old' = old ∧ new' = new := by
      intro old' new'
      unfold UpdateMatches
      rw [Option.bind_eq_some_iff] at matched
      obtain ⟨stored, known, isMatched⟩ := matched
      simp [known, isMatched, eq_comm]
    have matching := arrayMatch_effect accepts decoded.wf
      (fun _ => (decoded.named e).hasPath hasPath) old new name
    refine (decoded.gain_trans matching).congr ?_ ?_
    · intro path' interface
      simp [UpdateAdds, only]
    · intro key
      simp [UpdateDrops, only]

theorem propertyValueAdd_fst (accepts : CallId → Bool) (wf : TableWf family state) (hasPath : state.HasPath e path)
    (name : String) (wire : Wire) :
    (propertyValueAdd accepts family (wireDecode accepts family state name wire) e name
      (wire.value family)).1 =
      (updateMatched accepts family state e name wire).modify e
        (Element.setProperty name (wire.value family)) := by
  have decoded := wireDecode_effect accepts wf hasPath name wire
  obtain ⟨element, found, -⟩ := (decoded.named e).hasPath hasPath
  have props : element.props = state.propsOf e := by
    have same := decoded.props e
    rw [State.propsOf, found] at same
    exact same
  unfold propertyValueAdd updateMatched
  simp only [found, props]
  cases propsGet (state.propsOf e) name with
  | none => rfl
  | some stored =>
      cases matched : stored.matched (wire.value family) with
      | none => simp only [Option.bind_some, matched]
      | some lists => simp only [Option.bind_some, matched]

end Parts

end EDBus.Elements
