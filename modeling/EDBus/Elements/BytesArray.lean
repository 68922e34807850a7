import EDBus.Elements.Integrity
import EDBus.Elements.Ledger
import EDBus.Elements.PropertyGetters

/-!
# Arrays of bytes

The three modules keep an array of bytes as an `Eina_Array` with one byte in each pointer. A zero
byte is `NULL` there, which such an array refuses. `bytes_readBack_iff` finds exactly the received
arrays that a reader gets back.
-/

open EDBus.Semantics

namespace EDBus.Elements

open Connman (Outcome Target PropertyType PropertyData)

variable {family : Family} {accepts : CallId → Bool} {state : State} {e : ElementId}

/-! ## Reading -/

/-- What `_element_property_get_stringshared` reads of a value. -/
def Value.read : Value → Option (PropertyType × PropertyData)
  | .basic (.boolean value) => some (.boolean, .boolean value)
  | .basic (.byte value) => some (.byte, .byte value)
  | .basic (.int16 _) => none
  | .basic (.uint16 value) => some (.uint16, .u16 value)
  | .basic (.uint32 value) => some (.uint32, .u32 value)
  | .basic (.string value) => some (.string, .str value)
  | .basic (.objectPath value) => some (.objectPath, .path value)
  | .array items => some (.array, .array items)
  | .unsupported _ => none

/-- `_element_bytes_array_get_stringshared`. `array` is not initialised, and `allocated` is
whether there is memory for the result. -/
def bytesArrayGetStringshared (props : List Property) (property : String) (count array : Variable Target)
    (allocated : Bool) : Outcome (List (Option UInt8)) :=
  let cleared := count.store (.ofBytes (Connman.intBytes 0))
  match (propsGet props property).bind Value.read with
  | none => ⟨none, some cleared, []⟩
  | some (type, data) =>
    Connman.bytesArrayCopy cleared allocated (array.store (Connman.unionCells type data)).load

theorem readable_eq_read (wire : Wire) : Connman.readable wire = (wire.value .connman).read := by
  cases wire with
  | basic value => cases value <;> rfl
  | array items => rfl
  | other type isZero => rfl

/-- A property is read in its list as in the table. -/
theorem propertyGet_mirrors {props : List Connman.ElementProperty} {kept : List Property}
    (mirrored : List.Forall₂ Connman.Mirrors props kept) (shares : Holdings String) (name : String) :
    Connman.propertyGet ⟨props, shares⟩ name = (propsGet kept name).bind Value.read := by
  induction mirrored with
  | nil => rfl
  | @cons property entry props kept mirror rest ih =>
      obtain ⟨wire, isStored, isKept⟩ := mirror
      have sameName : property.name = entry.name := by rw [isStored, Connman.propertyOf]
      by_cases here : entry.name = name
      · have found : propsGet (entry :: kept) name = some (wire.value .connman) := by
          simp [propsGet, here, isKept]
        have listed : (property :: props).find? (fun property => property.name == name) = some property := by
          simp [sameName, here]
        rw [found, Option.bind_some, ← readable_eq_read, Connman.propertyGet, listed, isStored]
        unfold Connman.readable Connman.propertyOf
        cases Connman.wireType wire <;> rfl
      · have notFound : propsGet (entry :: kept) name = propsGet kept name := by simp [propsGet, here]
        have unlisted : (property :: props).find? (fun property => property.name == name) =
            props.find? fun property => property.name == name := by
          simp [sameName, here]
        rw [notFound, ← ih, Connman.propertyGet, Connman.propertyGet, unlisted]

/-- The reader of connman is this one, on the properties that its element has received. -/
theorem bytesArrayGetStringshared_connman (updates : List (String × Wire)) (name : String)
    (count array : Variable Target) (allocated : Bool) :
    Connman.bytesArrayGetStringshared (some (Connman.receiveAll updates)) (some name) (some count) array
        allocated =
      bytesArrayGetStringshared
        (updates.foldl (fun kept update => propsSet kept update.1 (update.2.value .connman)) []) name count
        array allocated := by
  have read : Connman.propertyGet (Connman.receiveAll updates) name = _ :=
    propertyGet_mirrors (Connman.receiveAll_mirrors updates) (Connman.receiveAll updates).shares name
  simp only [Connman.bytesArrayGetStringshared, Connman.propertyGetStringshared, bytesArrayGetStringshared,
    read]
  cases (propsGet (updates.foldl (fun kept update => propsSet kept update.1 (update.2.value .connman)) [])
    name).bind Value.read <;> rfl

/-! ## Receiving -/

/-- The items of a property of that name are taken for the names of objects. -/
def Family.registersItems (family : Family) (name : String) : Prop :=
  (family.getInterface name).isSome ∨ family.isInterfaces name

/-- A loop that only uses invalid pointers. -/
theorem foldl_fault {body : State → Item → State} (items : List Item)
    (each : ∀ state, ∀ item ∈ items, body state item = { state with fault := true }) (state : State) :
    items.foldl body state = { state with fault := state.fault || !items.isEmpty } := by
  induction items generalizing state with
  | nil => simp
  | cons item rest ih =>
      rw [List.foldl_cons, each state item List.mem_cons_self,
        ih fun state item listed => each state item (.tail _ listed)]
      simp

/-- Every item is a byte. -/
def AllBytes (items : List Item) : Prop := ∀ item ∈ items, ∃ value, item = .byte value

theorem matchAdd_bytes (family : Family) (accepts : CallId → Bool) (name : String) (e : ElementId) {items : List Item}
    (bytes : AllBytes items) (state : State) :
    ((items.foldl (matchAdd accepts family name e) state).fault = true ↔
      state.fault = true ∨ family.registersItems name ∧ items ≠ []) := by
  by_cases registers : family.registersItems name
  · have each : ∀ state, ∀ item ∈ items, matchAdd accepts family name e state item =
        { state with fault := true } := by
      intro state item listed
      obtain ⟨value, rfl⟩ := bytes item listed
      exact if_pos registers
    rw [foldl_fault items each]
    simp [registers]
  · have still : ∀ items : List Item, AllBytes items →
        items.foldl (matchAdd accepts family name e) state = state := by
      intro items
      induction items with
      | nil => exact fun _ => rfl
      | cons item rest ih =>
          intro bytes
          obtain ⟨value, rfl⟩ := bytes item List.mem_cons_self
          have first : matchAdd accepts family name e state (.byte value) = state := if_neg registers
          rw [List.foldl_cons, first]
          exact ih fun item listed => bytes item (.tail _ listed)
    rw [still items bytes]
    simp [registers]

theorem hashDel_fault (wf : TableWf family state) (key : String) :
    (hashDel state key).fault = state.fault := by
  unfold hashDel
  split
  · rfl
  · rename_i found present
    obtain ⟨element, alive, -, -⟩ := wf.found present
    simp [unregisterInternal, alive, ecoreEventAdd]

theorem matchRemove_fault (wf : TableWf family state) (name : String) (e : ElementId) (item : Item)
    {path : String} (located : state.Located family e path) :
    (matchRemove family name e state item).fault = state.fault := by
  unfold matchRemove
  rw [matchGet_eq located]
  split
  · rfl
  · rename_i found present
    obtain ⟨key, -, listed⟩ := Option.bind_eq_some_iff.mp present
    obtain ⟨element, alive, -, -⟩ := wf.found listed
    simp only [elementUnregister, alive]
    exact hashDel_fault wf _

theorem foldl_matchRemove_fault (wf : TableWf family state) (name : String) (e : ElementId)
    {path : String} (located : state.Located family e path) (items : List Item) :
    (items.foldl (matchRemove family name e) state).fault = state.fault := by
  induction items generalizing state with
  | nil => rfl
  | cons item rest ih =>
      have removed := matchRemove_effect wf located name item
      rw [List.foldl_cons, ih removed.wf ((removed.named e).located located),
        matchRemove_fault wf name e item located]

/-- The array that is built of bytes. -/
def bytesArray (first : UInt8) (rest : List UInt8) : ElementArray :=
  ⟨.byte, (first :: rest).filterMap byteItem⟩

theorem bytesArray_bytes (first : UInt8) (rest : List UInt8) : AllBytes (bytesArray first rest).items := by
  intro item listed
  obtain ⟨byte, -, isItem⟩ := List.mem_filterMap.mp listed
  unfold byteItem at isItem
  split at isItem
  · cases isItem
  · exact ⟨byte, (Option.some.inj isItem).symm⟩

/-- A stored array of paths or of strings has only texts. -/
def TextsOnly (state : State) (e : ElementId) (name : String) : Prop :=
  ∀ old, propsGet (state.propsOf e) name = some (.array (some old)) → old.type ≠ .byte →
    old.type ≠ .dictEntry → ∀ item ∈ old.items, ∃ text, item = .str text

/-- All bytes are added to a list of texts. -/
theorem added_bytes {old new : List Item} (texts : ∀ item ∈ old, ∃ text, item = .str text)
    (bytes : AllBytes new) : Semantics.CursorDiff.added old new ≠ [] ↔ new ≠ [] := by
  have absent : ∀ item ∈ new, old.count item = 0 := by
    intro item listed
    apply List.count_eq_zero_of_not_mem
    intro inOld
    obtain ⟨value, rfl⟩ := bytes item listed
    obtain ⟨text, impossible⟩ := texts _ inOld
    cases impossible
  rw [Ne, Semantics.CursorDiff.added_eq_nil_iff, ← not_iff_not, not_not, not_not]
  constructor
  · intro few
    rw [List.eq_nil_iff_forall_not_mem]
    intro item listed
    have counted := few item
    rw [absent item listed] at counted
    exact absurd (List.count_pos_iff.mpr listed) (by omega)
  · rintro rfl item
    rw [List.count_nil]
    exact Nat.zero_le _

theorem added_allBytes (old : List Item) {new : List Item} (bytes : AllBytes new) :
    AllBytes (Semantics.CursorDiff.added old new) := by
  intro item listed
  have more := Semantics.CursorDiff.mem_added.mp listed
  exact bytes item (List.count_pos_iff.mp (by omega))

theorem arrayMatch_bytes (accepts : CallId → Bool) (wf : TableWf family state) {path : String}
    (located : state.Located family e path) (old new : ElementArray) (name : String)
    (bytes : AllBytes new.items) :
    (arrayMatch accepts family state old (some new) name e).fault = true ↔
      state.fault = true ∨ matchesType family old.type = true ∧ family.registersItems name ∧
        Semantics.CursorDiff.added old.items new.items ≠ [] := by
  unfold arrayMatch
  split
  · rename_i unmatched
    have unmatched : matchesType family old.type = false := by simpa using unmatched
    simp [unmatched]
  · rename_i matched
    have matched : matchesType family old.type = true := by simpa using matched
    have registered := Effect.foldl_gain
      (fun state item wf located => matchAdd_effect accepts wf located name item)
      (Semantics.CursorDiff.added old.items new.items) wf located
    have added := matchAdd_bytes family accepts name e
      (added_allBytes old.items bytes) state
    simp only [← List.foldl_append, Option.elim_some]
    rw [foldl_matchRemove_fault registered.wf name e ((registered.named e).located located), added]
    simp [matched]

/-- The message of an array of bytes. -/
def bytesWire (first : UInt8) (rest : List UInt8) : Wire := .array (.bytes first rest)

/-- The received bytes are taken for the names of objects: those of ofono's interfaces, or those
that replace a list of paths. -/
def TakenForNames (family : Family) (state : State) (e : ElementId) (name : String) : Prop :=
  family.isInterfaces name ∨ (family.getInterface name).isSome ∧
    ∃ old, propsGet (state.propsOf e) name = some (.array (some old)) ∧ matchesType family old.type = true

theorem updateMatched_bytes (accepts : CallId → Bool) (wf : TableWf family state) {path : String}
    (hasPath : state.HasPath e path) (name : String) (texts : TextsOnly state e name) (first : UInt8)
    (rest : List UInt8) :
    (updateMatched accepts family state e name (bytesWire first rest)).fault = true ↔
      state.fault = true ∨ family.registersItems name ∧ (bytesArray first rest).items ≠ [] ∧
        ∃ old, propsGet (state.propsOf e) name = some (.array (some old)) ∧
          matchesType family old.type = true := by
  have still : (wireDecode accepts family state name (bytesWire first rest)).fault = state.fault := rfl
  unfold updateMatched
  have received : (bytesWire first rest).value family = .array (some (bytesArray first rest)) := rfl
  rw [received]
  cases known : propsGet (state.propsOf e) name with
  | none => simp [still]
  | some stored =>
      rw [Option.bind_some]
      cases stored with
      | basic value => simp [still, Value.matched]
      | unsupported type => simp [still, Value.matched]
      | array items =>
          cases items with
          | none => simp [still, Value.matched]
          | some old =>
              have matching := arrayMatch_bytes accepts wf (fun _ => hasPath) old (bytesArray first rest)
                name (bytesArray_bytes first rest)
              refine matching.trans ?_
              have added : matchesType family old.type = true →
                  (Semantics.CursorDiff.added old.items (bytesArray first rest).items ≠ [] ↔
                    (bytesArray first rest).items ≠ []) := by
                intro isMatched
                refine added_bytes (texts old known ?_ ?_) (bytesArray_bytes first rest)
                · rintro isByte
                  rw [isByte] at isMatched
                  cases isMatched
                · rintro isEntry
                  rw [isEntry] at isMatched
                  cases isMatched
              constructor
              · rintro (faulted | ⟨isMatched, registers, some⟩)
                · exact Or.inl faulted
                · exact Or.inr ⟨registers, (added isMatched).mp some, old, rfl, isMatched⟩
              · rintro (faulted | ⟨registers, some, _, ⟨⟩, isMatched⟩)
                · exact Or.inl faulted
                · exact Or.inr ⟨isMatched, registers, (added isMatched).mpr some⟩

theorem interfacesRegister_bytes (family : Family) (accepts : CallId → Bool) (again : Bool) (state : State)
    (e : ElementId) (name : String)
    (first : UInt8) (rest : List UInt8) :
    (interfacesRegister accepts family again state e name (bytesWire first rest)).propsOf e =
        state.propsOf e ∧
      ((interfacesRegister accepts family again state e name (bytesWire first rest)).fault = true ↔
        state.fault = true ∨ family.isInterfaces name ∧ (bytesArray first rest).items ≠ []) := by
  unfold interfacesRegister
  split
  · rename_i isInterfaces
    have each : ∀ state, ∀ item ∈ (bytesArray first rest).items,
        interfaceRegister accepts again e state item = { state with fault := true } := by
      intro state item listed
      obtain ⟨value, rfl⟩ := bytesArray_bytes first rest item listed
      rfl
    have looped := foldl_fault (bytesArray first rest).items each state
    have isInterfaces : family.isInterfaces name := isInterfaces
    constructor
    · exact (congrArg (fun after : State => after.propsOf e) looped).trans rfl
    · refine Eq.to_iff (congrArg (fun after : State => after.fault = true) looped) |>.trans ?_
      simp [isInterfaces]
  · rename_i other
    have other : ¬ family.isInterfaces name := other
    simp [other]

/-- An array of bytes is stored without its zeros. An invalid pointer is used if the rest is taken
for names. -/
theorem propertyReceive_bytes (accepts : CallId → Bool) (wf : TableWf family state) {path : String}
    (hasPath : state.HasPath e path) (again : Bool) (name : String) (texts : TextsOnly state e name)
    (first : UInt8) (rest : List UInt8) :
    propsGet ((propertyReceive accepts family again state e name (bytesWire first rest)).1.propsOf e) name =
        some (.array (some (bytesArray first rest))) ∧
      ((propertyReceive accepts family again state e name (bytesWire first rest)).1.fault = true ↔
        state.fault = true ∨ TakenForNames family state e name ∧ (bytesArray first rest).items ≠ []) := by
  have effect := updateMatched_effect accepts wf hasPath name (bytesWire first rest)
  have faulted := updateMatched_bytes accepts wf hasPath name texts first rest
  obtain ⟨element, found, -⟩ := (effect.named e).hasPath hasPath
  have alive : (updateMatched accepts family state e name (bytesWire first rest)).elements e ≠ none := by
    rw [found]
    exact Option.some_ne_none element
  have stored := propertyValueAdd_fst accepts wf hasPath name (bytesWire first rest)
  have changed : (propertyValueAdd accepts family
      (wireDecode accepts family state name (bytesWire first rest)) e name
      ((bytesWire first rest).value family)).2 = true := by
    obtain ⟨element, found, -⟩ := hasPath
    have decoded : wireDecode accepts family state name (bytesWire first rest) = state := rfl
    rw [decoded, propertyValueAdd]
    simp only [found]
    split
    · rfl
    · exact Bool.or_true _
  have after : (propertyReceive accepts family again state e name (bytesWire first rest)).1 =
      interfacesRegister accepts family again
        ((updateMatched accepts family state e name (bytesWire first rest)).modify e
          (Element.setProperty name ((bytesWire first rest).value family))) e name (bytesWire first rest) := by
    rw [← stored]
    exact congrArg Prod.fst (if_pos changed)
  have registered := interfacesRegister_bytes family accepts again
    ((updateMatched accepts family state e name (bytesWire first rest)).modify e
      (Element.setProperty name ((bytesWire first rest).value family))) e name first rest
  have modified : ((updateMatched accepts family state e name (bytesWire first rest)).modify e
      (Element.setProperty name ((bytesWire first rest).value family))).fault =
      (updateMatched accepts family state e name (bytesWire first rest)).fault := by
    simp only [State.modify, found]
  rw [after]
  constructor
  · rw [registered.1, propsOf_setProperty alive, if_pos rfl, propsGet_propsSet, if_pos rfl]
    rfl
  · rw [registered.2, modified, faulted]
    unfold TakenForNames Family.registersItems
    constructor
    · rintro ((before | ⟨mapped | isInterfaces, some, replaced⟩) | ⟨isInterfaces, some⟩)
      · exact Or.inl before
      · exact Or.inr ⟨Or.inr ⟨mapped, replaced⟩, some⟩
      · exact Or.inr ⟨Or.inl isInterfaces, some⟩
      · exact Or.inr ⟨Or.inl isInterfaces, some⟩
    · rintro (before | ⟨isInterfaces | ⟨mapped, replaced⟩, some⟩)
      · exact Or.inl (Or.inl before)
      · exact Or.inr ⟨isInterfaces, some⟩
      · exact Or.inl (Or.inr ⟨Or.inl mapped, some, replaced⟩)

/-! ## Reading back -/

/-- The reader returns the bytes, and writes their number. -/
structure ReadsBytes (outcome : Outcome (List (Option UInt8))) (bytes : List UInt8) : Prop where
  result : outcome.result = some (bytes.map some)
  counted : outcome.written = some (.ofBytes (Connman.intBytes (.ofNat bytes.length)))

theorem octets_kept (bytes : List UInt8) :
    (bytes.filterMap byteItem).map Connman.itemOctet = (bytes.filter (· ≠ 0)).map some := by
  induction bytes with
  | nil => rfl
  | cons byte rest ih =>
      by_cases zero : byte = 0
      · subst zero
        exact ih
      · have kept : byteItem byte = some (.byte byte) := if_neg zero
        rw [List.filterMap_cons_some kept, List.filter_cons_of_pos (by simpa using zero), List.map_cons,
          List.map_cons, ih]
        rfl

theorem bytesArrayGetStringshared_found {props : List Property} {name : String} {array : ElementArray}
    (found : propsGet props name = some (.array (some array))) {count scratch : Variable Target}
    (countSized : count.length = 4) (scratchSized : scratch.length = pointerSize) :
    bytesArrayGetStringshared props name count scratch true =
      ⟨some (array.items.map Connman.itemOctet),
        some (.ofBytes (Connman.intBytes (.ofNat array.items.length))),
        [.array (.object (.array array))]⟩ := by
  have covered : ∀ value, (count.store (.ofBytes (Connman.intBytes 0))).store
      (.ofBytes (Connman.intBytes value)) = (.ofBytes (Connman.intBytes value) : Variable Target) := by
    intro value
    apply Variable.store_covering
    rw [Connman.store_int countSized]
    exact Nat.le_refl _
  have loaded : (scratch.store (Connman.unionCells .array (.array (some array)))).load =
      .object (.array array) := by
    rw [Connman.unionCells, Option.map_some, Variable.load_store_ofPointer scratchSized]
    rfl
  simp only [bytesArrayGetStringshared, found, Option.bind_some, Value.read, loaded,
    Connman.bytesArrayCopy, covered, if_true]

/-- A received array of bytes is read back exactly if no byte is zero. Nothing is read where the
bytes are taken for the names of objects. -/
theorem bytes_readBack_iff (accepts : CallId → Bool) (wf : TableWf family state)
    (alive : state.elements e ≠ none) (sound : state.fault = false) (name : String)
    (texts : TextsOnly state e name) (again : Bool) (first : UInt8) (rest : List UInt8)
    (count scratch : Variable Target) (countSized : count.length = 4)
    (scratchSized : scratch.length = pointerSize) :
    ((propertyReceive accepts family again state e name (.array (.bytes first rest))).1.fault = false ∧
      ReadsBytes
        (bytesArrayGetStringshared
          ((propertyReceive accepts family again state e name (.array (.bytes first rest))).1.propsOf e)
          name count scratch true)
        (first :: rest)) ↔
      0 ∉ first :: rest ∧ ¬ TakenForNames family state e name := by
  obtain ⟨element, found⟩ := Option.ne_none_iff_exists'.mp alive
  obtain ⟨stored, faults⟩ := propertyReceive_bytes accepts wf ⟨element, found, rfl⟩ again name texts first rest
  have outcome := bytesArrayGetStringshared_found stored countSized scratchSized
  have items : (bytesArray first rest).items.map Connman.itemOctet =
      ((first :: rest).filter (· ≠ 0)).map some := octets_kept (first :: rest)
  rw [sound] at faults
  unfold bytesWire at stored faults outcome
  rw [outcome]
  constructor
  · rintro ⟨noFault, reads⟩
    have same : (first :: rest).filter (· ≠ 0) = first :: rest := by
      have returned := Option.some.inj reads.result
      rw [items] at returned
      exact List.map_injective_iff.mpr (Option.some_injective UInt8) returned
    have nonzero : 0 ∉ first :: rest := by
      intro listed
      have kept := List.filter_eq_self.mp same 0 listed
      simp at kept
    refine ⟨nonzero, ?_⟩
    intro taken
    rw [same] at items
    have some : (bytesArray first rest).items ≠ [] := by
      intro none
      rw [none] at items
      cases items
    rw [faults.mpr (Or.inr ⟨taken, some⟩)] at noFault
    cases noFault
  · rintro ⟨nonzero, notTaken⟩
    have same : (first :: rest).filter (· ≠ 0) = first :: rest := by
      rw [List.filter_eq_self]
      intro byte listed
      rw [decide_eq_true_eq]
      rintro rfl
      exact nonzero listed
    rw [same] at items
    have length : (bytesArray first rest).items.length = (first :: rest).length := by
      have counted := congrArg List.length items
      rwa [List.length_map, List.length_map] at counted
    constructor
    · rw [← Bool.not_eq_true, faults]
      rintro (impossible | ⟨taken, -⟩)
      · cases impossible
      · exact notTaken taken
    · exact ⟨congrArg some items, by rw [length]⟩

/-- What the manager of a module reads back of a property that it has received. -/
def managerReadsBack (family : Family) (first : UInt8) (rest : List UInt8) :
    Outcome (List (Option UInt8)) :=
  bytesArrayGetStringshared
    ((propertyReceive (fun _ => true) family true (managerStart (fun _ => true) family) 0 "Key"
      (.array (.bytes first rest))).1.propsOf 0)
    "Key" (List.replicate 4 (.byte 255)) .garbage true

theorem bytes_readBack_iff_key :
    ((propertyReceive (fun _ => true) .bluez true (managerStart (fun _ => true) .bluez) 0 "Key"
        (.array (.bytes 7 [255]))).1.fault = false ∧
      ReadsBytes (managerReadsBack .bluez 7 [255]) [7, 255]) ↔
      0 ∉ [(7 : UInt8), 255] ∧ ¬ TakenForNames .bluez (managerStart (fun _ => true) .bluez) 0 "Key" :=
  bytes_readBack_iff (fun _ => true) (managerStart_tableWf (fun _ => true) .bluez) (by decide) rfl "Key"
    (fun old known => by cases known) true 7 [255] (List.replicate 4 (.byte 255)) .garbage rfl
    rfl

/-- A zero in the middle is lost, and the number of bytes with it. -/
theorem bytes_lost :
    ¬ ∀ (family : Family) (first : UInt8) (rest : List UInt8),
      ReadsBytes (managerReadsBack family first rest) (first :: rest) := by
  intro always
  have read : (managerReadsBack .connman 1 [0, 2]).result = some [some 1, some 2] := by decide
  have expected := (always .connman 1 [0, 2]).result
  rw [read] at expected
  cases expected

/-! ## Texts in every state of a run -/

/-- Every stored array of paths or of strings has only texts. -/
def AllTexts (state : State) : Prop := ∀ e name, TextsOnly state e name

variable {before after : State}

/-- Elements keep their properties, or have none. -/
theorem AllTexts.keeps (all : AllTexts before)
    (props : ∀ e, after.propsOf e = before.propsOf e ∨ after.propsOf e = []) : AllTexts after := by
  intro e name old known
  rcases props e with same | none
  · rw [same] at known
    exact all e name old known
  · rw [none] at known
    cases known

theorem AllTexts.congr (all : AllTexts before) (elements : after.elements = before.elements) :
    AllTexts after :=
  all.keeps fun e => .inl (by rw [State.propsOf, elements]; rfl)

theorem AllTexts.modify (all : AllTexts state) (e : ElementId) (change : Element → Element)
    (props : ∀ element, (change element).props = element.props) : AllTexts (state.modify e change) :=
  all.keeps fun other => .inl (propsOf_modify state e change props other)

/-- A received array of paths or of strings has only texts. -/
theorem wire_value_texts {wire : Wire} {old : ElementArray} (received : wire.value family = .array (some old))
    (notBytes : old.type ≠ .byte) (notEntries : old.type ≠ .dictEntry) :
    ∀ item ∈ old.items, ∃ text, item = .str text := by
  have texts : ∀ first rest, ∀ item ∈ (first :: rest).map Item.str, ∃ text, item = .str text := by
    intro first rest item listed
    obtain ⟨text, -, rfl⟩ := List.mem_map.mp listed
    exact ⟨text, rfl⟩
  cases wire with
  | basic value => cases value <;> cases received
  | other type isZero => cases received
  | array items =>
      have built := Value.array.inj received
      cases items with
      | empty => cases built
      | other => cases built
      | objectPaths first rest =>
          obtain rfl := Option.some.inj built
          exact texts first rest
      | strings first rest =>
          obtain rfl := Option.some.inj built
          exact texts first rest
      | bytes first rest =>
          obtain rfl := Option.some.inj built
          exact absurd rfl notBytes
      | entries first rest =>
          obtain rfl := Option.some.inj built
          exact absurd rfl notEntries

theorem AllTexts.setProperty (all : AllTexts state) (e : ElementId) (name : String) (wire : Wire) :
    AllTexts (state.modify e (Element.setProperty name (wire.value family))) := by
  cases alive : state.elements e with
  | none =>
      refine all.congr ?_
      simp only [State.modify, alive]
  | some element =>
      intro other otherName old known
      rw [propsOf_setProperty (by simp [alive])] at known
      split at known
      · rename_i here
        subst here
        rw [propsGet_propsSet] at known
        split at known
        · exact wire_value_texts (Option.some.inj known)
        · exact all other otherName old known
      · exact all other otherName old known

/-- Only received values come into the lists of properties. -/
theorem texts_lasting (family : Family) : Lasting family AllTexts where
  congr all elements _ _ := all.congr elements
  modify _ e change props all := all.modify e change props
  setProperty _ e name wire all := all.setProperty e name wire
  insert state path interface all := by
    refine all.keeps fun e => ?_
    by_cases isNew : e = state.nextElement
    · subst isNew
      exact .inr (by simp [State.propsOf, elementInsert, elementNew])
    · exact .inl (by simp [State.propsOf, elementInsert, isNew])
  remove _ _ _ all := all.congr rfl
  gone state e all := by
    refine all.keeps fun other => ?_
    by_cases here : other = e
    · subst here
      exact .inr (by simp [State.propsOf, elementGone])
    · exact .inl (by simp [State.propsOf, elementGone, here])

/-- Whatever a module has received, its arrays of paths and of strings have only texts. -/
theorem texts_throughout (accepts : CallId → Bool) (family : Family) (run : List Label) :
    (machine accepts family).Throughout AllTexts State.initial run := by
  refine Semantics.Machine.throughout_of_preserved ?_ run ?_
  · intro state label next all stepped
    exact (texts_lasting family).transition all (step_transition stepped).2.2
  · intro e name old known
    cases known

end EDBus.Elements
