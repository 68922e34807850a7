import EDBus.Elements.ObjectsArray

/-!
# Listing the elements of a module

`e_connman_elements_get_all_type` and its siblings fill a block with one cell for
each entry of the hash, in the order in which Eina walks through it. In every state
of a run, whatever that order is, the caller gets the registered elements of the type
that he asked for: `listing_throughout`.
-/

open EDBus.Semantics

namespace EDBus.Elements

variable {family : Family} {state : State}

/-- `_e_connman_elements_get_allocate`. `allocated` is whether there is memory. -/
def elementsGetAllocate (population : Nat) (allocated : Bool) : ObjectsOutcome :=
  if population = 0 then ⟨true, 0, none, false⟩
  else if allocated then ⟨true, population, some (List.replicate population none), false⟩
  else ⟨false, 0, none, false⟩

/-- `eina_hash_foreach` over the entries, which writes what is selected of them to the
allocated cells. There is none behind a null pointer. -/
def elementsFill (select : String × ElementId → Option ElementId) (outcome : ObjectsOutcome)
    (order : List (String × ElementId)) : Selection.Block ElementId :=
  Selection.fill select ⟨outcome.elements.getD [], 0, false⟩ order

/-- `e_connman_elements_get_all`, which leaves `*count` as it was allocated. -/
def elementsGetAll (order : List (String × ElementId)) (allocated : Bool) : ObjectsOutcome :=
  let outcome := elementsGetAllocate order.length allocated
  if outcome.returned then
    let filled := elementsFill (fun entry => some entry.2) outcome order
    { outcome with elements := outcome.elements.map fun _ => filled.cells, outside := filled.outside }
  else outcome

/-- `_e_connman_elements_get_all_type`, which compares with `type` only if it was given. -/
def ofType (state : State) (type : Option String) (entry : String × ElementId) : Option ElementId :=
  match type with
  | none => some entry.2
  | some str => if (state.elements entry.2).any (fun element => element.interface = str) then some entry.2 else none

/-- `e_connman_elements_get_all_type`. -/
def elementsGetAllType (state : State) (order : List (String × ElementId)) (type : Option String)
    (allocated : Bool) : ObjectsOutcome :=
  let outcome := elementsGetAllocate order.length allocated
  if outcome.returned then
    let filled := elementsFill (ofType state type) outcome order
    { outcome with
      count := filled.next
      elements := outcome.elements.map fun _ => filled.cells
      outside := filled.outside }
  else outcome

/-! ## What the caller gets -/

/-- The caller gets an array of just these elements, in this order. -/
structure Lists (outcome : ObjectsOutcome) (elements : List ElementId) : Prop where
  returned : outcome.returned = true
  count : outcome.count = elements.length
  array : (outcome.elements.getD []).take outcome.count = elements.map some
  within : outcome.outside = false

/-- The element is registered, with that interface if one is given. -/
def RegisteredAs (family : Family) (state : State) (type : Option String) (e : ElementId) : Prop :=
  ∃ element, state.elements e = some element ∧
    state.find (family.key element.path element.interface) = some e ∧
    ∀ str ∈ type, element.interface = str

theorem elementsFill_allocated (select : String × ElementId → Option ElementId)
    (order : List (String × ElementId)) :
    elementsFill select (elementsGetAllocate order.length true) order =
      Selection.Block.written (order.filterMap select) (order.length - (order.filterMap select).length) := by
  rw [← Selection.fill_allocate, elementsFill, elementsGetAllocate]
  cases order with
  | nil => rfl
  | cons entry rest => rfl

/-- Without memory an empty table can be listed as well. -/
theorem elementsGetAllocate_of_enough {order : List (String × ElementId)} {allocated : Bool}
    (enough : allocated = true ∨ order = []) :
    elementsGetAllocate order.length allocated = elementsGetAllocate order.length true := by
  rcases enough with rfl | rfl
  · rfl
  · cases allocated <;> rfl

theorem elementsGetAllType_lists (state : State) {order : List (String × ElementId)} (type : Option String)
    {allocated : Bool} (enough : allocated = true ∨ order = []) :
    Lists (elementsGetAllType state order type allocated) (order.filterMap (ofType state type)) := by
  have returned : (elementsGetAllocate order.length true).returned = true := by
    cases order <;> rfl
  have filled := elementsFill_allocated (ofType state type) order
  simp only [elementsGetAllType, elementsGetAllocate_of_enough enough, returned, if_true, filled]
  constructor
  · rfl
  · rfl
  · cases order with
    | nil => rfl
    | cons entry rest => exact List.take_left' (List.length_map ..)
  · rfl

/-- All elements are those of any type: there is one for each cell. -/
theorem elementsGetAll_eq (state : State) (order : List (String × ElementId)) (allocated : Bool) :
    elementsGetAll order allocated = elementsGetAllType state order none allocated := by
  simp only [elementsGetAll, elementsGetAllType]
  split
  · rename_i returned
    have enough : allocated = true ∨ order = [] := by
      cases allocated
      · right
        by_contra some
        simp [elementsGetAllocate, some] at returned
      · exact Or.inl rfl
    have filled := elementsFill_allocated (ofType state none) order
    have all : order.filterMap (ofType state none) = order.map Prod.snd :=
      congrFun (List.filterMap_eq_map' (f := Prod.snd)) order
    rw [elementsGetAllocate_of_enough enough]
    refine (ObjectsOutcome.mk.injEq ..).mpr ⟨rfl, ?_, rfl, rfl⟩
    calc (elementsGetAllocate order.length true).count
        = order.length := by cases order <;> rfl
      _ = (order.filterMap (ofType state none)).length := by rw [all, List.length_map]
      _ = (elementsFill (ofType state none) (elementsGetAllocate order.length true) order).next := by
          rw [filled, Selection.Block.written]
  · rfl

theorem ofType_eq_some {type : Option String} {entry : String × ElementId} {e : ElementId}
    (selected : ofType state type entry = some e) : entry.2 = e := by
  cases type with
  | none => exact Option.some.inj selected
  | some str =>
      rw [ofType, Option.ite_none_right_eq_some] at selected
      exact Option.some.inj selected.2

theorem ofType_sublist (state : State) (type : Option String) (order : List (String × ElementId)) :
    (order.filterMap (ofType state type)).Sublist (order.map Prod.snd) := by
  induction order with
  | nil => exact List.Sublist.slnil
  | cons entry rest ih =>
      cases selected : ofType state type entry with
      | none =>
          rw [List.filterMap_cons_none selected]
          exact ih.cons entry.2
      | some e =>
          rw [List.filterMap_cons_some selected, List.map_cons, ofType_eq_some selected]
          exact ih.cons_cons e

/-- What is selected of a well formed table are the registered elements of the type, each once. -/
theorem TableWf.selected (wf : TableWf family state) {order : List (String × ElementId)}
    (walked : order.Perm state.table) (type : Option String) :
    (order.filterMap (ofType state type)).Nodup ∧
      ∀ e, e ∈ order.filterMap (ofType state type) ↔ RegisteredAs family state type e := by
  constructor
  · have walkedOnce : (order.map Prod.snd).Nodup := (walked.map Prod.snd).nodup_iff.mpr wf.entries_nodup
    exact walkedOnce.sublist (ofType_sublist state type order)
  · intro e
    rw [List.mem_filterMap]
    constructor
    · rintro ⟨⟨key, other⟩, listed, selected⟩
      obtain rfl : other = e := ofType_eq_some selected
      have inTable := walked.mem_iff.mp listed
      obtain ⟨element, alive, isKey, -⟩ := wf.entryAlive key other inTable
      refine ⟨element, alive, wf.find_iff.mpr (isKey ▸ inTable), ?_⟩
      rintro str ⟨⟩
      rw [ofType, Option.ite_none_right_eq_some, alive] at selected
      simpa using selected.1
    · rintro ⟨element, alive, found, typed⟩
      refine ⟨_, walked.mem_iff.mpr (wf.find_iff.mp found), ?_⟩
      cases type with
      | none => rfl
      | some str =>
          rw [ofType, if_pos]
          simp [alive, typed str rfl]

/-- In every state of a run, and whatever the order of the hash is, a listing that has
memory is an array of the registered elements of its type, each once and all of them
allocated; no cell of it is left unwritten and no write misses the block. -/
theorem listing_throughout (accepts : CallId → Bool) (family : Family) (run : List Label) :
    (machine accepts family).Throughout
      (fun state => ∀ order : List (String × ElementId), order.Perm state.table →
        ∀ (type : Option String) (allocated : Bool), allocated = true ∨ state.table = [] →
          ∃ listed, Lists (elementsGetAllType state order type allocated) listed ∧
            (type = none → Lists (elementsGetAll order allocated) listed) ∧ listed.Nodup ∧
            ∀ e, e ∈ listed ↔ RegisteredAs family state type e)
      State.initial run := by
  refine (tableWf_throughout accepts family run).mono ?_
  rintro state ⟨wf, -⟩ order walked type allocated enough
  have enoughWalked : allocated = true ∨ order = [] := by
    refine enough.imp id fun empty => ?_
    rwa [empty, List.perm_nil] at walked
  obtain ⟨once, exactly⟩ := wf.selected walked type
  have lists := elementsGetAllType_lists state type enoughWalked
  refine ⟨_, lists, ?_, once, exactly⟩
  rintro rfl
  rw [elementsGetAll_eq state]
  exact lists

end EDBus.Elements
