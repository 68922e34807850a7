import Mathlib.Data.List.Basic

/-!
# Selecting into a block of memory

A loop looks every item of a list up and writes what it finds into a block, from the start on. The
block has one cell for each item, so that it is large enough whatever is found: `fill_allocate`. Two
lookups fill the same block if they agree on every item, and `filterMap_eq_filterMap_iff` says when
they have to.
-/

namespace EDBus.Semantics.Selection

variable {Item Result : Type}

/-- A block of memory and the position that is written next. A cell that was not written is `none`,
and `outside` is whether a write missed the block. -/
structure Block (Result : Type) where
  cells : List (Option Result)
  next : Nat
  outside : Bool
deriving DecidableEq, Repr

/-- A block of that many cells. -/
def Block.allocate (size : Nat) : Block Result := ⟨List.replicate size none, 0, false⟩

/-- The next cell is written. -/
def Block.push (block : Block Result) (result : Result) : Block Result :=
  ⟨block.cells.set block.next (some result), block.next + 1,
    block.outside || decide (block.cells.length ≤ block.next)⟩

/-- A block of which the first cells are written. -/
def Block.written (results : List Result) (room : Nat) : Block Result :=
  ⟨results.map some ++ List.replicate room none, results.length, false⟩

/-- What is found for an item is written, if anything is. -/
def turn (select : Item → Option Result) (block : Block Result) (item : Item) : Block Result :=
  match select item with
  | none => block
  | some result => block.push result

/-- The loop over the items. -/
def fill (select : Item → Option Result) (block : Block Result) (items : List Item) : Block Result :=
  items.foldl (turn select) block

/-! ## The block is large enough -/

theorem Block.push_written (results : List Result) (room : Nat) (result : Result) :
    (Block.written results (room + 1)).push result = Block.written (results ++ [result]) room := by
  have within : ¬ (results.map some ++ List.replicate (room + 1) (none : Option Result)).length ≤ results.length := by
    rw [List.length_append, List.length_map, List.length_replicate]
    omega
  have atEnd : (results.map some).length ≤ results.length := Nat.le_of_eq (List.length_map ..)
  rw [Block.push, Block.written, Block.written, decide_eq_false within, List.set_append_right _ _ atEnd,
    List.length_map, Nat.sub_self, List.replicate_succ, List.set_cons_zero, List.map_append, List.append_assoc,
    List.length_append]
  rfl

/-- The loop goes on behind what is written. -/
theorem fill_written (select : Item → Option Result) (items : List Item) (results : List Result) {room : Nat}
    (enough : items.length ≤ room) :
    fill select (Block.written results room) items =
      Block.written (results ++ items.filterMap select) (room - (items.filterMap select).length) := by
  induction items generalizing results room with
  | nil => simp [fill]
  | cons item rest ih =>
      rw [List.length_cons] at enough
      rw [fill, List.foldl_cons, ← fill, turn]
      cases found : select item with
      | none =>
          rw [List.filterMap_cons_none found]
          exact ih results (by omega)
      | some result =>
          obtain ⟨left, rfl⟩ : ∃ left, room = left + 1 := ⟨room - 1, by omega⟩
          simp only [Block.push_written]
          rw [ih (results ++ [result]) (by omega), List.filterMap_cons_some found, List.append_assoc,
            List.singleton_append, List.length_cons, Nat.add_sub_add_right]

/-- With a cell for each item all that is found is written, in the order of the items, and nothing
outside the block. -/
theorem fill_allocate (select : Item → Option Result) (items : List Item) :
    fill select (Block.allocate items.length) items =
      Block.written (items.filterMap select) (items.length - (items.filterMap select).length) := by
  have allocated : (Block.allocate items.length : Block Result) = Block.written [] items.length := rfl
  rw [allocated, fill_written select items [] (Nat.le_refl _), List.nil_append]

/-! ## Two lookups -/

/-- Where whatever the left lookup finds for one item is found by it for every item for which the right
one finds it, the two select the same only if they agree on every item. -/
theorem filterMap_eq_filterMap_iff [DecidableEq Result] {left right : Item → Option Result} {items : List Item}
    (absorbs : ∀ first ∈ items, ∀ second ∈ items, ∀ result, left first = some result →
      right second = some result → left second = some result) :
    items.filterMap left = items.filterMap right ↔ ∀ item ∈ items, left item = right item := by
  constructor
  · intro same
    induction items with
    | nil => exact nofun
    | cons item rest ih =>
        have later : rest.filterMap left = rest.filterMap right → ∀ item ∈ rest, left item = right item :=
          ih fun first inFirst second inSecond => absorbs first (.tail _ inFirst) second (.tail _ inSecond)
        cases isLeft : left item with
        | none =>
            cases isRight : right item with
            | none =>
                rw [List.filterMap_cons_none isLeft, List.filterMap_cons_none isRight] at same
                exact List.forall_mem_cons.mpr ⟨isLeft.trans isRight.symm, later same⟩
            | some result =>
                -- the left lookup finds the same elsewhere, and hence here
                rw [List.filterMap_cons_none isLeft, List.filterMap_cons_some isRight] at same
                obtain ⟨other, inRest, elsewhere⟩ :=
                  List.mem_filterMap.mp (same ▸ List.mem_cons_self : result ∈ rest.filterMap left)
                rw [absorbs other (.tail _ inRest) item (.head _) result elsewhere isRight] at isLeft
                cases isLeft
        | some result =>
            cases isRight : right item with
            | none =>
                -- the left lookup finds it at least as often in the rest, and once more here
                rw [List.filterMap_cons_some isLeft, List.filterMap_cons_none isRight] at same
                have counted := congrArg (List.count result) same
                rw [List.count_cons_self, List.count_filterMap, List.count_filterMap] at counted
                have more : rest.countP (fun other => right other == some result) ≤
                    rest.countP fun other => left other == some result := by
                  apply List.countP_mono_left
                  intro other inRest isSame
                  rw [beq_iff_eq] at isSame ⊢
                  exact absorbs item (.head _) other (.tail _ inRest) result isLeft isSame
                omega
            | some result' =>
                rw [List.filterMap_cons_some isLeft, List.filterMap_cons_some isRight] at same
                obtain ⟨rfl, sameRest⟩ := List.cons.inj same
                exact List.forall_mem_cons.mpr ⟨isLeft.trans isRight.symm, later sameRest⟩
  · exact fun same => List.filterMap_congr same

end EDBus.Semantics.Selection
