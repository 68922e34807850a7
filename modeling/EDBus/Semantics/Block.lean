import Mathlib.Data.List.Basic
import Mathlib.Tactic.Linarith
import Mathlib.Tactic.Positivity
import Mathlib.Tactic.Zify

/-!
# Blocks of memory

A block is what one allocation returned. Loads and stores outside of it are `none`.
Loops that fill a block store one cell after the other: if the cells are apart, each is
loaded as it was stored.
-/

namespace EDBus.Semantics

/-- The bytes of an allocation. -/
abbrev Block := List UInt8

/-- Bytes for a place in a block. -/
structure Cell where
  offset : Int
  bytes : List UInt8

namespace Cell

/-- The cell is in a block of that length. -/
def Inside (cell : Cell) (length : Nat) : Prop :=
  0 ≤ cell.offset ∧ cell.offset + cell.bytes.length ≤ length

/-- Two cells have no place in common. -/
def Apart (left right : Cell) : Prop :=
  left.offset + left.bytes.length ≤ right.offset ∨ right.offset + right.bytes.length ≤ left.offset

end Cell

namespace Block

/-- `count` bytes are read. -/
def load (block : Block) (offset : Int) (count : Nat) : Option (List UInt8) :=
  if 0 ≤ offset ∧ offset + count ≤ block.length then some ((block.drop offset.toNat).take count) else none

/-- Bytes are written. -/
def store (block : Block) (cell : Cell) : Option Block :=
  if 0 ≤ cell.offset ∧ cell.offset + cell.bytes.length ≤ block.length then
    some (block.take cell.offset.toNat ++ cell.bytes ++
      block.drop (cell.offset.toNat + cell.bytes.length))
  else none

/-- Cells are written in their order. -/
def storeAll (block : Block) (cells : List Cell) : Option Block := cells.foldlM store block

theorem load_eq_some_iff {block : Block} {offset : Int} {count : Nat} :
    (∃ bytes, block.load offset count = some bytes) ↔ 0 ≤ offset ∧ offset + count ≤ block.length := by
  unfold load
  split
  · next inside => simp [inside]
  · next outside => simp [outside]

theorem load_length {block : Block} {offset : Int} {count : Nat} {bytes : List UInt8}
    (loaded : block.load offset count = some bytes) : bytes.length = count := by
  unfold load at loaded
  split at loaded
  · next inside =>
      obtain rfl := Option.some.inj loaded
      rw [List.length_take, List.length_drop]
      omega
  · cases loaded

/-- All of a block. -/
theorem load_all (block : Block) : block.load 0 block.length = some block := by
  rw [load, if_pos (by omega), Int.toNat_zero, List.drop_zero, List.take_length]

/-- A part of what is loaded. -/
theorem load_part {block : Block} {offset : Int} {count : Nat} {bytes : List UInt8}
    (loaded : block.load offset count = some bytes) {first size : Nat} (inside : first + size ≤ count) :
    block.load (offset + first) size = some ((bytes.drop first).take size) := by
  unfold load at loaded ⊢
  split at loaded
  · next bounds =>
      obtain rfl := Option.some.inj loaded
      rw [if_pos (by omega)]
      congr 1
      rw [List.drop_take, List.drop_drop, List.take_take, show min size (count - first) = size by omega]
      congr 2
      omega
  · cases loaded

theorem store_inside {block : Block} {cell : Cell} (inside : cell.Inside block.length) :
    ∃ result, block.store cell = some result ∧ result.length = block.length := by
  refine ⟨_, if_pos inside, ?_⟩
  unfold Cell.Inside at inside
  simp only [List.length_append, List.length_take, List.length_drop]
  omega

variable {block result : Block} {cell : Cell}

/-- Equal bytes at all places make equal loads. -/
theorem load_congr {left right : Block} (sameLength : left.length = right.length) {offset : Int}
    {count : Nat} (same : ∀ index : Nat, offset ≤ index → (index : Int) < offset + count →
      left[index]? = right[index]?) : left.load offset count = right.load offset count := by
  unfold load
  rw [sameLength]
  split
  · next inside =>
      congr 1
      apply List.ext_getElem?
      intro index
      rw [List.getElem?_take, List.getElem?_take, List.getElem?_drop, List.getElem?_drop]
      split
      · exact same _ (by omega) (by omega)
      · rfl
  · rfl

theorem store_getElem? (stored : block.store cell = some result) (index : Nat) :
    result[index]? =
      if cell.offset ≤ index ∧ (index : Int) < cell.offset + cell.bytes.length then
        cell.bytes[index - cell.offset.toNat]?
      else block[index]? := by
  unfold store at stored
  split at stored
  · next inside =>
      obtain rfl := Option.some.inj stored
      have before : (block.take cell.offset.toNat).length = cell.offset.toNat := by
        rw [List.length_take]
        omega
      split
      · next here =>
          rw [List.append_assoc, List.getElem?_append_right (by omega), before,
            List.getElem?_append_left (by omega)]
      · next elsewhere =>
          rw [List.append_assoc]
          by_cases early : index < cell.offset.toNat
          · rw [List.getElem?_append_left (by omega), List.getElem?_take_of_lt early]
          · rw [List.getElem?_append_right (by omega), before, List.getElem?_append_right (by omega),
              List.getElem?_drop]
            congr 1
            omega
  · cases stored

theorem store_length (stored : block.store cell = some result) : result.length = block.length := by
  unfold store at stored
  split at stored
  · next inside =>
      obtain rfl := Option.some.inj stored
      simp only [List.length_append, List.length_take, List.length_drop]
      omega
  · cases stored

/-- What was stored is loaded. -/
theorem load_store (stored : block.store cell = some result) :
    result.load cell.offset cell.bytes.length = some cell.bytes := by
  have length := store_length stored
  have inside : 0 ≤ cell.offset ∧ cell.offset + cell.bytes.length ≤ block.length := by
    unfold store at stored
    split at stored
    · assumption
    · cases stored
  rw [load, if_pos (length ▸ inside)]
  congr 1
  apply List.ext_getElem?
  intro index
  rw [List.getElem?_take, List.getElem?_drop, store_getElem? stored]
  split
  · next early =>
      rw [if_pos (by omega)]
      congr 1
      omega
  · next late => exact (List.getElem?_eq_none (by omega)).symm

/-- What is apart from a store stays. -/
theorem load_store_apart (stored : block.store cell = some result) {offset : Int} {count : Nat}
    (apart : cell.offset + cell.bytes.length ≤ offset ∨ offset + count ≤ cell.offset) :
    result.load offset count = block.load offset count := by
  apply load_congr (store_length stored)
  intro index low high
  rw [store_getElem? stored, if_neg (by omega)]

theorem storeAll_cons {rest : List Cell} (stored : block.storeAll (cell :: rest) = some result) :
    ∃ next, block.store cell = some next ∧ next.storeAll rest = some result := by
  rw [storeAll, List.foldlM_cons] at stored
  exact Option.bind_eq_some_iff.mp stored

theorem storeAll_length {cells : List Cell} (stored : block.storeAll cells = some result) :
    result.length = block.length := by
  induction cells generalizing block with
  | nil =>
      obtain rfl := Option.some.inj stored
      rfl
  | cons cell rest ih =>
      obtain ⟨next, first, later⟩ := storeAll_cons stored
      rw [ih later, store_length first]

/-- Cells in the block can all be stored. -/
theorem storeAll_inside {cells : List Cell} (inside : ∀ cell ∈ cells, cell.Inside block.length) :
    ∃ result, block.storeAll cells = some result := by
  induction cells generalizing block with
  | nil => exact ⟨block, rfl⟩
  | cons cell rest ih =>
      obtain ⟨next, first, length⟩ := store_inside (inside cell (.head _))
      obtain ⟨result, later⟩ := ih fun other listed => length ▸ inside other (.tail _ listed)
      refine ⟨result, ?_⟩
      rw [storeAll, List.foldlM_cons, first]
      exact later

theorem load_storeAll_apart {cells : List Cell} (stored : block.storeAll cells = some result) {offset : Int}
    {count : Nat} (apart : ∀ cell ∈ cells,
      cell.offset + cell.bytes.length ≤ offset ∨ offset + count ≤ cell.offset) :
    result.load offset count = block.load offset count := by
  induction cells generalizing block with
  | nil =>
      obtain rfl := Option.some.inj stored
      rfl
  | cons cell rest ih =>
      obtain ⟨next, first, later⟩ := storeAll_cons stored
      rw [ih later fun other listed => apart other (.tail _ listed),
        load_store_apart first (apart cell (.head _))]

/-- Cells that are apart from each other are loaded as they were stored. -/
theorem load_storeAll {cells : List Cell} (stored : block.storeAll cells = some result)
    (apart : cells.Pairwise Cell.Apart) (listed : cell ∈ cells) :
    result.load cell.offset cell.bytes.length = some cell.bytes := by
  induction cells generalizing block with
  | nil => cases listed
  | cons head rest ih =>
      obtain ⟨next, first, others⟩ := storeAll_cons stored
      rw [List.pairwise_cons] at apart
      rcases List.mem_cons.mp listed with rfl | later
      · rw [load_storeAll_apart others, load_store first]
        intro other otherListed
        exact (apart.1 other otherListed).symm
      · exact ih others apart.2 later

theorem storeAll_append (block : Block) (first rest : List Cell) :
    block.storeAll (first ++ rest) = (block.storeAll first).bind fun next => next.storeAll rest := by
  rw [storeAll, List.foldlM_append]
  rfl

/-- If a loop ran, so did its body for each index. -/
theorem foldlM_ran {Index : Type} {body : Block → Index → Option Block} {indices : List Index}
    (ran : indices.foldlM body block = some result) {index : Index} (listed : index ∈ indices) :
    ∃ before after, body before index = some after := by
  induction indices generalizing block with
  | nil => cases listed
  | cons head rest ih =>
      rw [List.foldlM_cons] at ran
      obtain ⟨next, first, later⟩ := Option.bind_eq_some_iff.mp ran
      rcases List.mem_cons.mp listed with rfl | inRest
      · exact ⟨block, next, first⟩
      · exact ih later inRest

/-- A loop that computes its cells stores them. -/
theorem foldlM_store {Index : Type} (block : Block) (indices : List Index) (compute : Index → Option Cell)
    (cells : Index → Cell) (computes : ∀ index ∈ indices, compute index = some (cells index)) :
    indices.foldlM (fun block index => (compute index).bind block.store) block =
      block.storeAll (indices.map cells) := by
  induction indices generalizing block with
  | nil => rfl
  | cons index rest ih =>
      rw [List.foldlM_cons, computes index (.head _), List.map_cons, storeAll, List.foldlM_cons]
      rw [Option.bind_some]
      cases block.store (cells index) with
      | none => rfl
      | some next => exact ih next fun other listed => computes other (.tail _ listed)

/-- A loop over loops stores all their cells. -/
theorem foldlM_storeAll {Index : Type} (block : Block) (indices : List Index) (body : Block → Index → Option Block)
    (cells : Index → List Cell) (stores : ∀ index ∈ indices, ∀ block : Block,
      body block index = block.storeAll (cells index)) :
    indices.foldlM body block = block.storeAll (indices.flatMap cells) := by
  induction indices generalizing block with
  | nil => rfl
  | cons index rest ih =>
      rw [List.foldlM_cons, stores index (.head _), List.flatMap_cons, storeAll_append]
      cases block.storeAll (cells index) with
      | none => rfl
      | some next => exact ih next fun other listed => stores other (.tail _ listed)

/-! ## Grids -/

/-- The cells of a grid, row by row. -/
def grid (rows columns : Nat) (cell : Nat → Nat → Cell) : List Cell :=
  (List.range rows).flatMap fun y => (List.range columns).map (cell y)

theorem mem_grid {rows columns : Nat} {cell : Nat → Nat → Cell} {listed : Cell} :
    listed ∈ grid rows columns cell ↔ ∃ y x, y < rows ∧ x < columns ∧ cell y x = listed := by
  simp only [grid, List.mem_flatMap, List.mem_map, List.mem_range]
  constructor
  · rintro ⟨y, row, x, column, rfl⟩
    exact ⟨y, x, row, column, rfl⟩
  · rintro ⟨y, x, row, column, rfl⟩
    exact ⟨y, row, x, column, rfl⟩

/-- A loop over rows of loops over columns stores a grid. -/
theorem foldlM_grid {rows columns : Nat} {cell : Nat → Nat → Cell} (block : Block)
    (row : Block → Nat → Option Block)
    (stores : ∀ y < rows, ∀ block : Block, row block y = block.storeAll ((List.range columns).map (cell y))) :
    (List.range rows).foldlM row block = block.storeAll (grid rows columns cell) :=
  foldlM_storeAll block (List.range rows) row _ fun y listed => stores y (List.mem_range.mp listed)

section Layout

variable {rows columns : Nat} {cell : Nat → Nat → Cell} {stride size : Nat}
  (offset : ∀ y x, (cell y x).offset = y * stride + size * x)
  (length : ∀ y x, (cell y x).bytes.length = size)

include offset length

/-- Rows that are wide enough are apart from each other, and so are the cells of each. -/
theorem grid_apart (wide : size * columns ≤ stride) : (grid rows columns cell).Pairwise Cell.Apart := by
  rw [grid, List.pairwise_flatMap]
  constructor
  · intro y _
    rw [List.pairwise_map]
    refine List.pairwise_lt_range.imp fun {left right} before => .inl ?_
    rw [offset, offset, length]
    have next : size * (left + 1) ≤ size * right := Nat.mul_le_mul_left size before
    rw [Nat.mul_succ] at next
    zify at next
    omega
  · refine List.pairwise_lt_range.imp fun {upper lower} before => ?_
    intro left leftListed right rightListed
    obtain ⟨x, column, rfl⟩ := List.mem_map.mp leftListed
    obtain ⟨x', -, rfl⟩ := List.mem_map.mp rightListed
    refine .inl ?_
    rw [offset, offset, length]
    have inRow : size * (x + 1) ≤ size * columns := Nat.mul_le_mul_left size (List.mem_range.mp column)
    have next : (upper + 1) * stride ≤ lower * stride := Nat.mul_le_mul_right stride before
    rw [Nat.mul_succ] at inRow
    rw [Nat.succ_mul] at next
    zify at inRow next wide
    nlinarith [Int.natCast_nonneg x', Int.natCast_nonneg size]

/-- The cells are in a block that has room for the last row. -/
theorem grid_inside {total : Nat} (room : (rows - 1) * stride + size * columns ≤ total) :
    ∀ listed ∈ grid rows columns cell, listed.Inside total := by
  intro listed inGrid
  obtain ⟨y, x, row, column, rfl⟩ := mem_grid.mp inGrid
  unfold Cell.Inside
  rw [offset, length]
  have inRow : size * (x + 1) ≤ size * columns := Nat.mul_le_mul_left size column
  have above : y * stride ≤ (rows - 1) * stride := Nat.mul_le_mul_right stride (by omega)
  rw [Nat.mul_succ] at inRow
  constructor
  · positivity
  · zify at inRow above room
    omega

end Layout

end Block

end EDBus.Semantics
