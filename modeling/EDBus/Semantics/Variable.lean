import Mathlib.Algebra.Group.Nat.Defs
import Mathlib.Data.List.Basic

/-!
# Variables in memory

A variable is a list of cells, and a store through a pointer to it writes from its first cell on. A
pointer is kept as its fragments, so that it reads back only where all of them are in place.
-/

namespace EDBus.Semantics

/-- A byte of memory: a number, or one of the bytes of a pointer. -/
inductive MemoryCell (Object : Type) where
  | byte (value : UInt8)
  | fragment (object : Object) (index : Nat)
deriving DecidableEq, Repr

/-- The cells of a variable. -/
abbrev Variable (Object : Type) := List (MemoryCell Object)

/-- What a variable holds that is read as a pointer. A wild one is no address of an object. -/
inductive Loaded (Object : Type) where
  | null
  | object (object : Object)
  | wild
deriving DecidableEq, Repr

/-- The bytes of a pointer. -/
def pointerSize : Nat := 8

namespace Variable

variable {Object : Type}

/-- The cells of a number. -/
def ofBytes (bytes : List UInt8) : Variable Object := bytes.map .byte

/-- The cells of a pointer; `NULL` is all zeros. -/
def ofPointer : Option Object → Variable Object
  | none => List.replicate pointerSize (.byte 0)
  | some object => (List.range pointerSize).map (.fragment object)

/-- The cells are written, beyond the end of the variable if there are more of them. -/
def store (into cells : Variable Object) : Variable Object := cells ++ into.drop cells.length

/-- The variable is read as a pointer. -/
def load [DecidableEq Object] (cells : Variable Object) : Loaded Object :=
  match cells with
  | .fragment object _ :: _ => if cells = ofPointer (some object) then .object object else .wild
  | _ => if cells = ofPointer none then .null else .wild

/-- Memory that is not initialised may hold anything; these are ones everywhere. -/
def garbage : Variable Object := List.replicate pointerSize (.byte 255)

@[simp] theorem length_ofBytes (bytes : List UInt8) : (ofBytes bytes : Variable Object).length = bytes.length :=
  List.length_map ..

@[simp] theorem length_ofPointer (target : Option Object) : (ofPointer target).length = pointerSize := by
  cases target with
  | none => exact List.length_replicate
  | some object => rw [ofPointer, List.length_map, List.length_range]

theorem length_garbage : (garbage : Variable Object).length = pointerSize := List.length_replicate

/-- A store stays within the variable exactly if it writes no more cells than there are. -/
theorem length_store_eq_iff (into cells : Variable Object) :
    (into.store cells).length = into.length ↔ cells.length ≤ into.length := by
  rw [store, List.length_append, List.length_drop]
  omega

/-- A store that covers the variable leaves nothing of it. -/
theorem store_covering {into cells : Variable Object} (covers : into.length ≤ cells.length) :
    into.store cells = cells := by
  rw [store, List.drop_eq_nil_of_le covers, List.append_nil]

theorem load_ofPointer [DecidableEq Object] (target : Option Object) :
    (ofPointer target).load = target.elim .null .object := by
  cases target with
  | none => simp [load, ofPointer, pointerSize, List.replicate_succ]
  | some object => simp [load, ofPointer, pointerSize, List.range_succ_eq_map]

/-- A pointer that is stored reads back. -/
theorem load_store_ofPointer [DecidableEq Object] {cells : Variable Object}
    (sized : cells.length = pointerSize) (target : Option Object) :
    (cells.store (ofPointer target)).load = target.elim .null .object := by
  have covers : cells.length ≤ (ofPointer target).length :=
    Nat.le_of_eq (sized.trans (length_ofPointer target).symm)
  rw [store_covering covers, load_ofPointer]

/-- A number that is smaller than a pointer leaves bytes behind that were never written. -/
theorem load_store_ofBytes [DecidableEq Object] {bytes : List UInt8} (small : bytes.length < pointerSize) :
    (store (garbage : Variable Object) (ofBytes bytes)).load = .wild := by
  have last : (store (garbage : Variable Object) (ofBytes bytes)).getLast? = some (.byte 255) := by
    rw [store, length_ofBytes, garbage, List.drop_replicate, List.getLast?_append,
      List.getLast?_replicate, if_neg (Nat.sub_ne_zero_of_lt small)]
    rfl
  have notNull : store (garbage : Variable Object) (ofBytes bytes) ≠ ofPointer none := by
    intro null
    rw [null, ofPointer, List.getLast?_replicate, if_neg (by decide)] at last
    simp at last
  cases bytes with
  | nil => simp [load, store, ofBytes, garbage, pointerSize, List.replicate_succ, ofPointer]
  | cons first rest => exact if_neg notNull

end Variable

/-! ## Numbers -/

/-- The bytes of a number, the lowest first. -/
def numberBytes : Nat → Nat → List UInt8
  | 0, _ => []
  | size + 1, number => .ofNat (number % 256) :: numberBytes size (number / 256)

/-- The number that bytes stand for, the lowest first. -/
def bytesNumber : List UInt8 → Nat
  | [] => 0
  | byte :: rest => byte.toNat + 256 * bytesNumber rest

theorem length_numberBytes (size number : Nat) : (numberBytes size number).length = size := by
  induction size generalizing number with
  | zero => rfl
  | succ size ih => rw [numberBytes, List.length_cons, ih]

/-- A number that has enough bytes reads back. -/
theorem bytesNumber_numberBytes (size number : Nat) : bytesNumber (numberBytes size number) = number % 256 ^ size := by
  induction size generalizing number with
  | zero => rw [numberBytes, bytesNumber, Nat.pow_zero, Nat.mod_one]
  | succ size ih =>
      have lowest : (UInt8.ofNat (number % 256)).toNat = number % 256 := by
        rw [UInt8.toNat_ofNat']
        omega
      rw [numberBytes, bytesNumber, ih, lowest, Nat.pow_succ', Nat.mod_mul]

/-- The number in a cell. That of a byte of a pointer is not known. -/
def MemoryCell.number {Object : Type} : MemoryCell Object → Option UInt8
  | .byte value => some value
  | .fragment _ _ => none

namespace Variable

variable {Object : Type}

/-- The first cells are read as a number. -/
def loadNumber (size : Nat) (cells : Variable Object) : Option Nat :=
  ((cells.take size).mapM MemoryCell.number).map bytesNumber

theorem mapM_ofBytes (bytes : List UInt8) :
    (ofBytes bytes : Variable Object).mapM MemoryCell.number = some bytes := by
  induction bytes with
  | nil => rfl
  | cons byte rest ih =>
      have cons : (ofBytes (byte :: rest) : Variable Object) = .byte byte :: ofBytes rest := rfl
      rw [cons, List.mapM_cons, ih]
      rfl

/-- A number that is stored reads back. -/
theorem loadNumber_store (into : Variable Object) (size number : Nat) :
    (into.store (ofBytes (numberBytes size number))).loadNumber size = some (number % 256 ^ size) := by
  have front : (into.store (ofBytes (numberBytes size number))).take size = ofBytes (numberBytes size number) := by
    rw [store]
    apply List.take_left'
    rw [length_ofBytes, length_numberBytes]
  rw [loadNumber, front, mapM_ofBytes, Option.map_some, bytesNumber_numberBytes]

end Variable

end EDBus.Semantics
