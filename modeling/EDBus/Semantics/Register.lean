import EDBus.Semantics.Simulation
import Mathlib.Data.List.Range

/-!
# Registers

A register numbers what is entered, keeps the numbers that are open, and tells its users what it does.
Whatever is asked of it, every number is given once, the numbers are given in order, and a number is closed
at most once and only after it was given: `inOrder` says this of any two notices, so that it holds of every
part of them, too.
-/

open Semantics

namespace EDBus.Semantics

universe u

variable {User Content Reason Answer : Type u}

/-- What a register tells. -/
inductive Notice (User Reason Answer : Type u) where
  | given (user : User) (number : Nat)
  | closed (number : Nat) (reason : Reason)
  | answer (answer : Answer)
deriving DecidableEq, Repr

/-- What is asked of a register. A number that is not open is not closed. -/
inductive Request (User Content Reason Answer : Type u) where
  | enter (user : User) (content : Content)
  | close (number : Nat) (reason : Reason)
  | tell (answer : Answer)

/-- What was entered, the numbers that are open, and what was told. -/
structure Register (User Content Reason Answer : Type u) where
  entered : List Content
  opened : List Nat
  notices : List (Notice User Reason Answer)

/-- The number that is given. -/
def Notice.givenNumber : Notice User Reason Answer → Option Nat
  | given _ number => some number
  | _ => none

/-- The number that is closed. -/
def Notice.closedNumber : Notice User Reason Answer → Option Nat
  | closed number _ => some number
  | _ => none

/-- The numbers that were given. -/
def givenNumbers (notices : List (Notice User Reason Answer)) : List Nat := notices.filterMap Notice.givenNumber

/-- The numbers that were closed. -/
def closedNumbers (notices : List (Notice User Reason Answer)) : List Nat := notices.filterMap Notice.closedNumber

section Numbers

variable (notices : List (Notice User Reason Answer))

@[simp] theorem givenNumbers_given (user : User) (number : Nat) :
    givenNumbers (notices ++ [.given user number]) = givenNumbers notices ++ [number] := by
  simp [givenNumbers, Notice.givenNumber]

@[simp] theorem givenNumbers_closed (number : Nat) (reason : Reason) :
    givenNumbers (notices ++ [.closed number reason]) = givenNumbers notices := by
  simp [givenNumbers, Notice.givenNumber]

@[simp] theorem givenNumbers_answer (answer : Answer) :
    givenNumbers (notices ++ [.answer answer]) = givenNumbers notices := by
  simp [givenNumbers, Notice.givenNumber]

@[simp] theorem closedNumbers_given (user : User) (number : Nat) :
    closedNumbers (notices ++ [.given user number]) = closedNumbers notices := by
  simp [closedNumbers, Notice.closedNumber]

@[simp] theorem closedNumbers_closed (number : Nat) (reason : Reason) :
    closedNumbers (notices ++ [.closed number reason]) = closedNumbers notices ++ [number] := by
  simp [closedNumbers, Notice.closedNumber]

@[simp] theorem closedNumbers_answer (answer : Answer) :
    closedNumbers (notices ++ [.answer answer]) = closedNumbers notices := by
  simp [closedNumbers, Notice.closedNumber]

end Numbers

/-- One notice comes before another. -/
def Notice.InOrder : Notice User Reason Answer → Notice User Reason Answer → Prop
  | given _ first, given _ second => first < second
  | closed first _, closed second _ => first ≠ second
  | closed first _, given _ second => first < second
  | _, _ => True

namespace Register

/-- Nothing was entered yet. -/
def empty : Register User Content Reason Answer := ⟨[], [], []⟩

/-- The next number. -/
def nextNumber (register : Register User Content Reason Answer) : Nat := register.entered.length + 1

/-- A request is answered. -/
def apply (register : Register User Content Reason Answer) :
    Request User Content Reason Answer → Register User Content Reason Answer
  | .enter user content =>
    ⟨register.entered ++ [content], register.opened ++ [register.nextNumber],
      register.notices ++ [.given user register.nextNumber]⟩
  | .close number reason =>
    if number ∈ register.opened then
      { register with opened := register.opened.erase number, notices := register.notices ++ [.closed number reason] }
    else register
  | .tell answer => { register with notices := register.notices ++ [.answer answer] }

/-- Everything can be asked at any time. -/
def machine : Machine (Register User Content Reason Answer) (Request User Content Reason Answer) where
  step register request := some (register.apply request)

/-- The last entries with their numbers. -/
def recent (register : Register User Content Reason Answer) (limit : Nat) : List (Content × Nat) :=
  (register.entered.zipIdx 1).drop (register.entered.length - limit)

/-- The numbers that were given are those of the entries, the open ones are those that were not closed, and
the notices are in order. -/
structure Coherent (register : Register User Content Reason Answer) : Prop where
  given : givenNumbers register.notices = List.range' 1 register.entered.length
  opened : register.opened =
    (List.range' 1 register.entered.length).filter (· ∉ closedNumbers register.notices)
  closed : ∀ number ∈ closedNumbers register.notices, number ≤ register.entered.length
  inOrder : register.notices.Pairwise Notice.InOrder

variable {register : Register User Content Reason Answer}

theorem empty_coherent : (empty : Register User Content Reason Answer).Coherent where
  given := rfl
  opened := rfl
  closed _ listed := absurd listed List.not_mem_nil
  inOrder := List.Pairwise.nil

theorem Coherent.opened_nodup (coherent : register.Coherent) : register.opened.Nodup := by
  rw [coherent.opened]
  exact List.Nodup.sublist List.filter_sublist List.nodup_range'

theorem Coherent.mem_opened (coherent : register.Coherent) {number : Nat} :
    number ∈ register.opened ↔
      (1 ≤ number ∧ number ≤ register.entered.length) ∧ number ∉ closedNumbers register.notices := by
  rw [coherent.opened, List.mem_filter, List.mem_range'_1, decide_eq_true_eq]
  apply and_congr_left'
  omega

/-- A number was given if a notice says so. -/
theorem Coherent.le_of_given (coherent : register.Coherent) {user : User} {number : Nat}
    (told : .given user number ∈ register.notices) : number ≤ register.entered.length := by
  have isGiven : number ∈ givenNumbers register.notices := List.mem_filterMap.mpr ⟨_, told, rfl⟩
  rw [coherent.given, List.mem_range'_1] at isGiven
  omega

theorem mem_closedNumbers {notices : List (Notice User Reason Answer)} {number : Nat} {reason : Reason}
    (told : .closed number reason ∈ notices) : number ∈ closedNumbers notices :=
  List.mem_filterMap.mpr ⟨_, told, rfl⟩

/-- A notice comes after those that it is in order with. -/
theorem pairwise_append_notice {notices : List (Notice User Reason Answer)} {notice : Notice User Reason Answer}
    (inOrder : notices.Pairwise Notice.InOrder) (last : ∀ earlier ∈ notices, earlier.InOrder notice) :
    (notices ++ [notice]).Pairwise Notice.InOrder := by
  refine List.pairwise_append.mpr ⟨inOrder, List.pairwise_singleton _ notice, fun earlier listed other isLast => ?_⟩
  rw [List.mem_singleton.mp isLast]
  exact last earlier listed

theorem Coherent.enter (coherent : register.Coherent) (user : User) (content : Content) :
    (register.apply (.enter user content)).Coherent := by
  have fresh : register.nextNumber ∉ closedNumbers register.notices := fun listed =>
    absurd (coherent.closed _ listed) (Nat.not_succ_le_self _)
  have numbers : List.range' 1 (register.entered ++ [content]).length =
      List.range' 1 register.entered.length ++ [register.nextNumber] := by
    rw [List.length_append, List.length_singleton, List.range'_1_concat, nextNumber, Nat.add_comm]
  exact
    { given := by
        change givenNumbers (register.notices ++ [.given user register.nextNumber]) = _
        rw [givenNumbers_given, coherent.given]
        exact numbers.symm
      opened := by
        change register.opened ++ [register.nextNumber] = List.filter _ (List.range' 1 (register.entered ++ [content]).length)
        simp only [apply, closedNumbers_given]
        have kept : [register.nextNumber].filter (· ∉ closedNumbers register.notices) = [register.nextNumber] :=
          List.filter_cons_of_pos (decide_eq_true fresh)
        rw [numbers, List.filter_append, ← coherent.opened, kept]
      closed := fun number listed => by
        simp only [apply, closedNumbers_given] at listed
        have bounded := coherent.closed number listed
        simp only [apply, List.length_append, List.length_singleton]
        omega
      inOrder := by
        refine pairwise_append_notice coherent.inOrder fun earlier listed => ?_
        cases earlier with
        | given user' number => exact Nat.lt_succ_of_le (coherent.le_of_given listed)
        | closed number reason => exact Nat.lt_succ_of_le (coherent.closed number (mem_closedNumbers listed))
        | answer => trivial }

theorem Coherent.close (coherent : register.Coherent) (number : Nat) (reason : Reason) :
    (register.apply (.close number reason)).Coherent := by
  by_cases isOpen : number ∈ register.opened
  · simp only [apply, if_pos isOpen]
    obtain ⟨inRange, notClosed⟩ := coherent.mem_opened.mp isOpen
    exact
      { given := (givenNumbers_closed _ number reason).trans coherent.given
        opened := by
          rw [closedNumbers_closed, coherent.opened_nodup.erase_eq_filter, coherent.opened, List.filter_filter]
          apply List.filter_congr
          intro other _
          by_cases same : other = number <;> simp [same]
        closed := fun other listed => by
          rw [closedNumbers_closed, List.mem_append, List.mem_singleton] at listed
          rcases listed with before | rfl
          · exact coherent.closed other before
          · exact inRange.2
        inOrder := by
          refine pairwise_append_notice coherent.inOrder fun earlier listed => ?_
          cases earlier with
          | given => trivial
          | closed other _ =>
              rintro rfl
              exact notClosed (mem_closedNumbers listed)
          | answer => trivial }
  · simp only [apply, if_neg isOpen]
    exact coherent

theorem Coherent.tell (coherent : register.Coherent) (answer : Answer) :
    (register.apply (.tell answer)).Coherent where
  given := (givenNumbers_answer _ answer).trans coherent.given
  opened := by
    simp only [apply, closedNumbers_answer]
    exact coherent.opened
  closed := by
    simp only [apply, closedNumbers_answer]
    exact coherent.closed
  inOrder := by
    refine pairwise_append_notice coherent.inOrder fun earlier _ => ?_
    cases earlier <;> trivial

/-- Registers are coherent, whatever is asked of them. -/
theorem coherent_of_exec {requests : List (Request User Content Reason Answer)}
    {later : Register User Content Reason Answer} (coherent : register.Coherent)
    (executed : machine.exec register requests = some later) : later.Coherent := by
  refine (Machine.throughout_of_preserved (fun before request after isCoherent stepped => ?_) requests coherent).finish
    executed
  obtain rfl := Option.some.inj stepped
  cases request with
  | enter user content => exact isCoherent.enter user content
  | close number reason => exact isCoherent.close number reason
  | tell answer => exact isCoherent.tell answer

/-- What all answers that are told have in common is true of the answers in the notices. -/
theorem answers_of_exec {property : Answer → Prop} {requests : List (Request User Content Reason Answer)}
    {later : Register User Content Reason Answer}
    (before : ∀ answer, .answer answer ∈ register.notices → property answer)
    (told : ∀ answer, .tell answer ∈ requests → property answer)
    (executed : machine.exec register requests = some later) :
    ∀ answer, .answer answer ∈ later.notices → property answer := by
  induction requests generalizing register with
  | nil =>
      rw [Machine.exec_nil, Option.some.injEq] at executed
      exact executed ▸ before
  | cons request rest ih =>
      obtain ⟨next, stepped, tailExecuted⟩ := Machine.exec_cons_iff.mp executed
      obtain rfl := Option.some.inj stepped
      refine ih ?_ (fun answer listed => told answer (List.mem_cons_of_mem request listed)) tailExecuted
      intro answer listed
      cases request with
      | enter user content =>
          rcases List.mem_append.mp listed with earlier | last
          · exact before answer earlier
          · cases List.mem_singleton.mp last
      | close number reason =>
          simp only [apply] at listed
          split at listed
          · rcases List.mem_append.mp listed with earlier | last
            · exact before answer earlier
            · cases List.mem_singleton.mp last
          · exact before answer listed
      | tell other =>
          rcases List.mem_append.mp listed with earlier | last
          · exact before answer earlier
          · cases List.mem_singleton.mp last
            exact told answer List.mem_cons_self

/-! ## The last entries -/

theorem recent_length (register : Register User Content Reason Answer) (limit : Nat) :
    (register.recent limit).length = min limit register.entered.length := by
  rw [recent, List.length_drop, List.length_zipIdx]
  omega

/-- The last numbers follow each other. -/
theorem recent_numbers (register : Register User Content Reason Answer) (limit : Nat) :
    (register.recent limit).map Prod.snd =
      List.range' (register.entered.length - limit + 1) (min limit register.entered.length) := by
  rw [recent, List.map_drop, List.zipIdx_map_snd, List.drop_range']
  congr 1 <;> omega

/-- An entry is added to the last ones, and takes the place of the first of them if there are enough. -/
theorem recent_enter (register : Register User Content Reason Answer) (user : User) (content : Content) {limit : Nat}
    (positive : 0 < limit) :
    (register.apply (.enter user content)).recent limit =
      if register.entered.length < limit then register.recent limit ++ [(content, register.nextNumber)]
      else (register.recent limit ++ [(content, register.nextNumber)]).tail := by
  have zipped : (register.entered ++ [content]).zipIdx 1 =
      register.entered.zipIdx 1 ++ [(content, register.nextNumber)] := by
    rw [List.zipIdx_append]
    simp [nextNumber, Nat.add_comm]
  simp only [recent, apply, zipped, List.length_append, List.length_singleton]
  split
  · next few =>
      have none : register.entered.length - limit = 0 := by omega
      have noneLater : register.entered.length + 1 - limit = 0 := by omega
      rw [none, noneLater, List.drop_zero, List.drop_zero]
  · next many =>
      have oneMore : register.entered.length + 1 - limit = (register.entered.length - limit) + 1 := by omega
      have within : register.entered.length - limit < (register.entered.zipIdx 1).length := by
        rw [List.length_zipIdx]
        omega
      rw [oneMore, ← List.drop_one, ← List.drop_append_of_le_length within.le, List.drop_drop]

end Register

end EDBus.Semantics
