import EDBus.Semantics.Simulation
import Mathlib.Data.List.Induction
import Mathlib.Logic.Function.Basic

/-!
# Replicas

A publisher changes its values one by one and announces each change. A replica takes what is announced in the
order in which it was, and sometimes it is sent all values at once. It may miss changes as long as it has not
got all values for the first time. `Follows` says what it then has: the values that the publisher had before
the changes that are still under way.
-/

open Semantics

namespace EDBus.Semantics.Replica

universe u v

variable {Key : Type u} {Value : Type v}

/-- What is announced: a change, or all values. -/
inductive Notice (Key : Type u) (Value : Type v) where
  | change (key : Key) (value : Value)
  | all (entries : List (Key × Value))

/-- The changes that are announced. -/
def changes : List (Notice Key Value) → List (Key × Value)
  | [] => []
  | .change key value :: rest => (key, value) :: changes rest
  | .all _ :: rest => changes rest

theorem changes_append (first second : List (Notice Key Value)) :
    changes (first ++ second) = changes first ++ changes second := by
  induction first with
  | nil => rfl
  | cons notice rest ih =>
      cases notice with
      | change key value => simp [changes, ih]
      | all entries => simp [changes, ih]

/-! ## Values -/

variable [DecidableEq Key]

/-- The value that each key was given last. -/
def latest (changes : List (Key × Value)) : Key → Option Value :=
  changes.foldl (fun known change => Function.update known change.1 (some change.2)) fun _ => none

@[simp] theorem latest_nil (key : Key) : latest ([] : List (Key × Value)) key = none := rfl

theorem latest_concat (changes : List (Key × Value)) (change : Key × Value) :
    latest (changes ++ [change]) = Function.update (latest changes) change.1 (some change.2) := by
  rw [latest, List.foldl_append]
  rfl

/-- Later changes hide earlier ones. -/
theorem latest_append (earlier later : List (Key × Value)) (key : Key) :
    latest (earlier ++ later) key = (latest later key).or (latest earlier key) := by
  induction later using List.reverseRecOn with
  | nil => simp
  | append_singleton later change ih =>
      rw [← List.append_assoc, latest_concat, latest_concat]
      simp only [Function.update_apply]
      split
      · rfl
      · exact ih

/-- A key that was never given a value has none. -/
theorem latest_of_absent {log : List (Key × Value)} {key : Key} (absent : ∀ change ∈ log, change.1 ≠ key) :
    latest log key = none := by
  induction log using List.reverseRecOn with
  | nil => rfl
  | append_singleton log change ih =>
      have different : key ≠ change.1 := (absent change (by simp)).symm
      rw [latest_concat, Function.update_of_ne different]
      exact ih fun earlier listed => absent earlier (List.mem_append_left _ listed)

/-- The values of some keys, in their order. -/
def recital (log : List (Key × Value)) (keys : List Key) : List (Key × Value) :=
  keys.filterMap fun key => (latest log key).map fun value => (key, value)

theorem latest_recital (log : List (Key × Value)) (keys : List Key) (key : Key) :
    latest (recital log keys) key = if key ∈ keys then latest log key else none := by
  induction keys using List.reverseRecOn with
  | nil => rfl
  | append_singleton keys last ih =>
      have split : recital log (keys ++ [last]) = recital log keys ++ recital log [last] := List.filterMap_append
      rw [split, latest_append, ih]
      have single : latest (recital log [last]) key = if key = last then latest log key else none := by
        cases known : latest log last with
        | none =>
            have nothing : recital log [last] = [] := by simp [recital, known]
            rw [nothing, latest_nil]
            split
            · next same => rw [same, known]
            · rfl
        | some value =>
            have one : recital log [last] = [] ++ [(last, value)] := by simp [recital, known]
            rw [one, latest_concat, Function.update_apply]
            split
            · next same => rw [same, known]
            · rfl
      rw [single]
      by_cases isLast : key = last
      · subst isLast
        cases latest log key <;> simp
      · simp [isLast]

/-- All keys that were given a value make a full recital. -/
theorem latest_recital_all {log : List (Key × Value)} {keys : List Key} (all : ∀ change ∈ log, change.1 ∈ keys) :
    latest (recital log keys) = latest log := by
  ext1 key
  rw [latest_recital]
  split
  · rfl
  · next absent =>
      refine (latest_of_absent fun change listed same => ?_).symm
      exact absent (same ▸ all change listed)

/-- Values are translated one by one. -/
theorem latest_map {Other : Type v} (translate : Value → Other) (log : List (Key × Value)) (key : Key) :
    latest (log.map fun change => (change.1, translate change.2)) key = (latest log key).map translate := by
  induction log using List.reverseRecOn with
  | nil => rfl
  | append_singleton log change ih =>
      rw [List.map_append, List.map_singleton, latest_concat, latest_concat]
      simp only [Function.update_apply]
      split
      · rfl
      · exact ih

/-- All values are those that the publisher had when it announced them. -/
def Recited : List (Key × Value) → List (Notice Key Value) → Prop
  | _, [] => True
  | seen, .change key value :: rest => Recited (seen ++ [(key, value)]) rest
  | seen, .all entries :: rest => latest entries = latest seen ∧ Recited seen rest

theorem recited_append (seen : List (Key × Value)) (first second : List (Notice Key Value)) :
    Recited seen (first ++ second) ↔ Recited seen first ∧ Recited (seen ++ changes first) second := by
  induction first generalizing seen with
  | nil => simp [Recited, changes]
  | cons notice rest ih =>
      cases notice with
      | change key value => simp [Recited, changes, ih, List.append_assoc]
      | all entries => simp [Recited, changes, ih, and_assoc]

/-! ## A publisher and its replica -/

/-- A publisher and its replica: `log` has all changes, `seen` those that are not under way any more, and
`received` what the replica took. -/
structure State (Key : Type u) (Value : Type v) where
  log : List (Key × Value)
  underway : List (Notice Key Value)
  seen : List (Key × Value)
  received : List (Key × Value)
  synced : Bool

/-- The publisher has these values, and the replica none. -/
def State.initial (values : List (Key × Value)) : State Key Value := ⟨values, [], values, [], false⟩

inductive Action (Key : Type u) (Value : Type v) where
  | change (key : Key) (value : Value)
  | recite (entries : List (Key × Value))
  /-- The oldest notice is lost. -/
  | miss
  /-- The replica takes the oldest notice. -/
  | learn

open Classical in
/-- What the publisher and the replica do. -/
noncomputable def step (state : State Key Value) : Action Key Value → Option (State Key Value)
  | .change key value =>
    some { state with
      log := state.log ++ [(key, value)]
      underway := state.underway ++ [.change key value] }
  | .recite entries =>
    if latest entries = latest state.log then
      some { state with underway := state.underway ++ [.all entries] }
    else none
  | .miss =>
    match state.underway with
    | .change key value :: rest =>
      if state.synced then none
      else some { state with underway := rest, seen := state.seen ++ [(key, value)] }
    | _ => none
  | .learn =>
    match state.underway with
    | [] => none
    | .change key value :: rest =>
      some { state with
        underway := rest
        seen := state.seen ++ [(key, value)]
        received := state.received ++ [(key, value)] }
    | .all entries :: rest =>
      some { state with underway := rest, received := state.received ++ entries, synced := true }

/-- A publisher and its replica. -/
noncomputable def machine : Machine (State Key Value) (Action Key Value) := ⟨step⟩

/-- The changes that the replica has not seen are under way, each once and in order. Once it is synchronised,
it has the values that the publisher had before them. -/
structure Follows (state : State Key Value) : Prop where
  order : state.log = state.seen ++ changes state.underway
  recited : Recited state.seen state.underway
  known : ∀ key, latest state.seen key = none → latest state.received key = none
  current : state.synced = true → latest state.received = latest state.seen

variable {state next : State Key Value}

theorem initial_follows (values : List (Key × Value)) : Follows (State.initial values) where
  order := (List.append_nil values).symm
  recited := trivial
  known _ _ := rfl
  current unsynced := by cases unsynced

theorem known_concat {seen received : List (Key × Value)}
    (known : ∀ key, latest seen key = none → latest received key = none) (change : Key × Value) (key : Key)
    (unknown : latest (seen ++ [change]) key = none) : key ≠ change.1 ∧ latest received key = none := by
  rw [latest_concat, Function.update_apply] at unknown
  split at unknown
  · cases unknown
  · next different => exact ⟨different, known key unknown⟩

theorem step_follows (action : Action Key Value) (follows : Follows state)
    (stepped : step state action = some next) : Follows next := by
  cases action with
  | change key value =>
      obtain rfl := Option.some.inj stepped
      refine ⟨?_, ?_, follows.known, follows.current⟩
      · simp only [changes_append, changes, follows.order, List.append_assoc]
      · simp only [recited_append, Recited, and_true]
        exact follows.recited
  | recite entries =>
      simp only [step, Option.ite_none_right_eq_some, Option.some.injEq] at stepped
      obtain ⟨all, rfl⟩ := stepped
      refine ⟨?_, ?_, follows.known, follows.current⟩
      · simp only [changes_append, changes, List.append_nil]
        exact follows.order
      · simp only [recited_append, Recited, and_true]
        exact ⟨follows.recited, follows.order ▸ all⟩
  | miss =>
      simp only [step] at stepped
      split at stepped
      · next key value rest underway =>
          simp only [Option.ite_none_left_eq_some, Option.some.injEq] at stepped
          obtain ⟨unsynced, rfl⟩ := stepped
          have order := follows.order
          have recited := follows.recited
          rw [underway] at order recited
          refine ⟨?_, recited, fun other unknown => ?_, fun synced => absurd synced unsynced⟩
          · simp only [order, changes, List.append_assoc, List.singleton_append]
          · exact (known_concat follows.known (key, value) other unknown).2
      · cases stepped
  | learn =>
      simp only [step] at stepped
      split at stepped
      · cases stepped
      · next key value rest underway =>
          obtain rfl := Option.some.inj stepped
          have order := follows.order
          have recited := follows.recited
          rw [underway] at order recited
          refine ⟨?_, recited, fun other unknown => ?_, fun synced => ?_⟩
          · simp only [order, changes, List.append_assoc, List.singleton_append]
          · obtain ⟨different, before⟩ := known_concat follows.known (key, value) other unknown
            rw [latest_concat, Function.update_of_ne different, before]
          · simp only [latest_concat, follows.current synced]
      · next entries rest underway =>
          obtain rfl := Option.some.inj stepped
          have order := follows.order
          have recited := follows.recited
          rw [underway] at order recited
          obtain ⟨all, recitedRest⟩ := recited
          have taken : latest (state.received ++ entries) = latest state.seen := by
            ext1 key
            rw [latest_append, all]
            cases isKnown : latest state.seen key with
            | none => rw [Option.none_or, follows.known key isKnown]
            | some value => rw [Option.some_or]
          exact ⟨order, recitedRest, fun key unknown => taken ▸ unknown, fun _ => taken⟩

/-- Whatever the publisher does and whatever is lost at first, the replica follows it. -/
theorem follows_throughout (values : List (Key × Value)) (actions : List (Action Key Value)) :
    machine.Throughout Follows (State.initial values) actions :=
  Machine.throughout_of_preserved (fun _ action _ follows stepped => step_follows action follows stepped) actions
    (initial_follows values)

end EDBus.Semantics.Replica
