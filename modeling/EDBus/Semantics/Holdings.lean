import Mathlib.Algebra.Group.Int.Defs
import Mathlib.Logic.Function.Basic

/-!
# Counts of references

`Holdings` says for every key how many references were acquired and not released. A
count below zero means that somebody else's reference was released. What a list of
operations does to the counts is the `count` of the list.
-/

namespace EDBus.Semantics

universe u

/-- References acquired less references released. -/
abbrev Holdings (Key : Type u) := Key → Int

namespace Holdings

variable {Key : Type u} [DecidableEq Key]

/-- A reference more. -/
def acquire (held : Holdings Key) (key : Key) : Holdings Key := Function.update held key (held key + 1)

/-- A reference less. -/
def release (held : Holdings Key) (key : Key) : Holdings Key := Function.update held key (held key - 1)

theorem acquire_apply (held : Holdings Key) (key other : Key) :
    held.acquire key other = held other + if key = other then 1 else 0 := by
  unfold acquire
  rw [Function.update_apply]
  by_cases here : other = key
  · simp [here]
  · simp [here, Ne.symm here]

theorem release_apply (held : Holdings Key) (key other : Key) :
    held.release key other = held other - if key = other then 1 else 0 := by
  unfold release
  rw [Function.update_apply]
  by_cases here : other = key
  · simp [here]
  · simp [here, Ne.symm here]

/-- A reference to every key of a list. -/
def acquireAll (held : Holdings Key) (keys : List Key) : Holdings Key := keys.foldl acquire held

/-- The references to all keys of a list go. -/
def releaseAll (held : Holdings Key) (keys : List Key) : Holdings Key := keys.foldl release held

theorem acquireAll_apply (held : Holdings Key) (keys : List Key) (other : Key) :
    held.acquireAll keys other = held other + keys.count other := by
  unfold acquireAll
  induction keys generalizing held with
  | nil => simp
  | cons key rest ih =>
      rw [List.foldl_cons, ih, acquire_apply, List.count_cons]
      simp only [beq_iff_eq]
      split <;> omega

theorem releaseAll_apply (held : Holdings Key) (keys : List Key) (other : Key) :
    held.releaseAll keys other = held other - keys.count other := by
  unfold releaseAll
  induction keys generalizing held with
  | nil => simp
  | cons key rest ih =>
      rw [List.foldl_cons, ih, release_apply, List.count_cons]
      simp only [beq_iff_eq]
      split <;> omega

/-- Items that release their keys one after the other release all of them. -/
theorem foldl_releaseAll {Item : Type u} (keys : Item → List Key) (held : Holdings Key)
    (items : List Item) :
    items.foldl (fun held item => held.releaseAll (keys item)) held =
      held.releaseAll (items.flatMap keys) := by
  induction items generalizing held with
  | nil => rfl
  | cons item rest ih =>
      rw [List.foldl_cons, ih, List.flatMap_cons, releaseAll, releaseAll, releaseAll, List.foldl_append]

theorem foldl_acquireAll {Item : Type u} (keys : Item → List Key) (held : Holdings Key)
    (items : List Item) :
    items.foldl (fun held item => held.acquireAll (keys item)) held =
      held.acquireAll (items.flatMap keys) := by
  induction items generalizing held with
  | nil => rfl
  | cons item rest ih =>
      rw [List.foldl_cons, ih, List.flatMap_cons, acquireAll, acquireAll, acquireAll, List.foldl_append]

/-- Whoever acquires the one list and releases the other leaves all counts as they were. -/
def Returns (acquired released : List Key) : Prop :=
  ∀ held : Holdings Key, (held.acquireAll acquired).releaseAll released = held

theorem returns_iff_perm {acquired released : List Key} : Returns acquired released ↔ acquired.Perm released := by
  rw [List.perm_iff_count, Returns]
  constructor
  · intro returns key
    have same := congrFun (returns fun _ => 0) key
    rw [releaseAll_apply, acquireAll_apply] at same
    omega
  · intro counts held
    ext key
    rw [releaseAll_apply, acquireAll_apply, counts key]
    omega

end Holdings

end EDBus.Semantics
