import EDBus.Elements.Value
import EDBus.Semantics.Passing

/-!
# Listeners of an element

`_element_listeners_call_do` calls the listeners of an element, and their callbacks may add and delete
listeners. connman keeps a pointer to the next listener meanwhile, bluez and ofono a copy of all
pointers. `notified_iff` finds exactly the calls of the callbacks that either of them stands.
-/

open Semantics.Passing

namespace EDBus.Elements

/-- `E_Connman_Element_Listener` and its siblings. `id` stands for the address, `cb` and `data` for the
function and its data; 0 is `NULL`. -/
structure Listener where
  id : Nat
  cb : Nat
  data : Nat
deriving DecidableEq, Repr

/-- `element->_listeners`. The listed ones are those that are allocated; `created` counts all that
ever were. -/
structure Registry where
  listeners : List Listener
  created : Nat
  fresh : ∀ l ∈ listeners, l.id < created
  distinct : (listeners.map Listener.id).Nodup

/-- `_element_listener_add`. -/
def listenerAdd (registry : Registry) (cb data : Nat) : Registry :=
  if cb = 0 then registry
  else
    { listeners := registry.listeners ++ [⟨registry.created, cb, data⟩]
      created := registry.created + 1
      fresh := by
        intro l listed
        rcases List.mem_append.mp listed with old | isNew
        · exact Nat.lt_succ_of_lt (registry.fresh l old)
        · obtain rfl := List.mem_singleton.mp isNew
          exact Nat.lt_succ_self _
      distinct := by
        rw [List.map_append, List.nodup_append']
        refine ⟨registry.distinct, List.nodup_singleton _, ?_⟩
        intro id listed isNew
        obtain ⟨l, old, rfl⟩ := List.mem_map.mp listed
        have young : l.id = registry.created := List.mem_singleton.mp isNew
        exact absurd (registry.fresh l old) (by omega) }

/-- `_element_listener_del`: the first listener with the function and the data is freed. -/
def listenerDel (registry : Registry) (cb data : Nat) : Registry :=
  if cb = 0 then registry
  else
    { listeners := registry.listeners.eraseP fun l => l.cb = cb ∧ l.data = data
      created := registry.created
      fresh := fun l listed => registry.fresh l (List.eraseP_subset listed)
      distinct := registry.distinct.sublist (List.eraseP_sublist.map _) }

/-- A call that a callback makes. -/
inductive ListenerCall where
  | add (cb data : Nat)
  | del (cb data : Nat)
deriving DecidableEq, Repr

/-- The call is made. -/
def ListenerCall.perform (registry : Registry) : ListenerCall → Registry
  | .add cb data => listenerAdd registry cb data
  | .del cb data => listenerDel registry cb data

/-! ## The loop -/

/-- The pointers of the loop: `l` and `x` of `EINA_INLIST_FOREACH_SAFE`, or what remains of `shadow`. -/
inductive Cursor where
  | saved (l x : Option Listener)
  | shadow (rest : List Listener)
deriving DecidableEq, Repr

/-- A run of the loop between two callbacks, and the listeners that it has called. -/
structure Pass where
  registry : Registry
  cursor : Cursor
  called : List Listener
  touchedFreed : Bool

/-- `next` of a listener that is in the list. -/
def inlistNext (listeners : List Listener) (l : Listener) : Option Listener :=
  (listeners.dropWhile (· ≠ l)).tail.head?

/-- `_element_listeners_call_do` up to the first callback. -/
def passBegin (family : Family) (registry : Registry) : Pass where
  registry := registry
  cursor := match family with
    | .connman => .saved registry.listeners.head? registry.listeners.tail.head?
    | _ => .shadow registry.listeners
  called := []
  touchedFreed := false

/-- A callback, which makes some calls, and what the loop does after it. -/
def passTurn (pass : Pass) (calls : List ListenerCall) : Pass :=
  if pass.touchedFreed then pass
  else
    match pass.cursor with
    | .saved none _ => pass
    | .saved (some l) x =>
      if l ∈ pass.registry.listeners then
        let after := calls.foldl ListenerCall.perform pass.registry
        match x with
        | none => ⟨after, .saved none none, pass.called ++ [l], false⟩
        | some next =>
          -- `next->next` is read before the turn of `next`
          if next ∈ after.listeners then
            ⟨after, .saved x (inlistNext after.listeners next), pass.called ++ [l], false⟩
          else ⟨after, .saved x none, pass.called ++ [l], true⟩
      else { pass with touchedFreed := true }
    | .shadow [] => pass
    | .shadow (l :: rest) =>
      if l ∈ pass.registry.listeners then
        ⟨calls.foldl ListenerCall.perform pass.registry, .shadow rest, pass.called ++ [l], false⟩
      else { pass with touchedFreed := true }

/-- The loop has ended. -/
def Pass.finished (pass : Pass) : Prop := pass.cursor = .saved none none ∨ pass.cursor = .shadow []

/-- The loop after some callbacks; `calls n` are the calls that the `n`-th one makes. -/
def notify (family : Family) (registry : Registry) (calls : Nat → List ListenerCall) : Nat → Pass
  | 0 => passBegin family registry
  | n + 1 => passTurn (notify family registry calls n) (calls n)

/-- A pass ends without a look at a freed listener. Each listener of the list is called once, in the
order of the list, unless it is deleted before its turn: as long as one is listed and has not been
called, it is called next, or one in front of it is. -/
structure Notified (family : Family) (registry : Registry) (calls : Nat → List ListenerCall) : Prop where
  ends : ∃ n, (notify family registry calls n).finished
  safe : ∀ n, (notify family registry calls n).touchedFreed = false
  once : ∀ n, (notify family registry calls n).called.Nodup
  inOrder : ∀ n, ((notify family registry calls n).called.filter (· ∈ registry.listeners)).Sublist
    registry.listeners
  complete : ∀ n, ∀ l ∈ registry.listeners, l ∈ (notify family registry calls n).registry.listeners →
    l ∉ (notify family registry calls n).called →
      ∃ next, (notify family registry calls (n + 1)).called = (notify family registry calls n).called ++ [next] ∧
        (next = l ∨ [next, l].Sublist registry.listeners)

/-! ## The list under the calls -/

/-- The listeners after the calls of some callbacks. -/
def registryAt (registry : Registry) (calls : Nat → List ListenerCall) : Nat → Registry
  | 0 => registry
  | n + 1 => (calls n).foldl ListenerCall.perform (registryAt registry calls n)

/-- The list after the calls of some callbacks. -/
def listAt (registry : Registry) (calls : Nat → List ListenerCall) (n : Nat) : List Listener :=
  (registryAt registry calls n).listeners

/-- Listeners leave the list, and new ones join it at the end. -/
structure Changes (before after : Registry) : Prop where
  created : before.created ≤ after.created
  joins : ∃ kept added, after.listeners = kept ++ added ∧ kept.Sublist before.listeners ∧
    ∀ l ∈ added, before.created ≤ l.id

variable {registry before middle after : Registry} {calls : Nat → List ListenerCall}

theorem Changes.refl (registry : Registry) : Changes registry registry :=
  ⟨Nat.le_refl _, registry.listeners, [], (List.append_nil _).symm, .refl _, by simp⟩

theorem Changes.trans (first : Changes before middle) (second : Changes middle after) :
    Changes before after := by
  obtain ⟨kept, added, isMiddle, sub, young⟩ := first.joins
  obtain ⟨kept', added', isAfter, sub', young'⟩ := second.joins
  rw [isMiddle] at sub'
  obtain ⟨old, new, rfl, fromKept, fromAdded⟩ := List.sublist_append_iff.mp sub'
  refine ⟨Nat.le_trans first.created second.created, old, new ++ added', ?_, fromKept.trans sub, ?_⟩
  · rw [isAfter, List.append_assoc]
  · intro l listed
    rcases List.mem_append.mp listed with isNew | isLater
    · exact young l (fromAdded.subset isNew)
    · exact Nat.le_trans first.created (young' l isLater)

theorem changes_perform (registry : Registry) (call : ListenerCall) :
    Changes registry (call.perform registry) := by
  cases call with
  | add cb data =>
      simp only [ListenerCall.perform, listenerAdd]
      split
      · exact .refl registry
      · refine ⟨Nat.le_succ _, registry.listeners, [⟨registry.created, cb, data⟩], rfl, .refl _, ?_⟩
        intro l isNew
        obtain rfl := List.mem_singleton.mp isNew
        exact Nat.le_refl _
  | del cb data =>
      simp only [ListenerCall.perform, listenerDel]
      split
      · exact .refl registry
      · exact ⟨Nat.le_refl _, _, [], (List.append_nil _).symm, List.eraseP_sublist, by simp⟩

theorem changes_foldl (calls : List ListenerCall) (registry : Registry) :
    Changes registry (calls.foldl ListenerCall.perform registry) := by
  induction calls generalizing registry with
  | nil => exact .refl registry
  | cons call rest ih => exact (changes_perform registry call).trans (ih _)

theorem changes_registryAt {m n : Nat} (less : m ≤ n) :
    Changes (registryAt registry calls m) (registryAt registry calls n) := by
  induction less with
  | refl => exact .refl _
  | step less ih => exact ih.trans (changes_foldl _ _)

/-- A callback changes the list as a pass expects it. -/
theorem evolving_listAt (registry : Registry) (calls : Nat → List ListenerCall) :
    Evolving (listAt registry calls) where
  nodup n := (registryAt registry calls n).distinct.of_map
  joins n := by
    obtain ⟨kept, added, isNext, sub, young⟩ := (changes_foldl (calls n) (registryAt registry calls n)).joins
    refine ⟨kept, added, isNext, sub, ?_⟩
    intro l isNew listed
    exact absurd ((registryAt registry calls n).fresh l listed) (Nat.not_lt.mpr (young l isNew))
  returns m n l less listed back := by
    obtain ⟨kept, added, isNext, sub, young⟩ := (changes_foldl (calls n) (registryAt registry calls n)).joins
    have old : l.id < (registryAt registry calls n).created :=
      Nat.lt_of_lt_of_le ((registryAt registry calls m).fresh l listed) (changes_registryAt less).created
    have isListed : l ∈ kept ++ added := isNext ▸ back
    rcases List.mem_append.mp isListed with isKept | isNew
    · exact sub.subset isKept
    · exact absurd old (Nat.not_lt.mpr (young l isNew))

/-! ## The loop on that list -/

/-- connman's loop follows the list itself. -/
def Family.scheme : Family → Scheme
  | .connman => .live
  | _ => .copied

/-- The pointers of a loop that has some listeners to call. -/
def cursorOf (scheme : Scheme) (toCall : List Listener) : Cursor :=
  match scheme with
  | .live => .saved toCall.head? toCall.tail.head?
  | .copied => .shadow toCall

variable {family : Family}

/-- The loop has done what a pass over the list does. -/
structure Keeps (family : Family) (registry : Registry) (calls : Nat → List ListenerCall) (n : Nat) :
    Prop where
  cursor : (notify family registry calls n).cursor =
    cursorOf family.scheme (queue family.scheme (listAt registry calls) n)
  called : (notify family registry calls n).called = passed family.scheme (listAt registry calls) n
  safe : (notify family registry calls n).touchedFreed = false
  current : ∃ k ≤ n, (notify family registry calls n).registry = registryAt registry calls k ∧
    (k < n → queue family.scheme (listAt registry calls) k = [])

theorem keeps_zero (family : Family) (registry : Registry) (calls : Nat → List ListenerCall) :
    Keeps family registry calls 0 :=
  ⟨by cases family <;> rfl, rfl, rfl, 0, Nat.le_refl _, rfl, fun impossible => absurd impossible (by omega)⟩

/-- As long as listeners are to be called, the list is that after all calls. -/
theorem Keeps.registry_eq {n : Nat} (keeps : Keeps family registry calls n)
    (toCall : queue family.scheme (listAt registry calls) n ≠ []) :
    (notify family registry calls n).registry = registryAt registry calls n := by
  obtain ⟨k, less, isCurrent, finished⟩ := keeps.current
  rcases Nat.lt_or_eq_of_le less with earlier | rfl
  · exact absurd (queue_over less (finished earlier)) toCall
  · exact isCurrent

theorem cursorOf_over {toCall : List Listener} {scheme : Scheme} :
    (cursorOf scheme toCall = .saved none none ∨ cursorOf scheme toCall = .shadow []) ↔ toCall = [] := by
  cases scheme <;> cases toCall <;> simp [cursorOf]

theorem Keeps.over_iff {n : Nat} (keeps : Keeps family registry calls n) :
    (notify family registry calls n).finished ↔ queue family.scheme (listAt registry calls) n = [] := by
  rw [Pass.finished, keeps.cursor]
  exact cursorOf_over

/-- The next listener in a list without duplicates. -/
theorem inlistNext_append {front rest : List Listener} {l : Listener}
    (distinct : (front ++ l :: rest).Nodup) : inlistNext (front ++ l :: rest) l = rest.head? := by
  have absent : ∀ other ∈ front, decide (other ≠ l) = true := by
    intro other listed
    apply decide_eq_true
    rintro rfl
    exact (List.nodup_append'.mp distinct).2.2 listed List.mem_cons_self
  rw [inlistNext, List.dropWhile_append_of_pos absent, List.dropWhile_cons_of_neg (by simp), List.tail_cons]

/-- In a loop that saves the next listener, that is the next one to be called. -/
theorem inlistNext_queue (n : Nat) {l : Listener} {rest : List Listener}
    (isQueue : queue .live (listAt registry calls) n = l :: rest) :
    inlistNext (listAt registry calls n) l = rest.head? := by
  obtain ⟨front, place⟩ := (evolving_listAt registry calls).queue_suffix n
  rw [isQueue] at place
  rw [← place]
  exact inlistNext_append (place ▸ (evolving_listAt registry calls).nodup n)

/-- A loop that is finished makes no calls. -/
theorem Keeps.stays {n : Nat} (keeps : Keeps family registry calls n)
    (finished : queue family.scheme (listAt registry calls) n = []) : Keeps family registry calls (n + 1) := by
  have still : notify family registry calls (n + 1) = notify family registry calls n := by
    have ended := keeps.cursor
    rw [finished] at ended
    rw [notify, passTurn, keeps.safe, ended]
    cases family <;> rfl
  refine ⟨?_, ?_, ?_, ?_⟩
  · rw [still, keeps.cursor, queue_nil n finished, finished]
  · rw [still, keeps.called, passed, finished]
    exact (List.append_nil _).symm
  · rw [still, keeps.safe]
  · obtain ⟨k, less, isCurrent, stopped⟩ := keeps.current
    refine ⟨k, Nat.le_succ_of_le less, by rw [still, isCurrent], ?_⟩
    intro _
    rcases Nat.lt_or_eq_of_le less with earlier | rfl
    · exact stopped earlier
    · exact finished

/-- What a turn does while there is a listener to call: the loop goes on exactly as far as it has
pointers to listeners that are still there. -/
theorem Keeps.turn {n : Nat} (keeps : Keeps family registry calls n) {l : Listener} {rest : List Listener}
    (isQueue : queue family.scheme (listAt registry calls) n = l :: rest) :
    notify family registry calls (n + 1) =
      { registry := registryAt registry calls (n + 1)
        cursor := match family.scheme with
          | .live => .saved rest.head?
              ((rest.head?.filter (· ∈ listAt registry calls (n + 1))).bind
                (inlistNext (listAt registry calls (n + 1))))
          | .copied => .shadow rest
        called := passed family.scheme (listAt registry calls) (n + 1)
        touchedFreed := match family.scheme with
          | .live => rest.head?.any (· ∉ listAt registry calls (n + 1))
          | .copied => false } := by
  have isCurrent := keeps.registry_eq (by rw [isQueue]; exact List.cons_ne_nil l rest)
  have toCome : l ∈ queue family.scheme (listAt registry calls) n := by
    rw [isQueue]
    exact List.mem_cons_self
  have listed : l ∈ (registryAt registry calls n).listeners := queue_listed n toCome
  have looked : passed family.scheme (listAt registry calls) (n + 1) =
      passed family.scheme (listAt registry calls) n ++ [l] := by
    rw [passed, isQueue]
    rfl
  have place := keeps.cursor
  rw [isQueue] at place
  rw [notify, passTurn, keeps.safe, place, keeps.called, isCurrent, looked]
  cases family with
  | connman =>
      cases rest with
      | nil => exact if_pos listed
      | cons next rest =>
          by_cases stays : next ∈ listAt registry calls (n + 1)
          · have kept : (some next).filter (fun l => decide (l ∈ listAt registry calls (n + 1))) = some next := by
              simp [stays]
            have noneGone : (some next).any (fun l => decide (l ∉ listAt registry calls (n + 1))) = false := by
              simp [stays]
            refine (if_pos listed).trans ((if_pos stays).trans ?_)
            simp only [Family.scheme, List.head?_cons, kept, noneGone, Option.bind_some]
            rfl
          · have lost : (some next).filter (fun l => decide (l ∈ listAt registry calls (n + 1))) = none := by
              simp [stays]
            have isGone : (some next).any (fun l => decide (l ∉ listAt registry calls (n + 1))) = true := by
              simp [stays]
            refine (if_pos listed).trans ((if_neg stays).trans ?_)
            simp only [Family.scheme, List.head?_cons, lost, isGone, Option.bind_none]
            rfl
  | bluez => exact if_pos listed
  | ofono => exact if_pos listed

/-- A turn that spares the listeners that the loop has pointers to is one of the pass. -/
theorem Keeps.succ {n : Nat} (keeps : Keeps family registry calls n)
    (spares : Spares family.scheme (listAt registry calls) n) : Keeps family registry calls (n + 1) := by
  cases isQueue : queue family.scheme (listAt registry calls) n with
  | nil => exact keeps.stays isQueue
  | cons l rest =>
      have turned := keeps.turn isQueue
      have isNext := queue_cons n isQueue
      rw [Spares, isQueue, List.tail_cons] at spares
      have current : ∃ k ≤ n + 1, (notify family registry calls (n + 1)).registry =
          registryAt registry calls k ∧ (k < n + 1 → queue family.scheme (listAt registry calls) k = []) :=
        ⟨n + 1, Nat.le_refl _, by rw [turned], fun impossible => absurd impossible (Nat.lt_irrefl _)⟩
      refine ⟨?_, by rw [turned], ?_, current⟩
      · rw [turned]
        cases scheme : family.scheme with
        | copied =>
            rw [scheme] at spares isNext
            have kept : queue .copied (listAt registry calls) (n + 1) = rest := by
              rw [isNext]
              exact List.filter_eq_self.mpr fun l listed => decide_eq_true (spares l listed)
            rw [kept]
            rfl
        | live =>
            rw [scheme] at spares isNext
            cases rest with
            | nil =>
                rw [upcoming_nil] at isNext
                rw [isNext]
                rfl
            | cons next rest =>
                have stays : next ∈ listAt registry calls (n + 1) := spares next (by simp [guarded])
                have isHead : queue .live (listAt registry calls) (n + 1) =
                    next :: (queue .live (listAt registry calls) (n + 1)).tail := by
                  have filtered : (next :: rest).filter (· ∈ listAt registry calls (n + 1)) =
                      next :: rest.filter (· ∈ listAt registry calls (n + 1)) :=
                    List.filter_cons_of_pos (decide_eq_true stays)
                  rw [isNext, upcoming_live (List.cons_ne_nil next rest), filtered]
                  rfl
                rw [isHead]
                have kept : (some next).filter (fun l => decide (l ∈ listAt registry calls (n + 1))) =
                    some next := by
                  simp [stays]
                simp only [List.head?_cons, kept, Option.bind_some, inlistNext_queue (n + 1) isHead]
                rfl
      · rw [turned]
        cases scheme : family.scheme with
        | copied => rfl
        | live =>
            rw [scheme] at spares
            cases rest with
            | nil => rfl
            | cons next rest =>
                have stays : next ∈ listAt registry calls (n + 1) := spares next (by simp [guarded])
                simp [stays]

/-- A loop over a copy comes to a listener that has left. -/
theorem copied_faults {l : Listener} (rest : List Listener) {n : Nat}
    (place : (notify family registry calls n).cursor = .shadow rest) (listed : l ∈ rest)
    (safe : (notify family registry calls n).touchedFreed = false)
    (isCurrent : (notify family registry calls n).registry = registryAt registry calls n)
    (left : ∀ m, n ≤ m → l ∉ listAt registry calls m) :
    ∃ m, (notify family registry calls m).touchedFreed = true := by
  induction rest generalizing n with
  | nil => cases listed
  | cons first rest ih =>
      have turned : notify family registry calls (n + 1) = if first ∈ listAt registry calls n then
          ⟨registryAt registry calls (n + 1), .shadow rest, (notify family registry calls n).called ++ [first],
            false⟩
          else ⟨registryAt registry calls n, .shadow (first :: rest), (notify family registry calls n).called,
            true⟩ := by
        rw [notify, passTurn, safe, place, isCurrent]
        rfl
      by_cases stays : first ∈ listAt registry calls n
      · rw [if_pos stays] at turned
        have notFirst : l ≠ first := by
          rintro rfl
          exact left n (Nat.le_refl n) stays
        apply ih (n := n + 1)
        · rw [turned]
        · exact (List.mem_cons.mp listed).resolve_left notFirst
        · rw [turned]
        · rw [turned]
        · exact fun m less => left m (Nat.le_of_succ_le less)
      · rw [if_neg stays] at turned
        exact ⟨n + 1, by rw [turned]⟩

/-- A turn that does not spare them leads to a look at a freed listener. -/
theorem Keeps.faults {n : Nat} (keeps : Keeps family registry calls n)
    (unsparing : ¬ Spares family.scheme (listAt registry calls) n) :
    ∃ m, (notify family registry calls m).touchedFreed = true := by
  unfold Spares at unsparing
  simp only [not_forall, exists_prop] at unsparing
  obtain ⟨gone, isGuarded, left⟩ := unsparing
  cases isQueue : queue family.scheme (listAt registry calls) n with
  | nil =>
      rw [isQueue] at isGuarded
      cases scheme : family.scheme <;> rw [scheme] at isGuarded <;> cases isGuarded
  | cons l rest =>
      rw [isQueue, List.tail_cons] at isGuarded
      have turned := keeps.turn isQueue
      cases scheme : family.scheme with
      | live =>
          rw [scheme] at isGuarded turned
          have isNext : rest.head? = some gone := Option.mem_toList.mp isGuarded
          refine ⟨n + 1, ?_⟩
          rw [turned, isNext]
          simp [left]
      | copied =>
          rw [scheme] at isGuarded turned
          have toCome : gone ∈ queue family.scheme (listAt registry calls) n := by
            rw [isQueue]
            exact .tail _ isGuarded
          have wasListed : gone ∈ listAt registry calls n := queue_listed n toCome
          apply copied_faults rest (n := n + 1) (by rw [turned]) isGuarded (by rw [turned]) (by rw [turned])
          exact fun m less => (evolving_listAt registry calls).gone less (Nat.le_succ n) wasListed left

/-- A pass does what it should exactly if no callback deletes a listener that the loop has a pointer
to, and the callbacks do not add listeners in front of it for ever. In connman that pointer is to the
listener after the one that is called, in bluez and ofono there is one to each of those still to be called. -/
theorem notified_iff (family : Family) (registry : Registry) (calls : Nat → List ListenerCall) :
    Notified family registry calls ↔
      (∀ n, Spares family.scheme (listAt registry calls) n) ∧
        ∃ n, queue family.scheme (listAt registry calls) n = [] := by
  have evolving := evolving_listAt registry calls
  constructor
  · intro notified
    have along : ∀ n, Keeps family registry calls n := by
      intro n
      induction n with
      | zero => exact keeps_zero family registry calls
      | succ n ih =>
          apply ih.succ
          by_contra unsparing
          obtain ⟨m, faulted⟩ := ih.faults unsparing
          rw [notified.safe m] at faulted
          cases faulted
    constructor
    · intro n
      by_contra unsparing
      obtain ⟨m, faulted⟩ := (along n).faults unsparing
      rw [notified.safe m] at faulted
      cases faulted
    · obtain ⟨n, finished⟩ := notified.ends
      exact ⟨n, (along n).over_iff.mp finished⟩
  · rintro ⟨spares, n, ended⟩
    have along : ∀ n, Keeps family registry calls n := by
      intro n
      induction n with
      | zero => exact keeps_zero family registry calls
      | succ n ih => exact ih.succ (spares n)
    constructor
    case ends => exact ⟨n, (along n).over_iff.mpr ended⟩
    case safe => exact fun n => (along n).safe
    case once =>
      intro n
      rw [(along n).called]
      exact (evolving.known_nodup family.scheme n).sublist (List.sublist_append_left _ _)
    case inOrder =>
      intro n
      rw [(along n).called]
      exact ((List.sublist_append_left _ _).filter _).trans (evolving.known_sublist family.scheme n)
    case complete =>
      intro n l start listed uncalled
      obtain ⟨k, less, isCurrent, stopped⟩ := (along n).current
      rw [isCurrent] at listed
      rw [(along n).called] at uncalled
      obtain ⟨next, rest, isQueue, turn⟩ := evolving.next_of_listed family.scheme k start listed
        fun before => uncalled (passed_subset less before)
      have isLast : k = n := by
        rcases Nat.lt_or_eq_of_le less with earlier | same
        · rw [stopped earlier] at isQueue
          cases isQueue
        · exact same
      subst isLast
      refine ⟨next, ?_, turn⟩
      rw [(along (k + 1)).called, (along k).called, passed, isQueue]
      rfl

/-- A loop over a copy ends in any case. -/
theorem notified_iff_spares {family : Family} (notConnman : family ≠ .connman) (registry : Registry)
    (calls : Nat → List ListenerCall) :
    Notified family registry calls ↔ ∀ n, ∀ l ∈ (queue .copied (listAt registry calls) n).tail,
      l ∈ listAt registry calls (n + 1) := by
  have scheme : family.scheme = .copied := by
    cases family with
    | connman => exact absurd rfl notConnman
    | bluez => rfl
    | ofono => rfl
  rw [notified_iff, scheme]
  exact and_iff_left ⟨_, copied_over (listAt registry calls)⟩

/-- An element with two listeners. -/
def twoListeners : Registry where
  listeners := [⟨0, 1, 0⟩, ⟨1, 2, 0⟩]
  created := 2
  fresh := by decide
  distinct := by decide

/-- The first callback deletes the second listener. -/
def deletesSecond (n : Nat) : List ListenerCall := if n = 0 then [.del 2 0] else []

/-- Neither loop stands the deletion of the listener after the one that is called. -/
theorem notified_fails_deletesSecond :
    ¬ Notified .connman twoListeners deletesSecond ∧ ¬ Notified .bluez twoListeners deletesSecond ∧
      ¬ Notified .ofono twoListeners deletesSecond := by
  refine ⟨?_, ?_, ?_⟩
  · intro notified
    exact absurd (notified.safe 1) (by decide)
  · intro notified
    exact absurd (notified.safe 2) (by decide)
  · intro notified
    exact absurd (notified.safe 2) (by decide)

/-- Every callback of two listeners adds another listener. -/
def addsForEver (_ : Nat) : List ListenerCall := [.add 3 0]

/-- In connman such a pass does not come to an end. -/
theorem addsForEver_endless (n : Nat) :
    1 < (queue .live (listAt twoListeners addsForEver) n).length := by
  have grows : ∀ n, listAt twoListeners addsForEver (n + 1) =
      listAt twoListeners addsForEver n ++ [⟨(registryAt twoListeners addsForEver n).created, 3, 0⟩] :=
    fun n => rfl
  induction n with
  | zero => decide
  | succ n ih =>
      cases isQueue : queue .live (listAt twoListeners addsForEver) n with
      | nil =>
          rw [isQueue] at ih
          exact absurd ih (by decide)
      | cons first rest =>
          rw [isQueue, List.length_cons] at ih
          have some : rest ≠ [] := by
            rintro rfl
            exact absurd ih (by decide)
          have kept : rest.filter (· ∈ listAt twoListeners addsForEver (n + 1)) = rest := by
            refine List.filter_eq_self.mpr fun l listed => decide_eq_true ?_
            have toCome : l ∈ queue .live (listAt twoListeners addsForEver) n := by
              rw [isQueue]
              exact .tail _ listed
            rw [grows]
            exact List.mem_append_left _ (queue_listed n toCome)
          have joined : (⟨(registryAt twoListeners addsForEver n).created, 3, 0⟩ : Listener) ∈
              (listAt twoListeners addsForEver (n + 1)).filter (· ∉ listAt twoListeners addsForEver n) := by
            refine List.mem_filter.mpr ⟨by rw [grows]; simp, decide_eq_true ?_⟩
            intro old
            exact absurd ((registryAt twoListeners addsForEver n).fresh _ old) (Nat.lt_irrefl _)
          rw [queue_cons n isQueue, upcoming_live some, kept, List.length_append]
          have positive := List.length_pos_of_mem joined
          omega

end EDBus.Elements
