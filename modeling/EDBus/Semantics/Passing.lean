import Mathlib.Data.List.Nodup

/-!
# A pass over a list that changes

`lists n` is a list before the `n`-th turn of a pass over it. Items leave it anywhere and join it at
its end, and what has left does not come back. A pass looks at one item in each turn. It follows the
list as it changes, or a copy of how it was.
-/

namespace Semantics.Passing

universe u
variable {Item : Type u} [DecidableEq Item]

/-- Whether a pass follows the list or a copy of it. -/
inductive Scheme where
  | live
  | copied
deriving DecidableEq, Repr

/-- Of the items that were to come, those that are still listed are. A pass over the list goes on to
what has joined it, unless it has looked at the last item. -/
def upcoming (scheme : Scheme) (before after rest : List Item) : List Item :=
  match scheme, rest with
  | .live, [] => []
  | .live, rest => rest.filter (· ∈ after) ++ after.filter (· ∉ before)
  | .copied, rest => rest.filter (· ∈ after)

variable (scheme : Scheme) (lists : Nat → List Item)

/-- The items to come before a turn. The turn looks at the first one. -/
def queue : Nat → List Item
  | 0 => lists 0
  | n + 1 => upcoming scheme (lists n) (lists (n + 1)) (queue n).tail

/-- The items that were looked at. -/
def passed : Nat → List Item
  | 0 => []
  | n + 1 => passed n ++ (queue scheme lists n).head?.toList

/-- The items that a pass has pointers to while it looks at the one before them. -/
def guarded (rest : List Item) : List Item :=
  match scheme with
  | .live => rest.head?.toList
  | .copied => rest

/-- No item that the pass has a pointer to leaves the list in the turn. -/
def Spares (n : Nat) : Prop :=
  ∀ item ∈ guarded scheme (queue scheme lists n).tail, item ∈ lists (n + 1)

/-- The list has no duplicates, loses items, gets others at its end, and has none again. -/
structure Evolving (lists : Nat → List Item) : Prop where
  nodup : ∀ n, (lists n).Nodup
  joins : ∀ n, ∃ kept added, lists (n + 1) = kept ++ added ∧ kept.Sublist (lists n) ∧
    ∀ item ∈ added, item ∉ lists n
  returns : ∀ m n item, m ≤ n → item ∈ lists m → item ∈ lists (n + 1) → item ∈ lists n

variable {scheme lists}

@[simp] theorem upcoming_nil (before after : List Item) : upcoming scheme before after [] = [] := by
  cases scheme <;> rfl

theorem upcoming_live {before after rest : List Item} (some : rest ≠ []) :
    upcoming .live before after rest = rest.filter (· ∈ after) ++ after.filter (· ∉ before) := by
  cases rest with
  | nil => exact absurd rfl some
  | cons item rest => rfl

theorem mem_upcoming {before after rest : List Item} {item : Item}
    (listed : item ∈ upcoming scheme before after rest) :
    item ∈ after ∧ (item ∈ rest ∨ item ∉ before) := by
  cases scheme with
  | copied =>
      obtain ⟨inRest, inAfter⟩ := List.mem_filter.mp listed
      exact ⟨of_decide_eq_true inAfter, Or.inl inRest⟩
  | live =>
      by_cases none : rest = []
      · subst none
        cases listed
      · rw [upcoming_live none, List.mem_append, List.mem_filter, List.mem_filter, decide_eq_true_eq,
          decide_eq_true_eq] at listed
        rcases listed with ⟨inRest, inAfter⟩ | ⟨inAfter, isNew⟩
        · exact ⟨inAfter, Or.inl inRest⟩
        · exact ⟨inAfter, Or.inr isNew⟩

/-- What is still listed is still to come. -/
theorem mem_upcoming_of_rest {before after rest : List Item} {item : Item} (inRest : item ∈ rest)
    (inAfter : item ∈ after) : item ∈ upcoming scheme before after rest := by
  have kept : item ∈ rest.filter (· ∈ after) := List.mem_filter.mpr ⟨inRest, decide_eq_true inAfter⟩
  cases scheme with
  | copied => exact kept
  | live =>
      rw [upcoming_live (List.ne_nil_of_mem inRest)]
      exact List.mem_append_left _ kept

/-- Only listed items are to come. -/
theorem queue_listed (n : Nat) {item : Item} (toCome : item ∈ queue scheme lists n) :
    item ∈ lists n := by
  cases n with
  | zero => exact toCome
  | succ n => exact (mem_upcoming toCome).1

theorem queue_cons (n : Nat) {item : Item} {rest : List Item}
    (isQueue : queue scheme lists n = item :: rest) :
    queue scheme lists (n + 1) = upcoming scheme (lists n) (lists (n + 1)) rest := by
  rw [queue, isQueue, List.tail_cons]

theorem queue_nil (n : Nat) (finished : queue scheme lists n = []) : queue scheme lists (n + 1) = [] := by
  rw [queue, finished, List.tail_nil, upcoming_nil]

/-- A pass that is finished stays so. -/
theorem queue_over {m n : Nat} (less : m ≤ n) (finished : queue scheme lists m = []) :
    queue scheme lists n = [] := by
  induction less with
  | refl => exact finished
  | @step n less ih => exact queue_nil n ih

theorem passed_subset {m n : Nat} (less : m ≤ n) : passed scheme lists m ⊆ passed scheme lists n := by
  induction less with
  | refl => exact List.Subset.refl _
  | @step n less ih => exact fun item listed => List.subset_append_left _ _ (ih listed)

/-- A copy comes to its end. -/
theorem copied_over (lists : Nat → List Item) : queue .copied lists (lists 0).length = [] := by
  have shrinks : ∀ n, (queue .copied lists n).length ≤ (lists 0).length - n := by
    intro n
    induction n with
    | zero => exact Nat.le_refl _
    | succ n ih =>
        have filtered : (queue .copied lists (n + 1)).length ≤ (queue .copied lists n).tail.length :=
          List.length_filter_le _ _
        rw [List.length_tail] at filtered
        omega
  apply List.eq_nil_of_length_eq_zero
  have short := shrinks (lists 0).length
  omega

/-- What was looked at or is to come has been listed. -/
theorem seen (n : Nat) {item : Item}
    (known : item ∈ passed scheme lists n ++ queue scheme lists n) : ∃ m ≤ n, item ∈ lists m := by
  induction n with
  | zero => exact ⟨0, Nat.le_refl _, by simpa [passed, queue] using known⟩
  | succ n ih =>
      rcases List.mem_append.mp known with before | toCome
      · rw [passed, List.mem_append] at before
        have earlier : item ∈ passed scheme lists n ++ queue scheme lists n := by
          rcases before with passed | isHead
          · exact List.mem_append_left _ passed
          · rw [Option.mem_toList] at isHead
            exact List.mem_append_right _ (List.mem_of_mem_head? isHead)
        obtain ⟨m, less, listed⟩ := ih earlier
        exact ⟨m, Nat.le_succ_of_le less, listed⟩
      · exact ⟨n + 1, Nat.le_refl _, queue_listed (n + 1) toCome⟩

/-- A sublist is what it keeps. -/
theorem filter_mem_sublist {kept before : List Item} (distinct : before.Nodup) (sub : kept.Sublist before) :
    before.filter (· ∈ kept) = kept := by
  induction sub with
  | slnil => rfl
  | @cons kept before item sub ih =>
      have absent : item ∉ kept := fun listed => (List.nodup_cons.mp distinct).1 (sub.subset listed)
      rw [List.filter_cons_of_neg (by simpa using absent)]
      exact ih (List.nodup_cons.mp distinct).2
  | @cons_cons kept before item sub ih =>
      have absent : item ∉ before := (List.nodup_cons.mp distinct).1
      rw [List.filter_cons_of_pos (by simp)]
      refine congrArg (item :: ·) (Eq.trans (List.filter_congr ?_) (ih (List.nodup_cons.mp distinct).2))
      intro other listed
      have differs : other ≠ item := fun same => absent (same ▸ listed)
      simp [differs]

namespace Evolving

variable (evolving : Evolving lists)
include evolving

/-- The items that stay are followed by those that join. -/
theorem split (n : Nat) : lists (n + 1) =
    (lists n).filter (· ∈ lists (n + 1)) ++ (lists (n + 1)).filter (· ∉ lists n) := by
  obtain ⟨kept, added, isNext, sub, isNew⟩ := evolving.joins n
  have stays : (lists n).filter (· ∈ lists (n + 1)) = kept := by
    refine Eq.trans (List.filter_congr ?_) (filter_mem_sublist (evolving.nodup n) sub)
    intro item listed
    have old : item ∉ added := fun joined => isNew item joined listed
    simp [isNext, old]
  have joined : (lists (n + 1)).filter (· ∉ lists n) = added := by
    have none : kept.filter (· ∉ lists n) = [] := by
      rw [List.filter_eq_nil_iff]
      intro item listed
      simpa using sub.subset listed
    have all : added.filter (· ∉ lists n) = added := by
      rw [List.filter_eq_self]
      exact fun item listed => decide_eq_true (isNew item listed)
    rw [isNext, List.filter_append, none, all, List.nil_append]
  rw [stays, joined]
  exact isNext

/-- A pass over the list is at some place in it. -/
theorem queue_suffix (n : Nat) : queue .live lists n <:+ lists n := by
  induction n with
  | zero => exact List.suffix_refl _
  | succ n ih =>
      obtain ⟨front, place⟩ := ih
      cases isQueue : queue .live lists n with
      | nil =>
          rw [queue_nil n isQueue]
          exact List.nil_suffix
      | cons item rest =>
          rw [queue_cons n isQueue]
          by_cases none : rest = []
          · subst none
            exact List.nil_suffix
          · refine ⟨(front ++ [item]).filter (· ∈ lists (n + 1)), ?_⟩
            have apart : lists n = (front ++ [item]) ++ rest := by
              rw [← place, isQueue, List.append_assoc]
              rfl
            rw [upcoming_live none, ← List.append_assoc, ← List.filter_append, ← apart]
            exact (evolving.split n).symm

/-- What is known stays in its order. What is new was never known. -/
theorem known_succ (scheme : Scheme) (n : Nat) : ∃ added : List Item,
    (passed scheme lists (n + 1) ++ queue scheme lists (n + 1)).Sublist
      (passed scheme lists n ++ queue scheme lists n ++ added) ∧
    (∀ item ∈ added, item ∈ lists (n + 1) ∧ item ∉ lists n) ∧ added.Nodup := by
  cases isQueue : queue scheme lists n with
  | nil =>
      refine ⟨[], ?_, by simp, List.nodup_nil⟩
      rw [queue_nil n isQueue, passed, isQueue]
      simp
  | cons item rest =>
      have toCome : ∃ added : List Item,
          (upcoming scheme (lists n) (lists (n + 1)) rest).Sublist (rest ++ added) ∧
          (∀ item ∈ added, item ∈ lists (n + 1) ∧ item ∉ lists n) ∧ added.Nodup := by
        cases scheme with
        | copied =>
            refine ⟨[], ?_, by simp, List.nodup_nil⟩
            rw [List.append_nil]
            exact List.filter_sublist
        | live =>
            by_cases none : rest = []
            · subst none
              exact ⟨[], List.nil_sublist _, by simp, List.nodup_nil⟩
            · refine ⟨(lists (n + 1)).filter (· ∉ lists n), ?_, ?_, (evolving.nodup (n + 1)).filter _⟩
              · rw [upcoming_live none]
                exact List.filter_sublist.append (List.Sublist.refl _)
              · intro item isNew
                simpa using isNew
      obtain ⟨added, sub, isNew, distinct⟩ := toCome
      refine ⟨added, ?_, isNew, distinct⟩
      rw [queue_cons n isQueue, passed, isQueue, List.head?_cons, Option.toList_some,
        List.append_assoc, List.append_assoc]
      exact (List.Sublist.refl _).append (sub.cons_cons item)

/-- No item is looked at twice. -/
theorem known_nodup (scheme : Scheme) (n : Nat) : (passed scheme lists n ++ queue scheme lists n).Nodup := by
  induction n with
  | zero => exact evolving.nodup 0
  | succ n ih =>
      obtain ⟨added, sub, isNew, distinct⟩ := evolving.known_succ scheme n
      refine sub.nodup (List.nodup_append'.mpr ⟨ih, distinct, ?_⟩)
      intro item known joined
      obtain ⟨m, less, listed⟩ := seen n known
      exact (isNew item joined).2 (evolving.returns m n item less listed (isNew item joined).1)

/-- The items listed at the start are looked at in their order. -/
theorem known_sublist (scheme : Scheme) (n : Nat) :
    ((passed scheme lists n ++ queue scheme lists n).filter (· ∈ lists 0)).Sublist (lists 0) := by
  induction n with
  | zero => exact List.filter_sublist
  | succ n ih =>
      obtain ⟨added, sub, isNew, -⟩ := evolving.known_succ scheme n
      have young : added.filter (· ∈ lists 0) = [] := by
        rw [List.filter_eq_nil_iff]
        intro item joined old
        exact (isNew item joined).2 (evolving.returns 0 n item (Nat.zero_le n)
          (of_decide_eq_true old) (isNew item joined).1)
      have filtered := sub.filter (· ∈ lists 0)
      rw [List.filter_append (passed scheme lists n ++ queue scheme lists n) added, young,
        List.append_nil] at filtered
      exact filtered.trans ih

/-- An item listed at the start has been looked at, is to come, or has left. -/
theorem accounted (scheme : Scheme) (n : Nat) {item : Item} (listed : item ∈ lists 0) :
    item ∈ passed scheme lists n ∨ item ∈ queue scheme lists n ∨ item ∉ lists n := by
  induction n with
  | zero => exact Or.inr (Or.inl listed)
  | succ n ih =>
      rcases ih with before | toCome | gone
      · exact Or.inl (List.mem_append_left _ before)
      · cases isQueue : queue scheme lists n with
        | nil =>
            rw [isQueue] at toCome
            cases toCome
        | cons first rest =>
            rw [isQueue] at toCome
            rcases List.mem_cons.mp toCome with isFirst | inRest
            · refine Or.inl (List.mem_append_right _ ?_)
              rw [isQueue, isFirst]
              exact List.mem_singleton_self first
            · by_cases stays : item ∈ lists (n + 1)
              · refine Or.inr (Or.inl ?_)
                rw [queue_cons n isQueue]
                exact mem_upcoming_of_rest inRest stays
              · exact Or.inr (Or.inr stays)
      · exact Or.inr (Or.inr fun back => gone (evolving.returns 0 n item (Nat.zero_le n) listed back))

/-- The items listed at the start come before those that joined. -/
theorem queue_starts (scheme : Scheme) (n : Nat) : ∃ old young : List Item,
    queue scheme lists n = old ++ young ∧ old.Sublist (lists 0) ∧ ∀ item ∈ young, item ∉ lists 0 := by
  induction n with
  | zero => exact ⟨lists 0, [], (List.append_nil _).symm, List.Sublist.refl _, by simp⟩
  | succ n ih =>
      obtain ⟨old, young, isQueue, sub, joined⟩ := ih
      have stays : ∃ old young : List Item, (queue scheme lists n).tail = old ++ young ∧
          old.Sublist (lists 0) ∧ ∀ item ∈ young, item ∉ lists 0 := by
        rw [isQueue]
        cases old with
        | nil => exact ⟨[], young.tail, rfl, List.nil_sublist _, fun item listed =>
            joined item (List.mem_of_mem_tail listed)⟩
        | cons first old => exact ⟨old, young, rfl, (List.sublist_cons_self first old).trans sub, joined⟩
      obtain ⟨old, young, isRest, sub, joined⟩ := stays
      have kept : (old.filter (· ∈ lists (n + 1))).Sublist (lists 0) := List.filter_sublist.trans sub
      have stillYoung : ∀ item ∈ young.filter (· ∈ lists (n + 1)), item ∉ lists 0 :=
        fun item listed => joined item (List.mem_of_mem_filter listed)
      cases scheme with
      | copied => exact ⟨_, _, by rw [queue, isRest, upcoming, List.filter_append], kept, stillYoung⟩
      | live =>
          by_cases last : (queue .live lists n).tail = []
          · exact ⟨[], [], by rw [queue, last, upcoming_nil]; rfl, List.nil_sublist _, by simp⟩
          · refine ⟨_, young.filter (· ∈ lists (n + 1)) ++ (lists (n + 1)).filter (· ∉ lists n), ?_, kept, ?_⟩
            · rw [queue, upcoming_live last, isRest, List.filter_append, List.append_assoc]
            · intro item listed
              rcases List.mem_append.mp listed with wasYoung | isNew
              · exact stillYoung item wasYoung
              · obtain ⟨inNext, notBefore⟩ := List.mem_filter.mp isNew
                exact fun start => of_decide_eq_true notBefore
                  (evolving.returns 0 n item (Nat.zero_le n) start inNext)

/-- The turn of an item that is still listed is not over: the pass looks at it next, or at one that was
in front of it. -/
theorem next_of_listed (scheme : Scheme) (n : Nat) {item : Item} (start : item ∈ lists 0)
    (listed : item ∈ lists n) (unseen : item ∉ passed scheme lists n) :
    ∃ next rest, queue scheme lists n = next :: rest ∧ (next = item ∨ [next, item].Sublist (lists 0)) := by
  have toCome : item ∈ queue scheme lists n :=
    ((evolving.accounted scheme n start).resolve_left unseen).resolve_right (not_not_intro listed)
  obtain ⟨old, young, isQueue, sub, joined⟩ := evolving.queue_starts scheme n
  rw [isQueue] at toCome ⊢
  have isOld : item ∈ old :=
    (List.mem_append.mp toCome).resolve_right fun isYoung => joined item isYoung start
  cases old with
  | nil => cases isOld
  | cons next old =>
      refine ⟨next, old ++ young, rfl, ?_⟩
      rcases List.mem_cons.mp isOld with isNext | behind
      · exact Or.inl isNext.symm
      · exact Or.inr (((List.singleton_sublist.mpr behind).cons_cons next).trans sub)

omit [DecidableEq Item] in
/-- What has left stays away. -/
theorem gone {m n : Nat} (less : m ≤ n) {item : Item} {earlier : Nat} (before : earlier ≤ m)
    (listed : item ∈ lists earlier) (left : item ∉ lists m) : item ∉ lists n := by
  induction less with
  | refl => exact left
  | @step n less ih =>
      exact fun back => ih (evolving.returns earlier n item (Nat.le_trans before less) listed back)

end Evolving
end Semantics.Passing
