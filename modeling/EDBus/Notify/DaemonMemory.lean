import EDBus.Notify.DaemonData
import EDBus.Notify.HintTypes

/-!
# References of the notification daemon program

`held` lists who holds notifications: the open ones, the history and the timers. Every function is described
by what it leaves, `Shown` and `Closed`, with the counts of references that belong to it.
-/

open EDBus.Semantics
open Semantics

namespace EDBus.Notify.DaemonData

/-- The notification of each timer. -/
def timed (d : DaemonData) : List NoteId := d.timers.map TimerData.n

/-- Who holds notifications. -/
def held (d : DaemonData) : Multiset NoteId := ↑d.openNotes + ↑d.history + ↑d.timed

variable {d later : DaemonData} {n other : NoteId}

/-- An element of a list comes before the others. -/
theorem coe_eq_cons_erase {Item : Type} [DecidableEq Item] {items : List Item} {item : Item} (listed : item ∈ items) :
    (items : Multiset Item) = item ::ₘ ↑(items.erase item) :=
  Multiset.coe_eq_coe.mpr (List.perm_cons_erase listed)

theorem coe_append_singleton {Item : Type} (items : List Item) (item : Item) :
    (↑(items ++ [item]) : Multiset Item) = item ::ₘ ↑items :=
  Multiset.coe_eq_coe.mpr (List.perm_append_singleton item items)

theorem mem_held : n ∈ d.held ↔ n ∈ d.openNotes ∨ n ∈ d.history ∨ n ∈ d.timed := by
  simp only [held, Multiset.mem_add, Multiset.mem_coe, or_assoc]

/-- Every list and every timer has its own references, no list has a notification twice, an open
notification has a timer, and before the program quits exactly the open ones are not marked as closed. -/
structure Sound (d : DaemonData) : Prop where
  balanced : d.notes.Balanced d.held
  openNotes : d.openNotes.Nodup
  history : d.history.Nodup
  timed : d.timed.Nodup
  openTimed : ∀ n ∈ d.openNotes, n ∈ d.timed
  flags : d.running = true → ∀ n note, d.notes.value n = some note → (note.closedGet = 0 ↔ n ∈ d.openNotes)

/-! ## Closing -/

/-- An open notification was closed for a reason, while somebody else holds it. -/
structure Closed (d : DaemonData) (n : NoteId) (reason : ClosedReason) (note : Note) (later : DaemonData) : Prop where
  openNotes : later.openNotes = d.openNotes.erase n
  history : later.history = d.history
  timers : later.timers = d.timers
  sent : later.sent = d.sent ++ [marshalNotificationClosedSignal note.idGet reason.code]
  historyStart : later.historyStart = d.historyStart
  same : later.nextId = d.nextId ∧ later.maxHistoryLength = d.maxHistoryLength ∧ later.running = d.running
  balanced : later.notes.Balanced later.held
  here : later.notes.value n = some (note.closedSet 1)
  elsewhere : ∀ other ∈ later.held, other ≠ n → later.notes.value other = d.notes.value other

/-- Closing takes an open notification off the list. -/
theorem daemonNoteClose_closed (sound : d.Sound) (isOpen : n ∈ d.openNotes) (reason : ClosedReason) :
    ∃ note, d.notes.value n = some note ∧ Closed d n reason note (d.daemonNoteClose n reason) := by
  have isHeld : n ∈ d.held := mem_held.mpr (.inl isOpen)
  obtain ⟨note, found⟩ := sound.balanced.value isHeld
  refine ⟨note, found, ?_⟩
  have modified := sound.balanced.modify isHeld fun note => note.closedSet 1
  have split : d.held = n ::ₘ (↑(d.openNotes.erase n) + ↑d.history + ↑d.timed) := by
    rw [held, coe_eq_cons_erase isOpen, Multiset.cons_add, Multiset.cons_add]
  have still : n ∈ (↑(d.openNotes.erase n) + ↑d.history + ↑d.timed : Multiset NoteId) :=
    Multiset.mem_add.mpr (.inr (Multiset.mem_coe.mpr (sound.openTimed n isOpen)))
  have counted := modified.congr split
  have isClosed : d.daemonNoteClose n reason =
      { d with
        openNotes := d.openNotes.erase n
        notes := (d.notes.modify n fun note => note.closedSet 1).unref n
        sent := d.sent ++ [marshalNotificationClosedSignal note.idGet reason.code] } := by
    simp only [daemonNoteClose, found, if_pos isOpen, signalNotificationClosed]
  rw [isClosed]
  exact
    { openNotes := rfl
      history := rfl
      timers := rfl
      sent := rfl
      historyStart := rfl
      same := ⟨rfl, rfl, rfl⟩
      balanced := counted.unref
      here := by
        change ((d.notes.modify n fun note => note.closedSet 1).unref n).value n = _
        rw [counted.value_unref still, Shared.value_modify, if_pos rfl, found, Option.map_some]
      elsewhere := fun other stillHeld differs => by
        change ((d.notes.modify n fun note => note.closedSet 1).unref n).value other = _
        rw [counted.value_unref stillHeld, Shared.value_modify, if_neg differs] }

theorem daemonNoteClose_of_not_open (sound : d.Sound) (isHeld : n ∈ d.held) (notOpen : n ∉ d.openNotes)
    (reason : ClosedReason) : d.daemonNoteClose n reason = d := by
  obtain ⟨note, found⟩ := sound.balanced.value isHeld
  simp only [daemonNoteClose, found, if_neg notOpen]

theorem Closed.sound {reason : ClosedReason} {note : Note} (closed : Closed d n reason note later)
    (sound : d.Sound) : later.Sound where
  balanced := closed.balanced
  openNotes := closed.openNotes ▸ sound.openNotes.erase n
  history := closed.history ▸ sound.history
  timed := by
    rw [timed, closed.timers]
    exact sound.timed
  openTimed other isOpen := by
    rw [timed, closed.timers]
    rw [closed.openNotes] at isOpen
    exact sound.openTimed other (List.mem_of_mem_erase isOpen)
  flags running other found isThere := by
    rw [closed.openNotes]
    have before := sound.flags (closed.same.2.2 ▸ running)
    by_cases same : other = n
    · subst same
      obtain rfl := Option.some.inj (closed.here.symm.trans isThere)
      have marked : (note.closedSet 1).closedGet ≠ 0 := by simp [Note.closedGet, Note.closedSet]
      exact iff_of_false marked sound.openNotes.not_mem_erase
    · have stillHeld := closed.balanced.held_of_value isThere
      rw [closed.elsewhere other stillHeld same] at isThere
      rw [before other found isThere, List.mem_erase_of_ne same]

/-! ## Timers -/

/-- A timer was taken off. Its notification is not open any more. -/
structure TimerGone (d : DaemonData) (td : TimerData) (later : DaemonData) : Prop where
  timers : later.timers = d.timers.erase td
  history : later.history = d.history
  openNotes : later.openNotes = d.openNotes
  sent : later.sent = d.sent
  historyStart : later.historyStart = d.historyStart
  same : later.nextId = d.nextId ∧ later.maxHistoryLength = d.maxHistoryLength ∧ later.running = d.running
  sound : later.Sound
  values : ∀ other ∈ later.held, later.notes.value other = d.notes.value other

theorem timed_erase {td : TimerData} (live : td ∈ d.timers) :
    (↑d.timed : Multiset NoteId) = td.n ::ₘ ↑((d.timers.erase td).map TimerData.n) := by
  rw [timed, ← Multiset.map_coe, coe_eq_cons_erase live, Multiset.map_cons, Multiset.map_coe]

/-- The reference of a timer for a notification that is closed goes with the timer. -/
theorem timerGone (sound : d.Sound) {td : TimerData} (live : td ∈ d.timers) (notOpen : td.n ∉ d.openNotes) :
    TimerGone d td { d with notes := d.notes.unref td.n, timers := d.timers.erase td } := by
  have split : d.held = td.n ::ₘ (↑d.openNotes + ↑d.history + ↑((d.timers.erase td).map TimerData.n)) := by
    rw [held, timed_erase live, Multiset.add_cons]
  have counted := sound.balanced.congr split
  have distinct : (td.n :: (d.timers.erase td).map TimerData.n).Nodup := by
    apply (List.Perm.nodup_iff _).mp sound.timed
    exact Multiset.coe_eq_coe.mp (timed_erase live)
  exact
    { timers := rfl
      history := rfl
      openNotes := rfl
      sent := rfl
      historyStart := rfl
      same := ⟨rfl, rfl, rfl⟩
      sound :=
        { balanced := counted.unref
          openNotes := sound.openNotes
          history := sound.history
          timed := (List.nodup_cons.mp distinct).2
          openTimed := fun other isOpen => by
            have before := Multiset.mem_coe.mpr (sound.openTimed other isOpen)
            rw [timed_erase live, Multiset.mem_cons] at before
            rcases before with rfl | elsewhere
            · exact absurd isOpen notOpen
            · exact Multiset.mem_coe.mp elsewhere
          flags := fun running other found isThere => by
            rw [counted.value_unref (counted.unref.held_of_value isThere)] at isThere
            exact sound.flags running other found isThere }
      values := fun other stillHeld => counted.value_unref stillHeld }

/-- What a timer does: its notification is closed if it was open, and the timer goes. -/
theorem cbNoteCloseTimer_spec (sound : d.Sound) (running : d.running = true) {td : TimerData}
    (live : td ∈ d.timers) :
    (td.n ∈ d.openNotes ∧ ∃ note middle, d.notes.value td.n = some note ∧ Closed d td.n .expired note middle ∧
      TimerGone middle td (d.cbNoteCloseTimer td)) ∨
    (td.n ∉ d.openNotes ∧ TimerGone d td (d.cbNoteCloseTimer td)) := by
  have isHeld : td.n ∈ d.held := mem_held.mpr (.inr (.inr (List.mem_map.mpr ⟨td, live, rfl⟩)))
  obtain ⟨note, found⟩ := sound.balanced.value isHeld
  by_cases isOpen : td.n ∈ d.openNotes
  · left
    obtain ⟨_, sameNote, closed⟩ := daemonNoteClose_closed sound isOpen .expired
    obtain rfl := Option.some.inj (found.symm.trans sameNote)
    refine ⟨isOpen, note, _, found, closed, ?_⟩
    have gone : td.n ∉ (d.daemonNoteClose td.n .expired).openNotes := by
      rw [closed.openNotes]
      exact sound.openNotes.not_mem_erase
    simp only [cbNoteCloseTimer, found, if_pos ((sound.flags running _ _ found).mpr isOpen)]
    exact timerGone (closed.sound sound) (closed.timers ▸ live) gone
  · right
    refine ⟨isOpen, ?_⟩
    have isClosed : note.closedGet ≠ 0 := fun zero => isOpen ((sound.flags running _ _ found).mp zero)
    simp only [cbNoteCloseTimer, found, if_neg isClosed]
    exact timerGone sound live isOpen

/-! ## Showing -/

/-- The history is too long for the next notification. -/
def overlong (d : DaemonData) : Prop := d.maxHistoryLength < d.history.length

instance (d : DaemonData) : Decidable d.overlong := inferInstanceAs (Decidable (_ < _))

/-- The oldest notification was taken off a history that is too long, while some are held by others. -/
structure Adjusted (d : DaemonData) (others : Multiset NoteId) (later : DaemonData) : Prop where
  history : later.history = if d.overlong then d.history.tail else d.history
  dropped : d.overlong → ∀ old rest note, d.history = old :: rest → d.notes.value old = some note →
    later.historyStart = note.idGet + 1
  kept : ¬ d.overlong → later.historyStart = d.historyStart
  openNotes : later.openNotes = d.openNotes
  timers : later.timers = d.timers
  sent : later.sent = d.sent
  same : later.nextId = d.nextId ∧ later.maxHistoryLength = d.maxHistoryLength ∧ later.running = d.running
  balanced : later.notes.Balanced (later.held + others)
  values : ∀ other ∈ later.held + others, later.notes.value other = d.notes.value other

theorem adjustHistory_adjusted {others : Multiset NoteId} (balanced : d.notes.Balanced (d.held + others))
    (nonempty : d.history ≠ []) : Adjusted d others d.adjustHistory := by
  unfold adjustHistory
  by_cases isOver : d.overlong
  · obtain ⟨old, rest, listed⟩ := List.exists_cons_of_ne_nil nonempty
    have split : d.held + others = old ::ₘ ((↑d.openNotes + ↑rest + ↑d.timed) + others) := by
      rw [held, listed, ← Multiset.cons_coe, Multiset.add_cons, Multiset.cons_add, Multiset.cons_add]
    have counted := balanced.congr split
    obtain ⟨note, found⟩ := counted.value (Multiset.mem_cons_self old _)
    have isLong : d.maxHistoryLength < ((old :: rest).length : Int) := listed ▸ isOver
    simp only [listed, if_pos isLong, found]
    exact
      { history := by rw [if_pos isOver, listed, List.tail_cons]
        dropped := fun _ other more value isListed isThere => by
          obtain ⟨rfl, -⟩ := List.cons.inj (listed.symm.trans isListed)
          obtain rfl := Option.some.inj (found.symm.trans isThere)
          rfl
        kept := fun fits => absurd isOver fits
        openNotes := rfl
        timers := rfl
        sent := rfl
        same := ⟨rfl, rfl, rfl⟩
        balanced := counted.unref
        values := fun other isHeld => counted.value_unref isHeld }
  · have fits : ¬ d.maxHistoryLength < (d.history.length : Int) := isOver
    rw [if_neg fits]
    exact
      { history := by rw [if_neg isOver]
        dropped := fun isLong => absurd isLong isOver
        kept := fun _ => rfl
        openNotes := rfl
        timers := rfl
        sent := rfl
        same := ⟨rfl, rfl, rfl⟩
        balanced := balanced
        values := fun _ _ => rfl }

/-- A notification was put on both lists and got a timer, while its maker holds it. -/
structure Shown (d : DaemonData) (n : NoteId) (later : DaemonData) : Prop where
  openNotes : later.openNotes = d.openNotes ++ [n]
  history : later.history =
    if d.maxHistoryLength < d.history.length + 1 then (d.history ++ [n]).tail else d.history ++ [n]
  dropped : d.maxHistoryLength < d.history.length + 1 → ∀ old rest note, d.history ++ [n] = old :: rest →
    d.notes.value old = some note → later.historyStart = note.idGet + 1
  kept : ¬ d.maxHistoryLength < d.history.length + 1 → later.historyStart = d.historyStart
  timers : ∃ interval, later.timers = d.timers ++ [⟨n, interval⟩]
  sent : later.sent = d.sent
  same : later.nextId = d.nextId ∧ later.maxHistoryLength = d.maxHistoryLength ∧ later.running = d.running
  balanced : later.notes.Balanced (n ::ₘ later.held)
  values : ∀ other ∈ later.held, later.notes.value other = d.notes.value other

/-- A timer holds its notification. -/
theorem held_timer_added (d : DaemonData) (notes : Shared NoteId Note) (td : TimerData) :
    { d with notes := notes, timers := d.timers ++ [td] }.held = td.n ::ₘ d.held := by
  simp only [held, timed, List.map_append, List.map_cons, List.map_nil]
  rw [coe_append_singleton, Multiset.add_cons]

theorem daemonNoteShow_shown (balanced : d.notes.Balanced (n ::ₘ d.held)) : Shown d n (d.daemonNoteShow n) := by
  have isHeld : n ∈ n ::ₘ d.held := Multiset.mem_cons_self n _
  let listed : DaemonData := { d with
    notes := (d.notes.ref n).ref n
    openNotes := d.openNotes ++ [n]
    history := d.history ++ [n] }
  have twice := (balanced.ref isHeld).ref (Multiset.mem_cons_of_mem isHeld)
  have counted : listed.notes.Balanced (listed.held + {n}) := by
    refine twice.congr ?_
    change _ = (↑(d.openNotes ++ [n]) + ↑(d.history ++ [n]) + ↑d.timed : Multiset NoteId) + {n}
    rw [coe_append_singleton, coe_append_singleton, Multiset.add_comm _ {n}, Multiset.singleton_add, Multiset.cons_add,
      Multiset.add_cons, Multiset.cons_add, Multiset.cons_add, held]
  have unchanged : ∀ other, listed.notes.value other = d.notes.value other := by
    intro other
    rw [Shared.value_ref, Shared.value_ref]
  have adjusted := adjustHistory_adjusted counted (List.append_ne_nil_of_right_ne_nil _ (List.cons_ne_nil n []))
  have stillHeld : n ∈ listed.adjustHistory.held + {n} :=
    Multiset.mem_add.mpr (.inr (Multiset.mem_singleton_self n))
  obtain ⟨note, found⟩ := adjusted.balanced.value stillHeld
  have isOver : listed.overlong ↔ d.maxHistoryLength < d.history.length + 1 := by
    simp only [overlong, listed, List.length_append, List.length_singleton]
    exact Iff.rfl
  have isShown : d.daemonNoteShow n =
      { listed.adjustHistory with
        notes := listed.adjustHistory.notes.ref n
        timers := listed.adjustHistory.timers ++ [⟨n, listed.adjustHistory.timerInterval note.timeoutGet⟩] } := by
    simp only [daemonNoteShow]
    rw [found]
  rw [isShown]
  exact
    { openNotes := adjusted.openNotes
      history := by rw [adjusted.history]; simp only [isOver, listed]
      dropped := fun isLong old rest note isListed isThere =>
        adjusted.dropped (isOver.mpr isLong) old rest note isListed ((unchanged old).trans isThere)
      kept := fun fits => adjusted.kept fun isLong => fits (isOver.mp isLong)
      timers := ⟨_, congrArg (· ++ _) adjusted.timers⟩
      sent := adjusted.sent
      same := adjusted.same
      balanced := by
        rw [held_timer_added]
        refine (adjusted.balanced.ref stillHeld).congr ?_
        rw [Multiset.add_comm _ {n}, Multiset.singleton_add]
      values := fun other isThere => by
        rw [held_timer_added, ← Multiset.singleton_add, Multiset.add_comm] at isThere
        rw [Shared.value_ref, adjusted.values other isThere, unchanged] }

/-- A notification that was made for a message is shown with the next id. -/
structure Notified (d : DaemonData) (n : NoteId) (content : Notification) (later : DaemonData) : Prop where
  openNotes : later.openNotes = d.openNotes ++ [n]
  history : later.history =
    if d.maxHistoryLength < d.history.length + 1 then (d.history ++ [n]).tail else d.history ++ [n]
  dropped : d.maxHistoryLength < d.history.length + 1 → ∀ old rest note, d.history = old :: rest →
    d.notes.value old = some note → later.historyStart = note.idGet + 1
  kept : ¬ d.maxHistoryLength < d.history.length + 1 → later.historyStart = d.historyStart
  timers : ∃ interval, later.timers = d.timers ++ [⟨n, interval⟩]
  sent : later.sent = d.sent
  same : later.nextId = d.nextId + 1 ∧ later.maxHistoryLength = d.maxHistoryLength ∧ later.running = d.running
  balanced : later.notes.Balanced later.held
  here : later.notes.value n = some ⟨content, UInt32.ofNat d.nextId, 0⟩
  elsewhere : ∀ other ∈ later.held, other ≠ n → later.notes.value other = d.notes.value other

theorem cbNotify_notified (balanced : d.notes.Balanced d.held) (fresh : d.notes.objects n = none)
    (content : Notification) (inRange : d.nextId ≠ intMax) :
    ∃ shown, { d with notes := d.notes.create n ⟨content, 0, 0⟩ }.cbNotify n =
        some (shown, UInt32.ofNat d.nextId) ∧
      Notified d n content { shown with notes := shown.notes.unref n } := by
  have absent : n ∉ d.held := by
    rw [← balanced.objects_isSome_iff, fresh]
    simp
  have made := balanced.create fresh ⟨content, 0, 0⟩
  let named : DaemonData := { d with
    nextId := d.nextId + 1
    notes := (d.notes.create n ⟨content, 0, 0⟩).modify n fun note => note.idSet (UInt32.ofNat d.nextId) }
  have counted : named.notes.Balanced (n ::ₘ named.held) :=
    made.modify (Multiset.mem_cons_self n d.held) fun note => note.idSet (UInt32.ofNat d.nextId)
  have shown := daemonNoteShow_shown counted
  refine ⟨named.daemonNoteShow n, by simp only [cbNotify, if_neg inRange]; rfl, ?_⟩
  have isHeld : n ∈ (named.daemonNoteShow n).held := mem_held.mpr (.inl (by simp [shown.openNotes]))
  have others : ∀ other, other ≠ n → named.notes.value other = d.notes.value other := by
    intro other differs
    change ((d.notes.create n ⟨content, 0, 0⟩).modify n _).value other = _
    rw [Shared.value_modify, if_neg differs, Shared.value_create, if_neg differs]
  exact
    { openNotes := shown.openNotes
      history := shown.history
      dropped := fun isLong old rest note listed found => by
        have differs : old ≠ n := by
          rintro rfl
          exact absent (mem_held.mpr (.inr (.inl (listed ▸ List.mem_cons_self))))
        exact shown.dropped isLong old (rest ++ [n]) note (congrArg (· ++ [n]) listed)
          ((others old differs).trans found)
      kept := shown.kept
      timers := shown.timers
      sent := shown.sent
      same := shown.same
      balanced := shown.balanced.unref
      here := by
        rw [shown.balanced.value_unref isHeld, shown.values n isHeld]
        change ((d.notes.create n ⟨content, 0, 0⟩).modify n _).value n = _
        rw [Shared.value_modify, if_pos rfl, Shared.value_create, if_pos rfl]
        rfl
      elsewhere := fun other stillHeld differs => by
        rw [shown.balanced.value_unref stillHeld, shown.values other stillHeld, others other differs] }

theorem nodup_append_new {Item : Type} {items : List Item} {item : Item} (distinct : items.Nodup)
    (isNew : item ∉ items) : (items ++ [item]).Nodup := by
  rw [← List.concat_eq_append]
  exact distinct.concat isNew

theorem Notified.sound {content : Notification} (notified : Notified d n content later) (sound : d.Sound)
    (fresh : d.notes.objects n = none) : later.Sound := by
  have absent : n ∉ d.held := by
    rw [← sound.balanced.objects_isSome_iff, fresh]
    simp
  simp only [mem_held, not_or] at absent
  obtain ⟨notOpen, notListed, notTimed⟩ := absent
  obtain ⟨interval, isTimed⟩ := notified.timers
  have timed : later.timed = d.timed ++ [n] := by rw [DaemonData.timed, isTimed, List.map_append]; rfl
  exact
    { balanced := notified.balanced
      openNotes := by
        rw [notified.openNotes]
        exact nodup_append_new sound.openNotes notOpen
      history := by
        rw [notified.history]
        have distinct : (d.history ++ [n]).Nodup := nodup_append_new sound.history notListed
        split
        · exact distinct.tail
        · exact distinct
      timed := by
        rw [timed]
        exact nodup_append_new sound.timed notTimed
      openTimed := fun other isOpen => by
        rw [notified.openNotes] at isOpen
        rw [timed]
        rcases List.mem_append.mp isOpen with before | isNew
        · exact List.mem_append_left _ (sound.openTimed other before)
        · exact List.mem_append_right _ isNew
      flags := fun running other note isThere => by
        rw [notified.openNotes]
        by_cases same : other = n
        · subst same
          obtain rfl := Option.some.inj (notified.here.symm.trans isThere)
          exact iff_of_true rfl (by simp)
        · have stillHeld := notified.balanced.held_of_value isThere
          rw [notified.elsewhere other stillHeld same] at isThere
          rw [sound.flags (notified.same.2.2 ▸ running) other note isThere]
          simp [same] }

/-! ## Steps -/

theorem reply_sound {packet : Packet} : (d.reply packet).Sound ↔ d.Sound :=
  ⟨fun sound => ⟨sound.1, sound.2, sound.3, sound.4, sound.5, sound.6⟩,
    fun sound => ⟨sound.1, sound.2, sound.3, sound.4, sound.5, sound.6⟩⟩

/-- The search returns the first notification with the id. -/
theorem openFind_spec (notes : Shared NoteId Note) (id : UInt32) {items : List NoteId}
    (isThere : ∀ n ∈ items, ∃ note, notes.value n = some note) :
    (openFind notes id items = some none ∧ ∀ n ∈ items, ∀ note, notes.value n = some note → note.idGet ≠ id) ∨
      ∃ n ∈ items, ∃ note, notes.value n = some note ∧ note.idGet = id ∧ openFind notes id items = some (some n) := by
  induction items with
  | nil => exact .inl ⟨rfl, fun _ listed => absurd listed List.not_mem_nil⟩
  | cons first rest ih =>
      obtain ⟨note, found⟩ := isThere first List.mem_cons_self
      by_cases same : note.idGet = id
      · exact .inr ⟨first, List.mem_cons_self, note, found, same, by simp only [openFind, found, if_pos same]⟩
      · have later : openFind notes id (first :: rest) = openFind notes id rest := by
          simp only [openFind, found, if_neg same]
        rw [later]
        rcases ih fun n listed => isThere n (List.mem_cons_of_mem first listed) with ⟨none, others⟩ | ⟨n, listed, rest⟩
        · refine .inl ⟨none, fun n listed other isOther => ?_⟩
          rcases List.mem_cons.mp listed with rfl | listed
          · obtain rfl := Option.some.inj (found.symm.trans isOther)
            exact same
          · exact others n listed other isOther
        · exact .inr ⟨n, List.mem_cons_of_mem first listed, rest⟩

/-- The message has the signature of the method. -/
def Call.Accepted (call : Call) : Prop := Data.types call.body.body = call.method.signature

instance (call : Call) : Decidable call.Accepted := inferInstanceAs (Decidable (_ = _))

/-- The answer to a call that gives no id. -/
def Call.answer (call : Call) : Packet :=
  if call.Accepted then
    match call.method with
    | .getCapabilities =>
      ⟨.methodReturn call.origin, (marshalGetCapabilitiesReturn (nullTerminated ["body", "actions"])).getD []⟩
    | .getServerInformation =>
      marshalGetServerInformationReturn call.origin "e_notification_module" "Enlightenment" "0.9" "1.2"
    | _ => ⟨.methodReturn call.origin, []⟩
  else ⟨.error call.origin Dbus.Object.invalidSignature,
    [.string ("Expected signature: " ++ call.method.signatureText)]⟩

/-- What a step of the main loop does. -/
inductive Transition (d : DaemonData) : Label → DaemonData → Prop where
  | answered {call : Call} {garbage : Garbage} {survives : Bool} {n : NoteId} :
      (call.Accepted → call.method = .getCapabilities ∨ call.method = .getServerInformation) →
      Transition d (.handle call garbage survives n) (d.reply call.answer)
  | notified {call : Call} {garbage : Garbage} {survives : Bool} {n : NoteId} {content : Notification}
      {reads : List Read} {shown : DaemonData} :
      call.Accepted → call.method = .notify → unmarshalNotify garbage call.body.body = some (content, reads) →
      d.nextId ≠ intMax → d.notes.objects n = none → Notified d n content shown →
      Transition d (.handle call garbage survives n)
        (shown.reply (marshalNotifyReturn call.origin (UInt32.ofNat d.nextId)))
  | closed {call : Call} {garbage : Garbage} {survives : Bool} {n target : NoteId} {note : Note}
      {later : DaemonData} :
      call.Accepted → call.method = .closeNotification → call.body.body = [.uint32 note.idGet] → target ∈ d.openNotes →
      d.notes.value target = some note → Closed d target .requested note later →
      Transition d (.handle call garbage survives n) (later.reply call.answer)
  | unknown {call : Call} {garbage : Garbage} {survives : Bool} {n : NoteId} {id : UInt32} :
      call.Accepted → call.method = .closeNotification → call.body.body = [.uint32 id] →
      (∀ target ∈ d.openNotes, ∀ note, d.notes.value target = some note → note.idGet ≠ id) →
      Transition d (.handle call garbage survives n) (d.reply call.answer)
  | expired {td : TimerData} {note : Note} {middle later : DaemonData} :
      td ∈ d.timers → td.n ∈ d.openNotes → d.notes.value td.n = some note → Closed d td.n .expired note middle →
      TimerGone middle td later → Transition d (.timer td) later
  | stale {td : TimerData} {later : DaemonData} :
      td ∈ d.timers → td.n ∉ d.openNotes → TimerGone d td later → Transition d (.timer td) later
  | quit : Transition d .quit d.cleanUp

/-- A call of `Notify` is shown if its hints are read without harm or the program survives them. -/
theorem methodNotify_notified (sound : d.Sound) (origin : Origin) {body : List Data} (garbage : Garbage)
    (survives : Bool) (signed : Data.types body = notifySignature) (fresh : d.notes.objects n = none)
    (inRange : d.nextId ≠ intMax) :
    ∃ content reads shown, unmarshalNotify garbage body = some (content, reads) ∧ Notified d n content shown ∧
      d.methodNotify origin body garbage survives n =
        if reads.all Read.harmless || survives then
          some (shown.reply (marshalNotifyReturn origin (UInt32.ofNat d.nextId)))
        else none := by
  obtain ⟨⟨content, reads⟩, isRead⟩ : ∃ read, unmarshalNotify garbage body = some read := by
    rw [unmarshalNotify, if_pos signed]
    exact ⟨_, rfl⟩
  obtain ⟨shown, called, notified⟩ := cbNotify_notified sound.balanced fresh content inRange
  refine ⟨content, reads, _, isRead, notified, ?_⟩
  simp only [methodNotify, isRead, called]

theorem methodNotify_eq_none {origin : Origin} {body : List Data} {garbage : Garbage} {survives : Bool}
    (full : d.nextId = intMax) : d.methodNotify origin body garbage survives n = none := by
  unfold methodNotify
  cases unmarshalNotify garbage body with
  | none => rfl
  | some read => simp only [cbNotify, full, if_true, ite_self]

/-- Closing by id takes the first open notification with that id. -/
theorem cbCloseNotification_spec (sound : d.Sound) (id : UInt32) :
    (∃ target ∈ d.openNotes, ∃ note, d.notes.value target = some note ∧ note.idGet = id ∧
      Closed d target .requested note (d.cbCloseNotification id)) ∨
    ((∀ target ∈ d.openNotes, ∀ note, d.notes.value target = some note → note.idGet ≠ id) ∧
      d.cbCloseNotification id = d) := by
  have isThere : ∀ target ∈ d.openNotes, ∃ note, d.notes.value target = some note := fun target isOpen =>
    sound.balanced.value (mem_held.mpr (.inl isOpen))
  rcases openFind_spec d.notes id isThere with ⟨searched, others⟩ | ⟨target, isOpen, note, found, named, searched⟩
  · right
    refine ⟨others, ?_⟩
    simp only [cbCloseNotification, daemonNoteOpenFind, searched]
  · left
    obtain ⟨_, sameNote, closed⟩ := daemonNoteClose_closed sound isOpen .requested
    obtain rfl := Option.some.inj (found.symm.trans sameNote)
    refine ⟨target, isOpen, note, found, named, ?_⟩
    simp only [cbCloseNotification, daemonNoteOpenFind, searched]
    exact closed

theorem handle_transition (sound : d.Sound) {call : Call} {garbage : Garbage} {survives : Bool} {next : DaemonData}
    (fresh : d.notes.objects n = none) (handled : d.handle call garbage survives n = some next) :
    Transition d (.handle call garbage survives n) next := by
  by_cases accepted : call.Accepted
  · have signed : ¬ Data.types call.body.body ≠ call.method.signature := not_not.mpr accepted
    simp only [handle, if_neg signed] at handled
    cases method : call.method with
    | getCapabilities =>
        have isNext : next = d.reply call.answer := by
          simp only [method, Option.some.injEq] at handled
          simp only [← handled, Call.answer, if_pos accepted, method, methodGetCapabilities]
        rw [isNext]
        exact .answered fun _ => .inl method
    | getServerInformation =>
        have isNext : next = d.reply call.answer := by
          simp only [method, Option.some.injEq] at handled
          simp only [← handled, Call.answer, if_pos accepted, method, methodGetServerInformation]
        rw [isNext]
        exact .answered fun _ => .inr method
    | notify =>
        have isSigned : Data.types call.body.body = notifySignature := by
          rw [accepted, method]
          rfl
        simp only [method] at handled
        have inRange : d.nextId ≠ intMax := fun full => by
          rw [methodNotify_eq_none full] at handled
          cases handled
        obtain ⟨content, reads, shown, isRead, notified, called⟩ :=
          methodNotify_notified sound call.origin garbage survives isSigned fresh inRange
        rw [called, Option.ite_none_right_eq_some, Option.some.injEq] at handled
        obtain ⟨-, rfl⟩ := handled
        exact .notified accepted method isRead inRange fresh notified
    | closeNotification =>
        have isSigned : Data.types call.body.body = closeSignature := by
          rw [accepted, method]
          rfl
        obtain ⟨id, isBody⟩ := body_of_closeSignature isSigned
        have isId : unmarshalCloseNotification call.body.body = id := isBody ▸ unmarshalCloseNotification_marshal id
        have isNext : next = (d.cbCloseNotification id).reply call.answer := by
          simp only [method, Option.some.injEq] at handled
          simp only [← handled, Call.answer, if_pos accepted, method, methodCloseNotification, isId]
        rw [isNext]
        rcases cbCloseNotification_spec sound id with ⟨target, isOpen, note, found, rfl, closed⟩ | ⟨others, same⟩
        · exact .closed accepted method isBody isOpen found closed
        · rw [same]
          exact .unknown accepted method isBody others
  · have isNext : next = d.reply call.answer := by
      simp only [handle, if_pos (show Data.types call.body.body ≠ call.method.signature from accepted),
        Option.some.injEq] at handled
      simp only [← handled, Call.answer, if_neg accepted]
    rw [isNext]
    exact .answered fun isAccepted => absurd isAccepted accepted

/-- Every step from a sound state is one of these. -/
theorem step_transition (sound : d.Sound) {label : Label} {next : DaemonData}
    (stepped : d.step label = some next) : d.running = true ∧ Transition d label next := by
  unfold step at stepped
  split at stepped
  · next ready =>
      have running : d.running = true := (Bool.and_eq_true _ _ ▸ ready).1
      refine ⟨running, ?_⟩
      cases label with
      | handle call garbage survives n =>
          simp only [act] at stepped
          split at stepped
          · next fresh => exact handle_transition sound (Option.isNone_iff_eq_none.mp fresh) stepped
          · cases stepped
      | timer td =>
          simp only [act] at stepped
          split at stepped
          · next live =>
              cases stepped
              rcases cbNoteCloseTimer_spec sound running live with ⟨isOpen, note, middle, found, closed, gone⟩ | ⟨notOpen, gone⟩
              · exact .expired live isOpen found closed gone
              · exact .stale live notOpen gone
          · cases stepped
      | quit =>
          cases stepped
          exact .quit
  · cases stepped

theorem cleanUp_sound (sound : d.Sound) : d.cleanUp.Sound where
  balanced := by
    have split : d.held = ↑d.openNotes + (↑d.history + ↑d.timed) := Multiset.add_assoc _ _ _
    have counted := (sound.balanced.congr split).unrefAll.unrefAll
    exact counted.congr (by simp [held, cleanUp, timed])
  openNotes := List.nodup_nil
  history := List.nodup_nil
  timed := sound.timed
  openTimed _ isOpen := absurd isOpen List.not_mem_nil
  flags running := by cases running

theorem initial_sound : initial.Sound where
  balanced := Shared.empty_balanced
  openNotes := List.nodup_nil
  history := List.nodup_nil
  timed := List.nodup_nil
  openTimed _ isOpen := absurd isOpen List.not_mem_nil
  flags _ _ _ isThere := by cases isThere

theorem Transition.sound {label : Label} {next : DaemonData} (transition : Transition d label next) (sound : d.Sound) :
    next.Sound := by
  cases transition with
  | answered other => exact reply_sound.mpr sound
  | notified accepted method isRead inRange fresh notified => exact reply_sound.mpr (notified.sound sound fresh)
  | closed accepted method body isOpen found closed => exact reply_sound.mpr (closed.sound sound)
  | unknown accepted method body others => exact reply_sound.mpr sound
  | expired live isOpen found closed gone => exact gone.sound
  | stale live notOpen gone => exact gone.sound
  | quit => exact cleanUp_sound sound

/-- Every reachable state is sound. -/
theorem sound_throughout (labels : List Label) : machine.Throughout Sound initial labels :=
  Machine.throughout_of_preserved
    (fun _ _ _ sound stepped => (step_transition sound stepped).2.sound sound) labels initial_sound

/-! ## What is accounted for -/

/-- The lists are gone once the program has quit. -/
def Emptied (d : DaemonData) : Prop := d.running = false → d.openNotes = [] ∧ d.history = []

theorem Transition.emptied {label : Label} {next : DaemonData} (transition : Transition d label next)
    (running : d.running = true) : next.Emptied := by
  intro stopped
  have still : next.running = d.running → next.openNotes = [] ∧ next.history = [] := by
    intro same
    rw [same, running] at stopped
    cases stopped
  cases transition with
  | answered other => exact still rfl
  | notified accepted method isRead inRange fresh notified => exact still notified.same.2.2
  | closed accepted method body isOpen found closed => exact still closed.same.2.2
  | unknown accepted method body others => exact still rfl
  | expired live isOpen found closed gone => exact still (gone.same.2.2.trans closed.same.2.2)
  | stale live notOpen gone => exact still gone.same.2.2
  | quit => exact ⟨rfl, rfl⟩

/-- There is an id for the notification of a call, and no hint does harm when it is read. -/
structure Presentable (d : DaemonData) (call : Call) : Prop where
  inRange : d.nextId ≠ intMax
  safe : ∀ entries, call.body.body[6]? = some (hintDict entries) → ∀ entry ∈ entries, EntrySafe entry

/-- A call is handled and a timer fires, unless the call is for a notification that cannot be presented. -/
structure Ready (d : DaemonData) : Prop where
  handle : ∀ call garbage survives n, d.notes.objects n = none →
    (call.Accepted → call.method = .notify → d.Presentable call) →
      (d.step (.handle call garbage survives n)).isSome
  timer : ∀ td ∈ d.timers, (d.step (.timer td)).isSome

theorem Sound.ready (sound : d.Sound) (running : d.running = true) : d.Ready := by
  have enabled : ∀ label, d.step label = d.act label := by
    intro label
    rw [step, running, sound.balanced.untouched]
    rfl
  constructor
  · intro call garbage survives n fresh presentable
    rw [enabled, act, fresh, if_pos Option.isNone_none, handle]
    split
    · rfl
    · next signed =>
        have accepted : call.Accepted := not_not.mp signed
        cases method : call.method with
        | notify =>
            have isSigned : Data.types call.body.body = notifySignature := by
              rw [accepted, method]
              rfl
            obtain ⟨inRange, safe⟩ := presentable accepted method
            obtain ⟨content, reads, shown, isRead, -, called⟩ :=
              methodNotify_notified sound call.origin garbage survives isSigned fresh inRange
            obtain ⟨entries, isDict, harmless⟩ := unmarshalNotify_safe isSigned isRead
            have allHarmless : reads.all Read.harmless = true := List.all_eq_true.mpr fun read listed =>
              Read.harmless_iff.mpr (harmless.mpr (safe entries isDict) read listed)
            simp only [called, allHarmless, Bool.true_or, if_true, Option.isSome_some]
        | getCapabilities => rfl
        | closeNotification => rfl
        | getServerInformation => rfl
  · intro td live
    rw [enabled, act, if_pos live]
    rfl

/-- No notification was used after it was freed. Each counts the lists and the timers that hold it, of which
none has it twice, and is there as long as one does; when the program has quit these are the timers. An open
notification has a timer. While the program runs it is ready for every timer, and for every call but one of
`Notify` that would get no id or whose hints do harm. -/
structure Accounted (d : DaemonData) : Prop where
  untouched : d.notes.touchedFreed = false
  counts : ∀ n, (d.notes.objects n).map CountedObject.count =
    if n ∈ d.openNotes ∨ n ∈ d.history ∨ n ∈ d.timed then
      some ((d.openNotes.count n + d.history.count n + d.timed.count n : Nat) : Int)
    else none
  distinct : d.openNotes.Nodup ∧ d.history.Nodup ∧ d.timed.Nodup
  openTimed : ∀ n ∈ d.openNotes, n ∈ d.timed
  emptied : d.running = false → d.openNotes = [] ∧ d.history = []
  ready : d.running = true → d.Ready

theorem Sound.accounted (sound : d.Sound) (emptied : d.Emptied) : d.Accounted where
  untouched := sound.balanced.untouched
  counts n := by
    have counted := sound.balanced.counts n
    simp only [mem_held] at counted
    rw [counted]
    simp only [held, Multiset.count_add, Multiset.coe_count]
  distinct := ⟨sound.openNotes, sound.history, sound.timed⟩
  openTimed := sound.openTimed
  emptied := emptied
  ready := sound.ready

/-- Nothing but the history holds what is left, and nothing is open. -/
structure Settled (d later : DaemonData) : Prop where
  openNotes : later.openNotes = []
  timers : later.timers = []
  history : later.history = d.history
  counts : ∀ n, (later.notes.objects n).map CountedObject.count = if n ∈ d.history then some 1 else none

theorem Sound.settled (sound : d.Sound) (noTimer : d.timers = []) : Settled d d := by
  have noneTimed : d.timed = [] := by rw [DaemonData.timed, noTimer, List.map_nil]
  have noneOpen : d.openNotes = [] := by
    apply List.eq_nil_iff_forall_not_mem.mpr
    intro n isOpen
    have isTimed := sound.openTimed n isOpen
    rw [noneTimed] at isTimed
    cases isTimed
  refine ⟨noneOpen, noTimer, rfl, fun n => ?_⟩
  have holders : d.held = ↑d.history := by
    rw [held, noneOpen, noneTimed, Multiset.coe_nil, Multiset.zero_add, Multiset.add_zero]
  have counted := sound.balanced.counts n
  rw [counted, holders, Multiset.coe_count]
  by_cases listed : n ∈ d.history
  · rw [if_pos (Multiset.mem_coe.mpr listed), if_pos listed, List.count_eq_one_of_mem sound.history listed]
    rfl
  · rw [if_neg (mt Multiset.mem_coe.mp listed), if_neg listed]

/-- A timer that fires is one less, and changes nothing of the history. -/
theorem timer_step (sound : d.Sound) (running : d.running = true) {td : TimerData} (live : td ∈ d.timers) :
    ∃ next, machine.step d (.timer td) = some next ∧ next.Sound ∧ next.running = true ∧
      next.timers = d.timers.erase td ∧ next.history = d.history := by
  obtain ⟨next, stepped⟩ := Option.isSome_iff_exists.mp ((sound.ready running).timer td live)
  refine ⟨next, stepped, ?_⟩
  cases (step_transition sound stepped).2 with
  | expired live isOpen found closed gone =>
      exact ⟨gone.sound, (gone.same.2.2.trans closed.same.2.2).trans running, closed.timers ▸ gone.timers,
        gone.history.trans closed.history⟩
  | stale live notOpen gone => exact ⟨gone.sound, gone.same.2.2.trans running, gone.timers, gone.history⟩

theorem Sound.drain (sound : d.Sound) (running : d.running = true) {order : List TimerData}
    (all : order.Perm d.timers) : ∃ later, machine.exec d (order.map .timer) = some later ∧ Settled d later := by
  induction order generalizing d with
  | nil => exact ⟨d, rfl, sound.settled (List.nil_perm.mp all)⟩
  | cons td rest ih =>
      have live : td ∈ d.timers := all.subset List.mem_cons_self
      obtain ⟨next, stepped, nextSound, nextRunning, timers, history⟩ := timer_step sound running live
      have others : rest.Perm next.timers := by
        rw [timers]
        have erased := all.erase td
        rwa [List.erase_cons_head] at erased
      obtain ⟨later, executed, settled⟩ := ih nextSound nextRunning others
      refine ⟨later, Machine.exec_cons_iff.mpr ⟨next, stepped, executed⟩, ?_⟩
      exact ⟨settled.openNotes, settled.timers, settled.history.trans history, history ▸ settled.counts⟩

/-- Whatever happened before, the timers that are left can fire in any order, and then no notification is open
and none is there but those of the history. -/
theorem timers_drain {labels : List Label} (executed : machine.exec initial labels = some d)
    (running : d.running = true) {order : List TimerData} (all : order.Perm d.timers) :
    ∃ later, machine.exec d (order.map .timer) = some later ∧ Settled d later :=
  ((sound_throughout labels).finish executed).drain running all

/-- A call of `Notify` with nothing but a timeout. -/
def plainCall : Call where
  origin := ⟨":1.7", 2⟩
  method := .notify
  body :=
    { body := [.string "app", .uint32 0, .string "", .string "", .string "", .array .string [],
        .array (.dictEntry .string .variant) [], .int32 (-1)]
      wellTyped := by
        refine ⟨trivial, trivial, trivial, trivial, trivial, ⟨?_, trivial⟩, ⟨?_, trivial⟩, trivial, trivial⟩
        · exact fun _ listed => absurd listed List.not_mem_nil
        · exact fun _ listed => absurd listed List.not_mem_nil }

/-- The daemon handles the call. -/
theorem plainCall_handled (garbage : Garbage) :
    ∃ d, machine.exec initial [.handle plainCall garbage false 7] = some d ∧ d.running = true := by
  have presentable : initial.Presentable plainCall := by
    refine ⟨by decide, fun entries isDict entry listed => ?_⟩
    obtain ⟨-, empty⟩ := Data.array.inj (Option.some.inj isDict)
    rw [List.map_eq_nil_iff.mp empty.symm] at listed
    cases listed
  have ready := (initial_sound.ready rfl).handle plainCall garbage false 7 rfl fun _ _ => presentable
  obtain ⟨d, stepped⟩ := Option.isSome_iff_exists.mp ready
  refine ⟨d, Machine.exec_cons_iff.mpr ⟨d, stepped, rfl⟩, ?_⟩
  cases (step_transition initial_sound stepped).2 with
  | answered other => rfl
  | notified accepted method isRead inRange fresh notified => exact notified.same.2.2
  | closed accepted method => cases method
  | unknown accepted method => cases method

theorem timers_drain_plainCall : ∃ d later, machine.exec initial [.handle plainCall ⟨0, 0, 0, 0⟩ false 7] = some d ∧
    machine.exec d (d.timers.reverse.map .timer) = some later ∧ Settled d later := by
  obtain ⟨d, executed, running⟩ := plainCall_handled ⟨0, 0, 0, 0⟩
  obtain ⟨later, drained, settled⟩ := timers_drain executed running (List.reverse_perm d.timers)
  exact ⟨d, later, executed, drained, settled⟩

end EDBus.Notify.DaemonData
