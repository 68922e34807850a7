import EDBus.Notify.DaemonMemory
import EDBus.Semantics.Register

/-!
# The notification daemon program as a register

For its clients the program is a register of notifications: it numbers them, closes each at most once, and
keeps the last five. `Represents` relates the lists of pointers, the memory and the messages to a register,
and `register_simulates` answers every step by what is asked of the register.
-/

open EDBus.Semantics
open Semantics

namespace EDBus.Notify

/-- The number and the content of a notification. -/
def Note.core (note : Note) : UInt32 × Notification := (note.idGet, note.content)

namespace DaemonData

/-- Notifications that clients enter. -/
abbrev NoteRegister := Register Origin Notification ClosedReason Packet

/-- The message for a notice. -/
def packetOf : Notice Origin ClosedReason Packet → Packet
  | .given origin number => marshalNotifyReturn origin (UInt32.ofNat number)
  | .closed number reason => marshalNotificationClosedSignal (UInt32.ofNat number) reason.code
  | .answer packet => packet

/-- What a step asks of the register. -/
def requests (d : DaemonData) (label : Label) (_ : DaemonData) :
    List (Request Origin Notification ClosedReason Packet) :=
  match label with
  | .handle call garbage _ _ =>
    if call.Accepted then
      match call.method with
      | .notify => (unmarshalNotify garbage call.body.body).toList.map fun read => .enter call.origin read.1
      | .closeNotification =>
        [.close (unmarshalCloseNotification call.body.body).toNat .requested, .tell call.answer]
      | _ => [.tell call.answer]
    else [.tell call.answer]
  | .timer td => (d.notes.value td.n).toList.map fun note => .close note.idGet.toNat .expired
  | .quit => []

/-- The number of a notification. -/
def numberOf (d : DaemonData) (n : NoteId) : Nat := (d.notes.value n).elim 0 fun note => note.idGet.toNat

/-- A notification with its number. -/
def entryOf (d : DaemonData) (n : NoteId) : Option (Notification × Nat) :=
  (d.notes.value n).map fun note => (note.content, note.idGet.toNat)

/-- The lists of a running program are those of the register. -/
structure ListsAgree (d : DaemonData) (register : NoteRegister) : Prop where
  opened : d.openNotes.map d.numberOf = register.opened
  history : d.history.map d.entryOf = (register.recent 5).map some
  historyStart : d.historyStart.toNat + d.history.length = register.nextNumber

/-- The memory and the messages are those of the register, and as long as the program runs so are its
lists. -/
structure Represents (d : DaemonData) (register : NoteRegister) : Prop where
  sound : d.Sound
  nextId : d.nextId = register.nextNumber
  inRange : d.nextId ≤ intMax
  limit : d.maxHistoryLength = 5
  numbers : ∀ n note, d.notes.value n = some note → 1 ≤ note.idGet.toNat ∧ note.idGet.toNat < register.nextNumber
  distinct : ∀ n other note value, d.notes.value n = some note → d.notes.value other = some value →
    note.idGet = value.idGet → n = other
  lists : d.running = true → ListsAgree d register
  sent : d.sent = register.notices.map packetOf

variable {d later : DaemonData} {register : NoteRegister} {n : NoteId}

theorem initial_represents : Represents initial Register.empty where
  sound := initial_sound
  nextId := rfl
  inRange := by decide
  limit := rfl
  numbers n note isThere := by cases isThere
  distinct n other note value isThere := by cases isThere
  lists _ := ⟨rfl, rfl, rfl⟩
  sent := rfl

/-! ## Values that stay -/

/-- The notifications that there are later have the numbers and the contents that they had. -/
def Keeps (d later : DaemonData) : Prop :=
  ∀ n, n ∈ later.held → (later.notes.value n).map Note.core = (d.notes.value n).map Note.core

theorem Keeps.value (keeps : Keeps d later) (sound : later.Sound) {note : Note}
    (isThere : later.notes.value n = some note) :
    ∃ before, d.notes.value n = some before ∧ before.core = note.core := by
  have same := keeps n (sound.balanced.held_of_value isThere)
  rw [isThere, Option.map_some] at same
  exact Option.map_eq_some_iff.mp same.symm

theorem numberOf_eq {note : Note} (isThere : d.notes.value n = some note) : d.numberOf n = note.idGet.toNat := by
  rw [numberOf, isThere, Option.elim_some]

theorem numberOf_core (d : DaemonData) (n : NoteId) :
    d.numberOf n = ((d.notes.value n).map Note.core).elim 0 fun core => core.1.toNat := by
  unfold numberOf
  cases d.notes.value n <;> rfl

theorem entryOf_core (d : DaemonData) (n : NoteId) :
    d.entryOf n = ((d.notes.value n).map Note.core).map fun core => (core.2, core.1.toNat) := by
  unfold entryOf
  cases d.notes.value n <;> rfl

theorem Keeps.openNotes (keeps : Keeps d later) {items : List NoteId} (held : ∀ n ∈ items, n ∈ later.held) :
    items.map later.numberOf = items.map d.numberOf := by
  apply List.map_congr_left
  intro n listed
  rw [numberOf_core, numberOf_core, keeps n (held n listed)]

theorem Keeps.history (keeps : Keeps d later) {items : List NoteId} (held : ∀ n ∈ items, n ∈ later.held) :
    items.map later.entryOf = items.map d.entryOf := by
  apply List.map_congr_left
  intro n listed
  rw [entryOf_core, entryOf_core, keeps n (held n listed)]

theorem Keeps.numbers (keeps : Keeps d later) (sound : later.Sound) {bound : Nat}
    (numbers : ∀ n note, d.notes.value n = some note → 1 ≤ note.idGet.toNat ∧ note.idGet.toNat < bound) :
    ∀ n note, later.notes.value n = some note → 1 ≤ note.idGet.toNat ∧ note.idGet.toNat < bound := by
  intro n note isThere
  obtain ⟨before, found, same⟩ := keeps.value sound isThere
  have number : before.idGet = note.idGet := congrArg Prod.fst same
  exact number ▸ numbers n before found

theorem Keeps.distinct (keeps : Keeps d later) (sound : later.Sound)
    (distinct : ∀ n other note value, d.notes.value n = some note → d.notes.value other = some value →
      note.idGet = value.idGet → n = other) :
    ∀ n other note value, later.notes.value n = some note → later.notes.value other = some value →
      note.idGet = value.idGet → n = other := by
  intro n other note value isThere isOther equal
  obtain ⟨before, found, same⟩ := keeps.value sound isThere
  obtain ⟨beforeOther, foundOther, sameOther⟩ := keeps.value sound isOther
  apply distinct n other before beforeOther found foundOther
  calc before.idGet = note.idGet := congrArg Prod.fst same
    _ = value.idGet := equal
    _ = beforeOther.idGet := (congrArg Prod.fst sameOther).symm

/-- A function that tells an element of a list from the others is as good as the element. -/
theorem map_erase_of_distinct {Item Value : Type} [DecidableEq Item] [DecidableEq Value] {f : Item → Value}
    {items : List Item} {item : Item} (listed : item ∈ items)
    (distinct : ∀ other ∈ items, f other = f item → other = item) :
    (items.erase item).map f = (items.map f).erase (f item) := by
  induction items with
  | nil => cases listed
  | cons first rest ih =>
      by_cases same : first = item
      · rw [same, List.erase_cons_head, List.map_cons, List.erase_cons_head]
      · have differs : f first ≠ f item := fun equal => same (distinct first List.mem_cons_self equal)
        rw [List.erase_cons_tail (by simpa using same), List.map_cons, List.map_cons,
          List.erase_cons_tail (by simpa using differs)]
        have inside : item ∈ rest := (List.mem_cons.mp listed).resolve_left (Ne.symm same)
        rw [ih inside fun other inRest => distinct other (List.mem_cons_of_mem first inRest)]

/-! ## Answers -/

/-- A message that is no notice of the register is passed on. -/
theorem Represents.reply (represents : Represents d register) (packet : Packet) :
    Represents (d.reply packet) (register.apply (.tell packet)) where
  sound := reply_sound.mpr represents.sound
  nextId := represents.nextId
  inRange := represents.inRange
  limit := represents.limit
  numbers := represents.numbers
  distinct := represents.distinct
  lists running :=
    ⟨(represents.lists running).opened, (represents.lists running).history, (represents.lists running).historyStart⟩
  sent := by
    simp only [DaemonData.reply, Register.apply, represents.sent, List.map_append]
    rfl

/-- The numbers of open notifications are those that are open in the register. -/
theorem Represents.mem_opened (represents : Represents d register) (running : d.running = true) {note : Note}
    (isThere : d.notes.value n = some note) : note.idGet.toNat ∈ register.opened ↔ n ∈ d.openNotes := by
  rw [← (represents.lists running).opened, List.mem_map]
  constructor
  · rintro ⟨other, isOpen, equal⟩
    obtain ⟨value, found⟩ := represents.sound.balanced.value (mem_held.mpr (.inl isOpen))
    rw [numberOf_eq found] at equal
    obtain rfl := represents.distinct other n value note found isThere (UInt32.toNat_inj.mp equal)
    exact isOpen
  · intro isOpen
    exact ⟨n, isOpen, numberOf_eq isThere⟩

theorem apply_close_of_not_mem {number : Nat} (reason : ClosedReason) (notOpen : number ∉ register.opened) :
    register.apply (.close number reason) = register := by
  rw [Register.apply, if_neg notOpen]

theorem Closed.keeps {reason : ClosedReason} {note : Note} (closed : Closed d n reason note later)
    (isThere : d.notes.value n = some note) : Keeps d later := by
  intro other isHeld
  by_cases same : other = n
  · rw [same, closed.here, isThere]
    rfl
  · rw [closed.elsewhere other isHeld same]

/-- Closing is what the register does. -/
theorem Represents.closed (represents : Represents d register) (running : d.running = true) {note : Note}
    (isOpen : n ∈ d.openNotes) (isThere : d.notes.value n = some note) {reason : ClosedReason}
    (closed : Closed d n reason note later) : Represents later (register.apply (.close note.idGet.toNat reason)) := by
  have sound := closed.sound represents.sound
  have keeps := closed.keeps isThere
  have isOpened := (represents.mem_opened running isThere).mpr isOpen
  obtain ⟨nextId, limit, stillRunning⟩ := closed.same
  rw [Register.apply, if_pos isOpened]
  exact
    { sound := sound
      nextId := nextId.trans represents.nextId
      inRange := nextId ▸ represents.inRange
      limit := limit.trans represents.limit
      numbers := keeps.numbers sound represents.numbers
      distinct := keeps.distinct sound represents.distinct
      lists := fun _ => by
        have lists := represents.lists running
        constructor
        · rw [keeps.openNotes fun other listed => mem_held.mpr (.inl listed), closed.openNotes,
            map_erase_of_distinct isOpen, numberOf_eq isThere, lists.opened]
          intro other inside equal
          obtain ⟨value, found⟩ := represents.sound.balanced.value (mem_held.mpr (.inl inside))
          rw [numberOf_eq found, numberOf_eq isThere] at equal
          exact represents.distinct other n value note found isThere (UInt32.toNat_inj.mp equal)
        · rw [keeps.history fun other listed => mem_held.mpr (.inr (.inl listed)), closed.history, lists.history]
          rfl
        · rw [closed.historyStart, closed.history, lists.historyStart]
          rfl
      sent := by
        rw [closed.sent, represents.sent, List.map_append]
        simp [packetOf] }

/-- A number that is not open is not closed. -/
theorem Represents.not_open (represents : Represents d register) (running : d.running = true) {number : Nat}
    (reason : ClosedReason)
    (others : ∀ other ∈ d.openNotes, ∀ note, d.notes.value other = some note → note.idGet.toNat ≠ number) :
    register.apply (.close number reason) = register := by
  apply apply_close_of_not_mem
  rw [← (represents.lists running).opened, List.mem_map]
  rintro ⟨other, isOpen, equal⟩
  obtain ⟨value, found⟩ := represents.sound.balanced.value (mem_held.mpr (.inl isOpen))
  exact others other isOpen value found ((numberOf_eq found).symm.trans equal)

/-- The register knows nothing of timers. -/
theorem Represents.gone (represents : Represents d register) {td : TimerData} (gone : TimerGone d td later) :
    Represents later register := by
  have keeps : Keeps d later := fun other isHeld => congrArg (Option.map Note.core) (gone.values other isHeld)
  obtain ⟨nextId, limit, running⟩ := gone.same
  exact
    { sound := gone.sound
      nextId := nextId.trans represents.nextId
      inRange := nextId ▸ represents.inRange
      limit := limit.trans represents.limit
      numbers := keeps.numbers gone.sound represents.numbers
      distinct := keeps.distinct gone.sound represents.distinct
      lists := fun isRunning => by
        have lists := represents.lists (running ▸ isRunning)
        constructor
        · rw [keeps.openNotes fun other listed => mem_held.mpr (.inl listed), gone.openNotes, lists.opened]
        · rw [keeps.history fun other listed => mem_held.mpr (.inr (.inl listed)), gone.history, lists.history]
        · rw [gone.historyStart, gone.history, lists.historyStart]
      sent := gone.sent.trans represents.sent }

/-- What is left after the main loop is what the timers hold. -/
theorem Represents.cleanUp (represents : Represents d register) : Represents d.cleanUp register := by
  have sound := cleanUp_sound represents.sound
  have split : d.held = ↑d.openNotes + (↑d.history + ↑d.timed) := Multiset.add_assoc _ _ _
  have counted := represents.sound.balanced.congr split
  have keeps : Keeps d d.cleanUp := by
    intro other isHeld
    have isTimed : other ∈ (↑d.timed : Multiset NoteId) := by
      rcases mem_held.mp isHeld with isOpen | listed | timed
      · cases isOpen
      · cases listed
      · exact timed
    change (((d.notes.unrefAll d.openNotes).unrefAll d.history).value other).map Note.core = _
    rw [counted.unrefAll.value_unrefAll isTimed, counted.value_unrefAll (Multiset.mem_add.mpr (.inr isTimed))]
  exact
    { sound := sound
      nextId := represents.nextId
      inRange := represents.inRange
      limit := represents.limit
      numbers := keeps.numbers sound represents.numbers
      distinct := keeps.distinct sound represents.distinct
      lists := fun running => by cases running
      sent := represents.sent }

/-! ## New notifications -/

theorem history_length (lists : ListsAgree d register) : d.history.length = min 5 register.entered.length := by
  calc d.history.length = (d.history.map d.entryOf).length := (List.length_map d.entryOf).symm
    _ = (register.recent 5).length := by rw [lists.history, List.length_map]
    _ = min 5 register.entered.length := register.recent_length 5

/-- The first of a full history has the number that `history_start` says. -/
theorem first_of_history (lists : ListsAgree d register) {old : NoteId}
    {rest : List NoteId} {note : Note} (listed : d.history = old :: rest) (found : d.notes.value old = some note) :
    note.idGet.toNat + d.history.length = register.nextNumber := by
  have numbers := congrArg (List.map (Option.map Prod.snd)) lists.history
  rw [List.map_map, List.map_map, listed, List.map_cons] at numbers
  have recent : (register.recent 5).map (Option.map Prod.snd ∘ some) =
      (List.range' (register.entered.length - 5 + 1) (min 5 register.entered.length)).map some := by
    rw [← register.recent_numbers, List.map_map]
    rfl
  have length := history_length lists
  rw [recent] at numbers
  rw [listed, List.length_cons] at length
  obtain ⟨count, isCount⟩ : ∃ count, min 5 register.entered.length = count + 1 := ⟨rest.length, length.symm⟩
  rw [isCount, List.range'_succ, List.map_cons] at numbers
  have first := (List.cons.inj numbers).1
  simp only [Function.comp_apply, entryOf, found, Option.map_some, Option.some.injEq] at first
  rw [listed, List.length_cons, first, Register.nextNumber]
  omega

/-- The next id is the next number. -/
theorem Represents.nextId_toNat (represents : Represents d register) :
    (UInt32.ofNat d.nextId).toNat = register.nextNumber := by
  have inRange := represents.inRange
  unfold intMax at inRange
  rw [UInt32.toNat_ofNat_of_lt' (by unfold UInt32.size; omega), represents.nextId]

theorem not_held_of_fresh (sound : d.Sound) (fresh : d.notes.objects n = none) : n ∉ d.held := by
  rw [← sound.balanced.objects_isSome_iff, fresh]
  simp

/-- The values after a notification was shown. -/
theorem Notified.entryOf {content : Notification} (notified : Notified d n content later)
    (represents : Represents d register) {other : NoteId} (isHeld : other ∈ later.held) :
    later.entryOf other = if other = n then some (content, register.nextNumber) else d.entryOf other := by
  unfold DaemonData.entryOf
  split
  · next same =>
      rw [same, notified.here, ← represents.nextId_toNat]
      rfl
  · next differs => rw [notified.elsewhere other isHeld differs]

theorem numberOf_entryOf (d : DaemonData) (n : NoteId) : d.numberOf n = (d.entryOf n).elim 0 Prod.snd := by
  unfold numberOf entryOf
  cases d.notes.value n <;> rfl

/-- The new notification is the last open one. -/
theorem Notified.opened {content : Notification} (notified : Notified d n content later)
    (represents : Represents d register) (fresh : d.notes.objects n = none) (lists : ListsAgree d register) :
    later.openNotes.map later.numberOf = register.opened ++ [register.nextNumber] := by
  have absent := not_held_of_fresh represents.sound fresh
  have isHeld : ∀ other ∈ d.openNotes ++ [n], other ∈ later.held := fun other isOpen =>
    mem_held.mpr (.inl (notified.openNotes ▸ isOpen))
  have before : d.openNotes.map later.numberOf = d.openNotes.map d.numberOf := by
    apply List.map_congr_left
    intro other isOpen
    have differs : other ≠ n := by
      rintro rfl
      exact absent (mem_held.mpr (.inl isOpen))
    rw [numberOf_entryOf, numberOf_entryOf,
      notified.entryOf represents (isHeld other (List.mem_append_left _ isOpen)), if_neg differs]
  have last : later.numberOf n = register.nextNumber := by
    rw [numberOf_entryOf, notified.entryOf represents (isHeld n (List.mem_append_right _ List.mem_cons_self)),
      if_pos rfl]
    rfl
  rw [notified.openNotes, List.map_append, before, lists.opened, List.map_singleton, last]

/-- The history is too long if there are five entries already. -/
theorem tooLong_iff (represents : Represents d register) (lists : ListsAgree d register) :
    d.maxHistoryLength < d.history.length + 1 ↔ ¬ register.entered.length < 5 := by
  rw [represents.limit, history_length lists]
  omega

/-- The history is that of the last five entries. -/
theorem Notified.history_eq {content : Notification} (notified : Notified d n content later)
    (represents : Represents d register) (fresh : d.notes.objects n = none) (lists : ListsAgree d register)
    (origin : Origin) :
    later.history.map later.entryOf = ((register.apply (.enter origin content)).recent 5).map some := by
  have absent := not_held_of_fresh represents.sound fresh
  let entry : NoteId → Option (Notification × Nat) := fun other =>
    if other = n then some (content, register.nextNumber) else d.entryOf other
  have entries : later.history.map later.entryOf = later.history.map entry := by
    apply List.map_congr_left
    intro other listed
    exact notified.entryOf represents (mem_held.mpr (.inr (.inl listed)))
  have before : d.history.map entry = d.history.map d.entryOf := by
    apply List.map_congr_left
    intro other listed
    apply if_neg
    rintro rfl
    exact absent (mem_held.mpr (.inr (.inl listed)))
  have all : (d.history ++ [n]).map entry = (register.recent 5 ++ [(content, register.nextNumber)]).map some := by
    rw [List.map_append, List.map_append, before, lists.history, List.map_singleton, List.map_singleton]
    exact congrArg _ (congrArg ([·]) (if_pos rfl))
  have tooLong := tooLong_iff represents lists
  rw [entries, notified.history, Register.recent_enter _ _ _ (by omega)]
  by_cases few : register.entered.length < 5
  · rw [if_neg fun isOver => tooLong.mp isOver few, if_pos few, all]
  · rw [if_pos (tooLong.mpr few), if_neg few, List.map_tail, List.map_tail, all]

/-- `history_start` is the number of the first notification of the history. -/
theorem Notified.historyStart_eq {content : Notification} (notified : Notified d n content later)
    (represents : Represents d register) (lists : ListsAgree d register) :
    later.historyStart.toNat + later.history.length = register.nextNumber + 1 := by
  have tooLong := tooLong_iff represents lists
  have start := lists.historyStart
  have length := history_length lists
  rw [notified.history]
  by_cases few : register.entered.length < 5
  · have fits : ¬ d.maxHistoryLength < d.history.length + 1 := fun isOver => tooLong.mp isOver few
    rw [if_neg fits, notified.kept fits, List.length_append, List.length_singleton]
    omega
  · have isOver := tooLong.mpr few
    obtain ⟨old, rest, listed⟩ : ∃ old rest, d.history = old :: rest := by
      apply List.exists_cons_of_ne_nil
      intro empty
      rw [empty, List.length_nil] at length
      omega
    obtain ⟨note, found⟩ := represents.sound.balanced.value
      (mem_held.mpr (.inr (.inl (listed ▸ List.mem_cons_self))))
    have first := first_of_history lists listed found
    have inRange := represents.inRange
    have bounded := (represents.numbers old note found).2
    rw [represents.nextId] at inRange
    unfold intMax at inRange
    have next : (note.idGet + 1).toNat = note.idGet.toNat + 1 := by
      rw [UInt32.toNat_add, UInt32.toNat_one]
      omega
    rw [if_pos isOver, notified.dropped isOver old rest note listed found, next, List.length_tail, List.length_append,
      List.length_singleton]
    omega

/-- Showing a notification is what the register does. -/
theorem Represents.notified (represents : Represents d register) (running : d.running = true)
    (fresh : d.notes.objects n = none) (inRange : d.nextId ≠ intMax) {content : Notification}
    (notified : Notified d n content later) (origin : Origin) :
    Represents (later.reply (marshalNotifyReturn origin (UInt32.ofNat d.nextId)))
      (register.apply (.enter origin content)) := by
  have sound := notified.sound represents.sound fresh
  have lists := represents.lists running
  obtain ⟨nextId, limit, -⟩ := notified.same
  have nextNumber : (register.apply (.enter origin content)).nextNumber = register.nextNumber + 1 := by
    simp only [Register.nextNumber, Register.apply, List.length_append, List.length_singleton]
  have number : (UInt32.ofNat d.nextId).toNat = register.nextNumber := represents.nextId_toNat
  have before : ∀ other note, other ≠ n → later.notes.value other = some note → d.notes.value other = some note := by
    intro other note differs isThere
    rw [← notified.elsewhere other (notified.balanced.held_of_value isThere) differs]
    exact isThere
  have smaller : ∀ other note, other ≠ n → later.notes.value other = some note →
      note.idGet ≠ UInt32.ofNat d.nextId := by
    intro other note differs isThere same
    have bounded := (represents.numbers other note (before other note differs isThere)).2
    rw [same, number] at bounded
    exact absurd bounded (Nat.lt_irrefl _)
  exact
    { sound := reply_sound.mpr sound
      nextId := by
        rw [nextNumber, ← represents.nextId]
        exact nextId
      inRange := by
        have range := represents.inRange
        change later.nextId ≤ intMax
        omega
      limit := limit.trans represents.limit
      numbers := fun other note isThere => by
        rw [nextNumber]
        by_cases same : other = n
        · subst same
          obtain rfl := Option.some.inj (notified.here.symm.trans isThere)
          change 1 ≤ (UInt32.ofNat d.nextId).toNat ∧ (UInt32.ofNat d.nextId).toNat < _
          rw [number]
          exact ⟨Nat.le_add_left 1 _, Nat.lt_succ_self _⟩
        · obtain ⟨lower, upper⟩ := represents.numbers other note (before other note same isThere)
          exact ⟨lower, Nat.lt_succ_of_lt upper⟩
      distinct := fun first second note value isThere isOther equal => by
        by_cases isFirst : first = n
        · by_cases isSecond : second = n
          · rw [isFirst, isSecond]
          · subst isFirst
            obtain rfl := Option.some.inj (notified.here.symm.trans isThere)
            exact absurd equal.symm (smaller second value isSecond isOther)
        · by_cases isSecond : second = n
          · subst isSecond
            obtain rfl := Option.some.inj (notified.here.symm.trans isOther)
            exact absurd equal (smaller first note isFirst isThere)
          · exact represents.distinct first second note value (before first note isFirst isThere)
              (before second value isSecond isOther) equal
      lists := fun _ =>
        { opened := notified.opened represents fresh lists
          history := notified.history_eq represents fresh lists origin
          historyStart := by
            rw [nextNumber]
            exact notified.historyStart_eq represents lists }
      sent := by
        change later.sent ++ [_] = _
        rw [notified.sent, represents.sent, Register.apply, List.map_append, represents.nextId]
        rfl }

/-! ## Runs -/

theorem exec_requests (register : NoteRegister) (first second : Request Origin Notification ClosedReason Packet) :
    Register.machine.exec register [first, second] = some ((register.apply first).apply second) :=
  rfl

/-- Every step is what is asked of the register. -/
theorem register_simulates : Simulates machine Register.machine Represents requests where
  step d label next register represents stepped := by
    obtain ⟨running, transition⟩ := step_transition represents.sound stepped
    cases transition with
    | @answered call garbage survives n other =>
        refine ⟨register.apply (.tell call.answer), ?_, represents.reply call.answer⟩
        by_cases accepted : call.Accepted
        · simp only [requests, if_pos accepted]
          rcases other accepted with method | method
          all_goals
            rw [method]
            rfl
        · simp only [requests, if_neg accepted]
          rfl
    | @notified call garbage survives n content reads shown accepted method isRead inRange fresh notified =>
        refine ⟨register.apply (.enter call.origin content), ?_,
          represents.notified running fresh inRange notified call.origin⟩
        simp only [requests, if_pos accepted, method, isRead]
        rfl
    | @closed call garbage survives n target note later accepted method body isOpen found closed =>
        refine ⟨_, ?_, (represents.closed running isOpen found closed).reply call.answer⟩
        have isId : unmarshalCloseNotification call.body.body = note.idGet :=
          body ▸ unmarshalCloseNotification_marshal note.idGet
        simp only [requests, if_pos accepted, method, isId]
        rfl
    | @unknown call garbage survives n id accepted method body others =>
        refine ⟨_, ?_, represents.reply call.answer⟩
        have isId : unmarshalCloseNotification call.body.body = id := body ▸ unmarshalCloseNotification_marshal id
        have kept : register.apply (.close id.toNat .requested) = register :=
          represents.not_open running .requested fun other isOpen note found same =>
            others other isOpen note found (UInt32.toNat_inj.mp same)
        simp only [requests, if_pos accepted, method, isId]
        rw [exec_requests, kept]
    | @expired td note middle later live isOpen found closed gone =>
        refine ⟨_, ?_, (represents.closed running isOpen found closed).gone gone⟩
        simp only [requests, found]
        rfl
    | @stale td later live notOpen gone =>
        refine ⟨register, ?_, represents.gone gone⟩
        obtain ⟨note, found⟩ := represents.sound.balanced.value
          (mem_held.mpr (.inr (.inr (List.mem_map.mpr ⟨td, live, rfl⟩))))
        have kept : register.apply (.close note.idGet.toNat .expired) = register :=
          apply_close_of_not_mem .expired fun isOpened => notOpen ((represents.mem_opened running found).mp isOpened)
        simp only [requests, found, Option.toList_some, List.map_cons, List.map_nil]
        exact congrArg some kept
    | quit => exact ⟨register, rfl, represents.cleanUp⟩

/-- In every run the program is a register that was asked what the steps ask. -/
theorem represents_register {labels : List Label} {d : DaemonData} (executed : machine.exec initial labels = some d) :
    ∃ register : NoteRegister,
      Register.machine.exec Register.empty (machine.translated requests initial labels) = some register ∧
        Represents d register ∧ register.Coherent := by
  obtain ⟨register, answered, represents⟩ := register_simulates.run initial_represents executed
  exact ⟨register, answered, represents, Register.coherent_of_exec Register.empty_coherent answered⟩

theorem represents_register_plainCall : ∃ d, machine.exec initial [.handle plainCall ⟨0, 0, 0, 0⟩ false 7] = some d ∧
    ∃ register : NoteRegister, Register.machine.exec Register.empty
      (machine.translated requests initial [.handle plainCall ⟨0, 0, 0, 0⟩ false 7]) = some register ∧
        Represents d register ∧ register.Coherent := by
  obtain ⟨d, executed, -⟩ := plainCall_handled ⟨0, 0, 0, 0⟩
  exact ⟨d, executed, represents_register executed⟩

end DaemonData

end EDBus.Notify
