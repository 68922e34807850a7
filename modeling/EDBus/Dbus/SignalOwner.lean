import EDBus.Dbus.Signal
import Mathlib.Data.List.Basic

/-!
# Whose signals reach a handler

A handler without a recorded owner is called for every sender, and the owner is
missing both when the lookup failed and when the name has none. `heard` is what the
messages told a handler of its owner since it was added, and `owner_heard` that it
has recorded just this; `authentic_along_iff` draws the line between the runs.
-/

namespace EDBus.Dbus.Signal

variable {state : State}

/-- A handler that was added with a sender name and not deleted. -/
structure Listening (state : State) (conn : ConnId) (sh : HandlerId) (handler : Handler)
    (name : String) : Prop where
  listed : sh ∈ state.signalHandlers conn
  allocated : state.handlers sh = some handler
  kept : handler.deleteMe = false
  named : handler.sender = some name

/-- The message comes from the owner of the name that the bus reported last, or
from the name itself if it is a unique name or the bus. -/
def FromOwner (state : State) (conn : ConnId) (name : String) (message : Message) : Prop :=
  if isOwnOwner name then message.sender = some name
  else ∃ uniqueName, state.reported conn name = .owner uniqueName ∧
    message.sender = some uniqueName

/-- A callback that is about to be called gets a message of the owner. -/
def Authentic (state : State) (label : Label) : Prop :=
  label = .advance → ∀ conn handler message name,
    lookedAt state = some (conn, handler, message) → accepts handler message = true →
      handler.sender = some name → FromOwner state conn name message

/-- The handler that the innermost dispatch looks at next. -/
def inTurn (state : State) : Option HandlerId :=
  match state.dispatches with
  | ⟨conn, some ⟨_, position⟩, _⟩ :: _ => (state.signalHandlers conn)[position]?
  | _ => none

/-! ## What a handler is told -/

/-- A handler is added. -/
def Label.adds : Label → Bool
  | .handlerAdd .. => true
  | _ => false

/-- What happened after a handler was added. Handlers are numbered as they are added. -/
def since : HandlerId → List Label → List Label
  | _, [] => []
  | sh, label :: rest =>
    if label.adds then
      match sh with
      | 0 => rest
      | sh + 1 => since sh rest
    else since sh rest

/-- The owner of a name that a `NameOwnerChanged` signal tells, if any. -/
def signalled (conn : ConnId) (name : String) : Label → Option (Option String)
  | .dispatch other (.signal message) =>
    if other = conn ∧ isNameOwnerChanged message then
      message.threeStrings.bind fun strings => if strings.1 = name then some (ownerField strings.2.2) else none
    else none
  | _ => none

/-- The owner of its name that a handler is told, or that there is none: by a signal, or by a reply to its
own lookup that names an owner. -/
def tells (conn : ConnId) (sh : HandlerId) (name : String) : Label → Option (Option String)
  | .dispatch _ (.nameOwner asked (.owner uniqueName)) =>
    if asked = sh then (ownerField uniqueName).map some else none
  | label => signalled conn name label

/-- The owner that a handler was told last. Names that own themselves need not be told. -/
def heard (conn : ConnId) (sh : HandlerId) (name : String) (labels : List Label) : Option String :=
  ((since sh labels).filterMap (tells conn sh name)).getLast?.getD (if isOwnOwner name then some name else none)

/-- A signal of anyone but the owner comes to a handler that waits for no lookup and whose other filters it
passes only if the handler was told last of an owner that did not send it. -/
def Warned (recorded : List Label × State) (label : Label) : Prop :=
  label = .advance → ∀ conn sh handler message name,
    inTurn recorded.2 = some sh → lookedAt recorded.2 = some (conn, handler, message) →
      passes handler message = true → handler.sender = some name → ¬ FromOwner recorded.2 conn name message →
        ∃ owner, heard conn sh name recorded.1 = some owner ∧ message.sender ≠ some owner

section Told

variable {conn : ConnId} {sh : HandlerId} {name : String} {labels later : List Label} {label : Label}

/-- Of a handler that was added, what follows is told after what came before. -/
theorem since_append (added : sh < labels.countP Label.adds) :
    since sh (labels ++ later) = since sh labels ++ later := by
  induction labels generalizing sh with
  | nil => cases added
  | cons label rest ih =>
      rw [List.countP_cons] at added
      simp only [List.cons_append, since]
      split
      · next adds =>
          rw [if_pos adds] at added
          cases sh with
          | zero => rfl
          | succ sh => exact ih (Nat.lt_of_succ_lt_succ added)
      · next adds =>
          rw [if_neg adds] at added
          exact ih added

/-- Nothing was told yet when a handler is added. -/
theorem since_added (isNew : sh = labels.countP Label.adds) (adds : label.adds = true) :
    since sh (labels ++ [label]) = [] := by
  induction labels generalizing sh with
  | nil =>
      subst isNew
      simp [since, adds]
  | cons first rest ih =>
      rw [List.countP_cons] at isNew
      simp only [List.cons_append, since]
      split
      · next firstAdds =>
          rw [if_pos firstAdds] at isNew
          subst isNew
          exact ih rfl
      · next firstAdds =>
          rw [if_neg firstAdds] at isNew
          exact ih isNew

/-- One more label tells something, or nothing. -/
theorem heard_append (added : sh < labels.countP Label.adds) :
    heard conn sh name (labels ++ [label]) = (tells conn sh name label).getD (heard conn sh name labels) := by
  rw [heard, since_append added, List.filterMap_append]
  cases told : tells conn sh name label with
  | none => simp [told, heard]
  | some owner => simp [told]

/-- Without a reply it was told by signals only. -/
theorem heard_unanswered (unanswered : ∀ other reply, .dispatch other (.nameOwner sh reply) ∉ since sh labels) :
    heard conn sh name labels =
      ((since sh labels).filterMap (signalled conn name)).getLast?.getD (if isOwnOwner name then some name else none) := by
  have bySignals : ∀ label ∈ since sh labels, tells conn sh name label = signalled conn name label := by
    intro label listed
    unfold tells
    split
    · next other asked uniqueName =>
        rw [if_neg]
        · rfl
        · rintro rfl
          exact unanswered other (.owner uniqueName) listed
    · rfl
  rw [heard, List.filterMap_congr bySignals]

end Told

/-- Handlers may go or be marked as deleted, and all else of them stays. -/
structure Narrows (before after : State) : Prop where
  listed : ∀ conn sh, sh ∈ after.signalHandlers conn → sh ∈ before.signalHandlers conn
  handlers : ∀ sh handler, after.handlers sh = some handler →
    before.handlers sh = some handler ∨ handler.deleteMe = true ∧ handler.pending = false
  freed : ∀ sh, before.handlers sh = none → after.handlers sh = none
  nextHandler : after.nextHandler = before.nextHandler
  reported : after.reported = before.reported

theorem Narrows.of_eq {before after : State} (handlers : after.handlers = before.handlers)
    (signalHandlers : after.signalHandlers = before.signalHandlers)
    (nextHandler : after.nextHandler = before.nextHandler) (reported : after.reported = before.reported) :
    Narrows before after where
  listed _ _ isListed := signalHandlers ▸ isListed
  handlers _ _ allocated := .inl (handlers ▸ allocated)
  freed _ isFreed := handlers ▸ isFreed
  nextHandler := nextHandler
  reported := reported

theorem Narrows.trans {before between after : State} (first : Narrows before between)
    (second : Narrows between after) : Narrows before after where
  listed conn sh isListed := first.listed conn sh (second.listed conn sh isListed)
  handlers sh handler allocated := by
    rcases second.handlers sh handler allocated with kept | deleted
    · exact first.handlers sh handler kept
    · exact .inr deleted
  freed sh isFreed := second.freed sh (first.freed sh isFreed)
  nextHandler := second.nextHandler.trans first.nextHandler
  reported := second.reported.trans first.reported

/-- Who listens after handlers went was listening before. -/
theorem Narrows.listening {before after : State} (narrows : Narrows before after) {conn : ConnId} {sh : HandlerId}
    {handler : Handler} {name : String} (listens : Listening after conn sh handler name) :
    Listening before conn sh handler name := by
  refine ⟨narrows.listed conn sh listens.listed, ?_, listens.kept, listens.named⟩
  rcases narrows.handlers sh handler listens.allocated with kept | ⟨deleted, -⟩
  · exact kept
  · rw [listens.kept] at deleted
    cases deleted

theorem handlerDel_narrows (state : State) (conn : ConnId) (sh : HandlerId) :
    Narrows state (handlerDel state conn sh) := by
  unfold handlerDel
  split
  · exact .of_eq rfl rfl rfl rfl
  · rename_i deleted found
    split
    · constructor
      case listed =>
        intro other sh' isListed
        simp only [Function.update_apply] at isListed
        split at isListed
        · subst other
          exact List.mem_of_mem_erase isListed
        · exact isListed
      case handlers =>
        intro sh' handler allocated
        simp only [Function.update_apply] at allocated
        split at allocated
        · cases allocated
        · exact .inl allocated
      case freed =>
        intro sh' isFreed
        simp only [Function.update_apply, isFreed, ite_self]
      case nextHandler => rfl
      case reported => rfl
    · constructor
      case listed => exact fun _ _ isListed => isListed
      case handlers =>
        intro sh' handler allocated
        simp only [Function.update_apply] at allocated
        split at allocated
        · obtain rfl := Option.some.inj allocated
          exact .inr ⟨rfl, rfl⟩
        · exact .inl allocated
      case freed =>
        intro sh' isFreed
        have different : sh' ≠ sh := by
          rintro rfl
          rw [found] at isFreed
          cases isFreed
        simp only [Function.update_of_ne different, isFreed]
      case nextHandler => rfl
      case reported => rfl

theorem handlersClean_narrows (state : State) (conn : ConnId) : Narrows state (handlersClean state conn) := by
  unfold handlersClean
  split
  · have start : Narrows state { state with deletions := false } := .of_eq rfl rfl rfl rfl
    generalize { state with deletions := false } = cleaned at start
    induction state.signalHandlers conn generalizing cleaned with
    | nil => exact start
    | cons sh rest ih =>
        apply ih
        unfold handlerClean
        split
        · exact start.trans (.of_eq rfl rfl rfl rfl)
        · split
          · exact start.trans (handlerDel_narrows cleaned conn sh)
          · exact start
  · exact .of_eq rfl rfl rfl rfl

theorem advance_narrows {next : State} (advanced : advance state = some next) : Narrows state next := by
  unfold advance at advanced
  split at advanced
  · split at advanced
    · obtain rfl := Option.some.inj advanced
      exact .of_eq rfl rfl rfl rfl
    · split at advanced
      · obtain rfl := Option.some.inj advanced
        exact .of_eq rfl rfl rfl rfl
      · obtain rfl := Option.some.inj advanced
        exact .of_eq rfl rfl rfl rfl
  · cases advanced

/-- A handler that listens after one was added is the new one, or was listening before. -/
theorem listening_handlerAdd (old : ∀ conn sh, sh ∈ state.signalHandlers conn → sh < state.nextHandler)
    {conn other : ConnId} {added handler : Handler} {sh : HandlerId} {name : String}
    (listens : Listening (handlerAdd state conn added) other sh handler name) :
    (sh = state.nextHandler ∧ other = conn ∧ handler = added ∧ added.sender = some name) ∨
      Listening state other sh handler name := by
  obtain ⟨listed, allocated, kept, named⟩ := listens
  simp only [handlerAdd, Function.update_apply] at listed allocated
  by_cases isNew : sh = state.nextHandler
  · rw [if_pos isNew, Option.some.injEq] at allocated
    subst allocated isNew
    split at listed
    · next here => exact .inl ⟨rfl, here, rfl, named⟩
    · exact absurd (old other _ listed) (Nat.lt_irrefl _)
  · rw [if_neg isNew] at allocated
    refine .inr ⟨?_, allocated, kept, named⟩
    split at listed
    · subst other
      simpa [isNew] using listed
    · exact listed

theorem listed_handlerAdd (state : State) {conn other : ConnId} {added : Handler} {sh : HandlerId}
    (listed : sh ∈ (handlerAdd state conn added).signalHandlers other) :
    (sh = state.nextHandler ∧ other = conn) ∨ sh ∈ state.signalHandlers other := by
  simp only [handlerAdd, Function.update_apply] at listed
  split at listed
  · next here =>
      rcases List.mem_append.mp listed with before | isNew
      · exact .inr (here ▸ before)
      · exact .inl ⟨List.mem_singleton.mp isNew, here⟩
  · exact .inr listed

theorem handlerAdd_old (old : ∀ conn sh, sh ∈ state.signalHandlers conn → sh < state.nextHandler) (conn : ConnId)
    (added : Handler) : ∀ other sh, sh ∈ (handlerAdd state conn added).signalHandlers other →
      sh < state.nextHandler + 1 := by
  intro other sh listed
  rcases listed_handlerAdd state listed with ⟨rfl, -⟩ | before
  · exact Nat.lt_succ_self _
  · exact Nat.lt_succ_of_lt (old other sh before)

theorem handlerAdd_single (old : ∀ conn sh, sh ∈ state.signalHandlers conn → sh < state.nextHandler)
    (single : ∀ first second sh, sh ∈ state.signalHandlers first → sh ∈ state.signalHandlers second → first = second)
    (conn : ConnId) (added : Handler) : ∀ first second sh, sh ∈ (handlerAdd state conn added).signalHandlers first →
      sh ∈ (handlerAdd state conn added).signalHandlers second → first = second := by
  have fresh : ∀ other, state.nextHandler ∉ state.signalHandlers other := fun other listed =>
    absurd (old other _ listed) (Nat.lt_irrefl _)
  intro first second sh left right
  rcases listed_handlerAdd state left with ⟨rfl, rfl⟩ | leftBefore
  · rcases listed_handlerAdd state right with ⟨-, rfl⟩ | rightBefore
    · rfl
    · exact absurd rightBefore (fresh second)
  · rcases listed_handlerAdd state right with ⟨rfl, -⟩ | rightBefore
    · exact absurd leftBefore (fresh first)
    · exact single first second sh leftBefore rightBefore

/-! ## Messages -/

theorem nameOwnerChanged_fields (bus newOwner : String) (handler : Handler) :
    (nameOwnerChanged bus newOwner handler).deleteMe = handler.deleteMe ∧
    (nameOwnerChanged bus newOwner handler).sender = handler.sender ∧
    (nameOwnerChanged bus newOwner handler).pending = handler.pending := by
  unfold nameOwnerChanged
  split <;> exact ⟨rfl, rfl, rfl⟩

theorem nameOwnerChanged_owner {bus newOwner name : String} {handler : Handler}
    (kept : handler.deleteMe = false) (named : handler.sender = some name) :
    (nameOwnerChanged bus newOwner handler).owner =
      if name = bus then ownerField newOwner else handler.owner := by
  unfold nameOwnerChanged
  by_cases own : name = bus
  · simp [own, kept, named]
  · simp [own, kept, named]

/-- `NameOwnerChanged` changes the owners that the handlers for the name have, and nothing else of
them. -/
theorem listening_signalBegin
    (single : ∀ first second sh, sh ∈ state.signalHandlers first → sh ∈ state.signalHandlers second → first = second)
    {conn other : ConnId} {message : Message} {bus oldOwner newOwner : String} {sh : HandlerId} {handler : Handler}
    {name : String} (isChange : isNameOwnerChanged message = true)
    (args : message.threeStrings = some (bus, oldOwner, newOwner))
    (listens : Listening (signalBegin state conn message) other sh handler name) :
    ∃ before, Listening state other sh before name ∧ handler.pending = before.pending ∧
      handler.owner = if other = conn ∧ name = bus then ownerField newOwner else before.owner := by
  obtain ⟨listed, allocated, kept, named⟩ := listens
  rw [signalBegin, if_pos isChange, args] at listed allocated
  dsimp only at listed allocated
  by_cases here : other = conn
  · subst here
    rw [if_pos listed, Option.map_eq_some_iff] at allocated
    obtain ⟨before, found, rfl⟩ := allocated
    obtain ⟨sameDelete, sameSender, samePending⟩ := nameOwnerChanged_fields bus newOwner before
    rw [sameDelete] at kept
    rw [sameSender] at named
    refine ⟨before, ⟨listed, found, kept, named⟩, samePending, ?_⟩
    rw [nameOwnerChanged_owner kept named]
    simp
  · have elsewhere : sh ∉ state.signalHandlers conn := fun both => here (single other conn sh listed both)
    rw [if_neg elsewhere] at allocated
    exact ⟨handler, ⟨listed, allocated, kept, named⟩, rfl, by simp [here]⟩

theorem cbNameOwner_fields (handler : Handler) (reply : OwnerReply) :
    (cbNameOwner handler reply).deleteMe = handler.deleteMe ∧
    (cbNameOwner handler reply).sender = handler.sender := by
  cases reply <;> exact ⟨rfl, rfl⟩

/-- A reply changes what the handler that asked knows, and no other handler. -/
theorem listening_nameOwner {sh : HandlerId} {asking : Handler} (found : state.handlers sh = some asking)
    {reply : OwnerReply} {next : State} {other : ConnId} {sh' : HandlerId} {handler : Handler} {name : String}
    (listens : Listening next other sh' handler name)
    (handlers : next.handlers = Function.update state.handlers sh (some (cbNameOwner asking reply)))
    (lists : next.signalHandlers = state.signalHandlers) :
    sh' = sh ∧ handler = cbNameOwner asking reply ∧ Listening state other sh asking name ∨
      sh' ≠ sh ∧ Listening state other sh' handler name := by
  obtain ⟨listed, allocated, kept, named⟩ := listens
  rw [lists] at listed
  rw [handlers, Function.update_apply] at allocated
  split at allocated
  · subst sh'
    obtain rfl := Option.some.inj allocated
    obtain ⟨sameDelete, sameSender⟩ := cbNameOwner_fields asking reply
    rw [sameDelete] at kept
    rw [sameSender] at named
    exact .inl ⟨rfl, rfl, listed, found, kept, named⟩
  · rename_i different
    exact .inr ⟨different, listed, allocated, kept, named⟩

/-! ## What is recorded -/

/-- Handlers are listed on one connection, numbered as they were added, and have recorded what they were told. No
reply came to one that waits for it. -/
structure Hearing (recorded : List Label × State) : Prop where
  count : recorded.2.nextHandler = recorded.1.countP Label.adds
  old : ∀ conn sh, sh ∈ recorded.2.signalHandlers conn → sh < recorded.2.nextHandler
  single : ∀ first second sh, sh ∈ recorded.2.signalHandlers first →
    sh ∈ recorded.2.signalHandlers second → first = second
  owner : ∀ conn sh handler name, Listening recorded.2 conn sh handler name →
    handler.owner = heard conn sh name recorded.1
  asked : ∀ conn sh handler name, Listening recorded.2 conn sh handler name → handler.pending = true →
    ∀ other reply, .dispatch other (.nameOwner sh reply) ∉ since sh recorded.1

theorem initial_hearing : Hearing ([], State.initial) where
  count := rfl
  old _ _ listed := absurd listed List.not_mem_nil
  single _ _ _ listed := absurd listed List.not_mem_nil
  owner _ _ _ _ listens := absurd listens.listed List.not_mem_nil
  asked _ _ _ _ listens := absurd listens.listed List.not_mem_nil

section Hearing

variable {labels : List Label} {label : Label} {conn : ConnId}

theorem Hearing.added {recorded : List Label × State} (hearing : Hearing recorded) {sh : HandlerId}
    {handler : Handler} {name : String} (listens : Listening recorded.2 conn sh handler name) :
    sh < recorded.1.countP Label.adds := hearing.count ▸ hearing.old conn sh listens.listed

/-- A label that adds no handler and answers no lookup. -/
theorem Hearing.unasked {recorded : List Label × State} (hearing : Hearing recorded) {sh : HandlerId}
    {handler : Handler} {name : String} (listens : Listening recorded.2 conn sh handler name)
    (pending : handler.pending = true) (unanswered : ∀ other reply, label ≠ .dispatch other (.nameOwner sh reply)) :
    ∀ other reply, .dispatch other (.nameOwner sh reply) ∉ since sh (recorded.1 ++ [label]) := by
  intro other reply listed
  rw [since_append (hearing.added listens)] at listed
  rcases List.mem_append.mp listed with before | isLabel
  · exact hearing.asked conn sh handler name listens pending other reply before
  · exact unanswered other reply (List.mem_singleton.mp isLabel).symm

/-- Handlers only go, and nothing is told. -/
theorem Hearing.narrow (hearing : Hearing (labels, state)) {next : State} (narrows : Narrows state next)
    (silent : ∀ conn sh name, tells conn sh name label = none) (adds : label.adds = false)
    (unanswered : ∀ sh other reply, label ≠ .dispatch other (.nameOwner sh reply)) :
    Hearing (labels ++ [label], next) where
  count := by
    rw [narrows.nextHandler, hearing.count, List.countP_append]
    simp [adds]
  old conn sh listed := narrows.nextHandler ▸ hearing.old conn sh (narrows.listed conn sh listed)
  single first second sh left right :=
    hearing.single first second sh (narrows.listed first sh left) (narrows.listed second sh right)
  owner conn sh handler name listens := by
    have before := narrows.listening listens
    rw [heard_append (hearing.added before), silent, Option.getD_none]
    exact hearing.owner conn sh handler name before
  asked conn sh handler name listens pending :=
    hearing.unasked (narrows.listening listens) pending (unanswered sh)

theorem Hearing.handlerAdd (hearing : Hearing (labels, state)) (conn : ConnId)
    (sender path interface member : Option String) (hasCallback lookupSent : Bool) :
    Hearing (labels ++ [.handlerAdd conn sender path interface member hasCallback lookupSent],
      handlerAdd state conn (handlerNew sender path interface member hasCallback lookupSent)) where
  count := by
    rw [List.countP_append, ← hearing.count]
    rfl
  old := handlerAdd_old hearing.old conn _
  single := handlerAdd_single hearing.old hearing.single conn _
  owner other sh handler name listens := by
    rcases listening_handlerAdd hearing.old listens with ⟨rfl, -, rfl, rfl⟩ | before
    · rw [heard, since_added hearing.count rfl]
      cases isOwn : isOwnOwner name <;> simp [handlerNew, looksUp, isOwn]
    · rw [heard_append (hearing.added before)]
      exact hearing.owner other sh handler name before
  asked other sh handler name listens pending := by
    rcases listening_handlerAdd hearing.old listens with ⟨rfl, -, -, -⟩ | before
    · rw [since_added hearing.count rfl]
      exact fun _ _ => List.not_mem_nil
    · exact hearing.unasked before pending nofun

theorem Hearing.signalBegin (hearing : Hearing (labels, state)) (conn : ConnId) (message : Message) :
    Hearing (labels ++ [.dispatch conn (.signal message)], signalBegin state conn message) := by
  cases isChange : isNameOwnerChanged message with
  | false =>
      rw [Signal.signalBegin, if_neg (by simp [isChange])]
      exact hearing.narrow (.of_eq rfl rfl rfl rfl) (fun _ _ _ => by simp [tells, signalled, isChange]) rfl nofun
  | true =>
      cases args : message.threeStrings with
      | none =>
          rw [Signal.signalBegin, if_pos isChange, args]
          exact hearing.narrow (.of_eq rfl rfl rfl rfl) (fun _ _ _ => by simp [tells, signalled, args]) rfl nofun
      | some strings =>
          obtain ⟨bus, oldOwner, newOwner⟩ := strings
          have same : (Signal.signalBegin state conn message).signalHandlers = state.signalHandlers ∧
              (Signal.signalBegin state conn message).nextHandler = state.nextHandler := by
            rw [Signal.signalBegin, if_pos isChange, args]
            exact ⟨rfl, rfl⟩
          obtain ⟨sameHandlers, sameNext⟩ := same
          constructor
          case count =>
            rw [sameNext, hearing.count, List.countP_append]
            rfl
          case old =>
            rw [sameHandlers, sameNext]
            exact hearing.old
          case single =>
            rw [sameHandlers]
            exact hearing.single
          case owner =>
            intro other sh handler name listens
            obtain ⟨before, listened, -, owner⟩ := listening_signalBegin hearing.single isChange args listens
            have told : tells other sh name (.dispatch conn (.signal message)) =
                if other = conn ∧ name = bus then some (ownerField newOwner) else none := by
              by_cases sameConn : conn = other
              · by_cases sameName : bus = name
                · simp [tells, signalled, isChange, args, sameConn, sameName]
                · simp [tells, signalled, isChange, args, sameConn, sameName, Ne.symm sameName]
              · simp [tells, signalled, sameConn, Ne.symm sameConn]
            rw [heard_append (hearing.added listened), told, owner]
            split
            · rfl
            · exact hearing.owner other sh before name listened
          case asked =>
            intro other sh handler name listens pending
            obtain ⟨before, listened, samePending, -⟩ := listening_signalBegin hearing.single isChange args listens
            exact hearing.unasked listened (samePending ▸ pending) nofun

theorem Hearing.nameOwner (hearing : Hearing (labels, state)) {sh : HandlerId} {reply : OwnerReply} {next : State}
    (begun : dispatchBegin state conn (.nameOwner sh reply) = some next) :
    Hearing (labels ++ [.dispatch conn (.nameOwner sh reply)], next) := by
  simp only [dispatchBegin] at begun
  split at begun
  · cases begun
  rename_i asking found
  rw [Option.ite_none_right_eq_some, Option.some.injEq] at begun
  obtain ⟨-, rfl⟩ := begun
  constructor
  case count =>
    rw [List.countP_append]
    exact hearing.count
  case old => exact hearing.old
  case single => exact hearing.single
  case owner =>
    intro other sh' handler name listens
    obtain ⟨rfl, rfl, listened⟩ | ⟨different, listened⟩ := listening_nameOwner found listens rfl rfl
    · rw [heard_append (hearing.added listened)]
      have recorded := hearing.owner other sh' asking name listened
      cases reply with
      | owner uniqueName =>
          cases field : ownerField uniqueName with
          | none => simpa [cbNameOwner, tells, field] using recorded
          | some owner => simp [cbNameOwner, tells, field]
      | noOwner => exact recorded
      | failed => exact recorded
    · have silent : tells other sh' name (.dispatch conn (.nameOwner sh reply)) = none := by
        cases reply <;> simp [tells, signalled, different.symm]
      rw [heard_append (hearing.added listened), silent]
      exact hearing.owner other sh' handler name listened
  case asked =>
    intro other sh' handler name listens pending
    obtain ⟨-, rfl, -⟩ | ⟨different, listened⟩ := listening_nameOwner found listens rfl rfl
    · cases reply <;> cases pending
    · refine hearing.unasked listened pending ?_
      rintro _ _ ⟨⟩
      exact different rfl

theorem step_hearing {next : State} (hearing : Hearing (labels, state)) (stepped : step state label = some next) :
    Hearing (labels ++ [label], next) := by
  unfold step at stepped
  split at stepped
  · cases stepped
  cases label with
  | handlerAdd conn sender path interface member hasCallback lookupSent =>
      simp only [Option.ite_none_right_eq_some, Option.some.injEq] at stepped
      obtain ⟨_, rfl⟩ := stepped
      exact hearing.handlerAdd conn sender path interface member hasCallback lookupSent
  | handlerDel conn sh =>
      simp only [Option.ite_none_right_eq_some, Option.some.injEq] at stepped
      obtain ⟨_, rfl⟩ := stepped
      exact hearing.narrow (handlerDel_narrows state conn sh) (fun _ _ _ => rfl) rfl nofun
  | dispatch conn incoming =>
      simp only [Option.ite_none_right_eq_some] at stepped
      obtain ⟨_, begun⟩ := stepped
      cases incoming with
      | signal message =>
          obtain rfl := Option.some.inj begun
          exact hearing.signalBegin conn message
      | nameOwner sh reply => exact hearing.nameOwner begun
      | other =>
          obtain rfl := Option.some.inj begun
          exact hearing.narrow (.of_eq rfl rfl rfl rfl) (fun _ _ _ => rfl) rfl nofun
  | advance => exact hearing.narrow (advance_narrows stepped) (fun _ _ _ => rfl) rfl nofun
  | idlerLeave =>
      simp only at stepped
      split at stepped
      · rename_i conn inCallback outer running
        obtain rfl := Option.some.inj stepped
        have popped : Narrows state { state with dispatches := outer } := .of_eq rfl rfl rfl rfl
        exact hearing.narrow (popped.trans (handlersClean_narrows _ conn)) (fun _ _ _ => rfl) rfl nofun
      · cases stepped

theorem hearing_throughout (labels : List Label) :
    machine.recording.Throughout Hearing ([], State.initial) labels := by
  refine Semantics.Machine.throughout_of_preserved ?_ labels initial_hearing
  intro recorded label next hearing stepped
  obtain ⟨after, taken, rfl⟩ := Option.map_eq_some_iff.mp stepped
  exact step_hearing hearing taken

/-- In every run a handler has recorded the owner that it was told last. -/
theorem owner_heard {sh : HandlerId} {handler : Handler} {name : String}
    (executed : machine.exec State.initial labels = some state)
    (listens : Listening state conn sh handler name) : handler.owner = heard conn sh name labels := by
  have hearing : Hearing (labels, state) :=
    (hearing_throughout labels).finish (Semantics.Machine.recording_exec executed)
  exact hearing.owner conn sh handler name listens

/-- A handler that waits for the reply to its lookup has recorded what the signals since it was added told last. -/
theorem owner_signalled {sh : HandlerId} {handler : Handler} {name : String}
    (executed : machine.exec State.initial labels = some state)
    (listens : Listening state conn sh handler name) (pending : handler.pending = true) :
    handler.owner =
      ((since sh labels).filterMap (signalled conn name)).getLast?.getD
        (if isOwnOwner name then some name else none) := by
  have hearing : Hearing (labels, state) :=
    (hearing_throughout labels).finish (Semantics.Machine.recording_exec executed)
  rw [← heard_unanswered (hearing.asked conn sh handler name listens pending)]
  exact owner_heard executed listens

end Hearing

/-! ## Authenticity -/

theorem lookedAt_listed {conn : ConnId} {sh : HandlerId} {handler : Handler} {message : Message}
    (turn : inTurn state = some sh) (looked : lookedAt state = some (conn, handler, message)) :
    sh ∈ state.signalHandlers conn ∧ state.handlers sh = some handler := by
  unfold lookedAt at looked
  split at looked
  · next running =>
      simp only [inTurn, running] at turn
      rw [turn] at looked
      obtain ⟨found, isFound, equal⟩ := Option.map_eq_some_iff.mp looked
      simp only [Prod.mk.injEq] at equal
      obtain ⟨rfl, rfl, rfl⟩ := equal
      exact ⟨List.mem_of_getElem? turn, isFound⟩
  · cases looked

/-- Whoever is looked at has a turn. -/
theorem inTurn_of_lookedAt {looked : ConnId × Handler × Message} (isLooked : lookedAt state = some looked) :
    ∃ sh, inTurn state = some sh := by
  unfold lookedAt at isLooked
  split at isLooked
  · next running =>
      split at isLooked
      · cases isLooked
      · next sh located => exact ⟨sh, by simp only [inTurn, running, located]⟩
  · cases isLooked

theorem authentic_iff_warned {recorded : List Label × State} (hearing : Hearing recorded) (label : Label) :
    Authentic recorded.2 label ↔ Warned recorded label := by
  constructor
  · intro authentic isAdvance conn sh handler message name turn looked passing named foreign
    obtain ⟨listed, allocated⟩ := lookedAt_listed turn looked
    have kept : handler.deleteMe = false := by
      simp only [passes, Bool.and_eq_true, Bool.not_eq_true'] at passing
      exact passing.1.1.1.1.2
    rw [← hearing.owner conn sh handler name ⟨listed, allocated, kept, named⟩]
    -- the signal is refused, and only the recorded owner is left to refuse it
    have refused : accepts handler message ≠ true := fun accepted =>
      foreign (authentic isAdvance conn handler message name looked accepted named)
    cases isOwner : handler.owner with
    | none => exact absurd (by simp [accepts, passing, isOwner]) refused
    | some owner =>
        refine ⟨owner, rfl, fun sent => refused ?_⟩
        simp [accepts, passing, isOwner, sent]
  · intro warned isAdvance conn handler message name looked accepted named
    by_contra foreign
    simp only [accepts, Bool.and_eq_true] at accepted
    obtain ⟨passing, fromRecorded⟩ := accepted
    obtain ⟨sh, turn⟩ := inTurn_of_lookedAt looked
    obtain ⟨listed, allocated⟩ := lookedAt_listed turn looked
    have kept : handler.deleteMe = false := by
      simp only [passes, Bool.and_eq_true, Bool.not_eq_true'] at passing
      exact passing.1.1.1.1.2
    obtain ⟨owner, told, other⟩ := warned isAdvance conn sh handler message name turn looked passing named foreign
    rw [← hearing.owner conn sh handler name ⟨listed, allocated, kept, named⟩] at told
    rw [told, Option.all_some, Message.hasSender_iff] at fromRecorded
    exact other fromRecorded

/-- Every callback gets only messages of the owner exactly if, whenever a signal of someone else comes to a
handler, the replies and the changes that the handler got told last of an owner that did not send it. -/
theorem authentic_along_iff (labels : List Label) :
    machine.Along (fun state label _ => Authentic state label) State.initial labels ↔
      machine.recording.Along (fun recorded label _ => Warned recorded label) ([], State.initial) labels := by
  refine Semantics.Machine.along_recording.symm.trans (Semantics.Machine.along_congr ?_ (hearing_throughout labels))
  exact fun _ label _ hearing _ => authentic_iff_warned hearing label

/-- A signal with the given sender. -/
def signalFrom (sender : String) : Message :=
  ⟨some sender, some "/", some "org.example.Interface", some "Changed", []⟩

/-- The name has no owner, and anyone's signal reaches the handler. -/
theorem authentic_fails_noOwner :
    ¬ ∀ labels, machine.Along (fun state label _ => Authentic state label) State.initial labels := by
  intro always
  have authentic := always [.handlerAdd 0 (some "org.example.Service") none none none true true,
    .dispatch 0 (.nameOwner 0 .noOwner), .idlerLeave, .dispatch 0 (.signal (signalFrom ":1.66")), .advance]
  obtain ⟨-, authentic⟩ := (Semantics.Machine.along_cons rfl).mp authentic
  obtain ⟨-, authentic⟩ := (Semantics.Machine.along_cons rfl).mp authentic
  obtain ⟨-, authentic⟩ := (Semantics.Machine.along_cons rfl).mp authentic
  obtain ⟨-, authentic⟩ := (Semantics.Machine.along_cons rfl).mp authentic
  obtain ⟨called, -⟩ := (Semantics.Machine.along_cons rfl).mp authentic
  have fromOwner := called rfl _ _ _ "org.example.Service" rfl (by decide) rfl
  rw [FromOwner, if_neg (by decide)] at fromOwner
  obtain ⟨uniqueName, reported, -⟩ := fromOwner
  cases reported

end EDBus.Dbus.Signal
