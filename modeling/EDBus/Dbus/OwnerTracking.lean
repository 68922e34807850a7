import EDBus.Dbus.Bus
import EDBus.Dbus.SignalOwner
import EDBus.Semantics.Feed
import EDBus.Semantics.Simulation

/-!
# The owner that a handler records

A handler installs the rule for its name before it asks for the owner, so whatever it was told last
before the answer agrees with it, unless that came from the time of another rule. `Looked` follows a
lookup from the request to the answer; `tracked_iff_settles` finds the two steps that leave a wrong owner behind.
-/

open EDBus.Semantics.Feed

namespace EDBus.Dbus.Signal

/-- The owner that a handler for the name should have, by what the bus told last. -/
def implied (name : String) : Ownership → Option String
  | .unknown => if isOwnOwner name then some name else none
  | .noOwner => none
  | .owner uniqueName => some uniqueName

/-- Every handler with a sender whose lookup is over has the right owner. -/
def Tracked (system : System) : Prop :=
  ∀ conn sh handler name, Listening system.process conn sh handler name → handler.pending = false →
    handler.owner = implied name (system.process.reported conn name)

/-- No handler is called while its lookup is pending. -/
def Quiet (system : System) : Event → Prop
  | .advance => ∀ conn handler message, lookedAt system.process = some (conn, handler, message) →
      accepts handler message = true → handler.pending = false
  | _ => True

/-- A handler for a name that owns itself is added while the bus said nothing else of it, and the answer
that a name has no owner comes for a handler that has none recorded. -/
def Settles (system : System) : Event → Prop
  | .handlerAdd conn (some name) _ _ _ _ =>
    isOwnOwner name = true → implied name (system.process.reported conn name) = some name
  | .deliver conn => ∀ sh asked handler name, (system.bus.incoming conn).head? = some (.nameOwner sh asked .noOwner) →
      Listening system.process conn sh handler name → handler.pending = true → handler.owner = none
  | _ => True

/-! ## What is told about a name -/

/-- What a notice tells about a name. -/
def entryOf (name : String) : Notice → Option (Entry Ownership)
  | .nameOwnerChanged changed _ newOwner => if changed = name then some (.change (.ofField newOwner)) else none
  | .nameOwner _ asked reply => if asked = name then reply.report.map .snapshot else none

/-- The bus gives these replies. -/
structure Genuine (reply : OwnerReply) (value : Ownership) : Prop where
  told : reply.report = some value
  named : reply ≠ .owner ""

theorem implied_ofField (name newOwner : String) : implied name (.ofField newOwner) = ownerField newOwner := by
  unfold Ownership.ofField
  cases ownerField newOwner <;> rfl

theorem getNameOwner_genuine (bus : Bus) (name : String) :
    Genuine (bus.getNameOwner name) (.ofField (bus.owners name)) := by
  unfold Bus.getNameOwner
  split
  · next unowned => exact ⟨by rw [unowned]; rfl, nofun⟩
  · next owned => exact ⟨rfl, fun same => owned (OwnerReply.owner.inj same)⟩

/-- A genuine reply leaves the right owner, if nobody owns the name and no owner was recorded. -/
theorem Genuine.owner {reply : OwnerReply} {value : Ownership} (genuine : Genuine reply value) (handler : Handler)
    (name : String) (unrecorded : reply = .noOwner → handler.owner = none) :
    (cbNameOwner handler reply).owner = implied name value := by
  cases reply with
  | owner uniqueName =>
      have named : ownerField uniqueName = some uniqueName :=
        if_neg fun empty => genuine.named (congrArg OwnerReply.owner empty)
      obtain rfl := Option.some.inj genuine.told
      rw [implied_ofField, cbNameOwner, named, Option.some_or]
  | noOwner =>
      obtain rfl := Option.some.inj genuine.told
      exact unrecorded rfl
  | failed => cases genuine.told

/-! ## Lookups -/

/-- Where the lookup of a handler is, and what the handler is going to be told. -/
inductive Looked (bus : Bus) (reported : Ownership) (conn : ConnId) (sh : HandlerId) (handler : Handler)
    (name : String) : Prop where
  /-- The bus has not processed the request. -/
  | asking (pending : handler.pending = true) (before after : List Request)
      (sent : bus.outgoing conn = before ++ .getNameOwner sh name :: after)
      (first : ∀ asked, .getNameOwner sh asked ∉ before)
      (ruled : (sh, name) ∈ bus.rules conn ∨ .addMatch sh name ∈ before)
      (unanswered : ∀ asked reply, .nameOwner sh asked reply ∉ bus.incoming conn)
  /-- The reply was not dispatched. -/
  | answering (pending : handler.pending = true) (before after : List Notice) (reply : OwnerReply)
      (value : Ownership) (genuine : Genuine reply value)
      (sent : bus.incoming conn = before ++ .nameOwner sh name reply :: after)
      (first : ∀ asked reply, .nameOwner sh asked reply ∉ before)
      (ruled : (sh, name) ∈ bus.rules conn)
      (agrees : Agrees value (after.filterMap (entryOf name)) (.ofField (bus.owners name)))
  /-- The handler knows the owner. -/
  | settled (pending : handler.pending = false) (ruled : (sh, name) ∈ bus.rules conn)
      (agrees : Agrees reported ((bus.incoming conn).filterMap (entryOf name)) (.ofField (bus.owners name)))
      (owner : handler.owner = implied name reported)

/-- What holds between the process and the bus. -/
structure Faithful (system : System) : Prop where
  old : ∀ conn sh, sh ∈ system.process.signalHandlers conn → sh < system.process.nextHandler
  single : ∀ first second sh, sh ∈ system.process.signalHandlers first →
    sh ∈ system.process.signalHandlers second → first = second
  dropped : ∀ sh handler, system.process.handlers sh = some handler → handler.deleteMe = true →
    handler.pending = false
  asked : ∀ conn sh name, .getNameOwner sh name ∈ system.bus.outgoing conn → sh < system.process.nextHandler
  answered : ∀ conn sh name reply, .nameOwner sh name reply ∈ system.bus.incoming conn →
    sh < system.process.nextHandler
  removed : ∀ conn sh, .removeMatch sh ∈ system.bus.outgoing conn →
    sh < system.process.nextHandler ∧ system.process.handlers sh = none
  own : ∀ conn sh handler name, Listening system.process conn sh handler name → isOwnOwner name = true →
    handler.pending = false ∧ handler.owner = implied name (system.process.reported conn name)
  looked : ∀ conn sh handler name, Listening system.process conn sh handler name → isOwnOwner name = false →
    Looked system.bus (system.process.reported conn name) conn sh handler name

theorem initial_faithful (owners : String → String) : Faithful (System.initial owners) where
  old _ _ listed := absurd listed List.not_mem_nil
  single _ _ _ listed := absurd listed List.not_mem_nil
  dropped _ _ allocated := by cases allocated
  asked _ _ _ sent := absurd sent List.not_mem_nil
  answered _ _ _ _ sent := absurd sent List.not_mem_nil
  removed _ _ sent := absurd sent List.not_mem_nil
  own _ _ _ _ listens := absurd listens.listed List.not_mem_nil
  looked _ _ _ _ listens := absurd listens.listed List.not_mem_nil

theorem Faithful.tracked {system : System} (faithful : Faithful system) : Tracked system := by
  intro conn sh handler name listens notPending
  cases own : isOwnOwner name with
  | true => exact (faithful.own conn sh handler name listens own).2
  | false =>
      cases faithful.looked conn sh handler name listens own with
      | asking pending => exact absurd (notPending.symm.trans pending) Bool.false_ne_true
      | answering pending => exact absurd (notPending.symm.trans pending) Bool.false_ne_true
      | settled _ _ _ owner => exact owner

/-! ## Lookups and the bus -/

section Bus

variable {bus : Bus} {reported : Ownership} {conn : ConnId} {sh : HandlerId} {handler : Handler} {name : String}

/-- A lookup depends on what concerns its connection and its name. -/
theorem Looked.congr (looked : Looked bus reported conn sh handler name) {other : Bus}
    (outgoing : other.outgoing conn = bus.outgoing conn) (incoming : other.incoming conn = bus.incoming conn)
    (rules : other.rules conn = bus.rules conn) (owner : other.owners name = bus.owners name) :
    Looked other reported conn sh handler name := by
  cases looked with
  | asking pending before after sent first ruled unanswered =>
      exact .asking pending before after (outgoing.trans sent) first (rules ▸ ruled) (incoming ▸ unanswered)
  | answering pending before after reply value genuine sent first ruled agrees =>
      exact .answering pending before after reply value genuine (incoming.trans sent) first (rules ▸ ruled)
        (owner ▸ agrees)
  | settled pending ruled agrees isOwner =>
      exact .settled pending (rules ▸ ruled) (by rwa [incoming, owner]) isOwner

/-- Of the handler matters whether the lookup is pending, and the owner. -/
theorem Looked.of_fields (looked : Looked bus reported conn sh handler name) {read : Handler}
    (samePending : read.pending = handler.pending) (sameOwner : read.owner = handler.owner) :
    Looked bus reported conn sh read name := by
  cases looked with
  | asking pending before after sent first ruled unanswered =>
      exact .asking (samePending.trans pending) before after sent first ruled unanswered
  | answering pending before after reply value genuine sent first ruled agrees =>
      exact .answering (samePending.trans pending) before after reply value genuine sent first ruled agrees
  | settled pending ruled agrees owner =>
      exact .settled (samePending.trans pending) ruled agrees (sameOwner.trans owner)

/-- Requests that are sent later do not matter. -/
theorem Looked.send (looked : Looked bus reported conn sh handler name) (other : ConnId) (requests : List Request) :
    Looked (bus.send other requests) reported conn sh handler name := by
  by_cases same : conn = other
  · subst same
    cases looked with
    | asking pending before after sent first ruled unanswered =>
        refine .asking pending before (after ++ requests) ?_ first ruled unanswered
        rw [Bus.send_outgoing, sent, List.append_assoc, List.cons_append]
    | answering pending before after reply value genuine sent first ruled agrees =>
        exact .answering pending before after reply value genuine sent first ruled agrees
    | settled pending ruled agrees owner => exact .settled pending ruled agrees owner
  · exact looked.congr (Bus.send_outgoing_of_ne bus same requests) rfl rfl rfl

/-- A request that changes the rules does not matter, if the rule of the handler is there after it, should
it be there before it or be installed by it. -/
theorem Looked.ruled (looked : Looked bus reported conn sh handler name) {request : Request} {rest : List Request}
    (oldest : bus.outgoing conn = request :: rest) (asksNothing : request ≠ .getNameOwner sh name)
    {rules : List (HandlerId × String)} (kept : (sh, name) ∈ bus.rules conn → (sh, name) ∈ rules)
    (installs : request = .addMatch sh name → (sh, name) ∈ rules) :
    Looked
      { bus with
        outgoing := Function.update bus.outgoing conn rest
        rules := Function.update bus.rules conn rules }
      reported conn sh handler name := by
  have here : (sh, name) ∈ rules → (sh, name) ∈ Function.update bus.rules conn rules conn := by
    rw [Function.update_self]
    exact id
  cases looked with
  | asking pending before after sent first ruled unanswered =>
      cases before with
      | nil =>
          rw [sent] at oldest
          exact absurd (List.cons.inj oldest).1.symm asksNothing
      | cons request before =>
          rw [sent, List.cons_append] at oldest
          obtain ⟨rfl, rfl⟩ := List.cons.inj oldest
          refine .asking pending before after (Function.update_self ..) ?_ ?_ unanswered
          · exact fun asked listed => first asked (List.mem_cons_of_mem _ listed)
          · rcases ruled with installed | waiting
            · exact .inl (here (kept installed))
            · rcases List.mem_cons.mp waiting with isOldest | later
              · exact .inl (here (installs isOldest.symm))
              · exact .inr later
  | answering pending before after reply value genuine sent first ruled agrees =>
      exact .answering pending before after reply value genuine sent first (here (kept ruled)) agrees
  | settled pending ruled agrees owner => exact .settled pending (here (kept ruled)) agrees owner

/-- A rule that is installed serves only the handler that waits for it. -/
theorem Looked.addMatch (looked : Looked bus reported conn sh handler name) {added : HandlerId} {ruledName : String}
    {rest : List Request} (oldest : bus.outgoing conn = .addMatch added ruledName :: rest) :
    Looked ({ bus with outgoing := Function.update bus.outgoing conn rest }.handle conn (.addMatch added ruledName))
      reported conn sh handler name := by
  refine looked.ruled oldest nofun (List.mem_append_left _) ?_
  rintro ⟨⟩
  exact List.mem_append_right _ (List.mem_singleton.mpr rfl)

/-- The rule of a handler stays when that of another one is removed. -/
theorem Looked.removeMatch (looked : Looked bus reported conn sh handler name) {removed : HandlerId}
    {rest : List Request} (oldest : bus.outgoing conn = .removeMatch removed :: rest) (different : removed ≠ sh) :
    Looked ({ bus with outgoing := Function.update bus.outgoing conn rest }.handle conn (.removeMatch removed))
      reported conn sh handler name := by
  refine looked.ruled oldest nofun ?_ nofun
  intro listed
  exact List.mem_filter.mpr ⟨listed, by simpa using different.symm⟩

/-- An answer agrees with what was told before. -/
theorem agrees_answer {value : Ownership} {queue : List Notice}
    (agrees : Agrees value (queue.filterMap (entryOf name)) (.ofField (bus.owners name))) (asking : HandlerId)
    (asked : String) :
    Agrees value ((queue ++ [Notice.nameOwner asking asked (bus.getNameOwner asked)]).filterMap (entryOf name))
      (.ofField (bus.owners name)) := by
  rw [List.filterMap_append]
  by_cases same : asked = name
  · subst same
    have told := (getNameOwner_genuine bus asked).told
    simp only [List.filterMap_cons, List.filterMap_nil, entryOf, if_true, told, Option.map_some]
    exact agrees.snapshot
  · simpa [entryOf, same] using agrees

/-- The bus answers the lookup, or another one. -/
theorem Looked.getNameOwner (looked : Looked bus reported conn sh handler name) {asking : HandlerId} {asked : String}
    {rest : List Request} (oldest : bus.outgoing conn = .getNameOwner asking asked :: rest) :
    Looked ({ bus with outgoing := Function.update bus.outgoing conn rest }.handle conn (.getNameOwner asking asked))
      reported conn sh handler name := by
  have incoming : ({ bus with outgoing := Function.update bus.outgoing conn rest }.handle conn
      (.getNameOwner asking asked)).incoming conn =
        bus.incoming conn ++ [.nameOwner asking asked (bus.getNameOwner asked)] := Function.update_self ..
  cases looked with
  | asking pending before after sent first ruled unanswered =>
      rw [sent] at oldest
      cases before with
      | nil =>
          obtain ⟨isOldest, rfl⟩ := List.cons.inj oldest
          obtain ⟨rfl, rfl⟩ := Request.getNameOwner.inj isOldest
          rcases ruled with installed | waiting
          · exact .answering pending (bus.incoming conn) [] _ _ (getNameOwner_genuine bus name) incoming unanswered
              installed rfl
          · exact absurd waiting List.not_mem_nil
      | cons request before =>
          obtain ⟨rfl, rfl⟩ := List.cons.inj oldest
          refine .asking pending before after (Function.update_self ..) ?_ ?_ ?_
          · exact fun asked listed => first asked (List.mem_cons_of_mem _ listed)
          · rcases ruled with installed | waiting
            · exact .inl installed
            · rcases List.mem_cons.mp waiting with isOldest | later
              · cases isOldest
              · exact .inr later
          · intro other reply answered
            rw [incoming] at answered
            rcases List.mem_append.mp answered with earlier | isNew
            · exact unanswered other reply earlier
            · obtain ⟨rfl, -, -⟩ := Notice.nameOwner.inj (List.mem_singleton.mp isNew)
              exact first asked List.mem_cons_self
  | answering pending before after reply value genuine sent first ruled agrees =>
      refine .answering pending before (after ++ [.nameOwner asking asked (bus.getNameOwner asked)]) reply value
        genuine ?_ first ruled (agrees_answer agrees asking asked)
      rw [incoming, sent, List.append_assoc, List.cons_append]
  | settled pending ruled agrees owner =>
      refine .settled pending ruled ?_ owner
      rw [incoming]
      exact agrees_answer agrees asking asked

/-- The bus processes a request; the rule of the handler is not removed. -/
theorem Looked.process (looked : Looked bus reported conn sh handler name) {other : ConnId} {next : Bus}
    (processed : bus.process other = some next) (kept : .removeMatch sh ∉ bus.outgoing conn) :
    Looked next reported conn sh handler name := by
  obtain ⟨request, rest, outgoing, rfl⟩ := Bus.process_cases processed
  by_cases same : conn = other
  · subst same
    cases request with
    | addMatch added ruledName => exact looked.addMatch outgoing
    | removeMatch removed =>
        apply looked.removeMatch outgoing
        rintro rfl
        rw [outgoing] at kept
        exact kept List.mem_cons_self
    | getNameOwner asking asked => exact looked.getNameOwner outgoing
  · cases request with
    | addMatch added ruledName =>
        exact looked.congr (Function.update_of_ne same ..) rfl (Function.update_of_ne same ..) rfl
    | removeMatch removed =>
        exact looked.congr (Function.update_of_ne same ..) rfl (Function.update_of_ne same ..) rfl
    | getNameOwner asking asked =>
        exact looked.congr (Function.update_of_ne same ..) (Function.update_of_ne same ..) rfl rfl

/-- A change of the owner is told to whoever has a rule. -/
theorem Looked.change (looked : Looked bus reported conn sh handler name) (changed newOwner : String)
    (others : List ConnId) : Looked (bus.change changed newOwner others) reported conn sh handler name := by
  -- what is appended for this connection tells the new owner, or nothing of the name
  have told : (sh, name) ∈ bus.rules conn → ∀ value queue,
      Agrees value (queue.filterMap (entryOf name)) (.ofField (bus.owners name)) →
      ∀ before, bus.incoming conn = before ++ queue →
        ∃ later, (bus.change changed newOwner others).incoming conn = before ++ (queue ++ later) ∧
          Agrees value ((queue ++ later).filterMap (entryOf name))
            (.ofField ((bus.change changed newOwner others).owners name)) := by
    intro ruled value queue agrees before sent
    by_cases same : changed = name
    · subst same
      have reached : ((bus.rules conn).any (fun rule => rule.2 == changed) || others.contains conn) = true := by
        rw [List.any_eq_true.mpr ⟨(sh, changed), ruled, beq_self_eq_true changed⟩, Bool.true_or]
      refine ⟨[.nameOwnerChanged changed (bus.owners changed) newOwner], ?_, ?_⟩
      · rw [Bus.change]
        dsimp only
        rw [if_pos reached, sent, List.append_assoc]
      · rw [List.filterMap_append, Bus.change]
        simp only [Function.update_self, List.filterMap_cons, entryOf, if_true, List.filterMap_nil]
        exact agrees.change _
    · have owner : (bus.change changed newOwner others).owners name = bus.owners name :=
        Function.update_of_ne (Ne.symm same) ..
      rw [owner, Bus.change]
      dsimp only
      split
      · refine ⟨[.nameOwnerChanged changed (bus.owners changed) newOwner], ?_, ?_⟩
        · rw [sent, List.append_assoc]
        · rw [List.filterMap_append]
          simpa [entryOf, same] using agrees
      · exact ⟨[], by rw [sent, List.append_nil], by rwa [List.append_nil]⟩
  cases looked with
  | asking pending before after sent first ruled unanswered =>
      refine .asking pending before after sent first ruled ?_
      intro asked reply answered
      simp only [Bus.change] at answered
      split at answered
      · rcases List.mem_append.mp answered with earlier | isChange
        · exact unanswered asked reply earlier
        · cases List.mem_singleton.mp isChange
      · exact unanswered asked reply answered
  | answering pending before after reply value genuine sent first ruled agrees =>
      have split : bus.incoming conn = (before ++ [.nameOwner sh name reply]) ++ after := by
        rw [sent, List.append_assoc, List.singleton_append]
      obtain ⟨later, incoming, agreesLater⟩ := told ruled value after agrees _ split
      refine .answering pending before (after ++ later) reply value genuine ?_ first ruled agreesLater
      rw [incoming, List.append_assoc, List.singleton_append]
  | settled pending ruled agrees owner =>
      obtain ⟨later, incoming, agreesLater⟩ := told ruled reported (bus.incoming conn) agrees [] rfl
      refine .settled pending ruled ?_ owner
      rw [incoming, List.nil_append]
      exact agreesLater

/-! ## Lookups and what is dispatched -/

/-- The notices that are left. -/
def Bus.rest (bus : Bus) (conn : ConnId) (rest : List Notice) : Bus :=
  { bus with incoming := Function.update bus.incoming conn rest }

/-- What is dispatched on another connection does not matter. -/
theorem Looked.elsewhere (looked : Looked bus reported conn sh handler name) {other : ConnId}
    (different : conn ≠ other) (rest : List Notice) : Looked (bus.rest other rest) reported conn sh handler name :=
  looked.congr rfl (Function.update_of_ne different ..) rfl rfl

theorem rest_incoming (bus : Bus) (conn : ConnId) (rest : List Notice) :
    (bus.rest conn rest).incoming conn = rest := Function.update_self ..

/-- A notice that is no answer to the lookup is dispatched. -/
theorem Looked.pass (looked : Looked bus reported conn sh handler name) (pending : handler.pending = true)
    {notice : Notice} {rest : List Notice} (oldest : bus.incoming conn = notice :: rest)
    (noAnswer : ∀ asked reply, notice ≠ .nameOwner sh asked reply) {read : Handler}
    (same : read.pending = handler.pending) (told : Ownership) :
    Looked (bus.rest conn rest) told conn sh read name := by
  cases looked with
  | asking _ before after sent first ruled unanswered =>
      refine .asking (same.trans pending) before after sent first ruled ?_
      intro asked reply answered
      rw [rest_incoming] at answered
      apply unanswered asked reply
      rw [oldest]
      exact List.mem_cons_of_mem _ answered
  | answering _ before after reply value genuine sent first ruled agrees =>
      rw [sent] at oldest
      cases before with
      | nil =>
          obtain ⟨rfl, -⟩ := List.cons.inj oldest
          exact absurd rfl (noAnswer name reply)
      | cons earlier before =>
          obtain ⟨rfl, rfl⟩ := List.cons.inj oldest
          refine .answering (same.trans pending) before after reply value genuine (rest_incoming ..) ?_ ruled agrees
          exact fun asked reply listed => first asked reply (List.mem_cons_of_mem _ listed)
  | settled notPending => exact absurd (notPending.symm.trans pending) Bool.false_ne_true

/-- A change is dispatched to the handler. -/
theorem Looked.readChange (looked : Looked bus reported conn sh handler name) {changed oldOwner newOwner : String}
    {rest : List Notice} (oldest : bus.incoming conn = .nameOwnerChanged changed oldOwner newOwner :: rest)
    {read : Handler} (same : read.pending = handler.pending)
    (owner : read.owner = if name = changed then ownerField newOwner else handler.owner) :
    Looked (bus.rest conn rest) (if name = changed then .ofField newOwner else reported) conn sh read name := by
  cases pending : handler.pending with
  | true => exact looked.pass pending oldest (fun _ _ => nofun) same _
  | false =>
      cases looked with
      | asking isPending => exact absurd (pending.symm.trans isPending) Bool.false_ne_true
      | answering isPending => exact absurd (pending.symm.trans isPending) Bool.false_ne_true
      | settled _ ruled agrees isOwner =>
          rw [oldest] at agrees
          by_cases here : name = changed
          · subst here
            rw [List.filterMap_cons, entryOf, if_pos rfl] at agrees
            rw [if_pos rfl] at owner ⊢
            refine .settled (same.trans pending) ruled ?_ (owner.trans (implied_ofField name newOwner).symm)
            rw [rest_incoming]
            exact agrees.tail
          · rw [List.filterMap_cons, entryOf, if_neg (Ne.symm here)] at agrees
            rw [if_neg here] at owner ⊢
            refine .settled (same.trans pending) ruled ?_ (owner.trans isOwner)
            rw [rest_incoming]
            exact agrees

/-- The answer to another lookup is dispatched, or one that nobody waits for. -/
theorem Looked.readOther (looked : Looked bus reported conn sh handler name) {asking : HandlerId} {asked : String}
    {reply : OwnerReply} {rest : List Notice} (oldest : bus.incoming conn = .nameOwner asking asked reply :: rest)
    (another : asking = sh → handler.pending = false) {told : Ownership}
    (known : told = reported ∨ asked = name ∧ reply.report = some told) :
    Looked (bus.rest conn rest) told conn sh handler name := by
  cases pending : handler.pending with
  | true =>
      apply looked.pass pending oldest _ rfl
      intro other otherReply isAnswer
      have notPending := another (Notice.nameOwner.inj isAnswer).1
      exact absurd (notPending.symm.trans pending) Bool.false_ne_true
  | false =>
      cases looked with
      | asking isPending => exact absurd (pending.symm.trans isPending) Bool.false_ne_true
      | answering isPending => exact absurd (pending.symm.trans isPending) Bool.false_ne_true
      | settled _ ruled agrees isOwner =>
          rw [oldest, List.filterMap_cons, entryOf] at agrees
          have same : told = reported ∧
              Agrees reported (rest.filterMap (entryOf name)) (.ofField (bus.owners name)) := by
            by_cases here : asked = name
            · rw [if_pos here] at agrees
              cases report : reply.report with
              | none =>
                  rw [report] at agrees
                  rcases known with same | ⟨-, tells⟩
                  · exact ⟨same, agrees⟩
                  · rw [report] at tells
                    cases tells
              | some value =>
                  rw [report] at agrees
                  obtain ⟨agreed, later⟩ := agrees.skip
                  rcases known with same | ⟨-, tells⟩
                  · exact ⟨same, later⟩
                  · rw [report] at tells
                    exact ⟨(Option.some.inj tells).symm.trans agreed, later⟩
            · rw [if_neg here] at agrees
              rcases known with same | ⟨isHere, -⟩
              · exact ⟨same, agrees⟩
              · exact absurd isHere here
          obtain ⟨rfl, later⟩ := same
          refine .settled pending ruled ?_ isOwner
          rw [rest_incoming]
          exact later

/-- The answer is dispatched. -/
theorem Looked.readAnswer (looked : Looked bus reported conn sh handler name) {asked : String} {reply : OwnerReply}
    {rest : List Notice} (oldest : bus.incoming conn = .nameOwner sh asked reply :: rest)
    (pending : handler.pending = true) :
    asked = name ∧ ∃ value, Genuine reply value ∧ ((reply = .noOwner → handler.owner = none) →
      Looked (bus.rest conn rest) value conn sh (cbNameOwner handler reply) name) := by
  cases looked with
  | asking _ _ _ _ _ _ unanswered =>
      rw [oldest] at unanswered
      exact absurd List.mem_cons_self (unanswered asked reply)
  | settled notPending => exact absurd (notPending.symm.trans pending) Bool.false_ne_true
  | answering _ before after answer value genuine sent first ruled agrees =>
      rw [sent] at oldest
      cases before with
      | cons earlier before =>
          obtain ⟨rfl, -⟩ := List.cons.inj oldest
          exact absurd List.mem_cons_self (first asked reply)
      | nil =>
          obtain ⟨isOldest, rfl⟩ := List.cons.inj oldest
          obtain ⟨-, rfl, rfl⟩ := Notice.nameOwner.inj isOldest
          refine ⟨rfl, value, genuine, fun unrecorded => ?_⟩
          refine .settled ?_ ruled ?_ (genuine.owner handler name unrecorded)
          · cases answer <;> rfl
          · rw [rest_incoming]
            exact agrees

end Bus

/-! ## Steps of the process -/

theorem mem_removeRequests {before after : State} {conn : ConnId} {request : Request}
    (sent : request ∈ removeRequests before after conn) :
    ∃ sh, request = .removeMatch sh ∧ sh ∈ before.signalHandlers conn ∧ after.handlers sh = none := by
  obtain ⟨sh, listed, freed⟩ := List.mem_filterMap.mp sent
  refine ⟨sh, ?_⟩
  split at freed
  · next isFreed =>
      split at freed
      · exact ⟨(Option.some.inj freed).symm, listed, isFreed⟩
      · cases freed
  · cases freed

/-- Nobody is freed. -/
theorem removeRequests_eq_nil {before after : State} {conn : ConnId}
    (kept : ∀ sh ∈ before.signalHandlers conn, after.handlers sh = before.handlers sh) :
    removeRequests before after conn = [] := by
  apply List.filterMap_eq_nil_iff.mpr
  intro sh listed
  rw [kept sh listed]
  cases before.handlers sh <;> rfl

/-- Only the owner of a name that does not own itself is asked for. -/
theorem mem_addRequests {sh : HandlerId} {sender : Option String} {request : Request}
    (sent : request ∈ addRequests sh sender) :
    ∃ name, request = .addMatch sh name ∨ request = .getNameOwner sh name := by
  cases sender with
  | none => exact absurd sent List.not_mem_nil
  | some name =>
      rw [addRequests] at sent
      split at sent
      · rcases List.mem_cons.mp sent with isRule | isLookup
        · exact ⟨name, .inl isRule⟩
        · exact ⟨name, .inr (List.mem_singleton.mp isLookup)⟩
      · exact absurd sent List.not_mem_nil

theorem mem_send {bus : Bus} {conn other : ConnId} {requests : List Request} {request : Request}
    (sent : request ∈ (bus.send conn requests).outgoing other) :
    request ∈ bus.outgoing other ∨ request ∈ requests := by
  by_cases same : other = conn
  · subst same
    rw [Bus.send_outgoing] at sent
    exact List.mem_append.mp sent
  · rw [Bus.send_outgoing_of_ne _ same] at sent
    exact .inl sent

/-- What is left to be dispatched was there before. -/
theorem incoming_rest {bus : Bus} {conn other : ConnId} {oldest notice : Notice} {rest : List Notice}
    (incoming : bus.incoming conn = oldest :: rest) (left : notice ∈ (bus.rest conn rest).incoming other) :
    notice ∈ bus.incoming other := by
  by_cases same : other = conn
  · subst same
    rw [rest_incoming] at left
    rw [incoming]
    exact List.mem_cons_of_mem _ left
  · rwa [Bus.rest, show ({ bus with incoming := Function.update bus.incoming conn rest } : Bus).incoming other =
      bus.incoming other from Function.update_of_ne same ..] at left

/-- What is left to be sent was there before. -/
theorem outgoing_process {bus next : Bus} {conn other : ConnId} (processed : bus.process conn = some next)
    {request : Request} (sent : request ∈ next.outgoing other) : request ∈ bus.outgoing other := by
  obtain ⟨oldest, rest, outgoing, rfl⟩ := Bus.process_cases processed
  have left : request ∈ Function.update bus.outgoing conn rest other := by
    cases oldest <;> exact sent
  by_cases same : other = conn
  · subst same
    rw [Function.update_self] at left
    rw [outgoing]
    exact List.mem_cons_of_mem _ left
  · rwa [Function.update_of_ne same] at left

/-- An answer was there before, or was asked for. -/
theorem incoming_process {bus next : Bus} {conn other : ConnId} (processed : bus.process conn = some next)
    {sh : HandlerId} {name : String} {reply : OwnerReply} (sent : .nameOwner sh name reply ∈ next.incoming other) :
    .nameOwner sh name reply ∈ bus.incoming other ∨ .getNameOwner sh name ∈ bus.outgoing other := by
  obtain ⟨oldest, rest, outgoing, rfl⟩ := Bus.process_cases processed
  cases oldest with
  | addMatch added ruledName => exact .inl sent
  | removeMatch removed => exact .inl sent
  | getNameOwner asking asked =>
      simp only [Bus.handle, Function.update_apply] at sent
      split at sent
      · next here =>
          subst here
          rcases List.mem_append.mp sent with earlier | isNew
          · exact .inl earlier
          · obtain ⟨rfl, rfl, -⟩ := Notice.nameOwner.inj (List.mem_singleton.mp isNew)
            rw [outgoing]
            exact .inr List.mem_cons_self
      · exact .inl sent

section Steps

variable {system : System}

/-- Handlers go, and nothing is asked or answered that was not before. -/
theorem Faithful.narrow (faithful : Faithful system) {next : State} (narrows : Narrows system.process next)
    {bus : Bus}
    (asked : ∀ conn sh name, .getNameOwner sh name ∈ bus.outgoing conn →
      .getNameOwner sh name ∈ system.bus.outgoing conn)
    (answered : ∀ conn sh name reply, .nameOwner sh name reply ∈ bus.incoming conn →
      .nameOwner sh name reply ∈ system.bus.incoming conn)
    (removed : ∀ conn sh, .removeMatch sh ∈ bus.outgoing conn → .removeMatch sh ∈ system.bus.outgoing conn ∨
      sh < system.process.nextHandler ∧ next.handlers sh = none)
    (looked : ∀ conn sh handler name, Listening system.process conn sh handler name →
      Looked system.bus (system.process.reported conn name) conn sh handler name →
      Looked bus (system.process.reported conn name) conn sh handler name) : Faithful ⟨next, bus⟩ := by
  constructor
  case old =>
    intro conn sh listed
    rw [narrows.nextHandler]
    exact faithful.old conn sh (narrows.listed conn sh listed)
  case single =>
    intro first second sh left right
    exact faithful.single first second sh (narrows.listed first sh left) (narrows.listed second sh right)
  case dropped =>
    intro sh handler allocated deleted
    rcases narrows.handlers sh handler allocated with kept | ⟨-, notPending⟩
    · exact faithful.dropped sh handler kept deleted
    · exact notPending
  case asked =>
    intro conn sh name sent
    rw [narrows.nextHandler]
    exact faithful.asked conn sh name (asked conn sh name sent)
  case answered =>
    intro conn sh name reply sent
    rw [narrows.nextHandler]
    exact faithful.answered conn sh name reply (answered conn sh name reply sent)
  case removed =>
    intro conn sh sent
    rw [narrows.nextHandler]
    rcases removed conn sh sent with earlier | isNew
    · obtain ⟨known, isFreed⟩ := faithful.removed conn sh earlier
      exact ⟨known, narrows.freed sh isFreed⟩
    · exact isNew
  case own =>
    intro conn sh handler name listens isOwn
    rw [narrows.reported]
    exact faithful.own conn sh handler name (narrows.listening listens) isOwn
  case looked =>
    intro conn sh handler name listens isOwn
    have listened := narrows.listening listens
    rw [narrows.reported]
    exact looked conn sh handler name listened (faithful.looked conn sh handler name listened isOwn)

/-- Handlers go, and their rules are removed. -/
theorem Faithful.remove (faithful : Faithful system) {next : State} (narrows : Narrows system.process next)
    (conn : ConnId) : Faithful ⟨next, system.bus.send conn (removeRequests system.process next conn)⟩ := by
  apply faithful.narrow narrows
  case asked =>
    intro other sh name sent
    rcases mem_send sent with earlier | isNew
    · exact earlier
    · obtain ⟨removed, isRemoval, -⟩ := mem_removeRequests isNew
      cases isRemoval
  case answered => exact fun _ _ _ _ sent => sent
  case removed =>
    intro other sh sent
    rcases mem_send sent with earlier | isNew
    · exact .inl earlier
    · obtain ⟨removed, isRemoval, listed, isFreed⟩ := mem_removeRequests isNew
      obtain rfl := Request.removeMatch.inj isRemoval
      exact .inr ⟨faithful.old conn sh listed, isFreed⟩
  case looked => exact fun _ _ _ _ _ looked => looked.send conn _

/-- A handler is added. -/
theorem Faithful.handlerAdd (faithful : Faithful system) (conn : ConnId)
    (sender path interface member : Option String) (hasCallback : Bool)
    (settles : ∀ name, sender = some name → isOwnOwner name = true →
      implied name (system.process.reported conn name) = some name) :
    Faithful ⟨Signal.handlerAdd system.process conn (handlerNew sender path interface member hasCallback true),
      system.bus.send conn (addRequests system.process.nextHandler sender)⟩ := by
  constructor
  case old => exact handlerAdd_old faithful.old conn _
  case single => exact handlerAdd_single faithful.old faithful.single conn _
  case dropped =>
    intro sh handler allocated deleted
    simp only [Signal.handlerAdd, Function.update_apply] at allocated
    split at allocated
    · obtain rfl := Option.some.inj allocated
      cases deleted
    · exact faithful.dropped sh handler allocated deleted
  case asked =>
    intro other sh name sent
    rcases mem_send sent with earlier | isNew
    · exact Nat.lt_succ_of_lt (faithful.asked other sh name earlier)
    · obtain ⟨asked, isRule | isLookup⟩ := mem_addRequests isNew
      · cases isRule
      · obtain ⟨rfl, -⟩ := Request.getNameOwner.inj isLookup
        exact Nat.lt_succ_self _
  case answered =>
    intro other sh name reply sent
    exact Nat.lt_succ_of_lt (faithful.answered other sh name reply sent)
  case removed =>
    intro other sh sent
    rcases mem_send sent with earlier | isNew
    · obtain ⟨known, isFreed⟩ := faithful.removed other sh earlier
      refine ⟨Nat.lt_succ_of_lt known, ?_⟩
      exact (Function.update_of_ne (Nat.ne_of_lt known) ..).trans isFreed
    · obtain ⟨asked, isRule | isLookup⟩ := mem_addRequests isNew
      · cases isRule
      · cases isLookup
  case own =>
    intro other sh handler name listens isOwn
    rcases listening_handlerAdd faithful.old listens with ⟨-, rfl, rfl, named⟩ | before
    · obtain rfl : sender = some name := named
      constructor
      · simp [handlerNew, looksUp, isOwn]
      · rw [show (Signal.handlerAdd _ other _).reported = system.process.reported from rfl,
          settles name rfl isOwn]
        simp [handlerNew, looksUp, isOwn]
    · exact faithful.own other sh handler name before isOwn
  case looked =>
    intro other sh handler name listens isOwn
    rcases listening_handlerAdd faithful.old listens with ⟨rfl, rfl, rfl, named⟩ | before
    · obtain rfl : sender = some name := named
      have looks : looksUp (some name) = true := by simp [looksUp, isOwn]
      refine .asking ?_ (system.bus.outgoing other ++ [.addMatch system.process.nextHandler name]) [] ?_ ?_ ?_ ?_
      · simp [handlerNew, looks]
      · rw [Bus.send_outgoing, addRequests, if_pos looks, List.append_assoc, List.singleton_append]
      · intro asked listed
        rcases List.mem_append.mp listed with earlier | isRule
        · exact absurd (faithful.asked other _ asked earlier) (Nat.lt_irrefl _)
        · cases List.mem_singleton.mp isRule
      · exact .inr (List.mem_append_right _ List.mem_cons_self)
      · intro asked reply answered
        exact absurd (faithful.answered other _ asked reply answered) (Nat.lt_irrefl _)
    · exact (faithful.looked other sh handler name before isOwn).send conn _

/-- The bus processes a request. -/
theorem Faithful.process (faithful : Faithful system) {conn : ConnId} {bus : Bus}
    (processed : system.bus.process conn = some bus) : Faithful { system with bus } := by
  constructor
  case old => exact faithful.old
  case single => exact faithful.single
  case dropped => exact faithful.dropped
  case asked => exact fun other sh name sent => faithful.asked other sh name (outgoing_process processed sent)
  case answered =>
    intro other sh name reply sent
    rcases incoming_process processed sent with earlier | asked
    · exact faithful.answered other sh name reply earlier
    · exact faithful.asked other sh name asked
  case removed => exact fun other sh sent => faithful.removed other sh (outgoing_process processed sent)
  case own => exact faithful.own
  case looked =>
    intro other sh handler name listens isOwn
    apply (faithful.looked other sh handler name listens isOwn).process processed
    -- the rule of a handler that listens is not removed
    intro sent
    obtain ⟨-, isFreed⟩ := faithful.removed other sh sent
    rw [listens.allocated] at isFreed
    cases isFreed

/-- The owner of a name changes. -/
theorem Faithful.change (faithful : Faithful system) (name newOwner : String) (others : List ConnId) :
    Faithful { system with bus := system.bus.change name newOwner others } := by
  constructor
  case old => exact faithful.old
  case single => exact faithful.single
  case dropped => exact faithful.dropped
  case asked => exact faithful.asked
  case answered =>
    intro other sh asked reply sent
    simp only [Bus.change] at sent
    split at sent
    · rcases List.mem_append.mp sent with earlier | isChange
      · exact faithful.answered other sh asked reply earlier
      · cases List.mem_singleton.mp isChange
    · exact faithful.answered other sh asked reply sent
  case removed => exact faithful.removed
  case own => exact faithful.own
  case looked =>
    intro other sh handler asked listens isOwn
    exact (faithful.looked other sh handler asked listens isOwn).change name newOwner others

theorem nameOwnerChangedMessage_isChange (name oldOwner newOwner : String) :
    isNameOwnerChanged (nameOwnerChangedMessage name oldOwner newOwner) = true := by
  simp [isNameOwnerChanged, nameOwnerChangedMessage, Message.hasSender, Message.hasPath, Message.hasInterface,
    Message.hasMember]

/-- What a change does to the process. -/
theorem signalBegin_change (state : State) (conn : ConnId) (name oldOwner newOwner : String) :
    let next := signalBegin state conn (nameOwnerChangedMessage name oldOwner newOwner)
    next.signalHandlers = state.signalHandlers ∧ next.nextHandler = state.nextHandler ∧
      next.reported = Function.update state.reported conn
        (Function.update (state.reported conn) name (.ofField newOwner)) ∧
      next.handlers = fun sh =>
        if sh ∈ state.signalHandlers conn then (state.handlers sh).map (nameOwnerChanged name newOwner)
        else state.handlers sh := by
  rw [signalBegin, if_pos (nameOwnerChangedMessage_isChange name oldOwner newOwner)]
  exact ⟨rfl, rfl, rfl, rfl⟩

/-- A change is dispatched. -/
theorem Faithful.readChange (faithful : Faithful system) {conn : ConnId} {name oldOwner newOwner : String}
    {rest : List Notice} (oldest : system.bus.incoming conn = .nameOwnerChanged name oldOwner newOwner :: rest) :
    Faithful ⟨signalBegin system.process conn (nameOwnerChangedMessage name oldOwner newOwner),
      system.bus.rest conn rest⟩ := by
  obtain ⟨sameListed, sameNext, reported, handlers⟩ :=
    signalBegin_change system.process conn name oldOwner newOwner
  -- a handler that listens was listening, and its owner changed if the name is its own
  have listening : ∀ {other sh handler asked},
      Listening (signalBegin system.process conn (nameOwnerChangedMessage name oldOwner newOwner)) other sh handler asked →
      ∃ before, Listening system.process other sh before asked ∧ handler.pending = before.pending ∧
        handler.owner = if other = conn ∧ asked = name then ownerField newOwner else before.owner :=
    listening_signalBegin faithful.single (nameOwnerChangedMessage_isChange name oldOwner newOwner) rfl
  constructor
  case old =>
    rw [sameListed, sameNext]
    exact faithful.old
  case single =>
    rw [sameListed]
    exact faithful.single
  case dropped =>
    intro sh handler allocated deleted
    rw [handlers] at allocated
    dsimp only at allocated
    split at allocated
    · obtain ⟨before, found, rfl⟩ := Option.map_eq_some_iff.mp allocated
      obtain ⟨sameDelete, -, samePending⟩ := nameOwnerChanged_fields name newOwner before
      rw [samePending]
      exact faithful.dropped sh before found (sameDelete ▸ deleted)
    · exact faithful.dropped sh handler allocated deleted
  case asked =>
    rw [sameNext]
    exact faithful.asked
  case answered =>
    intro other sh asked reply sent
    rw [sameNext]
    exact faithful.answered other sh asked reply (incoming_rest oldest sent)
  case removed =>
    intro other sh sent
    obtain ⟨known, isFreed⟩ := faithful.removed other sh sent
    rw [sameNext, handlers]
    refine ⟨known, ?_⟩
    dsimp only
    rw [isFreed, Option.map_none, ite_self]
  case own =>
    intro other sh handler asked listens isOwn
    obtain ⟨before, listened, samePending, owner⟩ := listening listens
    obtain ⟨notPending, isOwner⟩ := faithful.own other sh before asked listened isOwn
    refine ⟨samePending.trans notPending, ?_⟩
    rw [owner, reported]
    by_cases here : other = conn
    · subst here
      by_cases same : asked = name
      · subst same
        simp [implied_ofField]
      · simpa [same] using isOwner
    · simpa [here] using isOwner
  case looked =>
    intro other sh handler asked listens isOwn
    obtain ⟨before, listened, samePending, owner⟩ := listening listens
    have looked := faithful.looked other sh before asked listened isOwn
    rw [reported]
    by_cases here : other = conn
    · subst here
      rw [Function.update_self, Function.update_apply]
      exact looked.readChange oldest samePending (by simpa using owner)
    · rw [Function.update_of_ne here]
      rw [if_neg fun both => here both.1] at owner
      exact (looked.of_fields samePending owner).elsewhere here rest

/-- A reply is dispatched that nobody waits for. -/
theorem Faithful.readStray (faithful : Faithful system) {conn : ConnId} {asking : HandlerId} {asked : String}
    {reply : OwnerReply} {rest : List Notice}
    (oldest : system.bus.incoming conn = .nameOwner asking asked reply :: rest)
    (stray : ∀ handler, system.process.handlers asking = some handler → asking ∈ system.process.signalHandlers conn →
      handler.pending = false) {next : State} (narrows : Narrows system.process next) :
    Faithful ⟨next, system.bus.rest conn rest⟩ := by
  apply faithful.narrow narrows
  case asked => exact fun _ _ _ sent => sent
  case answered => exact fun _ _ _ _ sent => incoming_rest oldest sent
  case removed => exact fun _ _ sent => .inl sent
  case looked =>
    intro other sh handler name listens looked
    by_cases here : other = conn
    · subst here
      apply looked.readOther oldest _ (.inl rfl)
      rintro rfl
      exact stray handler listens.allocated listens.listed
    · exact looked.elsewhere here rest

/-- What the reply to a lookup does to the process. -/
theorem dispatchBegin_nameOwner {state next : State} {conn : ConnId} {sh : HandlerId} {asking : Handler}
    {reply : OwnerReply} (found : state.handlers sh = some asking)
    (begun : dispatchBegin state conn (.nameOwner sh reply) = some next) :
    next.signalHandlers = state.signalHandlers ∧ next.nextHandler = state.nextHandler ∧
      next.handlers = Function.update state.handlers sh (some (cbNameOwner asking reply)) ∧
      next.reported = match reply.report, asking.sender with
        | some report, some name =>
          Function.update state.reported conn (Function.update (state.reported conn) name report)
        | _, _ => state.reported := by
  simp only [dispatchBegin, found] at begun
  split at begun
  · obtain rfl := Option.some.inj begun
    exact ⟨rfl, rfl, rfl, rfl⟩
  · cases begun

/-- Only what is reported of the name that was asked for is new. -/
theorem reported_nameOwner {state next : State} {conn : ConnId} {sh : HandlerId} {asking : Handler}
    {reply : OwnerReply} (found : state.handlers sh = some asking)
    (begun : dispatchBegin state conn (.nameOwner sh reply) = some next) (other : ConnId) (name : String) :
    next.reported other name = state.reported other name ∨
      other = conn ∧ asking.sender = some name ∧ reply.report = some (next.reported other name) := by
  obtain ⟨-, -, -, reported⟩ := dispatchBegin_nameOwner found begun
  rw [reported]
  cases report : reply.report with
  | none => exact .inl rfl
  | some value =>
      cases named : asking.sender with
      | none => exact .inl rfl
      | some asker =>
          by_cases here : other = conn
          · subst here
            by_cases same : name = asker
            · subst same
              exact .inr ⟨rfl, rfl, by simp⟩
            · exact .inl (by simp [same])
          · exact .inl (by simp [here])

/-- The reply is dispatched to the handler that waits for it. -/
theorem Faithful.readAnswer (faithful : Faithful system) {conn : ConnId} {sh : HandlerId} {asked : String}
    {reply : OwnerReply} {rest : List Notice} (oldest : system.bus.incoming conn = .nameOwner sh asked reply :: rest)
    {asking : Handler} (found : system.process.handlers sh = some asking) (pending : asking.pending = true)
    (listed : sh ∈ system.process.signalHandlers conn)
    (unrecorded : ∀ name, asking.sender = some name → reply = .noOwner → asking.owner = none) {next : State}
    (begun : dispatchBegin system.process conn (.nameOwner sh reply) = some next) :
    Faithful ⟨next, system.bus.rest conn rest⟩ := by
  obtain ⟨sameListed, sameNext, handlers, reported⟩ := dispatchBegin_nameOwner found begun
  have kept : asking.deleteMe = false := by
    cases deleted : asking.deleteMe with
    | false => rfl
    | true => exact absurd ((faithful.dropped sh asking found deleted).symm.trans pending) Bool.false_ne_true
  -- the name is one that is looked up
  have asks : ∀ name, asking.sender = some name → isOwnOwner name = false ∧ asked = name ∧ ∃ value,
      Genuine reply value ∧ Looked (system.bus.rest conn rest) value conn sh (cbNameOwner asking reply) name := by
    intro name named
    have listens : Listening system.process conn sh asking name := ⟨listed, found, kept, named⟩
    have isOwn : isOwnOwner name = false := by
      cases own : isOwnOwner name with
      | false => rfl
      | true =>
          have notPending := (faithful.own conn sh asking name listens own).1
          exact absurd (notPending.symm.trans pending) Bool.false_ne_true
    obtain ⟨isAsked, value, genuine, answered⟩ :=
      (faithful.looked conn sh asking name listens isOwn).readAnswer oldest pending
    exact ⟨isOwn, isAsked, value, genuine, answered (unrecorded name named)⟩
  have told := reported_nameOwner found begun
  have listening {other sh' handler name} (listens : Listening next other sh' handler name) :
      (sh' = sh ∧ other = conn ∧ handler = cbNameOwner asking reply ∧ asking.sender = some name) ∨
        sh' ≠ sh ∧ Listening system.process other sh' handler name := by
    rcases listening_nameOwner found listens handlers sameListed with ⟨same, changed, before⟩ | elsewhere
    · exact .inl ⟨same, faithful.single other conn sh before.listed listed, changed, before.named⟩
    · exact .inr elsewhere
  constructor
  case old =>
    rw [sameListed, sameNext]
    exact faithful.old
  case single =>
    rw [sameListed]
    exact faithful.single
  case dropped =>
    intro sh' handler allocated deleted
    rw [handlers] at allocated
    by_cases same : sh' = sh
    · subst same
      rw [Function.update_self] at allocated
      obtain rfl := Option.some.inj allocated
      cases reply <;> rfl
    · rw [Function.update_of_ne same] at allocated
      exact faithful.dropped sh' handler allocated deleted
  case asked =>
    rw [sameNext]
    exact faithful.asked
  case answered =>
    intro other sh' name answer sent
    rw [sameNext]
    exact faithful.answered other sh' name answer (incoming_rest oldest sent)
  case removed =>
    intro other sh' sent
    obtain ⟨known, isFreed⟩ := faithful.removed other sh' sent
    have different : sh' ≠ sh := by
      rintro rfl
      rw [found] at isFreed
      cases isFreed
    rw [sameNext, handlers, Function.update_of_ne different]
    exact ⟨known, isFreed⟩
  case own =>
    intro other sh' handler name listens isOwn
    rcases listening listens with ⟨-, -, -, named⟩ | ⟨-, listened⟩
    · exact absurd ((asks name named).1.symm.trans isOwn) Bool.false_ne_true
    · rcases told other name with same | ⟨-, named, -⟩
      · rw [same]
        exact faithful.own other sh' handler name listened isOwn
      · exact absurd ((asks name named).1.symm.trans isOwn) Bool.false_ne_true
  case looked =>
    intro other sh' handler name listens isOwn
    rcases listening listens with ⟨rfl, rfl, rfl, named⟩ | ⟨different, listened⟩
    · obtain ⟨-, -, value, genuine, looked⟩ := asks name named
      have isValue : next.reported other name = value := by
        rw [reported, genuine.told, named]
        simp
      rw [isValue]
      exact looked
    · have looked := faithful.looked other sh' handler name listened isOwn
      by_cases here : other = conn
      · subst here
        apply looked.readOther oldest fun same => absurd same.symm different
        rcases told other name with same | ⟨-, named, tells⟩
        · exact .inl same
        · exact .inr ⟨(asks name named).2.1, tells⟩
      · rcases told other name with same | ⟨isHere, -⟩
        · rw [same]
          exact looked.elsewhere here rest
        · exact absurd isHere here

end Steps

/-! ## Runs -/

theorem step_dispatch {state next : State} {conn : ConnId} {incoming : Incoming}
    (stepped : Signal.step state (.dispatch conn incoming) = some next) :
    dispatchBegin state conn incoming = some next := by
  unfold Signal.step at stepped
  split at stepped
  · cases stepped
  · simp only [Option.ite_none_right_eq_some] at stepped
    exact stepped.2

theorem step_handlerAdd {state next : State} {conn : ConnId} {sender path interface member : Option String}
    {hasCallback lookupSent : Bool}
    (stepped : Signal.step state (.handlerAdd conn sender path interface member hasCallback lookupSent) = some next) :
    next = handlerAdd state conn (handlerNew sender path interface member hasCallback lookupSent) := by
  unfold Signal.step at stepped
  split at stepped
  · cases stepped
  · simp only [Option.ite_none_right_eq_some, Option.some.injEq] at stepped
    exact stepped.2.symm

theorem step_handlerDel {state next : State} {conn : ConnId} {sh : HandlerId}
    (stepped : Signal.step state (.handlerDel conn sh) = some next) : Narrows state next := by
  unfold Signal.step at stepped
  split at stepped
  · cases stepped
  · simp only [Option.ite_none_right_eq_some, Option.some.injEq] at stepped
    obtain ⟨-, rfl⟩ := stepped
    exact handlerDel_narrows state conn sh

theorem step_advance {state next : State} (stepped : Signal.step state .advance = some next) :
    Narrows state next := by
  unfold Signal.step at stepped
  split at stepped
  · cases stepped
  · exact advance_narrows stepped

theorem step_idlerLeave {state next : State} (stepped : Signal.step state .idlerLeave = some next) :
    Narrows state next := by
  unfold Signal.step at stepped
  split at stepped
  · cases stepped
  · simp only at stepped
    split at stepped
    · next conn inCallback outer running =>
        obtain rfl := Option.some.inj stepped
        have popped : Narrows state { state with dispatches := outer } := .of_eq rfl rfl rfl rfl
        exact popped.trans (handlersClean_narrows _ conn)
    · cases stepped

/-- Another signal, and what is no signal, leave the handlers alone. -/
theorem step_signal {state next : State} {conn : ConnId} {message : Message}
    (another : isNameOwnerChanged message = false)
    (stepped : Signal.step state (.dispatch conn (.signal message)) = some next) : Narrows state next := by
  obtain rfl := Option.some.inj (step_dispatch stepped)
  rw [signalBegin, if_neg (by simp [another])]
  exact .of_eq rfl rfl rfl rfl

theorem step_other {state next : State} {conn : ConnId}
    (stepped : Signal.step state (.dispatch conn .other) = some next) : Narrows state next := by
  obtain rfl := Option.some.inj (step_dispatch stepped)
  exact .of_eq rfl rfl rfl rfl

variable {system next : System}

/-- The handlers go that the process gives up. -/
theorem libraryStep_faithful (faithful : Faithful system) {conn : ConnId} {label : Label}
    (narrows : ∀ process, Signal.step system.process label = some process → Narrows system.process process)
    (stepped : system.libraryStep conn label [] = some next) : Faithful next := by
  obtain ⟨process, taken, rfl⟩ := Option.map_eq_some_iff.mp stepped
  exact faithful.remove (narrows process taken) conn

theorem handlerAdd_faithful (faithful : Faithful system) {conn : ConnId}
    {sender path interface member : Option String} {hasCallback : Bool}
    (stepped : system.step (.handlerAdd conn sender path interface member hasCallback) = some next)
    (settles : Settles system (.handlerAdd conn sender path interface member hasCallback)) : Faithful next := by
  obtain ⟨process, taken, rfl⟩ := Option.map_eq_some_iff.mp stepped
  obtain rfl := step_handlerAdd taken
  have nobody : removeRequests system.process (handlerAdd system.process conn
      (handlerNew sender path interface member hasCallback true)) conn = [] := by
    apply removeRequests_eq_nil
    intro sh listed
    exact Function.update_of_ne (Nat.ne_of_lt (faithful.old conn sh listed)) ..
  rw [nobody, List.append_nil]
  apply faithful.handlerAdd
  rintro name rfl isOwn
  exact settles isOwn

theorem deliver_faithful (faithful : Faithful system) {conn : ConnId}
    (stepped : system.step (.deliver conn) = some next) (settles : Settles system (.deliver conn)) :
    Faithful next := by
  simp only [System.step, System.deliver] at stepped
  cases oldest : system.bus.incoming conn with
  | nil => simp [oldest] at stepped
  | cons notice rest =>
      rw [oldest] at stepped
      obtain ⟨process, taken, rfl⟩ := Option.map_eq_some_iff.mp stepped
      cases notice with
      | nameOwnerChanged name oldOwner newOwner =>
          obtain rfl := Option.some.inj (step_dispatch taken)
          exact faithful.readChange oldest
      | nameOwner sh asked reply =>
          rw [System.incomingOf] at taken
          split at taken
          · next awaited =>
              rw [Bool.and_eq_true, List.contains_iff_mem] at awaited
              obtain ⟨isPending, listed⟩ := awaited
              obtain ⟨asking, found, pending⟩ := (Option.any_eq_true _ _).mp isPending
              have kept : asking.deleteMe = false := by
                cases deleted : asking.deleteMe with
                | false => rfl
                | true =>
                    exact absurd ((faithful.dropped sh asking found deleted).symm.trans pending) Bool.false_ne_true
              apply faithful.readAnswer oldest found pending listed _ (step_dispatch taken)
              rintro name named rfl
              exact settles sh asked asking name (by rw [oldest]; rfl) ⟨listed, found, kept, named⟩ pending
          · next stray =>
              apply faithful.readStray oldest _ (step_other taken)
              intro handler found listed
              simpa [found, listed] using stray

/-- A step that settles what it should keeps the process and the bus together. -/
theorem step_faithful (event : Event) (faithful : Faithful system) (stepped : system.step event = some next)
    (settles : Settles system event) : Faithful next := by
  cases event with
  | handlerAdd conn sender path interface member hasCallback => exact handlerAdd_faithful faithful stepped settles
  | handlerDel conn sh => exact libraryStep_faithful faithful (fun _ => step_handlerDel) stepped
  | advance => exact libraryStep_faithful faithful (fun _ => step_advance) stepped
  | idlerLeave => exact libraryStep_faithful faithful (fun _ => step_idlerLeave) stepped
  | deliver conn => exact deliver_faithful faithful stepped settles
  | signal conn message =>
      simp only [System.step] at stepped
      split at stepped
      · cases stepped
      · next another =>
          exact libraryStep_faithful faithful (fun _ => step_signal (by simpa using another)) stepped
  | other conn => exact libraryStep_faithful faithful (fun _ => step_other) stepped
  | process conn =>
      obtain ⟨bus, processed, rfl⟩ := Option.map_eq_some_iff.mp stepped
      exact faithful.process processed
  | change name newOwner others =>
      obtain rfl := Option.some.inj stepped
      exact faithful.change name newOwner others

/-- A step that does not leaves a wrong owner behind. -/
theorem settles_of_tracked (event : Event) (stepped : system.step event = some next)
    (tracked : Tracked next) : Settles system event := by
  cases event with
  | handlerAdd conn sender path interface member hasCallback =>
      cases sender with
      | none => trivial
      | some name =>
          intro isOwn
          obtain ⟨process, taken, rfl⟩ := Option.map_eq_some_iff.mp stepped
          obtain rfl := step_handlerAdd taken
          have listens : Listening (handlerAdd system.process conn
              (handlerNew (some name) path interface member hasCallback true)) conn system.process.nextHandler
              (handlerNew (some name) path interface member hasCallback true) name := by
            refine ⟨?_, Function.update_self .., rfl, rfl⟩
            simp [handlerAdd]
          have owner : (handlerNew (some name) path interface member hasCallback true).owner =
              implied name (system.process.reported conn name) :=
            tracked conn _ _ name listens (by simp [handlerNew, looksUp, isOwn])
          simpa [handlerNew, looksUp, isOwn] using owner.symm
  | deliver conn =>
      rintro sh asked handler name isOldest listens pending
      obtain ⟨rest, oldest⟩ := List.head?_eq_some_iff.mp isOldest
      simp only [System.step, System.deliver, oldest, System.incomingOf] at stepped
      have awaited : ((system.process.handlers sh).any Handler.pending &&
          (system.process.signalHandlers conn).contains sh) = true := by
        rw [listens.allocated, Option.any_some, pending, Bool.true_and, List.contains_iff_mem]
        exact listens.listed
      rw [if_pos awaited] at stepped
      obtain ⟨process, taken, rfl⟩ := Option.map_eq_some_iff.mp stepped
      obtain ⟨sameListed, -, handlers, reported⟩ := dispatchBegin_nameOwner listens.allocated (step_dispatch taken)
      have told : process.reported conn name = .noOwner := by
        rw [reported, listens.named]
        simp [OwnerReply.report]
      have answered : Listening process conn sh (cbNameOwner handler .noOwner) name := by
        refine ⟨sameListed ▸ listens.listed, ?_, listens.kept, listens.named⟩
        rw [handlers, Function.update_self]
      have owner := tracked conn sh _ name answered rfl
      rw [told] at owner
      exact owner
  | handlerDel conn sh => trivial
  | advance => trivial
  | idlerLeave => trivial
  | signal conn message => trivial
  | other conn => trivial
  | process conn => trivial
  | change name newOwner others => trivial

/-- No handler is called before its lookup is over. -/
theorem quiet (event : Event) : Quiet system event := by
  cases event with
  | advance =>
      intro conn handler message _ accepted
      simp only [accepts, passes, Bool.and_eq_true, Bool.not_eq_true'] at accepted
      exact accepted.1.1.1.1.2
  | _ => trivial

/-- What an event is to the process. -/
def System.labels (system : System) : Event → List Label
  | .handlerAdd conn sender path interface member hasCallback =>
    [.handlerAdd conn sender path interface member hasCallback true]
  | .handlerDel conn sh => [.handlerDel conn sh]
  | .advance => [.advance]
  | .idlerLeave => [.idlerLeave]
  | .deliver conn =>
    ((system.bus.incoming conn).head?.map fun notice =>
      .dispatch conn (System.incomingOf system.process conn notice)).toList
  | .signal conn message => [.dispatch conn (.signal message)]
  | .other conn => [.dispatch conn .other]
  | .process _ => []
  | .change .. => []

/-- The process runs as it does without the bus. -/
theorem process_simulates :
    Semantics.Simulates systemMachine machine (fun system state => system.process = state)
      (fun system event _ => system.labels event) where
  step := by
    rintro system event next _ rfl stepped
    have library : ∀ {conn label requests}, system.libraryStep conn label requests = some next →
        machine.exec system.process [label] = some next.process := by
      intro conn label requests taken
      obtain ⟨process, moved, rfl⟩ := Option.map_eq_some_iff.mp taken
      exact Semantics.Machine.exec_singleton moved
    refine ⟨next.process, ?_, rfl⟩
    change system.step event = some next at stepped
    cases event with
    | handlerAdd conn sender path interface member hasCallback => exact library stepped
    | handlerDel conn sh => exact library stepped
    | advance => exact library stepped
    | idlerLeave => exact library stepped
    | deliver conn =>
        simp only [System.step, System.deliver] at stepped
        cases oldest : system.bus.incoming conn with
        | nil => simp [oldest] at stepped
        | cons notice rest =>
            rw [oldest] at stepped
            obtain ⟨process, moved, rfl⟩ := Option.map_eq_some_iff.mp stepped
            simp only [System.labels, oldest, List.head?_cons, Option.map_some, Option.toList_some]
            exact Semantics.Machine.exec_singleton moved
    | signal conn message =>
        simp only [System.step] at stepped
        split at stepped
        · cases stepped
        · exact library stepped
    | other conn => exact library stepped
    | process conn =>
        obtain ⟨bus, -, rfl⟩ := Option.map_eq_some_iff.mp stepped
        rfl
    | change name newOwner others =>
        obtain rfl := Option.some.inj stepped
        rfl

/-- In every run the owner that a handler has recorded while its lookup is pending is the one that the
`NameOwnerChanged` signals delivered since it was added told last. -/
theorem pending_owner {owners : String → String} {events : List Event} {system : System} {conn : ConnId}
    {sh : HandlerId} {handler : Handler} {name : String}
    (executed : systemMachine.exec (System.initial owners) events = some system)
    (listens : Listening system.process conn sh handler name) (pending : handler.pending = true) :
    handler.owner =
      ((since sh (systemMachine.translated (fun system event _ => system.labels event) (System.initial owners)
        events)).filterMap (signalled conn name)).getLast?.getD (if isOwnOwner name then some name else none) := by
  obtain ⟨process, ran, rfl⟩ := process_simulates.run rfl executed
  exact owner_signalled ran listens pending

/-- For any handlers, and any owners that names ever get: handlers whose lookup is over have the right
owner in every state if and only if every step settles what it should. Handlers that wait are never called. -/
theorem tracked_iff_settles (owners : String → String) (events : List Event) :
    (systemMachine.Throughout Tracked (System.initial owners) events ↔
      systemMachine.Along (fun system event _ => Settles system event) (System.initial owners) events) ∧
    systemMachine.Along (fun system event _ => Quiet system event) (System.initial owners) events := by
  constructor
  · exact Semantics.Machine.throughout_iff_along Faithful
      (fun _ event _ faithful stepped =>
        ⟨settles_of_tracked event stepped, fun settles => (step_faithful event faithful stepped settles).tracked⟩)
      (fun _ event _ faithful stepped settles => step_faithful event faithful stepped settles)
      (initial_faithful owners) (initial_faithful owners).tracked
  · exact Semantics.Machine.along_of_step (fun _ event _ _ => quiet event) _ events

/-- A change that another handler had asked for comes before the answer that the name has no owner. -/
theorem tracked_fails_stale :
    ¬ ∀ owners events, systemMachine.Throughout Tracked (System.initial owners) events := by
  intro always
  have throughout := always (fun _ => "")
    [ -- a handler listens for the name
      .handlerAdd 0 (some "org.example.Service") none none none true, .process 0, .process 0, .deliver 0, .idlerLeave,
      -- the name gets an owner, and the handler is replaced by another one
      .change "org.example.Service" ":1.4" [], .handlerDel 0 0, .process 0,
      -- the owner goes unnoticed
      .change "org.example.Service" "" [],
      .handlerAdd 0 (some "org.example.Service") none none none true, .process 0, .process 0,
      .deliver 0, .advance, .advance, .idlerLeave, .deliver 0]
  have tracked := throughout.finish rfl
  have owner := tracked 0 1 _ "org.example.Service" ⟨List.mem_singleton.mpr rfl, rfl, rfl, rfl⟩ rfl
  exact absurd owner (by decide)

end EDBus.Dbus.Signal
