import EDBus.Dbus.HandlerDeletion
import EDBus.Semantics.MatchRule

/-!
# What the bus passes on

A handler is installed with a match rule for its signals, and with one for the changes of the name it looks
up. `_match_append` leaves out what is empty and what would make the rule too long, and it does not escape
anything. The bus reads the rules again and passes a signal on if it fits one of them.
-/

open EDBus.Semantics.MatchRule

namespace EDBus.Dbus.Signal

/-! ## The rule of a handler -/

/-- The filters of a handler with the keys of a rule, in the order in which they are appended. -/
def filters (sender path interface member : Option String) : List (String × Option String) :=
  [("sender", sender), ("path", path), ("interface", interface), ("member", member)]

/-- The filters that are asked for. -/
def wanted (filters : List (String × Option String)) : List Condition :=
  filters.filterMap fun filter => filter.2.bind fun value => if value = "" then none else some (filter.1, value)

/-- The bytes that `_match_append` needs for some filters. -/
@[simp] def appendSize : List Condition → Nat
  | [] => 0
  | condition :: rest => 4 + condition.1.utf8ByteSize + condition.2.utf8ByteSize + appendSize rest

/-- The conditions of a rule after `_match_append`. -/
def conditionsAppend (conditions : List Condition) (filter : String × Option String) : List Condition :=
  match filter.2 with
  | none => conditions
  | some value =>
    if value = "" then conditions
    else if (write conditions).utf8ByteSize + 4 + filter.1.utf8ByteSize + value.utf8ByteSize ≥
        maximumMatchRuleLength then
      conditions
    else conditions ++ [(filter.1, value)]

/-- The conditions of the rule that `e_dbus_signal_handler_add` installs for the signals. -/
def signalConditions (sender path interface member : Option String) : List Condition :=
  (filters sender path interface member).foldl conditionsAppend [("type", "signal")]

/-- The conditions of `NAME_OWNER_MATCH`, with the blanks in front of them. -/
def nameOwnerEntries (name : String) : List (Nat × Condition) :=
  [(0, "type", "signal"), (0, "sender", fdoBus), (9, "path", fdoPath), (0, "interface", fdoInterface),
    (9, "member", "NameOwnerChanged"), (0, "arg0", name)]

theorem signalMatch_eq_foldl (sender path interface member : Option String) :
    signalMatch sender path interface member =
      (filters sender path interface member).foldl (fun rule filter => matchAppend rule filter.1 filter.2)
        "type='signal'" := rfl

theorem conditionsAppend_ne_nil {conditions : List Condition} (some : conditions ≠ [])
    (filter : String × Option String) : conditionsAppend conditions filter ≠ [] := by
  unfold conditionsAppend
  split
  · exact some
  · split
    · exact some
    · split
      · exact some
      · simp

/-- `_match_append` writes what `conditionsAppend` lists. -/
theorem write_conditionsAppend {conditions : List Condition} (some : conditions ≠ [])
    (filter : String × Option String) :
    write (conditionsAppend conditions filter) = matchAppend (write conditions) filter.1 filter.2 := by
  obtain ⟨key, value⟩ := filter
  cases value with
  | none => rfl
  | some value =>
      simp only [conditionsAppend, matchAppend]
      split
      · rfl
      · split
        · rfl
        · rw [write_append some, text]
          simp only [String.append_assoc]

theorem write_foldl {conditions : List Condition} (some : conditions ≠ [])
    (filters : List (String × Option String)) :
    write (filters.foldl conditionsAppend conditions) =
      filters.foldl (fun rule filter => matchAppend rule filter.1 filter.2) (write conditions) := by
  induction filters generalizing conditions with
  | nil => rfl
  | cons filter rest ih =>
      rw [List.foldl_cons, List.foldl_cons, ih (conditionsAppend_ne_nil some filter), write_conditionsAppend some]

theorem signalMatch_eq_write (sender path interface member : Option String) :
    signalMatch sender path interface member = write (signalConditions sender path interface member) := by
  have first : write [("type", "signal")] = "type='signal'" := by decide
  rw [signalConditions, write_foldl (by simp), first, signalMatch_eq_foldl]

/-- `NAME_OWNER_MATCH` up to the name. -/
theorem nameOwnerMatch_start :
    writeSpaced ((nameOwnerEntries "").dropLast) ++ "," ++ ("arg0" ++ "='") =
      "type='signal',sender='org.freedesktop.DBus',         path='/org/freedesktop/DBus'," ++
        "interface='org.freedesktop.DBus',         member='NameOwnerChanged',arg0='" := by
  decide +kernel

theorem nameOwnerMatch_eq_writeSpaced (name : String) :
    nameOwnerMatch name = writeSpaced (nameOwnerEntries name) := by
  have cut : nameOwnerEntries name = (nameOwnerEntries "").dropLast ++ [(0, "arg0", name)] := rfl
  have some : (nameOwnerEntries "").dropLast ≠ [] := by simp [nameOwnerEntries]
  calc nameOwnerMatch name
      = writeSpaced ((nameOwnerEntries "").dropLast) ++ "," ++ ("arg0" ++ "='") ++ name ++ "'" :=
        congrArg (fun start => start ++ name ++ "'") nameOwnerMatch_start.symm
    _ = writeSpaced ((nameOwnerEntries "").dropLast ++ [(0, "arg0", name)]) := by
        rw [writeSpaced_append some, spaced_zero, text]
        simp only [String.append_assoc]
    _ = writeSpaced (nameOwnerEntries name) := by rw [cut]

/-! ## What is kept of the filters -/

theorem matchAppend_size {rule : String} (short : rule.utf8ByteSize < maximumMatchRuleLength) (key : String)
    (value : Option String) : (matchAppend rule key value).utf8ByteSize < maximumMatchRuleLength := by
  unfold matchAppend
  split
  · exact short
  · split
    · exact short
    · split
      · exact short
      · next fits =>
          have comma : ",".utf8ByteSize = 1 := by decide
          have opening : "='".utf8ByteSize = 2 := by decide
          have closing : "'".utf8ByteSize = 1 := by decide
          simp only [String.utf8ByteSize_append, comma, opening, closing]
          omega

theorem foldl_matchAppend_size (filters : List (String × Option String)) {rule : String}
    (short : rule.utf8ByteSize < maximumMatchRuleLength) :
    (filters.foldl (fun rule filter => matchAppend rule filter.1 filter.2) rule).utf8ByteSize <
      maximumMatchRuleLength := by
  induction filters generalizing rule with
  | nil => exact short
  | cons filter rest ih => exact ih (matchAppend_size short filter.1 filter.2)

/-- The rule of a handler is never too long for the bus. -/
theorem signalMatch_size (sender path interface member : Option String) :
    (signalMatch sender path interface member).utf8ByteSize < maximumMatchRuleLength := by
  rw [signalMatch_eq_foldl]
  exact foldl_matchAppend_size _ (by decide)

/-- What is left out is left out silently: the others are kept as they are. -/
theorem foldl_conditionsAppend (filters : List (String × Option String)) (conditions : List Condition) :
    ∃ kept, filters.foldl conditionsAppend conditions = conditions ++ kept ∧ kept.Sublist (wanted filters) := by
  induction filters generalizing conditions with
  | nil => exact ⟨[], (List.append_nil conditions).symm, .slnil⟩
  | cons filter rest ih =>
      obtain ⟨key, value⟩ := filter
      rw [List.foldl_cons]
      cases value with
      | none => exact ih conditions
      | some value =>
          by_cases isEmpty : value = ""
          · have unchanged : conditionsAppend conditions (key, some value) = conditions := by
              simp [conditionsAppend, isEmpty]
            have none : wanted ((key, some value) :: rest) = wanted rest := by simp [wanted, isEmpty]
            rw [unchanged, none]
            exact ih conditions
          · have asked : wanted ((key, some value) :: rest) = (key, value) :: wanted rest := by
              simp [wanted, isEmpty]
            rw [asked]
            simp only [conditionsAppend, if_neg isEmpty]
            split
            · obtain ⟨kept, same, part⟩ := ih conditions
              exact ⟨kept, same, part.cons (key, value)⟩
            · obtain ⟨kept, same, part⟩ := ih (conditions ++ [(key, value)])
              exact ⟨(key, value) :: kept, by rw [same, List.append_assoc, List.singleton_append], part.cons_cons _⟩

/-- Nothing is left out as long as all fit. -/
theorem foldl_conditionsAppend_fits (filters : List (String × Option String)) {conditions : List Condition}
    (some : conditions ≠ [])
    (fits : (write conditions).utf8ByteSize + appendSize (wanted filters) < maximumMatchRuleLength) :
    filters.foldl conditionsAppend conditions = conditions ++ wanted filters := by
  induction filters generalizing conditions with
  | nil => exact (List.append_nil conditions).symm
  | cons filter rest ih =>
      obtain ⟨key, value⟩ := filter
      rw [List.foldl_cons]
      cases value with
      | none => exact ih some fits
      | some value =>
          by_cases isEmpty : value = ""
          · have unchanged : conditionsAppend conditions (key, .some value) = conditions := by
              simp [conditionsAppend, isEmpty]
            have none : wanted ((key, .some value) :: rest) = wanted rest := by simp [wanted, isEmpty]
            rw [none] at fits ⊢
            rw [unchanged]
            exact ih some fits
          · have asked : wanted ((key, .some value) :: rest) = (key, value) :: wanted rest := by
              simp [wanted, isEmpty]
            rw [asked] at fits
            simp only [appendSize] at fits
            have appended : conditionsAppend conditions (key, .some value) = conditions ++ [(key, value)] := by
              simp only [conditionsAppend, if_neg isEmpty]
              rw [if_neg (by omega)]
            have longer : (write (conditions ++ [(key, value)])).utf8ByteSize =
                (write conditions).utf8ByteSize + (4 + key.utf8ByteSize + value.utf8ByteSize) := by
              have comma : ",".utf8ByteSize = 1 := by decide
              have opening : "='".utf8ByteSize = 2 := by decide
              have closing : "'".utf8ByteSize = 1 := by decide
              rw [write_append some, text]
              simp only [String.utf8ByteSize_append, comma, opening, closing]
              omega
            rw [appended, asked, ih (by simp) (by omega), List.append_assoc, List.singleton_append]

theorem plain_keys (sender path interface member : Option String) :
    ∀ condition ∈ signalConditions sender path interface member, Plain condition.1 := by
  obtain ⟨kept, same, part⟩ := foldl_conditionsAppend (filters sender path interface member) [("type", "signal")]
  intro condition isIn
  rw [signalConditions, same, List.singleton_append, List.mem_cons] at isIn
  rcases isIn with rfl | isKept
  · decide +kernel
  · obtain ⟨filter, listed, isWanted⟩ := List.mem_filterMap.mp (part.subset isKept)
    have named : condition.1 = filter.1 := by
      obtain ⟨value, -, found⟩ := Option.bind_eq_some_iff.mp isWanted
      split at found
      · cases found
      · exact (Option.some.inj found) ▸ rfl
    have known : filter.1 ∈ ["sender", "path", "interface", "member"] :=
      List.mem_map_of_mem (f := Prod.fst) listed
    have plain : ∀ key ∈ ["sender", "path", "interface", "member"], Plain key := by decide +kernel
    exact named ▸ plain filter.1 known

/-- Whatever filters a handler is added with, its rule is short enough for the bus, it has the filters that
are not empty, in their order and without the ones that would make it too long, and the bus reads it so
exactly if none of them has an apostrophe. -/
theorem signalMatch_reads_iff (sender path interface member : Option String) :
    (signalMatch sender path interface member).utf8ByteSize < maximumMatchRuleLength ∧
      (∃ kept, signalConditions sender path interface member = ("type", "signal") :: kept ∧
        kept.Sublist (wanted (filters sender path interface member)) ∧
        (13 + appendSize (wanted (filters sender path interface member)) < maximumMatchRuleLength →
          kept = wanted (filters sender path interface member))) ∧
      (read (signalMatch sender path interface member) = some (signalConditions sender path interface member) ↔
        ∀ condition ∈ signalConditions sender path interface member, apostrophe ∉ condition.2.toList) := by
  refine ⟨signalMatch_size sender path interface member, ?_, ?_⟩
  · obtain ⟨kept, same, part⟩ := foldl_conditionsAppend (filters sender path interface member) [("type", "signal")]
    refine ⟨kept, same, part, fun fits => ?_⟩
    have size : (write [("type", "signal")]).utf8ByteSize = 13 := by decide
    have all := foldl_conditionsAppend_fits (filters sender path interface member)
      (List.cons_ne_nil ("type", "signal") []) (by omega)
    exact List.append_cancel_left (same.symm.trans all)
  · rw [signalMatch_eq_write]
    exact read_write_iff (plain_keys sender path interface member)

/-! ## The bus reads the rules -/

/-- A signal fits a condition. A sender may be asked for by a name that it owns. -/
def fits (owners : String → Option String) (message : Message) (condition : Condition) : Bool :=
  if condition.1 = "type" then condition.2 == "signal"
  else if condition.1 = "sender" then
    message.sender.any fun sender => sender == condition.2 || owners condition.2 == some sender
  else if condition.1 = "path" then message.hasPath condition.2
  else if condition.1 = "interface" then message.hasInterface condition.2
  else if condition.1 = "member" then message.hasMember condition.2
  else if condition.1 = "arg0" then message.args.head? == some (.string condition.2)
  else false

/-- The bus passes a signal on to a connection with this rule. -/
def passesOn (owners : String → Option String) (message : Message) (rule : String) : Bool :=
  (read rule).any fun conditions => conditions.all (fits owners message)

/-- The bus passes a signal on to a connection of the process. -/
def routed (owners : String → Option String) (state : State) (conn : ConnId) (message : Message) : Bool :=
  (state.matchRules conn).any (passesOn owners message)

/-- The message comes from the sender that was asked for, by whatever name. -/
def SentBy (owners : String → Option String) (message : Message) (name : String) : Prop :=
  ∃ sender, message.sender = some sender ∧ (sender = name ∨ owners name = some sender)

/-- No filter has an apostrophe. -/
def Unquoted (sender path interface member : Option String) : Prop :=
  ∀ filter ∈ filters sender path interface member, ∀ value ∈ filter.2, apostrophe ∉ value.toList

instance (sender path interface member : Option String) : Decidable (Unquoted sender path interface member) := by
  unfold Unquoted
  infer_instance

/-- The filters of the handlers that a run adds. -/
def Label.Unquoted : Label → Prop
  | .handlerAdd _ sender path interface member _ _ => Signal.Unquoted sender path interface member
  | _ => True

/-- The signals that the rules of a handler are for: those that fit its own conditions, and the changes of the
name it looks up. -/
def Handler.subscribes (owners : String → Option String) (message : Message) (handler : Handler) : Bool :=
  (signalConditions handler.sender handler.path handler.interface handler.member).all (fits owners message) ||
    (looksUp handler.sender && handler.sender.any fun name =>
      ((nameOwnerEntries name).map Prod.snd).all (fits owners message))

/-- The rules of a handler are those of its filters. -/
structure Built (handler : Handler) : Prop where
  matchRule : handler.matchRule = signalMatch handler.sender handler.path handler.interface handler.member
  nameOwner : handler.matchNameOwnerChange =
    if looksUp handler.sender then handler.sender.map nameOwnerMatch else none
  unquoted : Unquoted handler.sender handler.path handler.interface handler.member

theorem handlerNew_built {sender path interface member : Option String}
    (unquoted : Unquoted sender path interface member) (hasCallback lookupSent : Bool) :
    Built (handlerNew sender path interface member hasCallback lookupSent) :=
  ⟨rfl, rfl, unquoted⟩

theorem signalConditions_unquoted {sender path interface member : Option String}
    (unquoted : Unquoted sender path interface member) :
    ∀ condition ∈ signalConditions sender path interface member, apostrophe ∉ condition.2.toList := by
  obtain ⟨kept, same, part⟩ := foldl_conditionsAppend (filters sender path interface member) [("type", "signal")]
  intro condition isIn
  rw [signalConditions, same, List.singleton_append, List.mem_cons] at isIn
  rcases isIn with rfl | isKept
  · decide +kernel
  · obtain ⟨filter, listed, isWanted⟩ := List.mem_filterMap.mp (part.subset isKept)
    obtain ⟨value, given, found⟩ := Option.bind_eq_some_iff.mp isWanted
    split at found
    · cases found
    · exact (Option.some.inj found) ▸ unquoted filter listed value given

theorem passesOn_signalMatch {handler : Handler} (built : Built handler) (owners : String → Option String)
    (message : Message) :
    passesOn owners message handler.matchRule =
      (signalConditions handler.sender handler.path handler.interface handler.member).all (fits owners message) := by
  have reads := (signalMatch_reads_iff handler.sender handler.path handler.interface handler.member).2.2.mpr
    (signalConditions_unquoted built.unquoted)
  rw [passesOn, built.matchRule, reads, Option.any_some]

theorem passesOn_nameOwnerMatch {name : String} (unquoted : apostrophe ∉ name.toList)
    (owners : String → Option String) (message : Message) :
    passesOn owners message (nameOwnerMatch name) =
      ((nameOwnerEntries name).map Prod.snd).all (fits owners message) := by
  have plain : ∀ entry ∈ nameOwnerEntries name, Plain entry.2.1 := by
    have keys : ∀ key ∈ (nameOwnerEntries "").map fun entry => entry.2.1, Plain key := by decide +kernel
    intro entry listed
    have sameKeys : (nameOwnerEntries name).map (fun entry => entry.2.1) =
        (nameOwnerEntries "").map fun entry => entry.2.1 := rfl
    exact keys entry.2.1 (sameKeys ▸ List.mem_map_of_mem listed)
  have values : ∀ entry ∈ nameOwnerEntries name, apostrophe ∉ entry.2.2.toList := by
    have others : ∀ entry ∈ (nameOwnerEntries "").dropLast, apostrophe ∉ entry.2.2.toList := by decide +kernel
    intro entry listed
    have cut : nameOwnerEntries name = (nameOwnerEntries "").dropLast ++ [(0, "arg0", name)] := rfl
    rw [cut, List.mem_append, List.mem_singleton] at listed
    rcases listed with before | rfl
    · exact others entry before
    · exact unquoted
  rw [passesOn, nameOwnerMatch_eq_writeSpaced, read_writeSpaced plain values, Option.any_some]

/-- The rules of a handler let through what it is subscribed to, and nothing else. -/
theorem rules_subscribe {handler : Handler} (built : Built handler) (owners : String → Option String)
    (message : Message) :
    handler.rules.any (passesOn owners message) = handler.subscribes owners message := by
  rw [Handler.rules, List.any_cons, passesOn_signalMatch built, Handler.subscribes, built.nameOwner]
  cases given : handler.sender with
  | none => simp [looksUp]
  | some name =>
      have unquoted : apostrophe ∉ name.toList :=
        built.unquoted ("sender", handler.sender) List.mem_cons_self name given
      cases looks : looksUp (some name) with
      | false => simp
      | true => simp [passesOn_nameOwnerMatch unquoted]

/-- A handler is called for nothing but what its rule is for, if the sender is the one it asked for. -/
theorem accepts_fits {handler : Handler} {owners : String → Option String} {message : Message}
    (accepted : accepts handler message = true)
    (sentBy : ∀ name, handler.sender = some name → SentBy owners message name) :
    (signalConditions handler.sender handler.path handler.interface handler.member).all (fits owners message) =
      true := by
  obtain ⟨kept, same, part⟩ := foldl_conditionsAppend
    (filters handler.sender handler.path handler.interface handler.member) [("type", "signal")]
  simp only [accepts, passes, Bool.and_eq_true] at accepted
  obtain ⟨⟨⟨⟨-, path⟩, interface⟩, member⟩, -⟩ := accepted
  rw [List.all_eq_true]
  intro condition isIn
  rw [signalConditions, same, List.singleton_append, List.mem_cons] at isIn
  rcases isIn with rfl | isKept
  · simp [fits]
  · obtain ⟨filter, listed, isWanted⟩ := List.mem_filterMap.mp (part.subset isKept)
    obtain ⟨value, given, found⟩ := Option.bind_eq_some_iff.mp isWanted
    split at found
    · cases found
    · obtain rfl := Option.some.inj found
      simp only [filters, List.mem_cons, List.not_mem_nil, or_false] at listed
      rcases listed with rfl | rfl | rfl | rfl
      · obtain ⟨sender, isSender, isName⟩ := sentBy value given
        rcases isName with rfl | owned
        · simp [fits, isSender]
        · simp [fits, isSender, owned]
      · simp only at given
        rw [given] at path
        simpa [fits] using path
      · simp only at given
        rw [given] at interface
        simpa [fits] using interface
      · simp only at given
        rw [given] at member
        simpa [fits] using member

theorem accepts_subscribes {handler : Handler} {owners : String → Option String} {message : Message}
    (accepted : accepts handler message = true)
    (sentBy : ∀ name, handler.sender = some name → SentBy owners message name) :
    handler.subscribes owners message = true := by
  rw [Handler.subscribes, accepts_fits accepted sentBy, Bool.true_or]

/-! ## Runs -/

variable {state : State}

/-- The rules of all handlers are those of their filters. -/
def AllBuilt (state : State) : Prop := ∀ sh handler, state.handlers sh = some handler → Built handler

theorem handlerAdd_allBuilt (built : AllBuilt state) (conn : ConnId) {handler : Handler} (isBuilt : Built handler) :
    AllBuilt (handlerAdd state conn handler) := by
  intro sh other found
  simp only [handlerAdd, Function.update_apply] at found
  split at found
  · exact Option.some.inj found ▸ isBuilt
  · exact built sh other found

theorem handlerDel_allBuilt (built : AllBuilt state) (conn : ConnId) (sh : HandlerId) :
    AllBuilt (handlerDel state conn sh) := by
  unfold handlerDel
  split
  · exact built
  · next handler found =>
      intro other kept foundKept
      split at foundKept
      · simp only [Function.update_apply] at foundKept
        split at foundKept
        · cases foundKept
        · exact built other kept foundKept
      · simp only [Function.update_apply] at foundKept
        split at foundKept
        · obtain rfl := Option.some.inj foundKept
          have before := built sh handler found
          exact ⟨before.matchRule, before.nameOwner, before.unquoted⟩
        · exact built other kept foundKept

theorem handlerClean_allBuilt (built : AllBuilt state) (conn : ConnId) (sh : HandlerId) :
    AllBuilt (handlerClean conn state sh) := by
  unfold handlerClean
  split
  · exact built
  · split
    · exact handlerDel_allBuilt built conn sh
    · exact built

theorem handlersClean_allBuilt (built : AllBuilt state) (conn : ConnId) : AllBuilt (handlersClean state conn) := by
  unfold handlersClean
  split
  · have start : AllBuilt { state with deletions := false } := built
    generalize { state with deletions := false } = cleaned at start
    induction state.signalHandlers conn generalizing cleaned with
    | nil => exact start
    | cons sh rest ih => exact ih _ (handlerClean_allBuilt start conn sh)
  · exact built

theorem nameOwnerChanged_built {handler : Handler} (built : Built handler) (bus newOwner : String) :
    Built (nameOwnerChanged bus newOwner handler) := by
  unfold nameOwnerChanged
  split
  · exact ⟨built.matchRule, built.nameOwner, built.unquoted⟩
  · exact built

theorem cbNameOwner_built {handler : Handler} (built : Built handler) (reply : OwnerReply) :
    Built (cbNameOwner handler reply) := by
  cases reply <;> exact ⟨built.matchRule, built.nameOwner, built.unquoted⟩

theorem dispatchBegin_allBuilt (built : AllBuilt state) {conn : ConnId} {incoming : Incoming} {next : State}
    (begun : dispatchBegin state conn incoming = some next) : AllBuilt next := by
  cases incoming with
  | signal message =>
      obtain rfl := Option.some.inj begun
      unfold signalBegin
      split
      · split
        · exact built
        · intro sh handler found
          simp only at found
          split at found
          · obtain ⟨before, foundBefore, rfl⟩ := Option.map_eq_some_iff.mp found
            exact nameOwnerChanged_built (built sh before foundBefore) _ _
          · exact built sh handler found
      · exact built
  | nameOwner sh reply =>
      simp only [dispatchBegin] at begun
      split at begun
      · cases begun
      · next handler found =>
          rw [Option.ite_none_right_eq_some, Option.some.injEq] at begun
          obtain ⟨-, rfl⟩ := begun
          intro other after foundAfter
          simp only [Function.update_apply] at foundAfter
          split at foundAfter
          · exact Option.some.inj foundAfter ▸ cbNameOwner_built (built sh handler found) reply
          · exact built other after foundAfter
  | other =>
      obtain rfl := Option.some.inj begun
      exact built

theorem step_allBuilt {label : Label} {next : State} (registered : Registered state) (built : AllBuilt state)
    (unquoted : label.Unquoted) (stepped : step state label = some next) : AllBuilt next := by
  cases step_effect registered stepped with
  | added conn sender path interface member hasCallback lookupSent =>
      exact handlerAdd_allBuilt built conn (handlerNew_built unquoted hasCallback lookupSent)
  | deleted conn sh runs listed => exact handlerDel_allBuilt built conn sh
  | begun conn incoming next runs begins => exact dispatchBegin_allBuilt built begins
  | turned next turns =>
      cases turns with
      | ended conn message position inCallback outer running atEnd moved => exact moved ▸ built
      | looked conn message position inCallback outer sh handler running located found moved => exact moved ▸ built
  | left conn inCallback outer running =>
      have popped : AllBuilt { state with dispatches := outer } := built
      exact handlersClean_allBuilt popped conn

/-- The bus passes on what the handlers are subscribed to, and nothing else. No handler misses a message. -/
structure Subscribed (state : State) : Prop where
  exact : ∀ owners conn message, routed owners state conn message = true ↔
    ∃ sh ∈ state.signalHandlers conn, ∃ handler, state.handlers sh = some handler ∧
      handler.subscribes owners message = true
  missesNone : ∀ owners conn message, ∀ sh ∈ state.signalHandlers conn, ∀ handler,
    state.handlers sh = some handler → accepts handler message = true →
      (∀ name, handler.sender = some name → SentBy owners message name) → routed owners state conn message = true

theorem subscribed_of (registered : Registered state) (built : AllBuilt state) : Subscribed state := by
  have exact : ∀ owners conn message, routed owners state conn message = true ↔
      ∃ sh ∈ state.signalHandlers conn, ∃ handler, state.handlers sh = some handler ∧
        handler.subscribes owners message = true := by
    intro owners conn message
    rw [routed, (registered.rules conn).any_eq, State.rulesListed, List.any_flatMap, List.any_eq_true]
    constructor
    · rintro ⟨sh, listed, passes⟩
      obtain ⟨handler, found⟩ := registered.allocated conn sh listed
      rw [State.rulesOf, found, Option.map_some, Option.getD_some, rules_subscribe (built sh handler found)] at passes
      exact ⟨sh, listed, handler, found, passes⟩
    · rintro ⟨sh, listed, handler, found, subscribes⟩
      refine ⟨sh, listed, ?_⟩
      rw [State.rulesOf, found, Option.map_some, Option.getD_some, rules_subscribe (built sh handler found)]
      exact subscribes
  refine ⟨exact, fun owners conn message sh listed handler found accepted sentBy => ?_⟩
  exact (exact owners conn message).mpr ⟨sh, listed, handler, found, accepts_subscribes accepted sentBy⟩

/-- Whatever handlers are added and deleted, and whatever is dispatched: as long as no filter has an
apostrophe, the rules on the bus of a connection let through exactly the signals that its handlers are
subscribed to, and with them every message that a handler would be called for. -/
theorem subscribed_throughout {labels : List Label}
    (unquoted : machine.Along (fun _ label _ => label.Unquoted) State.initial labels) :
    machine.Throughout Subscribed State.initial labels := by
  have invariant : machine.Throughout (fun state => Registered state ∧ AllBuilt state) State.initial labels := by
    refine Semantics.Machine.throughout_of_along ?_ ⟨initial_registered, ?_⟩ unquoted
    · intro state label next holds stepped isUnquoted
      exact ⟨step_registered label holds.1 stepped, step_allBuilt holds.1 holds.2 isUnquoted stepped⟩
    · intro sh handler found
      cases found
  exact invariant.mono fun state holds => subscribed_of holds.1 holds.2

/-- Two handlers, one of a looked up sender that is deleted again. -/
def subscribingRun : List Label :=
  [.handlerAdd 0 (some "net.connman") (some "/") (some "net.connman.Manager") (some "PropertyChanged") true true,
    .handlerAdd 0 none none none (some "DeviceAdded") true false, .handlerDel 0 0]

theorem subscribed_throughout_subscribingRun :
    (machine.exec State.initial subscribingRun).isSome ∧
      machine.Throughout Subscribed State.initial subscribingRun := by
  have connman : Unquoted (some "net.connman") (some "/") (some "net.connman.Manager") (some "PropertyChanged") := by
    decide +kernel
  have added : Unquoted none none none (some "DeviceAdded") := by decide +kernel
  refine ⟨by decide +kernel, subscribed_throughout fun first _ => ?_⟩
  exact ⟨connman, fun second _ => ⟨added, fun third _ => ⟨trivial, trivial⟩⟩⟩

end EDBus.Dbus.Signal
