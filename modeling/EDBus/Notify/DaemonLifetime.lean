import EDBus.Notify.Daemon

/-!
# Lifetime of daemons

The request for the name is not taken back when a daemon is freed, and every daemon adds its methods
to the interface of all. `Sane` is what holds while only the first daemon is exported and no daemon
is freed before it got the name; `sound_iff_orderly` shows that this is all that works.
-/

open Semantics
open EDBus.Dbus.Object (Method)

namespace EDBus.Notify.Daemon

variable {state next : State}

/-- The data of the object that is registered for the path of notifications. -/
def exportedOf (connection : Option Connection) : Option DaemonId := connection.bind Connection.exported

/-- Who holds the connection. -/
def holdersOf (connection : Option Connection) : List Holder := connection.elim [] Connection.holders

/-- The requests that are not answered. -/
def requestsOf (connection : Option Connection) : List DaemonId := connection.elim [] Connection.requests

/-- The object of the daemon is exported. -/
def Exported (state : State) (d : DaemonId) : Prop := exportedOf state.connection = some d

/-- The bus answered that the daemon has the name. -/
def Granted (state : State) (d : DaemonId) : Prop :=
  ∃ reply, state.answers d = some reply ∧ reply.grants = true

/-- No daemon was accessed after it was freed, those that have the name are exported, and the interface
of an exported daemon lists each method once. -/
structure Sound (state : State) : Prop where
  untouched : state.touchedFreed = false
  exported : ∀ d daemon, state.daemons d = some daemon → (Exported state d ↔ Granted state d)
  once : ∀ d daemon, state.daemons d = some daemon → Exported state d →
    ∀ method ∈ daemonMethods, state.iface.methods.count method = 1

/-- A daemon is added while none is exported, and gets the name while it is there and the only one that
was ever added. There is memory for its object. -/
def Orderly (state : State) : Label → Prop
  | .daemonAdd _ _ allocated connected =>
    allocated = true → connected = true → ∀ d, ¬ Exported state d
  | .requestNameReply d reply allocated =>
    reply.grants = true → (state.daemons d).isSome ∧ state.nextDaemon = 1 ∧ allocated = true
  | _ => True

/-- What holds of a daemon that was not freed. -/
structure Kept (state : State) (d : DaemonId) (daemon : Record) : Prop where
  known : d < state.nextDaemon
  held : .daemon d ∈ holdersOf state.connection
  object : daemon.obj = true ↔ Exported state d
  granted : Exported state d ↔ Granted state d

/-- Only a daemon that is there is exported, and it is the only one that was added. -/
structure Sane (state : State) : Prop where
  untouched : state.touchedFreed = false
  kept : ∀ d daemon, state.daemons d = some daemon → Kept state d daemon
  exported : ∀ d, Exported state d → (state.daemons d).isSome ∧ state.nextDaemon = 1
  requested : ∀ d ∈ requestsOf state.connection, state.answers d = none ∧ d < state.nextDaemon
  unanswered : ∀ d, state.nextDaemon ≤ d → state.answers d = none
  methods : state.iface.methods = (List.replicate state.nextDaemon daemonMethods).flatten
  library : .library ∈ state.ifaceHolders

theorem exported_congr {other : State} (same : exportedOf other.connection = exportedOf state.connection)
    (d : DaemonId) : Exported other d ↔ Exported state d := by
  rw [Exported, Exported, same]

theorem initial_sane : Sane State.initial where
  untouched := rfl
  kept d daemon found := by cases found
  exported d isExported := by cases isExported
  requested d asked := absurd asked List.not_mem_nil
  unanswered _ _ := rfl
  methods := rfl
  library := List.mem_singleton.mpr rfl

/-- Every daemon that was added has added its methods. -/
theorem count_methods (times : Nat) {method : Method Func} (listed : method ∈ daemonMethods) :
    (List.replicate times daemonMethods).flatten.count method = times := by
  have once : daemonMethods.count method = 1 := by
    revert method
    decide
  induction times with
  | zero => rfl
  | succ times ih => rw [List.replicate_succ, List.flatten_cons, List.count_append, ih, once, Nat.add_comm]

theorem Sane.sound (sane : Sane state) : Sound state where
  untouched := sane.untouched
  exported d daemon found := (sane.kept d daemon found).granted
  once d daemon _ isExported method listed := by
    rw [sane.methods, count_methods _ listed, (sane.exported d isExported).2]

/-! ## The connection -/

/-- The connection may be closed once nobody holds it. -/
theorem connectionSettle_spec (state : State) :
    ∃ connection, connectionSettle state = { state with connection } ∧
      holdersOf connection = holdersOf state.connection ∧
      requestsOf connection ⊆ requestsOf state.connection ∧
      (holdersOf state.connection ≠ [] → exportedOf connection = exportedOf state.connection) ∧
      (exportedOf state.connection = none → exportedOf connection = none) := by
  unfold connectionSettle
  split
  · next unconnected => exact ⟨none, by rw [← unconnected], by simp [unconnected]⟩
  · next conn isConn =>
      split
      · next settled =>
          refine ⟨none, rfl, ?_, ?_, ?_, fun _ => rfl⟩
          · rw [isConn]
            exact settled.1.symm
          · exact List.nil_subset _
          · intro held
            rw [isConn] at held
            exact absurd settled.1 held
      · exact ⟨state.connection, rfl, rfl, List.Subset.refl _, fun _ => rfl, id⟩

theorem connectionClose_spec (state : State) (holder : Holder) :
    ∃ connection, connectionClose state holder = { state with connection } ∧
      holdersOf connection = (holdersOf state.connection).erase holder ∧
      requestsOf connection ⊆ requestsOf state.connection ∧
      ((holdersOf state.connection).erase holder ≠ [] →
        exportedOf connection = exportedOf state.connection) ∧
      (exportedOf state.connection = none → exportedOf connection = none) := by
  obtain ⟨connection, settled, holders, requests, exported, unexported⟩ := connectionSettle_spec
    { state with connection := state.connection.map fun conn => { conn with holders := conn.holders.erase holder } }
  refine ⟨connection, settled, ?_, ?_, ?_, ?_⟩
  all_goals cases isConn : state.connection with
    | none => simp_all [holdersOf, requestsOf, exportedOf]
    | some conn => simp_all [holdersOf, requestsOf, exportedOf]

theorem busGet_spec (state : State) (holder : Holder) :
    ∃ connection, busGet state holder = { state with connection } ∧
      holdersOf connection = holdersOf state.connection ++ [holder] ∧
      requestsOf connection = requestsOf state.connection ∧
      exportedOf connection = exportedOf state.connection := by
  refine ⟨(busGet state holder).connection, rfl, ?_⟩
  unfold busGet
  cases state.connection with
  | none => exact ⟨rfl, rfl, rfl⟩
  | some conn => exact ⟨rfl, rfl, rfl⟩

/-- The connection may change as long as it is held by every daemon, and nothing is exported or asked
for that was not before. -/
theorem Sane.reconnect (sane : Sane state) {connection : Option Connection}
    (exported : exportedOf connection = exportedOf state.connection)
    (requests : requestsOf connection ⊆ requestsOf state.connection)
    (held : ∀ d, .daemon d ∈ holdersOf state.connection → .daemon d ∈ holdersOf connection) (dispatches : Nat) :
    Sane { state with connection, dispatches } := by
  have same : ∀ d, Exported { state with connection, dispatches } d ↔ Exported state d := exported_congr exported
  constructor
  case untouched => exact sane.untouched
  case kept =>
    intro d daemon found
    have kept := sane.kept d daemon found
    exact ⟨kept.known, held d kept.held, kept.object.trans (same d).symm, (same d).trans kept.granted⟩
  case exported => exact fun d isExported => sane.exported d ((same d).mp isExported)
  case requested => exact fun d asked => sane.requested d (requests asked)
  case unanswered => exact sane.unanswered
  case methods => exact sane.methods
  case library => exact sane.library

/-! ## Adding and freeing -/

theorem foldl_interfaceMethodAdd (methods : List (Method Func)) (iface : Dbus.Object.Interface Func) :
    methods.foldl interfaceMethodAdd iface = { iface with methods := iface.methods ++ methods } := by
  induction methods generalizing iface with
  | nil => rw [List.foldl_nil, List.append_nil]
  | cons method rest ih =>
      rw [List.foldl_cons, ih]
      simp [interfaceMethodAdd]

theorem daemonAdd_spec (state : State) (name vendor : String) :
    ∃ connection, daemonAdd state name vendor = { state with
        connection
        daemons := Function.update state.daemons state.nextDaemon (some ⟨name, vendor, false, false, false⟩)
        nextDaemon := state.nextDaemon + 1
        ifaceHolders := state.ifaceHolders ++ [.daemon state.nextDaemon]
        iface := { state.iface with methods := state.iface.methods ++ daemonMethods } } ∧
      holdersOf connection = holdersOf state.connection ++ [.daemon state.nextDaemon] ∧
      requestsOf connection = requestsOf state.connection ++ [state.nextDaemon] ∧
      exportedOf connection = exportedOf state.connection := by
  refine ⟨(daemonAdd state name vendor).connection, ?_, ?_⟩
  · simp only [daemonAdd, interfaceRef, busGet, foldl_interfaceMethodAdd]
  · unfold daemonAdd interfaceRef busGet
    cases state.connection with
    | none => exact ⟨rfl, rfl, rfl⟩
    | some conn => exact ⟨rfl, rfl, rfl⟩

theorem daemonAdd_sane (sane : Sane state) (name vendor : String) (unexported : ∀ d, ¬ Exported state d) :
    Sane (daemonAdd state name vendor) := by
  obtain ⟨connection, added, holders, requests, exported⟩ := daemonAdd_spec state name vendor
  rw [added]
  constructor
  case untouched => exact sane.untouched
  case kept =>
    intro d daemon found
    simp only [Function.update_apply] at found
    split at found
    · next isNew =>
        obtain rfl := Option.some.inj found
        subst isNew
        constructor
        case known => exact Nat.lt_succ_self _
        case held => simp [holders]
        case object => simpa [Exported, exported] using unexported state.nextDaemon
        case granted =>
          have ungranted := sane.unanswered state.nextDaemon (Nat.le_refl _)
          simpa [Exported, exported, Granted, ungranted] using unexported state.nextDaemon
    · have kept := sane.kept d daemon found
      constructor
      case known => exact Nat.lt_succ_of_lt kept.known
      case held =>
        rw [holders]
        exact List.mem_append_left _ kept.held
      case object => exact kept.object.trans (exported_congr exported d).symm
      case granted => exact (exported_congr exported d).trans kept.granted
  case exported =>
    intro d isExported
    rw [Exported, exported] at isExported
    exact absurd isExported (unexported d)
  case requested =>
    intro d asked
    rw [requests] at asked
    rcases List.mem_append.mp asked with before | isNew
    · obtain ⟨unanswered, known⟩ := sane.requested d before
      exact ⟨unanswered, Nat.lt_succ_of_lt known⟩
    · obtain rfl := List.mem_singleton.mp isNew
      exact ⟨sane.unanswered _ (Nat.le_refl _), Nat.lt_succ_self _⟩
  case unanswered =>
    intro d unknown
    exact sane.unanswered d (Nat.le_of_succ_le unknown)
  case methods =>
    dsimp only
    rw [sane.methods, List.replicate_succ', List.flatten_append, List.flatten_singleton]
  case library => exact List.mem_append_left _ sane.library

/-- The library keeps the interface. -/
theorem interfaceUnref_spec (state : State) (holder : Holder) (library : .library ∈ state.ifaceHolders)
    (user : holder ≠ .library) :
    interfaceUnref state holder = { state with ifaceHolders := state.ifaceHolders.erase holder } ∧
      .library ∈ state.ifaceHolders.erase holder := by
  have stays : .library ∈ state.ifaceHolders.erase holder := (List.mem_erase_of_ne user.symm).mpr library
  constructor
  · rw [interfaceUnref, if_neg (List.ne_nil_of_mem stays)]
  · exact stays

/-- Where a daemon is exported there is no other. -/
theorem Sane.only (sane : Sane state) {d other : DaemonId} {daemon : Record} (isExported : Exported state other)
    (found : state.daemons d = some daemon) : d = other := by
  obtain ⟨isThere, single⟩ := sane.exported other isExported
  obtain ⟨there, foundOther⟩ := Option.isSome_iff_exists.mp isThere
  have known := (sane.kept d daemon found).known
  have otherKnown := (sane.kept other there foundOther).known
  rw [single] at known otherKnown
  rw [Nat.lt_one_iff.mp known, Nat.lt_one_iff.mp otherKnown]

/-- The object of a daemon is unregistered. -/
theorem objectFree_spec (state : State) (d : DaemonId) :
    ∃ connection, objectFree state d = { state with connection } ∧
      holdersOf connection = (holdersOf state.connection).erase (.object d) ∧
      requestsOf connection ⊆ requestsOf state.connection ∧
      exportedOf connection = none := by
  obtain ⟨connection, closed, holders, requests, -, stays⟩ := connectionClose_spec
    { state with connection := state.connection.map fun conn => { conn with exported := none } } (.object d)
  refine ⟨connection, closed, ?_, ?_, ?_⟩
  · rw [holders]
    cases state.connection <;> rfl
  · refine List.Subset.trans requests ?_
    cases state.connection <;> exact List.Subset.refl _
  · apply stays
    cases state.connection <;> rfl

/-- A daemon is freed, and its object with it. -/
theorem daemonFree_spec (sane : Sane state) {d : DaemonId} {daemon : Record} (found : state.daemons d = some daemon) :
    ∃ connection ifaceHolders, daemonFree state d = { state with
        connection, ifaceHolders, daemons := Function.update state.daemons d none } ∧
      .library ∈ ifaceHolders ∧
      (∀ other, other ≠ d → .daemon other ∈ holdersOf state.connection → .daemon other ∈ holdersOf connection) ∧
      requestsOf connection ⊆ requestsOf state.connection ∧
      exportedOf connection = none := by
  have kept := sane.kept d daemon found
  rw [daemonFree, found]
  dsimp only
  cases object : daemon.obj with
  | false =>
      have unexported : exportedOf state.connection = none := by
        cases isExported : exportedOf state.connection with
        | none => rfl
        | some other =>
            obtain rfl := sane.only isExported found
            rw [kept.object.mpr isExported] at object
            cases object
      obtain ⟨connection, closed, holders, requests, -, stays⟩ := connectionClose_spec state (.daemon d)
      obtain ⟨unreferenced, library⟩ :=
        interfaceUnref_spec { state with connection } (.daemon d) sane.library nofun
      refine ⟨connection, state.ifaceHolders.erase (.daemon d), ?_, library, ?_, requests, stays unexported⟩
      · rw [if_neg Bool.false_ne_true, closed, unreferenced]
      · intro other different held
        rw [holders]
        exact (List.mem_erase_of_ne fun same => different (Holder.daemon.inj same)).mpr held
  | true =>
      obtain ⟨detached, library⟩ := interfaceUnref_spec state (.object d) sane.library nofun
      obtain ⟨between, unregistered, holders, requests, unexported⟩ := objectFree_spec
        { state with ifaceHolders := state.ifaceHolders.erase (.object d) } d
      obtain ⟨connection, closed, lessHolders, lessRequests, -, stays⟩ := connectionClose_spec
        { state with ifaceHolders := state.ifaceHolders.erase (.object d), connection := between } (.daemon d)
      obtain ⟨unreferenced, stillLibrary⟩ := interfaceUnref_spec
        { state with ifaceHolders := state.ifaceHolders.erase (.object d), connection } (.daemon d) library nofun
      refine ⟨connection, (state.ifaceHolders.erase (.object d)).erase (.daemon d), ?_, stillLibrary, ?_, ?_,
        stays unexported⟩
      · rw [if_pos rfl, detached, unregistered, closed, unreferenced]
      · intro other different held
        rw [lessHolders, holders]
        refine (List.mem_erase_of_ne fun same => different (Holder.daemon.inj same)).mpr ?_
        exact (List.mem_erase_of_ne (show Holder.daemon other ≠ .object d from nofun)).mpr held
      · exact List.Subset.trans lessRequests requests

theorem daemonFree_sane (sane : Sane state) {d : DaemonId} {daemon : Record} (found : state.daemons d = some daemon) :
    Sane (daemonFree state d) := by
  obtain ⟨connection, ifaceHolders, freed, library, held, requests, unexported⟩ := daemonFree_spec sane found
  rw [freed]
  constructor
  case untouched => exact sane.untouched
  case kept =>
    intro other there foundOther
    simp only [Function.update_apply] at foundOther
    split at foundOther
    · cases foundOther
    · next different =>
        have kept := sane.kept other there foundOther
        have ungranted : ¬ Exported state other := fun isExported => different (sane.only isExported found).symm
        constructor
        case known => exact kept.known
        case held => exact held other different kept.held
        case object => simpa [Exported, unexported, kept.object] using ungranted
        case granted =>
          refine iff_of_false ?_ fun granted => ungranted (kept.granted.mpr granted)
          simp [Exported, unexported]
  case exported =>
    intro other isExported
    rw [Exported, unexported] at isExported
    cases isExported
  case requested => exact fun other asked => sane.requested other (requests asked)
  case unanswered => exact sane.unanswered
  case methods => exact sane.methods
  case library => exact library

/-! ## The reply -/

theorem replyTaken_exported {conn : Connection} (isConn : state.connection = some conn) (d : DaemonId)
    (reply : NameReply) (other : DaemonId) :
    Exported (replyTaken state conn d reply) other ↔ Exported state other := by
  apply exported_congr
  rw [isConn]
  rfl

theorem replyTaken_answers (conn : Connection) {d other : DaemonId} (different : other ≠ d) (reply : NameReply) :
    (replyTaken state conn d reply).answers other = state.answers other := Function.update_of_ne different ..

/-- Who waits for an answer did not get one. -/
theorem Sane.asking (sane : Sane state) {conn : Connection} (isConn : state.connection = some conn)
    {d : DaemonId} (asked : d ∈ conn.requests) : state.answers d = none ∧ d < state.nextDaemon := by
  apply sane.requested d
  rw [isConn]
  exact asked

theorem replyTaken_requested (sane : Sane state) {conn : Connection} (isConn : state.connection = some conn)
    {d other : DaemonId} (waiting : other ∈ conn.requests.filter (· ≠ d)) (reply : NameReply) :
    (replyTaken state conn d reply).answers other = none ∧ other < state.nextDaemon := by
  obtain ⟨listed, different⟩ := List.mem_filter.mp waiting
  rw [replyTaken_answers conn (by simpa using different)]
  exact sane.asking isConn listed

theorem replyTaken_unanswered (sane : Sane state) (conn : Connection) {d other : DaemonId}
    (known : d < state.nextDaemon) (unknown : state.nextDaemon ≤ other) (reply : NameReply) :
    (replyTaken state conn d reply).answers other = none := by
  have different : other ≠ d := fun same => absurd (same ▸ known) (Nat.not_lt.mpr unknown)
  rw [replyTaken_answers conn different]
  exact sane.unanswered other unknown

/-- A reply without the name changes nothing. -/
theorem replyTaken_sane (sane : Sane state) {conn : Connection} (isConn : state.connection = some conn)
    {d : DaemonId} (asked : d ∈ conn.requests) {reply : NameReply} (refused : reply.grants = false) :
    Sane (replyTaken state conn d reply) := by
  have exported := replyTaken_exported isConn d reply
  obtain ⟨unanswered, known⟩ := sane.asking isConn asked
  constructor
  case untouched => exact sane.untouched
  case kept =>
    intro other daemon found
    have kept := sane.kept other daemon found
    constructor
    case known => exact kept.known
    case held =>
      have held := kept.held
      rw [isConn] at held
      exact held
    case object => exact kept.object.trans (exported other).symm
    case granted =>
      refine (exported other).trans (kept.granted.trans ?_)
      by_cases same : other = d
      · subst same
        simp [Granted, replyTaken, unanswered, refused]
      · rw [Granted, Granted, replyTaken_answers conn same]
  case exported => exact fun other isExported => sane.exported other ((exported other).mp isExported)
  case requested => exact fun other waiting => replyTaken_requested sane isConn waiting reply
  case unanswered => exact fun other unknown => replyTaken_unanswered sane conn known unknown reply
  case methods => exact sane.methods
  case library => exact sane.library

/-- A daemon that waits for its name is not exported, and no other is. -/
theorem Sane.waiting (sane : Sane state) {conn : Connection} (isConn : state.connection = some conn)
    {d : DaemonId} (asked : d ∈ conn.requests) {daemon : Record} (found : state.daemons d = some daemon) :
    conn.exported = none := by
  cases isExported : conn.exported with
  | none => rfl
  | some other =>
      have exported : Exported state other := by
        rw [Exported, isConn]
        exact isExported
      obtain rfl := sane.only exported found
      obtain ⟨reply, answered, -⟩ := (sane.kept d daemon found).granted.mp exported
      rw [(sane.asking isConn asked).1] at answered
      cases answered

theorem objectInit_spec (state : State) {conn : Connection} (isConn : state.connection = some conn)
    (unexported : conn.exported = none) {d : DaemonId} {daemon : Record} (found : state.daemons d = some daemon) :
    objectInit state d true = { state with
      connection := some { conn with holders := conn.holders ++ [.object d], exported := some d }
      daemons := Function.update state.daemons d (some { daemon with obj := true })
      ifaceHolders := state.ifaceHolders ++ [.object d] } := by
  rw [objectInit, found, isConn]
  dsimp only
  rw [if_pos ⟨rfl, unexported⟩]
  rfl

/-- The first daemon gets its name, and is exported. -/
theorem objectInit_sane (sane : Sane state) {conn : Connection} (isConn : state.connection = some conn)
    {d : DaemonId} (asked : d ∈ conn.requests) {reply : NameReply} (grants : reply.grants = true)
    (isThere : (state.daemons d).isSome) (single : state.nextDaemon = 1) :
    Sane (objectInit (replyTaken state conn d reply) d true) := by
  obtain ⟨daemon, found⟩ := Option.isSome_iff_exists.mp isThere
  have unexported := sane.waiting isConn asked found
  have known := (sane.asking isConn asked).2
  rw [objectInit_spec (replyTaken state conn d reply) rfl unexported found]
  constructor
  case untouched => exact sane.untouched
  case kept =>
    intro other there foundOther
    by_cases same : other = d
    · subst same
      simp only [Function.update_self, Option.some.injEq] at foundOther
      subst foundOther
      have granted : Granted (replyTaken state conn other reply) other := ⟨reply, Function.update_self .., grants⟩
      constructor
      case known => exact known
      case held =>
        have held := (sane.kept other daemon found).held
        rw [isConn] at held
        exact List.mem_append_left _ held
      case object => exact iff_of_true rfl rfl
      case granted => exact iff_of_true rfl granted
    · simp only [Function.update_of_ne same] at foundOther
      have otherKnown := (sane.kept other there foundOther).known
      rw [single] at known otherKnown
      exact absurd ((Nat.lt_one_iff.mp otherKnown).trans (Nat.lt_one_iff.mp known).symm) same
  case exported =>
    intro other isExported
    obtain rfl := Option.some.inj isExported
    exact ⟨by simp, single⟩
  case requested => exact fun other waiting => replyTaken_requested sane isConn waiting reply
  case unanswered => exact fun other unknown => replyTaken_unanswered sane conn known unknown reply
  case methods => exact sane.methods
  case library => exact List.mem_append_left _ sane.library

/-! ## Runs -/

/-- What is exported stays as long as the daemons hold the connection. -/
theorem Sane.exported_stays (sane : Sane state) {connection : Option Connection} {holders : List Holder}
    (held : ∀ d, .daemon d ∈ holdersOf state.connection → .daemon d ∈ holders)
    (same : holders ≠ [] → exportedOf connection = exportedOf state.connection)
    (unexported : exportedOf state.connection = none → exportedOf connection = none) :
    exportedOf connection = exportedOf state.connection := by
  cases isExported : exportedOf state.connection with
  | none => exact unexported isExported
  | some d =>
      obtain ⟨daemon, found⟩ := Option.isSome_iff_exists.mp (sane.exported d isExported).1
      have holder := held d (sane.kept d daemon found).held
      exact (same (List.ne_nil_of_mem holder)).trans isExported

theorem otherClose_sane (sane : Sane state) : Sane (connectionClose state .other) := by
  obtain ⟨connection, closed, holders, requests, same, unexported⟩ := connectionClose_spec state .other
  have held : ∀ d, .daemon d ∈ holdersOf state.connection →
      .daemon d ∈ (holdersOf state.connection).erase .other := fun d holder =>
    (List.mem_erase_of_ne (show Holder.daemon d ≠ .other from nofun)).mpr holder
  rw [closed]
  exact sane.reconnect (sane.exported_stays held same unexported) requests (holders ▸ held) state.dispatches

theorem idlerLeave_sane (sane : Sane state) (dispatches : Nat) :
    Sane (connectionSettle { state with dispatches }) := by
  obtain ⟨connection, settled, holders, requests, same, unexported⟩ := connectionSettle_spec { state with dispatches }
  have held : ∀ d, .daemon d ∈ holdersOf state.connection → .daemon d ∈ holdersOf state.connection := fun _ => id
  rw [settled]
  exact sane.reconnect (sane.exported_stays held same unexported) requests (holders ▸ held) dispatches

theorem busGet_sane (sane : Sane state) (holder : Holder) : Sane (busGet state holder) := by
  obtain ⟨connection, got, holders, requests, exported⟩ := busGet_spec state holder
  rw [got]
  apply sane.reconnect exported (requests ▸ List.Subset.refl _) _ state.dispatches
  intro d held
  rw [holders]
  exact List.mem_append_left _ held

/-- The user sets the functions of a daemon. -/
theorem callbackSet_sane (sane : Sane state) {d : DaemonId} {daemon : Record} (found : state.daemons d = some daemon)
    (notify closeNotification : Bool) :
    Sane { state with
      daemons := Function.update state.daemons d (some { daemon with notify, closeNotification }) } := by
  constructor
  case untouched => exact sane.untouched
  case kept =>
    intro other there foundOther
    by_cases same : other = d
    · subst same
      simp only [Function.update_self, Option.some.injEq] at foundOther
      subst foundOther
      have kept := sane.kept other daemon found
      exact ⟨kept.known, kept.held, kept.object, kept.granted⟩
    · simp only [Function.update_of_ne same] at foundOther
      have kept := sane.kept other there foundOther
      exact ⟨kept.known, kept.held, kept.object, kept.granted⟩
  case exported =>
    intro other isExported
    obtain ⟨isThere, single⟩ := sane.exported other isExported
    refine ⟨?_, single⟩
    by_cases same : other = d
    · simp [same]
    · simpa [Function.update_of_ne same] using isThere
  case requested => exact sane.requested
  case unanswered => exact sane.unanswered
  case methods => exact sane.methods
  case library => exact sane.library

/-- A method call reaches only a daemon that is there. -/
theorem methodCall_sane (sane : Sane state) {message : Dbus.Message} {id : Int}
    (acted : act state (.methodCall message id) = some next) :
    next = { state with dispatches := state.dispatches + 1 } := by
  simp only [act] at acted
  split at acted
  · cases acted
  · next conn isConn =>
      split at acted
      · exact (Option.some.inj acted).symm
      · next d isExported =>
          have exported : Exported state d := by
            rw [Exported, isConn]
            exact isExported
          obtain ⟨outcome, -, rfl⟩ := Option.map_eq_some_iff.mp acted
          have there : (state.daemons d).isNone = false := by
            rw [← Option.not_isSome, (sane.exported d exported).1, Bool.not_true]
          rw [there, Bool.and_false, if_neg Bool.false_ne_true]

/-- An orderly step keeps order. -/
theorem step_sane (label : Label) (sane : Sane state) (stepped : step state label = some next)
    (orderly : Orderly state label) : Sane next := by
  have acted : act state label = some next := by simpa [step, sane.untouched] using stepped
  cases label with
  | methodCall message id =>
      rw [methodCall_sane sane acted]
      exact sane.reconnect rfl (List.Subset.refl _) (fun _ holder => holder) (state.dispatches + 1)
  | daemonAdd name vendor allocated connected =>
      simp only [act, Bool.and_eq_true] at acted
      split at acted
      · next possible =>
          obtain rfl := Option.some.inj acted
          exact daemonAdd_sane sane name vendor (orderly possible.1 possible.2)
      · exact Option.some.inj acted ▸ sane
  | daemonFree d =>
      simp only [act, Option.ite_none_right_eq_some,
        Option.some.injEq] at acted
      obtain ⟨isThere, rfl⟩ := acted
      obtain ⟨daemon, found⟩ := Option.isSome_iff_exists.mp isThere
      exact daemonFree_sane sane found
  | callbackSet d notify closeNotification =>
      simp only [act] at acted
      split at acted
      · cases acted
      · next daemon found =>
          obtain rfl := Option.some.inj acted
          exact callbackSet_sane sane found notify closeNotification
  | requestNameReply d reply allocated =>
      simp only [act] at acted
      split at acted
      · cases acted
      · next conn isConn =>
          simp only [Option.ite_none_right_eq_some, Option.some.injEq] at acted
          obtain ⟨asked, rfl⟩ := acted
          rw [cbRequestName]
          split
          · next grants =>
              obtain ⟨isThere, single, rfl⟩ := orderly grants
              exact objectInit_sane sane isConn asked grants isThere single
          · next refused => exact replyTaken_sane sane isConn asked (by simpa using refused)
  | idlerLeave =>
      simp only [act, Option.ite_none_left_eq_some,
        Option.some.injEq] at acted
      obtain ⟨-, rfl⟩ := acted
      exact idlerLeave_sane sane _
  | otherGet =>
      simp only [act, Option.some.injEq] at acted
      obtain rfl := acted
      exact busGet_sane sane .other
  | otherClose =>
      simp only [act] at acted
      split at acted
      · cases acted
      · simp only [Option.ite_none_right_eq_some, Option.some.injEq] at acted
        obtain ⟨-, rfl⟩ := acted
        exact otherClose_sane sane

/-- A second daemon spoils the interface of the first. -/
theorem daemonAdd_unsound (sane : Sane state) (name vendor : String) {d : DaemonId} (isExported : Exported state d) :
    ¬ Sound (daemonAdd state name vendor) := by
  intro sound
  obtain ⟨isThere, single⟩ := sane.exported d isExported
  obtain ⟨daemon, found⟩ := Option.isSome_iff_exists.mp isThere
  obtain ⟨connection, added, -, -, exported⟩ := daemonAdd_spec state name vendor
  have known : d ≠ state.nextDaemon := Nat.ne_of_lt (sane.kept d daemon found).known
  rw [added] at sound
  have listed : ⟨"Notify", some "susssasa{sv}i", .notify⟩ ∈ daemonMethods := by decide
  have once := sound.once d daemon ((Function.update_of_ne known ..).trans found)
    ((exported_congr exported d).mpr isExported) _ listed
  simp only [List.count_append] at once
  rw [sane.methods, single, count_methods 1 listed] at once
  exact absurd once (by decide)

/-- The name comes too late, or for one daemon too many, or there is no memory for the object. -/
theorem objectInit_sound (sane : Sane state) {conn : Connection} (isConn : state.connection = some conn)
    {d : DaemonId} (asked : d ∈ conn.requests) {reply : NameReply} (grants : reply.grants = true) {allocated : Bool}
    (sound : Sound (objectInit (replyTaken state conn d reply) d allocated)) :
    (state.daemons d).isSome ∧ state.nextDaemon = 1 ∧ allocated = true := by
  cases found : state.daemons d with
  | none =>
      have untouched := sound.untouched
      rw [objectInit, show (replyTaken state conn d reply).daemons d = none from found] at untouched
      cases untouched
  | some daemon =>
      have unexported := sane.waiting isConn asked found
      have granted : Granted (replyTaken state conn d reply) d := ⟨reply, Function.update_self .., grants⟩
      cases allocated with
      | false =>
          have refused : objectInit (replyTaken state conn d reply) d false = replyTaken state conn d reply := by
            rw [objectInit, show (replyTaken state conn d reply).daemons d = some daemon from found]
            rfl
          rw [refused] at sound
          have isExported := (sound.exported d daemon found).mpr granted
          rw [replyTaken_exported isConn, Exported, isConn, exportedOf, Option.bind_some, unexported] at isExported
          cases isExported
      | true =>
          rw [objectInit_spec (replyTaken state conn d reply) rfl unexported found] at sound
          have listed : ⟨"Notify", some "susssasa{sv}i", .notify⟩ ∈ daemonMethods := by decide
          have once := sound.once d _ (Function.update_self ..) rfl _ listed
          rw [show (replyTaken state conn d reply).iface = state.iface from rfl, sane.methods,
            count_methods _ listed] at once
          exact ⟨rfl, once, rfl⟩

/-- After a step that is not orderly something is wrong. -/
theorem orderly_of_sound (label : Label) (sane : Sane state) (stepped : step state label = some next)
    (sound : Sound next) : Orderly state label := by
  have acted : act state label = some next := by simpa [step, sane.untouched] using stepped
  cases label with
  | daemonAdd name vendor allocated connected =>
      rintro rfl rfl d isExported
      obtain rfl := Option.some.inj acted
      exact daemonAdd_unsound sane name vendor isExported sound
  | requestNameReply d reply allocated =>
      intro grants
      simp only [act] at acted
      split at acted
      · cases acted
      · next conn isConn =>
          simp only [Option.ite_none_right_eq_some, Option.some.injEq] at acted
          obtain ⟨asked, rfl⟩ := acted
          rw [cbRequestName, if_pos grants] at sound
          exact objectInit_sound sane isConn asked grants sound
  | daemonFree d => trivial
  | callbackSet d notify closeNotification => trivial
  | methodCall message id => trivial
  | idlerLeave => trivial
  | otherGet => trivial
  | otherClose => trivial

/-- For any daemons that are added and freed, whatever the bus answers and whatever calls come: all is
well in every state if and only if every step is orderly. -/
theorem sound_iff_orderly (labels : List Label) :
    machine.Throughout Sound State.initial labels ↔
      machine.Along (fun state label _ => Orderly state label) State.initial labels :=
  Machine.throughout_iff_along Sane
    (fun _ label _ sane stepped =>
      ⟨orderly_of_sound label sane stepped, fun orderly => (step_sane label sane stepped orderly).sound⟩)
    (fun _ label _ sane stepped orderly => step_sane label sane stepped orderly)
    initial_sane initial_sane.sound

/-- Someone else uses the session bus, and a daemon is freed before the bus gives it its name. -/
theorem sound_fails_late : ¬ ∀ labels, machine.Throughout Sound State.initial labels := by
  intro always
  have throughout := always [.otherGet, .daemonAdd "notify" "vendor" true true, .daemonFree 0,
    .requestNameReply 0 (.code primaryOwner) true]
  have sound := throughout.finish rfl
  exact absurd sound.untouched (by decide)

end EDBus.Notify.Daemon
