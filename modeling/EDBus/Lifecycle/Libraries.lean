import EDBus.Semantics.InitCount

/-!
# The libraries that count their users

`e_dbus` itself, and what is initialised on top of it: `e_hal` and `e_ukit`, the notification client and
the notification daemon. Every call of a library below them may fail, and an `init` is given what those
calls return. A counter of the type `int` that overflows has no meaning in C, and is an integer here.
-/

namespace EDBus.Lifecycle

/-! ## What lies below -/

/-- The users of `eina` and of `ecore`, the log domains that are registered, the references to
connections, and two globals of `e_dbus`. -/
structure Below where
  eina : Int
  logDomains : List (String × Int)
  ecore : Int
  connections : Int
  dbusInitCount : Int
  dbusLogDom : Int
deriving DecidableEq, Repr

/-- What `eina_log_domain_register` returns. -/
def domainId : Option Nat → Int
  | some id => id
  | none => -1

/-- A log domain is registered, unless there is no `id` for it. -/
def logDomainRegister (domains : List (String × Int)) (name : String) (id : Option Nat) : List (String × Int) :=
  if domainId id < 0 then domains else (name, domainId id) :: domains

/-- `eina_log_domain_unregister`. -/
def logDomainUnregister (domains : List (String × Int)) (id : Int) : List (String × Int) :=
  domains.eraseP fun domain => domain.2 = id

theorem domainId_nonneg (id : Nat) : ¬ domainId (some id) < 0 := Int.not_lt.mpr (Int.natCast_nonneg id)

theorem logDomainRegister_some (domains : List (String × Int)) (name : String) (id : Nat) :
    logDomainRegister domains name (some id) = (name, domainId (some id)) :: domains :=
  if_neg (domainId_nonneg id)

/-- The domain that was registered last. -/
theorem logDomainUnregister_cons (domains : List (String × Int)) (name : String) (id : Int) :
    logDomainUnregister ((name, id) :: domains) id = domains :=
  List.eraseP_cons_of_pos (decide_eq_true rfl)

namespace Below

/-- `eina_init` that does not fail. -/
def einaInit (below : Below) : Below := { below with eina := below.eina + 1 }

/-- `eina_shutdown`. -/
def einaShutdown (below : Below) : Below := { below with eina := below.eina - 1 }

/-- `ecore_init` that does not fail. -/
def ecoreInit (below : Below) : Below := { below with ecore := below.ecore + 1 }

/-- `ecore_shutdown`. -/
def ecoreShutdown (below : Below) : Below := { below with ecore := below.ecore - 1 }

/-- `eina_log_domain_register`. -/
def domainAdd (below : Below) (name : String) (id : Option Nat) : Below :=
  { below with logDomains := logDomainRegister below.logDomains name id }

/-- `eina_log_domain_unregister`. -/
def domainDel (below : Below) (id : Int) : Below :=
  { below with logDomains := logDomainUnregister below.logDomains id }

end Below

/-! ## `e_dbus` -/

/-- What the calls of `e_dbus_init` return. -/
structure DbusSteps where
  eina : Bool
  logDom : Option Nat
  ecore : Bool
deriving DecidableEq, Repr

/-- One of the calls fails. -/
def DbusSteps.fail (steps : DbusSteps) : Bool := !steps.eina || steps.logDom.isNone || !steps.ecore

/-- `e_dbus_init`. -/
def dbusInit (below : Below) (steps : DbusSteps) : Below × Int :=
  let counted : Below := { below with dbusInitCount := below.dbusInitCount + 1 }
  let uncount (below : Below) : Below := { below with dbusInitCount := below.dbusInitCount - 1 }
  if counted.dbusInitCount ≠ 1 then (counted, counted.dbusInitCount)
  else if steps.eina = false then (uncount counted, (uncount counted).dbusInitCount)
  else
    let registered : Below :=
      { counted.einaInit.domainAdd "e_dbus" steps.logDom with dbusLogDom := domainId steps.logDom }
    if registered.dbusLogDom < 0 then
      let undone := uncount registered.einaShutdown
      (undone, undone.dbusInitCount)
    else if steps.ecore = false then
      let unregistered : Below := { registered.domainDel registered.dbusLogDom with dbusLogDom := -1 }
      let undone := uncount unregistered.einaShutdown
      (undone, undone.dbusInitCount)
    else (registered.ecoreInit, registered.dbusInitCount)

/-- `e_dbus_shutdown`. -/
def dbusShutdown (below : Below) : Below × Int :=
  if below.dbusInitCount ≤ 0 then (below, 0)
  else
    let counted : Below := { below with dbusInitCount := below.dbusInitCount - 1 }
    if counted.dbusInitCount ≠ 0 then (counted, counted.dbusInitCount)
    else
      let closed : Below := { counted.ecoreShutdown.domainDel counted.dbusLogDom with dbusLogDom := -1 }
      (closed.einaShutdown, closed.dbusInitCount)

/-- `e_dbus` counts, and has no log domain if no one uses it. -/
structure Below.WellFormed (below : Below) : Prop where
  counts : 0 ≤ below.dbusInitCount
  domain : below.dbusInitCount = 0 → below.dbusLogDom = -1

/-- `e_dbus_init` fails. -/
def Below.dbusFails (below : Below) (steps : DbusSteps) : Prop := below.dbusInitCount = 0 ∧ steps.fail = true

instance (below : Below) (steps : DbusSteps) : Decidable (below.dbusFails steps) :=
  inferInstanceAs (Decidable (_ ∧ _))

/-- A failing `e_dbus_init` says so, and changes nothing. -/
theorem dbusInit_fails {below : Below} (wf : below.WellFormed) {steps : DbusSteps} (fails : below.dbusFails steps) :
    dbusInit below steps = (below, 0) := by
  obtain ⟨eina, logDomains, ecore, connections, dbusInitCount, dbusLogDom⟩ := below
  obtain ⟨einaOk, logDom, ecoreOk⟩ := steps
  obtain ⟨zero, failing⟩ := fails
  obtain rfl : dbusInitCount = 0 := zero
  obtain rfl : dbusLogDom = -1 := wf.domain rfl
  cases einaOk with
  | false => rfl
  | true =>
      cases logDom with
      | none => simp [dbusInit, domainId, logDomainRegister, Below.einaInit, Below.einaShutdown, Below.domainAdd]
      | some id =>
          obtain rfl : ecoreOk = false := by simpa [DbusSteps.fail] using failing
          simp [dbusInit, domainId, logDomainRegister_some, logDomainUnregister_cons, Below.einaInit,
            Below.einaShutdown, Below.domainAdd, Below.domainDel, (Int.natCast_nonneg id).not_gt]

/-- What was acquired is still there. -/
structure Below.Grows (before after : Below) : Prop where
  eina : before.eina ≤ after.eina
  logDomains : before.logDomains ⊆ after.logDomains
  connections : after.connections = before.connections

/-- Any other `e_dbus_init` counts, and the `e_dbus_shutdown` after it takes everything back. -/
theorem dbusInit_succeeds {below : Below} (wf : below.WellFormed) {steps : DbusSteps}
    (fine : ¬ below.dbusFails steps) :
    (dbusInit below steps).2 = below.dbusInitCount + 1 ∧
      (dbusInit below steps).1.dbusInitCount = below.dbusInitCount + 1 ∧
      below.Grows (dbusInit below steps).1 ∧ (dbusShutdown (dbusInit below steps).1).1 = below := by
  obtain ⟨eina, logDomains, ecore, connections, dbusInitCount, dbusLogDom⟩ := below
  obtain ⟨einaOk, logDom, ecoreOk⟩ := steps
  have counts : 0 ≤ dbusInitCount := wf.counts
  by_cases zero : dbusInitCount = 0
  · subst zero
    obtain rfl : dbusLogDom = -1 := wf.domain rfl
    have succeeds : einaOk = true ∧ logDom ≠ none ∧ ecoreOk = true := by
      simpa [Below.dbusFails, DbusSteps.fail, and_assoc] using fine
    obtain ⟨rfl, isSome, rfl⟩ := succeeds
    obtain ⟨id, rfl⟩ := Option.ne_none_iff_exists'.mp isSome
    have opened : dbusInit ⟨eina, logDomains, ecore, connections, 0, -1⟩ ⟨true, some id, true⟩ =
        (⟨eina + 1, ("e_dbus", id) :: logDomains, ecore + 1, connections, 1, id⟩, 1) := by
      simp [dbusInit, domainId, logDomainRegister_some, Below.einaInit, Below.ecoreInit, Below.domainAdd,
        (Int.natCast_nonneg id).not_gt]
    rw [opened]
    refine ⟨rfl, rfl, ⟨Int.le_add_one (Int.le_refl eina), List.subset_cons_self _ _, rfl⟩, ?_⟩
    simp [dbusShutdown, Below.einaShutdown, Below.ecoreShutdown, Below.domainDel, logDomainUnregister_cons]
  · have used : dbusInitCount + 1 ≠ 1 := by omega
    have positive : ¬ dbusInitCount + 1 ≤ 0 := by omega
    have opened : dbusInit ⟨eina, logDomains, ecore, connections, dbusInitCount, dbusLogDom⟩
        ⟨einaOk, logDom, ecoreOk⟩ =
        (⟨eina, logDomains, ecore, connections, dbusInitCount + 1, dbusLogDom⟩, dbusInitCount + 1) := by
      simp [dbusInit, used]
    rw [opened]
    refine ⟨rfl, rfl, ⟨Int.le_refl eina, List.Subset.refl _, rfl⟩, ?_⟩
    simp [dbusShutdown, positive, zero]

/-! ## `e_hal` and `e_ukit` -/

/-- The globals of `e_hal` or of `e_ukit`, and what lies below. -/
structure Library where
  initCount : Int
  logDom : Int
  below : Below
deriving DecidableEq, Repr

/-- What the calls of `e_hal_init` return. -/
structure LibrarySteps where
  eina : Bool
  logDom : Option Nat
  dbus : DbusSteps
deriving DecidableEq, Repr

/-- An `init` that uses a log domain of its own. -/
def libraryInit (name : String) (library : Library) (steps : LibrarySteps) : Library × Int :=
  let counted : Library := { library with initCount := library.initCount + 1 }
  if counted.initCount ≠ 1 then (counted, counted.initCount)
  else if steps.eina = false then
    ({ counted with initCount := counted.initCount - 1 }, counted.initCount - 1)
  else
    let registered : Library :=
      { counted with
        logDom := domainId steps.logDom
        below := counted.below.einaInit.domainAdd name steps.logDom }
    -- both labels leave the counter as it is
    let shutdownEina (library : Library) : Library × Int :=
      ({ library with below := library.below.einaShutdown }, library.initCount)
    let unregisterLogDomain (library : Library) : Library × Int :=
      shutdownEina { library with logDom := -1, below := library.below.domainDel library.logDom }
    if registered.logDom < 0 then shutdownEina registered
    else
      let opened := dbusInit registered.below steps.dbus
      if opened.2 = 0 then unregisterLogDomain { registered with below := opened.1 }
      else ({ registered with below := opened.1 }, registered.initCount)

/-- The `shutdown` for it. -/
def libraryShutdown (library : Library) : Library × Int :=
  let counted : Library := { library with initCount := library.initCount - 1 }
  if counted.initCount ≠ 0 then (counted, counted.initCount)
  else
    let closed := (dbusShutdown counted.below).1.domainDel counted.logDom
    ({ counted with logDom := -1, below := closed.einaShutdown }, counted.initCount)

/-- `e_hal_init`. -/
def halInit : Library → LibrarySteps → Library × Int := libraryInit "e_hal"

/-- `e_hal_shutdown`. -/
def halShutdown : Library → Library × Int := libraryShutdown

/-- `e_ukit_init`. -/
def ukitInit : Library → LibrarySteps → Library × Int := libraryInit "e_ukit"

/-- `e_ukit_shutdown`. -/
def ukitShutdown : Library → Library × Int := libraryShutdown

/-- A call of the first `init` fails. -/
def Library.fails (library : Library) (steps : LibrarySteps) : Prop :=
  library.initCount = 0 ∧
    (steps.eina = false ∨ steps.logDom = none ∨ library.below.dbusFails steps.dbus)

/-- The last `shutdown` takes back what the first `init` did. -/
def Library.released (library : Library) : Below :=
  ((dbusShutdown library.below).1.domainDel library.logDom).einaShutdown

/-! ## The notification client -/

/-- The globals of the client, and what lies below. -/
structure Client where
  clientConn : Option Nat
  initCount : Int
  below : Below
deriving DecidableEq, Repr

/-- What the calls of `e_notification_init` return. -/
structure ClientSteps where
  dbus : DbusSteps
  conn : Option Nat
deriving DecidableEq, Repr

/-- `e_dbus_bus_get`. -/
def busGet (below : Below) (conn : Option Nat) : Below :=
  { below with connections := below.connections + conn.isSome.toNat }

/-- `e_dbus_connection_close`. -/
def connectionClose (below : Below) (conn : Option Nat) : Below :=
  { below with connections := below.connections - conn.isSome.toNat }

/-- `e_notification_init`. -/
def clientInit (client : Client) (steps : ClientSteps) : Client × Int :=
  if client.initCount ≠ 0 then ({ client with initCount := client.initCount + 1 }, client.initCount + 1)
  else
    let opened := dbusInit client.below steps.dbus
    if opened.2 = 0 then ({ client with below := opened.1 }, 0)
    else
      let connected : Client := { client with clientConn := steps.conn, below := busGet opened.1 steps.conn }
      if connected.clientConn = none then
        ({ connected with below := (dbusShutdown connected.below).1 }, 0)
      else ({ connected with initCount := connected.initCount + 1 }, connected.initCount + 1)

/-- `e_notification_shutdown`. -/
def clientShutdown (client : Client) : Client × Int :=
  let counted : Client := { client with initCount := client.initCount - 1 }
  if counted.initCount ≠ 0 then (counted, counted.initCount)
  else
    let closed := connectionClose counted.below counted.clientConn
    ({ counted with clientConn := none, below := (dbusShutdown closed).1 }, 0)

/-- A call of the first `init` fails. -/
def Client.fails (client : Client) (steps : ClientSteps) : Prop :=
  client.initCount = 0 ∧ (client.below.dbusFails steps.dbus ∨ steps.conn = none)

/-! ## The notification daemon -/

/-- The globals of the daemon, and what lies below. -/
structure DaemonLibrary where
  initCount : Int
  daemonIface : Option Nat
  below : Below
deriving DecidableEq, Repr

/-- What the calls of `e_notification_daemon_init` return. -/
structure DaemonSteps where
  dbus : DbusSteps
  iface : Option Nat
deriving DecidableEq, Repr

/-- `e_notification_daemon_init`. -/
def daemonInit (daemon : DaemonLibrary) (steps : DaemonSteps) : DaemonLibrary × Int :=
  if daemon.initCount ≠ 0 then ({ daemon with initCount := daemon.initCount + 1 }, daemon.initCount + 1)
  else
    let opened := dbusInit daemon.below steps.dbus
    if opened.2 = 0 then ({ daemon with below := opened.1 }, 0)
    else
      ({ daemon with
          daemonIface := steps.iface
          initCount := daemon.initCount + 1
          below := opened.1 }, daemon.initCount + 1)

/-- `e_notification_daemon_shutdown`. -/
def daemonShutdown (daemon : DaemonLibrary) : DaemonLibrary × Int :=
  let counted : DaemonLibrary := { daemon with initCount := daemon.initCount - 1 }
  if counted.initCount ≠ 0 then (counted, counted.initCount)
  else ({ counted with below := (dbusShutdown counted.below).1 }, 0)

/-- What `e_notification_daemon_add` does to the libraries below if there is no memory or no connection for
the new daemon. -/
def daemonAddFails (daemon : DaemonLibrary) : DaemonLibrary :=
  { daemon with below := (dbusShutdown daemon.below).1 }

/-- A call of the first `init` fails. -/
def DaemonLibrary.fails (daemon : DaemonLibrary) (steps : DaemonSteps) : Prop :=
  daemon.initCount = 0 ∧ daemon.below.dbusFails steps.dbus

end EDBus.Lifecycle
