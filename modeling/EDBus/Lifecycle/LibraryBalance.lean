import EDBus.Lifecycle.Libraries

/-!
# What the libraries give back

The laws of `e_hal` and `e_ukit`, of the notification client and of the notification daemon: what the last
`shutdown` takes back is what the first `init` acquired.
-/

namespace EDBus.Lifecycle

/-! ## `e_hal` and `e_ukit` -/

section Library

variable {name : String} {library : Library} {steps : LibrarySteps}

/-- `e_hal` or `e_ukit`. Nothing else happens to it. -/
def libraryCounted (name : String) : Semantics.Counted Library LibrarySteps Empty where
  init := libraryInit name
  shutdown := libraryShutdown
  event _ event := event.elim
  count := Library.initCount

/-- What is expected: everything is as it was. -/
def libraryContract (name : String) : Semantics.Contract (libraryCounted name) Library where
  reports result := 0 < result
  fails := Library.fails
  Full before steps after :=
    after.logDom = domainId steps.logDom ∧ (name, after.logDom) ∈ after.below.logDomains ∧
      before.below.eina < after.below.eina ∧ after.below.dbusInitCount = before.below.dbusInitCount + 1
  view := id
  counts _ := true

/-- Only `eina_init` fails, and there is a user to shut down for. -/
def libraryRegular (library : Library) : Semantics.Call LibrarySteps Empty → Prop
  | .init steps => library.initCount = 0 → steps.eina = true →
      steps.logDom ≠ none ∧ ¬ library.below.dbusFails steps.dbus
  | .shutdown => 0 < library.initCount
  | .event event => event.elim

theorem libraryInit_again (used : 0 < library.initCount) :
    libraryInit name library steps =
      ({ library with initCount := library.initCount + 1 }, library.initCount + 1) := by
  have more : library.initCount + 1 ≠ 1 := by omega
  simp [libraryInit, more]

theorem libraryInit_failed (unused : library.initCount = 0) (fails : steps.eina = false) :
    libraryInit name library steps = (library, 0) := by
  obtain ⟨initCount, logDom, below⟩ := library
  obtain rfl : initCount = 0 := unused
  simp [libraryInit, fails]

/-- The first user. -/
theorem libraryInit_first (name : String) {below : Below} (wf : below.WellFormed) (eina : steps.eina = true)
    {id : Nat} (logDom : steps.logDom = some id) (fine : ¬ below.dbusFails steps.dbus) :
    ∃ opened : Below, libraryInit name ⟨0, -1, below⟩ steps = (⟨1, id, opened⟩, 1) ∧
      (name, (id : Int)) ∈ opened.logDomains ∧ below.eina < opened.eina ∧
      opened.dbusInitCount = below.dbusInitCount + 1 ∧ (⟨1, id, opened⟩ : Library).released = below := by
  obtain ⟨registered, isRegistered⟩ : ∃ registered, registered = below.einaInit.domainAdd name (some id) :=
    ⟨_, rfl⟩
  have registeredWf : registered.WellFormed := isRegistered ▸ ⟨wf.counts, wf.domain⟩
  have dbusFine : ¬ registered.dbusFails steps.dbus := isRegistered ▸ fine
  obtain ⟨result, counted, grows, closed⟩ := dbusInit_succeeds registeredWf dbusFine
  have opens : (dbusInit registered steps.dbus).2 ≠ 0 := by
    have counts := registeredWf.counts
    omega
  have domains : registered.logDomains = (name, (id : Int)) :: below.logDomains := by
    rw [isRegistered]
    exact logDomainRegister_some below.logDomains name id
  have more : registered.eina = below.eina + 1 := isRegistered ▸ rfl
  refine ⟨(dbusInit registered steps.dbus).1, ?_, ?_, ?_, ?_, ?_⟩
  · subst isRegistered
    simp [libraryInit, eina, logDom, domainId, (Int.natCast_nonneg id).not_gt, opens]
  · exact grows.logDomains (domains ▸ List.mem_cons_self)
  · exact Int.lt_of_lt_of_le (more ▸ Int.lt_add_one_of_le (Int.le_refl _)) grows.eina
  · rw [counted, isRegistered]
    rfl
  · rw [Library.released, closed, Below.domainDel, domains, logDomainUnregister_cons, isRegistered]
    simp [Below.einaShutdown, Below.domainAdd, Below.einaInit]

theorem libraryShutdown_fewer (used : 1 < library.initCount) :
    libraryShutdown library = ({ library with initCount := library.initCount - 1 }, library.initCount - 1) := by
  have left : library.initCount - 1 ≠ 0 := by omega
  simp [libraryShutdown, left]

theorem libraryShutdown_last (single : library.initCount = 1) :
    libraryShutdown library = ({ initCount := 0, logDom := -1, below := library.released }, 0) := by
  simp [libraryShutdown, single, Library.released]

/-- The calls of `e_hal` and `e_ukit`, one by one. -/
def libraryLaw (name : String) {below : Below} (wf : below.WellFormed) :
    (libraryContract name).Law ⟨0, -1, below⟩ libraryRegular where
  Held library := library.released = below
  origin := rfl
  counted _ _ := rfl
  failed library steps failing unused same isRegular := by
    have eina : steps.eina = false := by
      by_contra ok
      obtain ⟨logDom, dbus⟩ := isRegular unused (Bool.eq_true_of_not_eq_false ok)
      rcases failing.2 with none | none | none
      · exact ok none
      · exact logDom none
      · exact dbus none
    have nothing : (libraryCounted name).init library steps = (library, 0) := libraryInit_failed unused eina
    rw [nothing]
    exact ⟨rfl, unused, rfl⟩
  first library steps fine unused same isRegular := by
    obtain rfl : library = ⟨0, -1, below⟩ := same
    have eina : steps.eina = true := by
      by_contra failing
      exact fine ⟨unused, .inl (Bool.eq_false_of_not_eq_true failing)⟩
    obtain ⟨isSome, dbus⟩ := isRegular unused eina
    obtain ⟨id, logDom⟩ := Option.ne_none_iff_exists'.mp isSome
    obtain ⟨opened, one, domain, more, counted, released⟩ := libraryInit_first name wf eina logDom dbus
    have one : (libraryCounted name).init ⟨0, -1, below⟩ steps = (⟨1, id, opened⟩, 1) := one
    rw [one]
    refine ⟨rfl, rfl, ⟨?_, domain, more, counted⟩, released⟩
    rw [logDom]
    rfl
  again library steps used held _ := by
    have more : (libraryCounted name).init library steps =
        ({ library with initCount := library.initCount + 1 }, library.initCount + 1) := libraryInit_again used
    rw [more]
    refine ⟨fun failing => absurd failing.1 used.ne', ?_, rfl, held⟩
    exact decide_eq_true (Int.lt_add_one_of_le used.le)
  fewer library used held := by
    have less : (libraryCounted name).shutdown library =
        ({ library with initCount := library.initCount - 1 }, library.initCount - 1) :=
      libraryShutdown_fewer used
    rw [less]
    exact ⟨rfl, held⟩
  last library single held := by
    have closed : (libraryCounted name).shutdown library =
        ({ initCount := 0, logDom := -1, below := library.released }, 0) := libraryShutdown_last single
    rw [closed, held]
    exact ⟨rfl, rfl⟩
  refused library unused _ isRegular := absurd unused isRegular.ne'
  idle _ event := event.elim
  busy _ event := event.elim

/-- Without a log domain or without `e_dbus`, the first `init` returns as if it had succeeded. -/
theorem libraryInit_slips {below : Below} (wf : below.WellFormed) (eina : steps.eina = true)
    (fails : steps.logDom = none ∨ below.dbusFails steps.dbus) :
    (libraryInit name ⟨0, -1, below⟩ steps).2 = 1 := by
  cases logDom : steps.logDom with
  | none => simp [libraryInit, eina, logDom, domainId]
  | some id =>
      have dbus : (below.einaInit.domainAdd name (some id)).dbusFails steps.dbus := by
        refine fails.resolve_left ?_
        rw [logDom]
        exact Option.some_ne_none id
      have registeredWf : (below.einaInit.domainAdd name (some id)).WellFormed := ⟨wf.counts, wf.domain⟩
      simp [libraryInit, eina, logDom, domainId, (Int.natCast_nonneg id).not_gt, dbusInit_fails registeredWf dbus]

/-- Nothing but regular calls goes well. -/
theorem library_obeys_iff (name : String) {below : Below} (wf : below.WellFormed)
    (calls : List (Semantics.Call LibrarySteps Empty)) :
    (libraryContract name).Obeys ⟨0, -1, below⟩ calls ↔
      (libraryContract name).machine.Along (fun run call _ => libraryRegular run.state call)
        (.start ⟨0, -1, below⟩) calls := by
  refine (libraryLaw name wf).obeys_iff ?_ calls
  intro run call next accounted stepped answers balanced
  cases call with
  | init steps =>
      intro unused eina
      have isStart : run.state = ⟨0, -1, below⟩ := by
        cases accounted with
        | idle _ _ view => exact view
        | busy positive => exact absurd unused positive.ne'
      by_contra slips
      rw [not_and_or, not_not, not_not, isStart] at slips
      have reported := (answers.1 ⟨unused, isStart ▸ .inr slips⟩).1
      have one : ((libraryCounted name).init run.state steps).2 = 1 := by
        rw [isStart]
        exact libraryInit_slips wf eina slips
      rw [one] at reported
      cases reported
  | shutdown =>
      obtain rfl := Option.some.inj stepped
      have nonneg : 0 ≤ (libraryShutdown run.state).1.initCount := balanced.1
      change 0 < run.state.initCount
      simp only [libraryShutdown] at nonneg
      split at nonneg <;> simp at nonneg <;> omega
  | event event => exact event.elim

end Library

/-! ## The notification client -/

section Client

variable {client : Client} {steps : ClientSteps}

/-- The client. Nothing else happens to it. -/
def clientCounted : Semantics.Counted Client ClientSteps Empty where
  init := clientInit
  shutdown := clientShutdown
  event _ event := event.elim
  count := Client.initCount

/-- What is expected: everything is as it was. -/
def clientContract : Semantics.Contract clientCounted Client where
  reports result := 0 < result
  fails := Client.fails
  Full before steps after :=
    after.clientConn = steps.conn ∧ after.below.connections = before.below.connections + 1 ∧
      after.below.dbusInitCount = before.below.dbusInitCount + 1
  view := id
  counts _ := true

/-- There is a user to shut down for. -/
def clientRegular (client : Client) : Semantics.Call ClientSteps Empty → Prop
  | .init _ => True
  | .shutdown => 0 < client.initCount
  | .event event => event.elim

/-- The last `shutdown` takes back what the first `init` did. -/
def Client.released (client : Client) : Below :=
  (dbusShutdown (connectionClose client.below client.clientConn)).1

theorem clientInit_again (used : 0 < client.initCount) :
    clientInit client steps = ({ client with initCount := client.initCount + 1 }, client.initCount + 1) := by
  simp [clientInit, used.ne']

/-- What was acquired before the call that fails goes again. -/
theorem clientInit_failed {below : Below} (wf : below.WellFormed)
    (fails : below.dbusFails steps.dbus ∨ steps.conn = none) :
    clientInit ⟨none, 0, below⟩ steps = (⟨none, 0, below⟩, 0) := by
  by_cases dbus : below.dbusFails steps.dbus
  · simp [clientInit, dbusInit_fails wf dbus]
  · have conn := fails.resolve_left dbus
    obtain ⟨result, -, -, closed⟩ := dbusInit_succeeds wf dbus
    have counts := wf.counts
    have opened : (dbusInit below steps.dbus).2 ≠ 0 := by omega
    simp [clientInit, opened, conn, busGet, closed]

/-- The first user. -/
theorem clientInit_first {below : Below} (wf : below.WellFormed) (fine : ¬ below.dbusFails steps.dbus)
    {conn : Nat} (connected : steps.conn = some conn) :
    ∃ opened : Below, clientInit ⟨none, 0, below⟩ steps = (⟨some conn, 1, opened⟩, 1) ∧
      opened.connections = below.connections + 1 ∧ opened.dbusInitCount = below.dbusInitCount + 1 ∧
      (⟨some conn, 1, opened⟩ : Client).released = below := by
  obtain ⟨result, counted, grows, closed⟩ := dbusInit_succeeds wf fine
  have counts := wf.counts
  have opens : (dbusInit below steps.dbus).2 ≠ 0 := by omega
  refine ⟨busGet (dbusInit below steps.dbus).1 (some conn), ?_, ?_, counted, ?_⟩
  · simp [clientInit, opens, connected]
  · exact congrArg (· + 1) grows.connections
  · have back : connectionClose (busGet (dbusInit below steps.dbus).1 (some conn)) (some conn) =
        (dbusInit below steps.dbus).1 := by
      simp [connectionClose, busGet]
    rw [Client.released, back, closed]

theorem clientShutdown_fewer (used : 1 < client.initCount) :
    clientShutdown client = ({ client with initCount := client.initCount - 1 }, client.initCount - 1) := by
  have left : client.initCount - 1 ≠ 0 := by omega
  simp [clientShutdown, left]

theorem clientShutdown_last (single : client.initCount = 1) :
    clientShutdown client = (⟨none, 0, client.released⟩, 0) := by
  simp [clientShutdown, single, Client.released]

/-- The calls of the client, one by one. -/
def clientLaw {below : Below} (wf : below.WellFormed) :
    clientContract.Law ⟨none, 0, below⟩ clientRegular where
  Held client := client.released = below
  origin := rfl
  counted _ _ := rfl
  failed client steps failing unused same _ := by
    obtain rfl : client = ⟨none, 0, below⟩ := same
    have nothing : clientCounted.init ⟨none, 0, below⟩ steps = (⟨none, 0, below⟩, 0) :=
      clientInit_failed wf failing.2
    rw [nothing]
    exact ⟨rfl, rfl, rfl⟩
  first client steps fine unused same _ := by
    obtain rfl : client = ⟨none, 0, below⟩ := same
    have succeeds : ¬ below.dbusFails steps.dbus ∧ steps.conn ≠ none := by
      constructor
      · exact fun dbus => fine ⟨rfl, .inl dbus⟩
      · exact fun conn => fine ⟨rfl, .inr conn⟩
    obtain ⟨conn, connected⟩ := Option.ne_none_iff_exists'.mp succeeds.2
    obtain ⟨opened, one, connections, counted, released⟩ := clientInit_first wf succeeds.1 connected
    have one : clientCounted.init ⟨none, 0, below⟩ steps = (⟨some conn, 1, opened⟩, 1) := one
    rw [one]
    exact ⟨rfl, rfl, ⟨connected.symm, connections, counted⟩, released⟩
  again client steps used held _ := by
    have more : clientCounted.init client steps =
        ({ client with initCount := client.initCount + 1 }, client.initCount + 1) := clientInit_again used
    rw [more]
    refine ⟨fun failing => absurd failing.1 used.ne', ?_, rfl, held⟩
    exact decide_eq_true (Int.lt_add_one_of_le used.le)
  fewer client used held := by
    have less : clientCounted.shutdown client =
        ({ client with initCount := client.initCount - 1 }, client.initCount - 1) := clientShutdown_fewer used
    rw [less]
    exact ⟨rfl, held⟩
  last client single held := by
    have closed : clientCounted.shutdown client = (⟨none, 0, client.released⟩, 0) :=
      clientShutdown_last single
    rw [closed, held]
    exact ⟨rfl, rfl⟩
  refused client unused _ isRegular := absurd unused isRegular.ne'
  idle _ event := event.elim
  busy _ event := event.elim

/-- Nothing but regular calls goes well. -/
theorem client_obeys_iff {below : Below} (wf : below.WellFormed)
    (calls : List (Semantics.Call ClientSteps Empty)) :
    clientContract.Obeys ⟨none, 0, below⟩ calls ↔
      clientContract.machine.Along (fun run call _ => clientRegular run.state call)
        (.start ⟨none, 0, below⟩) calls := by
  refine (clientLaw wf).obeys_iff ?_ calls
  intro run call next accounted stepped answers balanced
  cases call with
  | init steps => trivial
  | shutdown =>
      obtain rfl := Option.some.inj stepped
      have nonneg : 0 ≤ (clientShutdown run.state).1.initCount := balanced.1
      change 0 < run.state.initCount
      simp only [clientShutdown] at nonneg
      split at nonneg <;> simp at nonneg <;> omega
  | event event => exact event.elim

end Client

/-! ## The notification daemon -/

section Daemon

variable {daemon : DaemonLibrary} {steps : DaemonSteps}

/-- The daemon. A daemon may not be added for lack of memory or of a connection. -/
def daemonCounted : Semantics.Counted DaemonLibrary DaemonSteps Unit where
  init := daemonInit
  shutdown := daemonShutdown
  event daemon _ := some (daemonAddFails daemon)
  count := DaemonLibrary.initCount

/-- What is expected. Of the globals only the counter is as it was. -/
def daemonContract : Semantics.Contract daemonCounted (Int × Below) where
  reports result := 0 < result
  fails := DaemonLibrary.fails
  Full before steps after :=
    after.daemonIface = steps.iface ∧ after.below.dbusInitCount = before.below.dbusInitCount + 1
  view daemon := (daemon.initCount, daemon.below)
  counts _ := true

/-- There is a user to shut down for, and daemons are added. -/
def daemonRegular (daemon : DaemonLibrary) : Semantics.Call DaemonSteps Unit → Prop
  | .init _ => True
  | .shutdown => 0 < daemon.initCount
  | .event _ => False

theorem daemonInit_again (used : 0 < daemon.initCount) :
    daemonInit daemon steps = ({ daemon with initCount := daemon.initCount + 1 }, daemon.initCount + 1) := by
  simp [daemonInit, used.ne']

theorem daemonInit_failed (wf : daemon.below.WellFormed) (fails : daemon.fails steps) :
    daemonInit daemon steps = (daemon, 0) := by
  obtain ⟨initCount, daemonIface, below⟩ := daemon
  obtain rfl : initCount = 0 := fails.1
  simp [daemonInit, dbusInit_fails wf fails.2]

/-- The first user. -/
theorem daemonInit_first (wf : daemon.below.WellFormed) (unused : daemon.initCount = 0)
    (fine : ¬ daemon.below.dbusFails steps.dbus) :
    daemonInit daemon steps = (⟨1, steps.iface, (dbusInit daemon.below steps.dbus).1⟩, 1) := by
  obtain ⟨result, -⟩ := dbusInit_succeeds wf fine
  have counts := wf.counts
  have opens : (dbusInit daemon.below steps.dbus).2 ≠ 0 := by omega
  simp [daemonInit, unused, opens]

theorem daemonShutdown_fewer (used : 1 < daemon.initCount) :
    daemonShutdown daemon = ({ daemon with initCount := daemon.initCount - 1 }, daemon.initCount - 1) := by
  have left : daemon.initCount - 1 ≠ 0 := by omega
  simp [daemonShutdown, left]

theorem daemonShutdown_last (single : daemon.initCount = 1) :
    daemonShutdown daemon = (⟨0, daemon.daemonIface, (dbusShutdown daemon.below).1⟩, 0) := by
  simp [daemonShutdown, single]

/-- The calls of the daemon, one by one. -/
def daemonLaw {below : Below} (wf : below.WellFormed) :
    daemonContract.Law ⟨0, none, below⟩ daemonRegular where
  Held daemon := (dbusShutdown daemon.below).1 = below
  origin := rfl
  counted _ _ := rfl
  failed daemon steps failing unused same _ := by
    have isBelow : daemon.below = below := congrArg Prod.snd same
    have nothing : daemonCounted.init daemon steps = (daemon, 0) := daemonInit_failed (isBelow ▸ wf) failing
    rw [nothing]
    exact ⟨rfl, unused, rfl⟩
  first daemon steps fine unused same _ := by
    have isBelow : daemon.below = below := congrArg Prod.snd same
    have wfBelow : daemon.below.WellFormed := isBelow ▸ wf
    have dbus : ¬ daemon.below.dbusFails steps.dbus := fun fails => fine ⟨unused, fails⟩
    obtain ⟨-, counted, -, closed⟩ := dbusInit_succeeds wfBelow dbus
    have one : daemonCounted.init daemon steps =
        (⟨1, steps.iface, (dbusInit daemon.below steps.dbus).1⟩, 1) := daemonInit_first wfBelow unused dbus
    rw [one]
    exact ⟨rfl, rfl, ⟨rfl, counted⟩, closed.trans isBelow⟩
  again daemon steps used held _ := by
    have more : daemonCounted.init daemon steps =
        ({ daemon with initCount := daemon.initCount + 1 }, daemon.initCount + 1) := daemonInit_again used
    rw [more]
    refine ⟨fun failing => absurd failing.1 used.ne', ?_, rfl, held⟩
    exact decide_eq_true (Int.lt_add_one_of_le used.le)
  fewer daemon used held := by
    have less : daemonCounted.shutdown daemon =
        ({ daemon with initCount := daemon.initCount - 1 }, daemon.initCount - 1) := daemonShutdown_fewer used
    rw [less]
    exact ⟨rfl, held⟩
  last daemon single held := by
    have closed : daemonCounted.shutdown daemon =
        (⟨0, daemon.daemonIface, (dbusShutdown daemon.below).1⟩, 0) := daemonShutdown_last single
    rw [closed]
    exact ⟨rfl, congrArg (Prod.mk 0) held⟩
  refused daemon unused _ isRegular := absurd unused isRegular.ne'
  idle _ _ _ _ _ isRegular := isRegular.elim
  busy _ _ _ _ _ isRegular := isRegular.elim

end Daemon

end EDBus.Lifecycle
