import EDBus.Lifecycle.LibraryBalance
import EDBus.Lifecycle.SystemBalance

/-!
# Init and shutdown balance

Seven pairs of an `init` and a `shutdown` count their users. `obeys_of_regular` says how far they do so
without losing count or keeping anything, in every run in which what they are initialised on may fail.
-/

namespace EDBus.Lifecycle

open EDBus.Elements EDBus.Semantics

/-- The pairs of an `init` and a `shutdown`. -/
inductive Pair where
  | hal
  | ukit
  | connman
  | bluez
  | ofono
  | client
  | daemon
deriving DecidableEq, Repr

/-- Who counts its users, what is expected of it, and which of its calls are regular. -/
structure Counting where
  State : Type
  Steps : Type
  Event : Type
  View : Type
  library : Semantics.Counted State Steps Event
  contract : Semantics.Contract library View
  regular : State → Semantics.Call Steps Event → Prop

/-- A pair with its functions. -/
def Pair.counting (accepts : CallId → Bool) : Pair → Counting
  | .hal =>
    ⟨Library, LibrarySteps, Empty, Library, { libraryCounted "e_hal" with init := halInit, shutdown := halShutdown },
      libraryContract "e_hal", libraryRegular⟩
  | .ukit =>
    ⟨Library, LibrarySteps, Empty, Library,
      { libraryCounted "e_ukit" with init := ukitInit, shutdown := ukitShutdown },
      libraryContract "e_ukit", libraryRegular⟩
  | .connman =>
    ⟨Module, SystemSteps, Message, SystemView,
      { systemLibrary accepts .connman with init := connmanSystemInit, shutdown := connmanSystemShutdown },
      systemContract accepts .connman, systemRegular⟩
  | .bluez =>
    ⟨Module, SystemSteps, Message, SystemView,
      { systemLibrary accepts .bluez with init := bluezSystemInit, shutdown := bluezSystemShutdown },
      systemContract accepts .bluez, systemRegular⟩
  | .ofono =>
    ⟨Module, SystemSteps, Message, SystemView,
      { systemLibrary accepts .ofono with init := ofonoSystemInit, shutdown := ofonoSystemShutdown },
      systemContract accepts .ofono, systemRegular⟩
  | .client => ⟨Client, ClientSteps, Empty, Client, clientCounted, clientContract, clientRegular⟩
  | .daemon =>
    ⟨DaemonLibrary, DaemonSteps, Unit, Int × Below, daemonCounted, daemonContract, daemonRegular⟩

/-- What is there before the first call: the libraries below may have other users. -/
def Pair.Origin : Pair → Type
  | .connman | .bluez | .ofono => Others
  | .hal | .ukit | .client | .daemon => { below : Below // below.WellFormed }

/-- The state before the first call. -/
def Pair.start (accepts : CallId → Bool) : (pair : Pair) → pair.Origin → (pair.counting accepts).State
  | .hal, below => (⟨0, -1, below.1⟩ : Library)
  | .ukit, below => (⟨0, -1, below.1⟩ : Library)
  | .connman, others => Module.start .connman others
  | .bluez, others => Module.start .bluez others
  | .ofono, others => Module.start .ofono others
  | .client, below => (⟨none, 0, below.1⟩ : Client)
  | .daemon, below => (⟨0, none, below.1⟩ : DaemonLibrary)

/-- In every run of regular calls, a pair loses no count, keeps nothing, and is initialised in full whenever
it was shut down. -/
theorem obeys_of_regular (accepts : CallId → Bool) (pair : Pair) (origin : pair.Origin)
    (calls : List (Semantics.Call (pair.counting accepts).Steps (pair.counting accepts).Event))
    (regular : (pair.counting accepts).contract.machine.Along
      (fun run call _ => (pair.counting accepts).regular run.state call) (.start (pair.start accepts origin))
      calls) :
    (pair.counting accepts).contract.Obeys (pair.start accepts origin) calls := by
  cases pair with
  | hal => exact (libraryLaw "e_hal" origin.2).obeys regular
  | ukit => exact (libraryLaw "e_ukit" origin.2).obeys regular
  | connman => exact (systemLaw accepts .connman origin).obeys regular
  | bluez => exact (systemLaw accepts .bluez origin).obeys regular
  | ofono => exact (systemLaw accepts .ofono origin).obeys regular
  | client => exact (clientLaw origin.2).obeys regular
  | daemon => exact (daemonLaw origin.2).obeys regular

/-- No other runs go so well. What a daemon loses that cannot be added shows only when it is shut down. -/
theorem obeys_iff_regular (accepts : CallId → Bool) (pair : Pair) (shows : pair ≠ .daemon)
    (origin : pair.Origin)
    (calls : List (Semantics.Call (pair.counting accepts).Steps (pair.counting accepts).Event)) :
    (pair.counting accepts).contract.Obeys (pair.start accepts origin) calls ↔
      (pair.counting accepts).contract.machine.Along
        (fun run call _ => (pair.counting accepts).regular run.state call) (.start (pair.start accepts origin))
        calls := by
  cases pair with
  | hal => exact library_obeys_iff "e_hal" origin.2 calls
  | ukit => exact library_obeys_iff "e_ukit" origin.2 calls
  | connman => exact system_obeys_iff accepts .connman origin calls
  | bluez => exact system_obeys_iff accepts .bluez origin calls
  | ofono => exact system_obeys_iff accepts .ofono origin calls
  | client => exact client_obeys_iff origin.2 calls
  | daemon => exact absurd rfl shows

/-- No one uses the libraries below. -/
def unusedBelow : { below : Below // below.WellFormed } :=
  ⟨⟨0, [], 0, 0, 0, -1⟩, ⟨Int.le_refl 0, fun _ => rfl⟩⟩

/-- All calls of `e_dbus_init` succeed. -/
def dbusFine : DbusSteps := ⟨true, some 1, true⟩

/-- `eina_init` fails once, and there are two users afterwards. -/
theorem obeys_of_regular_hal :
    (libraryContract "e_hal").Obeys ⟨0, -1, unusedBelow.1⟩
      [.init ⟨false, some 0, dbusFine⟩, .init ⟨true, some 0, dbusFine⟩, .init ⟨true, none, dbusFine⟩, .shutdown,
        .shutdown] := by
  refine obeys_of_regular (fun _ => true) .hal unusedBelow _ ?_
  refine (Semantics.Machine.along_cons rfl).mpr ⟨fun _ failing => absurd failing Bool.false_ne_true, ?_⟩
  refine (Semantics.Machine.along_cons rfl).mpr ⟨fun _ _ => ⟨Option.some_ne_none 0, fun fails => ?_⟩, ?_⟩
  · exact absurd fails.2 Bool.false_ne_true
  refine (Semantics.Machine.along_cons rfl).mpr ⟨fun unused => absurd unused (by decide), ?_⟩
  refine (Semantics.Machine.along_cons rfl).mpr ⟨(by decide : (0 : Int) < 2), ?_⟩
  exact (Semantics.Machine.along_cons rfl).mpr ⟨(by decide : (0 : Int) < 1), trivial⟩

/-- What would be expected of a system without its exceptions: every global is as it was, and every shutdown
is counted. -/
def strictContract (accepts : CallId → Bool) (family : Family) :
    Semantics.Contract (systemLibrary accepts family)
      (Nat × Int × List Nat × List (Option String) × Holdings String × Rest) where
  reports := (systemContract accepts family).reports
  fails := (systemContract accepts family).fails
  Full := FullSystem family
  view module :=
    (module.initCount, module.logDom, module.eventTypes, module.strings, module.services.shares, module.rest)
  counts _ := true

/-- The daemon with its interface, which was made for it. -/
def strictDaemonContract : Semantics.Contract daemonCounted DaemonLibrary where
  reports := daemonContract.reports
  fails := DaemonLibrary.fails
  Full := daemonContract.Full
  view := id
  counts _ := true

/-- By design, connman keeps the types of its events and refuses a shutdown before its `init`. The others
lose count or keep something: `e_hal` if it gets no log domain or no `e_dbus`, here for want of `ecore`, connman if it gets no log
domain, `e_hal`, the client and the daemon at a shutdown too many, ofono and the daemon at any shutdown, and
the daemon if one cannot be added. -/
theorem obeys_fails :
    (¬ (strictContract (fun _ => true) .connman).Obeys (Module.start .connman ⟨[], 0, fun _ => 0⟩)
      [.init ⟨some 0, some 0, true, true⟩, .shutdown]) ∧
    (¬ (strictContract (fun _ => true) .connman).Obeys (Module.start .connman ⟨[], 0, fun _ => 0⟩)
      [.shutdown, .init ⟨some 0, some 0, true, true⟩]) ∧
    (¬ (strictContract (fun _ => true) .connman).Obeys (Module.start .connman ⟨[], 0, fun _ => 0⟩)
      [.init ⟨none, some 0, true, true⟩]) ∧
    (¬ (strictContract (fun _ => true) .ofono).Obeys (Module.start .ofono ⟨[], 0, fun _ => 0⟩)
      [.init ⟨some 0, some 0, true, true⟩, .shutdown]) ∧
    (¬ (libraryContract "e_hal").Obeys ⟨0, -1, unusedBelow.1⟩ [.init ⟨true, none, dbusFine⟩]) ∧
    (¬ (libraryContract "e_hal").Obeys ⟨0, -1, unusedBelow.1⟩ [.init ⟨true, some 0, ⟨true, some 1, false⟩⟩]) ∧
    (¬ (libraryContract "e_hal").Obeys ⟨0, -1, unusedBelow.1⟩ [.shutdown]) ∧
    (¬ clientContract.Obeys ⟨none, 0, unusedBelow.1⟩ [.shutdown]) ∧
    (¬ strictDaemonContract.Obeys ⟨0, none, unusedBelow.1⟩ [.shutdown]) ∧
    (¬ strictDaemonContract.Obeys ⟨0, none, unusedBelow.1⟩ [.init ⟨dbusFine, some 0⟩, .shutdown]) ∧
    ¬ daemonContract.Obeys ⟨0, none, ⟨1, [("e_dbus", 1)], 1, 0, 1, 1⟩⟩
      [.init ⟨dbusFine, some 0⟩, .event (), .shutdown] := by
  refine ⟨?_, ?_, ?_, ?_, ?_, ?_, ?_, ?_, ?_, ?_, ?_⟩
  · intro obeys
    have balanced := obeys.balanced.finish rfl
    have types : [1, 2, 3, 4, 5] = List.replicate 5 0 :=
      congrArg (fun view => view.2.2.1) (balanced.2 rfl)
    exact absurd types (by decide)
  · intro obeys
    have balanced := obeys.balanced.finish rfl
    have count : 1 = 0 := congrArg Prod.fst (balanced.2 rfl)
    exact absurd count (by decide)
  · intro obeys
    obtain ⟨answers, -⟩ := obeys.answers _ rfl
    have count : (1 : Int) = 0 := (answers.1 ⟨rfl, rfl⟩).2.1
    exact absurd count (by decide)
  · intro obeys
    have balanced := obeys.balanced.finish rfl
    have table : true = false := congrArg (fun view => view.2.2.2.2.2.table) (balanced.2 rfl)
    cases table
  · intro obeys
    obtain ⟨answers, -⟩ := obeys.answers _ rfl
    have reported := (answers.1 ⟨rfl, .inr (.inl rfl)⟩).1
    cases reported
  · intro obeys
    obtain ⟨answers, -⟩ := obeys.answers _ rfl
    have reported := (answers.1 ⟨rfl, .inr (.inr ⟨rfl, rfl⟩)⟩).1
    cases reported
  · intro obeys
    have nonneg : (0 : Int) ≤ -1 := (obeys.balanced.finish rfl).1
    exact absurd nonneg (by decide)
  · intro obeys
    have nonneg : (0 : Int) ≤ -1 := (obeys.balanced.finish rfl).1
    exact absurd nonneg (by decide)
  · intro obeys
    have nonneg : (0 : Int) ≤ -1 := (obeys.balanced.finish rfl).1
    exact absurd nonneg (by decide)
  · intro obeys
    have balanced := obeys.balanced.finish rfl
    have iface : some 0 = none := congrArg DaemonLibrary.daemonIface (balanced.2 rfl)
    cases iface
  · intro obeys
    have balanced := obeys.balanced.finish rfl
    have count : (0 : Int) = 1 := congrArg (fun view => view.2.dbusInitCount) (balanced.2 rfl)
    exact absurd count (by decide)

end EDBus.Lifecycle
