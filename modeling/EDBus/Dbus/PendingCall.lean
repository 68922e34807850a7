import EDBus.Semantics.Execution

/-!
# Calls that wait for a reply

`e_dbus_message_send` shares four things with its caller and with libdbus: the message, the pending
call, a block of data for the notification and the callback. What the code does to them is a list of
effects, and a `Call` keeps the account. libdbus frees the data when the pending call is
finalised, and does not run the notification of a call that was cancelled.
-/

open Semantics

namespace EDBus.Dbus

/-- A `DBusError` that is set. -/
structure DBusError where
  name : String
  message : String
deriving DecidableEq, Repr

/-- The message that answers a call, which `dbus_set_error_from_message` looks at. -/
inductive Reply (Body : Type) where
  | methodReturn (body : Body)
  | error (err : DBusError)

/-- What is done to the objects of one call. -/
inductive Effect (Body : Type) where
  /-- `dbus_connection_send_with_reply` returns a pending call. -/
  | pendingNew
  /-- `dbus_message_unref` on the message that is sent. -/
  | messageUnref
  | dataNew
  | dataFree
  /-- `dbus_pending_call_set_notify` succeeds. -/
  | setNotify
  | pendingUnref
  | pendingCancel
  /-- The callback of the caller runs. -/
  | cbReturn (msg : Option Body) (err : Option DBusError)

/-- A pending call. -/
structure Pending where
  /-- The connection waits for the reply, and holds a reference of its own. -/
  awaited : Bool
  /-- How often the library dropped the reference it was given. -/
  unrefs : Nat
  /-- `cb_pending` is to be run, and the data to be freed. -/
  notify : Bool
  completed : Bool
deriving DecidableEq, Repr

/-- The account of one call of `e_dbus_message_send`. -/
structure Call (Body : Type) where
  /-- A callback was given. -/
  hasCallback : Bool
  /-- The references on the message, less those before the call. -/
  messageRefs : Int
  pending : Option Pending
  dataNew : Nat
  dataFreed : Nat
  /-- What the callback was run with. -/
  callbacks : List (Option Body × Option DBusError)

variable {Body : Type}

namespace Call

/-- The call before anything was done. -/
def start (hasCallback : Bool) : Call Body where
  hasCallback := hasCallback
  messageRefs := 0
  pending := none
  dataNew := 0
  dataFreed := 0
  callbacks := []

/-- The last reference on a pending call is gone, and the data it was given is freed. -/
def finalize (call : Call Body) (pending : Pending) : Call Body :=
  { call with
    pending := some pending
    dataFreed := if pending.notify then call.dataFreed + 1 else call.dataFreed }

/-- The library drops a reference on the pending call. -/
def unref (call : Call Body) : Call Body :=
  match call.pending with
  | none => call
  | some pending =>
    let less := { pending with unrefs := pending.unrefs + 1 }
    if !pending.awaited && pending.unrefs == 0 then call.finalize less else { call with pending := some less }

/-- The connection drops its reference: the call was completed or cancelled. -/
def release (call : Call Body) : Call Body :=
  match call.pending with
  | none => call
  | some pending =>
    let less := { pending with awaited := false }
    if pending.awaited && pending.unrefs == 1 then call.finalize less else { call with pending := some less }

/-- The account after an effect. -/
def apply (call : Call Body) : Effect Body → Call Body
  | .pendingNew => { call with pending := some ⟨true, 0, false, false⟩ }
  | .messageUnref => { call with messageRefs := call.messageRefs - 1 }
  | .dataNew => { call with dataNew := call.dataNew + 1 }
  | .dataFree => { call with dataFreed := call.dataFreed + 1 }
  | .setNotify => { call with pending := call.pending.map fun pending => { pending with notify := true } }
  | .pendingUnref => call.unref
  | .pendingCancel => call.release
  | .cbReturn msg err => { call with callbacks := call.callbacks ++ [(msg, err)] }

/-- The connection waits for the reply. -/
def awaited (call : Call Body) : Bool := call.pending.any Pending.awaited

/-- The reply came, or was given up, and nobody cancelled the call before. -/
def completed (call : Call Body) : Bool := call.pending.any Pending.completed

end Call

/-! ## The code -/

/-- What `dbus_connection_send_with_reply` and `dbus_pending_call_set_notify` answer. -/
inductive SendOutcome where
  | failed
  | disconnected
  | pending (notifySet : Bool)
deriving DecidableEq, Repr

/-- `e_dbus_message_send`: whether it returns a pending call, and what it does. -/
def messageSend (hasCallback : Bool) : SendOutcome → Bool × List (Effect Body)
  | .failed => (false, [])
  | .disconnected => (false, [])
  | .pending notifySet =>
    if hasCallback then
      if notifySet then (true, [.pendingNew, .dataNew, .setNotify])
      else (false, [.pendingNew, .dataNew, .dataFree, .messageUnref, .pendingCancel])
    else (true, [.pendingNew])

/-- The error for a reply that is missing. -/
def noReply : DBusError := ⟨"org.enlightenment.DBus.NoReply", "There was no reply to this method call."⟩

/-- `cb_pending`, which is set only together with a callback. The reply is the one that was stolen; the
library owns it and its reference is not counted. -/
def cbPending (completed : Bool) (reply : Option (Reply Body)) : List (Effect Body) :=
  if completed then
    match reply with
    | none => [.cbReturn none (some noReply)]
    | some (.error err) => [.cbReturn none (some err), .pendingUnref]
    | some (.methodReturn body) => [.cbReturn (some body) none, .pendingUnref]
  else [.dataFree, .pendingUnref]

/-! ## Runs -/

/-- The calls that were made. -/
abbrev Calls (Body : Type) := List (Call Body)

/-- Something happens to a call. -/
inductive CallLabel (Body : Type) where
  | send (hasCallback : Bool) (outcome : SendOutcome)
  /-- The connection is done with a call: it runs the notification, if there is one, and drops the call. -/
  | notify (index : Nat) (completed : Bool) (reply : Option (Reply Body))
  /-- The caller cancels the call. -/
  | cancel (index : Nat)

/-- `e_dbus_message_send` is called. -/
def sendCall (hasCallback : Bool) (outcome : SendOutcome) : Call Body :=
  (messageSend hasCallback outcome).2.foldl Call.apply (Call.start hasCallback)

/-- The connection is done with a call. -/
def notifyCall (call : Call Body) (completed : Bool) (reply : Option (Reply Body)) : Call Body :=
  let marked := { call with pending := call.pending.map fun pending => { pending with completed := completed } }
  let effects := if call.pending.any Pending.notify then cbPending completed reply else []
  (effects.foldl Call.apply marked).release

/-- The caller cancels a call, with the libdbus function. -/
def cancelCall (call : Call Body) : Call Body := call.apply .pendingCancel

/-- A call that is waited for is replaced. -/
def update (calls : Calls Body) (index : Nat) (change : Call Body → Call Body) : Option (Calls Body) :=
  match calls[index]? with
  | none => none
  | some call => if call.awaited then some (calls.set index (change call)) else none

/-- The calls after a label. Only a call that is waited for is notified or cancelled. -/
def callStep (calls : Calls Body) : CallLabel Body → Option (Calls Body)
  | .send hasCallback outcome => some (calls ++ [sendCall hasCallback outcome])
  | .notify index completed reply => update calls index fun call => notifyCall call completed reply
  | .cancel index => update calls index cancelCall

/-- Calls as a machine. -/
def callMachine : Machine (Calls Body) (CallLabel Body) := ⟨callStep⟩

/-! ## Ownership -/

/-- Nothing is kept or dropped that belongs to somebody else: the message has the references it had, the
pending call is dropped once when it is over, the data is freed as often as it was made, and the callback
runs once for a call that is completed. -/
structure Owned (call : Call Body) : Prop where
  message : call.messageRefs = 0
  unref : ∀ pending, call.pending = some pending → pending.unrefs ≤ 1 ∧ (pending.awaited = false → pending.unrefs = 1)
  data : call.dataNew ≤ 1 ∧ call.dataFreed ≤ call.dataNew ∧ (call.awaited = false → call.dataFreed = call.dataNew)
  atMostOnce : call.callbacks.length ≤ 1
  onceCompleted : call.completed = true → call.hasCallback = true → call.callbacks.length = 1

/-- The notification is set if a callback was given, and the connection is done with no call but one with a
callback, of which it has the reply. -/
def Proper (calls : Calls Body) : CallLabel Body → Prop
  | .send hasCallback outcome => hasCallback = true → outcome ≠ .pending false
  | .notify index completed reply =>
    (∀ call, calls[index]? = some call → call.hasCallback = true) ∧ completed = true ∧ reply.isSome = true
  | .cancel _ => False

/-- A call that is waited for is as it was sent. -/
def Waits (call : Call Body) : Prop := call.awaited = true → call = sendCall call.hasCallback (.pending true)

theorem owned_sendCall_iff (hasCallback : Bool) (outcome : SendOutcome) :
    Owned (sendCall hasCallback outcome : Call Body) ↔ (hasCallback = true → outcome ≠ .pending false) := by
  cases hasCallback with
  | false =>
      apply iff_of_true
      · cases outcome with
        | failed => exact ⟨rfl, nofun, ⟨Nat.zero_le 1, le_rfl, fun _ => rfl⟩, Nat.zero_le 1, nofun⟩
        | disconnected => exact ⟨rfl, nofun, ⟨Nat.zero_le 1, le_rfl, fun _ => rfl⟩, Nat.zero_le 1, nofun⟩
        | pending notifySet =>
            refine ⟨rfl, ?_, ⟨Nat.zero_le 1, le_rfl, fun _ => rfl⟩, Nat.zero_le 1, nofun⟩
            rintro pending ⟨⟩
            exact ⟨Nat.zero_le 1, nofun⟩
      · exact nofun
  | true =>
      cases outcome with
      | failed =>
          exact iff_of_true ⟨rfl, nofun, ⟨Nat.zero_le 1, le_rfl, fun _ => rfl⟩, Nat.zero_le 1, nofun⟩ fun _ => nofun
      | disconnected =>
          exact iff_of_true ⟨rfl, nofun, ⟨Nat.zero_le 1, le_rfl, fun _ => rfl⟩, Nat.zero_le 1, nofun⟩ fun _ => nofun
      | pending notifySet =>
          cases notifySet with
          | true =>
              refine iff_of_true ⟨rfl, ?_, ⟨le_rfl, Nat.zero_le 1, nofun⟩, Nat.zero_le 1, nofun⟩ fun _ => nofun
              rintro pending ⟨⟩
              exact ⟨Nat.zero_le 1, nofun⟩
          | false =>
              -- The reference of the caller went with the failure.
              refine iff_of_false (fun owned => ?_) fun proper => proper rfl rfl
              exact absurd (show (0 - 1 : Int) = 0 from owned.message) (by decide)

theorem sendCall_waits (hasCallback : Bool) (outcome : SendOutcome) :
    Waits (sendCall hasCallback outcome : Call Body) := by
  intro waited
  cases outcome with
  | failed => cases hasCallback <;> cases waited
  | disconnected => cases hasCallback <;> cases waited
  | pending notifySet =>
      cases hasCallback with
      | false => rfl
      | true =>
          cases notifySet with
          | false => cases waited
          | true => rfl

theorem owned_notifyCall_iff (hasCallback completed : Bool) (reply : Option (Reply Body)) :
    Owned (notifyCall (sendCall hasCallback (.pending true)) completed reply) ↔
      hasCallback = true ∧ completed = true ∧ reply.isSome = true := by
  cases hasCallback with
  | false =>
      -- Nobody drops the reference on the pending call.
      refine iff_of_false (fun owned => ?_) nofun
      exact Nat.zero_ne_one ((owned.unref _ rfl).2 rfl)
  | true =>
      cases completed with
      | false =>
          -- The data is freed here and when the pending call is finalised.
          refine iff_of_false (fun owned => ?_) nofun
          exact absurd (show 2 = 1 from owned.data.2.2 rfl) (by decide)
      | true =>
          cases reply with
          | none =>
              refine iff_of_false (fun owned => ?_) nofun
              exact Nat.zero_ne_one ((owned.unref _ rfl).2 rfl)
          | some reply =>
              apply iff_of_true _ ⟨rfl, rfl, rfl⟩
              cases reply with
              | methodReturn body =>
                  refine ⟨rfl, ?_, ⟨le_rfl, le_rfl, fun _ => rfl⟩, le_rfl, fun _ _ => rfl⟩
                  rintro pending ⟨⟩
                  exact ⟨le_rfl, fun _ => rfl⟩
              | error err =>
                  refine ⟨rfl, ?_, ⟨le_rfl, le_rfl, fun _ => rfl⟩, le_rfl, fun _ _ => rfl⟩
                  rintro pending ⟨⟩
                  exact ⟨le_rfl, fun _ => rfl⟩

theorem not_owned_cancelCall (hasCallback : Bool) :
    ¬ Owned (cancelCall (sendCall hasCallback (.pending true) : Call Body)) := by
  intro owned
  cases hasCallback with
  | false => exact Nat.zero_ne_one ((owned.unref _ rfl).2 rfl)
  | true => exact Nat.zero_ne_one ((owned.unref _ rfl).2 rfl)

theorem notifyCall_over (hasCallback completed : Bool) (reply : Option (Reply Body)) :
    (notifyCall (sendCall hasCallback (.pending true)) completed reply).awaited = false := by
  cases hasCallback with
  | false => rfl
  | true =>
      cases completed with
      | false => rfl
      | true =>
          cases reply with
          | none => rfl
          | some reply => cases reply <;> rfl

/-! ## Lists of calls -/

variable {calls next : Calls Body}

theorem update_cases {index : Nat} {change : Call Body → Call Body} (updated : update calls index change = some next) :
    ∃ call, calls[index]? = some call ∧ call.awaited = true ∧ next = calls.set index (change call) := by
  unfold update at updated
  cases found : calls[index]? with
  | none => simp [found] at updated
  | some call =>
      simp only [found] at updated
      split at updated
      · next waited => exact ⟨call, rfl, waited, (Option.some.inj updated).symm⟩
      · cases updated

/-- The others are as they were, so all calls are fine if the new one is. -/
theorem forall_set_iff {property : Call Body → Prop} {index : Nat} {call changed : Call Body}
    (found : calls[index]? = some call) (holds : ∀ call ∈ calls, property call) :
    (∀ call ∈ calls.set index changed, property call) ↔ property changed := by
  obtain ⟨inside, -⟩ := List.getElem?_eq_some_iff.mp found
  constructor
  · intro all
    exact all changed (List.mem_set inside changed)
  · intro new other listed
    rcases List.mem_or_eq_of_mem_set listed with old | rfl
    · exact holds other old
    · exact new

/-! ## Steps and runs -/

/-- A step keeps what the calls that are waited for look like. -/
theorem callStep_waits {label : CallLabel Body} (waits : ∀ call ∈ calls, Waits call)
    (stepped : callStep calls label = some next) (proper : Proper calls label) : ∀ call ∈ next, Waits call := by
  cases label with
  | send hasCallback outcome =>
      obtain rfl := Option.some.inj stepped
      intro call listed
      rcases List.mem_append.mp listed with old | new
      · exact waits call old
      · rw [List.mem_singleton.mp new]
        exact sendCall_waits hasCallback outcome
  | notify index completed reply =>
      obtain ⟨call, found, waited, rfl⟩ := update_cases stepped
      apply (forall_set_iff found waits).mpr
      intro still
      rw [waits call (List.mem_of_getElem? found) waited, notifyCall_over] at still
      cases still
  | cancel index => exact proper.elim

/-- A step keeps all calls owned if and only if it is proper. -/
theorem callStep_owned_iff {label : CallLabel Body} (owned : ∀ call ∈ calls, Owned call)
    (waits : ∀ call ∈ calls, Waits call) (stepped : callStep calls label = some next) :
    (∀ call ∈ next, Owned call) ↔ Proper calls label := by
  cases label with
  | send hasCallback outcome =>
      obtain rfl := Option.some.inj stepped
      rw [Proper, List.forall_mem_append, List.forall_mem_singleton, owned_sendCall_iff]
      exact and_iff_right owned
  | notify index completed reply =>
      obtain ⟨call, found, waited, rfl⟩ := update_cases stepped
      have sent : call = sendCall call.hasCallback (.pending true) := waits call (List.mem_of_getElem? found) waited
      rw [forall_set_iff found owned, sent, owned_notifyCall_iff, Proper, found]
      simp
  | cancel index =>
      obtain ⟨call, found, waited, rfl⟩ := update_cases stepped
      have sent : call = sendCall call.hasCallback (.pending true) := waits call (List.mem_of_getElem? found) waited
      rw [forall_set_iff found owned, sent]
      exact iff_of_false (not_owned_cancelCall _) id

/-- All calls are owned in every state of a run if and only if its steps are proper. -/
theorem owned_throughout_iff (labels : List (CallLabel Body)) :
    callMachine.Throughout (fun calls => ∀ call ∈ calls, Owned call) [] labels ↔
      callMachine.Along (fun calls label _ => Proper calls label) [] labels := by
  apply Machine.throughout_iff_along fun calls => (∀ call ∈ calls, Owned call) ∧ ∀ call ∈ calls, Waits call
  · rintro calls label next ⟨owned, waits⟩ stepped
    exact callStep_owned_iff owned waits stepped
  · rintro calls label next ⟨owned, waits⟩ stepped proper
    exact ⟨(callStep_owned_iff owned waits stepped).mpr proper, callStep_waits waits stepped proper⟩
  · exact ⟨List.forall_mem_nil _, List.forall_mem_nil _⟩
  · exact List.forall_mem_nil _

/-- A call that is sent, and cancelled by the caller. -/
def cancelled : List (CallLabel Body) := [.send true (.pending true), .cancel 0]

/-- The pending call of a call that was cancelled is never dropped. -/
theorem owned_fails_cancelled :
    ¬ ∀ labels : List (CallLabel Unit), callMachine.Throughout (fun calls => ∀ call ∈ calls, Owned call) [] labels := by
  intro always
  have owned := ((always cancelled).2 _ rfl).2 _ rfl
  exact not_owned_cancelCall true (owned _ (.head _))

end EDBus.Dbus
