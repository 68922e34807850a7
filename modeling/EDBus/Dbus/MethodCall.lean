import EDBus.Dbus.Decoded

/-!
# Method calls with a typed result

`e_dbus_method_call_send` wraps the callback of a caller, together with the reader of the reply and
the function that frees the result, in a record that `cb_method_call` works with and frees.
-/

open EDBus.Semantics

namespace EDBus.Dbus

variable {Result : Type}

/-- The account of a method call with a callback: that of its message, the record, what the callback was
run with, and which results were freed. -/
structure MethodCall (Result : Type) where
  call : Call Semantics.Message
  records : Nat
  recordsFreed : Nat
  callbacks : List (Option Result × Option DBusError)
  freed : List (Option Result)
  uses : List Use

/-- `cb_method_call`. An error that came with the reply is moved to the callback. -/
def cbMethodCall (unmarshal : List Data → Decoded Result) (account : MethodCall Result) (msg : Option Semantics.Message)
    (err : Option DBusError) : MethodCall Result :=
  let decoded : Decoded Result :=
    match err, msg with
    | none, some msg => unmarshal msg.body
    | err, _ => ⟨none, err, []⟩
  { account with
    callbacks := account.callbacks ++ [(decoded.result, decoded.error)]
    freed := account.freed ++ [decoded.result]
    recordsFreed := account.recordsFreed + 1
    uses := account.uses ++ decoded.uses }

/-- `e_dbus_method_call_send`: whether it returns a pending call, and the account. -/
def methodCallSend (outcome : SendOutcome) : Bool × MethodCall Result :=
  ((messageSend true outcome : Bool × List (Effect Semantics.Message)).1,
    { call := sendCall true outcome
      records := 1
      recordsFreed := 0
      callbacks := []
      freed := []
      uses := [] })

/-- The connection has the reply. The callback of the message is `cb_method_call`. -/
def methodCallComplete (unmarshal : List Data → Decoded Result) (account : MethodCall Result)
    (reply : Reply Semantics.Message) : MethodCall Result :=
  let call := notifyCall account.call true (some reply)
  (call.callbacks.drop account.call.callbacks.length).foldl
    (fun account run => cbMethodCall unmarshal account run.1 run.2) { account with call := call }

/-- A result and no error, or an error and no result. -/
def Decoded.Decided (decoded : Decoded Result) : Prop := decoded.result.isSome = decoded.error.isNone

/-- The callback was run once, with a result or an error, and the result was freed once. Nothing of the reply
was used as what it is not. -/
structure Answered (account : MethodCall Result) : Prop where
  once : ∃ result error, account.callbacks = [(result, error)] ∧ result.isSome = error.isNone ∧
    account.freed.filterMap id = result.toList
  record : account.recordsFreed = account.records
  uses : ∀ use ∈ account.uses, use.Proper

/-- The record is gone, and the callback was not run. -/
structure Withdrawn (account : MethodCall Result) : Prop where
  record : account.recordsFreed = account.records
  callbacks : account.callbacks = []

/-- A call that returns a pending call is answered by the reply, and one that does not leaves nothing behind. -/
def Settled (unmarshal : List Data → Decoded Result) (outcome : SendOutcome) (reply : Reply Semantics.Message) : Prop :=
  let sent := methodCallSend outcome
  if sent.1 = true then Answered (methodCallComplete unmarshal sent.2 reply) else Withdrawn sent.2

/-- The reader decides on the reply, and uses it as what it is. -/
def Decides (unmarshal : List Data → Decoded Result) : Reply Semantics.Message → Prop
  | .methodReturn msg => (unmarshal msg.body).Decided ∧ ∀ use ∈ (unmarshal msg.body).uses, use.Proper
  | .error _ => True

/-- A method call is settled if and only if it is sent, and the reader decides on the reply. -/
theorem settled_iff (unmarshal : List Data → Decoded Result) (outcome : SendOutcome) (reply : Reply Semantics.Message) :
    Settled unmarshal outcome reply ↔ outcome = .pending true ∧ Decides unmarshal reply := by
  cases outcome with
  | failed => exact iff_of_false (fun withdrawn => Nat.zero_ne_one withdrawn.record) nofun
  | disconnected => exact iff_of_false (fun withdrawn => Nat.zero_ne_one withdrawn.record) nofun
  | pending notifySet =>
      cases notifySet with
      | false => exact iff_of_false (fun withdrawn => Nat.zero_ne_one withdrawn.record) nofun
      | true =>
          rw [and_iff_right rfl]
          cases reply with
          | error err =>
              apply iff_of_true _ trivial
              exact ⟨⟨none, some err, rfl, rfl, rfl⟩, rfl, nofun⟩
          | methodReturn msg =>
              constructor
              · rintro ⟨⟨result, error, ran, decided, -⟩, -, uses⟩
                obtain ⟨rfl, rfl⟩ := Prod.mk.inj (List.singleton_inj.mp ran)
                exact ⟨decided, uses⟩
              · rintro ⟨decided, uses⟩
                refine ⟨⟨_, _, rfl, decided, ?_⟩, rfl, uses⟩
                show [(unmarshal msg.body).result].filterMap id = _
                cases (unmarshal msg.body).result with
                | none => rfl
                | some result => rfl

end EDBus.Dbus
