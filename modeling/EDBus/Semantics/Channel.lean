import Mathlib.Data.List.Infix
import Mathlib.Logic.Function.Basic

/-!
# Channels

Messages that are put into a channel come out in the same order. `Links` are the channels to several
addresses, to which a sender's messages are routed one by one. `Carry` says that nothing was lost and
nothing came in by another way: whoever takes messages out has seen a part of the sender's log, whatever
else happened in between.
-/

namespace EDBus.Semantics

universe u v

/-- The messages under way, the oldest first, and those that were taken out. -/
structure Link (Message : Type v) where
  underway : List Message
  received : List Message
deriving DecidableEq, Repr

namespace Link

variable {Message : Type v}

/-- Nothing was sent yet. -/
def empty : Link Message := ⟨[], []⟩

/-- All messages that were put in. -/
def carried (link : Link Message) : List Message := link.received ++ link.underway

/-- A message is put in. -/
def send (link : Link Message) (message : Message) : Link Message :=
  { link with underway := link.underway ++ [message] }

/-- The oldest message is taken out, if there is one. -/
def receive (link : Link Message) : Option (Message × Link Message) :=
  match link.underway with
  | [] => none
  | message :: rest => some (message, ⟨rest, link.received ++ [message]⟩)

@[simp] theorem carried_send (link : Link Message) (message : Message) :
    (link.send message).carried = link.carried ++ [message] := by
  simp [carried, send]

/-- Taking a message out neither loses nor adds one. -/
theorem carried_receive {link later : Link Message} {message : Message}
    (taken : link.receive = some (message, later)) :
    later.carried = link.carried ∧ later.received = link.received ++ [message] := by
  obtain ⟨underway, received⟩ := link
  cases underway with
  | nil => cases taken
  | cons first rest =>
      cases taken
      constructor
      · simp [carried]
      · rfl

/-- What is taken out was put in. -/
theorem mem_carried_of_receive {link later : Link Message} {message : Message}
    (taken : link.receive = some (message, later)) : message ∈ link.carried := by
  obtain ⟨same, received⟩ := carried_receive taken
  rw [← same, carried, received]
  simp

theorem received_prefix_carried (link : Link Message) : link.received <+: link.carried :=
  List.prefix_append link.received link.underway

end Link

/-- A channel to each address. -/
abbrev Links (Address : Type u) (Message : Type v) := Address → Link Message

namespace Links

variable {Address : Type u} {Message : Type v}

/-- A message is put into the channels to those it is addressed to. -/
def route (links : Links Address Message) (addressed : Address → Message → Bool) (message : Message) :
    Links Address Message :=
  fun address => if addressed address message then (links address).send message else links address

/-- Each channel carries what the log has for its address. -/
def Carry (links : Links Address Message) (addressed : Address → Message → Bool) (log : List Message) : Prop :=
  ∀ address, (links address).carried = log.filter (addressed address)

variable {links : Links Address Message} {addressed : Address → Message → Bool} {log : List Message}

theorem empty_carry (addressed : Address → Message → Bool) :
    Carry (fun _ => Link.empty) addressed ([] : List Message) :=
  fun _ => rfl

/-- Routing a message goes on with the log. -/
theorem Carry.route (carry : Carry links addressed log) (message : Message) :
    Carry (links.route addressed message) addressed (log ++ [message]) := by
  intro address
  rw [List.filter_append, ← carry address]
  unfold Links.route
  cases isFor : addressed address message with
  | true => rw [if_pos rfl, Link.carried_send, List.filter_cons_of_pos isFor, List.filter_nil]
  | false =>
      rw [if_neg Bool.false_ne_true, List.filter_cons_of_neg (by simp [isFor]), List.filter_nil, List.append_nil]

/-- Taking a message out of a channel leaves what all carry. -/
theorem Carry.receive [DecidableEq Address] (carry : Carry links addressed log) {address : Address}
    {message : Message} {later : Link Message} (taken : (links address).receive = some (message, later)) :
    Carry (Function.update links address later) addressed log := by
  intro other
  rw [Function.update_apply]
  by_cases same : other = address
  · rw [if_pos same, (Link.carried_receive taken).1, carry address, same]
  · rw [if_neg same, carry other]

/-- What was taken out is the beginning of what the log has for the address. -/
theorem Carry.received_prefix_log (carry : Carry links addressed log) (address : Address) :
    (links address).received <+: log.filter (addressed address) :=
  carry address ▸ Link.received_prefix_carried (links address)

/-- In whatever order the log has them, the messages that were taken out are in that order. -/
theorem Carry.received_sublist (carry : Carry links addressed log) (address : Address) :
    (links address).received.Sublist log :=
  (carry.received_prefix_log address).sublist.trans List.filter_sublist

end Links

end EDBus.Semantics
