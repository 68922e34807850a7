import EDBus.Notify.DaemonRegister
import EDBus.Semantics.Channel

/-!
# Clients of the notification daemon

Clients call the methods of the daemon, the bus passes the messages on, and each client takes what is for it
when it gets to it. The calls of one client arrive in order, and so do the messages to one client; nothing
else is known of the order. What a client has seen is in order all the same.
-/

open EDBus.Semantics
open Semantics

namespace EDBus.Notify

/-! ## What a client reads -/

/-- The call that a packet answers. -/
def Packet.replyTo (packet : Packet) : Option Origin :=
  match packet.header with
  | .methodReturn origin => some origin
  | .error origin _ => some origin
  | _ => none

/-- What a client makes of a packet: a return is read with `e_notify_unmarshal_notify_return`, and the signal
with `e_notify_unmarshal_notification_closed_signal`. -/
def Packet.read (packet : Packet) : Option (Notice Unit UInt32 Empty) :=
  match packet.header with
  | .methodReturn _ => (unmarshalNotifyReturn packet.body).result.map fun id => .given () id.toNat
  | .signal _ _ "NotificationClosed" =>
    (unmarshalNotificationClosedSignal packet.body).result.map fun closed =>
      .closed closed.notificationId.toNat closed.reason
  | _ => none

/-- Whom the bus passes a packet to. A signal goes to those that listen. -/
def Packet.isFor (listens : String → Bool) (client : String) (packet : Packet) : Bool :=
  match packet.header with
  | .methodCall _ _ _ _ => false
  | .signal _ _ _ => listens client
  | .methodReturn origin => origin.sender = client
  | .error origin _ => origin.sender = client

namespace DaemonData

/-! ## The bus -/

/-- The daemon, the calls of each client, the messages to each client, and how many of the messages of the
daemon the bus took. -/
structure Network where
  daemon : DaemonData
  calls : Links String Call
  routed : Nat
  inboxes : Links String Packet

/-- What happens next. -/
inductive Event where
  | call (client : String) (call : Call)
  /-- The daemon handles the next call of a client. -/
  | handle (client : String) (garbage : Garbage) (survives : Bool) (n : NoteId)
  | timer (td : TimerData)
  | quit
  /-- The bus passes on the next message of the daemon. -/
  | route
  | receive (client : String)

/-- The daemon has just come to its main loop. -/
def Network.initial : Network := ⟨DaemonData.initial, fun _ => .empty, 0, fun _ => .empty⟩

/-- A step of the network. The bus says who sent a call. -/
def Network.step (listens : String → Bool) (net : Network) : Event → Option Network
  | .call client call =>
    if call.origin.sender = client then
      some { net with calls := Function.update net.calls client ((net.calls client).send call) }
    else none
  | .handle client garbage survives n =>
    (net.calls client).receive.bind fun (call, later) =>
      (machine.step net.daemon (.handle call garbage survives n)).map fun daemon =>
        { net with daemon := daemon, calls := Function.update net.calls client later }
  | .timer td => (machine.step net.daemon (.timer td)).map fun daemon => { net with daemon := daemon }
  | .quit => (machine.step net.daemon .quit).map fun daemon => { net with daemon := daemon }
  | .route =>
    net.daemon.sent[net.routed]?.map fun packet =>
      { net with routed := net.routed + 1, inboxes := net.inboxes.route (Packet.isFor listens) packet }
  | .receive client =>
    (net.inboxes client).receive.map fun (_, later) =>
      { net with inboxes := Function.update net.inboxes client later }

/-- The network as a machine, for the clients that listen to signals. -/
def network (listens : String → Bool) : Machine Network Event := ⟨Network.step listens⟩

/-! ## What the daemon sends -/

variable {d next : DaemonData} {register : NoteRegister}

/-- The call that a step handles. -/
def Label.call : Label → Option Call
  | .handle call _ _ _ => some call
  | _ => none

theorem answer_replyTo (call : Call) : call.answer.replyTo = some call.origin := by
  unfold Call.answer
  split
  · cases call.method <;> rfl
  · rfl

theorem answer_read (call : Call) : call.answer.read = none := by
  unfold Call.answer
  split
  · cases call.method <;> rfl
  · rfl

/-- What a step adds to the messages: one reply if it handles a call, and a signal for a request only if
that was the call. -/
structure Appends (before : List Packet) (label : Label) (after : List Packet) : Prop where
  grows : before <+: after
  replies : after.filterMap Packet.replyTo = before.filterMap Packet.replyTo ++ (label.call.map Call.origin).toList
  requested : ∀ id, marshalNotificationClosedSignal id ClosedReason.requested.code ∈ after →
    marshalNotificationClosedSignal id ClosedReason.requested.code ∈ before ∨
      ∃ call, label.call = some call ∧ call.method = .closeNotification ∧ call.body.body = [.uint32 id]

theorem signal_injective {id other : UInt32} {reason code : UInt32}
    (same : marshalNotificationClosedSignal id reason = marshalNotificationClosedSignal other code) :
    id = other ∧ reason = code := by
  unfold marshalNotificationClosedSignal at same
  simpa using same

/-- A message that answers a call is sent at the end of its handling. -/
theorem Appends.reply {before : List Packet} {call : Call} {garbage : Garbage} {survives : Bool} {n : NoteId}
    {packet : Packet} (isReply : packet.replyTo = some call.origin) :
    Appends before (.handle call garbage survives n) (before ++ [packet]) where
  grows := List.prefix_append _ _
  replies := by
    rw [List.filterMap_append]
    simp [isReply, Label.call]
  requested id listed := by
    left
    rcases List.mem_append.mp listed with earlier | last
    · exact earlier
    · rw [← List.mem_singleton.mp last] at isReply
      cases isReply

theorem Transition.appends {label : Label} (transition : Transition d label next) : Appends d.sent label next.sent := by
  cases transition with
  | answered other => exact .reply (answer_replyTo _)
  | notified accepted method isRead inRange fresh notified =>
      change Appends d.sent _ (_ ++ [_])
      rw [notified.sent]
      exact .reply rfl
  | @closed call garbage survives n target note later accepted method body isOpen found closed =>
      change Appends d.sent _ (later.sent ++ [call.answer])
      have handled : Appends later.sent (.handle call garbage survives n) (later.sent ++ [call.answer]) :=
        .reply (answer_replyTo call)
      rw [closed.sent] at handled ⊢
      constructor
      · exact (List.prefix_append _ _).trans handled.grows
      · rw [handled.replies, List.filterMap_append]
        simp [marshalNotificationClosedSignal, Packet.replyTo]
      · intro id listed
        rcases handled.requested id listed with signalled | asked
        · rcases List.mem_append.mp signalled with earlier | last
          · exact .inl earlier
          · obtain ⟨rfl, -⟩ := signal_injective (List.mem_singleton.mp last)
            exact .inr ⟨call, rfl, method, body⟩
        · exact .inr asked
  | unknown accepted method body others => exact .reply (answer_replyTo _)
  | @expired td note middle later live isOpen found closed gone =>
      rw [gone.sent, closed.sent]
      constructor
      · exact List.prefix_append _ _
      · rw [List.filterMap_append]
        simp [marshalNotificationClosedSignal, Packet.replyTo, Label.call]
      · intro id listed
        rcases List.mem_append.mp listed with earlier | last
        · exact .inl earlier
        · have reasons := (signal_injective (List.mem_singleton.mp last)).2
          cases reasons
  | stale live notOpen gone =>
      rw [gone.sent]
      exact ⟨List.prefix_refl _, by simp [Label.call], fun id listed => .inl listed⟩
  | quit => exact ⟨List.prefix_refl _, by simp [Label.call, cleanUp], fun id listed => .inl listed⟩

/-- The answers among the notices are nothing that clients read. -/
def Plain (register : NoteRegister) : Prop := ∀ packet, .answer packet ∈ register.notices → packet.read = none

theorem requests_plain {label : Label} {packet : Packet} (told : .tell packet ∈ requests d label next) :
    packet.read = none := by
  cases label with
  | handle call garbage n =>
      have isAnswer : packet = call.answer := by
        by_cases accepted : call.Accepted
        · simp only [requests, if_pos accepted] at told
          cases method : call.method with
          | notify => simp [method] at told
          | closeNotification => simpa [method] using told
          | getCapabilities => simpa [method] using told
          | getServerInformation => simpa [method] using told
        · simpa only [requests, if_neg accepted, List.mem_singleton, Request.tell.injEq] using told
      rw [isAnswer]
      exact answer_read call
  | timer td => simp [requests] at told
  | quit => cases told

/-- The daemon stays a register with answers that clients do not read. -/
theorem represented_step {label : Label}
    (represented : ∃ register : NoteRegister, Represents d register ∧ register.Coherent ∧ Plain register)
    (stepped : machine.step d label = some next) :
    ∃ register : NoteRegister, Represents next register ∧ register.Coherent ∧ Plain register := by
  obtain ⟨register, represents, coherent, plain⟩ := represented
  obtain ⟨later, answered, representsLater⟩ := register_simulates.step d label next register represents stepped
  exact ⟨later, representsLater, Register.coherent_of_exec coherent answered,
    Register.answers_of_exec plain (fun _ told => requests_plain told) answered⟩

/-! ## What a client has seen -/

/-- What the bus keeps in order. -/
structure Delivers (listens : String → Bool) (net : Network) : Prop where
  represented : ∃ register : NoteRegister, Represents net.daemon register ∧ register.Coherent ∧ Plain register
  carry : net.inboxes.Carry (Packet.isFor listens) (net.daemon.sent.take net.routed)
  routed : net.routed ≤ net.daemon.sent.length
  senders : ∀ client, ∀ call ∈ (net.calls client).carried, call.origin.sender = client
  replies : ∀ client, (net.daemon.sent.filterMap Packet.replyTo).filter (·.sender = client) =
    (net.calls client).received.map Call.origin
  requested : ∀ id, marshalNotificationClosedSignal id ClosedReason.requested.code ∈ net.daemon.sent →
    ∃ client, ∃ call ∈ (net.calls client).received, call.method = .closeNotification ∧ call.body.body = [.uint32 id]

variable {listens : String → Bool} {net later : Network}

theorem initial_delivers : Delivers listens .initial where
  represented := ⟨Register.empty, initial_represents, Register.empty_coherent, fun _ listed => by cases listed⟩
  carry := Links.empty_carry _
  routed := Nat.le_refl 0
  senders _ _ listed := by cases listed
  replies _ := rfl
  requested _ listed := by cases listed

/-- The daemon takes a step that handles no call. -/
theorem Delivers.daemon (delivers : Delivers listens net) {label : Label} (noCall : label.call = none)
    {daemon : DaemonData} (stepped : machine.step net.daemon label = some daemon) :
    Delivers listens { net with daemon := daemon } := by
  obtain ⟨register, represents, -, -⟩ := delivers.represented
  have appends := (step_transition represents.sound stepped).2.appends
  obtain ⟨more, isMore⟩ := appends.grows
  exact
    { represented := represented_step delivers.represented stepped
      carry := by
        have taken : daemon.sent.take net.routed = net.daemon.sent.take net.routed := by
          rw [← isMore, List.take_append_of_le_length delivers.routed]
        simpa only [taken] using delivers.carry
      routed := delivers.routed.trans appends.grows.length_le
      senders := delivers.senders
      replies := fun client => by
        have replies := appends.replies
        rw [noCall, Option.map_none, Option.toList_none, List.append_nil] at replies
        rw [replies]
        exact delivers.replies client
      requested := fun id listed => by
        rcases appends.requested id listed with before | ⟨call, isCall, -⟩
        · exact delivers.requested id before
        · rw [noCall] at isCall
          cases isCall }

/-- The daemon handles a call. -/
theorem Delivers.handle (delivers : Delivers listens net) {client : String} {call : Call} {link : Link Call}
    (taken : (net.calls client).receive = some (call, link)) {garbage : Garbage} {survives : Bool} {n : NoteId}
    {daemon : DaemonData} (stepped : machine.step net.daemon (.handle call garbage survives n) = some daemon) :
    Delivers listens { net with daemon := daemon, calls := Function.update net.calls client link } := by
  obtain ⟨register, represents, -, -⟩ := delivers.represented
  have appends := (step_transition represents.sound stepped).2.appends
  obtain ⟨more, isMore⟩ := appends.grows
  obtain ⟨carried, received⟩ := Link.carried_receive taken
  have sender : call.origin.sender = client := delivers.senders client call (Link.mem_carried_of_receive taken)
  exact
    { represented := represented_step delivers.represented stepped
      carry := by
        have same : daemon.sent.take net.routed = net.daemon.sent.take net.routed := by
          rw [← isMore, List.take_append_of_le_length delivers.routed]
        simpa only [same] using delivers.carry
      routed := delivers.routed.trans appends.grows.length_le
      senders := fun other asked listed => by
        simp only [Function.update_apply] at listed
        split at listed
        · next same =>
            rw [same]
            exact delivers.senders client asked (carried ▸ listed)
        · exact delivers.senders other asked listed
      replies := fun other => by
        have replies := appends.replies
        rw [replies, List.filter_append, delivers.replies other]
        simp only [Function.update_apply]
        split
        · next same =>
            rw [same, received, List.map_append]
            simp [Label.call, sender]
        · next differs => simp [Label.call, sender, Ne.symm differs]
      requested := fun id listed => by
        have inReceived : ∀ other asked, asked ∈ (net.calls other).received →
            asked ∈ (Function.update net.calls client link other).received := by
          intro other asked isThere
          rw [Function.update_apply]
          split
          · next same =>
              rw [received, ← same]
              exact List.mem_append_left _ isThere
          · exact isThere
        rcases appends.requested id listed with before | ⟨asked, isCall, method, body⟩
        · obtain ⟨other, asked, isThere, isRequest⟩ := delivers.requested id before
          exact ⟨other, asked, inReceived other asked isThere, isRequest⟩
        · obtain rfl := Option.some.inj isCall
          refine ⟨client, call, ?_, method, body⟩
          simp only [Function.update_self, received]
          exact List.mem_append_right _ List.mem_cons_self }

/-- The bus passes a message on. -/
theorem Delivers.route (delivers : Delivers listens net) {packet : Packet}
    (isNext : net.daemon.sent[net.routed]? = some packet) :
    Delivers listens { net with
      routed := net.routed + 1, inboxes := net.inboxes.route (Packet.isFor listens) packet } where
  represented := delivers.represented
  carry := by
    rw [List.take_add_one, isNext]
    exact delivers.carry.route packet
  routed := (List.getElem?_eq_some_iff.mp isNext).1
  senders := delivers.senders
  replies := delivers.replies
  requested := delivers.requested

/-- A client calls the daemon. -/
theorem Delivers.call (delivers : Delivers listens net) {client : String} {call : Call}
    (sender : call.origin.sender = client) :
    Delivers listens { net with calls := Function.update net.calls client ((net.calls client).send call) } where
  represented := delivers.represented
  carry := delivers.carry
  routed := delivers.routed
  senders other asked listed := by
    simp only [Function.update_apply] at listed
    split at listed
    · next same =>
        rw [Link.carried_send, List.mem_append, List.mem_singleton] at listed
        rcases listed with before | rfl
        · rw [same]
          exact delivers.senders client asked before
        · rw [sender, same]
    · exact delivers.senders other asked listed
  replies other := by
    rw [delivers.replies other]
    simp only [Function.update_apply]
    split
    · next same => rw [same]; rfl
    · rfl
  requested id listed := by
    obtain ⟨other, asked, isThere, isRequest⟩ := delivers.requested id listed
    refine ⟨other, asked, ?_, isRequest⟩
    simp only [Function.update_apply]
    split
    · next same => exact same ▸ isThere
    · exact isThere

theorem delivers_step {event : Event} (delivers : Delivers listens net)
    (stepped : (network listens).step net event = some later) : Delivers listens later := by
  change net.step listens event = some later at stepped
  cases event with
  | call client call =>
      simp only [Network.step] at stepped
      split at stepped
      · next sender =>
          cases stepped
          exact delivers.call sender
      · cases stepped
  | handle client garbage survives n =>
      obtain ⟨⟨call, link⟩, taken, handled⟩ := Option.bind_eq_some_iff.mp stepped
      obtain ⟨daemon, daemonStepped, rfl⟩ := Option.map_eq_some_iff.mp handled
      exact delivers.handle taken daemonStepped
  | timer td =>
      obtain ⟨daemon, daemonStepped, rfl⟩ := Option.map_eq_some_iff.mp stepped
      exact delivers.daemon rfl daemonStepped
  | quit =>
      obtain ⟨daemon, daemonStepped, rfl⟩ := Option.map_eq_some_iff.mp stepped
      exact delivers.daemon rfl daemonStepped
  | route =>
      obtain ⟨packet, isNext, rfl⟩ := Option.map_eq_some_iff.mp stepped
      exact delivers.route isNext
  | receive client =>
      obtain ⟨⟨packet, link⟩, taken, rfl⟩ := Option.map_eq_some_iff.mp stepped
      exact ⟨delivers.represented, delivers.carry.receive taken, delivers.routed, delivers.senders, delivers.replies,
        delivers.requested⟩

/-- A notice as a client reads it. -/
def readNotice : Notice Origin ClosedReason Packet → Option (Notice Unit UInt32 Empty)
  | .given _ number => some (.given () number)
  | .closed number reason => some (.closed number reason.code)
  | .answer _ => none

/-- A client reads the messages for the notices of a register as what they say. -/
theorem read_packetOf {d : DaemonData} (represents : Represents d register) (coherent : register.Coherent)
    (plain : Plain register) {notice : Notice Origin ClosedReason Packet} (told : notice ∈ register.notices) :
    (packetOf notice).read = readNotice notice := by
  have inRange : register.entered.length < 2147483647 := by
    have bound := represents.inRange
    rw [represents.nextId] at bound
    exact bound
  have isExact : ∀ number, number ≤ register.entered.length → (UInt32.ofNat number).toNat = number := by
    intro number bounded
    exact UInt32.toNat_ofNat_of_lt' (by unfold UInt32.size; omega)
  cases notice with
  | given origin number =>
      have isRead : (packetOf (.given origin number)).read =
          (unmarshalNotifyReturn (marshalNotifyReturn origin (UInt32.ofNat number)).body).result.map
            fun id => .given () id.toNat := rfl
      rw [isRead, unmarshalNotifyReturn_marshal, Option.map_some, isExact number (coherent.le_of_given told)]
      rfl
  | closed number reason =>
      have isSignal : (packetOf (.closed number reason)).read =
          (unmarshalNotificationClosedSignal
            (marshalNotificationClosedSignal (UInt32.ofNat number) reason.code).body).result.map
              fun closed => .closed closed.notificationId.toNat closed.reason := rfl
      rw [isSignal, (unmarshalNotificationClosedSignal_iff _ ⟨UInt32.ofNat number, reason.code⟩).mpr rfl,
        Option.map_some, isExact number (coherent.closed number (Register.mem_closedNumbers told))]
      rfl
  | answer packet => exact plain packet told

/-- Notices keep their order when they are read. -/
theorem readNotice_inOrder {first second : Notice Origin ClosedReason Packet} (inOrder : first.InOrder second)
    {left right : Notice Unit UInt32 Empty} (isLeft : readNotice first = some left)
    (isRight : readNotice second = some right) : left.InOrder right := by
  cases first with
  | given =>
      cases isLeft
      cases second <;> cases isRight <;> exact inOrder
  | closed =>
      cases isLeft
      cases second <;> cases isRight <;> exact inOrder
  | answer => cases isLeft

/-- What the daemon has sent is in order for whoever reads it. -/
theorem sent_inOrder {d : DaemonData}
    (represented : ∃ register : NoteRegister, Represents d register ∧ register.Coherent ∧ Plain register) :
    (d.sent.filterMap Packet.read).Pairwise Notice.InOrder := by
  obtain ⟨register, represents, coherent, plain⟩ := represented
  have isRead : d.sent.filterMap Packet.read = register.notices.filterMap readNotice := by
    rw [represents.sent, List.filterMap_map]
    exact List.filterMap_congr fun notice told => read_packetOf represents coherent plain told
  rw [isRead]
  exact coherent.inOrder.filterMap readNotice fun first second inOrder left isLeft right isRight =>
    readNotice_inOrder inOrder isLeft isRight

/-- The replies to a client are among the messages for it. -/
theorem replies_filter_isFor (listens : String → Bool) (client : String) (packets : List Packet) :
    ((packets.filter (Packet.isFor listens client)).filterMap Packet.replyTo).filter (·.sender = client) =
      (packets.filterMap Packet.replyTo).filter (·.sender = client) := by
  induction packets with
  | nil => rfl
  | cons packet rest ih =>
      obtain ⟨header, body⟩ := packet
      have addressed : ∀ origin, Packet.replyTo ⟨header, body⟩ = some origin →
          Packet.isFor listens client ⟨header, body⟩ = decide (origin.sender = client) := by
        intro origin isReply
        cases header <;> cases isReply <;> rfl
      cases isReply : Packet.replyTo ⟨header, body⟩ with
      | none =>
          rw [List.filterMap_cons_none isReply, ← ih]
          by_cases isFor : Packet.isFor listens client ⟨header, body⟩ = true
          · rw [List.filter_cons_of_pos isFor, List.filterMap_cons_none isReply]
          · rw [List.filter_cons_of_neg isFor]
      | some origin =>
          rw [List.filterMap_cons_some isReply]
          by_cases sender : origin.sender = client
          · have isFor : Packet.isFor listens client ⟨header, body⟩ = true := by
              rw [addressed origin isReply, decide_eq_true sender]
            simp only [List.filter_cons_of_pos isFor, List.filterMap_cons_some isReply, List.filter_cons, ih]
          · have isFor : ¬ Packet.isFor listens client ⟨header, body⟩ = true := by
              rw [addressed origin isReply]
              simpa using sender
            simp only [List.filter_cons_of_neg isFor, ih, List.filter_cons, decide_eq_true_eq, if_neg sender]

/-- What a client has seen, in whatever order things happened. Ids come in order and never after they were
closed, and no id is closed twice. The replies are those to its calls, in the order of the calls and one for
each. A notification that was closed on request was named in a call that the daemon handled. -/
structure ClientView (net : Network) (client : String) : Prop where
  inOrder : ((net.inboxes client).received.filterMap Packet.read).Pairwise Notice.InOrder
  replies : ((net.inboxes client).received.filterMap Packet.replyTo).filter (·.sender = client) <+:
    (net.calls client).carried.map Call.origin
  requested : ∀ id, marshalNotificationClosedSignal id ClosedReason.requested.code ∈ (net.inboxes client).received →
    ∃ other, ∃ call ∈ (net.calls other).carried, call.method = .closeNotification ∧ call.body.body = [.uint32 id]

theorem Delivers.clientView (delivers : Delivers listens net) (client : String) : ClientView net client := by
  have seen : (net.inboxes client).received.Sublist net.daemon.sent :=
    (delivers.carry.received_sublist client).trans (List.take_sublist _ _)
  constructor
  · exact (sent_inOrder delivers.represented).sublist (seen.filterMap Packet.read)
  · have early := ((delivers.carry.received_prefix_log client).filterMap Packet.replyTo).filter (·.sender = client)
    rw [replies_filter_isFor] at early
    have taken := ((List.take_prefix net.routed net.daemon.sent).filterMap Packet.replyTo).filter (·.sender = client)
    rw [delivers.replies client] at taken
    exact (early.trans taken).trans ((net.calls client).received_prefix_carried.map Call.origin)
  · intro id listed
    obtain ⟨other, call, handled, isRequest⟩ := delivers.requested id (seen.subset listed)
    exact ⟨other, call, List.mem_append_left _ handled, isRequest⟩

/-- Every client of every run sees this. -/
theorem clientView_throughout (listens : String → Bool) (events : List Event) :
    (network listens).Throughout (fun net => ∀ client, ClientView net client) .initial events :=
  (Machine.throughout_of_preserved (fun _ _ _ delivers stepped => delivers_step delivers stepped) events
    initial_delivers).mono fun _ delivers client => delivers.clientView client

end DaemonData

end EDBus.Notify
