import DawnPatrol.Raven.Packets
import Mathlib.Data.List.Nodup
import Mathlib.Logic.Relation

/-!
# Captures and the worker of the Sentry client

Any number of goroutines capture packets. A capture counts itself, prepares its
packet, starts the worker unless it runs, and puts the packet into a queue with
room for a hundred. When there is no room the packet is dropped. One worker takes
the packets out of the queue, has the transport send them, and sends what came of it
to the channel of the capture. Who waits for the client waits until its counter
is zero.

A step is one statement that others can notice. The captures, the worker, the callers
that receive from a channel and the one that closes the client take steps in any
order. The transport and the handler of dropped packets are code of others, which may
take as long as it likes: that such a call comes back is a step of theirs
(`Returns`) and not of the client (`Advance`).
-/

set_option autoImplicit false

namespace DawnPatrol.Raven

open Go

/-- `MaxQueueBuffer`. -/
def maxQueueBuffer : ℕ := 100

/-- `ErrPacketDropped`. -/
def errPacketDropped : GoError := .other "raven: packet dropped"

/-! ## States -/

/-- How a capture fails itself. -/
inductive Failure where
  | preparing (e : GoError)
  | dropped (packet : Packet)

/-- What a capture that fails sends to its channel. -/
def Failure.error : Failure → GoError
  | preparing e => e
  | dropped _ => errPacketDropped

/-- Where a capture is. One that is `dropping` has called the handler of dropped packets. It
has returned when it was refused, has failed or has queued its packet. -/
inductive Stage where
  | counted (given : Packet)
  | ready (packet : Packet)
  | queueing (packet : Packet)
  | dropping (packet : Packet)
  | answering (failure : Failure)
  | finishing (failure : Failure)
  | panicked (packet : Packet)
  | refused
  | failed (failure : Failure)
  | queued (packet : Packet)

/-- The identifier that a capture returns. A caller that waits for its channel does so
when there is one. -/
def Stage.eventID : Stage → String
  | failed (.dropped packet) => packet.eventID
  | queued packet => packet.eventID
  | _ => ""

/-- What a capture has sent to its channel itself. -/
def Stage.own : Stage → List (Option GoError)
  | finishing failure => [some failure.error]
  | failed failure => [some failure.error]
  | _ => []

/-- Whether the client counts a capture, besides what is in its queue. -/
def Stage.isCounted : Stage → Bool
  | refused => false
  | failed _ => false
  | queued _ => false
  | _ => true

def Stage.isPanicked : Stage → Bool
  | panicked _ => true
  | _ => false

/-- The failure of a capture. -/
def Stage.failure : Stage → Option Failure
  | dropping packet => some (.dropped packet)
  | answering failure => some failure
  | finishing failure => some failure
  | failed failure => some failure
  | _ => none

/-- The packet that a capture has prepared. -/
def Stage.prepared : Stage → Option Packet
  | ready packet => some packet
  | queueing packet => some packet
  | dropping packet => some packet
  | panicked packet => some packet
  | queued packet => some packet
  | answering (.dropped packet) => some packet
  | finishing (.dropped packet) => some packet
  | failed (.dropped packet) => some packet
  | _ => none

/-- A call of `Capture`: its packet and tags, its stage, what its channel has been sent,
and how much of it has been received. -/
structure Call where
  packet : Option Packet
  captureTags : List Tag
  stage : Stage
  answers : List (Option GoError) := []
  received : ℕ := 0

/-- Whether the channel of a call has room: it is made for one value. -/
def Call.HasRoom (call : Call) : Prop := call.answers.length - call.received < 1

/-- A packet in the queue, with the number of its call. -/
structure Outgoing where
  call : ℕ
  packet : Packet

/-- A packet that the transport was given, with what it returned. -/
structure Sent where
  outgoing : Outgoing
  result : Option GoError

/-- Where the worker is. One that is `sending` has called the transport. -/
inductive Worker where
  | notStarted
  | receiving
  | sending (outgoing : Outgoing)
  | answering (sent : Sent)
  | finishing
  | ended

/-- The client. `accepted` and `sent` record what the queue and the transport have taken. -/
structure State where
  calls : List Call := []
  worker : Worker := .notStarted
  queue : List Outgoing := []
  closed : Bool := false
  wg : ℤ := 0
  accepted : List Outgoing := []
  sent : List Sent := []

/-- A call goes on. -/
def State.put (s : State) (i : ℕ) (call : Call) : State := { s with calls := s.calls.set i call }

/-- The start of `Capture`, up to the counter. -/
def State.capture (client : Client) (s : State) (packet : Option Packet) (captureTags : List Tag)
    (draw : ℚ) : State :=
  match client.admits packet draw with
  | none => { s with calls := s.calls ++ [⟨packet, captureTags, .refused, [], 0⟩] }
  | some given =>
      { s with
        calls := s.calls ++ [⟨packet, captureTags, .counted given, [], 0⟩]
        wg := s.wg + 1 }

/-- What `packet.Init` leads to. -/
def Stage.ofPrepared : Except GoError Packet → Stage
  | .ok packet => .ready packet
  | .error e => .answering (.preparing e)

/-- What becomes of a packet for which there is no room. -/
def Stage.ofDropped (client : Client) (packet : Packet) : Stage :=
  if client.hasDropHandler then .dropping packet else .answering (.dropped packet)

/-- The worker once it is started. -/
def Worker.start : Worker → Worker
  | notStarted => receiving
  | worker => worker

/-! ## Steps -/

/-- A statement of a capture or of the worker. -/
inductive Advance (client : Client) (s : State) : State → Prop where
  | prepare {i : ℕ} {call : Call} {given : Packet} (uuid : Except GoError String) (now : Time)
      (here : s.calls[i]? = some call) (stage : call.stage = .counted given) :
      Advance client s (s.put i { call with
        stage := .ofPrepared (client.prepare call.captureTags uuid now given) })
  | start {i : ℕ} {call : Call} {packet : Packet}
      (here : s.calls[i]? = some call) (stage : call.stage = .ready packet) :
      Advance client s { s.put i { call with stage := .queueing packet } with
        worker := s.worker.start }
  | enqueue {i : ℕ} {call : Call} {packet : Packet}
      (here : s.calls[i]? = some call) (stage : call.stage = .queueing packet)
      (isOpen : s.closed = false) (room : s.queue.length < maxQueueBuffer) :
      Advance client s { s.put i { call with stage := .queued packet } with
        queue := s.queue ++ [⟨i, packet⟩]
        accepted := s.accepted ++ [⟨i, packet⟩] }
  | drop {i : ℕ} {call : Call} {packet : Packet}
      (here : s.calls[i]? = some call) (stage : call.stage = .queueing packet)
      (isOpen : s.closed = false) (full : ¬ s.queue.length < maxQueueBuffer) :
      Advance client s (s.put i { call with stage := .ofDropped client packet })
  | panic {i : ℕ} {call : Call} {packet : Packet}
      (here : s.calls[i]? = some call) (stage : call.stage = .queueing packet)
      (isClosed : s.closed = true) :
      Advance client s (s.put i { call with stage := .panicked packet })
  | answer {i : ℕ} {call : Call} {failure : Failure}
      (here : s.calls[i]? = some call) (stage : call.stage = .answering failure)
      (room : call.HasRoom) :
      Advance client s (s.put i { call with
        stage := .finishing failure
        answers := call.answers ++ [some failure.error] })
  | done {i : ℕ} {call : Call} {failure : Failure}
      (here : s.calls[i]? = some call) (stage : call.stage = .finishing failure) :
      Advance client s { s.put i { call with stage := .failed failure } with wg := s.wg - 1 }
  | receive {outgoing : Outgoing} {queue : List Outgoing}
      (idle : s.worker = .receiving) (waiting : s.queue = outgoing :: queue) :
      Advance client s { s with worker := .sending outgoing, queue }
  | finish (idle : s.worker = .receiving) (empty : s.queue = []) (isClosed : s.closed = true) :
      Advance client s { s with worker := .ended }
  | deliver {sent : Sent} {call : Call} (busy : s.worker = .answering sent)
      (here : s.calls[sent.outgoing.call]? = some call) (room : call.HasRoom) :
      Advance client s { s.put sent.outgoing.call { call with
        answers := call.answers ++ [sent.result] } with worker := .finishing }
  | countDown (busy : s.worker = .finishing) :
      Advance client s { s with worker := .receiving, wg := s.wg - 1 }

/-- The transport, or the handler of dropped packets, returns. -/
inductive Returns (client : Client) (s : State) : State → Prop where
  | send {outgoing : Outgoing} (posted : Option GoError) (busy : s.worker = .sending outgoing) :
      Returns client s { s with
        worker := .answering ⟨outgoing, client.send posted⟩
        sent := s.sent ++ [⟨outgoing, client.send posted⟩] }
  | dropHandler {i : ℕ} {call : Call} {packet : Packet}
      (here : s.calls[i]? = some call) (stage : call.stage = .dropping packet) :
      Returns client s (s.put i { call with stage := .answering (.dropped packet) })

/-- A caller receives from the channel of a call. -/
inductive Receives (s : State) : State → Prop where
  | receive {i : ℕ} {call : Call} (here : s.calls[i]? = some call)
      (some : call.received < call.answers.length) :
      Receives s (s.put i { call with received := call.received + 1 })

/-- Somebody captures a packet, or closes the client. -/
inductive Enters (client : Client) (s : State) : State → Prop where
  | capture (packet : Option Packet) (captureTags : List Tag) (draw : ℚ) :
      Enters client s (s.capture client packet captureTags draw)
  | close (isOpen : s.closed = false) : Enters client s { s with closed := true }

/-- A step of the client, or of what it has called. -/
def Proceeds (client : Client) (s t : State) : Prop := Advance client s t ∨ Returns client s t

/-- Any step of anybody. -/
def Step (client : Client) (s t : State) : Prop :=
  Proceeds client s t ∨ Receives s t ∨ Enters client s t

/-- The states of a client that starts without calls. -/
def Reached (client : Client) (s : State) : Prop :=
  Relation.ReflTransGen (Step client) {} s

end DawnPatrol.Raven
