import DawnPatrol.Go.Time
import DawnPatrol.Go.Values
import Mathlib.Data.Rat.Defs

/-!
# Packets of the Sentry client

A packet that is captured is prepared before it is queued: it gets the tags of the
call, of the client and of its context, and what the caller has left empty of the
fields that Sentry wants is filled from the client, or with a default
(`Client.prepare`).
The packet is complete then (`Prepared.complete`).
-/

set_option autoImplicit false

namespace DawnPatrol.Raven

open Go

/-! ## Packets and clients -/

structure Tag where
  key : String
  value : String

/-- A packet. An empty text is a field that is not set, and so is a `none` for the
timestamp. The interfaces are given by what their `Culprit` returns, if they are
`Culpriter`s. -/
structure Packet where
  message : String
  eventID : String := ""
  project : String := ""
  timestamp : Option Time := none
  level : String := ""
  logger : String := ""
  platform : String := ""
  culprit : String := ""
  serverName : String := ""
  release : String := ""
  environment : String := ""
  tags : List Tag := []
  interfaces : List (Option String) := []

/-- `NewPacket`. -/
def newPacket (message : String) (interfaces : List (Option String)) : Packet where
  message := message
  interfaces := interfaces

/-- What a capture reads of its client: the tags in the order in which the maps are
ranged over, the expression of the errors to ignore, the name of the host, and
whether there is a handler of dropped packets. -/
structure Client where
  tags : List Tag := []
  contextTags : List Tag := []
  url : String := ""
  projectID : String := ""
  release : String := ""
  environment : String := ""
  sampleRate : ℚ := 1
  defaultLoggerName : String := ""
  ignoreErrors : Option (String → Bool) := none
  hostname : String := ""
  hasDropHandler : Bool := false

/-! ## Preparing a packet -/

/-- `Packet.AddTags`. -/
def Packet.addTags (packet : Packet) (tags : List Tag) : Packet :=
  { packet with tags := packet.tags ++ tags }

/-- A field as it is, or what it is set to when it is empty. -/
def orElse (field other : String) : String := if field = "" then other else field

/-- `Packet.Init`. The first culprit that is not empty is taken. -/
def Packet.init (packet : Packet) (project hostname : String) (uuid : Except GoError String)
    (now : Time) : Except GoError Packet :=
  (if packet.eventID = "" then uuid else .ok packet.eventID).map fun eventID =>
    { packet with
      project := orElse packet.project project
      eventID
      timestamp := packet.timestamp.or (some now)
      level := orElse packet.level "error"
      logger := orElse packet.logger "root"
      serverName := orElse packet.serverName hostname
      platform := orElse packet.platform "go"
      culprit := orElse packet.culprit
        (((packet.interfaces.filterMap id).find? fun culprit => culprit ≠ "").getD "") }

/-- What `Client.Capture` makes of a packet before it queues it. -/
def Client.prepare (client : Client) (captureTags : List Tag) (uuid : Except GoError String)
    (now : Time) (packet : Packet) : Except GoError Packet :=
  let packet := ((packet.addTags captureTags).addTags client.tags).addTags client.contextTags
  let packet := { packet with logger := orElse packet.logger client.defaultLoggerName }
  (packet.init client.projectID client.hostname uuid now).map fun packet =>
    { packet with
      release := orElse packet.release client.release
      environment := orElse packet.environment client.environment }

/-- `Client.shouldExcludeErr`. -/
def Client.shouldExcludeErr (client : Client) (message : String) : Bool :=
  match client.ignoreErrors with
  | some expression => expression message
  | none => false

/-- The packet that a capture goes on with. It is sampled before it is looked at. -/
def Client.admits (client : Client) (packet : Option Packet) (draw : ℚ) : Option Packet :=
  if client.sampleRate < 1 ∧ client.sampleRate < draw then none
  else packet.filter fun packet => !client.shouldExcludeErr packet.message

/-- `HTTPTransport.Send`: nothing is posted without a URL. -/
def Client.send (client : Client) (posted : Option GoError) : Option GoError :=
  if client.url = "" then none else posted

/-! ## Prepared packets -/

/-- A packet is what a call has prepared of the one it was given. -/
def Prepared (client : Client) (captureTags : List Tag) (given packet : Packet) : Prop :=
  ∃ uuid now, client.prepare captureTags uuid now given = .ok packet

theorem orElse_ne_empty {field other : String} (some : other ≠ "") : orElse field other ≠ "" := by
  unfold orElse
  split
  · exact some
  · assumption

/-- **A prepared packet is complete**: what Sentry wants to know is set. -/
theorem Prepared.complete {client : Client} {captureTags : List Tag} {given packet : Packet}
    (prepared : Prepared client captureTags given packet) :
    packet.timestamp ≠ none ∧ packet.level ≠ "" ∧ packet.logger ≠ "" ∧ packet.platform ≠ "" := by
  obtain ⟨uuid, now, ready⟩ := prepared
  unfold Client.prepare Packet.init at ready
  dsimp only [Packet.addTags] at ready
  split at ready
  · cases uuid with
    | error e => cases ready
    | ok uuid =>
        cases ready
        exact ⟨by cases given.timestamp <;> simp, orElse_ne_empty (by decide),
          orElse_ne_empty (by decide), orElse_ne_empty (by decide)⟩
  · cases ready
    exact ⟨by cases given.timestamp <;> simp, orElse_ne_empty (by decide),
      orElse_ne_empty (by decide), orElse_ne_empty (by decide)⟩

end DawnPatrol.Raven
