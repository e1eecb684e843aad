import DawnPatrol.Foundation.Ranks
import DawnPatrol.Raven.Accounts

/-!
# What becomes of captured packets

The client loses no packet, sends none twice, and sends them in the order in which
they were queued. Each call is answered at most once, and its channel has room for the
answer, so that the worker is never held up (`Sound.hasRoom`). When the counter of the
client is zero, whoever waits for it goes on, and every call has been answered: with
the error of its preparation, with the one of a packet that is dropped, or with what
came of sending its packet (`captures_are_answered`).

Whoever waits does not wait forever for the client itself. Without further captures the
client makes no more steps than it has work. Where it can make no step it waits for its
transport or for the handler of dropped packets, which no timeout ends, or its counter
is the number of captures that have panicked, as the client was closed
(`captures_finish`).
-/

set_option autoImplicit false

namespace DawnPatrol.Raven

open Foundation Go

variable {client : Client} {s t : State} {i : ℕ} {call : Call}

/-! ## What has become of a call -/

theorem filter_call_length {sent : List Sent} (distinct : (sent.map (·.outgoing.call)).Nodup)
    (i : ℕ) : (sent.filter fun sent => sent.outgoing.call = i).length ≤ 1 := by
  have counted := List.nodup_iff_count_le_one.mp distinct i
  rw [List.count_eq_countP, List.countP_map] at counted
  rw [← List.countP_eq_length_filter]
  exact counted

theorem Sound.distinct_sent (sound : Sound client s) :
    (s.sent.map (·.outgoing.call)).Nodup := by
  have distinct := sound.distinct
  rw [sound.order, List.map_append, List.map_map] at distinct
  exact distinct.of_append_left

theorem delivered_sublist (s : State) : List.Sublist s.delivered s.sent := by
  unfold State.delivered
  split
  · exact List.dropLast_sublist _
  · exact List.Sublist.refl _

/-- **A call is answered at most once.** -/
theorem Sound.answers_length (sound : Sound client s) (here : s.calls[i]? = some call) :
    call.answers.length ≤ 1 := by
  by_cases queued : ∃ packet, call.stage = .queued packet
  · obtain ⟨packet, stage⟩ := queued
    have distinct := sound.distinct_sent.sublist ((delivered_sublist s).map _)
    have answers := (sound.calls i call here).answers
    rw [stage] at answers
    rw [answers]
    simpa [Stage.own, resultsFor] using filter_call_length distinct i
  · rw [sound.answers_eq_own here fun packet stage => queued ⟨packet, stage⟩]
    cases call.stage <;> simp [Stage.own]

/-- **The worker is never held up**: there is room for the answer that it delivers. -/
theorem Sound.hasRoom (sound : Sound client s) {sent : Sent} (busy : s.worker = .answering sent) :
    ∃ call, s.calls[sent.outgoing.call]? = some call ∧ call.HasRoom := by
  have member : sent ∈ s.sent := by
    rw [sound.sent_eq busy]
    exact List.mem_append_right _ List.mem_cons_self
  obtain ⟨call, here, stage⟩ := sound.call_of_sent member
  have answers := (sound.calls _ call here).answers
  rw [stage, sound.undelivered busy] at answers
  refine ⟨call, here, ?_⟩
  rw [Call.HasRoom, answers]
  exact Nat.lt_of_le_of_lt (Nat.sub_le _ _) Nat.zero_lt_one

/-- What has become of a call when the client counts nothing. -/
inductive Answered (client : Client) (s : State) (i : ℕ) (call : Call) : Prop where
  | refused (stage : call.stage = .refused) (answers : call.answers = [])
  | preparing {e : GoError} (stage : call.stage = .failed (.preparing e))
      (answers : call.answers = [some e]) (unsent : ∀ sent ∈ s.sent, sent.outgoing.call ≠ i)
  | dropped {packet : Packet} (stage : call.stage = .failed (.dropped packet))
      (answers : call.answers = [some errPacketDropped])
      (unsent : ∀ sent ∈ s.sent, sent.outgoing.call ≠ i)
      (full : maxQueueBuffer ≤ s.accepted.length)
  | sent {given packet : Packet} {result : Option GoError} (stage : call.stage = .queued packet)
      (answers : call.answers = [result])
      (once : s.sent.filter (fun sent => sent.outgoing.call = i) = [⟨⟨i, packet⟩, result⟩])
      (captured : call.packet = some given)
      (prepared : Prepared client call.captureTags given packet)

theorem Sound.unsent (sound : Sound client s) (here : s.calls[i]? = some call)
    (notQueued : ∀ packet, call.stage ≠ .queued packet) :
    ∀ sent ∈ s.sent, sent.outgoing.call ≠ i := by
  rintro sent member rfl
  obtain ⟨other, found, stage⟩ := sound.call_of_sent member
  rw [here] at found
  cases found
  exact notQueued _ stage

/-- The transport was given the packet of a call once, when none is pending. -/
theorem Sound.sent_once (sound : Sound client s) (pending : s.pending = []) {packet : Packet}
    (here : s.calls[i]? = some call) (stage : call.stage = .queued packet) :
    ∃ result, s.sent.filter (fun sent => sent.outgoing.call = i) = [⟨⟨i, packet⟩, result⟩] := by
  have accepted : (⟨i, packet⟩ : Outgoing) ∈ s.accepted := by
    rw [sound.queued, State.stageAt, here, ← stage]
    rfl
  rw [sound.order, pending, List.append_nil] at accepted
  obtain ⟨sent, member, outgoing⟩ := List.mem_map.mp accepted
  have found : sent ∈ s.sent.filter fun sent => sent.outgoing.call = i :=
    List.mem_filter.mpr ⟨member, by simp [outgoing]⟩
  have short := filter_call_length sound.distinct_sent i
  have whole : sent = ⟨⟨i, packet⟩, sent.result⟩ := by rw [← outgoing]
  refine ⟨sent.result, ?_⟩
  rw [← whole]
  generalize s.sent.filter (fun sent => sent.outgoing.call = i) = mine at found short ⊢
  cases mine with
  | nil => cases found
  | cons other rest =>
      have alone : rest = [] := List.length_eq_zero_iff.mp (by simpa using short)
      rw [alone] at found ⊢
      rw [List.mem_singleton.mp found]

theorem Sound.answered (sound : Sound client s) (zero : s.wg = 0) (here : s.calls[i]? = some call) :
    Answered client s i call := by
  have counter := sound.counter
  have counted : s.counted = 0 := by omega
  have queue : s.queue = [] := List.length_eq_zero_iff.mp (by omega)
  have load : s.worker.load = 0 := by omega
  have inOrder := sound.calls i call here
  have returned : call.stage.isCounted = false := by
    have none := List.countP_eq_zero.mp counted call (List.mem_of_getElem? here)
    simpa using none
  cases stage : call.stage with
  | refused =>
      exact .refused stage (by rw [sound.answers_eq_own here (by simp [stage]), stage]; rfl)
  | failed failure =>
      have answers := sound.answers_eq_own here (by simp [stage])
      have unsent := sound.unsent here (by simp [stage])
      rw [stage] at answers
      cases failure with
      | preparing e => exact .preparing stage answers unsent
      | dropped packet =>
          exact .dropped stage answers unsent (inOrder.full packet (by rw [stage]; rfl))
  | queued packet =>
      have held : s.worker.held = [] ∧ s.delivered = s.sent := by
        rw [State.delivered]
        cases worker : s.worker with
        | sending outgoing => rw [worker] at load; cases load
        | answering sent => rw [worker] at load; cases load
        | _ => exact ⟨rfl, rfl⟩
      have pending : s.pending = [] := by rw [State.pending, held.1, queue]; rfl
      obtain ⟨result, once⟩ := sound.sent_once pending here stage
      obtain ⟨given, captured, prepared⟩ := inOrder.prepared packet (by rw [stage]; rfl)
      have answers := inOrder.answers
      rw [stage, held.2, resultsFor, once] at answers
      exact .sent stage answers once captured prepared
  | _ =>
      rw [stage] at returned
      cases returned

/-- **Captures are answered.** In every run, the queue keeps its bound, the transport is
given each accepted packet once and in order, and no call is answered twice. When the
counter is zero, every call has been answered. -/
theorem captures_are_answered (reached : Reached client s) :
    (0 ≤ s.wg ∧ s.queue.length ≤ maxQueueBuffer) ∧
      (s.accepted = s.sent.map Sent.outgoing ++ s.pending ∧
        (s.accepted.map Outgoing.call).Nodup) ∧
      (∀ (i : ℕ) (call : Call), s.calls[i]? = some call → call.answers.length ≤ 1) ∧
      (s.wg = 0 → ∀ (i : ℕ) (call : Call), s.calls[i]? = some call → Answered client s i call) := by
  have sound := reached.sound
  have counter := sound.counter
  refine ⟨⟨by omega, sound.room⟩, ⟨sound.order, sound.distinct⟩, ?_, ?_⟩
  · intro i call here
    exact sound.answers_length here
  · intro zero i call here
    exact sound.answered zero here

/-! ## Waiting ends -/

/-- The steps that a call and its packet can still make, at most. -/
def Stage.work : Stage → ℕ
  | counted _ => 7
  | ready _ => 6
  | queueing _ => 5
  | dropping _ => 3
  | answering _ => 2
  | finishing _ => 1
  | _ => 0

/-- The steps that the worker can still make, at most. -/
def Worker.work : Worker → ℕ
  | notStarted => 1
  | receiving => 1
  | sending _ => 4
  | answering _ => 3
  | finishing => 2
  | ended => 0

def totalWork : List Call → ℕ
  | [] => 0
  | call :: calls => call.stage.work + totalWork calls

/-- The steps that the client can still make, at most. -/
def State.work (s : State) : ℕ := totalWork s.calls + 4 * s.queue.length + s.worker.work

/-- The captures that have panicked, as the client was closed. -/
def State.panicked (s : State) : ℕ := s.calls.countP fun call => call.stage.isPanicked

theorem totalWork_set {calls : List Call} (here : calls[i]? = some call) (next : Call) :
    totalWork (calls.set i next) + call.stage.work = totalWork calls + next.stage.work := by
  induction calls generalizing i with
  | nil => cases here
  | cons first calls ih =>
      cases i with
      | zero =>
          cases here
          simp only [List.set_cons_zero, totalWork]
          omega
      | succ i =>
          have rest := ih here
          simp only [List.set_cons_succ, totalWork]
          omega

theorem Worker.work_start (worker : Worker) : worker.start.work = worker.work := by
  cases worker <;> rfl

theorem Stage.work_ofPrepared (result : Except GoError Packet) :
    (Stage.ofPrepared result).work < 7 := by
  cases result with
  | ok packet => exact Nat.le_refl 7
  | error e => exact Nat.le_add_right 3 4

theorem work_put (here : s.calls[i]? = some call) (next : Call) :
    (s.put i next).work + call.stage.work = s.work + next.stage.work := by
  have changed := totalWork_set here next
  simp only [State.work, State.put]
  omega

/-- A call that goes on lowers the work by its own. -/
theorem lowers_of_put (here : s.calls[i]? = some call) {next : Call}
    (lower : next.stage.work < call.stage.work) : (s.put i next).work < s.work := by
  have changed := work_put here next
  omega

/-- **Every statement lowers the work.** -/
theorem Advance.lowers (advance : Advance client s t) : t.work < s.work := by
  cases advance with
  | prepare uuid now here stage =>
      refine lowers_of_put here ?_
      rw [stage]
      exact Stage.work_ofPrepared _
  | start here stage =>
      rename_i i call packet
      have lower : (s.put i { call with stage := .queueing packet }).work < s.work :=
        lowers_of_put here (by simp [stage, Stage.work])
      simp only [State.work, State.put, Worker.work_start] at lower ⊢
      exact lower
  | enqueue here stage isOpen room =>
      rename_i i call packet
      have changed := work_put here { call with stage := .queued packet }
      rw [stage] at changed
      simp only [State.work, State.put, Stage.work, List.length_append, List.length_singleton]
        at changed ⊢
      omega
  | drop here stage isOpen full =>
      rename_i i call packet
      refine lowers_of_put here ?_
      change (Stage.ofDropped client packet).work < _
      rw [stage, Stage.ofDropped]
      split <;> simp [Stage.work]
  | panic here stage isClosed => exact lowers_of_put here (by simp [stage, Stage.work])
  | answer here stage room => exact lowers_of_put here (by simp [stage, Stage.work])
  | done here stage => exact lowers_of_put here (by simp [stage, Stage.work])
  | receive idle waiting =>
      simp only [State.work, idle, waiting, Worker.work, List.length_cons]
      omega
  | finish idle empty isClosed => simp [State.work, idle, Worker.work]
  | deliver busy here room =>
      rename_i sent call
      have changed := work_put here { call with answers := call.answers ++ [sent.result] }
      simp only [State.work, State.put, busy, Worker.work] at changed ⊢
      omega
  | countDown busy => simp [State.work, busy, Worker.work]

/-- What returns lowers the work, too. -/
theorem Proceeds.lowers (proceeds : Proceeds client s t) : t.work < s.work := by
  obtain advance | returns := proceeds
  · exact advance.lowers
  · cases returns with
    | send posted busy => simp [State.work, busy, Worker.work]
    | dropHandler here stage => exact lowers_of_put here (by simp [stage, Stage.work])

/-- Who receives from a channel leaves the work alone. -/
theorem Receives.leaves (receives : Receives s t) : t.work ≤ s.work := by
  cases receives with
  | receive here some =>
      rename_i i call
      exact Nat.le_of_add_le_add_right
        (work_put here { call with received := call.received + 1 }).le

/-- The worker has called the transport, which has not returned. -/
def State.InTransport (s : State) : Prop := ∃ outgoing, s.worker = .sending outgoing

/-- A capture has called the handler of dropped packets, which has not returned. -/
def State.InDropHandler (s : State) : Prop :=
  ∃ (i : ℕ) (call : Call) (packet : Packet),
    s.calls[i]? = some call ∧ call.stage = .dropping packet

/-- A worker that can make no step is in the transport, or is not busy and leaves nothing
in the queue. -/
theorem Sound.idle_of_stuck (sound : Sound client s) (stuck : ∀ t, ¬ Advance client s t) :
    s.InTransport ∨ s.queue = [] ∧ s.worker.load = 0 := by
  cases worker : s.worker with
  | notStarted => exact .inr ⟨sound.idle worker, rfl⟩
  | receiving =>
      cases queue : s.queue with
      | nil => exact .inr ⟨rfl, rfl⟩
      | cons outgoing rest => exact absurd (Advance.receive worker queue) (stuck _)
  | sending outgoing => exact .inl ⟨outgoing, worker⟩
  | answering sent =>
      obtain ⟨call, here, room⟩ := sound.hasRoom worker
      exact absurd (Advance.deliver worker here room) (stuck _)
  | finishing => exact absurd (Advance.countDown worker) (stuck _)
  | ended => exact .inr ⟨(sound.ended worker).1, rfl⟩

/-- A capture that can make no step is in the handler of dropped packets, or has returned
or panicked. -/
theorem Sound.stage_of_stuck (sound : Sound client s) (stuck : ∀ t, ¬ Advance client s t)
    (here : s.calls[i]? = some call) :
    s.InDropHandler ∨ call.stage.isCounted = call.stage.isPanicked := by
  cases stage : call.stage with
  | counted given =>
      exact absurd (Advance.prepare (.error .recordNotFound) Time.zero here stage) (stuck _)
  | ready packet => exact absurd (Advance.start here stage) (stuck _)
  | queueing packet =>
      -- with room or without, an open client goes on
      cases closed : s.closed with
      | true => exact absurd (Advance.panic here stage closed) (stuck _)
      | false =>
          by_cases room : s.queue.length < maxQueueBuffer
          · exact absurd (Advance.enqueue here stage closed room) (stuck _)
          · exact absurd (Advance.drop here stage closed room) (stuck _)
  | dropping packet => exact .inl ⟨i, call, packet, here, stage⟩
  | answering failure =>
      have answers := sound.answers_eq_own here (by simp [stage])
      rw [stage] at answers
      refine absurd (Advance.answer here stage ?_) (stuck _)
      rw [Call.HasRoom, answers]
      exact Nat.lt_of_le_of_lt (Nat.sub_le _ _) Nat.zero_lt_one
  | finishing failure => exact absurd (Advance.done here stage) (stuck _)
  | _ => exact .inr rfl

/-- **Where the client can make no step**, it waits for what it has called, or counts the
captures that have panicked. -/
theorem Sound.wg_of_stuck (sound : Sound client s) (stuck : ∀ t, ¬ Advance client s t) :
    s.InTransport ∨ s.InDropHandler ∨ s.wg = s.panicked := by
  by_cases handling : s.InDropHandler
  · exact .inr (.inl handling)
  obtain sending | ⟨empty, load⟩ := sound.idle_of_stuck stuck
  · exact .inl sending
  refine .inr (.inr ?_)
  have counted : s.counted = s.panicked := by
    refine List.countP_congr fun call member => ?_
    obtain ⟨i, here⟩ := List.getElem?_of_mem member
    rw [(sound.stage_of_stuck stuck here).resolve_left handling]
  have counter := sound.counter
  rw [empty, load] at counter
  simp only [List.length_nil] at counter
  omega

theorem panicked_put (here : s.calls[i]? = some call) {next : Call}
    (same : next.stage.isPanicked = call.stage.isPanicked) :
    (s.put i next).panicked = s.panicked := by
  have changed := countP_set_call (fun call => call.stage.isPanicked) here next
  simp only [same] at changed
  exact Nat.add_right_cancel changed

/-- **No capture panics while the client is open.** -/
theorem Step.of_open (step : Step client s t) (isOpen : t.closed = false) :
    s.closed = false ∧ t.panicked = s.panicked := by
  obtain (advance | returns) | receives | enters := step
  · cases advance with
    | prepare uuid now here stage =>
        rename_i i call given
        refine ⟨isOpen, panicked_put here ?_⟩
        rw [stage]
        cases client.prepare call.captureTags uuid now given <;> rfl
    | panic here stage isClosed =>
        have stillOpen : s.closed = false := isOpen
        rw [isClosed] at stillOpen
        cases stillOpen
    | start here stage => exact ⟨isOpen, panicked_put here (by rw [stage]; rfl)⟩
    | enqueue here stage _ _ => exact ⟨isOpen, panicked_put here (by rw [stage]; rfl)⟩
    | drop here stage _ _ =>
        refine ⟨isOpen, panicked_put here ?_⟩
        rw [stage, Stage.ofDropped]
        split <;> rfl
    | answer here stage _ => exact ⟨isOpen, panicked_put here (by rw [stage]; rfl)⟩
    | done here stage => exact ⟨isOpen, panicked_put here (by rw [stage]; rfl)⟩
    | deliver _ here _ => exact ⟨isOpen, panicked_put here rfl⟩
    | receive _ _ => exact ⟨isOpen, rfl⟩
    | finish _ _ _ => exact ⟨isOpen, rfl⟩
    | countDown _ => exact ⟨isOpen, rfl⟩
  · cases returns with
    | send _ _ => exact ⟨isOpen, rfl⟩
    | dropHandler here stage => exact ⟨isOpen, panicked_put here (by rw [stage]; rfl)⟩
  · cases receives with
    | receive here _ => exact ⟨isOpen, panicked_put here rfl⟩
  · cases enters with
    | capture packet captureTags draw =>
        unfold State.capture at isOpen ⊢
        split
        · rename_i refused
          rw [refused] at isOpen
          exact ⟨isOpen, by simp [State.panicked, Stage.isPanicked]⟩
        · rename_i given admitted
          rw [admitted] at isOpen
          exact ⟨isOpen, by simp [State.panicked, Stage.isPanicked]⟩
    | close _ => cases isOpen

theorem Reached.panicked_eq_zero (reached : Reached client s) (isOpen : s.closed = false) :
    s.panicked = 0 := by
  induction reached with
  | refl => rfl
  | tail _ step ih =>
      obtain ⟨before, same⟩ := step.of_open isOpen
      rw [same]
      exact ih before

/-- What others do without capturing: they receive, or close the client. -/
inductive Aside (s : State) : State → Prop where
  | receives {t : State} (receives : Receives s t) : Aside s t
  | closes (isOpen : s.closed = false) : Aside s { s with closed := true }

theorem Aside.leaves (aside : Aside s t) : t.work ≤ s.work := by
  cases aside with
  | receives receives => exact receives.leaves
  | closes _ => exact Nat.le_refl s.work

/-- A run without further captures leads to states that are reached. -/
theorem Reached.counted {n : ℕ} (reached : Reached client s)
    (ran : Counted (Proceeds client) Aside n s t) : Reached client t := by
  refine ran.keeps (fun _ _ earlier proceeds => earlier.tail (.inl proceeds)) ?_ reached
  intro before after earlier aside
  cases aside with
  | receives receives => exact earlier.tail (.inr (.inl receives))
  | closes isOpen => exact earlier.tail (.inr (.inr (.close isOpen)))

/-- **Captures finish**, unless the transport or the handler of dropped packets does not
return. Without further captures the client and these make no more steps than the client
has work. Where the client can make none it is in the transport or in the handler, or all
that it still counts are the captures that have panicked, and nothing if it is open. -/
theorem captures_finish {n : ℕ} (reached : Reached client s)
    (ran : Counted (Proceeds client) Aside n s t) :
    n + t.work ≤ s.work ∧
      ((∀ u, ¬ Advance client t u) → t.InTransport ∨ t.InDropHandler ∨
        t.wg = t.panicked ∧ (t.closed = false → t.wg = 0)) := by
  constructor
  · exact @Counted.bounded State (Proceeds client) Aside (fun _ => True)
      (fun _ _ _ _ => trivial) (fun _ _ _ _ => trivial) State.work
      (fun _ _ _ proceeds => proceeds.lowers) (fun _ _ _ aside => aside.leaves) n s t ran trivial
  · intro stuck
    have later := reached.counted ran
    refine (later.sound.wg_of_stuck stuck).imp_right (Or.imp_right fun counts => ⟨counts, ?_⟩)
    intro isOpen
    rw [counts, later.panicked_eq_zero isOpen]
    rfl

/-- The error of a request. -/
def reported : Packet := newPacket "record not found" []

/-- A client that has begun to capture it. -/
def reporting : State := State.capture {} {} (some reported) [] 0

theorem reporting_reached : Reached {} reporting :=
  Relation.ReflTransGen.single (.inr (.inr (.capture (some reported) [] 0)))

/-- The packet is prepared, queued and sent, and the capture is answered. -/
theorem reporting_runs : ∃ t, Counted (Proceeds {}) Aside 7 reporting t ∧ t.wg = 0 ∧
    t.calls.length = 1 := by
  have begun : Counted (Proceeds {}) Aside 0 reporting reporting := .refl reporting
  have prepared := begun.step (.inl <| @Advance.prepare {} _ 0 _ _ (.ok "event") Time.zero rfl rfl)
  have started := prepared.step (.inl <| @Advance.start {} _ 0 _ _ rfl rfl)
  have queued := started.step (.inl <| @Advance.enqueue {} _ 0 _ _ rfl rfl rfl (by decide))
  have received := queued.step (.inl <| @Advance.receive {} _ _ _ rfl rfl)
  have sent := received.step (.inr <| @Returns.send {} _ _ none rfl)
  have delivered := sent.step (.inl <| @Advance.deliver {} _ _ _ rfl rfl Nat.zero_lt_one)
  have counted := delivered.step (.inl <| @Advance.countDown {} _ rfl)
  exact ⟨_, counted, rfl, rfl⟩

theorem reported_is_answered : ∃ t, Reached {} t ∧ t.wg = 0 ∧ t.calls.length = 1 ∧
    ∀ (i : ℕ) (call : Call), t.calls[i]? = some call → Answered {} t i call := by
  obtain ⟨t, ran, zero, one⟩ := reporting_runs
  have reached := reporting_reached.counted ran
  exact ⟨t, reached, zero, one, (captures_are_answered reached).2.2.2 zero⟩

theorem reporting_finishes : ∃ t, Counted (Proceeds {}) Aside 7 reporting t ∧
    7 + t.work ≤ reporting.work := by
  obtain ⟨t, ran, -⟩ := reporting_runs
  exact ⟨t, ran, (captures_finish reporting_reached ran).1⟩

end DawnPatrol.Raven
