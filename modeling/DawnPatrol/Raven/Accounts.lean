import DawnPatrol.Raven.Captures

/-!
# The accounts of the Sentry client

What the client counts are the captures that have not returned, the packets in its
queue and the one that its worker is busy with. The packets that the queue has taken
are those that the transport was given and those that it was not, in their order, and
they belong to different calls. What a channel was sent is what its capture sent itself,
and what was delivered of what the transport returned.

These accounts are right at the start, and every step keeps them (`Reached.sound`).
-/

set_option autoImplicit false

namespace DawnPatrol.Raven

open Go

variable {client : Client} {s t : State} {i : ℕ} {call : Call}

/-! ## Accounts -/

/-- What the worker still has to count down. -/
def Worker.load : Worker → ℕ
  | sending _ => 1
  | answering _ => 1
  | finishing => 1
  | _ => 0

/-- What the worker has still to give to the transport. -/
def Worker.held : Worker → List Outgoing
  | sending outgoing => [outgoing]
  | _ => []

/-- What the transport has not been given yet. -/
def State.pending (s : State) : List Outgoing := s.worker.held ++ s.queue

/-- What has been sent to a channel of what was sent by the transport. -/
def State.delivered (s : State) : List Sent :=
  match s.worker with
  | .answering _ => s.sent.dropLast
  | _ => s.sent

/-- The results for a call. -/
def resultsFor (i : ℕ) (sent : List Sent) : List (Option GoError) :=
  (sent.filter fun sent => sent.outgoing.call = i).map Sent.result

/-- The stage of a call. -/
def State.stageAt (s : State) (i : ℕ) : Option Stage := s.calls[i]?.map Call.stage

/-- The calls that are counted. -/
def State.counted (s : State) : ℕ := s.calls.countP fun call => call.stage.isCounted

/-- A call is in order, in a state. -/
structure Call.Sound (client : Client) (s : State) (i : ℕ) (call : Call) : Prop where
  answers : call.answers = call.stage.own ++ resultsFor i s.delivered
  given : ∀ given, call.stage = .counted given → call.packet = some given
  prepared : ∀ packet, call.stage.prepared = some packet →
    ∃ given, call.packet = some given ∧ Prepared client call.captureTags given packet
  full : ∀ packet, call.stage.failure = some (.dropped packet) →
    maxQueueBuffer ≤ s.accepted.length
  started : ∀ packet, call.stage = .queueing packet → s.worker ≠ .notStarted

/-- The accounts of a client. -/
structure Sound (client : Client) (s : State) : Prop where
  counter : s.wg = s.counted + s.queue.length + s.worker.load
  order : s.accepted = s.sent.map Sent.outgoing ++ s.pending
  distinct : (s.accepted.map Outgoing.call).Nodup
  room : s.queue.length ≤ maxQueueBuffer
  queued : ∀ i packet, ⟨i, packet⟩ ∈ s.accepted ↔ s.stageAt i = some (.queued packet)
  calls : ∀ i (call : Call), s.calls[i]? = some call → call.Sound client s i
  answering : ∀ sent, s.worker = .answering sent → s.sent.getLast? = some sent
  idle : s.worker = .notStarted → s.queue = []
  ended : s.worker = .ended → s.queue = [] ∧ s.closed = true

/-! ## A call that goes on -/

theorem forall_set {P : ℕ → Call → Prop} {calls : List Call} {i : ℕ}
    (others : ∀ j other, j ≠ i → calls[j]? = some other → P j other) {next : Call}
    (new : P i next) : ∀ j other, (calls.set i next)[j]? = some other → P j other := by
  intro j other found
  rw [List.getElem?_set] at found
  split at found
  · rename_i same
    split at found
    · cases found
      exact same ▸ new
    · cases found
  · rename_i different
    exact others j other (Ne.symm different) found

theorem stageAt_put (here : s.calls[i]? = some call) (next : Call) (j : ℕ) :
    (s.put i next).stageAt j = if i = j then some next.stage else s.stageAt j := by
  obtain ⟨bound, -⟩ := List.getElem?_eq_some_iff.mp here
  rw [State.stageAt, State.put, List.getElem?_set]
  by_cases same : i = j
  · rw [if_pos same, if_pos same, if_pos bound]
    rfl
  · rw [if_neg same, if_neg same]
    rfl

/-- The calls of a kind, when one of them goes on. -/
theorem countP_set_call (kind : Call → Bool) (here : s.calls[i]? = some call) (next : Call) :
    (s.calls.set i next).countP kind + (if kind call then 1 else 0) =
      s.calls.countP kind + if kind next then 1 else 0 := by
  obtain ⟨bound, found⟩ := List.getElem?_eq_some_iff.mp here
  have within := @List.boole_getElem_le_countP _ kind s.calls i bound
  have changed := @List.countP_set _ kind s.calls i next bound
  rw [found] at within changed
  omega

/-- What the counter adds for a call. -/
def Call.weight (call : Call) : ℕ := if call.stage.isCounted then 1 else 0

theorem counted_put (here : s.calls[i]? = some call) (next : Call) :
    (s.put i next).counted + call.weight = s.counted + next.weight :=
  countP_set_call (fun call => call.stage.isCounted) here next

/-- A call stays in order while nothing that concerns it changes. -/
theorem Call.Sound.mono (sound : call.Sound client s i)
    (delivered : resultsFor i t.delivered = resultsFor i s.delivered)
    (accepted : s.accepted.length ≤ t.accepted.length)
    (started : s.worker ≠ .notStarted → t.worker ≠ .notStarted) : call.Sound client t i where
  answers := by rw [delivered, sound.answers]
  given := sound.given
  prepared := sound.prepared
  full packet dropped := (sound.full packet dropped).trans accepted
  started packet queueing := started (sound.started packet queueing)

/-- The accepted packets other than those of a call. -/
theorem queued_put (queued : ∀ i packet, ⟨i, packet⟩ ∈ s.accepted ↔
    s.stageAt i = some (.queued packet)) (here : s.calls[i]? = some call) {next : Call}
    (same : ∀ packet, next.stage = .queued packet ↔ call.stage = .queued packet) (j : ℕ)
    (packet : Packet) : ⟨j, packet⟩ ∈ s.accepted ↔
      (s.put i next).stageAt j = some (.queued packet) := by
  rw [stageAt_put here, queued]
  by_cases this : i = j
  · subst this
    rw [if_pos rfl, State.stageAt, here]
    simpa using (same packet).symm
  · rw [if_neg this]

/-- **The rule of a call that goes on**, neither from the queue nor into it. -/
theorem Sound.put (sound : Sound client s) (here : s.calls[i]? = some call) {next : Call} {wg : ℤ}
    (counter : wg + call.weight = s.wg + next.weight)
    (same : ∀ packet, next.stage = .queued packet ↔ call.stage = .queued packet)
    (inOrder : next.Sound client s i) : Sound client { s.put i next with wg } where
  counter := by
    have changed := counted_put here next
    have counted := sound.counter
    simp only [State.counted, State.put] at changed counted ⊢
    omega
  order := sound.order
  distinct := sound.distinct
  room := sound.room
  queued := queued_put sound.queued here same
  calls := by
    refine forall_set (fun j other _ found => ?_) ?_
    · exact (sound.calls j other found).mono rfl (Nat.le_refl _) id
    · exact inOrder.mono rfl (Nat.le_refl _) id
  answering := sound.answering
  idle := sound.idle
  ended := sound.ended

/-- The rule when the counter is left alone. -/
theorem Sound.move (sound : Sound client s) (here : s.calls[i]? = some call) {next : Call}
    (weight : next.weight = call.weight)
    (same : ∀ packet, next.stage = .queued packet ↔ call.stage = .queued packet)
    (inOrder : next.Sound client s i) : Sound client (s.put i next) :=
  sound.put here (by rw [weight]) same inOrder

/-- A call at its next stage, when it has sent nothing to its channel. -/
theorem Call.Sound.moves (sound : call.Sound client s i) {next : Stage}
    (own : next.own = call.stage.own) (given : ∀ given, next ≠ .counted given)
    (prepared : ∀ packet, next.prepared = some packet →
      ∃ given, call.packet = some given ∧ Prepared client call.captureTags given packet)
    (full : ∀ packet, next.failure = some (.dropped packet) → maxQueueBuffer ≤ s.accepted.length)
    (started : ∀ packet, next = .queueing packet → s.worker ≠ .notStarted) :
    Call.Sound client s i { call with stage := next } where
  answers := by
    rw [sound.answers, own]
  given other counted := absurd counted (given other)
  prepared := prepared
  full := full
  started := started

/-- The same for a stage with the packet that was prepared. -/
theorem Call.Sound.follows (sound : call.Sound client s i) {next : Stage}
    (own : next.own = call.stage.own) (given : ∀ given, next ≠ .counted given)
    (prepared : ∀ packet, next.prepared = some packet → call.stage.prepared = some packet)
    (full : ∀ packet, next.failure = some (.dropped packet) → maxQueueBuffer ≤ s.accepted.length)
    (started : ∀ packet, next = .queueing packet → s.worker ≠ .notStarted) :
    Call.Sound client s i { call with stage := next } :=
  sound.moves own given (fun packet same => sound.prepared packet (prepared packet same)) full
    started

/-! ## What was accepted -/

/-- A packet that the transport was given was accepted. -/
theorem Sound.accepted_of_sent (sound : Sound client s) {sent : Sent} (member : sent ∈ s.sent) :
    sent.outgoing ∈ s.accepted := by
  rw [sound.order]
  exact List.mem_append_left _ (List.mem_map_of_mem member)

theorem mem_sent_of_delivered {sent : Sent} (member : sent ∈ s.delivered) : sent ∈ s.sent := by
  unfold State.delivered at member
  split at member
  · exact List.dropLast_subset _ member
  · exact member

/-- Nothing was delivered to a call whose packet is not queued. -/
theorem Sound.resultsFor_eq_nil (sound : Sound client s)
    (notQueued : ∀ packet, s.stageAt i ≠ some (.queued packet)) :
    resultsFor i s.delivered = [] := by
  rw [resultsFor, List.map_eq_nil_iff, List.filter_eq_nil_iff]
  intro sent member same
  have accepted := sound.accepted_of_sent (mem_sent_of_delivered member)
  have call : sent.outgoing.call = i := by simpa using same
  have queued := (sound.queued i sent.outgoing.packet).mp (call ▸ accepted)
  exact notQueued _ queued

/-- A call whose packet is not queued has been answered by nobody but itself. -/
theorem Sound.answers_eq_own (sound : Sound client s) (here : s.calls[i]? = some call)
    (notQueued : ∀ packet, call.stage ≠ .queued packet) : call.answers = call.stage.own := by
  have nothing : resultsFor i s.delivered = [] := by
    refine sound.resultsFor_eq_nil fun packet queued => ?_
    rw [State.stageAt, here] at queued
    exact notQueued packet (Option.some.inj queued)
  rw [(sound.calls i call here).answers, nothing, List.append_nil]

theorem Sound.queue_le_accepted (sound : Sound client s) : s.queue.length ≤ s.accepted.length := by
  rw [sound.order, State.pending]
  simp only [List.length_append]
  omega

/-- The results that were delivered, with the one that the worker is about to deliver. -/
theorem Sound.sent_eq (sound : Sound client s) {sent : Sent} (busy : s.worker = .answering sent) :
    s.sent = s.delivered ++ [sent] := by
  obtain ⟨earlier, whole⟩ := List.getLast?_eq_some_iff.mp (sound.answering sent busy)
  rw [State.delivered, busy, whole]
  simp

theorem resultsFor_append (i : ℕ) (first second : List Sent) :
    resultsFor i (first ++ second) = resultsFor i first ++ resultsFor i second := by
  simp [resultsFor]

/-- Nothing was delivered to the call that the worker is about to answer. -/
theorem Sound.undelivered (sound : Sound client s) {sent : Sent}
    (busy : s.worker = .answering sent) : resultsFor sent.outgoing.call s.delivered = [] := by
  have distinct := sound.distinct
  rw [sound.order, sound.sent_eq busy] at distinct
  simp only [List.map_append, List.map_cons, List.map_nil, List.append_assoc] at distinct
  rw [List.nodup_append] at distinct
  rw [resultsFor, List.map_eq_nil_iff, List.filter_eq_nil_iff]
  intro other member same
  have call : other.outgoing.call = sent.outgoing.call := by simpa using same
  refine distinct.2.2 _ ?_ _ (List.mem_append_left _ (List.mem_singleton.mpr rfl)) call
  exact List.mem_map_of_mem (List.mem_map_of_mem member)

/-- The call of a packet that the transport was given. -/
theorem Sound.call_of_sent (sound : Sound client s) {sent : Sent} (member : sent ∈ s.sent) :
    ∃ call, s.calls[sent.outgoing.call]? = some call ∧
      call.stage = .queued sent.outgoing.packet := by
  have queued := (sound.queued sent.outgoing.call sent.outgoing.packet).mp
    (sound.accepted_of_sent member)
  simpa [State.stageAt] using queued

/-! ## Steps keep the accounts -/

/-- **The rule of the worker**, which moves packets on and delivers nothing. -/
theorem Sound.work (sound : Sound client s) {worker : Worker} {queue : List Outgoing}
    {sent : List Sent} {wg : ℤ}
    (counter : wg + (s.queue.length + s.worker.load : ℕ) =
      s.wg + (queue.length + worker.load : ℕ))
    (order : sent.map Sent.outgoing ++ (worker.held ++ queue) =
      s.sent.map Sent.outgoing ++ s.pending)
    (delivered : { s with worker, queue, sent, wg }.delivered = s.delivered)
    (shorter : queue.length ≤ s.queue.length) (started : worker ≠ .notStarted)
    (answering : ∀ last, worker = .answering last → sent.getLast? = some last)
    (ended : worker = .ended → queue = [] ∧ s.closed = true) :
    Sound client { s with worker, queue, sent, wg } where
  counter := by
    have counted := sound.counter
    simp only [State.counted] at counted ⊢
    omega
  order := by
    rw [State.pending, order]
    exact sound.order
  distinct := sound.distinct
  room := shorter.trans sound.room
  queued := sound.queued
  calls j other found := (sound.calls j other found).mono (by rw [delivered]) (Nat.le_refl _)
    fun _ => started
  answering := answering
  idle notStarted := absurd notStarted started
  ended := ended

theorem Sound.startWorker (sound : Sound client s) :
    Sound client { s with worker := s.worker.start } := by
  cases worker : s.worker with
  | notStarted =>
      refine sound.work ?_ ?_ ?_ (Nat.le_refl _) ?_ ?_ ?_
      · rw [worker]
        rfl
      · rw [State.pending, worker]
        rfl
      · rw [State.delivered, State.delivered, worker]
        rfl
      all_goals simp [Worker.start]
  | _ =>
      have same : s.worker.start = s.worker := by rw [worker]; rfl
      rw [← worker, same]
      exact sound

/-- **The queue takes a packet.** -/
theorem Sound.enqueue (sound : Sound client s) {packet : Packet} (here : s.calls[i]? = some call)
    (stage : call.stage = .queueing packet) (isOpen : s.closed = false)
    (room : s.queue.length < maxQueueBuffer) :
    Sound client { s.put i { call with stage := .queued packet } with
      queue := s.queue ++ [⟨i, packet⟩]
      accepted := s.accepted ++ [⟨i, packet⟩] } := by
  have inOrder := sound.calls i call here
  have stageHere : s.stageAt i = some (.queueing packet) := by
    rw [State.stageAt, here, ← stage]
    rfl
  have fresh : ∀ other, ⟨i, other⟩ ∉ s.accepted := by
    intro other member
    rw [sound.queued, stageHere] at member
    cases member
  have changed := counted_put here { call with stage := .queued packet }
  have before : call.weight = 1 := by rw [Call.weight, stage]; rfl
  have after : Call.weight { call with stage := .queued packet } = 0 := rfl
  have longer : s.accepted.length ≤ (s.accepted ++ [(⟨i, packet⟩ : Outgoing)]).length := by simp
  have moved : Call.Sound client s i { call with stage := .queued packet } := by
    refine inOrder.follows (by rw [stage]; rfl) (by simp) ?_ (by simp [Stage.failure]) (by simp)
    simp [stage, Stage.prepared]
  exact {
    counter := by
      have counter := sound.counter
      simp only [State.counted, State.put, List.length_append, List.length_singleton]
        at changed counter ⊢
      omega
    order := by
      have order := sound.order
      simp only [State.pending, State.put] at order ⊢
      rw [order]
      simp
    distinct := by
      rw [List.map_append, List.nodup_append]
      refine ⟨sound.distinct, List.nodup_singleton _, ?_⟩
      rintro _ member _ last rfl
      obtain ⟨other, accepted, rfl⟩ := List.mem_map.mp member
      have same : other.call = i := by simpa using last
      exact fresh other.packet (same ▸ accepted)
    room := by
      simp only [List.length_append, List.length_singleton]
      omega
    queued := by
      intro j other
      have stages := stageAt_put here { call with stage := .queued packet } j
      simp only [State.stageAt, State.put] at stages ⊢
      rw [stages, List.mem_append, List.mem_singleton, sound.queued, State.stageAt]
      by_cases same : i = j
      · subst same
        simp [here, stage, eq_comm]
      · simp [same, Ne.symm same]
    calls := by
      refine forall_set (fun j other _ found => ?_) ?_
      · exact (sound.calls j other found).mono rfl longer id
      · exact moved.mono rfl longer id
    answering := sound.answering
    idle := fun idle => absurd idle (inOrder.started packet stage)
    ended := by
      intro ended
      have closed := (sound.ended ended).2
      rw [isOpen] at closed
      cases closed }

/-- **The worker delivers a result.** -/
theorem Sound.deliver (sound : Sound client s) {sent : Sent} (busy : s.worker = .answering sent)
    (here : s.calls[sent.outgoing.call]? = some call) :
    Sound client { s.put sent.outgoing.call { call with
      answers := call.answers ++ [sent.result] } with worker := .finishing } := by
  have inOrder := sound.calls _ call here
  have whole := sound.sent_eq busy
  have changed := counted_put here { call with answers := call.answers ++ [sent.result] }
  exact {
    counter := by
      have counter := sound.counter
      rw [busy] at counter
      simp only [State.counted, State.put, Call.weight, Worker.load] at changed counter ⊢
      omega
    order := by
      have order := sound.order
      rw [State.pending, busy] at order
      exact order
    distinct := sound.distinct
    room := sound.room
    queued := queued_put sound.queued here fun _ => Iff.rfl
    calls := by
      refine forall_set (fun j other different found => ?_) ?_
      · refine (sound.calls j other found).mono ?_ (Nat.le_refl _) fun _ => by simp
        have others : resultsFor j [sent] = [] := by simp [resultsFor, Ne.symm different]
        rw [State.delivered]
        simp only [State.put]
        rw [whole, resultsFor_append, others, List.append_nil]
      · have one : resultsFor sent.outgoing.call [sent] = [sent.result] := by simp [resultsFor]
        exact {
          answers := by
            rw [State.delivered]
            simp only [State.put]
            rw [whole, resultsFor_append, one, ← List.append_assoc, ← inOrder.answers]
          given := inOrder.given
          prepared := inOrder.prepared
          full := inOrder.full
          started := fun _ _ => by simp }
    answering := by simp
    idle := by simp
    ended := by simp }

/-- **Every statement keeps the accounts.** -/
theorem Advance.sound (advance : Advance client s t) (sound : Sound client s) :
    Sound client t := by
  cases advance with
  | prepare uuid now here stage =>
      rename_i i call given
      have inOrder := sound.calls _ _ here
      cases prepared : client.prepare call.captureTags uuid now given with
      | ok packet =>
          refine sound.move here (by rw [Call.weight, Call.weight, stage]; rfl)
            (by simp [stage, Stage.ofPrepared]) ?_
          refine inOrder.moves (by rw [stage]; rfl) (by simp [Stage.ofPrepared]) ?_
            (by simp [Stage.ofPrepared, Stage.failure]) (by simp [Stage.ofPrepared])
          intro other same
          cases same
          exact ⟨given, inOrder.given given stage, uuid, now, prepared⟩
      | error e =>
          refine sound.move here (by rw [Call.weight, Call.weight, stage]; rfl)
            (by simp [stage, Stage.ofPrepared]) ?_
          exact inOrder.moves (by rw [stage]; rfl) (by simp [Stage.ofPrepared])
            (by simp [Stage.ofPrepared, Stage.prepared])
            (by simp [Stage.ofPrepared, Stage.failure]) (by simp [Stage.ofPrepared])
  | start here stage =>
      rename_i i call packet
      have started := sound.startWorker
      have inOrder := started.calls _ _ here
      refine started.move here (by rw [Call.weight, Call.weight, stage]; rfl) (by simp [stage]) ?_
      refine inOrder.follows (by rw [stage]; rfl) (by simp) ?_ (by simp [Stage.failure]) ?_
      · simp [stage, Stage.prepared]
      · intro _ _
        cases s.worker <;> simp [Worker.start]
  | enqueue here stage isOpen room => exact sound.enqueue here stage isOpen room
  | drop here stage isOpen full =>
      rename_i i call packet
      have inOrder := sound.calls _ _ here
      have weight : Call.weight { call with stage := .ofDropped client packet } = call.weight := by
        rw [Call.weight, Call.weight, stage, Stage.ofDropped]
        split <;> rfl
      have notQueued : ∀ other, Stage.ofDropped client packet ≠ .queued other := by
        intro other
        unfold Stage.ofDropped
        split <;> simp
      refine sound.move here weight (by simp [stage, notQueued]) ?_
      have taken := (Nat.le_of_not_lt full).trans sound.queue_le_accepted
      refine inOrder.follows ?_ ?_ ?_ (fun _ _ => taken) ?_ <;> unfold Stage.ofDropped <;> split <;>
        simp [stage, Stage.own, Stage.prepared]
  | panic here stage isClosed =>
      rename_i i call packet
      have inOrder := sound.calls _ _ here
      refine sound.move here (by rw [Call.weight, Call.weight, stage]; rfl) (by simp [stage]) ?_
      refine inOrder.follows (by rw [stage]; rfl) (by simp) ?_ (by simp [Stage.failure]) (by simp)
      simp [stage, Stage.prepared]
  | answer here stage room =>
      rename_i i call failure
      have inOrder := sound.calls _ _ here
      have answers := sound.answers_eq_own here (by simp [stage])
      have nothing : resultsFor i s.delivered = [] := by
        have whole := inOrder.answers
        rw [answers] at whole
        exact List.self_eq_append_right.mp whole
      refine sound.move here (by rw [Call.weight, Call.weight, stage]; rfl) (by simp [stage]) ?_
      exact {
        answers := by
          have same : call.answers = [] := by rw [answers, stage]; rfl
          have unchanged : resultsFor i s.delivered = [] := nothing
          rw [same, unchanged]
          rfl
        given := by simp
        prepared := by
          intro other same
          exact inOrder.prepared other (by rw [stage]; cases failure <;> exact same)
        full := fun other same => inOrder.full other (by rw [stage]; exact same)
        started := by simp }
  | done here stage =>
      rename_i i call failure
      have inOrder := sound.calls _ _ here
      refine sound.put here ?_ (by simp [stage]) ?_
      · rw [Call.weight, Call.weight, stage]
        simp [Stage.isCounted]
      · refine inOrder.follows (by rw [stage]; rfl) (by simp) ?_ ?_ (by simp)
        · cases failure <;> simp [stage, Stage.prepared]
        · intro other same
          exact inOrder.full other (by rw [stage]; exact same)
  | receive idle waiting =>
      refine sound.work ?_ ?_ ?_ ?_ ?_ ?_ ?_
      · rw [idle, waiting]
        simp [Worker.load]
      · rw [State.pending, idle, waiting]
        rfl
      · rw [State.delivered, State.delivered, idle]
      · rw [waiting]
        exact Nat.le_succ _
      all_goals simp
  | finish idle empty isClosed =>
      refine sound.work ?_ ?_ ?_ (Nat.le_refl _) ?_ ?_ fun _ => ⟨empty, isClosed⟩
      · rw [idle]
        rfl
      · rw [State.pending, idle]
        rfl
      · rw [State.delivered, State.delivered, idle]
      all_goals simp
  | deliver busy here room => exact sound.deliver busy here
  | countDown busy =>
      refine sound.work ?_ ?_ ?_ (Nat.le_refl _) ?_ ?_ ?_
      · rw [busy]
        simp only [Worker.load]
        omega
      · rw [State.pending, busy]
        rfl
      · rw [State.delivered, State.delivered, busy]
      all_goals simp

/-- **What returns keeps the accounts.** -/
theorem Returns.sound (returns : Returns client s t) (sound : Sound client s) :
    Sound client t := by
  cases returns with
  | send posted busy =>
      refine sound.work ?_ ?_ ?_ (Nat.le_refl _) ?_ ?_ ?_
      · rw [busy]
        rfl
      · rw [State.pending, busy]
        simp [Worker.held]
      · rw [State.delivered, State.delivered, busy]
        simp
      all_goals simp
  | dropHandler here stage =>
      rename_i i call packet
      have inOrder := sound.calls _ _ here
      refine sound.move here (by rw [Call.weight, Call.weight, stage]; rfl) (by simp [stage]) ?_
      refine inOrder.follows (by rw [stage]; rfl) (by simp) ?_ ?_ (by simp)
      · simp [stage, Stage.prepared]
      · intro other same
        exact inOrder.full other (by rw [stage]; exact same)

theorem Proceeds.sound (proceeds : Proceeds client s t) (sound : Sound client s) :
    Sound client t := by
  obtain advance | returns := proceeds
  · exact advance.sound sound
  · exact returns.sound sound

theorem Receives.sound (receives : Receives s t) (sound : Sound client s) : Sound client t := by
  cases receives with
  | receive here some =>
      have inOrder := sound.calls _ _ here
      refine sound.move here rfl (fun _ => Iff.rfl) ?_
      exact {
        answers := inOrder.answers
        given := inOrder.given
        prepared := inOrder.prepared
        full := inOrder.full
        started := inOrder.started }

/-- A call that begins. -/
theorem Sound.begin (sound : Sound client s) {new : Call}
    (stage : new.stage = .refused ∨ ∃ given, new.stage = .counted given)
    (given : ∀ given, new.stage = .counted given → new.packet = some given)
    (answers : new.answers = []) :
    Sound client { s with calls := s.calls ++ [new], wg := s.wg + new.weight } := by
  have absent : s.stageAt s.calls.length = none := by simp [State.stageAt]
  have nothing : resultsFor s.calls.length s.delivered = [] := by
    refine sound.resultsFor_eq_nil fun packet queued => ?_
    rw [absent] at queued
    cases queued
  have own : new.stage.own = [] ∧ new.stage.prepared = none ∧ new.stage.failure = none ∧
      (∀ packet, new.stage ≠ .queueing packet) ∧ ∀ packet, new.stage ≠ .queued packet := by
    obtain refused | ⟨given, counted⟩ := stage
    · rw [refused]
      simp [Stage.own, Stage.prepared, Stage.failure]
    · rw [counted]
      simp [Stage.own, Stage.prepared, Stage.failure]
  exact {
    counter := by
      have counter := sound.counter
      simp only [State.counted, Call.weight, List.countP_append, List.countP_singleton]
        at counter ⊢
      omega
    order := sound.order
    distinct := sound.distinct
    room := sound.room
    queued := by
      intro j packet
      rw [sound.queued, State.stageAt, State.stageAt]
      obtain before | rfl | behind := Nat.lt_trichotomy j s.calls.length
      · rw [List.getElem?_append_left before]
      · simp [own.2.2.2.2 packet]
      · rw [List.getElem?_eq_none (Nat.le_of_lt behind), List.getElem?_eq_none (by simp; omega)]
    calls := by
      intro j other found
      obtain before | rfl | behind := Nat.lt_trichotomy j s.calls.length
      · rw [List.getElem?_append_left before] at found
        exact (sound.calls j other found).mono rfl (Nat.le_refl _) id
      · rw [List.getElem?_concat_length] at found
        cases found
        exact {
          answers := by
            have same : resultsFor s.calls.length
                { s with calls := s.calls ++ [new], wg := s.wg + new.weight }.delivered = [] :=
              nothing
            rw [same, answers, own.1]
            rfl
          given
          prepared := by simp [own.2.1]
          full := by simp [own.2.2.1]
          started := fun packet queueing => absurd queueing (own.2.2.2.1 packet) }
      · rw [List.getElem?_eq_none (by simp; omega)] at found
        cases found
    answering := sound.answering
    idle := sound.idle
    ended := sound.ended }

theorem admits_eq_some {packet : Option Packet} {draw : ℚ} {given : Packet}
    (admitted : client.admits packet draw = some given) : packet = some given := by
  unfold Client.admits at admitted
  split at admitted
  · cases admitted
  · exact (Option.filter_eq_some_iff.mp admitted).1

theorem Enters.sound (enters : Enters client s t) (sound : Sound client s) : Sound client t := by
  cases enters with
  | capture packet captureTags draw =>
      unfold State.capture
      split
      · have begun := @Sound.begin client s sound ⟨packet, captureTags, .refused, [], 0⟩ (.inl rfl)
          (by simp) rfl
        simpa [Call.weight, Stage.isCounted] using begun
      · rename_i given admitted
        have begun := @Sound.begin client s sound ⟨packet, captureTags, .counted given, [], 0⟩
          (.inr ⟨given, rfl⟩) (by
            intro other same
            cases same
            exact admits_eq_some admitted) rfl
        simpa [Call.weight, Stage.isCounted] using begun
  | close isOpen =>
      exact {
        counter := sound.counter
        order := sound.order
        distinct := sound.distinct
        room := sound.room
        queued := sound.queued
        calls := fun j other found => (sound.calls j other found).mono rfl (Nat.le_refl _) id
        answering := sound.answering
        idle := sound.idle
        ended := fun ended => ⟨(sound.ended ended).1, rfl⟩ }

theorem sound_start (client : Client) : Sound client {} where
  counter := rfl
  order := rfl
  distinct := List.nodup_nil
  room := Nat.zero_le _
  queued := by simp [State.stageAt]
  calls := by simp
  answering := by simp
  idle _ := rfl
  ended := by simp

/-- **The accounts are right in every state that is reached.** -/
theorem Reached.sound (reached : Reached client s) : Sound client s := by
  induction reached with
  | refl => exact sound_start client
  | tail _ step ih =>
      obtain proceeds | receives | enters := step
      · exact proceeds.sound ih
      · exact receives.sound ih
      · exact enters.sound ih

end DawnPatrol.Raven
