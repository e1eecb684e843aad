import DawnPatrol.Foundation.Interleaving

/-!
# What threads have done when they end

A program that is safe ends with its postcondition. In a pool, what a thread has
brought about must outlast the steps of the others, also of those that start
later. So the threads of a pool are kept apart by a relation between their
labels, which all pairs satisfy, and the postcondition of a label is stable
under the guarantees of the labels it is apart from. Two threads that are both
live must tolerate each other besides.

The rule of promises (`Run.keepsPromises`) says that every thread that has ended
has kept its promise, in every run. A postcondition that need not last is a pledge:
it holds after the step at which its thread ends (`Step.ends`).

Three rules build safe programs: they may be read in a larger world, carry along
a fact that everybody leaves alone, and recover from panics.
-/

set_option autoImplicit false

namespace DawnPatrol.Foundation

variable {Op : Type} {Res : Op → Type} {ε α β W V ι : Type}

/-! ## More rules of safe programs -/

namespace Program

section Rules

variable {exec : W → (op : Op) → Res op → W → Prop} {rely guarantee : W → W → Prop}

/-- **The rule of larger worlds.** A safe program is safe in a world of which it
sees a part. -/
theorem Safe.within {larger : V → (op : Op) → Res op → V → Prop} {relyOn promise : V → V → Prop}
    (view : V → W) (views : ∀ before op answer after, larger before op answer after →
      exec (view before) op answer (view after))
    (relies : ∀ before after, relyOn before after → rely (view before) (view after))
    (promises : ∀ before op answer after, larger before op answer after →
      guarantee (view before) (view after) → promise before after)
    {post : Except ε α → W → Prop} {program : Program Op Res ε α} {world : V}
    (safe : program.Safe exec rely guarantee post (view world)) :
    program.Safe larger relyOn promise (fun outcome later => post outcome (view later)) world := by
  induction program generalizing world with
  | ret value => exact fun later moved => safe _ (relies _ _ moved)
  | raise panic => exact fun later moved => safe _ (relies _ _ moved)
  | call op rest ih =>
      intro before moved answer after answered
      obtain ⟨kept, remaining⟩ := safe _ (relies _ _ moved) answer _ (views _ _ _ _ answered)
      exact ⟨promises _ _ _ _ answered kept, ih answer remaining⟩

/-- The rule of facts: what the others leave alone, and the calls of the program
too, is still so at its end. -/
theorem Safe.carry {post : Except ε α → W → Prop} {program : Program Op Res ε α} {world : W}
    (safe : program.Safe exec rely guarantee post world) (fact : W → Prop)
    (relies : ∀ before after, rely before after → fact before → fact after)
    (guarantees : ∀ before after, guarantee before after → fact before → fact after)
    (holds : fact world) :
    program.Safe exec rely guarantee (fun outcome later => post outcome later ∧ fact later)
      world := by
  induction program generalizing world with
  | ret value => exact fun later moved => ⟨safe _ moved, relies _ _ moved holds⟩
  | raise panic => exact fun later moved => ⟨safe _ moved, relies _ _ moved holds⟩
  | call op rest ih =>
      intro before moved answer after answered
      obtain ⟨kept, remaining⟩ := safe before moved answer after answered
      exact ⟨kept, ih answer remaining (guarantees _ _ kept (relies _ _ moved holds))⟩

/-- The rule of two arguments about one program. -/
theorem Safe.and {guaranteeToo : W → W → Prop} {post postToo : Except ε α → W → Prop}
    {program : Program Op Res ε α} {world : W}
    (safe : program.Safe exec rely guarantee post world)
    (safeToo : program.Safe exec rely guaranteeToo postToo world) :
    program.Safe exec rely guarantee (fun outcome later => post outcome later ∧
      postToo outcome later) world := by
  induction program generalizing world with
  | ret value => exact fun later moved => ⟨safe _ moved, safeToo _ moved⟩
  | raise panic => exact fun later moved => ⟨safe _ moved, safeToo _ moved⟩
  | call op rest ih =>
      intro before moved answer after answered
      obtain ⟨kept, remaining⟩ := safe before moved answer after answered
      obtain ⟨-, remainingToo⟩ := safeToo before moved answer after answered
      exact ⟨kept, ih answer remaining remainingToo⟩

/-- The rule of recoveries: the handler must be safe wherever the body may panic. -/
theorem Safe.recovering (refl : ∀ a, rely a a) {post : Except ε α → W → Prop}
    {handler : ε → Program Op Res ε α} {body : Program Op Res ε α} {world : W}
    (safe : body.Safe exec rely guarantee
      (fun outcome later => match outcome with
        | .ok value => ∀ last, rely later last → post (.ok value) last
        | .error panic => (handler panic).Safe exec rely guarantee post later) world) :
    (Program.recovering handler body).Safe exec rely guarantee post world := by
  induction body generalizing world with
  | ret value => exact safe world (refl world)
  | raise panic => exact safe world (refl world)
  | call op rest ih =>
      intro before moved answer after answered
      obtain ⟨kept, remaining⟩ := safe before moved answer after answered
      exact ⟨kept, ih answer remaining⟩

end Rules

end Program

/-! ## Promises -/

namespace Pool

variable {rules : Rules Op Res ε α W ι}

/-- What the threads of each label promise to have done when they end, and the pairs
of labels that leave each other's promises alone. -/
structure Promises (contract : Contract rules) where
  post : ι → Except ε α → W → Prop
  apart : ι → ι → Prop
  stable : ∀ {i j : ι}, apart i j → ∀ {a b : W}, contract.guarantee j a b →
    ∀ outcome, post i outcome a → post i outcome b
  stable_outside : ∀ i {a b : W}, rules.outside a b → ∀ outcome, post i outcome a →
    post i outcome b

/-- The live threads of a pool will end with their postconditions, and tolerate each
other. -/
structure Pledged (contract : Contract rules) (post : ι → Except ε α → W → Prop)
    (pool : Pool Op Res ε α W ι) : Prop where
  safe : ∀ thread ∈ pool.threads, thread.2.Live → thread.2.Safe (rules.exec thread.1)
    (contract.rely thread.1) (contract.guarantee thread.1) (post thread.1) pool.world
  tolerant : pool.threads.Pairwise fun first second => first.2.Live → second.2.Live →
    contract.tolerates first.1 second.1 ∧ contract.tolerates second.1 first.1

/-- The live threads of a pool will keep their promises, and those that have ended
have kept them. -/
structure Promising {contract : Contract rules} (promises : Promises contract)
    (pool : Pool Op Res ε α W ι) : Prop extends Pledged contract promises.post pool where
  kept : ∀ label outcome, (label, ended outcome) ∈ pool.threads →
    promises.post label outcome pool.world
  apart : pool.threads.Pairwise fun first second =>
    promises.apart first.1 second.1 ∧ promises.apart second.1 first.1

/-- A pool without threads has pledged nothing. -/
theorem Pledged.of_no_threads (contract : Contract rules) (post : ι → Except ε α → W → Prop)
    (world : W) : Pledged contract post (⟨world, []⟩ : Pool Op Res ε α W ι) where
  safe := by simp
  tolerant := List.Pairwise.nil

/-- A pool without threads has promised nothing. -/
theorem Promising.of_no_threads {contract : Contract rules} (promises : Promises contract)
    (world : W) : Promising promises (⟨world, []⟩ : Pool Op Res ε α W ι) where
  toPledged := .of_no_threads contract promises.post world
  kept := by simp
  apart := List.Pairwise.nil

/-- A thread that ends has brought about its postcondition. -/
theorem post_of_safe {exec : W → (op : Op) → Res op → W → Prop} {rely guarantee : W → W → Prop}
    (refl : ∀ a, rely a a) {post : Except ε α → W → Prop} {outcome : Except ε α} {world : W}
    (safe : (ended outcome : Program Op Res ε α).Safe exec rely guarantee post world) :
    post outcome world := by
  cases outcome <;> exact safe world (refl world)

/-- What is asked of a thread that starts: it is safe, and tolerates and is tolerated by
the live threads that are there. -/
structure StartsSafely (contract : Contract rules) (post : ι → Except ε α → W → Prop)
    (pool : Pool Op Res ε α W ι) (label : ι) (program : Program Op Res ε α) : Prop where
  safe : program.Safe (rules.exec label) (contract.rely label) (contract.guarantee label)
    (post label) pool.world
  tolerant : ∀ other, pool.IsLive other →
    contract.tolerates other label ∧ contract.tolerates label other

/-- What is asked of a thread with promises: besides, the threads that are there are
apart from it. -/
structure StartsWell {contract : Contract rules} (promises : Promises contract)
    (pool : Pool Op Res ε α W ι) (label : ι) (program : Program Op Res ε α) : Prop
    extends StartsSafely contract promises.post pool label program where
  apart : ∀ thread ∈ pool.threads, promises.apart thread.1 label ∧ promises.apart label thread.1

/-- Two threads of a list stand to each other as all pairs of it do. -/
theorem pair_of_pairwise {γ : Type} {related : γ → γ → Prop} {front back : List γ} {middle : γ}
    (pairs : (front ++ middle :: back).Pairwise related) (other : γ)
    (member : other ∈ front ++ back) : related other middle ∨ related middle other := by
  obtain ⟨-, backPairs, across⟩ := List.pairwise_append.mp pairs
  rcases List.mem_append.mp member with before | behind
  · exact .inl (across other before middle List.mem_cons_self)
  · exact .inr ((List.pairwise_cons.mp backPairs).1 other behind)

/-- A list of pairs stays so when what stands at one place is replaced by what is
related in the same way. -/
theorem pairwise_replace {γ : Type} {related : γ → γ → Prop} {front back : List γ}
    {old new : γ} (pairs : (front ++ old :: back).Pairwise related)
    (left : ∀ other, related other old → related other new)
    (right : ∀ other, related old other → related new other) :
    (front ++ new :: back).Pairwise related := by
  obtain ⟨frontPairs, backPairs, across⟩ := List.pairwise_append.mp pairs
  obtain ⟨headPairs, tailPairs⟩ := List.pairwise_cons.mp backPairs
  refine List.pairwise_append.mpr ⟨frontPairs, List.pairwise_cons.mpr ⟨?_, tailPairs⟩, ?_⟩
  · exact fun other behind => right other (headPairs other behind)
  · intro thread before other member
    rcases List.mem_cons.mp member with rfl | behind
    · exact left thread (across thread before old List.mem_cons_self)
    · exact across thread before other (List.mem_cons_of_mem _ behind)

/-- The threads after a call are the caller and others that were there. -/
theorem mem_after_call {label : ι} {program next : Program Op Res ε α}
    {front back : List (ι × Program Op Res ε α)} {thread : ι × Program Op Res ε α}
    (member : thread ∈ front ++ (label, next) :: back) :
    thread = (label, next) ∨
      thread ∈ front ++ back ∧ thread ∈ front ++ (label, program) :: back := by
  rcases List.mem_append.mp member with before | behind
  · exact .inr ⟨List.mem_append_left _ before, List.mem_append_left _ before⟩
  · refine (List.mem_cons.mp behind).imp_right fun behind => ⟨List.mem_append_right _ behind, ?_⟩
    exact List.mem_append_right _ (List.mem_cons_of_mem _ behind)

section Step

variable {contract : Contract rules} {promises : Promises contract}
  {post : ι → Except ε α → W → Prop}

/-- A call of a thread keeps all pledges, and is a step of its guarantee. -/
theorem Pledged.call {world after : W} {front back : List (ι × Program Op Res ε α)} {label : ι}
    {op : Op} {rest : Res op → Program Op Res ε α} {answer : Res op}
    (pledged : Pledged contract post ⟨world, front ++ (label, .call op rest) :: back⟩)
    (answered : rules.exec label world op answer after) :
    Pledged contract post ⟨after, front ++ (label, rest answer) :: back⟩ ∧
      contract.guarantee label world after ∧
      (rest answer).Safe (rules.exec label) (contract.rely label) (contract.guarantee label)
        (post label) after := by
  have self := pledged.safe (label, .call op rest) (by simp) trivial
  obtain ⟨kept, remaining⟩ := self world (contract.rely_refl label world) answer after answered
  refine ⟨⟨fun thread member live => ?_, ?_⟩, kept, remaining⟩
  · rcases mem_after_call member with rfl | ⟨other, inPool⟩
    · exact remaining
    · -- a live thread relies on what the caller guarantees
      have accepts : contract.tolerates thread.1 label := by
        rcases pair_of_pairwise pledged.tolerant thread other with before | behind
        · exact (before live trivial).1
        · exact (behind trivial live).2
      exact (pledged.safe thread inPool live).later
        (contract.rely_trans thread.1) (contract.rely_guarantee accepts kept)
  · exact pairwise_replace pledged.tolerant
      (fun _ related live _ => related live trivial) fun _ related _ live => related trivial live

/-- A thread that starts safely keeps all pledges. -/
theorem Pledged.start {pool : Pool Op Res ε α W ι} {label : ι} {program : Program Op Res ε α}
    (pledged : Pledged contract post pool)
    (starts : StartsSafely contract post pool label program) :
    Pledged contract post ⟨pool.world, pool.threads ++ [(label, program)]⟩ := by
  constructor
  · intro thread member live
    rcases List.mem_append.mp member with old | new
    · exact pledged.safe thread old live
    · rw [List.mem_singleton.mp new]
      exact starts.safe
  · refine List.pairwise_append.mpr ⟨pledged.tolerant, List.pairwise_singleton _ _, ?_⟩
    intro thread member other new live _
    rw [List.mem_singleton.mp new]
    exact starts.tolerant thread.1 ⟨thread.2, member, live⟩

theorem Pledged.outside {world after : W} {threads : List (ι × Program Op Res ε α)}
    (pledged : Pledged contract post ⟨world, threads⟩) (changed : rules.outside world after) :
    Pledged contract post ⟨after, threads⟩ where
  safe thread member live := (pledged.safe thread member live).later
    (contract.rely_trans thread.1) (contract.rely_outside thread.1 changed)
  tolerant := pledged.tolerant

/-- **A step keeps all pledges**, and is explained by the guarantee of a live thread,
by a change from outside, or by no change at all. -/
theorem Step.keepsPledges {pool next : Pool Op Res ε α W ι} {action : Action Op ι}
    (step : Step rules pool action next) (pledged : Pledged contract post pool)
    (startsSafely : ∀ label program, rules.starts pool label program →
      StartsSafely contract post pool label program) :
    Pledged contract post next ∧ Explained contract pool next.world := by
  cases step with
  | call answered =>
      rename_i world after front back label op rest answer
      obtain ⟨still, kept, -⟩ := pledged.call answered
      exact ⟨still, .inr (.inr ⟨label, ⟨.call op rest, by simp, trivial⟩, kept⟩)⟩
  | start allowed => exact ⟨pledged.start (startsSafely _ _ allowed), .inl rfl⟩
  | outside changed => exact ⟨pledged.outside changed, .inr (.inl changed)⟩

/-- **A thread ends with its postcondition**: it holds after the step at which the
thread ends. -/
theorem Step.ends {pool next : Pool Op Res ε α W ι} {action : Action Op ι}
    (step : Step rules pool action next) (pledged : Pledged contract post pool)
    (startsSafely : ∀ label program, rules.starts pool label program →
      StartsSafely contract post pool label program)
    {label : ι} {outcome : Except ε α} (unfinished : (label, ended outcome) ∉ pool.threads)
    (finished : (label, ended outcome) ∈ next.threads) : post label outcome next.world := by
  cases step with
  | call answered =>
      rename_i world after front back caller op rest answer
      rcases @mem_after_call _ _ _ _ _ caller (.call op rest) _ _ _ _ finished with same | ⟨-, old⟩
      · obtain ⟨rfl, isRest⟩ := Prod.mk.inj same
        exact post_of_safe (contract.rely_refl label) (isRest ▸ (pledged.call answered).2.2)
      · exact absurd old unfinished
  | start allowed =>
      rcases List.mem_append.mp finished with old | new
      · exact absurd old unfinished
      · obtain ⟨rfl, isProgram⟩ := Prod.mk.inj (List.mem_singleton.mp new)
        exact post_of_safe (contract.rely_refl label) (isProgram ▸ (startsSafely _ _ allowed).safe)
  | outside changed => exact absurd finished unfinished

/-- A call of a thread keeps all promises. -/
theorem Promising.call {world after : W} {front back : List (ι × Program Op Res ε α)} {label : ι}
    {op : Op} {rest : Res op → Program Op Res ε α} {answer : Res op}
    (promising : Promising promises ⟨world, front ++ (label, .call op rest) :: back⟩)
    (answered : rules.exec label world op answer after) :
    Promising promises ⟨after, front ++ (label, rest answer) :: back⟩ ∧
      contract.guarantee label world after := by
  obtain ⟨pledged, kept, remaining⟩ := promising.toPledged.call answered
  refine ⟨⟨pledged, fun other outcome member => ?_, ?_⟩, kept⟩
  · rcases mem_after_call member with same | ⟨elsewhere, inPool⟩
    · obtain ⟨rfl, isRest⟩ := Prod.mk.inj same
      exact post_of_safe (contract.rely_refl other) (isRest ▸ remaining)
    · -- a promise that was kept is left alone
      have away : promises.apart other label := by
        rcases pair_of_pairwise promising.apart _ elsewhere with before | behind
        · exact before.1
        · exact behind.2
      exact promises.stable away kept outcome (promising.kept other outcome inPool)
  · exact pairwise_replace promising.apart (fun _ => id) fun _ => id

/-- A thread that starts well keeps all promises. -/
theorem Promising.start {pool : Pool Op Res ε α W ι} {label : ι} {program : Program Op Res ε α}
    (promising : Promising promises pool) (starts : StartsWell promises pool label program) :
    Promising promises ⟨pool.world, pool.threads ++ [(label, program)]⟩ := by
  refine ⟨promising.toPledged.start starts.toStartsSafely, ?_, ?_⟩
  · intro other outcome member
    rcases List.mem_append.mp member with old | new
    · exact promising.kept other outcome old
    · obtain ⟨rfl, isProgram⟩ := Prod.mk.inj (List.mem_singleton.mp new)
      exact post_of_safe (contract.rely_refl other) (isProgram ▸ starts.safe)
  · refine List.pairwise_append.mpr ⟨promising.apart, List.pairwise_singleton _ _, ?_⟩
    intro thread member other new
    rw [List.mem_singleton.mp new]
    exact starts.apart thread member

/-- **A step keeps all promises**, and is explained by the guarantee of a live
thread, by a change from outside, or by no change at all. -/
theorem Step.keepsPromises {pool next : Pool Op Res ε α W ι} {action : Action Op ι}
    (step : Step rules pool action next) (promising : Promising promises pool)
    (startsWell : ∀ label program, rules.starts pool label program →
      StartsWell promises pool label program) :
    Promising promises next ∧ Explained contract pool next.world := by
  obtain ⟨-, explained⟩ := step.keepsPledges promising.toPledged
    fun label program starts => (startsWell label program starts).toStartsSafely
  refine ⟨?_, explained⟩
  cases step with
  | call answered => exact (promising.call answered).1
  | start allowed => exact promising.start (startsWell _ _ allowed)
  | outside changed =>
      exact ⟨promising.toPledged.outside changed, fun label outcome member =>
        promises.stable_outside label changed outcome (promising.kept label outcome member),
        promising.apart⟩

/-- The rule of pledges. -/
theorem Run.keepsPledges (invariant : W → Prop) {allowed : ι → Prop}
    (guarantees : ∀ label, allowed label → ∀ {a b : W}, contract.guarantee label a b →
      invariant a → invariant b)
    (outsides : ∀ {a b : W}, rules.outside a b → invariant a → invariant b)
    (startsSafely : ∀ pool : Pool Op Res ε α W ι, invariant pool.world →
      ∀ label program, rules.starts pool label program →
        StartsSafely contract post pool label program)
    {first last : Pool Op Res ε α W ι} {actions : List (Action Op ι)}
    (run : Run rules first actions last) (pledged : Pledged contract post first)
    (begins : invariant first.world) (live : ∀ label, first.IsLive label → allowed label)
    (started : ∀ label, .started label ∈ actions → allowed label) :
    Pledged contract post last ∧ invariant last.world :=
  run.keepsGood invariant (Pledged contract post) guarantees outsides
    (fun one isPledged holds => one.keepsPledges isPledged (startsSafely _ holds)) pledged begins
    live started

/-- **The rule of promises.** In a run whose threads start well, every thread that
has ended has kept its promise. An invariant that all guarantees of the labels
that are live or started keep, and all changes from outside, holds throughout,
and the starts may be judged with it. -/
theorem Run.keepsPromises (invariant : W → Prop) {allowed : ι → Prop}
    (guarantees : ∀ label, allowed label → ∀ {a b : W}, contract.guarantee label a b →
      invariant a → invariant b)
    (outsides : ∀ {a b : W}, rules.outside a b → invariant a → invariant b)
    (startsWell : ∀ pool : Pool Op Res ε α W ι, invariant pool.world →
      ∀ label program, rules.starts pool label program → StartsWell promises pool label program)
    {first last : Pool Op Res ε α W ι} {actions : List (Action Op ι)}
    (run : Run rules first actions last) (promising : Promising promises first)
    (begins : invariant first.world) (live : ∀ label, first.IsLive label → allowed label)
    (started : ∀ label, .started label ∈ actions → allowed label) :
    Promising promises last ∧ invariant last.world :=
  run.keepsGood invariant (Promising promises) guarantees outsides
    (fun one isPromising holds => one.keepsPromises isPromising (startsWell _ holds)) promising
    begins live started

end Step

end Pool

end DawnPatrol.Foundation
