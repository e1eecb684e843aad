import DawnPatrol.Foundation.Programs
import Mathlib.Logic.Relation

/-!
# Programs that take turns

A pool holds a world and a list of threads, each a label with the program it
has left to run. A step lets one thread make its next call, starts a thread,
or changes the world from outside. Which answers a call may get is a relation,
so a call may fail or answer in several ways.

The proof rule is rely and guarantee. Each label `i` has a relation `rely i`,
what the others may do to the world between two calls of a thread labelled
`i`, and a relation `guarantee i`, what each of its own calls does. A program
is safe when every call it can ever make, from any world the others may leave,
stays inside its guarantee (`Program.Safe`). When the live threads tolerate
each other's guarantees, every step of the pool is a guarantee of one of them
and all threads stay safe (`Step.safe`), so an invariant that all guarantees
keep holds throughout every run (`Run.keeps`).
-/

set_option autoImplicit false

namespace DawnPatrol.Foundation

variable {Op : Type} {Res : Op → Type} {ε α β W ι : Type}

/-! ## Safe programs -/

namespace Program

/-- Every call the program can make, from any world reached under `rely`, is a
step of `guarantee`, and its end satisfies `post`. The worlds are those the
answers of `exec` lead to. -/
def Safe (exec : W → (op : Op) → Res op → W → Prop) (rely guarantee : W → W → Prop)
    (post : Except ε α → W → Prop) : Program Op Res ε α → W → Prop
  | ret value, world => ∀ later, rely world later → post (.ok value) later
  | raise panic, world => ∀ later, rely world later → post (.error panic) later
  | call op rest, world => ∀ before, rely world before → ∀ answer after,
      exec before op answer after →
        guarantee before after ∧ (rest answer).Safe exec rely guarantee post after

section Rules

variable {exec : W → (op : Op) → Res op → W → Prop} {rely guarantee : W → W → Prop}

/-- A safe program stays safe while the others change the world. -/
theorem Safe.later (trans : ∀ a b c, rely a b → rely b c → rely a c)
    {post : Except ε α → W → Prop} {program : Program Op Res ε α} {world later : W}
    (safe : program.Safe exec rely guarantee post world) (moved : rely world later) :
    program.Safe exec rely guarantee post later := by
  cases program with
  | ret value => exact fun last further => safe last (trans _ _ _ moved further)
  | raise panic => exact fun last further => safe last (trans _ _ _ moved further)
  | call op rest => exact fun before further => safe before (trans _ _ _ moved further)

/-- The postcondition can be weakened. -/
theorem Safe.mono {post weaker : Except ε α → W → Prop}
    (implies : ∀ outcome world, post outcome world → weaker outcome world)
    {program : Program Op Res ε α} {world : W}
    (safe : program.Safe exec rely guarantee post world) :
    program.Safe exec rely guarantee weaker world := by
  induction program generalizing world with
  | ret value => exact fun last moved => implies _ _ (safe last moved)
  | raise panic => exact fun last moved => implies _ _ (safe last moved)
  | call op rest ih =>
      intro before moved answer after answered
      obtain ⟨kept, remaining⟩ := safe before moved answer after answered
      exact ⟨kept, ih answer remaining⟩

/-- **The rule of sequence.** The continuation must be safe in every world in
which the first program may return. -/
theorem Safe.bind (refl : ∀ a, rely a a)
    {post : Except ε β → W → Prop} {first : Program Op Res ε α}
    {next : α → Program Op Res ε β} {world : W}
    (safe : first.Safe exec rely guarantee
      (fun outcome later => match outcome with
        | .ok value => (next value).Safe exec rely guarantee post later
        | .error panic => post (.error panic) later) world) :
    (first.bind next).Safe exec rely guarantee post world := by
  induction first generalizing world with
  | ret value => exact safe world (refl world)
  | raise panic => exact safe
  | call op rest ih =>
      intro before moved answer after answered
      obtain ⟨kept, remaining⟩ := safe before moved answer after answered
      exact ⟨kept, ih answer remaining⟩

/-- The rule of cleanups: the cleanup must be safe wherever the body may end. -/
theorem Safe.deferring (refl : ∀ a, rely a a)
    {post : Except ε α → W → Prop} {cleanup : Program Op Res ε Unit}
    {body : Program Op Res ε α} {world : W}
    (safe : body.Safe exec rely guarantee
      (fun outcome later => cleanup.Safe exec rely guarantee
        (fun ended last => match ended with
          | .ok _ => ∀ world', rely last world' → post outcome world'
          | .error panic => post (.error panic) last) later) world) :
    (Program.deferring cleanup body).Safe exec rely guarantee post world := by
  induction body generalizing world with
  | ret value =>
      refine Safe.bind refl ((safe world (refl world)).mono ?_)
      rintro (panic | _) last holds <;> exact holds
  | raise panic =>
      refine Safe.bind refl ((safe world (refl world)).mono ?_)
      rintro (panic | _) last holds <;> exact holds
  | call op rest ih =>
      intro before moved answer after answered
      obtain ⟨kept, remaining⟩ := safe before moved answer after answered
      exact ⟨kept, ih answer remaining⟩

end Rules

/-- A program that has calls left to make. -/
def Live : Program Op Res ε α → Prop
  | call _ _ => True
  | _ => False

end Program

/-! ## Pools of threads -/

/-- A world shared by labelled threads. -/
structure Pool (Op : Type) (Res : Op → Type) (ε α W ι : Type) where
  world : W
  threads : List (ι × Program Op Res ε α)

/-- What a pool may do: the answers a call of a labelled thread may get, the
threads that may start, and what may happen to the world from outside. -/
structure Rules (Op : Type) (Res : Op → Type) (ε α W ι : Type) where
  exec : ι → W → (op : Op) → Res op → W → Prop
  starts : Pool Op Res ε α W ι → ι → Program Op Res ε α → Prop
  outside : W → W → Prop

/-- What a step was: a call of a thread, a start, or a change from outside. -/
inductive Action (Op ι : Type) where
  | called (label : ι) (op : Op)
  | started (label : ι)
  | outside
  deriving DecidableEq

namespace Pool

variable {rules : Rules Op Res ε α W ι}

/-- One step of a pool. Any thread may go next. -/
inductive Step (rules : Rules Op Res ε α W ι) :
    Pool Op Res ε α W ι → Action Op ι → Pool Op Res ε α W ι → Prop where
  | call {world after : W} {front back : List (ι × Program Op Res ε α)} {label : ι} {op : Op}
      {rest : Res op → Program Op Res ε α} {answer : Res op}
      (answered : rules.exec label world op answer after) :
      Step rules ⟨world, front ++ (label, .call op rest) :: back⟩ (.called label op)
        ⟨after, front ++ (label, rest answer) :: back⟩
  | start {pool : Pool Op Res ε α W ι} {label : ι} {program : Program Op Res ε α}
      (allowed : rules.starts pool label program) :
      Step rules pool (.started label) ⟨pool.world, pool.threads ++ [(label, program)]⟩
  | outside {world after : W} {threads : List (ι × Program Op Res ε α)}
      (changed : rules.outside world after) :
      Step rules ⟨world, threads⟩ .outside ⟨after, threads⟩

/-- A run of a pool, with the actions it took in order. -/
inductive Run (rules : Rules Op Res ε α W ι) :
    Pool Op Res ε α W ι → List (Action Op ι) → Pool Op Res ε α W ι → Prop where
  | refl (pool : Pool Op Res ε α W ι) : Run rules pool [] pool
  | step {first second last : Pool Op Res ε α W ι} {action : Action Op ι}
      {actions : List (Action Op ι)} :
      Step rules first action second → Run rules second actions last →
        Run rules first (action :: actions) last

theorem Run.trans {first second third : Pool Op Res ε α W ι}
    {actions more : List (Action Op ι)} (run : Run rules first actions second)
    (further : Run rules second more third) : Run rules first (actions ++ more) third := by
  induction run with
  | refl => exact further
  | step one _ ih => exact .step one (ih further)

/-- An invariant of the world that every answer and every change from outside
keep holds throughout every run, whatever the threads call. -/
theorem Run.preserves (invariant : W → Prop)
    (answers : ∀ label world op answer after, rules.exec label world op answer after →
      invariant world → invariant after)
    (outsides : ∀ {a b : W}, rules.outside a b → invariant a → invariant b)
    {first last : Pool Op Res ε α W ι} {actions : List (Action Op ι)}
    (run : Run rules first actions last) (begins : invariant first.world) :
    invariant last.world := by
  induction run with
  | refl => exact begins
  | step one _ ih =>
      refine ih ?_
      cases one with
      | call answered => exact answers _ _ _ _ _ answered begins
      | start => exact begins
      | outside changed => exact outsides changed begins

/-- The labels of the threads that still have calls to make. -/
def IsLive (pool : Pool Op Res ε α W ι) (label : ι) : Prop :=
  ∃ program, (label, program) ∈ pool.threads ∧ program.Live

/-! ## The rely-guarantee rule -/

/-- The relations of a rely-guarantee argument for a pool. `rely` and
`guarantee` are indexed by the labels of threads, and `tolerates i j` says
that a thread labelled `i` accepts what one labelled `j` does. -/
structure Contract (rules : Rules Op Res ε α W ι) where
  rely : ι → W → W → Prop
  guarantee : ι → W → W → Prop
  tolerates : ι → ι → Prop
  rely_refl : ∀ label world, rely label world world
  rely_trans : ∀ label a b c, rely label a b → rely label b c → rely label a c
  rely_guarantee : ∀ {i j : ι}, tolerates i j → ∀ {a b : W}, guarantee j a b → rely i a b
  rely_outside : ∀ label {a b : W}, rules.outside a b → rely label a b

/-- The contract in which a thread relies on any number of steps from outside
and of guarantees of the labels it tolerates. -/
def Contract.ofGuarantee (rules : Rules Op Res ε α W ι) (guarantee : ι → W → W → Prop)
    (tolerates : ι → ι → Prop) : Contract rules where
  rely label := Relation.ReflTransGen fun before after =>
    rules.outside before after ∨ ∃ other, tolerates label other ∧ guarantee other before after
  guarantee := guarantee
  tolerates := tolerates
  rely_refl _ _ := .refl
  rely_trans _ _ _ _ first second := first.trans second
  rely_guarantee accepts _ _ kept := .single (.inr ⟨_, accepts, kept⟩)
  rely_outside _ _ _ changed := .single (.inl changed)

/-- All threads of a pool are safe, and any two live ones tolerate each other. -/
structure Sound {rules : Rules Op Res ε α W ι} (contract : Contract rules)
    (pool : Pool Op Res ε α W ι) : Prop where
  safe : ∀ thread ∈ pool.threads, thread.2.Safe (rules.exec thread.1)
    (contract.rely thread.1) (contract.guarantee thread.1) (fun _ _ => True) pool.world
  tolerant : pool.threads.Pairwise fun first second => first.2.Live → second.2.Live →
    contract.tolerates first.1 second.1 ∧ contract.tolerates second.1 first.1

/-- A pool without threads is sound. -/
theorem Sound.of_no_threads {contract : Contract rules} (world : W) :
    Sound contract (⟨world, []⟩ : Pool Op Res ε α W ι) where
  safe := by simp
  tolerant := List.Pairwise.nil

/-- A program that has ended is safe wherever the world goes. -/
theorem safe_of_not_live {exec : W → (op : Op) → Res op → W → Prop}
    {rely guarantee : W → W → Prop} {program : Program Op Res ε α} (ended : ¬ program.Live)
    (world : W) : program.Safe exec rely guarantee (fun _ _ => True) world := by
  cases program with
  | ret value => exact fun _ _ => trivial
  | raise panic => exact fun _ _ => trivial
  | call op rest => exact absurd trivial ended

/-- What a step may do to the world of a sound pool. -/
def Explained (contract : Contract rules) (pool : Pool Op Res ε α W ι) (after : W) : Prop :=
  after = pool.world ∨ rules.outside pool.world after ∨
    ∃ label, pool.IsLive label ∧ contract.guarantee label pool.world after

/-- **A step of a sound pool** is a guarantee of one of its live threads, a
change from outside, or leaves the world alone, and the pool stays sound. A
thread that starts must be safe, and it and the live threads must tolerate
each other. -/
theorem Step.safe {contract : Contract rules} {pool next : Pool Op Res ε α W ι}
    {action : Action Op ι} (step : Step rules pool action next) (sound : Sound contract pool)
    (startsSafe : ∀ label program, rules.starts pool label program →
      program.Safe (rules.exec label) (contract.rely label) (contract.guarantee label)
          (fun _ _ => True) pool.world ∧
        ∀ other, pool.IsLive other →
          contract.tolerates other label ∧ contract.tolerates label other) :
    Sound contract next ∧ Explained contract pool next.world := by
  cases step with
  | call answered =>
      rename_i world after front back label op rest answer
      have self := sound.safe (label, .call op rest) (by simp)
      obtain ⟨kept, remaining⟩ := self world (contract.rely_refl label world) answer after answered
      obtain ⟨frontPairs, backPairs, across⟩ := List.pairwise_append.mp sound.tolerant
      obtain ⟨headPairs, tailPairs⟩ := List.pairwise_cons.mp backPairs
      -- a thread other than the caller has ended, or relies on what the caller guarantees
      have others : ∀ thread ∈ front ++ back, thread.2.Safe (rules.exec thread.1)
          (contract.rely thread.1) (contract.guarantee thread.1) (fun _ _ => True) after := by
        intro thread member
        by_cases live : thread.2.Live
        · have accepts : contract.tolerates thread.1 label := by
            rcases List.mem_append.mp member with before | behind
            · exact (across thread before (label, .call op rest) (by simp) live trivial).1
            · exact (headPairs thread behind trivial live).2
          have inPool : thread ∈ front ++ (label, .call op rest) :: back := by
            rcases List.mem_append.mp member with before | behind <;> simp [*]
          exact (sound.safe thread inPool).later (contract.rely_trans thread.1)
            (contract.rely_guarantee accepts kept)
        · exact safe_of_not_live live after
      refine ⟨⟨?_, ?_⟩, .inr (.inr ⟨label, ⟨.call op rest, by simp, trivial⟩, kept⟩)⟩
      · intro thread member
        rcases List.mem_append.mp member with before | behind
        · exact others thread (List.mem_append_left back before)
        · rcases List.mem_cons.mp behind with rfl | behind
          · exact remaining
          · exact others thread (List.mem_append_right front behind)
      · refine List.pairwise_append.mpr ⟨frontPairs, List.pairwise_cons.mpr ⟨?_, tailPairs⟩, ?_⟩
        · exact fun thread behind _ live => headPairs thread behind trivial live
        · intro thread before other member live otherLive
          rcases List.mem_cons.mp member with rfl | behind
          · exact across thread before (label, .call op rest) (by simp) live trivial
          · exact across thread before other (by simp [behind]) live otherLive
  | start allowed =>
      rename_i label program
      obtain ⟨safe, tolerant⟩ := startsSafe label program allowed
      refine ⟨⟨?_, ?_⟩, .inl rfl⟩
      · intro thread member
        rcases List.mem_append.mp member with old | new
        · exact sound.safe thread old
        · rw [List.mem_singleton.mp new]
          exact safe
      · refine List.pairwise_append.mpr ⟨sound.tolerant, List.pairwise_singleton _ _, ?_⟩
        intro thread member other new live _
        rw [List.mem_singleton.mp new]
        exact tolerant thread.1 ⟨thread.2, member, live⟩
  | outside changed =>
      refine ⟨⟨fun thread member => ?_, sound.tolerant⟩, .inr (.inl changed)⟩
      exact (sound.safe thread member).later (contract.rely_trans thread.1)
        (contract.rely_outside thread.1 changed)

/-- A live thread was live before, or has been started. -/
theorem Step.isLive {pool next : Pool Op Res ε α W ι} {action : Action Op ι} {label : ι}
    (step : Step rules pool action next) (live : next.IsLive label) :
    pool.IsLive label ∨ action = .started label := by
  obtain ⟨program, member, isLive⟩ := live
  cases step with
  | call answered =>
      rcases List.mem_append.mp member with before | behind
      · exact .inl ⟨program, by simp [before], isLive⟩
      · rcases List.mem_cons.mp behind with same | behind
        · cases same
          exact .inl ⟨_, List.mem_append_right _ List.mem_cons_self, trivial⟩
        · exact .inl ⟨program, by simp [behind], isLive⟩
  | start allowed =>
      rcases List.mem_append.mp member with old | new
      · exact .inl ⟨program, old, isLive⟩
      · cases List.mem_singleton.mp new
        exact .inr rfl
  | outside changed => exact .inl ⟨program, member, isLive⟩

section Runs

variable {contract : Contract rules} (invariant : W → Prop) {allowed : ι → Prop}
  {first last : Pool Op Res ε α W ι} {actions : List (Action Op ι)}

/-- **The rule of good pools.** When every step from a good pool leads to a good one and
is explained, a run from a good pool ends in one. An invariant that the guarantee of
every allowed label and every change from outside keep holds then too, when only
allowed labels are live and started, and the steps may be judged with it. -/
theorem Run.keepsGood (good : Pool Op Res ε α W ι → Prop)
    (guarantees : ∀ label, allowed label → ∀ {a b : W}, contract.guarantee label a b →
      invariant a → invariant b)
    (outsides : ∀ {a b : W}, rules.outside a b → invariant a → invariant b)
    (steps : ∀ {pool next : Pool Op Res ε α W ι} {action : Action Op ι},
      Step rules pool action next → good pool → invariant pool.world →
        good next ∧ Explained contract pool next.world)
    (run : Run rules first actions last) (isGood : good first) (begins : invariant first.world)
    (live : ∀ label, first.IsLive label → allowed label)
    (started : ∀ label, .started label ∈ actions → allowed label) :
    good last ∧ invariant last.world := by
  induction run with
  | refl => exact ⟨isGood, begins⟩
  | step one _ ih =>
      obtain ⟨isGoodNext, explained⟩ := steps one isGood begins
      refine ih isGoodNext ?_ ?_ fun label member => started label (List.mem_cons_of_mem _ member)
      · rcases explained with same | changed | ⟨label, isLive, kept⟩
        · rw [same]
          exact begins
        · exact outsides changed begins
        · exact guarantees label (live label isLive) kept begins
      · intro label isLive
        rcases one.isLive isLive with before | rfl
        · exact live label before
        · exact started label List.mem_cons_self

/-- **The rule of runs.** An invariant that the guarantee of every allowed label
and every change from outside keep holds at the end of every run of a sound
pool in which only allowed labels are live and started, and whose starts are
safe. The starts may be judged with the invariant. -/
theorem Run.keeps (guarantees : ∀ label, allowed label → ∀ {a b : W},
      contract.guarantee label a b → invariant a → invariant b)
    (outsides : ∀ {a b : W}, rules.outside a b → invariant a → invariant b)
    (startsSafe : ∀ pool : Pool Op Res ε α W ι, invariant pool.world →
      ∀ label program, rules.starts pool label program →
        program.Safe (rules.exec label) (contract.rely label) (contract.guarantee label)
            (fun _ _ => True) pool.world ∧
          ∀ other, pool.IsLive other →
            contract.tolerates other label ∧ contract.tolerates label other)
    (run : Run rules first actions last) (sound : Sound contract first)
    (begins : invariant first.world) (live : ∀ label, first.IsLive label → allowed label)
    (started : ∀ label, .started label ∈ actions → allowed label) :
    Sound contract last ∧ invariant last.world :=
  run.keepsGood invariant (Sound contract) guarantees outsides
    (fun one isSound holds => one.safe isSound (startsSafe _ holds)) sound begins live started

/-- The moment of a run at which a fact comes to hold: the step before which it did not,
and after which it does. -/
structure Turn (rules : Rules Op Res ε α W ι) (fact : Pool Op Res ε α W ι → Prop)
    (first : Pool Op Res ε α W ι) (actions : List (Action Op ι)) (last : Pool Op Res ε α W ι)
    (pool : Pool Op Res ε α W ι) (action : Action Op ι) (next : Pool Op Res ε α W ι) : Prop where
  parts : ∃ earlier later, actions = earlier ++ action :: later ∧
    Run rules first earlier pool ∧ Run rules next later last
  step : Step rules pool action next
  before : ¬ fact pool
  after : fact next

/-- **A fact that a run brings about** is brought about by one of its steps. -/
theorem Run.turns (run : Run rules first actions last) (fact : Pool Op Res ε α W ι → Prop)
    (before : ¬ fact first) (after : fact last) :
    ∃ pool action next, Turn rules fact first actions last pool action next := by
  induction run with
  | refl => exact absurd after before
  | @step first second last action actions one run ih =>
      by_cases already : fact second
      · exact ⟨first, action, second, ⟨[], actions, rfl, .refl _, run⟩, one, before, already⟩
      · obtain ⟨pool, turning, next, ⟨earlier, later, rfl, toPool, onward⟩, turn, was, is⟩ :=
          ih already after
        exact ⟨pool, turning, next,
          ⟨action :: earlier, later, rfl, .step one toPool, onward⟩, turn, was, is⟩

end Runs

/-! ## Running alone -/

/-- The program that has ended in an outcome. -/
def ended : Except ε α → Program Op Res ε α
  | .ok value => .ret value
  | .error panic => .raise panic

theorem not_live_ended (outcome : Except ε α) :
    ¬ (ended outcome : Program Op Res ε α).Live := by
  cases outcome <;> exact id

section Alone

variable {σ : Type} (handle : (op : Op) → σ → Res op × σ) (world : σ → W)

/-- The rules allow every answer that the program gets from its handler. -/
def Allows (rules : Rules Op Res ε α W ι) (label : ι) : Program Op Res ε α → σ → Prop
  | .call op rest, state =>
      rules.exec label (world state) op (handle op state).1 (world (handle op state).2) ∧
        Allows rules label (rest (handle op state).1) (handle op state).2
  | _, _ => True

theorem Allows.of_answers {label : ι} (answers : ∀ op state,
      rules.exec label (world state) op (handle op state).1 (world (handle op state).2))
    (program : Program Op Res ε α) (state : σ) : Allows handle world rules label program state := by
  induction program generalizing state with
  | ret value => trivial
  | raise panic => trivial
  | call op rest ih => exact ⟨answers op state, ih _ _⟩

/-- **A program that runs on its own** takes its steps as a thread of a pool whose
other threads wait, when the rules allow the answers of its handler. -/
theorem Run.alone {label : ι} (front back : List (ι × Program Op Res ε α))
    {program : Program Op Res ε α} {state : σ}
    (allows : Allows handle world rules label program state) :
    ∃ actions, (∀ action ∈ actions, ∃ op, action = .called label op) ∧
      Run rules ⟨world state, front ++ (label, program) :: back⟩ actions
        ⟨world (program.run handle state).2,
          front ++ (label, ended (program.run handle state).1) :: back⟩ := by
  induction program generalizing state with
  | ret value => exact ⟨[], by simp, .refl _⟩
  | raise panic => exact ⟨[], by simp, .refl _⟩
  | call op rest ih =>
      obtain ⟨actions, own, run⟩ := ih (handle op state).1 allows.2
      refine ⟨.called label op :: actions, ?_, .step (.call allows.1) run⟩
      intro action member
      rcases List.mem_cons.mp member with rfl | later
      · exact ⟨op, rfl⟩
      · exact own action later

end Alone

end Pool

end DawnPatrol.Foundation
