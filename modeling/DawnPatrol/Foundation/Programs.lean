import Mathlib.Logic.Function.Basic

/-!
# Programs that call operations

A program either returns a value, raises a panic, or calls an operation and
continues with the answer. What an operation does is not part of the program:
a handler that keeps a state answers the calls of a program run on its own
(`Program.run`), and a relation between the states before and after a call
answers them when several programs take turns
(`DawnPatrol.Foundation.Interleaving`).

Programs form a monad in which a panic skips what follows it. `deferring` runs
a cleanup after a program whether it returns or panics, and `recovering` turns
a panic back into a program.

Running respects this structure: a sequence runs its parts in order
(`run_bind`), a cleanup runs from the state in which its body ended
(`run_deferring`), and a recovered program continues from the state of the
panic (`run_recovering`).
-/

set_option autoImplicit false

namespace DawnPatrol.Foundation

variable {Op : Type} {Res : Op → Type} {ε α β γ σ : Type}

/-- A program over operations `Op`, whose answers are typed by `Res`, that ends
with a value of `α` or a panic of `ε`. -/
inductive Program (Op : Type) (Res : Op → Type) (ε α : Type) where
  | ret (value : α)
  | raise (panic : ε)
  | call (op : Op) (next : Res op → Program Op Res ε α)

namespace Program

/-- Run the first program, then the one its value selects. -/
def bind : Program Op Res ε α → (α → Program Op Res ε β) → Program Op Res ε β
  | ret value, next => next value
  | raise panic, _ => raise panic
  | call op rest, next => call op fun answer => (rest answer).bind next

instance : Monad (Program Op Res ε) where
  pure := ret
  bind := bind

/-- Call one operation and return its answer. -/
def perform (op : Op) : Program Op Res ε (Res op) := call op ret

/-- Run `cleanup` when the body ends, by returning or by a panic. -/
def deferring (cleanup : Program Op Res ε Unit) :
    Program Op Res ε α → Program Op Res ε α
  | ret value => cleanup.bind fun _ => ret value
  | raise panic => cleanup.bind fun _ => raise panic
  | call op rest => call op fun answer => deferring cleanup (rest answer)

/-- Continue with `handler` when the body panics. -/
def recovering (handler : ε → Program Op Res ε α) :
    Program Op Res ε α → Program Op Res ε α
  | ret value => ret value
  | raise panic => handler panic
  | call op rest => call op fun answer => recovering handler (rest answer)

@[simp] theorem pure_eq (value : α) : (pure value : Program Op Res ε α) = ret value := rfl

@[simp] theorem bind_eq (first : Program Op Res ε α) (next : α → Program Op Res ε β) :
    first >>= next = first.bind next := rfl

@[simp] theorem ret_bind (value : α) (next : α → Program Op Res ε β) :
    (ret value : Program Op Res ε α).bind next = next value := rfl

@[simp] theorem raise_bind (panic : ε) (next : α → Program Op Res ε β) :
    (raise panic : Program Op Res ε α).bind next = raise panic := rfl

@[simp] theorem call_bind (op : Op) (rest : Res op → Program Op Res ε α)
    (next : α → Program Op Res ε β) :
    (call op rest).bind next = call op fun answer => (rest answer).bind next := rfl

@[simp] theorem perform_bind (op : Op) (next : Res op → Program Op Res ε β) :
    (perform op : Program Op Res ε (Res op)).bind next = call op next := rfl

theorem bind_ret (program : Program Op Res ε α) : program.bind ret = program := by
  induction program with
  | ret value => rfl
  | raise panic => rfl
  | call op rest ih => simp only [call_bind, ih]

theorem bind_assoc (first : Program Op Res ε α) (second : α → Program Op Res ε β)
    (third : β → Program Op Res ε γ) :
    (first.bind second).bind third = first.bind fun value => (second value).bind third := by
  induction first with
  | ret value => rfl
  | raise panic => rfl
  | call op rest ih => simp only [call_bind, ih]

instance : LawfulMonad (Program Op Res ε) :=
  LawfulMonad.mk' _ bind_ret (fun _ _ => rfl) bind_assoc

/-- Panicking again with the value of a panic changes nothing. -/
theorem recovering_raise (program : Program Op Res ε α) : recovering raise program = program := by
  induction program with
  | ret value => rfl
  | raise panic => rfl
  | call op rest ih => simp only [recovering, ih]

/-! ## Running one program -/

/-- Run a program to its end, answering each call from the state. -/
def run (handle : (op : Op) → σ → Res op × σ) :
    Program Op Res ε α → σ → Except ε α × σ
  | ret value, state => (.ok value, state)
  | raise panic, state => (.error panic, state)
  | call op rest, state => (rest (handle op state).1).run handle (handle op state).2

variable (handle : (op : Op) → σ → Res op × σ)

@[simp] theorem run_ret (value : α) (state : σ) :
    (ret value : Program Op Res ε α).run handle state = (.ok value, state) := rfl

@[simp] theorem run_raise (panic : ε) (state : σ) :
    (raise panic : Program Op Res ε α).run handle state = (.error panic, state) := rfl

@[simp] theorem run_call (op : Op) (rest : Res op → Program Op Res ε α) (state : σ) :
    (call op rest).run handle state =
      (rest (handle op state).1).run handle (handle op state).2 := rfl

@[simp] theorem run_perform (op : Op) (state : σ) :
    (perform op : Program Op Res ε (Res op)).run handle state =
      (.ok (handle op state).1, (handle op state).2) := rfl

/-- **A sequence runs its parts in order**, and stops at a panic of the first. -/
theorem run_bind (first : Program Op Res ε α) (next : α → Program Op Res ε β) (state : σ) :
    (first.bind next).run handle state =
      match first.run handle state with
      | (.ok value, later) => (next value).run handle later
      | (.error panic, later) => (.error panic, later) := by
  induction first generalizing state with
  | ret value => rfl
  | raise panic => rfl
  | call op rest ih => simp only [call_bind, run_call, ih]

/-- A cleanup runs from the state in which its body ended. A panic of the
cleanup replaces the outcome of the body. -/
theorem run_deferring (cleanup : Program Op Res ε Unit) (body : Program Op Res ε α) (state : σ) :
    (deferring cleanup body).run handle state =
      match body.run handle state with
      | (outcome, later) =>
          match cleanup.run handle later with
          | (.ok _, last) => (outcome, last)
          | (.error panic, last) => (.error panic, last) := by
  induction body generalizing state with
  | ret value =>
      simp only [deferring, run_bind, run_ret]
      rcases cleanup.run handle state with ⟨_ | _, _⟩ <;> rfl
  | raise panic =>
      simp only [deferring, run_bind, run_raise]
      rcases cleanup.run handle state with ⟨_ | _, _⟩ <;> rfl
  | call op rest ih => simp only [deferring, run_call, ih]

/-- A recovered program continues with the handler from the state of the
panic. -/
theorem run_recovering (handler : ε → Program Op Res ε α) (body : Program Op Res ε α) (state : σ) :
    (recovering handler body).run handle state =
      match body.run handle state with
      | (.ok value, later) => (.ok value, later)
      | (.error panic, later) => (handler panic).run handle later := by
  induction body generalizing state with
  | ret value => rfl
  | raise panic => rfl
  | call op rest ih => simp only [recovering, run_call, ih]

/-! ## The trace of a run -/

/-- The calls of a run with their answers, in order. -/
def trace : Program Op Res ε α → σ → List (Σ op, Res op)
  | ret _, _ => []
  | raise _, _ => []
  | call op rest, state =>
      ⟨op, (handle op state).1⟩ :: (rest (handle op state).1).trace (handle op state).2

@[simp] theorem trace_ret (value : α) (state : σ) :
    (ret value : Program Op Res ε α).trace handle state = [] := rfl

@[simp] theorem trace_raise (panic : ε) (state : σ) :
    (raise panic : Program Op Res ε α).trace handle state = [] := rfl

@[simp] theorem trace_call (op : Op) (rest : Res op → Program Op Res ε α) (state : σ) :
    (call op rest).trace handle state =
      ⟨op, (handle op state).1⟩ ::
        (rest (handle op state).1).trace handle (handle op state).2 := rfl

/-- A sequence makes the calls of its parts in order. -/
theorem trace_bind (first : Program Op Res ε α) (next : α → Program Op Res ε β) (state : σ) :
    (first.bind next).trace handle state = first.trace handle state ++
      match first.run handle state with
      | (.ok value, later) => (next value).trace handle later
      | (.error _, _) => [] := by
  induction first generalizing state with
  | ret value => rfl
  | raise panic => rfl
  | call op rest ih => simp only [call_bind, trace_call, run_call, ih, List.cons_append]

/-- A cleanup makes its calls after those of its body. -/
theorem trace_deferring (cleanup : Program Op Res ε Unit) (body : Program Op Res ε α)
    (state : σ) :
    (deferring cleanup body).trace handle state =
      body.trace handle state ++ cleanup.trace handle (body.run handle state).2 := by
  induction body generalizing state with
  | ret value =>
      simp only [deferring, trace_bind, trace_ret, run_ret, List.nil_append]
      rcases cleanup.run handle state with ⟨_ | _, _⟩ <;> simp
  | raise panic =>
      simp only [deferring, trace_bind, trace_raise, run_raise, List.nil_append]
      rcases cleanup.run handle state with ⟨_ | _, _⟩ <;> simp
  | call op rest ih => simp only [deferring, trace_call, run_call, ih, List.cons_append]

/-! ## The calls of a program -/

/-- Every call the program can make is allowed. -/
def Only (allowed : Op → Prop) : Program Op Res ε α → Prop
  | ret _ => True
  | raise _ => True
  | call op rest => allowed op ∧ ∀ answer, (rest answer).Only allowed

theorem Only.bind {allowed : Op → Prop} {first : Program Op Res ε α}
    {next : α → Program Op Res ε β} (firstOnly : first.Only allowed)
    (nextOnly : ∀ value, (next value).Only allowed) : (first.bind next).Only allowed := by
  induction first with
  | ret value => exact nextOnly value
  | raise panic => exact trivial
  | call op rest ih => exact ⟨firstOnly.1, fun answer => ih answer (firstOnly.2 answer)⟩

theorem Only.mono {allowed permitted : Op → Prop} {program : Program Op Res ε α}
    (only : program.Only allowed) (weaker : ∀ op, allowed op → permitted op) :
    program.Only permitted := by
  induction program with
  | ret value => exact trivial
  | raise panic => exact trivial
  | call op rest ih => exact ⟨weaker op only.1, fun answer => ih answer (only.2 answer)⟩

theorem Only.deferring {allowed : Op → Prop} {cleanup : Program Op Res ε Unit}
    {body : Program Op Res ε α} (cleanupOnly : cleanup.Only allowed)
    (bodyOnly : body.Only allowed) : (deferring cleanup body).Only allowed := by
  induction body with
  | ret value => exact cleanupOnly.bind fun _ => trivial
  | raise panic => exact cleanupOnly.bind fun _ => trivial
  | call op rest ih => exact ⟨bodyOnly.1, fun answer => ih answer (bodyOnly.2 answer)⟩

theorem Only.recovering {allowed : Op → Prop} {handler : ε → Program Op Res ε α}
    {body : Program Op Res ε α} (handlerOnly : ∀ panic, (handler panic).Only allowed)
    (bodyOnly : body.Only allowed) : (recovering handler body).Only allowed := by
  induction body with
  | ret value => exact trivial
  | raise panic => exact handlerOnly panic
  | call op rest ih => exact ⟨bodyOnly.1, fun answer => ih answer (bodyOnly.2 answer)⟩

/-- The calls of a run are those that the program can make. -/
theorem Only.trace {allowed : Op → Prop} {program : Program Op Res ε α}
    (only : program.Only allowed) (state : σ) :
    ∀ answered ∈ program.trace handle state, allowed answered.1 := by
  induction program generalizing state with
  | ret value => simp
  | raise panic => simp
  | call op rest ih =>
      intro answered member
      rcases List.mem_cons.mp member with rfl | later
      · exact only.1
      · exact ih _ (only.2 _) _ answered later

end Program

end DawnPatrol.Foundation
