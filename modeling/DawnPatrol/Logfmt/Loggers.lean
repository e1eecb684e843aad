import DawnPatrol.Go.Rfc3339
import DawnPatrol.Logfmt.Encoder

/-!
# Loggers with a context

A logger writes what it is given, or puts keys and values of its own before it. A
value of its own may be a `Valuer`, which makes a new value in every call. A
context that holds no `Valuer` does not look for one in a call.

A logger that was made in some steps writes what the steps have put together, with
the values of the moment of the call (`log_build`). In particular it never looks
for a `Valuer` in vain, and misses none.
-/

set_option autoImplicit false

namespace DawnPatrol.Logfmt

open Go

/-! ## Keys and values of a context -/

/-- What keys and values are handed over as: a value, or a `Valuer`, that generates one
from the clock. -/
inductive Field where
  | value (v : Value)
  | valuer (generate : Time → Value)

/-- A `Valuer` where none is looked for is a function, and written as one. -/
def Field.plain : Field → Value
  | .value v => v
  | .valuer _ => .unsupported {}

/-- What `bindValues` puts in place of a value. -/
def Field.bound (now : Time) : Field → Field
  | .value v => .value v
  | .valuer generate => .value (generate now)

def Field.isValuer : Field → Bool
  | .value _ => false
  | .valuer _ => true

/-- `bindValues`: every second element is bound. -/
def bindValues (now : Time) : List Field → List Field
  | key :: value :: keyvals => key :: value.bound now :: bindValues now keyvals
  | keyvals => keyvals

/-- `containsValuer`. -/
def containsValuer : List Field → Bool
  | _ :: value :: keyvals => value.isValuer || containsValuer keyvals
  | _ => false

/-- `ErrMissingValue`. -/
def errMissingValue : Field :=
  .value (.pointer { error := some (some (utf8 "(MISSING)".toList)) } (.unsupported {}))

/-- Keys and values with one in place of the last value, if it is missing. -/
def completed (keyvals : List Field) : List Field :=
  if keyvals.length % 2 ≠ 0 then keyvals ++ [errMissingValue] else keyvals

/-! ## Loggers -/

/-- A `context`. -/
structure Context where
  keyvals : List Field := []
  hasValuer : Bool := false

/-- A logger: one that writes logfmt, or one with a context before it. -/
inductive Logger where
  | logfmt
  | context (l : Context)

namespace Logger

/-- `newContext`. -/
def newContext : Logger → Context
  | logfmt => {}
  | context l => l

/-- `With`. -/
def withKeyvals (logger : Logger) (keyvals : List Field) : Logger :=
  if keyvals = [] then logger
  else
    let l := logger.newContext
    .context ⟨completed (l.keyvals ++ keyvals), l.hasValuer || containsValuer keyvals⟩

/-- `WithPrefix`. -/
def withPrefix (logger : Logger) (keyvals : List Field) : Logger :=
  if keyvals = [] then logger
  else
    let l := logger.newContext
    .context ⟨completed keyvals ++ l.keyvals, l.hasValuer || containsValuer keyvals⟩

/-- What `Log` writes. -/
def log (now : Time) (keyvals : List Field) : Logger → Except EncodeError (List Char)
  | logfmt => logLine (keyvals.map Field.plain)
  | context l =>
      let kvs := completed (l.keyvals ++ keyvals)
      let kvs :=
        if l.hasValuer then
          bindValues now (kvs.take l.keyvals.length) ++ kvs.drop l.keyvals.length
        else kvs
      logLine (kvs.map Field.plain)

end Logger

/-! ## Loggers that are made in steps -/

/-- A step in which a logger is made from another one. -/
inductive Step where
  | after (keyvals : List Field)
  | before (keyvals : List Field)

/-- The logger after a step. -/
def Step.make (logger : Logger) : Step → Logger
  | after keyvals => logger.withKeyvals keyvals
  | before keyvals => logger.withPrefix keyvals

/-- The keys and values that a step leaves. -/
def Step.keyvals (stored : List Field) : Step → List Field
  | after keyvals => stored ++ completed keyvals
  | before keyvals => completed keyvals ++ stored

/-- The logger that some steps make from one that writes logfmt. -/
def build (steps : List Step) : Logger := steps.foldl Step.make .logfmt

/-- The keys and values that some steps put together. -/
def gathered (steps : List Step) : List Field := steps.foldl Step.keyvals []

/-- A context keeps whole pairs, and knows whether there is a `Valuer` among its values. -/
structure Context.Sound (l : Context) : Prop where
  whole : l.keyvals.length % 2 = 0
  valuers : l.hasValuer = containsValuer l.keyvals

theorem completed_even (keyvals : List Field) : (completed keyvals).length % 2 = 0 := by
  unfold completed
  split
  · rw [List.length_append, List.length_singleton]
    omega
  · omega

theorem completed_append {stored : List Field} (whole : stored.length % 2 = 0)
    (keyvals : List Field) : completed (stored ++ keyvals) = stored ++ completed keyvals := by
  unfold completed
  rw [List.length_append]
  by_cases odd : keyvals.length % 2 ≠ 0
  · rw [if_pos odd, if_pos (by omega), List.append_assoc]
  · rw [if_neg odd, if_neg (by omega)]

theorem containsValuer_append {stored : List Field} (whole : stored.length % 2 = 0)
    (keyvals : List Field) :
    containsValuer (stored ++ keyvals) = (containsValuer stored || containsValuer keyvals) := by
  induction stored using containsValuer.induct with
  | case1 key value stored ih =>
      simp only [List.length_cons] at whole
      simp only [List.cons_append, containsValuer]
      rw [ih (by omega), Bool.or_assoc]
  | case2 stored short =>
      cases stored with
      | nil => simp [containsValuer]
      | cons key stored =>
          cases stored with
          | nil => simp at whole
          | cons value stored => exact absurd rfl (short key value stored)

theorem containsValuer_completed (keyvals : List Field) :
    containsValuer (completed keyvals) = containsValuer keyvals := by
  unfold completed
  split
  · rename_i odd
    induction keyvals using containsValuer.induct with
    | case1 key value keyvals ih =>
        simp only [List.length_cons] at odd
        simp only [List.cons_append, containsValuer]
        rw [ih (by omega)]
    | case2 keyvals short =>
        cases keyvals with
        | nil => simp at odd
        | cons key keyvals =>
            cases keyvals with
            | nil => rfl
            | cons value keyvals => exact absurd rfl (short key value keyvals)
  · rfl

/-- Nothing is bound where there is no `Valuer`. -/
theorem bindValues_of_plain (now : Time) {stored : List Field}
    (none : containsValuer stored = false) : bindValues now stored = stored := by
  induction stored using containsValuer.induct with
  | case1 key value stored ih =>
      simp only [containsValuer, Bool.or_eq_false_iff] at none
      have same : value.bound now = value := by
        cases value with
        | value v => rfl
        | valuer generate => cases none.1
      rw [bindValues, same, ih none.2]
  | case2 stored short =>
      cases stored with
      | nil => rfl
      | cons key stored =>
          cases stored with
          | nil => rfl
          | cons value stored => exact absurd rfl (short key value stored)

/-- A logger that keeps some keys and values: without any, it is the one that writes
logfmt. -/
inductive Keeps : Logger → List Field → Prop where
  | nothing : Keeps .logfmt []
  | context {l : Context} (sound : l.Sound) (some : l.keyvals ≠ []) :
      Keeps (.context l) l.keyvals

theorem completed_ne_nil {keyvals : List Field} (some : keyvals ≠ []) :
    completed keyvals ≠ [] := by
  unfold completed
  split
  · simp
  · exact some

theorem Keeps.newContext {logger : Logger} {stored : List Field} (keeps : Keeps logger stored) :
    logger.newContext.Sound ∧ logger.newContext.keyvals = stored := by
  cases keeps with
  | nothing => exact ⟨⟨rfl, rfl⟩, rfl⟩
  | context sound some => exact ⟨sound, rfl⟩

/-- **A step adds its keys and values** to those that a logger keeps. -/
theorem Keeps.make {logger : Logger} {stored : List Field} (keeps : Keeps logger stored)
    (step : Step) : Keeps (step.make logger) (step.keyvals stored) := by
  obtain ⟨sound, same⟩ := keeps.newContext
  have whole := sound.whole
  have valuers := sound.valuers
  rw [same] at whole valuers
  cases step with
  | after keyvals =>
      unfold Step.make Step.keyvals Logger.withKeyvals
      dsimp only
      split
      · rename_i empty
        rw [empty]
        simpa [completed] using keeps
      · rename_i some
        rw [same, completed_append whole]
        have last := completed_ne_nil some
        refine @Keeps.context ⟨stored ++ completed keyvals, _⟩ ⟨?_, ?_⟩ (by simp [last])
        · have even := completed_even keyvals
          simp only [List.length_append]
          omega
        · simp only
          rw [containsValuer_append whole, containsValuer_completed, valuers]
  | before keyvals =>
      unfold Step.make Step.keyvals Logger.withPrefix
      dsimp only
      split
      · rename_i empty
        rw [empty]
        simpa [completed] using keeps
      · rename_i some
        rw [same]
        have first := completed_ne_nil some
        have even := completed_even keyvals
        refine @Keeps.context ⟨completed keyvals ++ stored, _⟩ ⟨?_, ?_⟩ (by simp [first])
        · simp only [List.length_append]
          omega
        · simp only
          rw [containsValuer_append even, containsValuer_completed, valuers, Bool.or_comm]

theorem keeps_build (steps : List Step) : Keeps (build steps) (gathered steps) := by
  have run : ∀ {logger : Logger} {stored : List Field}, Keeps logger stored →
      Keeps (steps.foldl Step.make logger) (steps.foldl Step.keyvals stored) := by
    induction steps with
    | nil => exact fun keeps => keeps
    | cons step steps ih => exact fun keeps => ih (keeps.make step)
  exact run .nothing

/-- What a logger writes that keeps some keys and values. -/
theorem Keeps.log {logger : Logger} {stored : List Field} (keeps : Keeps logger stored)
    (now : Time) (keyvals : List Field) :
    logger.log now keyvals = logLine ((bindValues now stored ++
      if stored = [] then keyvals else completed keyvals).map Field.plain) := by
  cases keeps with
  | nothing => rfl
  | @context l sound some =>
      rw [if_neg some, Logger.log, completed_append sound.whole, List.take_left', List.drop_left']
      · split
        · rfl
        · rename_i plain
          have none : containsValuer l.keyvals = false := by
            rw [← sound.valuers]
            simpa using plain
          rw [bindValues_of_plain now none]
      · rfl
      · rfl

/-- **A logger writes what its steps have put together**, with the values of the moment
of the call, and then what it is given. -/
theorem log_build (steps : List Step) (now : Time) (keyvals : List Field) :
    (build steps).log now keyvals =
      logLine ((bindValues now (gathered steps) ++
        if gathered steps = [] then keyvals else completed keyvals).map Field.plain) :=
  (keeps_build steps).log now keyvals

end DawnPatrol.Logfmt
