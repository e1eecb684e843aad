import Mathlib.Data.List.Infix
import Mathlib.Data.List.Count

/-!
# Format strings without operands

`fmt.Fprintf` with a format and no operands, as the program calls it. Text
outside directives is written as it is. A percent sign starts a directive:
flags, an argument index, a width, a precision, and a verb. Without operands
every verb but `%` is written as an error note, and so is a width or a
precision that is to be taken from an operand.

A format is written as it is exactly when it has no percent sign
(`expand_eq_self_iff`). The argument counts percent signs and asterisks: no
directive produces more of them than it is made of, and one that produces a
percent sign alone loses one. A directive that produces an error note can only
agree with the format when it is `%!`, and then the note would have to
continue in the format without end.
-/

set_option autoImplicit false

namespace DawnPatrol.Go.Fmt

/-! ## Numbers and argument indices -/

/-- `parsenum`: the number at the front, whether there is one, and what follows.
A number that grows too large takes the whole text with it. -/
def parsenum (num : ℕ) (isnum : Bool) : List Char → ℕ × Bool × List Char
  | [] => (num, isnum, [])
  | c :: cs =>
      if c.isDigit then
        if num > 1000000 then (0, false, [])
        else parsenum (num * 10 + (c.toNat - '0'.toNat)) true cs
      else (num, isnum, c :: cs)

/-- `parseArgNumber` after the opening bracket: what follows the closing one, and
whether a number stands between them. Without a closing bracket only the
opening one is skipped. -/
def parseArgNumber (format : List Char) : List Char × Bool :=
  if ']' ∈ format ∧ 2 ≤ format.length then
    let inside := format.takeWhile (· ≠ ']')
    let parsed := parsenum 0 false inside
    ((format.dropWhile (· ≠ ']')).tail, !inside.isEmpty && parsed.2.1 && parsed.2.2.isEmpty)
  else (format, false)

/-! ## Directives -/

/-- How far a directive has been read: what follows, whether the last item was
an argument index, whether the indices were good, and what has been written. -/
structure Scan where
  rest : List Char
  afterIndex : Bool := false
  goodArgNum : Bool := true
  written : List Char := []

/-- The flags of a directive. -/
def isFlag (c : Char) : Bool := c == '#' || c == '0' || c == '+' || c == '-' || c == ' '

namespace Scan

/-- `argNumber`: no index is good when there are no operands. -/
def argNumber (scan : Scan) : Scan :=
  match scan.rest with
  | '[' :: format =>
      let parsed := parseArgNumber format
      { scan with rest := parsed.1, afterIndex := parsed.2, goodArgNum := false }
  | _ => { scan with afterIndex := false }

/-- The width. -/
def width (scan : Scan) : Scan :=
  match scan.rest with
  | '*' :: rest =>
      { scan with
        rest := rest, afterIndex := false, written := scan.written ++ "%!(BADWIDTH)".toList }
  | format =>
      let parsed := parsenum 0 false format
      { scan with
        rest := parsed.2.2, goodArgNum := scan.goodArgNum && !(scan.afterIndex && parsed.2.1) }

/-- The precision, once its index has been read. -/
def precisionValue (scan : Scan) : Scan :=
  match scan.rest with
  | '*' :: rest =>
      { scan with
        rest := rest, afterIndex := false, written := scan.written ++ "%!(BADPREC)".toList }
  | format => { scan with rest := (parsenum 0 false format).2.2 }

/-- The precision. A dot that ends the format is a verb. -/
def precision (scan : Scan) : Scan :=
  match scan.rest with
  | '.' :: c :: rest =>
      precisionValue (argNumber { scan with
        rest := c :: rest, goodArgNum := scan.goodArgNum && !scan.afterIndex })
  | _ => scan

/-- The index before the verb. -/
def lastArgNumber (scan : Scan) : Scan :=
  if scan.afterIndex then scan else argNumber scan

/-- The verb: what the directive has written in the end, and what follows it. -/
def verb (scan : Scan) : List Char × List Char :=
  match scan.rest with
  | [] => (scan.written ++ "%!(NOVERB)".toList, [])
  | c :: rest =>
      if c = '%' then (scan.written ++ ['%'], rest)
      else if scan.goodArgNum then
        (scan.written ++ '%' :: '!' :: c :: "(MISSING)".toList, rest)
      else (scan.written ++ '%' :: '!' :: c :: "(BADINDEX)".toList, rest)

end Scan

/-- What a directive writes, and what follows it. The percent sign that starts
it has been read. -/
def directive (format : List Char) : List Char × List Char :=
  let start : Scan := { rest := format.dropWhile isFlag }
  start.argNumber.width.precision.lastArgNumber.verb

/-- Expand a format. Every step reads a character. -/
def expand : ℕ → List Char → List Char
  | 0, _ => []
  | _ + 1, [] => []
  | fuel + 1, c :: format =>
      if c = '%' then (directive format).1 ++ expand fuel (directive format).2
      else c :: expand fuel format

/-- What `fmt.Fprintf(w, format)` writes. -/
def sprintf (format : String) : String :=
  String.ofList (expand format.toList.length format.toList)

example : sprintf "100%" = "100%!(NOVERB)" := by decide
example : sprintf "50% off" = "50%!o(MISSING)ff" := by decide
example : sprintf "%%, %[1]5d and %*d" =
    "%, %!d(BADINDEX) and %!(BADWIDTH)%!d(MISSING)" := by decide

/-! ## Percent signs and asterisks -/

/-- The number of percent signs and asterisks. -/
def weight (text : List Char) : ℕ := text.count '%' + text.count '*'

@[simp] theorem weight_nil : weight [] = 0 := rfl

@[simp] theorem weight_append (first second : List Char) :
    weight (first ++ second) = weight first + weight second := by
  simp only [weight, List.count_append]
  omega

@[simp] theorem weight_cons (c : Char) (text : List Char) :
    weight (c :: text) = weight [c] + weight text :=
  weight_append [c] text

theorem weight_le_of_suffix {rest text : List Char} (suffix : rest <:+ text) :
    weight rest ≤ weight text :=
  Nat.add_le_add (suffix.sublist.count_le _) (suffix.sublist.count_le _)

theorem parsenum_suffix (num : ℕ) (isnum : Bool) (text : List Char) :
    (parsenum num isnum text).2.2 <:+ text := by
  induction text generalizing num isnum with
  | nil => exact List.suffix_rfl
  | cons c cs ih =>
      simp only [parsenum]
      split
      · split
        · exact List.nil_suffix
        · exact (ih _ _).trans (List.suffix_cons c cs)
      · exact List.suffix_rfl

theorem parseArgNumber_suffix (text : List Char) : (parseArgNumber text).1 <:+ text := by
  simp only [parseArgNumber]
  split
  · exact (List.tail_suffix _).trans (List.dropWhile_suffix _)
  · exact List.suffix_rfl

namespace Scan

/-- A part of a directive has been read. Whatever it wrote starts an error note,
and it wrote no more percent signs and asterisks than it read. -/
structure Reads (before after : Scan) : Prop where
  suffix : after.rest <:+ before.rest
  weight : weight after.written + weight after.rest ≤ weight before.written + weight before.rest
  written : after.written = before.written ∨
    ∃ note, after.written = before.written ++ '%' :: '!' :: note

theorem Reads.trans {first second third : Scan} (one : Reads first second)
    (two : Reads second third) : Reads first third where
  suffix := two.suffix.trans one.suffix
  weight := two.weight.trans one.weight
  written := by
    rcases one.written with same | ⟨note, wrote⟩
    · rw [← same]
      exact two.written
    · rcases two.written with same | ⟨more, wroteMore⟩
      · exact .inr ⟨note, same.trans wrote⟩
      · exact .inr ⟨note ++ '%' :: '!' :: more, by simp [wroteMore, wrote]⟩

/-- Text is skipped, and nothing is written. -/
theorem Reads.skip {before after : Scan} (suffix : after.rest <:+ before.rest)
    (written : after.written = before.written) : Reads before after where
  suffix := suffix
  weight := by
    rw [written]
    exact Nat.add_le_add_left (weight_le_of_suffix suffix) _
  written := .inl written

/-- An asterisk is read, and an error note is written. -/
theorem Reads.note {before after : Scan} {rest : List Char} (note : List Char)
    (read : before.rest = '*' :: rest) (left : after.rest = rest)
    (plain : Fmt.weight note = 0)
    (wrote : after.written = before.written ++ '%' :: '!' :: note) : Reads before after where
  suffix := by
    rw [read, left]
    exact List.suffix_cons _ _
  weight := by
    have percent : Fmt.weight ['%'] = 1 := by decide
    have mark : Fmt.weight ['!'] = 0 := by decide
    have asterisk : Fmt.weight ['*'] = 1 := by decide
    rw [read, left, wrote, weight_append, weight_cons, weight_cons '!', weight_cons '*']
    omega
  written := .inr ⟨note, wrote⟩

theorem reads_argNumber (scan : Scan) : Reads scan scan.argNumber := by
  unfold argNumber
  split
  · rename_i format bracket
    refine .skip ?_ rfl
    rw [bracket]
    exact (parseArgNumber_suffix format).trans (List.suffix_cons _ _)
  · exact .skip List.suffix_rfl rfl

theorem reads_width (scan : Scan) : Reads scan scan.width := by
  unfold width
  split
  · rename_i rest asterisk
    exact .note "(BADWIDTH)".toList asterisk rfl (by decide) rfl
  · exact .skip (parsenum_suffix _ _ _) rfl

theorem reads_precisionValue (scan : Scan) : Reads scan scan.precisionValue := by
  unfold precisionValue
  split
  · rename_i rest asterisk
    exact .note "(BADPREC)".toList asterisk rfl (by decide) rfl
  · exact .skip (parsenum_suffix _ _ _) rfl

theorem reads_precision (scan : Scan) : Reads scan scan.precision := by
  unfold precision
  split
  · rename_i c rest dot
    have skipped : Reads scan { scan with
        rest := c :: rest, goodArgNum := scan.goodArgNum && !scan.afterIndex } := by
      refine .skip ?_ rfl
      rw [dot]
      exact List.suffix_cons _ _
    exact (skipped.trans (reads_argNumber _)).trans (reads_precisionValue _)
  · exact .skip List.suffix_rfl rfl

theorem reads_lastArgNumber (scan : Scan) : Reads scan scan.lastArgNumber := by
  unfold lastArgNumber
  split
  · exact .skip List.suffix_rfl rfl
  · exact reads_argNumber scan

end Scan

/-- **What a directive does.** It leaves an end of the format, and writes no more
percent signs and asterisks than it is made of. It writes a percent sign alone
for a second one, or starts with an error note. -/
theorem directive_spec (format : List Char) :
    (directive format).2 <:+ format ∧
      weight (directive format).1 + weight (directive format).2 ≤ weight format + 1 ∧
      ((directive format).1 = ['%'] ∧ weight (directive format).2 < weight format ∨
        ∃ note, (directive format).1 = '%' :: '!' :: note) := by
  have percent : weight ['%'] = 1 := by decide
  have mark : weight ['!'] = 0 := by decide
  set start : Scan := { rest := format.dropWhile isFlag } with startIs
  set read := start.argNumber.width.precision.lastArgNumber with readIs
  have reads : Scan.Reads start read :=
    (((Scan.reads_argNumber _).trans (Scan.reads_width _)).trans (Scan.reads_precision _)).trans
      (Scan.reads_lastArgNumber _)
  have flags : weight (format.dropWhile isFlag) ≤ weight format :=
    weight_le_of_suffix (List.dropWhile_suffix _)
  have heavy : weight read.written + weight read.rest ≤ weight format := by
    have := reads.weight
    simp only [startIs, weight_nil] at this
    omega
  have suffix : read.rest <:+ format := reads.suffix.trans (List.dropWhile_suffix _)
  have wrote : read.written = [] ∨ ∃ note, read.written = '%' :: '!' :: note := reads.written
  have ends : directive format = read.verb := rfl
  rw [ends, Scan.verb]
  split
  · -- the format ends before a verb
    rename_i ended
    rw [ended] at heavy
    have noverb : weight "%!(NOVERB)".toList = 1 := by decide
    refine ⟨List.nil_suffix, ?_, .inr ?_⟩
    · simp only [weight_append, noverb, weight_nil] at heavy ⊢
      omega
    · rcases wrote with nothing | ⟨note, wrote⟩
      · exact ⟨"(NOVERB)".toList, by rw [nothing]; rfl⟩
      · exact ⟨note ++ "%!(NOVERB)".toList, by rw [wrote]; rfl⟩
  · rename_i c rest verb
    rw [verb] at heavy suffix
    have after : rest <:+ format := (List.suffix_cons c rest).trans suffix
    have ofVerb : weight (c :: rest) = weight [c] + weight rest := weight_cons c rest
    split
    · -- a second percent sign
      rename_i percentVerb
      rw [ofVerb, percentVerb, percent] at heavy
      have lighter : weight rest < weight format := by omega
      refine ⟨after, ?_, ?_⟩
      · simp only [weight_append, percent]
        omega
      · rcases wrote with nothing | ⟨note, wrote⟩
        · exact .inl ⟨by rw [nothing]; rfl, lighter⟩
        · exact .inr ⟨note ++ ['%'], by rw [wrote]; rfl⟩
    · have missing : weight "(MISSING)".toList = 0 := by decide
      have badIndex : weight "(BADINDEX)".toList = 0 := by decide
      have ends : ∀ note : List Char, weight note = 0 →
          rest <:+ format ∧
            weight (read.written ++ '%' :: '!' :: c :: note) + weight rest ≤ weight format + 1 ∧
            (read.written ++ '%' :: '!' :: c :: note = ['%'] ∧ weight rest < weight format ∨
              ∃ tail, read.written ++ '%' :: '!' :: c :: note = '%' :: '!' :: tail) := by
        intro note plain
        refine ⟨after, ?_, .inr ?_⟩
        · rw [weight_append, weight_cons '%', weight_cons '!', weight_cons c, percent, mark, plain]
          omega
        · rcases wrote with nothing | ⟨earlier, wrote⟩
          · exact ⟨c :: note, by rw [nothing]; rfl⟩
          · exact ⟨earlier ++ '%' :: '!' :: c :: note, by rw [wrote]; rfl⟩
      split
      · exact ends _ missing
      · exact ends _ badIndex

/-! ## Formats that are written as they are -/

/-- Expanding makes no percent signs and asterisks. -/
theorem weight_expand_le (fuel : ℕ) (format : List Char) :
    weight (expand fuel format) ≤ weight format := by
  induction fuel generalizing format with
  | zero => simp [expand]
  | succ fuel ih =>
      cases format with
      | nil => simp [expand]
      | cons c format =>
          simp only [expand]
          split
          · rename_i percentSign
            obtain ⟨-, light, -⟩ := directive_spec format
            have rest := ih (directive format).2
            have percent : weight ['%'] = 1 := by decide
            rw [weight_append, weight_cons c, percentSign, percent]
            omega
          · rw [weight_cons c, weight_cons c format]
            have rest := ih format
            omega

/-- Text without percent signs is written as it is. -/
theorem expand_append {text : List Char} (plain : '%' ∉ text) (fuel : ℕ) (format : List Char) :
    expand (text.length + fuel) (text ++ format) = text ++ expand fuel format := by
  induction text with
  | nil => simp
  | cons c text ih =>
      obtain ⟨ne, rest⟩ : '%' ≠ c ∧ '%' ∉ text := by simpa using plain
      rw [show (c :: text).length + fuel = text.length + fuel + 1 by simp; omega]
      simp only [List.cons_append, expand, if_neg ne.symm, ih rest]

/-- No format is a text followed by its own expansion. -/
theorem ne_append_expand {text : List Char} (nonempty : text ≠ []) (plain : '%' ∉ text)
    {fuel : ℕ} {format : List Char} (enough : format.length ≤ fuel) :
    format ≠ text ++ expand fuel format := by
  induction fuel using Nat.strong_induction_on generalizing format with
  | h fuel ih =>
      intro same
      have positive := List.length_pos_iff.mpr nonempty
      obtain ⟨rest, split⟩ : ∃ rest, format = text ++ rest := ⟨_, same⟩
      have long : format.length = text.length + rest.length := by rw [split, List.length_append]
      -- what follows the text is again the text with the expansion of what follows it
      have again : rest = text ++ expand (fuel - text.length) rest := by
        have expanded := expand_append plain (fuel - text.length) rest
        rw [show text.length + (fuel - text.length) = fuel by omega, ← split] at expanded
        rw [← expanded]
        exact List.append_cancel_left (split.symm.trans same)
      exact ih (fuel - text.length) (by omega) (by omega) again

/-- **A format is written as it is exactly when it has no percent sign.** -/
theorem expand_eq_self_iff {fuel : ℕ} {format : List Char} (enough : format.length ≤ fuel) :
    expand fuel format = format ↔ '%' ∉ format := by
  constructor
  · intro same
    induction fuel generalizing format with
    | zero =>
        rw [List.length_eq_zero_iff.mp (Nat.le_zero.mp enough)]
        simp
    | succ fuel ih =>
        cases format with
        | nil => simp
        | cons c format =>
            have shorter : format.length ≤ fuel := by simpa using enough
            simp only [expand] at same
            split at same
            · rename_i percentSign
              subst percentSign
              obtain ⟨suffix, -, alone | ⟨note, starts⟩⟩ := directive_spec format
              · -- a percent sign has been lost
                have kept : expand fuel (directive format).2 = format := by
                  rw [alone.1] at same
                  exact (List.cons_inj_right _).mp same
                have lost := weight_expand_le fuel (directive format).2
                rw [kept] at lost
                exact absurd alone.2 (by omega)
              · rw [starts] at same
                obtain ⟨rest, rfl⟩ : ∃ rest, format = '!' :: rest :=
                  ⟨_, ((List.cons_inj_right _).mp same).symm⟩
                have wrote : directive ('!' :: rest) =
                    ('%' :: '!' :: '!' :: "(MISSING)".toList, rest) := rfl
                rw [wrote] at starts
                obtain rfl : '!' :: "(MISSING)".toList = note := by simpa using starts
                have endless : rest = '!' :: "(MISSING)".toList ++ expand fuel rest := by
                  rw [wrote] at same
                  simpa using same.symm
                refine absurd endless (ne_append_expand (by simp) (by decide) ?_)
                simp only [List.length_cons] at shorter
                omega
            · rename_i other
              have rest := ih shorter ((List.cons_inj_right _).mp same)
              simp only [List.mem_cons, not_or]
              exact ⟨fun equal => other equal.symm, rest⟩
  · intro plain
    obtain ⟨more, rfl⟩ : ∃ more, fuel = format.length + more := ⟨fuel - format.length, by omega⟩
    have expanded := expand_append plain more []
    rw [List.append_nil] at expanded
    rw [expanded]
    cases more <;> simp [expand]

/-- `fmt.Fprintf` writes a text as it is exactly when the text has no percent
sign. -/
theorem sprintf_eq_self_iff (format : String) : sprintf format = format ↔ '%' ∉ format.toList := by
  rw [← expand_eq_self_iff (le_refl format.toList.length), sprintf, ← String.toList_inj,
    String.toList_ofList]

end DawnPatrol.Go.Fmt
