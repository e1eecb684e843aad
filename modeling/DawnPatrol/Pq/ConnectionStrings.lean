import DawnPatrol.Foundation.Delimiters
import DawnPatrol.Go.Values
import Mathlib.Data.Char
import Mathlib.Data.List.Lex
import Mathlib.Data.List.Sort
import Mathlib.Order.Lattice

/-!
# Connection strings of the Postgres driver

The driver turns a URL into a string of options, `key=value` with spaces between
them, and reads options from such a string. It escapes the spaces, the quotes and
the backslashes of the values, and sorts the options, because the options of a
query come from a map.

The parts of a URL are taken to be texts in UTF-8, as are the variables and the lines
of a password file.

The string of a URL does not depend on the order of the map (`parseURL_perm`). Its
options are read back as they were, with any characters in their values other
than white space that is no space (`parseOpts_joined`).
-/

set_option autoImplicit false

namespace DawnPatrol.Pq

open Foundation Go

/-! ## Errors and options -/

/-- How a connection fails before anything is sent. `unsupported` and `dateStyle` are
panics that become errors. -/
inductive DialError where
  | url (e : GoError)
  | invalidProtocol (scheme : List Char)
  | missingEquals (key : List Char)
  | missingCharacter
  | unterminatedQuote
  | unsupported (name : List Char)
  | clientEncoding
  | dateStyle (value : List Char)
  | noUser (e : GoError)
  | unrecognized (value key : List Char)
  | connectTimeout (timeout : List Char)

/-- The `values` of a connection. -/
def Options := List Char → Option (List Char)

/-- An option of a connection is set, or set again. -/
def Options.set (o : Options) (option : List Char × List Char) : Options :=
  fun key => if key = option.1 then some option.2 else o key

/-! ## The names of options -/

namespace Key

def user : List Char := "user".toList
def password : List Char := "password".toList
def host : List Char := "host".toList
def port : List Char := "port".toList
def dbname : List Char := "dbname".toList
def applicationName : List Char := "application_name".toList
def fallbackApplicationName : List Char := "fallback_application_name".toList
def clientEncoding : List Char := "client_encoding".toList
def datestyle : List Char := "datestyle".toList
def sslmode : List Char := "sslmode".toList
def connectTimeout : List Char := "connect_timeout".toList
def disablePreparedBinaryResult : List Char := "disable_prepared_binary_result".toList
def binaryParameters : List Char := "binary_parameters".toList

end Key

/-! ## From a URL to a string -/

/-- What `url.Parse` finds in a URL: the name and the password of its user, and the
first values of the keys of its query. -/
structure URL where
  scheme : List Char
  user : Option (List Char × Option (List Char))
  host : List Char
  path : List Char
  query : List (List Char × List Char)

/-- `net.SplitHostPort`, without the texts of its errors. -/
def splitHostPort (hostport : List Char) : Option (List Char × List Char) :=
  match cutLast ':' hostport with
  | none => none
  | some (before, port) =>
      match hostport with
      | '[' :: rest =>
          match cutFirst ']' rest with
          | none => none
          | some (host, behind) =>
              if behind = ':' :: port ∧ '[' ∉ rest ∧ ']' ∉ behind then some (host, port) else none
      | _ =>
          if ':' ∈ before ∨ '[' ∈ hostport ∨ ']' ∈ hostport then none else some (before, port)

/-- What the escaper makes of a character. -/
def escape (c : Char) : List Char :=
  if c = ' ' ∨ c = '\x27' ∨ c = '\\' then ['\\', c] else [c]

/-- An option as it is written. -/
def optionText (option : List Char × List Char) : List Char :=
  option.1 ++ '=' :: option.2.flatMap escape

/-- The options of a URL other than those of its query. -/
def URL.components (u : URL) : List (List Char × List Char) :=
  (match u.user with
    | none => []
    | some (name, password) =>
        [(Key.user, name), (Key.password, password.getD [])]) ++
  (match splitHostPort u.host with
    | none => [(Key.host, u.host)]
    | some (host, port) => [(Key.host, host), (Key.port, port)]) ++
  (if u.path = [] then [] else [(Key.dbname, u.path.drop 1)])

/-- What `accrue` collects, when the map of the query is ranged over in some order. -/
def URL.accrued (u : URL) (order : List (List Char × List Char)) : List (List Char × List Char) :=
  (u.components ++ order).filter fun option => option.2 ≠ []

/-- `strings.Join` with a space. -/
def joined : List (List Char) → List Char
  | [] => []
  | [text] => text
  | text :: texts => text ++ ' ' :: joined texts

/-- `ParseURL`. -/
def parseURL (u : URL) (order : List (List Char × List Char)) : Except DialError (List Char) :=
  if u.scheme ≠ "postgres".toList ∧ u.scheme ≠ "postgresql".toList then
    .error (.invalidProtocol u.scheme)
  else .ok (joined (((u.accrued order).map optionText).insertionSort (· ≤ ·)))

/-! ## From a string to options -/

/-- `unicode.IsSpace`. -/
def isSpace (c : Char) : Bool :=
  c == ' ' || ('\t' ≤ c && c ≤ '\r') || c == '\u0085' || c == '\u00a0' || c == '\u1680' ||
    ('\u2000' ≤ c && c ≤ '\u200a') || c == '\u2028' || c == '\u2029' || c == '\u202f' ||
      c == '\u205f' || c == '\u3000'

/-- A character of a key. -/
def inKey (c : Char) : Bool := !isSpace c && c != '='

/-- A value without quotes, with what follows the space that ends it. Behind a backslash
any character belongs to it. -/
def unquoted (esc : Bool) : List Char → Except DialError (List Char × List Char)
  | [] => if esc then .error .missingCharacter else .ok ([], [])
  | c :: text =>
      if esc then (unquoted false text).map fun read => (c :: read.1, read.2)
      else if isSpace c then .ok ([], text)
      else if c = '\\' then unquoted true text
      else (unquoted false text).map fun read => (c :: read.1, read.2)

/-- A value behind a quote, with what follows the quote that ends it. -/
def quoted (esc : Bool) : List Char → Except DialError (List Char × List Char)
  | [] => .error .unterminatedQuote
  | c :: text =>
      if esc then (quoted false text).map fun read => (c :: read.1, read.2)
      else if c = '\x27' then .ok ([], text)
      else if c = '\\' then quoted true text
      else (quoted false text).map fun read => (c :: read.1, read.2)

/-- An option at the start of a text, with what follows it. -/
def scanOption (text : List Char) :
    Except DialError (Option ((List Char × List Char) × List Char)) :=
  let text := text.dropWhile isSpace
  if text = [] then .ok none
  else
    let key := text.takeWhile inKey
    match (text.dropWhile inKey).dropWhile isSpace with
    | [] => .error (.missingEquals key)
    | c :: rest =>
        if c ≠ '=' then .error (.missingEquals key)
        else
          match rest.dropWhile isSpace with
          | [] => .ok (some ((key, []), []))
          | c :: rest =>
              let read := if c = '\x27' then quoted false rest else unquoted false (c :: rest)
              read.map fun read => some ((key, read.1), read.2)

theorem exists_of_map_eq_ok {α β : Type} {result : Except DialError α} {f : α → β} {value : β}
    (mapped : result.map f = .ok value) : ∃ found, result = .ok found ∧ f found = value := by
  cases result with
  | error e => cases mapped
  | ok found => exact ⟨found, rfl, Except.ok.inj mapped⟩

theorem unquoted_length {esc : Bool} {text value rest : List Char}
    (read : unquoted esc text = .ok (value, rest)) : rest.length ≤ text.length := by
  induction text generalizing esc value with
  | nil =>
      cases esc
      · cases read
        exact Nat.le_refl _
      · cases read
  | cons c text ih =>
      have more : ∀ esc, (unquoted esc text).map (fun read => (c :: read.1, read.2)) =
          .ok (value, rest) → rest.length ≤ (c :: text).length := by
        intro esc mapped
        obtain ⟨found, inner, same⟩ := exists_of_map_eq_ok mapped
        cases same
        exact (ih inner).trans (Nat.le_succ _)
      rw [unquoted] at read
      split at read
      · exact more _ read
      split at read
      · cases read
        exact Nat.le_succ _
      split at read
      · exact (ih read).trans (Nat.le_succ _)
      · exact more _ read

theorem quoted_length {esc : Bool} {text value rest : List Char}
    (read : quoted esc text = .ok (value, rest)) : rest.length ≤ text.length := by
  induction text generalizing esc value with
  | nil => cases read
  | cons c text ih =>
      have more : ∀ esc, (quoted esc text).map (fun read => (c :: read.1, read.2)) =
          .ok (value, rest) → rest.length ≤ (c :: text).length := by
        intro esc mapped
        obtain ⟨found, inner, same⟩ := exists_of_map_eq_ok mapped
        cases same
        exact (ih inner).trans (Nat.le_succ _)
      rw [quoted] at read
      split at read
      · exact more _ read
      split at read
      · cases read
        exact Nat.le_succ _
      split at read
      · exact (ih read).trans (Nat.le_succ _)
      · exact more _ read

/-- An option that is found is passed over. -/
theorem scanOption_shorter {text rest : List Char} {option : List Char × List Char}
    (found : scanOption text = .ok (some (option, rest))) : rest.length < text.length := by
  unfold scanOption at found
  dsimp only at found
  split at found
  · cases found
  · split at found
    · cases found
    · rename_i c behind equals
      split at found
      · cases found
      · have whole : behind.length < text.length := by
          have first := (@List.dropWhile_suffix _ text isSpace).length_le
          have second := (@List.dropWhile_suffix _ (text.dropWhile isSpace) inKey).length_le
          have third :=
            (@List.dropWhile_suffix _ ((text.dropWhile isSpace).dropWhile inKey) isSpace).length_le
          rw [equals, List.length_cons] at third
          omega
        have suffix := (@List.dropWhile_suffix _ behind isSpace).length_le
        split at found
        · cases found
          exact Nat.lt_of_le_of_lt (Nat.zero_le _) whole
        · rename_i d value starts
          obtain ⟨read, inner, same⟩ := exists_of_map_eq_ok found
          cases same
          rw [starts, List.length_cons] at suffix
          split at inner
          · have := quoted_length inner
            omega
          · have := unquoted_length inner
            simp only [List.length_cons] at this
            omega

/-- `parseOpts`. -/
def parseOpts (o : Options) (text : List Char) : Except DialError Options :=
  match _found : scanOption text with
  | .error e => .error e
  | .ok none => .ok o
  | .ok (some (option, rest)) => parseOpts (o.set option) rest
termination_by text.length
decreasing_by exact scanOption_shorter _found

theorem parseOpts_of_option (o : Options) {text rest : List Char} {option : List Char × List Char}
    (found : scanOption text = .ok (some (option, rest))) :
    parseOpts o text = parseOpts (o.set option) rest := by
  rw [parseOpts]
  split
  · rename_i failed
    rw [found] at failed
    cases failed
  · rename_i none
    rw [found] at none
    cases none
  · rename_i some
    rw [found] at some
    cases some
    rfl

theorem parseOpts_nil (o : Options) : parseOpts o [] = .ok o := by
  rw [parseOpts]
  rfl

/-! ## Options that are read back -/

/-- An option that is written so that it is read back: a key without white space and
without an equals sign, and a value that is not empty and has no white space but spaces. -/
structure Clean (option : List Char × List Char) : Prop where
  key : ∀ c ∈ option.1, inKey c = true
  some : option.2 ≠ []
  value : ∀ c ∈ option.2, isSpace c = true → c = ' '

/-- What follows an option: a space, or nothing. -/
def EndsOption (rest : List Char) : Prop := ∀ c ∈ rest.head?, c = ' '

/-- **An escaped value is read back**, up to the space that ends it. -/
theorem unquoted_escaped {value : List Char} (clean : ∀ c ∈ value, isSpace c = true → c = ' ')
    {rest : List Char} (ends : EndsOption rest) :
    unquoted false (value.flatMap escape ++ rest) = .ok (value, rest.drop 1) := by
  induction value with
  | nil =>
      cases rest with
      | nil => rfl
      | cons c rest =>
          cases ends c rfl
          rfl
  | cons c value ih =>
      have others := ih fun d member => clean d (List.mem_cons_of_mem _ member)
      rw [List.flatMap_cons, List.append_assoc]
      by_cases marked : c = ' ' ∨ c = '\x27' ∨ c = '\\'
      · have backslash : isSpace '\\' = false := by decide
        rw [escape, if_pos marked, List.cons_append, List.cons_append, List.nil_append,
          unquoted, if_neg (by simp), if_neg (by simp [backslash]), if_pos rfl,
          unquoted, if_pos rfl, others]
        rfl
      · rw [escape, if_neg marked]
        simp only [not_or] at marked
        have solid : ¬ isSpace c = true := fun space => marked.1 (clean c List.mem_cons_self space)
        rw [List.cons_append, List.nil_append, unquoted, if_neg (by simp), if_neg solid,
          if_neg marked.2.2, others]
        rfl

/-- **An option is read back**, and what follows it is left. -/
theorem scanOption_optionText {option : List Char × List Char} (clean : Clean option)
    {rest : List Char} (ends : EndsOption rest) :
    scanOption (optionText option ++ rest) = .ok (some (option, rest.drop 1)) := by
  obtain ⟨key, value⟩ := option
  have stops : inKey '=' = false := by decide
  have solid : isSpace '=' = false := by decide
  have keySolid : ∀ c ∈ key, isSpace c = false := by
    intro c member
    have inside := clean.key c member
    simp only [inKey, Bool.and_eq_true, Bool.not_eq_true'] at inside
    exact inside.1
  have starts : (optionText (key, value) ++ rest).dropWhile isSpace =
      key ++ '=' :: (value.flatMap escape ++ rest) := by
    have whole :
        optionText (key, value) ++ rest = key ++ '=' :: (value.flatMap escape ++ rest) := by
      simp [optionText]
    rw [whole]
    cases key with
    | nil => simp [solid]
    | cons c key => simp [keySolid c List.mem_cons_self]
  have taken : (key ++ '=' :: (value.flatMap escape ++ rest)).takeWhile inKey = key := by
    rw [List.takeWhile_append_of_pos clean.key]
    simp [stops]
  have dropped : (key ++ '=' :: (value.flatMap escape ++ rest)).dropWhile inKey =
      '=' :: (value.flatMap escape ++ rest) := by
    rw [List.dropWhile_append_of_pos clean.key]
    simp [stops]
  obtain ⟨first, others, rfl⟩ := List.exists_cons_of_ne_nil clean.some
  obtain ⟨c, more, escaped, notSpace, notQuote⟩ :
      ∃ c more, (first :: others).flatMap escape ++ rest = c :: more ∧ isSpace c = false ∧
        c ≠ '\x27' := by
    rw [List.flatMap_cons]
    unfold escape
    split
    · exact ⟨'\\', _, rfl, by decide, by decide⟩
    · rename_i marked
      simp only [not_or] at marked
      refine ⟨first, _, rfl, ?_, marked.2.1⟩
      exact Bool.eq_false_iff.mpr fun space =>
        marked.1 (clean.value first List.mem_cons_self space)
  have read := unquoted_escaped clean.value ends
  unfold scanOption
  dsimp only
  rw [starts, if_neg (by simp), taken, dropped]
  simp only [List.dropWhile_cons, solid, Bool.false_eq_true, if_false]
  rw [if_neg (by simp)]
  rw [escaped] at read ⊢
  simp only [List.dropWhile_cons, notSpace, Bool.false_eq_true, if_false, notQuote, read]
  rfl

/-- **Options are read back** from their string. -/
theorem parseOpts_joined (o : Options) {options : List (List Char × List Char)}
    (clean : ∀ option ∈ options, Clean option) :
    parseOpts o (joined (options.map optionText)) = .ok (options.foldl Options.set o) := by
  induction options generalizing o with
  | nil => exact parseOpts_nil o
  | cons option options ih =>
      have first := clean option List.mem_cons_self
      have others := ih (o.set option) fun option member =>
        clean option (List.mem_cons_of_mem _ member)
      cases options with
      | nil =>
          have read := scanOption_optionText first (show EndsOption [] by simp [EndsOption])
          rw [List.append_nil] at read
          rw [List.map_cons, List.map_nil, joined, parseOpts_of_option o read]
          exact others
      | cons second options =>
          rw [List.map_cons, List.map_cons, joined]
          · have read := scanOption_optionText first
              (show EndsOption (' ' :: joined (optionText second :: options.map optionText)) by
                simp [EndsOption])
            rw [parseOpts_of_option o read]
            exact others
          · simp

/-! ## The string of a URL -/

/-- The options of a URL, in the order in which they are written. -/
def URL.options (u : URL) : List (List Char × List Char) :=
  (u.accrued u.query).insertionSort fun first second => optionText first ≤ optionText second

theorem URL.sorted_texts (u : URL) :
    ((u.accrued u.query).map optionText).insertionSort (· ≤ ·) = u.options.map optionText :=
  (List.map_insertionSort (fun first second => optionText first ≤ optionText second) (· ≤ ·)
    optionText (u.accrued u.query) fun _ _ _ _ => Iff.rfl).symm

/-- **The order in which a map is ranged over does not matter.** -/
theorem parseURL_perm (u : URL) {first second : List (List Char × List Char)}
    (perm : first.Perm second) : parseURL u first = parseURL u second := by
  have texts : ((u.accrued first).map optionText).Perm ((u.accrued second).map optionText) :=
    ((perm.append_left u.components).filter _).map optionText
  have sorted : ((u.accrued first).map optionText).insertionSort (· ≤ ·) =
      ((u.accrued second).map optionText).insertionSort (· ≤ ·) := by
    refine List.Perm.eq_of_pairwise' (List.pairwise_insertionSort _ _)
      (List.pairwise_insertionSort _ _) ?_
    exact (List.perm_insertionSort _ _).trans (texts.trans (List.perm_insertionSort _ _).symm)
  rw [parseURL, parseURL, sorted]

end DawnPatrol.Pq
