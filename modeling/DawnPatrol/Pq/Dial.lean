import DawnPatrol.Pq.ConnectionStrings

/-!
# The options of a connection

The driver starts with a few defaults, puts the variables of the environment over
them, and the options of the connection string over these. Some options are then
settled: the encoding and the style of dates are the only ones the driver can work
with, and a connection without a user is made as the user of the process.

The comment of the driver lists the defaults in this order. It holds of every
option that the driver gathers (`gatherOptions_eq_ok_iff`), before it reads its own
settings among them, looks for a password, and dials.
-/

set_option autoImplicit false

namespace DawnPatrol.Pq

open Foundation Go

/-! ## The environment -/

/-- The variables of the environment that the driver knows, with the option that each
sets. Those that set none are not supported. -/
def knownVariables : List (List Char × Option (List Char)) :=
  [("PGHOST".toList, some Key.host), ("PGHOSTADDR".toList, none),
    ("PGPORT".toList, some Key.port), ("PGDATABASE".toList, some Key.dbname),
    ("PGUSER".toList, some Key.user), ("PGPASSWORD".toList, some Key.password),
    ("PGSERVICE".toList, none), ("PGSERVICEFILE".toList, none), ("PGREALM".toList, none),
    ("PGOPTIONS".toList, some "options".toList),
    ("PGAPPNAME".toList, some Key.applicationName),
    ("PGSSLMODE".toList, some Key.sslmode), ("PGSSLCERT".toList, some "sslcert".toList),
    ("PGSSLKEY".toList, some "sslkey".toList),
    ("PGSSLROOTCERT".toList, some "sslrootcert".toList), ("PGREQUIRESSL".toList, none),
    ("PGSSLCRL".toList, none), ("PGREQUIREPEER".toList, none), ("PGKRBSRVNAME".toList, none),
    ("PGGSSLIB".toList, none), ("PGCONNECT_TIMEOUT".toList, some Key.connectTimeout),
    ("PGCLIENTENCODING".toList, some Key.clientEncoding),
    ("PGDATESTYLE".toList, some Key.datestyle), ("PGTZ".toList, some "timezone".toList),
    ("PGGEQO".toList, some "geqo".toList), ("PGSYSCONFDIR".toList, none),
    ("PGLOCALEDIR".toList, none)]

/-- A variable of the environment, with its value. -/
abbrev Variable := List Char × List Char

/-- The option that a variable sets. -/
def Variable.option (v : Variable) : Option (List Char × List Char) :=
  match knownVariables.lookup v.1 with
  | some (some key) => some (key, v.2)
  | _ => none

/-- Whether the driver panics over a variable. -/
def Variable.unsupported (v : Variable) : Bool := knownVariables.lookup v.1 == some none

/-- `parseEnviron`: the options that the environment sets, in its order. -/
def parseEnviron (env : List Variable) : Except DialError (List (List Char × List Char)) :=
  match env.find? Variable.unsupported with
  | some v => .error (.unsupported v.1)
  | none => .ok (env.filterMap Variable.option)

/-! ## The options of a connection -/

/-- The defaults that apply in every situation. -/
def defaults : Options :=
  [(Key.host, "localhost".toList), (Key.port, "5432".toList),
    ("extra_float_digits".toList, "2".toList)].foldl Options.set fun _ => none

/-- `alnumLowerASCII`, which discards other characters. -/
def alnumLowerASCII (c : Char) : Option Char :=
  if 'A' ≤ c ∧ c ≤ 'Z' then some c.toLower
  else if ('a' ≤ c ∧ c ≤ 'z') ∨ ('0' ≤ c ∧ c ≤ '9') then some c
  else none

/-- `isUTF8`. -/
def isUTF8 (name : List Char) : Bool :=
  let s := name.filterMap alnumLowerASCII
  s == "utf8".toList || s == "unicode".toList

/-- The application name of a connection that sets only the one to fall back on. -/
def fallBack (o : Options) : Options :=
  match o Key.fallbackApplicationName with
  | some fallback =>
      if o Key.applicationName = none then o.set (Key.applicationName, fallback) else o
  | none => o

/-- The encoding that the driver works with. -/
def settleEncoding (o : Options) : Except DialError Options :=
  match o Key.clientEncoding with
  | some enc =>
      if isUTF8 enc then .ok (o.set (Key.clientEncoding, "UTF8".toList))
      else .error .clientEncoding
  | none => .ok (o.set (Key.clientEncoding, "UTF8".toList))

/-- The style of dates that the driver works with. -/
def dateStyle : List Char := "ISO, MDY".toList

def settleDateStyle (o : Options) : Except DialError Options :=
  match o Key.datestyle with
  | some datestyle => if datestyle ≠ dateStyle then .error (.dateStyle datestyle) else .ok o
  | none => .ok (o.set (Key.datestyle, dateStyle))

/-- The user of the process, where no other is given. -/
def settleUser (userCurrent : Except GoError (List Char)) (o : Options) :
    Except DialError Options :=
  match o Key.user with
  | some _ => .ok o
  | none =>
      match userCurrent with
      | .error e => .error (.noUser e)
      | .ok u => .ok (o.set (Key.user, u))

/-- What `DialOpen` does with the options that it has been given. -/
def settle (userCurrent : Except GoError (List Char)) (o : Options) : Except DialError Options := do
  let o ← settleEncoding (fallBack o)
  let o ← settleDateStyle o
  settleUser userCurrent o

/-- The part of `DialOpen` up to the driver settings, for the connection string that a
name is turned into. -/
def gatherOptions (env : List Variable) (userCurrent : Except GoError (List Char))
    (name : Except DialError (List Char)) : Except DialError Options := do
  let environ ← parseEnviron env
  let name ← name
  let o ← parseOpts (environ.foldl Options.set defaults) name
  settle userCurrent o

/-! ## Where an option comes from -/

/-- The last of some settings of an option. -/
def lastOf (options : List (List Char × List Char)) (key : List Char) : Option (List Char) :=
  options.reverse.lookup key

theorem foldl_set (options : List (List Char × List Char)) (o : Options) (key : List Char) :
    options.foldl Options.set o key = (lastOf options key <|> o key) := by
  induction options generalizing o with
  | nil => rfl
  | cons option options ih =>
      rw [List.foldl_cons, ih, lastOf, lastOf, List.reverse_cons, List.lookup_append]
      cases found : options.reverse.lookup key with
      | some value => rfl
      | none =>
          rw [List.lookup_singleton, Options.set]
          by_cases same : key = option.1
          · simp [same]
          · simp [same]

/-- The setting of an option that wins: the one of the URL, if it has any, then the one
of the environment, then the default. -/
def wanted (env : List Variable) (u : URL) : Options := fun key =>
  lastOf u.options key <|> lastOf (env.filterMap Variable.option) key <|> defaults key

/-- Options as they are settled. -/
def settled (userCurrent : Except GoError (List Char)) (o : Options) : Options := fun key =>
  if key = Key.clientEncoding then some "UTF8".toList
  else if key = Key.datestyle then some dateStyle
  else if key = Key.user then o key <|> userCurrent.toOption
  else if key = Key.applicationName then o key <|> o Key.fallbackApplicationName
  else o key

/-- What options need to be settled: an encoding and a style of dates that are the right
ones or none, and a user. -/
structure Settleable (userCurrent : Except GoError (List Char)) (o : Options) : Prop where
  encoding : ∀ enc ∈ o Key.clientEncoding, isUTF8 enc = true
  dates : ∀ datestyle ∈ o Key.datestyle, datestyle = dateStyle
  user : o Key.user = none → ∃ name, userCurrent = .ok name

/-! ## Settling -/

theorem bind_eq_ok_iff {α β : Type} {first : Except DialError α} {rest : α → Except DialError β}
    {value : β} :
    (first >>= rest) = .ok value ↔ ∃ found, first = .ok found ∧ rest found = .ok value := by
  constructor
  · intro ran
    cases first with
    | error e => cases ran
    | ok found => exact ⟨found, rfl, ran⟩
  · rintro ⟨found, rfl, ran⟩
    exact ran

theorem parseEnviron_eq_ok_iff (env : List Variable) (environ : List (List Char × List Char)) :
    parseEnviron env = .ok environ ↔
      (∀ v ∈ env, v.unsupported = false) ∧ environ = env.filterMap Variable.option := by
  unfold parseEnviron
  cases found : env.find? Variable.unsupported with
  | some v =>
      have unsupported := List.find?_some found
      have member := List.mem_of_find?_eq_some found
      constructor
      · intro impossible
        cases impossible
      · rintro ⟨supported, -⟩
        rw [supported v member] at unsupported
        cases unsupported
  | none =>
      have supported : ∀ v ∈ env, v.unsupported = false := by
        simpa using List.find?_eq_none.mp found
      constructor
      · intro same
        cases same
        exact ⟨supported, rfl⟩
      · rintro ⟨-, rfl⟩
        rfl

theorem parseURL_eq_ok_iff (u : URL) (name : List Char) :
    parseURL u u.query = .ok name ↔
      (u.scheme = "postgres".toList ∨ u.scheme = "postgresql".toList) ∧
        name = joined (u.options.map optionText) := by
  unfold parseURL
  rw [u.sorted_texts]
  split
  · rename_i other
    constructor
    · intro impossible
      cases impossible
    · rintro ⟨first | second, -⟩
      · exact absurd first other.1
      · exact absurd second other.2
  · rename_i right
    simp only [ne_eq, not_and_or, not_not] at right
    constructor
    · intro same
      cases same
      exact ⟨right, rfl⟩
    · rintro ⟨-, rfl⟩
      rfl

theorem fallBack_apply (o : Options) (key : List Char) :
    fallBack o key =
      if key = Key.applicationName then o key <|> o Key.fallbackApplicationName else o key := by
  cases fallback : o Key.fallbackApplicationName with
  | none =>
      have same : fallBack o = o := by rw [fallBack, fallback]
      rw [same]
      simp
  | some name =>
      by_cases own : o Key.applicationName = none
      · have same : fallBack o = o.set (Key.applicationName, name) := by
          rw [fallBack, fallback]
          exact if_pos own
        rw [same, Options.set]
        split
        · rename_i here
          rw [here, own]
          rfl
        · rfl
      · have same : fallBack o = o := by
          rw [fallBack, fallback]
          exact if_neg own
        rw [same]
        split
        · rename_i here
          obtain ⟨other, found⟩ := Option.ne_none_iff_exists'.mp own
          rw [here, found]
          rfl
        · rfl

theorem settleEncoding_eq_ok_iff (o settled : Options) :
    settleEncoding o = .ok settled ↔
      (∀ enc ∈ o Key.clientEncoding, isUTF8 enc = true) ∧
        settled = o.set (Key.clientEncoding, "UTF8".toList) := by
  unfold settleEncoding
  cases o Key.clientEncoding with
  | none =>
      constructor
      · intro same
        cases same
        exact ⟨by simp, rfl⟩
      · rintro ⟨-, rfl⟩
        rfl
  | some enc =>
      by_cases right : isUTF8 enc = true
      · simp only [right, if_true]
        constructor
        · intro same
          cases same
          exact ⟨by simp [right], rfl⟩
        · rintro ⟨-, rfl⟩
          rfl
      · simp [right]

theorem settleDateStyle_eq_ok_iff (o settled : Options) :
    settleDateStyle o = .ok settled ↔
      (∀ datestyle ∈ o Key.datestyle, datestyle = dateStyle) ∧
        settled = o.set (Key.datestyle, dateStyle) := by
  unfold settleDateStyle
  cases found : o Key.datestyle with
  | none =>
      constructor
      · intro same
        cases same
        exact ⟨by simp, rfl⟩
      · rintro ⟨-, rfl⟩
        rfl
  | some style =>
      by_cases right : style = dateStyle
      · have same : o.set (Key.datestyle, dateStyle) = o := by
          funext key
          rw [Options.set]
          split
          · rename_i here
            rw [here, found, right]
          · rfl
        rw [same]
        simp [right, eq_comm]
      · simp [right]

theorem settleUser_eq_ok_iff (userCurrent : Except GoError (List Char)) (o settled : Options) :
    settleUser userCurrent o = .ok settled ↔
      (o Key.user = none → ∃ name, userCurrent = .ok name) ∧
        settled = fun key =>
          if key = Key.user then o key <|> userCurrent.toOption else o key := by
  unfold settleUser
  cases found : o Key.user with
  | some name =>
      have same : (fun key => if key = Key.user then o key <|> userCurrent.toOption else o key) =
          o := by
        funext key
        split
        · rename_i here
          rw [here, found]
          rfl
        · rfl
      rw [same]
      simp [eq_comm]
  | none =>
      cases userCurrent with
      | error e => simp
      | ok name =>
          have same : (fun key => if key = Key.user then
              o key <|> (Except.ok name : Except GoError (List Char)).toOption else o key) =
                o.set (Key.user, name) := by
            funext key
            rw [Options.set]
            split
            · rename_i here
              rw [here, found]
              rfl
            · rfl
          rw [same]
          simp [eq_comm]

/-- **Options are settled** if they can be. -/
theorem settle_eq_ok_iff (userCurrent : Except GoError (List Char)) (o result : Options) :
    settle userCurrent o = .ok result ↔
      Settleable userCurrent o ∧ result = settled userCurrent o := by
  have encodingKey : Key.clientEncoding ≠ Key.applicationName := by decide
  have datesKey : Key.datestyle ≠ Key.clientEncoding ∧ Key.datestyle ≠ Key.applicationName := by
    decide
  have userKey : Key.user ≠ Key.clientEncoding ∧ Key.user ≠ Key.datestyle ∧
      Key.user ≠ Key.applicationName := by decide
  have encoding : fallBack o Key.clientEncoding = o Key.clientEncoding := by
    rw [fallBack_apply, if_neg encodingKey]
  have dates : ((fallBack o).set (Key.clientEncoding, "UTF8".toList)) Key.datestyle =
      o Key.datestyle := by
    rw [Options.set, if_neg datesKey.1, fallBack_apply, if_neg datesKey.2]
  have user : (((fallBack o).set (Key.clientEncoding, "UTF8".toList)).set
      (Key.datestyle, dateStyle)) Key.user = o Key.user := by
    rw [Options.set, if_neg userKey.2.1, Options.set, if_neg userKey.1, fallBack_apply,
      if_neg userKey.2.2]
  have final : (fun key => if key = Key.user then
      (((fallBack o).set (Key.clientEncoding, "UTF8".toList)).set
        (Key.datestyle, dateStyle)) key <|> userCurrent.toOption
      else (((fallBack o).set (Key.clientEncoding, "UTF8".toList)).set
        (Key.datestyle, dateStyle)) key) = settled userCurrent o := by
    funext key
    unfold settled
    by_cases isUser : key = Key.user
    · rw [if_pos isUser, isUser, user, if_neg userKey.1, if_neg userKey.2.1, if_pos rfl]
    · rw [if_neg isUser, if_neg isUser, Options.set]
      by_cases isDates : key = Key.datestyle
      · rw [if_pos isDates, isDates, if_neg datesKey.1, if_pos rfl]
      · rw [if_neg isDates, if_neg isDates, Options.set, fallBack_apply]
  simp only [settle, bind_eq_ok_iff, settleEncoding_eq_ok_iff, settleDateStyle_eq_ok_iff,
    settleUser_eq_ok_iff]
  constructor
  · rintro ⟨_, ⟨encodingRight, rfl⟩, _, ⟨datesRight, rfl⟩, someUser, rfl⟩
    rw [encoding] at encodingRight
    rw [dates] at datesRight
    rw [user] at someUser
    exact ⟨⟨encodingRight, datesRight, someUser⟩, final⟩
  · rintro ⟨⟨encodingRight, datesRight, someUser⟩, rfl⟩
    rw [← encoding] at encodingRight
    rw [← dates] at datesRight
    rw [← user] at someUser
    exact ⟨_, ⟨encodingRight, rfl⟩, _, ⟨datesRight, rfl⟩, someUser, final.symm⟩

/-- **The options of a connection** come from the URL, the environment and the defaults,
in this order, and are settled, however the map of the query is ranged over. -/
theorem gatherOptions_eq_ok_iff (env : List Variable) (userCurrent : Except GoError (List Char))
    {u : URL} (scheme : u.scheme = "postgres".toList ∨ u.scheme = "postgresql".toList)
    {order : List (List Char × List Char)} (perm : order.Perm u.query)
    (clean : ∀ option ∈ u.accrued u.query, Clean option) (o : Options) :
    gatherOptions env userCurrent (parseURL u order) = .ok o ↔
      ((∀ v ∈ env, v.unsupported = false) ∧ Settleable userCurrent (wanted env u)) ∧
        o = settled userCurrent (wanted env u) := by
  have gathered : u.options.foldl Options.set
      ((env.filterMap Variable.option).foldl Options.set defaults) = wanted env u := by
    funext key
    rw [foldl_set, foldl_set, wanted]
  have optionsClean : ∀ option ∈ u.options, Clean option := fun option member =>
    clean option ((List.mem_insertionSort _).mp member)
  have read := parseOpts_joined ((env.filterMap Variable.option).foldl Options.set defaults)
    optionsClean
  rw [gathered] at read
  rw [parseURL_perm u perm]
  simp only [gatherOptions, bind_eq_ok_iff, parseEnviron_eq_ok_iff, parseURL_eq_ok_iff]
  constructor
  · rintro ⟨environ, ⟨supported, rfl⟩, name, ⟨-, rfl⟩, options, parsed, settles⟩
    rw [read] at parsed
    cases parsed
    obtain ⟨settleable, same⟩ := (settle_eq_ok_iff userCurrent _ o).mp settles
    exact ⟨⟨supported, settleable⟩, same⟩
  · rintro ⟨⟨supported, settleable⟩, same⟩
    exact ⟨_, ⟨supported, rfl⟩, _, ⟨scheme, rfl⟩, _, read,
      (settle_eq_ok_iff userCurrent _ o).mpr ⟨settleable, same⟩⟩

end DawnPatrol.Pq
