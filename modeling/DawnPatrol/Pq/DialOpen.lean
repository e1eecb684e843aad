import DawnPatrol.Pq.Dial

/-!
# What a connection is dialed with

When the options of a connection are gathered the driver reads its own settings among
them, and looks for a password in the password file of the process unless the options
have one. Then it dials: a host that is a path is a socket, for which there is no
encryption, and a timeout has to be a number.

So a connection is dialed with the options of its URL, the environment and the
defaults, settled and with that password, and it is given up before it is dialed for
no other reasons than those listed (`dialOpen_eq_ok_iff`). What becomes of it once it
is dialed is left to the server.
-/

set_option autoImplicit false

namespace DawnPatrol.Pq

open Foundation Go

/-! ## The settings of the driver -/

/-- The value of an option, which is empty when it is not set. -/
def Options.get (o : Options) (key : List Char) : List Char := (o key).getD []

/-- A connection before it is dialed: its options, and the settings of the driver. -/
structure Conn where
  opts : Options
  disablePreparedBinaryResult : Bool := false
  binaryParameters : Bool := false

/-- `boolSetting`. -/
def boolSetting (o : Options) (key : List Char) : Except DialError Bool :=
  match o key with
  | none => .ok false
  | some value =>
      if value = "yes".toList then .ok true
      else if value = "no".toList then .ok false
      else .error (.unrecognized value key)

/-- `handleDriverSettings`. -/
def handleDriverSettings (o : Options) : Except DialError Conn := do
  let disablePreparedBinaryResult ← boolSetting o Key.disablePreparedBinaryResult
  let binaryParameters ← boolSetting o Key.binaryParameters
  return { opts := o, disablePreparedBinaryResult, binaryParameters }

/-! ## The password file -/

/-- The password file of a process: its mode, and the lines that are scanned. -/
structure PassFile where
  mode : ℕ
  lines : List (List Char)

/-- The fields of a line, of which the first characters of one have been read. Behind a
backslash any character belongs to a field. -/
def fieldsWithin (esc : Bool) (f : List Char) : List Char → List (List Char)
  | [] => [f]
  | c :: s =>
      if esc then fieldsWithin false (f ++ [c]) s
      else if c = '\\' then fieldsWithin true f s
      else if c = ':' then f :: fieldsWithin false [] s
      else fieldsWithin false (f ++ [c]) s

/-- `getFields`. -/
def getFields (s : List Char) : List (List Char) := fieldsWithin false [] s

/-- Whether a field of the file stands for a value. -/
def fits (field value : List Char) : Bool := field == "*".toList || field == value

/-- Whether the host is the path of a socket, so that `network` returns `unix`. -/
def Options.usesSocket (o : Options) : Bool := (o.get Key.host).head? == some '/'

/-- The password that a line of the file gives. -/
def passwordOf (o : Options) (line : List Char) : Option (List Char) :=
  if line.head? = none ∨ line.head? = some '#' then none
  else
    match getFields line with
    | [host, port, db, username, password] =>
        let isLocal := host == "localhost".toList && (o.get Key.host == [] || o.usesSocket)
        if (fits host (o.get Key.host) || isLocal) && fits port (o.get Key.port) &&
            fits db (o.get Key.dbname) && fits username (o.get Key.user) then
          some password
        else none
    | _ => none

/-- The password that the file gives, unless others may read it. -/
def passwordFrom (file : Option PassFile) (o : Options) : Option (List Char) :=
  file.bind fun file =>
    if file.mode &&& 0x77 ≠ 0 then none else file.lines.findSome? (passwordOf o)

/-- `handlePgpass`, for the file that the process has, if any. -/
def handlePgpass (file : Option PassFile) (o : Options) : Options :=
  match o Key.password with
  | some _ => o
  | none =>
      match passwordFrom file o with
      | some password => o.set (Key.password, password)
      | none => o

/-! ## Dialing -/

/-- The digits of a number and its sign, as `strconv.ParseInt` reads them. -/
def signed : List Char → Bool × List Char
  | '+' :: digits => (false, digits)
  | '-' :: digits => (true, digits)
  | digits => (false, digits)

/-- `strconv.ParseInt` in base ten, for an `int` of 64 bits. -/
def parseInt (s : List Char) : Option ℤ :=
  let (negative, digits) := signed s
  if digits = [] ∨ !digits.all Char.isDigit then none
  else
    let n := Nat.ofDigitChars 10 digits 0
    if negative then if n ≤ 9223372036854775808 then some (-n) else none
    else if n < 9223372036854775808 then some n else none

/-- The options once the network is known: there is no encryption over a socket. -/
def Options.overNetwork (o : Options) : Options :=
  if o.usesSocket then o.set (Key.sslmode, "disable".toList) else o

/-- The options with which `dial` goes to the network, unless the timeout is no number. -/
def dial (o : Options) : Except DialError Options :=
  let o := o.overNetwork
  match o Key.connectTimeout with
  | some timeout =>
      if timeout ≠ "0".toList ∧ parseInt timeout = none then .error (.connectTimeout timeout)
      else .ok o
  | none => .ok o

/-- `DialOpen` up to the network, for the connection string that a name is turned into. -/
def dialOpen (env : List Variable) (userCurrent : Except GoError (List Char))
    (file : Option PassFile) (name : Except DialError (List Char)) : Except DialError Conn := do
  let o ← gatherOptions env userCurrent name
  let cn ← handleDriverSettings o
  let o ← dial (handlePgpass file o)
  return { cn with opts := o }

/-! ## What options can be dialed -/

/-- What the driver needs of its options: its own settings are yes or no, and the timeout
is a number. -/
structure Dialable (o : Options) : Prop where
  results : ∀ value ∈ o Key.disablePreparedBinaryResult,
    value = "yes".toList ∨ value = "no".toList
  parameters : ∀ value ∈ o Key.binaryParameters, value = "yes".toList ∨ value = "no".toList
  timeout : ∀ timeout ∈ o Key.connectTimeout, timeout = "0".toList ∨ parseInt timeout ≠ none

/-- A connection as it is dialed: the options have a password if the file gives one, and
no encryption if the host is a socket. -/
def dialed (file : Option PassFile) (o : Options) : Conn where
  opts key :=
    if key = Key.sslmode ∧ o.usesSocket = true then some "disable".toList
    else if key = Key.password then o key <|> passwordFrom file o
    else o key
  disablePreparedBinaryResult := o Key.disablePreparedBinaryResult == some "yes".toList
  binaryParameters := o Key.binaryParameters == some "yes".toList

section Dialing

variable {o : Options}

theorem boolSetting_eq_ok_iff (o : Options) (key : List Char) (setting : Bool) :
    boolSetting o key = .ok setting ↔
      (∀ value ∈ o key, value = "yes".toList ∨ value = "no".toList) ∧
        setting = (o key == some "yes".toList) := by
  have different : "no".toList ≠ "yes".toList := by decide
  unfold boolSetting
  cases o key with
  | none => simp [eq_comm]
  | some value =>
      by_cases yes : value = "yes".toList
      · simp [yes, eq_comm]
      · by_cases no : value = "no".toList
        · simp [no, eq_comm]
        · simp only [if_neg yes, if_neg no]
          refine iff_of_false (fun impossible => by cases impossible) ?_
          rintro ⟨right, -⟩
          exact (right value rfl).elim yes no

theorem handleDriverSettings_eq_ok_iff (o : Options) (cn : Conn) :
    handleDriverSettings o = .ok cn ↔
      ((∀ value ∈ o Key.disablePreparedBinaryResult,
          value = "yes".toList ∨ value = "no".toList) ∧
        ∀ value ∈ o Key.binaryParameters, value = "yes".toList ∨ value = "no".toList) ∧
        cn = ⟨o, o Key.disablePreparedBinaryResult == some "yes".toList,
          o Key.binaryParameters == some "yes".toList⟩ := by
  simp only [handleDriverSettings, bind_eq_ok_iff, boolSetting_eq_ok_iff]
  constructor
  · rintro ⟨_, ⟨results, rfl⟩, _, ⟨parameters, rfl⟩, same⟩
    cases same
    exact ⟨⟨results, parameters⟩, rfl⟩
  · rintro ⟨⟨results, parameters⟩, rfl⟩
    exact ⟨_, ⟨results, rfl⟩, _, ⟨parameters, rfl⟩, rfl⟩

/-- **The password file** is looked at only without a password. -/
theorem handlePgpass_apply (file : Option PassFile) (o : Options) (key : List Char) :
    handlePgpass file o key =
      if key = Key.password then o key <|> passwordFrom file o else o key := by
  unfold handlePgpass
  by_cases here : key = Key.password
  · rw [if_pos here, here]
    cases own : o Key.password with
    | some password => exact own
    | none =>
        cases passwordFrom file o with
        | none => exact own
        | some password => exact if_pos rfl
  · rw [if_neg here]
    cases o Key.password with
    | some password => rfl
    | none =>
        cases passwordFrom file o with
        | none => rfl
        | some password => exact if_neg here

theorem overNetwork_apply (o : Options) (key : List Char) :
    o.overNetwork key =
      if key = Key.sslmode ∧ o.usesSocket = true then some "disable".toList else o key := by
  rw [Options.overNetwork]
  generalize "disable".toList = disable
  by_cases socket : o.usesSocket = true
  · simp only [socket, if_true, Options.set, and_true]
  · rw [if_neg socket, if_neg fun both => socket both.2]

theorem dial_eq_ok_iff (o result : Options) :
    dial o = .ok result ↔
      (∀ timeout ∈ o Key.connectTimeout, timeout = "0".toList ∨ parseInt timeout ≠ none) ∧
        result = o.overNetwork := by
  have timeoutKey : Key.connectTimeout ≠ Key.sslmode := by decide
  have timeout : o.overNetwork Key.connectTimeout = o Key.connectTimeout := by
    rw [overNetwork_apply, if_neg fun both => timeoutKey both.1]
  simp only [dial, timeout]
  cases o Key.connectTimeout with
  | none =>
      refine ⟨fun same => ⟨fun _ given => ?_, (Except.ok.inj same).symm⟩, fun both => both.2 ▸ rfl⟩
      cases given
  | some timeout =>
      by_cases wrong : timeout ≠ "0".toList ∧ parseInt timeout = none
      · simp only [if_pos wrong]
        refine iff_of_false (fun impossible => by cases impossible) ?_
        rintro ⟨right, -⟩
        exact (right timeout rfl).elim wrong.1 (fun number => number wrong.2)
      · simp only [if_neg wrong]
        refine ⟨fun same => ⟨fun other isTimeout => ?_, (Except.ok.inj same).symm⟩,
          fun both => both.2 ▸ rfl⟩
        obtain rfl := Option.some.inj isTimeout
        exact or_iff_not_imp_left.mpr fun notZero none => wrong ⟨notZero, none⟩

/-- **A connection is dialed** if its options allow it. -/
theorem dials_iff (file : Option PassFile) (o : Options) (cn : Conn) :
    (handleDriverSettings o >>= fun cn => dial (handlePgpass file o) >>= fun opts =>
        .ok { cn with opts }) = .ok cn ↔ Dialable o ∧ cn = dialed file o := by
  have timeoutKey : Key.connectTimeout ≠ Key.password := by decide
  have hostKey : Key.host ≠ Key.password := by decide
  have passwordKey : Key.password ≠ Key.sslmode := by decide
  have timeout : handlePgpass file o Key.connectTimeout = o Key.connectTimeout := by
    rw [handlePgpass_apply, if_neg timeoutKey]
  have socket : (handlePgpass file o).usesSocket = o.usesSocket := by
    rw [Options.usesSocket, Options.get, handlePgpass_apply, if_neg hostKey]
    rfl
  have options : (handlePgpass file o).overNetwork = (dialed file o).opts := by
    funext key
    rw [overNetwork_apply, socket, handlePgpass_apply]
    rfl
  simp only [bind_eq_ok_iff, handleDriverSettings_eq_ok_iff, dial_eq_ok_iff, timeout, options]
  constructor
  · rintro ⟨_, ⟨⟨results, parameters⟩, rfl⟩, _, ⟨timeouts, rfl⟩, same⟩
    cases same
    exact ⟨⟨results, parameters, timeouts⟩, rfl⟩
  · rintro ⟨⟨results, parameters, timeouts⟩, rfl⟩
    exact ⟨_, ⟨⟨results, parameters⟩, rfl⟩, _, ⟨timeouts, rfl⟩, rfl⟩

/-- What the driver reads of its own settings is not settled. -/
theorem dialable_settled_iff (userCurrent : Except GoError (List Char)) (o : Options) :
    Dialable (settled userCurrent o) ↔ Dialable o := by
  have same : ∀ key, key ≠ Key.clientEncoding ∧ key ≠ Key.datestyle ∧ key ≠ Key.user ∧
      key ≠ Key.applicationName → settled userCurrent o key = o key := by
    rintro key ⟨encoding, dates, user, name⟩
    rw [settled, if_neg encoding, if_neg dates, if_neg user, if_neg name]
  have results := same Key.disablePreparedBinaryResult (by decide)
  have parameters := same Key.binaryParameters (by decide)
  have timeout := same Key.connectTimeout (by decide)
  constructor
  · rintro ⟨first, second, third⟩
    exact ⟨results ▸ first, parameters ▸ second, timeout ▸ third⟩
  · rintro ⟨first, second, third⟩
    exact ⟨results.symm ▸ first, parameters.symm ▸ second, timeout.symm ▸ third⟩

end Dialing

/-- **What a connection is dialed with.** The options are those of the URL, of the
environment and the defaults, in this order, settled, with the password of the password
file where there is none, however the map of the query is ranged over. The connection is
given up before it is dialed exactly when a variable of the environment is not
supported, the options cannot be settled, or the driver cannot work with them. -/
theorem dialOpen_eq_ok_iff (env : List Variable) (userCurrent : Except GoError (List Char))
    (file : Option PassFile) {u : URL}
    (scheme : u.scheme = "postgres".toList ∨ u.scheme = "postgresql".toList)
    {order : List (List Char × List Char)} (perm : order.Perm u.query)
    (clean : ∀ option ∈ u.accrued u.query, Clean option) (cn : Conn) :
    dialOpen env userCurrent file (parseURL u order) = .ok cn ↔
      ((∀ v ∈ env, v.unsupported = false) ∧ Settleable userCurrent (wanted env u) ∧
        Dialable (wanted env u)) ∧
          cn = dialed file (settled userCurrent (wanted env u)) := by
  rw [dialOpen, bind_eq_ok_iff]
  simp only [gatherOptions_eq_ok_iff env userCurrent scheme perm clean]
  constructor
  · rintro ⟨_, ⟨⟨supported, settleable⟩, rfl⟩, dials⟩
    obtain ⟨dialable, same⟩ := (dials_iff file _ cn).mp dials
    exact ⟨⟨supported, settleable, (dialable_settled_iff userCurrent _).mp dialable⟩, same⟩
  · rintro ⟨⟨supported, settleable, dialable⟩, same⟩
    exact ⟨_, ⟨⟨supported, settleable⟩, rfl⟩, (dials_iff file _ cn).mpr
      ⟨(dialable_settled_iff userCurrent _).mpr dialable, same⟩⟩

/-- The URL of the default database. -/
def defaultURL : URL where
  scheme := "postgres".toList
  user := some ("dawnpatrol".toList, none)
  host := "db".toList
  path := "/dawnpatrol_development".toList
  query := [("sslmode".toList, "disable".toList)]

/-- Variables of an environment, two of which the driver knows. -/
def someVariables : List Variable :=
  [("HOME".toList, "/root".toList), ("PGHOST".toList, "elsewhere".toList),
    ("PGPORT".toList, "5433".toList)]

/-- A password file that is private. -/
def somePasswords : PassFile where
  mode := 0x180
  lines := ["# passwords".toList, "elsewhere:*:*:*:wrong".toList,
    "db:5433:*:dawnpatrol:se\\:cret".toList]

theorem default_database_is_dialed :
    ∃ cn, dialOpen someVariables (.error (.other "no user")) (some somePasswords)
        (parseURL defaultURL defaultURL.query) = .ok cn ∧
      cn.opts Key.host = some "db".toList ∧ cn.opts Key.port = some "5433".toList ∧
        cn.opts Key.user = some "dawnpatrol".toList ∧
          cn.opts Key.password = some "se:cret".toList := by
  have clean : ∀ option ∈ defaultURL.accrued defaultURL.query, Clean option := by
    have all : (defaultURL.accrued defaultURL.query).all (fun option =>
        option.1.all inKey && (!option.2.isEmpty &&
          option.2.all fun c => !isSpace c || c == ' ')) = true := by decide
    intro option member
    have right := List.all_eq_true.mp all option member
    simp only [Bool.and_eq_true] at right
    refine ⟨List.all_eq_true.mp right.1, by simpa using right.2.1, ?_⟩
    intro c inside space
    simpa [space] using List.all_eq_true.mp right.2.2 c inside
  refine ⟨_, (dialOpen_eq_ok_iff someVariables (.error (.other "no user")) (some somePasswords)
    (.inl rfl) (List.Perm.refl defaultURL.query) clean _).mpr ⟨⟨by decide, ?_, ?_⟩, rfl⟩, ?_⟩
  · exact ⟨by decide, by decide, fun none => absurd none (by decide)⟩
  · exact ⟨by decide, by decide, by decide⟩
  · decide

end DawnPatrol.Pq
