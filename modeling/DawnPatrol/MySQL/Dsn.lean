import DawnPatrol.Foundation.Delimiters
import DawnPatrol.Go.Time
import DawnPatrol.Go.Values

/-!
# Data source names of the MySQL driver

`ParseDSN` of the vendored driver. It looks for the last slash, in front of it
for the last at sign, the first colon before that and the first parenthesis
after it, and behind the slash for the first question mark. What follows the
question mark are parameters, most of which set a field of the configuration.

`parseDSN_fields` says which parts of a name become the user and the database
of a configuration, whatever the parameters are.
-/

set_option autoImplicit false

namespace DawnPatrol.MySQL

open Foundation Go

/-- The collation of a connection whose name sets none. -/
def defaultCollation : String := "utf8_general_ci"

/-- A configuration parsed from a data source name. `tls` is whether a TLS
configuration skips the verification, when there is one. -/
structure Config where
  user : String := ""
  passwd : String := ""
  net : String := ""
  addr : String := ""
  dbName : String := ""
  params : List (String × String) := []
  collation : String := defaultCollation
  loc : Location := .utc
  maxAllowedPacket : ℤ := 0
  tlsConfig : String := ""
  tls : Option Bool := none
  timeout : ℤ := 0
  readTimeout : ℤ := 0
  writeTimeout : ℤ := 0
  allowAllFiles : Bool := false
  allowCleartextPasswords : Bool := false
  allowNativePasswords : Bool := false
  allowOldPasswords : Bool := false
  clientFoundRows : Bool := false
  columnsWithAlias : Bool := false
  interpolateParams : Bool := false
  multiStatements : Bool := false
  parseTime : Bool := false
  strict : Bool := false

/-- The collations that parameters must not be interpolated with. -/
def unsafeCollations : List String :=
  ["big5_chinese_ci", "sjis_japanese_ci", "gbk_chinese_ci", "big5_bin", "gb2312_bin", "gbk_bin",
    "sjis_bin", "cp932_japanese_ci", "cp932_bin"]

def errInvalidDSNUnescaped : GoError :=
  .other "invalid DSN: did you forget to escape a param value?"

def errInvalidDSNAddr : GoError :=
  .other "invalid DSN: network address not terminated (missing closing brace)"

def errInvalidDSNNoSlash : GoError :=
  .other "invalid DSN: missing the slash separating the database name"

def errInvalidDSNUnsafeCollation : GoError :=
  .other "invalid DSN: interpolateParams can not be used with unsafe collations"

/-- The functions of the standard library that values of parameters are read
with: they work on bytes and floating point numbers, or read files. -/
structure ValueReaders where
  queryUnescape : String → Except GoError String
  atoi : String → Except GoError ℤ
  parseDuration : String → Except GoError ℤ
  loadLocation : String → Except GoError Location
  unicode : Unicode

/-! ## Parameters -/

/-- The texts of the two truth values. -/
def readBool (input : String) : Option Bool :=
  if input ∈ ["1", "true", "TRUE", "True"] then some true
  else if input ∈ ["0", "false", "FALSE", "False"] then some false
  else none

/-- A parameter that switches a field. -/
def boolParam (value : String) (set : Bool → Config) : Except GoError Config :=
  match readBool value with
  | some on => .ok (set on)
  | none => .error (.other ("invalid bool value: " ++ value))

/-- The parameter of the TLS configuration. No configuration is registered, so
every name is unknown. -/
def tlsParam (readers : ValueReaders) (cfg : Config) (value : String) : Except GoError Config :=
  match readBool value with
  | some true => .ok { cfg with tlsConfig := "true", tls := some false }
  | some false => .ok { cfg with tlsConfig := "false" }
  | none =>
      let vl := readers.unicode.lower value
      if vl = "skip-verify" then .ok { cfg with tlsConfig := vl, tls := some true }
      else
        match readers.queryUnescape value with
        | .error err => .error (.other ("invalid value for TLS config name: " ++ err.error))
        | .ok name => .error (.other ("invalid value / unknown config name: " ++ name))

/-- The effect of one parameter. -/
def setParam (readers : ValueReaders) (cfg : Config) (param value : String) :
    Except GoError Config :=
  match param with
  | "allowAllFiles" => boolParam value fun on => { cfg with allowAllFiles := on }
  | "allowCleartextPasswords" =>
      boolParam value fun on => { cfg with allowCleartextPasswords := on }
  | "allowNativePasswords" => boolParam value fun on => { cfg with allowNativePasswords := on }
  | "allowOldPasswords" => boolParam value fun on => { cfg with allowOldPasswords := on }
  | "clientFoundRows" => boolParam value fun on => { cfg with clientFoundRows := on }
  | "collation" => .ok { cfg with collation := value }
  | "columnsWithAlias" => boolParam value fun on => { cfg with columnsWithAlias := on }
  | "compress" => .error (.other "compression not implemented yet")
  | "interpolateParams" => boolParam value fun on => { cfg with interpolateParams := on }
  | "loc" => do
      let name ← readers.queryUnescape value
      let loc ← readers.loadLocation name
      return { cfg with loc := loc }
  | "multiStatements" => boolParam value fun on => { cfg with multiStatements := on }
  | "parseTime" => boolParam value fun on => { cfg with parseTime := on }
  | "readTimeout" => do return { cfg with readTimeout := ← readers.parseDuration value }
  | "strict" => boolParam value fun on => { cfg with strict := on }
  | "timeout" => do return { cfg with timeout := ← readers.parseDuration value }
  | "tls" => tlsParam readers cfg value
  | "writeTimeout" => do return { cfg with writeTimeout := ← readers.parseDuration value }
  | "maxAllowedPacket" => do return { cfg with maxAllowedPacket := ← readers.atoi value }
  | _ => do
      let unescaped ← readers.queryUnescape value
      return { cfg with
        params := cfg.params.filter (fun other => other.1 ≠ param) ++ [(param, unescaped)] }

/-- The effect of the parameters, in their order. Those without a value are
skipped. -/
def setParams (readers : ValueReaders) : Config → List (List Char) → Except GoError Config
  | cfg, [] => .ok cfg
  | cfg, v :: vs =>
      match cutFirst '=' v with
      | none => setParams readers cfg vs
      | some (param, value) => do
          let next ← setParam readers cfg (.ofList param) (.ofList value)
          setParams readers next vs

def parseDSNParams (readers : ValueReaders) (cfg : Config) (params : List Char) :
    Except GoError Config :=
  setParams readers cfg (params.splitOn '&')

/-! ## The parts of a name -/

/-- `[username[:password]@]`, with what is left for the network. -/
def parseCredentials (left : List Char) : Config × List Char :=
  match cutLast '@' left with
  | none => ({}, left)
  | some (credentials, network) =>
      match cutFirst ':' credentials with
      | none => ({ user := .ofList credentials }, network)
      | some (user, passwd) => ({ user := .ofList user, passwd := .ofList passwd }, network)

/-- `[protocol[(address)]]` -/
def parseNetwork (cfg : Config) (network : List Char) : Except GoError Config :=
  match cutFirst '(' network with
  | none => .ok { cfg with net := .ofList network }
  | some (net, rest) =>
      -- the last character before the slash must close the address
      if network.getLast? = some ')' then
        .ok { cfg with addr := .ofList rest.dropLast, net := .ofList net }
      else if ')' ∈ rest then .error errInvalidDSNUnescaped
      else .error errInvalidDSNAddr

/-- `dbname[?param1=value1&...&paramN=valueN]` -/
def parseDatabase (readers : ValueReaders) (cfg : Config) (right : List Char) :
    Except GoError Config :=
  match cutFirst '?' right with
  | none => .ok { cfg with dbName := .ofList right }
  | some (dbName, params) => do
      let parsed ← parseDSNParams readers cfg params
      return { parsed with dbName := .ofList dbName }

/-- The checks and defaults after the parts have been read. -/
def complete (cfg : Config) : Except GoError Config :=
  if cfg.interpolateParams = true ∧ cfg.collation ∈ unsafeCollations then
    .error errInvalidDSNUnsafeCollation
  else
    let net := if cfg.net = "" then "tcp" else cfg.net
    if cfg.addr = "" then
      match net with
      | "tcp" => .ok { cfg with net := net, addr := "127.0.0.1:3306" }
      | "unix" => .ok { cfg with net := net, addr := "/tmp/mysql.sock" }
      | _ => .error (.other ("default addr for network '" ++ net ++ "' unknown"))
    else .ok { cfg with net := net }

/-- Parse a data source name:
`[user[:password]@][net[(addr)]]/dbname[?param1=value1&paramN=valueN]`. -/
def parseDSN (readers : ValueReaders) (dsn : String) : Except GoError Config :=
  match cutLast '/' dsn.toList with
  | none => if dsn = "" then complete {} else .error errInvalidDSNNoSlash
  | some (left, right) => do
      let (credentials, network) := parseCredentials left
      let connected ← parseNetwork credentials network
      let parsed ← parseDatabase readers connected right
      complete parsed

/-! ## The user and the database -/

section Fields

variable {readers : ValueReaders} {cfg next : Config}

theorem exists_of_bind_eq_ok {α β : Type} {first : Except GoError α} {rest : α → Except GoError β}
    {value : β} (ran : first >>= rest = .ok value) :
    ∃ found, first = .ok found ∧ rest found = .ok value := by
  cases first with
  | error err => cases ran
  | ok found => exact ⟨found, rfl, ran⟩

theorem boolParam_user {value : String} {set : Bool → Config} {user : String}
    (ran : boolParam value set = .ok next) (keeps : ∀ on, (set on).user = user) :
    next.user = user := by
  unfold boolParam at ran
  split at ran
  · cases ran
    exact keeps _
  · cases ran

theorem tlsParam_user {value : String} (ran : tlsParam readers cfg value = .ok next) :
    next.user = cfg.user := by
  unfold tlsParam at ran
  split at ran
  · cases ran
    rfl
  · cases ran
    rfl
  · dsimp only at ran
    split at ran
    · cases ran
      rfl
    · split at ran <;> cases ran

/-- No parameter sets the user. -/
theorem setParam_user {param value : String} (ran : setParam readers cfg param value = .ok next) :
    next.user = cfg.user := by
  unfold setParam at ran
  split at ran
  case h_6 | h_8 => cases ran <;> rfl
  case h_10 =>
    obtain ⟨_, -, ran⟩ := exists_of_bind_eq_ok ran
    obtain ⟨_, -, ran⟩ := exists_of_bind_eq_ok ran
    cases ran
    rfl
  case h_13 | h_15 | h_17 | h_18 | h_19 =>
    obtain ⟨_, -, ran⟩ := exists_of_bind_eq_ok ran
    cases ran
    rfl
  case h_16 => exact tlsParam_user ran
  all_goals exact boolParam_user ran fun _ => rfl

theorem setParams_user {params : List (List Char)} (ran : setParams readers cfg params = .ok next) :
    next.user = cfg.user := by
  induction params generalizing cfg with
  | nil =>
      cases ran
      rfl
  | cons v vs ih =>
      unfold setParams at ran
      split at ran
      · exact ih ran
      · obtain ⟨set, first, rest⟩ := exists_of_bind_eq_ok ran
        exact (ih rest).trans (setParam_user first)

theorem parseNetwork_user {network : List Char} (ran : parseNetwork cfg network = .ok next) :
    next.user = cfg.user := by
  unfold parseNetwork at ran
  split at ran
  · cases ran
    rfl
  · split at ran
    · cases ran
      rfl
    · split at ran <;> cases ran

/-- The database is what comes before the first question mark. -/
theorem parseDatabase_fields {right : List Char}
    (ran : parseDatabase readers cfg right = .ok next) :
    next.user = cfg.user ∧ next.dbName = .ofList (upTo '?' right) := by
  unfold parseDatabase at ran
  cases cut : cutFirst '?' right with
  | none =>
      rw [cut] at ran
      cases ran
      exact ⟨rfl, by simp [upTo, cut]⟩
  | some parts =>
      rw [cut] at ran
      obtain ⟨parsed, params, ran⟩ := exists_of_bind_eq_ok ran
      have user : parsed.user = cfg.user := setParams_user params
      cases ran
      exact ⟨user, by simp [upTo, cut]⟩

theorem complete_fields (ran : complete cfg = .ok next) :
    next.user = cfg.user ∧ next.dbName = cfg.dbName := by
  unfold complete at ran
  split at ran
  · cases ran
  · dsimp only at ran
    split at ran
    · split at ran <;> cases ran <;> exact ⟨rfl, rfl⟩
    · cases ran
      exact ⟨rfl, rfl⟩

/-- **The database** of a configuration is the part between the last slash and the
first question mark after it, and the user the part before the first colon, of
what comes before the last at sign. -/
theorem parseDSN_fields {dsn : String} {left right : List Char}
    (ran : parseDSN readers dsn = .ok next) (slash : cutLast '/' dsn.toList = some (left, right)) :
    next.dbName = .ofList (upTo '?' right) ∧
      ∀ credentials network, cutLast '@' left = some (credentials, network) →
        next.user = .ofList (upTo ':' credentials) := by
  simp only [parseDSN, slash] at ran
  obtain ⟨connected, network', ran⟩ := exists_of_bind_eq_ok ran
  obtain ⟨parsed, database, ran⟩ := exists_of_bind_eq_ok ran
  obtain ⟨user, dbName⟩ := parseDatabase_fields database
  obtain ⟨sameUser, sameName⟩ := complete_fields ran
  refine ⟨sameName.trans dbName, fun credentials network sign => ?_⟩
  rw [sameUser, user, parseNetwork_user network', parseCredentials, sign]
  dsimp only
  cases cut : cutFirst ':' credentials with
  | none => simp [upTo, cut]
  | some parts => simp [upTo, cut]

end Fields

end DawnPatrol.MySQL
