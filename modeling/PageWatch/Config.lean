import PageWatch.Document.Shape

/-! Configuration: what shapes every compiled select, and how it is read from a document. -/
namespace PageWatch

/-- The label that the executor gets with each select, and whether an always true lower bound on
timestamps helps the planner of a MySQL backend. -/
structure SelectConfig where
  caller : String := "WatchedItemQueryService"
  mysqlTimestampHint : Bool := true
  deriving DecidableEq

namespace SelectConfig

instance : Inhabited SelectConfig := ⟨{}⟩

/-- A member that is missing keeps its default. -/
def shape : Shape SelectConfig where
  label := "QueryConfig"
  members := [
    .optional "caller" Reader.text fun c caller => { c with caller },
    .optional "mysql_timestamp_hint" Reader.bool
      fun c mysqlTimestampHint => { c with mysqlTimestampHint }]
  blank := {}
  closed := true
  padded := true

def read : Reader SelectConfig := shape.read

def toDocument (c : SelectConfig) : Document :=
  .table [("caller", .text c.caller), ("mysql_timestamp_hint", .bool c.mysqlTimestampHint)]

end SelectConfig

/-- The configuration of the service. -/
structure Config where
  query : SelectConfig := {}
  deriving DecidableEq

/-- Why a configuration cannot be used. The text of a file may be missing or not be UTF-8, it may
be malformed or refused as a whole, and a setting may be invalid. -/
inductive ConfigError where
  | missingFile (path : String)
  | undecodableFile (path : String)
  | malformed
  | emptyCaller
  deriving DecidableEq

namespace ConfigError

/-- The setting to blame, where one is. -/
def key? : ConfigError → Option String
  | emptyCaller => some "query.caller"
  | _ => none

/-- What is wrong with the text or the setting. -/
def reason : ConfigError → String
  | missingFile _ => "No such file or directory (os error 2)"
  | undecodableFile _ => "stream did not contain valid UTF-8"
  | malformed => "malformed"
  | emptyCaller => "must not be empty"

def message : ConfigError → String
  | e@(missingFile path) | e@(undecodableFile path) =>
    "failed to read config file '" ++ path ++ "': " ++ e.reason
  | e@malformed => "failed to parse config: " ++ e.reason
  | e@emptyCaller => "invalid config value 'query.caller': " ++ e.reason

end ConfigError

namespace Config

instance : Inhabited Config := ⟨{}⟩

/-- A member that is missing keeps its default. -/
def shape (readQuery : Reader SelectConfig) : Shape Config where
  label := "ServiceConfig"
  members := [.optional "query" readQuery fun c query => { c with query }]
  blank := {}
  closed := true
  padded := true

def read : Reader Config := (shape SelectConfig.read).read

def toDocument (c : Config) : Document := .table [("query", c.query.toDocument)]

/-- Selects must carry a label that is not blank. -/
def validate (c : Config) : Except ConfigError Config :=
  if Text.allBlank c.query.caller then .error .emptyCaller else .ok c

end Config

end PageWatch
