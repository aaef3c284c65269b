import PageWatch.Config
import PageWatch.Failure

/-! Public errors: a stable kind and origin with a message, whatever went wrong inside. -/
namespace PageWatch

/-- What kind of trouble it is, for callers who must react. -/
inductive ErrorKind where
  | invalid
  | unauthorized
  | execution
  | extension
  | internal
  deriving DecidableEq

namespace ErrorKind

def name : ErrorKind → String
  | invalid => "Invalid"
  | unauthorized => "Unauthorized"
  | execution => "Execution"
  | extension => "Extension"
  | internal => "Internal"

def all : List ErrorKind := [invalid, unauthorized, execution, extension, internal]

def read : Reader ErrorKind := Reader.choice (all.map fun k => (k.name, k))

def toDocument (k : ErrorKind) : Document := .text k.name

instance : Inhabited ErrorKind := ⟨invalid⟩

end ErrorKind

/-- The part that the trouble comes from. -/
inductive ErrorOrigin where
  | compiler
  | config
  | executor
  | extension
  | mapper
  | options
  | permission
  deriving DecidableEq

namespace ErrorOrigin

def name : ErrorOrigin → String
  | compiler => "Compiler"
  | config => "Config"
  | executor => "Executor"
  | extension => "Extension"
  | mapper => "Mapper"
  | options => "Options"
  | permission => "Permission"

def all : List ErrorOrigin := [compiler, config, executor, extension, mapper, options, permission]

def read : Reader ErrorOrigin := Reader.choice (all.map fun o => (o.name, o))

def toDocument (o : ErrorOrigin) : Document := .text o.name

instance : Inhabited ErrorOrigin := ⟨compiler⟩

def ofStage : Stage → ErrorOrigin
  | .compiler => compiler
  | .mapper => mapper

end ErrorOrigin

/-- An error as callers see it. -/
structure PublicError where
  kind : ErrorKind
  origin : ErrorOrigin
  message : String
  deriving DecidableEq

namespace PublicError

instance : Inhabited PublicError := ⟨⟨default, default, ""⟩⟩

def shape : Shape PublicError where
  label := "Error"
  members := [
    .required "kind" ErrorKind.read fun e kind => { e with kind },
    .required "origin" ErrorOrigin.read fun e origin => { e with origin },
    .required "message" Reader.text fun e message => { e with message }]
  blank := default
  closed := false
  padded := false

def read : Reader PublicError := shape.read

def toDocument (e : PublicError) : Document :=
  .table [("kind", e.kind.toDocument), ("message", .text e.message),
    ("origin", e.origin.toDocument)]

/-- The public face of a failed call. -/
def ofCallError (e : CallError) : PublicError :=
  match e with
  | .validation _ => ⟨.invalid, .options, e.message⟩
  | .authorization _ => ⟨.unauthorized, .permission, e.message⟩
  | .execution _ => ⟨.execution, .executor, e.message⟩
  | .extension .. => ⟨.extension, .extension, e.message⟩
  | .contract c => ⟨.internal, .ofStage c.stage, e.message⟩

/-- The public face of an unusable configuration. -/
def ofConfigError (e : ConfigError) : PublicError := ⟨.invalid, .config, e.message⟩

end PublicError

end PageWatch
