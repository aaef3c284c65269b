import PageWatch.Config
import PageWatch.Toml

/-! Configuration files: TOML text with a table for the query settings. -/
namespace PageWatch

/-- Settings given as a list may be followed by further items, which mean nothing. -/
def SelectConfig.readLeading : Reader SelectConfig
  | .list items => read (.list (items.take shape.members.length))
  | d => read d

namespace Config

/-- The configuration that a text holds. -/
def ofText (s : String) : Except ConfigError Config :=
  match Toml.parse? s with
  | some d =>
    match (shape SelectConfig.readLeading).read d with
    | .ok c => c.validate
    | .error _ => .error .malformed
  | none => .error .malformed

/-- The configuration in a file, from the bytes of the file if it is there. -/
def ofFile (path : String) : Option ByteArray → Except ConfigError Config
  | some bytes =>
    match String.fromUTF8? bytes with
    | some s => ofText s
    | none => .error (.undecodableFile path)
  | none => .error (.missingFile path)

end Config

end PageWatch
