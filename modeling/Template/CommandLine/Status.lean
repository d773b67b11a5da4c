import Template.Text.Json
import Template.Timestamp

/-! # Status reports

What there is to say about a template file and its compiled form, for people and as JSON.
-/

namespace Template

/-- The state of a template file and its compiled form. -/
structure Status where
  source : Path
  sourceTime : Time
  /-- The place of the compiled form. -/
  compiled : Path
  /-- When that was written, if it is there. -/
  compiledTime : Option Time
  /-- Whether the template has to be compiled. -/
  stale : Bool
  deriving DecidableEq, Repr

namespace Status

def text (status : Status) : Text :=
  let stamp (time : Time) : Text := (Timestamp.ofTime time).withOffset
  let compiled := match status.compiledTime with
    | some time => stamp time
    | none => "missing".toList
  "📄 Source:   ".toList ++ status.source.text ++ " (".toList ++ stamp status.sourceTime ++
    ")\n📦 Compiled: ".toList ++ status.compiled.text ++ " (".toList ++ compiled ++ ")\n".toList ++
    (if status.stale then "⚠️  Stale, will be transpiled on next use\n".toList
     else "✅ Up to date\n".toList)

def json (status : Status) : Text :=
  let stamp (time : Time) : Text := Text.json (Timestamp.ofTime time).withZone
  let compiled := match status.compiledTime with
    | some time => stamp time
    | none => "null".toList
  Text.jsonObject [
    ("source".toList, Text.json status.source.text),
    ("source_modified".toList, stamp status.sourceTime),
    ("compiled".toList, Text.json status.compiled.text),
    ("compiled_modified".toList, compiled),
    ("stale".toList, Text.jsonBool status.stale)] ++ ['\n']

end Status

end Template
