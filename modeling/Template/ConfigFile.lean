import Template.Files
import Template.View.Config
import Template.Yaml.Decode

/-! # Configuration files

A configuration is written in YAML as a record of its fields. What is not written keeps its
default, and unknown fields are passed over.
-/

namespace Template

open Yaml

/-- A pair of markers: both must be written. -/
def TagPair.decode (node : Node) : Decoder TagPair := do
  let fields ← Decoder.fields ["open", "close"] node
  let opening ← Decoder.required fields "open" Decoder.text
  let closing ← Decoder.required fields "close" Decoder.text
  pure ⟨opening, closing⟩

namespace Config

def decode (node : Node) : Decoder Config := do
  let fields ← Decoder.fields ["cache_dir", "raw_tags", "escaped_tags", "content_tags",
    "comment_tags", "echo_format", "compiled_extension"] node
  let base := Config.default
  pure {
    cacheDir := ← Decoder.field fields "cache_dir" base.cacheDir fun node => do
      pure ((← Decoder.optionalText node).map Path.mk)
    rawTags := ← Decoder.field fields "raw_tags" base.rawTags TagPair.decode
    escapedTags := ← Decoder.field fields "escaped_tags" base.escapedTags TagPair.decode
    contentTags := ← Decoder.field fields "content_tags" base.contentTags TagPair.decode
    commentTags := ← Decoder.field fields "comment_tags" base.commentTags TagPair.decode
    echoFormat := ← Decoder.field fields "echo_format" base.echoFormat Decoder.text
    compiledExtension :=
      ← Decoder.field fields "compiled_extension" base.compiledExtension Decoder.text }

/-- The settings in the text of a configuration file. -/
def ofYaml (text : Text) : Except TranspileError Config :=
  match (Yaml.document? text).bind fun document => Decoder.run document decode with
  | some config => .ok config
  | none => .error .yaml

/-- The settings in a configuration file. -/
def load {m : Type → Type} [Monad m] [Files m] (path : Path) : FilesT m Config := do
  let text ← FilesT.io (Files.readText path)
  ExceptT.mk (pure (ofYaml text))

end Config

namespace ViewConfig

def decodePaths (node : Node) : Decoder (List Path) := do
  pure ((← Decoder.list Decoder.text node).map Path.mk)

/-- The directories of each namespace; of two entries for one the later counts. -/
def decodeNamespaces (node : Node) : Decoder (Table Text (List Path)) := do
  (← Decoder.entries node).foldlM (fun table (scope, node) => do
    pure (table.insert scope (← decodePaths node))) .empty

/-- The settings for finding and compiling views. -/
def decode (node : Node) : Decoder ViewConfig := do
  let fields ← Decoder.fields ["paths", "namespaces", "extensions", "transpiler"] node
  let base := ViewConfig.default
  pure {
    paths := ← Decoder.field fields "paths" base.paths decodePaths
    namespaces := ← Decoder.field fields "namespaces" base.namespaces decodeNamespaces
    extensions := ← Decoder.field fields "extensions" base.extensions (Decoder.list Decoder.text)
    transpiler := ← Decoder.field fields "transpiler" base.transpiler Config.decode }

/-- The settings in the text of a configuration file. -/
def ofYaml (text : Text) : Except ViewError ViewConfig :=
  match (Yaml.document? text).bind fun document => Decoder.run document decode with
  | some config => .ok config
  | none => .error .yaml

/-- The settings in a configuration file. -/
def load {m : Type → Type} [Monad m] [Files m] (path : Path) : m (Except ViewError ViewConfig) := do
  match ← (Files.readText path : m (Except IoError Text)) with
  | .ok text => pure (ofYaml text)
  | .error error => pure (.error (.io error))

end ViewConfig

end Template
