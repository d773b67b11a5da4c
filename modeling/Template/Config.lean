import Template.Error

/-! # Configuration

The markers of the tag families, the echo format, and where compiled files go. A
configuration is checked as a whole before a transpiler uses it.
-/

namespace Template

structure Config where
  /-- Directory for compiled files; without one nothing is compiled to disk. -/
  cacheDir : Option Path
  rawTags : TagPair
  escapedTags : TagPair
  contentTags : TagPair
  commentTags : TagPair
  /-- Wrapper of regular echoes, with the placeholder where the expression goes. -/
  echoFormat : Text
  /-- Extension of compiled files, without its dot. -/
  compiledExtension : Text
  deriving DecidableEq, Repr

namespace Config

/-- The settings that hold when nothing else is said. -/
def default : Config where
  cacheDir := none
  rawTags := .ofStrings "\x7b!!" "!!\x7d"
  escapedTags := .ofStrings "\x7b\x7b\x7b" "\x7d\x7d\x7d"
  contentTags := .ofStrings "\x7b\x7b" "\x7d\x7d"
  commentTags := .ofStrings "\x7b\x7b--" "--\x7d\x7d"
  echoFormat := "e(%s)".toList
  compiledExtension := "php".toList

/-- The markers of a family; directives have none. -/
def tags? (config : Config) : TagKind → Option TagPair
  | .comment => some config.commentTags
  | .rawEcho => some config.rawTags
  | .escapedEcho => some config.escapedTags
  | .regularEcho => some config.contentTags
  | .directive => none

/-- The configuration with other markers for a family. -/
def setTags (config : Config) (kind : TagKind) (tags : TagPair) : Except ConfigFault Config :=
  match kind with
  | .comment => .ok { config with commentTags := tags }
  | .rawEcho => .ok { config with rawTags := tags }
  | .escapedEcho => .ok { config with escapedTags := tags }
  | .regularEcho => .ok { config with contentTags := tags }
  | .directive => .error .directiveMarkers

/-- An expression in the echo format: it takes the first placeholder. -/
def formatEcho (config : Config) (expression : Text) : Text :=
  Text.replaceFirst echoPlaceholder expression config.echoFormat

/-- The families with markers, in the order they are checked. -/
def markedFamilies (config : Config) : List (TagKind × TagPair) :=
  [(.comment, config.commentTags), (.rawEcho, config.rawTags),
   (.escapedEcho, config.escapedTags), (.regularEcho, config.contentTags)]

/-- The first opening marker that two echo families share. -/
def sharedOpening? (config : Config) : Option Text :=
  let raw := config.rawTags.opening
  let escaped := config.escapedTags.opening
  let regular := config.contentTags.opening
  if raw = escaped || raw = regular then some raw
  else if escaped = regular then some escaped
  else none

/-- Whether compiled files can carry the extension. -/
def isUsableExtension (extension : Text) : Bool :=
  !extension.isAllBlank && extension.all fun c => c != '/' && c != '\\' && c != '.'

/-- The first fault of a configuration: its cache directory, each family's markers, the
    opening markers of the echo families, the echo format, then the extension. -/
def fault? (config : Config) : Option ConfigFault :=
  if config.cacheDir.any fun dir => dir.text.isAllBlank then some .blankCacheDir
  else match config.markedFamilies.find? fun family => family.2.isBlank with
    | some family => some (.blankMarker family.1)
    | none =>
      match config.sharedOpening? with
      | some opening => some (.sharedOpening opening)
      | none =>
        if !Text.contains echoPlaceholder config.echoFormat then
          some (.noPlaceholder config.echoFormat)
        else if !isUsableExtension config.compiledExtension then
          some (.badExtension config.compiledExtension)
        else none

def validate (config : Config) : Except TranspileError Unit :=
  match config.fault? with
  | some fault => .error (.configuration fault)
  | none => .ok ()

/-- Equality of configurations, with cache directories compared as places. -/
def equals (a b : Config) : Bool :=
  let dirs := match a.cacheDir, b.cacheDir with
    | some p, some q => p.same q
    | none, none => true
    | _, _ => false
  dirs && { a with cacheDir := none } = { b with cacheDir := none }

/-- Description of a pair of markers. -/
def describePair (pair : TagPair) : Text :=
  "TagPair \x7b open: ".toList ++ pair.opening.quoted ++ ", close: ".toList ++
    pair.closing.quoted ++ " \x7d".toList

/-- Description of a configuration, field by field. -/
def describe (config : Config) : Text :=
  let dir := match config.cacheDir with
    | some dir => "Some(".toList ++ dir.quoted ++ ")".toList
    | none => "None".toList
  "TranspilerConfig \x7b cache_dir: ".toList ++ dir ++
    ", raw_tags: ".toList ++ describePair config.rawTags ++
    ", escaped_tags: ".toList ++ describePair config.escapedTags ++
    ", content_tags: ".toList ++ describePair config.contentTags ++
    ", comment_tags: ".toList ++ describePair config.commentTags ++
    ", echo_format: ".toList ++ config.echoFormat.quoted ++
    ", compiled_extension: ".toList ++ config.compiledExtension.quoted ++ " \x7d".toList

end Config

end Template
