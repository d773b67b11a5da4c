import Template.Config
import Template.View.Finder

/-! # View configuration

Where views are, under which extensions, and how they are compiled.
-/

namespace Template

/-- Settings for finding and compiling views. -/
structure ViewConfig where
  paths : List Path
  namespaces : Table Text (List Path)
  extensions : List Text
  transpiler : Config
  deriving DecidableEq, Repr

namespace ViewConfig

/-- The settings that hold when nothing else is said. -/
def default : ViewConfig := ⟨[], .empty, defaultExtensions, .default⟩

/-- The settings with one more directory. -/
def withPath (config : ViewConfig) (path : Path) : ViewConfig :=
  { config with paths := config.paths ++ [path] }

/-- The settings with more directories for a namespace. -/
def withNamespace (config : ViewConfig) (scope : Text) (paths : List Path) : ViewConfig :=
  let old := (config.namespaces.find? scope).getD []
  { config with namespaces := config.namespaces.insert scope (old ++ paths) }

/-- The settings with another way of compiling. -/
def withTranspiler (config : ViewConfig) (transpiler : Config) : ViewConfig :=
  { config with transpiler }

/-- The settings with another directory for compiled files. -/
def withCacheDir (config : ViewConfig) (dir : Path) : ViewConfig :=
  { config with transpiler := { config.transpiler with cacheDir := some dir } }

/-- A finder for the places in the settings. -/
def finder (config : ViewConfig) : Finder :=
  { Finder.ofPaths config.paths with hints := config.namespaces, extensions := config.extensions }

end ViewConfig

end Template
