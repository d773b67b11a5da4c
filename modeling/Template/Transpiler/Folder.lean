import Template.Files.Folders
import Template.Transpiler.Compile

/-! # Compiling folders

The templates below a directory are those files whose names end in one of the extensions. They
are compiled one after another; one that fails is noted and does not stop the rest.
-/

namespace Template

/-- Whether a file name is a stem, a dot and one of the extensions. -/
def hasExtension (extensions : List Text) (name : Text) : Bool :=
  extensions.any fun extension =>
    match Text.stripSuffix? extension name with
    | some stem => decide (1 < stem.length) && stem.getLast? == some '.'
    | none => false

/-- What came of compiling a folder. -/
structure Summary where
  /-- Number of compiled forms that were written. -/
  compiled : Nat
  /-- Number of templates whose compiled forms were up to date. -/
  upToDate : Nat
  /-- The templates that failed, in the order they were met. -/
  failed : List (Path × TranspileError)
  deriving DecidableEq, Repr

namespace Summary

def empty : Summary := ⟨0, 0, []⟩

/-- The summary with one more template. -/
def add (summary : Summary) (source : Path) : Except TranspileError Bool → Summary
  | .ok true => { summary with compiled := summary.compiled + 1 }
  | .ok false => { summary with upToDate := summary.upToDate + 1 }
  | .error error => { summary with failed := summary.failed ++ [(source, error)] }

end Summary

/-- How deep below a directory templates are looked for. A path that long cannot be used. -/
def folderDepth : Nat := 4096

/-- Compiles the templates below a directory, in any case or only those that have to be. -/
def Transpiler.compileFolder {m : Type → Type} [Monad m] [Folders m] (transpiler : Transpiler)
    (extensions : List Text) (always : Bool) (dir : Path) : m Summary :=
  Folders.visit (hasExtension extensions)
    (fun summary source => do
      pure (summary.add source (← (transpiler.refresh always source : FilesT m Bool).run)))
    folderDepth dir .empty

end Template
