import Template.Files

/-! # Folders

Looking into directories, asked of a monad like the file operations, and visiting the files
below a directory. A directory is listed when it is reached, so a visit that writes files may
meet them later on.
-/

namespace Template

structure Entry where
  name : Text
  isDirectory : Bool
  deriving DecidableEq, Repr

/-- A monad that can look into directories, besides using files. -/
class Folders (m : Type → Type) extends Files m where
  /-- Whether the path leads to a directory. -/
  isDirectory : Path → m Bool
  /-- What a directory holds, in the order of the names; nothing if it cannot be listed. -/
  entries : Path → m (List Entry)

namespace Folders

variable {m : Type → Type} [Monad m] [Folders m] {σ : Type}

/-- Visits the files below a directory whose name is wanted, down to a depth: the entries of
    each directory in the order of their names, what is below an entry right after it. -/
def visit (wanted : Text → Bool) (step : σ → Path → m σ) : (depth : Nat) → Path → σ → m σ
  | 0, _, state => pure state
  | depth + 1, dir, state => do
    (← entries dir).foldlM (fun state entry =>
      let path := dir.join ⟨entry.name⟩
      if entry.isDirectory then visit wanted step depth path state
      else if wanted entry.name then step state path
      else pure state) state

end Folders

end Template
