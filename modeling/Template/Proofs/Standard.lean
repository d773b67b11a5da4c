import Mathlib.Control.Monad.Basic
import Template.Proofs.Run
import Template.Proofs.Text

/-! # The standard transpiler

The transpiler of the default configuration, with directives of one's own and no hooks.
-/

namespace Template

/-- The markers of comments in the default configuration. -/
def Markers.standardComments : Markers := ⟨"\x7b\x7b--".toList, "--\x7d\x7d".toList, by decide⟩

/-- A text that does not hold the end of a comment does not begin it either. -/
theorem Markers.avoids_standardComments_closing {inside : Text}
    (h : ¬ standardComments.closing <:+: inside) (t : Text) :
    Text.Avoids (standardComments.closing <+: ·) inside (standardComments.closing ++ t) := by
  rw [Text.avoids_iff]
  rintro front back rfl hback hbegins
  match back with
  | [] => exact hback rfl
  | [_] | [_, _] | [_, _, _] => simp [standardComments, List.cons_prefix_cons] at hbegins
  | a :: b :: c :: d :: back =>
    simp [standardComments, List.cons_prefix_cons] at hbegins
    obtain ⟨rfl, rfl, rfl, rfl⟩ := hbegins
    exact h ⟨front, back, by simp [standardComments]⟩

/-- The passes over echo tags in the default configuration. -/
def EchoPasses.standard : EchoPasses where
  raw := ⟨"\x7b!!".toList, "!!\x7d".toList, by decide⟩
  escaped := ⟨"\x7b\x7b\x7b".toList, "\x7d\x7d\x7d".toList, by decide⟩
  regular := ⟨"\x7b\x7b".toList, "\x7d\x7d".toList, by decide⟩
  format := "e(%s)".toList

namespace Transpiler

/-- The transpiler of the default configuration with the given directives and no hooks. -/
def standard (directives : Registry) : Transpiler where
  config := .default
  cache := none
  comments := .standardComments
  echoes := .standard
  directives := directives
  hooks := []

theorem create_default : create Markers.standardLimit .default = .ok (standard .builtins) := rfl

end Transpiler

end Template
