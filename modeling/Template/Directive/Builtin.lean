import Template.Directive.Argument
import Template.Directive.Registry
import Template.Text.Blank

/-! # Built-in directives

Branches, loops, code blocks, and the layout a template extends. The layout is rendered after
the template itself, so its code goes to the footer.
-/

namespace Template

namespace Registry

/-- The argument, which must hold more than blanks. -/
def required (directive : Text) (argument : Option Text) : Action Text :=
  match argument.filter fun text => !text.stripParentheses.isAllBlank with
  | some text => .done text
  | none => .fail (.handler directive "an expression argument is required".toList)

/-- A directive that writes the same code whatever its argument is. -/
def constant (code : String) : Handler := fun _ => .done code.toList

/-- A directive that writes its required argument between two pieces of code. -/
def surround (directive before after : String) : Handler := fun argument => do
  let text ← required directive.toList argument
  pure (before.toList ++ text ++ after.toList)

/-- A code block: with an argument the block is that statement, without one it is left open. -/
def codeBlock : Handler
  | some text => .done ("<?php ".toList ++ text.stripParentheses ++ "; ?>".toList)
  | none => .done "<?php".toList

/-- The layout of the template: it is rendered at the end, with the template's variables. -/
def extendLayout : Handler := fun argument => do
  let text ← required "extends".toList argument
  .addFooter ("<?php echo $__env->make(".toList ++ text.stripParentheses ++
    ", get_defined_vars())->render(); ?>".toList)
  pure []

def builtins : Registry :=
  empty.insertAll
    [("if".toList, surround "if" "<?php if" ": ?>"),
     ("elseif".toList, surround "elseif" "<?php elseif" ": ?>"),
     ("else".toList, constant "<?php else: ?>"),
     ("endif".toList, constant "<?php endif; ?>"),
     ("unless".toList, surround "unless" "<?php if (! " "): ?>"),
     ("endunless".toList, constant "<?php endif; ?>"),
     ("foreach".toList, surround "foreach" "<?php foreach" ": ?>"),
     ("endforeach".toList, constant "<?php endforeach; ?>"),
     ("php".toList, codeBlock),
     ("endphp".toList, constant "?>"),
     ("extends".toList, extendLayout)]

end Registry

end Template
