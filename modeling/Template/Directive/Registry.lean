import Template.Directive.Action
import Template.Table
import Template.Text.Quoted

/-! # Registries

A registry names the directives that are carried out. A later entry for a name takes the
place of an earlier one, and the names are listed in order.
-/

namespace Template

/-- What a directive does with its argument, which comes with its parentheses. -/
abbrev Handler := Option Text → Action Text

structure Registry where
  table : Table Text Handler

namespace Registry

def empty : Registry := ⟨.empty⟩

def find? (registry : Registry) (name : Text) : Option Handler := registry.table.find? name

/-- Whether the name has a directive. -/
def contains (registry : Registry) (name : Text) : Bool := registry.table.contains name

/-- The registry without the directive of a name. -/
def erase (registry : Registry) (name : Text) : Registry := ⟨registry.table.erase name⟩

/-- The registry with a directive for a name, in place of any earlier one. -/
def insert (registry : Registry) (name : Text) (handler : Handler) : Registry :=
  ⟨registry.table.insert name handler⟩

/-- The registry with entries put in one after another. -/
def insertAll (registry : Registry) (entries : List (Text × Handler)) : Registry :=
  entries.foldl (fun registry (name, handler) => registry.insert name handler) registry

def names (registry : Registry) : List Text := Text.sort registry.table.keys

def size (registry : Registry) : Nat := registry.table.size

def isEmpty (registry : Registry) : Bool := registry.table.isEmpty

def describe (registry : Registry) : Text :=
  "DirectiveRegistry \x7b directives: ".toList ++
    Text.bracketed (registry.names.map Text.quoted) ++ " \x7d".toList

theorem find?_erase (registry : Registry) (name other : Text) :
    (registry.erase name).find? other = if other = name then none else registry.find? other :=
  registry.table.find?_erase name other

theorem find?_insert (registry : Registry) (name other : Text) (handler : Handler) :
    (registry.insert name handler).find? other =
      if other = name then some handler else registry.find? other :=
  registry.table.find?_insert name other handler

end Registry

end Template
