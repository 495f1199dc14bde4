import GraphLogic.Formula

/-!
# Building formulas

Formulas without places, from their parts.
-/

namespace GraphLogic

namespace Formula

def quantify (q : Quantifier) (x : Variable) (body : Formula Unit) : Formula Unit :=
  quantified () ⟨(), q⟩ ⟨(), x⟩ body

def connect (c : Connective) (left right : Formula Unit) : Formula Unit :=
  binary () ⟨(), c⟩ left right

def negate (inner : Formula Unit) : Formula Unit := negation () () inner

def compare (o : Comparison) (left right : Variable) : Formula Unit :=
  comparison () ⟨(), o⟩ ⟨(), left⟩ ⟨(), right⟩

def relate (r : Relation) (arguments : List Variable) : Formula Unit :=
  relation () ⟨(), r⟩ (arguments.map fun x => ⟨(), x⟩)

end Formula

end GraphLogic
