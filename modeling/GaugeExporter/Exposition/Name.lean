/-!
# Names

Metric names and tag keys begin with an ASCII letter or an underscore and go on
with ASCII letters, digits and underscores.
-/

namespace GaugeExporter.Exposition

/-- A character that a name can begin with. -/
def isNameStart (c : Char) : Bool := c.isAlpha || c == '_'

/-- A character that a name can go on with. -/
def isNameRest (c : Char) : Bool := c.isAlphanum || c == '_'

def isValidName (name : String) : Bool :=
  match name.toList with
  | [] => false
  | first :: rest => isNameStart first && rest.all isNameRest

end GaugeExporter.Exposition
