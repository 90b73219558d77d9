import PolicyLedger.Language.Statement
import PolicyLedger.Policy.Error

/-!
Statements written as policy text. Names stand in double quotes, lists in brackets, and a declaration
is the text it was written as.
-/
namespace PolicyLedger

/-- Items in brackets, each in quotes. -/
def bracketed (items : List String) : String := "[" ++ String.intercalate ", " (items.map quoted) ++ "]"

namespace Statement

def render : Statement → String
  | createPolicyClass name => "create pc " ++ quoted name
  | createNode kind name descendants =>
    "create " ++ kind.keyword ++ " " ++ quoted name ++ " in " ++ bracketed descendants
  | assign ascendant descendants => "assign " ++ quoted ascendant ++ " to " ++ bracketed descendants
  | deassign ascendant descendants => "deassign " ++ quoted ascendant ++ " from " ++ bracketed descendants
  | associate ua target rights =>
    "associate " ++ quoted ua ++ " and " ++ quoted target ++ " with " ++ bracketed rights.toList
  | setResourceOperations rights => "set resource operations " ++ bracketed rights.toList
  | declare _ _ source => source
  | delete target name => "delete " ++ target.word ++ " " ++ quoted name

/-- One statement a line. -/
def renderAll (statements : List Statement) : String := String.intercalate "\n" (statements.map render)

theorem renderAll_singleton (s : Statement) : renderAll [s] = s.render := String.intercalate_singleton

theorem renderAll_cons_cons (s next : Statement) (rest : List Statement) :
    renderAll (s :: next :: rest) = s.render ++ "\n" ++ renderAll (next :: rest) := String.intercalate_cons_cons

end Statement
end PolicyLedger
