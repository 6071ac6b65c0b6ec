import Intake.Text.Blank

/-!
# The format of log lines
-/

namespace Intake

/-- How log lines are written. -/
inductive LogFormat where
  | json
  | text
deriving DecidableEq

/-- The format that a setting names: `text`, in any case and with blanks around it, and otherwise
JSON. -/
def LogFormat.parse : Option String → LogFormat
  | none => .json
  | some s => if (Text.trim s).toList.map Char.toLower = ['t', 'e', 'x', 't'] then .text else .json

end Intake
