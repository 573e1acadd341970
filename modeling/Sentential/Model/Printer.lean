import Sentential.Model.Basic

namespace Sentential.Model

-- The assignments in braces, in name order, as `A=true`.
def text (m : Model) : String :=
  "\x7b" ++ ", ".intercalate (m.entries.map fun e => e.1.name ++ "=" ++ toString e.2) ++ "\x7d"

instance : ToString Model where
  toString := text

-- The assignments in braces, in name order, as `A: true`.
def listing (m : Model) : String :=
  "\x7b" ++ ", ".intercalate (m.entries.map fun e => e.1.name ++ ": " ++ toString e.2) ++ "\x7d"

end Sentential.Model
