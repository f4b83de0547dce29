import Workbench.Text.Printable

/-!
# Quoted texts in messages

A message shows a text between quotes, with everything that would not print spelled out.
-/
namespace Workbench.Text

def hexDigits (n : Nat) : String :=
  String.ofList (Nat.toDigits 16 n)

def quotedChar (c : Char) : String :=
  if c = '"' then "\\\""
  else if c = '\\' then "\\\\"
  else if c = '\n' then "\\n"
  else if c = '\r' then "\\r"
  else if c = '\t' then "\\t"
  else if c = '\x00' then "\\0"
  else if isPrintable c then c.toString
  else "\\u\x7b" ++ hexDigits c.toNat ++ "\x7d"

/-- `s` between double quotes. -/
def quoted (s : String) : String :=
  "\"" ++ String.join (s.toList.map quotedChar) ++ "\""

end Workbench.Text
