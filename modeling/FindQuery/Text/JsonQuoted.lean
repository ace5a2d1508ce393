import FindQuery.Text.Quoted

/-! Strings of the JSON format, written with ASCII characters alone. -/

namespace FindQuery.Text

def jsonUnit (n : Nat) : Text := ['\\', 'u'] ++ hex 4 n

def jsonChar (c : Char) : Text :=
  if c = '"' then ['\\', '"']
  else if c = '\\' then ['\\', '\\']
  else if c = '\n' then ['\\', 'n']
  else if c = '\r' then ['\\', 'r']
  else if c = '\t' then ['\\', 't']
  else if c = '\x0c' then ['\\', 'f']
  else if c = '\x08' then ['\\', 'b']
  else if 0x20 ≤ c.toNat ∧ c.toNat < 0x7f then [c]
  else if c.toNat < 0x10000 then jsonUnit c.toNat
  else
    let n := c.toNat - 0x10000
    jsonUnit (0xD800 + n / 0x400) ++ jsonUnit (0xDC00 + n % 0x400)

/-- The text as a JSON string. A character beyond 16 bits is written as a pair of units. -/
def jsonQuoted (s : Text) : Text := '"' :: s.flatMap jsonChar ++ ['"']

end FindQuery.Text
