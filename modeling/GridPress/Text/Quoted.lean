import GridPress.Text.Invisible

namespace GridPress.Text

def hexDigits (n : Nat) : List Char :=
  Nat.toDigits 16 n

-- A character by its number in braces.
def numberEscape (c : Char) : List Char :=
  '\\' :: 'u' :: '\x7b' :: (hexDigits c.toNat ++ ['\x7d'])

-- A character inside of quotes.
def escape (c : Char) : List Char :=
  if c = '\x00' then
    ['\\', '0']
  else if c = '\t' then
    ['\\', 't']
  else if c = '\r' then
    ['\\', 'r']
  else if c = '\n' then
    ['\\', 'n']
  else if c = '\\' ∨ c = '"' then
    ['\\', c]
  else if isInvisible c then
    numberEscape c
  else
    [c]

def quote (s : String) : String :=
  String.ofList ('"' :: s.toList.flatMap escape ++ ['"'])

end GridPress.Text
