import SyntaxDialects.Text.Unprintable

/-!
Quoted texts. A text is written between double quotes with its quotes, backslashes and
unprintable characters escaped, so that it stays on one line and can be read back. The class of
unprintable characters is a parameter of the escaping: nothing but `isUnprintable` fixes it.
-/
namespace SyntaxDialects.Text

def numberedEscape (c : Char) : List Char :=
  ['\\', 'u', '\x7b'] ++ Nat.toDigits 16 c.toNat ++ ['\x7d']

def escapeChar (unprintable : Char → Bool) (c : Char) : List Char :=
  if c = '"' then ['\\', '"']
  else if c = '\\' then ['\\', '\\']
  else if c = '\n' then ['\\', 'n']
  else if c = '\r' then ['\\', 'r']
  else if c = '\t' then ['\\', 't']
  else if c = '\x00' then ['\\', '0']
  else if unprintable c then numberedEscape c
  else [c]

def escape (unprintable : Char → Bool) (text : List Char) : List Char :=
  text.flatMap (escapeChar unprintable)

def quoted (text : String) : String :=
  String.ofList ('"' :: escape isUnprintable text.toList ++ ['"'])

end SyntaxDialects.Text
