import Lookahead.Text.Extending
import Lookahead.Text.Ignorable
import Lookahead.Text.Unprintable

/-!
# Quoted text

Messages show names and rules between double quotes. What could be misread is
escaped: the quote and the backslash, line breaks, tabs and the null
character by a letter, every other character that is unprintable or ignorable
or extends its neighbour by its code point. All other characters stand as they
are.
-/
namespace Lookahead.Text

/-- The code point in lower case hexadecimal digits, without leading zeros. -/
def escapeCodePoint (c : Char) : List Char :=
  ['\\', 'u', '\x7b'] ++ Nat.toDigits 16 c.toNat ++ ['\x7d']

def escape (c : Char) : List Char :=
  if c = '\x00' then ['\\', '0']
  else if c = '\t' then ['\\', 't']
  else if c = '\n' then ['\\', 'n']
  else if c = '\r' then ['\\', 'r']
  else if c = '"' then ['\\', '"']
  else if c = '\\' then ['\\', '\\']
  else if isExtending c || isIgnorable c || isUnprintable c then escapeCodePoint c
  else [c]

def quoteChars (cs : List Char) : List Char := '"' :: cs.flatMap escape ++ ['"']

def quote (text : String) : String := String.ofList (quoteChars text.toList)

end Lookahead.Text
