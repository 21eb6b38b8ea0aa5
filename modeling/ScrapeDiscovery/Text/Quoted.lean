import ScrapeDiscovery.Text.Hidden

/-!
# Quoted texts

A text inside a message stands between double quotes. A quote, a backslash and
the common control characters have a short escape, characters that cannot be
seen are written as `\u` with their code point in braces, and every other
character stands for itself.
-/

namespace ScrapeDiscovery.Text

/-- The hexadecimal digits of `n`, lower case, without leading zeros. -/
def hexDigits (n : Nat) : List Char := Nat.toDigits 16 n

/-- What a quoted text writes for one character. -/
def quoteChar (c : Char) : List Char :=
  match c with
  | '\x00' => ['\\', '0']
  | '\t' => ['\\', 't']
  | '\r' => ['\\', 'r']
  | '\n' => ['\\', 'n']
  | '"' => ['\\', '"']
  | '\\' => ['\\', '\\']
  | c => if isHidden c then ['\\', 'u', '\x7b'] ++ hexDigits c.toNat ++ ['\x7d'] else [c]

/-- `s` between double quotes, with escapes. -/
def quoted (s : String) : String :=
  String.ofList ('"' :: (s.toList.flatMap quoteChar ++ ['"']))

end ScrapeDiscovery.Text
