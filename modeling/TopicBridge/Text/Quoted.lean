/-
**Quoted texts.**

A text that is shown in a record stands between quotes, and on one line: quotes and backslashes in
it are marked by a backslash, and characters that would not show are named instead.

Main definitions:

* `TopicBridge.Text.escape` — how a character is written between quotes;
* `Text.quoted` — a text between quotes.
-/

import TopicBridge.Text.Hidden

set_option autoImplicit false

namespace TopicBridge.Text

/-- A character by its code point. -/
def byCode (c : Char) : List Char :=
  ['\\', 'u', '{'] ++ Nat.toDigits 16 c.toNat ++ ['}']

/-- How a character is written between quotes. -/
def escape (c : Char) : List Char :=
  if c = '"' ∨ c = '\\' then ['\\', c]
  else if c = '\n' then ['\\', 'n']
  else if c = '\r' then ['\\', 'r']
  else if c = '\t' then ['\\', 't']
  else if c.toNat = 0 then ['\\', '0']
  else if isHidden c then byCode c
  else [c]

/-- A text between quotes. -/
def quoted (s : String) : String := String.ofList ('"' :: s.toList.flatMap escape ++ ['"'])

end TopicBridge.Text
