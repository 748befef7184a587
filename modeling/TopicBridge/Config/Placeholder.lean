/-
**Placeholders as an expression.**

`substitute` reads a placeholder character by character.  The same can be said by a regular
expression with two groups, the name and the default, every match of which is replaced.

Main definitions:

* `TopicBridge.placeholderRegex` — the expression;
* `Regex.Way.placeholder` — the placeholder that a match is;
* `TopicBridge.substituteMatches` — a text with every match replaced by what it stands for.
-/

import TopicBridge.Config.Substitution
import TopicBridge.Text.Regex

set_option autoImplicit false

namespace TopicBridge

/-- A character that can be in the name of a variable: neither a closing brace nor a colon. -/
def isVariableChar (c : Char) : Bool := c ≠ '\x7d' && c ≠ ':'

/-- The end of a placeholder: perhaps a default, and the closing brace. -/
def placeholderEndRegex : Regex :=
  .seq
    (.optional (.seq (.char (· = ':')) (.seq (.char (· = '-')) (.group (.repeated (· ≠ '\x7d'))))))
    (.char (· = '\x7d'))

/-- A placeholder, with its name and its default as groups. -/
def placeholderRegex : Regex :=
  .seq (.char (· = '$')) (.seq (.char (· = '\x7b'))
    (.seq (.group (.seq (.char isVariableChar) (.repeated isVariableChar))) placeholderEndRegex))

/-- The placeholder that a match is.  A default that is not there is empty. -/
def Regex.Way.placeholder (w : Regex.Way) : Placeholder where
  name := String.ofList ((w.groups[0]?.getD none).getD [])
  default := String.ofList ((w.groups[1]?.getD none).getD [])

/-- What is put in the place of a match. -/
def Regex.Way.filled (env : Environment) (w : Regex.Way) : List Char :=
  (w.placeholder.value env).toList

/-- A text with every match replaced by what it stands for. -/
def substituteMatches (env : Environment) (s : String) : String :=
  String.ofList (placeholderRegex.replaceAll (Regex.Way.filled env) s.toList)

end TopicBridge
