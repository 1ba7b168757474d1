import Interpose.Text.Blank

/-!
# Switches

A setting that turns something on or off is one word out of a few, in any case and between any blanks. The empty text
turns it off. Every other text is no switch, and what becomes of it is for the setting to say.
-/

namespace Interpose.Text

/-- The words that turn a setting on. -/
def onWords : List (List Char) :=
  [['1'], ['t', 'r', 'u', 'e'], ['o', 'n'], ['y', 'e', 's']]

/-- The words that turn a setting off. -/
def offWords : List (List Char) :=
  [[], ['0'], ['f', 'a', 'l', 's', 'e'], ['o', 'f', 'f'], ['n', 'o']]

/-- Reads a switch. The case of the letters A to Z does not count. -/
def switch? (cs : List Char) : Option Bool :=
  let word := (trimBlanks cs).map Char.toLower
  if word ∈ offWords then some false else if word ∈ onWords then some true else none

example : switch? [' ', 'Y', 'e', 'S', '\n'] = some true := by decide
example : switch? ['\t', ' '] = some false := by decide
example : switch? ['o', 'n', ',', 'o', 'f', 'f'] = none := by decide

end Interpose.Text
