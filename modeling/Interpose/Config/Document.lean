/-!
# Configuration documents

A configuration document is a sequence of lines, each blank, a comment, or a setting `key = value`. Of the notation
that documents are written in (tables, arrays, numbers, dates) no setting uses more than a key and a truth value or a
text, so those are all that is read here; a document that uses anything else sets something unknown, or sets a known
key to a value of the wrong kind, and is refused either way.

Texts come in four forms: quoted `"…"` with escapes, verbatim `'…'`, and both with their quotes tripled, which may run
over several lines.

Main definition: `settings?`, the settings of a document in order.
-/

namespace Interpose.Document

/-- What a setting can be set to. -/
inductive Value
  | bool (b : Bool)
  | text (cs : List Char)
deriving DecidableEq

/-! ## Characters -/

/-- A character that may stand in a comment or a text: a tab, or anything that is not a control character. -/
def isPlain (c : Char) : Bool :=
  c == '\t' || (0x20 ≤ c.toNat && c.toNat != 0x7F)

/-- The space and the tab, which may stand between the parts of a line. -/
def isSpace (c : Char) : Bool :=
  c == ' ' || c == '\t'

/-- A character of an unquoted key. -/
def isKeyChar (c : Char) : Bool :=
  c.isAlphanum || c == '_' || c == '-'

/-- The value of a hexadecimal digit. -/
def hexDigit? (c : Char) : Option Nat :=
  if '0' ≤ c ∧ c ≤ '9' then some (c.toNat - '0'.toNat)
  else if 'a' ≤ c ∧ c ≤ 'f' then some (c.toNat - 'a'.toNat + 10)
  else if 'A' ≤ c ∧ c ≤ 'F' then some (c.toNat - 'A'.toNat + 10)
  else none

/-- The character that a run of hexadecimal digits names; none if a digit is amiss or no character has that number. -/
def hexChar? (digits : List Char) : Option Char :=
  (digits.foldlM (fun n c => (hexDigit? c).map (16 * n + ·)) 0).bind fun n =>
    if n.isValidChar then some (Char.ofNat n) else none

/-- The character that a one-letter escape stands for. -/
def escape? : Char → Option Char
  | 'b' => some '\x08'
  | 't' => some '\t'
  | 'n' => some '\n'
  | 'f' => some '\x0c'
  | 'r' => some '\r'
  | 'e' => some '\x1b'
  | '"' => some '"'
  | '\\' => some '\\'
  | _ => none

/-! ## Texts

Each reader below starts behind the opening quote and answers the text and what stands behind the closing quote. -/

/-- Puts a character in front of the text that was read. -/
def prepend (c : Char) : List Char × List Char → List Char × List Char
  | (text, rest) => (c :: text, rest)

/-- The rest of a quoted text on one line. -/
def quoted? : List Char → Option (List Char × List Char)
  | [] => none
  | '"' :: rest => some ([], rest)
  | '\\' :: 'x' :: a :: b :: rest => do
    let c ← hexChar? [a, b]
    (quoted? rest).map (prepend c)
  | '\\' :: 'u' :: a :: b :: c :: d :: rest => do
    let c ← hexChar? [a, b, c, d]
    (quoted? rest).map (prepend c)
  | '\\' :: 'U' :: a :: b :: c :: d :: e :: f :: g :: h :: rest => do
    let c ← hexChar? [a, b, c, d, e, f, g, h]
    (quoted? rest).map (prepend c)
  | '\\' :: c :: rest => do
    let c ← escape? c
    (quoted? rest).map (prepend c)
  | c :: rest => if isPlain c then (quoted? rest).map (prepend c) else none

/-- The rest of a verbatim text on one line. -/
def verbatim? : List Char → Option (List Char × List Char)
  | [] => none
  | '\'' :: rest => some ([], rest)
  | c :: rest => if isPlain c then (verbatim? rest).map (prepend c) else none

/-- How far a backslash at the end of a line has been read: not at all, up to the end of its line, or beyond it. -/
inductive Fold
  | none
  | blank
  | broken
deriving DecidableEq

/-- The rest of a quoted text over several lines. Up to two quotes may stand in the text, also right before the three
that close it. The end of a line is part of the text as it is written, with or without a carriage return. A backslash
that only spaces follow on its line swallows the end of the line and all space after it. -/
def quotedLines? : Fold → List Char → Option (List Char × List Char)
  | _, [] => none
  | .blank, '\n' :: rest => quotedLines? .broken rest
  | .blank, '\r' :: '\n' :: rest => quotedLines? .broken rest
  | .blank, c :: rest => if isSpace c then quotedLines? .blank rest else none
  | .broken, '\n' :: rest => quotedLines? .broken rest
  | .broken, '\r' :: '\n' :: rest => quotedLines? .broken rest
  | .broken, ' ' :: rest => quotedLines? .broken rest
  | .broken, '\t' :: rest => quotedLines? .broken rest
  | _, '"' :: '"' :: '"' :: '"' :: '"' :: rest => some (['"', '"'], rest)
  | _, '"' :: '"' :: '"' :: '"' :: rest => some (['"'], rest)
  | _, '"' :: '"' :: '"' :: rest => some ([], rest)
  | _, '\n' :: rest => (quotedLines? .none rest).map (prepend '\n')
  | _, '\r' :: '\n' :: rest => (quotedLines? .none rest).map fun r => prepend '\r' (prepend '\n' r)
  | _, '\\' :: 'x' :: a :: b :: rest => do
    let c ← hexChar? [a, b]
    (quotedLines? .none rest).map (prepend c)
  | _, '\\' :: 'u' :: a :: b :: c :: d :: rest => do
    let c ← hexChar? [a, b, c, d]
    (quotedLines? .none rest).map (prepend c)
  | _, '\\' :: 'U' :: a :: b :: c :: d :: e :: f :: g :: h :: rest => do
    let c ← hexChar? [a, b, c, d, e, f, g, h]
    (quotedLines? .none rest).map (prepend c)
  | _, '\\' :: '\n' :: rest => quotedLines? .broken rest
  | _, '\\' :: '\r' :: '\n' :: rest => quotedLines? .broken rest
  | _, '\\' :: c :: rest =>
    if isSpace c then quotedLines? .blank rest
    else do
      let c ← escape? c
      (quotedLines? .none rest).map (prepend c)
  | _, c :: rest => if isPlain c then (quotedLines? .none rest).map (prepend c) else none

/-- The rest of a verbatim text over several lines. Up to two quotes may stand in the text, also right before the three
that close it. The end of a line is part of the text as it is written, with or without a carriage return. -/
def verbatimLines? : List Char → Option (List Char × List Char)
  | [] => none
  | '\'' :: '\'' :: '\'' :: '\'' :: '\'' :: rest => some (['\'', '\''], rest)
  | '\'' :: '\'' :: '\'' :: '\'' :: rest => some (['\''], rest)
  | '\'' :: '\'' :: '\'' :: rest => some ([], rest)
  | '\n' :: rest => (verbatimLines? rest).map (prepend '\n')
  | '\r' :: '\n' :: rest => (verbatimLines? rest).map fun r => prepend '\r' (prepend '\n' r)
  | c :: rest => if isPlain c then (verbatimLines? rest).map (prepend c) else none

/-- Drops the end of a line that follows an opening triple quote at once: it is not part of the text. -/
def dropLineEnd : List Char → List Char
  | '\n' :: rest => rest
  | '\r' :: '\n' :: rest => rest
  | rest => rest

/-! ## Lines -/

/-- A key, and what stands behind it. -/
def key? : List Char → Option (List Char × List Char)
  | '"' :: rest => quoted? rest
  | '\'' :: rest => verbatim? rest
  | rest =>
    let key := rest.takeWhile isKeyChar
    if key.isEmpty then none else some (key, rest.dropWhile isKeyChar)

/-- A value, and what stands behind it. -/
def value? : List Char → Option (Value × List Char)
  | 't' :: 'r' :: 'u' :: 'e' :: rest => some (.bool true, rest)
  | 'f' :: 'a' :: 'l' :: 's' :: 'e' :: rest => some (.bool false, rest)
  | '"' :: '"' :: '"' :: rest => (quotedLines? .none (dropLineEnd rest)).map fun (text, rest) => (.text text, rest)
  | '"' :: rest => (quoted? rest).map fun (text, rest) => (.text text, rest)
  | '\'' :: '\'' :: '\'' :: rest => (verbatimLines? (dropLineEnd rest)).map fun (text, rest) => (.text text, rest)
  | '\'' :: rest => (verbatim? rest).map fun (text, rest) => (.text text, rest)
  | _ => none

/-- Skips the end of a line, which may be the end of the document. -/
def lineEnd? : List Char → Option (List Char)
  | [] => some []
  | '\n' :: rest => some rest
  | '\r' :: '\n' :: rest => some rest
  | _ => none

/-- Skips the rest of a line that may only hold spaces and a comment. -/
def endOfLine? (cs : List Char) : Option (List Char) :=
  match cs.dropWhile isSpace with
  | '#' :: rest => lineEnd? (rest.dropWhile isPlain)
  | rest => lineEnd? rest

/-- One setting, up to its value. -/
def setting? (cs : List Char) : Option ((List Char × Value) × List Char) := do
  let (key, rest) ← key? cs
  match rest.dropWhile isSpace with
  | '=' :: rest => do
    let (value, rest) ← value? (rest.dropWhile isSpace)
    pure ((key, value), rest)
  | _ => none

/-- The settings of the lines that are left, at most `bound` of them. -/
def lines? : (bound : Nat) → List Char → Option (List (List Char × Value))
  | _, [] => some []
  | 0, _ => none
  | bound + 1, cs =>
    match endOfLine? cs with
    | some rest => lines? bound rest
    | none => do
      let (setting, rest) ← setting? (cs.dropWhile isSpace)
      let rest ← endOfLine? rest
      (lines? bound rest).map (setting :: ·)

/-- The settings of a document in their order; none if a line is not a blank, a comment or a setting. A mark of the
byte order at the very start is skipped. Every line is at least one character long, so a document has no more lines
than characters. -/
def settings? (document : String) : Option (List (List Char × Value)) :=
  match document.toList with
  | '\ufeff' :: cs => lines? cs.length cs
  | cs => lines? cs.length cs

end Interpose.Document
