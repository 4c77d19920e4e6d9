import AttrExpr.Text.Unprintable

/-!
# Quoted Text

Text between double quotes, written so that no character of it can end the
quotes early or hide.

A quote and a backslash are written after a backslash, a few controls have a
letter, and every other character without a printable shape is written by its
number. What is left is written as it is. Each character is encoded on its
own, so the text of a string is the concatenation over its characters, and a
single quote needs no care at all.

## Main definitions

* `Quoted.encodeChar`: How one character is written.
* `Quoted.encode`: A text between double quotes.
-/

namespace AttrExpr

namespace Text

namespace Quoted

/-- A character by its number: `\u`, then the code point in hexadecimal
    between braces, in lower case and without leading zeros. -/
def encodeByNumber (c : Char) : List Char :=
  '\\' :: 'u' :: '\x7b' :: (Nat.toDigits 16 c.toNat ++ ['\x7d'])

/-- How one character is written between double quotes. The first two cases are
    the characters the format itself uses, and the next four have a letter or a
    digit of their own; only after them does it matter whether the character
    has a shape. -/
def encodeChar (c : Char) : List Char :=
  match c with
  | '"' => ['\\', '"']
  | '\\' => ['\\', '\\']
  | '\n' => ['\\', 'n']
  | '\r' => ['\\', 'r']
  | '\t' => ['\\', 't']
  | '\x00' => ['\\', '0']
  | c => if isUnprintable c then encodeByNumber c else [c]

/-- The text between double quotes. -/
def encode (text : String) : String :=
  String.ofList ('"' :: (text.toList.flatMap encodeChar ++ ['"']))

end Quoted

end Text

end AttrExpr
