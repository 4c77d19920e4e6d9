import AttrExpr.Number
import AttrExpr.Parse.Error

/-!
# Tokens

The rules below the level of brackets: which characters separate, where a
string ends, and what a run of other characters means.

A token is a maximal run of characters that separate nothing, so where it
ends never depends on what it is. Whether it is a number or a symbol is
decided by how it begins, and a token that begins like a number has to be one.

## Main definitions

* `isBlank`, `isDelimiter`: The separating characters.
* `closeString?`: A string's body and what follows its closing quote.
* `startsNumber`: Whether a token has to be a number.
* `readNumber`: The number a token writes, or what is wrong with it.

## Theorems

* `isDelimiter_of_isBlank`: Blanks end tokens.
* `closeString?_eq_append`: Nothing of a string is lost.
-/

namespace AttrExpr

namespace Parse

/-- The characters that may stand anywhere between nodes. There are four of them
    and no more: any other space of Unicode is part of the token it is in. -/
def isBlank (c : Char) : Bool :=
  c == ' ' || c == '\t' || c == '\n' || c == '\r'

/-- The characters that end a token: blanks and brackets. A quote is none of
    them, so inside a token it is a character like any other. -/
def isDelimiter (c : Char) : Bool :=
  isBlank c || c == '(' || c == ')' || c == '[' || c == ']'

/-- The characters up to the quote that closes a string, and what follows
    that quote. A quote right after a backslash does not close. -/
def closeString? : (afterBackslash : Bool) → List Char → Option (List Char × List Char)
  | _, [] => none
  | afterBackslash, c :: cs =>
      if c = '\'' ∧ afterBackslash = false then some ([], cs)
      else (closeString? (c == '\\') cs).map fun (body, rest) => (c :: body, rest)

/-- The value of a string: its body without the backslashes. An escape stands
    for the character after it and no escape is special, so a string cannot
    hold a backslash at all. -/
def stringValue (body : List Char) : String :=
  String.ofList (body.filter (· != '\\'))

/-- Whether a token has to be a number: it begins with a digit, or with a
    minus sign that is not all of it. -/
def startsNumber : List Char → Bool
  | [] => false
  | ['-'] => false
  | c :: _ => c == '-' || c.isDigit

/-- A bad number: what is wrong, and the characters of the token up to and
    including the one at fault. A fault of the whole token shows all of it. -/
abbrev BadNumber := NumberFault × List Char

/-- The integer with the given sign and digits, if it fits; an error shows
    the whole `token`. -/
def readInteger (token : List Char) (negative : Bool) (digits : List Char) :
    Except BadNumber Number :=
  let magnitude : Int := Nat.ofDigitChars 10 digits 0
  match Number.integer? (if negative then -magnitude else magnitude) with
  | some value => .ok (.int value)
  | none => .error (.tooLarge, token)

/-- The float with the given sign and digits around its point. The sign is put
    on at the end, which keeps the one of a negative zero. -/
def readFloat (negative : Bool) (whole fraction : List Char) : Number :=
  let magnitude := (Decimal.ofDigits whole fraction).toFloat
  .float (if negative then -magnitude else magnitude)

/-- The number written by a token without its sign: digits, then nothing, or
    a point and digits. Digits are wanted on one side of the point at
    least. -/
def readUnsigned (sign : List Char) (token : List Char) : Except BadNumber Number :=
  let negative := sign != []
  let whole := token.takeWhile Char.isDigit
  match token.dropWhile Char.isDigit with
  | [] => readInteger (sign ++ token) negative whole
  | '.' :: tail =>
      let fraction := tail.takeWhile Char.isDigit
      let seen := sign ++ whole ++ '.' :: fraction
      match tail.dropWhile Char.isDigit with
      | [] =>
          if whole = [] ∧ fraction = [] then .error (.malformed, seen)
          else .ok (readFloat negative whole fraction)
      | '.' :: _ => .error (.extraDecimalPoint, seen ++ ['.'])
      | c :: _ => .error (.malformed, seen ++ [c])
  | c :: _ => .error (.malformed, sign ++ whole ++ [c])

/-- The number a token writes. A sign is part of the number only at the front;
    one further on is an offending character like any other. -/
def readNumber : List Char → Except BadNumber Number
  | '-' :: token => readUnsigned ['-'] token
  | token => readUnsigned [] token

theorem isDelimiter_of_isBlank {c : Char} (h : isBlank c = true) : isDelimiter c = true := by
  simp only [isDelimiter, h, Bool.true_or]

/-- A string is its body, the closing quote and the rest, so nothing of it is
    lost. -/
theorem closeString?_eq_append {afterBackslash : Bool} {cs body rest : List Char}
    (h : closeString? afterBackslash cs = some (body, rest)) : cs = body ++ '\'' :: rest := by
  induction cs generalizing afterBackslash body with
  | nil => simp only [closeString?, reduceCtorEq] at h
  | cons c cs ih =>
      simp only [closeString?] at h
      split at h
      · rename_i hc
        simp only [Option.some.injEq, Prod.mk.injEq] at h
        rw [← h.1, ← h.2, hc.1, List.nil_append]
      · simp only [Option.map_eq_some_iff, Prod.mk.injEq] at h
        rcases h with ⟨⟨body', rest'⟩, hclose, rfl, rfl⟩
        rw [List.cons_append, ← ih hclose]

end Parse

end AttrExpr
