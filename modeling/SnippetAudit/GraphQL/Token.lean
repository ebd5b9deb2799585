import SnippetAudit.Text.Quoted

/-!
# Tokens and syntax errors

The text of a document is a sequence of tokens. Between them spaces, line ends, commas and comments are
ignored. Reading a document stops at the first place where no token can be read or where a token does not
fit; the error tells the place and the cause.

## What this module delivers

- `TokenKind`, `Token`, `Tokens`: the tokens of a text up to its end or to the first place without one;
- `SyntaxFault`, `SyntaxError`: causes, and causes with their place;
- `SyntaxError.message`: the wording;
- `Location`, `locationOf`: the line and column of a place.
-/

set_option autoImplicit false

namespace SnippetAudit.GraphQL

/-! ## Tokens -/

/-- The kinds of tokens. -/
inductive TokenKind where
  | bang
  | dollar
  | ampersand
  | openParen
  | closeParen
  | spread
  | colon
  | equals
  | atSign
  | openBracket
  | closeBracket
  | openBrace
  | pipe
  | closeBrace
  | name
  | int
  | float
  | string
  | blockString
  deriving Repr, DecidableEq

namespace TokenKind

/-- The characters of a punctuator. -/
def punctuator? : TokenKind → Option String
  | .bang => "!"
  | .dollar => "$"
  | .ampersand => "&"
  | .openParen => "("
  | .closeParen => ")"
  | .spread => "..."
  | .colon => ":"
  | .equals => "="
  | .atSign => "@"
  | .openBracket => "["
  | .closeBracket => "]"
  | .openBrace => "\x7b"
  | .pipe => "|"
  | .closeBrace => "\x7d"
  | _ => none

/-- How messages show a kind: a punctuator in quotes, any other kind by its name. -/
def text (k : TokenKind) : String :=
  match k.punctuator? with
  | some mark => "'" ++ mark ++ "'"
  | none =>
    match k with
    | .name => "Name"
    | .int => "Int"
    | .float => "Float"
    | .string => "String"
    | _ => "BlockString"

end TokenKind

/-- A token: its kind, the value of a token that has one, and its place in the text. -/
structure Token where
  kind : TokenKind
  value : String
  start : Nat
  deriving Repr, DecidableEq

/-- How messages show a token. -/
def Token.text (t : Token) : String :=
  match t.kind.punctuator? with
  | some _ => t.kind.text
  | none => t.kind.text ++ " '" ++ t.value ++ "'"

/-- How messages show what was found, which is the end of the text where there is no token. -/
def foundText : Option Token → String
  | some t => t.text
  | none => "<EOF>"

/-- How messages show a character or the end of the text: printable ASCII characters as they are, any
other by its number. -/
def characterText : Option Char → String
  | none => "<EOF>"
  | some c =>
    if 0x20 ≤ c.toNat ∧ c.toNat ≤ 0x7E then "'" ++ c.toString ++ "'"
    else "U+" ++ String.ofList (Text.upperHexDigits 4 c.toNat)

/-! ## Errors -/

/-- Why a document cannot be read. -/
inductive SyntaxFault where
  | expectedKind (kind : TokenKind) (found : Option Token)
  | expectedKeyword (keyword : String) (found : Option Token)
  | unexpected (found : Option Token)
  /-- A variable stands where only constants may. -/
  | variableInConstant (name : String)
  /-- A description stands in front of selections without a keyword. -/
  | descriptionOnShorthand
  /-- A description stands in front of something that is no definition. -/
  | misplacedDescription
  /-- The name of an enum value is a word with another meaning. -/
  | reservedEnumValue (found : Token)
  /-- No token starts with the character. -/
  | unexpectedCharacter (c : Char)
  | singleQuote
  | twoDots
  /-- A number starts with its point. -/
  | leadingPoint (digits : String)
  | digitAfterZero (found : Option Char)
  | digitExpected (found : Option Char)
  | unterminatedString
  | invalidEscape (escape : String)
  | invalidUnicodeEscape (escape : String)
  deriving Repr, DecidableEq

/-- The wording of a cause. -/
def SyntaxFault.text : SyntaxFault → String
  | .expectedKind kind found => "Expected " ++ kind.text ++ ", found " ++ foundText found ++ "."
  | .expectedKeyword keyword found =>
    "Expected '" ++ keyword ++ "', found " ++ foundText found ++ "."
  | .unexpected found => "Unexpected " ++ foundText found ++ "."
  | .variableInConstant name => "Unexpected variable '$" ++ name ++ "' in constant value."
  | .descriptionOnShorthand =>
    "Unexpected description, descriptions are not supported on shorthand queries."
  | .misplacedDescription =>
    "Unexpected description, only GraphQL definitions support descriptions."
  | .reservedEnumValue found => found.text ++ " is reserved and cannot be used for an enum value."
  | .unexpectedCharacter c => "Unexpected character: " ++ characterText (some c) ++ "."
  | .singleQuote =>
    "Unexpected single quote character ('), did you mean to use a double quote (\")?"
  | .twoDots => "Unexpected '..', did you mean '...'?"
  | .leadingPoint digits =>
    "Invalid number, expected digit before '.', did you mean '0." ++ digits ++ "'?"
  | .digitAfterZero found =>
    "Invalid number, unexpected digit after 0: " ++ characterText found ++ "."
  | .digitExpected found => "Invalid number, expected digit but got: " ++ characterText found ++ "."
  | .unterminatedString => "Unterminated string."
  | .invalidEscape escape => "Invalid character escape sequence: '" ++ escape ++ "'."
  | .invalidUnicodeEscape escape => "Invalid Unicode escape sequence: '" ++ escape ++ "'."

/-- A cause and the place of its first character. -/
structure SyntaxError where
  start : Nat
  fault : SyntaxFault
  deriving Repr, DecidableEq

/-- The wording of an error. -/
def SyntaxError.message (e : SyntaxError) : String := "Syntax Error: " ++ e.fault.text

/-- The tokens of a text up to its end, or up to the first place where no token can be read. -/
inductive Tokens where
  | next (t : Token) (rest : Tokens)
  | finish (start : Nat)
  | fault (e : SyntaxError)
  deriving Repr, DecidableEq

namespace Tokens

/-- The number of tokens. -/
def length : Tokens → Nat
  | .next _ rest => rest.length + 1
  | _ => 0

/-- The first token; none at the end. -/
def head? : Tokens → Option Token
  | .next t _ => some t
  | _ => none

/-- The place of the first token or of the end. -/
def start : Tokens → Nat
  | .next t _ => t.start
  | .finish start => start
  | .fault e => e.start

end Tokens

/-! ## Places -/

/-- A line and a column, both counted from one. -/
structure Location where
  line : Nat
  column : Nat
  deriving Repr, DecidableEq

/-- The location behind a text that starts at a location. A line ends at a line feed, at a carriage
return, or at both together. -/
def locationFrom (here : Location) : Text → Location
  | [] => here
  | '\r' :: '\n' :: rest => locationFrom ⟨here.line + 1, 1⟩ rest
  | c :: rest =>
    if c = '\n' ∨ c = '\r' then locationFrom ⟨here.line + 1, 1⟩ rest
    else locationFrom ⟨here.line, here.column + 1⟩ rest

/-- The location of a place in a text. -/
def locationOf (t : Text) (start : Nat) : Location := locationFrom ⟨1, 1⟩ (t.take start)

end SnippetAudit.GraphQL
