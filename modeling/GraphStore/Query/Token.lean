import GraphStore.Error

/-!
# Tokens

The words and signs of the query language, with their places in the text.
-/

set_option autoImplicit false

namespace GraphStore

def Position.after (position : Position) (c : Char) : Position :=
  if c = '\n' then ⟨position.line + 1, 1⟩ else ⟨position.line, position.column + 1⟩

def Position.text (position : Position) : String := s!"{position.line}:{position.column}"

namespace Query

/-- The kinds of tokens. -/
inductive TokenKind where
  | create
  | update
  | delete
  | openBrace
  | closeBrace
  | openBracket
  | closeBracket
  | comma
  | assign
  /-- A semicolon or a line break, as the separator mode says. -/
  | endOfStatement
  | endOfText
  | name
  | string
  | number
deriving Repr, DecidableEq, Inhabited

namespace TokenKind

def all : List TokenKind :=
  [create, update, delete, openBrace, closeBrace, openBracket, closeBracket, comma, assign,
    endOfStatement, endOfText, name, string, number]

def label : TokenKind → String
  | create => "Create"
  | update => "Update"
  | delete => "Delete"
  | openBrace => "OpenCurlyBrace"
  | closeBrace => "CloseCurlyBrace"
  | openBracket => "OpenSquareBracket"
  | closeBracket => "CloseSquareBracket"
  | comma => "ParameterSeparator"
  | assign => "OperatorAssign"
  | endOfStatement => "EndOfStatement"
  | endOfText => "EndOfText"
  | name => "Name"
  | string => "String"
  | number => "Number"

def ofLabel? (label : String) : Option TokenKind := all.find? (·.label == label)

def describe : TokenKind → String
  | create => "CREATE"
  | update => "UPDATE"
  | delete => "DELETE"
  | openBrace => "'\x7b'"
  | closeBrace => "'\x7d'"
  | openBracket => "'['"
  | closeBracket => "']'"
  | comma => "','"
  | assign => "'='"
  | endOfStatement => "end of statement"
  | endOfText => "end of input"
  | name => "name"
  | string => "string"
  | number => "number"

/-- The keyword that a word spells in any mix of upper and lower case. -/
def keyword? (word : String) : Option TokenKind :=
  match word.map Char.toUpper with
  | "CREATE" => some create
  | "UPDATE" => some update
  | "DELETE" => some delete
  | _ => none

end TokenKind

/-- A token. Words and numbers keep their text as written, strings the text that they stand for;
signs have none. -/
structure Token where
  kind : TokenKind
  text : Option String
  position : Position
deriving Repr, DecidableEq, Inhabited

def Token.content (token : Token) : String := token.text.getD ""

end Query

end GraphStore
