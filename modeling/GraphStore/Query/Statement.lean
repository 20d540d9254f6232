import GraphStore.Query.Lexer

/-!
# Statements

The grammar of the query language is regular: after each token it is fixed which kinds may follow.
A script is therefore read by passing from one expectation to the next, and the first token that
no script could have at its place is the one that an error names.

    statement  ::= CREATE '{' node '}' end-of-statement | end-of-statement
    node       ::= STRING '=' '[' [ STRING { ',' STRING } ] ']' { ',' property }
    property   ::= NAME '=' ( STRING | NUMBER )
-/

set_option autoImplicit false

namespace GraphStore.Query

open GraphStore.Text

/-- A name with its value, a string or a number. -/
structure PropertyClause where
  name : Token
  value : Token
deriving Repr, DecidableEq

/-- The description of a node. -/
structure NodeClause where
  name : Token
  /-- The position of the bracket before the labels. -/
  labelsAt : Position
  labels : List Token
  properties : List PropertyClause
deriving Repr, DecidableEq

/-- A statement with the position of its first token. -/
inductive Statement where
  | create (position : Position) (node : NodeClause)
  | empty (position : Position)
deriving Repr, DecidableEq

/-- What may come next, with all that is known of the statement begun. -/
inductive Expectation where
  | statement
  | openBrace (start : Position)
  | nodeName (start : Position)
  | assignAfterName (start : Position) (name : Token)
  | openBracket (start : Position) (name : Token)
  /-- The first label or the end of the labels. -/
  | firstLabel (start : Position) (node : NodeClause)
  | label (start : Position) (node : NodeClause)
  /-- A comma before a further label or the end of the labels. -/
  | afterLabel (start : Position) (node : NodeClause)
  /-- A comma before a property or the end of the node. -/
  | afterClause (start : Position) (node : NodeClause)
  | propertyName (start : Position) (node : NodeClause)
  | assignAfterKey (start : Position) (node : NodeClause) (key : Token)
  | propertyValue (start : Position) (node : NodeClause) (key : Token)
  | endOfStatement (start : Position) (node : NodeClause)
deriving Repr, DecidableEq

def Token.found (token : Token) : String :=
  match token.text with
  | none => token.kind.describe
  | some text => if token.kind = .string then s!"string {quoted text}" else s!"'{text}'"

/-- What a token does to an expectation. -/
inductive Reading where
  | goOn (next : Expectation)
  /-- The token completes a statement. -/
  | complete (statement : Statement)
  /-- No script has this token at this place. -/
  | refuse (message : String)
deriving Repr, DecidableEq

namespace Expectation

def read (expected : Expectation) (token : Token) : Reading :=
  match expected with
  | statement =>
      match token.kind with
      | .create => .goOn (.openBrace token.position)
      | .endOfStatement => .complete (.empty token.position)
      | .update => .refuse "UPDATE statements are not supported"
      | .delete => .refuse "DELETE statements are not supported"
      | _ => .refuse s!"Expected CREATE or end of statement, found {token.found}"
  | openBrace start =>
      if token.kind = .openBrace then .goOn (.nodeName start)
      else .refuse s!"Expected '\x7b' after CREATE, found {token.found}"
  | nodeName start =>
      if token.kind = .string then .goOn (.assignAfterName start token)
      else .refuse s!"Expected node name string after '\x7b', found {token.found}"
  | assignAfterName start name =>
      if token.kind = .assign then .goOn (.openBracket start name)
      else .refuse s!"Expected '=' after node name, found {token.found}"
  | openBracket start name =>
      if token.kind = .openBracket then .goOn (.firstLabel start ⟨name, token.position, [], []⟩)
      else .refuse s!"Expected '[' to start label array, found {token.found}"
  | firstLabel start node =>
      match token.kind with
      | .closeBracket => .goOn (.afterClause start node)
      | .string => .goOn (.afterLabel start { node with labels := node.labels ++ [token] })
      | _ => .refuse s!"Expected label string or ']', found {token.found}"
  | label start node =>
      if token.kind = .string then
        .goOn (.afterLabel start { node with labels := node.labels ++ [token] })
      else .refuse s!"Expected label string after ',', found {token.found}"
  | afterLabel start node =>
      match token.kind with
      | .comma => .goOn (.label start node)
      | .closeBracket => .goOn (.afterClause start node)
      | _ => .refuse s!"Expected ',' or ']' in label array, found {token.found}"
  | afterClause start node =>
      match token.kind with
      | .comma => .goOn (.propertyName start node)
      | .closeBrace => .goOn (.endOfStatement start node)
      | _ => .refuse s!"Expected '\x7d' after node definition, found {token.found}"
  | propertyName start node =>
      if token.kind = .name then .goOn (.assignAfterKey start node token)
      else .refuse s!"Expected property name, found {token.found}"
  | assignAfterKey start node key =>
      if token.kind = .assign then .goOn (.propertyValue start node key)
      else .refuse s!"Expected '=' after property name '{key.content}', found {token.found}"
  | propertyValue start node key =>
      if token.kind = .string || token.kind = .number then
        .goOn (.afterClause start { node with properties := node.properties ++ [⟨key, token⟩] })
      else
        .refuse
          s!"Expected string or number value for property '{key.content}', found {token.found}"
  | endOfStatement start node =>
      if token.kind = .endOfStatement then .complete (.create start node)
      else .refuse s!"Expected end of statement after '\x7d', found {token.found}"

end Expectation

/-- Reads the statements in some tokens. Where the tokens stop without the end of the text, `fault`
says why. -/
def readStatements (fault : Option Error) :
    Expectation → List Token → Except Error (List Statement)
  | _, [] =>
      match fault with
      | some fault => .error fault
      | none => .ok []
  | expected, token :: rest =>
      if expected = .statement && token.kind = .endOfText then .ok []
      else
        match expected.read token with
        | .goOn next => readStatements fault next rest
        | .complete statement =>
            (readStatements fault .statement rest).map (statement :: ·)
        | .refuse message => .error (.syntaxError token.position message)

/-- The statements of a text and the position of its first token. -/
def parseStatements (separator : Separator) (text : String) :
    Except Error (Position × List Statement) := do
  let scanned := scan separator text
  let statements ← readStatements scanned.fault .statement scanned.tokens
  return ((scanned.tokens.head?.map Token.position).getD .start, statements)

end GraphStore.Query
