import GraphStore.Query.Parser
import GraphStore.Proofs.Query.Tokens
import GraphStore.Proofs.Success
import Mathlib

/-!
# The grammar of scripts

The grammar of the query language as rules on the kinds of tokens. Main statement: a text is parsed
just when its tokens are a script, and what is refused otherwise is the first token with which no
script goes on, or the fault of the text if that comes first.
-/

set_option autoImplicit false

namespace GraphStore.Query

/-!
## Rules
-/

/-- `value ::= STRING | NUMBER` -/
inductive IsValue : TokenKind → Prop where
  | string : IsValue .string
  | number : IsValue .number

/-- `property ::= NAME '=' value` -/
inductive IsProperty : List TokenKind → Prop where
  | assign {value : TokenKind} (isValue : IsValue value) : IsProperty [.name, .assign, value]

/-- `property-list ::= property { ',' property }` -/
inductive IsPropertyList : List TokenKind → Prop where
  | last {property : List TokenKind} (isProperty : IsProperty property) : IsPropertyList property
  | more {property rest : List TokenKind} (isProperty : IsProperty property)
      (others : IsPropertyList rest) : IsPropertyList (property ++ .comma :: rest)

/-- `label-list ::= STRING { ',' STRING }` -/
inductive IsLabelList : List TokenKind → Prop where
  | last : IsLabelList [.string]
  | more {rest : List TokenKind} (others : IsLabelList rest) :
      IsLabelList (.string :: .comma :: rest)

/-- `label-array ::= '[' [ label-list ] ']'` -/
inductive IsLabelArray : List TokenKind → Prop where
  | empty : IsLabelArray [.openBracket, .closeBracket]
  | filled {labels : List TokenKind} (isList : IsLabelList labels) :
      IsLabelArray (.openBracket :: (labels ++ [.closeBracket]))

/-- `node-content ::= STRING '=' label-array [ ',' property-list ]` -/
inductive IsNodeContent : List TokenKind → Prop where
  | bare {labels : List TokenKind} (isArray : IsLabelArray labels) :
      IsNodeContent (.string :: .assign :: labels)
  | described {labels properties : List TokenKind} (isArray : IsLabelArray labels)
      (isList : IsPropertyList properties) :
      IsNodeContent (.string :: .assign :: (labels ++ .comma :: properties))

/-- `statement ::= CREATE '{' node-content '}' end-of-statement | end-of-statement` -/
inductive IsStatement : List TokenKind → Prop where
  | create {content : List TokenKind} (isContent : IsNodeContent content) :
      IsStatement (.create :: .openBrace :: (content ++ [.closeBrace, .endOfStatement]))
  | empty : IsStatement [.endOfStatement]

/-- Statements one after the other. -/
inductive IsScript : List TokenKind → Prop where
  | nil : IsScript []
  | cons {statement rest : List TokenKind} (isStatement : IsStatement statement)
      (isScript : IsScript rest) : IsScript (statement ++ rest)

/-- Whether kinds are those of a whole text: a script and the end of the text. -/
def IsText (kinds : List TokenKind) : Prop :=
  ∃ script, IsScript script ∧ kinds = script ++ [.endOfText]

/-- Whether some text begins with these kinds. -/
def IsViable (kinds : List TokenKind) : Prop := ∃ text, IsText text ∧ kinds <+: text

/-!
## What may still come

The rules again, read from left to right: which kinds may stand behind a place up to the end of the
text.
-/

/-- Some given kinds, and behind them what a language allows. -/
def After (front : List TokenKind) (language : List TokenKind → Prop) (kinds : List TokenKind) :
    Prop :=
  ∃ rest, kinds = front ++ rest ∧ language rest

/-- Behind the labels or a property. -/
inductive EndsNode : List TokenKind → Prop where
  | close {rest : List TokenKind} (isText : IsText rest) :
      EndsNode (.closeBrace :: .endOfStatement :: rest)
  | property {value : TokenKind} {rest : List TokenKind} (isValue : IsValue value)
      (ends : EndsNode rest) : EndsNode (.comma :: .name :: .assign :: value :: rest)

/-- Behind a label. -/
inductive EndsLabels : List TokenKind → Prop where
  | close {rest : List TokenKind} (ends : EndsNode rest) : EndsLabels (.closeBracket :: rest)
  | label {rest : List TokenKind} (ends : EndsLabels rest) : EndsLabels (.comma :: .string :: rest)

/-- Behind the bracket before the labels. -/
inductive BeginsLabels : List TokenKind → Prop where
  | close {rest : List TokenKind} (ends : EndsNode rest) : BeginsLabels (.closeBracket :: rest)
  | label {rest : List TokenKind} (ends : EndsLabels rest) : BeginsLabels (.string :: rest)

/-- Behind the sign between a property and its value. -/
inductive BeginsValue : List TokenKind → Prop where
  | value {value : TokenKind} {rest : List TokenKind} (isValue : IsValue value)
      (ends : EndsNode rest) : BeginsValue (value :: rest)

/-- What may come where something is expected. -/
def Expectation.Permits : Expectation → List TokenKind → Prop
  | statement => IsText
  | openBrace _ => After [.openBrace, .string, .assign, .openBracket] BeginsLabels
  | nodeName _ => After [.string, .assign, .openBracket] BeginsLabels
  | assignAfterName _ _ => After [.assign, .openBracket] BeginsLabels
  | openBracket _ _ => After [.openBracket] BeginsLabels
  | firstLabel _ _ => BeginsLabels
  | label _ _ => After [.string] EndsLabels
  | afterLabel _ _ => EndsLabels
  | afterClause _ _ => EndsNode
  | propertyName _ _ => After [.name, .assign] BeginsValue
  | assignAfterKey _ _ _ => After [.assign] BeginsValue
  | propertyValue _ _ _ => BeginsValue
  | endOfStatement _ _ => After [.endOfStatement] IsText

section

variable {kinds rest : List TokenKind} {kind first : TokenKind} {language : List TokenKind → Prop}

@[simp] theorem after_nil : After [] language kinds ↔ language kinds := by
  simp [After]

theorem after_cons {front : List TokenKind} :
    After (first :: front) language kinds ↔
      ∃ rest, kinds = first :: rest ∧ After front language rest := by
  constructor
  · intro given
    obtain ⟨rest, rfl, allowed⟩ := given
    exact ⟨_, rfl, rest, rfl, allowed⟩
  · intro given
    obtain ⟨_, rfl, rest, rfl, allowed⟩ := given
    exact ⟨rest, rfl, allowed⟩

@[simp] theorem after_cons_cons {front : List TokenKind} :
    After (first :: front) language (kind :: rest) ↔ kind = first ∧ After front language rest := by
  rw [after_cons]
  constructor
  · intro given
    obtain ⟨behind, same, allowed⟩ := given
    obtain ⟨rfl, rfl⟩ := List.cons.inj same
    exact ⟨rfl, allowed⟩
  · intro given
    obtain ⟨rfl, allowed⟩ := given
    exact ⟨rest, rfl, allowed⟩

theorem endsNode_iff : EndsNode kinds ↔
    (∃ rest, IsText rest ∧ kinds = .closeBrace :: .endOfStatement :: rest) ∨
      ∃ properties rest, IsPropertyList properties ∧ IsText rest ∧
        kinds = .comma :: (properties ++ .closeBrace :: .endOfStatement :: rest) := by
  constructor
  · intro ends
    induction ends with
    | close isText => exact .inl ⟨_, isText, rfl⟩
    | @property value _ isValue _ ih =>
        rcases ih with ⟨rest, isText, rfl⟩ | ⟨properties, rest, isList, isText, rfl⟩
        · exact .inr ⟨_, rest, .last (.assign isValue), isText, rfl⟩
        · exact .inr ⟨_, rest, .more (.assign isValue) isList, isText, rfl⟩
  · intro given
    rcases given with ⟨rest, isText, rfl⟩ | ⟨properties, rest, isList, isText, rfl⟩
    · exact .close isText
    · induction isList with
      | last isProperty =>
          cases isProperty with
          | assign isValue => exact .property isValue (.close isText)
      | more isProperty _ ih =>
          cases isProperty with
          | assign isValue => exact .property isValue ih

theorem endsLabels_iff : EndsLabels kinds ↔
    (∃ rest, EndsNode rest ∧ kinds = .closeBracket :: rest) ∨
      ∃ labels rest, IsLabelList labels ∧ EndsNode rest ∧
        kinds = .comma :: (labels ++ .closeBracket :: rest) := by
  constructor
  · intro ends
    induction ends with
    | close endsNode => exact .inl ⟨_, endsNode, rfl⟩
    | label _ ih =>
        rcases ih with ⟨rest, endsNode, rfl⟩ | ⟨labels, rest, isList, endsNode, rfl⟩
        · exact .inr ⟨_, rest, .last, endsNode, rfl⟩
        · exact .inr ⟨_, rest, .more isList, endsNode, rfl⟩
  · intro given
    rcases given with ⟨rest, ends, rfl⟩ | ⟨labels, rest, isList, ends, rfl⟩
    · exact .close ends
    · induction isList with
      | last => exact .label (.close ends)
      | more _ ih => exact .label ih

/-- The labels of a node with what follows them. -/
theorem after_openBracket_iff : After [.openBracket] BeginsLabels kinds ↔
    ∃ labels rest, IsLabelArray labels ∧ EndsNode rest ∧ kinds = labels ++ rest := by
  constructor
  · intro given
    obtain ⟨behind, rfl, begins⟩ := given
    cases begins with
    | close ends => exact ⟨_, _, .empty, ends, rfl⟩
    | label ends =>
        rcases endsLabels_iff.mp ends with
          ⟨rest, endsNode, rfl⟩ | ⟨labels, rest, isList, endsNode, rfl⟩
        · exact ⟨_, rest, .filled .last, endsNode, rfl⟩
        · refine ⟨_, rest, .filled (.more isList), endsNode, ?_⟩
          simp
  · intro given
    obtain ⟨labels, rest, isArray, ends, rfl⟩ := given
    cases isArray with
    | empty => exact ⟨_, rfl, .close ends⟩
    | filled isList =>
        cases isList with
        | last => exact ⟨_, rfl, .label (.close ends)⟩
        | more others =>
            refine ⟨_, rfl, .label (endsLabels_iff.mpr (.inr ⟨_, rest, others, ends, ?_⟩))⟩
            simp

/-- A description of a node with what follows it. -/
theorem after_string_iff : After [.string, .assign, .openBracket] BeginsLabels kinds ↔
    ∃ content rest, IsNodeContent content ∧ IsText rest ∧
      kinds = content ++ .closeBrace :: .endOfStatement :: rest := by
  constructor
  · intro given
    obtain ⟨_, rfl, assigned⟩ := after_cons.mp given
    obtain ⟨_, rfl, opened⟩ := after_cons.mp assigned
    obtain ⟨labels, behind, isArray, ends, rfl⟩ := after_openBracket_iff.mp opened
    rcases endsNode_iff.mp ends with ⟨rest, isText, rfl⟩ | ⟨properties, rest, isList, isText, rfl⟩
    · exact ⟨_, rest, .bare isArray, isText, rfl⟩
    · refine ⟨_, rest, .described isArray isList, isText, ?_⟩
      simp
  · intro given
    obtain ⟨content, rest, isContent, isText, rfl⟩ := given
    cases isContent with
    | bare isArray =>
        rw [List.cons_append, List.cons_append, after_cons_cons, after_cons_cons]
        exact ⟨rfl, rfl, after_openBracket_iff.mpr ⟨_, _, isArray, .close isText, rfl⟩⟩
    | described isArray isList =>
        rw [List.cons_append, List.cons_append, after_cons_cons, after_cons_cons,
          List.append_assoc]
        have ends := endsNode_iff.mpr (.inr ⟨_, rest, isList, isText, rfl⟩)
        exact ⟨rfl, rfl, after_openBracket_iff.mpr ⟨_, _, isArray, ends, rfl⟩⟩

/-!
## The next kind
-/

/-- A text is over, or begins with a statement. -/
theorem isText_cons_iff : IsText (kind :: rest) ↔
    kind = .endOfText ∧ rest = [] ∨ kind = .endOfStatement ∧ IsText rest ∨
      kind = .create ∧ After [.openBrace, .string, .assign, .openBracket] BeginsLabels rest := by
  constructor
  · intro isText
    obtain ⟨script, isScript, same⟩ := isText
    cases isScript with
    | nil =>
        obtain ⟨rfl, rfl⟩ := List.cons.inj same
        exact .inl ⟨rfl, rfl⟩
    | cons isStatement others =>
        cases isStatement with
        | empty =>
            obtain ⟨rfl, rfl⟩ := List.cons.inj same
            exact .inr (.inl ⟨rfl, _, others, rfl⟩)
        | create isContent =>
            obtain ⟨rfl, rfl⟩ := List.cons.inj same
            refine .inr (.inr ⟨rfl, after_cons.mpr ⟨_, rfl, ?_⟩⟩)
            refine after_string_iff.mpr ⟨_, _, isContent, ⟨_, others, rfl⟩, ?_⟩
            simp
  · intro given
    rcases given with ⟨rfl, rfl⟩ | ⟨rfl, script, isScript, rfl⟩ | ⟨rfl, created⟩
    · exact ⟨[], .nil, rfl⟩
    · exact ⟨_, .cons .empty isScript, rfl⟩
    · obtain ⟨_, rfl, described⟩ := after_cons.mp created
      obtain ⟨content, rest, isContent, ⟨script, isScript, rfl⟩, rfl⟩ :=
        after_string_iff.mp described
      refine ⟨_, .cons (.create isContent) isScript, ?_⟩
      simp

theorem endsNode_cons_iff : EndsNode (kind :: rest) ↔
    kind = .closeBrace ∧ After [.endOfStatement] IsText rest ∨
      kind = .comma ∧ After [.name, .assign] BeginsValue rest := by
  constructor
  · intro ends
    cases ends with
    | close isText => exact .inl ⟨rfl, _, rfl, isText⟩
    | property isValue ends => exact .inr ⟨rfl, _, rfl, .value isValue ends⟩
  · intro given
    rcases given with ⟨rfl, rest, rfl, isText⟩ | ⟨rfl, rest, rfl, begins⟩
    · exact .close isText
    · cases begins with
      | value isValue ends => exact .property isValue ends

theorem endsLabels_cons_iff : EndsLabels (kind :: rest) ↔
    kind = .closeBracket ∧ EndsNode rest ∨ kind = .comma ∧ After [.string] EndsLabels rest := by
  constructor
  · intro ends
    cases ends with
    | close ends => exact .inl ⟨rfl, ends⟩
    | label ends => exact .inr ⟨rfl, _, rfl, ends⟩
  · intro given
    rcases given with ⟨rfl, ends⟩ | ⟨rfl, rest, rfl, ends⟩
    · exact .close ends
    · exact .label ends

theorem beginsLabels_cons_iff : BeginsLabels (kind :: rest) ↔
    kind = .closeBracket ∧ EndsNode rest ∨ kind = .string ∧ EndsLabels rest := by
  constructor
  · intro begins
    cases begins with
    | close ends => exact .inl ⟨rfl, ends⟩
    | label ends => exact .inr ⟨rfl, ends⟩
  · intro given
    rcases given with ⟨rfl, ends⟩ | ⟨rfl, ends⟩
    · exact .close ends
    · exact .label ends

theorem beginsValue_cons_iff : BeginsValue (kind :: rest) ↔
    (kind = .string ∨ kind = .number) ∧ EndsNode rest := by
  constructor
  · intro begins
    cases begins with
    | value isValue ends =>
        cases isValue with
        | string => exact ⟨.inl rfl, ends⟩
        | number => exact ⟨.inr rfl, ends⟩
  · intro given
    rcases given with ⟨rfl | rfl, ends⟩
    · exact .value .string ends
    · exact .value .number ends

end

namespace Expectation

variable {expected : Expectation} {token : Token} {rest : List TokenKind}

/-- What is permitted is read, and what is read is permitted. -/
theorem permits_cons_iff : expected.Permits (token.kind :: rest) ↔
    match expected.read token with
    | .goOn next => next.Permits rest
    | .complete _ => Expectation.statement.Permits rest
    | .refuse _ => expected = .statement ∧ token.kind = .endOfText ∧ rest = [] := by
  cases expected with
  | statement =>
      simp only [Permits, read, isText_cons_iff]
      cases token.kind <;> simp
  | openBrace start | nodeName start | assignAfterName start name | openBracket start name
  | label start node | propertyName start node | assignAfterKey start node key
  | endOfStatement start node =>
      simp only [Permits, read, after_cons_cons]
      cases token.kind <;> simp
  | firstLabel start node =>
      simp only [Permits, read, beginsLabels_cons_iff]
      cases token.kind <;> simp
  | afterLabel start node =>
      simp only [Permits, read, endsLabels_cons_iff]
      cases token.kind <;> simp
  | afterClause start node =>
      simp only [Permits, read, endsNode_cons_iff]
      cases token.kind <;> simp
  | propertyValue start node key =>
      simp only [Permits, read, beginsValue_cons_iff]
      cases token.kind <;> simp

/-- A script that is broken off can be gone on with. -/
theorem exists_permits : ∃ kinds, expected.Permits kinds := by
  have text : IsText [.endOfText] := ⟨[], .nil, rfl⟩
  have node := EndsNode.close text
  have labels := EndsLabels.close node
  have first := BeginsLabels.close node
  have value := BeginsValue.value .string node
  cases expected with
  | statement => exact ⟨_, text⟩
  | openBrace | nodeName | assignAfterName | openBracket => exact ⟨_, _, rfl, first⟩
  | firstLabel => exact ⟨_, first⟩
  | label => exact ⟨_, _, rfl, labels⟩
  | afterLabel => exact ⟨_, labels⟩
  | afterClause => exact ⟨_, node⟩
  | propertyName | assignAfterKey => exact ⟨_, _, rfl, value⟩
  | propertyValue => exact ⟨_, value⟩
  | endOfStatement => exact ⟨_, _, rfl, text⟩

/-- Whether something permitted begins with these kinds. -/
def Allows (expected : Expectation) (kinds : List TokenKind) : Prop :=
  ∃ rest, expected.Permits (kinds ++ rest)

theorem allows_nil : expected.Allows [] := exists_permits

section

variable {next : Expectation} {statement : Statement} {message : String}

theorem allows_cons_of_goOn (reads : expected.read token = .goOn next) :
    expected.Allows (token.kind :: rest) ↔ next.Allows rest := by
  simp only [Allows, List.cons_append, permits_cons_iff, reads]

theorem allows_cons_of_complete (reads : expected.read token = .complete statement) :
    expected.Allows (token.kind :: rest) ↔ Expectation.statement.Allows rest := by
  simp only [Allows, List.cons_append, permits_cons_iff, reads]

theorem not_allows_cons_of_refuse (reads : expected.read token = .refuse message)
    (more : ¬(expected = .statement ∧ token.kind = .endOfText)) :
    ¬expected.Allows (token.kind :: rest) := by
  simp only [Allows, List.cons_append, permits_cons_iff, reads]
  intro allowed
  obtain ⟨_, isStatement, isEnd, _⟩ := allowed
  exact more ⟨isStatement, isEnd⟩

end

/-- The ways in which tokens with a fault behind them are not what is expected. -/
inductive Fails (expected : Expectation) (tokens : List Token) (fault : Option Error) :
    Error → Prop where
  | token {front back : List Token} {token : Token} {detail : String}
      (split : tokens = front ++ token :: back)
      (allowed : expected.Allows (front.map Token.kind))
      (refused : ¬expected.Allows ((front ++ [token]).map Token.kind)) :
      Fails expected tokens fault (.syntaxError token.position detail)
  | fault {error : Error} (failed : fault = some error)
      (allowed : expected.Allows (tokens.map Token.kind)) : Fails expected tokens fault error

/-- The first token may be the one that is not expected. -/
theorem Fails.head {tokens : List Token} {fault : Option Error} {detail : String}
    (refused : ¬expected.Allows [token.kind]) :
    expected.Fails (token :: tokens) fault (.syntaxError token.position detail) := by
  have split : token :: tokens = [] ++ token :: tokens := rfl
  exact .token split allows_nil refused

theorem Fails.cons {next : Expectation} {tokens : List Token} {fault : Option Error} {error : Error}
    (onward : ∀ kinds, expected.Allows (token.kind :: kinds) ↔ next.Allows kinds)
    (fails : next.Fails tokens fault error) : expected.Fails (token :: tokens) fault error := by
  cases fails with
  | @token front back stop detail split allowed refused =>
      subst split
      have longer : token :: (front ++ stop :: back) = (token :: front) ++ stop :: back := rfl
      refine .token longer ((onward _).mpr allowed) ?_
      exact fun allows => refused ((onward _).mp allows)
  | fault failed allowed => exact .fault failed ((onward _).mpr allowed)

/-- The statements of tokens, or why they are not what is expected. -/
def Answers (expected : Expectation) (tokens : List Token) (fault : Option Error) :
    Except Error (List Statement) → Prop
  | .ok _ => fault = none ∧ expected.Permits (tokens.map Token.kind)
  | .error error => expected.Fails tokens fault error

section

variable {next : Expectation} {statement : Statement} {tokens : List Token} {fault : Option Error}
  {outcome : Except Error (List Statement)}

theorem Answers.goOn (reads : expected.read token = .goOn next)
    (answers : next.Answers tokens fault outcome) :
    expected.Answers (token :: tokens) fault outcome := by
  cases outcome with
  | ok statements =>
      obtain ⟨complete, permitted⟩ := answers
      exact ⟨complete, permits_cons_iff.mpr (by rwa [reads])⟩
  | error error => exact Fails.cons (fun _ => allows_cons_of_goOn reads) answers

theorem Answers.complete (reads : expected.read token = .complete statement)
    (answers : Expectation.statement.Answers tokens fault outcome) :
    expected.Answers (token :: tokens) fault (outcome.map (statement :: ·)) := by
  cases outcome with
  | ok statements =>
      obtain ⟨complete, permitted⟩ := answers
      exact ⟨complete, permits_cons_iff.mpr (by rwa [reads])⟩
  | error error => exact Fails.cons (fun _ => allows_cons_of_complete reads) answers

end

theorem exists_refuse_of_endOfText (expected : Expectation) (last : token.kind = .endOfText) :
    ∃ message, expected.read token = .refuse message := by
  cases expected <;> simp [read, last]

theorem answers_readStatements (expected : Expectation) {separator : Separator} {cursor : Cursor}
    {tokens : List Token} {fault : Option Error} (lexes : Lexes separator cursor tokens fault) :
    expected.Answers tokens fault (readStatements fault expected tokens) := by
  -- The tokens are read in their order, each by the expectation that those before it have left.
  induction lexes generalizing expected with
  | failed => exact .fault rfl allows_nil
  | @ended _ _ token _ last =>
      obtain ⟨message, reads⟩ := exists_refuse_of_endOfText expected last
      by_cases isStatement : expected = .statement
      · subst isStatement
        simp only [readStatements, last, decide_true, Bool.and_self, if_true]
        refine ⟨rfl, permits_cons_iff.mpr ?_⟩
        rw [reads]
        exact ⟨rfl, last, rfl⟩
      · simp only [readStatements, reads, isStatement, decide_false, Bool.false_and]
        exact Fails.head (not_allows_cons_of_refuse reads fun stops => isStatement stops.1)
  | @token _ _ token later fault _ more _ ih =>
      simp only [readStatements, more, decide_false, Bool.and_false, Bool.false_eq_true, if_false]
      cases reads : expected.read token with
      | goOn next => exact .goOn reads (ih next)
      | complete statement => exact .complete reads (ih .statement)
      | refuse message =>
          exact Fails.head (not_allows_cons_of_refuse reads fun stops => more stops.2)

end Expectation

/-!
## Texts
-/

theorem isViable_iff {kinds : List TokenKind} :
    IsViable kinds ↔ Expectation.statement.Allows kinds := by
  constructor
  · intro viable
    obtain ⟨text, isText, rest, rfl⟩ := viable
    exact ⟨rest, isText⟩
  · intro allowed
    obtain ⟨rest, isText⟩ := allowed
    exact ⟨_, isText, rest, rfl⟩

section

variable {separator : Separator} {text : String} {tokens : List Token} {tree : TokenTree}
  {error : Error}

theorem tokenize_eq_ok_iff : tokenize separator text = .ok tokens ↔
    (scan separator text).fault = none ∧ (scan separator text).tokens = tokens := by
  unfold tokenize
  cases (scan separator text).fault <;> simp

theorem tokenize_eq_error_iff :
    tokenize separator text = .error error ↔ (scan separator text).fault = some error := by
  unfold tokenize
  cases (scan separator text).fault <;> simp

theorem isText_of_parse (parsed : parse separator text = .ok tree) :
    ∃ tokens, tokenize separator text = .ok tokens ∧ IsText (tokens.map Token.kind) := by
  obtain ⟨⟨position, statements⟩, readsAll, _⟩ := exists_of_map_eq_ok parsed
  obtain ⟨_, reads, _⟩ := exists_of_bind_eq_ok readsAll
  have answers := Expectation.answers_readStatements .statement
    (lexes_scan separator text)
  rw [reads] at answers
  exact ⟨_, tokenize_eq_ok_iff.mpr ⟨answers.1, rfl⟩, answers.2⟩

theorem fails_of_parse (failed : parse separator text = .error error) :
    Expectation.statement.Fails (scan separator text).tokens (scan separator text).fault error := by
  have answers := Expectation.answers_readStatements .statement
    (lexes_scan separator text)
  simp only [parse, parseWith, parseStatements] at failed
  cases reads : readStatements (scan separator text).fault .statement (scan separator text).tokens with
  | ok statements =>
      rw [reads] at failed
      cases failed
  | error fault =>
      rw [reads] at failed answers
      cases failed
      exact answers

/-- A text that the grammar allows is not refused. -/
theorem exists_parse_of_isText (tokenized : tokenize separator text = .ok tokens)
    (isText : IsText (tokens.map Token.kind)) : ∃ tree, parse separator text = .ok tree := by
  obtain ⟨complete, rfl⟩ := tokenize_eq_ok_iff.mp tokenized
  cases parsed : parse separator text with
  | ok tree => exact ⟨tree, rfl⟩
  | error error =>
      cases fails_of_parse parsed with
      | fault failed _ =>
          rw [complete] at failed
          cases failed
      | @token front back token _ split _ refused =>
          rw [split, List.append_cons, List.map_append] at isText
          exact absurd ⟨_, isText⟩ refused

end

/-- A text is parsed just when it has no fault and its tokens are statements up to its end. What is
refused otherwise is the first token up to which no text begins so, or the first fault if texts do
begin with all tokens before it. -/
theorem parse_follows_grammar (separator : Separator) (text : String) :
    Lexes separator (.ofText text) (scan separator text).tokens (scan separator text).fault ∧
      ((∃ tree, parse separator text = .ok tree) ↔
        ∃ tokens, tokenize separator text = .ok tokens ∧ IsText (tokens.map Token.kind)) ∧
      ∀ error, parse separator text = .error error →
        ∃ position detail, error = .syntaxError position detail ∧
          ((∃ front token back, (scan separator text).tokens = front ++ token :: back ∧
              IsViable (front.map Token.kind) ∧ ¬IsViable ((front ++ [token]).map Token.kind) ∧
              position = token.position) ∨
            (IsViable ((scan separator text).tokens.map Token.kind) ∧
              tokenize separator text = .error error)) := by
  have lexes := lexes_scan separator text
  refine ⟨lexes, ⟨?_, ?_⟩, ?_⟩
  · intro parses
    obtain ⟨tree, parsed⟩ := parses
    exact isText_of_parse parsed
  · intro given
    obtain ⟨tokens, tokenized, isText⟩ := given
    exact exists_parse_of_isText tokenized isText
  · intro error failed
    cases fails_of_parse failed with
    | @token front back token detail split allowed refused =>
        exact ⟨_, _, rfl, .inl ⟨front, token, back, split, isViable_iff.mpr allowed,
          fun viable => refused (isViable_iff.mp viable), rfl⟩⟩
    | fault fault allowed =>
        rw [fault] at lexes
        obtain ⟨position, detail, rfl⟩ := lexes.syntaxError
        exact ⟨position, detail, rfl,
          .inr ⟨isViable_iff.mpr allowed, tokenize_eq_error_iff.mpr fault⟩⟩

/-- The comma behind the last label lets only a label follow. -/
theorem parse_refuses_open_label_list :
    let text := "CREATE \x7b\"a\" = [\"b\",]\x7d;"
    ∃ detail, parse .both text = .error (.syntaxError ⟨1, 20⟩ detail) ∧
      ∃ front token back, (scan .both text).tokens = front ++ token :: back ∧
        IsViable (front.map Token.kind) ∧ ¬IsViable ((front ++ [token]).map Token.kind) ∧
        (⟨1, 20⟩ : Position) = token.position := by
  intro text
  have failed : parse .both text =
      .error (.syntaxError ⟨1, 20⟩ "Expected label string after ',', found ']'") := by cbv
  have whole : tokenize .both text = .ok (scan .both text).tokens := by cbv
  obtain ⟨position, detail, same, given⟩ := (parse_follows_grammar .both text).2.2 _ failed
  cases same
  cases given with
  | inl stops => exact ⟨_, failed, stops⟩
  | inr faulty =>
      rw [whole] at faulty
      cases faulty.2

end GraphStore.Query
