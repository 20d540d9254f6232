import GraphStore.Proofs.Query.Grammar

/-!
# Statements as they are written

Which tokens spell which statements. Main statement: the statements that are read from tokens are
the ones that these tokens spell, with nothing between them and nothing left out.
-/

set_option autoImplicit false

namespace GraphStore.Query

/-!
## Spelling
-/

/-- `NAME '=' ( STRING | NUMBER )` -/
inductive PropertyClause.IsWritten : PropertyClause → List Token → Prop where
  | assign {name assign value : Token} (isName : name.kind = .name)
      (isAssign : assign.kind = .assign) (isValue : value.kind = .string ∨ value.kind = .number) :
      IsWritten ⟨name, value⟩ [name, assign, value]

/-- Labels with commas between them. -/
inductive AreLabels : List Token → List Token → Prop where
  | nil : AreLabels [] []
  | first {label : Token} (isString : label.kind = .string) : AreLabels [label] [label]
  | more {labels written : List Token} {comma label : Token} (before : AreLabels labels written)
      (isComma : comma.kind = .comma) (isString : label.kind = .string) :
      AreLabels (labels ++ [label]) (written ++ [comma, label])

/-- `STRING '=' '[' labels ']' { ',' property }` -/
inductive NodeClause.IsWritten : NodeClause → List Token → Prop where
  | bare {name assign opening closing : Token} {labels written : List Token}
      (isString : name.kind = .string) (isAssign : assign.kind = .assign)
      (opens : opening.kind = .openBracket) (areLabels : AreLabels labels written)
      (closes : closing.kind = .closeBracket) :
      IsWritten ⟨name, opening.position, labels, []⟩
        (name :: assign :: opening :: (written ++ [closing]))
  | property {node : NodeClause} {property : PropertyClause} {comma : Token}
      {written added : List Token} (before : node.IsWritten written)
      (isComma : comma.kind = .comma) (isProperty : property.IsWritten added) :
      IsWritten { node with properties := node.properties ++ [property] }
        (written ++ comma :: added)

/-- `CREATE '{' node '}' end-of-statement | end-of-statement` -/
inductive Statement.IsWritten : Statement → List Token → Prop where
  | create {word opening closing stop : Token} {node : NodeClause} {written : List Token}
      (isCreate : word.kind = .create) (opens : opening.kind = .openBrace)
      (isNode : node.IsWritten written) (closes : closing.kind = .closeBrace)
      (stops : stop.kind = .endOfStatement) :
      IsWritten (.create word.position node) (word :: opening :: (written ++ [closing, stop]))
  | empty {stop : Token} (stops : stop.kind = .endOfStatement) :
      IsWritten (.empty stop.position) [stop]

/-- Statements one after the other, and the end of the text. -/
inductive AreWritten : List Statement → List Token → Prop where
  | nil {last : Token} (isEnd : last.kind = .endOfText) : AreWritten [] [last]
  | cons {statement : Statement} {statements : List Statement} {written rest : List Token}
      (isStatement : statement.IsWritten written) (others : AreWritten statements rest) :
      AreWritten (statement :: statements) (written ++ rest)

/-!
## Reading
-/

/-- The tokens of a statement up to its brace. -/
inductive Opens : Position → List Token → Prop where
  | brace {word opening : Token} (isCreate : word.kind = .create)
      (opens : opening.kind = .openBrace) : Opens word.position [word, opening]

/-- The tokens of a node up to the bracket before its labels. -/
inductive OpensLabels : NodeClause → List Token → Prop where
  | bracket {name assign opening : Token} (isString : name.kind = .string)
      (isAssign : assign.kind = .assign) (opens : opening.kind = .openBracket) :
      OpensLabels ⟨name, opening.position, [], []⟩ [name, assign, opening]

/-- The tokens of a node up to its last label. -/
inductive NamesLabels : NodeClause → List Token → Prop where
  | labels {name assign opening : Token} {labels written : List Token}
      (isString : name.kind = .string) (isAssign : assign.kind = .assign)
      (opens : opening.kind = .openBracket) (areLabels : AreLabels labels written) :
      NamesLabels ⟨name, opening.position, labels, []⟩ (name :: assign :: opening :: written)

namespace Expectation

/-- The tokens that a statement has so far, as an expectation knows them. -/
inductive Behind : Expectation → List Token → Prop where
  | statement : Behind .statement []
  | openBrace {word : Token} (isCreate : word.kind = .create) :
      Behind (.openBrace word.position) [word]
  | nodeName {start : Position} {front : List Token} (opened : Opens start front) :
      Behind (.nodeName start) front
  | assignAfterName {start : Position} {front : List Token} {name : Token}
      (opened : Opens start front) (isString : name.kind = .string) :
      Behind (.assignAfterName start name) (front ++ [name])
  | openBracket {start : Position} {front : List Token} {name assign : Token}
      (opened : Opens start front) (isString : name.kind = .string)
      (isAssign : assign.kind = .assign) : Behind (.openBracket start name) (front ++ [name, assign])
  | firstLabel {start : Position} {node : NodeClause} {front written : List Token}
      (opened : Opens start front) (labelsOpened : OpensLabels node written) :
      Behind (.firstLabel start node) (front ++ written)
  | label {start : Position} {node : NodeClause} {front written : List Token} {comma : Token}
      (opened : Opens start front) (named : NamesLabels node written)
      (isComma : comma.kind = .comma) : Behind (.label start node) (front ++ (written ++ [comma]))
  | afterLabel {start : Position} {node : NodeClause} {front written : List Token}
      (opened : Opens start front) (named : NamesLabels node written) :
      Behind (.afterLabel start node) (front ++ written)
  | afterClause {start : Position} {node : NodeClause} {front written : List Token}
      (opened : Opens start front) (isNode : node.IsWritten written) :
      Behind (.afterClause start node) (front ++ written)
  | propertyName {start : Position} {node : NodeClause} {front written : List Token} {comma : Token}
      (opened : Opens start front) (isNode : node.IsWritten written)
      (isComma : comma.kind = .comma) :
      Behind (.propertyName start node) (front ++ (written ++ [comma]))
  | assignAfterKey {start : Position} {node : NodeClause} {front written : List Token}
      {comma key : Token} (opened : Opens start front) (isNode : node.IsWritten written)
      (isComma : comma.kind = .comma) (isName : key.kind = .name) :
      Behind (.assignAfterKey start node key) (front ++ (written ++ [comma, key]))
  | propertyValue {start : Position} {node : NodeClause} {front written : List Token}
      {comma key assign : Token} (opened : Opens start front) (isNode : node.IsWritten written)
      (isComma : comma.kind = .comma) (isName : key.kind = .name)
      (isAssign : assign.kind = .assign) :
      Behind (.propertyValue start node key) (front ++ (written ++ [comma, key, assign]))
  | endOfStatement {start : Position} {node : NodeClause} {front written : List Token}
      {closing : Token} (opened : Opens start front) (isNode : node.IsWritten written)
      (closes : closing.kind = .closeBrace) :
      Behind (.endOfStatement start node) (front ++ (written ++ [closing]))

variable {expected next : Expectation} {token : Token} {front : List Token} {statement : Statement}

theorem Behind.goOn (behind : expected.Behind front) (reads : expected.read token = .goOn next) :
    next.Behind (front ++ [token]) := by
  cases behind with
  | statement =>
      simp only [read] at reads
      split at reads
      all_goals cases reads
      next isCreate => exact .openBrace isCreate
  | openBrace isCreate =>
      simp only [read] at reads
      split at reads
      all_goals cases reads
      next opens => exact .nodeName (.brace isCreate opens)
  | nodeName opened =>
      simp only [read] at reads
      split at reads
      all_goals cases reads
      next isString => exact .assignAfterName opened isString
  | assignAfterName opened isString =>
      simp only [read] at reads
      split at reads
      all_goals cases reads
      next isAssign =>
        rw [List.append_assoc]
        exact .openBracket opened isString isAssign
  | openBracket opened isString isAssign =>
      simp only [read] at reads
      split at reads
      all_goals cases reads
      next opens =>
        rw [List.append_assoc]
        exact .firstLabel opened (.bracket isString isAssign opens)
  | firstLabel opened labelsOpened =>
      rw [List.append_assoc]
      simp only [read] at reads
      split at reads
      all_goals cases reads
      next closes =>
        cases labelsOpened with
        | bracket isString isAssign opens =>
            exact .afterClause opened (.bare isString isAssign opens .nil closes)
      next isString =>
        refine .afterLabel opened ?_
        cases labelsOpened with
        | bracket nameIsString isAssign opens =>
            exact .labels nameIsString isAssign opens (.first isString)
  | label opened named isComma =>
      rw [List.append_assoc, List.append_assoc]
      simp only [read] at reads
      split at reads
      all_goals cases reads
      next isString =>
        refine .afterLabel opened ?_
        cases named with
        | labels nameIsString isAssign opens areLabels =>
            exact .labels nameIsString isAssign opens (.more areLabels isComma isString)
  | afterLabel opened named =>
      rw [List.append_assoc]
      simp only [read] at reads
      split at reads
      all_goals cases reads
      next isComma => exact .label opened named isComma
      next closes =>
        refine .afterClause opened ?_
        cases named with
        | labels isString isAssign opens areLabels =>
            exact .bare isString isAssign opens areLabels closes
  | afterClause opened isNode =>
      rw [List.append_assoc]
      simp only [read] at reads
      split at reads
      all_goals cases reads
      next isComma => exact .propertyName opened isNode isComma
      next closes => exact .endOfStatement opened isNode closes
  | propertyName opened isNode isComma =>
      rw [List.append_assoc, List.append_assoc]
      simp only [read] at reads
      split at reads
      all_goals cases reads
      next isName => exact .assignAfterKey opened isNode isComma isName
  | assignAfterKey opened isNode isComma isName =>
      rw [List.append_assoc, List.append_assoc]
      simp only [read] at reads
      split at reads
      all_goals cases reads
      next isAssign => exact .propertyValue opened isNode isComma isName isAssign
  | propertyValue opened isNode isComma isName isAssign =>
      rw [List.append_assoc, List.append_assoc]
      simp only [read] at reads
      split at reads
      all_goals cases reads
      next isValue =>
        exact .afterClause opened
          (.property isNode isComma (.assign isName isAssign (by simpa using isValue)))
  | endOfStatement opened isNode closes =>
      simp only [read] at reads
      split at reads
      all_goals cases reads

theorem Behind.complete (behind : expected.Behind front)
    (reads : expected.read token = .complete statement) :
    statement.IsWritten (front ++ [token]) := by
  cases behind with
  | statement =>
      simp only [read] at reads
      split at reads
      all_goals cases reads
      next stops => exact .empty stops
  | endOfStatement opened isNode closes =>
      simp only [read] at reads
      split at reads
      all_goals cases reads
      next stops =>
        cases opened with
        | brace isCreate opens =>
            rw [List.append_assoc, List.append_assoc]
            exact .create isCreate opens isNode closes stops
  | openBrace | nodeName | assignAfterName | openBracket | label | propertyName | assignAfterKey
  | propertyValue | firstLabel | afterLabel | afterClause =>
      simp only [read] at reads
      split at reads
      all_goals cases reads

/-- Reading goes on until the tokens are used up, each statement with the tokens since the one
before it. -/
theorem Behind.areWritten {separator : Separator} {cursor : Cursor} {tokens : List Token}
    {fault : Option Error} {statements : List Statement} (behind : expected.Behind front)
    (lexes : Lexes separator cursor tokens fault)
    (read : readStatements fault expected tokens = .ok statements) :
    AreWritten statements (front ++ tokens) := by
  induction lexes generalizing expected front statements with
  | failed => cases read
  | @ended _ _ token _ last =>
      rw [readStatements] at read
      by_cases isStatement : expected = .statement
      · subst isStatement
        simp only [last, decide_true, Bool.and_self, if_true] at read
        cases read
        cases behind
        exact .nil last
      · obtain ⟨message, reads⟩ := exists_refuse_of_endOfText expected last
        simp only [isStatement, decide_false, Bool.false_and, reads] at read
        cases read
  | @token _ _ token later fault _ more _ ih =>
      simp only [readStatements, more, decide_false, Bool.and_false, Bool.false_eq_true,
        if_false] at read
      cases reads : expected.read token with
      | goOn next =>
          rw [reads] at read
          rw [List.append_cons]
          exact ih (behind.goOn reads) read
      | complete statement =>
          rw [reads] at read
          obtain ⟨others, onward, rfl⟩ := exists_of_map_eq_ok read
          rw [List.append_cons]
          exact .cons (behind.complete reads) (ih .statement onward)
      | refuse message =>
          rw [reads] at read
          cases read

end Expectation

end GraphStore.Query
