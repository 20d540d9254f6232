import GraphStore.Proofs.Query.Execution
import GraphStore.Proofs.Query.LineBreaks

/-!
# Scripts one after the other

What a script creates does not hang on where its tokens stand. Main statement: carrying out two texts
one after the other leaves the same files as carrying out the text that they make with a line break
between them.
-/

set_option autoImplicit false

namespace GraphStore.Query

open Text

/-!
## Statements without places
-/

section

variable (token : Token)

@[simp] theorem Token.kind_unplaced : token.unplaced.kind = token.kind := rfl

@[simp] theorem Token.content_unplaced : token.unplaced.content = token.content := rfl

end

def PropertyClause.unplaced (clause : PropertyClause) : PropertyClause :=
  ⟨clause.name.unplaced, clause.value.unplaced⟩

def NodeClause.unplaced (clause : NodeClause) : NodeClause where
  name := clause.name.unplaced
  labelsAt := .start
  labels := clause.labels.map Token.unplaced
  properties := clause.properties.map PropertyClause.unplaced

def Statement.unplaced : Statement → Statement
  | .create _ node => .create .start node.unplaced
  | .empty _ => .empty .start

theorem NodeClause.unplaced_label (node : NodeClause) (label : Token) :
    NodeClause.unplaced { node with labels := node.labels ++ [label] } =
      { node.unplaced with labels := node.unplaced.labels ++ [label.unplaced] } := by
  simp [NodeClause.unplaced]

theorem NodeClause.unplaced_property (node : NodeClause) (property : PropertyClause) :
    NodeClause.unplaced { node with properties := node.properties ++ [property] } =
      { node.unplaced with properties := node.unplaced.properties ++ [property.unplaced] } := by
  simp [NodeClause.unplaced]

def Expectation.unplaced : Expectation → Expectation
  | statement => statement
  | openBrace _ => openBrace .start
  | nodeName _ => nodeName .start
  | assignAfterName _ name => assignAfterName .start name.unplaced
  | openBracket _ name => openBracket .start name.unplaced
  | firstLabel _ node => firstLabel .start node.unplaced
  | label _ node => label .start node.unplaced
  | afterLabel _ node => afterLabel .start node.unplaced
  | afterClause _ node => afterClause .start node.unplaced
  | propertyName _ node => propertyName .start node.unplaced
  | assignAfterKey _ node key => assignAfterKey .start node.unplaced key.unplaced
  | propertyValue _ node key => propertyValue .start node.unplaced key.unplaced
  | endOfStatement _ node => endOfStatement .start node.unplaced

def Reading.unplaced : Reading → Reading
  | .goOn next => .goOn next.unplaced
  | .complete statement => .complete statement.unplaced
  | .refuse message => .refuse message

theorem Expectation.unplaced_eq_statement_iff (expected : Expectation) :
    expected.unplaced = .statement ↔ expected = .statement := by
  cases expected <;> simp [unplaced]

theorem Expectation.read_unplaced (expected : Expectation) (token : Token) :
    expected.unplaced.read token.unplaced = (expected.read token).unplaced := by
  cases expected with
  | firstLabel start node | label start node =>
      have added := node.unplaced_label token
      obtain ⟨kind, text, position⟩ := token
      cases kind with
      | string => exact congrArg (fun node => Reading.goOn (.afterLabel .start node)) added.symm
      | _ => rfl
  | propertyValue start node key =>
      have added := node.unplaced_property ⟨key, token⟩
      obtain ⟨kind, text, position⟩ := token
      cases kind with
      | string | number =>
          exact congrArg (fun node => Reading.goOn (.afterClause .start node)) added.symm
      | _ => rfl
  | _ =>
      obtain ⟨kind, text, position⟩ := token
      cases kind <;> rfl

theorem readStatements_unplaced (expected : Expectation) (tokens : List Token) :
    (readStatements none expected.unplaced (tokens.map Token.unplaced)).toOption =
      (readStatements none expected tokens).toOption.map (List.map Statement.unplaced) := by
  induction tokens generalizing expected with
  | nil => rfl
  | cons token tokens ih =>
      have same : (decide (expected.unplaced = .statement) &&
          decide (token.unplaced.kind = .endOfText)) =
            (decide (expected = .statement) && decide (token.kind = .endOfText)) := by
        simp only [expected.unplaced_eq_statement_iff]
        rfl
      rw [List.map_cons, readStatements, readStatements, Expectation.read_unplaced, same]
      by_cases ends : (decide (expected = .statement) && decide (token.kind = .endOfText)) = true
      · rw [if_pos ends, if_pos ends]
        rfl
      · rw [if_neg ends, if_neg ends]
        cases expected.read token with
        | goOn next => exact ih next
        | complete statement =>
            have onward := ih .statement
            simp only [Reading.unplaced, toOption_map]
            rw [Expectation.unplaced] at onward
            rw [onward, Option.map_map, Option.map_map]
            rfl
        | refuse => rfl

theorem toOption_property_unplaced (clause : PropertyClause) :
    clause.unplaced.property.toOption = clause.property.toOption := by
  simp only [PropertyClause.property, PropertyClause.unplaced, Token.kind_unplaced,
    Token.content_unplaced]
  split
  next => rfl
  next => split <;> rfl
  next => rfl

theorem toOption_node_unplaced (clause : NodeClause) :
    clause.unplaced.node.toOption = clause.node.toOption := by
  have properties : (clause.unplaced.properties.mapM PropertyClause.property).toOption =
      (clause.properties.mapM PropertyClause.property).toOption := by
    rw [toOption_mapM, toOption_mapM, NodeClause.unplaced, List.mapM_map]
    simp only [Function.comp_def, toOption_property_unplaced]
  have labels : clause.unplaced.labels.map Token.content = clause.labels.map Token.content := by
    simp [NodeClause.unplaced]
  rw [NodeClause.node, NodeClause.node, toOption_bind, toOption_bind, properties, labels]
  rfl

theorem toOption_nodes_unplaced (statement : Statement) :
    statement.unplaced.nodes.toOption = statement.nodes.toOption := by
  cases statement with
  | empty => rfl
  | create position clause =>
      rw [Statement.unplaced, Statement.nodes, Statement.nodes, toOption_bind, toOption_bind,
        toOption_node_unplaced]

/-!
## What tokens describe
-/

/-- Whether some tokens are a script that creates some nodes. -/
def Describes (tokens : List Token) (nodes : List Node) : Prop :=
  ∃ statements, readStatements none .statement tokens = .ok statements ∧
    (statements.mapM Statement.nodes).map List.flatten = .ok nodes

section

variable {tokens others more : List Token} {nodes added : List Node}

theorem describes_iff : Describes tokens nodes ↔
    ((readStatements none .statement tokens).toOption.bind fun statements =>
      (statements.mapM fun statement : Statement => statement.nodes.toOption).map List.flatten) =
        some nodes := by
  have each (statements : List Statement) :
      ((statements.mapM Statement.nodes).map List.flatten).toOption =
        (statements.mapM fun statement : Statement => statement.nodes.toOption).map List.flatten := by
    rw [toOption_map, toOption_mapM]
  simp only [← each]
  constructor
  · intro describes
    obtain ⟨statements, read, gives⟩ := describes
    rw [read]
    exact congrArg Except.toOption gives
  · intro given
    obtain ⟨statements, read, gives⟩ := Option.bind_eq_some_iff.mp given
    exact ⟨statements, eq_ok_of_toOption read, eq_ok_of_toOption gives⟩

theorem Describes.unplaced_iff :
    Describes (tokens.map Token.unplaced) nodes ↔ Describes tokens nodes := by
  have reads := readStatements_unplaced .statement tokens
  rw [Expectation.unplaced] at reads
  rw [describes_iff, describes_iff, reads, Option.bind_map]
  simp only [Function.comp_def, List.mapM_map, toOption_nodes_unplaced]

theorem Describes.of_unplaced (describes : Describes tokens nodes)
    (same : others.map Token.unplaced = tokens.map Token.unplaced) : Describes others nodes := by
  rw [← Describes.unplaced_iff, same]
  exact Describes.unplaced_iff.mpr describes

theorem readStatements_append {front : List Token} {last : Token} {expected : Expectation}
    {statements : List Statement} (isEnd : last.kind = .endOfText)
    (others : ∀ token ∈ front, token.kind ≠ .endOfText)
    (read : readStatements none expected (front ++ [last]) = .ok statements) (more : List Token) :
    readStatements none expected (front ++ more) =
      (readStatements none .statement more).map (statements ++ ·) := by
  induction front generalizing expected statements with
  | nil =>
      rw [List.nil_append, readStatements] at read
      by_cases isStatement : expected = .statement
      · subst isStatement
        simp only [isEnd, decide_true, Bool.and_self, if_true] at read
        cases read
        rw [List.nil_append]
        cases readStatements none .statement more <;> rfl
      · obtain ⟨message, reads⟩ := Expectation.exists_refuse_of_endOfText expected isEnd
        simp only [isStatement, decide_false, Bool.false_and, reads] at read
        cases read
  | cons token front ih =>
      obtain ⟨here, others⟩ := List.forall_mem_cons.mp others
      simp only [List.cons_append, readStatements, here, decide_false, Bool.and_false,
        Bool.false_eq_true, if_false] at read ⊢
      cases reads : expected.read token with
      | goOn next =>
          rw [reads] at read
          exact ih others read
      | complete statement =>
          rw [reads] at read
          obtain ⟨later, onward, rfl⟩ := exists_of_map_eq_ok read
          simp only [ih others onward]
          cases readStatements none .statement more <;> rfl
      | refuse =>
          rw [reads] at read
          cases read

theorem Describes.append {front : List Token} {last : Token}
    (first : Describes (front ++ [last]) nodes) (isEnd : last.kind = .endOfText)
    (others : ∀ token ∈ front, token.kind ≠ .endOfText) (second : Describes more added) :
    Describes (front ++ more) (nodes ++ added) := by
  obtain ⟨statements, read, gives⟩ := first
  obtain ⟨later, onward, adds⟩ := second
  refine ⟨statements ++ later, ?_, ?_⟩
  · rw [readStatements_append isEnd others read, onward]
    rfl
  · obtain ⟨parts, made, rfl⟩ := exists_of_map_eq_ok gives
    obtain ⟨laterParts, laterMade, rfl⟩ := exists_of_map_eq_ok adds
    rw [List.mapM_append, made, laterMade, ← List.flatten_append]
    rfl

theorem Describes.seam (separator : Separator) (describes : Describes tokens nodes) :
    Describes (separator.seam ++ tokens) nodes := by
  unfold Separator.seam
  split
  next =>
    obtain ⟨statements, read, gives⟩ := describes
    refine ⟨.empty .start :: statements, ?_, ?_⟩
    · rw [List.singleton_append, readStatements, if_neg (by decide)]
      simp only [Expectation.read, read]
      rfl
    · obtain ⟨parts, made, rfl⟩ := exists_of_map_eq_ok gives
      rw [List.mapM_cons, made]
      rfl
  next => exact describes

/-- A text of blank characters has at most ends of statements in it. -/
theorem exists_describes_nil {separator : Separator} {characters : List Char}
    (blank : characters.all isBlank = true) (position : Position) :
    ∃ tokens, Lexes separator ⟨characters, position⟩ tokens none ∧ Describes tokens [] := by
  induction characters generalizing position with
  | nil =>
      have read : Cursor.nextToken separator ⟨[], position⟩ =
          (.ok ⟨.endOfText, none, position⟩, ⟨[], position⟩) := by rw [Cursor.nextToken]
      exact ⟨_, .ended read rfl, [], rfl, rfl⟩
  | cons c characters ih =>
      obtain ⟨here, others⟩ := (Bool.and_eq_true _ _).mp blank
      obtain ⟨tokens, lexes, describes⟩ := ih others (position.after c)
      by_cases isBreak : c = '\n'
      · subst isBreak
        obtain ⟨seam, onward, stands⟩ := lexes.exists_seam
        refine ⟨_, onward, (describes.seam separator).of_unplaced ?_⟩
        rw [List.map_append, List.map_append, stands, separator.map_unplaced_seam]
      · have read : Cursor.nextToken separator ⟨c :: characters, position⟩ =
            Cursor.nextToken separator ⟨characters, position.after c⟩ := by
          rw [Cursor.nextToken]
          simp [lexeme, isBreak, here, Cursor.advance, Cursor.positionAt]
        exact ⟨tokens, lexes.of_nextToken_eq read, describes⟩

end

/-!
## Texts
-/

section

variable {separator : Separator} {text : String} {nodes : List Node}

/-- A text that creates some nodes has no fault, and its tokens describe them. -/
theorem parse_bind_eq_ok_iff : parse separator text >>= scriptNodes = .ok nodes ↔
    ∃ tokens, Lexes separator (.ofText text) tokens none ∧ Describes tokens nodes := by
  have lexes := lexes_scan separator text
  constructor
  · intro given
    obtain ⟨tree, parsed, gives⟩ := exists_of_bind_eq_ok given
    obtain ⟨⟨position, statements⟩, readsAll, rfl⟩ := exists_of_map_eq_ok parsed
    obtain ⟨_, reads, same⟩ := exists_of_bind_eq_ok readsAll
    cases same
    have clean := (Expectation.answers_readStatements .statement lexes)
    rw [reads] at clean
    rw [clean.1] at lexes reads
    have written := Expectation.Behind.statement.areWritten lexes reads
    rw [scriptNodes_ofStatements written.areStrings] at gives
    exact ⟨_, lexes, _, reads, gives⟩
  · intro given
    obtain ⟨tokens, reading, statements, reads, gives⟩ := given
    obtain ⟨same, clean⟩ := reading.unique lexes
    have written := Expectation.Behind.statement.areWritten reading reads
    have read : parseStatements separator text =
        .ok ((tokens.head?.map Token.position).getD .start, statements) := by
      rw [parseStatements]
      simp only [same, clean, reads]
      rfl
    rw [parse, parseWith, read]
    exact (scriptNodes_ofStatements written.areStrings).trans gives

theorem parse_bind_of_isAllBlank (blank : isAllBlank text = true) :
    parse separator text >>= scriptNodes = .ok [] :=
  parse_bind_eq_ok_iff.mpr (exists_describes_nil blank .start)

/-- Two texts with a line break between them create the nodes of the one and then those of the
other. -/
theorem parse_bind_append {front back : String} {former latter : List Node}
    (first : parse separator front >>= scriptNodes = .ok former)
    (second : parse separator back >>= scriptNodes = .ok latter) :
    parse separator (front ++ "\n" ++ back) >>= scriptNodes = .ok (former ++ latter) := by
  obtain ⟨tokens, lexes, describes⟩ := parse_bind_eq_ok_iff.mp first
  obtain ⟨others, lexesBack, adds⟩ := parse_bind_eq_ok_iff.mp second
  obtain ⟨before, last, joined, rfl, isEnd, more, lexesJoined, alike⟩ :=
    lexes.exists_joined lexesBack
  have characters : (front ++ "\n" ++ back).toList = front.toList ++ '\n' :: back.toList := by
    simp
  refine parse_bind_eq_ok_iff.mpr ⟨joined, ?_, ?_⟩
  · rw [Cursor.ofText, characters]
    exact lexesJoined
  · exact (describes.append isEnd more (adds.seam separator)).of_unplaced alike

end

/-!
## Carrying out
-/

variable {engine : Engine} {collection : String} {separator : Separator} {system : FileSystem}
  {former latter nodes : List Node} {now : Timestamp} {text : String}

theorem storeAll_append (clean : ((storeAll engine collection former).run system).1.2 = none) :
    ((storeAll engine collection (former ++ latter)).run system).2 =
      ((storeAll engine collection latter).run
        ((storeAll engine collection former).run system).2).2 := by
  induction former generalizing system with
  | nil => rfl
  | cons node former ih =>
      rw [storeAll, Disk.run_bind] at clean ⊢
      rw [List.cons_append, storeAll, Disk.run_bind]
      cases called : (engine.createNode collection node).outcome.run system with
      | mk outcome middle =>
          rw [called] at clean
          cases outcome with
          | error error => cases clean
          | ok made =>
              dsimp only at clean ⊢
              rw [Disk.run_bind] at clean ⊢
              rw [Disk.run_bind]
              exact ih clean

/-- Which files a text leaves behind hangs on nothing but the nodes that it creates. -/
theorem system_execute (given : parse separator text >>= scriptNodes = .ok nodes) :
    ((execute engine collection separator now text).run system).2 =
      ((storeAll engine collection nodes).run system).2 := by
  cases filled : isAllBlank text with
  | false => rw [execute_of_ok filled given]
  | true =>
      rw [parse_bind_of_isAllBlank filled] at given
      cases given
      rw [execute, if_pos filled]
      rfl

/-- A text that is carried out without a failure, or is blank, creates some nodes, all of which are
stored. -/
theorem exists_nodes_of_execute
    (stored : isAllBlank text = true ∨
      ((execute engine collection separator now text).run system).1.success = true) :
    ∃ nodes, parse separator text >>= scriptNodes = .ok nodes ∧
      ((storeAll engine collection nodes).run system).1.2 = none := by
  cases filled : isAllBlank text with
  | true => exact ⟨[], parse_bind_of_isAllBlank filled, rfl⟩
  | false =>
      rw [filled] at stored
      cases stored with
      | inl blank => cases blank
      | inr success =>
          cases given : parse separator text >>= scriptNodes with
          | error error =>
              rw [execute_of_error filled given] at success
              cases success
          | ok nodes =>
              refine ⟨nodes, rfl, ?_⟩
              rw [execute_of_ok filled given] at success
              cases ended : ((storeAll engine collection nodes).run system).1.2 with
              | none => rfl
              | some error =>
                  rw [ended, (failure_outcome _ _ _).1] at success
                  cases success

theorem exists_nodes_of_parse {tree : TokenTree} (parsed : parse separator text = .ok tree)
    (inRange : ∀ tokens, tokenize separator text = .ok tokens → ∀ token ∈ tokens, ¬token.Overflows) :
    ∃ nodes, parse separator text >>= scriptNodes = .ok nodes := by
  obtain ⟨tokens, statements, tokenized, -, yields⟩ := exists_yields_of_parse parsed
  have through : parse separator text >>= scriptNodes = scriptNodes tree := by
    rw [parsed]
    rfl
  rw [through]
  cases given : scriptNodes tree with
  | ok nodes => exact ⟨nodes, rfl⟩
  | error error =>
      rw [given] at yields
      obtain ⟨front, token, back, rfl, -, overflows, -⟩ := yields
      exact absurd overflows (inRange _ tokenized token (by simp))

end GraphStore.Query
