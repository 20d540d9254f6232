import GraphStore.Proofs.Query.ReadingBack
import GraphStore.Proofs.Query.Spelling
import GraphStore.Proofs.Query.Statements

/-!
# The nodes of a script

What a text that is parsed makes of its statements. Main statement: the tree of a text gives one
node for each statement that creates one, with the name, the labels and the properties as they are
written, unless some number is too great or too small for 64 bits, and then the first such number is
what is refused.
-/

set_option autoImplicit false

namespace GraphStore.Query

open Text

/-!
## Numbers
-/

/-- Whether a token is a number with some value. -/
def Token.IsInteger (token : Token) (value : Int) : Prop :=
  token.kind = .number ∧ IsNumeral token.content.toList value

/-- Whether a token is a number that 64 bits in two's complement do not hold. -/
def Token.Overflows (token : Token) : Prop :=
  ∃ value, token.IsInteger value ∧
    ¬(-0x8000000000000000 ≤ value ∧ value < 0x8000000000000000)

section

variable {separator : Separator} {cursor next : Cursor} {token : Token} {tokens : List Token}
  {fault : Option Error}

private theorem isNumeral_of_spells {kind : TokenKind} {content : Option String} {written : List Char}
    (spells : Spells separator kind content written) (isNumber : kind = .number) :
    ∃ digits value, content = some (String.ofList digits) ∧ IsNumeral digits value := by
  subst isNumber
  cases spells with
  | sign listed => simp [signs] at listed
  | word _ _ isWord =>
      cases isWord with
      | keyword listed _ => simp [keywords] at listed
  | number isNumeral => exact ⟨_, _, rfl, isNumeral⟩

private theorem exists_isInteger_of_nextToken
    (read : cursor.nextToken separator = (.ok token, next))
    (isNumber : token.kind = .number) : ∃ value, token.IsInteger value := by
  fun_induction Cursor.nextToken separator cursor with
  | case1 =>
      cases read
      cases isNumber
  | case2 _ _ _ _ _ _ ih => exact ih read
  | case3 _ _ _ _ _ _ _ found =>
      cases read
      obtain ⟨_, _, _, _, spells⟩ := spells_of_lexeme found
      obtain ⟨digits, value, rfl, isNumeral⟩ := isNumeral_of_spells spells isNumber
      refine ⟨value, isNumber, ?_⟩
      simpa [Token.content] using isNumeral
  | case4 => cases read

theorem Lexes.exists_isInteger (lexes : Lexes separator cursor tokens fault) :
    ∀ token ∈ tokens, token.kind = .number → ∃ value, token.IsInteger value := by
  induction lexes with
  | failed => exact fun _ member => absurd member List.not_mem_nil
  | ended read _ =>
      intro token member isNumber
      rw [List.mem_singleton.mp member] at isNumber ⊢
      exact exists_isInteger_of_nextToken read isNumber
  | token read _ _ ih =>
      intro token member isNumber
      cases member with
      | head => exact exists_isInteger_of_nextToken read isNumber
      | tail _ later => exact ih token later isNumber

end

/-!
## What statements describe
-/

/-- Whether a property is the one that is written. -/
inductive PropertyClause.Gives : PropertyClause → Property → Prop where
  | text {name value : Token} (isString : value.kind = .string) :
      Gives ⟨name, value⟩ ⟨name.content, .text value.content⟩
  | int {name value : Token} {number : Int64} (isInteger : value.IsInteger number.toInt) :
      Gives ⟨name, value⟩ ⟨name.content, .int number⟩

/-- Whether a node is the one that is written. It is not stored yet. -/
structure NodeClause.Gives (clause : NodeClause) (node : Node) : Prop where
  id : node.id = none
  name : node.name = some clause.name.content
  labels : node.labels = clause.labels.map Token.content
  properties : List.Forall₂ PropertyClause.Gives clause.properties node.properties
  relationships : node.relationships = []

/-- The descriptions of the nodes that a statement creates. -/
def Statement.clauses : Statement → List NodeClause
  | .create _ clause => [clause]
  | .empty _ => []

/-- What some tokens give: a value that fits to them, or the fault of the first number that
overflows. -/
def Yields {α : Type} (tokens : List Token) (fits : α → Prop) : Except Error α → Prop
  | .ok value => (∀ token ∈ tokens, ¬token.Overflows) ∧ fits value
  | .error error =>
      ∃ front token back, tokens = front ++ token :: back ∧
        (∀ earlier ∈ front, ¬earlier.Overflows) ∧ token.Overflows ∧
        error = .syntaxError token.position s!"Number {token.content} is out of range"

section

variable {α β : Type} {fits : α → Prop} {suits : β → Prop} {front back : List Token}

theorem Yields.bind {first : Except Error α} {next : α → Except Error β}
    (here : Yields front fits first) (onward : ∀ value, fits value → Yields back suits (next value)) :
    Yields (front ++ back) suits (first >>= next) := by
  cases first with
  | error error =>
      obtain ⟨before, token, behind, rfl, clean, overflows, same⟩ := here
      exact ⟨before, token, behind ++ back, by simp, clean, overflows, same⟩
  | ok value =>
      obtain ⟨clean, suitable⟩ := here
      have later := onward value suitable
      change Yields (front ++ back) suits (next value)
      cases outcome : next value with
      | ok result =>
          rw [outcome] at later
          exact ⟨List.forall_mem_append.mpr ⟨clean, later.1⟩, later.2⟩
      | error error =>
          rw [outcome] at later
          obtain ⟨before, token, behind, rfl, others, overflows, same⟩ := later
          exact ⟨front ++ before, token, behind, by simp, List.forall_mem_append.mpr ⟨clean, others⟩,
            overflows, same⟩

theorem Yields.map {first : Except Error α} {give : α → β} (here : Yields front fits first)
    (suitable : ∀ value, fits value → suits (give value)) :
    Yields front suits (first.map give) := by
  cases first with
  | error error => exact here
  | ok value => exact ⟨here.1, suitable value here.2⟩

theorem Yields.behind {outcome : Except Error α} (clean : ∀ token ∈ front, ¬token.Overflows)
    (here : Yields back fits outcome) : Yields (front ++ back) fits outcome := by
  cases outcome with
  | ok value => exact ⟨List.forall_mem_append.mpr ⟨clean, here.1⟩, here.2⟩
  | error error =>
      obtain ⟨before, token, rest, rfl, cleanBefore, overflows, same⟩ := here
      exact ⟨front ++ before, token, rest, by simp,
        List.forall_mem_append.mpr ⟨clean, cleanBefore⟩, overflows, same⟩

theorem Yields.before {outcome : Except Error α} (clean : ∀ token ∈ back, ¬token.Overflows)
    (here : Yields front fits outcome) : Yields (front ++ back) fits outcome := by
  cases outcome with
  | ok value => exact ⟨List.forall_mem_append.mpr ⟨here.1, clean⟩, here.2⟩
  | error error =>
      obtain ⟨before, token, rest, rfl, cleanBefore, overflows, same⟩ := here
      exact ⟨before, token, rest ++ back, by simp, cleanBefore, overflows, same⟩

theorem not_overflows {token : Token} {kind : TokenKind} (is : token.kind = kind)
    (other : kind ≠ .number) : ¬token.Overflows := by
  intro overflows
  obtain ⟨value, ⟨isNumber, -⟩, -⟩ := overflows
  exact other (is.symm.trans isNumber)

/-- Whether the numbers among some tokens are written as numbers. -/
def AreNumerals (tokens : List Token) : Prop :=
  ∀ token ∈ tokens, token.kind = .number → ∃ value, token.IsInteger value

theorem areNumerals_append :
    AreNumerals (front ++ back) ↔ AreNumerals front ∧ AreNumerals back := List.forall_mem_append

end

section

variable {tokens : List Token}

theorem PropertyClause.IsWritten.yields {clause : PropertyClause} (written : clause.IsWritten tokens)
    (areNumerals : AreNumerals tokens) : Yields tokens clause.Gives clause.property := by
  cases written with
  | @assign name assign value isName isAssign isValue =>
      have noName := not_overflows isName (by decide)
      have noAssign := not_overflows isAssign (by decide)
      rcases isValue with isString | isNumber
      · have noValue := not_overflows isString (by decide)
        rw [PropertyClause.property, isString]
        exact ⟨by simp [noName, noAssign, noValue], .text isString⟩
      · obtain ⟨number, isInteger⟩ := areNumerals value (by simp) isNumber
        have read : parseInt? value.content = some number := by
          simpa using parseInt?_of_isNumeral isInteger.2
        rw [PropertyClause.property, isNumber, read]
        cases fits : int64? number with
        | none =>
            simp only [Option.bind_some, fits]
            exact ⟨[name, assign], value, [], rfl, by simp [noName, noAssign],
              ⟨number, isInteger, int64?_eq_none_iff.mp fits⟩, rfl⟩
        | some held =>
            simp only [Option.bind_some, fits]
            have same : held.toInt = number := int64?_eq_some_iff.mp fits
            refine ⟨?_, .int (same ▸ isInteger)⟩
            have noValue : ¬value.Overflows := by
              intro overflows
              obtain ⟨other, isOther, outside⟩ := overflows
              have least := held.le_toInt
              have greatest := held.toInt_lt
              have equal := isOther.2.unique isInteger.2
              omega
            simp [noName, noAssign, noValue]

theorem AreLabels.not_overflows {labels : List Token} (areLabels : AreLabels labels tokens) :
    ∀ token ∈ tokens, ¬token.Overflows := by
  induction areLabels with
  | nil => simp
  | first isString => simp [Query.not_overflows isString]
  | more _ isComma isString ih =>
      simp only [List.forall_mem_append, List.forall_mem_cons]
      exact ⟨ih, Query.not_overflows isComma (by decide), Query.not_overflows isString (by decide),
        by simp⟩

theorem NodeClause.IsWritten.yields_properties {clause : NodeClause}
    (written : clause.IsWritten tokens) (areNumerals : AreNumerals tokens) :
    Yields tokens (List.Forall₂ PropertyClause.Gives clause.properties)
      (clause.properties.mapM PropertyClause.property) := by
  induction written with
  | bare isString isAssign opens areLabels closes =>
      refine ⟨?_, .nil⟩
      simp only [List.forall_mem_cons, List.forall_mem_append]
      exact ⟨not_overflows isString (by decide), not_overflows isAssign (by decide),
        not_overflows opens (by decide), areLabels.not_overflows, not_overflows closes (by decide),
        by simp⟩
  | @property clause property comma written added _ isComma isProperty ih =>
      obtain ⟨before, later⟩ := areNumerals_append.mp areNumerals
      have last := isProperty.yields fun token member => later token (List.mem_cons_of_mem _ member)
      have noComma : ∀ token ∈ [comma], ¬token.Overflows := by
        simp [not_overflows isComma]
      rw [List.mapM_append]
      refine (ih before).bind fun properties fit => ?_
      have one : (do
            let added ← [property].mapM PropertyClause.property
            return properties ++ added) =
          property.property.map fun value => properties ++ [value] := by
        rw [List.mapM_cons, List.mapM_nil]
        cases property.property <;> rfl
      rw [one]
      exact (last.map fun value fits => List.rel_append fit (.cons fits .nil)).behind noComma

theorem NodeClause.IsWritten.yields {clause : NodeClause} (written : clause.IsWritten tokens)
    (areNumerals : AreNumerals tokens) : Yields tokens clause.Gives clause.node := by
  have through : clause.node = (clause.properties.mapM PropertyClause.property).map fun properties =>
      { id := none, name := some clause.name.content, labels := clause.labels.map Token.content,
        properties, relationships := [] } := by
    rw [NodeClause.node]
    cases clause.properties.mapM PropertyClause.property <;> rfl
  rw [through]
  exact (written.yields_properties areNumerals).map fun _ fit => ⟨rfl, rfl, rfl, fit, rfl⟩

theorem Statement.IsWritten.yields {statement : Statement} (written : statement.IsWritten tokens)
    (areNumerals : AreNumerals tokens) :
    Yields tokens (List.Forall₂ NodeClause.Gives statement.clauses) statement.nodes := by
  cases written with
  | empty stops => exact ⟨by simp [not_overflows stops], .nil⟩
  | @create word opening closing stop clause written isCreate opens isNode closes stops =>
      have through : (Statement.create word.position clause).nodes = clause.node.map ([·]) := by
        rw [Statement.nodes]
        cases clause.node <;> rfl
      have front : ∀ token ∈ [word, opening], ¬token.Overflows := by
        simp [not_overflows isCreate, not_overflows opens]
      have back : ∀ token ∈ [closing, stop], ¬token.Overflows := by
        simp [not_overflows closes, not_overflows stops]
      have node := isNode.yields fun token member => areNumerals token (by simp [member])
      rw [through]
      exact ((node.map fun _ fits => .cons fits .nil).before back).behind front

/-- The nodes of statements come in their order, and the first number that overflows is the one that
is refused. -/
theorem AreWritten.yields {statements : List Statement} (written : AreWritten statements tokens)
    (areNumerals : AreNumerals tokens) :
    Yields tokens
      (fun nodes => List.Forall₂ NodeClause.Gives (statements.flatMap Statement.clauses) nodes)
      ((statements.mapM Statement.nodes).map List.flatten) := by
  induction written with
  | nil isEnd => exact ⟨by simp [not_overflows isEnd], .nil⟩
  | @cons statement statements written rest isStatement _ ih =>
      obtain ⟨here, later⟩ := areNumerals_append.mp areNumerals
      have through : ((statement :: statements).mapM Statement.nodes).map List.flatten =
          statement.nodes >>= fun nodes =>
            ((statements.mapM Statement.nodes).map List.flatten).map (nodes ++ ·) := by
        rw [List.mapM_cons]
        cases statement.nodes with
        | error => rfl
        | ok nodes => cases statements.mapM Statement.nodes <;> rfl
      rw [through]
      refine (isStatement.yields here).bind fun nodes fit => ?_
      exact (ih later).map fun _ fits => List.rel_append fit fits

theorem NodeClause.IsWritten.isString {clause : NodeClause} (written : clause.IsWritten tokens) :
    clause.name.kind = .string := by
  induction written with
  | bare isString => exact isString
  | property _ _ _ ih => exact ih

theorem AreWritten.areStrings {statements : List Statement} (written : AreWritten statements tokens) :
    ∀ position clause, .create position clause ∈ statements → clause.name.kind = .string := by
  induction written with
  | nil => exact fun _ _ member => absurd member List.not_mem_nil
  | cons isStatement _ ih =>
      intro position clause member
      cases member with
      | head =>
          cases isStatement with
          | create _ _ isNode _ _ => exact isNode.isString
      | tail _ later => exact ih position clause later

end

/-!
## Texts
-/

section

variable {separator : Separator} {text : String} {tree : TokenTree}

theorem exists_statements_of_parse (parsed : parse separator text = .ok tree) :
    ∃ position tokens statements, tokenize separator text = .ok tokens ∧ AreNumerals tokens ∧
      AreWritten statements tokens ∧ tree = .ofStatements id position statements := by
  obtain ⟨⟨position, statements⟩, readsAll, rfl⟩ := exists_of_map_eq_ok parsed
  obtain ⟨_, reads, same⟩ := exists_of_bind_eq_ok readsAll
  cases same
  have lexes := lexes_scan separator text
  have answers := Expectation.answers_readStatements .statement lexes
  rw [reads] at answers
  exact ⟨_, _, _, tokenize_eq_ok_iff.mpr ⟨answers.1, rfl⟩, lexes.exists_isInteger,
    Expectation.Behind.statement.areWritten lexes reads, rfl⟩

theorem exists_yields_of_parse (parsed : parse separator text = .ok tree) :
    ∃ tokens statements, tokenize separator text = .ok tokens ∧ AreWritten statements tokens ∧
      Yields tokens
        (fun nodes => List.Forall₂ NodeClause.Gives (statements.flatMap Statement.clauses) nodes)
        (scriptNodes tree) := by
  obtain ⟨position, tokens, statements, tokenized, areNumerals, written, rfl⟩ :=
    exists_statements_of_parse parsed
  refine ⟨tokens, statements, tokenized, written, ?_⟩
  rw [scriptNodes_ofStatements written.areStrings]
  exact written.yields areNumerals

end

end GraphStore.Query
