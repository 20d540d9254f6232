import GraphStore.Proofs.Query.Layout
import GraphStore.Proofs.Text.Numeral
import Mathlib

/-!
# Spelling

Which characters stand for which token, told without the lexer. Main statements: the lexer takes for
a token just the characters that stand for it, if no word or number goes on behind them.
-/

set_option autoImplicit false

namespace GraphStore.Query

open Text

variable {separator : Separator} {kind : TokenKind} {content : Option String} {length : Nat}
  {c first : Char} {rest back text written : List Char}

/-!
## Words
-/

/-- The words that are no names. -/
def keywords : List (String × TokenKind) :=
  [("CREATE", .create), ("UPDATE", .update), ("DELETE", .delete)]

/-- Whether some letters are those of a word, but for upper and lower case. -/
def AreLettersOf (letters : List Char) (word : String) : Prop :=
  letters.map Char.toLower = word.toList.map Char.toLower

/-- What kind of token a word is. -/
inductive IsWordOf (letters : List Char) : TokenKind → Prop where
  | keyword {word : String} {kind : TokenKind} (listed : (word, kind) ∈ keywords)
      (same : AreLettersOf letters word) : IsWordOf letters kind
  | name (others : ∀ entry ∈ keywords, ¬AreLettersOf letters entry.1) : IsWordOf letters .name

theorem toNat_toLower (c : Char) :
    c.toLower.toNat = if 65 ≤ c.toNat ∧ c.toNat ≤ 90 then c.toNat + 32 else c.toNat := by
  have least : c.val ≥ 'A'.val ↔ 65 ≤ c.toNat := Iff.rfl
  have greatest : c.val ≤ 'Z'.val ↔ c.toNat ≤ 90 := Iff.rfl
  have step : ('a'.val - 'A'.val).toNat = 32 := rfl
  unfold Char.toLower
  simp only [least, greatest]
  split
  · change (c.val + ('a'.val - 'A'.val)).toNat = _
    rw [UInt32.toNat_add, step, Char.toNat_val]
    omega
  · rfl

theorem toNat_toUpper (c : Char) :
    c.toUpper.toNat = if 97 ≤ c.toNat ∧ c.toNat ≤ 122 then c.toNat - 32 else c.toNat := by
  have least : 'a'.val ≤ c.val ↔ 97 ≤ c.toNat := Iff.rfl
  have greatest : c.val ≤ 'z'.val ↔ c.toNat ≤ 122 := Iff.rfl
  have step : ('A'.val - 'a'.val).toNat = 2 ^ 32 - 32 := by decide
  unfold Char.toUpper
  simp only [least, greatest]
  split
  · change (c.val + ('A'.val - 'a'.val)).toNat = _
    rw [UInt32.toNat_add, step, Char.toNat_val]
    omega
  · rfl

theorem toUpper_eq_iff {c d : Char} : c.toUpper = d.toUpper ↔ c.toLower = d.toLower := by
  rw [← Char.toNat_inj, ← Char.toNat_inj, toNat_toLower, toNat_toLower, toNat_toUpper,
    toNat_toUpper]
  split <;> split <;> split <;> split <;> omega

theorem areLettersOf_iff {letters : List Char} {word : String} :
    AreLettersOf letters word ↔
      (String.ofList letters).map Char.toUpper = word.map Char.toUpper := by
  rw [← String.toList_inj, String.toList_map, String.toList_map, String.toList_ofList, AreLettersOf]
  generalize word.toList = others
  induction letters generalizing others with
  | nil => cases others <;> simp
  | cons c letters ih =>
      cases others with
      | nil => simp
      | cons d others => simp only [List.map_cons, List.cons.injEq, ih, toUpper_eq_iff]

theorem isWordOf_iff {letters : List Char} :
    IsWordOf letters kind ↔ (TokenKind.keyword? (String.ofList letters)).getD .name = kind := by
  have upper (word : String) (isUpper : word.toList.map Char.toUpper = word.toList) :
      AreLettersOf letters word ↔ (String.ofList letters).map Char.toUpper = word := by
    rw [areLettersOf_iff, ← String.toList_inj, ← String.toList_inj, String.toList_map,
      String.toList_map, isUpper]
  have create := upper "CREATE" (by decide)
  have update := upper "UPDATE" (by decide)
  have delete := upper "DELETE" (by decide)
  constructor
  · intro isWord
    cases isWord with
    | keyword listed same =>
        simp only [keywords, List.mem_cons, List.not_mem_nil, or_false, Prod.mk.injEq] at listed
        rcases listed with ⟨rfl, rfl⟩ | ⟨rfl, rfl⟩ | ⟨rfl, rfl⟩
        · rw [TokenKind.keyword?, create.mp same]
          rfl
        · rw [TokenKind.keyword?, update.mp same]
          rfl
        · rw [TokenKind.keyword?, delete.mp same]
          rfl
    | name others =>
        simp only [keywords, List.forall_mem_cons, create, update, delete] at others
        obtain ⟨notCreate, notUpdate, notDelete, _⟩ := others
        unfold TokenKind.keyword?
        split
        · contradiction
        · contradiction
        · contradiction
        · rfl
  · rintro rfl
    unfold TokenKind.keyword?
    split
    next same => exact .keyword (by simp [keywords]) (create.mpr same)
    next same => exact .keyword (by simp [keywords]) (update.mpr same)
    next same => exact .keyword (by simp [keywords]) (delete.mpr same)
    next notCreate notUpdate notDelete =>
      apply IsWordOf.name
      simp only [keywords, List.forall_mem_cons, create, update, delete]
      exact ⟨notCreate, notUpdate, notDelete, fun _ member => absurd member List.not_mem_nil⟩

/-!
## Strings
-/

/-- The escapes of one character, with the character that each stands for. -/
def shortEscapes : List (Char × Char) :=
  [('"', '"'), ('\\', '\\'), ('/', '/'), ('n', '\n'), ('r', '\r'), ('t', '\t'), ('0', '\x00')]

/-- What may stand for a character behind a backslash: one character, or the digits of its number,
of which there are four, or fewer and no further digit in the text behind them. -/
inductive Escapes : (escaped : List Char) → Char → (text : List Char) → Prop where
  | short {letter c : Char} {text : List Char} (listed : (letter, c) ∈ shortEscapes) :
      Escapes [letter] c text
  | code {digits : List Char} {c : Char} {text : List Char} (some : digits ≠ [])
      (few : digits.length ≤ 4) (areHex : ∀ digit ∈ digits, isHexDigit digit = true)
      (number : Nat.ofDigits 16 (digits.reverse.map hexDigitOf) = c.toNat)
      (ends : digits.length = 4 ∨ ∀ next ∈ text.head?, isHexDigit next = false) :
      Escapes ('x' :: digits) c text

/-- What may stand for a text between the quotes of a string. -/
inductive Writes : (written value : List Char) → Prop where
  | nothing : Writes [] []
  | literal {c : Char} {written value : List Char} (printed : isControl c = false)
      (notQuote : c ≠ '"') (notBackslash : c ≠ '\\') (onward : Writes written value) :
      Writes (c :: written) (c :: value)
  | escape {escaped written value : List Char} {c : Char} (escapes : Escapes escaped c written)
      (onward : Writes written value) : Writes ('\\' :: escaped ++ written) (c :: value)

theorem Escapes.escape {escaped : List Char} (escapes : Escapes escaped c text) :
    escape (escaped ++ text) = (.ok c, escaped.length) := by
  cases escapes with
  | short listed =>
      simp only [shortEscapes, List.mem_cons, List.not_mem_nil, or_false, Prod.mk.injEq] at listed
      rcases listed with ⟨rfl, rfl⟩ | ⟨rfl, rfl⟩ | ⟨rfl, rfl⟩ | ⟨rfl, rfl⟩ | ⟨rfl, rfl⟩ |
        ⟨rfl, rfl⟩ | ⟨rfl, rfl⟩ <;> rfl
  | @code digits _ _ some few areHex number ends =>
      have taken : ((digits ++ text).take maxEscapeDigits).takeWhile isHexDigit = digits :=
        takeWhile_take_append_of_ends areHex few ends
      have filled : digits.isEmpty = false := by simpa using some
      rw [List.cons_append, Query.escape, taken, filled, hexValue_eq_ofDigits areHex, number]
      simp only [Bool.false_eq_true, if_false]
      have valid : c.toNat.isValidChar := c.valid
      rw [if_pos valid, Char.ofNat_toNat, List.length_cons, Nat.add_comm]

theorem escapes_of_escape (valid : (escape rest).1 = .ok c) :
    ∃ escaped text, rest = escaped ++ text ∧ (escape rest).2 = escaped.length ∧
      Escapes escaped c text := by
  unfold escape at valid ⊢
  split at valid
  case h_1 => cases valid
  case h_9 rest =>
    have split := prefix_takeWhile_take isHexDigit maxEscapeDigits rest
    have ends := ends_takeWhile_take isHexDigit maxEscapeDigits rest
    have few := (List.takeWhile_sublist (l := rest.take maxEscapeDigits) isHexDigit).length_le
    have areHex : ∀ digit ∈ (rest.take maxEscapeDigits).takeWhile isHexDigit,
        isHexDigit digit = true := fun _ => List.mem_takeWhile_imp
    generalize (rest.take maxEscapeDigits).takeWhile isHexDigit = digits at *
    obtain ⟨text, rfl⟩ := split
    simp only [List.drop_left] at ends
    dsimp only at valid ⊢
    split at valid
    next => cases valid
    next some =>
      split at valid
      next isValid =>
        cases valid
        refine ⟨'x' :: digits, text, rfl, ?_, .code (by simpa using some) ?_ areHex ?_ ends⟩
        · simp [some, isValid, Nat.add_comm]
        · exact Nat.le_trans few (List.length_take_le ..)
        · rw [← hexValue_eq_ofDigits areHex, Char.ofNat, dif_pos isValid]
          rfl
      next => cases valid
  case h_10 => cases valid
  all_goals
    cases valid
    exact ⟨[_], _, rfl, rfl, .short (by simp [shortEscapes])⟩

/-- The quote at the end of a string is no further digit. -/
theorem escapes_append_quote_iff {escaped : List Char} :
    Escapes escaped c (written ++ '"' :: back) ↔ Escapes escaped c written := by
  have ends : (∀ next ∈ (written ++ '"' :: back).head?, isHexDigit next = false) ↔
      ∀ next ∈ written.head?, isHexDigit next = false := by
    cases written with
    | nil => simp [show isHexDigit '"' = false by decide]
    | cons d written => simp
  constructor
  · intro escapes
    cases escapes with
    | short listed => exact .short listed
    | code some few areHex number stops =>
        rw [ends] at stops
        exact .code some few areHex number stops
  · intro escapes
    cases escapes with
    | short listed => exact .short listed
    | code some few areHex number stops =>
        rw [← ends] at stops
        exact .code some few areHex number stops

theorem Writes.stringBody {value : List Char} (writes : Writes written value) (read : Nat)
    (front back : List Char) :
    stringBody read front (written ++ '"' :: back) =
      .token .string (some (String.ofList (front.reverse ++ value))) (read + written.length + 1) := by
  induction writes generalizing read front with
  | nothing => simp [Query.stringBody]
  | @literal c _ _ printed notQuote notBackslash _ ih =>
      rw [List.cons_append, Query.stringBody, if_neg notQuote, if_neg notBackslash,
        if_neg (by simp [printed]), ih]
      simp [Nat.add_assoc, Nat.add_comm 1]
  | @escape escaped written value c escapes _ ih =>
      have inside : Escapes escaped c (written ++ '"' :: back) := escapes_append_quote_iff.mpr escapes
      have taken := inside.escape
      rw [List.append_assoc, List.cons_append, Query.stringBody, if_neg (by decide), if_pos rfl]
      simp only [taken]
      rw [List.drop_left, ih]
      simp [Nat.add_assoc, Nat.add_comm, Nat.add_left_comm]

theorem writes_of_stringBody {read : Nat} {front characters : List Char}
    (found : stringBody read front characters = .token kind content length) :
    ∃ written value back, characters = written ++ '"' :: back ∧ Writes written value ∧
      kind = .string ∧ content = some (String.ofList (front.reverse ++ value)) ∧
      length = read + written.length + 1 := by
  fun_induction stringBody read front characters with
  | case1 | case4 | case5 => cases found
  | case2 read front rest =>
      cases found
      exact ⟨[], [], rest, rfl, .nothing, rfl, by simp, rfl⟩
  | case3 read front rest width c valid _ ih =>
      obtain ⟨written, value, back, split, writes, rfl, rfl, rfl⟩ := ih found
      obtain ⟨escaped, text, rfl, same, escapes⟩ := escapes_of_escape valid
      have taken : width = escaped.length := same
      rw [taken, List.drop_left] at split
      subst split
      refine ⟨'\\' :: escaped ++ written, c :: value, back, by simp,
        .escape (escapes_append_quote_iff.mp escapes) writes, rfl, by simp, ?_⟩
      rw [taken]
      simp
      omega
  | case6 read front c rest notQuote notBackslash printed ih =>
      obtain ⟨written, value, back, rfl, writes, rfl, rfl, rfl⟩ := ih found
      refine ⟨c :: written, c :: value, back, rfl,
        .literal (by simpa using printed) notQuote notBackslash writes, rfl, by simp, ?_⟩
      simp
      omega

/-!
## Tokens
-/

/-- The characters that are tokens by themselves, however statements are separated. -/
def signs : List (Char × TokenKind) :=
  [('{', .openBrace), ('}', .closeBrace), ('[', .openBracket), (']', .closeBracket), (',', .comma),
    ('=', .assign)]

/-- Which characters stand for a token, given its kind and its text. -/
inductive Spells (separator : Separator) : TokenKind → Option String → List Char → Prop where
  | sign {c : Char} {kind : TokenKind} (listed : (c, kind) ∈ signs) : Spells separator kind none [c]
  | semicolon (accepts : separator.acceptsSemicolon = true) :
      Spells separator .endOfStatement none [';']
  | lineBreak (accepts : separator.acceptsNewline = true) :
      Spells separator .endOfStatement none ['\n']
  | word {first : Char} {rest : List Char} {kind : TokenKind} (letter : first.isAlpha = true)
      (others : ∀ c ∈ rest, isWordCharacter c = true) (isWord : IsWordOf (first :: rest) kind) :
      Spells separator kind (some (String.ofList (first :: rest))) (first :: rest)
  | number {digits : List Char} {value : Int} (isNumeral : IsNumeral digits value) :
      Spells separator .number (some (String.ofList digits)) digits
  | string {written value : List Char} (writes : Writes written value) :
      Spells separator .string (some (String.ofList value)) ('"' :: written ++ ['"'])

theorem isWordCharacter_of_isAlpha (letter : c.isAlpha = true) : isWordCharacter c = true := by
  simp [isWordCharacter, Char.isAlphanum, letter]

theorem isWordCharacter_of_isDigit (digit : c.isDigit = true) : isWordCharacter c = true := by
  simp [isWordCharacter, Char.isAlphanum, digit]

theorem toNat_of_isWordCharacter (within : isWordCharacter c = true) :
    48 ≤ c.toNat ∧ c.toNat ≤ 122 := by
  simp only [isWordCharacter, Char.isAlphanum, Char.isAlpha, Char.isUpper, Char.isLower,
    Char.isDigit, Bool.or_eq_true, Bool.and_eq_true, decide_eq_true_eq, ge_iff_le,
    UInt32.le_iff_toNat_le, Char.toNat_val] at within
  rcases within with ((upper | lower) | digit) | rfl
  · simp at upper
    omega
  · simp at lower
    omega
  · simp at digit
    omega
  · decide

theorem isBlank_of_isWordCharacter (within : isWordCharacter c = true) : isBlank c = false := by
  have bounds := toNat_of_isWordCharacter within
  simp [isBlank]
  omega

theorem not_isDigit_of_isAlpha (letter : c.isAlpha = true) : ¬c.isDigit = true := by
  simp only [Char.isAlpha, Char.isUpper, Char.isLower, Char.isDigit, Bool.or_eq_true,
    decide_eq_true_eq, ge_iff_le, UInt32.le_iff_toNat_le, Char.toNat_val] at letter ⊢
  simp at letter ⊢
  omega

theorem lexeme_of_isAlpha (letter : first.isAlpha = true) :
    lexeme separator first rest = word first rest := by
  have plain := isBlank_of_isWordCharacter (isWordCharacter_of_isAlpha letter)
  fun_cases lexeme separator first rest with
  | case12 => rfl
  | _ => simp_all

theorem lexeme_of_isDigit (digit : first.isDigit = true) :
    lexeme separator first rest = number first rest := by
  have plain := isBlank_of_isWordCharacter (isWordCharacter_of_isDigit digit)
  fun_cases lexeme separator first rest with
  | case13 => rfl
  | case12 _ _ _ _ _ _ _ _ _ _ _ letter => exact absurd digit (not_isDigit_of_isAlpha letter)
  | _ => simp_all

theorem lexeme_of_sign (isSign : first = '+' ∨ first = '-') (digit : c.isDigit = true) :
    lexeme separator first (c :: rest) = number first (c :: rest) := by
  rcases isSign with rfl | rfl <;> simp [lexeme, isBlank, digit]

theorem lexeme_quote (separator : Separator) (rest : List Char) :
    lexeme separator '"' rest = stringBody 1 [] rest := by
  simp [lexeme, isBlank]

theorem word_of_ends (others : ∀ c ∈ rest, isWordCharacter c = true)
    (isWord : IsWordOf (first :: rest) kind) (ends : ∀ c ∈ back.head?, isWordCharacter c = false) :
    word first (rest ++ back) =
      .token kind (some (String.ofList (first :: rest))) (first :: rest).length := by
  rw [word, takeWhile_append_of_ends others ends, isWordOf_iff.mp isWord]

theorem number_of_ends (digits : ∀ c ∈ rest, c.isDigit = true)
    (ends : ∀ c ∈ back.head?, isWordCharacter c = false) :
    number first (rest ++ back) =
      .token .number (some (String.ofList (first :: rest))) (first :: rest).length := by
  have noDigit : ∀ c ∈ back.head?, c.isDigit = false := fun c member =>
    Bool.eq_false_iff.mpr fun digit =>
      Bool.eq_false_iff.mp (ends c member) (isWordCharacter_of_isDigit digit)
  rw [number, takeWhile_append_of_ends digits noDigit, dropWhile_append_of_ends digits noDigit]
  cases back with
  | nil => rfl
  | cons c back =>
      have stops := ends c rfl
      simp only [isWordCharacter, Char.isAlphanum, Bool.or_eq_false_iff] at stops
      simp [stops]

/-- Where a word or a number ends behind a token, the lexer takes that token. -/
theorem Spells.lexeme (spells : Spells separator kind content written)
    (ends : ∀ c ∈ back.head?, isWordCharacter c = false) :
    ∃ first rest, written = first :: rest ∧
      lexeme separator first (rest ++ back) = .token kind content written.length := by
  cases spells with
  | @sign c kind listed =>
      refine ⟨c, [], rfl, ?_⟩
      simp only [signs, List.mem_cons, List.not_mem_nil, or_false, Prod.mk.injEq] at listed
      rcases listed with ⟨rfl, rfl⟩ | ⟨rfl, rfl⟩ | ⟨rfl, rfl⟩ | ⟨rfl, rfl⟩ | ⟨rfl, rfl⟩ |
        ⟨rfl, rfl⟩ <;> simp [Query.lexeme, isBlank]
  | semicolon accepts => exact ⟨';', [], rfl, by simp [Query.lexeme, isBlank, accepts]⟩
  | lineBreak accepts => exact ⟨'\n', [], rfl, by simp [Query.lexeme, accepts]⟩
  | @word first rest _ letter others isWord =>
      refine ⟨first, rest, rfl, ?_⟩
      rw [lexeme_of_isAlpha letter, word_of_ends others isWord ends]
  | number isNumeral =>
      cases isNumeral with
      | @unsigned digits some areDigits =>
          obtain ⟨first, rest, rfl⟩ := List.exists_cons_of_ne_nil some
          obtain ⟨digit, others⟩ := List.forall_mem_cons.mp areDigits
          refine ⟨first, rest, rfl, ?_⟩
          rw [lexeme_of_isDigit digit, number_of_ends others ends]
      | @plus digits some areDigits =>
          obtain ⟨digit, rest, rfl⟩ := List.exists_cons_of_ne_nil some
          refine ⟨'+', digit :: rest, rfl, ?_⟩
          rw [List.cons_append, lexeme_of_sign (.inl rfl) (areDigits digit List.mem_cons_self),
            ← List.cons_append, number_of_ends areDigits ends]
      | @minus digits some areDigits =>
          obtain ⟨digit, rest, rfl⟩ := List.exists_cons_of_ne_nil some
          refine ⟨'-', digit :: rest, rfl, ?_⟩
          rw [List.cons_append, lexeme_of_sign (.inr rfl) (areDigits digit List.mem_cons_self),
            ← List.cons_append, number_of_ends areDigits ends]
  | @string written value writes =>
      refine ⟨'"', written ++ ['"'], rfl, ?_⟩
      rw [List.append_assoc, List.singleton_append, lexeme_quote, writes.stringBody]
      simp
      omega

theorem spells_of_number (found : number first rest = .token kind content length)
    (begins : first.isDigit = true ∨
      (first = '-' ∨ first = '+') ∧ rest.head?.any Char.isDigit = true) :
    ∃ written back, first :: rest = written ++ back ∧ length = written.length ∧
      Spells separator kind content written := by
  have areDigits : ∀ c ∈ rest.takeWhile Char.isDigit, c.isDigit := fun _ => List.mem_takeWhile_imp
  have numeral : ∃ value, IsNumeral (first :: rest.takeWhile Char.isDigit) value := by
    rcases begins with isDigit | ⟨isSign, some⟩
    · exact ⟨_, .unsigned (List.cons_ne_nil _ _) (List.forall_mem_cons.mpr ⟨isDigit, areDigits⟩)⟩
    · have filled : rest.takeWhile Char.isDigit ≠ [] := by
        cases rest with
        | nil => cases some
        | cons c rest => simpa using some
      rcases isSign with rfl | rfl
      · exact ⟨_, .minus filled areDigits⟩
      · exact ⟨_, .plus filled areDigits⟩
  obtain ⟨value, isNumeral⟩ := numeral
  have split : first :: rest =
      first :: rest.takeWhile Char.isDigit ++ rest.dropWhile Char.isDigit := by simp
  unfold number at found
  dsimp only at found
  split at found
  · cases found
    exact ⟨_, _, split, rfl, .number isNumeral⟩
  · split at found
    · cases found
    · cases found
      exact ⟨_, _, split, rfl, .number isNumeral⟩

/-- What the lexer takes for a token stands for that token. -/
theorem spells_of_lexeme (found : lexeme separator first rest = .token kind content length) :
    ∃ written back, first :: rest = written ++ back ∧ length = written.length ∧
      Spells separator kind content written := by
  revert found
  fun_cases lexeme separator first rest with
  | case1 lineBreak =>
      intro found
      cases found
      simp only [Bool.and_eq_true, decide_eq_true_eq] at lineBreak
      obtain ⟨rfl, accepts⟩ := lineBreak
      exact ⟨['\n'], rest, rfl, rfl, .lineBreak accepts⟩
  | case2 | case15 =>
      intro found
      cases found
  | case3 => exact fun found => absurd found comment_ne_token
  | case4 _ _ _ semicolon =>
      intro found
      cases found
      simp only [Bool.and_eq_true, decide_eq_true_eq] at semicolon
      obtain ⟨rfl, accepts⟩ := semicolon
      exact ⟨[';'], rest, rfl, rfl, .semicolon accepts⟩
  | case5 | case6 | case7 | case8 | case9 | case10 =>
      intro found
      cases found
      exact ⟨[first], rest, rfl, rfl, .sign (by simp_all [signs])⟩
  | case11 _ _ _ _ _ _ _ _ _ _ quote =>
      intro found
      obtain ⟨written, value, back, rfl, writes, rfl, rfl, rfl⟩ := writes_of_stringBody found
      subst quote
      refine ⟨'"' :: written ++ ['"'], back, by simp, ?_, .string writes⟩
      simp
      omega
  | case12 _ _ _ _ _ _ _ _ _ _ _ letter =>
      intro found
      cases found
      refine ⟨first :: rest.takeWhile isWordCharacter, rest.dropWhile isWordCharacter, by simp, rfl,
        .word letter (fun _ => List.mem_takeWhile_imp) (isWordOf_iff.mpr rfl)⟩
  | case13 _ _ _ _ _ _ _ _ _ _ _ _ digit => exact fun found => spells_of_number found (.inl digit)
  | case14 _ _ _ _ _ _ _ _ _ _ _ _ _ begins =>
      exact fun found => spells_of_number found (.inr (by simpa using begins))

theorem Spells.ne_nil (spells : Spells separator kind content written) : written ≠ [] := by
  have ends : ∀ c ∈ ([] : List Char).head?, isWordCharacter c = false := by simp
  obtain ⟨_, _, rfl, _⟩ := spells.lexeme ends
  exact List.cons_ne_nil _ _

theorem Spells.ne_endOfText (spells : Spells separator kind content written) : kind ≠ .endOfText := by
  rintro rfl
  cases spells with
  | sign listed => simp [signs] at listed
  | word _ _ isWord =>
      cases isWord with
      | keyword listed _ => simp [keywords] at listed

/-- A token is read where it stands, and what is behind it is left. -/
theorem Spells.nextToken (spells : Spells separator kind content written)
    (ends : ∀ c ∈ back.head?, isWordCharacter c = false) (position : Position) :
    Cursor.nextToken separator ⟨written ++ back, position⟩ =
      (.ok ⟨kind, content, position⟩, ⟨back, written.foldl Position.after position⟩) := by
  obtain ⟨first, rest, rfl, found⟩ := spells.lexeme ends
  rw [List.cons_append, Cursor.nextToken, found]
  simp only [Cursor.advance, Cursor.positionAt, ← List.cons_append, List.drop_left, List.take_left]

end GraphStore.Query
