/-
This file reads arrays of designated initialisers as C does, and prints blocks of designators.
The reader covers declarations without comments, and it skips the lines of the preprocessor.
-/

import KernelStudio.Library.Text

namespace KernelStudio.Initialiser

/-- The tokens of a declaration. -/
inductive Token where
  | word (text : Text)
  | dot
  | comma
  | equals
  | lbrace
  | rbrace
  | other (c : Char)
  deriving DecidableEq

/-- Words are identifiers, keywords and numbers. -/
def isWordChar (c : Char) : Bool := c.isAlphanum || c = '_'

/-- The token of a character outside words. White space has none. -/
def punctuation (c : Char) : Option Token :=
  if c = '.' then some .dot else if c = ',' then some .comma else if c = '=' then some .equals
  else if c = '\x7b' then some .lbrace else if c = '\x7d' then some .rbrace
  else if c = ' ' || 9 ≤ c.toNat && c.toNat ≤ 13 then none else some (.other c)

/-- The lexer holds the finished tokens, the current word and whether it is on a preprocessor line. -/
structure Lexer where
  tokens : List Token := []
  word : Text := []
  directive : Bool := false
  deriving DecidableEq

namespace Lexer

/-- The end of a word. -/
def flush (lexer : Lexer) : Lexer :=
  if lexer.word = [] then lexer else { lexer with tokens := lexer.tokens ++ [.word lexer.word], word := [] }

/-- One character. -/
def read (lexer : Lexer) (c : Char) : Lexer :=
  if lexer.directive then { lexer with directive := c ≠ '\n' }
  else if isWordChar c then { lexer with word := lexer.word ++ [c] }
  else if c = '#' then { lexer.flush with directive := true }
  else { lexer.flush with tokens := lexer.flush.tokens ++ (punctuation c).toList }

end Lexer

/-- The tokens of a text. -/
def lex (text : Text) : List Token := (text.foldl Lexer.read {}).flush.tokens

/-- A number is octal if it starts with zero, and decimal otherwise. -/
def number (word : Text) : Option Nat :=
  if word.head? = some '0' then
    if word.all fun c => '0' ≤ c && c ≤ '7' then some (Nat.ofDigitChars 8 word 0) else none
  else if word ≠ [] ∧ word.all Char.isDigit then some (Nat.ofDigitChars 10 word 0) else none

/-- A designator names a member and gives its value. -/
abbrev Designator := Text × Nat

/-- What the parser of an array expects next. -/
inductive Expect where
  | entry
  | designator (block : List Designator)
  | separator

/-- This parser reads the blocks of an array up to its end. -/
def blocks : Expect → List Token → Option (List (List Designator))
  | .entry, .rbrace :: .other ';' :: _ => some []
  | .entry, .lbrace :: rest => blocks (.designator []) rest
  | .designator block, .dot :: .word name :: .equals :: .word value :: .comma :: rest =>
      (number value).bind fun value => blocks (.designator (block ++ [(name, value)])) rest
  | .designator block, .dot :: .word name :: .equals :: .word value :: .rbrace :: rest =>
      (number value).bind fun value => (blocks .separator rest).map ((block ++ [(name, value)]) :: ·)
  | .designator block, .rbrace :: rest => (blocks .separator rest).map (block :: ·)
  | .separator, .comma :: rest => blocks .entry rest
  | .separator, .rbrace :: .other ';' :: _ => some []
  | _, _ => none

/-- This function finds the tokens behind the first occurrence of a pattern. -/
def after (pattern : List Token) : List Token → Option (List Token)
  | [] => none
  | token :: rest =>
      if pattern <+: token :: rest then some ((token :: rest).drop pattern.length) else after pattern rest

/-- The declarator of an array of structures with an initialiser. -/
def declarator (tag name : Text) : List Token :=
  [.word "struct".toList, .word tag, .word name, .other '[', .other ']', .equals, .lbrace]

/-- The blocks of the array of the given type and name. -/
def array (tag name : Text) (tokens : List Token) : Option (List (List Designator)) :=
  (after (declarator tag name) tokens).bind (blocks .entry)

/-- The printed form of a designator. -/
def designator (field : Designator) : Text := '.' :: field.1 ++ " = ".toList ++ Text.decimal field.2

/-- The printed form of a block. -/
def block (fields : List Designator) : Text :=
  '\x7b' :: (", ".toList.intercalate (fields.map designator)) ++ ['\x7d']

/-- The tokens of the designators of a block and of its end. -/
def designatorTokens : List Designator → List Token
  | [] => [.rbrace]
  | [(name, value)] => [.dot, .word name, .equals, .word (Text.decimal value), .rbrace]
  | (name, value) :: rest =>
      .dot :: .word name :: .equals :: .word (Text.decimal value) :: .comma :: designatorTokens rest

/-- The printed form of an entry of an array. -/
def entry (fields : List Designator) : Text := "\n\t".toList ++ block fields ++ [',']

/-- The tokens of an entry of an array. -/
def entryTokens (fields : List Designator) : List Token := .lbrace :: designatorTokens fields ++ [.comma]

/-- A member name is a word. -/
def IsName (name : Text) : Prop := name ≠ [] ∧ name.all isWordChar = true

instance (name : Text) : Decidable (IsName name) := inferInstanceAs (Decidable (_ ∧ _))

/-- A block consists of marks, names and digits. -/
theorem not_mem_block {c : Char} {fields : List Designator} (digit : c.isDigit = false)
    (marks : c ∉ "\x7b.=, \x7d".toList) (names : ∀ field ∈ fields, c ∉ field.1) : c ∉ block fields := by
  have split : "\x7b.=, \x7d".toList = ['\x7b', '.', '=', ',', ' ', '\x7d'] := by decide
  have gap : ", ".toList = [',', ' '] := by decide
  have sign : " = ".toList = [' ', '=', ' '] := by decide
  simp only [split, List.mem_cons, List.not_mem_nil, or_false, not_or] at marks
  intro known
  simp only [block, List.mem_cons, List.mem_append, List.not_mem_nil, or_false] at known
  rcases known with (first | inside) | last
  · exact marks.1 first
  · rcases Text.mem_intercalate inside with between | ⟨part, listed, here⟩
    · simp [gap, marks] at between
    · obtain ⟨field, member, rfl⟩ := List.mem_map.mp listed
      simp only [designator, sign, List.mem_cons, List.mem_append, List.not_mem_nil, or_false] at here
      rcases here with ((dot | name) | equals) | value
      · exact marks.2.1 dot
      · exact names field member name
      · simp [marks] at equals
      · exact Text.not_mem_decimal digit _ value
  · exact marks.2.2.2.2.2 last

/-- The words of a block are its names and its digits. -/
theorem word_mem_designatorTokens {word : Text} {fields : List Designator}
    (known : .word word ∈ designatorTokens fields) :
    (∃ field ∈ fields, word = field.1) ∨ ∃ value, word = Text.decimal value := by
  induction fields using designatorTokens.induct with
  | case1 => simp [designatorTokens] at known
  | case2 name value =>
      simp only [designatorTokens, List.mem_cons, Token.word.injEq, reduceCtorEq, List.not_mem_nil, false_or,
        or_false] at known
      rcases known with same | digits
      · exact .inl ⟨_, List.mem_cons_self, same⟩
      · exact .inr ⟨value, digits⟩
  | case3 name value rest more ih =>
      rw [designatorTokens] at known
      · simp only [List.mem_cons, Token.word.injEq, reduceCtorEq, false_or] at known
        rcases known with same | digits | later
        · exact .inl ⟨_, List.mem_cons_self, same⟩
        · exact .inr ⟨value, digits⟩
        · exact (ih later).imp_left fun ⟨field, listed, same⟩ => ⟨field, List.mem_cons_of_mem _ listed, same⟩
      · exact more

/-- The words of the entries of an array are names and digits. -/
theorem word_mem_entryTokens {word : Text} {content : List (List Designator)}
    (known : .word word ∈ content.flatMap entryTokens) :
    (∃ fields ∈ content, ∃ field ∈ fields, word = field.1) ∨ ∃ value, word = Text.decimal value := by
  obtain ⟨fields, listed, inside⟩ := List.mem_flatMap.mp known
  simp only [entryTokens, List.mem_append, List.mem_cons, reduceCtorEq, List.not_mem_nil, false_or,
    or_false] at inside
  exact (word_mem_designatorTokens inside).imp_left fun found => ⟨fields, listed, found⟩

namespace Lexer

variable {tokens earlier : List Token} {word : Text}

/-- Finished tokens do not influence the lexer. -/
theorem foldl_tokens (text : Text) (lexer : Lexer) :
    text.foldl read { lexer with tokens := earlier ++ lexer.tokens } =
      { text.foldl read lexer with tokens := earlier ++ (text.foldl read lexer).tokens } := by
  induction text generalizing lexer with
  | nil => rfl
  | cons c rest ih =>
      have step : read { lexer with tokens := earlier ++ lexer.tokens } c =
          { read lexer c with tokens := earlier ++ (read lexer c).tokens } := by
        simp only [read, flush]
        split_ifs <;> simp
      rw [List.foldl_cons, step, ih, List.foldl_cons]

/-- A text that ends outside a word adds the tokens that it has by itself. -/
theorem foldl_closed {text : Text} {found : List Token} (closed : text.foldl read {} = ⟨found, [], false⟩) :
    text.foldl read ⟨tokens, [], false⟩ = ⟨tokens ++ found, [], false⟩ := by
  have shifted := @foldl_tokens tokens text {}
  rw [closed] at shifted
  simpa using shifted

/-- The characters of a word are collected. -/
theorem foldl_word {text : Text} (wordChars : ∀ c ∈ text, isWordChar c = true) :
    text.foldl read ⟨tokens, word, false⟩ = ⟨tokens, word ++ text, false⟩ := by
  induction text generalizing word with
  | nil => simp
  | cons c rest ih =>
      have step : read ⟨tokens, word, false⟩ c = ⟨tokens, word ++ [c], false⟩ := by
        simp [read, wordChars c List.mem_cons_self]
      rw [List.foldl_cons, step, ih fun other known => wordChars other (List.mem_cons_of_mem _ known)]
      simp

/-- A mark is a character outside words, with its token if it has one. -/
structure Mark (c : Char) (token : Option Token) : Prop where
  outside : isWordChar c = false
  plain : c ≠ '#'
  token : punctuation c = token

instance (c : Char) (token : Option Token) : Decidable (Mark c token) :=
  decidable_of_iff (isWordChar c = false ∧ c ≠ '#' ∧ punctuation c = token)
    ⟨fun ⟨outside, plain, token⟩ => ⟨outside, plain, token⟩, fun mark => ⟨mark.outside, mark.plain, mark.token⟩⟩

/-- A mark ends the word in front of it. -/
theorem read_mark {c : Char} {token : Option Token} (mark : Mark c token) (present : word ≠ []) :
    read ⟨tokens, word, false⟩ c = ⟨tokens ++ .word word :: token.toList, [], false⟩ := by
  simp [read, flush, mark.outside, mark.plain, mark.token, present]

theorem read_mark_nil {c : Char} {token : Option Token} (mark : Mark c token) :
    read ⟨tokens, [], false⟩ c = ⟨tokens ++ token.toList, [], false⟩ := by
  simp [read, flush, mark.outside, mark.plain, mark.token]

theorem mark_blank : Mark ' ' none ∧ Mark '\n' none ∧ Mark '\t' none := by decide

theorem mark_dot : Mark '.' (some .dot) := by decide

theorem mark_comma : Mark ',' (some .comma) := by decide

theorem mark_equals : Mark '=' (some .equals) := by decide

theorem mark_braces : Mark '\x7b' (some .lbrace) ∧ Mark '\x7d' (some .rbrace) := by decide

theorem isWordChar_of_mem_decimal {c : Char} {value : Nat} (known : c ∈ Text.decimal value) :
    isWordChar c = true := by
  simp [isWordChar, Char.isAlphanum, Text.isDigit_of_mem_decimal known]

/-- The lexer reads a designator up to its value. -/
theorem foldl_designator {field : Designator} (name : IsName field.1) :
    (designator field).foldl read ⟨tokens, [], false⟩ =
      ⟨tokens ++ [.dot, .word field.1, .equals], Text.decimal field.2, false⟩ := by
  have marks : " = ".toList = [' ', '=', ' '] := by decide
  simp only [designator, marks, List.foldl_append, List.foldl_cons, List.cons_append, List.foldl_nil]
  rw [read_mark_nil mark_dot, foldl_word (List.all_eq_true.mp name.2), List.nil_append, read_mark mark_blank.1 name.1,
    read_mark_nil mark_equals, read_mark_nil mark_blank.1,
    foldl_word fun c known => isWordChar_of_mem_decimal known]
  simp

/-- The lexer reads the designators of a block and its end. -/
theorem foldl_designators {fields : List Designator} (names : ∀ field ∈ fields, IsName field.1) :
    (", ".toList.intercalate (fields.map designator) ++ ['\x7d']).foldl read ⟨tokens, [], false⟩ =
      ⟨tokens ++ designatorTokens fields, [], false⟩ := by
  have gap : ", ".toList = [',', ' '] := by decide
  induction fields using designatorTokens.induct generalizing tokens with
  | case1 => exact read_mark_nil mark_braces.2
  | case2 name value =>
      simp only [List.map_cons, List.map_nil, List.intercalate_singleton, List.foldl_append, List.foldl_cons,
        List.foldl_nil]
      rw [foldl_designator (names _ List.mem_cons_self), read_mark mark_braces.2 (Text.decimal_ne_nil _)]
      simp [designatorTokens]
  | case3 name value rest more ih =>
      have later := @ih (tokens ++ [.dot, .word name, .equals, .word (Text.decimal value), .comma])
        fun field known => names field (List.mem_cons_of_mem _ known)
      have nonempty : rest.map designator ≠ [] := by simpa using more
      have front : (designator (name, value) ++ ", ".toList).foldl read ⟨tokens, [], false⟩ =
          ⟨tokens ++ [.dot, .word name, .equals, .word (Text.decimal value), .comma], [], false⟩ := by
        rw [List.foldl_append, foldl_designator (names _ List.mem_cons_self), gap, List.foldl_cons, List.foldl_cons,
          List.foldl_nil, read_mark mark_comma (Text.decimal_ne_nil _), read_mark_nil mark_blank.1]
        simp
      rw [List.map_cons, List.intercalate_cons_of_ne_nil nonempty, List.append_assoc, List.append_assoc,
        ← List.append_assoc (designator _), List.foldl_append, front, later, designatorTokens]
      · simp
      · exact more

/-- The lexer reads an entry of an array. -/
theorem foldl_entry {fields : List Designator} (names : ∀ field ∈ fields, IsName field.1) :
    (entry fields).foldl read ⟨tokens, [], false⟩ = ⟨tokens ++ entryTokens fields, [], false⟩ := by
  have gap : "\n\t".toList = ['\n', '\t'] := by decide
  have front : ['\n', '\t', '\x7b'].foldl read ⟨tokens, [], false⟩ = ⟨tokens ++ [.lbrace], [], false⟩ := by
    rw [List.foldl_cons, List.foldl_cons, List.foldl_cons, List.foldl_nil, read_mark_nil mark_blank.2.1,
      read_mark_nil mark_blank.2.2, read_mark_nil mark_braces.1]
    simp
  have text : entry fields = ['\n', '\t', '\x7b'] ++
      (", ".toList.intercalate (fields.map designator) ++ ['\x7d']) ++ [','] := by
    rw [entry, block, gap]
    rfl
  rw [text, List.foldl_append, List.foldl_append, front, foldl_designators names, List.foldl_cons, List.foldl_nil,
    read_mark_nil mark_comma]
  simp [entryTokens]

/-- The lexer reads the entries of an array. -/
theorem foldl_entries {content : List (List Designator)}
    (names : ∀ fields ∈ content, ∀ field ∈ fields, IsName field.1) :
    (content.flatMap entry).foldl read ⟨tokens, [], false⟩ = ⟨tokens ++ content.flatMap entryTokens, [], false⟩ := by
  induction content generalizing tokens with
  | nil => simp
  | cons fields rest ih =>
      rw [List.flatMap_cons, List.flatMap_cons, List.foldl_append, foldl_entry (names fields List.mem_cons_self),
        ih fun other known => names other (List.mem_cons_of_mem _ known), List.append_assoc]

end Lexer

/-- The number behind printed digits is the printed value. -/
theorem number_decimal (value : Nat) : number (Text.decimal value) = some value := by
  have digits : (Text.decimal value).all Char.isDigit = true :=
    List.all_eq_true.mpr fun c known => Text.isDigit_of_mem_decimal known
  have read : Nat.ofDigitChars 10 (Text.decimal value) 0 = value := Nat.ofDigitChars_ten_toDigits
  unfold number
  rcases Nat.eq_zero_or_pos value with rfl | positive
  · decide
  · rw [if_neg (Text.decimal_head positive), if_pos ⟨Text.decimal_ne_nil value, digits⟩, read]

/-- The parser reads the printed designators of a block. -/
theorem blocks_designators (block fields : List Designator) (rest : List Token) :
    blocks (.designator block) (designatorTokens fields ++ rest) =
      (blocks .separator rest).map ((block ++ fields) :: ·) := by
  induction fields using designatorTokens.induct generalizing block with
  | case1 => simp [designatorTokens, blocks]
  | case2 name value => simp [designatorTokens, blocks, number_decimal]
  | case3 name value later more ih =>
      rw [designatorTokens]
      · simp [blocks, number_decimal, ih]
      · exact more

theorem blocks_entry (fields : List Designator) (rest : List Token) :
    blocks .entry (entryTokens fields ++ rest) = (blocks .entry rest).map (fields :: ·) := by
  have read := blocks_designators [] fields (.comma :: rest)
  rw [List.nil_append] at read
  rw [entryTokens, List.append_assoc, List.cons_append, List.singleton_append, blocks, read, blocks]

/-- The parser reads the printed entries of an array. -/
theorem blocks_entries (content : List (List Designator)) (rest : List Token) :
    blocks .entry (content.flatMap entryTokens ++ .rbrace :: .other ';' :: rest) = some content := by
  induction content with
  | nil => simp [blocks]
  | cons fields later ih => rw [List.flatMap_cons, List.append_assoc, blocks_entry, ih, Option.map_some]

/-- Where the pattern can begin inside the front only if it lies in it, an absent front is skipped. -/
theorem after_append_of_none {pattern front rest : List Token} (absent : after pattern front = none)
    (apart : ∀ tail ∈ front.tails, tail <+: pattern → tail = []) :
    after pattern (front ++ rest) = after pattern rest := by
  induction front with
  | nil => rfl
  | cons token front ih =>
      rw [List.tails_cons, List.forall_mem_cons] at apart
      rw [after] at absent
      split at absent
      next => contradiction
      next other =>
        rw [List.cons_append, after, if_neg, ih absent apart.2]
        intro starts
        rcases List.prefix_or_prefix_of_prefix starts (List.prefix_append (token :: front) rest) with inside | longer
        · exact other inside
        · exact List.cons_ne_nil _ _ (apart.1 longer)

/-- A front without the first token of the pattern is skipped. -/
theorem after_append_of_not_mem {token : Token} {pattern front rest : List Token} (absent : token ∉ front) :
    after (token :: pattern) (front ++ rest) = after (token :: pattern) rest := by
  induction front with
  | nil => rfl
  | cons first front ih =>
      rw [List.cons_append, after, if_neg, ih fun known => absent (List.mem_cons_of_mem _ known)]
      intro starts
      exact absent ((List.cons_prefix_cons.mp starts).1 ▸ List.mem_cons_self)

theorem after_length {pattern tokens found : List Token} (success : after pattern tokens = some found) :
    pattern.length ≤ tokens.length := by
  induction tokens with
  | nil => contradiction
  | cons token rest ih =>
      rw [after] at success
      split at success
      next starts => exact starts.length_le
      next => exact Nat.le_succ_of_le (ih success)

/-- The first occurrence is found when more tokens follow. -/
theorem after_append_of_some {pattern front found : List Token} (rest : List Token)
    (success : after pattern front = some found) : after pattern (front ++ rest) = some (found ++ rest) := by
  induction front with
  | nil => contradiction
  | cons token front ih =>
      rw [after] at success
      split at success
      next starts =>
        have longer : pattern <+: token :: (front ++ rest) := starts.trans (List.prefix_append (token :: front) rest)
        rw [List.cons_append, after, if_pos longer, ← Option.some.inj success, ← List.cons_append,
          List.drop_append_of_le_length starts.length_le]
      next other =>
        have short : pattern.length ≤ (token :: front).length := Nat.le_succ_of_le (after_length success)
        rw [List.cons_append, after, if_neg, ih success]
        exact fun starts => other
          (List.prefix_of_prefix_length_le starts (List.prefix_append (token :: front) rest) short)

end KernelStudio.Initialiser
