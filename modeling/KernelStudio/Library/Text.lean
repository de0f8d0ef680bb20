/-
This file gives text as a list of characters: occurrences of a pattern, lines, white space and decimals.
A reader of lines that looks past white space does not notice that the whole text was stripped.
-/

import Mathlib.Data.List.DropRight
import Mathlib.Data.List.Infix

namespace KernelStudio

/-- A text is a list of characters. -/
abbrev Text := List Char

namespace Text

/-- This test tries the pattern at each position of the text. -/
def occurs (pattern : Text) : Text → Bool
  | [] => pattern.isEmpty
  | c :: rest => pattern.isPrefixOf (c :: rest) || occurs pattern rest

theorem occurs_iff {pattern text : Text} : occurs pattern text = true ↔ pattern <:+: text := by
  induction text with
  | nil => simp [occurs]
  | cons c rest ih => simp [occurs, ih, List.infix_cons_iff]

theorem occurs_eq_false_iff {pattern text : Text} : occurs pattern text = false ↔ ¬ pattern <:+: text := by
  rw [← occurs_iff, Bool.not_eq_true]

/-- A pattern without the separator starts in front of it and ends there too. -/
theorem prefix_of_not_mem {pattern before after : Text} {separator : Char}
    (starts : pattern <+: before ++ separator :: after) (absent : separator ∉ pattern) : pattern <+: before := by
  rcases Nat.le_total pattern.length before.length with short | long
  · exact List.prefix_of_prefix_length_le starts (List.prefix_append _ _) short
  · obtain ⟨rest, rfl⟩ := List.prefix_of_prefix_length_le (List.prefix_append _ _) starts long
    cases rest with
    | nil => simp
    | cons c rest =>
        rw [List.prefix_append_right_inj, List.cons_prefix_cons] at starts
        simp [starts.1] at absent

/-- A pattern without the separator lies on one side of it. -/
theorem infix_append_cons {pattern before after : Text} {separator : Char}
    (inside : pattern <:+: before ++ separator :: after) (absent : separator ∉ pattern) :
    pattern <:+: before ∨ pattern <:+: after := by
  induction before with
  | nil =>
      rcases List.infix_cons_iff.mp inside with starts | later
      · exact .inl (@prefix_of_not_mem _ [] _ _ starts absent).isInfix
      · exact .inr later
  | cons c rest ih =>
      rcases List.infix_cons_iff.mp inside with starts | later
      · exact .inl (prefix_of_not_mem starts absent).isInfix
      · rcases ih later with front | back
        · exact .inl (List.infix_cons front)
        · exact .inr back

/-- A pattern that shares no character with the end of a text lies in front of it. -/
theorem infix_of_infix_append {pattern front back : Text} (inside : pattern <:+: front ++ back)
    (nonempty : pattern ≠ []) (apart : ∀ c ∈ back, c ∉ pattern) : pattern <:+: front := by
  induction back generalizing front with
  | nil => simpa using inside
  | cons c rest ih =>
      rcases infix_append_cons inside (apart c List.mem_cons_self) with before | behind
      · exact before
      · obtain ⟨d, known⟩ := List.exists_mem_of_ne_nil _ nonempty
        exact absurd known (apart d (List.mem_cons_of_mem _ (behind.subset known)))

/-- The characters of joined parts come from a part or from the gap. -/
theorem mem_intercalate {c : Char} {gap : Text} {parts : List Text} (known : c ∈ gap.intercalate parts) :
    c ∈ gap ∨ ∃ part ∈ parts, c ∈ part := by
  induction parts with
  | nil => simp at known
  | cons part rest ih =>
      by_cases last : rest = []
      · subst last
        exact .inr ⟨part, List.mem_cons_self, by simpa using known⟩
      · rw [List.intercalate_cons_of_ne_nil last, List.mem_append, List.mem_append] at known
        rcases known with (here | between) | later
        · exact .inr ⟨part, List.mem_cons_self, here⟩
        · exact .inl between
        · exact (ih later).imp_right fun ⟨other, listed, inside⟩ => ⟨other, List.mem_cons_of_mem _ listed, inside⟩

/-- The characters that `str.strip` removes. -/
def isSpace (c : Char) : Bool :=
  (9 ≤ c.toNat && c.toNat ≤ 13) || (28 ≤ c.toNat && c.toNat ≤ 32) || c.toNat = 0x85 || c.toNat = 0xa0 ||
    c.toNat = 0x1680 || (0x2000 ≤ c.toNat && c.toNat ≤ 0x200a) || c.toNat = 0x2028 || c.toNat = 0x2029 ||
    c.toNat = 0x202f || c.toNat = 0x205f || c.toNat = 0x3000

/-- This function removes the white space at the end of a text. -/
def rstrip (text : Text) : Text := text.rdropWhile isSpace

/-- This function removes the white space at both ends of a text. -/
def strip (text : Text) : Text := (rstrip text).dropWhile isSpace

/-- The lines of a text. -/
def lines (text : Text) : List Text := text.splitOn '\n'

/-- This function ends each line with a line break. -/
def unlines (content : List Text) : Text := content.flatMap (· ++ ['\n'])

theorem lines_unlines_append {content : List Text} {last : Text} (single : ∀ line ∈ content, '\n' ∉ line)
    (rest : '\n' ∉ last) : lines (unlines content ++ last) = content ++ [last] := by
  induction content with
  | nil => exact List.splitOn_eq_singleton rest
  | cons line later ih =>
      have tail := ih fun other known => single other (List.mem_cons_of_mem _ known)
      unfold lines unlines at tail ⊢
      simp only [List.flatMap_cons, List.append_assoc, List.cons_append, List.nil_append]
      rw [List.splitOn_append_cons_self_of_not_mem (single line List.mem_cons_self), tail]

theorem rstrip_append (front back : Text) :
    rstrip (front ++ back) = if rstrip back = [] then rstrip front else front ++ rstrip back := by
  unfold rstrip List.rdropWhile
  rw [List.reverse_append, List.dropWhile_append]
  by_cases blank : List.dropWhile isSpace back.reverse = []
  · simp [blank]
  · simp [blank]

theorem rstrip_newline (line : Text) : rstrip (line ++ ['\n']) = rstrip line := by
  rw [rstrip_append, if_pos (by decide)]

theorem not_mem_rstrip {c : Char} {line : Text} (absent : c ∉ line) : c ∉ rstrip line :=
  fun known => absent ((List.rdropWhile_prefix isSpace line).subset known)

/-- A text is its stripped form and white space behind it. -/
theorem exists_rstrip_append (text : Text) : ∃ back, text = rstrip text ++ back ∧ ∀ c ∈ back, isSpace c = true := by
  exact ⟨text.rtakeWhile isSpace, List.rdropWhile_append_rtakeWhile.symm,
    fun c known => List.mem_rtakeWhile_imp known⟩

/-- A pattern without white space occurs in the stripped text as well. -/
theorem occurs_rstrip (pattern : Text) (nonempty : pattern ≠ []) (solid : pattern.any isSpace = false)
    (text : Text) : occurs pattern (rstrip text) = occurs pattern text := by
  obtain ⟨back, split, blank⟩ := exists_rstrip_append text
  rw [Bool.eq_iff_iff, occurs_iff, occurs_iff]
  refine ⟨fun inside => inside.trans (List.rdropWhile_prefix isSpace text).isInfix, fun inside => ?_⟩
  rw [split] at inside
  refine infix_of_infix_append inside nonempty fun c known listed => ?_
  exact List.any_eq_false.mp solid c listed (blank c known)

/-- White space in front of a text does not make or hide an occurrence. -/
theorem occurs_cons {first c : Char} {pattern : Text} (different : c ≠ first) (text : Text) :
    occurs (first :: pattern) (c :: text) = occurs (first :: pattern) text := by
  simp [occurs, different.symm]

/-- A reader of lines looks past the white space in front of its text. -/
structure SpaceBlind {α : Type} (entry : Text → Option α) : Prop where
  nil : entry [] = none
  cons : ∀ c line, isSpace c = true → entry (c :: line) = entry line
  rstrip : ∀ line, entry line = none → entry (Text.rstrip line) = none

variable {α : Type} {entry : Text → Option α}

/-- The white space in front of a text does not change what such a reader finds. -/
theorem SpaceBlind.dropWhile (blind : SpaceBlind entry) (text : Text) :
    (lines (text.dropWhile isSpace)).filterMap entry = (lines text).filterMap entry := by
  induction text with
  | nil => rfl
  | cons c rest ih =>
      by_cases space : isSpace c = true
      · rw [List.dropWhile_cons_of_pos space, ih, lines, lines, List.splitOn_cons_eq_if_modifyHead]
        split
        · rw [List.filterMap_cons_none blind.nil]
        · obtain ⟨head, tail, split⟩ := List.exists_cons_of_ne_nil (List.splitOn_ne_nil '\n' rest)
          rw [split, List.modifyHead_cons, List.filterMap_cons, List.filterMap_cons, blind.cons c head space]
      · rw [List.dropWhile_cons_of_neg space]

/-- The white space behind a text does not change what such a reader finds, unless a line that it reads
ends with white space. -/
theorem SpaceBlind.rstrip_unlines (blind : SpaceBlind entry) {content : List Text}
    (single : ∀ line ∈ content, '\n' ∉ line)
    (tight : ∀ line ∈ content, entry line = none ∨ Text.rstrip line = line) :
    (lines (Text.rstrip (unlines content))).filterMap entry = content.filterMap entry := by
  induction content using List.reverseRecOn with
  | nil => simp [unlines, Text.rstrip, lines, blind.nil]
  | append_singleton front line ih =>
      have earlier := ih (fun other known => single other (List.mem_append_left _ known))
        fun other known => tight other (List.mem_append_left _ known)
      have last : line ∈ front ++ [line] := by simp
      have same : entry (Text.rstrip line) = entry line := by
        rcases tight line last with none | exact
        · rw [none, blind.rstrip line none]
        · rw [exact]
      have text : unlines (front ++ [line]) = unlines front ++ (line ++ ['\n']) := by simp [unlines]
      rw [text, rstrip_append, rstrip_newline, List.filterMap_append]
      split
      next blank =>
        have unread : entry line = none := by rw [← same, blank, blind.nil]
        rw [earlier, List.filterMap_cons_none unread, List.filterMap_nil, List.append_nil]
      next =>
        rw [lines_unlines_append (fun other known => single other (List.mem_append_left _ known))
          (not_mem_rstrip (single line last)), List.filterMap_append, List.filterMap_cons, List.filterMap_cons, same]

/-- Such a reader finds the same in the lines of the stripped text. -/
theorem SpaceBlind.strip_unlines (blind : SpaceBlind entry) {content : List Text}
    (single : ∀ line ∈ content, '\n' ∉ line)
    (tight : ∀ line ∈ content, entry line = none ∨ Text.rstrip line = line) :
    (lines (strip (unlines content))).filterMap entry = content.filterMap entry := by
  rw [strip, blind.dropWhile, blind.rstrip_unlines single tight]

/-- The decimal digits of a number. -/
def decimal (value : Nat) : Text := Nat.toDigits 10 value

theorem decimal_ne_nil (value : Nat) : decimal value ≠ [] := Nat.toDigits_ne_nil

theorem isDigit_of_mem_decimal {c : Char} {value : Nat} (known : c ∈ decimal value) : c.isDigit = true :=
  Nat.isDigit_of_mem_toDigits (by decide) (by decide) known

theorem not_mem_decimal {c : Char} (other : c.isDigit = false) (value : Nat) : c ∉ decimal value := by
  intro known
  rw [isDigit_of_mem_decimal known] at other
  contradiction

/-- Only zero starts with the digit zero. -/
theorem decimal_head {value : Nat} (positive : 0 < value) : (decimal value).head? ≠ some '0' := by
  induction value using Nat.strong_induction_on with
  | _ value ih =>
      by_cases small : value < 10
      · have digits : ∀ digit < 10, 0 < digit → [digit.digitChar].head? ≠ some '0' := by decide
        rw [decimal, Nat.toDigits_of_lt_base small]
        exact digits value small positive
      · rw [decimal, Nat.toDigits_of_base_le (by decide) (Nat.le_of_not_lt small),
          List.head?_append_of_ne_nil _ Nat.toDigits_ne_nil]
        exact ih (value / 10) (by omega) (by omega)

end Text

end KernelStudio
