/-
This file gives messages in frames of a fixed size, padded with zeros, and a reader that takes the text at
the start of each chunk of the stream. It tells for which chunks the reader finds the messages.
-/

import Mathlib.Data.List.Basic
import Mathlib.Tactic.Common

namespace KernelStudio.Framing

variable {α : Type} [DecidableEq α] (zero : α) (size : Nat)

/-- The text at the start of a chunk. -/
def text (chunk : List α) : List α := chunk.takeWhile (· ≠ zero)

/-- The texts of the chunks, without the empty ones. -/
def texts (chunks : List (List α)) : List (List α) := (chunks.map (text zero)).filter (· ≠ [])

/-- The frame of a message. -/
def frame (message : List α) : List α := message ++ List.replicate (size - message.length) zero

/-- The number of symbols that are not padding. -/
def load (stream : List α) : Nat := stream.countP (· ≠ zero)

/-- The chunks of one frame, the first of which holds the whole message. -/
structure Covers (message : List α) (group : List (List α)) : Prop where
  nonempty : message ≠ []
  whole : group.flatten = frame zero size message
  first : ∃ chunk rest, group = chunk :: rest ∧ message.length ≤ chunk.length

/-- The chunks fall into groups, one for each message. -/
def Aligned (messages : List (List α)) (chunks : List (List α)) : Prop :=
  ∃ groups, chunks = groups.flatten ∧ List.Forall₂ (Covers zero size) messages groups

variable {zero size}

@[simp] theorem texts_nil : texts zero [] = [] := rfl

@[simp] theorem texts_append (front back : List (List α)) :
    texts zero (front ++ back) = texts zero front ++ texts zero back := by
  simp [texts]

theorem texts_cons (chunk : List α) (rest : List (List α)) :
    texts zero (chunk :: rest) = (if text zero chunk = [] then [] else [text zero chunk]) ++ texts zero rest := by
  by_cases empty : text zero chunk = [] <;> simp [texts, empty]

@[simp] theorem load_append (front back : List α) : load zero (front ++ back) = load zero front + load zero back :=
  List.countP_append

@[simp] theorem load_replicate (count : Nat) : load zero (List.replicate count zero) = 0 := by
  simp [load, List.countP_replicate]

/-- A text without zeros is its own load. -/
theorem load_of_notMem {message : List α} (plain : zero ∉ message) : load zero message = message.length :=
  List.countP_eq_length.mpr fun symbol known => by
    simpa using fun same : symbol = zero => plain (same ▸ known)

/-- The reader takes symbols that are not padding. -/
theorem length_text_le_load (chunk : List α) : (text zero chunk).length ≤ load zero chunk := by
  unfold text load
  induction chunk with
  | nil => simp
  | cons symbol rest ih =>
      by_cases same : symbol = zero
      · simp [same]
      · simpa [same] using ih

/-- All texts together are no longer than the load of the stream. -/
theorem length_texts_le_load (chunks : List (List α)) :
    (texts zero chunks).flatten.length ≤ load zero chunks.flatten := by
  induction chunks with
  | nil => simp [load]
  | cons chunk rest ih =>
      have head : (text zero chunk).length ≤ load zero chunk := length_text_le_load chunk
      rw [texts_cons, List.flatten_append, List.length_append, List.flatten_cons, load_append]
      split
      · simpa using Nat.le_add_left_of_le ih
      · simpa using Nat.add_le_add head ih

/-- A chunk that starts with the padding has no text. -/
@[simp] theorem text_zero_cons (rest : List α) : text zero (zero :: rest) = [] := by simp [text]

@[simp] theorem text_replicate (count : Nat) : text zero (List.replicate count zero) = [] := by
  cases count <;> simp [text, List.replicate_succ]

/-- A message without zeros is part of the text. -/
theorem text_append {message : List α} (plain : zero ∉ message) (back : List α) :
    text zero (message ++ back) = message ++ text zero back := by
  refine List.takeWhile_append_of_pos fun symbol known => ?_
  simpa using fun same : symbol = zero => plain (same ▸ known)

/-- The text of a message and padding is the message. -/
theorem text_append_replicate {message : List α} (plain : zero ∉ message) (count : Nat) :
    text zero (message ++ List.replicate count zero) = message := by
  rw [text_append plain, text_replicate, List.append_nil]

/-- Chunks of padding have no texts. -/
theorem texts_of_padding {chunks : List (List α)} (padding : ∀ symbol ∈ chunks.flatten, symbol = zero) :
    texts zero chunks = [] := by
  induction chunks with
  | nil => rfl
  | cons chunk rest ih =>
      simp only [List.flatten_cons, List.mem_append] at padding
      have zeros := List.eq_replicate_of_mem fun symbol known => padding symbol (.inl known)
      rw [texts_cons, zeros, text_replicate, if_pos rfl, List.nil_append]
      exact ih fun symbol known => padding symbol (.inr known)

/-- The load of the frames is the length of the messages. -/
theorem load_flatMap_frame {messages : List (List α)} (plain : ∀ message ∈ messages, zero ∉ message) :
    load zero (messages.flatMap (frame zero size)) = messages.flatten.length := by
  induction messages with
  | nil => rfl
  | cons message rest ih =>
      rw [List.flatMap_cons, load_append, ih fun other known => plain other (List.mem_cons_of_mem message known),
        frame, load_append, load_replicate, load_of_notMem (plain message List.mem_cons_self)]
      simp

/-- A group that covers a message reads as that message. -/
theorem Covers.read {message : List α} {group : List (List α)} (covers : Covers zero size message group)
    (plain : zero ∉ message) : texts zero group = [message] := by
  obtain ⟨chunk, rest, rfl, long⟩ := covers.first
  have whole := covers.whole
  rw [List.flatten_cons, frame] at whole
  obtain ⟨padding, rfl⟩ : message <+: chunk :=
    List.prefix_of_prefix_length_le (List.prefix_append _ _) (whole ▸ List.prefix_append _ _) long
  rw [List.append_assoc, List.append_cancel_left_eq] at whole
  obtain ⟨_, first, later⟩ := List.append_eq_replicate_iff.mp whole
  have none : texts zero rest = [] := texts_of_padding fun symbol known => by
    rw [later] at known
    exact List.eq_of_mem_replicate known
  rw [texts_cons, none, first, text_append_replicate plain, if_neg covers.nonempty]
  rfl

/-- Aligned chunks read as the messages. -/
theorem Aligned.read {messages chunks : List (List α)} (aligned : Aligned zero size messages chunks)
    (plain : ∀ message ∈ messages, zero ∉ message) : texts zero chunks = messages := by
  obtain ⟨groups, rfl, covers⟩ := aligned
  induction covers with
  | nil => rfl
  | cons first _ ih =>
      rw [List.flatten_cons, texts_append, first.read (plain _ List.mem_cons_self)]
      exact congrArg _ (ih fun message known => plain message (List.mem_cons_of_mem _ known))

theorem nonempty_of_mem_texts {message : List α} {chunks : List (List α)} (known : message ∈ texts zero chunks) :
    message ≠ [] := by
  simpa using List.of_mem_filter known

/-- A stream of frames starts with a symbol of its first message. -/
theorem load_pos_of_prefix {messages : List (List α)} {front : List α} (plain : ∀ message ∈ messages, zero ∉ message)
    (filled : ∀ message ∈ messages, message ≠ []) (starts : front <+: messages.flatMap (frame zero size))
    (nonempty : front ≠ []) : 0 < load zero front := by
  obtain ⟨symbol, rest, rfl⟩ := List.exists_cons_of_ne_nil nonempty
  cases messages with
  | nil => simp at starts
  | cons message later =>
      obtain ⟨first, tail, rfl⟩ := List.exists_cons_of_ne_nil (filled message List.mem_cons_self)
      simp only [List.flatMap_cons, frame, List.cons_append, List.cons_prefix_cons] at starts
      have apart := plain _ List.mem_cons_self
      rw [← starts.1, List.mem_cons, not_or] at apart
      rw [load, List.countP_cons_of_pos (by simpa using Ne.symm apart.1)]
      exact Nat.succ_pos _

/-- A reader that finds all messages behind the padding does not read across the start of the first one. -/
theorem exists_padding {messages chunks : List (List α)} {count : Nat}
    (plain : ∀ message ∈ messages, zero ∉ message)
    (whole : chunks.flatten = List.replicate count zero ++ messages.flatMap (frame zero size))
    (read : texts zero chunks = messages) :
    ∃ front back, chunks = front ++ back ∧ front.flatten = List.replicate count zero ∧
      back.flatten = messages.flatMap (frame zero size) ∧ texts zero back = messages := by
  induction chunks generalizing count with
  | nil =>
      rw [List.flatten_nil, eq_comm, List.append_eq_nil_iff] at whole
      exact ⟨[], [], rfl, whole.1.symm, whole.2.symm, read⟩
  | cons chunk rest ih =>
      cases count with
      | zero => exact ⟨[], chunk :: rest, rfl, rfl, whole, read⟩
      | succ count =>
          rw [List.flatten_cons, List.append_eq_append_iff] at whole
          rcases whole with ⟨tail, inside, later⟩ | ⟨tail, crossing, later⟩
          · -- the chunk ends inside the padding
            obtain ⟨_, zeros, remaining⟩ := List.replicate_eq_append_iff.mp inside
            rw [texts_cons, zeros, text_replicate, if_pos rfl, List.nil_append] at read
            rw [remaining] at later
            obtain ⟨front, back, rfl, padding, frames, complete⟩ := ih later read
            refine ⟨chunk :: front, back, rfl, ?_, frames, complete⟩
            rw [List.flatten_cons, padding, inside, ← remaining]
          · -- the chunk reaches into the first message and hides its first symbol
            by_cases ends : tail = []
            · subst ends
              rw [texts_cons, crossing, List.append_nil, text_replicate, if_pos rfl, List.nil_append] at read
              rw [List.nil_append] at later
              refine ⟨[chunk], rest, rfl, ?_, later.symm, read⟩
              simp [crossing]
            · exfalso
              have filled (message : List α) (known : message ∈ messages) : message ≠ [] :=
                nonempty_of_mem_texts (read ▸ known)
              rw [texts_cons, crossing, List.replicate_succ, List.cons_append, text_zero_cons, if_pos rfl,
                List.nil_append] at read
              have hidden := load_pos_of_prefix plain filled (later ▸ List.prefix_append tail rest.flatten) ends
              have total : load zero (messages.flatMap (frame zero size)) = messages.flatten.length :=
                load_flatMap_frame plain
              have seen : (texts zero rest).flatten.length ≤ load zero rest.flatten := length_texts_le_load rest
              rw [read] at seen
              rw [later, load_append] at total
              omega

/-- A chunk that reads as the first message holds all of it. -/
theorem exists_covering {message chunk behind : List α} {later rest : List (List α)} (plain : zero ∉ message)
    (bounded : chunk ≠ []) (whole : chunk ++ rest.flatten = message ++ behind)
    (read : texts zero (chunk :: rest) = message :: later) :
    ∃ tail, chunk = message ++ tail ∧ behind = tail ++ rest.flatten := by
  rcases List.append_eq_append_iff.mp whole with ⟨tail, inside, remaining⟩ | covers
  · -- a shorter chunk would be read as a message of its own
    have part : zero ∉ chunk := fun known => plain (inside ▸ List.mem_append_left tail known)
    have own : text zero chunk = chunk := by simpa using text_append_replicate part 0
    rw [texts_cons, own, if_neg bounded, List.cons_append, List.cons.injEq] at read
    obtain rfl : tail = [] := by simpa [read.1] using inside
    exact ⟨[], by simp [read.1], by simpa using remaining.symm⟩
  · exact covers

omit [DecidableEq α] in
/-- Behind a message, a chunk that fits a frame holds padding only. -/
theorem exists_remaining {tail frames : List α} {rest : List (List α)} {count : Nat} (short : tail.length ≤ count)
    (whole : List.replicate count zero ++ frames = tail ++ rest.flatten) :
    tail = List.replicate tail.length zero ∧
      rest.flatten = List.replicate (count - tail.length) zero ++ frames := by
  have front := congrArg (List.take tail.length) whole
  have back := congrArg (List.drop tail.length) whole
  rw [List.take_left, List.take_append_of_le_length (by simpa using short), List.take_replicate,
    Nat.min_eq_left short] at front
  rw [List.drop_left, List.drop_append_of_le_length (by simpa using short), List.drop_replicate] at back
  exact ⟨front.symm, back.symm⟩

/-- A reader that finds all messages reads aligned chunks. -/
theorem aligned_of_texts {messages chunks : List (List α)}
    (plain : ∀ message ∈ messages, zero ∉ message ∧ message.length ≤ size)
    (bounded : ∀ chunk ∈ chunks, chunk ≠ [] ∧ chunk.length ≤ size)
    (whole : chunks.flatten = messages.flatMap (frame zero size)) (read : texts zero chunks = messages) :
    Aligned zero size messages chunks := by
  induction messages generalizing chunks with
  | nil =>
      cases chunks with
      | nil => exact ⟨[], rfl, .nil⟩
      | cons chunk rest =>
          rw [List.flatten_cons, List.flatMap_nil, List.append_eq_nil_iff] at whole
          exact absurd whole.1 (bounded chunk List.mem_cons_self).1
  | cons message later ih =>
      obtain ⟨absent, short⟩ := plain message List.mem_cons_self
      have listed : message ∈ texts zero chunks := read ▸ List.mem_cons_self
      have filled : message ≠ [] := nonempty_of_mem_texts listed
      cases chunks with
      | nil => simp at read
      | cons chunk rest =>
          obtain ⟨present, fits⟩ := bounded chunk List.mem_cons_self
          rw [List.flatten_cons, List.flatMap_cons, frame, List.append_assoc] at whole
          obtain ⟨tail, rfl, behind⟩ := exists_covering absent present whole read
          rw [List.length_append] at fits
          obtain ⟨zeros, remaining⟩ := exists_remaining (by omega) behind
          have covered : text zero (message ++ tail) = message := by
            rw [zeros]
            exact text_append_replicate absent _
          rw [texts_cons, covered, if_neg filled, List.singleton_append, List.cons.injEq] at read
          obtain ⟨front, back, rfl, padding, frames, complete⟩ := exists_padding
            (fun other known => (plain other (List.mem_cons_of_mem _ known)).1) remaining read.2
          have more := ih (fun other known => plain other (List.mem_cons_of_mem _ known))
            (fun other known => bounded other (by simp [known])) frames complete
          obtain ⟨groups, rfl, covers⟩ := more
          refine ⟨((message ++ tail) :: front) :: groups, rfl, .cons ⟨filled, ?_, ?_⟩ covers⟩
          · rw [List.flatten_cons, padding, zeros, List.append_assoc, List.replicate_append_replicate, frame,
              List.length_replicate, Nat.add_sub_cancel' (by omega)]
          · exact ⟨_, _, rfl, by simp⟩

/-- The reader finds the messages exactly when the chunks are aligned. -/
theorem texts_eq_iff {messages chunks : List (List α)}
    (plain : ∀ message ∈ messages, zero ∉ message ∧ message.length ≤ size)
    (bounded : ∀ chunk ∈ chunks, chunk ≠ [] ∧ chunk.length ≤ size)
    (whole : chunks.flatten = messages.flatMap (frame zero size)) :
    texts zero chunks = messages ↔ Aligned zero size messages chunks :=
  ⟨aligned_of_texts plain bounded whole, fun aligned => aligned.read fun message known => (plain message known).1⟩

omit [DecidableEq α] in
/-- The last symbol of each frame is padding, so a chunk of a whole frame's size holds a zero. -/
theorem zero_mem_of_length {messages : List (List α)} {before chunk after : List α}
    (short : ∀ message ∈ messages, message.length < size) (nonempty : chunk ≠ [])
    (whole : before ++ (chunk ++ after) = messages.flatMap (frame zero size)) (length : chunk.length = size) :
    zero ∈ chunk := by
  have positive := List.length_pos_of_ne_nil nonempty
  induction messages generalizing before with
  | nil => simp_all
  | cons message later ih =>
      have fits := short message List.mem_cons_self
      have framed : (frame zero size message).length = size := by
        rw [frame, List.length_append, List.length_replicate]
        omega
      rw [List.flatMap_cons] at whole
      rcases Nat.lt_or_ge before.length size with inside | beyond
      · -- the chunk reaches over the end of this frame
        have last := congrArg (fun stream => stream[size - 1]?) whole
        simp only [List.getElem?_append_left (show size - 1 < (frame zero size message).length by omega),
          List.getElem?_append_right (show before.length ≤ size - 1 by omega),
          List.getElem?_append_left (show size - 1 - before.length < chunk.length by omega)] at last
        have padding : (frame zero size message)[size - 1]? = some zero := by
          rw [frame, List.getElem?_append_right (by omega), List.getElem?_replicate, if_pos (by omega)]
        exact List.mem_of_getElem? (last.trans padding)
      · refine @ih (before.drop size) (fun other known => short other (List.mem_cons_of_mem _ known)) ?_
        have dropped := congrArg (List.drop size) whole
        rw [List.drop_append_of_le_length beyond, List.drop_append_of_le_length (by omega),
          List.drop_of_length_le (show (frame zero size message).length ≤ size by omega), List.nil_append] at dropped
        exact dropped

end KernelStudio.Framing
