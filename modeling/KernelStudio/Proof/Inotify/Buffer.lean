/-
This file proves that the loop reads the events of the buffer as the kernel has written them.
It meets them one after another, by the lengths that it reads.
-/

import KernelStudio.Construction.Inotify

namespace KernelStudio.Inotify

open Framing Records

variable {state : State} {notice : Notice} {rest : List Notice} {i : Nat} {wd : Int} {tail : List UInt8}

/-- The field `len` counts the bytes of the name and its padding. -/
theorem length_encode (formed : notice.WellFormed) : notice.encode.length = eventSize + notice.len.toNat := by
  have padded : notice.name.length ≤ notice.len.toNat := by
    rcases formed.2.1 with ⟨none, _⟩ | ⟨_, room⟩
    · rw [none]
      exact Nat.zero_le _
    · exact Nat.le_of_lt room
  simp only [Notice.encode, frame, List.length_append, length_toBytes, List.length_replicate, eventSize]
  omega

theorem encode_ne_nil (notice : Notice) : notice.encode ≠ [] := by
  simp [Notice.encode, toBytes]

/-- A word is read as it was written. -/
theorem word_eq {value : BitVec 32} {offset : Nat}
    (content : state.buf.drop offset = toBytes 4 value.toNat ++ tail) : state.word offset = value := by
  have small := value.isLt
  rw [State.word, content, List.take_left' (length_toBytes _ _), ofBytes_toBytes]
  refine BitVec.eq_of_toNat_eq ?_
  rw [BitVec.toNat_ofNat]
  omega

/-- The content of the buffer behind some bytes. -/
theorem drop_add {front back : List UInt8} {offset count : Nat} (content : state.buf.drop offset = front ++ back)
    (long : front.length = count) : state.buf.drop (offset + count) = back := by
  rw [← List.drop_drop, content, List.drop_left' long]

/-- The bytes at an offset lie inside the buffer. -/
theorem length_le {front : List UInt8} {offset : Nat} (content : state.buf.drop offset = front ++ tail)
    (nonempty : front ≠ []) : offset + front.length ≤ state.buf.length := by
  have long := congrArg List.length content
  have positive := List.length_pos_iff.mpr nonempty
  rw [List.length_drop, List.length_append] at long
  omega

/-- The program reads an event as the kernel has written it. -/
theorem eventAt_eq (content : state.buf.drop i = notice.encode ++ tail) :
    state.eventAt i = .ok notice.toInotifyEvent := by
  have inside := length_le content (encode_ne_nil notice)
  simp only [Notice.encode, List.append_assoc, List.length_append, length_toBytes] at content inside
  have afterWd := drop_add content (length_toBytes 4 _)
  have afterMask := drop_add afterWd (length_toBytes 4 _)
  have afterCookie := drop_add afterMask (length_toBytes 4 _)
  rw [State.eventAt, if_pos (by unfold eventSize; omega), word_eq content, word_eq afterWd, word_eq afterMask,
    word_eq afterCookie]

/-- The program reads a name as the kernel has written it. -/
theorem nameAt_eq (content : state.buf.drop i = notice.encode ++ tail) (formed : notice.WellFormed)
    (named : notice.len ≠ 0) : state.nameAt i = .ok notice.name := by
  have inside := length_le content (encode_ne_nil notice)
  rw [length_encode formed] at inside
  simp only [Notice.encode, List.append_assoc] at content
  have afterLen := drop_add (drop_add (drop_add (drop_add content (length_toBytes 4 _)) (length_toBytes 4 _))
    (length_toBytes 4 _)) (length_toBytes 4 _)
  obtain ⟨_, none⟩ | ⟨_, room⟩ := formed.2.1
  · exact absurd none named
  · obtain ⟨count, padding⟩ := Nat.exists_eq_add_of_lt room
    have name : text 0 (state.buf.drop (i + eventSize)) = notice.name := by
      have zeros : notice.len.toNat - notice.name.length = count + 1 := by omega
      change text 0 (state.buf.drop (i + 4 + 4 + 4 + 4)) = notice.name
      rw [afterLen, frame, zeros, List.replicate_succ, List.append_assoc, text_append formed.1, List.cons_append,
        text_zero_cons, List.append_nil]
    rw [State.nameAt, name, if_pos (by omega)]

/-- The name is printed from inside the buffer. -/
theorem printName_eq (content : state.buf.drop i = notice.encode ++ tail) (formed : notice.WellFormed) :
    state.printName i notice.toInotifyEvent = .ok () := by
  rw [State.printName]
  split
  · next named => rw [nameAt_eq content formed named, Except.map]
  · rfl

@[simp] theorem ok_bind {α β : Type} (value : α) (after : α → Except Fault β) :
    (Except.ok value >>= after) = after value := rfl

@[simp] theorem error_bind {α β : Type} (fault : Fault) (after : α → Except Fault β) :
    (Except.error fault >>= after) = .error fault := rfl

theorem bind_eq_ok {α β : Type} {result : Except Fault α} {after : α → Except Fault β} {value : β}
    (done : (result >>= after) = .ok value) : ∃ middle, result = .ok middle ∧ after middle = .ok value := by
  cases result with
  | error fault => contradiction
  | ok middle => exact ⟨middle, rfl, done⟩

theorem strcpy_ok {size : Nat} {source : List UInt8} (room : source.length < size) :
    strcpy size source = .ok source := if_pos room

theorem strcpy_error {size : Nat} {source : List UInt8} (long : ¬ source.length < size) :
    strcpy size source = .error (.overflow size) := if_neg long

/-- The string for a created file is built if it has room in `path`. -/
theorem build_eq {event : InotifyEvent} {parent name : List UInt8}
    (stored : state.pathAt event.wd.toInt = .ok parent) (read : state.nameAt i = .ok name) :
    state.build i event =
      if parent.length + 1 + name.length < pathLen
        then .ok { state with path := parent ++ (slash ++ name), pc := .addWatch i }
        else .error (.overflow pathLen) := by
  have ended : (parent ++ slash).length = parent.length + 1 := List.length_append
  have whole : (parent ++ slash ++ name).length = parent.length + 1 + name.length := by
    rw [List.length_append, ended]
  simp only [State.build, stored, read, strcat, ok_bind]
  by_cases room : parent.length + 1 + name.length < pathLen
  · have first : parent.length < pathLen := by omega
    rw [strcpy_ok first, ok_bind, strcpy_ok (by omega), ok_bind, strcpy_ok (by omega),
      if_pos room, List.append_assoc]
    rfl
  · rw [if_neg room]
    by_cases first : parent.length < pathLen
    · rw [strcpy_ok first, ok_bind]
      by_cases second : (parent ++ slash).length < pathLen
      · rw [strcpy_ok second, ok_bind, strcpy_error (whole ▸ room), error_bind]
      · rw [strcpy_error second, error_bind]
    · rw [strcpy_error first, error_bind]

/-- The pending events lie in the buffer from the position on. -/
structure Reading (state : State) (i : Nat) : Prop where
  remaining : state.pending = [] ∧ state.len ≤ i ∨
    ∃ total : Nat, state.len = total ∧ Remaining Notice.encode state.buf total i state.pending
  formed : ∀ notice ∈ state.pending, notice.WellFormed ∧
    (notice.Creates → ∃ watch ∈ state.watches, watch.wd = notice.wd.toInt)

/-- The events behind a position of the buffer. -/
theorem Reading.head (reading : Reading state i) (pending : state.pending = notice :: rest) :
    (i : Int) < state.len ∧ ∃ tail, state.buf.drop i = notice.encode ++ tail := by
  obtain ⟨none, _⟩ | ⟨total, total_eq, remaining⟩ := reading.remaining
  · rw [pending] at none
    contradiction
  · rw [pending] at remaining
    have inside := (remaining.lt_iff encode_ne_nil).mpr (List.cons_ne_nil _ _)
    exact ⟨by omega, remaining.head⟩

/-- The loop ends behind the last event. -/
theorem Reading.done (reading : Reading state i) (pending : state.pending = []) : state.len ≤ i := by
  obtain ⟨_, past⟩ | ⟨total, total_eq, remaining⟩ := reading.remaining
  · exact past
  · have outside := (remaining.lt_iff encode_ne_nil).not.mpr (not_not.mpr pending)
    omega

/-- The loop finishes an event by the length that it reads. -/
theorem Reading.advance (reading : Reading state i) (pending : state.pending = notice :: rest) :
    Reading (state.advance i notice.toInotifyEvent) (i + (eventSize + notice.len.toNat)) := by
  have formed := reading.formed
  rw [pending] at formed
  obtain ⟨none, _⟩ | ⟨total, total_eq, remaining⟩ := reading.remaining
  · rw [pending] at none
    contradiction
  · rw [pending] at remaining
    have later := remaining.next
    rw [length_encode (formed notice List.mem_cons_self).1] at later
    refine ⟨.inr ⟨total, total_eq, ?_⟩, ?_⟩
    · simpa [State.advance, pending] using later
    · simp only [State.advance, pending, List.tail_cons]
      exact fun other known => formed other (List.mem_cons_of_mem _ known)

/-- The loop reads the first pending event. -/
theorem Reading.handle (reading : Reading state i) (pending : state.pending = notice :: rest) :
    state.handle i = if notice.Creates then state.build i notice.toInotifyEvent
      else .ok (state.advance i notice.toInotifyEvent) := by
  have formed := (reading.formed notice (pending ▸ List.mem_cons_self)).1
  obtain ⟨_, tail, content⟩ := reading.head pending
  rw [State.handle, eventAt_eq content, ok_bind, printName_eq content formed, ok_bind]
  rfl

section HandOut

variable (state : State) (wd : Int) (path : List UInt8)

@[simp] theorem handOut_argv : (state.handOut wd path).argv = state.argv := by
  unfold State.handOut; split <;> rfl

@[simp] theorem handOut_root : (state.handOut wd path).root = state.root := by
  unfold State.handOut; split <;> rfl

@[simp] theorem handOut_path : (state.handOut wd path).path = state.path := by
  unfold State.handOut; split <;> rfl

@[simp] theorem handOut_buf : (state.handOut wd path).buf = state.buf := by
  unfold State.handOut; split <;> rfl

@[simp] theorem handOut_len : (state.handOut wd path).len = state.len := by
  unfold State.handOut; split <;> rfl

@[simp] theorem handOut_wds : (state.handOut wd path).wds = state.wds := by
  unfold State.handOut; split <;> rfl

@[simp] theorem handOut_pending : (state.handOut wd path).pending = state.pending := by
  unfold State.handOut; split <;> rfl

end HandOut

theorem handOut_watches {path : List UInt8} (new : wd ≠ -1) :
    (state.handOut wd path).watches = ⟨wd, path⟩ :: state.watches := by
  rw [State.handOut, if_neg new]

/-- A new descriptor does not disturb the events of the buffer. -/
theorem Reading.handOut (reading : Reading state i) (path : List UInt8) (new : wd ≠ -1) :
    Reading (state.handOut wd path) i := by
  refine ⟨by simpa using reading.remaining, fun other pending => ?_⟩
  obtain ⟨formed, announced⟩ := reading.formed other (handOut_pending state wd path ▸ pending)
  refine ⟨formed, fun creates => ?_⟩
  obtain ⟨watch, known, own⟩ := announced creates
  exact ⟨watch, handOut_watches new ▸ List.mem_cons_of_mem _ known, own⟩

end KernelStudio.Inotify
