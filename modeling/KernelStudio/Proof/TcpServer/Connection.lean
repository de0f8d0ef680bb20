/-
This file proves what the lines of the connection threads show: for any number of threads over the shared buffer,
and for one thread that receives the frames of a client in any chunks.
-/

import KernelStudio.Construction.TcpServer.Connection
import Mathlib.Tactic.Common

namespace KernelStudio.TcpServer

open Transition Framing

/-- A list that stops at its front, or in front of its back, is taken from its front only. -/
theorem takeWhile_append_of_stop {α : Type} {p : α → Bool} {front back : List α}
    (stop : (∃ a ∈ front, p a = false) ∨ ∀ a ∈ back.head?, p a = false) :
    (front ++ back).takeWhile p = front.takeWhile p := by
  induction front with
  | nil =>
      cases back with
      | nil => rfl
      | cons a rest => simp_all
  | cons a rest ih =>
      rw [List.cons_append, List.takeWhile_cons, List.takeWhile_cons]
      by_cases taken : p a = true
      · rw [if_pos taken, if_pos taken, ih]
        simpa [taken] using stop
      · rw [if_neg taken, if_neg taken]

/-- A zero follows the chunk in memory, or the chunk holds one. -/
def Terminated (beyond : List UInt8) (buf : List Cell) (chunk : List UInt8) : Prop :=
  0 ∈ chunk ∨ ∀ cell ∈ (memory beyond buf)[chunk.length]?, cell.byte = 0

instance (beyond : List UInt8) (buf : List Cell) (chunk : List UInt8) : Decidable (Terminated beyond buf chunk) :=
  inferInstanceAs (Decidable (_ ∨ ∀ cell ∈ (memory beyond buf)[chunk.length]?, _))

/-- The memory behind a chunk is what it was. -/
theorem memory_kernelRecvmsg {beyond : List UInt8} {buf : List Cell} {receipt : Receipt} {chunk : List UInt8}
    (fits : chunk.length ≤ buf.length) : memory beyond (kernelRecvmsg buf receipt chunk) =
      receivedCells receipt chunk ++ (memory beyond buf).drop chunk.length := by
  rw [memory, kernelRecvmsg, List.append_assoc, memory, List.drop_append_of_le_length fits]

/-- A terminated chunk is shown up to its own first zero. -/
theorem shown_kernelRecvmsg {beyond : List UInt8} {buf : List Cell} {receipt : Receipt} {chunk : List UInt8}
    (fits : chunk.length ≤ buf.length) (terminated : Terminated beyond buf chunk) :
    shown beyond (kernelRecvmsg buf receipt chunk) = receivedCells receipt (text 0 chunk) := by
  rw [shown, memory_kernelRecvmsg fits, takeWhile_append_of_stop]
  · rw [receivedCells, List.takeWhile_map]
    rfl
  · refine terminated.imp (fun ends => ?_) fun follows cell known => ?_
    · exact ⟨_, List.mem_map_of_mem ends, by simp⟩
    · rw [List.head?_drop] at known
      simpa using follows cell known

theorem receipt_of_mem_receivedCells {receipt : Receipt} {chunk : List UInt8} {cell : Cell}
    (known : cell ∈ receivedCells receipt chunk) : cell.receipt = some receipt := by
  obtain ⟨byte, _, rfl⟩ := List.mem_map.mp known
  rfl

@[simp] theorem length_memset : memset.length = bufSize := List.length_replicate

theorem length_kernelRecvmsg {buf : List Cell} {receipt : Receipt} {chunk : List UInt8}
    (fits : chunk.length ≤ buf.length) : (kernelRecvmsg buf receipt chunk).length = buf.length := by
  simp [kernelRecvmsg, receivedCells, fits]

/-- A cleared buffer shows nothing. -/
theorem shown_memset (beyond : List UInt8) : shown beyond memset = [] := by
  have first : memset = {} :: List.replicate 1023 {} := rfl
  rw [shown, memory, first, List.cons_append, List.takeWhile_cons_of_neg (by simp)]

/-- A receipt finds a zero behind its chunk, and a line finds its thread's own byte at the start of the buffer. -/
def ownBytes (beyond : List UInt8) (state : Connections) : ConnectionEvent → Prop
  | .receive _ chunk => Terminated beyond state.buf chunk
  | .log i => ∀ cell ∈ state.buf.head?, cell.byte = 0 ∨ cell.receipt = some ⟨i, (state.thread i).count⟩
  | _ => True

instance (beyond : List UInt8) (state : Connections) (event : ConnectionEvent) :
    Decidable (ownBytes beyond state event) :=
  match event with
  | .receive _ _ => inferInstanceAs (Decidable (Terminated _ _ _))
  | .log _ => inferInstanceAs (Decidable (∀ cell ∈ state.buf.head?, _))
  | .clear _ | .receiveFails _ => isTrue trivial

/-- What the buffer shows comes from one receipt, and each line shows only bytes of its own receipt. -/
structure Settled (beyond : List UInt8) (state : Connections) : Prop where
  size : state.buf.length = bufSize
  uniform : ∃ receipt, ∀ cell ∈ shown beyond state.buf, cell.receipt = some receipt
  logged : ∀ line ∈ state.log, ∀ cell ∈ line.cells, cell.receipt = some line.receipt

variable {beyond : List UInt8} {state next : Connections}

/-- A thread clears the buffer before each receipt. -/
theorem step_clear {i : Nat} (taken : state.step beyond (.clear i) = some next) :
    (state.thread i).pc = .memset ∧
      next = { state.set i { state.thread i with pc := .kernelRecvmsg } with buf := memset } := by
  simp only [Connections.step] at taken
  split at taken
  · exact ⟨‹_›, (Option.some.inj taken).symm⟩
  · contradiction

/-- A receipt copies a chunk that fits to the start of the buffer. -/
theorem step_receive {i : Nat} {chunk : List UInt8} (taken : state.step beyond (.receive i chunk) = some next) :
    (state.thread i).pc = .kernelRecvmsg ∧ chunk.length ≤ bufSize ∧
      next = { state.set i { pc := .log chunk, count := (state.thread i).count + 1 } with
        buf := kernelRecvmsg state.buf ⟨i, (state.thread i).count + 1⟩ chunk } := by
  simp only [Connections.step] at taken
  split at taken
  · rw [Option.ite_none_right_eq_some] at taken
    exact ⟨‹_›, taken.1, (Option.some.inj taken.2).symm⟩
  · contradiction

/-- A failed receipt leaves the buffer and the log alone. -/
theorem step_receiveFails {i : Nat} (taken : state.step beyond (.receiveFails i) = some next) :
    (state.thread i).pc = .kernelRecvmsg ∧ next = state.set i { state.thread i with pc := .memset } := by
  simp only [Connections.step] at taken
  split at taken
  · exact ⟨‹_›, (Option.some.inj taken).symm⟩
  · contradiction

/-- A line shows the buffer as the thread finds it. -/
theorem step_log {i : Nat} (taken : state.step beyond (.log i) = some next) :
    ∃ chunk, (state.thread i).pc = .log chunk ∧
      next = { state.set i { state.thread i with pc := if chunk = [] then .ended else .memset } with
        log := state.log ++ [⟨⟨i, (state.thread i).count⟩, shown beyond state.buf⟩] } := by
  simp only [Connections.step] at taken
  split at taken
  · exact ⟨_, ‹_›, (Option.some.inj taken).symm⟩
  · contradiction

/-- No label changes the size of the buffer. -/
theorem length_step {event : ConnectionEvent} (size : state.buf.length = bufSize)
    (taken : state.step beyond event = some next) : next.buf.length = bufSize := by
  cases event with
  | clear i =>
      obtain ⟨_, rfl⟩ := step_clear taken
      exact length_memset
  | receive i chunk =>
      obtain ⟨_, fits, rfl⟩ := step_receive taken
      exact (length_kernelRecvmsg (size ▸ fits)).trans size
  | receiveFails i =>
      obtain ⟨_, rfl⟩ := step_receiveFails taken
      exact size
  | log i =>
      obtain ⟨_, _, rfl⟩ := step_log taken
      exact size

theorem settled_initial : Settled beyond {} where
  size := length_memset
  uniform := ⟨⟨0, 0⟩, fun cell known => by simp [shown_memset] at known⟩
  logged line known := by simp at known

/-- A line whose first byte is its thread's own shows only that thread's bytes. -/
theorem Settled.own (settled : Settled beyond state) {receipt : Receipt}
    (first : ∀ cell ∈ state.buf.head?, cell.byte = 0 ∨ cell.receipt = some receipt) :
    ∀ cell ∈ shown beyond state.buf, cell.receipt = some receipt := by
  obtain ⟨source, uniform⟩ := settled.uniform
  cases start : state.buf with
  | nil =>
      have size := settled.size
      simp [start, bufSize] at size
  | cons cell rest =>
      rw [start] at first uniform
      by_cases zero : cell.byte = 0
      · intro other known
        rw [shown, memory, List.cons_append, List.takeWhile_cons_of_neg (by simpa using zero)] at known
        contradiction
      · have head : cell ∈ shown beyond (cell :: rest) := by
          rw [shown, memory, List.cons_append, List.takeWhile_cons_of_pos (by simpa using zero)]
          exact List.mem_cons_self
        have own : cell.receipt = some receipt := (first cell rfl).resolve_left zero
        intro other known
        rw [uniform other known, ← uniform cell head, own]

/-- Each label keeps the invariant as long as each thread finds its own bytes. -/
theorem settled_step {event : ConnectionEvent} (settled : Settled beyond state) (own : ownBytes beyond state event)
    (taken : state.step beyond event = some next) : Settled beyond next := by
  cases event with
  | clear i =>
      obtain ⟨_, rfl⟩ := step_clear taken
      exact
        { size := length_memset
          uniform := ⟨⟨0, 0⟩, fun cell known => by simp [shown_memset] at known⟩
          logged := settled.logged }
  | receive i chunk =>
      obtain ⟨_, fits, rfl⟩ := step_receive taken
      rw [← settled.size] at fits
      refine { settled with
        size := length_step settled.size taken
        uniform := ⟨⟨i, (state.thread i).count + 1⟩, fun cell known => ?_⟩ }
      rw [shown_kernelRecvmsg fits own] at known
      exact receipt_of_mem_receivedCells known
  | receiveFails i =>
      obtain ⟨_, rfl⟩ := step_receiveFails taken
      exact { settled with }
  | log i =>
      obtain ⟨_, _, rfl⟩ := step_log taken
      refine { settled with logged := fun line known => ?_ }
      rcases List.mem_append.mp known with earlier | last
      · exact settled.logged line earlier
      · obtain rfl := List.mem_singleton.mp last
        exact settled.own own

/-- While each receipt is terminated and each line starts with a byte of its own thread, each line shows only
bytes that its thread has received in the call of `kernel_recvmsg` before it. -/
theorem lines_own (beyond : List UInt8) {state : Connections}
    (reached : (connectionThreads beyond).Reaches (ownBytes beyond) state) :
    ∀ line ∈ state.log, ∀ cell ∈ line.cells, cell.receipt = some line.receipt := by
  refine (reached.invariant (Settled beyond) ?_ ?_).logged
  · rintro _ rfl
    exact settled_initial
  · exact fun state event next _ settled own taken => settled_step settled own taken

/-- Two threads receive and log in turn. -/
def turnEvents : List ConnectionEvent :=
  [.clear 0, .receive 0 [104, 105], .log 0, .clear 1, .receive 1 [111, 107], .log 1]

/-- Both lines show what their own threads have received. -/
theorem lines_own_two : ∃ state : Connections, strings state.log = [[104, 105], [111, 107]] ∧
    ∀ line ∈ state.log, ∀ cell ∈ line.cells, cell.receipt = some line.receipt := by
  have initial : (connectionThreads []).start {} := rfl
  have admitted : (connectionThreads []).admits (ownBytes []) {} turnEvents = true := by decide +kernel
  have executed : ((connectionThreads []).execute {} turnEvents).map (fun state => strings state.log) =
      some [[104, 105], [111, 107]] := by decide +kernel
  obtain ⟨state, reached, shown⟩ := Machine.admits_shows initial turnEvents admitted _ executed
  exact ⟨state, shown, lines_own [] reached⟩

/-- The second thread receives between the receipt and the line of the first one. -/
def crossedEvents : List ConnectionEvent :=
  [.clear 0, .clear 1, .receive 0 [104, 105], .receive 1 [111, 107], .log 0]

/-- The line of the first thread shows the bytes of the second one. -/
theorem line_foreign : ∃ state, (connectionThreads []).Reachable state ∧
    ∃ line ∈ state.log, line.receipt.thread = 0 ∧ ∃ cell ∈ line.cells, cell.receipt = some ⟨1, 1⟩ := by
  have initial : (connectionThreads []).start {} := rfl
  have executed : ((connectionThreads []).execute {} crossedEvents).map (fun state => state.log) =
      some [⟨⟨0, 1⟩, [⟨111, some ⟨1, 1⟩⟩, ⟨107, some ⟨1, 1⟩⟩]⟩] := by decide +kernel
  obtain ⟨state, reached, shown⟩ := Machine.execute_shows initial crossedEvents _ executed
  refine ⟨state, reached, ?_⟩
  rw [shown]
  exact ⟨_, List.mem_cons_self, rfl, _, List.mem_cons_self, rfl⟩

/-- The buffer holds bytes of earlier receipts only. -/
def Connections.Dated (state : Connections) : Prop :=
  ∀ cell ∈ state.buf, ∀ receipt, cell.receipt = some receipt → receipt.count ≤ (state.thread receipt.thread).count

theorem Connections.Dated.set (dated : state.Dated) {i : Nat} {cur : Connection}
    (later : (state.thread i).count ≤ cur.count) : (state.set i cur).Dated := by
  intro cell known receipt same
  have before := dated cell known receipt same
  by_cases mine : receipt.thread = i
  · simpa [Connections.set, mine] using Nat.le_trans (mine ▸ before) later
  · simpa [Connections.set, mine] using before

theorem dated_step {event : ConnectionEvent} (dated : state.Dated) (taken : state.step beyond event = some next) :
    next.Dated := by
  cases event with
  | clear i =>
      obtain ⟨_, rfl⟩ := step_clear taken
      intro cell known receipt same
      obtain rfl := List.eq_of_mem_replicate known
      contradiction
  | receive i chunk =>
      obtain ⟨_, _, rfl⟩ := step_receive taken
      intro cell known receipt same
      rcases List.mem_append.mp known with received | old
      · obtain rfl := Option.some.inj (same.symm.trans (receipt_of_mem_receivedCells received))
        simp [Connections.set]
      · exact dated.set (Nat.le_succ _) cell (List.mem_of_mem_drop old) receipt same
  | receiveFails i =>
      obtain ⟨_, rfl⟩ := step_receiveFails taken
      exact dated.set (Nat.le_refl _)
  | log i =>
      obtain ⟨_, _, rfl⟩ := step_log taken
      exact dated.set (Nat.le_refl _)

theorem dated_reached {guard : Guard Connections ConnectionEvent}
    (reached : (connectionThreads beyond).Reaches guard state) : state.Dated ∧ state.buf.length = bufSize := by
  refine reached.invariant (fun state => state.Dated ∧ state.buf.length = bufSize) ?_ ?_
  · rintro _ rfl
    refine ⟨fun cell known receipt same => ?_, length_memset⟩
    obtain rfl := List.eq_of_mem_replicate known
    contradiction
  · exact fun state event next _ before _ taken =>
      ⟨dated_step before.1 taken, length_step before.2 taken⟩

/-- A line shows the bytes in front of the first zero, so it shows a byte behind nonzero bytes. -/
theorem mem_shown {buf : List Cell} {front back : List Cell} {cell : Cell}
    (split : memory beyond buf = front ++ cell :: back) (filled : ∀ other ∈ front, other.byte ≠ 0)
    (nonzero : cell.byte ≠ 0) : cell ∈ shown beyond buf := by
  rw [shown, split, List.takeWhile_append_of_pos (by simpa using filled),
    List.takeWhile_cons_of_pos (by simpa using nonzero)]
  simp

/-- A step that breaks the guard can leave a line with a byte that its thread has not received. -/
theorem foreign_line {guard : Guard Connections ConnectionEvent}
    (reached : (connectionThreads beyond).Reaches guard state) {event : ConnectionEvent}
    (broken : ¬ ownBytes beyond state event) (taken : state.step beyond event = some next) :
    ∃ events final, (connectionThreads beyond).execute next events = some final ∧
      ∃ line ∈ final.log, ∃ cell ∈ line.cells, cell.receipt ≠ some line.receipt := by
  cases event with
  | clear i => exact absurd trivial broken
  | receiveFails i => exact absurd trivial broken
  | log i =>
      obtain ⟨chunk, _, rfl⟩ := step_log taken
      obtain ⟨cell, first, nonzero, foreign⟩ : ∃ cell ∈ state.buf.head?, cell.byte ≠ 0 ∧
          cell.receipt ≠ some ⟨i, (state.thread i).count⟩ := by
        simpa [ownBytes] using broken
      obtain ⟨rest, split⟩ := List.head?_eq_some_iff.mp first
      refine ⟨[], _, rfl, _, List.mem_append_right _ (List.mem_singleton_self _), cell, ?_, foreign⟩
      exact @mem_shown _ _ [] (rest ++ _) _ (by rw [memory, split]; rfl) nofun nonzero
  | receive i chunk =>
      obtain ⟨_, fits, rfl⟩ := step_receive taken
      obtain ⟨dated, size⟩ := dated_reached reached
      rw [← size] at fits
      obtain ⟨plain, cell, follows, nonzero⟩ : 0 ∉ chunk ∧ ∃ cell ∈ (memory beyond state.buf)[chunk.length]?,
          cell.byte ≠ 0 := by
        simpa [ownBytes, Terminated] using broken
      have foreign : cell.receipt ≠ some ⟨i, (state.thread i).count + 1⟩ := by
        intro same
        rcases List.mem_append.mp (List.mem_of_getElem? follows) with old | outside
        · exact Nat.not_succ_le_self _ (dated cell old _ same)
        · obtain ⟨byte, _, rfl⟩ := List.mem_map.mp outside
          contradiction
      let receipt : Receipt := ⟨i, (state.thread i).count + 1⟩
      have split : memory beyond (kernelRecvmsg state.buf receipt chunk) =
          receivedCells receipt chunk ++ cell :: (memory beyond state.buf).drop (chunk.length + 1) := by
        rw [memory_kernelRecvmsg fits, List.drop_eq_getElem?_toList_append, Option.mem_def.mp follows]
        rfl
      have filled (other : Cell) (known : other ∈ receivedCells receipt chunk) : other.byte ≠ 0 := by
        obtain ⟨byte, listed, rfl⟩ := List.mem_map.mp known
        exact fun zero => plain (zero ▸ listed)
      have logs (cur : Connections) (pc : (cur.thread i).pc = .log chunk) : ∃ final,
          (connectionThreads beyond).execute cur [.log i] = some final ∧
            ⟨⟨i, (cur.thread i).count⟩, shown beyond cur.buf⟩ ∈ final.log := by
        simp [Machine.execute, connectionThreads, Connections.step, pc]
      obtain ⟨final, executed, logged⟩ := logs { state.set i ⟨.log chunk, (state.thread i).count + 1⟩ with
        buf := kernelRecvmsg state.buf receipt chunk } (by simp [Connections.set])
      refine ⟨[.log i], final, executed, _, logged, cell, mem_shown split filled nonzero, ?_⟩
      simpa [Connections.set] using foreign

/-- A chunk that leaves room in a cleared buffer is terminated. -/
theorem terminated_memset (beyond : List UInt8) {chunk : List UInt8} (short : chunk.length < bufSize) :
    Terminated beyond memset chunk := by
  refine .inr fun cell known => ?_
  rw [memory, List.getElem?_append_left (by rwa [length_memset])] at known
  obtain rfl := List.eq_of_mem_replicate (List.mem_of_getElem? known)
  rfl

/-- One round of the loop logs the text at the start of its chunk. -/
theorem execute_round {i : Nat} {chunk : List UInt8} (pc : (state.thread i).pc = .memset)
    (fits : chunk.length ≤ bufSize) (terminated : Terminated beyond memset chunk) : ∃ final,
      (connectionThreads beyond).execute state [.clear i, .receive i chunk, .log i] = some final ∧
        (final.thread i).pc = (if chunk = [] then .ended else .memset) ∧
        strings final.log = strings state.log ++ texts 0 [chunk] := by
  have bytes (receipt : Receipt) :
      (shown beyond (kernelRecvmsg memset receipt chunk)).map Cell.byte = text 0 chunk := by
    rw [shown_kernelRecvmsg (by rwa [length_memset]) terminated, receivedCells, List.map_map]
    exact List.map_id _
  simp [Machine.execute, connectionThreads, Connections.step, Connections.set, pc, fits, strings, texts, bytes]

/-- A thread alone logs the texts at the start of its chunks. -/
theorem execute_connectionThreadfn {i : Nat} {chunks : List (List UInt8)} (pc : (state.thread i).pc = .memset)
    (bounded : ∀ chunk ∈ chunks, chunk ≠ [] ∧ chunk.length ≤ bufSize)
    (terminated : ∀ chunk ∈ chunks, Terminated beyond memset chunk) : ∃ final,
      (connectionThreads beyond).execute state (connectionThreadfn i chunks) = some final ∧
        (final.thread i).pc = .memset ∧ strings final.log = strings state.log ++ texts 0 chunks := by
  induction chunks generalizing state with
  | nil => exact ⟨state, rfl, pc, by simp⟩
  | cons chunk rest ih =>
      obtain ⟨nonempty, fits⟩ := bounded chunk List.mem_cons_self
      obtain ⟨next, executed, ready, logged⟩ := execute_round pc fits (terminated chunk List.mem_cons_self)
      rw [if_neg nonempty] at ready
      obtain ⟨final, finished, idle, complete⟩ := ih ready
        (fun other known => bounded other (List.mem_cons_of_mem chunk known))
        (fun other known => terminated other (List.mem_cons_of_mem chunk known))
      refine ⟨final, (Machine.execute_append _ _ executed).trans finished, idle, ?_⟩
      rw [complete, logged, List.append_assoc, ← texts_append, List.singleton_append]

theorem length_ktcpSend (message : Message) : (ktcpSend message).length = bufSize := by
  rw [ktcpSend, frame, List.length_append, List.length_replicate, Nat.add_sub_cancel' (Nat.le_of_lt message.fits)]

theorem flatMap_ktcpSend (messages : List Message) :
    messages.flatMap ktcpSend = (messages.map Message.bytes).flatMap (frame 0 bufSize) := by
  rw [List.flatMap_map]
  rfl

/-- A chunk of the frames of a client is terminated in a cleared buffer, because each frame ends with a zero. -/
theorem terminated_of_frames (beyond : List UInt8) {messages : List Message} {chunks : List (List UInt8)}
    (bounded : ∀ chunk ∈ chunks, chunk ≠ [] ∧ chunk.length ≤ bufSize)
    (whole : chunks.flatten = messages.flatMap ktcpSend) {chunk : List UInt8} (known : chunk ∈ chunks) :
    Terminated beyond memset chunk := by
  obtain ⟨nonempty, fits⟩ := bounded chunk known
  rcases Nat.lt_or_eq_of_le fits with short | full
  · exact terminated_memset beyond short
  · obtain ⟨before, after, rfl⟩ := List.append_of_mem known
    have texts (text : List UInt8) (listed : text ∈ messages.map Message.bytes) : text.length < bufSize := by
      obtain ⟨message, _, rfl⟩ := List.mem_map.mp listed
      exact message.fits
    have framed : before.flatten ++ (chunk ++ after.flatten) =
        (messages.map Message.bytes).flatMap (frame 0 bufSize) := by
      rw [← flatMap_ktcpSend, ← whole]
      simp
    exact .inl (zero_mem_of_length texts nonempty framed full)

/-- A connection thread that receives the frames of the messages in these chunks logs the messages exactly when
the chunks are aligned: each frame starts with a new chunk, which holds the whole text, and no message is empty. -/
theorem messages_logged_iff (beyond : List UInt8) (i : Nat) (messages : List Message) (chunks : List (List UInt8))
    (closed : Bool) (bounded : ∀ chunk ∈ chunks, chunk ≠ [] ∧ chunk.length ≤ bufSize)
    (whole : chunks.flatten = messages.flatMap ktcpSend) : ∃ final,
      (connectionThreads beyond).execute {} (connectionThreadfn i (chunks ++ if closed then [[]] else [])) =
        some final ∧
      (strings final.log = messages.map Message.bytes ↔ Aligned 0 bufSize (messages.map Message.bytes) chunks) := by
  have plain (text : List UInt8) (known : text ∈ messages.map Message.bytes) : 0 ∉ text ∧ text.length ≤ bufSize := by
    obtain ⟨message, _, rfl⟩ := List.mem_map.mp known
    exact ⟨message.terminated, Nat.le_of_lt message.fits⟩
  have framed := whole.trans (flatMap_ktcpSend messages)
  obtain ⟨middle, executed, ready, logged⟩ := @execute_connectionThreadfn beyond {} i chunks rfl bounded
    fun chunk known => terminated_of_frames beyond bounded whole known
  have read : strings middle.log = messages.map Message.bytes ↔
      Aligned 0 bufSize (messages.map Message.bytes) chunks := by
    rw [logged]
    exact texts_eq_iff plain bounded framed
  cases closed with
  | false =>
      refine ⟨middle, ?_, read⟩
      simpa using executed
  | true =>
      -- the last receipt is empty, and its line is too
      obtain ⟨final, ended, _, same⟩ := @execute_round beyond middle i [] ready (Nat.zero_le _)
        (terminated_memset beyond (by decide))
      refine ⟨final, ?_, ?_⟩
      · rw [connectionThreadfn, List.flatMap_append]
        exact (Machine.execute_append _ _ executed).trans ended
      · rw [same]
        simpa [texts, text] using read

/-- The message of the example. -/
def greeting : Message := ⟨[104, 105], by decide, by decide⟩

/-- A frame that arrives in one chunk is logged as its message. -/
theorem messages_logged_greeting : ∃ final, (connectionThreads []).execute {}
    (connectionThreadfn 0 ([ktcpSend greeting] ++ [[]])) = some final ∧ strings final.log = [[104, 105]] := by
  obtain ⟨final, executed, logged⟩ := messages_logged_iff [] 0 [greeting] [ktcpSend greeting] true
    (by decide +kernel) (by simp)
  refine ⟨final, executed, logged.mpr ⟨[[ktcpSend greeting]], rfl, .cons ⟨by decide, ?_, ?_⟩ .nil⟩⟩
  · exact List.append_nil _
  · exact ⟨_, _, rfl, (length_ktcpSend greeting).symm ▸ Nat.le_of_lt greeting.fits⟩

/-- A frame that arrives in two chunks, the first of which ends inside the text, is logged as two messages. -/
theorem message_split : ∃ chunks final, (∀ chunk ∈ chunks, chunk ≠ [] ∧ chunk.length ≤ bufSize) ∧
    chunks.flatten = [greeting].flatMap ktcpSend ∧
    (connectionThreads []).execute {} (connectionThreadfn 0 chunks) = some final ∧
    strings final.log = [[104], [105]] ∧ strings final.log ≠ [greeting].map Message.bytes := by
  let chunks : List (List UInt8) := [[104], 105 :: List.replicate 1022 0]
  have executed : ((connectionThreads []).execute {} (connectionThreadfn 0 chunks)).map
      (fun state => strings state.log) = some [[104], [105]] := by decide +kernel
  obtain ⟨final, finished, shown⟩ := Option.map_eq_some_iff.mp executed
  refine ⟨chunks, final, by decide +kernel, by decide +kernel, finished, shown, ?_⟩
  rw [shown]
  decide

end KernelStudio.TcpServer
