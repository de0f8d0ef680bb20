/-
This file proves what the generated header contains for each kernel log.
The script collects the lines of all unloads in the log, and the header reads back their values.
-/

import KernelStudio.Construction.EndToEnd.HeaderLog

namespace KernelStudio.EndToEnd

open Initialiser (Designator IsName Token)

/-- The first tag that `gen.py` looks for. -/
abbrev taskTag : Text := "TASK_FIN".toList

/-- The second tag. It contains the first. -/
abbrev subtaskTag : Text := "SUBTASK_FIN".toList

theorem taskTag_inside : taskTag <:+: subtaskTag := ⟨"SUB".toList, [], by decide⟩

/-- The member names of a task do not depend on its values. -/
theorem Task.forall_names (property : Text → Prop)
    (all : ∀ name ∈ (default : Task).fields.map Prod.fst, property name) (task : Task) :
    ∀ field ∈ task.fields, property field.1 :=
  fun _ known => all _ (List.mem_map_of_mem (f := Prod.fst) known : _ ∈ task.fields.map Prod.fst)

/-- The member names of a subtask do not depend on its values. -/
theorem Subtask.forall_names (property : Text → Prop)
    (all : ∀ name ∈ (default : Subtask).fields.map Prod.fst, property name) (subtask : Subtask) :
    ∀ field ∈ subtask.fields, property field.1 :=
  fun _ known => all _ (List.mem_map_of_mem (f := Prod.fst) known : _ ∈ subtask.fields.map Prod.fst)

/-- The part behind a prefix without a brace is the block. -/
theorem fromBrace_append {front : Text} (plain : '\x7b' ∉ front) (fields : List Designator) :
    fromBrace (front ++ Initialiser.block fields) = Initialiser.block fields := by
  have present : '\x7b' ∈ front ++ Initialiser.block fields := by simp [Initialiser.block]
  have skipped : ∀ c ∈ front, decide (c ≠ '\x7b') = true := by
    intro c known
    exact decide_eq_true fun same => plain (same ▸ known)
  rw [fromBrace, if_pos present, List.dropWhile_append_of_pos skipped]
  simp [Initialiser.block]

theorem text_taskFin (task : Task) :
    (Message.taskFin task).text = taskTag ++ ':' :: ' ' :: Initialiser.block task.fields := by
  have split : "TASK_FIN: ".toList = taskTag ++ [':', ' '] := by decide
  change "TASK_FIN: ".toList ++ _ = _
  rw [split, List.append_assoc, List.cons_append, List.singleton_append]

theorem text_subtaskFin (subtask : Subtask) :
    (Message.subtaskFin subtask).text = subtaskTag ++ ':' :: ' ' :: Initialiser.block subtask.fields := by
  have split : "SUBTASK_FIN: ".toList = subtaskTag ++ [':', ' '] := by decide
  change "SUBTASK_FIN: ".toList ++ _ = _
  rw [split, List.append_assoc, List.cons_append, List.singleton_append]

/-- A subtask tag in a task line lies in front of the colon. -/
theorem subtaskTag_infix_iff {lead : Text} (task : Task) :
    subtaskTag <:+: lead ++ (Message.taskFin task).text ↔ subtaskTag <:+: lead ++ taskTag := by
  rw [text_taskFin, ← List.append_assoc]
  refine ⟨fun inside => ?_, fun inside => inside.trans (List.prefix_append _ _).isInfix⟩
  rcases Text.infix_append_cons inside (by decide) with front | back
  · exact front
  · have absent : 'S' ∉ Initialiser.block task.fields := Initialiser.not_mem_block (by decide) (by decide)
      (Task.forall_names (fun name => 'S' ∉ name) (by decide) task)
    have known : 'S' ∈ ' ' :: Initialiser.block task.fields := back.subset (by decide)
    exact absurd ((List.mem_cons.mp known).resolve_left (by decide)) absent

/-- The script takes the block of a line behind a tag and a prefix without a brace. -/
theorem fromBrace_fin {lead tag : Text} (plain : '\x7b' ∉ lead) (named : '\x7b' ∉ tag) (fields : List Designator) :
    fromBrace (lead ++ (tag ++ ':' :: ' ' :: Initialiser.block fields)) = Initialiser.block fields := by
  have front : '\x7b' ∉ lead ++ (tag ++ [':', ' ']) := by simp [plain, named]
  have whole := fromBrace_append front fields
  simpa using whole

/-- The first loop of the script takes a task line. -/
theorem taskLine_taskFin {line : LogLine} {task : Task} (printed : line.message = .taskFin task)
    (plain : '\x7b' ∉ line.lead) (tagged : ¬ subtaskTag <:+: line.lead ++ taskTag) :
    taskLine line.text = some (Initialiser.block task.fields) ∧ subtaskLine line.text = none := by
  have first : Text.occurs taskTag line.text = true := by
    rw [Text.occurs_iff, LogLine.text, printed, text_taskFin]
    exact ⟨line.lead, _, by rw [List.append_assoc]⟩
  have second : Text.occurs subtaskTag line.text = false := by
    rw [Text.occurs_eq_false_iff, LogLine.text, printed, subtaskTag_infix_iff]
    exact tagged
  refine ⟨?_, ?_⟩
  · rw [taskLine, first, second, LogLine.text, printed, text_taskFin, fromBrace_fin plain (by decide)]
    rfl
  · rw [subtaskLine, second, if_neg Bool.false_ne_true]

/-- The second loop of the script takes a subtask line. -/
theorem subtaskLine_subtaskFin {line : LogLine} {subtask : Subtask} (printed : line.message = .subtaskFin subtask)
    (plain : '\x7b' ∉ line.lead) :
    taskLine line.text = none ∧ subtaskLine line.text = some (Initialiser.block subtask.fields) := by
  have second : Text.occurs subtaskTag line.text = true := by
    rw [Text.occurs_iff, LogLine.text, printed, text_subtaskFin]
    exact ⟨line.lead, _, by rw [List.append_assoc]⟩
  refine ⟨?_, ?_⟩
  · rw [taskLine, second]
    simp
  · rw [subtaskLine, second, if_pos rfl, LogLine.text, printed, text_subtaskFin, fromBrace_fin plain (by decide)]

/-- The script takes no line without the first tag. -/
theorem not_taken {text : Text} (absent : ¬ taskTag <:+: text) : taskLine text = none ∧ subtaskLine text = none := by
  have first : Text.occurs taskTag text = false := Text.occurs_eq_false_iff.mpr absent
  have second : Text.occurs subtaskTag text = false :=
    Text.occurs_eq_false_iff.mpr fun inside => absent (taskTag_inside.trans inside)
  refine ⟨?_, ?_⟩
  · rw [taskLine, first]
    rfl
  · rw [subtaskLine, second, if_neg Bool.false_ne_true]

/-- A test on tags without white space does not depend on white space around the line. -/
theorem spaceBlind_of_tags (test : Bool → Bool → Bool) (quiet : test false false = false) :
    Text.SpaceBlind fun text =>
      if test (Text.occurs taskTag text) (Text.occurs subtaskTag text) then some (fromBrace text) else none := by
  have tags : taskTag = 'T' :: "ASK_FIN".toList ∧ subtaskTag = 'S' :: "UBTASK_FIN".toList := by decide
  have absent : Text.occurs taskTag [] = false ∧ Text.occurs subtaskTag [] = false := by decide
  have letters : Text.isSpace 'T' = false ∧ Text.isSpace 'S' = false ∧ Text.isSpace '\x7b' = false := by decide
  refine ⟨?_, fun c text space => ?_, fun text unread => ?_⟩
  · rw [absent.1, absent.2, quiet, if_neg Bool.false_ne_true]
  · have other {letter : Char} (solid : Text.isSpace letter = false) : c ≠ letter := by
      intro same
      rw [same, solid] at space
      contradiction
    have first : Text.occurs taskTag (c :: text) = Text.occurs taskTag text := by
      rw [tags.1, Text.occurs_cons (other letters.1)]
    have second : Text.occurs subtaskTag (c :: text) = Text.occurs subtaskTag text := by
      rw [tags.2, Text.occurs_cons (other letters.2.1)]
    rw [first, second]
    cases text with
    | nil => rw [absent.1, absent.2, quiet, if_neg Bool.false_ne_true, if_neg Bool.false_ne_true]
    | cons d rest =>
        have same : fromBrace (c :: d :: rest) = fromBrace (d :: rest) := by
          simp [fromBrace, List.dropWhile_cons, (other letters.2.2), (other letters.2.2).symm]
        rw [same]
  · have first := Text.occurs_rstrip taskTag (by decide) (by decide) text
    have second := Text.occurs_rstrip subtaskTag (by decide) (by decide) text
    have skipped : test (Text.occurs taskTag text) (Text.occurs subtaskTag text) = false := by simpa using unread
    rw [first, second, skipped, if_neg Bool.false_ne_true]

theorem taskLine_blind : Text.SpaceBlind taskLine := spaceBlind_of_tags (fun first second => first && !second) rfl

theorem subtaskLine_blind : Text.SpaceBlind subtaskLine := spaceBlind_of_tags (fun _ second => second) rfl

/-- A line with a block does not end with white space. -/
theorem rstrip_fin {line : LogLine} (fin : line.message.isFin = true) : Text.rstrip line.text = line.text := by
  have ends (front : Text) (fields : List Designator) :
      Text.rstrip (front ++ Initialiser.block fields) = front ++ Initialiser.block fields := by
    have solid : ¬ Text.isSpace '\x7d' = true := by decide
    rw [Initialiser.block, ← List.append_assoc]
    exact List.rdropWhile_concat_neg _ _ _ solid
  cases printed : line.message with
  | taskFin task =>
      rw [LogLine.text, printed, text_taskFin]
      simpa using ends (line.lead ++ (taskTag ++ [':', ' '])) task.fields
  | subtaskFin subtask =>
      rw [LogLine.text, printed, text_subtaskFin]
      simpa using ends (line.lead ++ (subtaskTag ++ [':', ' '])) subtask.fields
  | _ =>
      rw [printed] at fin
      contradiction

/-- No prefix of a task line turns its tag into the tag of a subtask line. -/
def KernelLog.Tagged (log : KernelLog) : Prop :=
  ∀ line ∈ log.lines, line.message.task.isSome = true → ¬ subtaskTag <:+: line.lead ++ taskTag

/-- What the loops of the script take from one line of a log. -/
theorem taken_line {log : KernelLog} (tagged : log.Tagged) {line : LogLine} (known : line ∈ log.lines) :
    taskLine line.text = line.message.task.map (fun task => Initialiser.block task.fields) ∧
      subtaskLine line.text = line.message.subtask.map fun subtask => Initialiser.block subtask.fields := by
  cases printed : line.message with
  | taskFin task =>
      exact taskLine_taskFin printed (log.leads line known (by rw [printed]; rfl))
        (tagged line known (by rw [printed]; rfl))
  | subtaskFin subtask => exact subtaskLine_subtaskFin printed (log.leads line known (by rw [printed]; rfl))
  | _ => exact not_taken (log.others line known (by rw [printed]; rfl))

theorem exitMessages_task (header : Header) : header.exitMessages.filterMap Message.task = header.tasks := by
  simp [Header.exitMessages, List.filterMap_append, List.filterMap_map, Function.comp_def, Message.task]

theorem exitMessages_subtask (header : Header) : header.exitMessages.filterMap Message.subtask = header.subtasks := by
  simp [Header.exitMessages, List.filterMap_append, List.filterMap_map, Function.comp_def, Message.subtask]

/-- The tables of the unloads give the tasks and the subtasks of the log. -/
theorem KernelLog.messages (log : KernelLog) :
    log.lines.filterMap (fun line => line.message.task) = log.unloads.flatMap (fun table => table.tasks) ∧
      log.lines.filterMap (fun line => line.message.subtask) = log.unloads.flatMap fun table => table.subtasks := by
  have collect {α : Type} (view : Message → Option α) (quiet : ∀ message, message.isFin = false → view message = none) :
      log.lines.filterMap (fun line => view line.message) =
        log.unloads.flatMap fun table => table.exitMessages.filterMap view := by
    rw [← List.filterMap_flatMap, ← log.printed, List.filterMap_filter, List.filterMap_map]
    refine List.filterMap_congr fun line _ => ?_
    cases fin : line.message.isFin with
    | false => simp [fin, quiet _ fin]
    | true => simp [fin]
  refine ⟨?_, ?_⟩
  · rw [collect Message.task fun message quiet => by simpa using (Bool.or_eq_false_iff.mp quiet).1]
    exact List.flatMap_congr fun table _ => exitMessages_task table.toHeader
  · rw [collect Message.subtask fun message quiet => by simpa using (Bool.or_eq_false_iff.mp quiet).2]
    exact List.flatMap_congr fun table _ => exitMessages_subtask table.toHeader

/-- The header of a log lists the tasks and the subtasks of all unloads. -/
theorem genHeader_eq {log : KernelLog} (tagged : log.Tagged) : genHeader log.text =
    preamble ++ ((log.unloads.flatMap fun table => table.tasks).map Task.fields).flatMap Initialiser.entry ++
      interlude ++ ((log.unloads.flatMap fun table => table.subtasks).map Subtask.fields).flatMap Initialiser.entry ++
      "\n\x7d;\n".toList := by
  have single : ∀ text ∈ log.lines.map LogLine.text, '\n' ∉ text := by
    simpa using log.single
  have tight {α : Type} {view : Text → Option α}
      (unread : ∀ line ∈ log.lines, line.message.isFin = false → view line.text = none) :
      ∀ text ∈ log.lines.map LogLine.text, view text = none ∨ Text.rstrip text = text := by
    intro text known
    obtain ⟨line, listed, rfl⟩ := List.mem_map.mp known
    cases fin : line.message.isFin with
    | false => exact .inl (unread line listed fin)
    | true => exact .inr (rstrip_fin fin)
  have first := taskLine_blind.strip_unlines single
    (tight fun line known quiet => (not_taken (log.others line known quiet)).1)
  have second := subtaskLine_blind.strip_unlines single
    (tight fun line known quiet => (not_taken (log.others line known quiet)).2)
  have tasks : (log.lines.map LogLine.text).filterMap taskLine =
      (log.unloads.flatMap fun table => table.tasks).map fun task => Initialiser.block task.fields := by
    rw [← log.messages.1, List.filterMap_map, List.map_filterMap]
    exact List.filterMap_congr fun line known => (taken_line tagged known).1
  have subtasks : (log.lines.map LogLine.text).filterMap subtaskLine =
      (log.unloads.flatMap fun table => table.subtasks).map fun subtask => Initialiser.block subtask.fields := by
    rw [← log.messages.2, List.filterMap_map, List.map_filterMap]
    exact List.filterMap_congr fun line known => (taken_line tagged known).2
  rw [genHeader, KernelLog.text, first, second, tasks, subtasks]
  simp only [List.flatMap_map, Initialiser.entry]

/-- A task is read back from its own fields. -/
theorem Task.ofDesignators_fields {task : Task} (words : task.Words) : Task.ofDesignators task.fields = some task := by
  obtain ⟨period, count, start, time⟩ := words
  simp +decide only [ofDesignators, fields, assign, List.foldlM_cons, List.foldlM_nil, if_true, if_false,
    Option.bind_eq_bind, Option.bind_some, Option.pure_def]
  rw [u32_of_lt period, u32_of_lt count, u32_of_lt start, u32_of_lt time]

/-- A subtask is read back from its own fields. -/
theorem Subtask.ofDesignators_fields {subtask : Subtask} (words : subtask.Words) :
    Subtask.ofDesignators subtask.fields = some subtask := by
  obtain ⟨task, id, time, loops, cumulative, core, priority⟩ := words
  simp +decide only [ofDesignators, fields, assign, List.foldlM_cons, List.foldlM_nil, if_true, if_false,
    Option.bind_eq_bind, Option.bind_some, Option.pure_def]
  rw [u32_of_lt task, u32_of_lt id, u32_of_lt time, u32_of_lt loops, u32_of_lt cumulative, u32_of_lt core,
    u32_of_lt priority]

/-- Entries that are each read back are read back together. -/
theorem mapM_map_eq_some {α β : Type} {write : α → β} {read : β → Option α} {entries : List α}
    (inverse : ∀ entry ∈ entries, read (write entry) = some entry) : (entries.map write).mapM read = some entries := by
  induction entries with
  | nil => rfl
  | cons entry rest ih =>
      simp [inverse entry List.mem_cons_self, ih fun other known => inverse other (List.mem_cons_of_mem _ known)]

/-- The tokens in front of the tasks. -/
def preambleTokens : List Token := Initialiser.lex preamble

theorem lex_preamble : preamble.foldl Initialiser.Lexer.read {} = ⟨preambleTokens, [], false⟩ := by decide +kernel

/-- The declarators of the two arrays. -/
abbrev taskArray : List Token := Initialiser.declarator "task".toList "tasks".toList

abbrev subtaskArray : List Token := Initialiser.declarator "subtask".toList "subtasks".toList

/-- The end of an array. -/
abbrev closing : List Token := [.rbrace, .other ';']

theorem lex_interlude : interlude.foldl Initialiser.Lexer.read {} = ⟨closing ++ subtaskArray, [], false⟩ := by
  decide +kernel

theorem lex_ending : "\n\x7d;\n".toList.foldl Initialiser.Lexer.read {} = ⟨closing, [], false⟩ := by
  decide +kernel

/-- The first array is declared at the end of the preamble, and the second is not declared there. -/
theorem preamble_arrays : Initialiser.after taskArray preambleTokens = some [] ∧
    Initialiser.after subtaskArray preambleTokens = none ∧
    ∀ tail ∈ preambleTokens.tails, tail <+: subtaskArray → tail = [] := by decide +kernel

/-- No entry of the first array declares the second. -/
theorem struct_not_mem (tasks : List Task) :
    Token.word "struct".toList ∉ (tasks.map Task.fields).flatMap Initialiser.entryTokens := by
  intro known
  rcases Initialiser.word_mem_entryTokens known with ⟨fields, listed, field, inside, same⟩ | ⟨value, same⟩
  · obtain ⟨task, _, rfl⟩ := List.mem_map.mp listed
    exact Task.forall_names (fun name => "struct".toList ≠ name) (by decide) task field inside same
  · have letter : 's' ∈ "struct".toList := by decide
    exact Text.not_mem_decimal (by decide) value (same ▸ letter)

section

variable (tasks : List Task) (subtasks : List Subtask)

/-- The text of a generated header with these entries. -/
abbrev headerText : Text :=
  preamble ++ (tasks.map Task.fields).flatMap Initialiser.entry ++ interlude ++
    (subtasks.map Subtask.fields).flatMap Initialiser.entry ++ "\n\x7d;\n".toList

/-- The tokens of the second array, behind the entries of the first. -/
def subtaskTokens : List Token :=
  closing ++ subtaskArray ++ ((subtasks.map Subtask.fields).flatMap Initialiser.entryTokens ++ closing)

/-- The tokens of a generated header with these entries. -/
def headerTokens : List Token :=
  preambleTokens ++ ((tasks.map Task.fields).flatMap Initialiser.entryTokens ++ subtaskTokens subtasks)

theorem lex_headerText : Initialiser.lex (headerText tasks subtasks) = headerTokens tasks subtasks := by
  have taskNames : ∀ fields ∈ tasks.map Task.fields, ∀ field ∈ fields, IsName field.1 := by
    simp only [List.forall_mem_map]
    exact fun task _ => Task.forall_names IsName (by decide) task
  have subtaskNames : ∀ fields ∈ subtasks.map Subtask.fields, ∀ field ∈ fields, IsName field.1 := by
    simp only [List.forall_mem_map]
    exact fun subtask _ => Subtask.forall_names IsName (by decide) subtask
  rw [Initialiser.lex, List.foldl_append, List.foldl_append, List.foldl_append, List.foldl_append, lex_preamble,
    Initialiser.Lexer.foldl_entries taskNames, Initialiser.Lexer.foldl_closed lex_interlude,
    Initialiser.Lexer.foldl_entries subtaskNames, Initialiser.Lexer.foldl_closed lex_ending]
  simp [Initialiser.Lexer.flush, headerTokens, subtaskTokens]

theorem array_tasks : Initialiser.array "task".toList "tasks".toList (headerTokens tasks subtasks) =
    some (tasks.map Task.fields) := by
  rw [Initialiser.array, headerTokens, Initialiser.after_append_of_some _ preamble_arrays.1, Option.bind_some,
    List.nil_append]
  exact Initialiser.blocks_entries _ _

theorem array_subtasks : Initialiser.array "subtask".toList "subtasks".toList (headerTokens tasks subtasks) =
    some (subtasks.map Subtask.fields) := by
  have found : Initialiser.after subtaskArray (closing ++ subtaskArray) = some [] := by decide
  have skipped : Initialiser.after subtaskArray ((tasks.map Task.fields).flatMap Initialiser.entryTokens ++
      subtaskTokens subtasks) = Initialiser.after subtaskArray (subtaskTokens subtasks) :=
    Initialiser.after_append_of_not_mem (struct_not_mem tasks)
  rw [Initialiser.array, headerTokens, Initialiser.after_append_of_none preamble_arrays.2.1 preamble_arrays.2.2,
    skipped, subtaskTokens, Initialiser.after_append_of_some _ found, Option.bind_some, List.nil_append]
  exact Initialiser.blocks_entries _ _

end

/-- The arrays of a generated header are the listed tasks and subtasks. -/
theorem readHeader_written {tasks : List Task} {subtasks : List Subtask} (taskWords : ∀ task ∈ tasks, task.Words)
    (subtaskWords : ∀ subtask ∈ subtasks, subtask.Words) :
    readHeader (headerText tasks subtasks) = some { tasks, subtasks } := by
  rw [readHeader, lex_headerText]
  simp only [array_tasks, array_subtasks, Option.bind_eq_bind, Option.bind_some]
  rw [mapM_map_eq_some fun task known => Task.ofDesignators_fields (taskWords task known),
    mapM_map_eq_some fun subtask known => Subtask.ofDesignators_fields (subtaskWords subtask known)]
  rfl

/-- The header of a log reads back the values of all unloads in it, in their order. -/
theorem readHeader_genHeader {log : KernelLog} (tagged : log.Tagged) : readHeader (genHeader log.text) =
    some { tasks := log.unloads.flatMap fun table => table.tasks
           subtasks := log.unloads.flatMap fun table => table.subtasks } := by
  rw [genHeader_eq tagged]
  refine readHeader_written (fun task known => ?_) fun subtask known => ?_
  · obtain ⟨table, _, listed⟩ := List.mem_flatMap.mp known
    exact table.wellFormed.taskWords task listed
  · obtain ⟨table, _, listed⟩ := List.mem_flatMap.mp known
    exact table.wellFormed.subtaskWords subtask listed

/-- The messages of the module have no line break, and only the tags of `E2E_exit` have the letter F. -/
theorem Message.not_mem_text {c : Char} (plain : c = '\n' ∨ c = 'F') {message : Message}
    (own : ∀ text, message ≠ .unrelated text) (fin : message.isFin = true → c = '\n') : c ∉ message.text := by
  have digit : c.isDigit = false := by rcases plain with rfl | rfl <;> decide
  have marks : c ∉ "\x7b.=, \x7d".toList := by rcases plain with rfl | rfl <;> decide
  have decimal := Text.not_mem_decimal digit
  cases message with
  | loaded mode =>
      change c ∉ "Loaded module in ".toList ++ mode.text ++ " mode".toList
      rcases plain with rfl | rfl <;> cases mode <;> decide
  | unschedulable =>
      change c ∉ "Unschedulable case".toList
      rcases plain with rfl | rfl <;> decide
  | progress subtask =>
      change c ∉ "SUBTASK: ".toList ++ Initialiser.block subtask.progressFields
      have tag : c ∉ "SUBTASK: ".toList := by rcases plain with rfl | rfl <;> decide
      have names : ∀ name ∈ (default : Subtask).progressFields.map Prod.fst, c ∉ name := by
        rcases plain with rfl | rfl <;> decide
      have block : c ∉ Initialiser.block subtask.progressFields := Initialiser.not_mem_block digit marks
        fun field known =>
          names _ (List.mem_map_of_mem (f := Prod.fst) known : _ ∈ subtask.progressFields.map Prod.fst)
      exact fun known => (List.mem_append.mp known).elim tag block
  | release taskId subtaskId ts =>
      change c ∉ "RELEASE: task ".toList ++ _ ++ ", subtask ".toList ++ _ ++ ", ts ".toList ++ _
      have words : c ∉ "RELEASE: task ".toList ∧ c ∉ ", subtask ".toList ∧ c ∉ ", ts ".toList := by
        rcases plain with rfl | rfl <;> decide
      simp only [List.mem_append, words, decimal, or_self, not_false_eq_true]
  | missedDdl taskId subtaskId =>
      change c ∉ "MISSED DDL: task ".toList ++ _ ++ ", subtask ".toList ++ _
      have words : c ∉ "MISSED DDL: task ".toList ∧ c ∉ ", subtask ".toList := by
        rcases plain with rfl | rfl <;> decide
      simp only [List.mem_append, words, decimal, or_self, not_false_eq_true]
  | unloaded =>
      change c ∉ "Unloaded module".toList
      rcases plain with rfl | rfl <;> decide
  | taskFin task =>
      obtain rfl := fin rfl
      have tag : '\n' ∉ "TASK_FIN: ".toList := by decide
      have block := Initialiser.not_mem_block digit marks (Task.forall_names (fun name => '\n' ∉ name) (by decide) task)
      exact fun known => (List.mem_append.mp known).elim tag block
  | subtaskFin subtask =>
      obtain rfl := fin rfl
      have tag : '\n' ∉ "SUBTASK_FIN: ".toList := by decide
      have block := Initialiser.not_mem_block digit marks
        (Subtask.forall_names (fun name => '\n' ∉ name) (by decide) subtask)
      exact fun known => (List.mem_append.mp known).elim tag block
  | unrelated text => exact absurd rfl (own text)

/-- A session prints no unrelated text. -/
theorem Session.own {session : Session} {message : Message} (printed : message ∈ session.messages) :
    ∀ text, message ≠ .unrelated text := by
  rintro text rfl
  cases session with
  | calibrate table invalid => cases invalid <;> simp [messages, Header.exitMessages] at printed
  | run jobs =>
      simp only [messages, List.cons_append, List.mem_cons, List.mem_append, List.mem_flatMap, reduceCtorEq,
        List.not_mem_nil, or_false, false_or] at printed
      obtain ⟨⟨taskId, subtaskId, ts, missed⟩, _, listed⟩ := printed
      cases missed <;> simp [jobMessages] at listed

/-- The tagged messages of a session are those of its calibrate-mode unload. -/
theorem Session.filter_isFin (session : Session) : session.messages.filter Message.isFin =
    session.unload.toList.flatMap fun table => table.exitMessages := by
  have jobs (job : Nat × Nat × Nat × Bool) : (jobMessages job).filter Message.isFin = [] := by
    obtain ⟨taskId, subtaskId, ts, missed⟩ := job
    cases missed <;> rfl
  cases session with
  | calibrate table invalid =>
      cases invalid <;>
        simp [messages, unload, Header.exitMessages, Message.isFin, Message.task, Message.subtask, List.filter_map,
          Function.comp_def]
  | run content =>
      refine List.filter_eq_nil_iff.mpr fun message printed => ?_
      simp only [messages, List.cons_append, List.mem_cons, List.mem_append, List.mem_flatMap, List.not_mem_nil,
        or_false] at printed
      rcases printed with rfl | ⟨job, _, listed⟩ | rfl
      · exact Bool.false_ne_true
      · exact List.filter_eq_nil_iff.mp (jobs job) message listed
      · exact Bool.false_ne_true

/-- The tagged messages of a sequence of sessions are those of its calibrate-mode unloads. -/
theorem filter_isFin_sessions (sessions : List Session) : (sessions.flatMap Session.messages).filter Message.isFin =
    (sessions.filterMap Session.unload).flatMap fun table => table.exitMessages := by
  induction sessions with
  | nil => rfl
  | cons session rest ih =>
      rw [List.flatMap_cons, List.filter_append, Session.filter_isFin, ih, List.filterMap_cons]
      cases session <;> simp [Session.unload]

/-- A prefix of `printk` shares no letter with the tags. -/
def PlainLead (lead : Text) : Prop := lead.any ("\n\x7bSUBTASK_FIN".toList.contains ·) = false

instance (lead : Text) : Decidable (PlainLead lead) := inferInstanceAs (Decidable (_ = false))

theorem PlainLead.not_mem {lead : Text} (plain : PlainLead lead) {c : Char}
    (letter : "\n\x7bSUBTASK_FIN".toList.contains c = true) : c ∉ lead :=
  fun known => List.any_eq_false.mp plain c known letter

/-- The log of a sequence of loads and unloads behind a prefix. -/
def KernelLog.ofSessions (lead : Text) (plain : PlainLead lead) (sessions : List Session) : KernelLog where
  lines := (sessions.flatMap Session.messages).map (LogLine.mk lead)
  unloads := sessions.filterMap Session.unload
  single line known := by
    obtain ⟨message, listed, rfl⟩ := List.mem_map.mp known
    obtain ⟨session, _, printed⟩ := List.mem_flatMap.mp listed
    have text := Message.not_mem_text (.inl rfl) (Session.own printed) fun _ => rfl
    exact fun inside => (List.mem_append.mp inside).elim (plain.not_mem (c := '\n') (by decide)) text
  leads line known fin := by
    obtain ⟨message, _, rfl⟩ := List.mem_map.mp known
    exact plain.not_mem (c := '\x7b') (by decide)
  others line known quiet := by
    obtain ⟨message, listed, rfl⟩ := List.mem_map.mp known
    obtain ⟨session, _, printed⟩ := List.mem_flatMap.mp listed
    have text := Message.not_mem_text (.inr rfl) (Session.own printed)
      fun fin => absurd (fin.symm.trans quiet) (by decide)
    intro inside
    have letter : 'F' ∈ lead ++ message.text := inside.subset (by decide)
    exact (List.mem_append.mp letter).elim (plain.not_mem (c := 'F') (by decide)) text
  printed := by
    rw [List.map_map, ← filter_isFin_sessions]
    exact congrArg _ (List.map_id _)

theorem KernelLog.ofSessions_tagged {lead : Text} (plain : PlainLead lead) (sessions : List Session) :
    (KernelLog.ofSessions lead plain sessions).Tagged := by
  intro line known _ inside
  obtain ⟨message, _, rfl⟩ := List.mem_map.mp known
  have letter : 'U' ∈ lead ++ taskTag := inside.subset (by decide)
  exact (List.mem_append.mp letter).elim (plain.not_mem (c := 'U') (by decide)) (by decide)

/-- A log with one calibrate-mode unload gives the arrays of the module at that unload, unless a prefix turns
a task line into a subtask line. -/
theorem calibration_round_trip (log : KernelLog) (table : Table) (once : log.unloads = [table])
    (tagged : log.Tagged) : readHeader (genHeader log.text) = some table.toHeader := by
  rw [readHeader_genHeader tagged, once]
  simp

/-- A prefix with a time stamp. -/
def stamp : Text := "[   12.345678] ".toList

theorem stamp_plain : PlainLead stamp := by decide

/-- The log of one calibration and one run in between that misses a deadline. -/
theorem calibration_round_trip_pair :
    readHeader (genHeader (KernelLog.ofSessions stamp stamp_plain
      [.run [(0, 0, 7, false), (0, 1, 9, true)], .calibrate pairTable false]).text) = some pairTable.toHeader :=
  calibration_round_trip _ pairTable rfl (KernelLog.ofSessions_tagged stamp_plain _)

/-- A task line behind a prefix that completes the other tag. -/
def mergedLog : KernelLog where
  lines := pairTable.exitMessages.map (LogLine.mk "SUB".toList)
  unloads := [pairTable]
  single := by decide +kernel
  leads := by decide +kernel
  others := by decide +kernel
  printed := by decide +kernel

/-- The script puts the task of such a log among the subtasks. -/
theorem calibration_lost : ∃ (log : KernelLog) (table : Table), log.unloads = [table] ∧
    readHeader (genHeader log.text) ≠ some table.toHeader := by
  refine ⟨mergedLog, pairTable, rfl, ?_⟩
  decide +kernel

/-- The printed block of an unload determines its tasks and subtasks. -/
theorem exitMessages_inj {left right : Header} (same : left.exitMessages = right.exitMessages) :
    left.tasks = right.tasks ∧ left.subtasks = right.subtasks := by
  have tasks := congrArg (List.filterMap Message.task) same
  have subtasks := congrArg (List.filterMap Message.subtask) same
  simp only [exitMessages_task, exitMessages_subtask] at tasks subtasks
  exact ⟨tasks, subtasks⟩

/-- Two logs whose last calibrate-mode unloads printed the same block give the same arrays exactly when their
earlier calibrate-mode unloads printed the same tasks and the same subtasks. -/
theorem headers_equal_iff (first second : KernelLog) (firstTagged : first.Tagged) (secondTagged : second.Tagged)
    (firstEarlier secondEarlier : List Table) (firstLast secondLast : Table)
    (firstUnloads : first.unloads = firstEarlier ++ [firstLast])
    (secondUnloads : second.unloads = secondEarlier ++ [secondLast])
    (block : firstLast.exitMessages = secondLast.exitMessages) :
    readHeader (genHeader first.text) = readHeader (genHeader second.text) ↔
      (firstEarlier.flatMap (fun table => table.tasks) = secondEarlier.flatMap (fun table => table.tasks) ∧
        firstEarlier.flatMap (fun table => table.subtasks) = secondEarlier.flatMap fun table => table.subtasks) := by
  obtain ⟨tasks, subtasks⟩ := exitMessages_inj block
  rw [readHeader_genHeader firstTagged, readHeader_genHeader secondTagged, firstUnloads, secondUnloads]
  simp [tasks, subtasks]

/-- A run in front of the calibration does not change the arrays. -/
theorem headers_equal_iff_pair :
    readHeader (genHeader (KernelLog.ofSessions stamp stamp_plain [.calibrate pairTable false]).text) =
      readHeader (genHeader (KernelLog.ofSessions stamp stamp_plain
        [.run [(0, 0, 7, false), (0, 1, 9, true)], .calibrate pairTable false]).text) :=
  (headers_equal_iff _ _ (KernelLog.ofSessions_tagged stamp_plain _) (KernelLog.ofSessions_tagged stamp_plain _)
    [] [] pairTable pairTable rfl rfl rfl).mpr ⟨rfl, rfl⟩

/-- One task with one subtask. -/
def soloTable : Table where
  tasks := [⟨3, 1, 0, 1⟩]
  subtasks := [⟨0, 0, 1, 100, 1, 0, 50⟩]
  wellFormed := by constructor <;> decide

/-- An earlier calibration of another table that is still in the log changes the arrays. -/
theorem earlier_calibration_collected : ∃ first second : KernelLog, first.Tagged ∧ second.Tagged ∧
    first.unloads = [soloTable, pairTable] ∧ second.unloads = [pairTable] ∧
    readHeader (genHeader first.text) ≠ readHeader (genHeader second.text) := by
  have firstTagged := KernelLog.ofSessions_tagged stamp_plain [.calibrate soloTable false, .calibrate pairTable false]
  have secondTagged := KernelLog.ofSessions_tagged stamp_plain [.calibrate pairTable false]
  refine ⟨_, _, firstTagged, secondTagged, rfl, rfl, ?_⟩
  rw [readHeader_genHeader firstTagged, readHeader_genHeader secondTagged]
  decide

end KernelStudio.EndToEnd
