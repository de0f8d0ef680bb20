/-
This file models the lines that the module prints, the script `gen.py` that collects them from the kernel
log, and the meaning of the header that the script writes.
-/

import KernelStudio.Construction.EndToEnd.Table
import KernelStudio.Library.Initialiser

namespace KernelStudio.EndToEnd

open Initialiser (Designator)

/-- The fields of a `TASK_FIN` line. -/
def Task.fields (task : Task) : List Designator :=
  [("period".toList, task.period), ("subtask_count".toList, task.subtaskCount),
    ("subtask_start_idx".toList, task.subtaskStartIdx), ("exe_time".toList, task.exeTime)]

/-- The fields of a `SUBTASK_FIN` line. -/
def Subtask.fields (subtask : Subtask) : List Designator :=
  [("task_id".toList, subtask.taskId), ("subtask_id".toList, subtask.subtaskId),
    ("exe_time".toList, subtask.exeTime), ("loop_count".toList, subtask.loopCount), ("core".toList, subtask.core),
    ("priority".toList, subtask.priority), ("cumulative_exe_time".toList, subtask.cumulativeExeTime)]

/-- The fields of the line that `calibrate` prints for a subtask. -/
def Subtask.progressFields (subtask : Subtask) : List Designator :=
  [("task_id".toList, subtask.taskId), ("subtask_id".toList, subtask.subtaskId),
    ("loop_count".toList, subtask.loopCount), ("core".toList, subtask.core), ("priority".toList, subtask.priority)]

/-- The module parameter `mode`. -/
inductive Mode where
  | calibrate
  | run
  deriving DecidableEq

def Mode.text : Mode → Text
  | .calibrate => "calibrate".toList
  | .run => "run".toList

/-- The messages in the kernel log. All but the last come from the module. -/
inductive Message where
  | loaded (mode : Mode)
  | unschedulable
  | progress (subtask : Subtask)
  | release (taskId subtaskId ts : Nat)
  | missedDdl (taskId subtaskId : Nat)
  | unloaded
  | taskFin (task : Task)
  | subtaskFin (subtask : Subtask)
  | unrelated (text : Text)
  deriving DecidableEq

namespace Message

/-- The text of a message without its line break. -/
def text : Message → Text
  | loaded mode => "Loaded module in ".toList ++ mode.text ++ " mode".toList
  | unschedulable => "Unschedulable case".toList
  | progress subtask => "SUBTASK: ".toList ++ Initialiser.block subtask.progressFields
  | release taskId subtaskId ts => "RELEASE: task ".toList ++ Text.decimal taskId ++ ", subtask ".toList ++
      Text.decimal subtaskId ++ ", ts ".toList ++ Text.decimal ts
  | missedDdl taskId subtaskId =>
      "MISSED DDL: task ".toList ++ Text.decimal taskId ++ ", subtask ".toList ++ Text.decimal subtaskId
  | unloaded => "Unloaded module".toList
  | taskFin task => "TASK_FIN: ".toList ++ Initialiser.block task.fields
  | subtaskFin subtask => "SUBTASK_FIN: ".toList ++ Initialiser.block subtask.fields
  | unrelated text => text

def task : Message → Option Task
  | taskFin task => some task
  | _ => none

def subtask : Message → Option Subtask
  | subtaskFin subtask => some subtask
  | _ => none

/-- Only the calibrate branch of `E2E_exit` prints these messages. -/
def isFin (message : Message) : Bool := message.task.isSome || message.subtask.isSome

end Message

/-- The messages of the calibrate branch of `E2E_exit`. -/
def Header.exitMessages (header : Header) : List Message :=
  header.tasks.map .taskFin ++ header.subtasks.map .subtaskFin

/-- What the module prints between a load and the next unload. -/
inductive Session where
  | calibrate (table : Table) (invalid : Bool)
  | run (jobs : List (Nat × Nat × Nat × Bool))

/-- A job of the run mode prints its release, and the miss if there is one. -/
def jobMessages : Nat × Nat × Nat × Bool → List Message := fun (taskId, subtaskId, ts, missed) =>
  .release taskId subtaskId ts :: if missed then [.missedDdl taskId subtaskId] else []

def Session.messages : Session → List Message
  | calibrate table invalid => .loaded .calibrate :: (if invalid then [.unschedulable] else []) ++
      table.subtasks.map .progress ++ .unloaded :: table.exitMessages
  | run jobs => .loaded .run :: jobs.flatMap jobMessages ++ [.unloaded]

/-- The table of a calibrate-mode unload. -/
def Session.unload : Session → Option Table
  | calibrate table _ => some table
  | run _ => none

/-- A line of the log is a message behind the prefix that `printk` adds. -/
structure LogLine where
  lead : Text
  message : Message

def LogLine.text (line : LogLine) : Text := line.lead ++ line.message.text

/-- A kernel log with the tables of the calibrate-mode unloads in it, in their order. Its text is what `gen.py` finds in
`sys_log.stdout`, which translates all newlines before, so each line ends at its newline. -/
structure KernelLog where
  lines : List LogLine
  unloads : List Table
  single : ∀ line ∈ lines, '\n' ∉ line.text
  leads : ∀ line ∈ lines, line.message.isFin = true → '\x7b' ∉ line.lead
  others : ∀ line ∈ lines, line.message.isFin = false → ¬ "TASK_FIN".toList <:+: line.text
  printed : (lines.map LogLine.message).filter Message.isFin = unloads.flatMap fun table => table.exitMessages

/-- The output of `dmesg`. -/
def KernelLog.text (log : KernelLog) : Text := Text.unlines (log.lines.map LogLine.text)

/-- The part of a line that `line[line.find("\x7b"):]` takes. A line without a brace gives its last character. -/
def fromBrace (line : Text) : Text :=
  if '\x7b' ∈ line then line.dropWhile (· ≠ '\x7b') else line.getLast?.toList

/-- The test of the first loop of `gen.py`, and the part of the line that it takes. -/
def taskLine (line : Text) : Option Text :=
  if Text.occurs "TASK_FIN".toList line && !Text.occurs "SUBTASK_FIN".toList line then some (fromBrace line) else none

/-- The test of the second loop of `gen.py`, and the part of the line that it takes. -/
def subtaskLine (line : Text) : Option Text :=
  if Text.occurs "SUBTASK_FIN".toList line then some (fromBrace line) else none

/-- The text in front of the tasks. -/
def preamble : Text := ['\n'].intercalate (List.map String.toList
  ["",
    "#include <linux/hrtimer.h>",
    "#include <linux/ktime.h>",
    "#include <linux/kthread.h>",
    "",
    "struct task \x7b",
    "    uint32_t period;",
    "    uint32_t subtask_count;",
    "    uint32_t subtask_start_idx;",
    "    uint32_t exe_time; ",
    "\x7d;",
    "",
    "struct subtask \x7b",
    "    uint32_t task_id;",
    "    uint32_t subtask_id;",
    "    uint32_t exe_time;",
    "    struct hrtimer timer;",
    "    struct task_struct *thread;",
    "    ktime_t last_release_time;",
    "    uint32_t loop_count;",
    "    uint32_t cumulative_exe_time;",
    "    uint32_t core;",
    "    uint32_t priority;",
    "\x7d;",
    "",
    "struct task tasks[] = \x7b"])

/-- The text between the tasks and the subtasks. -/
def interlude : Text := "\n\x7d;\n".toList ++ "struct subtask subtasks[] = \x7b".toList

/-- The script `gen.py` writes this header for an output of `dmesg`. -/
def genHeader (sysLog : Text) : Text :=
  let f := Text.lines (Text.strip sysLog)
  preamble ++ (f.filterMap taskLine).flatMap (fun found => "\n\t".toList ++ found ++ [',']) ++
    interlude ++ (f.filterMap subtaskLine).flatMap (fun found => "\n\t".toList ++ found ++ [',']) ++
    "\n\x7d;\n".toList

/-- A designator sets the member that it names. No other member can be named. -/
def Task.assign (task : Task) : Designator → Option Task := fun (name, value) =>
  if name = "period".toList then some { task with period := u32 value }
  else if name = "subtask_count".toList then some { task with subtaskCount := u32 value }
  else if name = "subtask_start_idx".toList then some { task with subtaskStartIdx := u32 value }
  else if name = "exe_time".toList then some { task with exeTime := u32 value }
  else none

/-- A designator sets the member that it names. No other member can be named. -/
def Subtask.assign (subtask : Subtask) : Designator → Option Subtask := fun (name, value) =>
  if name = "task_id".toList then some { subtask with taskId := u32 value }
  else if name = "subtask_id".toList then some { subtask with subtaskId := u32 value }
  else if name = "exe_time".toList then some { subtask with exeTime := u32 value }
  else if name = "loop_count".toList then some { subtask with loopCount := u32 value }
  else if name = "core".toList then some { subtask with core := u32 value }
  else if name = "priority".toList then some { subtask with priority := u32 value }
  else if name = "cumulative_exe_time".toList then some { subtask with cumulativeExeTime := u32 value }
  else none

/-- The members of an initialised structure that no designator names are zero. -/
def Task.ofDesignators (block : List Designator) : Option Task := block.foldlM Task.assign default

/-- The members of an initialised structure that no designator names are zero. -/
def Subtask.ofDesignators (block : List Designator) : Option Subtask := block.foldlM Subtask.assign default

/-- The arrays that the module is compiled with when it includes a header. -/
def readHeader (text : Text) : Option Header := do
  let tokens := Initialiser.lex text
  let tasks ← Initialiser.array "task".toList "tasks".toList tokens
  let subtasks ← Initialiser.array "subtask".toList "subtasks".toList tokens
  return { tasks := ← tasks.mapM Task.ofDesignators, subtasks := ← subtasks.mapM Subtask.ofDesignators }

end KernelStudio.EndToEnd
