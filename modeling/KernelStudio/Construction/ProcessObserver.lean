/-
This file models the process observer, which reads `/proc` in each round and prints what differs from the listing
of the round before.
-/

import KernelStudio.Library.Changes

namespace KernelStudio.ProcessObserver

open Changes

/-- The constant `LIST_LEN`. -/
def listLen : Nat := 1024

/-- A listing of `/proc` in the order of `readdir`. Entries that do not start with a digit are skipped. -/
structure Listing where
  pids : List Int
  nonempty : pids ≠ []
  distinct : pids.Nodup
  fits : pids.length < listLen

/-- A buffer of `LIST_LEN` cells with the number of its entries. The cells behind the entries are stale. -/
structure Buffer where
  list : Nat → Int
  len : Nat

/-- The loop over `readdir` fills a new buffer from its start, and `malloc` leaves the other cells as they were. -/
def fill (malloc : Nat → Int) (listing : Listing) : Buffer where
  list i := listing.pids[i]?.getD (malloc i)
  len := listing.pids.length

/-- What one round takes from its environment: the listing, the memory that `malloc` returns, and the parents that
`printChain` reads for a process, as far as their status files can be opened. -/
structure Round where
  listing : Listing
  malloc : Nat → Int
  parents : Int → List Int

def Round.newList (round : Round) : Buffer := fill round.malloc round.listing

/-- The printed lines. A chain that stops in front of `original_pid` has no end of line. -/
inductive Line where
  | created (pid : Int)
  | chain (pids : List Int) (ended : Bool)
  | deleted (pid : Int)
  deriving DecidableEq

def Line.change : Line → Option (Change Int)
  | .created pid => some (.created pid)
  | .chain _ _ => none
  | .deleted pid => some (.deleted pid)

/-- The function `printChain` follows the parents up to `original_pid` or to a status file that does not open. -/
def printChain (originalPid : Int) (pid : Int) : List Int → List Int × Bool
  | [] => ([pid], pid = originalPid)
  | ppid :: parents =>
      if pid = originalPid then ([pid], true)
      else
        let (pids, ended) := printChain originalPid ppid parents
        (pid :: pids, ended)

/-- Both inner loops compare `new_list[j]` with the first cells of `old_list`. -/
def unmatched (newList oldList : Nat → Int) (j len : Nat) : Bool :=
  (List.range len).foldl (fun flag k => if newList j = oldList k then false else flag) true

/-- The locals of `main` that outlive a round. -/
structure Observer where
  oldList : Buffer
  first : Bool := true
  originalPid : Int := 0

/-- One turn of the loop over the new listing. -/
def createdTurn (oldList newList : Buffer) (parents : Int → List Int) (cur : Observer × List Line) (j : Nat) :
    Observer × List Line :=
  if unmatched newList.list oldList.list j oldList.len then
    let pid := newList.list j
    let originalPid := if cur.1.first then pid else cur.1.originalPid
    let (pids, ended) := printChain originalPid pid (parents pid)
    ({ cur.1 with first := false, originalPid }, cur.2 ++ [.created pid, .chain pids ended])
  else cur

/-- One turn of the loop over the old listing. -/
def deletedTurn (oldList newList : Buffer) (lines : List Line) (j : Nat) : List Line :=
  if unmatched newList.list oldList.list j newList.len then lines ++ [.deleted (oldList.list j)] else lines

/-- One round of the endless loop in `main` and the lines that it prints. -/
def Observer.round (state : Observer) (round : Round) : Observer × List Line :=
  let newList := round.newList
  let (next, lines) := (List.range newList.len).foldl (createdTurn state.oldList newList round.parents) (state, [])
  ({ next with oldList := newList }, (List.range state.oldList.len).foldl (deletedTurn state.oldList newList) lines)

/-- The lines of each round. -/
def Observer.run : Observer → List Round → List (List Line)
  | _, [] => []
  | state, round :: later => (state.round round).2 :: (state.round round).1.run later

/-- The observer reads one listing before its first round. -/
def main (malloc : Nat → Int) (initial : Listing) (rounds : List Round) : List (List Line) :=
  Observer.run { oldList := fill malloc initial } rounds

end KernelStudio.ProcessObserver
