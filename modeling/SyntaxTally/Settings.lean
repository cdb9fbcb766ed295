/-!
# Settings

What a run can be told, and the numbers of workers, places in the queue and walking threads that follow
from it. They are at least one whatever is set.
-/
namespace SyntaxTally

structure WalkSettings where
  followLinks : Bool := false
  hidden : Bool := false
  threads : Option Int := none
  excludePaths : List String := []
  deriving DecidableEq

def defaultTableWidth : Nat := 40

structure Settings where
  workers : Option Int := none
  queueSize : Option Int := none
  languages : List String := []
  showSkipped : Bool := false
  tableWidth : Int := defaultTableWidth
  walk : WalkSettings := {}
  deriving DecidableEq

namespace Settings

/-- The value that is set, if it is positive. -/
def positive? : Option Int → Option Nat
  | some n => if 0 < n then some n.toNat else none
  | none => none

/-- By default there is a worker for each processor, and at least two. -/
def effectiveWorkers (settings : Settings) (processors : Option Nat) : Nat :=
  (positive? settings.workers).getD (max 2 (processors.getD 1))

def effectiveQueueSize (settings : Settings) (processors : Option Nat) : Nat :=
  (positive? settings.queueSize).getD (settings.effectiveWorkers processors)

/-- By default as many threads walk as there are workers, but not more than four. -/
def effectiveWalkThreads (settings : Settings) (processors : Option Nat) : Nat :=
  (positive? settings.walk.threads).getD (max 1 (min 4 (settings.effectiveWorkers processors)))

end Settings

end SyntaxTally
