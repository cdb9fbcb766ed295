import SyntaxTally.Cache

/-!
# A cache with several callers

A call that finds no value for its key waits for the lock of the key. When it has the lock it looks again, and
builds and stores the value if there is still none. A builder can use the cache itself, so that each caller
has a stack of calls. The table of locks, the storing of a value and the clearing are under one guard; looking
is not. Clearing drops the locks with the values; a lock that is held then stays with its holder. A step is
what one caller does while the others stand still.
-/
namespace SyntaxTally

/-- What a call is at. -/
inductive CallStage (ν ε : Type) where
  | looking
  /-- There was no value, and the lock of the key is asked for. -/
  | asking
  | queued (lock : Nat)
  | checking (lock : Nat)
  | building (lock : Nat)
  | storing (lock : Nat) (value : ν)
  /-- The value is put into the cache, but the build is not counted yet. -/
  | counting (lock : Nat) (value : ν)
  | leaving (lock : Nat) (value : ν)
  | failing (lock : Nat) (fault : ε)
  deriving DecidableEq

structure CacheCall (κ ν ε : Type) where
  key : κ
  /-- How many clearings came before the call. -/
  era : Nat
  stage : CallStage ν ε
  deriving DecidableEq

/-- What a caller does next. What a builder does is up to the caller. -/
inductive CacheMove (κ ν ε : Type) where
  | call (key : κ)
  | clear
  /-- The innermost call goes on. -/
  | goOn
  | build (value : ν)
  | fail (fault : ε)

/-- What callers learn: from their builders, and from their calls. -/
inductive CacheEvent (κ ν ε : Type) where
  | built (caller : Nat) (key : κ) (value : ν)
  | broke (caller : Nat) (key : κ) (fault : ε)
  /-- A call has returned, before which there were so many clearings. -/
  | returned (caller : Nat) (key : κ) (era : Nat) (value : ν)
  | raised (caller : Nat) (key : κ) (fault : ε)
  deriving DecidableEq

structure SharedCache (κ ν ε : Type) where
  cache : Cache κ ν
  /-- The locks of the keys that were asked for since the last clearing. -/
  locks : List (κ × Nat) := []
  /-- The number of the next new lock. -/
  nextLock : Nat := 0
  held : List Nat := []
  /-- A call has the guard while it stores a value. -/
  guarded : Bool := false
  /-- How many clearings there were. -/
  era : Nat := 0
  /-- The calls of each caller, the innermost first. -/
  callers : List (List (CacheCall κ ν ε))
  /-- What has happened, the last first. -/
  events : List (CacheEvent κ ν ε) := []

namespace SharedCache

variable {κ ν ε : Type} [DecidableEq κ]

/-- A cache at the start, with so many callers. -/
def begin (callers : Nat) : SharedCache κ ν ε := { cache := .empty, callers := List.replicate callers [] }

def setCalls (s : SharedCache κ ν ε) (i : Nat) (calls : List (CacheCall κ ν ε)) : SharedCache κ ν ε :=
  { s with callers := s.callers.set i calls }

def release (s : SharedCache κ ν ε) (lock : Nat) : SharedCache κ ν ε :=
  { s with held := s.held.erase lock }

def tell (s : SharedCache κ ν ε) (event : CacheEvent κ ν ε) : SharedCache κ ν ε :=
  { s with events := event :: s.events }

/-- The lock of a key, which is made if there is none. -/
def lockOf (s : SharedCache κ ν ε) (key : κ) : Nat × SharedCache κ ν ε :=
  match s.locks.lookup key with
  | some lock => (lock, s)
  | none => (s.nextLock, { s with locks := (key, s.nextLock) :: s.locks, nextLock := s.nextLock + 1 })

/-- The caller can use the cache: it is in no call, or in a builder. -/
def isFree : List (CacheCall κ ν ε) → Bool
  | [] => true
  | ⟨_, _, .building _⟩ :: _ => true
  | _ => false

/-- The innermost call of a caller goes on, if it need not wait. -/
def goOn? (s : SharedCache κ ν ε) (i : Nat) (key : κ) (era : Nat) (rest : List (CacheCall κ ν ε)) :
    CallStage ν ε → Option (SharedCache κ ν ε)
  | .looking =>
    match s.cache.get? key with
    | some value => some ((s.tell (.returned i key era value)).setCalls i rest)
    | none => some (s.setCalls i (⟨key, era, .asking⟩ :: rest))
  | .asking =>
    if s.guarded then none
    else some ((s.lockOf key).2.setCalls i (⟨key, era, .queued (s.lockOf key).1⟩ :: rest))
  | .queued lock =>
    if s.held.contains lock then none
    else some ({ s with held := lock :: s.held }.setCalls i (⟨key, era, .checking lock⟩ :: rest))
  | .checking lock =>
    match s.cache.get? key with
    | some value => some (s.setCalls i (⟨key, era, .leaving lock value⟩ :: rest))
    | none => some (s.setCalls i (⟨key, era, .building lock⟩ :: rest))
  | .building _ => none
  | .storing lock value =>
    if s.guarded then none
    else some ({ s with cache := s.cache.put key value, guarded := true }.setCalls i
      (⟨key, era, .counting lock value⟩ :: rest))
  | .counting lock value =>
    some ({ s with cache := s.cache.countBuild key, guarded := false }.setCalls i
      (⟨key, era, .leaving lock value⟩ :: rest))
  | .leaving lock value => some (((s.release lock).tell (.returned i key era value)).setCalls i rest)
  | .failing lock fault => some (((s.release lock).tell (.raised i key fault)).setCalls i rest)

/-- One step of a caller, if it can make it. -/
def step? (s : SharedCache κ ν ε) (i : Nat) (move : CacheMove κ ν ε) : Option (SharedCache κ ν ε) :=
  match s.callers[i]?, move with
  | none, _ => none
  | some calls, .call key =>
    if isFree calls then some (s.setCalls i (⟨key, s.era, .looking⟩ :: calls)) else none
  | some calls, .clear =>
    if isFree calls && !s.guarded then
      some { s with cache := s.cache.clear, locks := [], era := s.era + 1 }
    else none
  | some (⟨key, era, stage⟩ :: rest), .goOn => s.goOn? i key era rest stage
  | some (⟨key, era, .building lock⟩ :: rest), .build value =>
    some ((s.tell (.built i key value)).setCalls i (⟨key, era, .storing lock value⟩ :: rest))
  | some (⟨key, era, .building lock⟩ :: rest), .fail fault =>
    some ((s.tell (.broke i key fault)).setCalls i (⟨key, era, .failing lock fault⟩ :: rest))
  | _, _ => none

/-- Makes the moves one after the other, each by its caller. -/
def run? (s : SharedCache κ ν ε) : List (Nat × CacheMove κ ν ε) → Option (SharedCache κ ν ε)
  | [] => some s
  | (i, move) :: rest => (s.step? i move).bind fun next => next.run? rest

/-! ### One way to run -/

/-- What a caller does if its builders do not use the cache themselves. -/
def nextMove (build : κ → Except ε ν) : List (CacheCall κ ν ε) → CacheMove κ ν ε
  | ⟨key, _, .building _⟩ :: _ =>
    match build key with
    | .ok value => .build value
    | .error fault => .fail fault
  | _ => .goOn

/-- Each caller in turn makes a step if it can. -/
def round (build : κ → Except ε ν) (s : SharedCache κ ν ε) : SharedCache κ ν ε :=
  (List.range s.callers.length).foldl
    (fun s i => (s.step? i (nextMove build (s.callers[i]?.getD []))).getD s) s

/-- So many callers ask for a key at once, and go on in turns until all calls are over. -/
def race (build : κ → Except ε ν) (key : κ) (callers : Nat) (cache : Cache κ ν) : SharedCache κ ν ε :=
  let first : SharedCache κ ν ε :=
    { cache, callers := List.replicate callers [⟨key, 0, .looking⟩] }
  -- in each round the holder of the lock makes a step, and a call with the lock makes six at most
  (List.range (6 * callers + 3)).foldl (fun s _ => s.round build) first

end SharedCache

end SyntaxTally
