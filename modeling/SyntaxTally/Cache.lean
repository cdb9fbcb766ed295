/-!
# Build-once cache

Values are built on demand and kept. Each stored build is counted; a build that fails leaves no trace.
-/
namespace SyntaxTally

structure Cache (κ ν : Type) where
  entries : List (κ × ν)
  /-- The keys of all stored builds since the last clearing. -/
  built : List κ

namespace Cache

variable {κ ν ε α : Type} [DecidableEq κ]

def empty : Cache κ ν := ⟨[], []⟩

def get? (cache : Cache κ ν) (key : κ) : Option ν := (cache.entries.find? (·.1 = key)).map (·.2)

def contains (cache : Cache κ ν) (key : κ) : Bool := cache.entries.any (·.1 = key)

def size (cache : Cache κ ν) : Nat := cache.entries.length

def buildCount (cache : Cache κ ν) (key : κ) : Nat := cache.built.count key

/-- Puts a value in place of one that was stored meanwhile. -/
def put (cache : Cache κ ν) (key : κ) (value : ν) : Cache κ ν :=
  { cache with entries := cache.entries.filter (·.1 ≠ key) ++ [(key, value)] }

def countBuild (cache : Cache κ ν) (key : κ) : Cache κ ν := { cache with built := cache.built ++ [key] }

/-- Keeps a built value. -/
def store (cache : Cache κ ν) (key : κ) (value : ν) : Cache κ ν := (cache.put key value).countBuild key

def clear (_ : Cache κ ν) : Cache κ ν := empty

/-- The kept value, or else the one that the builder gives, which is then kept. The builder may use the
cache itself, and what it says besides is passed on; it says nothing if it is not called. -/
def getOrBuild (cache : Cache κ ν) (key : κ) (build : Cache κ ν → Except ε ν × α × Cache κ ν) :
    Except ε ν × Option α × Cache κ ν :=
  match cache.get? key with
  | some value => (.ok value, none, cache)
  | none =>
    match build cache with
    | (.ok value, said, cache) => (.ok value, some said, cache.store key value)
    | (.error fault, said, cache) => (.error fault, some said, cache)

end Cache

end SyntaxTally
