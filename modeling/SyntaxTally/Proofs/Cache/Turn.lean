import SyntaxTally.Cache.Shared
import SyntaxTally.Proofs.Slots

/-!
# What a caller of a cache does in a step

A step takes at most one call from the stack of a caller and puts at most one in its place. `Turn` says for
each step which calls these are and what becomes of all that the callers share. From this follows what holds
in every run, whether the cache is cleared or not: a lock is held by one call at most, the guard is held by
the one call that is about to count its build, and the fault of a builder is raised once, by its own call.
-/
namespace SyntaxTally

namespace Cache

variable {κ ν : Type} [DecidableEq κ] {key other : κ}

theorem contains_eq_isSome (cache : Cache κ ν) (key : κ) :
    cache.contains key = (cache.get? key).isSome := by
  rw [contains, get?, Option.isSome_map, List.isSome_find?]

theorem get?_put (cache : Cache κ ν) (key : κ) (value : ν) : (cache.put key value).get? key = some value := by
  have gone : (cache.entries.filter (·.1 ≠ key)).find? (·.1 = key) = none := by
    simp [List.find?_eq_none]
  rw [get?, put, List.find?_append, gone]
  simp

theorem get?_put_of_ne (cache : Cache κ ν) (value : ν) (different : other ≠ key) :
    (cache.put other value).get? key = cache.get? key := by
  have kept : (cache.entries.filter (·.1 ≠ other)).find? (·.1 = key) = cache.entries.find? (·.1 = key) := by
    rw [List.find?_filter]
    congr 1
    funext entry
    by_cases same : entry.1 = key
    · simp [same, different.symm]
    · simp [same]
  rw [get?, get?, put, List.find?_append, kept]
  simp [different]

@[simp] theorem get?_countBuild (cache : Cache κ ν) (other key : κ) :
    (cache.countBuild other).get? key = cache.get? key := rfl

@[simp] theorem buildCount_put (cache : Cache κ ν) (other key : κ) (value : ν) :
    (cache.put other value).buildCount key = cache.buildCount key := rfl

theorem buildCount_countBuild (cache : Cache κ ν) (other key : κ) :
    (cache.countBuild other).buildCount key = cache.buildCount key + if other = key then 1 else 0 := by
  simp [buildCount, countBuild, List.count_append, List.count_singleton]

@[simp] theorem get?_clear (cache : Cache κ ν) (key : κ) : cache.clear.get? key = none := rfl

@[simp] theorem buildCount_clear (cache : Cache κ ν) (key : κ) : cache.clear.buildCount key = 0 := rfl

end Cache

/-! ### Calls -/

namespace CacheCall

variable {κ ν ε : Type}

/-- The lock that the call has. -/
def holds? (call : CacheCall κ ν ε) : Option Nat :=
  match call.stage with
  | .looking | .asking | .queued _ => none
  | .checking lock | .building lock | .storing lock _ | .counting lock _ | .leaving lock _
  | .failing lock _ => some lock

/-- The call has put its value into the cache and not counted the build yet. -/
def isCounting (call : CacheCall κ ν ε) : Bool :=
  match call.stage with
  | .counting _ _ => true
  | _ => false

/-- The fault that the call is about to raise. -/
def fault? (call : CacheCall κ ν ε) : Option (κ × ε) :=
  match call.stage with
  | .failing _ fault => some (call.key, fault)
  | _ => none

end CacheCall

namespace CacheEvent

variable {κ ν ε : Type}

/-- The fault of a builder of a caller. -/
def broke? (i : Nat) : CacheEvent κ ν ε → Option (κ × ε)
  | broke caller key fault => if caller = i then some (key, fault) else none
  | built _ _ _ | returned _ _ _ _ | raised _ _ _ => none

/-- The fault that a call of a caller has raised. -/
def raised? (i : Nat) : CacheEvent κ ν ε → Option (κ × ε)
  | raised caller key fault => if caller = i then some (key, fault) else none
  | built _ _ _ | returned _ _ _ _ | broke _ _ _ => none

end CacheEvent

namespace SharedCache

variable {κ ν ε : Type} [DecidableEq κ] {s next shared : SharedCache κ ν ε} {i : Nat}
  {move : CacheMove κ ν ε} {before after rest : List (CacheCall κ ν ε)}

/-- All calls that are not over. -/
def calls (s : SharedCache κ ν ε) : List (CacheCall κ ν ε) := s.callers.flatten

/-- The faults of the builders of a caller, with their keys. -/
def brokeBy (s : SharedCache κ ν ε) (i : Nat) : List (κ × ε) := s.events.filterMap (CacheEvent.broke? i)

/-- The faults that calls of a caller have raised, with their keys. -/
def raisedBy (s : SharedCache κ ν ε) (i : Nat) : List (κ × ε) := s.events.filterMap (CacheEvent.raised? i)

/-- The faults that calls of a caller are about to raise, with their keys. -/
def failingOf (s : SharedCache κ ν ε) (i : Nat) : List (κ × ε) :=
  (s.callers[i]?.getD []).filterMap CacheCall.fault?

/-! ### What a step can do -/

/-- The turns of a caller: the call that it goes on with, what becomes of it, and what becomes of all that is
shared. -/
inductive Turn (s : SharedCache κ ν ε) (i : Nat) :
    CacheMove κ ν ε → List (CacheCall κ ν ε) → List (CacheCall κ ν ε) → SharedCache κ ν ε → Prop where
  | call (key : κ) : Turn s i (.call key) [] [⟨key, s.era, .looking⟩] s
  | clear (unguarded : s.guarded = false) :
    Turn s i .clear [] [] { s with cache := s.cache.clear, locks := [], era := s.era + 1 }
  | hit {key : κ} {era : Nat} {value : ν} (found : s.cache.get? key = some value) :
    Turn s i .goOn [⟨key, era, .looking⟩] [] (s.tell (.returned i key era value))
  | miss {key : κ} {era : Nat} : Turn s i .goOn [⟨key, era, .looking⟩] [⟨key, era, .asking⟩] s
  | ask {key : κ} {era : Nat} :
    Turn s i .goOn [⟨key, era, .asking⟩] [⟨key, era, .queued (s.lockOf key).1⟩] (s.lockOf key).2
  | acquire {key : κ} {era lock : Nat} (available : lock ∉ s.held) :
    Turn s i .goOn [⟨key, era, .queued lock⟩] [⟨key, era, .checking lock⟩]
      { s with held := lock :: s.held }
  | hitAgain {key : κ} {era lock : Nat} {value : ν} (found : s.cache.get? key = some value) :
    Turn s i .goOn [⟨key, era, .checking lock⟩] [⟨key, era, .leaving lock value⟩] s
  | missAgain {key : κ} {era lock : Nat} (absent : s.cache.get? key = none) :
    Turn s i .goOn [⟨key, era, .checking lock⟩] [⟨key, era, .building lock⟩] s
  | build {key : κ} {era lock : Nat} (value : ν) :
    Turn s i (.build value) [⟨key, era, .building lock⟩] [⟨key, era, .storing lock value⟩]
      (s.tell (.built i key value))
  | fail {key : κ} {era lock : Nat} (fault : ε) :
    Turn s i (.fail fault) [⟨key, era, .building lock⟩] [⟨key, era, .failing lock fault⟩]
      (s.tell (.broke i key fault))
  | put {key : κ} {era lock : Nat} {value : ν} (unguarded : s.guarded = false) :
    Turn s i .goOn [⟨key, era, .storing lock value⟩] [⟨key, era, .counting lock value⟩]
      { s with cache := s.cache.put key value, guarded := true }
  | count {key : κ} {era lock : Nat} {value : ν} :
    Turn s i .goOn [⟨key, era, .counting lock value⟩] [⟨key, era, .leaving lock value⟩]
      { s with cache := s.cache.countBuild key, guarded := false }
  | leave {key : κ} {era lock : Nat} {value : ν} :
    Turn s i .goOn [⟨key, era, .leaving lock value⟩] []
      ((s.release lock).tell (.returned i key era value))
  | raise {key : κ} {era lock : Nat} {fault : ε} :
    Turn s i .goOn [⟨key, era, .failing lock fault⟩] [] ((s.release lock).tell (.raised i key fault))

theorem turn_of_goOn? {key : κ} {era : Nat} {stage : CallStage ν ε}
    (goes : s.goOn? i key era rest stage = some next) :
    ∃ after shared, Turn s i .goOn [⟨key, era, stage⟩] after shared ∧
      next = shared.setCalls i (after ++ rest) := by
  cases stage with
  | looking =>
    simp only [goOn?] at goes
    split at goes <;> cases goes
    · exact ⟨_, _, .hit ‹_›, rfl⟩
    · exact ⟨_, _, .miss, rfl⟩
  | asking =>
    simp only [goOn?] at goes
    split at goes <;> cases goes
    exact ⟨_, _, .ask, rfl⟩
  | queued lock =>
    simp only [goOn?] at goes
    split at goes <;> cases goes
    rename_i available
    exact ⟨_, _, .acquire (by simpa using available), rfl⟩
  | checking lock =>
    simp only [goOn?] at goes
    split at goes <;> cases goes
    · exact ⟨_, _, .hitAgain ‹_›, rfl⟩
    · exact ⟨_, _, .missAgain ‹_›, rfl⟩
  | building lock => cases goes
  | storing lock value =>
    simp only [goOn?] at goes
    split at goes <;> cases goes
    exact ⟨_, _, .put (Bool.eq_false_iff.mpr ‹_›), rfl⟩
  | counting lock value =>
    cases goes
    exact ⟨_, _, .count, rfl⟩
  | leaving lock value =>
    cases goes
    exact ⟨_, _, .leave, rfl⟩
  | failing lock fault =>
    cases goes
    exact ⟨_, _, .raise, rfl⟩

theorem turn_of_step? (steps : s.step? i move = some next) :
    ∃ before after rest shared, s.callers[i]? = some (before ++ rest) ∧
      Turn s i move before after shared ∧ next = shared.setCalls i (after ++ rest) := by
  unfold step? at steps
  split at steps
  · cases steps
  · rename_i calls key held
    split at steps <;> cases steps
    exact ⟨[], _, calls, s, held, .call key, rfl⟩
  · rename_i calls held
    split at steps <;> cases steps
    rename_i free
    refine ⟨[], [], calls, _, held, .clear ?_, ?_⟩
    · simpa using (Bool.and_eq_true_iff.mp free).2
    · obtain ⟨inside, same⟩ := List.getElem?_eq_some_iff.mp held
      simp [setCalls, ← same]
  · rename_i key era stage rest held
    obtain ⟨after, shared, turn, rfl⟩ := turn_of_goOn? steps
    exact ⟨_, after, rest, shared, held, turn, rfl⟩
  · cases steps
    exact ⟨[_], [_], _, _, ‹_›, .build _, rfl⟩
  · cases steps
    exact ⟨[_], [_], _, _, ‹_›, .fail _, rfl⟩
  · cases steps

theorem Turn.callers (turn : Turn s i move before after shared) : shared.callers = s.callers := by
  cases turn with
  | ask =>
    unfold lockOf
    split <;> rfl
  | _ => rfl

/-- The calls that a turn does not go on with stay as they are. -/
theorem Turn.calls (turn : Turn s i move before after shared) (held : s.callers[i]? = some (before ++ rest)) :
    ∃ others, s.calls.Perm (before ++ others) ∧
      (shared.setCalls i (after ++ rest)).calls.Perm (after ++ others) := by
  classical
  obtain ⟨left, right, whole, changed⟩ := split_at_slot held
  refine ⟨rest ++ left.flatten ++ right.flatten, ?_, ?_⟩
  · rw [SharedCache.calls, whole, List.perm_iff_count]
    intro call
    simp only [List.flatten_append, List.flatten_cons, List.count_append]
    omega
  · rw [SharedCache.calls, setCalls, turn.callers, changed, List.perm_iff_count]
    intro call
    simp only [List.flatten_append, List.flatten_cons, List.count_append]
    omega

/-! ### What holds in every run -/

/-- What holds however the callers use the cache. -/
structure Sound (s : SharedCache κ ν ε) : Prop where
  holders : (s.calls.filterMap CacheCall.holds?).Perm s.held
  exclusive : s.held.Nodup
  guard : s.calls.countP CacheCall.isCounting = s.guarded.toNat
  broken : ∀ i, (s.brokeBy i).Perm (s.failingOf i ++ s.raisedBy i)

omit [DecidableEq κ] in
theorem calls_begin (callers : Nat) : (begin callers : SharedCache κ ν ε).calls = [] := by
  simp [calls, begin]

omit [DecidableEq κ] in
theorem sound_begin (callers : Nat) : (begin callers : SharedCache κ ν ε).Sound := by
  refine ⟨by rw [calls_begin]; exact .nil, List.nodup_nil, by rw [calls_begin]; rfl, fun i => ?_⟩
  have none : (begin callers : SharedCache κ ν ε).failingOf i = [] := by
    simp only [failingOf, begin, List.getElem?_replicate]
    split <;> rfl
  rw [none]
  exact .nil

/-- A turn takes a lock that nobody has, gives one back, or leaves the locks with their holders. -/
theorem Turn.held (turn : Turn s i move before after shared) (exclusive : s.held.Nodup)
    (among : ∀ lock ∈ before.filterMap CacheCall.holds?, lock ∈ s.held) :
    (before.filterMap CacheCall.holds? ++ shared.held).Perm (after.filterMap CacheCall.holds? ++ s.held) ∧
      shared.held.Nodup := by
  cases turn with
  | acquire available => exact ⟨List.Perm.refl _, List.nodup_cons.mpr ⟨available, exclusive⟩⟩
  | @leave key era lock value =>
    have inside := among lock (by simp [CacheCall.holds?])
    exact ⟨by simpa [CacheCall.holds?, release, tell] using (List.perm_cons_erase inside).symm,
      exclusive.erase lock⟩
  | @raise key era lock fault =>
    have inside := among lock (by simp [CacheCall.holds?])
    exact ⟨by simpa [CacheCall.holds?, release, tell] using (List.perm_cons_erase inside).symm,
      exclusive.erase lock⟩
  | @ask key =>
    have same : (s.lockOf key).2.held = s.held := by
      unfold lockOf
      split <;> rfl
    exact ⟨List.Perm.of_eq same, same ▸ exclusive⟩
  | _ => exact ⟨List.Perm.refl _, exclusive⟩

/-- Only the storing of a value takes the guard and gives it back. -/
theorem Turn.guard (turn : Turn s i move before after shared) :
    before.countP CacheCall.isCounting + shared.guarded.toNat =
      after.countP CacheCall.isCounting + s.guarded.toNat ∨
    before.countP CacheCall.isCounting = 1 ∧ after.countP CacheCall.isCounting = 0 ∧
      shared.guarded = false := by
  cases turn with
  | put unguarded => exact .inl (by simp [CacheCall.isCounting, unguarded])
  | count => exact .inr ⟨rfl, rfl, rfl⟩
  | @ask key =>
    have same : (s.lockOf key).2.guarded = s.guarded := by
      unfold lockOf
      split <;> rfl
    exact .inl (by simp [CacheCall.isCounting, same])
  | _ => exact .inl rfl

omit [DecidableEq κ] in
theorem filterMap_tell {α : Type} (seen : CacheEvent κ ν ε → Option α) (event : CacheEvent κ ν ε) :
    (s.tell event).events.filterMap seen = (seen event).toList ++ s.events.filterMap seen := by
  rw [tell, List.filterMap_cons]
  cases seen event <;> rfl

theorem events_lockOf (s : SharedCache κ ν ε) (key : κ) : (s.lockOf key).2.events = s.events := by
  unfold lockOf
  split <;> rfl

/-- A builder breaks in the call that is to raise its fault, and this call raises it. -/
theorem Turn.faults (turn : Turn s i move before after shared) :
    (shared.brokeBy i ++ (before.filterMap CacheCall.fault? ++ s.raisedBy i)).Perm
      (s.brokeBy i ++ (after.filterMap CacheCall.fault? ++ shared.raisedBy i)) ∧
    ∀ j ≠ i, shared.brokeBy j = s.brokeBy j ∧ shared.raisedBy j = s.raisedBy j := by
  cases turn with
  | @ask key =>
    have broke : ∀ j, (s.lockOf key).2.brokeBy j = s.brokeBy j := fun j => by
      rw [brokeBy, events_lockOf, brokeBy]
    have raised : ∀ j, (s.lockOf key).2.raisedBy j = s.raisedBy j := fun j => by
      rw [raisedBy, events_lockOf, raisedBy]
    rw [broke, raised]
    exact ⟨List.Perm.refl _, fun j _ => ⟨broke j, raised j⟩⟩
  | @fail key era lock fault =>
    have told : (s.tell (.broke i key fault)).brokeBy i = (key, fault) :: s.brokeBy i := by
      rw [brokeBy, filterMap_tell, CacheEvent.broke?, if_pos rfl]
      rfl
    rw [told]
    refine ⟨List.perm_middle.symm, fun j other => ⟨?_, rfl⟩⟩
    rw [brokeBy, filterMap_tell, CacheEvent.broke?, if_neg (Ne.symm other)]
    rfl
  | @raise key era lock fault =>
    have told : ((s.release lock).tell (.raised i key fault)).raisedBy i = (key, fault) :: s.raisedBy i := by
      rw [raisedBy, filterMap_tell, CacheEvent.raised?, if_pos rfl]
      rfl
    rw [told]
    refine ⟨List.Perm.refl _, fun j other => ⟨rfl, ?_⟩⟩
    rw [raisedBy, filterMap_tell, CacheEvent.raised?, if_neg (Ne.symm other)]
    rfl
  | _ => exact ⟨List.Perm.refl _, fun _ _ => ⟨rfl, rfl⟩⟩

theorem sound_step? (sound : s.Sound) (steps : s.step? i move = some next) : next.Sound := by
  classical
  obtain ⟨before, after, rest, shared, held, turn, rfl⟩ := turn_of_step? steps
  obtain ⟨others, was, becomes⟩ := turn.calls held
  have wasHeld := (was.filterMap CacheCall.holds?).symm.trans sound.holders
  rw [List.filterMap_append] at wasHeld
  obtain ⟨shifted, exclusive⟩ := turn.held sound.exclusive
    fun lock member => wasHeld.mem_iff.mp (List.mem_append_left _ member)
  refine ⟨?_, exclusive, ?_, fun j => ?_⟩
  · refine (becomes.filterMap CacheCall.holds?).trans ?_
    rw [List.filterMap_append, List.perm_iff_count]
    intro lock
    have here := shifted.count_eq lock
    have before := wasHeld.count_eq lock
    simp only [setCalls, List.count_append] at here before ⊢
    omega
  · have guard := sound.guard
    rw [was.countP_eq, List.countP_append] at guard
    have most := s.guarded.toNat_le
    rw [becomes.countP_eq, List.countP_append, show (shared.setCalls i (after ++ rest)).guarded =
      shared.guarded from rfl]
    rcases turn.guard with kept | ⟨one, none, unguarded⟩
    · omega
    · rw [unguarded, Bool.toNat_false]
      omega
  · obtain ⟨own, others⟩ := turn.faults
    by_cases same : j = i
    · subst same
      have broken := sound.broken j
      have inside := (List.getElem?_eq_some_iff.mp held).1
      rw [failingOf, held, Option.getD_some, List.filterMap_append] at broken
      have now : (shared.setCalls j (after ++ rest)).failingOf j =
          after.filterMap CacheCall.fault? ++ rest.filterMap CacheCall.fault? := by
        simp [failingOf, setCalls, turn.callers, inside]
      rw [now, List.perm_iff_count]
      intro fault
      have here := own.count_eq fault
      have earlier := broken.count_eq fault
      simp only [brokeBy, raisedBy, setCalls, List.count_append] at here earlier ⊢
      omega
    · obtain ⟨broke, raised⟩ := others j same
      have failing : (shared.setCalls i (after ++ rest)).failingOf j = s.failingOf j := by
        rw [failingOf, failingOf, setCalls, turn.callers, List.getElem?_set_ne (Ne.symm same)]
      rw [failing, show (shared.setCalls i (after ++ rest)).brokeBy j = s.brokeBy j from broke,
        show (shared.setCalls i (after ++ rest)).raisedBy j = s.raisedBy j from raised]
      exact sound.broken j

end SharedCache

end SyntaxTally
