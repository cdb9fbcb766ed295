import SyntaxTally.Proofs.Cache.Turn

/-!
# Values are built once

The calls on a key that have its lock have the same lock, so that one of them at most is between its second
look and the end of its storing. Hence a key is built once (`builds_once`). Clearing drops the locks: a call
that has asked for the old lock can then build beside one that asks for the new lock. If there is no such call
at any clearing, a key is built once between two clearings (`builds_once_between_clearings`).
-/
namespace SyntaxTally

namespace CacheCall

variable {κ ν ε : Type} [DecidableEq κ] {call : CacheCall κ ν ε} {s shared : SharedCache κ ν ε}

/-- A call that has asked for its lock and has still to build or to store has the lock of its key, and sees
the value of the key as it is. So does a call that is about to end, if there was no clearing since it began. -/
def Fits (s : SharedCache κ ν ε) (call : CacheCall κ ν ε) : Prop :=
  call.era ≤ s.era ∧
    match call.stage with
    | .looking | .asking => True
    | .queued lock | .checking lock => s.locks.lookup call.key = some lock
    | .building lock | .storing lock _ =>
      s.locks.lookup call.key = some lock ∧ s.cache.get? call.key = none
    | .counting lock value => s.locks.lookup call.key = some lock ∧ s.cache.get? call.key = some value
    | .leaving lock value =>
      call.era = s.era → s.locks.lookup call.key = some lock ∧ s.cache.get? call.key = some value
    | .failing lock _ =>
      call.era = s.era → s.locks.lookup call.key = some lock ∧ s.cache.get? call.key = none

/-- The call has asked for the lock of its key, and has neither stored a value nor failed. -/
def isPending (call : CacheCall κ ν ε) : Bool :=
  match call.stage with
  | .queued _ | .checking _ | .building _ | .storing _ _ | .counting _ _ => true
  | .looking | .asking | .leaving _ _ | .failing _ _ => false

/-- The value that the call is about to store, if it is for the key. -/
def stores? (key : κ) (call : CacheCall κ ν ε) : Option ν :=
  match call.stage with
  | .storing _ value => if call.key = key then some value else none
  | _ => none

/-- The call on the key has put its value into the cache and not counted the build yet. -/
def isCountingOf (key : κ) (call : CacheCall κ ν ε) : Bool := call.isCounting && call.key = key

/-- What a call relies on is its lock and, once it has the lock, the value. -/
theorem Fits.mono (fits : call.Fits s) (era : shared.era = s.era)
    (locks : ∀ lock, s.locks.lookup call.key = some lock → shared.locks.lookup call.key = some lock)
    (value : ∀ lock, call.holds? = some lock → s.locks.lookup call.key = some lock →
      shared.cache.get? call.key = s.cache.get? call.key) : call.Fits shared := by
  obtain ⟨key, began, stage⟩ := call
  obtain ⟨since, rely⟩ := fits
  refine ⟨since.trans_eq era.symm, ?_⟩
  cases stage with
  | looking | asking => trivial
  | queued lock | checking lock => exact locks lock rely
  | building | storing | counting => exact ⟨locks _ rely.1, (value _ rfl rely.1).trans rely.2⟩
  | leaving | failing =>
    intro current
    have rely := rely (current.trans era)
    exact ⟨locks _ rely.1, (value _ rfl rely.1).trans rely.2⟩

/-- A clearing disturbs no call that has not asked for its lock or is about to end. -/
theorem Fits.of_clear (fits : call.Fits s) (calm : call.isPending = false) (era : s.era < shared.era) :
    call.Fits shared := by
  obtain ⟨key, began, stage⟩ := call
  have since := fits.1
  refine ⟨Nat.le_trans since (Nat.le_of_lt era), ?_⟩
  cases stage with
  | looking | asking => trivial
  | queued | checking | building | storing | counting => cases calm
  | leaving | failing =>
    intro current
    simp only at since current
    omega

end CacheCall

/-- The value that a builder gave for the key. -/
def CacheEvent.built? {κ ν ε : Type} [DecidableEq κ] (key : κ) : CacheEvent κ ν ε → Option ν
  | built _ other value => if other = key then some value else none
  | broke _ _ _ | returned _ _ _ _ | raised _ _ _ => none

namespace SharedCache

variable {κ ν ε : Type} [DecidableEq κ] {s next shared : SharedCache κ ν ε} {i : Nat} {key : κ}
  {move : CacheMove κ ν ε} {before after rest others : List (CacheCall κ ν ε)}

/-- The values that builders gave for a key, the last first. -/
def builtFor (s : SharedCache κ ν ε) (key : κ) : List ν := s.events.filterMap (CacheEvent.built? key)

/-- No call on the key is in progress. -/
def Idle (s : SharedCache κ ν ε) (key : κ) : Prop := ∀ call ∈ s.calls, call.key ≠ key

/-- No call on the key has asked for its lock and has still to build or to store. -/
def Calm (s : SharedCache κ ν ε) (key : κ) : Prop :=
  ∀ call ∈ s.calls, call.key = key → call.isPending = false

/-- What holds of a key if the cache is cleared only while it is calm. -/
structure Once (key : κ) (s : SharedCache κ ν ε) : Prop where
  fits : ∀ call ∈ s.calls, call.key = key → call.Fits s
  counted : s.cache.buildCount key + s.calls.countP (CacheCall.isCountingOf key) =
    (s.cache.get? key).toList.length
  returned : ∀ i era value, .returned i key era value ∈ s.events →
    era ≤ s.era ∧ (era = s.era → s.cache.get? key = some value)

/-- What also holds of a key if the cache is cleared only while no call on it is in progress. -/
structure Agreed (key : κ) (s : SharedCache κ ν ε) : Prop where
  current : ∀ call ∈ s.calls, call.key = key → call.era = s.era
  same : ∀ i j era value other, .returned i key era value ∈ s.events →
    .returned j key era other ∈ s.events → value = other

omit [DecidableEq κ] in
theorem Idle.calm (idle : s.Idle key) : s.Calm key := fun call member on => absurd on (idle call member)

/-! ### The lock of a key -/

theorem lookup_lockOf (s : SharedCache κ ν ε) (key : κ) :
    (s.lockOf key).2.locks.lookup key = some (s.lockOf key).1 := by
  unfold lockOf
  split
  · assumption
  · simp

theorem lookup_lockOf_of_some {other : κ} {lock : Nat} (has : s.locks.lookup key = some lock) :
    (s.lockOf other).2.locks.lookup key = some lock := by
  unfold lockOf
  split
  · exact has
  · rename_i none
    have different : key ≠ other := by
      rintro rfl
      rw [has] at none
      cases none
    rw [List.lookup_cons, beq_false_of_ne different]
    exact has

theorem lockOf_keeps (s : SharedCache κ ν ε) (key : κ) :
    (s.lockOf key).2.era = s.era ∧ (s.lockOf key).2.cache = s.cache := by
  unfold lockOf
  split <;> exact ⟨rfl, rfl⟩

omit [DecidableEq κ] in
/-- No two calls have the same lock. -/
theorem Sound.apart {lock : Nat} {call other : CacheCall κ ν ε} (sound : s.Sound)
    (was : s.calls.Perm (before ++ others)) (mine : call ∈ before) (theirs : other ∈ others)
    (holds : call.holds? = some lock) : other.holds? ≠ some lock := by
  intro again
  have once := ((was.filterMap CacheCall.holds?).symm.trans sound.holders).nodup_iff.mpr sound.exclusive
  rw [List.filterMap_append] at once
  exact (List.nodup_append.mp once).2.2 lock (List.mem_filterMap.mpr ⟨call, mine, holds⟩) lock
    (List.mem_filterMap.mpr ⟨other, theirs, again⟩) rfl

/-! ### What a turn keeps -/

theorem Turn.fits_others {call : CacheCall κ ν ε} (turn : Turn s i move before after shared)
    (calm : move = .clear → call.isPending = false) (fits : call.Fits s)
    (fitsBefore : ∀ other ∈ before, other.key = call.key → other.Fits s)
    (apart : ∀ other ∈ before, ∀ lock, other.holds? = some lock → call.holds? ≠ some lock) :
    call.Fits shared := by
  cases turn with
  | clear => exact fits.of_clear (calm rfl) (Nat.lt_succ_self _)
  | ask =>
    obtain ⟨era, cache⟩ := lockOf_keeps s _
    exact fits.mono era (fun lock has => lookup_lockOf_of_some has) fun _ _ _ => by rw [cache]
  | @put key era lock value =>
    -- a call that relies on the value of the key has the lock of the key, which the storing call has
    refine fits.mono rfl (fun _ has => has) fun second holds has => Cache.get?_put_of_ne _ _ fun same => ?_
    have first : s.locks.lookup key = some lock := (fitsBefore _ (List.mem_singleton_self _) same).2.1
    rw [← same, first] at has
    exact apart _ (List.mem_singleton_self _) second has holds
  | _ => exact fits.mono rfl (fun _ has => has) fun _ _ _ => rfl

theorem Turn.fits_after {call : CacheCall κ ν ε} (turn : Turn s i move before after shared)
    (fits : ∀ call ∈ before, call.key = key → call.Fits s) (member : call ∈ after) (on : call.key = key) :
    call.Fits shared := by
  cases turn with
  | clear | hit | leave | raise => cases member
  | call =>
    obtain rfl := List.mem_singleton.mp member
    exact ⟨Nat.le_refl _, trivial⟩
  | miss =>
    obtain rfl := List.mem_singleton.mp member
    exact ⟨(fits _ (List.mem_singleton_self _) on).1, trivial⟩
  | @ask other =>
    obtain rfl := List.mem_singleton.mp member
    have rely := fits _ (List.mem_singleton_self _) on
    exact ⟨rely.1.trans_eq (lockOf_keeps s other).1.symm, lookup_lockOf s other⟩
  | hitAgain seen =>
    obtain rfl := List.mem_singleton.mp member
    have rely := fits _ (List.mem_singleton_self _) on
    exact ⟨rely.1, fun _ => ⟨rely.2, seen⟩⟩
  | missAgain seen =>
    obtain rfl := List.mem_singleton.mp member
    have rely := fits _ (List.mem_singleton_self _) on
    exact ⟨rely.1, rely.2, seen⟩
  | put =>
    obtain rfl := List.mem_singleton.mp member
    have rely := fits _ (List.mem_singleton_self _) on
    exact ⟨rely.1, rely.2.1, Cache.get?_put _ _ _⟩
  | acquire | build =>
    obtain rfl := List.mem_singleton.mp member
    have rely := fits _ (List.mem_singleton_self _) on
    exact ⟨rely.1, rely.2⟩
  | fail | count =>
    obtain rfl := List.mem_singleton.mp member
    have rely := fits _ (List.mem_singleton_self _) on
    exact ⟨rely.1, fun _ => rely.2⟩

/-- The builds of a key that are counted or about to be are as many as its values. -/
theorem Turn.counted (turn : Turn s i move before after shared)
    (fits : ∀ call ∈ before, call.key = key → call.Fits s) (others : Nat)
    (counted : s.cache.buildCount key + (before.countP (CacheCall.isCountingOf key) + others) =
      (s.cache.get? key).toList.length)
    (cleared : move = .clear → others = 0) :
    shared.cache.buildCount key + (after.countP (CacheCall.isCountingOf key) + others) =
      (shared.cache.get? key).toList.length := by
  cases turn with
  | clear => simp [cleared rfl]
  | ask =>
    rw [(lockOf_keeps s _).2]
    exact counted
  | @put other era lock value =>
    by_cases same : other = key
    · subst same
      have absent := (fits _ (List.mem_singleton_self _) rfl).2.2
      simp only [absent, CacheCall.isCountingOf, CacheCall.isCounting, Cache.get?_put, Cache.buildCount_put,
        List.countP_singleton, Bool.false_and, Bool.true_and, decide_true, Option.toList_none,
        Option.toList_some, List.length_nil, List.length_singleton, Bool.false_eq_true, if_false,
        if_true] at counted ⊢
      omega
    · simpa [Cache.get?_put_of_ne _ _ same, CacheCall.isCountingOf, CacheCall.isCounting, same] using counted
  | @count other =>
    rw [Cache.buildCount_countBuild, Cache.get?_countBuild, ← counted]
    by_cases same : other = key
    · simp [CacheCall.isCountingOf, CacheCall.isCounting, same]
      omega
    · simp [CacheCall.isCountingOf, CacheCall.isCounting, same]
  | _ => exact counted

/-- What a turn lets a call return is the value of the key, if there was no clearing since the call began. -/
theorem Turn.returned {caller era : Nat} {value : ν} (turn : Turn s i move before after shared)
    (fits : ∀ call ∈ before, call.key = key → call.Fits s)
    (told : .returned caller key era value ∈ shared.events) :
    .returned caller key era value ∈ s.events ∨
      (∃ call ∈ before, call.key = key ∧ call.era = era) ∧ (era = s.era → s.cache.get? key = some value) := by
  cases turn with
  | ask =>
    rw [events_lockOf] at told
    exact .inl told
  | hit found =>
    rcases List.mem_cons.mp told with now | earlier
    · cases now
      exact .inr ⟨⟨_, List.mem_singleton_self _, rfl, rfl⟩, fun _ => found⟩
    · exact .inl earlier
  | leave =>
    rcases List.mem_cons.mp told with now | earlier
    · cases now
      have rely := (fits _ (List.mem_singleton_self _) rfl).2
      exact .inr ⟨⟨_, List.mem_singleton_self _, rfl, rfl⟩, fun current => (rely current).2⟩
    · exact .inl earlier
  | build | fail | raise =>
    rcases List.mem_cons.mp told with now | earlier
    · cases now
    · exact .inl earlier
  | _ => exact .inl told

theorem Turn.era (turn : Turn s i move before after shared) (uncleared : move ≠ .clear) :
    shared.era = s.era := by
  cases turn with
  | clear => exact absurd rfl uncleared
  | ask => exact (lockOf_keeps s _).1
  | _ => rfl

/-- A call begins in the era of its first turn, and stays with it. -/
theorem Turn.era_after {call : CacheCall κ ν ε} (turn : Turn s i move before after shared)
    (current : ∀ call ∈ before, call.key = key → call.era = s.era) (member : call ∈ after)
    (on : call.key = key) : call.era = shared.era := by
  cases turn with
  | clear | hit | leave | raise => cases member
  | call =>
    obtain rfl := List.mem_singleton.mp member
    rfl
  | @ask other =>
    obtain rfl := List.mem_singleton.mp member
    have now := current _ (List.mem_singleton_self _) on
    exact now.trans (lockOf_keeps s other).1.symm
  | _ =>
    obtain rfl := List.mem_singleton.mp member
    have now := current _ (List.mem_singleton_self _) on
    exact now

/-- Unless the cache is cleared, a value that is there stays. -/
theorem Turn.keeps_value {value : ν} (turn : Turn s i move before after shared) (uncleared : move ≠ .clear)
    (fits : ∀ call ∈ before, call.key = key → call.Fits s) (found : s.cache.get? key = some value) :
    shared.cache.get? key = some value := by
  cases turn with
  | clear => exact absurd rfl uncleared
  | ask => rw [(lockOf_keeps s _).2, found]
  | @put other era lock new =>
    have different : other ≠ key := by
      rintro rfl
      have absent := (fits _ (List.mem_singleton_self _) rfl).2.2
      rw [found] at absent
      cases absent
    rw [Cache.get?_put_of_ne _ _ different, found]
  | _ => exact found

/-- A value is built for a call that is to store it, and put into the cache by that call. -/
theorem Turn.built (turn : Turn s i move before after shared) (uncleared : move ≠ .clear)
    (fits : ∀ call ∈ before, call.key = key → call.Fits s) :
    (shared.builtFor key ++ (before.filterMap (CacheCall.stores? key) ++ (s.cache.get? key).toList)).Perm
      (s.builtFor key ++ (after.filterMap (CacheCall.stores? key) ++ (shared.cache.get? key).toList)) := by
  cases turn with
  | clear => exact absurd rfl uncleared
  | @ask other =>
    rw [builtFor, events_lockOf, (lockOf_keeps s other).2]
    exact List.Perm.refl _
  | @build other era lock value =>
    rw [builtFor, filterMap_tell]
    by_cases same : other = key
    · simp [CacheEvent.built?, CacheCall.stores?, List.filterMap_cons, same, tell, builtFor,
        List.perm_middle.symm]
    · simp [CacheEvent.built?, CacheCall.stores?, List.filterMap_cons, same, tell, builtFor]
  | @put other era lock value =>
    by_cases same : other = key
    · subst same
      have absent : s.cache.get? other = none := (fits _ (List.mem_singleton_self _) rfl).2.2
      simp [CacheCall.stores?, List.filterMap_cons, absent, Cache.get?_put, builtFor]
    · simp [CacheCall.stores?, List.filterMap_cons, same, Cache.get?_put_of_ne _ _ same, builtFor]
  | _ => exact List.Perm.refl _

/-! ### What a run keeps -/

theorem once_begin (callers : Nat) (key : κ) : (begin callers : SharedCache κ ν ε).Once key := by
  refine ⟨?_, ?_, ?_⟩
  · intro call member
    rw [calls_begin] at member
    cases member
  · rw [calls_begin]
    rfl
  · intro i era value told
    cases told

omit [DecidableEq κ] in
theorem agreed_begin (callers : Nat) (key : κ) : (begin callers : SharedCache κ ν ε).Agreed key := by
  refine ⟨?_, ?_⟩
  · intro call member
    rw [calls_begin] at member
    cases member
  · intro i j era value other told
    cases told

theorem once_step? (sound : s.Sound) (once : s.Once key) (calm : move = .clear → s.Calm key)
    (steps : s.step? i move = some next) : next.Once key := by
  obtain ⟨before, after, rest, shared, held, turn, rfl⟩ := turn_of_step? steps
  obtain ⟨others, was, becomes⟩ := turn.calls held
  have fits : ∀ call ∈ before, call.key = key → call.Fits s := fun call member =>
    once.fits call (was.mem_iff.mpr (List.mem_append_left _ member))
  have calmOthers : ∀ call ∈ others, call.key = key → move = .clear → call.isPending = false :=
    fun call member on clears => calm clears call (was.mem_iff.mpr (List.mem_append_right _ member)) on
  refine ⟨?_, ?_, ?_⟩
  · intro call member on
    rcases List.mem_append.mp (becomes.mem_iff.mp member) with own | other
    · exact turn.fits_after fits own on
    · refine turn.fits_others (calmOthers call other on)
        (once.fits call (was.mem_iff.mpr (List.mem_append_right _ other)) on) ?_ ?_
      · exact fun holder mine same => fits holder mine (same.trans on)
      · exact fun holder mine lock holds => sound.apart was mine other holds
  · have counted := once.counted
    rw [was.countP_eq, List.countP_append] at counted
    rw [becomes.countP_eq, List.countP_append]
    refine turn.counted fits _ counted fun clears => ?_
    rw [List.countP_eq_zero]
    intro call member counting
    obtain ⟨counting, on⟩ := Bool.and_eq_true_iff.mp counting
    have ended := calmOthers call member (of_decide_eq_true on) clears
    obtain ⟨callKey, era, stage⟩ := call
    cases stage <;> cases counting
    cases ended
  · intro caller era value told
    by_cases clears : move = .clear
    · subst clears
      cases turn
      have earlier := (once.returned caller era value told).1
      exact ⟨Nat.le_succ_of_le earlier, fun now => absurd now (Nat.ne_of_lt (Nat.lt_succ_of_le earlier))⟩
    · have sameEra : (shared.setCalls i (after ++ rest)).era = s.era := turn.era clears
      rw [sameEra]
      rcases turn.returned fits told with earlier | ⟨⟨call, mine, on, began⟩, value⟩
      · obtain ⟨since, found⟩ := once.returned caller era value earlier
        exact ⟨since, fun now => turn.keeps_value clears fits (found now)⟩
      · exact ⟨began ▸ (fits call mine on).1, fun now => turn.keeps_value clears fits (value now)⟩

theorem agreed_step? (once : s.Once key) (agreed : s.Agreed key) (idle : move = .clear → s.Idle key)
    (steps : s.step? i move = some next) : next.Agreed key := by
  obtain ⟨before, after, rest, shared, held, turn, rfl⟩ := turn_of_step? steps
  obtain ⟨others, was, becomes⟩ := turn.calls held
  have fits : ∀ call ∈ before, call.key = key → call.Fits s := fun call member =>
    once.fits call (was.mem_iff.mpr (List.mem_append_left _ member))
  have current : ∀ call ∈ before, call.key = key → call.era = s.era := fun call member =>
    agreed.current call (was.mem_iff.mpr (List.mem_append_left _ member))
  refine ⟨?_, ?_⟩
  · intro call member on
    rcases List.mem_append.mp (becomes.mem_iff.mp member) with own | other
    · exact turn.era_after current own on
    · have earlier := was.mem_iff.mpr (List.mem_append_right _ other)
      have uncleared : move ≠ .clear := fun clears => idle clears call earlier on
      exact (agreed.current call earlier on).trans (turn.era uncleared).symm
  · -- a call that returns now began after the last clearing, and so did those that it is to agree with
    intro first second era value other told toldOther
    rcases turn.returned fits told with earlier | ⟨⟨call, mine, on, began⟩, found⟩ <;>
      rcases turn.returned fits toldOther with
        earlierOther | ⟨⟨callOther, mineOther, onOther, beganOther⟩, foundOther⟩
    · exact agreed.same first second era value other earlier earlierOther
    · have now : era = s.era := beganOther.symm.trans (current callOther mineOther onOther)
      exact Option.some.inj (((once.returned first era value earlier).2 now).symm.trans (foundOther now))
    · have now : era = s.era := began.symm.trans (current call mine on)
      exact Option.some.inj ((found now).symm.trans ((once.returned second era other earlierOther).2 now))
    · have now : era = s.era := began.symm.trans (current call mine on)
      exact Option.some.inj ((found now).symm.trans (foundOther now))

/-- The values built for the key are those about to be stored and the one that is there. -/
def Traced (key : κ) (s : SharedCache κ ν ε) : Prop :=
  (s.builtFor key).Perm (s.calls.filterMap (CacheCall.stores? key) ++ (s.cache.get? key).toList)

theorem traced_step? (once : s.Once key) (traced : s.Traced key) (uncleared : move ≠ .clear)
    (steps : s.step? i move = some next) : next.Traced key := by
  classical
  obtain ⟨before, after, rest, shared, held, turn, rfl⟩ := turn_of_step? steps
  obtain ⟨others, was, becomes⟩ := turn.calls held
  have built := turn.built uncleared fun call member =>
    once.fits call (was.mem_iff.mpr (List.mem_append_left _ member))
  have earlier := traced.trans ((was.filterMap (CacheCall.stores? key)).append_right _)
  refine List.Perm.trans ?_ ((becomes.filterMap (CacheCall.stores? key)).append_right _).symm
  rw [List.perm_iff_count]
  intro value
  have here := built.count_eq value
  have there := earlier.count_eq value
  simp only [builtFor, setCalls, List.filterMap_append, List.count_append] at here there ⊢
  omega

/-- A run that clears the cache only in states with a property keeps what each of its steps keeps. -/
theorem run?_keeps {moves : List (Nat × CacheMove κ ν ε)} (Inv May : SharedCache κ ν ε → Prop)
    (keeps : ∀ {s next i move}, Inv s → (move = .clear → May s) → s.step? i move = some next → Inv next)
    (holds : Inv s)
    (may : ∀ earlier i later mid, moves = earlier ++ (i, .clear) :: later → s.run? earlier = some mid →
      May mid)
    (runs : s.run? moves = some next) : Inv next := by
  induction moves generalizing s with
  | nil =>
    cases runs
    exact holds
  | cons turn rest ih =>
    obtain ⟨i, move⟩ := turn
    obtain ⟨mid, steps, runs⟩ := Option.bind_eq_some_iff.mp runs
    have here : move = .clear → May s := by
      rintro rfl
      exact may [] i rest s rfl rfl
    refine ih (keeps holds here steps) ?_ runs
    intro earlier j later last split reached
    refine may ((i, move) :: earlier) j later last (by rw [split]; rfl) ?_
    exact Option.bind_eq_some_iff.mpr ⟨mid, steps, reached⟩

theorem sound_run? {callers : Nat} {moves : List (Nat × CacheMove κ ν ε)}
    (runs : (begin callers).run? moves = some s) : s.Sound :=
  run?_keeps Sound (fun _ => True) (fun sound _ steps => sound_step? sound steps) (sound_begin callers)
    (fun _ _ _ _ _ _ => trivial) runs

/-! ### Main results -/

theorem stores?_eq_some {call : CacheCall κ ν ε} {value : ν}
    (fits : ∀ call ∈ s.calls, call.key = key → call.Fits s) (member : call ∈ s.calls)
    (stores : call.stores? key = some value) :
    ∃ lock, call.holds? = some lock ∧ s.locks.lookup key = some lock ∧ s.cache.get? key = none := by
  obtain ⟨other, era, stage⟩ := call
  cases stage with
  | storing lock value =>
    obtain ⟨on, _⟩ : other = key ∧ _ := Option.ite_none_right_eq_some.mp stores
    subst on
    exact ⟨lock, rfl, (fits _ member rfl).2⟩
  | _ => cases stores

/-- What holds of a key as long as the cache is not cleared. -/
structure Uncleared (key : κ) (s : SharedCache κ ν ε) : Prop where
  sound : s.Sound
  once : s.Once key
  traced : s.Traced key
  era : s.era = 0

theorem uncleared_run? {callers : Nat} {moves : List (Nat × CacheMove κ ν ε)}
    (uncleared : ∀ turn ∈ moves, turn.2 ≠ .clear) (runs : (begin callers).run? moves = some s) (key : κ) :
    s.Uncleared key := by
  refine run?_keeps (Uncleared key) (fun _ => False) ?_ ?_ ?_ runs
  · intro s next i move kept never steps
    have here : move ≠ .clear := never
    refine ⟨sound_step? kept.sound steps, ?_, traced_step? kept.once kept.traced here steps, ?_⟩
    · exact once_step? kept.sound kept.once (fun clears => (here clears).elim) steps
    · obtain ⟨_, _, _, _, _, turn, rfl⟩ := turn_of_step? steps
      exact (turn.era here).trans kept.era
  · refine ⟨sound_begin callers, once_begin callers key, ?_, rfl⟩
    rw [Traced, calls_begin]
    exact .nil
  · rintro earlier i later mid rfl
    exact absurd rfl (uncleared (i, .clear) (by simp))

/-- At most one call on the key is about to store a value, and only while there is none. -/
theorem Uncleared.built_le_one (kept : s.Uncleared key) : (s.builtFor key).length ≤ 1 := by
  have most : (s.cache.get? key).toList.length ≤ 1 := by cases s.cache.get? key <;> simp
  rw [kept.traced.length_eq, List.length_append]
  rcases List.eq_nil_or_concat (s.calls.filterMap (CacheCall.stores? key)) with none | ⟨_, value, some⟩
  · rw [none, List.length_nil]
    omega
  · have stored : value ∈ s.calls.filterMap (CacheCall.stores? key) := by simp [some]
    obtain ⟨call, member, stores⟩ := List.mem_filterMap.mp stored
    obtain ⟨left, right, whole⟩ := List.append_of_mem member
    have first : s.calls.Perm ([call] ++ (left ++ right)) := by
      rw [whole]
      exact List.perm_middle
    obtain ⟨lock, holds, has, absent⟩ := stores?_eq_some kept.once.fits member stores
    have alone : (left ++ right).filterMap (CacheCall.stores? key) = [] := by
      rw [List.filterMap_eq_nil_iff]
      intro other theirs
      by_contra storesToo
      obtain ⟨_, storesToo⟩ := Option.ne_none_iff_exists'.mp storesToo
      obtain ⟨second, holdsToo, hasToo, _⟩ := stores?_eq_some kept.once.fits
        (first.mem_iff.mpr (List.mem_append_right _ theirs)) storesToo
      rw [has] at hasToo
      cases hasToo
      exact kept.sound.apart first (List.mem_singleton_self _) theirs holds holdsToo
    rw [(first.filterMap _).length_eq, List.filterMap_append, alone, absent]
    simp [stores]

theorem Uncleared.built_of_returned {era : Nat} {value : ν} (kept : s.Uncleared key)
    (told : .returned i key era value ∈ s.events) : s.builtFor key = [value] := by
  obtain ⟨since, found⟩ := kept.once.returned i era value told
  have now : era = s.era := by
    have first := kept.era
    omega
  have member : value ∈ s.builtFor key :=
    kept.traced.mem_iff.mpr (List.mem_append_right _ (by simp [found now]))
  obtain ⟨only, single⟩ : ∃ only, s.builtFor key = [only] :=
    List.length_eq_one_iff.mp (Nat.le_antisymm kept.built_le_one (List.length_pos_of_mem member))
  rw [single] at member
  rw [single, List.mem_singleton.mp member]

theorem Once.contains_iff (once : s.Once key) (sound : s.Sound) (unguarded : s.guarded = false) :
    (s.cache.contains key = true ↔ s.cache.buildCount key = 1) ∧
      (s.cache.contains key = false → s.cache.buildCount key = 0) := by
  have none : s.calls.countP (CacheCall.isCountingOf key) = 0 := by
    have guard := sound.guard
    rw [unguarded, Bool.toNat_false, List.countP_eq_zero] at guard
    rw [List.countP_eq_zero]
    intro call member counting
    exact guard call member (Bool.and_eq_true_iff.mp counting).1
  have counted := once.counted
  rw [none, Nat.add_zero] at counted
  rw [counted, Cache.contains_eq_isSome]
  cases s.cache.get? key <;> simp

/-- A builder that fails, and the call that raises its fault, leave the cache as it is. -/
theorem cache_of_fault {call : CacheCall κ ν ε} (on : s.callers[i]? = some (call :: rest))
    (steps : (∃ fault, s.step? i (.fail fault) = some next) ∨
      call.fault? ≠ none ∧ s.step? i .goOn = some next) : next.cache = s.cache := by
  rcases steps with ⟨fault, fails⟩ | ⟨failing, goes⟩
  · obtain ⟨_, _, _, _, _, turn, rfl⟩ := turn_of_step? fails
    cases turn
    rfl
  · obtain ⟨key, era, stage⟩ := call
    cases stage with
    | failing lock fault =>
      simp only [step?, on, goOn?, Option.some.injEq] at goes
      subst goes
      rfl
    | _ => exact absurd rfl failing

/-- Without clearing, a key is built once: all calls on it that return give the value that the one builder
which did not fail gave. A fault changes nothing in the cache, and is raised by the caller whose builder
failed. While no value is being stored, the values that are there are those that are counted. -/
theorem builds_once {callers : Nat} {moves : List (Nat × CacheMove κ ν ε)}
    (uncleared : ∀ turn ∈ moves, turn.2 ≠ .clear) (runs : (begin callers).run? moves = some s) :
    (∀ key, (s.builtFor key).length ≤ 1) ∧
    (∀ i key era value, .returned i key era value ∈ s.events → s.builtFor key = [value]) ∧
    (∀ i call rest next, s.callers[i]? = some (call :: rest) →
      (∃ fault, s.step? i (.fail fault) = some next) ∨ call.fault? ≠ none ∧ s.step? i .goOn = some next →
      next.cache = s.cache) ∧
    (∀ i, (s.brokeBy i).Perm (s.failingOf i ++ s.raisedBy i)) ∧
    (s.guarded = false → ∀ key, (s.cache.contains key = true ↔ s.cache.buildCount key = 1) ∧
      (s.cache.contains key = false → s.cache.buildCount key = 0)) := by
  have kept := uncleared_run? uncleared runs
  refine ⟨fun key => (kept key).built_le_one, ?_, ?_, ?_, ?_⟩
  · exact fun i key era value told => (kept key).built_of_returned told
  · exact fun i call rest next on steps => cache_of_fault on steps
  · exact (sound_run? runs).broken
  · exact fun unguarded key => (kept key).once.contains_iff (kept key).sound unguarded

/-- Two callers want a key. The builder of the first uses the cache for another key and then fails; the second
has waited for the lock, builds, and the first finds the value when it asks again. -/
def retrying : List (Nat × CacheMove Nat Nat Nat) :=
  (0, .call 7) :: List.replicate 4 (0, CacheMove.goOn) ++
  (1, .call 7) :: List.replicate 2 (1, CacheMove.goOn) ++
  (0, .call 8) :: List.replicate 4 (0, CacheMove.goOn) ++
  (0, .build 80) :: List.replicate 3 (0, CacheMove.goOn) ++
  [(0, CacheMove.fail 404), (0, .goOn)] ++ List.replicate 2 (1, CacheMove.goOn) ++
  (1, .build 70) :: List.replicate 3 (1, CacheMove.goOn) ++ [(0, CacheMove.call 7), (0, .goOn)]

theorem builds_once_retrying :
    (∀ turn ∈ retrying, turn.2 ≠ .clear) ∧
    ∃ s, (begin 2).run? retrying = some s ∧
      s.events = [.returned 0 7 0 70, .returned 1 7 0 70, .built 1 7 70, .raised 0 7 404, .broke 0 7 404,
        .returned 0 8 0 80, .built 0 8 80] ∧
      (∀ key, (s.builtFor key).length ≤ 1) ∧ s.builtFor 7 = [70] ∧
      (s.brokeBy 1).Perm (s.failingOf 1 ++ s.raisedBy 1) := by
  have uncleared : ∀ turn ∈ retrying, turn.2 ≠ .clear := by simp [retrying]
  have ends : ((begin 2).run? retrying).map (·.events) =
      some [.returned 0 7 0 70, .returned 1 7 0 70, .built 1 7 70, .raised 0 7 404, .broke 0 7 404,
        .returned 0 8 0 80, .built 0 8 80] := by decide +kernel
  obtain ⟨s, runs, events⟩ := Option.map_eq_some_iff.mp ends
  obtain ⟨once, returned, _, faults, _⟩ := builds_once uncleared runs
  exact ⟨uncleared, s, runs, events, once, returned 0 7 0 70 (by simp [events]), faults 1⟩

/-- As long as the cache is cleared only while no call on the key has asked for the lock and has still to
store, the key is counted once at most, and the calls that began after the last clearing have returned the
value that is there. If no call on the key is in progress at any clearing, then all calls that began after the
same clearing return the same. -/
theorem builds_once_between_clearings {callers : Nat} {moves : List (Nat × CacheMove κ ν ε)} (key : κ)
    (calm : ∀ earlier i later mid, moves = earlier ++ (i, .clear) :: later →
      (begin callers).run? earlier = some mid → mid.Calm key)
    (runs : (begin callers).run? moves = some s) :
    s.cache.buildCount key ≤ 1 ∧
    (∀ i value, .returned i key s.era value ∈ s.events → s.cache.get? key = some value) ∧
    ((∀ earlier i later mid, moves = earlier ++ (i, .clear) :: later →
        (begin callers).run? earlier = some mid → mid.Idle key) →
      ∀ i j era value other, .returned i key era value ∈ s.events → .returned j key era other ∈ s.events →
        value = other) := by
  have once : s.Sound ∧ s.Once key :=
    run?_keeps (fun s => s.Sound ∧ s.Once key) (fun s => s.Calm key)
      (fun kept may steps => ⟨sound_step? kept.1 steps, once_step? kept.1 kept.2 may steps⟩)
      ⟨sound_begin callers, once_begin callers key⟩ calm runs
  refine ⟨?_, ?_, ?_⟩
  · have counted := once.2.counted
    have most : (s.cache.get? key).toList.length ≤ 1 := by cases s.cache.get? key <;> simp
    omega
  · exact fun i value told => (once.2.returned i s.era value told).2 rfl
  · intro idle
    have agreed : s.Sound ∧ s.Once key ∧ s.Agreed key :=
      run?_keeps (fun s => s.Sound ∧ s.Once key ∧ s.Agreed key) (fun s => s.Idle key)
        (fun kept may steps => ⟨sound_step? kept.1 steps,
          once_step? kept.1 kept.2.1 (fun clears => (may clears).calm) steps,
          agreed_step? kept.2.1 kept.2.2 may steps⟩)
        ⟨sound_begin callers, once_begin callers key, agreed_begin callers key⟩ idle runs
    exact agreed.2.2.same

omit [DecidableEq κ] in
/-- In a run with one clearing, what comes before a clearing is what comes before that one. -/
theorem before_clear {first second earlier later : List (Nat × CacheMove κ ν ε)} {j : Nat}
    (noneBefore : ∀ turn ∈ first, turn.2 ≠ .clear) (noneAfter : ∀ turn ∈ second, turn.2 ≠ .clear)
    (split : first ++ (j, .clear) :: second = earlier ++ (i, .clear) :: later) : earlier = first := by
  rcases List.append_eq_append_iff.mp split with ⟨more, longer, rest⟩ | ⟨more, shorter, rest⟩
  · cases more with
    | nil => simpa using longer
    | cons turn more =>
      rw [List.cons_append, List.cons.injEq] at rest
      exact absurd rfl (noneAfter (i, .clear) (by simp [rest.2]))
  · cases more with
    | nil => simpa using shorter.symm
    | cons turn more =>
      rw [List.cons_append, List.cons.injEq] at rest
      exact absurd rfl (noneBefore (i, .clear) (by simp [shorter, rest.1]))

/-- A caller builds a key. -/
def building (caller value : Nat) : List (Nat × CacheMove Nat Nat Nat) :=
  (caller, .call 7) :: List.replicate 4 (caller, CacheMove.goOn) ++
    (caller, .build value) :: List.replicate 3 (caller, CacheMove.goOn)

theorem builds_once_between_clearings_building :
    (∀ earlier i later mid, building 0 70 ++ (0, .clear) :: building 1 71 = earlier ++ (i, .clear) :: later →
      (begin 2).run? earlier = some mid → mid.Idle 7) ∧
    ∃ s, (begin 2).run? (building 0 70 ++ (0, .clear) :: building 1 71) = some s ∧
      s.events = [.returned 1 7 1 71, .built 1 7 71, .returned 0 7 0 70, .built 0 7 70] ∧
      s.cache.buildCount 7 ≤ 1 ∧
      (∀ i value, .returned i 7 s.era value ∈ s.events → s.cache.get? 7 = some value) ∧
      ∀ i j era value other, .returned i 7 era value ∈ s.events → .returned j 7 era other ∈ s.events →
        value = other := by
  have uncleared : ∀ caller value, ∀ turn ∈ building caller value, turn.2 ≠ .clear := by simp [building]
  have ended : ((begin 2).run? (building 0 70)).map (·.callers) = some [[], []] := by decide +kernel
  have idle : ∀ earlier i later mid,
      building 0 70 ++ (0, .clear) :: building 1 71 = earlier ++ (i, .clear) :: later →
      (begin 2).run? earlier = some mid → mid.Idle 7 := by
    intro earlier i later mid split reached
    rw [before_clear (uncleared 0 70) (uncleared 1 71) split] at reached
    rw [reached] at ended
    have nothing : mid.callers = [[], []] := Option.some.inj ended
    intro call member
    rw [calls, nothing] at member
    cases member
  have ends : ((begin 2).run? (building 0 70 ++ (0, .clear) :: building 1 71)).map (·.events) =
      some [.returned 1 7 1 71, .built 1 7 71, .returned 0 7 0 70, .built 0 7 70] := by decide +kernel
  obtain ⟨s, runs, events⟩ := Option.map_eq_some_iff.mp ends
  obtain ⟨counted, returned, same⟩ := builds_once_between_clearings 7
    (fun earlier i later mid split reached => (idle earlier i later mid split reached).calm) runs
  exact ⟨idle, s, runs, events, counted, returned, same idle⟩

/-- A builder clears the cache and asks for its own key. -/
def clearingBuilder : List (Nat × CacheMove Nat Nat Nat) :=
  (0, .call 7) :: List.replicate 4 (0, CacheMove.goOn) ++
  (0, .clear) :: (0, .call 7) :: List.replicate 4 (0, CacheMove.goOn) ++
  (0, .build 2) :: List.replicate 3 (0, CacheMove.goOn) ++
  (0, .build 1) :: List.replicate 3 (0, CacheMove.goOn) ++ [(0, CacheMove.call 7), (0, .goOn)]

/-- Then the key is counted twice, and two calls that began after the clearing return different values. -/
theorem clearing_builder_builds_twice :
    ∃ s, (begin 1).run? clearingBuilder = some s ∧ s.cache.buildCount 7 = 2 ∧
      .returned 0 7 1 2 ∈ s.events ∧ .returned 0 7 1 1 ∈ s.events := by
  have ends : ((begin 1).run? clearingBuilder).map (fun s => (s.cache.buildCount 7, s.events)) =
      some (2, [.returned 0 7 1 1, .returned 0 7 0 1, .built 0 7 1, .returned 0 7 1 2, .built 0 7 2]) := by
    decide +kernel
  obtain ⟨s, runs, seen⟩ := Option.map_eq_some_iff.mp ends
  obtain ⟨count, events⟩ := Prod.mk.inj seen
  exact ⟨s, runs, count, by simp [events], by simp [events]⟩

end SharedCache

end SyntaxTally
