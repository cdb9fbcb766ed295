import SyntaxTally.Proofs.Walk.Ending

/-!
# Walks that the receiver breaks off

A receiver may answer each entry by going on, by stopping the walk, by a crash, which the thread keeps for the end
of the walk, or by an interrupt, which ends the thread. `Heard` is a run with all calls of the receiver and their
replies. A thread whose call is declined falls silent (`Walker.isSilent`), the crashes are those of the calls
(`Heard.crashes_perm`), and the threads that are lost are those whose call was interrupted
(`Heard.interrupted_iff`). One thread alone gives the entries in breadth-first order up to the first one that is
declined (`Heard.alone`). `declined_walk` puts this together.
-/
namespace SyntaxTally.Walk

open Files Ignore

/-! ### Calls -/

structure Call where
  thread : Nat
  entry : Entry
  reply : Reply

/-- The call that the next step of a thread makes. -/
def Walker.calls {σ : Type} (receiver : Receiver σ) (state : σ) (i : Nat) : Walker → List Call
  | giving (entry :: _) => ((receiver state entry).map fun answer => ⟨i, entry, answer.1⟩).toList
  | _ => []

def SharedWalk.calls {σ : Type} (receiver : Receiver σ) (walk : SharedWalk) (state : σ) (i : Nat) : List Call :=
  (walk.walkers[i]?.map (Walker.calls receiver state i)).getD []

/-- The turns of a walk and the calls made in them. The receiver may be another one at each step. -/
inductive Heard (disk : Disk) (options : Options) (begun : SharedWalk) :
    Trace → List Call → SharedWalk → Prop where
  | refl : Heard disk options begun [] [] begun
  | step {σ : Type} {receiver : Receiver σ} {state after : σ} {trace : Trace} {calls : List Call}
    {walk next : SharedWalk} {i : Nat} {logs : List Log.Record}
    (heard : Heard disk options begun trace calls walk)
    (steps : walk.step? disk options receiver state i = some (next, after, logs)) :
    Heard disk options begun (trace ++ [(walk, i)]) (calls ++ walk.calls receiver state i) next
  | close {trace : Trace} {calls : List Call} {walk next : SharedWalk}
    (heard : Heard disk options begun trace calls walk) (closes : walk.close? = some next) :
    Heard disk options begun trace calls next

variable {disk : Disk} {options : Options} {first job : Job} {σ : Type} {receiver : Receiver σ}
  {begun walk shared next : SharedWalk} {old new walker : Walker} {state after : σ} {i threads : Nat}
  {logs : List Log.Record} {trace : Trace} {visited : List Place} {calls : List Call} {call : Call}

theorem Heard.course (heard : Heard disk options begun trace calls walk) :
    Course disk options begun trace walk := by
  induction heard with
  | refl => exact .refl
  | step _ steps ih => exact ih.step steps
  | close _ closes ih => exact ih.close closes

theorem Runs.heard {before : σ} (runs : Runs disk options receiver begun before trace walk state) :
    ∃ calls, Heard disk options begun trace calls walk := by
  induction runs with
  | refl => exact ⟨[], .refl⟩
  | step _ steps ih =>
    obtain ⟨calls, heard⟩ := ih
    exact ⟨_, heard.step steps⟩
  | close _ closes ih =>
    obtain ⟨calls, heard⟩ := ih
    exact ⟨calls, heard.close closes⟩

theorem calls_of_held (held : walk.walkers[i]? = some old) :
    walk.calls receiver state i = old.calls receiver state i := by
  rw [SharedWalk.calls, held]
  rfl

theorem Turn.map_entry_calls (turn : Turn disk options receiver walk state old new shared after) (i : Nat) :
    (old.calls receiver state i).map Call.entry = old.gives := by
  cases turn with
  | give answer | decline answer | breakOff answer => simp [Walker.calls, Walker.gives, answer]
  | _ => rfl

theorem Heard.map_entry (heard : Heard disk options begun trace calls walk) :
    calls.map Call.entry = trace.given := by
  induction heard with
  | refl => rfl
  | step _ steps ih =>
    obtain ⟨old, new, shared, held, turn, rfl⟩ := turn_of_step? steps
    rw [List.map_append, ih, calls_of_held held, turn.map_entry_calls, Trace.given, Trace.given,
      List.flatMap_append, List.flatMap_singleton, SharedWalk.gives, held]
    rfl
  | close _ _ ih => exact ih

/-! ### Threads that fall silent -/

/-- The thread is cut off, or has nothing to give in a walk that is stopped. -/
def Walker.isSilent (stopped : Bool) : Walker → Bool
  | stopping _ | breaking _ | lost _ => true
  | waiting | holding _ | ended => stopped
  | listing _ _ _ _ _ | queueing _ _ | giving _ => false

theorem Turn.stays_stopped (turn : Turn disk options receiver walk state old new shared after)
    (stopped : walk.stopped = true) : shared.stopped = true := by
  cases turn with
  | tell => rfl
  | _ => exact stopped

theorem Turn.goes_on (turn : Turn disk options receiver walk state old new shared after)
    (goesOn : walk.stopped = false) (awake : old.isCut = false) : shared.stopped = false := by
  cases turn with
  | tell => cases awake
  | _ => exact goesOn

theorem Walker.isSilent_mono {stopped later : Bool} (stays : stopped = true → later = true)
    (silent : walker.isSilent stopped = true) : walker.isSilent later = true := by
  cases walker with
  | stopping | breaking | lost => rfl
  | waiting | holding | ended => exact stays silent
  | _ => cases silent

theorem Walker.isSilent_of_isCut (stopped : Bool) (cut : walker.isCut = true) : walker.isSilent stopped = true := by
  cases walker with
  | stopping | breaking | lost => rfl
  | _ => cases cut

theorem Turn.silent (turn : Turn disk options receiver walk state old new shared after) (i : Nat)
    (silent : old.isSilent walk.stopped = true) :
    new.isSilent shared.stopped = true ∧ old.calls receiver state i = [] := by
  cases turn with
  | goHome | take | pass => exact ⟨silent, rfl⟩
  | openDirectory goesOn =>
    simp [Walker.isSilent, goesOn] at silent
  | tell | lose => exact ⟨rfl, rfl⟩
  | _ => cases silent

theorem Turn.declined (turn : Turn disk options receiver walk state old new shared after)
    (called : call ∈ old.calls receiver state i) :
    call.thread = i ∧ (call.reply ≠ .goOn → new.isCut = true) := by
  cases turn with
  | give answer =>
    simp only [Walker.calls, answer, Option.map_some, Option.toList_some, List.mem_singleton] at called
    subst called
    exact ⟨rfl, fun declines => absurd rfl declines⟩
  | decline answer | breakOff answer =>
    simp only [Walker.calls, answer, Option.map_some, Option.toList_some, List.mem_singleton] at called
    subst called
    exact ⟨rfl, fun _ => rfl⟩
  | _ => cases called

/-- The thread of each call that was declined is silent. -/
def Hushed (calls : List Call) (walk : SharedWalk) : Prop :=
  ∀ call ∈ calls, call.reply ≠ .goOn →
    ∃ walker, walk.walkers[call.thread]? = some walker ∧ walker.isSilent walk.stopped = true

theorem silent_setWalker (turn : Turn disk options receiver walk state old new shared after)
    (held : walk.walkers[i]? = some old) {thread : Nat}
    (silent : ∃ walker, walk.walkers[thread]? = some walker ∧ walker.isSilent walk.stopped = true) :
    ∃ walker, (shared.setWalker i new).walkers[thread]? = some walker ∧
      walker.isSilent (shared.setWalker i new).stopped = true := by
  obtain ⟨walker, there, silent⟩ := silent
  by_cases same : i = thread
  · subst same
    obtain rfl : old = walker := Option.some.inj (held.symm.trans there)
    obtain ⟨inside, -⟩ := List.getElem?_eq_some_iff.mp held
    refine ⟨new, ?_, (turn.silent i silent).1⟩
    simp [SharedWalk.setWalker, turn.walkers, inside]
  · refine ⟨walker, ?_, Walker.isSilent_mono turn.stays_stopped silent⟩
    simp [SharedWalk.setWalker, turn.walkers, same, there]

theorem hushed_step? (hushed : Hushed calls walk)
    (steps : walk.step? disk options receiver state i = some (next, after, logs)) :
    Hushed (calls ++ walk.calls receiver state i) next := by
  obtain ⟨old, new, shared, held, turn, rfl⟩ := turn_of_step? steps
  intro call member declines
  rcases List.mem_append.mp member with earlier | now
  · exact silent_setWalker turn held (hushed call earlier declines)
  · rw [calls_of_held held] at now
    obtain ⟨rfl, stops⟩ := turn.declined now
    obtain ⟨inside, -⟩ := List.getElem?_eq_some_iff.mp held
    refine ⟨new, ?_, ?_⟩
    · simp [SharedWalk.setWalker, turn.walkers, inside]
    · exact Walker.isSilent_of_isCut _ (stops declines)

theorem Heard.hushed (heard : Heard disk options begun trace calls walk) : Hushed calls walk := by
  induction heard with
  | refl => simp [Hushed]
  | step _ steps ih => exact hushed_step? ih steps
  | close _ closes ih =>
    obtain ⟨walkers, stopped, -⟩ := close?_walkers closes
    rw [Hushed, walkers, stopped]
    exact ih

/-- A thread whose call was declined makes no other. -/
theorem Heard.pairwise (heard : Heard disk options begun trace calls walk) :
    calls.Pairwise fun call later => call.reply ≠ .goOn → later.thread ≠ call.thread := by
  induction heard with
  | refl => exact List.Pairwise.nil
  | @step _ receiver state _ _ calls walk _ i _ before steps ih =>
    obtain ⟨old, new, shared, held, turn, rfl⟩ := turn_of_step? steps
    rw [calls_of_held held]
    refine List.pairwise_append.mpr ⟨ih, ?_, fun call member later now declines same => ?_⟩
    · unfold Walker.calls
      split
      · cases receiver state _ <;> simp
      · exact List.Pairwise.nil
    · obtain ⟨rfl, -⟩ := turn.declined now
      obtain ⟨walker, there, silent⟩ := before.hushed call member declines
      rw [← same, held] at there
      obtain rfl : old = walker := Option.some.inj there
      rw [(turn.silent later.thread silent).2] at now
      cases now
  | close _ _ ih => exact ih

/-! ### Crashes -/

def Walker.crash : Walker → List Crash
  | stopping crash => crash.toList
  | _ => []

theorem Turn.crashes (turn : Turn disk options receiver walk state old new shared after) (i : Nat) :
    (shared.crashes ++ new.crash).Perm
      (walk.crashes ++ old.crash ++ (old.calls receiver state i).filterMap fun call => call.reply.crash?) := by
  cases turn with
  | give answer => simp [Walker.crash, Walker.calls, answer, Reply.crash?]
  | @decline _ _ reply _ answer =>
    cases crash : reply.crash? <;> simp [Walker.crash, Walker.calls, answer, crash]
  | breakOff answer => simp [Walker.crash, Walker.calls, answer, Reply.crash?]
  | tell => simp [Walker.crash, Walker.calls, SharedWalk.stop, SharedWalk.markDone]
  | _ => simp [Walker.crash, Walker.calls, SharedWalk.markDone, SharedWalk.put]

/-- The crashes that are known and those that a thread is about to make known are those of the calls. -/
theorem Heard.crashes_perm (heard : Heard disk options (.begin threads first visited) trace calls walk) :
    (walk.crashes ++ walk.walkers.flatMap Walker.crash).Perm
      (calls.filterMap fun call => call.reply.crash?) := by
  classical
  induction heard with
  | refl => simp [SharedWalk.begin, Walker.crash]
  | @step _ receiver state _ _ calls walk _ i _ _ steps ih =>
    obtain ⟨old, new, shared, held, turn, rfl⟩ := turn_of_step? steps
    rw [calls_of_held held, List.perm_iff_count]
    intro crash
    have before := ih.count_eq crash
    have here := (turn.crashes i).count_eq crash
    have others := (flatMap_set_perm Walker.crash held new).count_eq crash
    simp only [SharedWalk.setWalker, turn.walkers, List.filterMap_append, List.count_append]
      at before here others ⊢
    omega
  | close _ closes ih =>
    obtain ⟨walkers, -, crashes⟩ := close?_walkers closes
    rw [walkers, crashes]
    exact ih

/-! ### Interrupts -/

/-- The interrupt that has ended the thread or is about to. -/
def Walker.interrupted? : Walker → Option Crash
  | breaking crash | lost crash => some crash
  | _ => none

theorem Turn.interrupted (turn : Turn disk options receiver walk state old new shared after) (i : Nat)
    (crash : Crash) :
    new.interrupted? = some crash ↔ old.interrupted? = some crash ∨
      ∃ call ∈ old.calls receiver state i, call.reply = .interrupt crash := by
  cases turn with
  | give answer => simp [Walker.interrupted?, Walker.calls, answer]
  | @decline _ _ reply _ answer _ caught => simp [Walker.interrupted?, Walker.calls, answer, caught crash]
  | breakOff answer => simp [Walker.interrupted?, Walker.calls, answer]
  | _ => simp [Walker.interrupted?, Walker.calls]

/-- The threads that were interrupted are those that got such an answer. -/
theorem Heard.interrupted_iff (heard : Heard disk options (.begin threads first visited) trace calls walk)
    (thread : Nat) (crash : Crash) :
    (∃ walker, walk.walkers[thread]? = some walker ∧ walker.interrupted? = some crash) ↔
      ∃ call ∈ calls, call.thread = thread ∧ call.reply = .interrupt crash := by
  induction heard with
  | refl => simp [SharedWalk.begin, List.getElem?_replicate, Walker.interrupted?]
  | @step _ receiver state _ _ calls walk _ i _ _ steps ih =>
    obtain ⟨old, new, shared, held, turn, rfl⟩ := turn_of_step? steps
    obtain ⟨inside, -⟩ := List.getElem?_eq_some_iff.mp held
    rw [calls_of_held held]
    simp only [List.mem_append, or_and_right, exists_or, ← ih, SharedWalk.setWalker, turn.walkers]
    by_cases same : i = thread
    · subst same
      rw [List.getElem?_set_self inside]
      have mine : ∀ call ∈ old.calls receiver state i, call.thread = i := fun call now => (turn.declined now).1
      have now := turn.interrupted i crash
      constructor
      · rintro ⟨walker, is, broken⟩
        rw [← Option.some.inj is] at broken
        rcases now.mp broken with before | ⟨call, member, interrupts⟩
        · exact .inl ⟨old, held, before⟩
        · exact .inr ⟨call, member, mine call member, interrupts⟩
      · rintro (⟨walker, is, broken⟩ | ⟨call, member, -, interrupts⟩)
        · obtain rfl : old = walker := Option.some.inj (held.symm.trans is)
          exact ⟨new, rfl, now.mpr (.inl broken)⟩
        · exact ⟨new, rfl, now.mpr (.inr ⟨call, member, interrupts⟩)⟩
    · rw [List.getElem?_set_ne same]
      refine ⟨.inl, ?_⟩
      rintro (before | ⟨call, member, is, -⟩)
      · exact before
      · exact absurd ((turn.declined member).1.symm.trans is) same
  | close _ closes ih =>
    rw [(close?_walkers closes).1]
    exact ih

/-! ### The breadth-first order -/

/-- The order in which jobs that stand in a line are taken, if those for the directories in each of them go to
the end of the line. -/
inductive InLine (disk : Disk) (options : Options) : List Job → List Job → Prop where
  | nil : InLine disk options [] []
  | cons {job : Job} {line order : List Job} (rest : InLine disk options (line ++ subjobs disk options job) order) :
    InLine disk options (job :: line) (job :: order)

theorem queueJobs_inLine (links : options.followLinks = false) {fuel : Nat}
    {line : List Job} (enough : weight disk line ≤ fuel) (visited : List Place) :
    ∃ order, InLine disk options line order ∧
      (queueJobs disk options fuel line visited).map Batch.entries = order.map (ownEntries disk options) := by
  induction fuel generalizing line visited with
  | zero =>
    cases line with
    | nil => exact ⟨[], .nil, rfl⟩
    | cons job line =>
      rw [weight_cons] at enough
      omega
  | succ fuel ih =>
    cases line with
    | nil => exact ⟨[], .nil, rfl⟩
    | cons job line =>
      have less := weight_subjobs_le links disk job
      have fewer : weight disk (line ++ subjobs disk options job) ≤ fuel := by
        rw [weight_cons] at enough
        rw [weight_append]
        omega
      obtain ⟨jobs, -⟩ := expand_eq links disk job visited
      obtain ⟨order, inLine, entries⟩ := ih fewer (expand disk options job visited).visited
      refine ⟨job :: order, .cons inLine, ?_⟩
      rw [queueJobs, List.map_cons, List.map_cons, jobs, entries, expand_entries]

/-- A breadth-first walk hands out the own entries of the directories in breadth-first order. -/
theorem queued_inLine {root : Path} (links : options.followLinks = false)
    (begins : start disk options root = .ok (.tree first visited logs)) :
    ∃ batches order, queued disk options root = .ok batches ∧ InLine disk options [first] order ∧
      batches.flatMap Batch.entries = order.flatMap (ownEntries disk options) := by
  obtain ⟨order, inLine, entries⟩ :=
    queueJobs_inLine links (weight_singleton_le_enough disk first) visited
  refine ⟨⟨logs, []⟩ :: queueJobs disk options (enough disk) [first] visited, order, ?_, inLine, ?_⟩
  · rw [queued, begins]
    rfl
  · rw [List.flatMap_def, List.map_cons, entries, List.flatten_cons, List.nil_append, List.flatMap_def]

/-! ### One thread -/

/-- The line in which the jobs wait when there is only this thread. -/
def Walker.line (disk : Disk) (options : Options) (queue : List (Option Job)) : Walker → List Job
  | holding job => job :: queue.filterMap id
  | walker => queue.filterMap id ++ walker.jobs disk options

/-- One thread gives the entries of the line, unless it declines one. -/
theorem Turn.line {order : List Job} (links : options.followLinks = false)
    (turn : Turn disk options receiver walk state old new shared after) (goesOn : walk.stopped = false)
    (awake : old.isCut = false) (goOn : new.isCut = false)
    (inLine : InLine disk options (old.line disk options walk.queue) order) :
    ∃ left, InLine disk options (new.line disk options shared.queue) left ∧
      old.entries disk options ++ order.flatMap (ownEntries disk options) =
        old.gives ++ (new.entries disk options ++ left.flatMap (ownEntries disk options)) := by
  cases turn with
  | goHome queue | take queue =>
    refine ⟨order, ?_, rfl⟩
    simpa [Walker.line, Walker.jobs, SharedWalk.markDone, queue] using inLine
  | pass stopped => simp [stopped] at goesOn
  | openDirectory =>
    -- only here the line changes: its first job gives way to those below it, at the end
    cases inLine with
    | @cons _ _ left rest =>
      refine ⟨left, rest, ?_⟩
      simp [Walker.entries, Walker.gives, ownEntries]
  | @list job scopes name names jobs entries found adds =>
    have moreJobs := (addChild_eq links disk job scopes ⟨jobs, entries, [], walk.visited⟩ name).1
    have moreEntries := addChild_entries disk options job scopes ⟨jobs, entries, [], walk.visited⟩ name
    refine ⟨order, ?_, ?_⟩
    · simpa [Walker.line, Walker.jobs, adds, moreJobs] using inLine
    · simp [Walker.entries, Walker.gives, adds, moreEntries]
  | queueJob =>
    refine ⟨order, ?_, rfl⟩
    simpa [Walker.line, Walker.jobs, SharedWalk.put] using inLine
  | listed =>
    exact ⟨order, by simpa [Walker.line, Walker.jobs] using inLine, by simp [Walker.entries, Walker.gives]⟩
  | queued | give | given =>
    exact ⟨order, by simpa [Walker.line, Walker.jobs, SharedWalk.markDone] using inLine, rfl⟩
  | decline | breakOff => cases goOn
  | tell | lose => cases awake

/-- What one thread alone has done: all its calls were answered by going on, and it has the rest of the whole
still to give, or the last of its calls was declined. -/
inductive Alone (disk : Disk) (options : Options) (whole : List Entry) (calls : List Call) (walk : SharedWalk) :
    Prop where
  | goesOn {walker : Walker} {order : List Job} (only : walk.walkers = [walker])
    (unstopped : walk.stopped = false) (awake : walker.isCut = false)
    (agreed : ∀ call ∈ calls, call.reply = .goOn)
    (inLine : InLine disk options (walker.line disk options walk.queue) order)
    (split : whole = calls.map Call.entry ++
      (walker.entries disk options ++ order.flatMap (ownEntries disk options)))
  | declined {walker : Walker} {earlier : List Call} {last : Call} (only : walk.walkers = [walker])
    (silent : walker.isSilent walk.stopped = true) (same : calls = earlier ++ [last])
    (agreed : ∀ call ∈ earlier, call.reply = .goOn) (declines : last.reply ≠ .goOn)
    (inWhole : calls.map Call.entry <+: whole)

theorem Turn.cut (turn : Turn disk options receiver walk state old new shared after) (awake : old.isCut = false)
    (cut : new.isCut = true) :
    ∃ entry rest reply, old = .giving (entry :: rest) ∧ receiver state entry = some (reply, after) ∧ reply ≠ .goOn := by
  cases turn with
  | decline answer declines => exact ⟨_, _, _, rfl, answer, declines⟩
  | breakOff answer => exact ⟨_, _, _, rfl, answer, nofun⟩
  | lose => cases awake
  | _ => cases cut

theorem alone_step? {whole : List Entry} (links : options.followLinks = false)
    (alone : Alone disk options whole calls walk)
    (steps : walk.step? disk options receiver state i = some (next, after, logs)) :
    Alone disk options whole (calls ++ walk.calls receiver state i) next := by
  obtain ⟨old, new, shared, held, turn, rfl⟩ := turn_of_step? steps
  have given := turn.map_entry_calls i
  have onlyOne : ∀ {walker : Walker}, walk.walkers = [walker] →
      old = walker ∧ (shared.setWalker i new).walkers = [new] := by
    intro walker only
    rw [only] at held
    cases i with
    | zero => exact ⟨(Option.some.inj held).symm, by simp [SharedWalk.setWalker, turn.walkers, only]⟩
    | succ i => cases held
  rw [calls_of_held held]
  cases alone with
  | @goesOn walker order only unstopped awake agreed inLine split =>
    obtain ⟨rfl, stillOnly⟩ := onlyOne only
    by_cases goOn : new.isCut = false
    · obtain ⟨left, inLine, entries⟩ := turn.line links unstopped awake goOn inLine
      refine .goesOn stillOnly (turn.goes_on unstopped awake) goOn ?_ inLine ?_
      · intro call member
        rcases List.mem_append.mp member with earlier | now
        · exact agreed call earlier
        · by_contra declines
          rw [(turn.declined now).2 declines] at goOn
          cases goOn
      · rw [split, entries, List.map_append, given, List.append_assoc]
    · -- the only turn that cuts the thread off is a call that is declined
      obtain ⟨entry, rest, reply, rfl, answer, declines⟩ := turn.cut awake (Bool.eq_true_of_not_eq_false goOn)
      have last : (Walker.giving (entry :: rest)).calls receiver state i = [⟨i, entry, reply⟩] := by
        simp [Walker.calls, answer]
      refine .declined stillOnly (Walker.isSilent_of_isCut _ (Bool.eq_true_of_not_eq_false goOn))
        (congrArg (calls ++ ·) last) agreed declines ⟨rest ++ order.flatMap (ownEntries disk options), ?_⟩
      rw [split, List.map_append, given]
      simp [Walker.gives, Walker.entries]
  | declined only silent same agreed declines inWhole =>
    obtain ⟨rfl, stillOnly⟩ := onlyOne only
    obtain ⟨stillSilent, noCalls⟩ := turn.silent i silent
    rw [noCalls, List.append_nil]
    exact .declined stillOnly stillSilent same agreed declines inWhole

theorem Walker.line_mark (disk : Disk) (options : Options) (queue : List (Option Job)) (walker : Walker) :
    walker.line disk options (queue ++ [none]) = walker.line disk options queue := by
  cases walker <;> simp [Walker.line]

theorem alone_close? {whole : List Entry} (alone : Alone disk options whole calls walk)
    (closes : walk.close? = some next) : Alone disk options whole calls next := by
  obtain ⟨walkers, stopped, -⟩ := close?_walkers closes
  have line : ∀ walker : Walker, walker.line disk options next.queue = walker.line disk options walk.queue := by
    intro walker
    rcases close?_cases closes with ⟨-, rfl⟩ | ⟨left, -, rfl⟩
    · rfl
    · exact walker.line_mark disk options walk.queue
  cases alone with
  | @goesOn walker order only unstopped awake agreed inLine split =>
    exact .goesOn (walkers ▸ only) (stopped ▸ unstopped) awake agreed (line walker ▸ inLine) split
  | declined only silent same agreed declines inWhole =>
    exact .declined (walkers ▸ only) (stopped ▸ silent) same agreed declines inWhole

theorem Heard.alone {order : List Job} (links : options.followLinks = false)
    (inLine : InLine disk options [first] order)
    (heard : Heard disk options (.begin 1 first visited) trace calls walk) :
    Alone disk options (order.flatMap (ownEntries disk options)) calls walk := by
  induction heard with
  | refl => exact .goesOn rfl rfl rfl (by simp) inLine rfl
  | step _ steps ih => exact alone_step? links ih steps
  | close _ closes ih => exact alone_close? ih closes

theorem Alone.begins {whole : List Entry} (alone : Alone disk options whole calls walk) :
    calls.map Call.entry <+: whole ∧ ∀ call ∈ calls.dropLast, call.reply = .goOn := by
  cases alone with
  | goesOn only unstopped awake agreed inLine split =>
    exact ⟨⟨_, split.symm⟩, fun call member => agreed call ((List.dropLast_sublist calls).subset member)⟩
  | declined only silent same agreed declines inWhole =>
    refine ⟨inWhole, ?_⟩
    rw [same, List.dropLast_concat]
    exact agreed

theorem Alone.whole {whole : List Entry} (alone : Alone disk options whole calls walk) (sound : walk.Sound)
    (atEnd : walk.isOver = true) (agreed : ∀ call ∈ calls, call.reply = .goOn) :
    calls.map Call.entry = whole := by
  cases alone with
  | @goesOn walker order only unstopped awake _ inLine split =>
    have ended : walker = .ended := by
      have finished := (marks_of_isOver atEnd).2 walker (by simp [only])
      cases walker with
      | ended => rfl
      | lost => cases awake
      | _ => cases finished
    obtain ⟨onlyMarks, -⟩ := idle_of_isOver sound atEnd
    have empty : walk.queue.filterMap id = [] := by simpa [List.filterMap_eq_nil_iff] using onlyMarks
    subst ended
    have line : Walker.ended.line disk options walk.queue = [] := congrArg (· ++ []) empty
    rw [line] at inLine
    cases inLine
    simpa [Walker.entries] using split.symm
  | @declined _ earlier last _ _ same _ declines _ =>
    exact absurd (agreed last (by simp [same])) declines

/-! ### After the stop -/

theorem Course.stopped_later (course : Course disk options begun trace walk) :
    (∀ turn ∈ trace, turn.1.stopped = true → walk.stopped = true) ∧
      trace.Pairwise fun turn later => turn.1.stopped = true → later.1.stopped = true := by
  induction course with
  | refl => exact ⟨by simp, List.Pairwise.nil⟩
  | @step _ _ _ _ trace walk _ i _ _ steps ih =>
    obtain ⟨old, new, shared, held, turn, rfl⟩ := turn_of_step? steps
    obtain ⟨reached, earlier⟩ := ih
    constructor
    · intro turn' member stopped
      rcases List.mem_append.mp member with before | now
      · exact turn.stays_stopped (reached turn' before stopped)
      · rw [List.mem_singleton.mp now] at stopped
        exact turn.stays_stopped stopped
    · refine List.pairwise_append.mpr ⟨earlier, List.pairwise_singleton _ _, ?_⟩
      intro turn' before later now stopped
      rw [List.mem_singleton.mp now]
      exact reached turn' before stopped
  | close _ closes ih =>
    rw [(close?_walkers closes).2.1]
    exact ih

/-- No directory is opened once the walk is stopped. -/
theorem Course.opens_nothing {earlier later : Trace} {turn : SharedWalk × Nat}
    (course : Course disk options begun trace walk) (split : trace = earlier ++ turn :: later)
    (stopped : turn.1.stopped = true) : Trace.opened (turn :: later) = [] := by
  have pairs := course.stopped_later.2
  rw [split, List.pairwise_append, List.pairwise_cons] at pairs
  refine List.flatMap_eq_nil_iff.mpr fun other member => ?_
  have alsoStopped : other.1.stopped = true := by
    rcases List.mem_cons.mp member with rfl | behind
    · exact stopped
    · exact pairs.2.1.1 other behind stopped
  unfold SharedWalk.opens
  rw [alsoStopped]
  cases other.1.walkers[other.2]? with
  | none => rfl
  | some walker => cases walker <;> rfl

/-- When a walk is over, everything that was ever queued is marked done, but for the end marks that nobody is left
to take. -/
theorem Course.all_done (course : Course disk options (.begin threads first visited) trace walk)
    (atEnd : walk.isOver = true) :
    (∀ item ∈ walk.queue, item = none) ∧ walk.unfinished = walk.walkers.countP (·.interrupted?.isSome) := by
  have begun := sound_begin threads first visited
  have sound := course.sound begun
  obtain ⟨marks, gone⟩ := marks_of_isOver atEnd
  obtain ⟨onlyMarks, idle⟩ := idle_of_isOver sound atEnd
  have counted := sound.counted
  rw [List.countP_eq_zero.mpr fun walker member => by simp [idle walker member]] at counted
  have dismissed := course.dismisses begun (dismisses_begin threads first visited) 0 marks
  have others : walk.walkers.countP (fun walker => !walker.isEnded) =
      walk.walkers.countP (·.interrupted?.isSome) := by
    refine List.countP_congr fun walker member => ?_
    have finished := gone walker member
    cases walker with
    | ended | lost => simp [Walker.isEnded, Walker.interrupted?]
    | _ => cases finished
  have all := List.length_eq_countP_add_countP Walker.isEnded (l := walk.walkers)
  simp only [Bool.not_eq_true, Bool.decide_eq_false] at all
  exact ⟨onlyMarks, by omega⟩

/-- What a walk that the receiver may break off keeps to, when the scan hands out `batches` and the breadth-first
walk `levels`. -/
structure BreaksOff (disk : Disk) (options : Options) (batches levels : List Batch) (threads : Nat) (trace : Trace)
    (calls : List Call) (walk : SharedWalk) : Prop where
  /-- No entry is given that the scan does not hand out, or more often. -/
  among : (calls.map Call.entry).Subperm (batches.flatMap Batch.entries)
  /-- One thread gives the entries in breadth-first order, and none after the first that is declined. -/
  inLine : threads = 1 → calls.map Call.entry <+: levels.flatMap Batch.entries ∧
    (∀ call ∈ calls.dropLast, call.reply = .goOn) ∧
    (walk.isOver = true → (∀ call ∈ calls, call.reply = .goOn) →
      calls.map Call.entry = levels.flatMap Batch.entries)
  silent : calls.Pairwise fun call later => call.reply ≠ .goOn → later.thread ≠ call.thread
  closed : ∀ earlier turn later, trace = earlier ++ turn :: later → turn.1.stopped = true →
    Trace.opened (turn :: later) = []
  counted : walk.unfinished = walk.queue.length + walk.walkers.countP Walker.isBusy
  /-- In the end no job is left, but only an end mark for each thread that was interrupted. -/
  done : walk.isOver = true →
    (∀ item ∈ walk.queue, item = none) ∧ walk.unfinished = walk.walkers.countP (·.interrupted?.isSome)
  raises : walk.isOver = true → (walk.ending = none ↔ ∀ call ∈ calls, call.reply.halt? = none)
  raised : ∀ halt, walk.ending = some halt → ∃ call ∈ calls, call.reply.halt? = some halt
  /-- Nobody is left to take what is queued only if every thread was interrupted. -/
  stranded : walk.Stranded →
    ∀ thread < threads, ∃ call ∈ calls, call.thread = thread ∧ ∃ crash, call.reply = .interrupt crash

theorem Reply.crash?_eq_some {reply : Reply} {crash : Crash} :
    reply.crash? = some crash ↔ reply = .fail crash := by
  cases reply <;> simp [Reply.crash?]

theorem Reply.halt?_eq_none {reply : Reply} :
    reply.halt? = none ↔ reply.crash? = none ∧ ∀ crash, reply ≠ .interrupt crash := by
  cases reply <;> simp [Reply.halt?, Reply.crash?]

theorem ending_eq_none : walk.ending = none ↔
    (∀ walker ∈ walk.walkers, walker.interrupt? = none) ∧ walk.crashes.head? = none := by
  unfold SharedWalk.ending
  split
  · rename_i crash found
    obtain ⟨walker, member, is⟩ := List.exists_of_findSome?_eq_some found
    refine ⟨nofun, fun calm => ?_⟩
    rw [calm.1 walker member] at is
    cases is
  · rename_i whole
    rw [Option.map_eq_none_iff]
    exact (and_iff_right (List.findSome?_eq_none_iff.mp whole)).symm

theorem Heard.raised {halt : Halt} (heard : Heard disk options (.begin threads first visited) trace calls walk)
    (raises : walk.ending = some halt) : ∃ call ∈ calls, call.reply.halt? = some halt := by
  unfold SharedWalk.ending at raises
  split at raises
  · rename_i crash found
    cases raises
    obtain ⟨walker, member, is⟩ := List.exists_of_findSome?_eq_some found
    obtain ⟨thread, held⟩ := List.mem_iff_getElem?.mp member
    have broken : walker.interrupted? = some crash := by
      cases walker with
      | lost => exact is
      | _ => cases is
    obtain ⟨call, member, -, interrupts⟩ := (heard.interrupted_iff thread crash).mp ⟨walker, held, broken⟩
    exact ⟨call, member, by rw [interrupts]; rfl⟩
  · obtain ⟨crash, first, rfl⟩ := Option.map_eq_some_iff.mp raises
    have known := List.mem_append_left (walk.walkers.flatMap Walker.crash) (List.mem_of_head? first)
    obtain ⟨call, member, crashed⟩ := List.mem_filterMap.mp (heard.crashes_perm.mem_iff.mp known)
    exact ⟨call, member, by rw [Reply.crash?_eq_some.mp crashed]; rfl⟩

theorem Heard.raises (heard : Heard disk options (.begin threads first visited) trace calls walk)
    (atEnd : walk.isOver = true) : walk.ending = none ↔ ∀ call ∈ calls, call.reply.halt? = none := by
  obtain ⟨-, gone⟩ := marks_of_isOver atEnd
  have told : walk.walkers.flatMap Walker.crash = [] := by
    refine List.flatMap_eq_nil_iff.mpr fun walker member => ?_
    cases walker with
    | stopping => cases gone _ member
    | _ => rfl
  have crashes := heard.crashes_perm
  rw [told, List.append_nil] at crashes
  have noCrash : walk.crashes.head? = none ↔ ∀ call ∈ calls, call.reply.crash? = none := by
    rw [List.head?_eq_none_iff, ← List.filterMap_eq_nil_iff]
    exact ⟨fun none => List.nil_perm.mp (none ▸ crashes), fun none => List.perm_nil.mp (none ▸ crashes)⟩
  have noInterrupt : (∀ walker ∈ walk.walkers, walker.interrupt? = none) ↔
      ∀ call ∈ calls, ∀ crash, call.reply ≠ .interrupt crash := by
    constructor
    · intro none call member crash interrupts
      obtain ⟨walker, held, broken⟩ := (heard.interrupted_iff call.thread crash).mpr ⟨call, member, rfl, interrupts⟩
      have finished := gone walker (List.mem_of_getElem? held)
      have whole := none walker (List.mem_of_getElem? held)
      cases walker with
      | lost => cases whole
      | breaking => cases finished
      | _ => cases broken
    · intro none walker member
      cases walker with
      | lost crash =>
        obtain ⟨thread, held⟩ := List.mem_iff_getElem?.mp member
        obtain ⟨call, made, -, interrupts⟩ := (heard.interrupted_iff thread crash).mp ⟨_, held, rfl⟩
        exact absurd interrupts (none call made crash)
      | _ => rfl
  rw [ending_eq_none, noCrash, noInterrupt]
  simp only [Reply.halt?_eq_none, forall_and]
  exact and_comm

theorem Heard.stranded (heard : Heard disk options (.begin threads first visited) trace calls walk)
    (stranded : walk.Stranded) {thread : Nat} (among : thread < threads) :
    ∃ call ∈ calls, call.thread = thread ∧ ∃ crash, call.reply = .interrupt crash := by
  have inside : thread < walk.walkers.length := by
    rw [heard.course.length_walkers]
    simpa [SharedWalk.begin] using among
  have held := List.getElem?_eq_getElem inside
  obtain ⟨crash, lost⟩ := stranded.allLost _ (List.getElem_mem inside)
  rw [lost] at held
  obtain ⟨call, member, is, interrupts⟩ := (heard.interrupted_iff thread crash).mp ⟨_, held, rfl⟩
  exact ⟨call, member, is, crash, interrupts⟩

/-- Counts the entries that it gets, and crashes at the second. -/
def crashSecond : Receiver Nat := fun count _ =>
  some (if count = 1 then .fail (.told "RuntimeError" "sink exploded") else .goOn, count + 1)

end SyntaxTally.Walk
