import SyntaxTally.Proofs.Pipeline.Outcome
import SyntaxTally.Proofs.Walk.Explore

/-!
# Runs that follow links

A team may enter a directory on another path than one worker alone, since the paths are found in another
order. Where the ignore rules decide otherwise on the two paths, the runs count different files
(`team_misses_file`). Where all ways to a directory agree and the analyser goes by the bytes and the extension
of a file, every schedule gives what one worker gives (`linked_team_gives_what_one_gives`).
-/
namespace SyntaxTally

open Files Walk

variable {σ : Type} {f : Path → Outcome} {entries others : List Entry}

/-! ### What entries are worth -/

/-- What counts of an entry in the outcome of a run. -/
def Walk.Entry.worth (f : Path → Outcome) : Entry → Option (Except Halt (Option Counts))
  | file path => some (f path).verdict
  | failure _ _ => none

/-- The counts that something is worth. -/
def countsWorth : Option (Except Halt (Option Counts)) → Option Counts
  | some (.ok counts) => counts
  | _ => none

theorem counts?_eq (f : Path → Outcome) : Entry.counts? f = countsWorth ∘ Entry.worth f := by
  funext entry
  cases entry with
  | failure => rfl
  | file path => simp only [Entry.counts?, Function.comp, Entry.worth, countsWorth]; split <;> simp_all

theorem halt?_of_worth {entry twin : Entry} (same : twin.worth f = entry.worth f) :
    twin.halt? f = entry.halt? f := by
  cases entry <;> cases twin <;> simp_all [Entry.worth, Entry.halt?]

theorem isFile_eq (f : Path → Outcome) : Entry.isFile = Option.isSome ∘ Entry.worth f := by
  funext entry
  cases entry <;> rfl

theorem isFailure_eq (f : Path → Outcome) : Entry.isFailure = Option.isNone ∘ Entry.worth f := by
  funext entry
  cases entry <;> rfl

/-- Entries that are worth the same give the same numbers. -/
theorem numbers_of_worth (same : (entries.map (Entry.worth f)).Perm (others.map (Entry.worth f))) :
    tally f entries = tally f others ∧
      (entries.filterMap (Entry.counts? f)).length = (others.filterMap (Entry.counts? f)).length ∧
      entries.countP Entry.isFile = others.countP Entry.isFile ∧
      entries.countP Entry.isFailure = others.countP Entry.isFailure := by
  refine ⟨?_, ?_, ?_, ?_⟩
  · have sums := (same.map fun worth => total (countsWorth worth)).sum_eq
    simpa [tally, counts?_eq, Function.comp_def] using sums
  · rw [counts?_eq, ← List.filterMap_map, ← List.filterMap_map]
    exact (same.filterMap _).length_eq
  · rw [isFile_eq f, ← List.countP_map, ← List.countP_map]
    exact same.countP_eq _
  · rw [isFailure_eq f, ← List.countP_map, ← List.countP_map]
    exact same.countP_eq _

variable {result other : Except RunFault Summary × Progress σ}

theorem Blames.of_worth {halt : Halt} (among : ∀ entry ∈ entries, ∃ twin ∈ others, twin.worth f = entry.worth f)
    (blames : Blames f entries halt) : Blames f others halt := by
  obtain ⟨entry, listed, halts⟩ := blames
  obtain ⟨twin, there, same⟩ := among entry listed
  exact ⟨twin, there, (halt?_of_worth same).trans halts⟩

theorem Ledger.unblamed {handled : List Entry} {p : Progress σ} {halt : Halt} (ledger : Ledger f handled p)
    (all : handled.Perm entries) : ¬ Blames f entries halt := by
  rintro ⟨entry, listed, halts⟩
  rw [ledger.unbroken entry (all.mem_iff.mpr listed)] at halts
  cases halts

/-- Of two settled results the one that has dealt with entries worth no more than those of the other says
the same as the other, if the entries are worth the same or the run was broken off. -/
theorem Settled.agree (among : ∀ entry ∈ entries, ∃ twin ∈ others, twin.worth f = entry.worth f)
    (whole : Unbroken result → (entries.map (Entry.worth f)).Perm (others.map (Entry.worth f)))
    (settled : Settled f entries result) (settledToo : Settled f others other) :
    (∃ (halt cause : Halt) (doing more : String), result.1 = .error (halt.fault doing) ∧
        other.1 = .error (cause.fault more) ∧ Blames f others halt) ∨
      (result.1 = .error .noFiles ∧ other.1 = .error .noFiles) ∨
      ∃ summary same, result.1 = .ok summary ∧ other.1 = .ok same ∧ summary.Same same := by
  cases settled with
  | halted doing p blames =>
    have blamesToo := blames.of_worth among
    cases settledToo with
    | halted more q _ => exact .inl ⟨_, _, doing, more, rfl, rfl, blamesToo⟩
    | finished allToo ledgerToo => exact absurd blamesToo (ledgerToo.unblamed allToo)
  | @finished _ p sum all ledger sums =>
    have worth := whole (unbroken_finish p sum)
    obtain ⟨tallies, analyzed, files, failures⟩ := numbers_of_worth worth
    have back : ∀ twin ∈ others, ∃ entry ∈ entries, entry.worth f = twin.worth f := fun twin listed =>
      List.mem_map.mp (worth.mem_iff.mpr (List.mem_map_of_mem listed))
    cases settledToo with
    | halted more q blames => exact absurd (blames.of_worth back) (ledger.unblamed all)
    | @finished _ q more allToo ledgerToo sumsToo =>
      have accounted := accounted_finish all ledger sum
      have accountedToo := accounted_finish allToo ledgerToo more
      have totals : total sum = total more := (sums.trans tallies).trans sumsToo.symm
      rcases same_of_total_eq totals with ⟨rfl, rfl⟩ | ⟨a, b, rfl, rfl, counts⟩
      · exact .inr (.inl ⟨rfl, rfl⟩)
      · exact .inr (.inr ⟨_, _, rfl, rfl,
          accounted.same accountedToo rfl rfl analyzed files failures counts⟩)

/-! ### Runs -/

/-- The analyser judges each file that a walk may come to by its bytes and its extension. -/
def JudgesContent (disk : Disk) (options : Options) (first : Job) (f : Path → Outcome) : Prop :=
  ∃ judge : List UInt8 → String → Except Halt (Option Counts),
    ∀ job, Enters disk options first job →
      ∀ name place bytes, target disk job name = .ok (some (place, .file bytes)) →
        (f (job.path.child name)).verdict = judge bytes (job.path.child name).extension

theorem extension_child (path other : Path) (name : String) :
    (path.child name).extension = (other.child name).extension := by
  simp [Path.extension, Path.name, Path.child]

variable {disk : Disk} {options : Options} {first : Job}

theorem JudgesContent.worth_file {left right : Job} {name : String} {place : Place} {bytes : List UInt8}
    (judges : JudgesContent disk options first f) (enters : Enters disk options first left)
    (alsoEnters : Enters disk options first right)
    (leads : target disk left name = .ok (some (place, .file bytes)))
    (alsoLeads : target disk right name = .ok (some (place, .file bytes))) :
    Entry.worth f (.file (left.path.child name)) = Entry.worth f (.file (right.path.child name)) := by
  obtain ⟨judge, judged⟩ := judges
  have here := judged left enters name place bytes leads
  have there := judged right alsoEnters name place bytes alsoLeads
  rw [Entry.worth, Entry.worth, here, there, extension_child left.path right.path]

/-- However a walk that follows links goes, what it gives has its like among the entries of the scan, and a
walk that is through has given as much as the scan. -/
theorem given_worth {threads : Nat} {walk : SharedWalk} {trace : Trace} {root : Path} {visited : List Place}
    {logs : List Log.Record} {batches : List Batch} (links : options.followLinks = true)
    (agree : WaysAgree disk options first) (judges : JudgesContent disk options first f)
    (begins : start disk options root = .ok (.tree first visited logs))
    (scanned : scan disk options root = .ok batches)
    (course : Course disk options (.begin threads first visited) trace walk) :
    (∀ entry ∈ trace.given, ∃ twin ∈ batches.flatMap Batch.entries, twin.worth f = entry.worth f) ∧
      (walk.Unstopped → (∀ item ∈ walk.queue, item = none) →
        (∀ walker ∈ walk.walkers, walker.isBusy = false) →
        (trace.given.map (Entry.worth f)).Perm ((batches.flatMap Batch.entries).map (Entry.worth f))) := by
  obtain rfl : visited = [first.place] := by
    obtain ⟨-, -, marked⟩ := start_tree begins
    rw [marked, if_pos links]
  obtain ⟨opened, places, explored, handedOut⟩ := scan_explores links begins scanned
  obtain ⟨own, shown⟩ := exists_worth agree (fun _ _ _ _ => rfl)
    fun left right enters alsoEnters _ name place bytes => judges.worth_file enters alsoEnters
  rw [handedOut]
  constructor
  · intro entry given
    obtain ⟨lost, exploring, -⟩ := course.explores links
    obtain ⟨lostEntries, passed, -⟩ := course.entries
    rw [entries_begin, List.nil_append] at passed
    have found : entry ∈ trace.opened.flatMap (ownEntries disk options) :=
      passed.mem_iff.mpr (by simp [given])
    exact exists_twin agree shown exploring explored found
  · intro unstopped onlyMarks idle
    obtain ⟨alsoExplored, given⟩ := course.explored links unstopped onlyMarks idle
    exact (given.map _).trans (entries_perm agree shown alsoExplored explored)

/-- A walk without threads gives nothing. -/
theorem given_unmanned {walk last : SharedWalk} {trace : Trace} (unmanned : walk.walkers = [])
    (course : Course disk options walk trace last) : trace.given = [] ∧ last.walkers = [] := by
  induction course with
  | refl => exact ⟨rfl, unmanned⟩
  | step _ steps ih =>
    obtain ⟨old, -, -, held, -, -⟩ := turn_of_step? steps
    simp [ih.2] at held
  | close _ closes ih => exact ⟨ih.1, (close?_walkers closes).1.trans ih.2⟩

variable {pipeline : Pipeline σ} {root : Path} {batches : List Batch}

/-- If links are followed, all ways to a directory agree, and the analyser goes by bytes and extension, then
every schedule gives what one worker alone gives: both fail as the walk cannot begin, or both are broken off, which a
file of the scan brings about, or both find no files, or both give a summary with the same counts and numbers. -/
theorem linked_team_gives_what_one_gives (regular : pipeline.Regular f)
    (links : pipeline.settings.walk.followLinks = true)
    (agree : ∀ first visited logs,
      start pipeline.disk pipeline.walkOptions root = .ok (.tree first visited logs) →
        WaysAgree pipeline.disk pipeline.walkOptions first ∧
          JudgesContent pipeline.disk pipeline.walkOptions first f) (state : σ) :
    ∀ result, pipeline.Ends root state result →
      (∃ crash, StartFails pipeline.disk root crash ∧ (∃ doing, result.1 = .error (.worker doing crash)) ∧
        ∃ doing, (pipeline.single.runDirectory root state).1 = .error (.worker doing crash)) ∨
      ∃ batches, scan pipeline.disk pipeline.walkOptions root = .ok batches ∧
        ((∃ (halt cause : Halt) (doing more : String), result.1 = .error (halt.fault doing) ∧
            (pipeline.single.runDirectory root state).1 = .error (cause.fault more) ∧
            Blames f (batches.flatMap Batch.entries) halt) ∨
          (result.1 = .error .noFiles ∧ (pipeline.single.runDirectory root state).1 = .error .noFiles) ∨
          ∃ summary same, result.1 = .ok summary ∧ (pipeline.single.runDirectory root state).1 = .ok same ∧
            summary.Same same) := by
  intro result ends
  rcases pipeline.scan_cases root with ⟨crash, fails⟩ | ⟨batches, scanned⟩
  · exact .inl ⟨crash, fails, Pipeline.both_fail fails ends⟩
  refine .inr ⟨batches, scanned, ?_⟩
  have alone : Settled f (batches.flatMap Batch.entries) (pipeline.single.runDirectory root state) :=
    settled_runAlone regular.single (pipeline.single.ledger_opening f root state)
      ((pipeline.scan_single root).trans scanned)
  cases ends with
  | alone one =>
    refine Settled.agree (fun entry listed => ⟨entry, listed, rfl⟩) (fun _ => List.Perm.refl _) ?_ alone
    rw [Pipeline.runDirectory, if_pos one]
    exact settled_runAlone regular (pipeline.ledger_opening f root state) scanned
  | @team team many reaches atEnd =>
    obtain ⟨first, begins⟩ := Pipeline.exists_start scanned
    rw [Pipeline.firstTeam_eq begins] at reaches
    obtain ⟨trace, course, settled, through⟩ := Pipeline.settled_given regular reaches atEnd
    cases first with
    | single path =>
      rw [(given_unmanned rfl course).1] at settled
      rw [scan, begins] at scanned
      obtain rfl := Except.ok.inj scanned
      exact Settled.agree (fun entry listed => ⟨entry, listed, rfl⟩) (fun _ => List.Perm.refl _) settled alone
    | tree job visited logs =>
      obtain ⟨agrees, judges⟩ := agree job visited logs begins
      obtain ⟨among, whole⟩ := given_worth links agrees judges begins scanned course
      refine Settled.agree among (fun unbroken => ?_) settled alone
      obtain ⟨unstopped, onlyMarks, idle⟩ := through unbroken
      exact whole unstopped onlyMarks idle

/-! ### Two disks with links -/

/-- One call in each file with a certain extension; the others are skipped. -/
def callInScripts (path : Path) : Outcome :=
  if path.extension = ".py" then .counted (.ofEntries [("call", 1)]) else .failed ⟨.treeless path, path⟩

theorem judgesContent_callInScripts (disk : Disk) (options : Options) (first : Job) :
    JudgesContent disk options first callInScripts := by
  refine ⟨fun _ extension => if extension = ".py" then .ok (some (.ofEntries [("call", 1)])) else .ok none,
    fun job _ name place bytes _ => ?_⟩
  by_cases script : (job.path.child name).extension = ".py" <;> simp [callInScripts, script, Outcome.verdict]

/-- Two workers that follow links. -/
def linkedPipeline (disk : Disk) : Pipeline Unit where
  disk
  settings := { workers := some 2, walk := { followLinks := true, threads := some 1 } }
  processors := none
  analyze path _ := (callInScripts path, [], ())

theorem regular_linkedPipeline (disk : Disk) : (linkedPipeline disk).Regular callInScripts :=
  ⟨fun _ _ => rfl, fun _ _ => rfl, fun _ => rfl⟩

/-- On the ring of links, the directory is the same by its own name and by that of the link. -/
theorem sameWay_ringJob {name other : String} (listed : name ∈ ["d", "l"]) (alsoListed : other ∈ ["d", "l"]) :
    SameWay ringDisk following (ringJob name) (ringJob other) := by
  have ruleless : Ruleless ringDisk := by decide
  have names : ringDisk.namesIn ["d"] = ["c.py", "up"] := by decide +kernel
  have unbarred : ∀ name ∈ ["d", "l"], ringDisk.barrier? (ringJob name).path = none := by decide +kernel
  have untold : ∀ name ∈ ["d", "l"], ∀ file ∈ ignoreFileNames,
      readIgnoreFile ringDisk ((ringJob name).path.child file) = ([], []) := by
    decide +kernel
  have leads : ∀ name ∈ ["d", "l"], ∀ child ∈ ["c.py", "up"], target ringDisk (ringJob name) child =
      .ok (some (if child = "up" then ([], .directory) else (["d", "c.py"], .file []))) := by
    decide +kernel
  have enters : ∀ name ∈ ["d", "l"], ∀ child ∈ ["c.py", "up"],
      ringDisk.placeOf true ((ringJob name).path.child child) = .ok (if child = "up" then [] else ["d", "c.py"]) := by
    decide +kernel
  refine ⟨rfl, ?_, fun file known => ?_, fun child inside _ => ?_, fun child inside _ _ _ => ?_,
    fun child _ _ _ _ _ => ?_⟩
  · rw [unbarred name listed, unbarred other alsoListed]
  · rw [untold name listed file known, untold other alsoListed file known]
  · rw [leads name listed child (names ▸ inside), leads other alsoListed child (names ▸ inside)]
  · exact iff_of_true (fun _ => ⟨_, enters name listed child (names ▸ inside)⟩)
      fun _ => ⟨_, enters other alsoListed child (names ▸ inside)⟩
  · rw [ruleless.scopesAt rfl rfl, ruleless.scopesAt rfl rfl]
    rfl

theorem waysAgree_ringDisk : WaysAgree ringDisk following topJob := by
  intro left right enters alsoEnters same
  have cases : ∀ {job}, Enters ringDisk following topJob job →
      job = topJob ∨ ∃ name ∈ ["d", "l"], job = ringJob name := by
    intro job enters
    simpa using enters_ringDisk enters
  rcases cases enters with rfl | ⟨name, listed, rfl⟩ <;> rcases cases alsoEnters with rfl | ⟨other, alsoListed, rfl⟩
  · exact ⟨rfl, rfl, fun _ _ => rfl, fun _ _ _ => rfl, fun _ _ _ _ _ => Iff.rfl, fun _ _ _ _ _ _ => rfl⟩
  · cases same
  · cases same
  · exact sameWay_ringJob listed alsoListed

theorem linked_team_gives_what_one_gives_ringDisk :
    ∃ result, (linkedPipeline ringDisk).Ends ⟨1, []⟩ () result ∧
      ∃ summary same, result.1 = .ok summary ∧
        ((linkedPipeline ringDisk).single.runDirectory ⟨1, []⟩ ()).1 = .ok same ∧
        summary.Same same ∧ same.analyzed = 1 := by
  have atEnd : ((linkedPipeline ringDisk).teamAfter ⟨1, []⟩ () 100).isOver = true := by decide +kernel
  have ends := Pipeline.ends_teamAfter (by decide) atEnd
  have alone : ((linkedPipeline ringDisk).single.runDirectory ⟨1, []⟩ ()).1 =
      .ok ⟨.ofEntries [("call", 1)], 1, 0, 0⟩ := by decide +kernel
  have agree : ∀ first visited logs, start ringDisk following ⟨1, []⟩ = .ok (.tree first visited logs) →
      WaysAgree ringDisk following first ∧ JudgesContent ringDisk following first callInScripts := by
    intro first visited logs begins
    rw [start_ringDisk] at begins
    cases begins
    exact ⟨waysAgree_ringDisk, judgesContent_callInScripts _ _ _⟩
  have given := linked_team_gives_what_one_gives (regular_linkedPipeline ringDisk) rfl agree () _ ends
  refine ⟨_, ends, ?_⟩
  rw [alone] at given ⊢
  rcases given with ⟨crash, -, -, doing, fails⟩ | ⟨batches, -, ⟨halt, cause, doing, more, -, broken, -⟩ | ⟨-, none⟩ |
    ⟨summary, same, is, isToo, alike⟩⟩
  · cases fails
  · cases broken
  · cases none
  · obtain rfl := Except.ok.inj isToo
    exact ⟨summary, _, is, rfl, alike, rfl⟩

/-- The script lies in a directory to which a link leads as well, and a rule at the top names it on the way
without the link only. -/
def forkedDisk : Disk where
  items := [([".gitignore"], .file (Text.encodeUtf8 "/b/D/x.py\n".toList)), (["a"], .directory),
    (["a", "l1"], .directory), (["a", "l1", "l2"], .link "../../b/D"), (["b"], .directory),
    (["b", "D"], .directory), (["b", "D", "x.py"], .file [])]
  here := []
  home := "/"
  locked := []
  sealed := []
  tree := by decide

/-- One worker goes down to the link before it comes to the directory itself, and counts the script. A team
finds the directory itself first, where the script is ignored. -/
theorem team_misses_file :
    start forkedDisk (linkedPipeline forkedDisk).walkOptions ⟨1, []⟩ = .ok (.tree topJob [[]] []) ∧
      JudgesContent forkedDisk (linkedPipeline forkedDisk).walkOptions topJob callInScripts ∧
      ((linkedPipeline forkedDisk).single.runDirectory ⟨1, []⟩ ()).1 =
        .ok ⟨.ofEntries [("call", 1)], 1, 0, 0⟩ ∧
      ∃ result, (linkedPipeline forkedDisk).Ends ⟨1, []⟩ () result ∧ result.1 = .error .noFiles := by
  have atEnd : ((linkedPipeline forkedDisk).teamAfter ⟨1, []⟩ () 200).isOver = true := by decide +kernel
  have none : ((linkedPipeline forkedDisk).teamAfter ⟨1, []⟩ () 200).outcome.1 = .error .noFiles := by decide +kernel
  exact ⟨by decide +kernel, judgesContent_callInScripts _ _ _, by decide +kernel, _,
    Pipeline.ends_teamAfter (by decide) atEnd, none⟩

end SyntaxTally
