import SyntaxTally.CommandLine.Run
import SyntaxTally.Proofs.Pipeline.Room
import SyntaxTally.Proofs.Settings.Key
import SyntaxTally.Proofs.Settings.Load

/-!
# Settings of a run

What a run is set to: the settings of its file, key by key, under what the arguments say. Numbers that are not positive
are refused in arguments and passed over in settings files, so there is always a worker, a thread that walks and room
in the queue.
-/
namespace SyntaxTally

open Files Yaml

/-! ### The width of the table -/

theorem Settings.tableWidth_pos_of_ofText {read : Reader} {name : String} {text : List Char} {settings : Settings}
    (made : ofText read name text = .ok settings) : 0 < settings.tableWidth := by
  unfold ofText at made
  split at made
  · cases made
    decide
  · split at made
    · cases made
    · cases made
    · obtain ⟨-, -, -, -, -, -, proper, -⟩ := ofValue_eq_ok made
      exact proper
    · split at made
      · cases made
        decide
      · cases made

theorem Configuration.tableWidth_pos {read : Reader} {disk : Disk} {path : Path} {found : Configuration}
    (loaded : load read disk path = .ok found) : 0 < found.settings.tableWidth := by
  unfold load at loaded
  obtain ⟨file, -, loaded⟩ := exists_of_bind_ok loaded
  obtain ⟨root, -, loaded⟩ := exists_of_bind_ok loaded
  obtain ⟨isThere, -, loaded⟩ := exists_of_bind_ok loaded
  split at loaded
  · obtain ⟨text, -, loaded⟩ := exists_of_bind_ok loaded
    obtain ⟨settings, made, loaded⟩ := exists_of_bind_ok loaded
    cases loaded
    exact Settings.tableWidth_pos_of_ofText made
  · cases loaded
    show 0 < (defaultTableWidth : Int)
    decide

/-! ### Arguments -/

namespace CommandLine

variable {arguments noted : Arguments} {reading after : Reading}

/-- The numbers that are given are at least one. -/
structure Arguments.Proper (arguments : Arguments) : Prop where
  workers : ∀ n, arguments.workers = some n → 1 ≤ n
  walkThreads : ∀ n, arguments.walkThreads = some n → 1 ≤ n
  width : ∀ n, arguments.width = some n → 1 ≤ n

theorem one_le_of_positive {switch : Switch} {value : String} {n : Int} (read : positive switch value = .ok n) :
    1 ≤ n := by
  unfold positive at read
  split at read
  · cases read
  · split at read
    · cases read
    · cases read
      omega

/-- A number that is noted was read as a positive one. -/
theorem noted_of_positive {switch : Switch} {value : String} {put : Int → Arguments}
    (notes : ((positive switch value).map put).mapError Stop.refused = .ok noted) : ∃ n, 1 ≤ n ∧ noted = put n := by
  cases read : positive switch value with
  | error fault =>
    rw [read] at notes
    cases notes
  | ok n =>
    rw [read] at notes
    cases notes
    exact ⟨n, one_le_of_positive read, rfl⟩

theorem Arguments.Proper.note {switch : Switch} {value : String} (proper : arguments.Proper)
    (notes : arguments.note switch value = .ok noted) : noted.Proper := by
  cases switch with
  | help | version => cases notes
  | skipped | verbose | followLinks | hidden | config | logFile =>
    cases notes
    exact ⟨proper.workers, proper.walkThreads, proper.width⟩
  | workers =>
    obtain ⟨n, positive, rfl⟩ := noted_of_positive notes
    exact ⟨fun m same => Option.some.inj same ▸ positive, proper.walkThreads, proper.width⟩
  | walkThreads =>
    obtain ⟨n, positive, rfl⟩ := noted_of_positive notes
    exact ⟨proper.workers, fun m same => Option.some.inj same ▸ positive, proper.width⟩
  | width =>
    obtain ⟨n, positive, rfl⟩ := noted_of_positive notes
    exact ⟨proper.workers, proper.walkThreads, fun m same => Option.some.inj same ▸ positive⟩

theorem Arguments.Proper.noteBare {switches : List Switch} (proper : arguments.Proper)
    (notes : switches.foldlM (fun arguments switch => arguments.note switch "") arguments = .ok noted) :
    noted.Proper := by
  induction switches generalizing arguments with
  | nil =>
    cases notes
    exact proper
  | cons switch switches ih =>
    rw [List.foldlM_cons] at notes
    obtain ⟨first, note, others⟩ := exists_of_bind_ok notes
    exact ih (proper.note note) others

theorem Arguments.Proper.noteAll {before : List Switch} {last : Switch} {value : String} (proper : arguments.Proper)
    (notes : arguments.noteAll before last value = .ok noted) : noted.Proper := by
  obtain ⟨middle, bare, note⟩ := exists_of_bind_ok notes
  exact (proper.noteBare bare).note note

theorem Reading.proper_noteSwitches {switch : Switch} {name : String} {value next : Option String} {taken : Bool}
    (proper : reading.arguments.Proper)
    (notes : reading.noteSwitches switch name value next = .ok (after, taken)) : after.arguments.Proper := by
  unfold noteSwitches at notes
  obtain ⟨⟨before, last, given⟩, -, notes⟩ := exists_of_bind_ok notes
  dsimp only at notes
  split at notes
  · obtain ⟨noted, reads, notes⟩ := exists_of_bind_ok notes
    cases notes
    exact proper.noteAll reads
  · split at notes
    · obtain ⟨noted, reads, notes⟩ := exists_of_bind_ok notes
      cases notes
      exact proper.noteAll reads
    · obtain ⟨noted, reads, notes⟩ := exists_of_bind_ok notes
      cases notes
      exact proper.noteAll reads
  · split at notes
    · cases notes
    · obtain ⟨noted, reads, notes⟩ := exists_of_bind_ok notes
      cases notes
      exact proper.noteAll reads

theorem Arguments.Proper.takePath (proper : reading.arguments.Proper) (path : String) :
    (reading.takePath path).arguments.Proper :=
  ⟨proper.workers, proper.walkThreads, proper.width⟩

theorem Reading.proper_read {pieces : List Piece} (proper : reading.arguments.Proper)
    (reads : reading.read pieces = .ok after) : after.arguments.Proper := by
  fun_induction Reading.read reading pieces with
  | case1 =>
    cases reads
    exact proper
  | case2 reading text rest pathRead ih => exact ih proper reads
  | case3 reading text rest pathless ih => exact ih (proper.takePath text) reads
  | case4 reading text rest unmarked ih =>
    refine ih ?_ reads
    split
    · exact proper
    · exact proper.takePath text
  | case5 reading text rest pathRead ih => exact ih proper reads
  | case6 reading text rest pathless ih => exact ih (proper.takePath text) reads
  | case7 reading rest alone ih =>
    refine ih ?_ reads
    split <;> exact proper
  | case8 reading text rest ih => exact ih proper reads
  | case9 reading switch name value next rest ihTaken ihLeft =>
    obtain ⟨⟨noted, taken⟩, notes, reads⟩ := exists_of_bind_ok reads
    have stillProper := proper_noteSwitches proper notes
    dsimp only at reads
    split at reads
    · exact ihTaken noted stillProper reads
    · exact ihLeft noted stillProper reads
  | case10 reading switch name value rest alone ih =>
    obtain ⟨⟨noted, taken⟩, notes, reads⟩ := exists_of_bind_ok reads
    exact ih noted (proper_noteSwitches proper notes) reads

/-- Arguments that are not refused have proper numbers. -/
theorem Arguments.proper_read {texts : List String} (reads : Arguments.read texts = .ok arguments) :
    arguments.Proper := by
  unfold Arguments.read at reads
  obtain ⟨pieces, -, reads⟩ := exists_of_bind_ok reads
  obtain ⟨reading, read, reads⟩ := exists_of_bind_ok reads
  split at reads
  · cases reads
    have begun : ({} : Arguments).Proper := ⟨by simp, by simp, by simp⟩
    exact Reading.proper_read begun read
  · cases reads

theorem Arguments.Proper.tableWidth_pos {settings : Settings} (proper : arguments.Proper)
    (positive : 0 < settings.tableWidth) : 0 < (arguments.override settings).tableWidth := by
  unfold Arguments.override
  cases given : arguments.width with
  | none => exact positive
  | some n => exact proper.width n given

/-! ### Settings by key -/

open Settings

/-- However texts are read into values, a setting comes from its own keys, and a value that does not suit its key is as
good as none. Excluded paths under `walk` come before the others. Whatever is set, in the file or by arguments, there
are workers, threads that walk, and a queue with room that it never exceeds. -/
theorem own_keys_and_positive_numbers (read : Reader) :
    (∀ (key : Key) (new : Option Value) (before after : Value), key.Replaces new before after →
      ∀ (disk disk' : Disk) (path path' root : Path) (old found : Configuration),
        Configuration.Loads read disk path root before → Configuration.Loads read disk' path' root after →
        Configuration.load read disk path = .ok old → Configuration.load read disk' path' = .ok found →
          found.root = old.root ∧ ∀ setting, setting ∉ key.feeds → setting.Same old.settings found.settings) ∧
    (∀ (key : Key) (wrong before after removed : Value), ¬ key.kind.Takes wrong →
      key.Replaces (some wrong) before after → key.Replaces none before removed →
      ∀ (disk disk' : Disk) (path path' root : Path),
        Configuration.Loads read disk path root after → Configuration.Loads read disk' path' root removed →
          Configuration.load read disk path = Configuration.load read disk' path') ∧
    (∀ (disk : Disk) (path root : Path) (value : Value) (found : Configuration),
      Configuration.Loads read disk path root value → Configuration.load read disk path = .ok found →
        found.settings.walk.excludePaths =
          shownIn (Key.walkPaths.find value) ++ shownIn (Key.excludePaths.find value)) ∧
    (∀ (disk : Disk) (path : Path) (found : Configuration) (texts : List String) (arguments : Arguments),
      Configuration.load read disk path = .ok found → Arguments.read texts = .ok arguments →
      ∀ settings, settings = arguments.override found.settings →
        1 ≤ settings.tableWidth ∧
        (∀ processors, 1 ≤ settings.effectiveWorkers processors ∧ 1 ≤ settings.effectiveQueueSize processors ∧
          1 ≤ settings.effectiveWalkThreads processors) ∧
        ∀ (σ : Type) (pipeline : Pipeline σ), pipeline.settings = settings →
          ∀ (progress : Progress σ) (first : Except Crash Walk.Start) (team : Team σ),
            Team.Reaches pipeline pipeline.capacity
              (.begin (Walk.threads none pipeline.walkOptions) pipeline.workers progress first) team →
              team.workers.length = settings.effectiveWorkers pipeline.processors ∧
              team.work.length ≤ settings.effectiveQueueSize pipeline.processors ∧
              ∀ job visited logs, first = .ok (.tree job visited logs) →
                team.walk.walkers.length = settings.effectiveWalkThreads pipeline.processors) := by
  refine ⟨?_, ?_, ?_, ?_⟩
  · intro key new before after replaces disk disk' path path' root old found loads loads' loaded loaded'
    obtain ⟨rooted, made⟩ := loads.of_load loaded
    obtain ⟨rooted', made'⟩ := loads'.of_load loaded'
    refine ⟨rooted'.trans rooted.symm, ?_⟩
    intro setting unfed
    exact same_of_replaces replaces unfed made made'
  · intro key wrong before after removed unfit replaces removes disk disk' path path' root loads loads'
    rw [loads.load_eq, loads'.load_eq, ofValue_of_wrong unfit replaces removes]
  · intro disk path root value found loads loaded
    exact excludePaths_of_ofValue (loads.of_load loaded).2
  · rintro disk path found texts arguments loaded reads _ rfl
    refine ⟨?_, ?_, ?_⟩
    · exact (Arguments.proper_read reads).tableWidth_pos (Configuration.tableWidth_pos loaded)
    · intro processors
      exact ⟨effectiveWorkers_pos _ processors, effectiveQueueSize_pos _ processors,
        effectiveWalkThreads_pos _ processors⟩
    · intro σ pipeline set progress first team reaches
      have room : 0 < pipeline.capacity := effectiveQueueSize_pos pipeline.settings pipeline.processors
      have manned := effectiveWalkThreads_pos pipeline.settings pipeline.processors
      have within := reaches.within (Team.within_begin room _ _ progress first)
      rw [← set]
      refine ⟨within.workers, within.work, ?_⟩
      rintro job visited logs rfl
      rw [within.walkers]
      show max 1 (pipeline.settings.effectiveWalkThreads pipeline.processors : Int).toNat = _
      omega

/-- Settings that give a truth for a number, as a text and as a value. -/
def flagText : List Char := "workers: on".toList

def flagValue : Value := .mapping [(.string "workers", .scalar (.bool true))]

def isFlagValue : Except Yaml.Fault Value → Bool
  | .ok (.mapping [(.scalar (.string name), .scalar (.bool truth))]) => name = "workers" && truth
  | _ => false

theorem eq_of_isFlagValue {read : Except Yaml.Fault Value} (flag : isFlagValue read = true) : read = .ok flagValue := by
  unfold isFlagValue at flag
  split at flag
  · simp only [Bool.and_eq_true, decide_eq_true_eq] at flag
    obtain ⟨rfl, rfl⟩ := flag
    rfl
  · cases flag

theorem loads_linkedTo {read : Reader} {text : List Char} {value : Value}
    (loads : LoadsAs read (Text.newlines text) value) :
    Configuration.Loads read (Configuration.linkedTo text) ⟨0, ["l"]⟩ ⟨1, ["d"]⟩ value := by
  obtain ⟨located, rooted, real⟩ := (Configuration.keptIn_linkedTo text).resolved (Configuration.roomy_linkedTo text)
    (by decide) (Configuration.lookup_linkedTo text) nofun
  refine ⟨_, Text.newlines text, located, rooted, ?_, ?_, loads⟩
  · rw [Disk.exists?, Disk.asks_of_lookup real]
  · have held : (Configuration.linkedTo text).bytesAt ["d", fileName] = .ok (Text.encodeUtf8 text) := rfl
    rw [Disk.readText, Disk.readBytes_of_lookup real, held, Disk.textOf, Text.decodeUtf8_eq_ok_iff.mpr rfl]

theorem own_keys_and_positive_numbers_flag :
    Configuration.Loads ownTools.readValue (Configuration.linkedTo flagText) ⟨0, ["l"]⟩ ⟨1, ["d"]⟩ flagValue ∧
    Configuration.Loads ownTools.readValue (Configuration.linkedTo []) ⟨0, ["l"]⟩ ⟨1, ["d"]⟩ (.mapping []) ∧
    ¬ Key.workers.kind.Takes (.scalar (.bool true)) ∧
    Key.workers.Replaces (some (.scalar (.bool true))) (.mapping []) flagValue ∧
    Key.workers.Replaces none (.mapping []) (.mapping []) ∧
    Configuration.load ownTools.readValue (Configuration.linkedTo flagText) ⟨0, ["l"]⟩ =
      Configuration.load ownTools.readValue (Configuration.linkedTo []) ⟨0, ["l"]⟩ := by
  have flagged : Configuration.Loads ownTools.readValue (Configuration.linkedTo flagText) ⟨0, ["l"]⟩ ⟨1, ["d"]⟩
      flagValue :=
    loads_linkedTo (.mapping ⟨'w', by decide, by decide⟩ (eq_of_isFlagValue (by decide +kernel)))
  have blank : Configuration.Loads ownTools.readValue (Configuration.linkedTo []) ⟨0, ["l"]⟩ ⟨1, ["d"]⟩
      (.mapping []) :=
    loads_linkedTo (.blank nofun)
  have unfit : ¬ Key.workers.kind.Takes (.scalar (.bool true)) := by
    rintro (⟨n, same⟩ | ⟨text, n, same, -⟩) <;> cases same
  have replaces : Key.workers.Replaces (some (.scalar (.bool true))) (.mapping []) flagValue := by
    refine ⟨⟨_, rfl⟩, rfl, fun other apart => ?_⟩
    have notIts : Value.isString other (.string "workers") = false := decide_eq_false (Ne.symm apart)
    simp [flagValue, Value.field?, List.findRev?, notIts]
  have removes : Key.workers.Replaces none (.mapping []) (.mapping []) := ⟨⟨_, rfl⟩, rfl, fun _ _ => rfl⟩
  exact ⟨flagged, blank, unfit, replaces, removes,
    (own_keys_and_positive_numbers _).2.1 .workers _ _ _ _ unfit replaces removes _ _ _ _ _ flagged blank⟩

end CommandLine

end SyntaxTally
