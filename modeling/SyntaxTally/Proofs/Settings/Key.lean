import SyntaxTally.Proofs.Settings.Content
import SyntaxTally.Proofs.Text.Case

/-!
# Settings key by key

Each setting comes from one key, the excluded paths from two, and `walk` has four of these keys under it. A key only
counts through what its value is taken for: `Kind.Alike` values give the same settings (`ofValue_congr`), and a value
that its key does not take is like no value at all (`alike_of_wrong`).
-/
namespace SyntaxTally

open Yaml

variable {value before after : Value}

theorem exists_of_bind_ok {ε α β : Type} {first : Except ε α} {next : α → Except ε β} {b : β}
    (bound : first.bind next = .ok b) : ∃ a, first = .ok a ∧ next a = .ok b := by
  cases first with
  | error fault => cases bound
  | ok a => exact ⟨a, rfl, bound⟩

theorem exists_of_map_ok {ε α β : Type} {first : Except ε α} {f : α → β} {b : β} (mapped : first.map f = .ok b) :
    ∃ a, first = .ok a ∧ f a = b := by
  cases first with
  | error fault => cases mapped
  | ok a => exact ⟨a, rfl, Except.ok.inj mapped⟩

namespace Settings

/-! ### Keys -/

/-- The keys that are looked at, the last four of them under `walk`. -/
inductive Key where
  | workers
  | queueSize
  | languages
  | showSkipped
  | tableWidth
  | excludePaths
  | walk
  | followLinks
  | hidden
  | threads
  | walkPaths
  deriving DecidableEq

inductive Setting where
  | workers
  | queueSize
  | languages
  | showSkipped
  | tableWidth
  | followLinks
  | hidden
  | threads
  | excludePaths
  deriving DecidableEq

inductive Kind where
  | number
  | flag
  | texts
  | mapping

namespace Key

def name : Key → String
  | workers => "workers"
  | queueSize => "queue_size"
  | languages => "languages"
  | showSkipped => "show_skipped"
  | tableWidth => "table_width"
  | excludePaths | walkPaths => "exclude_paths"
  | walk => "walk"
  | followLinks => "follow_links"
  | hidden => "hidden"
  | threads => "threads"

def isUnderWalk : Key → Bool
  | followLinks | hidden | threads | walkPaths => true
  | _ => false

def kind : Key → Kind
  | workers | queueSize | tableWidth | threads => .number
  | showSkipped | followLinks | hidden => .flag
  | languages | excludePaths | walkPaths => .texts
  | walk => .mapping

/-- The settings that a key is for. -/
def feeds : Key → List Setting
  | workers => [.workers]
  | queueSize => [.queueSize]
  | languages => [.languages]
  | showSkipped => [.showSkipped]
  | tableWidth => [.tableWidth]
  | excludePaths | walkPaths => [.excludePaths]
  | walk => [.followLinks, .hidden, .threads, .excludePaths]
  | followLinks => [.followLinks]
  | hidden => [.hidden]
  | threads => [.threads]

end Key

/-- Both settings have the same there. -/
def Setting.Same (left right : Settings) : Setting → Prop
  | workers => left.workers = right.workers
  | queueSize => left.queueSize = right.queueSize
  | languages => left.languages = right.languages
  | showSkipped => left.showSkipped = right.showSkipped
  | tableWidth => left.tableWidth = right.tableWidth
  | followLinks => left.walk.followLinks = right.walk.followLinks
  | hidden => left.walk.hidden = right.walk.hidden
  | threads => left.walk.threads = right.walk.threads
  | excludePaths => left.walk.excludePaths = right.walk.excludePaths

/-! ### Values of a key -/

def flagWords : List (List Char) :=
  [['t', 'r', 'u', 'e'], ['y', 'e', 's'], ['1'], ['f', 'a', 'l', 's', 'e'], ['n', 'o'], ['0']]

/-- The values that suit a key: a whole number or a text that spells one, a truth or a word for it, a text or a
sequence (bytes and pairs are sequences), a mapping. -/
def Kind.Takes (value : Value) : Kind → Prop
  | number => (∃ n, value = .scalar (.int n)) ∨
      ∃ text n, value = .string text ∧ Text.integer? text.toList = some n
  | flag => (∃ truth, value = .scalar (.bool truth)) ∨
      ∃ text, value = .string text ∧ ∃ word ∈ flagWords, Text.Spells word text.toList
  | texts => (∃ text, value = .string text) ∨ (∃ items, value = .sequence items) ∨
      (∃ bytes, value = .scalar (.binary bytes)) ∨ ∃ first second, value = .pair first second
  | mapping => ∃ entries, value = .mapping entries

/-- The texts that a list stands for, if it is given. -/
def textsIn : Option Value → Except SettingsFault (List String)
  | none => .ok []
  | some found => found.asStrings.mapError .crash

/-- Both values are taken for the same. -/
def Kind.Alike (left right : Option Value) : Kind → Prop
  | number => left.bind Value.asInt? = right.bind Value.asInt?
  | flag => left.bind Value.asBool? = right.bind Value.asBool?
  | texts => textsIn left = textsIn right
  | mapping => ∀ name, left.bind (Value.field? name) = right.bind (Value.field? name)

theorem Kind.Alike.refl (kind : Kind) (value : Option Value) : kind.Alike value value := by
  cases kind with
  | number | flag | texts => rfl
  | mapping => exact fun _ => rfl

theorem asInt?_of_wrong (wrong : ¬ Kind.number.Takes value) : value.asInt? = none := by
  simp only [Kind.Takes, not_or, not_exists, not_and] at wrong
  unfold Value.asInt?
  split
  · exact absurd rfl (wrong.1 _)
  · exact Option.eq_none_iff_forall_ne_some.mpr fun n => wrong.2 _ n rfl
  · rfl

theorem plain_of_mem_flagWords {word : List Char} (listed : word ∈ flagWords) :
    word ≠ [] ∧ word ⊆ Text.plainLetters := by
  have all : (flagWords.all fun word => decide (word ≠ [] ∧ word ⊆ Text.plainLetters)) = true := by decide +kernel
  exact of_decide_eq_true (List.all_eq_true.mp all word listed)

theorem asBool?_of_wrong (wrong : ¬ Kind.flag.Takes value) : value.asBool? = none := by
  simp only [Kind.Takes, not_or, not_exists, not_and] at wrong
  obtain ⟨noTruth, noWord⟩ := wrong
  unfold Value.asBool?
  split
  · exact absurd rfl (noTruth _)
  · rename_i text
    have other : ∀ word ∈ flagWords, Text.lower (String.ofList (Text.strip text.toList)) ≠ String.ofList word := by
      intro word listed same
      obtain ⟨some, plain⟩ := plain_of_mem_flagWords listed
      exact noWord text rfl word listed ((Text.lower_strip_eq_iff (fun _ member => plain member) some).mp same)
    simp only [flagWords, List.mem_cons, List.not_mem_nil, or_false, forall_eq_or_imp, forall_eq] at other
    obtain ⟨notTrue, notYes, notOne, notFalse, notNo, notZero⟩ := other
    dsimp only
    rw [if_neg, if_neg]
    · simp only [List.mem_cons, List.not_mem_nil, or_false, not_or]
      exact ⟨notFalse, notNo, notZero⟩
    · simp only [List.mem_cons, List.not_mem_nil, or_false, not_or]
      exact ⟨notTrue, notYes, notOne⟩
  · rfl

theorem asStrings_of_wrong (wrong : ¬ Kind.texts.Takes value) : value.asStrings = .ok [] := by
  simp only [Kind.Takes, not_or, not_exists] at wrong
  unfold Value.asStrings
  split
  · exact absurd rfl (wrong.1 _)
  · exact absurd rfl (wrong.2.2.1 _)
  · exact absurd rfl (wrong.2.1 _)
  · rfl

theorem field?_of_wrong (wrong : ¬ Kind.mapping.Takes value) (name : String) : value.field? name = none := by
  unfold Value.field?
  split
  · exact absurd ⟨_, rfl⟩ wrong
  · rfl

theorem alike_of_wrong {kind : Kind} (wrong : ¬ kind.Takes value) : kind.Alike (some value) none := by
  cases kind with
  | number => exact asInt?_of_wrong wrong
  | flag => exact asBool?_of_wrong wrong
  | texts =>
    show (value.asStrings.mapError .crash : Except SettingsFault _) = .ok []
    rw [asStrings_of_wrong wrong]
    rfl
  | mapping => exact field?_of_wrong wrong

/-! ### Replaced values -/

/-- The second mapping has this value under a name, or none, and everything else as the first. -/
structure Replaces (name : String) (new : Option Value) (before after : Value) : Prop where
  mapping : ∃ entries, after = .mapping entries
  here : after.field? name = new
  elsewhere : ∀ other, other ≠ name → after.field? other = before.field? other

/-- What stands under `walk`. -/
def walkIn (value : Value) : Value := (value.field? "walk").getD .null

namespace Key

def find (key : Key) (value : Value) : Option Value :=
  if key.isUnderWalk then (walkIn value).field? key.name else value.field? key.name

/-- The second mapping has this value for a key, or none, and everything else as the first. For a key under `walk` there
is a mapping under `walk` then. -/
def Replaces (key : Key) (new : Option Value) (before after : Value) : Prop :=
  if key.isUnderWalk then
    ∃ walk, Settings.Replaces "walk" (some walk) before after ∧ Settings.Replaces key.name new (walkIn before) walk
  else Settings.Replaces key.name new before after

/-- A value for the first key is one for the second, or has one in it. -/
def Holds (key other : Key) : Prop := key = other ∨ key = walk ∧ other.isUnderWalk = true

variable {key other : Key} {new : Option Value}

theorem name_inj (level : key.isUnderWalk = other.isUnderWalk) (same : key.name = other.name) : key = other := by
  revert level same
  cases key <;> cases other <;> decide

theorem name_ne_walk (apart : key ≠ walk) (top : key.isUnderWalk = false) : key.name ≠ "walk" :=
  fun same => apart (name_inj (show key.isUnderWalk = walk.isUnderWalk from top) same)

theorem find_of_replaces (replaces : key.Replaces new before after) : key.find after = new := by
  unfold Replaces at replaces
  unfold find
  split
  next under =>
    rw [if_pos under] at replaces
    obtain ⟨walk, outer, inner⟩ := replaces
    rw [walkIn, outer.here]
    exact inner.here
  next top =>
    rw [if_neg top] at replaces
    exact replaces.here

theorem find_of_apart (replaces : key.Replaces new before after) (leaf : other ≠ walk) (apart : ¬ key.Holds other) :
    other.find after = other.find before := by
  rw [Holds, not_or, not_and] at apart
  obtain ⟨distinct, outside⟩ := apart
  unfold Replaces at replaces
  unfold find
  cases level : key.isUnderWalk with
  | true =>
    rw [if_pos level] at replaces
    obtain ⟨walk, outer, inner⟩ := replaces
    split
    next under =>
      rw [walkIn, outer.here]
      exact inner.elsewhere _ fun same => distinct (name_inj (level.trans under.symm) same.symm)
    next top => exact outer.elsewhere _ (name_ne_walk leaf (by simpa using top))
  | false =>
    rw [if_neg (by simp [level])] at replaces
    split
    next under =>
      have kept := replaces.elsewhere "walk" fun same =>
        name_ne_walk (fun isWalk => outside isWalk under) level same.symm
      rw [walkIn, walkIn, kept]
    next top =>
      exact replaces.elsewhere _ fun same =>
        distinct (name_inj (level.trans (by simpa using top : _ = false).symm) same.symm)

end Key

/-! ### Settings of alike values -/

theorem walkOfValue_eq (value : Value) : walkOfValue value = (textsIn (Key.walkPaths.find value)).bind fun paths =>
    (textsIn (Key.excludePaths.find value)).map fun others => {
      followLinks := ((Key.followLinks.find value).bind Value.asBool?).getD false
      hidden := ((Key.hidden.find value).bind Value.asBool?).getD false
      threads := (Key.threads.find value).bind Value.asInt?
      excludePaths := paths ++ others } := rfl

theorem ofValue_eq (value : Value) : ofValue value = (walkOfValue value).bind fun walk =>
    if ((Key.tableWidth.find value).bind Value.asInt?).getD defaultTableWidth ≤ 0 then .error .badTableWidth
    else (textsIn (Key.languages.find value)).map fun languages => {
      workers := (Key.workers.find value).bind Value.asInt?
      queueSize := (Key.queueSize.find value).bind Value.asInt?
      languages := languages.map Text.lower
      showSkipped := ((Key.showSkipped.find value).bind Value.asBool?).getD false
      tableWidth := ((Key.tableWidth.find value).bind Value.asInt?).getD defaultTableWidth
      walk := walk } := rfl

theorem ofValue_congr
    (alike : ∀ key : Key, key ≠ .walk → key.kind.Alike (key.find before) (key.find after)) :
    ofValue before = ofValue after := by
  have numbers : ∀ key : Key, key ≠ .walk → key.kind = .number →
      (key.find before).bind Value.asInt? = (key.find after).bind Value.asInt? := by
    intro key leaf number
    have same := alike key leaf
    rwa [number] at same
  have flags : ∀ key : Key, key ≠ .walk → key.kind = .flag →
      (key.find before).bind Value.asBool? = (key.find after).bind Value.asBool? := by
    intro key leaf flag
    have same := alike key leaf
    rwa [flag] at same
  have texts : ∀ key : Key, key ≠ .walk → key.kind = .texts →
      textsIn (key.find before) = textsIn (key.find after) := by
    intro key leaf texts
    have same := alike key leaf
    rwa [texts] at same
  rw [ofValue_eq, ofValue_eq, walkOfValue_eq, walkOfValue_eq, numbers .workers nofun rfl,
    numbers .queueSize nofun rfl, numbers .tableWidth nofun rfl, numbers .threads nofun rfl,
    flags .showSkipped nofun rfl, flags .followLinks nofun rfl, flags .hidden nofun rfl,
    texts .languages nofun rfl, texts .excludePaths nofun rfl, texts .walkPaths nofun rfl]

theorem ofValue_eq_ok {settings : Settings} (read : ofValue value = .ok settings) :
    ∃ languages paths others, textsIn (Key.languages.find value) = .ok languages ∧
      textsIn (Key.walkPaths.find value) = .ok paths ∧ textsIn (Key.excludePaths.find value) = .ok others ∧
      0 < settings.tableWidth ∧
      settings = {
        workers := (Key.workers.find value).bind Value.asInt?
        queueSize := (Key.queueSize.find value).bind Value.asInt?
        languages := languages.map Text.lower
        showSkipped := ((Key.showSkipped.find value).bind Value.asBool?).getD false
        tableWidth := ((Key.tableWidth.find value).bind Value.asInt?).getD defaultTableWidth
        walk := {
          followLinks := ((Key.followLinks.find value).bind Value.asBool?).getD false
          hidden := ((Key.hidden.find value).bind Value.asBool?).getD false
          threads := (Key.threads.find value).bind Value.asInt?
          excludePaths := paths ++ others } } := by
  rw [ofValue_eq, walkOfValue_eq] at read
  obtain ⟨walk, walks, read⟩ := exists_of_bind_ok read
  obtain ⟨paths, inner, walks⟩ := exists_of_bind_ok walks
  obtain ⟨others, outer, rfl⟩ := exists_of_map_ok walks
  split at read
  · cases read
  · rename_i proper
    obtain ⟨languages, names, rfl⟩ := exists_of_map_ok read
    exact ⟨languages, paths, others, names, inner, outer, Int.not_le.mp proper, rfl⟩

theorem same_of_alike {setting : Setting} {old new : Settings}
    (alike : ∀ key : Key, key ≠ .walk → setting ∈ key.feeds → key.kind.Alike (key.find before) (key.find after))
    (first : ofValue before = .ok old) (second : ofValue after = .ok new) : setting.Same old new := by
  obtain ⟨languages, paths, others, names, inner, outer, -, rfl⟩ := ofValue_eq_ok first
  obtain ⟨languages', paths', others', names', inner', outer', -, rfl⟩ := ofValue_eq_ok second
  cases setting with
  | workers => exact alike .workers nofun (by decide)
  | queueSize => exact alike .queueSize nofun (by decide)
  | threads => exact alike .threads nofun (by decide)
  | tableWidth =>
    exact congrArg (Option.getD · (defaultTableWidth : Int)) (alike .tableWidth nofun (by decide))
  | showSkipped => exact congrArg (Option.getD · false) (alike .showSkipped nofun (by decide))
  | followLinks => exact congrArg (Option.getD · false) (alike .followLinks nofun (by decide))
  | hidden => exact congrArg (Option.getD · false) (alike .hidden nofun (by decide))
  | languages =>
    have same := (names.symm.trans (alike .languages nofun (by decide))).trans names'
    cases same
    rfl
  | excludePaths =>
    have same := (inner.symm.trans (alike .walkPaths nofun (by decide))).trans inner'
    have alsoSame := (outer.symm.trans (alike .excludePaths nofun (by decide))).trans outer'
    cases same
    cases alsoSame
    rfl

/-! ### One key -/

variable {key : Key} {new : Option Value}

theorem feeds_of_holds {other : Key} {setting : Setting} (holds : key.Holds other) (fed : setting ∈ other.feeds) :
    setting ∈ key.feeds := by
  obtain rfl | ⟨rfl, under⟩ := holds
  · exact fed
  · revert under fed
    cases other <;> cases setting <;> decide

/-- Another value for a key changes no settings but those that the key is for. -/
theorem same_of_replaces {setting : Setting} {old found : Settings} (replaces : key.Replaces new before after)
    (unfed : setting ∉ key.feeds) (first : ofValue before = .ok old) (second : ofValue after = .ok found) :
    setting.Same old found := by
  refine same_of_alike (fun other leaf fed => ?_) first second
  have apart : ¬ key.Holds other := fun holds => unfed (feeds_of_holds holds fed)
  rw [Key.find_of_apart replaces leaf apart]
  exact .refl _ _

/-- A value that does not suit its key is as good as none. -/
theorem ofValue_of_wrong {wrong : Value} {removed : Value} (unfit : ¬ key.kind.Takes wrong)
    (replaces : key.Replaces (some wrong) before after) (removes : key.Replaces none before removed) :
    ofValue after = ofValue removed := by
  refine ofValue_congr fun other leaf => ?_
  by_cases holds : key.Holds other
  · obtain rfl | ⟨rfl, under⟩ := holds
    · rw [Key.find_of_replaces replaces, Key.find_of_replaces removes]
      exact alike_of_wrong unfit
    · -- without a mapping under `walk` there is no value for the keys there
      have whole : Key.walk.find after = some wrong := Key.find_of_replaces replaces
      have gone : Key.walk.find removed = none := Key.find_of_replaces removes
      have nothing : other.find after = none := by
        rw [Key.find, if_pos under, walkIn]
        exact (congrArg (fun walk => (Option.getD walk Value.null).field? other.name) whole).trans
          (field?_of_wrong unfit other.name)
      have alsoNothing : other.find removed = none := by
        rw [Key.find, if_pos under, walkIn]
        exact congrArg (fun walk => (Option.getD walk Value.null).field? other.name) gone
      rw [nothing, alsoNothing]
      exact .refl _ _
  · rw [Key.find_of_apart replaces leaf holds, Key.find_of_apart removes leaf holds]
    exact .refl _ _

/-! ### Texts of lists -/

/-- The text of an item of a list, if it has one. -/
def shown : Value → Option String
  | .scalar (.bool truth) => some (if truth then "True" else "False")
  | .scalar (.int n) => some (toString n)
  | .scalar (.float number) => some number.toText
  | .scalar (.string text) => some text
  | _ => none

/-- The texts of a value that is taken for a list. -/
def shownIn : Option Value → List String
  | some (.scalar (.string text)) => [text]
  | some (.scalar (.binary bytes)) => bytes.map fun byte => toString byte.toNat
  | some (.sequence items) => items.filterMap shown
  | _ => []

theorem shown_of_listed? {text : Option String} (listed : value.listed? = .ok text) : text = shown value := by
  cases value with
  | scalar scalar =>
    cases scalar with
    | int n =>
      rw [Value.listed?, Scalar.listed?] at listed
      obtain ⟨numeral, written, rfl⟩ := exists_of_map_ok listed
      rw [(Number.numeral_eq_ok_iff.mp written).1, shown]
    | null | bool | float | string | binary | time =>
      cases listed
      rfl
  | sequence | mapping | set | pair | deep =>
    cases listed
    rfl

theorem filterMap_shown_of_mapM {items : List Value} {texts : List (Option String)}
    (listed : items.mapM Value.listed? = .ok texts) : texts.filterMap id = items.filterMap shown := by
  induction items generalizing texts with
  | nil =>
    cases listed
    rfl
  | cons item items ih =>
    rw [List.mapM_cons] at listed
    obtain ⟨text, first, listed⟩ := exists_of_bind_ok listed
    obtain ⟨rest, others, listed⟩ := exists_of_bind_ok listed
    cases listed
    rw [List.filterMap_cons, List.filterMap_cons, ih others, shown_of_listed? first]
    rfl

theorem shownIn_of_textsIn {given : Option Value} {texts : List String} (read : textsIn given = .ok texts) :
    texts = shownIn given := by
  cases given with
  | none =>
    cases read
    rfl
  | some found =>
    cases found with
    | sequence items =>
      rw [textsIn, Value.asStrings] at read
      cases listed : items.mapM Value.listed? with
      | error crash =>
        rw [listed] at read
        cases read
      | ok shownTexts =>
        rw [listed] at read
        cases read
        exact filterMap_shown_of_mapM listed
    | scalar scalar =>
      cases scalar <;> cases read <;> rfl
    | mapping | set | pair | deep =>
      cases read
      rfl

theorem excludePaths_of_ofValue {settings : Settings} (read : ofValue value = .ok settings) :
    settings.walk.excludePaths = shownIn (Key.walkPaths.find value) ++ shownIn (Key.excludePaths.find value) := by
  obtain ⟨languages, paths, others, -, inner, outer, -, rfl⟩ := ofValue_eq_ok read
  rw [← shownIn_of_textsIn inner, ← shownIn_of_textsIn outer]

/-! ### Settings files -/

/-- The text is read as a mapping. Without anything in it, it is read as an empty one. -/
inductive LoadsAs (read : Reader) (text : List Char) : Value → Prop where
  | blank (blank : ∀ c ∈ text, Text.isSpace c = true) : LoadsAs read text (.mapping [])
  | empty {value : Value} (made : read text = .ok value) (empty : value.isEmpty = true) :
    LoadsAs read text (.mapping [])
  | mapping {entries : List (Value × Value)} (dark : ∃ c ∈ text, Text.isSpace c = false)
    (made : read text = .ok (.mapping entries)) : LoadsAs read text (.mapping entries)

theorem ofText_of_loadsAs {read : Reader} {text : List Char} (loads : LoadsAs read text value) (name : String) :
    ofText read name text = ofValue value := by
  have nothing : ofValue (.mapping []) = .ok {} := rfl
  unfold ofText
  cases loads with
  | blank blank =>
    rw [if_pos (List.isEmpty_iff.mpr (Text.strip_eq_nil_iff.mpr blank)), nothing]
  | @empty value made empty =>
    split
    · exact nothing.symm
    · rw [made, nothing]
      cases value with
      | mapping entries =>
        obtain rfl : entries = [] := by simpa [Value.isEmpty] using empty
        exact nothing
      | scalar | sequence | set | pair | deep => exact if_pos empty
  | mapping dark made =>
    obtain ⟨c, member, dark⟩ := dark
    rw [if_neg, made]
    rw [List.isEmpty_iff, Text.strip_eq_nil_iff]
    intro blank
    rw [blank c member] at dark
    cases dark

end Settings

namespace Configuration

open Files

/-- There is a settings file at the path, for the directory `root`, and its text is read as the mapping. -/
def Loads (read : Reader) (disk : Disk) (path root : Path) (value : Value) : Prop :=
  ∃ file text, fileAt disk path = .ok file ∧ realPath disk file.parent = .ok root ∧ disk.exists? file = .ok true ∧
    disk.readText file = .ok text ∧ Settings.LoadsAs read text value

variable {read : Reader} {disk : Disk} {path root : Path} {found : Configuration}

theorem Loads.load_eq (loads : Loads read disk path root value) :
    load read disk path = (Settings.ofValue value).map (⟨root, ·⟩) := by
  obtain ⟨file, text, located, rooted, isThere, shown, loads⟩ := loads
  rw [load, located]
  simp only [bind, Except.bind, rooted, isThere, shown, Except.mapError, if_true]
  rw [Settings.ofText_of_loadsAs loads]
  cases Settings.ofValue value <;> rfl

theorem Loads.of_load (loads : Loads read disk path root value) (loaded : load read disk path = .ok found) :
    found.root = root ∧ Settings.ofValue value = .ok found.settings := by
  rw [loads.load_eq] at loaded
  obtain ⟨settings, made, rfl⟩ := exists_of_map_ok loaded
  exact ⟨rfl, made⟩

end Configuration

end SyntaxTally
