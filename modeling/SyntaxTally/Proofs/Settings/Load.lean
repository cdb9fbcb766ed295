import SyntaxTally.CommandLine.Tools
import SyntaxTally.Proofs.Files.RealPath
import SyntaxTally.Proofs.Settings.Content

/-!
# Loading settings

What a settings file holds decides how loading ends, wherever the file lies and however the path leads to it: with
settings, with a fault of the file that is told, or with the end of the program. This is so for whatever reads texts
into values (`load_decided_by_content`).
-/
namespace SyntaxTally

open Files

namespace Settings

/-- The bytes are settings: the encoding of a text that holds them. -/
def Accepted (read : Yaml.Reader) (bytes : List UInt8) : Prop :=
  ∃ text, bytes = Text.encodeUtf8 text ∧ Holds read text

/-- The bytes are a text that ends the program. -/
def Crashing (read : Yaml.Reader) (bytes : List UInt8) : Prop :=
  ∃ text, bytes = Text.encodeUtf8 text ∧ Breaks read text

end Settings

variable {read : Yaml.Reader} {disk : Disk} {path file root : Path} {place goal : Place} {item : Item}
  {bytes : List UInt8} {ups : Nat}

namespace Files.Disk

theorem directory_of_lookup (nonempty : path.parts ≠ []) (found : disk.lookup path = .ok (place, item)) :
    disk.item? (if path.isAbsolute then [] else disk.here) = some .directory := by
  have led := follow_of_placeOf (lookup_eq_ok found).1
  obtain ⟨name, rest, split⟩ := List.exists_cons_of_ne_nil nonempty
  rw [split, mostLinks, follow, advance] at led
  split at led
  · cases led
  · assumption
  · cases led

/-- What can be read is there, and no directory. -/
theorem lookup_of_readBytes (held : disk.readBytes file = .ok bytes) :
    ∃ place item, disk.lookup file = .ok (place, item) ∧ item ≠ .directory ∧ disk.bytesAt place = .ok bytes := by
  unfold readBytes at held
  cases led : disk.placeOf true file with
  | error fault =>
    rw [led] at held
    cases held
  | ok place =>
    rw [led] at held
    have read : disk.bytesAt place = .ok bytes := held
    cases found : disk.item? place with
    | none =>
      rw [bytesAt, found] at read
      cases read
    | some item =>
      refine ⟨place, item, ?_, ?_, read⟩
      · simp [lookup, led, bind, Except.bind, present, found]
      · rintro rfl
        rw [bytesAt, found] at read
        cases read

theorem asks_of_lookup (found : disk.lookup file = .ok (place, item)) (question : Item → Bool) :
    disk.asks file question = .ok (question item) := by
  rw [asks, found]

theorem readBytes_of_lookup (found : disk.lookup file = .ok (place, item)) :
    disk.readBytes file = disk.bytesAt place := by
  rw [readBytes, (lookup_eq_ok found).1]
  rfl

end Files.Disk

namespace Configuration

/-! ### Where settings are kept -/

/-- The file that the settings at a path are kept in: the one in a directory, or the path itself. -/
def KeptIn (disk : Disk) (path file : Path) : Prop :=
  ∃ expanded, expandHome disk path = .ok expanded ∧
    (disk.isDirectory expanded = .ok true ∧ file = expanded.child Settings.fileName ∨
      expanded.extension ∈ [".yml", ".yaml"] ∧ file = expanded)

theorem KeptIn.parts_ne_nil (kept : KeptIn disk path file) : file.parts ≠ [] := by
  obtain ⟨expanded, -, ⟨-, rfl⟩ | ⟨isYaml, rfl⟩⟩ := kept
  · simp [Path.child]
  · intro none
    have empty : file.extension = "" := by
      rw [Path.extension, Path.name, none]
      decide
    rw [empty] at isYaml
    exact absurd isYaml (by decide)

theorem KeptIn.fileAt_eq (kept : KeptIn disk path file) (found : disk.lookup file = .ok (place, item))
    (notDir : item ≠ .directory) : fileAt disk path = realPath disk file := by
  obtain ⟨expanded, expands, ⟨isDir, rfl⟩ | ⟨isYaml, rfl⟩⟩ := kept
  · rw [fileAt, expands]
    simp [bind, Except.bind, isDir, Except.mapError]
  · have plain : disk.isDirectory file = .ok false := by
      rw [Disk.isDirectory, Disk.asks_of_lookup found]
      simp [notDir]
    rw [fileAt, expands]
    simp [bind, Except.bind, plain, Except.mapError, isYaml]

theorem realPath_of_lookup (roomy : disk.Roomy ups) (own : path.parts.count ".." ≤ ups)
    (begins : disk.item? (if path.isAbsolute then [] else disk.here) = some .directory)
    (found : disk.lookup path = .ok (place, item)) : realPath disk path = .ok ⟨1, place⟩ := by
  rw [realPath, (Disk.realPath_of_lookup roomy own begins found).1]

/-- The settings are read from the place of their file, for the directory that it lies in. -/
theorem KeptIn.resolved (kept : KeptIn disk path file) (roomy : disk.Roomy ups) (own : file.parts.count ".." ≤ ups)
    (found : disk.lookup file = .ok (place, item)) (notDir : item ≠ .directory) :
    fileAt disk path = .ok ⟨1, place⟩ ∧ realPath disk (Path.parent ⟨1, place⟩) = .ok ⟨1, place.dropLast⟩ ∧
      disk.lookup ⟨1, place⟩ = .ok (place, item) := by
  have begins := Disk.directory_of_lookup kept.parts_ne_nil found
  have real := (Disk.realPath_of_lookup roomy own begins found).2
  refine ⟨?_, ?_, real⟩
  · rw [kept.fileAt_eq found notDir, realPath_of_lookup roomy own begins found]
  · have held := (Disk.lookup_eq_ok found).2
    have above : disk.item? place.dropLast = some .directory := by
      rcases place.eq_nil_or_concat with rfl | ⟨above, last, rfl⟩
      · rfl
      · rw [List.concat_eq_append] at held ⊢
        rw [List.dropLast_concat]
        exact Disk.directory_above held
    have proper : place.dropLast.count ".." = 0 :=
      List.count_eq_zero.mpr fun up => (Disk.named_of_item? above _ up).2.2.1 rfl
    have upper := Disk.lookup_of_place roomy above nofun
    exact realPath_of_lookup roomy (by rw [Path.parent, proper]; exact Nat.zero_le _) rfl upper

/-! ### What is returned -/

theorem load_of_text {text : List Char} (located : fileAt disk path = .ok file)
    (rooted : realPath disk file.parent = .ok root) (found : disk.lookup file = .ok (place, item))
    (held : disk.bytesAt place = .ok (Text.encodeUtf8 text)) :
    load read disk path = (Settings.ofText read file.name (Text.newlines text)).map (⟨root, ·⟩) := by
  have shown : disk.readText file = .ok (Text.newlines text) := by
    rw [Disk.readText, Disk.readBytes_of_lookup found, held, Disk.textOf, Text.decodeUtf8_eq_ok_iff.mpr rfl]
  rw [load, located]
  simp only [bind, Except.bind, rooted, Disk.exists?, Disk.asks_of_lookup found, shown, Except.mapError]
  cases Settings.ofText read file.name (Text.newlines text) <;> rfl

theorem load_of_undecodable (read : Yaml.Reader) (located : fileAt disk path = .ok file)
    (rooted : realPath disk file.parent = .ok root) (found : disk.lookup file = .ok (place, item))
    (held : disk.bytesAt place = .ok bytes) (garbled : ∀ text, bytes ≠ Text.encodeUtf8 text) :
    ∃ fault, load read disk path = .error (.unreadable file.name (.encoding fault)) := by
  cases decoded : Text.decodeUtf8 bytes with
  | ok text => exact absurd (Text.decodeUtf8_eq_ok_iff.mp decoded) (garbled text)
  | error fault =>
    have garbage : disk.readText file = .error (.encoding fault) := by
      rw [Disk.readText, Disk.readBytes_of_lookup found, held, Disk.textOf, decoded]
    refine ⟨fault, ?_⟩
    rw [load, located]
    simp only [bind, Except.bind, rooted, Disk.exists?, Disk.asks_of_lookup found, garbage, Except.mapError, if_true]

/-- What is in the file decides: its settings are returned, or a fault is told, or the program ends. -/
theorem load_cases (read : Yaml.Reader) (located : fileAt disk path = .ok file)
    (rooted : realPath disk file.parent = .ok root) (found : disk.lookup file = .ok (place, item))
    (held : disk.bytesAt place = .ok bytes) :
    Settings.Accepted read bytes ∧ ¬ Settings.Crashing read bytes ∧
      (∃ settings, load read disk path = .ok ⟨root, settings⟩) ∨
    ¬ Settings.Accepted read bytes ∧ Settings.Crashing read bytes ∧
      (∃ crash, load read disk path = .error (.crash crash)) ∨
    ¬ Settings.Accepted read bytes ∧ ¬ Settings.Crashing read bytes ∧
      ∃ fault, load read disk path = .error fault ∧ fault.isTold = true := by
  by_cases decodes : ∃ text, bytes = Text.encodeUtf8 text
  · obtain ⟨text, rfl⟩ := decodes
    have accepted : Settings.Accepted read (Text.encodeUtf8 text) ↔ Settings.Holds read text := by
      simp [Settings.Accepted, Text.encodeUtf8_inj]
    have crashing : Settings.Crashing read (Text.encodeUtf8 text) ↔ Settings.Breaks read text := by
      simp [Settings.Crashing, Text.encodeUtf8_inj]
    rw [accepted, crashing, load_of_text located rooted found held]
    rcases Settings.ofText_cases read file.name text with ⟨holds, whole, settings, made⟩ | ⟨bad, breaks, crash, made⟩ |
      ⟨bad, whole, fault, made, told⟩
    · exact .inl ⟨holds, whole, settings, by rw [made]; rfl⟩
    · exact .inr (.inl ⟨bad, breaks, crash, by rw [made]; rfl⟩)
    · exact .inr (.inr ⟨bad, whole, fault, by rw [made]; rfl, told⟩)
  · rw [not_exists] at decodes
    obtain ⟨fault, loaded⟩ := load_of_undecodable read located rooted found held decodes
    refine .inr (.inr ⟨?_, ?_, _, loaded, rfl⟩)
    · rintro ⟨text, same, -⟩
      exact decodes text same
    · rintro ⟨text, same, -⟩
      exact decodes text same

/-- Settings are returned exactly if the bytes of their file are `Accepted`. Of all other bytes the `Crashing` ones end
the program, and the rest is told as a fault of the file. -/
theorem load_decided_by_content (read : Yaml.Reader) (roomy : disk.Roomy ups) (kept : KeptIn disk path file)
    (own : file.parts.count ".." ≤ ups) (held : disk.readBytes file = .ok bytes) :
    ((∃ found, load read disk path = .ok found) ↔ Settings.Accepted read bytes) ∧
    ((∃ fault, load read disk path = .error fault ∧ fault.isTold = true) ↔
      ¬ Settings.Accepted read bytes ∧ ¬ Settings.Crashing read bytes) ∧
    ((∃ fault, load read disk path = .error fault ∧ fault.isTold = false) ↔ Settings.Crashing read bytes) := by
  obtain ⟨place, item, found, notDir, holding⟩ := Disk.lookup_of_readBytes held
  obtain ⟨located, rooted, real⟩ := kept.resolved roomy own found notDir
  rcases load_cases read located rooted real holding with ⟨accepted, whole, settings, loaded⟩ |
    ⟨bad, breaks, crash, loaded⟩ | ⟨bad, whole, fault, loaded, told⟩
  · simp [loaded, accepted, whole]
  · simp [loaded, bad, breaks, SettingsFault.isTold]
  · simp [loaded, bad, whole, told]

/-! ### A disk with a link -/

def linkedItems (text : List Char) : List (Place × Item) :=
  [(["d"], .directory), (["d", Settings.fileName], .file (Text.encodeUtf8 text)), (["l"], .link "d")]

theorem mem_linkedItems {text : List Char} {entry : Place × Item} : entry ∈ linkedItems text ↔
    entry = (["d"], .directory) ∨ entry = (["d", Settings.fileName], .file (Text.encodeUtf8 text)) ∨
      entry = (["l"], .link "d") := by
  simp [linkedItems]

theorem isTree_linkedItems (text : List Char) : IsTree (linkedItems text) where
  distinct := by simp [linkedItems]
  named := by
    intro entry listed
    rcases mem_linkedItems.mp listed with rfl | rfl | rfl <;> dsimp only <;> decide
  rooted := by
    intro entry listed
    rcases mem_linkedItems.mp listed with rfl | rfl | rfl <;> rfl

/-- A disk with a link to a directory, in which there is a settings file with this text. -/
def linkedTo (text : List Char) : Disk where
  items := linkedItems text
  tree := isTree_linkedItems text
  here := []
  home := "/"
  locked := []
  sealed := []

theorem roomy_linkedTo (text : List Char) : (linkedTo text).Roomy 0 where
  targets := by
    intro entry listed target isLink
    rcases mem_linkedItems.mp listed with rfl | rfl | rfl <;> cases isLink
    decide
  fits := by
    intro entry listed
    rcases mem_linkedItems.mp listed with rfl | rfl | rfl <;> dsimp only <;> decide
  allOpen := fun _ _ => List.not_mem_nil

-- one link is followed, so only the last two of the allowed links are needed
theorem placeOf_linkedTo (text : List Char) {parts : List String} (noNull : Path.hasNull ⟨0, parts⟩ = false)
    (short : (Path.toString ⟨0, parts⟩).utf8ByteSize ≤ Disk.longestPath) :
    (linkedTo text).placeOf true ⟨0, parts⟩ = (linkedTo text).follow true (38 + 1 + 1) [] parts := by
  rw [Disk.placeOf, noNull, if_neg Bool.false_ne_true, if_neg (Nat.not_lt.mpr short), Disk.isBarredHere]
  simp [linkedTo, Path.isAbsolute, Disk.mostLinks]

section

variable (text : List Char)

theorem follow_linkedTo (rest : List String) : (linkedTo text).follow true (38 + 1 + 1) [] ("l" :: rest) =
    (linkedTo text).follow true (38 + 1) [] ("d" :: rest) := by
  have target : Disk.targetParts "d" = ["d"] := by decide +kernel
  have begins : Disk.startOf [] "d" = [] := by decide +kernel
  have fits : ¬ longestName < "l".utf8ByteSize := by decide
  simp [Disk.follow, Disk.advance, Disk.item?, itemIn, linkedTo, linkedItems, target, begins, fits]

theorem isDirectory_linkedTo : (linkedTo text).isDirectory ⟨0, ["l"]⟩ = .ok true := by
  have fits : ¬ longestName < "d".utf8ByteSize := by decide
  rw [Disk.isDirectory, Disk.asks, Disk.lookup, placeOf_linkedTo text (by decide) (by decide), follow_linkedTo]
  simp [Disk.follow, Disk.advance, Disk.present, Disk.item?, itemIn, linkedTo, linkedItems, fits, bind, Except.bind]

theorem lookup_linkedTo : (linkedTo text).lookup ⟨0, ["l", Settings.fileName]⟩ =
    .ok (["d", Settings.fileName], .file (Text.encodeUtf8 text)) := by
  have fits : ¬ longestName < "d".utf8ByteSize ∧ ¬ longestName < Settings.fileName.utf8ByteSize := by decide
  have plain : Settings.fileName ≠ "" ∧ Settings.fileName ≠ "." ∧ Settings.fileName ≠ ".." := by decide
  rw [Disk.lookup, placeOf_linkedTo text (by decide) (by decide), follow_linkedTo]
  simp [Disk.follow, Disk.advance, Disk.present, Disk.item?, itemIn, linkedTo, linkedItems, fits, plain, bind,
    Except.bind]

theorem keptIn_linkedTo : KeptIn (linkedTo text) ⟨0, ["l"]⟩ ⟨0, ["l", Settings.fileName]⟩ := by
  have unmarked : ("l".startsWith "~") = false := by decide +kernel
  exact ⟨⟨0, ["l"]⟩, by simp [expandHome, unmarked], .inl ⟨isDirectory_linkedTo text, rfl⟩⟩

end

theorem readBytes_linkedTo (text : List Char) :
    (linkedTo text).readBytes ⟨0, ["l", Settings.fileName]⟩ = .ok (Text.encodeUtf8 text) := by
  rw [Disk.readBytes_of_lookup (lookup_linkedTo text)]
  rfl

theorem load_linkedTo (read : Yaml.Reader) (text : List Char) : load read (linkedTo text) ⟨0, ["l"]⟩ =
    (Settings.ofText read Settings.fileName (Text.newlines text)).map (⟨⟨1, ["d"]⟩, ·⟩) := by
  obtain ⟨located, rooted, real⟩ := (keptIn_linkedTo text).resolved (roomy_linkedTo text) (by decide)
    (lookup_linkedTo text) nofun
  exact load_of_text located rooted real rfl

theorem load_decided_by_content_linkedTo :
    (linkedTo ['0']).Roomy 0 ∧
    KeptIn (linkedTo ['0']) ⟨0, ["l"]⟩ ⟨0, ["l", Settings.fileName]⟩ ∧
    (linkedTo ['0']).readBytes ⟨0, ["l", Settings.fileName]⟩ = .ok (Text.encodeUtf8 ['0']) ∧
    ∀ read : Yaml.Reader,
      ((∃ found, load read (linkedTo ['0']) ⟨0, ["l"]⟩ = .ok found) ↔
        Settings.Accepted read (Text.encodeUtf8 ['0'])) ∧
      ((∃ fault, load read (linkedTo ['0']) ⟨0, ["l"]⟩ = .error fault ∧ fault.isTold = true) ↔
        ¬ Settings.Accepted read (Text.encodeUtf8 ['0']) ∧ ¬ Settings.Crashing read (Text.encodeUtf8 ['0'])) ∧
      ((∃ fault, load read (linkedTo ['0']) ⟨0, ["l"]⟩ = .error fault ∧ fault.isTold = false) ↔
        Settings.Crashing read (Text.encodeUtf8 ['0'])) :=
  ⟨roomy_linkedTo _, keptIn_linkedTo _, readBytes_linkedTo _, fun read =>
    load_decided_by_content read (roomy_linkedTo _) (keptIn_linkedTo _) (by decide) (readBytes_linkedTo _)⟩

/-- Why a number without digits is no number. -/
def digitless : Crash := .told "ValueError" "invalid literal for int() with base 16: ''"

-- values have no decidable equality, so what was read is looked at
def isInt (n : Int) : Except Yaml.Fault Yaml.Value → Bool
  | .ok (.scalar (.int value)) => value = n
  | _ => false

def failsBy (fault : Yaml.Fault) : Except Yaml.Fault Yaml.Value → Bool
  | .error reason => reason = fault
  | .ok _ => false

theorem readValue_zero : CommandLine.ownTools.readValue ['0'] = .ok (.scalar (.int 0)) := by
  have made : isInt 0 (CommandLine.ownTools.readValue ['0']) = true := by decide +kernel
  unfold isInt at made
  split at made
  · rename_i whole
    rw [whole, of_decide_eq_true made]
  · cases made

theorem readValue_digitless : CommandLine.ownTools.readValue ['0', 'x', '_'] = .error (.impossible digitless) := by
  have fails : failsBy (.impossible digitless) (CommandLine.ownTools.readValue ['0', 'x', '_']) = true := by
    decide +kernel
  unfold failsBy at fails
  split at fails
  · rename_i whole
    rw [whole, of_decide_eq_true fails]
  · cases fails

/-- Zero is neither nothing nor a mapping, but is taken for no settings. A number without digits ends the program. This
is so with every reader that makes the one into zero and fails to make the other. -/
theorem zero_accepted_and_digitless_crashes :
    (∀ read : Yaml.Reader, read ['0'] = .ok (.scalar (.int 0)) →
      load read (linkedTo ['0']) ⟨0, ["l"]⟩ = .ok ⟨⟨1, ["d"]⟩, {}⟩) ∧
    CommandLine.ownTools.readValue ['0'] = .ok (.scalar (.int 0)) ∧
    (∀ (read : Yaml.Reader) (crash : Crash), read ['0', 'x', '_'] = .error (.impossible crash) →
      load read (linkedTo ['0', 'x', '_']) ⟨0, ["l"]⟩ = .error (.crash crash)) ∧
    CommandLine.ownTools.readValue ['0', 'x', '_'] = .error (.impossible digitless) := by
  refine ⟨fun read zero => ?_, readValue_zero, fun read crash fails => ?_, readValue_digitless⟩
  · rw [load_linkedTo]
    show Except.map _ (Settings.ofText read Settings.fileName ['0']) = _
    rw [Settings.ofText, zero]
    rfl
  · rw [load_linkedTo]
    show Except.map _ (Settings.ofText read Settings.fileName ['0', 'x', '_']) = _
    rw [Settings.ofText, fails]
    rfl

end Configuration

end SyntaxTally
