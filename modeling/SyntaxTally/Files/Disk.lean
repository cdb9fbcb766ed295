import SyntaxTally.Files.Fault
import SyntaxTally.Files.Items
import SyntaxTally.Files.Path
import SyntaxTally.Text.Blank

/-!
# The disk

The items of a file system and where the program stands in it. A path is followed from the working directory to
its real place, through at most forty links.
-/
namespace SyntaxTally.Files

structure Disk where
  items : Items
  /-- The working directory. -/
  here : Place
  /-- The home directory of the user. -/
  home : String
  /-- The directories that may not be listed, as the listing call names them. -/
  locked : List String
  /-- The directories that may not be searched and the files that may not be opened. -/
  sealed : List Place
  tree : IsTree items

namespace Disk

def item? (disk : Disk) : Place → Option Item := itemIn disk.items

def isDirectoryAt (disk : Disk) (place : Place) : Bool := disk.item? place = some .directory

/-- Puts an item into a directory, or in place of what is none. Nothing is put anywhere else. -/
def put (disk : Disk) (place : Place) (item : Item) : Disk :=
  if holds : Holds disk.items place then
    { disk with items := putItem disk.items place item, tree := disk.tree.putItem holds item }
  else disk

/-! ### Following paths -/

/-- The components of a link's target, as they are written. -/
def targetParts (target : String) : List String :=
  (Ignore.components target.toList).map String.ofList

def startOf (place : Place) (target : String) : Place := if target.startsWith "/" then [] else place

/-- Goes through the components from a directory. `onLink` goes on at a link: it gets the place where
the link's target starts and all that is still to be gone through. A link in the last place is
followed only on demand. The place that is reached need not hold anything, if only its directory does. -/
def advance (disk : Disk) (followLast : Bool) (onLink : Place → List String → Except Fault Place)
    (place : Place) : List String → Except Fault Place
  | [] => .ok place
  | name :: rest =>
    match disk.item? place with
    | none => .error .missing
    | some .directory =>
      if name = "" then advance disk followLast onLink place rest
      else if disk.sealed.contains place then .error .denied
      else if name = "." then advance disk followLast onLink place rest
      else if name = ".." then advance disk followLast onLink place.dropLast rest
      else if longestName < name.utf8ByteSize then .error .nameTooLong
      else
        match disk.item? (place ++ [name]) with
        | some (.link target) =>
          if rest.isEmpty && !followLast then .ok (place ++ [name])
          else onLink (startOf place target) (targetParts target ++ rest)
        | _ => advance disk followLast onLink (place ++ [name]) rest
    | some _ => .error .notDirectory

/-- The place that the components lead to, with so many links on the way at most. -/
def follow (disk : Disk) (followLast : Bool) : Nat → Place → List String → Except Fault Place
  | 0 => disk.advance followLast fun _ _ => .error .linkLoop
  | links + 1 => disk.advance followLast (disk.follow followLast links)

def mostLinks : Nat := 40

def longestPath : Nat := 4095

/-- The path is the working directory itself, which is named by a dot and so must be searched. -/
def isBarredHere (disk : Disk) (path : Path) : Bool := path = ⟨0, []⟩ && disk.sealed.contains disk.here

/-- The real place of a path, whether something lies there or not. -/
def placeOf (disk : Disk) (followLast : Bool) (path : Path) : Except Fault Place :=
  if path.hasNull then .error .nullInPath
  else if longestPath < path.toString.utf8ByteSize then .error .nameTooLong
  else if disk.isBarredHere path then .error .denied
  else disk.follow followLast mostLinks (if path.isAbsolute then [] else disk.here) path.parts

/-- What lies at the place, which must be something. -/
def present (disk : Disk) (place : Place) : Except Fault (Place × Item) :=
  match disk.item? place with
  | none => .error .missing
  | some item => .ok (place, item)

/-- What a path names, with its real place. -/
def lookup (disk : Disk) (path : Path) : Except Fault (Place × Item) := do
  disk.present (← disk.placeOf true path)

/-- A question about a path that has the answer no if the path names nothing. -/
def asks (disk : Disk) (path : Path) (question : Item → Bool) : Except Fault Bool :=
  match disk.lookup path with
  | .ok (_, item) => .ok (question item)
  | .error fault => if fault.isAbsence then .ok false else .error fault

def exists? (disk : Disk) (path : Path) : Except Fault Bool := disk.asks path fun _ => true

def isDirectory (disk : Disk) (path : Path) : Except Fault Bool := disk.asks path (· = .directory)

def isFile (disk : Disk) (path : Path) : Except Fault Bool :=
  disk.asks path fun
    | .file _ => true
    | _ => false

/-! ### Reading -/

/-- The bytes of what lies at a place. -/
def bytesAt (disk : Disk) (place : Place) : Except Fault (List UInt8) :=
  match disk.item? place with
  | none => .error .missing
  | some .directory => .error .isDirectory
  | some (.file bytes) => if disk.sealed.contains place then .error .denied else .ok bytes
  | some (.link _) => .error .linkLoop
  | some .socket => .error .noDevice

def readBytes (disk : Disk) (path : Path) : Except Fault (List UInt8) := do
  disk.bytesAt (← disk.placeOf true path)

/-- Bytes as text, with the line ends of other systems taken as line feeds. -/
def textOf (bytes : Except Fault (List UInt8)) (path : String) : Except ReadFault (List Char) :=
  match bytes with
  | .error fault => .error (.system fault path)
  | .ok bytes =>
    match Text.decodeUtf8 bytes with
    | .error fault => .error (.encoding fault)
    | .ok text => .ok (Text.newlines text)

def readText (disk : Disk) (path : Path) : Except ReadFault (List Char) :=
  textOf (disk.readBytes path) path.toString

/-- Puts a name among others that are in increasing order. -/
def insertName (name : String) : List String → List String
  | [] => [name]
  | other :: rest => if name ≤ other then name :: other :: rest else other :: insertName name rest

/-- The names in a directory, in increasing order. -/
def namesIn (disk : Disk) (place : Place) : List String :=
  (disk.items.filterMap fun (entry, _) =>
    match entry.getLast? with
    | some name => if entry.dropLast = place then some name else none
    | none => none).foldr insertName []

/-- Why the directory that a path names cannot be listed, if it cannot. -/
def barrier? (disk : Disk) (path : Path) : Option Fault :=
  if disk.locked.contains path.toString then some .denied
  else
    match disk.placeOf true path with
    | .error fault => some fault
    | .ok _ => none

/-! ### Building -/

/-- Makes the directories on the way to a place, and gives the place of the last one. -/
def makeDirectories (disk : Disk) (place : Place) : List String → Disk × Place
  | [] => (disk, place)
  | name :: rest =>
    let next := ((disk.follow true mostLinks place [name]).toOption).getD (place ++ [name])
    let disk := if (disk.item? next).isNone then disk.put next .directory else disk
    disk.makeDirectories next rest

/-- Makes an item under the working directory, with the directories it lies in. A file is written
through a link that stands in its place. -/
def make (disk : Disk) (path : Path) (item : Item) : Disk :=
  let (disk, place) := disk.makeDirectories (if path.isAbsolute then [] else disk.here) path.parent.parts
  let own := place ++ [path.name]
  match item with
  | .directory => (disk.makeDirectories place [path.name]).1
  | .file _ => disk.put (((disk.follow true mostLinks place [path.name]).toOption).getD own) item
  | _ => disk.put own item

/-! ### Real paths -/

/-- One step to the parent on a path that is already free of links. Above a relative path stands `..`. -/
def stepUp (path : Path) : Path :=
  match path.parts.getLast? with
  | none => if path.isAbsolute then path else path.child ".."
  | some ".." => path.child ".."
  | some _ => path.parent

/-- Goes through the components, replacing links by what they lead to. A component that cannot be looked
at stays as it is. When a link leads to itself the rest is left unchanged and the second value is false. -/
def unlink (disk : Disk) (pending : List Path)
    (onLink : List Path → Path → Path → Except Fault (Path × Bool)) (path : Path) :
    List String → Except Fault (Path × Bool)
  | [] => .ok (path, true)
  | name :: rest =>
    if name = "" || name = "." then unlink disk pending onLink path rest
    else if name = ".." then unlink disk pending onLink (stepUp path) rest
    else
      let next := path.child name
      match disk.placeOf false next with
      | .error .nullInPath => .error .nullInPath
      | .error _ => unlink disk pending onLink next rest
      | .ok place =>
        match disk.item? place with
        | some (.link target) =>
          if pending.contains next then .ok (next.join (Path.ofString ("/".intercalate rest)), false)
          else
            match onLink (next :: pending) path (Path.ofString target) with
            | .error fault => .error fault
            | .ok (path, true) => unlink disk pending onLink path rest
            | .ok (path, false) => .ok (path.join (Path.ofString ("/".intercalate rest)), false)
        | _ => unlink disk pending onLink next rest

/-- The path without links. The depth bounds how many links are open at a time. -/
def unlinked (disk : Disk) : Nat → List Path → Path → Path → Except Fault (Path × Bool)
  | 0, _, path, more => .ok (path.join more, false)
  | depth + 1, pending, path, more =>
    disk.unlink pending (disk.unlinked depth) (if more.isAbsolute then ⟨1, []⟩ else path) more.parts

/-- An absolute path without `..`, made by dropping the component before each. -/
def normalized (parts : List String) : List String :=
  parts.foldl (fun done part => if part = ".." then done.dropLast else done ++ [part]) []

end Disk

/-- Why a path has no real path. -/
inductive RealFault where
  | system (fault : Fault)
  | loop (path : Path)

namespace Disk

/-- The absolute path without links; parts that do not exist are kept as they are. -/
def realPath (disk : Disk) (path : Path) : Except RealFault Path :=
  match disk.unlinked (disk.items.length + 2) [] ⟨0, []⟩ path with
  | .error fault => .error (.system fault)
  | .ok (free, _) =>
    let real : Path :=
      ⟨if free.isAbsolute then free.slashes else 1,
        normalized ((if free.isAbsolute then [] else disk.here) ++ free.parts)⟩
    match disk.lookup real with
    | .error .linkLoop => .error (.loop real)
    | _ => .ok real

/-! ### Writing -/

/-- The absolute path, made without looking at links. -/
def absolute (disk : Disk) (path : Path) : Path :=
  if path.isAbsolute then ⟨path.slashes, normalized path.parts⟩ else ⟨1, normalized (disk.here ++ path.parts)⟩

/-- Makes a file ready for more at its end. A file that is missing is created. -/
def openEnd (disk : Disk) (path : Path) : Except Fault (Place × Disk) := do
  let place ← disk.placeOf true path
  match disk.item? place with
  | none => .ok (place, disk.put place (.file []))
  | some .directory => .error .isDirectory
  | some .socket => .error .noDevice
  | some (.file _) => if disk.sealed.contains place then .error .denied else .ok (place, disk)
  | some (.link _) => .ok (place, disk)

/-- Adds to the end of a file. -/
def append (disk : Disk) (place : Place) (bytes : List UInt8) : Disk :=
  match disk.item? place with
  | some (.file before) => disk.put place (.file (before ++ bytes))
  | _ => disk

end Disk

end SyntaxTally.Files
