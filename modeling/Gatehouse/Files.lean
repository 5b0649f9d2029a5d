/-! # Files and folders

Named entries, each a file of bytes or a folder with entries of its own, and the steps within one
folder that read, replace and remove files. A step either fails and changes nothing, or is complete.
-/

namespace Gatehouse

inductive FileFault where
  | missing
  | alreadyExists
  | notAFolder
  | isAFolder
  | nameTooLong
  | notEmpty
  | invalidArgument
  | nulInName
  | notText
  /-- A fault that only the machine can tell, in its words. -/
  | other (reason : String)
  deriving DecidableEq, Repr

def FileFault.message : FileFault → String
  | .missing => "No such file or directory (os error 2)"
  | .alreadyExists => "File exists (os error 17)"
  | .notAFolder => "Not a directory (os error 20)"
  | .isAFolder => "Is a directory (os error 21)"
  | .nameTooLong => "File name too long (os error 36)"
  | .notEmpty => "Directory not empty (os error 39)"
  | .invalidArgument => "Invalid argument (os error 22)"
  | .nulInName => "file name contained an unexpected NUL byte"
  | .notText => "stream did not contain valid UTF-8"
  | .other reason => reason

inductive FileNode where
  | file (bytes : ByteArray)
  | folder (entries : List (String × FileNode))

/-- The entries of a folder, each name once. -/
abbrev Entries := List (String × FileNode)

namespace Entries

def nameLimit : Nat := 255

def node? (es : Entries) (name : String) : Option FileNode := es.lookup name

def erase (es : Entries) (name : String) : Entries := es.filter (·.1 != name)

def put (es : Entries) (name : String) (node : FileNode) : Entries := (name, node) :: es.erase name

def names (es : Entries) : List String := es.map (·.1)

def read (es : Entries) (name : String) : Except FileFault ByteArray :=
  if nameLimit < name.utf8ByteSize then .error .nameTooLong
  else match es.node? name with
    | none => .error .missing
    | some (.folder _) => .error .isAFolder
    | some (.file bytes) => .ok bytes

/-- Gives a file a new name, in place of a file that had it. A folder is never replaced. -/
def rename (es : Entries) (source target : String) : Except FileFault Entries :=
  if nameLimit < target.utf8ByteSize then .error .nameTooLong
  else match es.node? source, es.node? target with
    | none, _ => .error .missing
    | some _, some (.folder _) => .error .isAFolder
    | some node, _ => .ok ((es.erase source).put target node)

def remove (es : Entries) (name : String) : Except FileFault Entries :=
  if nameLimit < name.utf8ByteSize then .error .nameTooLong
  else match es.node? name with
    | none => .error .missing
    | some (.folder _) => .error .isAFolder
    | some (.file _) => .ok (es.erase name)

/-- The hidden name of a temporary file. The numbers begin where they have six digits. -/
def temporaryName (n : Nat) : String := ".tmp" ++ toString (100000 + n)

/-- A temporary name that no entry has. Of one name more than there are entries one is free. -/
def freshName (es : Entries) : String :=
  temporaryName <|
    ((List.range (es.length + 1)).find? fun n => !es.names.contains (temporaryName n)).getD 0

end Entries

/-! ## Paths

A path leads to a file or a folder in steps, from the root folder or from the present one. -/

inductive PathStep where
  /-- Stays in the folder, which has to be there. -/
  | stay
  /-- Goes to the folder around this one. -/
  | up
  | into (name : String)
  deriving DecidableEq, Repr

namespace PathStep

def ofText (text : String) : PathStep :=
  if text = "." then .stay else if text = ".." then .up else .into text

def text : PathStep → String
  | .stay => "."
  | .up => ".."
  | .into name => name

end PathStep

structure FilePath where
  fromRoot : Bool
  steps : List PathStep
  deriving DecidableEq, Repr

namespace FilePath

def sizeLimit : Nat := 4095

/-- The path that a text stands for. Slashes separate the steps, and several count as one. -/
def ofText (text : String) : FilePath where
  fromRoot := text.startsWith "/"
  steps :=
    (((text.split (· = '/')).toList.map (·.toString)).filter (· ≠ "")).map PathStep.ofText

/-- The path that a text stands for, unless no path is written like this. -/
def read (text : String) : Except FileFault FilePath :=
  if text.toList.contains '\x00' then .error .nulInName
  else if sizeLimit < text.utf8ByteSize then .error .nameTooLong
  else .ok (ofText text)

def text (p : FilePath) : String :=
  (if p.fromRoot then "/" else "") ++ "/".intercalate (p.steps.map PathStep.text)

/-- The path, and then the ones above it from the nearest on. Above, steps that stay are left out:
the path above both `a/b` and `a/b/.` is `a`. -/
def upward (p : FilePath) : List FilePath :=
  let moves := p.steps.filter (· ≠ .stay)
  p :: (List.range moves.length).reverse.map fun n => { p with steps := moves.take n }

end FilePath

def joinPaths (folder name : String) : String :=
  if name.startsWith "/" then name
  else if folder.isEmpty || folder.endsWith "/" then folder ++ name
  else folder ++ "/" ++ name

/-! ## Trees of files

All the files of a machine are the entries of one root folder, which is the present folder as well.
A path is followed from there, and what it leads to is a spot: a folder together with those around
it, so that the way up is known and a change can be carried back to the root. -/

structure Spot where
  entries : Entries
  /-- The folders around it, innermost first, each with the name under which it holds the next. -/
  around : List (String × Entries) := []

namespace Spot

/-- Takes one step. Only a folder can be entered, and the root folder lies in itself. -/
def step (s : Spot) : PathStep → Except FileFault Spot
  | .stay => .ok s
  | .up =>
    match s.around with
    | [] => .ok s
    | (_, outer) :: around => .ok ⟨outer, around⟩
  | .into name =>
    if Entries.nameLimit < name.utf8ByteSize then .error .nameTooLong
    else match s.entries.node? name with
      | none => .error .missing
      | some (.file _) => .error .notAFolder
      | some (.folder inner) => .ok ⟨inner, (name, s.entries) :: s.around⟩

/-- The whole tree, with other entries in the folder. -/
def change (s : Spot) (entries : Entries) : Entries :=
  s.around.foldl (fun inner (name, outer) => outer.put name (.folder inner)) entries

end Spot

namespace Entries

def follow (root : Entries) (steps : List PathStep) : Except FileFault Spot :=
  steps.foldlM Spot.step ⟨root, []⟩

/-- Makes the folder at the end of a path. All others on the way have to be there. -/
def makeFolder (root : Entries) (path : FilePath) : Except FileFault Entries := do
  let spot ← root.follow path.steps.dropLast
  match path.steps.getLast? with
  | some (.into name) =>
    if nameLimit < name.utf8ByteSize then .error .nameTooLong
    else match spot.entries.node? name with
      | some _ => .error .alreadyExists
      | none => return spot.change (spot.entries.put name (.folder []))
  | _ => .error .alreadyExists

/-- Writes a file, which is made where it is missing. A path with a slash at its end leads to no
file. -/
def writeFile (root : Entries) (written : String) (bytes : ByteArray) :
    Except FileFault Entries := do
  let path ← FilePath.read written
  let spot ← root.follow path.steps.dropLast
  match path.steps.getLast? with
  | some (.into name) =>
    if written.endsWith "/" then .error .isAFolder
    else if nameLimit < name.utf8ByteSize then .error .nameTooLong
    else match spot.entries.node? name with
      | some (.folder _) => .error .isAFolder
      | _ => return spot.change (spot.entries.put name (.file bytes))
  | _ => .error .isAFolder

/-- Removes the folder at the end of a path with all that is in it. The contents go first, and they
are gone even where the folder cannot be removed by this path, whose last step then names none. A
path that led through the contents ends where nothing is left to remove. -/
def removeFolder (root : Entries) (path : FilePath) : Except FileFault Unit × Entries :=
  match root.follow path.steps with
  | .error fault => (.error fault, root)
  | .ok spot =>
    let emptied := spot.change []
    match emptied.follow path.steps.dropLast, path.steps.getLast? with
    | .error .missing, _ => (.ok (), emptied)
    | .error fault, _ => (.error fault, emptied)
    | .ok above, some (.into name) => (.ok (), above.change (above.entries.erase name))
    | .ok _, some .up => (.error .notEmpty, emptied)
    | .ok _, _ => (.error .invalidArgument, emptied)

end Entries

/-! ## Making folders

How the folders of a path come to be, on a machine or in a tree of files. -/

structure Folders (m : Type → Type) where
  /-- Makes one folder in a folder that is there. -/
  make : FilePath → m (Except FileFault Unit)
  isFolder : FilePath → m Bool

namespace Folders

variable {m : Type → Type} [Monad m]

/-- Makes the first of the paths, and where the folder around it is missing first that one by the
paths that follow. A folder that is there already will do. What was made before a fault stays. -/
def makeFirst (folders : Folders m) : List FilePath → m (Except FileFault Unit)
  | [] => return .ok ()
  | path :: above => do
    let attempt ← folders.make path
    let made ← match attempt with
      | .error .missing => do
        match ← makeFirst folders above with
        | .ok () => folders.make path
        | failed => pure failed
      | done => pure done
    match made with
    | .ok () => return .ok ()
    | .error fault => return if ← folders.isFolder path then .ok () else .error fault

def ensure (folders : Folders m) (written : String) : m (Except FileFault FilePath) := do
  match FilePath.read written with
  | .error fault => return .error fault
  | .ok path => return (← folders.makeFirst path.upward).map fun () => path

def ofTree : Folders (StateM Entries) where
  make path files :=
    match files.makeFolder path with
    | .ok files => (.ok (), files)
    | .error fault => (.error fault, files)
  isFolder path files := ((files.follow path.steps).isOk, files)

end Folders
end Gatehouse
