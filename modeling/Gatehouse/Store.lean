import Gatehouse.Files

/-! # Key-value stores

Texts under keys that outlive a process. A store only moves texts around and never looks into
them. It stands in memory, in memory with operations that can be made to fail, or in a folder, which
is given or looked for at a path. -/

namespace Gatehouse

inductive StoreError where
  | io (reason : String)
  | invalidKey (key : String)
  deriving DecidableEq, Repr

def StoreError.message : StoreError → String
  | .io reason => s!"Store I/O error: {reason}"
  | .invalidKey key => s!"Invalid store key: {key}"

/-- What can be asked of a store. A missing key is no error, neither for `get` nor for `delete`. -/
class Store (σ : Type) where
  get : σ → String → Except StoreError (Option String)
  set : σ → String → String → Except StoreError Unit × σ
  delete : σ → String → Except StoreError Unit × σ

end Gatehouse

/-! ## Stores in memory -/

namespace Gatehouse.Store

structure Memory where
  entries : List (String × String) := []
  deriving DecidableEq, Repr

namespace Memory

def get? (m : Memory) (key : String) : Option String := m.entries.lookup key

def erase (m : Memory) (key : String) : Memory := ⟨m.entries.filter (·.1 != key)⟩

def insert (m : Memory) (key value : String) : Memory := ⟨(key, value) :: (m.erase key).entries⟩

instance : Store Memory where
  get m key := .ok (m.get? key)
  set m key value := (.ok (), m.insert key value)
  delete m key := (.ok (), m.erase key)

end Memory

/-! ## Stores with failing operations -/

structure Faulty where
  memory : Memory := {}
  getFails : Bool := false
  setFails : Bool := false
  deleteFails : Bool := false

namespace Faulty

def failure : StoreError := .io "the store is out of order"

instance : Store Faulty where
  get f key := if f.getFails then .error failure else Store.get f.memory key
  set f key value :=
    if f.setFails then (.error failure, f)
    else (.ok (), { f with memory := f.memory.insert key value })
  delete f key :=
    if f.deleteFails then (.error failure, f)
    else (.ok (), { f with memory := f.memory.erase key })

end Faulty

/-! ## Stores in a folder

One file `<key>.json` for every key. A value is first written to a temporary file of its own and
then renamed over the old one, so that neither a failure nor a crash leaves half a value behind. -/

structure Folder where
  /-- The entries of the folder, or what is at fault where there is no way to them. -/
  entries : Except FileFault Entries

namespace Folder

def entries? (f : Folder) : Option Entries := f.entries.toOption

def read (f : Folder) (name : String) : Except FileFault ByteArray :=
  f.entries.bind fun es => es.read name

/-- Characters of a key. None of them separates paths or hides a file. -/
def isKeyChar (c : Char) : Bool := c.isAlphanum || c = '_' || c = '-'

def isKey (key : String) : Bool := key ≠ "" && key.toList.all isKeyChar

def fileName (key : String) : String := key ++ ".json"

/-- What is missing is no fault, be it the file or the folder. -/
def get (f : Folder) (key : String) : Except StoreError (Option String) :=
  if !isKey key then .error (.invalidKey key)
  else match f.read (fileName key) with
    | .error .missing => .ok none
    | .error fault => .error (.io fault.message)
    | .ok bytes =>
      match String.fromUTF8? bytes with
      | some text => .ok (some text)
      | none => .error (.io FileFault.notText.message)

/-- Where the renaming fails the temporary file is removed again. -/
def set (f : Folder) (key value : String) : Except StoreError Unit × Folder :=
  if !isKey key then (.error (.invalidKey key), f)
  else match f.entries with
    | .error fault => (.error (.io fault.message), f)
    | .ok es =>
      let temporary := es.freshName
      let written := es.put temporary (.file value.toUTF8)
      match written.rename temporary (fileName key) with
      | .ok renamed => (.ok (), ⟨.ok renamed⟩)
      | .error fault => (.error (.io fault.message), ⟨.ok (written.erase temporary)⟩)

def delete (f : Folder) (key : String) : Except StoreError Unit × Folder :=
  if !isKey key then (.error (.invalidKey key), f)
  else match f.entries.bind fun es => es.remove (fileName key) with
    | .ok rest => (.ok (), ⟨.ok rest⟩)
    | .error .missing => (.ok (), f)
    | .error fault => (.error (.io fault.message), f)

instance : Store Folder where
  get := Folder.get
  set := Folder.set
  delete := Folder.delete

end Folder

/-! ## Stores at a path

A store in one folder among all the files of a machine. Every operation looks for the folder anew,
so that the folder may go and come back between two of them. A file is named by the path of the
folder and its own name together, and where this is longer than a path can be the operation fails,
whether or not the folder is there. -/

structure AtPath where
  files : Entries
  /-- The path of the folder, as it was given. -/
  written : String

namespace AtPath

/-- Opens the store in a folder, which is made where it is missing. -/
def openAt (written : String) : StateM Entries (Except FileFault AtPath) := fun files =>
  let (opened, files) := Folders.ofTree.ensure written files
  (opened.map fun _ => ⟨files, written⟩, files)

def path (s : AtPath) : FilePath := .ofText s.written

def spot (s : AtPath) : Except FileFault Spot := s.files.follow s.path.steps

def folder (s : AtPath) : Folder := ⟨s.spot.map (·.entries)⟩

def withFolder (s : AtPath) (f : Folder) : AtPath :=
  match s.spot, f.entries with
  | .ok spot, .ok es => { s with files := spot.change es }
  | _, _ => s

/-- Whether a path can be written for a file of the folder. -/
def reaches (s : AtPath) (name : String) : Bool :=
  (joinPaths s.written name).utf8ByteSize ≤ FilePath.sizeLimit

/-- Whether a path can be written for the file of a key. Where there is no such file the name of the
key is the fault. -/
def reachesKey (s : AtPath) (key : String) : Bool :=
  !Folder.isKey key || s.reaches (Folder.fileName key)

/-- What an operation answers that no path can be written for. -/
def tooLong : StoreError := .io FileFault.nameTooLong.message

def get (s : AtPath) (key : String) : Except StoreError (Option String) :=
  if s.reachesKey key then s.folder.get key else .error tooLong

/-- The temporary file needs a path as well. -/
def set (s : AtPath) (key value : String) : Except StoreError Unit × AtPath :=
  if s.reachesKey key && (!Folder.isKey key || s.reaches (Entries.temporaryName 0)) then
    let (result, f) := s.folder.set key value
    (result, s.withFolder f)
  else (.error tooLong, s)

def delete (s : AtPath) (key : String) : Except StoreError Unit × AtPath :=
  if s.reachesKey key then
    let (result, f) := s.folder.delete key
    (result, s.withFolder f)
  else (.error tooLong, s)

instance : Store AtPath where
  get := AtPath.get
  set := AtPath.set
  delete := AtPath.delete

end AtPath
end Gatehouse.Store
