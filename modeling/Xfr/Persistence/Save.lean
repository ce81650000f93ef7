import Xfr.Library.FileSystem
import Xfr.Library.Wp

-- Failures which say nothing about a path. Those which do are those of the file system.
inductive CallFault
  | storageFull
  | interrupted
  | other
  deriving DecidableEq

def CallFault.kind : CallFault → ErrorKind
  | storageFull => .storageFull
  | interrupted => .interrupted
  | other       => .other

-- What goes wrong with the system calls of a save. A write may stop after some of the bytes.
structure Faults where
  metadata        : Option CallFault := none
  openFile        : Option CallFault := none
  danglingLink    : Option CallFault := none
  parentMetadata  : Option CallFault := none
  access          : Option CallFault := none
  symlinkMetadata : Option CallFault := none
  canonicalize    : Option CallFault := none
  create          : Option CallFault := none
  setPermissions  : Option CallFault := none
  write           : Option (Nat × CallFault) := none
  sync            : Option CallFault := none
  rename          : Option CallFault := none

-- The library for temporary files. It creates a file that was not there before, unless it may not do
-- so or finds no free name, and removes it again when the file is dropped.
structure Tempfiles where
  createIn : FileSystem → Process → (directory : FilePath) → (stem : String) → (mode : Nat) →
    Except ErrorKind (Place × FileSystem)
  remove   : FileSystem → Place → FileSystem
  created  : ∀ {fs p directory stem mode place fs'},
    createIn fs p directory stem mode = .ok (place, fs') →
      (∃ d, fs.access p directory = .ok d) ∧ fs.entries place = none ∧
        fs' = fs.set place (some (.file { contents := [], mode }))
  refused  : ∀ {fs p directory stem mode kind}, createIn fs p directory stem mode = .error kind →
    fs.access p directory = .error kind ∨ kind = .alreadyExists
  removed  : ∀ {fs place}, remove fs place = fs.unlink place

structure Environment where
  process   : Process
  umask     : Nat
  tempfiles : Tempfiles
  faults    : Faults

structure SaveError where
  kind   : ErrorKind
  reason : String
  deriving DecidableEq

abbrev Save (α : Type) :=
  EStateM SaveError FileSystem α

inductive Destination
  | special
  | file (mode : Nat)
  | new
  deriving DecidableEq

-- What a closure writes before it returns or fails.
structure FileWriter where
  bytes : List UInt8
  error : Option SaveError

namespace Persistence

def ioError (kind : ErrorKind) : SaveError where
  kind   := kind
  reason := kind.description

def cannotSave (kind : ErrorKind) (subject : String) : SaveError where
  kind   := kind
  reason :=
    match kind with
    | .notFound           => "directory does not exist"
    | .notADirectory      => "parent is not a directory"
    | .isADirectory       => "is a directory"
    | .permissionDenied   => subject ++ " is not writable"
    | .readOnlyFilesystem => "file system is read-only"
    | kind                => kind.description

-- The result of a system call, which leaves everything as it is when it fails.
def attempt {α : Type} (fault : Option CallFault)
    (f : FileSystem → Except ErrorKind (α × FileSystem)) : Save (Except ErrorKind α) :=
  fun fs =>
    match fault with
    | some fault => .ok (.error fault.kind) fs
    | none       =>
      match f fs with
      | .error kind  => .ok (.error kind) fs
      | .ok (a, fs') => .ok (.ok a) fs'

-- A system call which only looks at the file system.
def observe {α : Type} (fault : Option CallFault) (f : FileSystem → Except ErrorKind α) :
    Save (Except ErrorKind α) :=
  attempt fault fun fs => (f fs).map (·, fs)

def orFail {α : Type} (error : ErrorKind → SaveError) : Except ErrorKind α → Save α
  | .ok a       => pure a
  | .error kind => throw (error kind)

def readonly (mode : Nat) : Bool :=
  mode &&& 0o222 = 0

def inspect (env : Environment) (path : FilePath) : Save Destination := do
  match ← observe env.faults.metadata (·.metadata env.process true path) with
  | .ok .directory    => throw (cannotSave .isADirectory "file")
  | .ok (.file mode)  =>
    if readonly mode then
      throw (cannotSave .permissionDenied "file")
    else
      let opened ← attempt env.faults.openFile (·.openFile env.process false path)
      let _ ← orFail (cannotSave · "file") opened
      return .file mode
  | .ok _             => return .special
  | .error .notFound  =>
    match ← observe env.faults.danglingLink (·.metadata env.process false path) with
    | .ok .symlink => throw { kind := .notFound, reason := "symlink target does not exist" }
    | _            => return .new
  | .error kind       => throw (cannotSave kind "directory")

def parentDir (path : FilePath) : FilePath :=
  { path with names := if path.names.dropLast = [] then ["."] else path.names.dropLast }

def checkParent (env : Environment) (path : FilePath) : Save Unit := do
  match ← observe env.faults.parentMetadata (·.metadata env.process true (parentDir path)) with
  | .ok .directory =>
    let accessed ← observe env.faults.access (·.access env.process (parentDir path))
    let _ ← orFail (cannotSave · "directory") accessed
  | .ok _          => throw (cannotSave .notADirectory "directory")
  | .error kind    => throw (cannotSave kind "directory")

def checkDestination (env : Environment) (path : FilePath) : Save Unit := do
  match ← inspect env path with
  | .new => checkParent env path
  | _    => pure ()

-- What the buffered writer passes on to the file, also when the closure fails.
def writeAll (env : Environment) (place : Place) (writer : FileWriter) : Save Unit :=
  fun fs =>
    match env.faults.write with
    | some (n, fault) => .error (ioError fault.kind) (fs.append place (writer.bytes.take n))
    | none            =>
      match writer.error with
      | some error => .error error (fs.append place writer.bytes)
      | none       => .ok () (fs.append place writer.bytes)

def writeInPlace (env : Environment) (path : FilePath) (writer : FileWriter) : Save Unit := do
  let opened ← attempt env.faults.openFile (·.openFile env.process true path)
  let place ← orFail (cannotSave · "file") opened
  writeAll env place writer

-- The path itself, or the file which the link at it leads to.
def resolveTarget (env : Environment) (path : FilePath) : Save FilePath := do
  match ← observe env.faults.symlinkMetadata (·.metadata env.process false path) with
  | .ok .symlink     =>
    let canonical ← observe env.faults.canonicalize (·.canonicalize env.process path)
    orFail ioError canonical
  | .ok _            => return path
  | .error .notFound => return path
  | .error kind      => throw (ioError kind)

-- A temporary file is dropped when anything fails.
def dropping (env : Environment) (temporary : Place) (m : Save Unit) : Save Unit :=
  fun fs =>
    match m fs with
    | .ok a fs    => .ok a fs
    | .error e fs => .error e (env.tempfiles.remove fs temporary)

def setPermissions (env : Environment) (temporary : Place) (mode : Nat) : Save Unit := do
  let set ← attempt env.faults.setPermissions fun fs => .ok ((), fs.setPermissions temporary mode)
  orFail ioError set

-- The contents are complete before the temporary file gets the name of the target.
def persist (env : Environment) (temporary : Place) (target : FilePath) (writer : FileWriter) :
    Save Unit := do
  writeAll env temporary writer
  let synced ← observe env.faults.sync fun _ => .ok ()
  orFail ioError synced
  let renamed ← attempt env.faults.rename fun fs =>
    (fs.rename env.process temporary target).map ((), ·)
  orFail (cannotSave · "directory") renamed

def publish (env : Environment) (temporary : Place) (mode : Option Nat) (target : FilePath)
    (writer : FileWriter) : Save Unit := do
  match mode with
  | some mode => setPermissions env temporary mode
  | none      => pure ()
  persist env temporary target writer

def createMode (env : Environment) (mode : Option Nat) : Nat :=
  mode.getD 0o666 &&& (0o7777 ^^^ (env.umask &&& 0o7777))

def replace (env : Environment) (mode : Option Nat) (path : FilePath) (writer : FileWriter) :
    Save Unit := do
  let target ← resolveTarget env path
  let created ← attempt env.faults.create
    (env.tempfiles.createIn · env.process (parentDir target) ".xfr-" (createMode env mode))
  match created, mode with
  | .ok temporary,            _      =>
    dropping env temporary (publish env temporary mode target writer)
  -- A writable file in a directory which is not.
  | .error .permissionDenied, some _ => writeInPlace env target writer
  | .error kind,              _      => throw (cannotSave kind "directory")

def writeWith (env : Environment) (path : FilePath) (writer : FileWriter) : Save Unit := do
  match ← inspect env path with
  | .special   => writeInPlace env path writer
  | .file mode => replace env (some mode) path writer
  | .new       => replace env none path writer

def atomicWrite (env : Environment) (path : FilePath) (contents : List UInt8) : Save Unit :=
  writeWith env path { bytes := contents, error := none }

end Persistence
