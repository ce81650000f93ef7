import Xfr.Library.ErrorKind

abbrev Directory :=
  Nat

-- A name in a directory.
abbrev Place :=
  Directory × String

-- Where a path begins, and the names on it.
structure FilePath where
  start : Directory
  names : List String

structure File where
  contents : List UInt8
  mode     : Nat
  deriving DecidableEq

inductive Node
  | directory (d : Directory)
  | file (f : File)
  -- A device or a pipe.
  | special
  | symlink (absolute : Bool) (names : List String)
  deriving DecidableEq

structure FileSystem where
  entries : Place → Option Node
  parent  : Directory → Directory
  root    : Directory

inductive Access
  | write
  | search
  deriving DecidableEq

-- What a process is not allowed to do, and how long paths can get with all of their links.
structure Process where
  refuses       : Directory → Access → Option ErrorKind
  refusesFile   : Place → (mode : Nat) → Option ErrorKind
  refusesRename : Place → Place → Option ErrorKind
  limit         : Nat

-- What a path leads to. There may be nothing at a place yet.
inductive Resolved
  | directory (d : Directory)
  | entry (place : Place)
  deriving DecidableEq

inductive Metadata
  | directory
  | file (mode : Nat)
  | special
  | symlink
  deriving DecidableEq

def Node.metadata : Node → Metadata
  | directory _ => .directory
  | file f      => .file f.mode
  | special     => .special
  | symlink ..  => .symlink

namespace FileSystem

def walk (fs : FileSystem) (p : Process) (follow : Bool) :
    (limit : Nat) → Directory → List String → Except ErrorKind Resolved
  | _,         d, []            => .ok (.directory d)
  | 0,         _, _ :: _        => .error .filesystemLoop
  | limit + 1, d, name :: names =>
    match p.refuses d .search with
    | some kind => .error kind
    | none      =>
      if name = "." then
        fs.walk p follow limit d names
      else if name = ".." then
        fs.walk p follow limit (fs.parent d) names
      else
        match fs.entries (d, name) with
        | some (.directory d')            => fs.walk p follow limit d' names
        | some (.symlink absolute target) =>
          if names = [] ∧ ¬follow then
            .ok (.entry (d, name))
          else
            fs.walk p follow limit (if absolute then fs.root else d) (target ++ names)
        | node                            =>
          if names = [] then
            .ok (.entry (d, name))
          else
            .error (if node.isSome then .notADirectory else .notFound)

-- There is nothing at an empty path.
def resolve (fs : FileSystem) (p : Process) (follow : Bool) (path : FilePath) :
    Except ErrorKind Resolved :=
  if path.names = [] then .error .notFound else fs.walk p follow p.limit path.start path.names

def metadata (fs : FileSystem) (p : Process) (follow : Bool) (path : FilePath) :
    Except ErrorKind Metadata :=
  match fs.resolve p follow path with
  | .error kind         => .error kind
  | .ok (.directory _)  => .ok .directory
  | .ok (.entry place)  =>
    match fs.entries place with
    | none      => .error .notFound
    | some node => .ok node.metadata

-- A canonical path has no links and no other detours.
def canonicalize (fs : FileSystem) (p : Process) (path : FilePath) : Except ErrorKind FilePath :=
  match fs.resolve p true path with
  | .error kind        => .error kind
  | .ok (.directory d) => .ok { start := d, names := ["."] }
  | .ok (.entry place) =>
    if fs.entries place = none then
      .error .notFound
    else
      .ok { start := place.fst, names := [place.snd] }

-- The directory at a path, when the process may write to it.
def access (fs : FileSystem) (p : Process) (path : FilePath) : Except ErrorKind Directory :=
  match fs.resolve p true path with
  | .error kind        => .error kind
  | .ok (.entry place) => .error (if (fs.entries place).isSome then .notADirectory else .notFound)
  | .ok (.directory d) =>
    match p.refuses d .search, p.refuses d .write with
    | some kind, _    => .error kind
    | _, some kind    => .error kind
    | none, none      => .ok d

def set (fs : FileSystem) (place : Place) (node : Option Node) : FileSystem :=
  { fs with entries := Function.update fs.entries place node }

-- Opens a file for writing, which has to be there.
def openFile (fs : FileSystem) (p : Process) (truncate : Bool) (path : FilePath) :
    Except ErrorKind (Place × FileSystem) :=
  match fs.resolve p true path with
  | .error kind        => .error kind
  | .ok (.directory _) => .error .isADirectory
  | .ok (.entry place) =>
    match fs.entries place with
    | some (.file f)        =>
      match p.refusesFile place f.mode with
      | some kind => .error kind
      | none      =>
        .ok (place, if truncate then fs.set place (some (.file { f with contents := [] })) else fs)
    | some .special         => .ok (place, fs)
    | some (.directory _)   => .error .isADirectory
    | some (.symlink ..)    => .error .filesystemLoop
    | none                  => .error .notFound

-- Creates a file in a directory, which has to be a new one.
def createNew (fs : FileSystem) (p : Process) (directory : FilePath) (name : String) (mode : Nat) :
    Except ErrorKind (Place × FileSystem) :=
  match fs.access p directory with
  | .error kind => .error kind
  | .ok d       =>
    if (fs.entries (d, name)).isSome then
      .error .alreadyExists
    else
      .ok ((d, name), fs.set (d, name) (some (.file { contents := [], mode })))

def update (fs : FileSystem) (place : Place) (f : File → File) : FileSystem :=
  match fs.entries place with
  | some (.file file) => fs.set place (some (.file (f file)))
  | _                 => fs

def append (fs : FileSystem) (place : Place) (bytes : List UInt8) : FileSystem :=
  fs.update place fun f => { f with contents := f.contents ++ bytes }

def setPermissions (fs : FileSystem) (place : Place) (mode : Nat) : FileSystem :=
  fs.update place ({ · with mode })

def unlink (fs : FileSystem) (place : Place) : FileSystem :=
  fs.set place none

-- What was at the target before is gone.
def rename (fs : FileSystem) (p : Process) (source : Place) (target : FilePath) :
    Except ErrorKind FileSystem :=
  match fs.resolve p false target with
  | .error kind        => .error kind
  | .ok (.directory _) => .error .isADirectory
  | .ok (.entry place) =>
    match p.refuses place.fst .write, p.refusesRename source place with
    | some kind, _ => .error kind
    | _, some kind => .error kind
    | none, none   => .ok <| (fs.unlink source).set place (fs.entries source)

-- The file at a path.
def readFile (fs : FileSystem) (p : Process) (path : FilePath) : Option File :=
  match fs.resolve p true path with
  | .ok (.entry place) =>
    match fs.entries place with
    | some (.file f) => some f
    | _              => none
  | _                  => none

variable {fs fs' : FileSystem} {p : Process} {follow : Bool} {limit : Nat} {d : Directory}
  {names : List String} {name : String} {path : FilePath} {r : Resolved} {place place' : Place}
  {node : Option Node}

-- What a path leads to when nothing but links and directories counts.
def Plain : Option Node → Prop
  | none | some (.file _) => True
  | _                     => False

-- File systems which differ in files only.
structure Alike (fs fs' : FileSystem) : Prop where
  parent  : fs'.parent = fs.parent
  root    : fs'.root = fs.root
  entries : ∀ place, fs'.entries place = fs.entries place ∨
    Plain (fs.entries place) ∧ Plain (fs'.entries place)

theorem Alike.set (h : Plain (fs.entries place)) (hn : Plain node) : Alike fs (fs.set place node) where
  parent  := rfl
  root    := rfl
  entries := fun place' => by
    by_cases he : place' = place
    case pos => exact .inr ⟨he ▸ h, by simpa [FileSystem.set, he] using hn⟩
    case neg => exact .inl (Function.update_of_ne he ..)

-- The walks which lead somewhere.
inductive Walks (fs : FileSystem) (p : Process) (follow : Bool) :
    (limit : Nat) → Directory → List String → Resolved → Prop
  | done {limit : Nat} {d : Directory} : Walks fs p follow limit d [] (.directory d)
  | dot {limit : Nat} {d : Directory} {names : List String} {r : Resolved} :
    p.refuses d .search = none → Walks fs p follow limit d names r →
    Walks fs p follow (limit + 1) d ("." :: names) r
  | dotDot {limit : Nat} {d : Directory} {names : List String} {r : Resolved} :
    p.refuses d .search = none → Walks fs p follow limit (fs.parent d) names r →
    Walks fs p follow (limit + 1) d (".." :: names) r
  | directory {limit : Nat} {d d' : Directory} {name : String} {names : List String} {r : Resolved} :
    p.refuses d .search = none → name ≠ "." → name ≠ ".." →
    fs.entries (d, name) = some (.directory d') → Walks fs p follow limit d' names r →
    Walks fs p follow (limit + 1) d (name :: names) r
  | symlink {limit : Nat} {d : Directory} {name : String} {names target : List String}
    {absolute : Bool} {r : Resolved} :
    p.refuses d .search = none → name ≠ "." → name ≠ ".." →
    fs.entries (d, name) = some (.symlink absolute target) → (names = [] → follow) →
    Walks fs p follow limit (if absolute then fs.root else d) (target ++ names) r →
    Walks fs p follow (limit + 1) d (name :: names) r
  | last {limit : Nat} {d : Directory} {name : String} :
    p.refuses d .search = none → name ≠ "." → name ≠ ".." →
    (∀ d', fs.entries (d, name) ≠ some (.directory d')) →
    (follow → ∀ absolute target, fs.entries (d, name) ≠ some (.symlink absolute target)) →
    Walks fs p follow (limit + 1) d [name] (.entry (d, name))

theorem walks_of_walk (h : fs.walk p follow limit d names = .ok r) :
    Walks fs p follow limit d names r := by
  fun_induction walk fs p follow limit d names
  case case1 => cases h; exact .done
  case case2 | case3 | case10 => contradiction
  case case4 hs hi => exact .dot hs (hi h)
  case case5 hs _ hi => exact .dotDot hs (hi h)
  case case6 hs hd hp _ he hi => exact .directory hs hd hp he (hi h)
  case case7 hs hd hp _ _ he hl =>
    cases h
    obtain rfl := hl.left
    exact .last hs hd hp (by simp [he]) (fun hf => absurd hf hl.right)
  case case8 hs hd hp _ _ he hl hi =>
    exact .symlink hs hd hp he (fun hn => by simpa [hn] using hl) (hi h)
  case case9 hs hd hp he hl =>
    cases h
    exact .last hs hd hp (fun d' h => he d' h) (fun _ absolute target h => hl absolute target h)

theorem walk_of_walks (h : Walks fs p follow limit d names r) :
    fs.walk p follow limit d names = .ok r := by
  induction h
  case done => rw [walk]
  case dot hs _ hi => simp [walk, hs, hi]
  case dotDot hs _ hi => simp [walk, hs, hi]
  case directory hs hd hp he _ hi => simp [walk, hs, hd, hp, he, hi]
  case symlink hs hd hp he hf _ hi =>
    simp only [walk, hs, if_neg hd, if_neg hp, he]
    rw [if_neg fun h => h.right (hf h.left), hi]
  case last hs hd hp hn hf =>
    unfold walk
    simp only [hs, if_neg hd, if_neg hp]
    split
    case h_1 d' he              => exact absurd he (hn d')
    case h_2 absolute target he => exact if_pos ⟨trivial, fun h => hf h absolute target he⟩
    case h_3                    => exact if_pos trivial

-- A path leads to the same place as long as there are only changes to files.
theorem Walks.alike (a : Alike fs fs') (h : Walks fs p follow limit d names r) :
    Walks fs' p follow limit d names r := by
  induction h
  case done => exact .done
  case dot hs _ hi => exact .dot hs hi
  case dotDot hs _ hi => exact .dotDot hs (a.parent ▸ hi)
  case directory d _ name _ _ hs hd hp he _ hi =>
    cases a.entries (d, name)
    case inl h => exact .directory hs hd hp (h.trans he) hi
    case inr h => simp [he, Plain] at h
  case symlink d name _ _ _ _ hs hd hp he hf _ hi =>
    cases a.entries (d, name)
    case inl h => exact .symlink hs hd hp (h.trans he) hf (a.root ▸ hi)
    case inr h => simp [he, Plain] at h
  case last d name hs hd hp hn hf =>
    cases a.entries (d, name)
    case inl h => exact .last hs hd hp (fun d' => h ▸ hn d') (fun hl => h ▸ hf hl)
    case inr h =>
      refine .last hs hd hp (fun d' he => ?_) (fun _ absolute target he => ?_)
      all_goals simp [he, Plain] at h

theorem Walks.of_entry (h : Walks fs p follow limit d names (.entry place)) :
    0 < limit ∧ p.refuses place.fst .search = none ∧ place.snd ≠ "." ∧ place.snd ≠ ".." ∧
      (∀ d', fs.entries place ≠ some (.directory d')) ∧
      (follow → ∀ absolute target, fs.entries place ≠ some (.symlink absolute target)) := by
  generalize hr : Resolved.entry place = r at h
  induction h
  case done => contradiction
  case last hs hd hp hn hf =>
    cases hr
    exact ⟨Nat.succ_pos _, hs, hd, hp, hn, hf⟩
  case dot hi | dotDot hi | directory hi | symlink hi => exact ⟨Nat.succ_pos _, (hi hr).right⟩

theorem Walks.start (h : Walks fs p follow limit d (name :: names) r) :
    0 < limit ∧ p.refuses d .search = none := by
  cases h
  all_goals exact ⟨Nat.succ_pos _, ‹_›⟩

theorem Walks.nofollow (h : Walks fs p true limit d names r) :
    ∃ r, Walks fs p false limit d names r := by
  induction h
  case done => exact ⟨_, .done⟩
  case dot hs _ hi => exact ⟨_, .dot hs hi.choose_spec⟩
  case dotDot hs _ hi => exact ⟨_, .dotDot hs hi.choose_spec⟩
  case directory hs hd hp he _ hi => exact ⟨_, .directory hs hd hp he hi.choose_spec⟩
  case last hs hd hp hn _ => exact ⟨_, .last hs hd hp hn nofun⟩
  case symlink names _ _ _ hs hd hp he _ _ hi =>
    cases names
    case nil  => exact ⟨_, .last hs hd hp (by simp [he]) nofun⟩
    case cons => exact ⟨_, .symlink hs hd hp he nofun hi.choose_spec⟩

theorem not_walks_dot : ¬Walks fs p follow limit d ["."] (.entry place) := by
  intro h
  have hw := walk_of_walks h
  cases limit
  case zero => simp [walk] at hw
  case succ => simp [walk, h.start.right] at hw

-- A link at the end of a path makes the only difference.
theorem Walks.of_nofollow (h : Walks fs p false limit d names r)
    (hl : ∀ {place}, r = .entry place → ∀ absolute target,
      fs.entries place ≠ some (.symlink absolute target)) : Walks fs p true limit d names r := by
  induction h
  case done => exact .done
  case dot hs _ hi => exact .dot hs (hi hl)
  case dotDot hs _ hi => exact .dotDot hs (hi hl)
  case directory hs hd hp he _ hi => exact .directory hs hd hp he (hi hl)
  case symlink hs hd hp he hf _ hi => exact .symlink hs hd hp he (fun _ => rfl) (hi hl)
  case last hs hd hp hn _ => exact .last hs hd hp hn (fun _ => hl rfl)

-- The last name of a path is one in the directory which the names before it lead to.
theorem Walks.dropLast (h : Walks fs p false limit d (names ++ [name]) (.entry place)) :
    Walks fs p true limit d names (.directory place.fst) := by
  generalize hn : names ++ [name] = ns at h
  generalize hr : Resolved.entry place = r at h
  induction h generalizing names <;> cases names
  case done.nil | done.cons => simp at hn
  case dot.nil h _ | dotDot.nil h _ =>
    obtain ⟨_, rfl⟩ := List.cons.inj hn
    subst hr
    cases h
  case directory.nil h _ =>
    obtain ⟨_, rfl⟩ := List.cons.inj hn
    subst hr
    cases h
  case symlink.nil hf _ _ =>
    obtain ⟨_, rfl⟩ := List.cons.inj hn
    exact absurd (hf rfl) Bool.false_ne_true
  case last.nil =>
    cases hr
    exact .done
  case dot.cons hs _ hi _ _ =>
    obtain ⟨rfl, rfl⟩ := List.cons.inj hn
    exact .dot hs (hi rfl hr)
  case dotDot.cons hs _ hi _ _ =>
    obtain ⟨rfl, rfl⟩ := List.cons.inj hn
    exact .dotDot hs (hi rfl hr)
  case directory.cons hs hd hp he _ hi _ _ =>
    obtain ⟨rfl, rfl⟩ := List.cons.inj hn
    exact .directory hs hd hp he (hi rfl hr)
  case symlink.cons hs hd hp he _ _ hi _ _ =>
    obtain ⟨rfl, rfl⟩ := List.cons.inj hn
    exact .symlink hs hd hp he (fun _ => rfl) (hi (List.append_assoc ..) hr)
  case last.cons => simp at hn

theorem resolve_eq_ok_iff : fs.resolve p follow path = .ok r ↔
    path.names ≠ [] ∧ Walks fs p follow p.limit path.start path.names r := by
  unfold resolve
  split
  case isTrue h  => simp [h]
  case isFalse h => exact ⟨fun hw => ⟨h, walks_of_walk hw⟩, fun hw => walk_of_walks hw.right⟩

theorem resolve_alike (a : Alike fs fs') (h : fs.resolve p follow path = .ok r) :
    fs'.resolve p follow path = .ok r := by
  have ⟨hn, hw⟩ := resolve_eq_ok_iff.mp h
  exact resolve_eq_ok_iff.mpr ⟨hn, hw.alike a⟩

theorem metadata_entry (h : fs.resolve p follow path = .ok (.entry place)) :
    fs.metadata p follow path =
      match fs.entries place with
      | none      => .error .notFound
      | some node => .ok node.metadata := by
  simp only [metadata, h]

theorem metadata_of_access (h : fs.access p path = .ok d) :
    fs.metadata p true path = .ok .directory := by
  unfold access at h
  split at h
  case h_1 | h_2 => contradiction
  case h_3 hr => rw [metadata, hr]

theorem metadata_eq_ok {m : Metadata} (h : fs.metadata p follow path = .ok m) :
    m = .directory ∨ ∃ place node, fs.resolve p follow path = .ok (.entry place) ∧
      fs.entries place = some node ∧ node.metadata = m := by
  unfold metadata at h
  split at h
  case h_1 => contradiction
  case h_2 => exact .inl (Except.ok.inj h).symm
  case h_3 place hr =>
    split at h
    case h_1 => contradiction
    case h_2 node he => exact .inr ⟨place, node, hr, he, Except.ok.inj h⟩

theorem metadata_eq_file {mode : Nat} (h : fs.metadata p follow path = .ok (.file mode)) :
    ∃ place f, fs.resolve p follow path = .ok (.entry place) ∧
      fs.entries place = some (.file f) ∧ f.mode = mode := by
  cases metadata_eq_ok h
  case inl => contradiction
  case inr hm =>
    have ⟨place, node, hr, he, hm⟩ := hm
    cases node
    case file f => exact ⟨place, f, hr, he, Metadata.file.inj hm⟩
    all_goals contradiction

-- A canonical path leads to where the path leads to, without another link.
theorem resolve_canonicalize {canonical : FilePath}
    (h : fs.canonicalize p path = .ok canonical) :
    (∃ place, fs.entries place ≠ none ∧ fs.resolve p true path = .ok (.entry place) ∧
      fs.resolve p false canonical = .ok (.entry place)) ∨
    ∃ d, fs.resolve p true path = .ok (.directory d) ∧ ∀ {follow place},
      fs.resolve p follow canonical ≠ .ok (.entry place) := by
  unfold canonicalize at h
  split at h
  case h_1 => contradiction
  case h_2 d hr =>
    cases h
    refine .inr ⟨d, hr, fun h => ?_⟩
    have ⟨_, hw⟩ := resolve_eq_ok_iff.mp h
    exact not_walks_dot hw
  case h_3 place hr =>
    split at h
    case isTrue => contradiction
    case isFalse hn =>
      cases h
      have ⟨_, hw⟩ := resolve_eq_ok_iff.mp hr
      have ⟨hl, hs, hd, hp, he, _⟩ := hw.of_entry
      obtain ⟨limit, hl⟩ := Nat.exists_eq_succ_of_ne_zero (Nat.pos_iff_ne_zero.mp hl)
      refine .inl ⟨place, hn, hr, resolve_eq_ok_iff.mpr ⟨by simp, ?_⟩⟩
      rw [hl]
      exact .last hs hd hp he nofun

-- Without a link at the end of a path it does not matter whether links are followed.
theorem resolve_of_noLink (h : fs.resolve p false path = .ok r)
    (hl : fs.metadata p false path ≠ .ok .symlink) : fs.resolve p true path = .ok r := by
  have ⟨hn, hw⟩ := resolve_eq_ok_iff.mp h
  refine resolve_eq_ok_iff.mpr ⟨hn, hw.of_nofollow fun hr absolute target he => hl ?_⟩
  rw [metadata_entry (hr ▸ h), he]
  rfl

end FileSystem
