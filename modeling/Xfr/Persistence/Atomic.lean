import Xfr.Persistence.Save

namespace FileSystem

variable {fs fs' : FileSystem} {p : Process} {place : Place} {f : File} {node node' : Option Node}

@[simp]
theorem set_set : (fs.set place node).set place node' = fs.set place node' := by
  simp [set]

theorem set_self (h : fs.entries place = node) : fs.set place node = fs := by
  simp [set, ← h]

@[simp]
theorem entries_set : (fs.set place node).entries place = node :=
  Function.update_self ..

@[simp]
theorem update_set {g : File → File} :
    (fs.set place (some (.file f))).update place g = fs.set place (some (.file (g f))) := by
  simp [update]

end FileSystem

namespace Persistence

open Wp (wp)

variable {α : Type} {env : Environment} {fs s : FileSystem} {path target : FilePath} {d : Destination}
  {mode : Option Nat} {writer : FileWriter} {temporary place : Place} {r : Except ErrorKind α}
  {E : SaveError → FileSystem → Prop}

theorem wp_attempt {fault : Option CallFault} {f : FileSystem → Except ErrorKind (α × FileSystem)}
    {Q : Except ErrorKind α → FileSystem → Prop}
    (failed : ∀ {kind}, f s = .error kind ∨ (∃ fault : CallFault, kind = fault.kind) →
      Q (.error kind) s)
    (ok : ∀ {a s'}, f s = .ok (a, s') → Q (.ok a) s') : wp (attempt fault f) Q E s := by
  unfold wp attempt
  cases fault
  case some fault => exact failed (.inr ⟨fault, rfl⟩)
  case none =>
    cases h : f s
    case error kind => simpa [h] using failed (.inl h)
    case ok r       => simpa [h] using ok h

theorem wp_observe {fault : Option CallFault} {f : FileSystem → Except ErrorKind α}
    {Q : Except ErrorKind α → FileSystem → Prop}
    (h : ∀ {r}, r = f s ∨ (∃ fault : CallFault, r = .error fault.kind) → Q r s) :
    wp (observe fault f) Q E s := by
  refine wp_attempt (fun {kind} hf => h ?_) (fun {a s'} hf => ?_)
  case refine_1 =>
    cases hf
    case inr hf =>
      have ⟨fault, hk⟩ := hf
      exact .inr ⟨fault, hk ▸ rfl⟩
    case inl hf =>
      cases hs : f s <;> simp [hs, Except.map] at hf
      exact .inl (hf ▸ rfl)
  case refine_2 =>
    cases hs : f s <;> simp [hs, Except.map] at hf
    obtain ⟨rfl, rfl⟩ := hf
    exact h (.inl hs.symm)

theorem wp_orFail {error : ErrorKind → SaveError} {Q : α → FileSystem → Prop}
    (ok : ∀ {a}, r = .ok a → Q a s) (failed : ∀ {kind}, r = .error kind → E (error kind) s) :
    wp (orFail error r) Q E s := by
  cases r
  case ok a       => exact ok rfl
  case error kind => exact failed rfl

-- What is known of a path once it was looked at.
def Finds (env : Environment) (fs : FileSystem) (path : FilePath) : Destination → Prop
  | .special   =>
    ∃ m, fs.metadata env.process true path = .ok m ∧ m ≠ .directory ∧ ∀ mode, m ≠ .file mode
  | .file mode =>
    fs.metadata env.process true path = .ok (.file mode) ∧ readonly mode = false ∧
      ∃ place, fs.openFile env.process false path = .ok (place, fs)
  | .new       => fs.metadata env.process true path = .error .notFound

theorem openFile_frame {fs' : FileSystem} {p : Process}
    (h : fs.openFile p false path = .ok (place, fs')) : fs' = fs := by
  unfold FileSystem.openFile at h
  split at h <;> try contradiction
  split at h <;> try contradiction
  case h_1 =>
    split at h
    case h_1 => contradiction
    case h_2 => cases h; rfl
  case h_2 => cases h; rfl

theorem CallFault.kind_ne {fault : CallFault} :
    fault.kind ≠ .notFound ∧ fault.kind ≠ .permissionDenied := by
  cases fault <;> simp [CallFault.kind]

theorem inspect_wp :
    wp (inspect env path) (fun d s => s = fs ∧ Finds env fs path d) (fun _ s => s = fs) fs := by
  unfold inspect
  refine Wp.wp_bind <| wp_observe fun hm => ?_
  split
  case h_1 => exact Wp.wp_throw rfl
  case h_2 mode =>
    have hm : fs.metadata env.process true path = .ok (.file mode) := by simpa [eq_comm] using hm
    split
    case isTrue     => exact Wp.wp_throw rfl
    case isFalse hr =>
      refine Wp.wp_bind <| wp_attempt (fun _ => ?_) (fun ho => ?_)
      · exact Wp.wp_bind <| wp_orFail nofun (fun _ => rfl)
      · have hs := openFile_frame ho
        subst hs
        refine Wp.wp_bind <| wp_orFail (fun _ => ?_) nofun
        exact Wp.wp_pure ⟨rfl, hm, by simpa using hr, _, ho⟩
  case h_3 m hd hf =>
    have hm : fs.metadata env.process true path = .ok m := by simpa [eq_comm] using hm
    exact Wp.wp_pure ⟨rfl, m, hm, hd, hf⟩
  case h_4 =>
    have hm : fs.metadata env.process true path = .error .notFound := by
      cases hm
      case inl hm => exact hm.symm
      case inr hm =>
        have ⟨fault, hk⟩ := hm
        exact absurd (Except.error.inj hk).symm CallFault.kind_ne.left
    refine Wp.wp_bind <| wp_observe fun _ => ?_
    split
    case h_1 => exact Wp.wp_throw rfl
    case h_2 => exact Wp.wp_pure ⟨rfl, hm⟩
  case h_5 => exact Wp.wp_throw rfl

-- A target is the canonical path, or the path itself when there is no link at it. There may still be
-- links on the way.
def Targets (env : Environment) (fs : FileSystem) (path target : FilePath) : Prop :=
  fs.canonicalize env.process path = .ok target ∨
    target = path ∧ fs.metadata env.process false path ≠ .ok .symlink

theorem resolveTarget_wp :
    wp (resolveTarget env path) (fun target s => s = fs ∧ Targets env fs path target)
      (fun _ s => s = fs) fs := by
  unfold resolveTarget
  refine Wp.wp_bind <| wp_observe fun hm => ?_
  split
  case h_1 =>
    refine Wp.wp_bind <| wp_observe fun hc => wp_orFail (fun ha => ⟨rfl, .inl ?_⟩) (fun _ => rfl)
    simpa [ha, eq_comm] using hc
  case h_2 m hl =>
    have hm : fs.metadata env.process false path = .ok m := by simpa [eq_comm] using hm
    exact Wp.wp_pure ⟨rfl, .inr ⟨rfl, fun h => hl (Except.ok.inj (hm.symm.trans h))⟩⟩
  case h_3 hm =>
    refine Wp.wp_pure ⟨rfl, .inr ⟨rfl, fun h => ?_⟩⟩
    cases hm
    case inl hm => exact absurd (hm.trans h) nofun
    case inr hm =>
      have ⟨fault, hk⟩ := hm
      exact absurd (Except.error.inj hk).symm CallFault.kind_ne.left
  case h_4 => exact Wp.wp_throw rfl

theorem setPermissions_wp {f : File} {mode : Nat} :
    wp (setPermissions env temporary mode)
      (fun _ s => s = fs.set temporary (some (.file { f with mode })))
      (fun _ s => s = fs.set temporary (some (.file f))) (fs.set temporary (some (.file f))) := by
  refine Wp.wp_bind <| wp_attempt (fun _ => wp_orFail nofun fun _ => rfl) (fun hs => ?_)
  obtain ⟨_, rfl⟩ := Prod.mk.inj (Except.ok.inj hs)
  exact wp_orFail (fun _ => FileSystem.update_set) nofun

theorem writeAll_wp {f : File} :
    wp (writeAll env temporary writer)
      (fun _ s => writer.error = none ∧
        s = fs.set temporary (some (.file { f with contents := f.contents ++ writer.bytes })))
      (fun _ s => ∃ f, s = fs.set temporary (some (.file f)))
      (fs.set temporary (some (.file f))) := by
  unfold wp writeAll
  cases env.faults.write
  case some fault => exact ⟨_, FileSystem.update_set⟩
  case none =>
    cases he : writer.error
    case some error => exact ⟨_, FileSystem.update_set⟩
    case none       => exact ⟨rfl, FileSystem.update_set⟩

-- A rename replaces the target and leaves no other trace of the temporary file.
theorem rename_set {f : File} (h : fs.entries temporary = none)
    (hr : (fs.set temporary (some (.file f))).rename env.process temporary target = .ok s) :
    ∃ place, fs.resolve env.process false target = .ok (.entry place) ∧
      s = fs.set place (some (.file f)) := by
  have ha : FileSystem.Alike (fs.set temporary (some (.file f))) fs := by
    have ha : FileSystem.Alike (fs.set temporary (some (.file f))) (.set _ temporary none) :=
      .set (by simp [FileSystem.Plain]) trivial
    rwa [FileSystem.set_set, FileSystem.set_self h] at ha
  unfold FileSystem.rename at hr
  split at hr <;> try contradiction
  case h_3 place hp =>
    split at hr <;> try contradiction
    refine ⟨place, FileSystem.resolve_alike ha hp, ?_⟩
    rw [FileSystem.unlink, FileSystem.set_set, FileSystem.set_self h, FileSystem.entries_set] at hr
    exact (Except.ok.inj hr).symm

-- A temporary file is all that is new while it is written.
theorem persist_wp {f : File} (h : fs.entries temporary = none) :
    wp (persist env temporary target writer)
      (fun _ s => writer.error = none ∧ ∃ place,
        fs.resolve env.process false target = .ok (.entry place) ∧
        s = fs.set place (some (.file { f with contents := f.contents ++ writer.bytes })))
      (fun _ s => ∃ f, s = fs.set temporary (some (.file f)))
      (fs.set temporary (some (.file f))) := by
  refine Wp.wp_bind <| Wp.wp_mono writeAll_wp (fun ⟨hw, hs⟩ => ?_) id
  subst hs
  refine Wp.wp_bind <| wp_observe fun _ => ?_
  refine Wp.wp_bind <| wp_orFail (fun _ => ?_) fun _ => ⟨_, rfl⟩
  refine Wp.wp_bind <| wp_attempt (fun _ => wp_orFail nofun fun _ => ⟨_, rfl⟩) fun hr => ?_
  refine wp_orFail (fun _ => ⟨hw, rename_set h ?_⟩) nofun
  cases hs : FileSystem.rename _ _ _ _ <;> simp [hs, Except.map] at hr
  exact congrArg _ hr

theorem publish_wp {f : File} (h : fs.entries temporary = none) :
    wp (publish env temporary mode target writer)
      (fun _ s => writer.error = none ∧ ∃ place,
        fs.resolve env.process false target = .ok (.entry place) ∧
        s = fs.set place (some (.file
          { contents := f.contents ++ writer.bytes, mode := mode.getD f.mode })))
      (fun _ s => ∃ f, s = fs.set temporary (some (.file f)))
      (fs.set temporary (some (.file f))) := by
  cases mode
  case none      => exact persist_wp h
  case some mode =>
    refine Wp.wp_bind <| Wp.wp_mono setPermissions_wp (fun hs => ?_) fun hs => ⟨f, hs⟩
    subst hs
    exact persist_wp h

theorem dropping_wp {m : Save Unit} {Q : Unit → FileSystem → Prop}
    (h : wp m Q (fun e s => E e (s.unlink temporary)) s) : wp (dropping env temporary m) Q E s := by
  unfold wp at h ⊢
  unfold dropping
  cases hm : m s
  all_goals rw [hm] at h
  case ok    => exact h
  case error => simpa only [env.tempfiles.removed] using h

-- The one case in which a file is saved in place: its directory may not be written to.
def Denied (env : Environment) (fs : FileSystem) (mode : Option Nat) (target : FilePath) : Prop :=
  mode.isSome ∧ fs.access env.process (parentDir target) = .error .permissionDenied

-- A save which replaced its target, in a directory which could be written to.
structure Published (env : Environment) (fs : FileSystem) (mode : Option Nat) (target : FilePath)
    (writer : FileWriter) (s : FileSystem) : Prop where
  access   : ∃ d, fs.access env.process (parentDir target) = .ok d
  complete : writer.error = none
  set      : ∃ place, fs.resolve env.process false target = .ok (.entry place) ∧
    s = fs.set place (some (.file
      { contents := writer.bytes, mode := mode.getD (createMode env mode) }))

theorem replace_wp :
    wp (replace env mode path writer)
      (fun _ s => ∃ target, Targets env fs path target ∧
        (Published env fs mode target writer s ∨ Denied env fs mode target))
      (fun _ s => s = fs ∨ ∃ target, Targets env fs path target ∧ Denied env fs mode target)
      fs := by
  refine Wp.wp_bind <| Wp.wp_mono resolveTarget_wp (fun {target _} ⟨hs, ht⟩ => ?_) .inl
  obtain rfl := hs.symm
  refine Wp.wp_bind <| wp_attempt (fun {kind} hf => ?_) fun {temporary s'} hc => ?_
  case refine_2 =>
    have ⟨ha, hn, hs⟩ := env.tempfiles.created hc
    subst hs
    split
    case h_2 | h_3 => contradiction
    case h_1 heq =>
      cases heq
      refine dropping_wp <| Wp.wp_mono (publish_wp hn) (fun hp => ?_) fun hf => .inl ?_
      · exact ⟨target, ht, .inl { access := ha, complete := hp.left, set := hp.right }⟩
      · have ⟨f, hs⟩ := hf
        rw [hs, FileSystem.unlink, FileSystem.set_set, FileSystem.set_self hn]
  case refine_1 =>
    split
    case h_1 => contradiction
    case h_3 => exact Wp.wp_throw (.inl rfl)
    case h_2 heq =>
      have hk := Except.error.inj heq
      have ha : fs.access env.process (parentDir target) = .error .permissionDenied := by
        cases hf
        case inl hf =>
          cases env.tempfiles.refused hf
          case inl ha => exact hk ▸ ha
          case inr ha => simp [hk] at ha
        case inr hf =>
          have ⟨fault, hf⟩ := hf
          exact absurd (hf.symm.trans hk) CallFault.kind_ne.right
      exact Wp.wp_of_forall (fun _ _ => ⟨target, ht, .inr ⟨rfl, ha⟩⟩)
        fun _ _ => .inr ⟨target, ht, rfl, ha⟩

-- The target is where the path leads to.
theorem Targets.resolve (t : Targets env fs path target)
    (h : fs.resolve env.process false target = .ok (.entry place)) :
    fs.resolve env.process true path = .ok (.entry place) := by
  cases t
  case inr t =>
    obtain ⟨rfl, hl⟩ := t
    exact FileSystem.resolve_of_noLink h hl
  case inl t =>
    cases FileSystem.resolve_canonicalize t
    case inl hc =>
      have ⟨_, _, hr, hc⟩ := hc
      exact Except.ok.inj (hc.symm.trans h) ▸ hr
    case inr hc =>
      have ⟨_, _, hn⟩ := hc
      exact absurd h hn

-- A file which was found has a target, too.
theorem Targets.exists_place {mode : Nat} (t : Targets env fs path target)
    (h : fs.metadata env.process true path = .ok (.file mode)) :
    ∃ place, fs.resolve env.process false target = .ok (.entry place) := by
  have ⟨place, _, hr, _⟩ := FileSystem.metadata_eq_file h
  cases t
  case inl t =>
    cases FileSystem.resolve_canonicalize t
    case inl hc =>
      have ⟨place, _, _, hc⟩ := hc
      exact ⟨place, hc⟩
    case inr hc =>
      have ⟨_, hd, _⟩ := hc
      exact absurd (hr.symm.trans hd) (by simp)
  case inr t =>
    obtain ⟨rfl, hl⟩ := t
    have ⟨hn, hw⟩ := FileSystem.resolve_eq_ok_iff.mp hr
    have ⟨r, hw⟩ := hw.nofollow
    have hf := FileSystem.resolve_eq_ok_iff.mpr ⟨hn, hw⟩
    have hr' := FileSystem.resolve_of_noLink hf hl
    exact ⟨place, Except.ok.inj (hr'.symm.trans hr) ▸ hf⟩

-- The directory in which the temporary file is created is the one in which the target is.
theorem access_parentDir (h : fs.resolve env.process false target = .ok (.entry place))
    (hw : env.process.refuses place.fst .write = none) :
    fs.access env.process (parentDir target) = .ok place.fst := by
  have ⟨hn, h⟩ := FileSystem.resolve_eq_ok_iff.mp h
  have ⟨_, hs, _⟩ := h.of_entry
  have hr : fs.resolve env.process true (parentDir target) = .ok (.directory place.fst) := by
    refine FileSystem.resolve_eq_ok_iff.mpr ?_
    rw [← List.dropLast_concat_getLast hn] at h
    have hd := h.dropLast
    dsimp only [parentDir]
    split
    case isFalse hn => exact ⟨hn, hd⟩
    case isTrue hn =>
      rw [hn] at h hd
      have ⟨hl, hs⟩ := h.start
      obtain ⟨limit, hl⟩ := Nat.exists_eq_succ_of_ne_zero (Nat.pos_iff_ne_zero.mp hl)
      have he : target.start = place.fst := by
        simpa [FileSystem.walk] using FileSystem.walk_of_walks hd
      rw [hl, ← he]
      exact ⟨by simp, .dot hs .done⟩
  simp [FileSystem.access, hr, hs, hw]

-- A regular file, or nothing, in a directory which may be written to.
structure Regular (env : Environment) (fs : FileSystem) (path : FilePath) : Prop where
  plain    : ∀ {place}, fs.resolve env.process true path = .ok (.entry place) →
    FileSystem.Plain (fs.entries place)
  writable : ∀ {place}, fs.resolve env.process true path = .ok (.entry place) →
    env.process.refuses place.fst .write = none

theorem Regular.not_special (hr : Regular env fs path) : ¬Finds env fs path .special := by
  intro ⟨m, hm, hd, hf⟩
  cases FileSystem.metadata_eq_ok hm
  case inl h => exact hd h
  case inr h =>
    have ⟨place, node, hp, he, hn⟩ := h
    have h := hr.plain hp
    rw [he] at h
    cases node
    case file f => exact hf _ hn.symm
    all_goals contradiction

theorem Regular.not_denied {mode : Nat} (hr : Regular env fs path)
    (hf : fs.metadata env.process true path = .ok (.file mode)) (t : Targets env fs path target) :
    ¬Denied env fs (some mode) target := by
  intro hd
  have ⟨place, hp⟩ := t.exists_place hf
  have ha := access_parentDir hp (hr.writable (t.resolve hp))
  exact absurd (ha.symm.trans hd.right) nofun

-- What a save leaves behind when it succeeds. A file which was there before keeps its mode.
structure Saved (env : Environment) (fs : FileSystem) (path : FilePath) (writer : FileWriter)
    (s : FileSystem) : Prop where
  complete : writer.error = none
  set      : ∃ place mode, fs.resolve env.process true path = .ok (.entry place) ∧
    s = fs.set place (some (.file { contents := writer.bytes, mode })) ∧
    ∀ f, fs.entries place = some (.file f) → mode = f.mode

theorem Published.saved {mode : Option Nat} (hp : Published env fs mode target writer s)
    (t : Targets env fs path target)
    (hm : ∀ {place f}, fs.resolve env.process true path = .ok (.entry place) →
      fs.entries place = some (.file f) → mode = some f.mode) :
    Saved env fs path writer s := by
  have ⟨place, hr, hs⟩ := hp.set
  have hr := t.resolve hr
  exact {
    complete := hp.complete
    set      := ⟨place, _, hr, hs, fun f hf => by rw [hm hr hf, Option.getD_some]⟩
  }

theorem writeWith_wp (hr : Regular env fs path) :
    wp (writeWith env path writer) (fun _ s => Saved env fs path writer s) (fun _ s => s = fs) fs := by
  refine Wp.wp_bind <| Wp.wp_mono inspect_wp (fun {d _} ⟨hs, hf⟩ => ?_) id
  obtain rfl := hs.symm
  cases d
  case special => exact absurd hf hr.not_special
  case file mode =>
    refine Wp.wp_mono replace_wp (fun ⟨target, ht, h⟩ => ?_) fun h => ?_
    case refine_2 =>
      refine h.resolve_right fun ⟨target, ht, hd⟩ => hr.not_denied hf.left ht hd
    case refine_1 =>
      refine (h.resolve_right (hr.not_denied hf.left ht)).saved ht fun {place f} hp he => ?_
      have hm := hf.left
      rw [FileSystem.metadata_entry hp, he] at hm
      exact congrArg some (Metadata.file.inj (Except.ok.inj hm)).symm
  case new =>
    refine Wp.wp_mono replace_wp (fun ⟨target, ht, h⟩ => ?_) fun h => ?_
    case refine_2 =>
      exact h.resolve_right fun ⟨_, _, hd⟩ => absurd hd.left nofun
    case refine_1 =>
      refine (h.resolve_right fun hd => absurd hd.left nofun).saved ht fun {place f} hp he => ?_
      have hm : fs.metadata env.process true path = .error .notFound := hf
      rw [FileSystem.metadata_entry hp, he] at hm
      contradiction

-- The environment in which nothing goes wrong but for what the file system refuses.
def quiet (env : Environment) : Environment :=
  { env with faults := {} }

theorem wp_observe_none {f : FileSystem → Except ErrorKind α}
    {Q : Except ErrorKind α → FileSystem → Prop} (h : Q (f s) s) : wp (observe none f) Q E s := by
  unfold wp observe attempt
  cases hf : f s <;> simpa [hf, Except.map] using h

theorem wp_attempt_none {a : α} {s' : FileSystem}
    {f : FileSystem → Except ErrorKind (α × FileSystem)}
    {Q : Except ErrorKind α → FileSystem → Prop} (hf : f s = .ok (a, s')) (h : Q (.ok a) s') :
    wp (attempt none f) Q E s := by
  unfold wp attempt
  simpa [hf] using h

theorem inspect_quiet (hf : Finds env fs path d)
    (hn : d = .new → fs.metadata env.process false path ≠ .ok .symlink) :
    wp (inspect (quiet env) path) (fun d' s => d' = d ∧ s = fs) (fun _ _ => False) fs := by
  refine Wp.wp_bind <| wp_observe_none ?_
  dsimp only [quiet]
  cases d
  case special =>
    have ⟨m, hm, hd, hf⟩ := hf
    rw [hm]
    cases m
    case directory => exact absurd rfl hd
    case file mode => exact absurd rfl (hf mode)
    all_goals exact ⟨rfl, rfl⟩
  case file mode =>
    have ⟨hm, hr, place, ho⟩ := hf
    simp only [hm, hr, Bool.false_eq_true, if_false]
    exact Wp.wp_bind <| wp_attempt_none ho <| Wp.wp_bind ⟨rfl, rfl⟩
  case new =>
    have hm : fs.metadata env.process true path = .error .notFound := hf
    rw [hm]
    refine Wp.wp_bind <| wp_observe_none ?_
    split
    case h_1 h => exact absurd h (hn rfl)
    case h_2   => exact ⟨rfl, rfl⟩

-- A check leaves everything as it is.
theorem checkDestination_wp :
    wp (checkDestination env path) (fun _ s => s = fs) (fun _ s => s = fs) fs := by
  refine Wp.wp_bind <| Wp.wp_mono inspect_wp (fun {d _} ⟨hs, _⟩ => ?_) id
  obtain rfl := hs.symm
  split
  case h_2 => exact rfl
  case h_1 =>
    refine Wp.wp_bind <| wp_observe fun _ => ?_
    split
    case h_2 | h_3 => exact rfl
    case h_1 =>
      refine Wp.wp_bind <| wp_observe fun _ => Wp.wp_bind <| wp_orFail (fun _ => rfl) fun _ => rfl

theorem checkDestination_quiet (hf : Finds env fs path d)
    (hn : d = .new → fs.metadata env.process false path ≠ .ok .symlink ∧
      ∃ dir, fs.access env.process (parentDir path) = .ok dir) :
    checkDestination (quiet env) path fs = .ok () fs := by
  have h : wp (checkDestination (quiet env) path) (fun _ s => s = fs) (fun _ _ => False) fs := by
    refine Wp.wp_bind <| Wp.wp_mono (inspect_quiet hf fun h => (hn h).left) (fun ⟨hd, hs⟩ => ?_) id
    obtain rfl := hs.symm
    subst hd
    split
    case h_2 => exact rfl
    case h_1 =>
      have ⟨_, dir, ha⟩ := hn rfl
      refine Wp.wp_bind <| wp_observe_none ?_
      have hm := FileSystem.metadata_of_access ha
      dsimp only [quiet]
      rw [hm]
      refine Wp.wp_bind <| wp_observe_none ?_
      rw [ha]
      exact rfl
  have ⟨_, _, hc, hs⟩ := Wp.exists_ok h
  exact hs ▸ hc

-- A path which is new is its own target.
theorem Targets.eq_path (t : Targets env fs path target) (hf : Finds env fs path .new) :
    target = path ∧ fs.metadata env.process false path ≠ .ok .symlink := by
  have hm : fs.metadata env.process true path = .error .notFound := hf
  refine t.resolve_left fun hc => ?_
  cases FileSystem.resolve_canonicalize hc
  case inl h =>
    have ⟨place, hn, hr, _⟩ := h
    rw [FileSystem.metadata_entry hr] at hm
    split at hm
    case h_1 he => exact hn he
    case h_2    => contradiction
  case inr h =>
    have ⟨_, hr, _⟩ := h
    simp [FileSystem.metadata, hr] at hm

-- What a save accepts is accepted by the check.
theorem writeWith_checked :
    wp (writeWith env path writer) (fun _ _ => checkDestination (quiet env) path fs = .ok () fs)
      (fun _ _ => True) fs := by
  refine Wp.wp_bind <| Wp.wp_mono inspect_wp (fun {d _} ⟨hs, hf⟩ => ?_) fun _ => trivial
  obtain rfl := hs.symm
  cases d
  case special | file =>
    exact Wp.wp_of_forall (fun _ _ => checkDestination_quiet hf nofun) fun _ _ => trivial
  case new =>
    refine Wp.wp_mono replace_wp (fun ⟨target, ht, h⟩ => ?_) fun _ => trivial
    have hp := h.resolve_right fun hd => absurd hd.left nofun
    have ⟨he, hl⟩ := ht.eq_path hf
    exact checkDestination_quiet hf fun _ => ⟨hl, he ▸ hp.access⟩

-- The contents of a save are there after it, under the same path.
theorem Saved.readFile (hs : Saved env fs path writer s) (hr : Regular env fs path) :
    ∃ mode, s.readFile env.process path = some { contents := writer.bytes, mode } := by
  have ⟨place, mode, hp, hs, _⟩ := hs.set
  have ha : FileSystem.Alike fs s := hs ▸ .set (hr.plain hp) trivial
  have hp := FileSystem.resolve_alike ha hp
  refine ⟨mode, ?_⟩
  simp only [FileSystem.readFile, hp]
  rw [hs, FileSystem.entries_set]

-- A save either leaves everything as it was or replaces the contents of the file, and the check before
-- it changes nothing and agrees with it.
structure Atomic (env : Environment) (fs : FileSystem) (path : FilePath) (writer : FileWriter)
    (save : Save Unit) : Prop where
  failed  : Regular env fs path → ∀ {e s}, save fs = .error e s → s = fs
  saved   : Regular env fs path → ∀ {s}, save fs = .ok () s → Saved env fs path writer s ∧
    ∃ mode, s.readFile env.process path = some { contents := writer.bytes, mode }
  check   : wp (checkDestination env path) (fun _ s => s = fs) (fun _ s => s = fs) fs
  checked : ∀ {s}, save fs = .ok () s → checkDestination (quiet env) path fs = .ok () fs

theorem writeWith_atomic : Atomic env fs path writer (writeWith env path writer) where
  failed  := fun hr _ _ h => Wp.of_error (E := fun _ s => s = fs) (writeWith_wp hr) h
  saved   := fun hr _ h =>
    have hs := Wp.of_ok (Q := fun _ s => Saved env fs path writer s) (writeWith_wp hr) h
    ⟨hs, hs.readFile hr⟩
  check   := checkDestination_wp
  checked := fun h =>
    Wp.of_ok (Q := fun _ _ => checkDestination (quiet env) path fs = .ok () fs) writeWith_checked h

-- A closure may fail at any time. To write given contents is one which does not.
theorem atomic_write (contents : List UInt8) :
    Atomic env fs path { bytes := contents, error := none } (atomicWrite env path contents) ∧
      ∀ writer, Atomic env fs path writer (writeWith env path writer) :=
  ⟨writeWith_atomic, fun _ => writeWith_atomic⟩

-- Tries names until there is one which is not taken.
def tryNames (fs : FileSystem) (p : Process) (directory : FilePath) (stem : String) (mode : Nat) :
    (names : List String) → Except ErrorKind (Place × FileSystem)
  | []            => .error .alreadyExists
  | name :: names =>
    match fs.createNew p directory (stem ++ name) mode with
    | .error .alreadyExists => tryNames fs p directory stem mode names
    | result                => result

section Names

variable {p : Process} {directory : FilePath} {name stem : String} {m : Nat} {names : List String}
  {kind : ErrorKind}

theorem createNew_eq_ok (h : fs.createNew p directory name m = .ok (place, s)) :
    (∃ d, fs.access p directory = .ok d) ∧ fs.entries place = none ∧
      s = fs.set place (some (.file { contents := [], mode := m })) := by
  unfold FileSystem.createNew at h
  split at h <;> try contradiction
  case h_2 d ha =>
    split at h <;> try contradiction
    case isFalse hn =>
      cases h
      exact ⟨⟨d, ha⟩, by simpa using hn, rfl⟩

theorem createNew_eq_error (h : fs.createNew p directory name m = .error kind) :
    fs.access p directory = .error kind ∨ kind = .alreadyExists := by
  unfold FileSystem.createNew at h
  split at h
  case h_1 ha => exact .inl (Except.error.inj h ▸ ha)
  case h_2 =>
    split at h <;> try contradiction
    exact .inr (Except.error.inj h).symm

theorem tryNames_eq_ok (h : tryNames fs p directory stem m names = .ok (place, s)) :
    (∃ d, fs.access p directory = .ok d) ∧ fs.entries place = none ∧
      s = fs.set place (some (.file { contents := [], mode := m })) := by
  induction names
  case nil => contradiction
  case cons name names hi =>
    unfold tryNames at h
    split at h
    case h_1 => exact hi h
    case h_2 => exact createNew_eq_ok h

theorem tryNames_eq_error (h : tryNames fs p directory stem m names = .error kind) :
    fs.access p directory = .error kind ∨ kind = .alreadyExists := by
  induction names
  case nil => exact .inr (Except.error.inj h).symm
  case cons name names hi =>
    unfold tryNames at h
    split at h
    case h_1 => exact hi h
    case h_2 => exact createNew_eq_error h

end Names

def tempfiles (names : List String) : Tempfiles where
  createIn fs p directory stem mode := tryNames fs p directory stem mode names
  remove                            := FileSystem.unlink
  created                           := tryNames_eq_ok
  refused                           := tryNames_eq_error
  removed                           := rfl

-- A file and a link to it.
def linked : FileSystem where
  entries := fun place =>
    if place = (0, "saved") then
      some (.file { contents := [1, 2], mode := 0o644 })
    else if place = (0, "link") then
      some (.symlink false ["saved"])
    else
      none
  parent  := id
  root    := 0

def anyone (faults : Faults) : Environment where
  process :=
    {
      refuses       := fun _ _ => none
      refusesFile   := fun _ _ => none
      refusesRename := fun _ _ => none
      limit         := 8
    }
  umask     := 0o022
  tempfiles := tempfiles ["a"]
  faults    := faults

def link : FilePath where
  start := 0
  names := ["link"]

theorem regular_linked {faults : Faults} : Regular (anyone faults) linked link := by
  have hr : linked.resolve (anyone faults).process true link = .ok (.entry (0, "saved")) := rfl
  constructor
  all_goals
    intro place hp
    obtain rfl := Resolved.entry.inj (Except.ok.inj (hr.symm.trans hp))
  case plain    => trivial
  case writable => rfl

-- A save through the link, and one for which there is no more space half way.
theorem atomic_write_linked :
    (∃ s mode, atomicWrite (anyone {}) link [3] linked = .ok () s ∧
      s.readFile (anyone {}).process link = some { contents := [3], mode }) ∧
    ∃ e, atomicWrite (anyone { write := some (1, .storageFull) }) link [3, 4] linked =
      .error e linked := by
  constructor
  case left =>
    have ⟨s, h⟩ : ∃ s, atomicWrite (anyone {}) link [3] linked = .ok () s := ⟨_, rfl⟩
    have ⟨_, mode, hm⟩ := (atomic_write [3]).left.saved regular_linked h
    exact ⟨s, mode, h, hm⟩
  case right =>
    have ⟨e, s, h⟩ : ∃ e s, atomicWrite (anyone { write := some (1, .storageFull) }) link [3, 4]
        linked = .error e s := ⟨_, _, rfl⟩
    exact ⟨e, h.trans (congrArg _ ((atomic_write [3, 4]).left.failed regular_linked h))⟩

end Persistence
