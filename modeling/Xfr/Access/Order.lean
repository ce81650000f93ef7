import Xfr.Library.Fold
import Xfr.Access.Decision

open Utf8 (Text)

namespace Acl

variable {ν ε α : Type*} {net : IpNetwork ν ε} {acl acl' : Acl ν}

-- What a line of a file or a rule of the command line does is the same for any rules before it.
inductive Edit (f : Acl ν → Except (AclError ε) (Acl ν)) : Prop
  | fails (e : AclError ε) (h : ∀ acl, f acl = .error e)
  | skips (h : ∀ acl, f acl = .ok acl)
  | allows (n : ν) (h : ∀ acl, f acl = .ok (acl.addAllow n))
  | denies (n : ν) (h : ∀ acl, f acl = .ok (acl.addDeny n))

theorem edit_addLine (line : Text) : Edit (addLine net · line) := by
  by_cases hs : Utf8.trim line = [] ∨ (Utf8.trim line).head? = some '#'
  case pos => exact .skips fun _ => if_pos hs
  case neg =>
    have h (acl : Acl ν) := show addLine net acl line = _ from if_neg hs
    split at h
    case h_1 directive text _ =>
      cases hn : parseNetwork net text
      case error e => exact .fails e fun acl => (h acl).trans (by rw [hn]; rfl)
      case ok n =>
        simp only [hn, bind, Except.bind] at h
        by_cases ha : directive.map Char.toLower = "allow".toList
        case pos => exact .allows n fun acl => (h acl).trans (if_pos ha)
        case neg =>
          by_cases hd : directive.map Char.toLower = "deny".toList
          case pos => exact .denies n fun acl => (h acl).trans <| (if_neg ha).trans (if_pos hd)
          case neg =>
            exact .fails (.unknownDirective directive)
              fun acl => (h acl).trans <| (if_neg ha).trans (if_neg hd)
    case h_2 => exact .fails _ h

theorem edit_allow (text : Text) : Edit fun acl => acl.addAllow <$> parseNetwork net text := by
  cases h : parseNetwork net text
  case error e => exact .fails e fun _ => rfl
  case ok n    => exact .allows n fun _ => rfl

theorem edit_deny (text : Text) : Edit fun acl => acl.addDeny <$> parseNetwork net text := by
  cases h : parseNetwork net text
  case error e => exact .fails e fun _ => rfl
  case ok n    => exact .denies n fun _ => rfl

theorem Equiv.addAllow {n : ν} (h : acl.Equiv acl') : (acl.addAllow n).Equiv (acl'.addAllow n) :=
  ⟨h.allow.append_right [n], h.deny⟩

theorem Equiv.addDeny {n : ν} (h : acl.Equiv acl') : (acl.addDeny n).Equiv (acl'.addDeny n) :=
  ⟨h.allow, h.deny.append_right [n]⟩

theorem addAllow_swap {n m : ν} :
    ((acl.addAllow n).addAllow m).Equiv ((acl.addAllow m).addAllow n) where
  allow := by
    simp only [addAllow, List.append_assoc, List.singleton_append]
    exact (List.Perm.swap m n []).append_left acl.allow
  deny  := .refl _

theorem addDeny_swap {n m : ν} : ((acl.addDeny n).addDeny m).Equiv ((acl.addDeny m).addDeny n) where
  allow := .refl _
  deny  := by
    simp only [addDeny, List.append_assoc, List.singleton_append]
    exact (List.Perm.swap m n []).append_left acl.deny

section Edits

variable {f : Acl ν → α → Except (AclError ε) (Acl ν)} (hf : ∀ a, Edit (f · a))
include hf

theorem uniform_of_edit : Except.Uniform f Equiv := by
  intro acl acl₁ acl' a he ha
  cases hf a
  case fails e h => cases (h acl).symm.trans ha
  case skips h =>
    obtain rfl := Except.ok.inj <| (h acl).symm.trans ha
    exact ⟨acl', h acl', he⟩
  case allows n h =>
    obtain rfl := Except.ok.inj <| (h acl).symm.trans ha
    exact ⟨_, h acl', he.addAllow⟩
  case denies n h =>
    obtain rfl := Except.ok.inj <| (h acl).symm.trans ha
    exact ⟨_, h acl', he.addDeny⟩

theorem commutes_of_edit : Except.Commutes f Equiv := by
  intro acl acl₁ acl₂ a a' ha ha'
  cases hf a
  case fails e h => cases (h acl).symm.trans ha
  case skips h =>
    obtain rfl := Except.ok.inj <| (h acl).symm.trans ha
    exact ⟨acl₂, acl₂, ha', h acl₂, .refl _⟩
  case allows n h =>
    obtain rfl := Except.ok.inj <| (h acl).symm.trans ha
    cases hf a'
    case fails e h'   => cases (h' _).symm.trans ha'
    case skips h'     => cases (h' _).symm.trans ha'; exact ⟨_, _, h' _, h _, .refl _⟩
    case allows n' h' => cases (h' _).symm.trans ha'; exact ⟨_, _, h' _, h _, addAllow_swap⟩
    case denies n' h' => cases (h' _).symm.trans ha'; exact ⟨_, _, h' _, h _, .refl _⟩
  case denies n h =>
    obtain rfl := Except.ok.inj <| (h acl).symm.trans ha
    cases hf a'
    case fails e h'   => cases (h' _).symm.trans ha'
    case skips h'     => cases (h' _).symm.trans ha'; exact ⟨_, _, h' _, h _, .refl _⟩
    case allows n' h' => cases (h' _).symm.trans ha'; exact ⟨_, _, h' _, h _, .refl _⟩
    case denies n' h' => cases (h' _).symm.trans ha'; exact ⟨_, _, h' _, h _, addDeny_swap⟩

theorem foldlM_edit_perm {xs ys : List α} {acl₁ : Acl ν} (hp : xs.Perm ys) (he : acl.Equiv acl')
    (h : xs.foldlM f acl = .ok acl₁) : ∃ acl₂, ys.foldlM f acl' = .ok acl₂ ∧ acl₁.Equiv acl₂ :=
  Except.foldlM_perm Equiv.refl (fun _ _ _ => Equiv.trans) (uniform_of_edit hf)
    (commutes_of_edit hf) hp he h

end Edits

end Acl

namespace AclConfig

variable {ν ε : Type*} {net : IpNetwork ν ε} {acl : Acl ν} {c c' : AclConfig}

-- The same lines of a file and the same rules of the command line, in another order.
inductive Reordered : AclConfig → AclConfig → Prop
  | rules {allow allow' deny deny'} (ha : allow.Perm allow') (hd : deny.Perm deny') :
    Reordered ⟨allow, deny, none⟩ ⟨allow', deny', none⟩
  | file {allow allow' deny deny' content content'} (ha : allow.Perm allow')
    (hd : deny.Perm deny') (hf : (content.splitOn '\n').Perm (content'.splitOn '\n')) :
    Reordered ⟨allow, deny, some content⟩ ⟨allow', deny', some content'⟩

theorem build_eq_ok : c.build net = .ok acl ↔ ∃ acl₁ acl₂,
    c.file.elim (.ok .new) (Acl.fromFile net) = .ok acl₁ ∧
    c.allow.foldlM (fun acl text => acl.addAllow <$> Acl.parseNetwork net text) acl₁ = .ok acl₂ ∧
    c.deny.foldlM (fun acl text => acl.addDeny <$> Acl.parseNetwork net text) acl₂ = .ok acl := by
  refine Except.bind_eq_ok.trans <| exists_congr fun acl₁ => ?_
  rw [exists_and_left]
  exact and_congr_right fun _ => Except.bind_eq_ok

theorem Reordered.isAllowed (h : Reordered c c') (hb : c.build net = .ok acl) :
    ∃ acl', c'.build net = .ok acl' ∧ ∀ ip, acl'.isAllowed net ip = acl.isAllowed net ip := by
  have ⟨acl₁, acl₂, hf, ha, hd⟩ := build_eq_ok.mp hb
  have ⟨acl₁', hf', he₁⟩ : ∃ acl₁', c'.file.elim (.ok .new) (Acl.fromFile net) = .ok acl₁' ∧
      acl₁.Equiv acl₁' := by
    cases h
    case rules => exact ⟨acl₁, hf, .refl _⟩
    case file hp => exact Acl.foldlM_edit_perm Acl.edit_addLine hp (.refl _) hf
  have ⟨hpa, hpd⟩ : c.allow.Perm c'.allow ∧ c.deny.Perm c'.deny := by
    cases h <;> exact ⟨‹_›, ‹_›⟩
  have ⟨acl₂', ha', he₂⟩ := Acl.foldlM_edit_perm Acl.edit_allow hpa he₁ ha
  have ⟨acl', hd', he⟩ := Acl.foldlM_edit_perm Acl.edit_deny hpd he₂ hd
  exact ⟨acl', build_eq_ok.mpr ⟨acl₁', acl₂', hf', ha', hd'⟩, fun _ => he.isAllowed⟩

end AclConfig
