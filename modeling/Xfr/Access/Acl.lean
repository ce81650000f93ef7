import Mathlib.Data.List.Perm.Basic
import Xfr.Library.Whitespace
import Xfr.Access.Address

open Utf8 (Text)

-- What is used of networks, which come from a library.
structure IpNetwork (ν ε : Type*) where
  parse    : Text → Except ε ν
  display  : ν → Text
  contains : ν → IpAddr → Bool

inductive AclError (ε : Type*)
  | invalidLine (line : Text)
  | unknownDirective (directive : Text)
  | network (e : ε)

def AclError.message {ε : Type*} (display : ε → Text) : AclError ε → Text
  | invalidLine line           => "Invalid ACL line: ".toList ++ line
  | unknownDirective directive => "Unknown ACL directive: ".toList ++ directive
  | network e                  => display e

structure Acl (ν : Type*) where
  allow : List ν
  deny  : List ν

namespace Acl

variable {ν ε : Type*}

def new : Acl ν where
  allow := []
  deny  := []

def addAllow (acl : Acl ν) (n : ν) : Acl ν :=
  { acl with allow := acl.allow ++ [n] }

def addDeny (acl : Acl ν) (n : ν) : Acl ν :=
  { acl with deny := acl.deny ++ [n] }

section Parsing

variable (net : IpNetwork ν ε)

def parseNetwork (text : Text) : Except (AclError ε) ν :=
  (net.parse text).mapError .network

def fromRules (allow deny : List Text) : Except (AclError ε) (Acl ν) := do
  let allow ← allow.mapM (parseNetwork net)
  let deny  ← deny.mapM (parseNetwork net)
  return { allow, deny }

-- One line of a file. No letter outside of ASCII has a letter of a directive in lower case.
def addLine (acl : Acl ν) (line : Text) : Except (AclError ε) (Acl ν) :=
  let line := Utf8.trim line
  if line = [] ∨ line.head? = some '#' then .ok acl else
    match (line.splitOnP Char.isWhiteSpace).filter (· ≠ []) with
    | [directive, text] => do
      let network ← parseNetwork net text
      if directive.map Char.toLower = "allow".toList then
        return acl.addAllow network
      else if directive.map Char.toLower = "deny".toList then
        return acl.addDeny network
      else
        throw (.unknownDirective directive)
    | _ => .error (.invalidLine line)

-- A line which ends with a carriage return is trimmed later on.
def fromFile (content : Text) : Except (AclError ε) (Acl ν) :=
  (content.splitOn '\n').foldlM (addLine net) new

end Parsing

section Decision

variable (net : IpNetwork ν ε)

def isAllowed (acl : Acl ν) (ip : IpAddr) : Bool :=
  let ip := ip.normalize
  if acl.deny.any (net.contains · ip) then false
  else if acl.allow.isEmpty then true
  else acl.allow.any (net.contains · ip)

def isConfigured (acl : Acl ν) : Bool :=
  !acl.allow.isEmpty || !acl.deny.isEmpty

-- The rule which matched, for the log.
def matchedRule (acl : Acl ν) (ip : IpAddr) : Option Text :=
  let ip := ip.normalize
  match acl.deny.find? (net.contains · ip) with
  | some network => some ("deny ".toList ++ net.display network)
  | none =>
    match acl.allow.find? (net.contains · ip) with
    | some network => some ("allow ".toList ++ net.display network)
    | none         => none

end Decision

end Acl

-- The rules of the command line, and the content of the file if there is one.
structure AclConfig where
  allow : List Text
  deny  : List Text
  file  : Option Text

def AclConfig.build {ν ε : Type*} (net : IpNetwork ν ε) (c : AclConfig) :
    Except (AclError ε) (Acl ν) := do
  let acl ← c.file.elim (pure .new) (Acl.fromFile net)
  let acl ← c.allow.foldlM (fun acl text => acl.addAllow <$> Acl.parseNetwork net text) acl
  c.deny.foldlM (fun acl text => acl.addDeny <$> Acl.parseNetwork net text) acl
