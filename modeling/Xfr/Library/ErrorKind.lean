import Mathlib.Tactic.Common

-- The kinds of errors which programs get from the operating system.
inductive ErrorKind
  | notFound
  | permissionDenied
  | alreadyExists
  | wouldBlock
  | notADirectory
  | isADirectory
  | readOnlyFilesystem
  | filesystemLoop
  | storageFull
  | invalidInput
  | writeZero
  | interrupted
  | unsupported
  | other
  deriving DecidableEq

def ErrorKind.description : ErrorKind → String
  | notFound           => "entity not found"
  | permissionDenied   => "permission denied"
  | alreadyExists      => "entity already exists"
  | wouldBlock         => "operation would block"
  | notADirectory      => "not a directory"
  | isADirectory       => "is a directory"
  | readOnlyFilesystem => "read-only filesystem or storage medium"
  | filesystemLoop     => "filesystem loop or indirection limit (e.g. symlink loop)"
  | storageFull        => "no storage space"
  | invalidInput       => "invalid input parameter"
  | writeZero          => "write zero"
  | interrupted        => "operation interrupted"
  | unsupported        => "unsupported"
  | other              => "other error"
