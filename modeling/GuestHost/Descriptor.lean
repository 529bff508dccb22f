import GuestHost.Rights
import GuestHost.Stream

/-!
# Descriptors

A descriptor pairs a stream with the rights a guest has on it.  The three standard streams have
fixed places in a descriptor table and fixed names.
-/

namespace GuestHost

/-- What stands behind a guest's descriptor. -/
structure Descriptor where
  /-- The host descriptor that this one stands in for. -/
  fd : UInt32
  /-- The path as the guest sees it. -/
  mappedPath : String
  /-- The path on the host. -/
  realPath : String
  filetype : Filetype
  /-- What may be done with the descriptor. -/
  base : Rights
  /-- What may be done with descriptors derived from it. -/
  inheriting : Rights
  /-- Whether the guest gets the descriptor as a directory at start-up. -/
  preopen : Bool := false
  stream : Stream
  deriving DecidableEq, Repr, Inhabited

/-- One of the streams that every guest starts with. -/
inductive StandardStream where
  | stdin
  | stdout
  | stderr
  deriving DecidableEq, Repr, Inhabited

namespace StandardStream

/-- The place of a standard stream in a descriptor table. -/
def slot (s : StandardStream) : Nat := s.ctorIdx

/-- The path of a standard stream. -/
def name : StandardStream → String
  | stdin => "<stdin>"
  | stdout => "<stdout>"
  | stderr => "<stderr>"

end StandardStream

/-- The host descriptors that the standard streams stand in for. -/
structure StandardFds where
  stdin : UInt32 := 0
  stdout : UInt32 := 1
  stderr : UInt32 := 2
  deriving DecidableEq, Repr, Inhabited

namespace Descriptor

/-- The descriptor of a standard stream, which is open both ways as a character device. -/
def standard (s : StandardStream) (fd : UInt32) (stream : Stream) : Descriptor :=
  let (base, inheriting) := Rights.granted .readWrite .characterDevice
  { fd, mappedPath := s.name, realPath := s.name, filetype := .characterDevice, base, inheriting,
    stream }

/-- The descriptor of a regular file held in memory. -/
def file (fd : UInt32) (name : String) (contents : Bytes) (mode : AccessMode) : Descriptor :=
  let (base, inheriting) := Rights.granted mode .regularFile
  { fd, mappedPath := name, realPath := name, filetype := .regularFile, base, inheriting,
    stream := .file { contents } }

/-- Whether the descriptor has all of the required rights. -/
def allows (d : Descriptor) (base inheriting : Rights) : Bool :=
  d.base.contains base && d.inheriting.contains inheriting

/-- The descriptor with another stream behind it. -/
def withStream (d : Descriptor) (stream : Stream) : Descriptor := { d with stream }

end Descriptor

end GuestHost
