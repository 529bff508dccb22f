/-!
# Rights

What may be done with a descriptor.  A `Right` is one operation, a `Rights` a mask of them in which
right number `i` is bit `i`; bits that name no right are kept as they are.  `Rights.granted` gives
the masks a new descriptor gets from its filetype and the access mode it is opened with.
-/

namespace GuestHost

/-- An operation that a descriptor may allow, in the order of the bits of a mask. -/
inductive Right where
  | fdDatasync
  | fdRead
  | fdSeek
  | fdFdstatSetFlags
  | fdSync
  | fdTell
  | fdWrite
  | fdAdvise
  | fdAllocate
  | pathCreateDirectory
  | pathCreateFile
  | pathLinkSource
  | pathLinkTarget
  | pathOpen
  | fdReaddir
  | pathReadlink
  | pathRenameSource
  | pathRenameTarget
  | pathFilestatGet
  | pathFilestatSetSize
  | pathFilestatSetTimes
  | fdFilestatGet
  | fdFilestatSetSize
  | fdFilestatSetTimes
  | pathSymlink
  | pathRemoveDirectory
  | pathUnlinkFile
  | pollFdReadwrite
  | sockShutdown
  | sockAccept
  deriving DecidableEq, Repr, Inhabited

namespace Right

/-- The name of a right in the WASI headers. -/
def name : Right → String
  | fdDatasync => "FD_DATASYNC"
  | fdRead => "FD_READ"
  | fdSeek => "FD_SEEK"
  | fdFdstatSetFlags => "FD_FDSTAT_SET_FLAGS"
  | fdSync => "FD_SYNC"
  | fdTell => "FD_TELL"
  | fdWrite => "FD_WRITE"
  | fdAdvise => "FD_ADVISE"
  | fdAllocate => "FD_ALLOCATE"
  | pathCreateDirectory => "PATH_CREATE_DIRECTORY"
  | pathCreateFile => "PATH_CREATE_FILE"
  | pathLinkSource => "PATH_LINK_SOURCE"
  | pathLinkTarget => "PATH_LINK_TARGET"
  | pathOpen => "PATH_OPEN"
  | fdReaddir => "FD_READDIR"
  | pathReadlink => "PATH_READLINK"
  | pathRenameSource => "PATH_RENAME_SOURCE"
  | pathRenameTarget => "PATH_RENAME_TARGET"
  | pathFilestatGet => "PATH_FILESTAT_GET"
  | pathFilestatSetSize => "PATH_FILESTAT_SET_SIZE"
  | pathFilestatSetTimes => "PATH_FILESTAT_SET_TIMES"
  | fdFilestatGet => "FD_FILESTAT_GET"
  | fdFilestatSetSize => "FD_FILESTAT_SET_SIZE"
  | fdFilestatSetTimes => "FD_FILESTAT_SET_TIMES"
  | pathSymlink => "PATH_SYMLINK"
  | pathRemoveDirectory => "PATH_REMOVE_DIRECTORY"
  | pathUnlinkFile => "PATH_UNLINK_FILE"
  | pollFdReadwrite => "POLL_FD_READWRITE"
  | sockShutdown => "SOCK_SHUTDOWN"
  | sockAccept => "SOCK_ACCEPT"

/-- Every right, in the order of the bits. -/
def all : List Right :=
  [fdDatasync, fdRead, fdSeek, fdFdstatSetFlags, fdSync, fdTell, fdWrite, fdAdvise, fdAllocate,
    pathCreateDirectory, pathCreateFile, pathLinkSource, pathLinkTarget, pathOpen, fdReaddir,
    pathReadlink, pathRenameSource, pathRenameTarget, pathFilestatGet, pathFilestatSetSize,
    pathFilestatSetTimes, fdFilestatGet, fdFilestatSetSize, fdFilestatSetTimes, pathSymlink,
    pathRemoveDirectory, pathUnlinkFile, pollFdReadwrite, sockShutdown, sockAccept]

/-- The place of a right in a mask. -/
def bit (r : Right) : Nat := r.ctorIdx

theorem map_bit_all : all.map bit = List.range 30 := by decide

theorem mem_all (r : Right) : r ∈ all := by cases r <;> decide

end Right

/-- A mask of rights. -/
structure Rights where
  bits : UInt64
  deriving DecidableEq, Repr, Inhabited

namespace Rights

/-- No right at all. -/
def none : Rights := ⟨0⟩

/-- The mask of a single right. -/
def single (r : Right) : Rights := ⟨1 <<< UInt64.ofNat r.bit⟩

/-- The rights of either mask. -/
def union (a b : Rights) : Rights := ⟨a.bits ||| b.bits⟩

/-- The mask of the listed rights. -/
def ofList (rs : List Right) : Rights := rs.foldl (fun mask r => mask.union (single r)) none

/-- The mask without the rights of another. -/
def without (a b : Rights) : Rights := ⟨a.bits &&& ~~~b.bits⟩

/-- Whether every bit of `b` is set in `a`. -/
def contains (a b : Rights) : Bool := a.bits &&& b.bits == b.bits

/-- The named rights of a mask, from bit 0 up. -/
def toList (a : Rights) : List Right := Right.all.filter fun r => a.contains (single r)

/-- The mask of every named right. -/
def all : Rights := ofList Right.all

open GuestHost.Right

/-- The base rights of a standard stream. -/
def standardStream : Rights :=
  ofList [fdRead, fdWrite, fdSeek, fdTell, fdSync, fdDatasync, fdFdstatSetFlags]

/-- The base rights of a regular file. -/
def regularFile : Rights :=
  ofList [fdDatasync, fdRead, fdSeek, fdFdstatSetFlags, fdSync, fdTell, fdWrite, fdAdvise,
    fdAllocate, fdFilestatGet, fdFilestatSetSize, fdFilestatSetTimes, pollFdReadwrite]

/-- The base rights of a directory. -/
def directory : Rights :=
  ofList [fdFdstatSetFlags, fdSync, fdAdvise, pathCreateDirectory, pathCreateFile, pathLinkSource,
    pathLinkTarget, pathOpen, fdReaddir, pathReadlink, pathRenameSource, pathRenameTarget,
    pathFilestatGet, pathFilestatSetSize, pathFilestatSetTimes, fdFilestatGet, fdFilestatSetTimes,
    pathSymlink, pathUnlinkFile, pathRemoveDirectory, pollFdReadwrite]

/-- The base rights of a socket. -/
def socket : Rights :=
  ofList [fdRead, fdFdstatSetFlags, fdWrite, fdFilestatGet, pollFdReadwrite, sockShutdown]

theorem contains_none (a : Rights) : a.contains none := by
  simp [contains, none]

theorem contains_self (a : Rights) : a.contains a := by
  simp [contains]

theorem bits_all : all.bits = 0x3fffffff := by decide

theorem bits_standardStream : standardStream.bits = 127 := by decide

end Rights

/-- What kind of thing a descriptor stands for, in the order of the raw values. -/
inductive Filetype where
  /-- The kind is not known. -/
  | unknown
  /-- A block device. -/
  | blockDevice
  /-- A character device. -/
  | characterDevice
  /-- A directory. -/
  | directory
  /-- A regular file. -/
  | regularFile
  /-- A datagram socket. -/
  | socketDgram
  /-- A byte-stream socket. -/
  | socketStream
  /-- A symbolic link. -/
  | symbolicLink
  deriving DecidableEq, Repr, Inhabited

/-- The raw value of a filetype. -/
def Filetype.code (t : Filetype) : Nat := t.ctorIdx

/-- How a file is opened. -/
inductive AccessMode where
  /-- For reading only. -/
  | readOnly
  /-- For writing only. -/
  | writeOnly
  /-- For both. -/
  | readWrite
  deriving DecidableEq, Repr

/-- Without a mode a file is opened for reading and writing. -/
instance : Inhabited AccessMode := ⟨.readWrite⟩

/-- The raw value of an access mode. -/
def AccessMode.code (mode : AccessMode) : Nat := mode.ctorIdx

namespace Rights

/-- The base rights that a filetype has before the access mode takes any away. -/
def ofFiletype : Filetype → Rights
  | .characterDevice => standardStream
  | .regularFile => regularFile
  | .directory => directory
  | .socketDgram | .socketStream => socket
  | .blockDevice | .unknown | .symbolicLink => all

/-- The rights that descriptors derived from one of this filetype may have. -/
def inheritedFrom : Filetype → Rights
  | .characterDevice | .regularFile => none
  | .directory => directory.union regularFile
  | .socketDgram | .socketStream | .blockDevice | .unknown | .symbolicLink => all

/-- The rights that an access mode takes away. -/
def withheldBy : AccessMode → Rights
  | .readOnly => single .fdWrite
  | .writeOnly => single .fdRead
  | .readWrite => none

/-- The base and the inheriting rights of a new descriptor. -/
def granted (mode : AccessMode) (t : Filetype) : Rights × Rights :=
  ((ofFiletype t).without (withheldBy mode), inheritedFrom t)

end Rights

end GuestHost
