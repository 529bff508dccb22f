/-!
# Error numbers

The error numbers a WASI call hands back to the guest.  A guest's C library branches on the exact
values: the code of an error is its place in the list, from 0 for success to 76.
-/

namespace GuestHost

/-- The result of a WASI call as the guest sees it. -/
inductive Errno where
  /-- No error. -/
  | success
  /-- Argument list too long. -/
  | tooBig
  /-- Permission denied. -/
  | acces
  /-- Address in use. -/
  | addrinuse
  /-- Address not available. -/
  | addrnotavail
  /-- Address family not supported. -/
  | afnosupport
  /-- Resource unavailable, or operation would block. -/
  | again
  /-- Connection already in progress. -/
  | already
  /-- Bad file descriptor. -/
  | badf
  /-- Bad message. -/
  | badmsg
  /-- Device or resource busy. -/
  | busy
  /-- Operation canceled. -/
  | canceled
  /-- No child processes. -/
  | child
  /-- Connection aborted. -/
  | connaborted
  /-- Connection refused. -/
  | connrefused
  /-- Connection reset. -/
  | connreset
  /-- Resource deadlock would occur. -/
  | deadlk
  /-- Destination address required. -/
  | destaddrreq
  /-- Mathematics argument out of domain of function. -/
  | dom
  /-- Reserved. -/
  | dquot
  /-- File exists. -/
  | exist
  /-- Bad address. -/
  | fault
  /-- File too large. -/
  | fbig
  /-- Host is unreachable. -/
  | hostunreach
  /-- Identifier removed. -/
  | idrm
  /-- Illegal byte sequence. -/
  | ilseq
  /-- Operation in progress. -/
  | inprogress
  /-- Interrupted function. -/
  | intr
  /-- Invalid argument. -/
  | inval
  /-- I/O error. -/
  | io
  /-- Socket is connected. -/
  | isconn
  /-- Is a directory. -/
  | isdir
  /-- Too many levels of symbolic links. -/
  | loop
  /-- File descriptor value too large. -/
  | mfile
  /-- Too many links. -/
  | mlink
  /-- Message too large. -/
  | msgsize
  /-- Reserved. -/
  | multihop
  /-- Filename too long. -/
  | nametoolong
  /-- Network is down. -/
  | netdown
  /-- Connection aborted by network. -/
  | netreset
  /-- Network unreachable. -/
  | netunreach
  /-- Too many files open in system. -/
  | nfile
  /-- No buffer space available. -/
  | nobufs
  /-- No such device. -/
  | nodev
  /-- No such file or directory. -/
  | noent
  /-- Executable file format error. -/
  | noexec
  /-- No locks available. -/
  | nolck
  /-- Reserved. -/
  | nolink
  /-- Not enough space. -/
  | nomem
  /-- No message of the desired type. -/
  | nomsg
  /-- Protocol not available. -/
  | noprotoopt
  /-- No space left on device. -/
  | nospc
  /-- Function not supported. -/
  | nosys
  /-- The socket is not connected. -/
  | notconn
  /-- Not a directory or a symbolic link to a directory. -/
  | notdir
  /-- Directory not empty. -/
  | notempty
  /-- State not recoverable. -/
  | notrecoverable
  /-- Not a socket. -/
  | notsock
  /-- Not supported, or operation not supported on socket. -/
  | notsup
  /-- Inappropriate I/O control operation. -/
  | notty
  /-- No such device or address. -/
  | nxio
  /-- Value too large to be stored in data type. -/
  | overflow
  /-- Previous owner died. -/
  | ownerdead
  /-- Operation not permitted. -/
  | perm
  /-- Broken pipe. -/
  | pipe
  /-- Protocol error. -/
  | proto
  /-- Protocol not supported. -/
  | protonosupport
  /-- Protocol wrong type for socket. -/
  | prototype
  /-- Result too large. -/
  | range
  /-- Read-only file system. -/
  | rofs
  /-- Invalid seek. -/
  | spipe
  /-- No such process. -/
  | srch
  /-- Reserved. -/
  | stale
  /-- Connection timed out. -/
  | timedout
  /-- Text file busy. -/
  | txtbsy
  /-- Cross-device link. -/
  | xdev
  /-- Extension: Capabilities insufficient. -/
  | notcapable
  deriving DecidableEq, Repr, Inhabited

namespace Errno

/-- The raw value of an error. -/
def code (e : Errno) : Nat := e.ctorIdx

/-- The symbolic name of an error, in the spelling of C headers. -/
def name : Errno → String
  | success => "ESUCCESS"
  | tooBig => "E2BIG"
  | acces => "EACCES"
  | addrinuse => "EADDRINUSE"
  | addrnotavail => "EADDRNOTAVAIL"
  | afnosupport => "EAFNOSUPPORT"
  | again => "EAGAIN"
  | already => "EALREADY"
  | badf => "EBADF"
  | badmsg => "EBADMSG"
  | busy => "EBUSY"
  | canceled => "ECANCELED"
  | child => "ECHILD"
  | connaborted => "ECONNABORTED"
  | connrefused => "ECONNREFUSED"
  | connreset => "ECONNRESET"
  | deadlk => "EDEADLK"
  | destaddrreq => "EDESTADDRREQ"
  | dom => "EDOM"
  | dquot => "EDQUOT"
  | exist => "EEXIST"
  | fault => "EFAULT"
  | fbig => "EFBIG"
  | hostunreach => "EHOSTUNREACH"
  | idrm => "EIDRM"
  | ilseq => "EILSEQ"
  | inprogress => "EINPROGRESS"
  | intr => "EINTR"
  | inval => "EINVAL"
  | io => "EIO"
  | isconn => "EISCONN"
  | isdir => "EISDIR"
  | loop => "ELOOP"
  | mfile => "EMFILE"
  | mlink => "EMLINK"
  | msgsize => "EMSGSIZE"
  | multihop => "EMULTIHOP"
  | nametoolong => "ENAMETOOLONG"
  | netdown => "ENETDOWN"
  | netreset => "ENETRESET"
  | netunreach => "ENETUNREACH"
  | nfile => "ENFILE"
  | nobufs => "ENOBUFS"
  | nodev => "ENODEV"
  | noent => "ENOENT"
  | noexec => "ENOEXEC"
  | nolck => "ENOLCK"
  | nolink => "ENOLINK"
  | nomem => "ENOMEM"
  | nomsg => "ENOMSG"
  | noprotoopt => "ENOPROTOOPT"
  | nospc => "ENOSPC"
  | nosys => "ENOSYS"
  | notconn => "ENOTCONN"
  | notdir => "ENOTDIR"
  | notempty => "ENOTEMPTY"
  | notrecoverable => "ENOTRECOVERABLE"
  | notsock => "ENOTSOCK"
  | notsup => "ENOTSUP"
  | notty => "ENOTTY"
  | nxio => "ENXIO"
  | overflow => "EOVERFLOW"
  | ownerdead => "EOWNERDEAD"
  | perm => "EPERM"
  | pipe => "EPIPE"
  | proto => "EPROTO"
  | protonosupport => "EPROTONOSUPPORT"
  | prototype => "EPROTOTYPE"
  | range => "ERANGE"
  | rofs => "EROFS"
  | spipe => "ESPIPE"
  | srch => "ESRCH"
  | stale => "ESTALE"
  | timedout => "ETIMEDOUT"
  | txtbsy => "ETXTBSY"
  | xdev => "EXDEV"
  | notcapable => "ENOTCAPABLE"

/-- Every error, in the order of the codes. -/
def all : List Errno :=
  [success, tooBig, acces, addrinuse, addrnotavail, afnosupport, again, already, badf, badmsg,
    busy, canceled, child, connaborted, connrefused, connreset, deadlk, destaddrreq, dom, dquot,
    exist, fault, fbig, hostunreach, idrm, ilseq, inprogress, intr, inval, io, isconn, isdir,
    loop, mfile, mlink, msgsize, multihop, nametoolong, netdown, netreset, netunreach, nfile,
    nobufs, nodev, noent, noexec, nolck, nolink, nomem, nomsg, noprotoopt, nospc, nosys,
    notconn, notdir, notempty, notrecoverable, notsock, notsup, notty, nxio, overflow,
    ownerdead, perm, pipe, proto, protonosupport, prototype, range, rofs, spipe, srch, stale,
    timedout, txtbsy, xdev, notcapable]

/-- The name of an error followed by its code. -/
def describe (e : Errno) : String := e.name ++ " (" ++ toString e.code ++ ")"

theorem map_code_all : all.map code = List.range 77 := by decide

theorem mem_all (e : Errno) : e ∈ all := by cases e <;> decide

theorem getElem?_all_code (e : Errno) : all[e.code]? = some e := by cases e <;> rfl

theorem code_injective {e f : Errno} (h : e.code = f.code) : e = f := by
  have he := getElem?_all_code e
  rw [h, getElem?_all_code f] at he
  exact (Option.some.inj he).symm

end Errno

end GuestHost
