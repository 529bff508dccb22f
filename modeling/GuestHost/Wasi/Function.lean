import GuestHost.Wasi.Call
import GuestHost.Wasm.Value

/-!
# The functions of WASI

The functions that a guest may import to talk to its host: their names and types, and the system
call that each makes of its arguments.
-/

namespace GuestHost

namespace Wasi

/-- The module that a guest imports the functions from. -/
def moduleName : String := "wasi_snapshot_preview1"

/-- The function by which a guest asks to be ended. -/
def exitName : String := "proc_exit"

end Wasi

/-- A function that answers a system call with an error number. -/
structure WasiFunction where
  name : String
  params : List Wasm.ValueType
  /-- The call that arguments of these types make. -/
  call : List Wasm.Value → Option Syscall

namespace WasiFunction

open Wasm

/-- A function with two words as its arguments. -/
def ofTwo (name : String) (call : (a b : UInt32) → Syscall) : WasiFunction where
  name
  params := [.i32, .i32]
  call
    | [.i32 a, .i32 b] => some (call a b)
    | _ => none

/-- A function with four words as its arguments. -/
def ofFour (name : String) (call : (a b c d : UInt32) → Syscall) : WasiFunction where
  name
  params := [.i32, .i32, .i32, .i32]
  call
    | [.i32 a, .i32 b, .i32 c, .i32 d] => some (call a b c d)
    | _ => none

/-- The code of a direction to seek in; a number that is no byte is no direction either. -/
def whenceByte (whence : UInt32) : UInt8 := if whence < 256 then whence.toUInt8 else 255

/-- The functions that answer with an error number. -/
def all : List WasiFunction :=
  [ofTwo "args_sizes_get" .argsSizesGet,
    ofTwo "args_get" .argsGet,
    ofTwo "environ_sizes_get" .environSizesGet,
    ofTwo "environ_get" .environGet,
    { name := "fd_close"
      params := [.i32]
      call
        | [.i32 fd] => some (.fdClose fd)
        | _ => none },
    ofTwo "fd_fdstat_get" .fdFdstatGet,
    ofTwo "fd_prestat_get" .fdPrestatGet,
    { name := "fd_prestat_dir_name"
      params := [.i32, .i32, .i32]
      call
        | [.i32 fd, .i32 path, .i32 len] => some (.fdPrestatDirName fd path len)
        | _ => none },
    { name := "fd_seek"
      params := [.i32, .i64, .i32, .i32]
      call
        | [.i32 fd, .i64 offset, .i32 whence, .i32 newOffset] =>
          some (.fdSeek fd offset.toInt64 (whenceByte whence) newOffset)
        | _ => none },
    ofTwo "fd_tell" .fdTell,
    ofFour "fd_read" .fdRead,
    ofFour "fd_write" .fdWrite]

end WasiFunction

end GuestHost
