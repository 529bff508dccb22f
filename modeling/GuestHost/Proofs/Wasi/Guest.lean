import GuestHost.Proofs.Table
import GuestHost.Proofs.Wasi.Transfer

/-!
# What a guest can do

A guest takes steps in a `World`: it changes its own memory, makes a call or asks to be ended.
`Syscall.run_touches` says everything that a call can do to the state behind the calls: it touches
at most the stream of the one descriptor that it names, and only in a way that it has a right to.
-/

namespace GuestHost

/-- The state behind the calls of a guest, and the guest's memory. -/
structure World where
  wasi : Wasi
  memory : Memory

/-- A step of a guest.  How it computes is its own affair. -/
inductive GuestStep where
  | compute (change : Memory → Memory)
  | call (c : Syscall)
  | exit (code : Int32)

/-- What a guest gets back from a step. -/
inductive Reply where
  | done
  | errno (e : Errno)
  | exit (action : ExitAction)
  deriving DecidableEq, Repr

namespace GuestStep

/-- Takes a step. -/
def run (w : World) : GuestStep → Reply × World
  | compute change => (.done, { w with memory := change w.memory })
  | call c =>
    let r := Syscall.run w.wasi w.memory c
    (.errno r.errno, ⟨r.wasi, r.memory⟩)
  | exit code =>
    let (action, wasi) := w.wasi.exit code
    (.exit action, { w with wasi })

/-- The world after some steps. -/
def final (w : World) (steps : List GuestStep) : World :=
  steps.foldl (fun w step => (step.run w).2) w

/-- Each step, with the world that it finds. -/
def trace : World → List GuestStep → List (World × GuestStep) :=
  visits fun w step => (step.run w).2

/-- What a guest gets back from its steps, one after the other. -/
def replies (w : World) (steps : List GuestStep) : List Reply :=
  (trace w steps).map fun (w, step) => (step.run w).1

end GuestStep

namespace Syscall

/-- The descriptor that a call names. -/
def descriptor? : Syscall → Option UInt32
  | argsSizesGet _ _ | argsGet _ _ | environSizesGet _ _ | environGet _ _ => none
  | fdClose fd | fdFdstatGet fd _ | fdPrestatGet fd _ | fdPrestatDirName fd _ _
  | fdSeek fd _ _ _ | fdTell fd _ | fdRead fd _ _ _ | fdWrite fd _ _ _ => some fd

variable {s : Wasi} {m : Memory} {c : Syscall}

theorem storing_wasi (s : Wasi) (m : Memory) (outcome : Except Errno Memory) :
    (storing s m outcome).wasi = s := by
  cases outcome <;> rfl

theorem handing_wasi (s : Wasi) (outcome : Except Errno Unit × Memory) :
    (handing s outcome).wasi = s := by
  rcases outcome with ⟨_ | _, m⟩ <;> rfl

theorem conclude_wasi (s : Wasi) (m : Memory) (out : UInt32) (t : Transfer) :
    (conclude s m out (.ok t)).wasi = t.wasi := by
  by_cases hcount : t.count < UInt32.size
  · simp only [conclude, hcount, if_true, storing_wasi]
  · simp only [conclude, hcount, if_false]

/-- Everything that a call can do to the state behind the calls. -/
inductive Touches (s : Wasi) (c : Syscall) : Wasi → Prop where
  | nothing : Touches s c s
  /-- A file moves its cursor. -/
  | sought {fd : UInt32} {d : Descriptor} {stream : Stream} {offset : Int} {whence : Whence}
      (hfd : c.descriptor? = some fd)
      (hlookup : s.table.lookup fd.toNat (.single .fdSeek) = .ok d)
      (hseek : d.stream.seek offset whence = .ok stream) :
      Touches s c (s.setStream fd.toNat stream)
  | read {fd : UInt32} {d : Descriptor} {max : Nat} {delivery : Delivery} {stream : Stream}
      (hfd : c.descriptor? = some fd)
      (hlookup : s.table.lookup fd.toNat (.single .fdRead) = .ok d)
      (hread : d.stream.read max = .ok (delivery, stream)) :
      Touches s c (s.setStream fd.toNat stream)
  | wrote {fd : UInt32} {d : Descriptor} {bytes : Bytes} {lines : List Emission} {stream : Stream}
      (hfd : c.descriptor? = some fd)
      (hlookup : s.table.lookup fd.toNat (.single .fdWrite) = .ok d)
      (hwrite : d.stream.write bytes = .ok (lines, stream)) :
      Touches s c ((s.setStream fd.toNat stream).emit lines)

/-- A call that only stores an answer touches nothing. -/
theorem touches_storing (outcome : Except Errno Memory) :
    Touches s c (storing s m outcome).wasi := by
  rw [storing_wasi]
  exact .nothing

theorem touches_handing (outcome : Except Errno Unit × Memory) :
    Touches s c (handing s outcome).wasi := by
  rw [handing_wasi]
  exact .nothing

theorem touches_seek (fd : UInt32) (offset : Int64) (whence : UInt8) (newOffset : UInt32) :
    Touches s (.fdSeek fd offset whence newOffset) (seek s m fd offset whence newOffset).wasi := by
  rcases seek_cases s m fd offset whence newOffset with
    ⟨e, he⟩ | ⟨m', hm'⟩ | ⟨d, whence, stream, hlookup, hfile, hwhence, hseek⟩
  · exact he ▸ .nothing
  · exact hm' ▸ .nothing
  · rw [seek_moved hlookup hfile hwhence hseek]
    split
    · exact .sought rfl hlookup hseek
    · rw [storing_wasi]
      exact .sought rfl hlookup hseek

theorem touches_receive (fd iovs iovsLen out : UInt32) :
    Touches s (.fdRead fd iovs iovsLen out)
      (conclude (receive s m fd iovs iovsLen).2 m out (receive s m fd iovs iovsLen).1).wasi := by
  generalize hreceive : receive s m fd iovs iovsLen = outcome
  have hreceived := hreceive ▸ received s m fd iovs iovsLen
  cases hreceived with
  | refused _ => exact .nothing
  | cancelled h hread => exact .read rfl h.lookup hread
  | data h hread =>
    rw [conclude_wasi]
    exact .read rfl h.lookup hread

theorem touches_send (fd iovs iovsLen out : UInt32) :
    Touches s (.fdWrite fd iovs iovsLen out)
      (conclude s m out (send s m fd iovs iovsLen)).wasi := by
  rcases send_cases s m fd iovs iovsLen with
    ⟨e, -, he⟩ | ⟨d, entries, bytes, lines, stream, h, hwrite⟩
  · exact he ▸ .nothing
  · rw [h.send_eq hwrite, conclude_wasi]
    exact .wrote rfl h.lookup hwrite

theorem run_touches (s : Wasi) (m : Memory) (c : Syscall) : Touches s c (run s m c).wasi := by
  cases c with
  | argsSizesGet argc bufSize => exact touches_storing _
  | argsGet argv buf => exact touches_handing _
  | environSizesGet count bufSize => exact touches_storing _
  | environGet environ buf => exact touches_handing _
  | fdClose fd => exact .nothing
  | fdFdstatGet fd stat =>
    rw [run]
    split
    · exact .nothing
    · cases s.table.lookup fd.toNat with
      | error e => exact .nothing
      | ok d => exact touches_storing _
  | fdPrestatGet fd prestat => exact .nothing
  | fdPrestatDirName fd path pathLen => exact .nothing
  | fdSeek fd offset whence newOffset => exact touches_seek fd offset whence newOffset
  | fdTell fd offset => exact touches_storing _
  | fdRead fd iovs iovsLen nread =>
    rw [run]
    split
    · exact .nothing
    · exact touches_receive fd iovs iovsLen nread
  | fdWrite fd iovs iovsLen nwritten =>
    rw [run]
    split
    · exact .nothing
    · exact touches_send fd iovs iovsLen nwritten

end Syscall

end GuestHost
