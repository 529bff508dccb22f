import GuestHost.Proofs.Wasi.Confinement

/-!
# No flow from an unreadable file

`Twins` are two states that differ in nothing but the bytes of a file that its descriptor gives no
right to read.  A guest cannot tell them apart: by `GuestStep.no_flow` the same steps get the same
replies in both, leave the same memory, and everything else but those bytes is the same as well.

A call that does not name the descriptor does not see its stream, `Syscall.run_setStream_of_ne`.
The calls that name it depend on the length and the cursor of the file only, `File.SameShape`.
-/

namespace GuestHost

/-! ## Files of one shape -/

theorem File.stream_seek (f : File) (offset : Int) (whence : Whence) :
    (Stream.file f).seek offset whence = (f.seek offset whence).map .file := by
  rw [Stream.seek]

theorem File.stream_write (f : File) (bs : Bytes) :
    (Stream.file f).write bs = (f.write bs).map fun g => ([], .file g) := by
  rw [Stream.write]

/-- Two files that differ in nothing but their bytes. -/
structure File.SameShape (f f' : File) : Prop where
  size : f'.size = f.size
  cursor : f'.cursor = f.cursor

namespace File.SameShape

variable {f f' g : File}

theorem seek_eq (h : f.SameShape f') (offset : Int) (whence : Whence) :
    f'.seek offset whence = (f.seek offset whence).map fun g => { f' with cursor := g.cursor } := by
  have htarget : f'.target offset whence = f.target offset whence := by
    cases whence <;> simp only [target, h.size, h.cursor]
  simp only [seek, h.size, h.cursor, htarget]
  split
  · split <;> rfl
  · rfl

theorem stream_seek (h : f.SameShape f') (offset : Int) (whence : Whence) :
    (Stream.file f').seek offset whence =
      (f.seek offset whence).map fun g => .file { f' with cursor := g.cursor } := by
  rw [Stream.seek, h.seek_eq]
  cases f.seek offset whence <;> rfl

theorem sought {offset : Int} {whence : Whence} (h : f.SameShape f')
    (hg : f.seek offset whence = .ok g) : g.SameShape { f' with cursor := g.cursor } := by
  have hsize : g.size = f.size := congrArg List.length (contents_seek hg)
  exact ⟨h.size.trans hsize.symm, rfl⟩

theorem write_eq (h : f.SameShape f') (bs : Bytes) :
    f'.write bs =
      (f.write bs).map fun g => ⟨patched f'.contents f'.cursor bs, g.cursor⟩ := by
  simp only [write, h.cursor]
  split <;> rfl

theorem stream_write (h : f.SameShape f') (bs : Bytes) :
    (Stream.file f').write bs =
      (f.write bs).map fun g => ([], .file ⟨patched f'.contents f'.cursor bs, g.cursor⟩) := by
  rw [Stream.write, h.write_eq]
  cases f.write bs <;> rfl

theorem written {bs : Bytes} (h : f.SameShape f') (hg : f.write bs = .ok g) :
    g.SameShape ⟨patched f'.contents f'.cursor bs, g.cursor⟩ := by
  simp only [write] at hg
  split at hg
  · cases hg
    refine ⟨?_, rfl⟩
    have hsize : f'.contents.length = f.contents.length := h.size
    simp only [File.size, length_patched, hsize, h.cursor]
  · cases hg

end File.SameShape

/-! ## Calls that name another descriptor -/

namespace Syscall

section Other

variable {s : Wasi} {m : Memory} {i : Nat} {a : Stream} {fd iovs iovsLen : UInt32}

theorem lookup_setStream_of_ne (hne : fd.toNat ≠ i) (base inheriting : Rights) :
    (s.setStream i a).table.lookup fd.toNat base inheriting =
      s.table.lookup fd.toNat base inheriting := by
  rw [Wasi.setStream, Table.lookup_setStream, if_neg hne]

theorem setStream_comm (hne : fd.toNat ≠ i) (b : Stream) :
    (s.setStream i a).setStream fd.toNat b = (s.setStream fd.toNat b).setStream i a := by
  rw [Wasi.setStream, Wasi.setStream, Wasi.setStream, Wasi.setStream,
    Table.setStream_comm _ (Ne.symm hne)]

theorem storing_setStream (outcome : Except Errno Memory) :
    storing (s.setStream i a) m outcome =
      { storing s m outcome with wasi := (storing s m outcome).wasi.setStream i a } := by
  cases outcome <;> rfl

theorem handing_setStream (outcome : Except Errno Unit × Memory) :
    handing (s.setStream i a) outcome =
      { handing s outcome with wasi := (handing s outcome).wasi.setStream i a } := by
  rcases outcome with ⟨_ | _, m⟩ <;> rfl

theorem seek_setStream (hne : fd.toNat ≠ i) (offset : Int64) (whence : UInt8)
    (newOffset : UInt32) :
    seek (s.setStream i a) m fd offset whence newOffset =
      { seek s m fd offset whence newOffset with
        wasi := (seek s m fd offset whence newOffset).wasi.setStream i a } := by
  simp only [seek, lookup_setStream_of_ne hne, setStream_comm hne, storing_setStream]
  repeat' split
  all_goals rfl

theorem receive_setStream (hne : fd.toNat ≠ i) :
    receive (s.setStream i a) m fd iovs iovsLen =
      ((receive s m fd iovs iovsLen).1.map fun t => { t with wasi := t.wasi.setStream i a },
        (receive s m fd iovs iovsLen).2.setStream i a) := by
  simp only [receive, lookup_setStream_of_ne hne, setStream_comm hne]
  split
  · rfl
  · split
    · rfl
    · rfl
    · split <;> rfl

theorem send_setStream (hne : fd.toNat ≠ i) :
    send (s.setStream i a) m fd iovs iovsLen =
      (send s m fd iovs iovsLen).map fun t => { t with wasi := t.wasi.setStream i a } := by
  simp only [send, lookup_setStream_of_ne hne, setStream_comm hne, bind, Except.bind, pure,
    Except.pure]
  repeat' split
  all_goals rfl

theorem conclude_setStream (out : UInt32) (transfer : Except Errno Transfer) :
    conclude (s.setStream i a) m out
        (transfer.map fun t => { t with wasi := t.wasi.setStream i a }) =
      { conclude s m out transfer with
        wasi := (conclude s m out transfer).wasi.setStream i a } := by
  cases transfer with
  | error e => rfl
  | ok t =>
    simp only [Except.map, conclude, storing_setStream]
    split <;> rfl

/-- A call answers the same whatever stream is behind a descriptor that it does not name, and leaves
that stream alone. -/
theorem run_setStream_of_ne {c : Syscall} (hne : ∀ fd, c.descriptor? = some fd → fd.toNat ≠ i) :
    run (s.setStream i a) m c = { run s m c with wasi := (run s m c).wasi.setStream i a } := by
  cases c with
  | argsSizesGet argc bufSize => exact storing_setStream _
  | argsGet argv buf => exact handing_setStream _
  | environSizesGet count bufSize => exact storing_setStream _
  | environGet environ buf => exact handing_setStream _
  | fdClose fd => rfl
  | fdFdstatGet fd stat =>
    simp only [run, lookup_setStream_of_ne (hne fd rfl), storing_setStream]
    repeat' split
    all_goals rfl
  | fdPrestatGet fd prestat => rfl
  | fdPrestatDirName fd path pathLen => rfl
  | fdSeek fd offset whence newOffset => exact seek_setStream (hne fd rfl) offset whence newOffset
  | fdTell fd offset =>
    simp only [run, tell, lookup_setStream_of_ne (hne fd rfl), storing_setStream]
  | fdRead fd iovs iovsLen nread =>
    simp only [run, receive_setStream (hne fd rfl), conclude_setStream]
    split <;> rfl
  | fdWrite fd iovs iovsLen nwritten =>
    simp only [run, send_setStream (hne fd rfl), conclude_setStream]
    split <;> rfl

end Other

end Syscall

/-! ## Twins -/

/-- Two states that differ in nothing but the bytes of the file behind descriptor `i`, which may not
be read. -/
inductive Twins (i : Nat) (s : Wasi) : Wasi → Prop where
  | mk {d : Descriptor} {f f' : File} (hd : s.table.get? i = some d) (hfile : d.stream = .file f)
      (hunreadable : d.base.contains (.single .fdRead) = false) (hshape : f.SameShape f') :
      Twins i s (s.setStream i (.file f'))

/-- Answers that differ in nothing but these bytes. -/
structure Syscall.Result.Twins (i : Nat) (r r' : Syscall.Result) : Prop where
  errno : r'.errno = r.errno
  memory : r'.memory = r.memory
  wasi : GuestHost.Twins i r.wasi r'.wasi

namespace Twins

open Syscall

variable {i : Nat} {s s' : Wasi} {m : Memory} {d : Descriptor} {f f' g g' : File}

/-- Files of one shape may take the place of the two files. -/
theorem setStream (f' : File) (hd : s.table.get? i = some d)
    (hunreadable : d.base.contains (.single .fdRead) = false) (hshape : g.SameShape g') :
    Twins i (s.setStream i (.file g)) ((s.setStream i (.file f')).setStream i (.file g')) := by
  have hboth : (s.setStream i (.file f')).setStream i (.file g') =
      (s.setStream i (.file g)).setStream i (.file g') := by
    simp only [Wasi.setStream, Table.setStream_setStream]
  rw [hboth]
  refine .mk (d := d.withStream (.file g)) ?_ rfl hunreadable hshape
  rw [Wasi.setStream, Table.get?_setStream, if_pos rfl, hd]
  rfl

theorem storing (h : Twins i s s') (outcome : Except Errno Memory) :
    (Syscall.storing s m outcome).Twins i (Syscall.storing s' m outcome) := by
  cases outcome <;> exact ⟨rfl, rfl, h⟩

/-- In both states the descriptor has the same rights. -/
theorem lookup_cases (base : Rights) (f' : File) (hd : s.table.get? i = some d) :
    (s.table.lookup i base = .error .notcapable ∧
        (s.setStream i (.file f')).table.lookup i base = .error .notcapable) ∨
      s.table.lookup i base = .ok d ∧
        (s.setStream i (.file f')).table.lookup i base = .ok (d.withStream (.file f')) := by
  have hlookup : s.table.lookup i base =
      if d.allows base .none then .ok d else .error .notcapable := by
    simp only [Table.lookup, hd]
  rw [Wasi.setStream, Table.lookup_setStream, if_pos rfl, hlookup]
  split
  · exact .inr ⟨rfl, rfl⟩
  · exact .inl ⟨rfl, rfl⟩

/-! ### Calls that name the file -/

section Named

variable {fd iovs iovsLen out : UInt32} (hd : s.table.get? fd.toNat = some d)
  (hfile : d.stream = .file f) (hunreadable : d.base.contains (.single .fdRead) = false)
  (hshape : f.SameShape f')

include hd hfile hunreadable hshape

theorem fdstat (stat : UInt32) :
    (run s m (.fdFdstatGet fd stat)).Twins fd.toNat
      (run (s.setStream fd.toNat (.file f')) m (.fdFdstatGet fd stat)) := by
  have htwins : Twins fd.toNat s (s.setStream fd.toNat (.file f')) :=
    .mk hd hfile hunreadable hshape
  simp only [run]
  by_cases hnull : stat = 0
  · simp only [hnull, if_true]
    exact ⟨rfl, rfl, htwins⟩
  · simp only [hnull, if_false]
    rcases lookup_cases .none f' hd with ⟨hs, hs'⟩ | ⟨hs, hs'⟩ <;> simp only [hs, hs']
    · exact ⟨rfl, rfl, htwins⟩
    · exact htwins.storing _

theorem seek (offset : Int64) (code : UInt8) (newOffset : UInt32) :
    (Syscall.seek s m fd offset code newOffset).Twins fd.toNat
      (Syscall.seek (s.setStream fd.toNat (.file f')) m fd offset code newOffset) := by
  have htwins : Twins fd.toNat s (s.setStream fd.toNat (.file f')) :=
    .mk hd hfile hunreadable hshape
  rcases lookup_cases (.single .fdSeek) f' hd with ⟨hs, hs'⟩ | ⟨hs, hs'⟩
  · rw [seek_refused hs, seek_refused hs']
    exact ⟨rfl, rfl, htwins⟩
  · have hisFile : d.stream.isFile := by rw [hfile, Stream.isFile]
    cases hwhence : Whence.ofCode code with
    | error e =>
      rw [seek_whence hs hisFile hwhence, seek_whence hs' rfl hwhence]
      exact ⟨rfl, rfl, htwins⟩
    | ok whence =>
      have hseek := congrArg (Stream.seek offset.toInt whence) hfile
      have hseek' := hshape.stream_seek offset.toInt whence
      rw [File.stream_seek] at hseek
      cases hg : f.seek offset.toInt whence with
      | error e =>
        rw [hg] at hseek hseek'
        rw [seek_failed hs hisFile hwhence hseek, seek_failed hs' rfl hwhence hseek']
        exact ⟨rfl, rfl, htwins⟩
      | ok g =>
        rw [hg] at hseek hseek'
        rw [seek_moved hs hisFile hwhence hseek, seek_moved hs' rfl hwhence hseek']
        have hsought := setStream f' hd hunreadable (hshape.sought hg)
        by_cases hnull : newOffset = 0
        · rw [if_pos hnull, if_pos hnull]
          exact ⟨rfl, rfl, hsought⟩
        · rw [if_neg hnull, if_neg hnull]
          exact hsought.storing _

theorem tell (offset : UInt32) :
    (run s m (.fdTell fd offset)).Twins fd.toNat
      (run (s.setStream fd.toNat (.file f')) m (.fdTell fd offset)) := by
  have htwins : Twins fd.toNat s (s.setStream fd.toNat (.file f')) :=
    .mk hd hfile hunreadable hshape
  have hcursor : (d.withStream (.file f')).stream.tell = d.stream.tell := by
    rw [hfile]
    exact hshape.cursor
  have htell : Syscall.tell (s.setStream fd.toNat (.file f')) m fd offset =
      Syscall.tell s m fd offset := by
    rcases lookup_cases (.single .fdTell) f' hd with ⟨hs, hs'⟩ | ⟨hs, hs'⟩
    · simp only [Syscall.tell, hs, hs']
    · simp only [Syscall.tell, hs, hs', bind, Except.bind, hcursor]
  rw [run, run, htell]
  exact htwins.storing _

/-- A read is refused in both states. -/
theorem read (iovs iovsLen out : UInt32) :
    (run s m (.fdRead fd iovs iovsLen out)).Twins fd.toNat
      (run (s.setStream fd.toNat (.file f')) m (.fdRead fd iovs iovsLen out)) := by
  have htwins : Twins fd.toNat s (s.setStream fd.toNat (.file f')) :=
    .mk hd hfile hunreadable hshape
  rcases lookup_cases (.single .fdRead) f' hd with ⟨hs, hs'⟩ | ⟨hs, -⟩
  · simp only [run, receive_refused hs, receive_refused hs']
    split
    · exact ⟨rfl, rfl, htwins⟩
    · exact ⟨rfl, rfl, htwins⟩
  · rw [Table.contains_of_lookup hs] at hunreadable
    cases hunreadable

/-- The stream takes the same bytes in both states. -/
theorem send (iovs iovsLen : UInt32) :
    (∃ e, Syscall.send s m fd iovs iovsLen = .error e ∧
        Syscall.send (s.setStream fd.toNat (.file f')) m fd iovs iovsLen = .error e) ∨
      ∃ count t t', Syscall.send s m fd iovs iovsLen = .ok ⟨count, t, m⟩ ∧
        Syscall.send (s.setStream fd.toNat (.file f')) m fd iovs iovsLen = .ok ⟨count, t', m⟩ ∧
        Twins fd.toNat t t' := by
  rcases lookup_cases (.single .fdWrite) f' hd with ⟨hs, hs'⟩ | ⟨hs, hs'⟩
  · exact .inl ⟨_, send_refused hs, send_refused hs'⟩
  · rw [send_eq_outgoing hs, send_eq_outgoing hs', hfile]
    cases outgoing m iovs iovsLen with
    | error e => exact .inl ⟨e, rfl, rfl⟩
    | ok bytes =>
      have hwrite' := hshape.stream_write bytes
      have hwrite := f.stream_write bytes
      simp only [Except.bind, Descriptor.withStream]
      cases hg : f.write bytes with
      | error e =>
        rw [hg] at hwrite hwrite'
        rw [hwrite, hwrite']
        exact .inl ⟨e, rfl, rfl⟩
      | ok g =>
        rw [hg] at hwrite hwrite'
        rw [hwrite, hwrite']
        have hwritten := setStream f' hd hunreadable (hshape.written hg)
        simp only [Except.map, Wasi.emit_nil]
        exact .inr ⟨bytes.length, _, _, rfl, rfl, hwritten⟩

theorem write (iovs iovsLen out : UInt32) :
    (run s m (.fdWrite fd iovs iovsLen out)).Twins fd.toNat
      (run (s.setStream fd.toNat (.file f')) m (.fdWrite fd iovs iovsLen out)) := by
  have htwins : Twins fd.toNat s (s.setStream fd.toNat (.file f')) :=
    .mk hd hfile hunreadable hshape
  simp only [run]
  split
  · exact ⟨rfl, rfl, htwins⟩
  · rcases send (m := m) hd hfile hunreadable hshape iovs iovsLen with
      ⟨e, he, he'⟩ | ⟨count, t, t', ht, ht', htt'⟩
    · rw [he, he']
      exact ⟨rfl, rfl, htwins⟩
    · rw [ht, ht']
      simp only [conclude]
      split
      · exact htt'.storing _
      · exact ⟨rfl, rfl, htt'⟩

theorem named {c : Syscall} (hfd : c.descriptor? = some fd) :
    (run s m c).Twins fd.toNat (run (s.setStream fd.toNat (.file f')) m c) := by
  have htwins : Twins fd.toNat s (s.setStream fd.toNat (.file f')) :=
    .mk hd hfile hunreadable hshape
  cases c with
  | argsSizesGet _ _ | argsGet _ _ | environSizesGet _ _ | environGet _ _ => cases hfd
  | fdClose _ | fdPrestatGet _ _ | fdPrestatDirName _ _ _ => exact ⟨rfl, rfl, htwins⟩
  | fdFdstatGet _ stat =>
    cases hfd
    exact fdstat hd hfile hunreadable hshape stat
  | fdSeek _ offset code newOffset =>
    cases hfd
    exact seek hd hfile hunreadable hshape offset code newOffset
  | fdTell _ offset =>
    cases hfd
    exact tell hd hfile hunreadable hshape offset
  | fdRead _ iovs iovsLen nread =>
    cases hfd
    exact read hd hfile hunreadable hshape iovs iovsLen nread
  | fdWrite _ iovs iovsLen nwritten =>
    cases hfd
    exact write hd hfile hunreadable hshape iovs iovsLen nwritten

end Named

/-- A call answers the same in both states, and they stay twins. -/
theorem run_twins (h : Twins i s s') (m : Memory) (c : Syscall) :
    (run s m c).Twins i (run s' m c) := by
  cases h with
  | @mk d f f' hd hfile hunreadable hshape =>
    -- A call that names another descriptor is the same call in both states; it keeps the file.
    by_cases hnamed : ∃ fd, c.descriptor? = some fd ∧ fd.toNat = i
    · obtain ⟨fd, hfd, rfl⟩ := hnamed
      exact named hd hfile hunreadable hshape hfd
    · have hother : ∀ fd, c.descriptor? = some fd → fd.toNat ≠ i :=
        fun fd hfd hi => hnamed ⟨fd, hfd, hi⟩
      have hd' : (run s m c).wasi.table.get? i = some d := by
        rw [(run_touches s m c).get?_of_ne hother]
        exact hd
      rw [run_setStream_of_ne hother]
      exact ⟨rfl, rfl, .mk hd' hfile hunreadable hshape⟩

/-- An exit ends alike in both states, for a file has no line to flush. -/
theorem exit_twins (h : Twins i s s') (code : Int32) :
    (s'.exit code).1 = (s.exit code).1 ∧ Twins i (s.exit code).2 (s'.exit code).2 := by
  cases h with
  | @mk d f f' hd hfile hunreadable hshape =>
    refine ⟨rfl, ?_⟩
    have htails : (s.setStream i (.file f')).table.tails = s.table.tails :=
      Table.tails_setStream hd (by rw [hfile]; rfl)
    have hemptied : (s.setStream i (.file f')).table.emptied =
        s.table.emptied.setStream i (.file f') :=
      Table.emptied_setStream s.table i (.file f')
    have hexit : ((s.setStream i (.file f')).exit code).2 =
        (s.exit code).2.setStream i (.file f') := by
      simp only [Wasi.exit, Wasi.flush_eq, htails, hemptied]
      rfl
    rw [hexit]
    refine .mk (d := d.withStream d.stream.emptied) ?_ (by rw [hfile]; rfl) hunreadable hshape
    simp only [Wasi.exit, Wasi.flush_eq, Wasi.emit, Table.get?_emptied, hd, Option.map_some]

end Twins

/-! ## What a guest sees -/

/-- Two worlds that a guest cannot tell apart: the memory is the same, and behind the calls
everything but the bytes of the file. -/
structure World.Twins (i : Nat) (w w' : World) : Prop where
  memory : w'.memory = w.memory
  emitted : w'.wasi.emitted = w.wasi.emitted
  exitCode : w'.wasi.exitCode = w.wasi.exitCode
  others : ∀ id, id ≠ i → w'.wasi.table.get? id = w.wasi.table.get? id
  wasi : GuestHost.Twins i w.wasi w'.wasi

theorem Twins.world {i : Nat} {s s' : Wasi} (h : Twins i s s') (m : Memory) :
    World.Twins i ⟨s, m⟩ ⟨s', m⟩ := by
  refine ⟨rfl, ?_, ?_, fun id hid => ?_, h⟩
  all_goals cases h
  · rfl
  · rfl
  · simp only [Wasi.setStream, Table.get?_setStream, if_neg hid]

namespace GuestStep

variable {i : Nat} {w w' : World}

theorem run_twins (h : World.Twins i w w') (step : GuestStep) :
    (step.run w').1 = (step.run w).1 ∧ World.Twins i (step.run w).2 (step.run w').2 := by
  have hmemory := h.memory
  cases step with
  | compute change =>
    refine ⟨rfl, ?_⟩
    simp only [run, hmemory]
    exact h.wasi.world _
  | call c =>
    have hcall := h.wasi.run_twins w.memory c
    simp only [run, hmemory, hcall.errno, hcall.memory, true_and]
    exact hcall.wasi.world _
  | exit code =>
    obtain ⟨haction, hwasi⟩ := h.wasi.exit_twins code
    simp only [run, hmemory, haction, true_and]
    exact hwasi.world _

theorem final_twins (steps : List GuestStep) (h : World.Twins i w w') :
    replies w' steps = replies w steps ∧ World.Twins i (final w steps) (final w' steps) := by
  induction steps generalizing w w' with
  | nil => exact ⟨rfl, h⟩
  | cons step rest ih =>
    obtain ⟨hreply, hstep⟩ := run_twins h step
    obtain ⟨hreplies, hfinal⟩ := ih hstep
    exact ⟨congrArg₂ List.cons hreply hreplies, hfinal⟩

/-- The bytes of a file that may not be read do not reach the guest.  In two states that differ in
them only, the same steps get the same replies, and after each step the memories are equal, and so
is everything behind the calls but those bytes. -/
theorem no_flow (m : Memory) (steps : List GuestStep) {s s' : Wasi} (h : Twins i s s') :
    replies ⟨s', m⟩ steps = replies ⟨s, m⟩ steps ∧
      ∀ n, World.Twins i (final ⟨s, m⟩ (steps.take n)) (final ⟨s', m⟩ (steps.take n)) :=
  ⟨(final_twins steps (h.world m)).1, fun n => (final_twins (steps.take n) (h.world m)).2⟩

/-- What the default configuration describes, with a write-only file as descriptor 3. -/
def writeOnly (contents : Bytes) : Wasi :=
  match Wasi.ofConfig {} (.over [] ⟨1⟩ ⟨2⟩) with
  | .ok s => { s with table := (s.table.insertFile "f" contents .writeOnly).2 }
  | .error _ => default

/-- Steps that try to find out what is in the file: a read, which is refused, a seek to its end, a
write that extends it, and an exit. -/
def probing : List GuestStep :=
  [.compute fun m => m.overlay 8 (Iovec.encode ⟨16, 4⟩), .call (.fdRead 3 8 1 4),
    .call (.fdSeek 3 0 2 24), .call (.fdWrite 3 8 1 4), .call (.fdTell 3 24), .exit 0]

theorem no_flow_probing :
    replies ⟨writeOnly [1, 2, 3], .ofList (List.replicate 32 0)⟩ probing =
        [.done, .errno .notcapable, .errno .success, .errno .success, .errno .success,
          .exit (.terminate 0)] ∧
      replies ⟨writeOnly [4, 5, 6], .ofList (List.replicate 32 0)⟩ probing =
        replies ⟨writeOnly [1, 2, 3], .ofList (List.replicate 32 0)⟩ probing ∧
      ∀ n, World.Twins 3
        (final ⟨writeOnly [1, 2, 3], .ofList (List.replicate 32 0)⟩ (probing.take n))
        (final ⟨writeOnly [4, 5, 6], .ofList (List.replicate 32 0)⟩ (probing.take n)) := by
  have hshape : File.SameShape ⟨[1, 2, 3], 0⟩ ⟨[4, 5, 6], 0⟩ := ⟨rfl, rfl⟩
  have htwins : Twins 3 (writeOnly [1, 2, 3]) (writeOnly [4, 5, 6]) :=
    .mk (d := .file 3 "f" [1, 2, 3] .writeOnly) (by rfl) rfl (by decide) hshape
  exact ⟨by decide +kernel, no_flow _ probing htwins⟩

end GuestStep

end GuestHost
