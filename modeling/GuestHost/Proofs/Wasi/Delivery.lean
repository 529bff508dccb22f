import GuestHost.Proofs.Wasi.Transfer

/-!
# Standard input is delivered

A `ReadCall` is one read of a descriptor, with the memory that it finds; between two reads a guest
may do to its memory as it likes.  What the call has delivered is what the guest finds in its
buffers afterwards, as many bytes as it is told.

`deliveries_ofLines` says that reads of a fresh standard input deliver its lines, each with a
newline, in order and without a loss: what they have delivered together with what is still queued
or unread is the whole.  The step lemma is `ReadCall.run_holdsInput`; the induction is on the run.
-/

namespace GuestHost

/-- A read of a descriptor: the memory that it finds, and the addresses that it is given. -/
structure ReadCall where
  memory : Memory
  iovs : UInt32
  iovsLen : UInt32
  nread : UInt32

/-- The descriptor leads to standard input with this queue and over these lines, none of which
fails. -/
def Wasi.HoldsInput (s : Wasi) (fd : UInt32) (queue : List Bytes) (lines : List String) : Prop :=
  ∃ d, s.table.get? fd.toNat = some d ∧ d.stream = .input { source := .ofLines lines, queue }

/-- The bytes still to come from a queue and from lines. -/
def Input.left (queue : List Bytes) (lines : List String) : Bytes :=
  queue.flatten ++ lines.flatMap lineBytes

theorem Input.outstanding_ofLines (queue : List Bytes) (lines : List String) :
    outstanding { source := .ofLines lines, queue } = left queue lines := by
  simp [outstanding, left, LineSource.ofLines]

namespace ReadCall

/-- What a read comes to. -/
def run (c : ReadCall) (fd : UInt32) (s : Wasi) : Syscall.Result :=
  Syscall.run s c.memory (.fdRead fd c.iovs c.iovsLen c.nread)

/-- The transfer list that a read finds, or none if it is out of bounds. -/
def entries (c : ReadCall) : List Iovec := c.memory.listed c.iovs.toNat c.iovsLen

/-- The count that a read leaves. -/
def count (c : ReadCall) (r : Syscall.Result) : Nat :=
  match r.memory.readU32 c.nread.toNat with
  | .ok n => n.toNat
  | .error _ => 0

/-- What a read that succeeds has delivered: the first bytes of the buffers, as many as it counts.
The buffers may have been laid over the transfer list, so the list is the one it found. -/
def delivered (c : ReadCall) (r : Syscall.Result) : Bytes :=
  if r.errno = .success then (r.memory.contents c.entries).take (c.count r) else []

/-- No address is null, the count has room, and no two buffers have an address in common with each
other or with the count.  Any of them may overlap the transfer list. -/
structure WellFormed (c : ReadCall) : Prop where
  size : c.memory.size ≤ 2 ^ 32
  iovs : c.iovs ≠ 0
  nread : c.nread ≠ 0
  room : c.memory.InBounds c.nread.toNat 4
  apart : c.entries.Pairwise Iovec.Apart
  count : ∀ iov ∈ c.entries, Memory.Apart c.nread.toNat 4 iov.base.toNat iov.len.toNat

/-! ## One read -/

variable {c : ReadCall} {fd : UInt32} {s : Wasi} {d : Descriptor} {entries : List Iovec}
  {bytes : Bytes} {stream : Stream}

/-- A read whose stream has handed out some bytes succeeds, and the guest finds all of them. -/
theorem run_data (hc : c.WellFormed)
    (h : Syscall.Receives s c.memory fd c.iovs c.iovsLen d entries)
    (hread : d.stream.read (Iovec.capacity entries) = .ok (.data bytes, stream)) :
    (c.run fd s).errno = .success ∧ (c.run fd s).wasi = s.setStream fd.toNat stream ∧
      c.count (c.run fd s) = bytes.length ∧ c.delivered (c.run fd s) = bytes := by
  have hentries : c.entries = entries := Memory.listed_eq h.list
  have hbuffers := Memory.checkBuffers_eq_ok.1 h.buffers
  have hapart : entries.Pairwise Iovec.Apart := hentries ▸ hc.apart
  have hcount := hentries ▸ hc.count
  have hfit : bytes.length ≤ Iovec.capacity entries := Stream.length_read_le hread
  have hsmall : bytes.length < 2 ^ 32 := by
    have hcapacity := Memory.capacity_add_le hbuffers hapart hc.room hcount
    have hsize := hc.size
    omega
  -- The memory after the scatter, and after the count was stored in it.
  set m₁ := c.memory.overlayAll (Memory.spread entries bytes) with hm₁
  have hroom : m₁.InBounds c.nread.toNat 4 :=
    hc.room.of_size (Memory.size_overlayAll (Memory.inBounds_spread hbuffers bytes))
  have hroom' : m₁.InBounds c.nread.toNat (Bytes.ofU32 (.ofNat bytes.length)).length := by
    rwa [Bytes.length_ofU32]
  have hrun : c.run fd s = ⟨.success, s.setStream fd.toNat stream,
      m₁.overlay c.nread.toNat (.ofU32 (.ofNat bytes.length))⟩ := by
    rw [run, Syscall.run_fdRead hc.iovs hc.nread, h.receive_data hread]
    exact Syscall.conclude_stored hsmall hroom
  have hstored : c.count (c.run fd s) = bytes.length := by
    have hslice := Memory.slice_overlay_self hroom'
    rw [Bytes.length_ofU32] at hslice
    have hin := hroom.of_size (Memory.size_overlay hroom')
    rw [hrun, count, Memory.readU32, Memory.read, if_pos hin, hslice]
    simp only [Except.map, Bytes.toU32_ofU32]
    exact UInt32.toNat_ofNat_of_lt' hsmall
  refine ⟨by rw [hrun], by rw [hrun], hstored, ?_⟩
  rw [delivered, hstored, hrun, if_pos rfl, hentries]
  rw [Memory.contents_overlay hroom' (by rwa [Bytes.length_ofU32])]
  exact Memory.contents_scatter hbuffers hapart hfit

variable {queue : List Bytes} {lines : List String}

/-- Standard input after a read of it. -/
theorem holdsInput_setStream {input : Input} (hd : s.table.get? fd.toNat = some d)
    (hinput : input.source = .ofLines lines) :
    (s.setStream fd.toNat (.input input)).HoldsInput fd input.queue lines := by
  refine ⟨d.withStream (.input input), ?_, ?_⟩
  · rw [Wasi.setStream, Table.get?_setStream, if_pos rfl, hd]
    rfl
  · rw [← hinput]
    rfl

/-- A read fails and consumes nothing, or it succeeds and takes what it delivers off what is
left. -/
theorem run_cases (hc : c.WellFormed) (hs : s.HoldsInput fd queue lines) :
    ((c.run fd s).errno ≠ .success ∧ (c.run fd s).wasi = s) ∨
      (c.run fd s).errno = .success ∧ ∃ queue' lines',
        (c.run fd s).wasi.HoldsInput fd queue' lines' ∧
          c.delivered (c.run fd s) ++ Input.left queue' lines' = Input.left queue lines := by
  obtain ⟨d, hd, hstream⟩ := hs
  have hrun : c.run fd s = Syscall.conclude (Syscall.receive s c.memory fd c.iovs c.iovsLen).2
      c.memory c.nread (Syscall.receive s c.memory fd c.iovs c.iovsLen).1 :=
    Syscall.run_fdRead hc.iovs hc.nread
  generalize hreceive : Syscall.receive s c.memory fd c.iovs c.iovsLen = outcome at hrun
  have hreceived := hreceive ▸ Syscall.received s c.memory fd c.iovs c.iovsLen
  cases hreceived with
  | refused he => exact .inl (hrun ▸ ⟨he, rfl⟩)
  | @cancelled d' entries stream h hread =>
    obtain rfl : d' = d := Option.some.inj ((Table.get?_of_lookup h.lookup).symm.trans hd)
    rw [hstream] at hread
    simp only [Stream.read, Except.ok.injEq, Prod.mk.injEq] at hread
    obtain ⟨hcancelled, rfl⟩ := hread
    have hsame := (Input.read_ofLines _ _ rfl).2 hcancelled
    refine .inl (hrun ▸ ⟨by simp [Syscall.conclude], ?_⟩)
    rw [hsame, ← hstream]
    exact Wasi.setStream_self hd
  | @data d' entries bytes stream h hread =>
    obtain rfl : d' = d := Option.some.inj ((Table.get?_of_lookup h.lookup).symm.trans hd)
    obtain ⟨hsuccess, hwasi, -, hdelivered⟩ := run_data hc h hread
    rw [hstream] at hread
    simp only [Stream.read, Except.ok.injEq, Prod.mk.injEq] at hread
    obtain ⟨hbytes, rfl⟩ := hread
    set input : Input := { source := .ofLines lines, queue } with hinput
    have houtstanding := input.read_outstanding (Iovec.capacity entries)
    obtain ⟨rest, hrest⟩ := (input.read_ofLines (Iovec.capacity entries) rfl).1
    refine .inr ⟨hsuccess, (input.read (Iovec.capacity entries)).2.queue, rest, ?_, ?_⟩
    · rw [hwasi]
      exact holdsInput_setStream hd hrest
    · rw [hdelivered, ← Input.outstanding_ofLines, ← Input.outstanding_ofLines, ← hrest]
      rw [hbytes] at houtstanding
      exact houtstanding

/-! ## A run of reads -/

/-- The state that a run of reads leaves. -/
def final (fd : UInt32) (s : Wasi) (calls : List ReadCall) : Wasi :=
  calls.foldl (fun s c => (c.run fd s).wasi) s

/-- Each read of a run, with the state that it finds. -/
def steps (fd : UInt32) : Wasi → List ReadCall → List (Wasi × ReadCall) :=
  visits fun s c => (c.run fd s).wasi

/-- What the reads of a run have delivered, one after the other. -/
def deliveries (fd : UInt32) (s : Wasi) (calls : List ReadCall) : Bytes :=
  (steps fd s calls).flatMap fun (s, c) => c.delivered (c.run fd s)

/-- A read that fails leaves everything as it was; one that gets as far as the stream succeeds, and
delivers exactly the bytes that the stream handed out. -/
structure Lossless (fd : UInt32) (s : Wasi) (c : ReadCall) : Prop where
  failed : (c.run fd s).errno ≠ .success → (c.run fd s).wasi = s
  data : ∀ d entries bytes stream, Syscall.Receives s c.memory fd c.iovs c.iovsLen d entries →
    d.stream.read (Iovec.capacity entries) = .ok (.data bytes, stream) →
      (c.run fd s).errno = .success ∧ (c.run fd s).wasi = s.setStream fd.toNat stream ∧
        c.count (c.run fd s) = bytes.length ∧ c.delivered (c.run fd s) = bytes

theorem run_lossless (hc : c.WellFormed) (hs : s.HoldsInput fd queue lines) :
    Lossless fd s c := by
  refine ⟨fun hfail => ?_, fun d entries bytes stream h hread => ?_⟩
  · rcases run_cases hc hs with ⟨-, hwasi⟩ | ⟨hsuccess, -⟩
    · exact hwasi
    · exact absurd hsuccess hfail
  · exact run_data hc h hread

theorem run_holdsInput (hc : c.WellFormed) (hs : s.HoldsInput fd queue lines) :
    ∃ queue' lines', (c.run fd s).wasi.HoldsInput fd queue' lines' ∧
      c.delivered (c.run fd s) ++ Input.left queue' lines' = Input.left queue lines := by
  rcases run_cases hc hs with ⟨hfail, hwasi⟩ | ⟨-, h⟩
  · refine ⟨queue, lines, hwasi.symm ▸ hs, ?_⟩
    rw [delivered, if_neg hfail, List.nil_append]
  · exact h

/-- The invariant of a run, by induction on its reads: standard input is still there, what was
delivered has been taken off what was left, and each read was lossless. -/
theorem steps_holdsInput (calls : List ReadCall) (hcalls : ∀ c ∈ calls, c.WellFormed)
    (hs : s.HoldsInput fd queue lines) :
    (∃ queue' lines', (final fd s calls).HoldsInput fd queue' lines' ∧
        deliveries fd s calls ++ Input.left queue' lines' = Input.left queue lines) ∧
      ∀ p ∈ steps fd s calls, Lossless fd p.1 p.2 := by
  induction calls generalizing s queue lines with
  | nil => exact ⟨⟨queue, lines, hs, rfl⟩, fun p hp => absurd hp List.not_mem_nil⟩
  | cons c rest ih =>
    have hc := hcalls c List.mem_cons_self
    obtain ⟨queue₁, lines₁, hs₁, hleft₁⟩ := run_holdsInput hc hs
    obtain ⟨⟨queue₂, lines₂, hs₂, hleft₂⟩, hsteps⟩ :=
      ih (fun c' hc' => hcalls c' (List.mem_cons_of_mem c hc')) hs₁
    refine ⟨⟨queue₂, lines₂, hs₂, ?_⟩, ?_⟩
    · rw [← hleft₁, ← hleft₂, ← List.append_assoc]
      rfl
    · rintro p hp
      rcases List.mem_cons.1 hp with rfl | hp
      · exact run_lossless hc hs
      · exact hsteps p hp

/-- Standard input is delivered without loss, duplication or reordering.  Whatever memory and
whatever transfer list each read finds, what the reads of a fresh standard input have delivered,
followed by what is still queued and by the lines still in the source, is all of its lines, each
with a newline; and every read is lossless. -/
theorem deliveries_ofLines (fd : UInt32) (s : Wasi) (lines : List String) (calls : List ReadCall)
    (hfresh : s.HoldsInput fd [] lines) (hcalls : ∀ c ∈ calls, c.WellFormed) :
    (∃ queue rest, (final fd s calls).HoldsInput fd queue rest ∧
        deliveries fd s calls ++ (queue.flatten ++ rest.flatMap Input.lineBytes) =
          lines.flatMap Input.lineBytes) ∧
      ∀ p ∈ steps fd s calls, Lossless fd p.1 p.2 :=
  steps_holdsInput calls hcalls hfresh

/-- What the default configuration describes, with two lines to read. -/
def twoLines : Wasi :=
  match Wasi.ofConfig {} (.over (.ofLines ["ab", "c"]) ⟨1⟩ ⟨2⟩) with
  | .ok s => s
  | .error _ => default

/-- A read with a transfer list at address 8, and eight more bytes after it. -/
def reading (list : List Iovec) : ReadCall where
  memory := .ofList (List.replicate 8 0 ++ list.flatMap Iovec.encode ++ List.replicate 8 0)
  iovs := 8
  iovsLen := .ofNat list.length
  nread := 4

/-- A read into one byte and an empty buffer, one that fails for want of room, and one into a buffer
that lies over its own transfer list. -/
def threeReads : List ReadCall :=
  [reading [⟨24, 1⟩, ⟨26, 0⟩], reading [⟨20, 8⟩], reading [⟨8, 8⟩]]

theorem deliveries_twoLines :
    deliveries 0 twoLines threeReads = [97, 98, 10] ∧
      (∃ queue rest, (final 0 twoLines threeReads).HoldsInput 0 queue rest ∧
        deliveries 0 twoLines threeReads ++ (queue.flatten ++ rest.flatMap Input.lineBytes) =
          ["ab", "c"].flatMap Input.lineBytes) ∧
      ∀ p ∈ steps 0 twoLines threeReads, Lossless 0 p.1 p.2 := by
  have hfresh : twoLines.HoldsInput 0 [] ["ab", "c"] :=
    ⟨.standard .stdin 0 (.input { source := .ofLines ["ab", "c"] }), by decide +kernel, rfl⟩
  have hcalls : ∀ c ∈ threeReads, c.WellFormed := by
    intro c hc
    simp only [threeReads, List.mem_cons, List.not_mem_nil, or_false] at hc
    rcases hc with rfl | rfl | rfl <;>
      exact ⟨by decide +kernel, by decide, by decide, by decide +kernel, by decide +kernel,
        by decide +kernel⟩
  exact ⟨by decide +kernel, deliveries_ofLines 0 twoLines ["ab", "c"] threeReads hfresh hcalls⟩

end ReadCall

end GuestHost
