import GuestHost.Proofs.Table
import GuestHost.Proofs.Wasi.Transfer

/-!
# Output is cut at its newlines only

A `WriteCall` is one write to standard output or standard error, with the memory that it finds, and
a `WriteRun` is any number of them on a newly built state.  `WriteRun.shows_written` says what has
become of the bytes that a run has written to one of the two: they are cut at their newlines, the
lines have reached the sink, and what follows the last newline waits for a flush.  So neither the
calls nor their buffers show in the output, and neither does what is written to the other one.

The state carries the bytes written so far, `WriteCall.Carries`.  A write keeps that up,
`run_carries`, and so does a run, `steps_carries`; `Carries.shows_flush` is about the end of it.
-/

namespace GuestHost

/-! ## Lines -/

/-- The lines that newlines end in a run of bytes, and what follows the last newline. -/
structure Cut (bs : Bytes) (lines : List Bytes) (tail : Bytes) : Prop where
  join : (lines.flatMap fun line => line ++ [10]) ++ tail = bs
  line : ∀ line ∈ lines, (10 : UInt8) ∉ line
  tail : (10 : UInt8) ∉ tail

theorem cut_splitLines (bs : Bytes) : Cut bs (splitLines bs).1 (splitLines bs).2 := by
  induction bs with
  | nil => exact ⟨rfl, by simp [splitLines], by simp [splitLines]⟩
  | cons b rest ih =>
    refine ⟨?_, ?_, not_mem_snd_splitLines (b :: rest)⟩
    all_goals
      rw [splitLines]
      rcases hrest : splitLines rest with ⟨lines, tail⟩
      rw [hrest] at ih
    -- A newline ends an empty line; another byte begins the first line or, without one, the tail.
    · by_cases hb : b = 10
      · simp [hb, ← ih.join]
      · cases lines with
        | nil => simpa [hb] using ih.join
        | cons line lines => simpa [hb] using ih.join
    · by_cases hb : b = 10
      · simpa [hb] using ih.line
      · cases lines with
        | nil => simp [hb]
        | cons line lines =>
          have hline := ih.line
          simp only [List.forall_mem_cons] at hline
          simpa [hb, Ne.symm hb] using hline

theorem splitLines_line {line : Bytes} (h : (10 : UInt8) ∉ line) (rest : Bytes) :
    splitLines (line ++ 10 :: rest) = (line :: (splitLines rest).1, (splitLines rest).2) := by
  induction line with
  | nil => simp [splitLines]
  | cons b line ih =>
    simp only [List.mem_cons, not_or] at h
    rw [List.cons_append, splitLines, ih h.2]
    simp [Ne.symm h.1]

/-- An unfinished line as a line, if it is not empty. -/
def lastLine (tail : Bytes) : List Bytes := if tail = [] then [] else [tail]

/-! ## What a sink has received -/

namespace Wasi

/-- The lines that a sink has received, in order. -/
def received (s : Wasi) (sink : Sink) : List String :=
  (s.emitted.filter fun e => e.sink = sink).map Emission.line

/-- The bytes that wait for a newline, if the descriptor leads to an output. -/
def pending? (s : Wasi) (fd : UInt32) : Option Bytes :=
  match (s.table.get? fd.toNat).map Descriptor.stream with
  | some (.output o) => some o.pending
  | _ => none

theorem received_emit (s : Wasi) (lines : List Emission) (sink : Sink) :
    (s.emit lines).received sink =
      s.received sink ++ (lines.filter fun e => e.sink = sink).map Emission.line := by
  simp [received, emit]

end Wasi

theorem Output.received_emission (o : Output) (lines : List Bytes) (sink : Sink) :
    ((lines.map o.emission).filter fun e => e.sink = sink).map Emission.line =
      if o.sink = sink then lines.map Utf8.decodeLossy else [] := by
  by_cases h : o.sink = sink <;> simp [List.filter_map, Function.comp_def, emission, h]

/-! ## One write -/

/-- One of the two outputs that a guest starts with. -/
inductive Channel where
  | out
  | err
  deriving DecidableEq

def Channel.fd : Channel → UInt32
  | out => 1
  | err => 2

/-- A write to an output: the memory that it finds, and the addresses that it is given. -/
structure WriteCall where
  channel : Channel
  memory : Memory
  iovs : UInt32
  iovsLen : UInt32
  nwritten : UInt32

namespace WriteCall

def run (c : WriteCall) (s : Wasi) : Syscall.Result :=
  Syscall.run s c.memory (.fdWrite c.channel.fd c.iovs c.iovsLen c.nwritten)

/-- The transfer list that a write finds, or none if it is out of bounds. -/
def entries (c : WriteCall) : List Iovec := c.memory.listed c.iovs.toNat c.iovsLen

/-- The bytes in the buffers of a write. -/
def bytes (c : WriteCall) : Bytes := c.memory.contents c.entries

/-- The bytes that a write hands to the output: all of them or, if it fails, none. -/
def accepted (c : WriteCall) (s : Wasi) : Bytes :=
  if (c.run s).errno = .success then c.bytes else []

/-- No address is null, the transfer list and all buffers are inside the memory, and the number of
bytes in them fits a word. -/
structure Possible (c : WriteCall) : Prop where
  iovs : c.iovs ≠ 0
  nwritten : c.nwritten ≠ 0
  list : c.memory.readIovecs c.iovs.toNat c.iovsLen = .ok c.entries
  buffers : ∀ iov ∈ c.entries, iov.len ≠ 0 → c.memory.InBounds iov.base.toNat iov.len.toNat
  fits : Iovec.capacity c.entries < 2 ^ 32

variable {c : WriteCall} {s : Wasi} {d : Descriptor} {o : Output}

theorem length_bytes (hc : c.Possible) : c.bytes.length = Iovec.capacity c.entries :=
  Memory.length_contents hc.buffers

/-- A write that gets as far as the output is possible. -/
theorem possible_of_sends {entries : List Iovec} {bytes : Bytes} (hiovs : c.iovs ≠ 0)
    (hnull : c.nwritten ≠ 0)
    (h : Syscall.Sends s c.memory c.channel.fd c.iovs c.iovsLen d entries bytes) :
    c.Possible := by
  have hentries : c.entries = entries := Memory.listed_eq h.list
  obtain ⟨hbuffers, hbytes⟩ := Memory.gather_eq_ok_iff.1 h.gather
  refine ⟨hiovs, hnull, hentries ▸ h.list, hentries ▸ hbuffers, ?_⟩
  rw [hentries, ← Memory.length_contents hbuffers, hbytes]
  exact h.fits

/-- A write that is not possible fails and changes nothing behind the calls. -/
theorem run_of_not_possible (hc : ¬ c.Possible) :
    (c.run s).errno ≠ .success ∧ (c.run s).wasi = s := by
  by_cases hnull : c.iovs = 0 ∨ c.nwritten = 0
  · have hinval : c.run s = ⟨.inval, s, c.memory⟩ := by simp [run, Syscall.run, hnull]
    rw [hinval]
    exact ⟨by simp, rfl⟩
  · obtain ⟨hiovs, hnull⟩ := not_or.1 hnull
    rw [run, Syscall.run_fdWrite hiovs hnull]
    rcases Syscall.send_cases s c.memory c.channel.fd c.iovs c.iovsLen with
      ⟨e, he, hsend⟩ | ⟨d, entries, bytes, lines, stream, h, -⟩
    · rw [hsend]
      exact ⟨he, rfl⟩
    · exact absurd (possible_of_sends hiovs hnull h) hc

/-- A write that is possible hands all its bytes to the output and stores how many they are. -/
theorem run_of_possible (hc : c.Possible) (hroom : c.memory.InBounds c.nwritten.toNat 4)
    (hd : s.table.lookup c.channel.fd.toNat (.single .fdWrite) = .ok d)
    (ho : d.stream = .output o) :
    c.run s = ⟨.success,
      (s.setStream c.channel.fd.toNat (.output (o.write c.bytes).2)).emit (o.write c.bytes).1,
      c.memory.overlay c.nwritten.toNat (.ofU32 (.ofNat c.bytes.length))⟩ := by
  have h : Syscall.Sends s c.memory c.channel.fd c.iovs c.iovsLen d c.entries c.bytes :=
    ⟨hd, hc.list, Memory.gather_eq_ok_iff.2 ⟨hc.buffers, rfl⟩, length_bytes hc ▸ hc.fits⟩
  have hwrite : d.stream.write c.bytes =
      .ok ((o.write c.bytes).1, .output (o.write c.bytes).2) := by
    rw [ho]
    rfl
  rw [run, Syscall.run_fdWrite hc.iovs hc.nwritten, h.send_eq hwrite]
  exact Syscall.conclude_stored h.fits hroom

/-- A write is accounted for: it succeeds if it is possible and then stores how many bytes its
buffers hold, and else changes nothing behind the calls. -/
structure Accounted (s : Wasi) (c : WriteCall) : Prop where
  succeeds : (c.run s).errno = .success ↔ c.Possible
  failed : (c.run s).errno ≠ .success → (c.run s).wasi = s
  stored : (c.run s).errno = .success →
    ∃ n, (c.run s).memory.readU32 c.nwritten.toNat = .ok n ∧
      n.toNat = Iovec.capacity c.entries ∧ n.toNat = c.bytes.length

theorem run_accounted (hroom : c.memory.InBounds c.nwritten.toNat 4)
    (hd : s.table.lookup c.channel.fd.toNat (.single .fdWrite) = .ok d)
    (ho : d.stream = .output o) : Accounted s c := by
  by_cases hc : c.Possible
  · have hrun := run_of_possible hc hroom hd ho
    refine ⟨⟨fun _ => hc, fun _ => by rw [hrun]⟩, fun hfail => ?_, fun _ => ?_⟩
    · rw [hrun] at hfail
      exact absurd rfl hfail
    · have hlength := length_bytes hc
      have hn : (UInt32.ofNat c.bytes.length).toNat = c.bytes.length :=
        UInt32.toNat_ofNat_of_lt' (hlength ▸ hc.fits)
      refine ⟨.ofNat c.bytes.length, ?_, hn.trans hlength, hn⟩
      rw [hrun]
      exact Memory.readU32_overlay hroom
  · obtain ⟨hfail, hwasi⟩ := run_of_not_possible (s := s) hc
    exact ⟨⟨fun h => absurd h hfail, fun h => absurd h hc⟩, fun _ => hwasi,
      fun h => absurd h hfail⟩

end WriteCall

/-! ## A run of writes -/

namespace WriteCall

def final (s : Wasi) (calls : List WriteCall) : Wasi :=
  calls.foldl (fun s c => (c.run s).wasi) s

/-- Each write of a run, with the state that it finds. -/
def steps : Wasi → List WriteCall → List (Wasi × WriteCall) := visits fun s c => (c.run s).wasi

/-- The bytes that a run has written to an output, one after the other. -/
def written (s : Wasi) (calls : List WriteCall) (ch : Channel) : Bytes :=
  (steps s calls).flatMap fun (s, c) => if c.channel = ch then c.accepted s else []

/-- The standard streams once the given bytes were written to the two outputs. -/
def streams (source : LineSource) (sinks : Channel → Sink) (wrote : Channel → Bytes) :
    Table.StandardStreams where
  stdin := .input { source }
  stdout := .output ⟨sinks .out, (splitLines (wrote .out)).2⟩
  stderr := .output ⟨sinks .err, (splitLines (wrote .err)).2⟩

/-- The state once the given bytes were written to the two outputs: its descriptors are the standard
ones, and each sink has received its lines. -/
structure Carries (fds : StandardFds) (source : LineSource) (sinks : Channel → Sink)
    (wrote : Channel → Bytes) (s : Wasi) : Prop where
  table : ∃ free, s.table = .ofList (Table.standards fds (streams source sinks wrote)) free
  received : ∀ ch, s.received (sinks ch) = (splitLines (wrote ch)).1.map Utf8.decodeLossy

variable {c : WriteCall} {s : Wasi} {fds : StandardFds} {source : LineSource}
  {sinks : Channel → Sink} {wrote wrote' : Channel → Bytes}

theorem allows_standard (standard : StandardStream) (fd : UInt32) (stream : Stream) :
    (Descriptor.standard standard fd stream).allows (.single .fdWrite) .none = true := by
  change ((Rights.granted .readWrite .characterDevice).1.contains (.single .fdWrite) &&
    (Rights.granted .readWrite .characterDevice).2.contains .none) = true
  decide

/-- An output of such a state may be written to, and its unfinished line is pending. -/
theorem Carries.get? (h : Carries fds source sinks wrote s) (ch : Channel) :
    ∃ d, s.table.get? ch.fd.toNat = some d ∧
      d.stream = .output ⟨sinks ch, (splitLines (wrote ch)).2⟩ ∧
      d.allows (.single .fdWrite) .none = true := by
  obtain ⟨free, htable⟩ := h.table
  rw [htable, Table.get?_ofList]
  cases ch with
  | out => exact ⟨_, rfl, rfl, allows_standard _ _ _⟩
  | err => exact ⟨_, rfl, rfl, allows_standard _ _ _⟩

theorem Carries.pending?_eq (h : Carries fds source sinks wrote s) (ch : Channel) :
    s.pending? ch.fd = some (splitLines (wrote ch)).2 := by
  obtain ⟨d, hd, hstream, -⟩ := h.get? ch
  simp only [Wasi.pending?, hd, Option.map_some, hstream]

/-- What is written to one output adds to its bytes and leaves the other alone. -/
theorem Carries.write (h : Carries fds source sinks wrote s) (hapart : sinks .out ≠ sinks .err)
    (ch : Channel) (bs : Bytes) (hself : wrote' ch = wrote ch ++ bs)
    (hother : ∀ ch', ch' ≠ ch → wrote' ch' = wrote ch') :
    Carries fds source sinks wrote'
      ((s.setStream ch.fd.toNat (.output ⟨sinks ch, (splitLines (wrote' ch)).2⟩)).emit
        ((splitLines ((splitLines (wrote ch)).2 ++ bs)).1.map
          (Output.emission ⟨sinks ch, (splitLines (wrote ch)).2⟩))) := by
  obtain ⟨free, htable⟩ := h.table
  have hsplit := splitLines_append (wrote ch) bs
  constructor
  · refine ⟨free, ?_⟩
    simp only [Wasi.emit, Wasi.setStream, htable, Table.setStream_ofList]
    congr 1
    cases ch with
    | out =>
      have herr := hother .err (by decide)
      simp only [Table.standards, streams, herr]
      rfl
    | err =>
      have hout := hother .out (by decide)
      simp only [Table.standards, streams, hout]
      rfl
  · intro ch'
    rw [Wasi.received_emit, Output.received_emission]
    change s.received (sinks ch') ++ (if sinks ch = sinks ch' then _ else []) = _
    rw [h.received]
    by_cases hch : ch' = ch
    · subst hch
      rw [if_pos rfl, hself, hsplit, List.map_append]
    · have hsinks : sinks ch ≠ sinks ch' := by
        cases ch <;> cases ch' <;> first | exact absurd rfl hch | exact hapart | exact hapart.symm
      rw [if_neg hsinks, List.append_nil, hother ch' hch]

theorem run_carries (hroom : c.memory.InBounds c.nwritten.toNat 4)
    (hapart : sinks .out ≠ sinks .err) (h : Carries fds source sinks wrote s)
    (hself : wrote' c.channel = wrote c.channel ++ c.accepted s)
    (hother : ∀ ch, ch ≠ c.channel → wrote' ch = wrote ch) :
    Carries fds source sinks wrote' (c.run s).wasi ∧ Accounted s c := by
  obtain ⟨d, hd, hstream, hallows⟩ := h.get? c.channel
  have hlookup := Table.lookup_of_allows hd hallows
  refine ⟨?_, run_accounted hroom hlookup hstream⟩
  by_cases hc : c.Possible
  · have hrun := run_of_possible hc hroom hlookup hstream
    have haccepted : c.accepted s = c.bytes := by rw [accepted, hrun, if_pos rfl]
    rw [haccepted] at hself
    have hwritten := h.write hapart c.channel c.bytes hself hother
    rw [hself, splitLines_append] at hwritten
    rw [hrun]
    exact hwritten
  · obtain ⟨hfail, hwasi⟩ := run_of_not_possible (s := s) hc
    have hsame : wrote' = wrote := by
      funext ch
      by_cases hch : ch = c.channel
      · rw [hch, hself, accepted, if_neg hfail, List.append_nil]
      · exact hother ch hch
    rw [hsame, hwasi]
    exact h

/-- The invariant of a run, by induction on its writes: the state carries all that was written, and
each write was accounted for. -/
theorem steps_carries (calls : List WriteCall)
    (hroom : ∀ c ∈ calls, c.memory.InBounds c.nwritten.toNat 4) (hapart : sinks .out ≠ sinks .err)
    (h : Carries fds source sinks wrote s) :
    Carries fds source sinks (fun ch => wrote ch ++ written s calls ch) (final s calls) ∧
      ∀ p ∈ steps s calls, Accounted p.1 p.2 := by
  induction calls generalizing s wrote with
  | nil =>
    simp only [written, steps, visits, List.flatMap_nil, List.append_nil]
    exact ⟨h, nofun⟩
  | cons c rest ih =>
    simp only [List.forall_mem_cons] at hroom
    -- The first write adds what it hands over to the bytes of its own output only.
    have hself : wrote c.channel ++ (if c.channel = c.channel then c.accepted s else []) =
        wrote c.channel ++ c.accepted s := by rw [if_pos rfl]
    have hother (ch : Channel) (hch : ch ≠ c.channel) :
        wrote ch ++ (if c.channel = ch then c.accepted s else []) = wrote ch := by
      rw [if_neg (Ne.symm hch), List.append_nil]
    obtain ⟨hstep, haccounted⟩ := run_carries hroom.1 hapart h hself hother
    obtain ⟨hrest, hsteps⟩ := ih hroom.2 hstep
    refine ⟨?_, ?_⟩
    · simp only [List.append_assoc] at hrest
      exact hrest
    · rw [steps, visits, List.forall_mem_cons]
      exact ⟨haccounted, hsteps⟩

/-! ## Flushing -/

/-- What an output shows: the lines that its sink has received, and the bytes that wait. -/
structure Shows (s : Wasi) (sinks : Channel → Sink) (ch : Channel) (lines : List Bytes)
    (tail : Bytes) : Prop where
  received : s.received (sinks ch) = lines.map Utf8.decodeLossy
  pending : s.pending? ch.fd = some tail

theorem Carries.shows (h : Carries fds source sinks wrote s) (ch : Channel) :
    Shows s sinks ch (splitLines (wrote ch)).1 (splitLines (wrote ch)).2 :=
  ⟨h.received ch, h.pending?_eq ch⟩

/-- A flush emits the two unfinished lines. -/
theorem Carries.tails_eq (h : Carries fds source sinks wrote s) :
    s.table.tails =
      (lastLine (splitLines (wrote .out)).2).map (Output.emission ⟨sinks .out, []⟩) ++
        (lastLine (splitLines (wrote .err)).2).map (Output.emission ⟨sinks .err, []⟩) := by
  obtain ⟨free, htable⟩ := h.table
  rw [htable, Table.tails_ofList]
  simp only [Table.standards, streams, Descriptor.standard, List.filterMap_cons,
    List.filterMap_nil, Stream.tail?, lastLine]
  split <;> split <;> simp_all [Output.emission]

theorem Carries.shows_flush (h : Carries fds source sinks wrote s)
    (hapart : sinks .out ≠ sinks .err) (ch : Channel) :
    Shows s.flush sinks ch
      ((splitLines (wrote ch)).1 ++ lastLine (splitLines (wrote ch)).2) [] := by
  rw [Wasi.flush_eq]
  constructor
  · rw [Wasi.received_emit, h.tails_eq, List.filter_append, List.map_append,
      Output.received_emission, Output.received_emission, List.map_append, ← h.received]
    cases ch with
    | out => simp [hapart.symm, Wasi.received]
    | err => simp [hapart, Wasi.received]
  · obtain ⟨d, hd, hstream, -⟩ := h.get? ch
    simp only [Wasi.pending?, Wasi.emit, Table.get?_emptied, hd, Option.map_some,
      Descriptor.withStream, hstream, Stream.emptied]

end WriteCall

/-! ## The output of a run -/

/-- Writes to the two outputs of a newly built state, which have a sink each.  The count of every
write has room; all else about it is up to the guest. -/
structure WriteRun where
  config : Config
  source : LineSource
  sinks : Channel → Sink
  start : Wasi
  calls : List WriteCall
  apart : sinks .out ≠ sinks .err
  built : Wasi.ofConfig config (.over source (sinks .out) (sinks .err)) = .ok start
  room : ∀ c ∈ calls, c.memory.InBounds c.nwritten.toNat 4

namespace WriteRun

open WriteCall (Accounted Shows)

def final (r : WriteRun) : Wasi := WriteCall.final r.start r.calls

def steps (r : WriteRun) : List (Wasi × WriteCall) := WriteCall.steps r.start r.calls

def written (r : WriteRun) (ch : Channel) : Bytes := WriteCall.written r.start r.calls ch

theorem carries (r : WriteRun) :
    WriteCall.Carries r.config.stdio r.source r.sinks r.written r.final ∧
      ∀ p ∈ r.steps, Accounted p.1 p.2 := by
  obtain ⟨s, free, hs, hemitted, htable⟩ :=
    Wasi.ofConfig_over r.config (.over r.source (r.sinks .out) (r.sinks .err))
  have hstart : s = r.start := Except.ok.inj (hs.symm.trans r.built)
  have hfresh : WriteCall.Carries r.config.stdio r.source r.sinks (fun _ => []) r.start :=
    hstart ▸ ⟨⟨free, htable⟩, fun ch => by rw [Wasi.received, hemitted]; rfl⟩
  exact WriteCall.steps_carries r.calls r.room r.apart hfresh

/-- What an output shows is its bytes cut at their newlines, however many writes brought them and
whatever else was written in between: the lines have reached the sink, and the unfinished one
follows with a flush or an exit.  A write adds all its bytes and stores how many they are, or it
fails and adds none; and another run that writes the same bytes to the output shows the same. -/
theorem shows_written (r : WriteRun) (ch : Channel) :
    (∃ lines tail, Cut (r.written ch) lines tail ∧
      Shows r.final r.sinks ch lines tail ∧
      Shows r.final.flush r.sinks ch (lines ++ lastLine tail) [] ∧
      ∀ code, Shows (r.final.exit code).2 r.sinks ch (lines ++ lastLine tail) []) ∧
    (∀ p ∈ r.steps, Accounted p.1 p.2) ∧
    ∀ r' : WriteRun, r'.written ch = r.written ch →
      r'.final.received (r'.sinks ch) = r.final.received (r.sinks ch) ∧
        r'.final.pending? ch.fd = r.final.pending? ch.fd := by
  obtain ⟨hcarries, hsteps⟩ := r.carries
  refine ⟨⟨_, _, cut_splitLines (r.written ch), hcarries.shows ch, hcarries.shows_flush r.apart ch,
    fun code => ?_⟩, hsteps, fun r' hsame => ?_⟩
  · have hexit : WriteCall.Carries r.config.stdio r.source r.sinks r.written
        { r.final with exitCode := some code } := ⟨hcarries.table, hcarries.received⟩
    exact hexit.shows_flush r.apart ch
  · have hcarries' := r'.carries.1
    rw [hcarries'.received, hcarries.received, hcarries'.pending?_eq, hcarries.pending?_eq, hsame]
    exact ⟨rfl, rfl⟩

/-- A write with its count at address 4, the transfer list at 8 and then the bytes. -/
def writing (channel : Channel) (list : List Iovec) (bytes : Bytes) : WriteCall where
  channel
  memory := .ofList (List.replicate 8 0 ++ list.flatMap Iovec.encode ++ bytes)
  iovs := 8
  iovsLen := .ofNat list.length
  nwritten := 4

/-- Two writes that cut a character in two, with a write to the other output and one that fails for
want of room in between. -/
def cutWrites : List WriteCall :=
  [writing .out [⟨16, 2⟩] [104, 0xC3], writing .err [⟨16, 1⟩] [33],
    writing .out [⟨16, 8⟩] [0xA9], writing .out [⟨24, 2⟩, ⟨26, 1⟩] [0xA9, 10, 33]]

theorem room_cutWrites : ∀ c ∈ cutWrites, c.memory.InBounds c.nwritten.toNat 4 := by
  decide +kernel

/-- What the default configuration describes, with nothing to read. -/
def silent : Wasi :=
  match Wasi.ofConfig {} (.over [] ⟨1⟩ ⟨2⟩) with
  | .ok s => s
  | .error _ => default

theorem ofConfig_silent : Wasi.ofConfig {} (.over [] ⟨1⟩ ⟨2⟩) = .ok silent := by
  rfl

/-- These writes, after a start with nothing to read. -/
def cutCharacter : WriteRun where
  config := {}
  source := []
  sinks
    | .out => ⟨1⟩
    | .err => ⟨2⟩
  start := silent
  calls := cutWrites
  apart := by decide
  built := ofConfig_silent
  room := room_cutWrites

theorem shows_written_cutCharacter :
    cutCharacter.written .out = [104, 0xC3, 0xA9, 10, 33] ∧
      cutCharacter.final.received ⟨1⟩ = ["hé"] ∧
      (∃ lines tail, Cut (cutCharacter.written .out) lines tail ∧
        Shows cutCharacter.final cutCharacter.sinks .out lines tail ∧
        Shows cutCharacter.final.flush cutCharacter.sinks .out (lines ++ lastLine tail) [] ∧
        ∀ code, Shows (cutCharacter.final.exit code).2 cutCharacter.sinks .out
          (lines ++ lastLine tail) []) ∧
      (∀ p ∈ cutCharacter.steps, Accounted p.1 p.2) ∧
      ∀ r' : WriteRun, r'.written .out = cutCharacter.written .out →
        r'.final.received (r'.sinks .out) =
            cutCharacter.final.received (cutCharacter.sinks .out) ∧
          r'.final.pending? Channel.out.fd = cutCharacter.final.pending? Channel.out.fd :=
  ⟨by decide +kernel, by decide +kernel, shows_written cutCharacter .out⟩

end WriteRun

end GuestHost
