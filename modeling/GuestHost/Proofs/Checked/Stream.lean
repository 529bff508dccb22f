import GuestHost.Proofs.Checked
import GuestHost.Proofs.Wasi.Output

/-!
# Streams, slice by slice

How files, standard input and outputs move bytes: by slices of buffers that are checked, copies
between slices of one length, and lengths that are added and subtracted.  All of it comes to what
`Stream.read` and `Stream.write` say, as long as no file is larger than a run of bytes can be.
-/

namespace GuestHost

/-- A file is no larger than a run of bytes can be. -/
def Stream.Holdable : Stream → Prop
  | file f => f.size ≤ File.largest
  | _ => True

namespace Checked

variable {w : World}

/-! ## Files -/

section File

variable {f : File} {bs : Bytes}

/-- Takes bytes from a file at its cursor. -/
def readFile (f : File) (max : Nat) : Checked (Bytes × File) := do
  let start := min f.cursor f.size
  let stop := min (min (start + max) (UInt64.size - 1)) f.size
  let bytes ← cut f.contents start stop
  pure (bytes, { f with cursor := stop })

/-- The contents with zeros added at their end, up to a length. -/
def extend (contents : Bytes) (stop : Nat) : Checked Bytes :=
  if contents.length < stop then hold (contents ++ List.replicate (stop - contents.length) 0)
  else pure contents

/-- Puts bytes into a file at its cursor. -/
def writeFile (f : File) (bs : Bytes) : Checked File :=
  let stop := f.cursor + bs.length
  if stop < UInt64.size then do
    let contents ← extend f.contents stop
    let contents ← replace contents f.cursor stop bs
    pure ⟨contents, stop⟩
  else fail .fbig

theorem ends_readFile (max : Nat) (h : f.size ≤ File.largest) :
    Ends (readFile f max) w (.ok (f.read max)) w := by
  unfold File.largest at h
  set start := min f.cursor f.size with hstart
  have hle : start ≤ f.size := Nat.min_le_right _ _
  have hlength : (f.contents.drop start).length = f.size - start := List.length_drop
  have htake : min max (f.contents.drop start).length = min (start + max) f.size - start := by
    rw [hlength]
    omega
  have hstop : min (min (start + max) (UInt64.size - 1)) f.size = min (start + max) f.size := by
    rw [UInt64.size]
    omega
  have hbytes : (f.contents.take (min (start + max) f.size)).drop start =
      (f.contents.drop start).take max := by
    rw [List.drop_take, List.take_eq_take_iff, ← htake, Nat.min_assoc, Nat.min_self]
  have hcursor : start + ((f.contents.drop start).take max).length = min (start + max) f.size := by
    rw [List.length_take, htake]
    omega
  have hcut : Ends (cut f.contents start (min (start + max) f.size)) w
      (.ok ((f.contents.take (min (start + max) f.size)).drop start)) w :=
    ends_cut (Nat.le_min.2 ⟨Nat.le_add_right _ _, hle⟩) (Nat.min_le_right _ _) w
  rw [hbytes] at hcut
  rw [readFile, File.read, ← hstart, hstop, hcursor]
  exact hcut.bind (ends_pure _ w)

theorem ends_extend {contents : Bytes} {stop : Nat} (h : stop ≤ File.largest) :
    Ends (extend contents stop) w
      (.ok (contents ++ List.replicate (stop - contents.length) 0)) w := by
  rw [extend]
  by_cases hlt : contents.length < stop
  · rw [if_pos hlt]
    exact ends_hold (by rw [List.length_append, List.length_replicate]; omega) w
  · rw [if_neg hlt, Nat.sub_eq_zero_of_le (Nat.not_lt.1 hlt), List.replicate_zero,
      List.append_nil]
    exact ends_pure _ w

/-- Laying bytes over contents that were extended first, if need be. -/
theorem patched_eq_extended (contents : Bytes) (start : Nat) (bs : Bytes) :
    let extended := contents ++ List.replicate (start + bs.length - contents.length) 0
    extended.take start ++ bs ++ extended.drop (start + bs.length) =
      File.patched contents start bs := by
  have hgap : min (start - contents.length) (start + bs.length - contents.length) =
      start - contents.length := by omega
  have hrest : start + bs.length - contents.length - (start + bs.length - contents.length) = 0 :=
    Nat.sub_self _
  simp only [File.patched, List.take_append, List.take_replicate, hgap, List.drop_append,
    List.drop_replicate, hrest, List.replicate_zero, List.append_nil]

theorem ends_writeFile (h : ∀ f', f.write bs = .ok f' → f'.size ≤ File.largest) :
    Ends (writeFile f bs) w (f.write bs) w := by
  rw [writeFile, File.write]
  by_cases hstop : f.cursor + bs.length < UInt64.size
  · rw [if_pos hstop, if_pos hstop]
    have hroom : (File.patched f.contents f.cursor bs).length ≤ File.largest :=
      h _ (File.write_of_lt hstop)
    rw [File.length_patched] at hroom
    have hle : f.cursor + bs.length ≤
        (f.contents ++ List.replicate (f.cursor + bs.length - f.contents.length) 0).length := by
      rw [List.length_append, List.length_replicate]
      omega
    have hreplace := ends_replace _ bs f.cursor hle w
    rw [patched_eq_extended] at hreplace
    exact (ends_extend (by omega)).bind (hreplace.bind (ends_pure _ w))
  · rw [if_neg hstop, if_neg hstop]
    exact ends_fail _ w

end File

/-! ## Standard input -/

section Input

/-- Takes what there is room for off the front of a queue. -/
def takeQueued : (left : Nat) → List Bytes → Checked (Bytes × List Bytes)
  | _, [] => pure ([], [])
  | left, buffer :: rest =>
    if buffer.length ≤ left then do
      let left ← subLength left buffer.length
      if left = 0 then pure (buffer, rest)
      else do
        let (more, rest) ← takeQueued left rest
        pure (buffer ++ more, rest)
    else do
      let head ← cut buffer 0 left
      let tail ← cut buffer left buffer.length
      pure (head, tail :: rest)

/-- Hands out the queued bytes that there is room for. -/
def deliver (max : Nat) (queue : List Bytes) (source : LineSource) :
    Checked (Delivery × Input) := do
  let (bytes, queue) ← takeQueued max queue
  pure (.data bytes, { source, queue })

/-- Reads from standard input, which is asked for a line only if nothing is queued. -/
def readInput (input : Input) (max : Nat) : Checked (Delivery × Input) :=
  if max = 0 then pure (.data [], input)
  else
    match input.queue, input.source with
    | [], [] => pure (.cancelled, input)
    | [], none :: source => pure (.cancelled, { input with source })
    | [], some line :: source => deliver max [Input.lineBytes line] source
    | queue, source => deliver max queue source

theorem ends_takeQueued (left : Nat) (queue : List Bytes) :
    Ends (takeQueued left queue) w (.ok (Input.takeQueued left queue)) w := by
  induction queue generalizing left with
  | nil => exact ends_pure _ w
  | cons buffer rest ih =>
    rw [takeQueued, Input.takeQueued]
    rcases Nat.lt_trichotomy buffer.length left with hlt | heq | hgt
    · rw [if_pos (Nat.le_of_lt hlt), if_pos hlt]
      refine (ends_subLength (Nat.le_of_lt hlt) w).bind ?_
      rw [if_neg (by omega)]
      exact (ih _).bind (ends_pure _ w)
    · rw [if_pos (Nat.le_of_eq heq), if_neg (by omega), if_pos heq]
      refine (ends_subLength (Nat.le_of_eq heq) w).bind ?_
      rw [if_pos (by omega)]
      exact ends_pure _ w
    · rw [if_neg (by omega), if_neg (by omega), if_neg (by omega)]
      have hhead : Ends (cut buffer 0 left) w _ w :=
        ends_cut (Nat.zero_le left) (Nat.le_of_lt hgt) w
      have htail : Ends (cut buffer left buffer.length) w _ w :=
        ends_cut (Nat.le_of_lt hgt) (Nat.le_refl _) w
      rw [List.drop_zero] at hhead
      rw [List.take_length] at htail
      exact hhead.bind (htail.bind (ends_pure _ w))

theorem ends_deliver (max : Nat) (queue : List Bytes) (source : LineSource) :
    Ends (deliver max queue source) w (.ok (Input.deliver max queue source)) w :=
  (ends_takeQueued max queue).bind (ends_pure _ w)

theorem ends_readInput (input : Input) (max : Nat) :
    Ends (readInput input max) w (.ok (input.read max)) w := by
  rw [readInput, Input.read]
  by_cases hmax : max = 0
  · rw [if_pos hmax, if_pos hmax]
    exact ends_pure _ w
  · rw [if_neg hmax, if_neg hmax]
    rcases input with ⟨_ | ⟨_ | line, source⟩, _ | ⟨buffer, queue⟩⟩
    · exact ends_pure _ w
    · exact ends_deliver max (buffer :: queue) []
    · exact ends_pure _ w
    · exact ends_deliver max (buffer :: queue) (none :: source)
    · exact ends_deliver max [Input.lineBytes line] source
    · exact ends_deliver max (buffer :: queue) (some line :: source)

end Input

/-! ## Outputs -/

section Output

variable {pending : Bytes} {index : Nat}

theorem exists_newline (h : pending.findIdx? (· == 10) = some index) :
    index < pending.length ∧ (10 : UInt8) ∉ pending.take index ∧
      pending = pending.take index ++ 10 :: pending.drop (index + 1) := by
  obtain ⟨hindex, hnewline, hbefore⟩ := List.findIdx?_eq_some_iff_getElem.1 h
  refine ⟨hindex, fun hmem => ?_, ?_⟩
  · obtain ⟨j, hj, hten⟩ := List.mem_take_iff_getElem.1 hmem
    exact hbefore j (by omega) (by simp [hten])
  · have hten : pending[index] = 10 := by simpa using hnewline
    rw [← hten, List.getElem_cons_drop, List.take_append_drop]

/-- Takes the lines that are complete off some pending bytes, one at a time. -/
def drainLines (pending : Bytes) : Checked (List Bytes × Bytes) :=
  match _h : pending.findIdx? (· == 10) with
  | none => pure ([], pending)
  | some index => do
    let line ← cut pending 0 (index + 1)
    let text ← cut line 0 index
    let (lines, tail) ← drainLines (pending.drop (index + 1))
    pure (text :: lines, tail)
termination_by pending.length
decreasing_by
  have hindex := (exists_newline _h).1
  rw [List.length_drop]
  omega

theorem ends_drainLines (pending : Bytes) :
    Ends (drainLines pending) w (.ok (splitLines pending)) w := by
  fun_induction drainLines pending with
  | case1 pending h =>
    have hnone : ∀ b ∈ pending, b ≠ 10 := by simpa using h
    rw [splitLines_of_not_mem fun hmem => hnone 10 hmem rfl]
    exact ends_pure _ w
  | case2 pending index h ih =>
    obtain ⟨hindex, hline, hpending⟩ := exists_newline h
    have hsplit := splitLines_line hline (pending.drop (index + 1))
    rw [← hpending] at hsplit
    have hcut : Ends (cut pending 0 (index + 1)) w _ w :=
      ends_cut (Nat.zero_le (index + 1)) hindex w
    have htext : Ends (cut (pending.take (index + 1)) 0 index) w _ w :=
      ends_cut (Nat.zero_le index) (by rw [List.length_take]; omega) w
    rw [List.take_take, Nat.min_eq_left (Nat.le_succ index), List.drop_zero] at htext
    rw [List.drop_zero] at hcut
    rw [hsplit]
    exact hcut.bind (htext.bind (ih.bind (ends_pure _ w)))

/-- Writes to an output, which emits the lines that are complete. -/
def writeOutput (o : Output) (bs : Bytes) : Checked (List Emission × Output) := do
  let (lines, tail) ← drainLines (o.pending ++ bs)
  pure (lines.map o.emission, { o with pending := tail })

theorem ends_writeOutput (o : Output) (bs : Bytes) :
    Ends (writeOutput o bs) w (.ok (o.write bs)) w :=
  (ends_drainLines (o.pending ++ bs)).bind (ends_pure _ w)

end Output

/-! ## Streams -/

section Stream

variable {stream : Stream} {bs : Bytes}

/-- Reads from a stream, if it is one that can be read. -/
def readStream (max : Nat) : Stream → Checked (Delivery × Stream)
  | .input i => do
    let (delivery, i) ← readInput i max
    pure (delivery, .input i)
  | .output _ => fail .badf
  | .file f => do
    let (bytes, f) ← readFile f max
    pure (.data bytes, .file f)

/-- Writes to a stream, if it is one that can be written. -/
def writeStream (bs : Bytes) : Stream → Checked (List Emission × Stream)
  | .input _ => fail .badf
  | .output o => do
    let (lines, o) ← writeOutput o bs
    pure (lines, .output o)
  | .file f => do
    let f ← writeFile f bs
    pure ([], .file f)

theorem ends_readStream (max : Nat) (h : stream.Holdable) :
    Ends (readStream max stream) w (stream.read max) w := by
  cases stream with
  | input i => exact (ends_readInput i max).bind (ends_pure _ w)
  | output o => exact ends_fail _ w
  | file f => exact (ends_readFile max h).bind (ends_pure _ w)

theorem ends_writeStream
    (h : ∀ lines stream', stream.write bs = .ok (lines, stream') → stream'.Holdable) :
    Ends (writeStream bs stream) w (stream.write bs) w := by
  cases stream with
  | input i => exact ends_fail _ w
  | output o => exact (ends_writeOutput o bs).bind (ends_pure _ w)
  | file f =>
    have hfile : ∀ f', f.write bs = .ok f' → f'.size ≤ File.largest := fun f' hf' =>
      h [] (.file f') (by rw [Stream.write, hf']; rfl)
    have hwrite := ends_writeFile (w := w) hfile
    rw [Stream.write]
    cases hf' : f.write bs with
    | error e =>
      rw [hf'] at hwrite
      exact hwrite.bind_error
    | ok f' =>
      rw [hf'] at hwrite
      exact hwrite.bind (ends_pure _ w)

end Stream

end Checked

end GuestHost
