import GuestHost.Text.Utf8

/-!
# Line-buffered output

An `Output` collects the bytes written to it and emits them to its sink line by line, without the
newlines.  What follows the last newline is pending until a flush.  `splitLines_append` says that
the lines and the pending bytes depend only on all bytes written, not on how the writes cut them.
-/

namespace GuestHost

/-- A receiver of output lines. -/
structure Sink where
  id : Nat
  deriving DecidableEq, Repr, Inhabited

/-- A line as a sink received it. -/
structure Emission where
  sink : Sink
  line : String
  deriving DecidableEq, Repr, Inhabited

/-- The lines of a run of bytes that a newline ends, without it, and the bytes after the last. -/
def splitLines : Bytes → List Bytes × Bytes
  | [] => ([], [])
  | b :: rest =>
    match splitLines rest with
    | (lines, tail) =>
      if b = 10 then ([] :: lines, tail)
      else
        match lines with
        | [] => ([], b :: tail)
        | line :: lines => ((b :: line) :: lines, tail)

/-- Output whose last line is still incomplete. -/
structure Output where
  sink : Sink
  pending : Bytes := []
  deriving DecidableEq, Repr, Inhabited

namespace Output

/-- The emission of a line given by its bytes. -/
def emission (o : Output) (line : Bytes) : Emission := ⟨o.sink, Utf8.decodeLossy line⟩

/-- Accepts bytes and emits every line that they complete. -/
def write (o : Output) (bs : Bytes) : List Emission × Output :=
  let (lines, tail) := splitLines (o.pending ++ bs)
  (lines.map o.emission, { o with pending := tail })

/-- Emits the incomplete line, unless it is empty. -/
def flush (o : Output) : List Emission × Output :=
  if o.pending.isEmpty then ([], o) else ([o.emission o.pending], { o with pending := [] })

end Output

/-! ## Cutting into lines -/

theorem not_mem_snd_splitLines (bs : Bytes) : (10 : UInt8) ∉ (splitLines bs).2 := by
  induction bs with
  | nil => simp [splitLines]
  | cons b rest ih =>
    rw [splitLines]
    rcases hrest : splitLines rest with ⟨lines, tail⟩
    rw [hrest] at ih
    by_cases hb : b = 10
    · simpa [hb] using ih
    · cases lines with
      | nil => simpa [hb, Ne.symm hb] using ih
      | cons line lines => simpa [hb] using ih

/-- A run of bytes without a newline completes no line. -/
theorem splitLines_of_not_mem {bs : Bytes} (h : (10 : UInt8) ∉ bs) : splitLines bs = ([], bs) := by
  induction bs with
  | nil => rfl
  | cons b rest ih =>
    simp only [List.mem_cons, not_or] at h
    rw [splitLines, ih h.2]
    simp [Ne.symm h.1]

/-- Splitting what is left over together with what follows gives the lines of the whole. -/
theorem splitLines_append (a b : Bytes) :
    splitLines (a ++ b) =
      ((splitLines a).1 ++ (splitLines ((splitLines a).2 ++ b)).1,
        (splitLines ((splitLines a).2 ++ b)).2) := by
  induction a with
  | nil => rfl
  | cons c rest ih =>
    simp only [List.cons_append]
    rw [splitLines, ih]
    rw [splitLines]
    rcases hrest : splitLines rest with ⟨lines, tail⟩
    rw [hrest] at ih
    by_cases hc : c = 10
    · simp [hc]
    · cases lines with
      | nil =>
        simp only [hc, List.nil_append, List.cons_append, if_false]
        rcases hb : splitLines (tail ++ b) with ⟨lines', tail'⟩
        rw [splitLines, hb]
        simp [hc]
      | cons line lines => simp [hc]

end GuestHost
