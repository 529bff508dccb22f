import GuestHost.Proofs.Stream
import Mathlib.Algebra.Group.Int.Defs
import Mathlib.Algebra.GroupWithZero.Nat

/-!
# What a transfer does to a file

A seek can put the cursor of a file anywhere, also past its end.  `transfers` is about the bytes:
wherever the cursor stands, it makes no difference into how many pieces a read or a write is cut,
and what was written is read back from where it was written.

`Op.trace_exact` is about the cursor.  A transfer moves it by the number of bytes that were
transferred, and one that transfers nothing changes nothing, unless the transfer `Slips`: past the
end a read puts the cursor back to the end, and a write of nothing extends the file.  A run of
operations has no such step if no seek of it leads past the end.
-/

namespace GuestHost

namespace File

/-! ## Reads -/

section Read

variable (f : File) (m n : Nat)

theorem read_of_le (h : f.cursor ≤ f.size) :
    f.read m = ((f.contents.drop f.cursor).take m,
      { f with cursor := f.cursor + min m (f.size - f.cursor) }) := by
  have hlength : ((f.contents.drop f.cursor).take m).length = min m (f.size - f.cursor) := by
    rw [List.length_take, List.length_drop, size]
  rw [read, Nat.min_eq_left h, hlength]

/-- Past the end there is nothing to read, and the cursor is put back. -/
theorem read_of_lt (h : f.size < f.cursor) : f.read m = ([], { f with cursor := f.size }) := by
  have hnone : f.contents.drop f.size = [] := List.drop_length
  rw [read, Nat.min_eq_right (Nat.le_of_lt h), hnone, List.take_nil]
  rfl

/-- Two reads hand out what one read of both sizes does. -/
theorem read_read :
    (f.read m).1 ++ ((f.read m).2.read n).1 = (f.read (m + n)).1 ∧
      ((f.read m).2.read n).2 = (f.read (m + n)).2 := by
  rcases Nat.lt_or_ge f.size f.cursor with hpast | hle
  · rw [read_of_lt f m hpast, read_of_lt f (m + n) hpast]
    have hend := read_of_le { f with cursor := f.size } n (Nat.le_refl _)
    rw [hend]
    simp [size]
  · have hwithin : f.cursor + min m (f.size - f.cursor) ≤ f.size := by omega
    have hsecond := read_of_le { f with cursor := f.cursor + min m (f.size - f.cursor) } n hwithin
    rw [read_of_le f m hle, read_of_le f (m + n) hle, hsecond]
    refine ⟨?_, ?_⟩
    · change _ ++ (f.contents.drop (f.cursor + min m (f.size - f.cursor))).take n = _
      rw [List.take_add, ← List.drop_drop]
      congr 2
      rcases Nat.le_total m (f.size - f.cursor) with hm | hm
      · rw [Nat.min_eq_left hm]
      · have hlength : (f.contents.drop f.cursor).length = f.size - f.cursor := List.length_drop
        rw [Nat.min_eq_right hm, List.drop_eq_nil_of_le (by omega),
          List.drop_eq_nil_of_le (by omega)]
    · have hcursor : f.cursor + min m (f.size - f.cursor) +
          min n (f.size - (f.cursor + min m (f.size - f.cursor))) =
            f.cursor + min (m + n) (f.size - f.cursor) := by omega
      exact congrArg (fun cursor => { f with cursor }) hcursor

end Read

/-! ## Writes -/

section Write

variable {f f' : File} {bs : Bytes}

/-- Byte `i` of a file that was written to: a byte of what was written, an old byte, or a zero in
the gap between the old end and the cursor. -/
theorem getElem?_patched (contents : Bytes) (start : Nat) (bs : Bytes) (i : Nat) :
    (patched contents start bs)[i]? =
      if start ≤ i ∧ i < start + bs.length then bs[i - start]?
      else if i < contents.length then contents[i]?
      else if i < start then some 0 else none := by
  have hstart : (contents.take start ++ List.replicate (start - contents.length) 0).length =
      start := by
    rw [List.length_append, List.length_take, List.length_replicate]
    omega
  rw [patched, List.append_assoc]
  by_cases hi : i < start
  · rw [if_neg (by omega), List.getElem?_append_left (by omega), List.getElem?_append,
      List.length_take, if_pos hi]
    by_cases hold : i < contents.length
    · rw [if_pos (by omega), if_pos hold, List.getElem?_take_of_lt hi]
    · rw [if_neg (by omega), if_neg hold, List.getElem?_replicate, if_pos (by omega)]
  · rw [List.getElem?_append_right (by omega), hstart, List.getElem?_append, if_neg hi]
    by_cases hnew : i < start + bs.length
    · rw [if_pos (by omega), if_pos ⟨by omega, hnew⟩]
    · have hindex : start + bs.length + (i - start - bs.length) = i := by omega
      rw [if_neg (by omega), if_neg (by omega), List.getElem?_drop, hindex]
      split
      · rfl
      · next hold => exact List.getElem?_eq_none (by omega)

/-- Bytes that are laid over a file one run after the other are laid over it as one run. -/
theorem patched_patched (contents : Bytes) (start : Nat) (a b : Bytes) :
    patched (patched contents start a) (start + a.length) b = patched contents start (a ++ b) := by
  apply List.ext_getElem?
  intro i
  simp only [getElem?_patched, length_patched, List.length_append, List.getElem?_append]
  grind

/-- Without a gap, laying nothing over a file leaves it as it is. -/
theorem patched_nil {contents : Bytes} {start : Nat} (h : start ≤ contents.length) :
    patched contents start [] = contents := by
  have hnone : start - contents.length = 0 := by omega
  rw [patched, hnone, List.length_nil]
  simp

theorem write_eq_ok (h : f.write bs = .ok f') :
    f' = ⟨patched f.contents f.cursor bs, f.cursor + bs.length⟩ := by
  rw [write] at h
  split at h
  · exact (Except.ok.inj h).symm
  · cases h

theorem write_of_lt (h : f.cursor + bs.length < 2 ^ 64) :
    f.write bs = .ok ⟨patched f.contents f.cursor bs, f.cursor + bs.length⟩ :=
  if_pos h

/-- A file after `bs` was written to it at its cursor. -/
structure Written (f : File) (bs : Bytes) (f' : File) : Prop where
  cursor : f'.cursor = f.cursor + bs.length
  size : f'.size = max f.size (f.cursor + bs.length)
  new : ∀ i < bs.length, f'.contents[f.cursor + i]? = bs[i]?
  old : ∀ i < f.size, ¬ (f.cursor ≤ i ∧ i < f.cursor + bs.length) →
    f'.contents[i]? = f.contents[i]?
  gap : ∀ i < f.cursor, f.size ≤ i → f'.contents[i]? = some 0

theorem written_patched (f : File) (bs : Bytes) :
    Written f bs ⟨patched f.contents f.cursor bs, f.cursor + bs.length⟩ := by
  refine ⟨rfl, length_patched _ _ _, fun i hi => ?_, fun i hi hout => ?_, fun i hi hgap => ?_⟩
  · rw [getElem?_patched, if_pos (by omega), Nat.add_sub_cancel_left]
  · have hi' : i < f.contents.length := hi
    rw [getElem?_patched, if_neg hout, if_pos hi']
  · have hgap' : ¬ i < f.contents.length := Nat.not_lt.2 hgap
    rw [getElem?_patched, if_neg (by omega), if_neg hgap', if_pos hi]

/-- What was written is found where the cursor was. -/
theorem Written.take_drop (h : Written f bs f') :
    (f'.contents.drop f.cursor).take bs.length = bs := by
  apply List.ext_getElem?
  intro i
  rw [List.getElem?_take, List.getElem?_drop]
  split
  · next hi => exact h.new i hi
  · next hi => exact (List.getElem?_eq_none (Nat.not_lt.1 hi)).symm

end Write

/-! ## Transfers in pieces -/

/-- The largest number of bytes that a run of bytes can have. -/
def largest : Nat := 2 ^ 63 - 1

/-- A seek to a place inside what a file can hold finds it. -/
theorem seek_start (f : File) (place : Nat) (hsize : f.size ≤ largest)
    (hcursor : f.cursor ≤ largest) (hplace : place ≤ largest) :
    f.seek place .start = .ok { f with cursor := place } := by
  have hfits (n : Nat) (h : n ≤ largest) : fitsI64 (n : Int) := by
    have hmin : Int64.minValue.toInt = -2 ^ 63 := by decide
    have hmax : Int64.maxValue.toInt = 2 ^ 63 - 1 := by decide
    rw [fitsI64, hmin, hmax]
    unfold largest at h
    omega
  have htarget : f.target place .start = place := rfl
  rw [seek, htarget, if_pos ⟨hfits _ hsize, hfits _ hcursor, hfits _ hplace⟩,
    if_neg (by omega), Int.toNat_natCast]

/-- A read or a write does the same in two pieces as in one, and what was written is read back from
where it was written. -/
theorem transfers (f : File) (m n : Nat) (a b : Bytes) :
    ((f.read m).1 ++ ((f.read m).2.read n).1 = (f.read (m + n)).1 ∧
        ((f.read m).2.read n).2 = (f.read (m + n)).2) ∧
      (max f.size (f.cursor + (a ++ b).length) ≤ largest →
        ∃ f₁ f₂, f.write a = .ok f₁ ∧ f₁.write b = .ok f₂ ∧ f.write (a ++ b) = .ok f₂) ∧
      (max f.size (f.cursor + b.length) ≤ largest →
        ∃ f₁ f₂, f.write b = .ok f₁ ∧ Written f b f₁ ∧
          f₁.seek f.cursor .start = .ok f₂ ∧ (f₂.read b.length).1 = b) := by
  refine ⟨read_read f m n, fun hroom => ?_, fun hroom => ?_⟩
  · rw [List.length_append] at hroom
    unfold largest at hroom
    refine ⟨_, _, write_of_lt (by omega), write_of_lt ?_, ?_⟩
    · change f.cursor + a.length + b.length < 2 ^ 64
      omega
    · rw [write_of_lt (by rw [List.length_append]; omega)]
      change Except.ok _ = Except.ok (⟨_, f.cursor + a.length + b.length⟩ : File)
      rw [patched_patched, List.length_append, Nat.add_assoc]
  · have hwritten := written_patched f b
    have hwrite : f.write b = .ok _ := write_of_lt (by unfold largest at hroom; omega)
    have hseek := seek_start ⟨patched f.contents f.cursor b, f.cursor + b.length⟩ f.cursor
      (by rw [hwritten.size]; exact hroom)
      (by change f.cursor + b.length ≤ _; omega) (by omega)
    refine ⟨_, _, hwrite, hwritten, hseek, ?_⟩
    have hle : f.cursor ≤ max f.size (f.cursor + b.length) := by omega
    rw [← hwritten.size] at hle
    rw [read_of_le _ _ hle]
    exact hwritten.take_drop

/-- Three bytes and a cursor that is two bytes past their end. -/
def pastEnd : File := ⟨[97, 98, 99], 5⟩

theorem transfers_pastEnd :
    max pastEnd.size (pastEnd.cursor + ([120] ++ [121, 122] : Bytes).length) ≤ largest ∧
      max pastEnd.size (pastEnd.cursor + ([121, 122] : Bytes).length) ≤ largest ∧
        (∃ f₁ f₂, pastEnd.write [120] = .ok f₁ ∧ f₁.write [121, 122] = .ok f₂ ∧
          pastEnd.write ([120] ++ [121, 122]) = .ok f₂ ∧
            f₂ = ⟨[97, 98, 99, 0, 0, 120, 121, 122], 8⟩) ∧
        ∃ f₁ f₂, pastEnd.write [121, 122] = .ok f₁ ∧ Written pastEnd [121, 122] f₁ ∧
          f₁.seek pastEnd.cursor .start = .ok f₂ ∧ (f₂.read 2).1 = [121, 122] := by
  have hpieces : max pastEnd.size (pastEnd.cursor + ([120] ++ [121, 122] : Bytes).length) ≤
    largest := by decide
  have hroom : max pastEnd.size (pastEnd.cursor + ([121, 122] : Bytes).length) ≤ largest := by
    decide
  obtain ⟨-, hwrites, hback⟩ := transfers pastEnd 0 0 [120] [121, 122]
  obtain ⟨f₁, f₂, ha, hb, hab⟩ := hwrites hpieces
  refine ⟨hpieces, hroom, ⟨f₁, f₂, ha, hb, hab, ?_⟩, hback hroom⟩
  exact write_eq_ok hab

/-! ## The cursor -/

/-- An operation on a file. -/
inductive Op where
  | seek (offset : Int64) (whence : Whence)
  | read (max : Nat)
  | write (bs : Bytes)
  deriving DecidableEq, Repr

namespace Op

/-- How many bytes an operation transfers, unless it is a seek, and the file that it leaves behind.
One that is refused transfers none and leaves the file as it was. -/
def run (f : File) : Op → Option Nat × File
  | seek offset whence =>
    match f.seek offset.toInt whence with
    | .ok f' => (none, f')
    | .error _ => (none, f)
  | read max => (some (f.read max).1.length, (f.read max).2)
  | write bs =>
    match f.write bs with
    | .ok f' => (some bs.length, f')
    | .error _ => (some 0, f)

/-- Each operation, with the file that it finds. -/
def trace : File → List Op → List (File × Op) := visits fun f op => (op.run f).2

/-- A transfer moves the cursor by what it transferred, and changes nothing if that is nothing. -/
structure Exact (f : File) (op : Op) : Prop where
  moves : ∀ n, (op.run f).1 = some n → (op.run f).2.cursor = f.cursor + n
  idle : (op.run f).1 = some 0 → (op.run f).2 = f

/-- The operations past the end that change the file although they transfer nothing. -/
inductive Slips (f : File) : Op → Prop where
  | read (max : Nat) (h : f.size < f.cursor) : Slips f (read max)
  | write (h : f.size < f.cursor) (hroom : f.cursor < UInt64.size) : Slips f (write [])

theorem Slips.cursor_gt {f : File} {op : Op} (h : Slips f op) : f.size < f.cursor := by
  cases h <;> assumption

/-- The seeks that lead past the end. -/
def Overshoots (f : File) (op : Op) : Prop :=
  (op.run f).1 = none ∧ (op.run f).2.size < (op.run f).2.cursor

section Step

variable {f : File}

theorem fst_run_seek (f : File) (offset : Int64) (whence : Whence) :
    ((seek offset whence).run f).1 = none := by
  rw [run]
  split <;> rfl

theorem run_write_of_lt {bs : Bytes} (h : f.cursor + bs.length < UInt64.size) :
    (write bs).run f =
      (some bs.length, ⟨patched f.contents f.cursor bs, f.cursor + bs.length⟩) := by
  rw [run, write_of_lt h]

theorem run_write_of_le {bs : Bytes} (h : UInt64.size ≤ f.cursor + bs.length) :
    (write bs).run f = (some 0, f) := by
  rw [run, File.write, if_neg (Nat.not_lt.2 h)]

theorem exact_read {max : Nat} (h : f.cursor ≤ f.size) : Exact f (read max) := by
  have hlength : ((f.contents.drop f.cursor).take max).length = min max (f.size - f.cursor) := by
    rw [List.length_take, List.length_drop, size]
  refine ⟨fun n hn => ?_, fun hnone => ?_⟩
  · rw [run, read_of_le f max h] at hn ⊢
    rw [← Option.some.inj hn, hlength]
  · rw [run, read_of_le f max h, hlength] at hnone
    rw [run, read_of_le f max h, Option.some.inj hnone]
    rfl

/-- Past the end a read moves the cursor back. -/
theorem not_exact_read {max : Nat} (h : f.size < f.cursor) : ¬ Exact f (read max) := by
  intro hexact
  have hback := hexact.moves 0 (by rw [run, read_of_lt f max h]; rfl)
  rw [run, read_of_lt f max h] at hback
  exact absurd hback (Nat.ne_of_lt h)

theorem exact_write {bs : Bytes} (h : bs = [] → f.cursor ≤ f.size ∨ UInt64.size ≤ f.cursor) :
    Exact f (write bs) := by
  rcases Nat.lt_or_ge (f.cursor + bs.length) UInt64.size with hroom | hroom
  · have hrun := run_write_of_lt hroom
    refine ⟨fun n hn => ?_, fun hnone => ?_⟩
    · rw [hrun] at hn ⊢
      rw [← Option.some.inj hn]
    · rw [hrun] at hnone ⊢
      have hempty : bs = [] := List.length_eq_zero_iff.1 (Option.some.inj hnone)
      subst hempty
      have hle : f.cursor ≤ f.size := (h rfl).resolve_right (Nat.not_le.2 hroom)
      rw [patched_nil hle]
      rfl
  · have hrun := run_write_of_le hroom
    refine ⟨fun n hn => ?_, fun _ => by rw [hrun]⟩
    rw [hrun] at hn ⊢
    rw [← Option.some.inj hn]
    rfl

/-- Past the end a write of nothing extends the file. -/
theorem not_exact_write (h : f.size < f.cursor) (hroom : f.cursor < UInt64.size) :
    ¬ Exact f (write []) := by
  intro hexact
  have hrun := @run_write_of_lt f [] hroom
  have hsame := hexact.idle (by rw [hrun]; rfl)
  have hsize : (patched f.contents f.cursor []).length = f.size := by
    rw [hrun] at hsame
    exact congrArg File.size hsame
  rw [length_patched] at hsize
  exact absurd h (by rw [List.length_nil] at hsize; omega)

theorem exact_iff_not_slips (f : File) (op : Op) : Exact f op ↔ ¬ Slips f op := by
  refine ⟨fun hexact hslips => ?_, fun hslips => ?_⟩
  · cases hslips with
    | read max h => exact not_exact_read h hexact
    | write h hroom => exact not_exact_write h hroom hexact
  · cases op with
    | seek offset whence =>
      have hnone := fst_run_seek f offset whence
      refine ⟨fun n hn => ?_, fun hidle => ?_⟩
      · exact absurd (hnone.symm.trans hn) (Option.some_ne_none n).symm
      · exact absurd (hnone.symm.trans hidle) (Option.some_ne_none 0).symm
    | read max => exact exact_read (Nat.not_lt.1 fun hpast => hslips (.read max hpast))
    | write bs =>
      refine exact_write fun hempty => ?_
      subst hempty
      rcases Nat.lt_or_ge f.size f.cursor with hpast | hle
      · exact .inr (Nat.not_lt.1 fun hroom => hslips (.write hpast hroom))
      · exact .inl hle

/-- Only a seek leads past the end. -/
theorem cursor_run_le {op : Op} (h : f.cursor ≤ f.size) (hseek : ¬ Overshoots f op) :
    (op.run f).2.cursor ≤ (op.run f).2.size := by
  cases op with
  | seek offset whence =>
    exact Nat.not_lt.1 fun hpast => hseek ⟨fst_run_seek f offset whence, hpast⟩
  | read max => exact cursor_read_le f max
  | write bs =>
    rcases Nat.lt_or_ge (f.cursor + bs.length) UInt64.size with hroom | hroom
    · rw [run_write_of_lt hroom]
      change f.cursor + bs.length ≤ (patched f.contents f.cursor bs).length
      rw [length_patched]
      exact Nat.le_max_right _ _
    · rw [run_write_of_le hroom]
      exact h

end Step

/-- Before a seek leads past the end, every operation finds the cursor within the file. -/
theorem cursor_trace_le {f : File} {ops : List Op} (h : f.cursor ≤ f.size)
    (hseeks : ∀ p ∈ trace f ops, ¬ Overshoots p.1 p.2) :
    ∀ p ∈ trace f ops, p.1.cursor ≤ p.1.size := by
  induction ops generalizing f with
  | nil => intro p hp; cases hp
  | cons op rest ih =>
    rw [trace, visits, List.forall_mem_cons] at hseeks ⊢
    exact ⟨h, ih (cursor_run_le h hseeks.1) hseeks.2⟩

/-- In a run of operations on a file the transfers are exact but for the slips, and there is no slip
unless a seek leads past the end. -/
theorem trace_exact (contents : Bytes) (ops : List Op) :
    (∀ p ∈ trace { contents } ops, Exact p.1 p.2 ↔ ¬ Slips p.1 p.2) ∧
      ((∀ p ∈ trace { contents } ops, ¬ Overshoots p.1 p.2) →
        ∀ p ∈ trace { contents } ops, Exact p.1 p.2) := by
  refine ⟨fun p _ => exact_iff_not_slips p.1 p.2, fun hseeks p hp => ?_⟩
  have hle := cursor_trace_le (Nat.zero_le _) hseeks p hp
  exact (exact_iff_not_slips p.1 p.2).2 fun hslips => Nat.not_lt.2 hle hslips.cursor_gt

/-- A file of three bytes: after a seek two bytes past their end, a read moves the cursor back and a
write of nothing adds two zeros. -/
theorem not_exact_pastEnd :
    ((pastEnd, read 4) ∈ trace { contents := [97, 98, 99] } [seek 5 .start, read 4] ∧
        (read 4).run pastEnd = (some 0, ⟨[97, 98, 99], 3⟩) ∧ ¬ Exact pastEnd (read 4)) ∧
      ((pastEnd, write []) ∈ trace { contents := [97, 98, 99] } [seek 5 .start, write []] ∧
        (write []).run pastEnd = (some 0, ⟨[97, 98, 99, 0, 0], 5⟩) ∧
          ¬ Exact pastEnd (write [])) := by
  have hpast : pastEnd.size < pastEnd.cursor := by decide
  exact ⟨⟨by decide, by decide, not_exact_read hpast⟩,
    ⟨by decide, by decide, not_exact_write hpast (by decide)⟩⟩

end Op

end File

end GuestHost
