import GuestHost.Proofs.Checked.Transfer
import GuestHost.Proofs.Memory.Scatter

/-!
# A scatter stores all of its chunks or none

`scatters` says what a scatter does for any memory, any transfer list and any bytes, as a function
of the memory and as a computation in place that crashes nowhere: either some entry that is reached
would receive bytes past the end of the memory, and then nothing is written, or all chunks are
stored in order.
-/

namespace GuestHost

namespace Checked

/-- What is asked of a scatter. -/
structure Scatters (w : World) (iovs : List Iovec) (src : Bytes) : Prop where
  /-- It fails if an entry that is reached would receive bytes past the end, and only then. -/
  fault_iff : w.memory.scatter iovs src = .error .fault ↔ w.memory.PastEnd iovs src
  /-- A scatter that fails has written nothing. -/
  unchanged : w.memory.PastEnd iovs src → Ends (scatter iovs src) w (.error .fault) w
  /-- A scatter that does not fail counts the bytes that there is room for and stores the chunks in
  order: a later chunk wins, and what no chunk covers stays as it was. -/
  stored : ¬ w.memory.PastEnd iovs src → ∃ m,
    w.memory.scatter iovs src = .ok (min src.length (Iovec.capacity iovs), m) ∧
    Ends (scatter iovs src) w (.ok (min src.length (Iovec.capacity iovs))) { w with memory := m } ∧
    m = w.memory.overlayAll (Memory.chunks iovs src) ∧
    w.memory.Stored (Memory.chunks iovs src) m ∧
    (iovs.Pairwise Iovec.Apart → Iovec.capacity iovs = src.length → m.gather iovs = .ok src)

variable {w : World} {iovs : List Iovec} {src : Bytes}

theorem scatters_of_lt (hfits : src.length < 2 ^ 64) : Scatters w iovs src := by
  obtain ⟨hfault, hok⟩ := Memory.scatter_eq w.memory iovs src
  constructor
  case fault_iff =>
    refine ⟨fun h => ?_, hfault⟩
    by_contra hnot
    rw [hok hnot] at h
    cases h
  case unchanged => exact fun h => ends_scatter_fault ((Memory.pastEnd_iff _ _ _).1 h)
  case stored =>
    intro h
    have hparts := not_not.1 (mt (Memory.pastEnd_iff _ _ _).2 h)
    have hends := ends_scatter_parts hfits hparts
    have hstored := Memory.stored_overlayAll hparts
    rw [Memory.spread_eq_chunks] at hends hstored
    exact ⟨_, hok h, hends, rfl, hstored, Memory.gather_scatter h⟩

/-- Scattering what was gathered leaves a memory as it was, whether or not it fails. -/
theorem ends_scatter_gathered
    (hbuffers : ∀ iov ∈ iovs, iov.len ≠ 0 → w.memory.InBounds iov.base.toNat iov.len.toNat) :
    ∃ bs, w.memory.gather iovs = .ok bs ∧
      (w.memory.scatter iovs bs = .error .fault ∨
        w.memory.scatter iovs bs = .ok (bs.length, w.memory)) ∧
      (bs.length < 2 ^ 64 → ∃ r, Ends (scatter iovs bs) w r w) := by
  obtain ⟨bs, hgather, hself⟩ := Memory.scatter_gather hbuffers
  obtain ⟨hfault, hok⟩ := Memory.scatter_eq w.memory iovs bs
  refine ⟨bs, hgather, ?_⟩
  by_cases h : w.memory.PastEnd iovs bs
  · exact ⟨.inl (hfault h), fun hfits => ⟨_, (scatters_of_lt hfits).unchanged h⟩⟩
  · have hlength : min bs.length (Iovec.capacity iovs) = bs.length :=
      Nat.min_eq_left (Nat.le_of_eq (Memory.length_gather hgather))
    have hmemory := hok h
    rw [hself h, hlength] at hmemory
    refine ⟨.inr hmemory, fun hfits => ?_⟩
    obtain ⟨m, -, hends, hm, -⟩ := (scatters_of_lt hfits).stored h
    rw [hm, hself h] at hends
    exact ⟨_, hends⟩

/-- A scatter of any bytes over any transfer list, and a scatter of what the list has in it. -/
theorem scatters (w : World) (iovs : List Iovec) {src : Bytes} (hsrc : src.length < 2 ^ 64) :
    Scatters w iovs src ∧
      ((∀ iov ∈ iovs, iov.len ≠ 0 → w.memory.InBounds iov.base.toNat iov.len.toNat) →
        ∃ bs, w.memory.gather iovs = .ok bs ∧
          (w.memory.scatter iovs bs = .error .fault ∨
            w.memory.scatter iovs bs = .ok (bs.length, w.memory)) ∧
          (bs.length < 2 ^ 64 → ∃ r, Ends (scatter iovs bs) w r w)) :=
  ⟨scatters_of_lt hsrc, ends_scatter_gathered⟩

/-- A host without arguments or descriptors, and a guest with eight bytes of memory. -/
def eightBytes : World where
  wasi := { args := ⟨[]⟩, env := ⟨[]⟩, table := .empty 0, returnOnExit := false }
  memory := .blank 8

/-- Two buffers with an address in common, and an empty one past the end of the memory. -/
def overlapping : List Iovec := [⟨1, 3⟩, ⟨3, 2⟩, ⟨9999, 0⟩]

/-- The bytes run out before the empty buffer is reached, and the second buffer wins. -/
theorem scatters_overlapping :
    [1, 2, 3, 4, 5].length < 2 ^ 64 ∧
      ∃ m, eightBytes.memory.scatter overlapping [1, 2, 3, 4, 5] = .ok (5, m) ∧
        Ends (scatter overlapping [1, 2, 3, 4, 5]) eightBytes (.ok 5)
          { eightBytes with memory := m } ∧
        m.toList = [0, 1, 2, 4, 5, 0, 0, 0] := by
  have hshort : [1, 2, 3, 4, 5].length < 2 ^ 64 := by decide
  have hinside : ¬ eightBytes.memory.PastEnd overlapping [1, 2, 3, 4, 5] := by
    rw [Memory.pastEnd_iff, not_not]
    decide +kernel
  obtain ⟨m, hmemory, hends, rfl, -⟩ := (scatters eightBytes overlapping hshort).1.stored hinside
  exact ⟨hshort, _, hmemory, hends, by decide +kernel⟩

end Checked

end GuestHost
