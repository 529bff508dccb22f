import GuestHost.Proofs.Memory
import GuestHost.Suspension.Scratch

/-!
# Placing the bounds of a scratch region

The two bounds are stored one after the other, each with a check of its own.  Where both have room
they are in place afterwards and nothing else has changed; where the first has none, nothing has
changed at all.  In between lie the addresses that leave room for the first bound only.  There the
first bound stays behind although the operation fails, and in a memory of 4 GiB the second bound is
stored at address 0 and the operation succeeds.  `allOrNothing_iff` says that these are the only
memories in which the bounds are placed by halves, and what becomes of them.
-/

namespace GuestHost

namespace Suspension.Scratch

variable {s : Scratch} {m : Memory}

/-! ## What the two stores do -/

theorem inBounds_overlay_word {start start' : Nat} (h : m.InBounds start 4) (word : UInt32) :
    (m.overlay start (.ofU32 word)).InBounds start' 4 ↔ m.InBounds start' 4 := by
  have hroom : m.InBounds start (Bytes.ofU32 word).length := by rwa [Bytes.length_ofU32]
  rw [Memory.InBounds, Memory.InBounds, Memory.size_overlay hroom]

/-- Both bounds have room where they are stored. -/
theorem writeBounds_of_room (h : m.InBounds s.dataPtr.toNat 4)
    (h' : m.InBounds (s.dataPtr + 4).toNat 4) :
    s.writeBounds m =
      (.ok (), (m.overlay s.dataPtr.toNat (.ofU32 s.start)).overlay (s.dataPtr + 4).toNat
        (.ofU32 s.stop)) := by
  have hsecond := Memory.writeU32_of_inBounds ((inBounds_overlay_word h s.start).2 h') s.stop
  simp only [writeBounds, Memory.writeU32_of_inBounds h, hsecond]

/-- The first bound is stored before the second is found to have no room. -/
theorem writeBounds_of_half_room (h : m.InBounds s.dataPtr.toNat 4)
    (h' : ¬ m.InBounds (s.dataPtr + 4).toNat 4) :
    s.writeBounds m =
      (.error (.suspension (.boundsUnwritable s.dataPtr .fault)),
        m.overlay s.dataPtr.toNat (.ofU32 s.start)) := by
  have hsecond := Memory.writeU32_of_not_inBounds (mt (inBounds_overlay_word h s.start).1 h') s.stop
  simp only [writeBounds, Memory.writeU32_of_inBounds h, hsecond]

theorem writeBounds_of_no_room (h : ¬ m.InBounds s.dataPtr.toNat 4) :
    s.writeBounds m = (.error (.suspension (.boundsUnwritable s.dataPtr .fault)), m) := by
  simp only [writeBounds, Memory.writeU32_of_not_inBounds h]

/-! ## All or nothing -/

/-- Both bounds are read back from where they belong, and no other byte has changed. -/
structure Installed (s : Scratch) (m m' : Memory) : Prop where
  start : m'.readU32 s.dataPtr.toNat = .ok s.start
  stop : m'.readU32 (s.dataPtr.toNat + 4) = .ok s.stop
  others : Memory.ChangedWithin [(s.dataPtr.toNat, 8)] m m'

/-- There is room for eight bytes and the bounds are in place afterwards, or there is none and the
memory is as it was. -/
def AllOrNothing (s : Scratch) (m : Memory) : Prop :=
  (s.dataPtr.toNat + 8 ≤ m.size → ∃ m', s.writeBounds m = (.ok (), m') ∧ s.Installed m m') ∧
    (m.size < s.dataPtr.toNat + 8 →
      ∃ cause, s.writeBounds m = (.error (.suspension (.boundsUnwritable s.dataPtr cause)), m))

/-- There is room for the first bound and not for the second. -/
def Straddles (s : Scratch) (m : Memory) : Prop :=
  s.dataPtr.toNat + 4 ≤ m.size ∧ m.size < s.dataPtr.toNat + 8

instance (s : Scratch) (m : Memory) : Decidable (s.Straddles m) :=
  inferInstanceAs (Decidable (_ ∧ _))

/-- Where the second bound is stored: four bytes on, or at 0 after the last word. -/
theorem toNat_dataPtr_add (s : Scratch) :
    (s.dataPtr + 4).toNat =
      if s.dataPtr.toNat + 4 < 2 ^ 32 then s.dataPtr.toNat + 4
      else s.dataPtr.toNat + 4 - 2 ^ 32 := by
  have hptr := s.dataPtr.toNat_lt
  rw [UInt32.toNat_add]
  change (s.dataPtr.toNat + 4) % 2 ^ 32 = _
  split <;> omega

theorem installed_of_fits (hsize : m.size ≤ 2 ^ 32) (hfits : s.dataPtr.toNat + 8 ≤ m.size) :
    ∃ m', s.writeBounds m = (.ok (), m') ∧ s.Installed m m' := by
  have hnext : (s.dataPtr + 4).toNat = s.dataPtr.toNat + 4 := by
    rw [toNat_dataPtr_add, if_pos (by omega)]
  have hfirst : m.InBounds s.dataPtr.toNat 4 := by
    unfold Memory.InBounds
    omega
  have hsecond : m.InBounds (s.dataPtr.toNat + 4) 4 := hfits
  have hrun := writeBounds_of_room hfirst (hnext ▸ hsecond)
  rw [hnext] at hrun
  obtain ⟨hchanged, hread⟩ := Memory.overlay_words hfirst hsecond s.start s.stop
  obtain ⟨hstart, hstop⟩ := hread (Memory.apart_iff.2 (by omega))
  refine ⟨_, hrun, hstart, hstop, hchanged.size, fun i hi => hchanged.outside i ?_⟩
  have hout := hi _ List.mem_cons_self
  simp only [List.forall_mem_cons]
  refine ⟨by omega, by omega, by simp⟩

/-- In a memory that the bounds straddle the first one is stored in any case.  The second one is not
stored, or it is stored at 0 when the first took up the last word that there can be. -/
theorem writeBounds_of_straddles (hsize : m.size ≤ 2 ^ 32) (h : s.Straddles m) :
    s.writeBounds m =
      if s.dataPtr.toNat + 4 = 2 ^ 32 then
        (.ok (), (m.overlay s.dataPtr.toNat (.ofU32 s.start)).overlay 0 (.ofU32 s.stop))
      else
        (.error (.suspension (.boundsUnwritable s.dataPtr .fault)),
          m.overlay s.dataPtr.toNat (.ofU32 s.start)) := by
  obtain ⟨hroom, hend⟩ := h
  split
  · next htop =>
    have hnext : (s.dataPtr + 4).toNat = 0 := by
      rw [toNat_dataPtr_add, if_neg (by omega), htop, Nat.sub_self]
    have hzero : m.InBounds (s.dataPtr + 4).toNat 4 := by
      unfold Memory.InBounds
      omega
    rw [writeBounds_of_room hroom hzero, hnext]
  · next htop =>
    have hnext : (s.dataPtr + 4).toNat = s.dataPtr.toNat + 4 := by
      rw [toNat_dataPtr_add, if_pos (by omega)]
    refine writeBounds_of_half_room hroom ?_
    unfold Memory.InBounds
    omega

/-- In a memory that is smaller than memories can be, the bounds are in place once they could be
written. -/
theorem installed_of_writeBounds {m' : Memory} (hsize : m.size < 2 ^ 32)
    (h : s.writeBounds m = (.ok (), m')) : s.Installed m m' := by
  by_cases hfits : s.dataPtr.toNat + 8 ≤ m.size
  · obtain ⟨m'', hrun, hinstalled⟩ := installed_of_fits (by omega) hfits
    obtain rfl : m'' = m' := congrArg Prod.snd (hrun.symm.trans h)
    exact hinstalled
  by_cases hroom : s.dataPtr.toNat + 4 ≤ m.size
  · rw [writeBounds_of_straddles (by omega) ⟨hroom, by omega⟩, if_neg (by omega)] at h
    cases h
  · rw [writeBounds_of_no_room hroom] at h
    cases h

/-- One bound is placed without the other: there is room for the first one only, and either it was
not there before or the second one is stored at 0. -/
def Halved (s : Scratch) (m : Memory) : Prop :=
  s.Straddles m ∧ (s.dataPtr.toNat + 4 = 2 ^ 32 ∨ m.slice s.dataPtr.toNat 4 ≠ .ofU32 s.start)

instance (s : Scratch) (m : Memory) : Decidable (s.Halved m) :=
  inferInstanceAs (Decidable (_ ∧ _))

theorem not_allOrNothing_of_halved (hsize : m.size ≤ 2 ^ 32) (h : s.Halved m) :
    ¬ s.AllOrNothing m := by
  rintro ⟨-, hnothing⟩
  obtain ⟨hstraddles, hbad⟩ := h
  have hrun := writeBounds_of_straddles hsize hstraddles
  obtain ⟨cause, hnothing⟩ := hnothing hstraddles.2
  rw [hnothing] at hrun
  by_cases htop : s.dataPtr.toNat + 4 = 2 ^ 32
  · rw [if_pos htop] at hrun
    cases hrun
  · rw [if_neg htop] at hrun
    have hkept : m = m.overlay s.dataPtr.toNat (.ofU32 s.start) := congrArg Prod.snd hrun
    have hroom : m.InBounds s.dataPtr.toNat (Bytes.ofU32 s.start).length := by
      rw [Bytes.length_ofU32]
      exact hstraddles.1
    have hthere := Memory.slice_overlay_self hroom
    rw [← hkept, Bytes.length_ofU32] at hthere
    exact hbad.resolve_left htop hthere

theorem allOrNothing_of_not_halved (hsize : m.size ≤ 2 ^ 32) (h : ¬ s.Halved m) :
    s.AllOrNothing m := by
  refine ⟨installed_of_fits hsize, fun hend => ⟨.fault, ?_⟩⟩
  by_cases hroom : m.InBounds s.dataPtr.toNat 4
  · have hstraddles : s.Straddles m := ⟨hroom, hend⟩
    have hgood := not_or.1 fun hbad => h ⟨hstraddles, hbad⟩
    have hthere : m.slice s.dataPtr.toNat 4 = .ofU32 s.start := not_not.1 hgood.2
    -- The first bound is stored over itself.
    rw [writeBounds_of_straddles hsize hstraddles, if_neg hgood.1, ← hthere,
      Memory.overlay_slice hroom]
  · exact writeBounds_of_no_room hroom

/-- The bounds are placed wholly or not at all, except where they are halved; and this is what a
memory that they straddle looks like afterwards. -/
theorem allOrNothing_iff (hsize : m.size ≤ 2 ^ 32) :
    (s.AllOrNothing m ↔ ¬ s.Halved m) ∧
      (s.Straddles m → s.writeBounds m =
        if s.dataPtr.toNat + 4 = 2 ^ 32 then
          (.ok (), (m.overlay s.dataPtr.toNat (.ofU32 s.start)).overlay 0 (.ofU32 s.stop))
        else
          (.error (.suspension (.boundsUnwritable s.dataPtr .fault)),
            m.overlay s.dataPtr.toNat (.ofU32 s.start))) :=
  ⟨⟨fun hall hhalved => not_allOrNothing_of_halved hsize hhalved hall,
    allOrNothing_of_not_halved hsize⟩, writeBounds_of_straddles hsize⟩

/-- In 24 bytes there is just room for the bounds that belong at 16. -/
theorem allOrNothing_iff_justFits :
    let m : Memory := .ofList (List.replicate 24 255)
    m.size ≤ 2 ^ 32 ∧ ¬ Halved {} m ∧ AllOrNothing {} m := by
  intro m
  have hsize : m.size ≤ 2 ^ 32 := by decide +kernel
  have hwhole : ¬ Halved {} m := by decide +kernel
  exact ⟨hsize, hwhole, (allOrNothing_iff hsize).1.2 hwhole⟩

/-- In 20 bytes there is room for the first bound only: the operation fails, and the first bound
stays behind. -/
theorem not_allOrNothing_twentyBytes :
    let m : Memory := .ofList (List.replicate 20 255)
    m.size ≤ 2 ^ 32 ∧ ¬ AllOrNothing {} m := by
  intro m
  have hsize : m.size ≤ 2 ^ 32 := by decide +kernel
  have hhalved : Halved {} m := by decide +kernel
  exact ⟨hsize, not_allOrNothing_of_halved hsize hhalved⟩

end Suspension.Scratch

end GuestHost
