import GuestHost.Proofs.Memory

/-!
# What a scatter stores

`chunk?` says what an entry of a transfer list receives, from the lengths of the entries before it;
`spread_eq_chunks` says that `spread` hands out these chunks.  A scatter stores all of them in order
or, if one of them does not lie inside the memory, none, `scatter_eq`.  An address ends up with its
byte of the last chunk that covers it, `stored_overlayAll`.  Gathering undoes a scatter over buffers
that have no address in common, `gather_scatter`, and a scatter undoes nothing of a gather,
`scatter_gather`.
-/

namespace GuestHost

namespace Memory

variable {m : Memory} {iovs rest : List Iovec} {iov : Iovec} {src : Bytes}

/-! ## Chunks -/

/-- What entry number `i` receives, and its address: nothing if the entries before it have room for
all of the bytes. -/
def chunk? (iovs : List Iovec) (src : Bytes) (i : Nat) : Option (Nat × Bytes) :=
  let before := Iovec.capacity (iovs.take i)
  if before < src.length then
    iovs[i]?.map fun iov => (iov.base.toNat, (src.drop before).take iov.len.toNat)
  else none

/-- What the entries receive, in their order. -/
def chunks (iovs : List Iovec) (src : Bytes) : List (Nat × Bytes) :=
  (List.range iovs.length).filterMap (chunk? iovs src)

/-- Some entry that is reached would receive bytes past the end of the memory. -/
def PastEnd (m : Memory) (iovs : List Iovec) (src : Bytes) : Prop :=
  ∃ i part, chunk? iovs src i = some part ∧ m.size < part.1 + part.2.length

theorem chunk?_nil (iovs : List Iovec) (i : Nat) : chunk? iovs [] i = none := by
  simp [chunk?]

theorem chunk?_zero (hsrc : src ≠ []) :
    chunk? (iov :: rest) src 0 = some (iov.base.toNat, src.take iov.len.toNat) := by
  simp [chunk?, List.length_pos_iff.2 hsrc]

theorem chunk?_succ (i : Nat) :
    chunk? (iov :: rest) src (i + 1) = chunk? rest (src.drop iov.len.toNat) i := by
  have hreached : iov.len.toNat + Iovec.capacity (rest.take i) < src.length ↔
      Iovec.capacity (rest.take i) < (src.drop iov.len.toNat).length := by
    rw [List.length_drop]
    omega
  simp only [chunk?, List.take_succ_cons, Iovec.capacity_cons, List.getElem?_cons_succ, hreached,
    List.drop_drop]

theorem getElem?_spread (iovs : List Iovec) (src : Bytes) (i : Nat) :
    (spread iovs src)[i]? = chunk? iovs src i := by
  fun_induction spread iovs src generalizing i with
  | case1 src => simp [chunk?]
  | case2 iovs => rw [chunk?_nil, List.getElem?_nil]
  | case3 iov rest src hne ih =>
    cases i with
    | zero => rw [chunk?_zero (by simpa using hne), List.getElem?_cons_zero]
    | succ i => rw [chunk?_succ, List.getElem?_cons_succ, ih]

theorem spread_eq_chunks (iovs : List Iovec) (src : Bytes) :
    spread iovs src = chunks iovs src := by
  fun_induction spread iovs src with
  | case1 src => rfl
  | case2 iovs => simp [chunks, chunk?_nil]
  | case3 iov rest src hne ih =>
    rw [chunks, List.length_cons, List.range_succ_eq_map, List.filterMap_cons_some
      (chunk?_zero (by simpa using hne)), List.filterMap_map, ih, chunks]
    congr 2
    exact funext fun i => (chunk?_succ i).symm

theorem pastEnd_iff (m : Memory) (iovs : List Iovec) (src : Bytes) :
    PastEnd m iovs src ↔ ¬ ∀ part ∈ spread iovs src, m.InBounds part.1 part.2.length := by
  constructor
  · rintro ⟨i, part, hi, hpast⟩ h
    rw [← getElem?_spread] at hi
    exact Nat.not_le.2 hpast (h part (List.mem_of_getElem? hi))
  · intro h
    push Not at h
    obtain ⟨part, hpart, hpast⟩ := h
    obtain ⟨i, hi⟩ := List.getElem?_of_mem hpart
    exact ⟨i, part, (getElem?_spread iovs src i).symm.trans hi, Nat.not_le.1 hpast⟩

/-- All chunks are stored in order, or none is. -/
theorem scatter_eq (m : Memory) (iovs : List Iovec) (src : Bytes) :
    (PastEnd m iovs src → m.scatter iovs src = .error .fault) ∧
      (¬ PastEnd m iovs src → m.scatter iovs src =
        .ok (min src.length (Iovec.capacity iovs), m.overlayAll (chunks iovs src))) := by
  have hall : (spread iovs src).all (fun part => m.InBounds part.1 part.2.length) = true ↔
      ¬ PastEnd m iovs src := by
    simp only [pastEnd_iff, not_not, List.all_eq_true, decide_eq_true_eq]
  refine ⟨fun h => ?_, fun h => ?_⟩
  · simp only [scatter, if_neg (mt hall.1 (not_not.2 h))]
  · simp only [scatter, if_pos (hall.2 h), length_flatMap_spread, ← spread_eq_chunks, overlayAll]

/-! ## The bytes of a memory after many overlays -/

/-- The address is one of those that a part is stored at. -/
def Covers (part : Nat × Bytes) (a : Nat) : Prop := part.1 ≤ a ∧ a < part.1 + part.2.length

/-- What a memory is like when parts have been stored in order, address by address. -/
structure Stored (m : Memory) (parts : List (Nat × Bytes)) (m' : Memory) : Prop where
  size : m'.size = m.size
  /-- An address has its byte of the last part that covers it. -/
  last : ∀ {i : Nat} {part : Nat × Bytes} {a : Nat}, parts[i]? = some part → Covers part a →
    (∀ j part', i < j → parts[j]? = some part' → ¬ Covers part' a) →
    m'.toList[a]? = part.2[a - part.1]?
  /-- An address that no part covers keeps its byte. -/
  outside : ∀ {a : Nat}, (∀ part ∈ parts, ¬ Covers part a) → m'.toList[a]? = m.toList[a]?

theorem stored_overlayAll {parts : List (Nat × Bytes)}
    (h : ∀ part ∈ parts, m.InBounds part.1 part.2.length) :
    Stored m parts (m.overlayAll parts) := by
  induction parts generalizing m with
  | nil => exact ⟨rfl, by simp, fun _ => rfl⟩
  | cons part parts ih =>
    obtain ⟨hpart, hparts⟩ := List.forall_mem_cons.1 h
    have hsize : (m.overlay part.1 part.2).size = m.size := size_overlay hpart
    have hrest := ih (m := m.overlay part.1 part.2) fun part' h => (hparts part' h).of_size hsize
    refine ⟨hrest.size.trans hsize, @fun i part' a hi hcovers hlater => ?_, @fun a hnone => ?_⟩
    · cases i with
      | zero =>
        rw [List.getElem?_cons_zero, Option.some.injEq] at hi
        subst hi
        refine (hrest.outside fun part' h' => ?_).trans ?_
        · obtain ⟨j, hj⟩ := List.getElem?_of_mem h'
          exact hlater (j + 1) part' (Nat.succ_pos j) hj
        · exact (getElem?_toList_overlay hpart a).trans (if_pos hcovers)
      | succ i =>
        exact hrest.last hi hcovers fun j part' hj => hlater (j + 1) part' (Nat.succ_lt_succ hj)
    · obtain ⟨hpartNot, hpartsNot⟩ := List.forall_mem_cons.1 hnone
      have hfirst := (getElem?_toList_overlay hpart a).trans (if_neg hpartNot)
      exact (hrest.outside hpartsNot).trans hfirst

/-! ## Scattering and gathering -/

theorem len_le_capacity (h : iov ∈ iovs) : iov.len.toNat ≤ Iovec.capacity iovs := by
  induction h with
  | head => exact Nat.le_add_right _ _
  | tail iov' _ ih => exact Nat.le_trans ih (Nat.le_add_left _ _)

/-- Bytes that fill all of the buffers reach each one that is not empty. -/
theorem inBounds_of_spread (h : ∀ part ∈ spread iovs src, m.InBounds part.1 part.2.length)
    (hcapacity : Iovec.capacity iovs ≤ src.length) :
    ∀ iov ∈ iovs, iov.len ≠ 0 → m.InBounds iov.base.toNat iov.len.toNat := by
  fun_induction spread iovs src with
  | case1 => exact List.forall_mem_nil _
  | case2 iovs =>
    intro iov hiov hlen
    have hle := Nat.le_trans (len_le_capacity hiov) hcapacity
    exact absurd (UInt32.toNat_inj.1 (Nat.le_zero.1 hle)) hlen
  | case3 iov rest src hne ih =>
    obtain ⟨hfirst, hrest⟩ := List.forall_mem_cons.1 h
    rw [Iovec.capacity_cons] at hcapacity
    refine List.forall_mem_cons.2 ⟨fun _ => ?_, ih hrest (by rw [List.length_drop]; omega)⟩
    rwa [List.length_take, Nat.min_eq_left (by omega)] at hfirst

/-- Buffers that are apart and are filled hold what was spread over them.  The induction is on the
transfer list, as in `contents_scatter`; but here an empty buffer may lie anywhere once the bytes
are used up. -/
theorem contents_overlayAll_spread
    (h : ∀ part ∈ spread iovs src, m.InBounds part.1 part.2.length)
    (hapart : iovs.Pairwise Iovec.Apart) (hcapacity : Iovec.capacity iovs = src.length) :
    (m.overlayAll (spread iovs src)).contents iovs = src := by
  fun_induction spread iovs src generalizing m with
  | case1 src => exact (List.eq_nil_of_length_eq_zero hcapacity.symm).symm
  | case2 iovs =>
    refine List.flatMap_eq_nil_iff.2 fun iov hiov => ?_
    have hlen : iov.len.toNat = 0 :=
      Nat.le_zero.1 (Nat.le_trans (len_le_capacity hiov) (Nat.le_of_eq hcapacity))
    rw [hlen, slice_eq, List.take_zero]
  | case3 iov rest src hne ih =>
    obtain ⟨hfirst, hrest⟩ := List.forall_mem_cons.1 h
    rw [List.pairwise_cons] at hapart
    rw [Iovec.capacity_cons] at hcapacity
    have hlength : (src.take iov.len.toNat).length = iov.len.toNat := by
      rw [List.length_take]
      omega
    have hsize : (m.overlay iov.base.toNat (src.take iov.len.toNat)).size = m.size :=
      size_overlay hfirst
    have hrest₁ : ∀ part ∈ spread rest (src.drop iov.len.toNat),
        (m.overlay iov.base.toNat (src.take iov.len.toNat)).InBounds part.1 part.2.length :=
      fun part hpart => (hrest part hpart).of_size hsize
    have hself := slice_overlay_self hfirst
    rw [hlength] at hself
    have hkeep : (overlayAll (m.overlay iov.base.toNat (src.take iov.len.toNat))
        (spread rest (src.drop iov.len.toNat))).slice iov.base.toNat iov.len.toNat =
          src.take iov.len.toNat := by
      refine (slice_overlayAll hrest₁ fun part hpart => ?_).trans hself
      obtain ⟨iov', hiov', hbase, hle⟩ := mem_spread hpart
      exact hbase ▸ (hapart.1 iov' hiov').symm.mono hle
    have hmore := ih hrest₁ hapart.2 (by rw [List.length_drop]; omega)
    rw [overlayAll_cons, contents_cons, hkeep, hmore, List.take_append_drop]

/-- What was scattered over buffers that are apart, and filled them, is gathered from them. -/
theorem gather_scatter (h : ¬ PastEnd m iovs src) (hapart : iovs.Pairwise Iovec.Apart)
    (hcapacity : Iovec.capacity iovs = src.length) :
    (m.overlayAll (chunks iovs src)).gather iovs = .ok src := by
  rw [pastEnd_iff, not_not] at h
  rw [← spread_eq_chunks, gather_eq_ok_iff]
  refine ⟨fun iov hiov hlen => ?_, contents_overlayAll_spread h hapart hcapacity⟩
  exact (inBounds_of_spread h (Nat.le_of_eq hcapacity) iov hiov hlen).of_size (size_overlayAll h)

/-- Putting the bytes of buffers back where they are changes nothing. -/
theorem overlayAll_spread_contents
    (hbuffers : ∀ iov ∈ iovs, iov.len ≠ 0 → m.InBounds iov.base.toNat iov.len.toNat)
    (h : ∀ part ∈ spread iovs (m.contents iovs), m.InBounds part.1 part.2.length) :
    m.overlayAll (spread iovs (m.contents iovs)) = m := by
  induction iovs with
  | nil => rfl
  | cons iov rest ih =>
    obtain ⟨hbuffer, hrest⟩ := List.forall_mem_cons.1 hbuffers
    have hslice : (m.slice iov.base.toNat iov.len.toNat).length = iov.len.toNat := by
      by_cases hlen : iov.len = 0
      · simp [hlen, slice_eq]
      · exact length_slice (hbuffer hlen)
    rw [contents_cons] at h ⊢
    by_cases hnone : m.slice iov.base.toNat iov.len.toNat ++ m.contents rest = []
    · rw [hnone, spread_nil]
      rfl
    · have hspread : spread (iov :: rest) (m.slice iov.base.toNat iov.len.toNat ++
          m.contents rest) = (iov.base.toNat, m.slice iov.base.toNat iov.len.toNat) ::
            spread rest (m.contents rest) := by
        rw [spread.eq_3 _ _ _ hnone, List.take_left' hslice, List.drop_left' hslice]
      rw [hspread] at h ⊢
      obtain ⟨hfirst, hmore⟩ := List.forall_mem_cons.1 h
      rw [hslice] at hfirst
      rw [overlayAll_cons, overlay_slice hfirst]
      exact ih hrest hmore

/-- Scattering what was gathered leaves a memory as it was; it can only fail because of an empty
buffer. -/
theorem scatter_gather
    (hbuffers : ∀ iov ∈ iovs, iov.len ≠ 0 → m.InBounds iov.base.toNat iov.len.toNat) :
    ∃ bs, m.gather iovs = .ok bs ∧ (¬ PastEnd m iovs bs → m.overlayAll (chunks iovs bs) = m) := by
  refine ⟨m.contents iovs, gather_eq_ok_iff.2 ⟨hbuffers, rfl⟩, fun h => ?_⟩
  rw [pastEnd_iff, not_not] at h
  rw [← spread_eq_chunks]
  exact overlayAll_spread_contents hbuffers h

end Memory

end GuestHost
