import GuestHost.Memory
import Mathlib.Algebra.Group.Int.Defs
import Mathlib.Algebra.GroupWithZero.Nat
import Mathlib.Data.List.Nodup
import Mathlib.Data.List.Perm.Subperm

/-!
# What an access changes

A run of bytes that is laid over a memory is found where it was laid, and nowhere else does the
memory change.  From this follow the frame of a scatter, `slice_overlayAll`, and its contents,
`contents_scatter`: if the buffers of a transfer list have no address in common, then bytes that fit
them are found in them, in the order of the list.  Buffers that have no address in common hold
together no more bytes than the memory, `sum_le_of_pairwise_apart`.
-/

namespace GuestHost

namespace Bytes

theorem toNat_ofNat (width n : Nat) : toNat (ofNat width n) = n % 256 ^ width := by
  induction width generalizing n with
  | zero => simp [ofNat, toNat, Nat.mod_one]
  | succ width ih =>
    have hb : (UInt8.ofNat n).toNat = n % 256 := by simp
    rw [ofNat, toNat, ih, hb, Nat.pow_succ, Nat.mul_comm (256 ^ width) 256, Nat.mod_mul]

theorem toNat_lt (bs : Bytes) : toNat bs < 256 ^ bs.length := by
  induction bs with
  | nil => simp [toNat]
  | cons b rest ih =>
    have hb : b.toNat < 256 := b.toNat_lt
    rw [toNat, List.length_cons, Nat.pow_succ]
    omega

@[simp]
theorem length_ofU32 (word : UInt32) : (ofU32 word).length = 4 := length_ofNat 4 _

@[simp]
theorem length_ofU64 (word : UInt64) : (ofU64 word).length = 8 := length_ofNat 8 _

@[simp]
theorem toU32_ofU32 (word : UInt32) : toU32 (ofU32 word) = word := by
  have h : word.toNat < 256 ^ 4 := word.toNat_lt
  rw [toU32, ofU32, toNat_ofNat, Nat.mod_eq_of_lt h, UInt32.ofNat_toNat]

@[simp]
theorem toU64_ofU64 (word : UInt64) : toU64 (ofU64 word) = word := by
  have h : word.toNat < 256 ^ 8 := word.toNat_lt
  rw [toU64, ofU64, toNat_ofNat, Nat.mod_eq_of_lt h, UInt64.ofNat_toNat]

end Bytes

namespace Memory

/-- No address lies in both of two runs of addresses. -/
def Apart (start len start' len' : Nat) : Prop :=
  List.Disjoint (List.range' start len) (List.range' start' len')

theorem Apart.symm {start len start' len' : Nat} (h : Apart start len start' len') :
    Apart start' len' start len :=
  fun _ ha ha' => h ha' ha

/-- Runs are apart if one of them is empty or they lie one after the other. -/
theorem apart_iff {start len start' len' : Nat} :
    Apart start len start' len' ↔
      len = 0 ∨ len' = 0 ∨ start + len ≤ start' ∨ start' + len' ≤ start := by
  constructor
  · intro h
    by_contra hne
    have hleft : max start start' ∈ List.range' start len := by
      rw [List.mem_range'_1]
      omega
    have hright : max start start' ∈ List.range' start' len' := by
      rw [List.mem_range'_1]
      omega
    exact h hleft hright
  · intro h a ha ha'
    rw [List.mem_range'_1] at ha ha'
    omega

instance (start len start' len' : Nat) : Decidable (Apart start len start' len') :=
  decidable_of_iff _ apart_iff.symm

/-- The beginning of a run is apart from what the run is apart from. -/
theorem Apart.mono {start len start' len' n : Nat} (h : Apart start len start' len')
    (hn : n ≤ len) : Apart start n start' len' := by
  intro a ha
  rw [List.mem_range'_1] at ha
  exact h (List.mem_range'_1.2 ⟨ha.1, by omega⟩)

/-- Runs that are apart have together no more addresses than the memory they lie in. -/
theorem sum_le_of_pairwise_apart (runs : List (Nat × Nat)) (size : Nat)
    (hbound : ∀ r ∈ runs, r.1 + r.2 ≤ size)
    (hapart : runs.Pairwise fun r r' => Apart r.1 r.2 r'.1 r'.2) :
    (runs.map Prod.snd).sum ≤ size := by
  have hnodup : (runs.flatMap fun r => List.range' r.1 r.2).Nodup :=
    List.nodup_flatMap.2 ⟨fun r _ => List.nodup_range', hapart⟩
  have hsubset : (runs.flatMap fun r => List.range' r.1 r.2) ⊆ List.range size := by
    intro a ha
    obtain ⟨r, hr, har⟩ := List.mem_flatMap.1 ha
    rw [List.mem_range'_1] at har
    have hr' := hbound r hr
    exact List.mem_range.2 (by omega)
  have hlength := (hnodup.subperm hsubset).length_le
  simpa [List.length_flatMap, Function.comp_def] using hlength

/-! ## Overlays -/

variable {m : Memory} {start len : Nat} {bs : Bytes}

theorem write_of_inBounds (h : m.InBounds start bs.length) :
    m.write start bs = .ok (m.overlay start bs) :=
  if_pos h

theorem write_of_not_inBounds (h : ¬ m.InBounds start bs.length) :
    m.write start bs = .error .fault :=
  if_neg h

theorem writeU32_of_inBounds (h : m.InBounds start 4) (word : UInt32) :
    m.writeU32 start word = .ok (m.overlay start (.ofU32 word)) :=
  write_of_inBounds (by rwa [Bytes.length_ofU32])

theorem writeU32_of_not_inBounds (h : ¬ m.InBounds start 4) (word : UInt32) :
    m.writeU32 start word = .error .fault :=
  write_of_not_inBounds (by rwa [Bytes.length_ofU32])

theorem writeU64_of_inBounds (h : m.InBounds start 8) (word : UInt64) :
    m.writeU64 start word = .ok (m.overlay start (.ofU64 word)) :=
  write_of_inBounds (by rwa [Bytes.length_ofU64])

theorem writeU64_of_not_inBounds (h : ¬ m.InBounds start 8) (word : UInt64) :
    m.writeU64 start word = .error .fault :=
  write_of_not_inBounds (by rwa [Bytes.length_ofU64])

theorem InBounds.of_size {m m' : Memory} (h : m.InBounds start len) (hsize : m'.size = m.size) :
    m'.InBounds start len := by
  unfold InBounds at h ⊢
  omega

@[simp]
theorem size_blank (n : Nat) : (blank n).size = n := by rw [size, blank, size_zeros]

theorem inBounds_blank {n : Nat} (h : start + len ≤ n) : (blank n).InBounds start len := by
  rw [InBounds, size_blank]
  exact h

theorem InBounds.mono {n : Nat} (h : m.InBounds start len) (hn : n ≤ len) :
    m.InBounds start n := by
  unfold InBounds at h ⊢
  omega

theorem getElem?_toList_overlay (h : m.InBounds start bs.length) (i : Nat) :
    (m.overlay start bs).toList[i]? =
      if start ≤ i ∧ i < start + bs.length then bs[i - start]? else m.toList[i]? := by
  have hsize : start + bs.length ≤ m.size := h
  have hstart : (m.toList.take start).length = start := by
    rw [List.length_take, length_toList]
    omega
  rw [toList_overlay, List.append_assoc]
  split
  · next hi =>
    rw [List.getElem?_append_right (by omega), hstart, List.getElem?_append_left (by omega)]
  · next hi =>
    by_cases hlt : i < start
    · rw [List.getElem?_append_left (by omega), List.getElem?_take_of_lt hlt]
    · rw [List.getElem?_append_right (by omega), hstart, List.getElem?_append_right (by omega),
        List.getElem?_drop]
      congr 1
      omega

theorem getElem?_slice (m : Memory) (start len j : Nat) :
    (m.slice start len)[j]? = if j < len then m.toList[start + j]? else none := by
  rw [slice_eq, List.getElem?_take, List.getElem?_drop]

theorem take_slice (m : Memory) (start : Nat) {n len : Nat} (hn : n ≤ len) :
    (m.slice start len).take n = m.slice start n := by
  rw [slice_eq, slice_eq, List.take_take, Nat.min_eq_left hn]

theorem eq_of_toList_eq {m m' : Memory} (h : m.toList = m'.toList) : m = m' := by
  obtain ⟨⟨⟨bytes⟩⟩⟩ := m
  obtain ⟨⟨⟨bytes'⟩⟩⟩ := m'
  cases h
  rfl

theorem overlay_nil (m : Memory) (start : Nat) : m.overlay start [] = m := by
  apply eq_of_toList_eq
  rw [toList_overlay, List.append_nil, List.length_nil, Nat.add_zero, List.take_append_drop]

/-- A run is laid over a memory in two parts, one after the other. -/
theorem overlay_append {a b : Bytes} (h : m.InBounds start (a ++ b).length) :
    m.overlay start (a ++ b) = (m.overlay start a).overlay (start + a.length) b := by
  rw [List.length_append] at h
  have hfirst : m.InBounds start a.length := h.mono (Nat.le_add_right _ _)
  have hsecond : (m.overlay start a).InBounds (start + a.length) b.length := by
    unfold InBounds at h ⊢
    rw [size_overlay hfirst]
    omega
  apply eq_of_toList_eq
  apply List.ext_getElem?
  intro i
  rw [getElem?_toList_overlay (by rwa [List.length_append]), List.length_append,
    getElem?_toList_overlay hsecond, getElem?_toList_overlay hfirst,
    List.getElem?_append]
  grind

/-- Bytes that are there already make no difference. -/
theorem overlay_slice (h : m.InBounds start len) : m.overlay start (m.slice start len) = m := by
  apply eq_of_toList_eq
  rw [toList_overlay, length_slice h, slice_eq, List.append_assoc, ← List.drop_drop,
    List.take_append_drop, List.take_append_drop]

/-- What was laid over a memory is found there. -/
theorem slice_overlay_self (h : m.InBounds start bs.length) :
    (m.overlay start bs).slice start bs.length = bs := by
  apply List.ext_getElem?
  intro j
  rw [getElem?_slice, getElem?_toList_overlay h]
  split
  · next hj => rw [if_pos (by omega), Nat.add_sub_cancel_left]
  · next hj => rw [List.getElem?_eq_none (by omega)]

/-- Elsewhere a memory stays as it was. -/
theorem slice_overlay_of_apart {start' len' : Nat} (h : m.InBounds start bs.length)
    (hapart : Apart start bs.length start' len') :
    (m.overlay start bs).slice start' len' = m.slice start' len' := by
  apply List.ext_getElem?
  intro j
  rw [getElem?_slice, getElem?_slice, getElem?_toList_overlay h]
  split
  · next hj => rw [if_neg (by rcases apart_iff.1 hapart with h' | h' | h' | h' <;> omega)]
  · rfl

/-- A word that was stored is read back. -/
theorem readU32_overlay {word : UInt32} (h : m.InBounds start 4) :
    (m.overlay start (.ofU32 word)).readU32 start = .ok word := by
  have hroom : m.InBounds start (Bytes.ofU32 word).length := by rwa [Bytes.length_ofU32]
  have hin : (m.overlay start (.ofU32 word)).InBounds start 4 := h.of_size (size_overlay hroom)
  have hslice := slice_overlay_self hroom
  rw [Bytes.length_ofU32] at hslice
  rw [readU32, read, if_pos hin, hslice]
  simp only [Except.map, Bytes.toU32_ofU32]

/-! ### What lies inside an overlay, and what outside -/

section Frame

variable {k n : Nat}

/-- Memories of one size that differ in no byte outside the given runs of addresses. -/
structure ChangedWithin (runs : List (Nat × Nat)) (m m' : Memory) : Prop where
  size : m'.size = m.size
  outside : ∀ i, (∀ r ∈ runs, ¬ (r.1 ≤ i ∧ i < r.1 + r.2)) → m'.toList[i]? = m.toList[i]?

theorem changedWithin_overlay (h : m.InBounds start bs.length) :
    ChangedWithin [(start, bs.length)] m (m.overlay start bs) := by
  refine ⟨size_overlay h, fun i hi => ?_⟩
  rw [getElem?_toList_overlay h, if_neg (hi _ List.mem_cons_self)]

theorem ChangedWithin.trans {runs runs' : List (Nat × Nat)} {m' m'' : Memory}
    (h : ChangedWithin runs m m') (h' : ChangedWithin runs' m' m'') :
    ChangedWithin (runs ++ runs') m m'' := by
  refine ⟨h'.size.trans h.size, fun i hi => ?_⟩
  rw [List.forall_mem_append] at hi
  exact (h'.outside i hi.2).trans (h.outside i hi.1)

/-- A part of what was laid over a memory is found there. -/
theorem slice_overlay_within (h : m.InBounds start bs.length) (hk : k + n ≤ bs.length) :
    (m.overlay start bs).slice (start + k) n = (bs.drop k).take n := by
  apply List.ext_getElem?
  intro j
  rw [getElem?_slice, getElem?_toList_overlay h, List.getElem?_take]
  split
  · rw [if_pos (by omega), List.getElem?_drop]
    congr 1
    omega
  · rfl

theorem drop_overlay (h : m.InBounds start bs.length) (hk : k ≤ bs.length) :
    (m.overlay start bs).toList.drop (start + k) =
      bs.drop k ++ m.toList.drop (start + bs.length) := by
  have hsize : start + bs.length ≤ m.size := h
  have hstart : (m.toList.take start).length = start := by
    rw [List.length_take, length_toList]
    omega
  rw [toList_overlay, List.append_assoc, List.drop_append, hstart,
    List.drop_eq_nil_of_le (by omega), List.nil_append, Nat.add_sub_cancel_left,
    List.drop_append_of_le_length hk]

theorem readU32_overlay_of_apart {start' : Nat} (h : m.InBounds start bs.length)
    (hapart : Apart start bs.length start' 4) :
    (m.overlay start bs).readU32 start' = m.readU32 start' := by
  have hbounds : (m.overlay start bs).InBounds start' 4 ↔ m.InBounds start' 4 := by
    simp only [InBounds, size_overlay h]
  simp only [readU32, read, slice_overlay_of_apart h hapart, hbounds]

/-- Two words that are stored one after the other change nothing else, and both are read back if
they are apart. -/
theorem overlay_words {start' : Nat} (h : m.InBounds start 4) (h' : m.InBounds start' 4)
    (word word' : UInt32) :
    let m' := (m.overlay start (.ofU32 word)).overlay start' (.ofU32 word')
    ChangedWithin [(start, 4), (start', 4)] m m' ∧
      (Apart start 4 start' 4 → m'.readU32 start = .ok word ∧ m'.readU32 start' = .ok word') := by
  have hfirst : m.InBounds start (Bytes.ofU32 word).length := by rwa [Bytes.length_ofU32]
  have hroom := h'.of_size (size_overlay hfirst)
  have hsecond : (m.overlay start (.ofU32 word)).InBounds start' (Bytes.ofU32 word').length := by
    rwa [Bytes.length_ofU32]
  refine ⟨?_, fun hapart => ⟨?_, readU32_overlay hroom⟩⟩
  · have hchanged := (changedWithin_overlay hfirst).trans (changedWithin_overlay hsecond)
    rwa [Bytes.length_ofU32, Bytes.length_ofU32] at hchanged
  · rw [readU32_overlay_of_apart hsecond (by rw [Bytes.length_ofU32]; exact hapart.symm)]
    exact readU32_overlay h

end Frame

/-! ## Many overlays -/

/-- The memory with each of the parts laid over it, one after the other. -/
def overlayAll (m : Memory) (parts : List (Nat × Bytes)) : Memory :=
  parts.foldl (fun m part => m.overlay part.1 part.2) m

variable {parts : List (Nat × Bytes)}

theorem overlayAll_cons (m : Memory) (part : Nat × Bytes) (parts : List (Nat × Bytes)) :
    m.overlayAll (part :: parts) = (m.overlay part.1 part.2).overlayAll parts := rfl

theorem size_overlayAll (h : ∀ part ∈ parts, m.InBounds part.1 part.2.length) :
    (m.overlayAll parts).size = m.size := by
  induction parts generalizing m with
  | nil => rfl
  | cons part rest ih =>
    have hpart := size_overlay (h part List.mem_cons_self)
    refine (ih fun part' hpart' => ?_).trans hpart
    exact (h part' (List.mem_cons_of_mem part hpart')).of_size hpart

/-- A run that is apart from every part keeps its bytes. -/
theorem slice_overlayAll (h : ∀ part ∈ parts, m.InBounds part.1 part.2.length)
    (hapart : ∀ part ∈ parts, Apart part.1 part.2.length start len) :
    (m.overlayAll parts).slice start len = m.slice start len := by
  induction parts generalizing m with
  | nil => rfl
  | cons part rest ih =>
    have hpart := h part List.mem_cons_self
    have hsize := size_overlay hpart
    have hrest := ih (m := m.overlay part.1 part.2)
      (fun part' hpart' => (h part' (List.mem_cons_of_mem part hpart')).of_size hsize)
      fun part' hpart' => hapart part' (List.mem_cons_of_mem part hpart')
    exact hrest.trans (slice_overlay_of_apart hpart (hapart part List.mem_cons_self))

end Memory

/-! ## Transfer lists -/

/-- No address lies in both of two buffers. -/
def Iovec.Apart (a b : Iovec) : Prop :=
  Memory.Apart a.base.toNat a.len.toNat b.base.toNat b.len.toNat

instance (a b : Iovec) : Decidable (a.Apart b) :=
  inferInstanceAs (Decidable (Memory.Apart _ _ _ _))

theorem Iovec.capacity_eq_sum (iovs : List Iovec) :
    capacity iovs = (iovs.map fun iov => iov.len.toNat).sum := by
  rw [capacity, List.sum_eq_foldr, List.foldr_map]

namespace Memory

variable {m : Memory} {start len : Nat} {bs : Bytes} {iovs : List Iovec}

theorem checkBuffers_eq_ok :
    m.checkBuffers iovs = .ok () ↔ ∀ iov ∈ iovs, m.InBounds iov.base.toNat iov.len.toNat := by
  simp [checkBuffers]

theorem checkBuffers_error {e : Errno} (h : m.checkBuffers iovs = .error e) : e = .fault := by
  unfold checkBuffers at h
  split at h
  · cases h
  · exact (Except.error.inj h).symm

theorem readIovecs_error {count : UInt32} {e : Errno} (h : m.readIovecs start count = .error e) :
    e = .fault := by
  simp only [readIovecs, read] at h
  split at h
  · split at h
    · cases h
    · exact (Except.error.inj h).symm
  · exact (Except.error.inj h).symm

/-- The transfer list that stands in a memory, or none if it cannot be read. -/
def listed (m : Memory) (start : Nat) (count : UInt32) : List Iovec :=
  match m.readIovecs start count with
  | .ok iovs => iovs
  | .error _ => []

theorem listed_eq {count : UInt32} (h : m.readIovecs start count = .ok iovs) :
    m.listed start count = iovs := by
  rw [listed, h]

theorem spread_nil (iovs : List Iovec) : spread iovs [] = [] := by
  cases iovs <;> rfl

/-- Every part of a spread lies at the beginning of a buffer. -/
theorem mem_spread {part : Nat × Bytes} (h : part ∈ spread iovs bs) :
    ∃ iov ∈ iovs, part.1 = iov.base.toNat ∧ part.2.length ≤ iov.len.toNat := by
  fun_induction spread iovs bs with
  | case1 => cases h
  | case2 => cases h
  | case3 iov rest bs hne ih =>
    rcases List.mem_cons.1 h with rfl | h
    · exact ⟨iov, List.mem_cons_self, rfl, List.length_take_le _ _⟩
    · obtain ⟨iov', hiov', hpart⟩ := ih h
      exact ⟨iov', List.mem_cons_of_mem iov hiov', hpart⟩

/-- What is spread is the beginning of the bytes, as far as the buffers have room. -/
theorem flatMap_spread_append (iovs : List Iovec) (bs : Bytes) :
    (spread iovs bs).flatMap Prod.snd ++ bs.drop (Iovec.capacity iovs) = bs := by
  fun_induction spread iovs bs with
  | case1 bs => rfl
  | case2 iovs => exact List.drop_nil
  | case3 iov rest bs hne ih =>
    rw [List.drop_drop] at ih
    rw [List.flatMap_cons, List.append_assoc, Iovec.capacity_cons, ih]
    exact List.take_append_drop _ _

/-- Bytes that fit the buffers are all spread. -/
theorem flatMap_spread (h : bs.length ≤ Iovec.capacity iovs) :
    (spread iovs bs).flatMap Prod.snd = bs := by
  have hall := flatMap_spread_append iovs bs
  rwa [List.drop_eq_nil_of_le h, List.append_nil] at hall

theorem length_flatMap_spread (iovs : List Iovec) (bs : Bytes) :
    ((spread iovs bs).flatMap Prod.snd).length = min bs.length (Iovec.capacity iovs) := by
  have hlength := congrArg List.length (flatMap_spread_append iovs bs)
  rw [List.length_append, List.length_drop] at hlength
  omega

theorem inBounds_spread (h : ∀ iov ∈ iovs, m.InBounds iov.base.toNat iov.len.toNat) (bs : Bytes) :
    ∀ part ∈ spread iovs bs, m.InBounds part.1 part.2.length := by
  intro part hpart
  obtain ⟨iov, hiov, hbase, hlen⟩ := mem_spread hpart
  exact hbase ▸ (h iov hiov).mono hlen

/-- Bytes that fit buffers which lie inside the memory all find room. -/
theorem scatter_eq_ok (hbuffers : ∀ iov ∈ iovs, m.InBounds iov.base.toNat iov.len.toNat)
    (hfit : bs.length ≤ Iovec.capacity iovs) :
    m.scatter iovs bs = .ok (bs.length, m.overlayAll (spread iovs bs)) := by
  have hall : (spread iovs bs).all (fun part => m.InBounds part.1 part.2.length) = true := by
    simpa using fun a b hab => inBounds_spread hbuffers bs (a, b) hab
  simp only [scatter, hall, if_true, flatMap_spread hfit, overlayAll]

/-- The bytes of the buffers of a transfer list, one after the other. -/
def contents (m : Memory) (iovs : List Iovec) : Bytes :=
  iovs.flatMap fun iov => m.slice iov.base.toNat iov.len.toNat

theorem contents_cons (m : Memory) (iov : Iovec) (iovs : List Iovec) :
    m.contents (iov :: iovs) = m.slice iov.base.toNat iov.len.toNat ++ m.contents iovs := rfl

/-- Bytes are found in buffers if their beginning is found in the first buffer and their rest in the
others. -/
theorem take_contents_cons {iov : Iovec} (h : m.InBounds iov.base.toNat iov.len.toNat)
    (hhead : (m.slice iov.base.toNat iov.len.toNat).take (bs.take iov.len.toNat).length =
      bs.take iov.len.toNat)
    (htail : (m.contents iovs).take (bs.drop iov.len.toNat).length = bs.drop iov.len.toNat) :
    (m.contents (iov :: iovs)).take bs.length = bs := by
  have hlength := length_slice h
  have hhead' : (m.slice iov.base.toNat iov.len.toNat).take bs.length = bs.take iov.len.toNat := by
    rw [← hhead, List.length_take]
    rcases Nat.le_total iov.len.toNat bs.length with hle | hle
    · rw [Nat.min_eq_left hle, List.take_of_length_le (by omega),
        List.take_of_length_le (by omega)]
    · rw [Nat.min_eq_right hle]
  rw [contents, List.flatMap_cons, List.take_append, hlength, hhead', ← List.length_drop]
  exact (congrArg (_ ++ ·) htail).trans (List.take_append_drop _ bs)

/-- The buffers of a transfer list can be gathered if those that are not empty lie inside the
memory, and then their bytes are what is gathered. -/
theorem gather_eq_ok_iff :
    m.gather iovs = .ok bs ↔
      (∀ iov ∈ iovs, iov.len ≠ 0 → m.InBounds iov.base.toNat iov.len.toNat) ∧
        m.contents iovs = bs := by
  induction iovs generalizing bs with
  | nil => simp [gather, contents]
  | cons iov rest ih =>
    rw [gather]
    by_cases hlen : iov.len = 0
    · have hempty : m.slice iov.base.toNat iov.len.toNat = [] := by simp [hlen, slice_eq]
      rw [if_pos hlen, ih, contents, contents, List.flatMap_cons, hempty, List.nil_append]
      simp [hlen]
    · rw [if_neg hlen, read]
      by_cases hin : m.InBounds iov.base.toNat iov.len.toNat
      · simp only [hin, if_true, contents, List.flatMap_cons, List.forall_mem_cons, forall_const,
          hlen, ne_eq, not_false_eq_true, true_and]
        cases hrest : m.gather rest with
        | error e =>
          simp only [reduceCtorEq, false_iff, not_and]
          intro hbuffers
          rw [ih.2 ⟨hbuffers, rfl⟩] at hrest
          cases hrest
        | ok more =>
          obtain ⟨hbuffers, hmore⟩ := ih.1 hrest
          simp only [Except.ok.injEq, ← hmore, contents]
          exact ⟨fun h => ⟨hbuffers, h⟩, fun h => h.2⟩
      · simp [hin, hlen]

theorem gather_error {e : Errno} (h : m.gather iovs = .error e) : e = .fault := by
  fun_induction gather m iovs with
  | case1 => cases h
  | case2 iov rest hlen ih => exact ih h
  | case3 iov rest hlen e' hread =>
    rw [read] at hread
    split at hread
    · cases hread
    · cases hread
      exact (Except.error.inj h).symm
  | case4 iov rest hlen bs hread e' hrest ih =>
    cases h
    exact ih hrest
  | case5 => cases h

theorem length_contents (h : ∀ iov ∈ iovs, iov.len ≠ 0 → m.InBounds iov.base.toNat iov.len.toNat) :
    (m.contents iovs).length = Iovec.capacity iovs := by
  rw [contents, Iovec.capacity_eq_sum, List.length_flatMap]
  congr 1
  refine List.map_congr_left fun iov hiov => ?_
  by_cases hlen : iov.len = 0
  · simp [hlen, slice_eq]
  · exact length_slice (h iov hiov hlen)

/-- What was spread over buffers that are apart is found in them.  The induction is on the transfer
list: the first buffer keeps its part, since the rest of the bytes goes to buffers apart from it. -/
theorem contents_scatter (hbuffers : ∀ iov ∈ iovs, m.InBounds iov.base.toNat iov.len.toNat)
    (hapart : iovs.Pairwise Iovec.Apart) (hfit : bs.length ≤ Iovec.capacity iovs) :
    ((m.overlayAll (spread iovs bs)).contents iovs).take bs.length = bs := by
  fun_induction spread iovs bs generalizing m with
  | case1 bs =>
    rw [Iovec.capacity_nil, Nat.le_zero] at hfit
    rw [List.eq_nil_of_length_eq_zero hfit]
    rfl
  | case2 => rfl
  | case3 iov rest bs hne ih =>
    simp only [List.forall_mem_cons, List.pairwise_cons] at hbuffers hapart
    obtain ⟨hiov, hrest⟩ := hbuffers
    have hlen : (bs.take iov.len.toNat).length ≤ iov.len.toNat := List.length_take_le _ _
    have hfirst := hiov.mono hlen
    -- The rest of the bytes is spread over the memory that has the first part already.
    change ((overlayAll (m.overlay iov.base.toNat (bs.take iov.len.toNat))
      (spread rest (bs.drop iov.len.toNat))).contents (iov :: rest)).take bs.length = bs
    set m₁ := m.overlay iov.base.toNat (bs.take iov.len.toNat) with hm₁
    have hsize₁ : m₁.size = m.size := size_overlay hfirst
    have hrest₁ : ∀ iov ∈ rest, m₁.InBounds iov.base.toNat iov.len.toNat := fun iov' h =>
      (hrest iov' h).of_size hsize₁
    have hparts := inBounds_spread hrest₁ (bs.drop iov.len.toNat)
    have hfit₁ : (bs.drop iov.len.toNat).length ≤ Iovec.capacity rest := by
      rw [Iovec.capacity_cons] at hfit
      rw [List.length_drop]
      omega
    have hkeep : (m₁.overlayAll (spread rest (bs.drop iov.len.toNat))).slice iov.base.toNat
        iov.len.toNat = m₁.slice iov.base.toNat iov.len.toNat := by
      refine slice_overlayAll hparts fun part hpart => ?_
      obtain ⟨iov', hiov', hbase, hlen'⟩ := mem_spread hpart
      exact hbase ▸ (hapart.1 iov' hiov').symm.mono hlen'
    refine take_contents_cons ?_ ?_ (ih hrest₁ hapart.2 hfit₁)
    · exact hiov.of_size ((size_overlayAll hparts).trans hsize₁)
    · rw [hkeep, take_slice _ _ hlen]
      exact slice_overlay_self hfirst

/-- Buffers keep their bytes when something is laid over a run that is apart from them. -/
theorem contents_overlay (h : m.InBounds start bs.length)
    (hapart : ∀ iov ∈ iovs, Apart start bs.length iov.base.toNat iov.len.toNat) :
    (m.overlay start bs).contents iovs = m.contents iovs := by
  rw [contents, contents, List.flatMap_def, List.flatMap_def]
  refine congrArg List.flatten (List.map_congr_left fun iov hiov => ?_)
  exact slice_overlay_of_apart h (hapart iov hiov)

/-- Buffers that are apart from each other and from one more run leave room for it. -/
theorem capacity_add_le (hbuffers : ∀ iov ∈ iovs, m.InBounds iov.base.toNat iov.len.toNat)
    (hapart : iovs.Pairwise Iovec.Apart) (h : m.InBounds start len)
    (hrun : ∀ iov ∈ iovs, Apart start len iov.base.toNat iov.len.toNat) :
    Iovec.capacity iovs + len ≤ m.size := by
  have hsum := sum_le_of_pairwise_apart
    ((start, len) :: iovs.map fun iov => (iov.base.toNat, iov.len.toNat)) m.size
    (by simpa [InBounds] using ⟨h, hbuffers⟩) (by simpa [List.pairwise_map] using ⟨hrun, hapart⟩)
  simp only [List.map_cons, List.sum_cons, List.map_map, Function.comp_def] at hsum
  rw [Iovec.capacity_eq_sum]
  omega

end Memory

end GuestHost
