import GuestHost.Proofs.Checked

/-!
# Transfer lists, word by word

The entries of a transfer list are read one word after the other, each at an address computed from
its index; a scatter first works out where every chunk goes and then copies the chunks.  Both come
to what `Memory.readIovecs` and `Memory.scatter` say, and no address wraps around: the array as a
whole was found to lie inside the memory before any of its entries is looked at.
-/

namespace GuestHost

namespace Memory

variable {m : Memory} {start : Nat}

theorem slice_add (m : Memory) (start a b : Nat) :
    m.slice start (a + b) = m.slice start a ++ m.slice (start + a) b := by
  rw [slice_eq, slice_eq, slice_eq, List.take_add, List.drop_drop]

theorem readU32_of_inBounds (h : m.InBounds start 4) :
    m.readU32 start = .ok (Bytes.toU32 (m.slice start 4)) := by
  rw [readU32, read, if_pos h]
  rfl

theorem length_gather {iovs : List Iovec} {bs : Bytes} (h : m.gather iovs = .ok bs) :
    bs.length = Iovec.capacity iovs := by
  obtain ⟨hin, rfl⟩ := gather_eq_ok_iff.1 h
  exact length_contents hin

end Memory

namespace Iovec

theorem decodeList_append {a b : Bytes} (ha : a.length = 4) (hb : b.length = 4) (rest : Bytes) :
    decodeList (a ++ (b ++ rest)) = ⟨Bytes.toU32 a, Bytes.toU32 b⟩ :: decodeList rest := by
  match a, ha, b, hb with
  | [_, _, _, _], _, [_, _, _, _], _ => rfl

theorem length_decodeList_le (bs : Bytes) : 8 * (decodeList bs).length ≤ bs.length := by
  fun_induction decodeList bs with
  | case1 => simp only [List.length_cons]; omega
  | case2 => simp

theorem capacity_le (iovs : List Iovec) : capacity iovs ≤ iovs.length * (2 ^ 32 - 1) := by
  induction iovs with
  | nil => simp
  | cons iov rest ih =>
    have hlen : iov.len.toNat < 2 ^ 32 := iov.len.toNat_lt
    rw [capacity_cons, List.length_cons]
    omega

end Iovec

namespace Checked

variable {w : World} {iovs : List Iovec}

/-! ## Reading a list -/

/-- The entries from number `i` on of the list at `start`. -/
def readEntries (start : UInt32) : (i count : Nat) → Checked (List Iovec)
  | _, 0 => pure []
  | i, count + 1 => do
    let entry ← element start i 8
    let base ← readU32 entry
    let second ← add entry 4
    let len ← readU32 second
    let rest ← readEntries start (i + 1) count
    pure (⟨base, len⟩ :: rest)

/-- The entries of the list at `start`.  A list whose size does not fit a word is refused as a
whole. -/
def readIovecs (start count : UInt32) : Checked (List Iovec) := do
  if count.toNat * 8 < UInt32.size then
    let _ ← range start (count * 8).toNat
    readEntries start 0 count.toNat
  else
    record ⟨start, 8 * count.toNat, some .fault⟩
    fail .fault

theorem ends_readEntries {start : UInt32} {i count : Nat} (hw : w.memory.size ≤ 2 ^ 32)
    (h : w.memory.InBounds (start.toNat + 8 * i) (8 * count)) :
    Ends (readEntries start i count) w
      (.ok (Iovec.decodeList (w.memory.slice (start.toNat + 8 * i) (8 * count)))) w := by
  induction count generalizing i with
  | zero =>
    have hnone : w.memory.slice (start.toNat + 8 * i) 0 = [] := by
      rw [Memory.slice_eq, List.take_zero]
    rw [Nat.mul_zero, hnone]
    exact ends_pure _ w
  | succ count ih =>
    have hroom : start.toNat + 8 * i + 8 * (count + 1) ≤ w.memory.size := h
    have height : i * (8 : UInt32).toNat = 8 * i := Nat.mul_comm i 8
    have hfour : (4 : UInt32).toNat = 4 := rfl
    -- The entry lies inside the memory, so neither its address nor that of its second word wraps.
    obtain ⟨hentry, helement⟩ := @ends_element start 8 i (by omega) (by omega) w
    generalize start + .ofNat i * 8 = entry at hentry helement
    obtain ⟨hsecond, hadd⟩ := @ends_add entry 4 (by omega) w
    generalize entry + 4 = second at hsecond hadd
    rw [height] at hentry
    rw [hentry, hfour] at hsecond
    have hbase : w.memory.InBounds (start.toNat + 8 * i) 4 := by
      unfold Memory.InBounds
      omega
    have hlen : w.memory.InBounds (start.toNat + 8 * i + 4) 4 := by
      unfold Memory.InBounds
      omega
    have hreadBase := ends_readU32 entry hw
    rw [hentry, Memory.readU32_of_inBounds hbase] at hreadBase
    have hreadLen := ends_readU32 second hw
    rw [hsecond, Memory.readU32_of_inBounds hlen] at hreadLen
    have hrest := ih (i := i + 1) (by unfold Memory.InBounds; omega)
    have hcut : w.memory.slice (start.toNat + 8 * i) (8 * (count + 1)) =
        w.memory.slice (start.toNat + 8 * i) 4 ++
          (w.memory.slice (start.toNat + 8 * i + 4) 4 ++
            w.memory.slice (start.toNat + 8 * (i + 1)) (8 * count)) := by
      have hnext : start.toNat + 8 * (i + 1) = start.toNat + 8 * i + 4 + 4 := by omega
      have hlength : 8 * (count + 1) = 4 + (4 + 8 * count) := by omega
      rw [hnext, hlength, Memory.slice_add, Memory.slice_add]
    rw [hcut, Iovec.decodeList_append (Memory.length_slice hbase) (Memory.length_slice hlen)]
    exact helement.bind <| hreadBase.bind <| hadd.bind <| hreadLen.bind <|
      hrest.bind (ends_pure _ w)

/-- A list whose size fits a word is read or refused as a whole. -/
theorem ends_readIovecs_of_lt {start count : UInt32} (hw : w.memory.size ≤ 2 ^ 32)
    (hcount : 8 * count.toNat < UInt32.size) :
    Ends (readIovecs start count) w (w.memory.readIovecs start.toNat count) w := by
  have hwidth : Iovec.width * count.toNat = 8 * count.toNat := rfl
  have hcomm : count.toNat * 8 = 8 * count.toNat := Nat.mul_comm _ _
  have htotal : (count * 8).toNat = 8 * count.toNat := by
    have height : (8 : UInt32).toNat = 8 := rfl
    rw [UInt32.toNat_mul, height, hcomm, Nat.mod_eq_of_lt hcount]
  rw [readIovecs, Memory.readIovecs, hwidth, hcomm]
  rw [if_pos hcount, if_pos hcount, htotal, Memory.read]
  by_cases h : w.memory.InBounds start.toNat (8 * count.toNat)
  · rw [if_pos h]
    exact (ends_range h hw).bind (ends_readEntries (i := 0) hw h)
  · rw [if_neg h]
    exact (ends_range_fault h).bind_error

theorem readIovecs_of_not_lt {m : Memory} {start : Nat} {count : UInt32}
    (hcount : ¬ 8 * count.toNat < UInt32.size) : m.readIovecs start count = .error .fault :=
  if_neg hcount

theorem ends_readIovecs {start : UInt32} (count : UInt32) (hw : w.memory.size ≤ 2 ^ 32)
    (hstart : start ≠ 0) :
    Ends (readIovecs start count) w (w.memory.readIovecs start.toNat count) w := by
  by_cases hcount : 8 * count.toNat < UInt32.size
  · exact ends_readIovecs_of_lt hw hcount
  · have hpast : w.memory.size < start.toNat + 8 * count.toNat := by
      have hpos : 0 < start.toNat := Nat.pos_of_ne_zero fun h0 => hstart (UInt32.toNat_inj.1 h0)
      rw [UInt32.size] at hcount
      omega
    have hexact : Access.Exact w.memory ⟨start, 8 * count.toNat, some .fault⟩ :=
      (if_pos hpast).symm
    rw [readIovecs_of_not_lt hcount, readIovecs, Nat.mul_comm count.toNat 8, if_neg hcount]
    exact (ends_record hexact).bind (ends_fail _ w)

/-- A list that could be read has so few entries that the lengths of its buffers can be added. -/
theorem capacity_le_of_readIovecs {m : Memory} {start : Nat} {count : UInt32}
    (h : m.readIovecs start count = .ok iovs) : Iovec.capacity iovs ≤ File.largest := by
  rw [Memory.readIovecs] at h
  split at h
  · next hlen =>
    rw [Memory.read] at h
    split at h
    · next hin =>
      have hentries := Iovec.length_decodeList_le (m.slice start (Iovec.width * count.toNat))
      have hcapacity := Iovec.capacity_le iovs
      rw [Memory.length_slice hin, Except.ok.inj h] at hentries
      rw [UInt32.size] at hlen
      unfold File.largest
      omega
    · cases h
  · cases h

/-! ## Gathering -/

/-- The buffers that are not empty, one after the other. -/
def gather : List Iovec → Checked Bytes
  | [] => pure []
  | iov :: rest =>
    if iov.len = 0 then gather rest
    else do
      let bs ← slice iov.base iov.len
      let more ← gather rest
      hold (bs ++ more)

theorem ends_gather (hw : w.memory.size ≤ 2 ^ 32) (hfits : Iovec.capacity iovs ≤ File.largest) :
    Ends (gather iovs) w (w.memory.gather iovs) w := by
  induction iovs with
  | nil => exact ends_pure _ w
  | cons iov rest ih =>
    have hrestFits : Iovec.capacity rest ≤ File.largest := by
      rw [Iovec.capacity_cons] at hfits
      omega
    replace ih := ih hrestFits
    rw [gather, Memory.gather]
    by_cases hlen : iov.len = 0
    · rw [if_pos hlen, if_pos hlen]
      exact ih
    · rw [if_neg hlen, if_neg hlen]
      have hslice := ends_slice iov.base iov.len hw
      cases hread : w.memory.read iov.base.toNat iov.len.toNat with
      | error e =>
        rw [hread] at hslice
        exact hslice.bind_error
      | ok bs =>
        rw [hread] at hslice
        refine hslice.bind ?_
        cases hrest : w.memory.gather rest with
        | error e =>
          rw [hrest] at ih
          exact ih.bind_error
        | ok more =>
          rw [hrest] at ih
          have hwhole : w.memory.gather (iov :: rest) = .ok (bs ++ more) := by
            simp only [Memory.gather, hlen, hread, hrest, if_false]
          have hlength := Memory.length_gather hwhole
          exact ih.bind (ends_hold (by rwa [hlength]) w)

/-! ## Checking buffers -/

/-- Checks buffers and adds their lengths to `total`, up to the largest length. -/
def checkBuffers : List Iovec → (total : Nat) → Checked Nat
  | [], total => pure total
  | iov :: rest, total => do
    let _ ← slice iov.base iov.len
    checkBuffers rest (min (total + iov.len.toNat) (UInt64.size - 1))

theorem ends_checkBuffers {total : Nat} (hw : w.memory.size ≤ 2 ^ 32)
    (htotal : total + Iovec.capacity iovs < 2 ^ 64) :
    Ends (checkBuffers iovs total) w
      ((w.memory.checkBuffers iovs).map fun _ => total + Iovec.capacity iovs) w := by
  induction iovs generalizing total with
  | nil => exact ends_pure _ w
  | cons iov rest ih =>
    rw [Iovec.capacity_cons] at htotal ⊢
    have hslice := ends_slice iov.base iov.len hw
    have hsum : min (total + iov.len.toNat) (UInt64.size - 1) = total + iov.len.toNat := by
      rw [UInt64.size]
      omega
    have hrest : Ends (checkBuffers rest (total + iov.len.toNat)) w _ w := ih (by omega)
    rw [checkBuffers, hsum]
    rw [Memory.read] at hslice
    by_cases h : w.memory.InBounds iov.base.toNat iov.len.toNat
    · rw [if_pos h] at hslice
      have hcheck : w.memory.checkBuffers (iov :: rest) = w.memory.checkBuffers rest := by
        simp only [Memory.checkBuffers, List.all_cons, h, decide_true, Bool.true_and]
      rw [hcheck, ← Nat.add_assoc]
      exact hslice.bind hrest
    · rw [if_neg h] at hslice
      have hcheck : w.memory.checkBuffers (iov :: rest) = .error .fault := by
        simp only [Memory.checkBuffers, List.all_cons, h, decide_false, Bool.false_and,
          Bool.false_eq_true, if_false]
      rw [hcheck]
      exact hslice.bind_error

/-- The lengths of the buffers of a list that was read add up to its capacity. -/
theorem ends_checkBuffers_of_readIovecs {start : Nat} {count : UInt32}
    (hw : w.memory.size ≤ 2 ^ 32) (h : w.memory.readIovecs start count = .ok iovs) :
    Ends (checkBuffers iovs 0) w
      ((w.memory.checkBuffers iovs).map fun _ => Iovec.capacity iovs) w := by
  have hfits := capacity_le_of_readIovecs h
  unfold File.largest at hfits
  have hcheck := @ends_checkBuffers w iovs 0 hw (by omega)
  rwa [Nat.zero_add] at hcheck

/-! ## Scattering -/

/-- Where the chunks of `left` bytes go, each with its length. -/
def plan : List Iovec → (left : Nat) → Checked (List ((Nat × Nat) × Nat))
  | [], _ => pure []
  | iov :: rest, left =>
    if left = 0 then pure []
    else do
      let take := min left iov.len.toNat
      let place ← range iov.base take
      let left ← subLength left take
      let more ← plan rest left
      pure ((place, take) :: more)

/-- Copies the chunks to their places and counts the bytes. -/
def copyChunks (src : Bytes) : List ((Nat × Nat) × Nat) → (copied : Nat) → Checked Nat
  | [], copied => pure copied
  | (place, take) :: rest, copied => do
    let stop ← addLength copied take
    let chunk ← cut src copied stop
    copy place chunk
    copyChunks src rest stop

/-- Spreads bytes over the buffers of a transfer list, and counts those that found room. -/
def scatter (iovs : List Iovec) (src : Bytes) : Checked Nat := do
  let chunks ← plan iovs src.length
  copyChunks src chunks 0

/-- The place and the length of each part. -/
def places (parts : List (Nat × Bytes)) : List ((Nat × Nat) × Nat) :=
  parts.map fun part => ((part.1, part.1 + part.2.length), part.2.length)

/-- A plan comes about if every part lies inside the memory. -/
theorem ends_plan (iovs : List Iovec) (bs : Bytes) (w : World) :
    Ends (plan iovs bs.length) w
      (if ∀ part ∈ Memory.spread iovs bs, w.memory.InBounds part.1 part.2.length then
        .ok (places (Memory.spread iovs bs)) else .error .fault) w := by
  fun_induction Memory.spread iovs bs with
  | case1 => exact ends_pure _ w
  | case2 iovs => cases iovs <;> exact ends_pure _ w
  | case3 iov rest bs hne ih =>
    have hlength : min bs.length iov.len.toNat = (bs.take iov.len.toNat).length := by
      rw [List.length_take, Nat.min_comm]
    have hleft : bs.length - (bs.take iov.len.toNat).length = (bs.drop iov.len.toNat).length := by
      rw [List.length_drop, List.length_take]
      omega
    rw [plan, if_neg (by simpa using hne), hlength]
    simp only [List.forall_mem_cons]
    by_cases hpart : w.memory.InBounds iov.base.toNat (bs.take iov.len.toNat).length
    · have hsub := ends_subLength (m := bs.length) (n := (bs.take iov.len.toNat).length)
        (hlength ▸ Nat.min_le_left _ _) w
      have hbase : iov.base.toNat < 2 ^ 32 := iov.base.toNat_lt
      have hlen : iov.len.toNat < 2 ^ 32 := iov.len.toNat_lt
      have hplace := ends_range_of_lt hpart (by omega)
      rw [hleft] at hsub
      refine hplace.bind (hsub.bind ?_)
      by_cases hrest : ∀ part ∈ Memory.spread rest (bs.drop iov.len.toNat),
          w.memory.InBounds part.1 part.2.length
      · rw [if_pos hrest] at ih
        rw [if_pos ⟨hpart, hrest⟩]
        exact ih.bind (ends_pure _ w)
      · rw [if_neg hrest] at ih
        rw [if_neg fun h => hrest h.2]
        exact ih.bind_error
    · rw [if_neg fun h => hpart h.1]
      exact (ends_range_fault hpart).bind_error

theorem ends_copyChunks {parts : List (Nat × Bytes)} {src before after : Bytes}
    (hsrc : src = before ++ (parts.flatMap Prod.snd ++ after)) (hfits : src.length < 2 ^ 64)
    (h : ∀ part ∈ parts, w.memory.InBounds part.1 part.2.length) :
    Ends (copyChunks src (places parts) before.length) w
      (.ok (before.length + (parts.flatMap Prod.snd).length))
      { w with memory := w.memory.overlayAll parts } := by
  induction parts generalizing w before with
  | nil => exact ends_pure _ w
  | cons part rest ih =>
    obtain ⟨hpart, hrest⟩ := List.forall_mem_cons.1 h
    rw [List.flatMap_cons, List.append_assoc, ← List.append_assoc] at hsrc
    have hlength : before.length + part.2.length = (before ++ part.2).length :=
      List.length_append.symm
    have hstop : (before ++ part.2).length ≤ src.length :=
      hsrc ▸ (List.prefix_append (before ++ part.2) _).length_le
    have hchunk : (src.take (before ++ part.2).length).drop before.length = part.2 := by
      rw [hsrc, List.take_left, List.drop_left]
    have hcut : Ends (cut src before.length (before ++ part.2).length) w _ w :=
      ends_cut (by omega) hstop w
    rw [hchunk] at hcut
    have hcopied := ih (w := w.overlay part.1 part.2) hsrc
      fun part' hpart' => (hrest part' hpart').of_size (Memory.size_overlay hpart)
    have hcount : before.length + (part.2 ++ rest.flatMap Prod.snd).length =
        (before ++ part.2).length + (rest.flatMap Prod.snd).length := by
      simp only [List.length_append]
      omega
    have hsum := ends_addLength (m := before.length) (n := part.2.length) (by omega) w
    rw [hlength] at hsum
    rw [List.flatMap_cons, hcount]
    exact hsum.bind <| hcut.bind <| (ends_copy hpart).bind hcopied

/-- If every part lies inside the memory, as many bytes are spread as the buffers have room for. -/
theorem ends_scatter_parts {bs : Bytes} (hfits : bs.length < 2 ^ 64)
    (h : ∀ part ∈ Memory.spread iovs bs, w.memory.InBounds part.1 part.2.length) :
    Ends (scatter iovs bs) w (.ok (min bs.length (Iovec.capacity iovs)))
      { w with memory := w.memory.overlayAll (Memory.spread iovs bs) } := by
  have hplan := ends_plan iovs bs w
  rw [if_pos h] at hplan
  have hsrc : bs = [] ++ ((Memory.spread iovs bs).flatMap Prod.snd ++
      bs.drop (Iovec.capacity iovs)) := by
    rw [List.nil_append, Memory.flatMap_spread_append]
  have hcopied := ends_copyChunks hsrc hfits h
  rw [List.length_nil, Nat.zero_add, Memory.length_flatMap_spread] at hcopied
  exact hplan.bind hcopied

/-- If some part does not lie inside the memory, nothing is written. -/
theorem ends_scatter_fault {bs : Bytes}
    (h : ¬ ∀ part ∈ Memory.spread iovs bs, w.memory.InBounds part.1 part.2.length) :
    Ends (scatter iovs bs) w (.error .fault) w := by
  have hplan := ends_plan iovs bs w
  rw [if_neg h] at hplan
  exact hplan.bind_error

/-- Bytes that fit buffers which lie inside the memory are all spread. -/
theorem ends_scatter {bs : Bytes}
    (h : ∀ iov ∈ iovs, w.memory.InBounds iov.base.toNat iov.len.toNat)
    (hfit : bs.length ≤ Iovec.capacity iovs) (hfits : bs.length < 2 ^ 64) :
    Ends (scatter iovs bs) w (.ok bs.length)
      { w with memory := w.memory.overlayAll (Memory.spread iovs bs) } := by
  have hparts := ends_scatter_parts hfits (Memory.inBounds_spread h bs)
  rwa [Nat.min_eq_left hfit] at hparts

end Checked

end GuestHost
