import GuestHost.Proofs.Wasi.Guest
import Mathlib.Algebra.BigOperators.Group.List.Basic
import Mathlib.Data.List.TakeWhile

/-!
# Handing strings to a guest

A guest asks for the number and the size of its arguments, makes room, and asks for the arguments;
and so for its environment.  `room` is the size by the rule of the format, and a guest is `Handed`
entries if it finds them at the addresses that it is given, each up to the first NUL.

`serves_ofConfig` says that both pairs of calls do what they should in every state of a guest: they
fail without effect if an answer has no room, and otherwise the two answers agree with each other
and with the configuration.
-/

namespace GuestHost

namespace Memory

/-- The bytes from an address up to the first NUL, if there is one. -/
def text? (m : Memory) (address : Nat) : Option Bytes :=
  if 0 ∈ m.toList.drop address then some ((m.toList.drop address).takeWhile (· ≠ 0)) else none

/-- A text and its NUL, laid over a memory, are read back. -/
theorem text?_overlay {m : Memory} {start : Nat} {before text after : Bytes}
    (h : m.InBounds start (before ++ (text ++ 0 :: after)).length) (htext : 0 ∉ text) :
    (m.overlay start (before ++ (text ++ 0 :: after))).text? (start + before.length) =
      some text := by
  have hdrop := drop_overlay h (k := before.length) (by simp)
  rw [List.drop_left, List.append_assoc, List.cons_append] at hdrop
  rw [text?, hdrop, if_pos (by simp), List.takeWhile_append_of_pos]
  · simp
  · intro b hb
    simpa using fun h0 : b = 0 => htext (h0 ▸ hb)

end Memory

theorem Syscall.Touches.strings {s s' : Wasi} {c : Syscall} (h : Touches s c s') :
    s'.args = s.args ∧ s'.env = s.env := by
  cases h <;> exact ⟨rfl, rfl⟩

namespace StringBlock

/-! ## The size of a block -/

/-- The bytes that entries take up, each with the NUL that follows it.  A single NUL stands for no
entries. -/
def room (entries : List Bytes) : Nat :=
  if entries = [] then 1 else (entries.map fun entry => entry.length + 1).sum

/-- Entries whose number and size fit the words of a guest. -/
structure Fits (entries : List Bytes) : Prop where
  room : room entries < 2 ^ 32
  array : 4 * entries.length < 2 ^ 32

/-- Entries one after the other, each with its NUL. -/
def joined (entries : List Bytes) : Bytes := entries.flatMap fun entry => entry ++ [0]

variable {entries : List Bytes} {entry : Bytes} {i : Nat}

theorem bytes_of_ne_nil (h : entries ≠ []) : bytes ⟨entries⟩ = joined entries := by
  simp [bytes, joined, h]

theorem length_joined (entries : List Bytes) :
    (joined entries).length = (entries.map fun entry => entry.length + 1).sum := by
  simp [joined, List.length_flatMap]

theorem length_bytes_eq_room (entries : List Bytes) : (bytes ⟨entries⟩).length = room entries := by
  by_cases h : entries = []
  · simp [bytes, room, h]
  · rw [bytes_of_ne_nil h, length_joined, room, if_neg h]

theorem length_le_room (entries : List Bytes) : entries.length ≤ room entries := by
  by_cases h : entries = []
  · simp [room, h]
  · rw [room, if_neg h, ← List.length_map (f := fun entry : Bytes => entry.length + 1)]
    refine List.length_le_sum_of_one_le _ fun n hn => ?_
    obtain ⟨entry, -, rfl⟩ := List.mem_map.1 hn
    exact Nat.le_add_left 1 _

/-! ## Where an entry stands -/

theorem offsets_add (base start : Nat) (entries : List Bytes) :
    offsets (base + start) entries = (offsets start entries).map (base + ·) := by
  induction entries generalizing start with
  | nil => rfl
  | cons entry rest ih =>
    have hnext : base + start + entry.length + 1 = base + (start + entry.length + 1) := by omega
    rw [offsets, offsets, List.map_cons, hnext, ih]

/-- An entry stands in the block with its NUL where the array of addresses says. -/
theorem exists_joined (h : entries[i]? = some entry) (start : Nat) :
    ∃ before, joined entries = before ++ (entry ++ 0 :: joined (entries.drop (i + 1))) ∧
      (offsets start entries)[i]? = some (start + before.length) := by
  induction entries generalizing i start with
  | nil => cases h
  | cons first rest ih =>
    cases i with
    | zero =>
      cases h
      exact ⟨[], by simp [joined], rfl⟩
    | succ i =>
      obtain ⟨before, hjoined, hoffset⟩ := ih h (start + first.length + 1)
      refine ⟨first ++ 0 :: before, ?_, ?_⟩
      · rw [List.drop_succ_cons, List.append_assoc, List.cons_append, ← hjoined]
        simp [joined]
      · rw [offsets, List.getElem?_cons_succ, hoffset]
        simp only [List.length_append, List.length_cons]
        congr 1
        omega

theorem exists_bytes (h : entries[i]? = some entry) (start : Nat) :
    ∃ before, bytes ⟨entries⟩ = before ++ (entry ++ 0 :: joined (entries.drop (i + 1))) ∧
      (offsets start entries)[i]? = some (start + before.length) := by
  have hne : entries ≠ [] := by
    rintro rfl
    cases h
  rw [bytes_of_ne_nil hne]
  exact exists_joined h start

theorem lt_of_mem_offsets {start offset : Nat}
    (h : offset ∈ offsets start entries) : offset < start + room entries := by
  obtain ⟨i, hi, hoffset⟩ := List.mem_iff_getElem.1 h
  rw [length_offsets] at hi
  obtain ⟨before, hbytes, hplace⟩ := exists_bytes (List.getElem?_eq_getElem hi) start
  have hlength := length_bytes_eq_room entries
  rw [hbytes] at hlength
  simp only [List.length_append, List.length_cons] at hlength
  rw [List.getElem?_eq_getElem (by rwa [length_offsets]), hoffset] at hplace
  have hvalue := Option.some.inj hplace
  omega

theorem le_of_mem_offsets {start address : Nat} (h : address ∈ offsets start entries) :
    start ≤ address := by
  induction entries generalizing start with
  | nil => cases h
  | cons first rest ih =>
    rcases List.mem_cons.1 h with rfl | h
    · exact Nat.le_refl _
    · have hrest := ih h
      omega

theorem pairwise_offsets (start : Nat) (entries : List Bytes) :
    (offsets start entries).Pairwise (· < ·) := by
  induction entries generalizing start with
  | nil => exact .nil
  | cons first rest ih =>
    refine .cons (fun address haddress => ?_) (ih _)
    have hle := le_of_mem_offsets haddress
    omega

/-! ## The array of addresses -/

/-- The array of the addresses of the entries of a block at `base`. -/
def pointers (b : StringBlock) (base : Nat) : Bytes :=
  (offsets base b.entries).flatMap fun address => Bytes.ofNat 4 address

theorem length_pointers (entries : List Bytes) (base : Nat) :
    (pointers ⟨entries⟩ base).length = 4 * entries.length := by
  simp [pointers, List.length_flatMap, length_offsets, Nat.mul_comm]

/-- Word `i` of a list of words is its element `i`. -/
theorem take_drop_words {words : List Nat} {word : Nat} (h : words[i]? = some word) :
    ((words.flatMap fun w => Bytes.ofNat 4 w).drop (4 * i)).take 4 = Bytes.ofNat 4 word := by
  have hlength (w : Nat) : (Bytes.ofNat 4 w).length = 4 := Bytes.length_ofNat 4 w
  induction words generalizing i with
  | nil => cases h
  | cons w rest ih =>
    rw [List.flatMap_cons]
    cases i with
    | zero =>
      obtain rfl : w = word := Option.some.inj h
      exact List.take_left' (hlength w)
    | succ i =>
      have hnext : 4 * (i + 1) = (Bytes.ofNat 4 w).length + 4 * i := by
        rw [hlength]
        omega
      rw [hnext, List.drop_length_add_append]
      exact ih h

/-- The address that the array gives for an entry is read from it as a word. -/
theorem readU32_pointers {m : Memory} {start base address : Nat}
    (h : m.InBounds start (4 * entries.length))
    (haddress : (offsets base entries)[i]? = some address) :
    (m.overlay start (pointers ⟨entries⟩ base)).readU32 (start + 4 * i) =
      .ok (UInt32.ofNat address) := by
  have hlength := length_pointers entries base
  have hi : i < entries.length := by
    have hlt := (List.getElem?_eq_some_iff.1 haddress).1
    rwa [length_offsets] at hlt
  have hroom : m.InBounds start (pointers ⟨entries⟩ base).length := by rwa [hlength]
  have hin : (m.overlay start (pointers ⟨entries⟩ base)).InBounds (start + 4 * i) 4 := by
    have hsize : start + 4 * entries.length ≤ m.size := h
    rw [Memory.InBounds, Memory.size_overlay hroom]
    omega
  rw [Memory.readU32, Memory.read, if_pos hin,
    Memory.slice_overlay_within hroom (by rw [hlength]; omega)]
  have hword : ((pointers ⟨entries⟩ base).drop (4 * i)).take 4 = Bytes.ofNat 4 address :=
    take_drop_words haddress
  rw [hword]
  simp only [Except.map, Bytes.toU32, Bytes.toNat_ofNat]
  congr 1
  apply UInt32.toNat_inj.1
  simp

/-! ## Storing a block -/

/-- Two writes after both were checked succeed together or fail without effect. -/
theorem checked_writes (m : Memory) (start start' : Nat) (bs bs' : Bytes) :
    (do
      m.check start bs.length
      m.check start' bs'.length
      let m ← m.write start bs
      m.write start' bs' : Except Errno Memory) =
      if m.InBounds start bs.length ∧ m.InBounds start' bs'.length then
        .ok ((m.overlay start bs).overlay start' bs')
      else .error .fault := by
  simp only [Memory.check, bind, Except.bind]
  by_cases h : m.InBounds start bs.length
  · by_cases h' : m.InBounds start' bs'.length
    · simp only [h, h', and_self, if_true, Memory.write_of_inBounds h]
      exact Memory.write_of_inBounds (h'.of_size (Memory.size_overlay h))
    · simp only [h, h', and_false, if_true, if_false]
  · simp only [h, false_and, if_false]

variable {m : Memory} {ptrs buf countPtr sizePtr : UInt32}

theorem storeSizes_eq (entries : List Bytes) (m : Memory) (hcount : countPtr ≠ 0)
    (hsize : sizePtr ≠ 0) :
    storeSizes ⟨entries⟩ m countPtr sizePtr =
      if m.InBounds countPtr.toNat 4 ∧ m.InBounds sizePtr.toNat 4 then
        .ok ((m.overlay countPtr.toNat (.ofU32 (.ofNat entries.length))).overlay sizePtr.toNat
          (.ofU32 (.ofNat (room entries))))
      else .error .fault := by
  have hnull : (countPtr = 0 || sizePtr = 0) = false := by simp [hcount, hsize]
  rw [storeSizes, hnull, length_bytes_eq_room]
  exact checked_writes m _ _ (.ofU32 (.ofNat entries.length)) (.ofU32 (.ofNat (room entries)))

/-- The memory after entries were stored. -/
def stored (entries : List Bytes) (m : Memory) (ptrs buf : Nat) : Memory :=
  (m.overlay ptrs (pointers ⟨entries⟩ buf)).overlay buf (bytes ⟨entries⟩)

theorem toNat_four_mul {n : Nat} (h : 4 * n < 2 ^ 32) : (UInt32.ofNat n * 4).toNat = 4 * n := by
  have hlt : n < 2 ^ 32 := by omega
  have hword : (UInt32.ofNat n).toNat = n := UInt32.toNat_ofNat_of_lt hlt
  have hfour : (4 : UInt32).toNat = 4 := rfl
  rw [UInt32.toNat_mul, hword, hfour, Nat.mul_comm, Nat.mod_eq_of_lt h]

/-- Addresses are stored side by side.  The induction is on the offsets that are left; the array
lies inside the memory, so no address of a word wraps around, and neither does what is stored. -/
theorem storePointers_eq {offsets : List Nat} {i : Nat} (hm : m.size ≤ 2 ^ 32)
    (hbuf : ∀ offset ∈ offsets, buf.toNat + offset < 2 ^ 32)
    (h : m.InBounds (ptrs.toNat + 4 * i) (4 * offsets.length)) :
    storePointers ptrs buf i (offsets.map .ofNat) m =
      (.ok (), m.overlay (ptrs.toNat + 4 * i)
        (offsets.flatMap fun offset => Bytes.ofNat 4 (buf.toNat + offset))) := by
  induction offsets generalizing m i with
  | nil => rw [List.flatMap_nil, Memory.overlay_nil]; rfl
  | cons offset rest ih =>
    obtain ⟨hoffset, hrest⟩ := List.forall_mem_cons.1 hbuf
    have hroom : ptrs.toNat + 4 * i + 4 * (rest.length + 1) ≤ m.size := h
    have hplace : (ptrs + UInt32.ofNat i * 4).toNat = ptrs.toNat + 4 * i := by
      rw [UInt32.toNat_add, toNat_four_mul (by omega), Nat.mod_eq_of_lt (by omega)]
    have hword : (UInt32.ofNat offset).toNat = offset :=
      UInt32.toNat_ofNat_of_lt (Nat.lt_of_le_of_lt (Nat.le_add_left _ _) hoffset)
    have haddress : (buf + UInt32.ofNat offset).toNat = buf.toNat + offset := by
      rw [UInt32.toNat_add, hword, Nat.mod_eq_of_lt hoffset]
    have hfirst : m.InBounds (ptrs.toNat + 4 * i) 4 :=
      h.mono (by rw [List.length_cons]; omega)
    have hlength : (Bytes.ofNat 4 (buf.toNat + offset)).length = 4 := Bytes.length_ofNat 4 _
    have hnext : ptrs.toNat + 4 * (i + 1) = ptrs.toNat + 4 * i + 4 := by omega
    have hwords : (rest.flatMap fun offset => Bytes.ofNat 4 (buf.toNat + offset)).length =
        4 * rest.length := by
      simp [List.length_flatMap, Nat.mul_comm]
    set m₁ := m.overlay (ptrs.toNat + 4 * i) (Bytes.ofNat 4 (buf.toNat + offset)) with hm₁
    have hsize : m₁.size = m.size := Memory.size_overlay (by rwa [hlength])
    have hothers := ih (m := m₁) (i := i + 1) (hsize ▸ hm) hrest (by
      rw [Memory.InBounds, hsize]
      omega)
    have hjoined : m.InBounds (ptrs.toNat + 4 * i) (Bytes.ofNat 4 (buf.toNat + offset) ++
        rest.flatMap fun offset => Bytes.ofNat 4 (buf.toNat + offset)).length := by
      rw [Memory.InBounds, List.length_append, hlength, hwords]
      omega
    rw [List.map_cons, storePointers, hplace, Memory.writeU32_of_inBounds hfirst, Bytes.ofU32,
      haddress, List.flatMap_cons, Memory.overlay_append hjoined, hlength, ← hnext]
    exact hothers

theorem store_null (b : StringBlock) (m : Memory) (h : (ptrs = 0 || buf = 0) = true) :
    b.store m ptrs buf = (.error .inval, m) := by
  have hrefused : b.checkRoom m ptrs buf = .error .inval := by
    simp only [checkRoom, h, if_true]
    rfl
  rw [store, hrefused]

section Store

variable (hptrs : ptrs ≠ 0) (hbuf : buf ≠ 0)

include hptrs hbuf

/-- What lies inside a memory of words fits a word, for it does not begin at null. -/
theorem fits_of_inBounds (hm : m.size ≤ 2 ^ 32)
    (harray : m.InBounds ptrs.toNat (4 * entries.length))
    (hblock : m.InBounds buf.toNat (room entries)) : Fits entries := by
  have hptrs' : 0 < ptrs.toNat := Nat.pos_of_ne_zero fun h => hptrs (UInt32.toNat_inj.1 h)
  have hbuf' : 0 < buf.toNat := Nat.pos_of_ne_zero fun h => hbuf (UInt32.toNat_inj.1 h)
  unfold Memory.InBounds at harray hblock
  exact ⟨by omega, by omega⟩

/-- If the sizes are words, they are compared with the memory as they are. -/
theorem checkRoom_eq (m : Memory) (hfits : Fits entries) :
    checkRoom ⟨entries⟩ m ptrs buf =
      if m.InBounds ptrs.toNat (4 * entries.length) ∧ m.InBounds buf.toNat (room entries) then
        .ok ()
      else .error .fault := by
  have hnull : (ptrs = 0 || buf = 0) = false := by simp [hptrs, hbuf]
  have harray : (UInt32.ofNat (count ⟨entries⟩) * 4).toNat = 4 * entries.length :=
    toNat_four_mul hfits.array
  have hblock : (UInt32.ofNat (bytes ⟨entries⟩).length).toNat = room entries := by
    rw [length_bytes_eq_room]
    exact UInt32.toNat_ofNat_of_lt hfits.room
  rw [checkRoom, hnull, harray, hblock]
  simp only [Memory.check, bind, Except.bind]
  by_cases h : m.InBounds ptrs.toNat (4 * entries.length)
  · simp only [h, true_and, if_true]
    rfl
  · simp only [h, false_and, if_false]
    rfl

/-- If array and block lie inside the memory, all is stored, and no address wraps around. -/
theorem store_of_inBounds (hm : m.size ≤ 2 ^ 32)
    (harray : m.InBounds ptrs.toNat (4 * entries.length))
    (hblock : m.InBounds buf.toNat (room entries)) :
    store ⟨entries⟩ m ptrs buf = (.ok (), stored entries m ptrs.toNat buf.toNat) := by
  have hfits := fits_of_inBounds hptrs hbuf hm harray hblock
  have hlength := length_pointers entries buf.toNat
  have haddresses : ∀ offset ∈ offsets 0 entries, buf.toNat + offset < 2 ^ 32 := by
    intro offset hoffset
    have hlt := lt_of_mem_offsets hoffset
    have hin : buf.toNat + room entries ≤ m.size := hblock
    omega
  have hpointers : (offsets 0 entries).flatMap (fun offset => Bytes.ofNat 4 (buf.toNat + offset)) =
      pointers ⟨entries⟩ buf.toNat := by
    have hoffsets := offsets_add buf.toNat 0 entries
    rw [Nat.add_zero] at hoffsets
    rw [pointers, hoffsets, List.flatMap_map]
  have hin : m.InBounds (ptrs.toNat + 4 * 0) (4 * (offsets 0 entries).length) := by
    rw [length_offsets]
    exact harray
  have hstored := storePointers_eq hm haddresses hin
  rw [hpointers] at hstored
  have hroom : (m.overlay ptrs.toNat (pointers ⟨entries⟩ buf.toNat)).InBounds buf.toNat
      (bytes ⟨entries⟩).length := by
    rw [length_bytes_eq_room]
    exact hblock.of_size (Memory.size_overlay (by rwa [hlength]))
  rw [store, checkRoom_eq hptrs hbuf m hfits, if_pos ⟨harray, hblock⟩]
  simp only [hstored, Nat.mul_zero, Nat.add_zero, Memory.write_of_inBounds hroom]
  rfl

/-- If the sizes are words, nothing is stored unless array and block lie inside the memory. -/
theorem store_of_not_inBounds (hfits : Fits entries)
    (h : ¬ (m.InBounds ptrs.toNat (4 * entries.length) ∧ m.InBounds buf.toNat (room entries))) :
    store ⟨entries⟩ m ptrs buf = (.error .fault, m) := by
  rw [store, checkRoom_eq hptrs hbuf m hfits, if_neg h]

theorem store_eq (m : Memory) (hfits : Fits entries) (hm : m.size ≤ 2 ^ 32) :
    store ⟨entries⟩ m ptrs buf =
      if m.InBounds ptrs.toNat (4 * entries.length) ∧ m.InBounds buf.toNat (room entries) then
        (.ok (), stored entries m ptrs.toNat buf.toNat)
      else (.error .fault, m) := by
  split
  · next h => exact store_of_inBounds hptrs hbuf hm h.1 h.2
  · next h => exact store_of_not_inBounds hptrs hbuf hfits h

end Store

/-! ## What a guest finds -/

/-- A guest finds entries: word `i` of the array at `ptrs` is the address, inside the block at
`buf`, of entry `i` and its NUL.  The addresses increase, and the last NUL ends the block. -/
structure Handed (entries : List Bytes) (ptrs buf : Nat) (m : Memory) : Prop where
  entry : ∀ i entry, entries[i]? = some entry → ∃ address, m.readU32 (ptrs + 4 * i) = .ok address ∧
    buf ≤ address.toNat ∧ address.toNat < buf + room entries ∧
      m.slice address.toNat (entry.length + 1) = entry ++ [0] ∧
        (0 ∉ entry → m.text? address.toNat = some entry)
  increasing : ∀ i j a b, i < j → j < entries.length → m.readU32 (ptrs + 4 * i) = .ok a →
    m.readU32 (ptrs + 4 * j) = .ok b → a < b
  last : ∀ entry address, entries.getLast? = some entry →
    m.readU32 (ptrs + 4 * (entries.length - 1)) = .ok address →
      address.toNat + entry.length + 1 = buf + room entries

section Stored

variable {start start' : Nat}

variable (hptrs : m.InBounds start (4 * entries.length)) (hbuf : m.InBounds start' (room entries))

include hptrs hbuf

theorem changedWithin_stored :
    Memory.ChangedWithin [(start, 4 * entries.length), (start', room entries)] m
      (stored entries m start start') := by
  rw [← length_pointers entries start'] at hptrs ⊢
  rw [← length_bytes_eq_room] at hbuf ⊢
  have hbuf' := hbuf.of_size (Memory.size_overlay hptrs)
  exact (Memory.changedWithin_overlay hptrs).trans (Memory.changedWithin_overlay hbuf')

/-- The address of an entry fits a word, and the array holds it. -/
theorem readU32_stored (hsize : m.size ≤ 2 ^ 32)
    (hapart : Memory.Apart start (4 * entries.length) start' (room entries)) {address : Nat}
    (haddress : (offsets start' entries)[i]? = some address) :
    ∃ word, (stored entries m start start').readU32 (start + 4 * i) = .ok word ∧
      word.toNat = address := by
  have hi : i < entries.length := by
    have hlt := (List.getElem?_eq_some_iff.1 haddress).1
    rwa [length_offsets] at hlt
  obtain ⟨before, hbytes, hoffset⟩ := exists_bytes (List.getElem?_eq_getElem hi) start'
  obtain rfl : address = start' + before.length := by
    rw [haddress] at hoffset
    exact Option.some.inj hoffset
  have hbefore : before.length < room entries := by
    rw [← length_bytes_eq_room, hbytes]
    simp only [List.length_append, List.length_cons]
    omega
  have hfits : start' + before.length < 2 ^ 32 := by
    have hbuf' : start' + room entries ≤ m.size := hbuf
    omega
  -- The block is apart from the array, so the array is read as it was before the block was stored.
  have hread : (stored entries m start start').readU32 (start + 4 * i) =
      (m.overlay start (pointers ⟨entries⟩ start')).readU32 (start + 4 * i) := by
    have hlength := length_pointers entries start'
    have hroom : m.InBounds start (pointers ⟨entries⟩ start').length := by rwa [hlength]
    have hbuf' : (m.overlay start (pointers ⟨entries⟩ start')).InBounds start'
        (bytes ⟨entries⟩).length := by
      rw [length_bytes_eq_room]
      exact hbuf.of_size (Memory.size_overlay hroom)
    have hword : Memory.Apart start' (bytes ⟨entries⟩).length (start + 4 * i) 4 := by
      rw [length_bytes_eq_room]
      rw [Memory.apart_iff] at hapart ⊢
      omega
    exact Memory.readU32_overlay_of_apart hbuf' hword
  refine ⟨_, hread.trans (readU32_pointers hptrs haddress), ?_⟩
  exact UInt32.toNat_ofNat_of_lt hfits

theorem handed_stored (hsize : m.size ≤ 2 ^ 32)
    (hapart : Memory.Apart start (4 * entries.length) start' (room entries)) :
    Handed entries start start' (stored entries m start start') := by
  have hword {i address} (h : (offsets start' entries)[i]? = some address) :=
    readU32_stored hptrs hbuf hsize hapart h
  have hroom := length_bytes_eq_room entries
  have hbuf' : (m.overlay start (pointers ⟨entries⟩ start')).InBounds start'
      (bytes ⟨entries⟩).length := by
    rw [hroom]
    exact hbuf.of_size (Memory.size_overlay (by rwa [length_pointers]))
  refine ⟨fun i entry h => ?_, fun i j a b hij hj ha hb => ?_, fun entry address h ha => ?_⟩
  · obtain ⟨before, hbytes, hoffset⟩ := exists_bytes h start'
    obtain ⟨word, hread, hvalue⟩ := hword hoffset
    rw [hbytes] at hroom
    simp only [List.length_append, List.length_cons] at hroom
    refine ⟨word, hread, by omega, by omega, ?_, fun hnul => ?_⟩
    · rw [hvalue, stored, Memory.slice_overlay_within hbuf' (by rw [hbytes]; simp), hbytes,
        List.drop_left, List.take_length_add_append]
      rfl
    · rw [hvalue, stored, hbytes]
      exact Memory.text?_overlay (hbytes ▸ hbuf') hnul
  · have hlen := length_offsets start' entries
    have hi' : i < (offsets start' entries).length := by omega
    have hj' : j < (offsets start' entries).length := by omega
    obtain ⟨word, hread, hvalue⟩ := hword (List.getElem?_eq_getElem hi')
    obtain ⟨word', hread', hvalue'⟩ := hword (List.getElem?_eq_getElem hj')
    rw [hread] at ha
    rw [hread'] at hb
    cases ha
    cases hb
    rw [UInt32.lt_iff_toNat_lt, hvalue, hvalue']
    exact List.pairwise_iff_getElem.1 (pairwise_offsets start' entries) i j hi' hj' hij
  · rw [List.getLast?_eq_getElem?] at h
    obtain ⟨before, hbytes, hoffset⟩ := exists_bytes h start'
    obtain ⟨word, hread, hvalue⟩ := hword hoffset
    rw [hread] at ha
    cases ha
    have hnothing : entries.drop (entries.length - 1 + 1) = [] :=
      List.drop_eq_nil_of_le (by omega)
    rw [hbytes, hnothing] at hroom
    simp only [joined, List.flatMap_nil, List.length_append, List.length_cons,
      List.length_nil] at hroom
    omega

end Stored

/-! ## Success -/

/-- Where there is room for both words, the number of the entries and the size of the block are
stored. -/
theorem storeSizes_of_inBounds (hroom : room entries < 2 ^ 32) (hcount : countPtr ≠ 0)
    (hsize : sizePtr ≠ 0) (hcount' : m.InBounds countPtr.toNat 4)
    (hsize' : m.InBounds sizePtr.toNat 4) :
    ∃ m', storeSizes ⟨entries⟩ m countPtr sizePtr = .ok m' ∧
      Memory.ChangedWithin [(countPtr.toNat, 4), (sizePtr.toNat, 4)] m m' ∧
      (Memory.Apart countPtr.toNat 4 sizePtr.toNat 4 →
        ∃ count size, m'.readU32 countPtr.toNat = .ok count ∧
          m'.readU32 sizePtr.toNat = .ok size ∧
            count.toNat = entries.length ∧ size.toNat = room entries) := by
  obtain ⟨hchanged, hwords⟩ := Memory.overlay_words hcount' hsize' (.ofNat entries.length)
    (.ofNat (room entries))
  rw [storeSizes_eq entries m hcount hsize, if_pos ⟨hcount', hsize'⟩]
  refine ⟨_, rfl, hchanged, fun hapart => ⟨_, _, (hwords hapart).1, (hwords hapart).2, ?_, ?_⟩⟩
  · exact UInt32.toNat_ofNat_of_lt ((length_le_room entries).trans_lt hroom)
  · exact UInt32.toNat_ofNat_of_lt hroom

/-- Where there is room for both of them, the array and the block are handed over. -/
theorem handed_of_inBounds (hm : m.size ≤ 2 ^ 32) (hptrs : ptrs ≠ 0) (hbuf : buf ≠ 0)
    (harray : m.InBounds ptrs.toNat (4 * entries.length))
    (hblock : m.InBounds buf.toNat (room entries)) :
    ∃ m', store ⟨entries⟩ m ptrs buf = (.ok (), m') ∧
      Memory.ChangedWithin [(ptrs.toNat, 4 * entries.length), (buf.toNat, room entries)] m m' ∧
      (Memory.Apart ptrs.toNat (4 * entries.length) buf.toNat (room entries) →
        Handed entries ptrs.toNat buf.toNat m') :=
  ⟨_, store_of_inBounds hptrs hbuf hm harray hblock, changedWithin_stored harray hblock,
    handed_stored harray hblock hm⟩

end StringBlock

/-! ## The calls -/

/-- The entries that a call hands over, if it hands over any, fit the words of a guest. -/
def Syscall.Fitting (s : Wasi) : Syscall → Prop
  | argsGet _ _ => StringBlock.Fits s.args.entries
  | environGet _ _ => StringBlock.Fits s.env.entries
  | _ => True

/-- Three arguments and no descriptors. -/
def Wasi.threeArgs : Wasi :=
  { args := ⟨[[97], [], [0xC3, 0xA9]]⟩, env := ⟨[]⟩, table := .empty 0, returnOnExit := false }

namespace Wasi

open StringBlock

/-- How a state answers the call for the number and the size of some entries, and the call for the
entries themselves. -/
structure Serves (s : Wasi) (entries : List Bytes) (sizes get : UInt32 → UInt32 → Syscall) :
    Prop where
  sizes : ∀ m countPtr sizePtr, countPtr ≠ 0 → sizePtr ≠ 0 →
    if m.InBounds countPtr.toNat 4 ∧ m.InBounds sizePtr.toNat 4 then
      ∃ m', Syscall.run s m (sizes countPtr sizePtr) = ⟨.success, s, m'⟩ ∧
        Memory.ChangedWithin [(countPtr.toNat, 4), (sizePtr.toNat, 4)] m m' ∧
        (Memory.Apart countPtr.toNat 4 sizePtr.toNat 4 →
          ∃ count size, m'.readU32 countPtr.toNat = .ok count ∧
            m'.readU32 sizePtr.toNat = .ok size ∧
              count.toNat = entries.length ∧ size.toNat = room entries)
    else Syscall.run s m (sizes countPtr sizePtr) = ⟨.fault, s, m⟩
  get : ∀ m ptrs buf, m.size ≤ 2 ^ 32 → ptrs ≠ 0 → buf ≠ 0 →
    if m.InBounds ptrs.toNat (4 * entries.length) ∧ m.InBounds buf.toNat (room entries) then
      ∃ m', Syscall.run s m (get ptrs buf) = ⟨.success, s, m'⟩ ∧
        Memory.ChangedWithin [(ptrs.toNat, 4 * entries.length), (buf.toNat, room entries)] m m' ∧
        (Memory.Apart ptrs.toNat (4 * entries.length) buf.toNat (room entries) →
          Handed entries ptrs.toNat buf.toNat m')
    else Syscall.run s m (get ptrs buf) = ⟨.fault, s, m⟩

variable {s : Wasi} {entries : List Bytes} {sizes get : UInt32 → UInt32 → Syscall}

theorem serves_of_store (hfits : Fits entries)
    (hsizes : ∀ m a b, Syscall.run s m (sizes a b) =
      Syscall.storing s m (StringBlock.storeSizes ⟨entries⟩ m a b))
    (hget : ∀ m a b, Syscall.run s m (get a b) =
      Syscall.handing s (StringBlock.store ⟨entries⟩ m a b)) :
    Serves s entries sizes get := by
  refine ⟨fun m countPtr sizePtr hcount hsize => ?_, fun m ptrs buf hm hptrs hbuf => ?_⟩
  · rw [hsizes]
    split
    · next h =>
      obtain ⟨m', hstore, hfound⟩ := storeSizes_of_inBounds hfits.room hcount hsize h.1 h.2
      exact ⟨m', by rw [hstore]; rfl, hfound⟩
    · next h =>
      rw [storeSizes_eq entries m hcount hsize, if_neg h]
      rfl
  · rw [hget]
    split
    · next h =>
      obtain ⟨m', hstore, hfound⟩ := handed_of_inBounds hm hptrs hbuf h.1 h.2
      exact ⟨m', by rw [hstore]; rfl, hfound⟩
    · next h =>
      rw [store_of_not_inBounds hptrs hbuf hfits h]
      rfl

/-! ## What is served does not change -/

theorem strings_final (w : World) (steps : List GuestStep) :
    (GuestStep.final w steps).wasi.args = w.wasi.args ∧
      (GuestStep.final w steps).wasi.env = w.wasi.env := by
  induction steps generalizing w with
  | nil => exact ⟨rfl, rfl⟩
  | cons step rest ih =>
    obtain ⟨hargs, henv⟩ := ih (step.run w).2
    have hstep : (step.run w).2.wasi.args = w.wasi.args ∧
        (step.run w).2.wasi.env = w.wasi.env := by
      cases step with
      | compute change => exact ⟨rfl, rfl⟩
      | call c => exact (Syscall.run_touches w.wasi w.memory c).strings
      | exit code => exact ⟨rfl, rfl⟩
    exact ⟨hargs.trans hstep.1, henv.trans hstep.2⟩

/-- The arguments of a configuration, as bytes. -/
def argEntries (c : Config) : List Bytes := c.args.map Utf8.encode

/-- The environment of a configuration, as bytes: each key and its value, joined by a sign of
equality. -/
def envEntries (c : Config) : List Bytes :=
  c.env.map fun pair => Utf8.encode (pair.1 ++ "=" ++ pair.2)

/-- The state that a configuration describes serves its arguments and its environment, and does so
whatever steps a guest has taken. -/
theorem serves_ofConfig (c : Config) (streams : Table.StandardStreams)
    (hargs : Fits (argEntries c)) (henv : Fits (envEntries c)) :
    ∃ s, ofConfig c streams = .ok s ∧ ∀ m steps,
      Serves (GuestStep.final ⟨s, m⟩ steps).wasi (argEntries c) .argsSizesGet .argsGet ∧
        Serves (GuestStep.final ⟨s, m⟩ steps).wasi (envEntries c) .environSizesGet
          .environGet := by
  obtain ⟨free, hfree⟩ := Table.insertStandards_empty c.tableSize.toNat c.stdio streams
  refine ⟨_, by rw [ofConfig, hfree], fun m steps => ?_⟩
  obtain ⟨hargs', henv'⟩ := strings_final ⟨_, m⟩ steps
  have henvEntries : envEntries c = (c.env.map envEntry).map Utf8.encode := by
    rw [List.map_map]
    rfl
  refine ⟨serves_of_store hargs (fun m a b => ?_) (fun m a b => ?_),
    serves_of_store henv (fun m a b => ?_) (fun m a b => ?_)⟩
  · rw [Syscall.run, hargs']
    rfl
  · rw [Syscall.run, hargs']
    rfl
  · rw [Syscall.run, henv', henvEntries]
    rfl
  · rw [Syscall.run, henv', henvEntries]
    rfl

/-- Three arguments, one of them empty and one of two bytes, and a variable with an empty value. -/
def greeting : Config := { args := ["a", "", "é"], env := [("K", "")] }

theorem serves_ofConfig_greeting :
    Fits (argEntries greeting) ∧ Fits (envEntries greeting) ∧
      argEntries greeting = [[97], [], [0xC3, 0xA9]] ∧ room (argEntries greeting) = 6 ∧
      envEntries greeting = [[75, 61]] ∧
      ∃ s, ofConfig greeting (.over [] ⟨1⟩ ⟨2⟩) = .ok s ∧ ∀ m steps,
        Serves (GuestStep.final ⟨s, m⟩ steps).wasi (argEntries greeting) .argsSizesGet .argsGet ∧
          Serves (GuestStep.final ⟨s, m⟩ steps).wasi (envEntries greeting) .environSizesGet
            .environGet := by
  have hargs : argEntries greeting = [[97], [], [0xC3, 0xA9]] := by decide +kernel
  have henv : envEntries greeting = [[75, 61]] := by decide +kernel
  have hfits : Fits (argEntries greeting) := by
    rw [hargs]
    exact ⟨by decide, by decide⟩
  have hfits' : Fits (envEntries greeting) := by
    rw [henv]
    exact ⟨by decide, by decide⟩
  exact ⟨hfits, hfits', hargs, by rw [hargs]; rfl, henv,
    serves_ofConfig greeting (.over [] ⟨1⟩ ⟨2⟩) hfits hfits'⟩

end Wasi

end GuestHost
