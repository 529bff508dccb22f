import GuestHost.Proofs.Action
import GuestHost.Proofs.Memory
import GuestHost.Proofs.Stream.File
import GuestHost.Proofs.Wasi.Guest

/-!
# Computing with words

A `Checked` computation works on a state and a guest memory with words of a fixed width.  It
crashes when a sum or a product does not fit its word, a slice leaves what it is cut from, a copy
is between runs of unequal lengths, or too much is to be held at once; and it keeps a log of its
accesses to the memory.

`p.Ends w r w'` says that `p` does nothing of the kind: started in `w` it ends with `r` in `w'`, and
every access fails with a fault exactly if its end, as an exact number, is past the end of the
memory.  The rules take a computation apart step by step, so that nothing above them looks into a
log.
-/

namespace GuestHost

/-- Why a computation cannot go on. -/
inductive Crash where
  /-- A number does not fit its word. -/
  | overflow
  /-- A slice leaves the run that it is cut from. -/
  | outOfRange
  /-- A copy is between runs of unequal lengths. -/
  | unequalLengths
  /-- A run of bytes is too long to be held. -/
  | allocation
  deriving DecidableEq, Repr

/-- An access to the memory of a guest: its address as it was computed, its length, and the error
that it failed with. -/
structure Access where
  start : UInt32
  len : Nat
  failure : Option Errno
  deriving DecidableEq, Repr

/-- An access fails if its exact end is past the end of the memory, and only then. -/
def Access.Exact (m : Memory) (a : Access) : Prop :=
  a.failure = if m.size < a.start.toNat + a.len then some .fault else none

/-- A computation that crashes, or ends with a result or an error number. -/
def Checked (α : Type) : Type :=
  Logged World Access → Except Crash (Except Errno α × Logged World Access)

/-- A world with `bs` laid over its memory from `start` on. -/
def World.overlay (w : World) (start : Nat) (bs : Bytes) : World :=
  { w with memory := w.memory.overlay start bs }

namespace Checked

variable {α β : Type}

instance : Monad Checked where
  pure x := fun l => .ok (.ok x, l)
  bind p f := fun l =>
    match p l with
    | .error crash => .error crash
    | .ok (.error e, l) => .ok (.error e, l)
    | .ok (.ok x, l) => f x l

/-- Cannot go on. -/
def crash (c : Crash) : Checked α := fun _ => .error c

/-- Ends with a given outcome. -/
def ofExcept (r : Except Errno α) : Checked α := fun l => .ok (r, l)

/-- Ends with an error number. -/
def fail (e : Errno) : Checked α := ofExcept (.error e)

/-- The outcome of a computation, as a result. -/
def attempt (p : Checked α) : Checked (Except Errno α) := fun l =>
  (p l).map fun (r, l) => (.ok r, l)

/-- The state and the memory. -/
def get : Checked World := fun l => .ok (.ok l.state, l)

/-- Changes the state and the memory. -/
def modify (f : World → World) : Checked Unit := fun l =>
  .ok (.ok (), { l with state := f l.state })

/-- Notes an access. -/
def record (a : Access) : Checked Unit := fun l => .ok (.ok (), { l with log := l.log ++ [a] })

/-! ## Rules -/

/-- Started in `w`, the computation does not crash, ends with `r` in `w'`, and all its accesses are
exact. -/
structure Ends (p : Checked α) (w : World) (r : Except Errno α) (w' : World) : Prop where
  size : w'.memory.size = w.memory.size
  run : ∀ log, ∃ accesses, p ⟨w, log⟩ = .ok (r, ⟨w', log ++ accesses⟩) ∧
    ∀ a ∈ accesses, a.Exact w.memory

variable {p : Checked α} {f : α → Checked β} {w w' w'' : World} {x : α} {e : Errno}
  {r : Except Errno α} {r' : Except Errno β}

theorem Ends.size_le {n : Nat} (h : Ends p w r w') (hw : w.memory.size ≤ n) :
    w'.memory.size ≤ n :=
  h.size ▸ hw

theorem ends_ofExcept {r' : Except Errno α} (h : r = r') (w : World) :
    Ends (ofExcept r) w r' w := by
  subst h
  exact ⟨rfl, fun log => ⟨[], by rw [List.append_nil]; rfl, List.forall_mem_nil _⟩⟩

theorem ends_pure (x : α) (w : World) : Ends (pure x) w (.ok x) w :=
  ends_ofExcept rfl w

theorem ends_fail (e : Errno) (w : World) : Ends (fail e : Checked α) w (.error e) w :=
  ends_ofExcept rfl w

theorem ends_get (w : World) : Ends get w (.ok w) w :=
  ⟨rfl, fun log => ⟨[], by rw [List.append_nil]; rfl, List.forall_mem_nil _⟩⟩

theorem ends_modify {g : World → World} (h : (g w).memory.size = w.memory.size) :
    Ends (modify g) w (.ok ()) (g w) :=
  ⟨h, fun log => ⟨[], by rw [List.append_nil]; rfl, List.forall_mem_nil _⟩⟩

theorem ends_record {a : Access} (h : a.Exact w.memory) : Ends (record a) w (.ok ()) w :=
  ⟨rfl, fun log => ⟨[a], rfl, by simpa using h⟩⟩

theorem Ends.attempt (h : Ends p w r w') : Ends (attempt p) w (.ok r) w' := by
  refine ⟨h.size, fun log => ?_⟩
  obtain ⟨accesses, hrun, hexact⟩ := h.run log
  refine ⟨accesses, ?_, hexact⟩
  rw [Checked.attempt, hrun]
  rfl

theorem Ends.bind (h : Ends p w (.ok x) w') (hf : Ends (f x) w' r' w'') :
    Ends (p >>= f) w r' w'' := by
  refine ⟨hf.size.trans h.size, fun log => ?_⟩
  obtain ⟨accesses, hrun, hexact⟩ := h.run log
  obtain ⟨accesses', hrun', hexact'⟩ := hf.run (log ++ accesses)
  refine ⟨accesses ++ accesses', ?_, fun a ha => ?_⟩
  · simp only [Bind.bind, hrun]
    rw [hrun', List.append_assoc]
  · rcases List.mem_append.1 ha with ha | ha
    · exact hexact a ha
    · have hexact := hexact' a ha
      rwa [Access.Exact, h.size] at hexact

theorem Ends.bind_error (h : Ends p w (.error e) w') : Ends (p >>= f) w (.error e) w' := by
  refine ⟨h.size, fun log => ?_⟩
  obtain ⟨accesses, hrun, hexact⟩ := h.run log
  refine ⟨accesses, ?_, hexact⟩
  simp only [Bind.bind, hrun]

/-! ## Arithmetic -/

section Arithmetic

variable {a b : UInt32}

/-- The sum of two words, which must be a word. -/
def add (a b : UInt32) : Checked UInt32 :=
  if a.toNat + b.toNat < UInt32.size then pure (a + b) else crash .overflow

/-- The product of two words, which must be a word. -/
def mul (a b : UInt32) : Checked UInt32 :=
  if a.toNat * b.toNat < UInt32.size then pure (a * b) else crash .overflow

/-- The address of an element of an array: that of the array, plus the product of the index and the
width. -/
def element (start : UInt32) (i : Nat) (width : UInt32) : Checked UInt32 := do
  let offset ← mul (.ofNat i) width
  add start offset

/-- The sum of two lengths, which must fit 64 bits. -/
def addLength (m n : Nat) : Checked Nat :=
  if m + n < UInt64.size then pure (m + n) else crash .overflow

/-- The difference of two lengths, which must not be negative. -/
def subLength (m n : Nat) : Checked Nat :=
  if n ≤ m then pure (m - n) else crash .overflow

theorem ends_add (h : a.toNat + b.toNat < 2 ^ 32) (w : World) :
    (a + b).toNat = a.toNat + b.toNat ∧ Ends (add a b) w (.ok (a + b)) w := by
  refine ⟨by rw [UInt32.toNat_add, Nat.mod_eq_of_lt h], ?_⟩
  rw [add, if_pos (by exact h)]
  exact ends_pure _ w

theorem ends_mul (h : a.toNat * b.toNat < 2 ^ 32) (w : World) :
    (a * b).toNat = a.toNat * b.toNat ∧ Ends (mul a b) w (.ok (a * b)) w := by
  refine ⟨by rw [UInt32.toNat_mul, Nat.mod_eq_of_lt h], ?_⟩
  rw [mul, if_pos (by exact h)]
  exact ends_pure _ w

/-- Neither the product nor the sum in the address of an element wraps around if the address, as an
exact number, is that of a byte of some memory. -/
theorem ends_element {start width : UInt32} {i : Nat} (hi : i < 2 ^ 32)
    (h : start.toNat + i * width.toNat < 2 ^ 32) (w : World) :
    (start + .ofNat i * width).toNat = start.toNat + i * width.toNat ∧
      Ends (element start i width) w (.ok (start + .ofNat i * width)) w := by
  have hindex : (UInt32.ofNat i).toNat = i := UInt32.toNat_ofNat_of_lt hi
  obtain ⟨hoffset, hmul⟩ := @ends_mul (.ofNat i) width (by rw [hindex]; omega) w
  rw [hindex] at hoffset
  obtain ⟨haddress, hadd⟩ := @ends_add start (.ofNat i * width) (by rwa [hoffset]) w
  exact ⟨by rw [haddress, hoffset], hmul.bind hadd⟩

theorem ends_addLength {m n : Nat} (h : m + n < 2 ^ 64) (w : World) :
    Ends (addLength m n) w (.ok (m + n)) w := by
  rw [addLength, if_pos (by exact h)]
  exact ends_pure _ w

theorem ends_subLength {m n : Nat} (h : n ≤ m) (w : World) :
    Ends (subLength m n) w (.ok (m - n)) w := by
  rw [subLength, if_pos h]
  exact ends_pure _ w

end Arithmetic

/-! ## Runs of bytes -/

section Runs

variable {bs : Bytes} {start stop : Nat}

/-- The bytes from `start` up to `stop`. -/
def cut (bs : Bytes) (start stop : Nat) : Checked Bytes :=
  if start ≤ stop ∧ stop ≤ bs.length then pure ((bs.take stop).drop start) else crash .outOfRange

/-- The bytes with those from `start` up to `stop` replaced by as many others. -/
def replace (bs : Bytes) (start stop : Nat) (more : Bytes) : Checked Bytes :=
  if start ≤ stop ∧ stop ≤ bs.length then
    if more.length = stop - start then pure (bs.take start ++ more ++ bs.drop stop)
    else crash .unequalLengths
  else crash .outOfRange

/-- Bytes that are held at once. -/
def hold (bs : Bytes) : Checked Bytes :=
  if bs.length ≤ File.largest then pure bs else crash .allocation

theorem ends_cut (h : start ≤ stop) (hstop : stop ≤ bs.length) (w : World) :
    Ends (cut bs start stop) w (.ok ((bs.take stop).drop start)) w := by
  rw [cut, if_pos ⟨h, hstop⟩]
  exact ends_pure _ w

theorem ends_replace (bs more : Bytes) (start : Nat) (hstop : start + more.length ≤ bs.length)
    (w : World) :
    Ends (replace bs start (start + more.length) more) w
      (.ok (bs.take start ++ more ++ bs.drop (start + more.length))) w := by
  rw [replace, if_pos ⟨Nat.le_add_right _ _, hstop⟩, if_pos (Nat.add_sub_cancel_left _ _).symm]
  exact ends_pure _ w

theorem ends_hold (h : bs.length ≤ File.largest) (w : World) : Ends (hold bs) w (.ok bs) w := by
  rw [hold, if_pos h]
  exact ends_pure _ w

end Runs

/-! ## Accesses -/

section Accesses

variable {start : UInt32} {len : Nat} {bs : Bytes}

/-- Where `len` bytes from an address lie, from the first up to the one after the last. -/
def range (start : UInt32) (len : Nat) : Checked (Nat × Nat) := do
  let w ← get
  let stop := start.toNat + len
  if stop < UInt64.size ∧ stop ≤ w.memory.size then
    record ⟨start, len, none⟩
    pure (start.toNat, stop)
  else
    record ⟨start, len, some .fault⟩
    fail .fault

/-- The bytes of a range that was found to lie inside the memory. -/
def load (place : Nat × Nat) : Checked Bytes := do
  let w ← get
  if place.1 ≤ place.2 ∧ place.2 ≤ w.memory.size then
    pure (w.memory.slice place.1 (place.2 - place.1))
  else crash .outOfRange

/-- Copies bytes into a range that was found to lie inside the memory. -/
def copy (place : Nat × Nat) (bs : Bytes) : Checked Unit := do
  let w ← get
  if place.1 ≤ place.2 ∧ place.2 ≤ w.memory.size then
    if bs.length = place.2 - place.1 then
      modify fun w => w.overlay place.1 bs
    else crash .unequalLengths
  else crash .outOfRange

/-- Reads `len` bytes from an address. -/
def slice (start len : UInt32) : Checked Bytes := do
  let place ← range start len.toNat
  load place

/-- Writes bytes from an address on. -/
def write (start : UInt32) (bs : Bytes) : Checked Unit := do
  let place ← range start bs.length
  copy place bs

/-- Reads a word of any width: its bytes are copied out first. -/
def readWord (width : Nat) (decode : Bytes → α) (start : UInt32) : Checked α := do
  let place ← range start width
  let bs ← load place
  let raw ← replace (List.replicate width 0) 0 width bs
  pure (decode raw)

/-- Reads a 32-bit word. -/
def readU32 (start : UInt32) : Checked UInt32 := readWord 4 Bytes.toU32 start

/-- Writes a 32-bit word. -/
def writeU32 (start word : UInt32) : Checked Unit := write start (.ofU32 word)

/-- Writes a 64-bit word. -/
def writeU64 (start : UInt32) (word : UInt64) : Checked Unit := write start (.ofU64 word)

theorem ends_range_of_lt (h : w.memory.InBounds start.toNat len)
    (hfits : start.toNat + len < 2 ^ 64) :
    Ends (range start len) w (.ok (start.toNat, start.toNat + len)) w := by
  have hstop : start.toNat + len ≤ w.memory.size := h
  have hexact : Access.Exact w.memory ⟨start, len, none⟩ := (if_neg (Nat.not_lt.2 hstop)).symm
  refine (ends_get w).bind ?_
  rw [if_pos ⟨hfits, hstop⟩]
  exact (ends_record hexact).bind (ends_pure _ w)

theorem ends_range (h : w.memory.InBounds start.toNat len) (hw : w.memory.size ≤ 2 ^ 32) :
    Ends (range start len) w (.ok (start.toNat, start.toNat + len)) w := by
  have hstop : start.toNat + len ≤ w.memory.size := h
  exact ends_range_of_lt h (by omega)

theorem ends_range_fault (h : ¬ w.memory.InBounds start.toNat len) :
    Ends (range start len) w (.error .fault) w := by
  have hstop : ¬ start.toNat + len ≤ w.memory.size := h
  have hexact : Access.Exact w.memory ⟨start, len, some .fault⟩ :=
    (if_pos (Nat.not_le.1 hstop)).symm
  refine (ends_get w).bind ?_
  rw [if_neg fun h => hstop h.2]
  exact (ends_record hexact).bind (ends_fail _ w)

theorem ends_load {start : Nat} (h : w.memory.InBounds start len) :
    Ends (load (start, start + len)) w (.ok (w.memory.slice start len)) w := by
  refine (ends_get w).bind ?_
  rw [if_pos ⟨Nat.le_add_right _ _, h⟩, Nat.add_sub_cancel_left]
  exact ends_pure _ w

theorem ends_copy {start : Nat} (h : w.memory.InBounds start bs.length) :
    Ends (copy (start, start + bs.length) bs) w (.ok ()) (w.overlay start bs) := by
  refine (ends_get w).bind ?_
  rw [if_pos ⟨Nat.le_add_right _ _, h⟩, if_pos (Nat.add_sub_cancel_left _ _).symm]
  exact ends_modify (Memory.size_overlay h)

theorem ends_slice (start len : UInt32) (hw : w.memory.size ≤ 2 ^ 32) :
    Ends (slice start len) w (w.memory.read start.toNat len.toNat) w := by
  rw [Memory.read]
  by_cases h : w.memory.InBounds start.toNat len.toNat
  · rw [if_pos h]
    exact (ends_range h hw).bind (ends_load h)
  · rw [if_neg h]
    exact (ends_range_fault h).bind_error

theorem ends_readWord (width : Nat) (decode : Bytes → α) (start : UInt32)
    (hw : w.memory.size ≤ 2 ^ 32) :
    Ends (readWord width decode start) w ((w.memory.read start.toNat width).map decode) w := by
  rw [Memory.read]
  by_cases h : w.memory.InBounds start.toNat width
  · have hlength := Memory.length_slice h
    have hraw := ends_replace (List.replicate width 0) (w.memory.slice start.toNat width) 0
      (by simp [hlength]) w
    rw [hlength, Nat.zero_add] at hraw
    rw [if_pos h]
    refine (ends_range h hw).bind ((ends_load h).bind (hraw.bind ?_))
    simp only [List.take_zero, List.nil_append, List.drop_replicate, Nat.sub_self,
      List.replicate_zero, List.append_nil]
    exact ends_pure _ w
  · rw [if_neg h]
    exact (ends_range_fault h).bind_error

theorem ends_readU32 (start : UInt32) (hw : w.memory.size ≤ 2 ^ 32) :
    Ends (readU32 start) w (w.memory.readU32 start.toNat) w :=
  ends_readWord 4 Bytes.toU32 start hw

theorem ends_write (h : w.memory.InBounds start.toNat bs.length) (hw : w.memory.size ≤ 2 ^ 32) :
    Ends (write start bs) w (.ok ()) (w.overlay start.toNat bs) :=
  (ends_range h hw).bind (ends_copy h)

theorem ends_write_fault (h : ¬ w.memory.InBounds start.toNat bs.length) :
    Ends (write start bs) w (.error .fault) w :=
  (ends_range_fault h).bind_error

end Accesses

end Checked

end GuestHost
