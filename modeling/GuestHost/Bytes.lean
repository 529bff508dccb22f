/-!
# Bytes and little-endian words

A run of bytes is a list.  `Bytes.ofNat width n` writes the low `width` bytes of `n`, the least
significant first, and `Bytes.toNat` reads them back, `ofNat_toNat`.
-/

namespace GuestHost

/-- A run of bytes. -/
abbrev Bytes := List UInt8

namespace Bytes

/-- The low `width` bytes of `n`, the least significant first. -/
def ofNat : (width n : Nat) → Bytes
  | 0, _ => []
  | width + 1, n => UInt8.ofNat n :: ofNat width (n / 256)

/-- The number whose little-endian bytes these are. -/
def toNat : Bytes → Nat
  | [] => 0
  | b :: rest => b.toNat + 256 * toNat rest

@[simp]
theorem length_ofNat (width n : Nat) : (ofNat width n).length = width := by
  induction width generalizing n with
  | zero => rfl
  | succ width ih => simp [ofNat, ih]

theorem ofNat_toNat (bs : Bytes) : ofNat bs.length (toNat bs) = bs := by
  induction bs with
  | nil => rfl
  | cons b rest ih =>
    have hb : b.toNat < 256 := b.toNat_lt
    have hdiv : (b.toNat + 256 * toNat rest) / 256 = toNat rest := by omega
    have hhead : UInt8.ofNat (b.toNat + 256 * toNat rest) = b := by
      apply UInt8.toNat_inj.1
      simp
    rw [List.length_cons, ofNat, toNat, hhead, hdiv, ih]

/-- The four bytes of a 32-bit word. -/
def ofU32 (word : UInt32) : Bytes := ofNat 4 word.toNat

/-- The eight bytes of a 64-bit word. -/
def ofU64 (word : UInt64) : Bytes := ofNat 8 word.toNat

/-- The 32-bit word that the first four bytes hold. -/
def toU32 (bs : Bytes) : UInt32 := UInt32.ofNat (toNat bs)

/-- The 64-bit word that the first eight bytes hold. -/
def toU64 (bs : Bytes) : UInt64 := UInt64.ofNat (toNat bs)

end Bytes

end GuestHost
