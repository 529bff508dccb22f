import GuestHost.Text.Utf8

/-!
# Text that was encoded is read back

The bytes of a character lead a run of bytes with just this character, whatever follows them:
`Utf8.lead_encodeChar`, by the four lengths that a character can have.  So decoding is the inverse
of encoding, `Utf8.decode?_encode`.
-/

namespace GuestHost

namespace Utf8

/-! ## Bytes that are given by their number -/

variable {lo hi b : UInt8} {n k : Nat}

theorem toNat_ofNat (hn : n < 256) : (UInt8.ofNat n).toNat = n := UInt8.toNat_ofNat_of_lt' hn

theorem within_ofNat (hn : n < 256) :
    within lo hi (.ofNat n) = true ↔ lo.toNat ≤ n ∧ n ≤ hi.toNat := by
  simp [within, UInt8.le_iff_toNat_le, toNat_ofNat hn]

/-- A byte of 0x80 or more is no character of its own. -/
theorem not_ascii_ofNat (hn : n < 256) (h : 128 ≤ n) : ¬ UInt8.ofNat n < 0x80 := by
  rw [UInt8.lt_iff_toNat_lt, toNat_ofNat hn]
  exact Nat.not_lt.2 h

theorem not_within_ofNat (hn : n < 256) (h : hi.toNat < n) : ¬ within lo hi (.ofNat n) = true := by
  rw [within_ofNat hn]
  exact fun hle => Nat.not_lt.2 hle.2 h

theorem continues_ofNat (n : Nat) : continues (.ofNat (n % 64 + 128)) = true :=
  (within_ofNat (by omega)).2 ⟨Nat.le_add_left 128 _, by change _ ≤ 191; omega⟩

theorem payload_ofNat (n : Nat) : payload (.ofNat (n % 64 + 128)) = n % 64 := by
  rw [payload, toNat_ofNat (by omega)]
  omega

/-- A second byte is within its bounds if it is none of those that the first rules out. -/
theorem within_secondBounds (hn : n < 256) (hlow : n = 0xe0 → 0xa0 ≤ k % 64 + 128)
    (hsurrogate : n = 0xed → k % 64 + 128 ≤ 0x9f) (hlow' : n = 0xf0 → 0x90 ≤ k % 64 + 128)
    (hhigh : n = 0xf4 → k % 64 + 128 ≤ 0x8f) :
    within (secondBounds (.ofNat n)).1 (secondBounds (.ofNat n)).2 (.ofNat (k % 64 + 128)) =
      true := by
  have hnumber {b : UInt8} (h : UInt8.ofNat n = b) : n = b.toNat := by
    rw [← h, toNat_ofNat hn]
  rw [within_ofNat (by omega), secondBounds]
  split
  · next h => exact ⟨hlow (hnumber h), by change _ ≤ 191; omega⟩
  split
  · next h => exact ⟨by change 128 ≤ _; omega, hsurrogate (hnumber h)⟩
  split
  · next h => exact ⟨hlow' (hnumber h), by change _ ≤ 191; omega⟩
  split
  · next h => exact ⟨by change 128 ≤ _; omega, hhigh (hnumber h)⟩
  · exact ⟨by change 128 ≤ _; omega, by change _ ≤ 191; omega⟩

/-! ## One character -/

theorem lead_one (rest : Bytes) (h : n ≤ 0x7f) : lead (.ofNat n) rest = ⟨some (.ofNat n), 0⟩ := by
  have hascii : UInt8.ofNat n < 0x80 := by
    rw [UInt8.lt_iff_toNat_lt, toNat_ofNat (by omega)]
    exact Nat.lt_succ_of_le h
  unfold lead
  rw [if_pos hascii, toNat_ofNat (by omega)]

theorem lead_two (rest : Bytes) (h : 0x7f < n) (h' : n ≤ 0x7ff) :
    lead (.ofNat (n / 64 % 32 + 192)) (.ofNat (n % 64 + 128) :: rest) = ⟨some (.ofNat n), 1⟩ := by
  have hfirst : n / 64 % 32 + 192 < 256 := by omega
  have htwo : within 0xc2 0xdf (.ofNat (n / 64 % 32 + 192)) = true := by
    rw [within_ofNat hfirst]
    change 194 ≤ _ ∧ _ ≤ 223
    omega
  have hvalue : (n / 64 % 32 + 192) % 32 * 64 + n % 64 = n := by omega
  unfold lead
  rw [if_neg (not_ascii_ofNat hfirst (by omega)), if_pos htwo]
  simp only [continues_ofNat, if_true, payload_ofNat, toNat_ofNat hfirst, hvalue]

theorem lead_three (rest : Bytes) (h : 0x7ff < n) (h' : n ≤ 0xffff)
    (hvalid : n < 0xd800 ∨ 0xdfff < n) :
    lead (.ofNat (n / 4096 % 16 + 224))
      (.ofNat (n / 64 % 64 + 128) :: .ofNat (n % 64 + 128) :: rest) = ⟨some (.ofNat n), 2⟩ := by
  have hfirst : n / 4096 % 16 + 224 < 256 := by omega
  have htwo : ¬ within 0xc2 0xdf (.ofNat (n / 4096 % 16 + 224)) = true :=
    not_within_ofNat hfirst (by change 223 < _; omega)
  have hthree : within 0xe0 0xef (.ofNat (n / 4096 % 16 + 224)) = true := by
    rw [within_ofNat hfirst]
    change 224 ≤ _ ∧ _ ≤ 239
    omega
  have hsecond := within_secondBounds (k := n / 64) hfirst (by omega) (by omega) (by omega)
    (by omega)
  have hvalue : ((n / 4096 % 16 + 224) % 16 * 64 + n / 64 % 64) * 64 + n % 64 = n := by omega
  unfold lead
  rw [if_neg (not_ascii_ofNat hfirst (by omega)), if_neg htwo, if_pos hthree]
  simp only [hsecond, continues_ofNat, if_true, payload_ofNat, toNat_ofNat hfirst, hvalue]

theorem lead_four (rest : Bytes) (h : 0xffff < n) (h' : n < 0x110000) :
    lead (.ofNat (n / 262144 % 8 + 240))
      (.ofNat (n / 4096 % 64 + 128) :: .ofNat (n / 64 % 64 + 128) :: .ofNat (n % 64 + 128) ::
        rest) = ⟨some (.ofNat n), 3⟩ := by
  have hfirst : n / 262144 % 8 + 240 < 256 := by omega
  have htwo : ¬ within 0xc2 0xdf (.ofNat (n / 262144 % 8 + 240)) = true :=
    not_within_ofNat hfirst (by change 223 < _; omega)
  have hthree : ¬ within 0xe0 0xef (.ofNat (n / 262144 % 8 + 240)) = true :=
    not_within_ofNat hfirst (by change 239 < _; omega)
  have hfour : within 0xf0 0xf4 (.ofNat (n / 262144 % 8 + 240)) = true := by
    rw [within_ofNat hfirst]
    change 240 ≤ _ ∧ _ ≤ 244
    omega
  have hsecond := within_secondBounds (k := n / 4096) hfirst (by omega) (by omega) (by omega)
    (by omega)
  have hvalue : (((n / 262144 % 8 + 240) % 8 * 64 + n / 4096 % 64) * 64 + n / 64 % 64) * 64 +
      n % 64 = n := by omega
  unfold lead
  rw [if_neg (not_ascii_ofNat hfirst (by omega)), if_neg htwo, if_neg hthree, if_pos hfour]
  simp only [hsecond, continues_ofNat, if_true, payload_ofNat, toNat_ofNat hfirst, hvalue]

/-- The bytes of a character lead with it, whatever follows them. -/
theorem lead_encodeChar (c : Char) (rest : Bytes) :
    ∃ b more, String.utf8EncodeChar c = b :: more ∧
      lead b (more ++ rest) = ⟨some c, more.length⟩ := by
  have hvalid : c.val.toNat < 0xd800 ∨ 0xdfff < c.val.toNat ∧ c.val.toNat < 0x110000 := c.valid
  have hchar : Char.ofNat c.val.toNat = c := Char.ofNat_toNat c
  unfold String.utf8EncodeChar
  dsimp only
  generalize c.val.toNat = n at hvalid hchar
  subst hchar
  split
  · next h => exact ⟨_, _, rfl, lead_one _ h⟩
  split
  · next h h' => exact ⟨_, _, rfl, lead_two _ (by omega) h'⟩
  split
  · next h h' => exact ⟨_, _, rfl, lead_three _ (by omega) h' (by omega)⟩
  · exact ⟨_, _, rfl, lead_four _ (by omega) (by omega)⟩

/-- A byte below 0x80 is all there is of its character. -/
theorem toNat_eq_of_mem {c : Char} (h : b ∈ String.utf8EncodeChar c) (hb : b.toNat < 128) :
    c.toNat = b.toNat := by
  have hvalue : c.val.toNat = c.toNat := rfl
  have hhigh {n : Nat} (hn : n < 256) (hn' : 128 ≤ n) : 128 ≤ (UInt8.ofNat n).toNat := by
    rwa [toNat_ofNat hn]
  by_cases hshort : c.toNat ≤ 127
  · rw [String.utf8EncodeChar, hvalue, if_pos hshort, List.mem_singleton] at h
    rw [h, toNat_ofNat (by omega)]
  · -- Every byte of a longer character has its highest bit set.
    have hall : ∀ b ∈ String.utf8EncodeChar c, 128 ≤ b.toNat := by
      rw [String.utf8EncodeChar, hvalue, if_neg hshort]
      split
      · simp only [List.forall_mem_cons, List.not_mem_nil, false_implies, implies_true, and_true]
        exact ⟨hhigh (by omega) (by omega), hhigh (by omega) (by omega)⟩
      · split
        · simp only [List.forall_mem_cons, List.not_mem_nil, false_implies, implies_true, and_true]
          exact ⟨hhigh (by omega) (by omega), hhigh (by omega) (by omega),
            hhigh (by omega) (by omega)⟩
        · simp only [List.forall_mem_cons, List.not_mem_nil, false_implies, implies_true, and_true]
          exact ⟨hhigh (by omega) (by omega), hhigh (by omega) (by omega),
            hhigh (by omega) (by omega), hhigh (by omega) (by omega)⟩
    exact absurd (hall b h) (Nat.not_le.2 hb)

/-! ## Whole texts -/

theorem parts_encodeChar (c : Char) (rest : Bytes) :
    parts (String.utf8EncodeChar c ++ rest) = some c :: parts rest := by
  obtain ⟨b, more, hbytes, hlead⟩ := lead_encodeChar c rest
  rw [hbytes, List.cons_append, parts, hlead]
  simp

theorem parts_encode (cs : List Char) : parts (cs.flatMap String.utf8EncodeChar) = cs.map some := by
  induction cs with
  | nil => rw [List.flatMap_nil, parts, List.map_nil]
  | cons c cs ih => rw [List.flatMap_cons, parts_encodeChar, ih, List.map_cons]

/-- Decoding a text that was encoded gives the text. -/
theorem decode?_encode (s : String) : decode? (encode s) = some s := by
  have hparts : ∀ cs : List Char, (cs.map some).mapM id = some cs := by
    intro cs
    induction cs with
    | nil => rfl
    | cons c cs ih => simp [ih]
  rw [decode?, encode, parts_encode, hparts, Option.map_some, String.ofList_toList]

/-- The only character with a zero byte is NUL. -/
theorem zero_not_mem_encode {s : String} (h : '\x00' ∉ s.toList) : 0 ∉ encode s := by
  intro hzero
  obtain ⟨c, hc, hbyte⟩ := List.mem_flatMap.1 hzero
  have hnul : c = '\x00' := Char.toNat_inj.1 (toNat_eq_of_mem hbyte (by decide))
  exact h (hnul ▸ hc)

theorem encode_injective : Function.Injective encode := by
  intro s s' h
  have hdecode := decode?_encode s
  rw [h, decode?_encode] at hdecode
  exact (Option.some.inj hdecode).symm

end Utf8

end GuestHost
