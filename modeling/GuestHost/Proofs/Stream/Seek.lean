import GuestHost.Proofs.Stream.File

/-!
# Where a seek leads

A seek is made with signed 64-bit words: the size of the file and its cursor are turned into words,
then the offset is added to one of them or taken from it, and each of these steps may fail.
`seekWords` makes them one by one and comes to what `File.seek` says of exact numbers,
`seekWords_eq`.

The cursor of a file that has been operated on never leaves the places that a file can have,
`Op.cursor_final_le`.  So the size and the cursor always fit words, the only step that can fail is
the last one, and `Op.final_seeksExactly` says for every offset where the seek leads or why it is
refused.
-/

namespace GuestHost

namespace File

/-! ## Seeking with words -/

section Words

/-- A number as a signed word, if it fits one. -/
def word? (n : Nat) : Option Int64 := if fitsI64 n then some (.ofNat n) else none

/-- The sum of two words, unless it would wrap around. -/
def sum? (a b : Int64) : Option Int64 := if fitsI64 (a.toInt + b.toInt) then some (a + b) else none

/-- The difference of two words, unless it would wrap around. -/
def difference? (a b : Int64) : Option Int64 :=
  if fitsI64 (a.toInt - b.toInt) then some (a - b) else none

/-- The place that a seek leads to.  The size and the cursor must both fit words, whichever of them
the offset is counted from. -/
def place? (f : File) (offset : Int64) (whence : Whence) : Option Int64 := do
  let size ← word? f.size
  let cursor ← word? f.cursor
  match whence with
  | .start => some offset
  | .current => sum? cursor offset
  | .end => difference? size offset

/-- Moves the cursor of a file as words allow. -/
def seekWords (f : File) (offset : Int64) (whence : Whence) : Except Errno File :=
  match f.place? offset whence with
  | none => .error .overflow
  | some place => if place < 0 then .error .inval else .ok { f with cursor := place.toUInt64.toNat }

theorem fitsI64_iff {n : Int} : fitsI64 n ↔ -2 ^ 63 ≤ n ∧ n < 2 ^ 63 := by
  have hmin : Int64.minValue.toInt = -2 ^ 63 := by decide
  have hmax : Int64.maxValue.toInt = 2 ^ 63 - 1 := by decide
  rw [fitsI64, hmin, hmax]
  omega

theorem fitsI64_toInt (word : Int64) : fitsI64 word.toInt :=
  fitsI64_iff.2 ⟨word.le_toInt, word.toInt_lt⟩

theorem fitsI64_of_le_largest {n : Nat} (h : n ≤ largest) : fitsI64 n := by
  unfold largest at h
  rw [fitsI64_iff]
  omega

theorem isSome_word? {n : Nat} (h : n ≤ largest) : (word? n).isSome := by
  rw [word?, if_pos (fitsI64_of_le_largest h)]
  rfl

/-- A number that fits a word is not changed by being cut down to one. -/
theorem bmod_of_fitsI64 {n : Int} (h : fitsI64 n) : n.bmod (2 ^ 64) = n := by
  rw [fitsI64_iff] at h
  exact Int.bmod_eq_of_le_mul_two (by omega) (by omega)

theorem toInt_word? (n : Nat) :
    (word? n).map Int64.toInt = if fitsI64 n then some (n : Int) else none := by
  rw [word?]
  split
  · next h =>
    have hlt : n < 2 ^ 63 := by
      rw [fitsI64_iff] at h
      omega
    rw [Option.map_some, Int64.toInt_ofNat_of_lt hlt]
  · rfl

theorem toInt_sum? (a b : Int64) :
    (sum? a b).map Int64.toInt =
      if fitsI64 (a.toInt + b.toInt) then some (a.toInt + b.toInt) else none := by
  rw [sum?]
  split
  · next h => rw [Option.map_some, Int64.toInt_add, bmod_of_fitsI64 h]
  · rfl

theorem toInt_difference? (a b : Int64) :
    (difference? a b).map Int64.toInt =
      if fitsI64 (a.toInt - b.toInt) then some (a.toInt - b.toInt) else none := by
  rw [difference?]
  split
  · next h => rw [Option.map_some, Int64.toInt_sub, bmod_of_fitsI64 h]
  · rfl

/-- The place that is computed with words is the exact one. -/
theorem toInt_place? (f : File) (offset : Int64) (whence : Whence) :
    (f.place? offset whence).map Int64.toInt =
      if fitsI64 f.size ∧ fitsI64 f.cursor ∧ fitsI64 (f.target offset.toInt whence) then
        some (f.target offset.toInt whence)
      else none := by
  have hsize := toInt_word? f.size
  have hcursor := toInt_word? f.cursor
  rw [place?]
  cases hs : word? f.size with
  | none =>
    rw [hs] at hsize
    have hnot : ¬ fitsI64 f.size := fun h => by simp [h] at hsize
    simp [hnot]
  | some size =>
    cases hc : word? f.cursor with
    | none =>
      rw [hc] at hcursor
      have hnot : ¬ fitsI64 f.cursor := fun h => by simp [h] at hcursor
      simp [hnot]
    | some cursor =>
      rw [hs, Option.map_some] at hsize
      rw [hc, Option.map_some] at hcursor
      obtain ⟨hfits, hsize⟩ := Option.some_eq_ite_none_right.1 hsize
      obtain ⟨hfits', hcursor⟩ := Option.some_eq_ite_none_right.1 hcursor
      rw [Option.some.injEq] at hsize hcursor
      simp only [hfits, hfits', true_and, Option.bind_eq_bind, Option.bind_some]
      cases whence with
      | start => rw [target, if_pos (fitsI64_toInt offset), Option.map_some]
      | current => rw [toInt_sum?, target, ← hcursor]
      | «end» => rw [toInt_difference?, target, ← hsize]

/-- A seek made with words is the seek. -/
theorem seekWords_eq (f : File) (offset : Int64) (whence : Whence) :
    f.seekWords offset whence = f.seek offset.toInt whence := by
  have hplace := toInt_place? f offset whence
  rw [seekWords, seek]
  cases hp : f.place? offset whence with
  | none =>
    rw [hp, Option.map_none] at hplace
    rw [if_neg fun h => by simp [h] at hplace]
  | some place =>
    rw [hp, Option.map_some] at hplace
    obtain ⟨hfits, hplace⟩ := Option.some_eq_ite_none_right.1 hplace
    rw [Option.some.injEq] at hplace
    have hneg : place < 0 ↔ f.target offset.toInt whence < 0 := by
      rw [Int64.lt_iff_toInt_lt, hplace, Int64.toInt_zero]
    simp only [if_pos hfits, hneg]
    split
    · rfl
    · next h =>
      have hnonneg : 0 ≤ place := by
        rw [Int64.le_iff_toInt_le, hplace, Int64.toInt_zero]
        omega
      rw [Int64.toNat_toUInt64_of_le hnonneg, Int64.toNatClampNeg, hplace]

end Words

/-! ## The places that a file can have -/

/-- What a seek comes to, where `place` stands for the exact place that it leads to. -/
structure SeeksExactly (f : File) (offset : Int64) (whence : Whence) (place : Int) : Prop where
  /-- With words the place is found exactly, unless it does not fit one. -/
  toInt_place? : (f.place? offset whence).map Int64.toInt =
    if place < 2 ^ 63 then some place else none
  seekWords_eq : f.seekWords offset whence = f.seek offset.toInt whence
  inval_iff : f.seek offset.toInt whence = .error .inval ↔ place < 0
  overflow_iff : f.seek offset.toInt whence = .error .overflow ↔ 2 ^ 63 ≤ place
  moved : 0 ≤ place → place < 2 ^ 63 →
    ∃ f', f.seek offset.toInt whence = .ok f' ∧ f'.cursor = place ∧ f'.contents = f.contents
  refused : place < 0 ∨ 2 ^ 63 ≤ place → ((Op.seek offset whence).run f).2 = f
  contents_eq : ((Op.seek offset whence).run f).2.contents = f.contents

variable {f : File} {offset : Int64} {whence : Whence}

theorem seek_eq_ok {f' : File} (h : f.seek offset.toInt whence = .ok f') :
    fitsI64 (f.target offset.toInt whence) ∧
      f' = { f with cursor := (f.target offset.toInt whence).toNat } := by
  rw [seek] at h
  split at h
  · next hfits =>
    split at h
    · cases h
    · exact ⟨hfits.2.2, (Except.ok.inj h).symm⟩
  · cases h

theorem neg_le_target (f : File) (offset : Int64) (whence : Whence) :
    -2 ^ 63 ≤ f.target offset.toInt whence := by
  have hmin := offset.le_toInt
  have hmax := offset.toInt_lt
  cases whence <;> simp only [target] <;> omega

section Held

variable (hsize : f.size ≤ largest) (hcursor : f.cursor ≤ largest)

include hsize hcursor

/-- In a file that can be held, with its cursor on a place that such a file can have, it is the
place alone that decides. -/
theorem fits_iff_target_lt : (fitsI64 f.size ∧ fitsI64 f.cursor ∧
      fitsI64 (f.target offset.toInt whence)) ↔ f.target offset.toInt whence < 2 ^ 63 := by
  have hlow := neg_le_target f offset whence
  simp only [fitsI64_of_le_largest hsize, fitsI64_of_le_largest hcursor, true_and, fitsI64_iff,
    hlow]

theorem seek_cases :
    (f.target offset.toInt whence < 0 ∧ f.seek offset.toInt whence = .error .inval) ∨
      (2 ^ 63 ≤ f.target offset.toInt whence ∧ f.seek offset.toInt whence = .error .overflow) ∨
        0 ≤ f.target offset.toInt whence ∧ f.target offset.toInt whence < 2 ^ 63 ∧
          f.seek offset.toInt whence =
            .ok { f with cursor := (f.target offset.toInt whence).toNat } := by
  simp only [seek, fits_iff_target_lt hsize hcursor]
  by_cases hneg : f.target offset.toInt whence < 0
  · exact .inl ⟨hneg, by rw [if_pos (by omega), if_pos hneg]⟩
  · by_cases hlt : f.target offset.toInt whence < 2 ^ 63
    · exact .inr (.inr ⟨Int.not_lt.1 hneg, hlt, by rw [if_pos hlt, if_neg hneg]⟩)
    · exact .inr (.inl ⟨Int.not_lt.1 hlt, by rw [if_neg hlt]⟩)

theorem seeksExactly :
    SeeksExactly f offset whence (f.target offset.toInt whence) := by
  have hplace := File.toInt_place? f offset whence
  simp only [fits_iff_target_lt hsize hcursor] at hplace
  have hwords := File.seekWords_eq f offset whence
  rcases @seek_cases f offset whence hsize hcursor with
    ⟨hneg, hseek⟩ | ⟨hge, hseek⟩ | ⟨hnonneg, hlt, hseek⟩
  · have hrun : ((Op.seek offset whence).run f).2 = f := by rw [Op.run, hseek]
    refine ⟨hplace, hwords, ?_, ?_, by omega, fun _ => hrun, by rw [hrun]⟩
    · exact iff_of_true hseek hneg
    · exact iff_of_false (by simp [hseek]) (by omega)
  · have hrun : ((Op.seek offset whence).run f).2 = f := by rw [Op.run, hseek]
    refine ⟨hplace, hwords, ?_, ?_, by omega, fun _ => hrun, by rw [hrun]⟩
    · exact iff_of_false (by simp [hseek]) (by omega)
    · exact iff_of_true hseek hge
  · refine ⟨hplace, hwords, ?_, ?_, fun _ _ => ?_, by omega, by rw [Op.run, hseek]⟩
    · exact iff_of_false (by simp [hseek]) (by omega)
    · exact iff_of_false (by simp [hseek]) (by omega)
    · exact ⟨_, hseek, Int.toNat_of_nonneg hnonneg, rfl⟩

end Held

namespace Op

/-- The file after some operations. -/
def final (f : File) (ops : List Op) : File := ops.foldl (fun f op => (op.run f).2) f

variable {f : File}

/-- No operation makes a file smaller. -/
theorem size_le_run (f : File) (op : Op) : f.size ≤ (op.run f).2.size := by
  cases op with
  | seek offset whence =>
    rw [run]
    split
    · next f' hf' =>
      rw [(seek_eq_ok hf').2]
      exact Nat.le_refl _
    · exact Nat.le_refl _
  | read max => exact Nat.le_refl _
  | write bs =>
    rw [run]
    split
    · next f' hf' =>
      rw [write_eq_ok hf', size, size, length_patched]
      exact Nat.le_max_left _ _
    · exact Nat.le_refl _

theorem size_le_final (f : File) (ops : List Op) : f.size ≤ (final f ops).size := by
  induction ops generalizing f with
  | nil => exact Nat.le_refl _
  | cons op rest ih => exact Nat.le_trans (size_le_run f op) (ih _)

/-- An operation leaves the cursor on a place that a file can have, if the file can be held. -/
theorem cursor_run_le_largest {op : Op} (hcursor : f.cursor ≤ largest)
    (hsize : (op.run f).2.size ≤ largest) : (op.run f).2.cursor ≤ largest := by
  cases op with
  | seek offset whence =>
    rw [run]
    split
    · next f' hf' =>
      obtain ⟨hfits, rfl⟩ := seek_eq_ok hf'
      rw [fitsI64_iff] at hfits
      change (f.target offset.toInt whence).toNat ≤ largest
      unfold largest
      omega
    · exact hcursor
  | read max => exact Nat.le_trans (cursor_read_le f max) hsize
  | write bs =>
    rw [run] at hsize ⊢
    split at hsize
    · next f' hf' =>
      rw [write_eq_ok hf', size, length_patched] at hsize
      rw [write_eq_ok hf']
      exact Nat.le_trans (Nat.le_max_right _ _) hsize
    · exact hcursor

/-- The cursor stays on such places in a whole run, none of whose files is larger than the last. -/
theorem cursor_final_le {ops : List Op} (hcursor : f.cursor ≤ largest)
    (hsize : (final f ops).size ≤ largest) : (final f ops).cursor ≤ largest := by
  induction ops generalizing f with
  | nil => exact hcursor
  | cons op rest ih =>
    have hstep : (op.run f).2.size ≤ largest := Nat.le_trans (size_le_final _ rest) hsize
    exact ih (cursor_run_le_largest hcursor hstep) hsize

/-- However a file was operated on, its cursor is on a place that a file can have, and a seek leads
exactly to where it should or is refused because there is no such place. -/
theorem final_seeksExactly (contents : Bytes) (ops : List Op)
    (hsize : (final { contents } ops).size ≤ largest) :
    (final { contents } ops).cursor ≤ 2 ^ 63 - 1 ∧
      (word? (final { contents } ops).size).isSome ∧
        (word? (final { contents } ops).cursor).isSome ∧
          ∀ offset whence, SeeksExactly (final { contents } ops) offset whence
            ((final { contents } ops).target offset.toInt whence) := by
  have hcursor : (final { contents } ops).cursor ≤ largest :=
    cursor_final_le (Nat.zero_le _) hsize
  exact ⟨hcursor, isSome_word? hsize, isSome_word? hcursor,
    fun offset whence => seeksExactly hsize hcursor⟩

/-- With the cursor on the last place of all, a step forward leads too far, as does the smallest
offset when it is taken from the end, while the same offset from the cursor leads before the
start. -/
theorem final_seeksExactly_lastPlace :
    let f := final { contents := [97, 98, 99] } [seek 5 .start, write [], seek .maxValue .start]
    f.size ≤ largest ∧ f.cursor = 2 ^ 63 - 1 ∧
      SeeksExactly f 1 .current (2 ^ 63) ∧ SeeksExactly f .minValue .end (5 + 2 ^ 63) ∧
        SeeksExactly f .minValue .current (-1) ∧ SeeksExactly f 5 .end 0 := by
  intro f
  have hf : f = ⟨[97, 98, 99, 0, 0], 2 ^ 63 - 1⟩ := by decide
  have hsize : f.size ≤ largest := by
    rw [hf]
    decide
  obtain ⟨-, -, -, hseeks⟩ := final_seeksExactly _ _ hsize
  have hplace (offset : Int64) (whence : Whence) (place : Int)
      (h : f.target offset.toInt whence = place) : SeeksExactly f offset whence place :=
    h ▸ hseeks offset whence
  rw [hf] at hplace ⊢
  exact ⟨by decide, by decide, hplace _ _ _ (by decide), hplace _ _ _ (by decide),
    hplace _ _ _ (by decide), hplace _ _ _ (by decide)⟩

end Op

end File

end GuestHost
