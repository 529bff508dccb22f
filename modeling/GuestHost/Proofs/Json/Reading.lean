import GuestHost.Config.Reader
import GuestHost.Proofs.Json.Grammar

/-!
# Readers read their phrases

`Reads p phrase a` says that `p` takes any text of a kind off the front of a text, blanks before it
included, and gives `a`.  The rules for punctuation come first, then strings with their escapes,
numbers, and arrays; what is read does not depend on how it was written.
-/

namespace GuestHost

namespace Json

variable {α β : Type} {cs cs' rest : List Char} {c : Char}

/-- What may follow a value: nothing, a blank, a comma or a closing bracket. -/
def Stops (rest : List Char) : Prop := ∀ c ∈ rest.head?, c ∈ blanks ++ [',', ']', '\x7d']

/-- A reader gives `a` for any text of a kind, after blanks, and leaves what follows. -/
def Reads (p : Reader α) (phrase : Phrase) (a : α) : Prop :=
  ∀ ⦃cs cs' rest : List Char⦄, Blanks cs cs' → phrase cs' rest → Stops rest → p cs = .ok (a, rest)

namespace Reader

theorem bind_ok {p : Reader α} {a : α} (f : α → Reader β) (h : p cs = .ok (a, rest)) :
    (p >>= f) cs = f a rest := by
  change (p cs).bind _ = _
  rw [h]
  rfl

theorem bind_error {p : Reader α} {failure : Failure} (f : α → Reader β)
    (h : p cs = .error failure) : (p >>= f) cs = .error failure := by
  change (p cs).bind _ = _
  rw [h]
  rfl

theorem bind_congr {p : Reader α} (f : α → Reader β) (h : p cs = p rest) :
    (p >>= f) cs = (p >>= f) rest := by
  change (p cs).bind _ = (p rest).bind _
  rw [h]

end Reader

open Reader

/-! ## Blanks and punctuation -/

theorem isBlank_iff : isBlank c = true ↔ c ∈ blanks := by
  simp [isBlank, blanks, or_assoc]

theorem Blanks.dropWhile_eq (h : Blanks cs rest) :
    cs.dropWhile isBlank = rest.dropWhile isBlank := by
  induction h with
  | none => rfl
  | some hc _ ih => rw [List.dropWhile_cons_of_pos (isBlank_iff.2 hc), ih]

theorem Blanks.stops (h : Blanks cs rest) (hrest : Stops rest) : Stops cs := by
  cases h with
  | none => exact hrest
  | some hc _ =>
    intro c hhead
    cases hhead
    exact List.mem_append_left _ hc

theorem peek_bind_of_blanks (f : Option Char → Reader α) (h : Blanks cs rest) :
    (peek >>= f) cs = (peek >>= f) rest :=
  bind_congr f (by rw [peek, peek, h.dropWhile_eq])

theorem peek_eq (h : Blanks cs (c :: rest)) (hc : c ∉ blanks) :
    peek cs = .ok (some c, c :: rest) := by
  have hdrop : (c :: rest).dropWhile isBlank = c :: rest :=
    List.dropWhile_cons_of_neg fun hblank => hc (isBlank_iff.1 hblank)
  rw [peek, h.dropWhile_eq, hdrop]
  rfl

theorem peek_end (h : Blanks cs []) : peek cs = .ok (none, []) := by
  rw [peek, h.dropWhile_eq]
  rfl

theorem peek_bind (f : Option Char → Reader α) (h : Blanks cs (c :: rest)) (hc : c ∉ blanks) :
    (peek >>= f) cs = f (some c) (c :: rest) :=
  bind_ok f (peek_eq h hc)

theorem advance_bind (f : Unit → Reader α) : (advance >>= f) (c :: rest) = f () rest := rfl

theorem remaining_bind (f : Nat → Reader α) : (remaining >>= f) cs = f cs.length cs := rfl

theorem expect_append (word rest : List Char) : expect word (word ++ rest) = .ok ((), rest) := by
  induction word with
  | nil => rfl
  | cons c word ih =>
    rw [List.cons_append, expect]
    simpa using ih

theorem colon_eq (h : Blanks cs (':' :: rest)) : colon cs = .ok ((), rest) :=
  peek_bind _ h (by decide)

theorem closeArray_eq (h : Blanks cs (']' :: rest)) : closeArray cs = .ok ((), rest) :=
  peek_bind _ h (by decide)

theorem nextElement_end (first : Bool) (h : Blanks cs (']' :: rest)) :
    nextElement first cs = .ok (false, ']' :: rest) :=
  peek_bind _ h (by decide)

theorem nextElement_item {first : Bool} (h : Gap first cs (c :: rest)) (hc : c ∉ blanks)
    (hne : c ≠ ']') : nextElement first cs = .ok (true, c :: rest) := by
  cases h with
  | first h =>
    refine (peek_bind _ h hc).trans ?_
    simp only [if_true]
    rfl
  | comma h h' =>
    refine (peek_bind _ h (by decide)).trans ((advance_bind _).trans ?_)
    refine (peek_bind _ h' hc).trans ?_
    simp only
    rfl

theorem nextKey_end (first : Bool) (h : Blanks cs ('\x7d' :: rest)) :
    nextKey first cs = .ok (false, '\x7d' :: rest) :=
  peek_bind _ h (by decide)

theorem nextKey_item {first : Bool} (h : Gap first cs ('"' :: rest)) :
    nextKey first cs = .ok (true, '"' :: rest) := by
  cases h with
  | first h => exact peek_bind _ h (by decide)
  | comma h h' =>
    refine (peek_bind _ h (by decide)).trans ((advance_bind _).trans ?_)
    exact peek_bind _ h' (by decide)

/-! ## Strings -/

theorem hexDigit?_eq {n : Nat} (h : HexDigit n c) : Text.hexDigit? c = some n ∧ n < 16 := by
  have hdigits : ∀ n : Fin 16,
      Text.hexDigit? ['0', '1', '2', '3', '4', '5', '6', '7', '8', '9', 'a', 'b', 'c', 'd', 'e',
        'f'][n] = some n.val ∧
      Text.hexDigit? ['0', '1', '2', '3', '4', '5', '6', '7', '8', '9', 'A', 'B', 'C', 'D', 'E',
        'F'][n] = some n.val := by
    decide
  rcases h with h | h <;> obtain ⟨hlt, rfl⟩ := List.getElem?_eq_some_iff.1 h
  · exact ⟨(hdigits ⟨n, hlt⟩).1, hlt⟩
  · exact ⟨(hdigits ⟨n, hlt⟩).2, hlt⟩

theorem hexWord_eq {n : Nat} (h : HexPhrase n cs rest) :
    hexWord cs = .ok n ∧ cs.drop 4 = rest ∧ n < 0x10000 := by
  cases h with
  | @mk n₁ n₂ n₃ n₄ c₁ c₂ c₃ c₄ _ h₁ h₂ h₃ h₄ =>
    obtain ⟨h₁, hn₁⟩ := hexDigit?_eq h₁
    obtain ⟨h₂, hn₂⟩ := hexDigit?_eq h₂
    obtain ⟨h₃, hn₃⟩ := hexDigit?_eq h₃
    obtain ⟨h₄, hn₄⟩ := hexDigit?_eq h₄
    have hsize : ¬ (String.ofList [c₁, c₂, c₃, c₄]).utf8ByteSize < 4 := by
      have := c₁.utf8Size_pos
      have := c₂.utf8Size_pos
      have := c₃.utf8Size_pos
      have := c₄.utf8Size_pos
      simp
      omega
    refine ⟨?_, rfl, by omega⟩
    have htake : (c₁ :: c₂ :: c₃ :: c₄ :: rest).take 4 = [c₁, c₂, c₃, c₄] := rfl
    rw [hexWord, htake, if_neg hsize]
    simp [h₁, h₂, h₃, h₄, Text.ofDigits]

theorem simpleEscape?_eq {letter : Char} (h : (letter, c) ∈ shortEscapes) :
    simpleEscape? letter = some c ∧ letter ≠ 'u' := by
  have hall : ∀ e ∈ shortEscapes, simpleEscape? e.1 = some e.2 ∧ e.1 ≠ 'u' := by decide
  exact hall _ h

theorem escape_short {letter : Char} (h : (letter, c) ∈ shortEscapes) (rest : List Char) :
    escape (letter :: rest) = .ok (c, 1) := by
  obtain ⟨hsimple, hne⟩ := simpleEscape?_eq h
  rw [escape, if_neg hne, hsimple]

/-- No character is half of a surrogate pair. -/
theorem not_surrogate (c : Char) :
    isLowSurrogate c.toNat = false ∧ isHighSurrogate c.toNat = false := by
  have hvalid : c.toNat < 0xd800 ∨ 0xdfff < c.toNat ∧ c.toNat < 0x110000 := c.valid
  simp only [isLowSurrogate, isHighSurrogate, Bool.and_eq_false_iff, decide_eq_false_iff_not]
  omega

theorem escape_unit (h : HexPhrase c.toNat cs rest) : escape ('u' :: cs) = .ok (c, 5) := by
  obtain ⟨hlow, hhigh⟩ := not_surrogate c
  simp [escape, (hexWord_eq h).1, hlow, hhigh]

theorem escape_pair {high low : Nat} (hc : c.toNat = 0x10000 + high * 0x400 + low)
    (hhigh : high < 0x400) (hlow : low < 0x400)
    (h : HexPhrase (0xd800 + high) cs ('\\' :: 'u' :: cs'))
    (h' : HexPhrase (0xdc00 + low) cs' rest) : escape ('u' :: cs) = .ok (c, 11) := by
  obtain ⟨hword, hdrop, -⟩ := hexWord_eq h
  obtain ⟨hword', -, -⟩ := hexWord_eq h'
  have hnotLow : isLowSurrogate (0xd800 + high) = false := by
    simp only [isLowSurrogate, Bool.and_eq_false_iff, decide_eq_false_iff_not]
    omega
  have hisHigh : isHighSurrogate (0xd800 + high) = true := by
    simp only [isHighSurrogate, Bool.and_eq_true, decide_eq_true_eq]
    omega
  have hisLow : isLowSurrogate (0xdc00 + low) = true := by
    simp only [isLowSurrogate, Bool.and_eq_true, decide_eq_true_eq]
    omega
  have hvalue : (0xd800 + high - 0xd800) * 0x400 + (0xdc00 + low - 0xdc00) + 0x10000 =
      c.toNat := by
    omega
  have hsecond : lowSurrogate ('\\' :: 'u' :: cs') = .ok (0xdc00 + low) := by
    simp [lowSurrogate, hword', hisLow]
  simp only [escape, hword, hdrop, hsecond, hnotLow, hisHigh, hvalue, Char.ofNat_toNat, if_true]
  rfl

theorem drop_unit {n : Nat} (h : HexPhrase n cs rest) : ('u' :: cs).drop 5 = rest :=
  (hexWord_eq h).2.1

theorem drop_pair {n n' : Nat} (h : HexPhrase n cs ('\\' :: 'u' :: cs'))
    (h' : HexPhrase n' cs' rest) :
    ('u' :: cs).drop 11 = rest := by
  have hdrop : cs.drop (4 + 6) = rest := by
    rw [← List.drop_drop, (hexWord_eq h).2.1]
    exact (hexWord_eq h').2.1
  exact hdrop

theorem stringBody_escape {taken : Nat} (h : escape cs = .ok (c, taken))
    (hdrop : cs.drop taken = rest) :
    stringBody ('\\' :: cs) = (stringBody rest).map fun (ds, rest) => (c :: ds, rest) := by
  rw [stringBody, if_neg (by decide), if_pos rfl, h]
  simp only [hdrop]

/-- A character is decoded whichever way it was written. -/
theorem stringBody_char (h : CharPhrase c cs rest) :
    stringBody cs = (stringBody rest).map fun (ds, rest) => (c :: ds, rest) := by
  cases h with
  | plain hc => rw [stringBody, if_neg hc.1, if_neg hc.2.1, if_neg (Nat.not_lt.2 hc.2.2)]
  | short hmem => exact stringBody_escape (escape_short hmem _) rfl
  | unit hword => exact stringBody_escape (escape_unit hword) (drop_unit hword)
  | pair hc hhigh hlow hword hword' =>
    exact stringBody_escape (escape_pair hc hhigh hlow hword hword') (drop_pair hword hword')

theorem stringBody_eq {ds : List Char} (h : CharsPhrase ds cs rest) :
    stringBody cs = .ok (ds, rest) := by
  induction h with
  | close => rw [stringBody, if_pos rfl]
  | char hc _ ih =>
    rw [stringBody_char hc, ih]
    rfl

theorem string_eq {s : String} (h : StringPhrase s cs rest) : string cs = .ok (s, rest) := by
  cases h with
  | mk h =>
    refine (advance_bind _).trans ?_
    simp only [stringBody_eq h, Except.map, String.ofList_toList]

theorem text_reads (s : String) : Reads text (StringPhrase s) s := by
  rintro cs cs' rest hblanks hphrase -
  have hstring := string_eq hphrase
  cases hphrase with
  | mk h => exact (peek_bind _ hblanks (by decide)).trans hstring

/-! ## Numbers -/

/-- No digit follows. -/
def NoDigit (rest : List Char) : Prop := ∀ c ∈ rest.head?, c.isDigit = false

theorem isDigit_eq : Number.isDigit = Char.isDigit := by
  funext c
  simp [Number.isDigit, Char.isDigit, Char.le_def]

theorem Stops.noDigit (h : Stops rest) : NoDigit rest := by
  have hall : ∀ c ∈ blanks ++ [',', ']', '\x7d'], c.isDigit = false := by simp [blanks]
  exact fun c hc => hall c (h c hc)

/-- Digits are taken off the front of a text up to the first character that is none. -/
theorem takeWhile_digits {ds : List Char} (hds : ∀ d ∈ ds, d.isDigit = true) (h : NoDigit rest) :
    (ds ++ rest).takeWhile Number.isDigit = ds ∧ (ds ++ rest).dropWhile Number.isDigit = rest := by
  rw [isDigit_eq, List.takeWhile_append_of_pos hds, List.dropWhile_append_of_pos hds]
  cases rest with
  | nil => simp
  | cons c rest =>
    have hc : c.isDigit = false := h c rfl
    simp [hc]

/-! ### Natural numbers -/

theorem le_ofDigitChars (ds : List Char) (n : Nat) : n ≤ Nat.ofDigitChars 10 ds n := by
  induction ds generalizing n with
  | nil => exact Nat.le_refl n
  | cons d ds ih =>
    have hle := ih (10 * n + (d.toNat - '0'.toNat))
    rw [Nat.ofDigitChars, List.foldl_cons]
    rw [Nat.ofDigitChars] at hle
    omega

/-- Digits are all put behind a significand if what they come to fits 64 bits. -/
theorem extend_eq {ds : List Char} {n : Nat} (h : Nat.ofDigitChars 10 ds n < UInt64.size) :
    Number.extend n ds = (Nat.ofDigitChars 10 ds n, []) := by
  induction ds generalizing n with
  | nil => rfl
  | cons d ds ih =>
    have hnext : n * 10 + Number.digit d = 10 * n + (d.toNat - '0'.toNat) := by
      rw [Number.digit, Nat.mul_comm]
    have hfold : Nat.ofDigitChars 10 (d :: ds) n =
        Nat.ofDigitChars 10 ds (n * 10 + Number.digit d) := by
      rw [hnext]
      rfl
    rw [hfold] at h ⊢
    rw [Number.extend, if_pos (Nat.lt_of_le_of_lt (le_ofDigitChars ds _) h), ih h]

theorem read_natural {n : Nat} (h : NaturalPhrase n cs rest) (hn : n < UInt64.size)
    (hstops : Stops rest) : Number.read false cs = .ok (.natural (.ofNat n), rest) := by
  cases h
  have hwhole := isWhole_toDigits n
  obtain ⟨htake, hdrop⟩ := takeWhile_digits hwhole.isDigits.2 hstops.noDigit
  have hne : (Nat.toDigits 10 n).isEmpty = false := by simp [Nat.toDigits_ne_nil]
  have hvalue : Nat.ofDigitChars 10 (Nat.toDigits 10 n) 0 = n :=
    Nat.ofDigitChars_toDigits (by decide) (by decide)
  have hextend : Number.extend 0 (Nat.toDigits 10 n) = (n, []) := by
    rw [extend_eq (by rwa [hvalue]), hvalue]
  simp only [Number.read, htake, hdrop, hne, hextend, if_neg hwhole.noZeroBefore]
  cases rest with
  | nil => rfl
  | cons c rest =>
    have hc : c ∈ blanks ++ [',', ']', '\x7d'] := hstops c rfl
    simp only [blanks, List.cons_append, List.nil_append, List.mem_cons, List.not_mem_nil,
      or_false] at hc
    rcases hc with rfl | rfl | rfl | rfl | rfl | rfl | rfl <;> rfl

theorem number_natural {n : Nat} (h : NaturalPhrase n cs rest) (hn : n < UInt64.size)
    (hstops : Stops rest) : number cs = .ok (.natural (.ofNat n), rest) := by
  have hread := read_natural h hn hstops
  obtain ⟨d, ds, rfl, hdigit⟩ := h.head
  rw [number, hread]
  rintro rest' heq
  cases heq
  cases hdigit

theorem natural_reads {n limit : Nat} (hn : n < limit) (hlimit : limit ≤ UInt64.size)
    (type : String) : Reads (natural limit type) (NaturalPhrase n) n := by
  intro cs cs' rest hblanks hphrase hstops
  have hnumber := number_natural hphrase (Nat.lt_of_lt_of_le hn hlimit) hstops
  obtain ⟨d, ds, rfl, hdigit⟩ := hphrase.head
  have hd : Number.isDigit d = true := by rwa [isDigit_eq]
  have htoNat : (UInt64.ofNat n).toNat = n := UInt64.toNat_ofNat_of_lt' (by omega)
  refine (peek_bind _ hblanks (not_blank_of_isDigit hdigit)).trans ?_
  simp only [hd, or_true, if_true]
  refine (bind_ok _ hnumber).trans ?_
  simp only [htoNat, if_pos hn]
  rfl

/-! ## Truth values, options and arrays -/

theorem Reads.map {p : Reader α} {phrase : Phrase} {a : α} (f : α → β) (h : Reads p phrase a) :
    Reads (do pure (f (← p))) phrase (f a) :=
  fun _ _ _ hblanks hphrase hstops => bind_ok _ (h hblanks hphrase hstops)

theorem u32_reads (n : UInt32) : Reads u32 (NaturalPhrase n.toNat) n := by
  have h := (natural_reads n.toNat_lt (by decide) "u32").map UInt32.ofNat
  rwa [UInt32.ofNat_toNat] at h

theorem u64_reads (n : UInt64) : Reads u64 (NaturalPhrase n.toNat) n := by
  have h := (natural_reads n.toNat_lt (by decide) "u64").map UInt64.ofNat
  rwa [UInt64.ofNat_toNat] at h

theorem usize_reads (n : UInt64) : Reads usize (NaturalPhrase n.toNat) n := by
  have h := (natural_reads n.toNat_lt (by decide) "usize").map UInt64.ofNat
  rwa [UInt64.ofNat_toNat] at h

theorem u8_reads (n : UInt8) : Reads u8 (NaturalPhrase n.toNat) n := by
  have h := (natural_reads n.toNat_lt (by decide) "u8").map UInt8.ofNat
  rwa [UInt8.ofNat_toNat] at h

theorem bool_reads (b : Bool) : Reads bool (BoolPhrase b) b := by
  rintro cs cs' rest hblanks hphrase -
  cases hphrase with
  | true =>
    refine (peek_bind _ hblanks (by decide)).trans ?_
    exact bind_ok _ (expect_append ['t', 'r', 'u', 'e'] rest)
  | false =>
    refine (peek_bind _ hblanks (by decide)).trans ?_
    exact bind_ok _ (expect_append ['f', 'a', 'l', 's', 'e'] rest)

theorem optional_reads {p : Reader α} {item : α → Phrase} (hreads : ∀ a, Reads p (item a) a)
    (hitem : ∀ a, ∀ {cs rest}, item a cs rest → ∃ c cs', cs = c :: cs' ∧ c ∉ blanks ∧ c ≠ 'n')
    (o : Option α) : Reads (optional p) (OptionPhrase item o) o := by
  intro cs cs' rest hblanks hphrase hstops
  cases hphrase with
  | none =>
    refine (peek_bind _ hblanks (by decide)).trans ?_
    exact bind_ok _ (expect_append ['n', 'u', 'l', 'l'] rest)
  | some h =>
    obtain ⟨c, cs'', rfl, hc, hne⟩ := hitem _ h
    refine (peek_bind _ hblanks hc).trans ?_
    rw [if_neg (by simpa using hne)]
    exact bind_ok _ (hreads _ .none h hstops)

/-- After an item comes what may follow a value. -/
theorem Listed.stops {item : α → Phrase} {as : List α} (h : Listed item false as cs rest)
    (hrest : Stops rest) : Stops cs := by
  cases h with
  | nil hblanks => exact hblanks.stops hrest
  | cons hgap _ _ =>
    cases hgap with
    | comma hcomma _ =>
      refine hcomma.stops fun c hc => ?_
      cases hc
      decide

theorem elements_eq {p : Reader α} {item : α → Phrase} (hreads : ∀ a, Reads p (item a) a)
    (hitem : ∀ a, IsJson (item a)) {as : List α} {fuel : Nat} {first : Bool}
    (h : Listed item first as cs (']' :: rest)) (hfuel : as.length < fuel) :
    elements p fuel first cs = .ok (as, ']' :: rest) := by
  induction as generalizing fuel first cs with
  | nil =>
    obtain ⟨fuel, rfl⟩ := Nat.exists_eq_add_one_of_ne_zero (Nat.ne_of_gt hfuel)
    cases h with
    | nil hblanks => exact bind_ok _ (nextElement_end first hblanks)
  | cons a as ih =>
    obtain ⟨fuel, rfl⟩ := Nat.exists_eq_add_one_of_ne_zero (Nat.ne_zero_of_lt hfuel)
    cases h with
    | cons hgap ha has =>
      obtain ⟨c, cs', rfl, hblank, hne⟩ := (hitem a ha).head
      refine (bind_ok _ (nextElement_item hgap hblank hne)).trans ?_
      have hstops := has.stops fun c hc => by cases hc; decide
      refine (bind_ok _ (hreads a .none ha hstops)).trans ?_
      exact bind_ok _ (ih has (Nat.lt_of_succ_lt_succ hfuel))

theorem array_reads {p : Reader α} {item : α → Phrase} (hreads : ∀ a, Reads p (item a) a)
    (hitem : ∀ a, IsJson (item a)) (as : List α) : Reads (array p) (ArrayPhrase item as) as := by
  rintro cs cs' rest hblanks ⟨hlisted⟩ -
  have hlength := hlisted.length_le fun a _ _ _ ha => (hitem a ha).length_lt
  refine (peek_bind _ hblanks (by decide)).trans ((advance_bind _).trans ?_)
  refine (remaining_bind _).trans ((bind_ok _ (elements_eq hreads hitem hlisted ?_)).trans ?_)
  · omega
  · exact bind_ok _ (closeArray_eq .none)

theorem pair_reads (p : String × String) : Reads pair (PairPhrase p) p := by
  rintro cs cs' rest hblanks ⟨hlisted⟩ -
  refine (peek_bind _ hblanks (by decide)).trans ((advance_bind _).trans ?_)
  cases hlisted with
  | cons hgap ha hlisted' =>
    cases hlisted' with
    | cons hgap' hb hend =>
      have hclose : Stops (']' :: rest) := fun c hc => by cases hc; decide
      have hstops := hend.stops hclose
      have hstops' := (Listed.cons hgap' hb hend).stops hclose
      obtain ⟨c, ds, rfl, hblank, hne⟩ := (isJson_string _ ha).head
      obtain ⟨c', ds', rfl, hblank', hne'⟩ := (isJson_string _ hb).head
      refine (bind_ok _ (nextElement_item hgap hblank hne)).trans ?_
      refine (bind_ok _ (text_reads _ .none ha hstops')).trans ?_
      refine (bind_ok _ (nextElement_item hgap' hblank' hne')).trans ?_
      refine (bind_ok _ (text_reads _ .none hb hstops)).trans ?_
      cases hend with
      | nil hblanks' => exact bind_ok _ (closeArray_eq hblanks')

end Json

end GuestHost
