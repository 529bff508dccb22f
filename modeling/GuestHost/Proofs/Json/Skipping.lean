import GuestHost.Proofs.Json.Reading

/-!
# Values that nobody asks for are skipped

`Reader.skip` keeps the brackets that are open on a list and moves by fuel instead of by recursion
into a value.  By induction on the grammar, from the start of a value it comes to its end with the
same brackets open, in fewer steps than twice the characters of the value; so the fuel that it is
given is enough, and any value is skipped.
-/

namespace GuestHost

namespace Json

open Reader

variable {cs cs' rest : List Char} {c : Char}

/-! ## Strings -/

theorem escapeLength_short {letter : Char} (h : (letter, c) ∈ shortEscapes) (rest : List Char) :
    escapeLength (letter :: rest) = .ok 1 := by
  obtain ⟨hsimple, hne⟩ := simpleEscape?_eq h
  rw [escapeLength, if_neg hne, hsimple]
  rfl

theorem escapeLength_unit {n : Nat} (h : HexPhrase n cs rest) :
    escapeLength ('u' :: cs) = .ok 5 := by
  rw [escapeLength, if_pos rfl, (hexWord_eq h).1]
  rfl

theorem skipStringBody_eq (h : AnyChars cs rest) : skipStringBody cs = .ok rest := by
  induction h with
  | close => rw [skipStringBody, if_pos rfl]
  | plain hc _ ih =>
    rw [skipStringBody, if_neg hc.1, if_neg hc.2.1, if_neg (Nat.not_lt.2 hc.2.2), ih]
  | short hmem _ ih =>
    rw [skipStringBody, if_neg (by decide), if_pos rfl, escapeLength_short hmem]
    exact ih
  | unit hword _ ih =>
    rw [skipStringBody, if_neg (by decide), if_pos rfl, escapeLength_unit hword]
    simp only [drop_unit hword, ih]

theorem skipString_eq (h : AnyString cs rest) : skipString cs = .ok ((), rest) := by
  cases h with
  | mk h =>
    refine (advance_bind _).trans ?_
    simp only [skipStringBody_eq h, Except.map]

theorem skipKey_eq {cs₁ cs₂ : List Char} (hblanks : Blanks cs cs₁) (hname : AnyString cs₁ cs₂)
    (hcolon : Blanks cs₂ (':' :: rest)) : skipKey cs = .ok ((), rest) := by
  have hskip := skipString_eq hname
  cases hname with
  | mk _ =>
    refine (peek_bind _ hblanks (by decide)).trans ((bind_ok _ hskip).trans ?_)
    exact colon_eq hcolon

/-! ## Numbers -/

theorem skipDigits_eq {ds : List Char} (hds : IsDigits ds) (h : NoDigit rest) :
    Number.skipDigits (ds ++ rest) = .ok rest := by
  obtain ⟨htake, hdrop⟩ := takeWhile_digits hds.2 h
  have hne : ds.isEmpty = false := by simpa using hds.1
  simp only [Number.skipDigits, htake, hdrop, hne]
  rfl

/-- After the digits of a number, its fraction and its exponent come anything but digits. -/
theorem noDigit_append {part : List Char} (h : part = [] ∨ NoDigit part) (hrest : NoDigit rest) :
    NoDigit (part ++ rest) := by
  rcases h with rfl | h
  · exact hrest
  · cases part with
    | nil => exact hrest
    | cons c part => exact h

theorem IsExponent.noDigit {exponent : List Char} (h : IsExponent exponent) :
    exponent = [] ∨ NoDigit exponent := by
  cases h with
  | none => exact .inl rfl
  | @some letter sign ds hletter _ _ =>
    have hall : ∀ c ∈ ['e', 'E'], c.isDigit = false := by simp
    refine .inr fun c hc => ?_
    cases hc
    exact hall letter hletter

theorem IsFraction.noDigit {fraction : List Char} (h : IsFraction fraction) :
    fraction = [] ∨ NoDigit fraction := by
  cases h with
  | none => exact .inl rfl
  | some _ =>
    refine .inr fun c hc => ?_
    cases hc
    rfl

theorem skipExponent_eq {exponent : List Char} (h : IsExponent exponent) (hstops : Stops rest) :
    Number.skipExponent (exponent ++ rest) = .ok rest := by
  cases h with
  | none =>
    cases rest with
    | nil => rfl
    | cons c rest =>
      have hall : ∀ c ∈ blanks ++ [',', ']', '\x7d'], ¬ (c = 'e' ∨ c = 'E') := by simp [blanks]
      simp only [List.nil_append, Number.skipExponent, if_neg (hall c (hstops c rfl))]
  | @some letter sign ds hletter hsign hds =>
    have hskip := skipDigits_eq hds hstops.noDigit
    have hisLetter : letter = 'e' ∨ letter = 'E' := by simpa using hletter
    simp only [List.mem_cons, List.not_mem_nil, or_false] at hsign
    rcases hsign with rfl | rfl | rfl
    · obtain ⟨d, ds', rfl⟩ := List.exists_cons_of_ne_nil hds.1
      have hd := hds.2 d List.mem_cons_self
      simp only [List.cons_append, List.nil_append, Number.skipExponent, if_pos hisLetter]
      split
      · next heq =>
        cases heq
        cases hd
      · next heq =>
        cases heq
        cases hd
      · exact hskip
    · simpa only [List.cons_append, List.nil_append, Number.skipExponent, if_pos hisLetter]
    · simpa only [List.cons_append, List.nil_append, Number.skipExponent, if_pos hisLetter]

theorem numberSkip_eq {whole fraction exponent : List Char} (hwhole : IsWhole whole)
    (hfraction : IsFraction fraction) (hexponent : IsExponent exponent) (hstops : Stops rest) :
    Number.skip (whole ++ (fraction ++ (exponent ++ rest))) = .ok rest := by
  have hafter := noDigit_append hexponent.noDigit hstops.noDigit
  have htail := noDigit_append hfraction.noDigit hafter
  obtain ⟨htake, hdrop⟩ := takeWhile_digits hwhole.isDigits.2 htail
  have hne : whole.isEmpty = false := by simpa using hwhole.isDigits.1
  have hskip := skipExponent_eq hexponent hstops
  simp only [Number.skip, htake, hdrop, hne, if_neg hwhole.noZeroBefore, Bool.false_eq_true,
    if_false]
  cases hfraction with
  | some hds =>
    simp only [List.cons_append, skipDigits_eq hds hafter]
    exact hskip
  | none =>
    -- Neither an exponent nor what follows a number starts with a point.
    have hpoint : (exponent ++ rest).head? ≠ some '.' := by
      cases hexponent with
      | none => exact fun h => absurd (hstops '.' h) (by decide)
      | some hletter _ _ =>
        intro h
        cases h
        exact absurd hletter (by decide)
    rw [List.nil_append]
    split
    · next heq => simp [heq] at hpoint
    · exact hskip

theorem skipNumber_eq (h : NumberPhrase cs rest) (hstops : Stops rest) :
    skipNumber cs = .ok ((), rest) := by
  cases h with
  | @mk sign whole fraction exponent _ hsign hwhole hfraction hexponent =>
    have hskip := numberSkip_eq hwhole hfraction hexponent hstops
    simp only [List.mem_cons, List.not_mem_nil, or_false] at hsign
    rcases hsign with rfl | rfl
    · rw [List.nil_append, skipNumber]
      · rw [hskip]
        rfl
      · intro rest' heq
        cases hwhole with
        | zero => cases heq
        | digits _ hds =>
          cases heq
          exact absurd (hds.2 '-' List.mem_cons_self) (by decide)
    · rw [List.cons_append, List.nil_append, skipNumber, hskip]
      rfl

/-! ## One step -/

section Step

variable (fuel : Nat) (frames : List Bool)

theorem skipInside_blanks (h : Blanks cs rest) :
    skipInside (fuel + 1) frames .value cs = skipInside (fuel + 1) frames .value rest := by
  rw [skipInside]
  exact peek_bind_of_blanks _ h

/-- After a value, with the bracket next that closes what it is in. -/
theorem skipInside_close (frame : Bool) (h : Blanks cs (closing frame :: rest)) :
    skipInside (fuel + 1) (frame :: frames) .after cs = skipInside fuel frames .after rest := by
  have hblank : closing frame ∉ blanks := by cases frame <;> decide
  refine (peek_bind _ h hblank).trans ?_
  simp only [if_true]
  exact advance_bind _

/-- After a value, with another one to come. -/
theorem skipInside_comma (frame : Bool) (h : Blanks cs (',' :: rest)) :
    skipInside (fuel + 1) (frame :: frames) .after cs =
      (skipToItem frame >>= fun _ => skipInside fuel (frame :: frames) .value) rest := by
  have hne : ',' ≠ closing frame := by cases frame <;> decide
  refine (peek_bind _ h (by decide)).trans ?_
  simp only [if_neg hne, if_true]
  exact advance_bind _

/-- Behind an opening bracket, with the closing one next. -/
theorem skipInside_empty (frame : Bool) (h : Blanks cs (closing frame :: rest)) :
    skipInside (fuel + 1) (frame :: frames) .opened cs = skipInside fuel frames .after rest := by
  have hblank : closing frame ∉ blanks := by cases frame <;> decide
  refine (peek_bind _ h hblank).trans ?_
  simp only [if_true]
  exact advance_bind _

/-- Behind an opening bracket, with an item next. -/
theorem skipInside_item (frame : Bool) (h : Blanks cs (c :: rest)) (hc : c ∉ blanks)
    (hne : c ≠ closing frame) :
    skipInside (fuel + 1) (frame :: frames) .opened cs =
      (skipToItem frame >>= fun _ => skipInside fuel (frame :: frames) .value) (c :: rest) := by
  refine (peek_bind _ h hc).trans ?_
  simp only [if_neg hne]

theorem skipInside_open (frame : Bool) :
    skipInside (fuel + 1) frames .value ((if frame then '\x7b' else '[') :: rest) =
      skipInside fuel (frame :: frames) .opened rest := by
  rw [skipInside]
  cases frame
  · exact (peek_bind _ .none (by decide)).trans (advance_bind _)
  · exact (peek_bind _ .none (by decide)).trans (advance_bind _)

theorem skipInside_null :
    skipInside (fuel + 1) frames .value ('n' :: 'u' :: 'l' :: 'l' :: rest) =
      skipInside fuel frames .after rest := by
  rw [skipInside]
  refine (peek_bind _ .none (by decide)).trans ?_
  exact bind_ok _ (expect_append ['n', 'u', 'l', 'l'] rest)

theorem skipInside_bool {b : Bool} (h : BoolPhrase b cs rest) :
    skipInside (fuel + 1) frames .value cs = skipInside fuel frames .after rest := by
  rw [skipInside]
  cases h with
  | true =>
    refine (peek_bind _ .none (by decide)).trans ?_
    exact bind_ok _ (expect_append ['t', 'r', 'u', 'e'] rest)
  | false =>
    refine (peek_bind _ .none (by decide)).trans ?_
    exact bind_ok _ (expect_append ['f', 'a', 'l', 's', 'e'] rest)

theorem skipInside_string (h : AnyString cs rest) :
    skipInside (fuel + 1) frames .value cs = skipInside fuel frames .after rest := by
  have hskip := skipString_eq h
  rw [skipInside]
  cases h with
  | mk _ => exact (peek_bind _ .none (by decide)).trans (bind_ok _ hskip)

theorem skipInside_number (h : NumberPhrase cs rest) (hstops : Stops rest) :
    skipInside (fuel + 1) frames .value cs = skipInside fuel frames .after rest := by
  have hskip := skipNumber_eq h hstops
  obtain ⟨c, cs', rfl, hc⟩ := h.head
  have hnumber : c = '-' ∨ Number.isDigit c = true := by rwa [isDigit_eq]
  have hother : c ∉ ['n', 't', 'f'] ++ blanks := by
    rcases hc with rfl | hc
    · decide
    · exact not_mem_of_isDigit hc (by simp [blanks])
  simp only [List.cons_append, List.nil_append, List.mem_cons, not_or] at hother
  obtain ⟨hn, ht, hf, hblank⟩ := hother
  rw [skipInside]
  refine (peek_bind _ .none hblank).trans ?_
  simp only [if_neg hn, if_neg ht, if_neg hf, if_pos hnumber]
  exact bind_ok _ hskip

end Step

/-! ## Whole values -/

/-- The first of some elements. -/
theorem elements_head (h : Grammar .elements cs rest) :
    ∃ c cs', Blanks cs (c :: cs') ∧ c ∉ blanks ∧ c ≠ ']' := by
  cases h with
  | element hblanks hvalue _ | elements hblanks hvalue _ _ =>
    obtain ⟨c, cs', rfl, hc, hne⟩ := ValuePhrase.head hvalue
    exact ⟨c, cs', hblanks, hc, hne⟩

/-- The name of the first of some members. -/
theorem members_head (h : Grammar .members cs rest) : ∃ cs', Blanks cs ('"' :: cs') := by
  cases h with
  | member hblanks hname _ _ _ _ | members hblanks hname _ _ _ _ _ =>
    cases hname
    exact ⟨_, hblanks⟩

/-- What skipping does at a text of each part of the grammar.  It comes to the end of a value with
the same brackets open; from the first item of an array or object it comes behind the bracket that
closes it.  The steps that it takes, `n + 1`, are fewer than twice the characters. -/
def Skips : Part → List Char → List Char → Prop
  | .value, cs, rest => Stops rest →
      ∃ n, n + 1 + 2 * rest.length < 2 * cs.length ∧ ∀ fuel frames,
        skipInside (fuel + n + 1) frames .value cs = skipInside fuel frames .after rest
  | .elements, cs, rest => ∀ rest', rest = ']' :: rest' →
      ∃ n, n + 1 + 2 * rest.length ≤ 2 * cs.length ∧ ∀ fuel frames,
        skipInside (fuel + n + 1) (false :: frames) .value cs = skipInside fuel frames .after rest'
  | .members, cs, rest => ∀ rest', rest = '\x7d' :: rest' →
      ∃ n, n + 1 + 2 * rest.length ≤ 2 * cs.length ∧ ∀ fuel frames,
        (skipKey >>= fun _ => skipInside (fuel + n + 1) (true :: frames) .value) cs =
          skipInside fuel frames .after rest'

/-- What skips in one step. -/
theorem skips_of_step (hlt : rest.length < cs.length)
    (h : Stops rest → ∀ fuel frames,
      skipInside (fuel + 1) frames .value cs = skipInside fuel frames .after rest) :
    Skips .value cs rest :=
  fun hstops => ⟨0, by omega, h hstops⟩

theorem skips_empty (frame : Bool) (h : Blanks cs (closing frame :: rest)) :
    Skips .value ((if frame then '\x7b' else '[') :: cs) rest := by
  have hle := h.length_le
  refine fun _ => ⟨1, ?_, fun fuel frames => ?_⟩
  · simp only [List.length_cons] at hle ⊢
    omega
  · exact (skipInside_open (fuel + 1) frames frame).trans (skipInside_empty fuel frames frame h)

theorem skips_array (h : Grammar .elements cs (']' :: rest))
    (ih : Skips .elements cs (']' :: rest)) : Skips .value ('[' :: cs) rest := by
  obtain ⟨n, hn, hskip⟩ := ih rest rfl
  obtain ⟨c, cs', hblanks, hc, hne⟩ := elements_head h
  refine fun _ => ⟨n + 2, ?_, fun fuel frames => ?_⟩
  · simp only [List.length_cons] at hn ⊢
    omega
  · refine (skipInside_open (fuel + n + 2) frames false).trans ?_
    refine (skipInside_item (fuel + n + 1) frames false hblanks hc hne).trans ?_
    exact (skipInside_blanks (fuel + n) (false :: frames) hblanks).symm.trans (hskip fuel frames)

theorem skips_object (h : Grammar .members cs ('\x7d' :: rest))
    (ih : Skips .members cs ('\x7d' :: rest)) : Skips .value ('\x7b' :: cs) rest := by
  obtain ⟨n, hn, hskip⟩ := ih rest rfl
  obtain ⟨cs', hblanks⟩ := members_head h
  have hkey : skipKey cs = skipKey ('"' :: cs') := peek_bind_of_blanks _ hblanks
  refine fun _ => ⟨n + 2, ?_, fun fuel frames => ?_⟩
  · simp only [List.length_cons] at hn ⊢
    omega
  · refine (skipInside_open (fuel + n + 2) frames true).trans ?_
    refine (skipInside_item (fuel + n + 1) frames true hblanks (by decide) (by decide)).trans ?_
    exact (bind_congr _ hkey).symm.trans (hskip fuel frames)

/-- A value inside of an array or object, with the closing bracket next. -/
theorem skips_last {cs₁ cs₂ : List Char} (frame : Bool) (hbefore : Blanks cs cs₁)
    (ih : Skips .value cs₁ cs₂) (hafter : Blanks cs₂ (closing frame :: rest)) :
    ∃ n, n + 1 + 2 * (closing frame :: rest).length ≤ 2 * cs.length ∧ ∀ fuel frames,
      skipInside (fuel + n + 1) (frame :: frames) .value cs =
        skipInside fuel frames .after rest := by
  have hstops : Stops (closing frame :: rest) := fun c hc => by
    cases hc
    cases frame <;> decide
  obtain ⟨n, hn, hskip⟩ := ih (hafter.stops hstops)
  have hle := hbefore.length_le
  have hle' := hafter.length_le
  refine ⟨n + 1, by omega, fun fuel frames => ?_⟩
  have hstep := hskip (fuel + 1) (frame :: frames)
  rw [Nat.add_right_comm fuel 1 n] at hstep
  refine (skipInside_blanks (fuel + n + 1) _ hbefore).trans (hstep.trans ?_)
  exact skipInside_close fuel frames frame hafter

/-- A value inside of an array or object, with a comma next. -/
theorem skips_more {cs₁ cs₂ : List Char} (frame : Bool) (hbefore : Blanks cs cs₁)
    (ih : Skips .value cs₁ cs₂) (hafter : Blanks cs₂ (',' :: rest)) :
    ∃ n, n + 2 + 2 * rest.length ≤ 2 * cs.length ∧ ∀ fuel frames,
      skipInside (fuel + n + 2) (frame :: frames) .value cs =
        (skipToItem frame >>= fun _ => skipInside fuel (frame :: frames) .value) rest := by
  have hstops : Stops (',' :: rest) := fun c hc => by
    cases hc
    decide
  obtain ⟨n, hn, hskip⟩ := ih (hafter.stops hstops)
  have hle := hbefore.length_le
  have hle' := hafter.length_le
  simp only [List.length_cons] at hle'
  refine ⟨n, by omega, fun fuel frames => ?_⟩
  have hstep := hskip (fuel + 1) (frame :: frames)
  rw [Nat.add_right_comm fuel 1 n] at hstep
  refine (skipInside_blanks (fuel + n + 1) _ hbefore).trans (hstep.trans ?_)
  exact skipInside_comma fuel frames frame hafter

/-- All parts of the grammar are skipped. -/
theorem skips {part : Part} (h : Grammar part cs rest) : Skips part cs rest := by
  -- The fuel is any amount over the steps, so one value hands what it leaves to the next.
  induction h with
  | null =>
    exact skips_of_step Grammar.null.length_lt fun _ fuel frames => skipInside_null fuel frames
  | bool h =>
    have hlt := (Grammar.bool h).length_lt
    exact skips_of_step hlt fun _ fuel frames => skipInside_bool fuel frames h
  | number h =>
    exact skips_of_step h.length_lt fun hstops fuel frames => skipInside_number fuel frames h hstops
  | string h =>
    exact skips_of_step h.length_lt fun _ fuel frames => skipInside_string fuel frames h
  | emptyArray h => exact skips_empty false h
  | emptyObject h => exact skips_empty true h
  | array h ih => exact skips_array h ih
  | object h ih => exact skips_object h ih
  | element hbefore _ hafter ih =>
    rintro rest' rfl
    exact skips_last false hbefore ih hafter
  | elements hbefore _ hcomma _ ih ih' =>
    rintro rest' rfl
    obtain ⟨n, hn, hskip⟩ := skips_more false hbefore ih hcomma
    obtain ⟨n', hn', hskip'⟩ := ih' rest' rfl
    refine ⟨n' + n + 2, by omega, fun fuel frames => ?_⟩
    have hfuel : fuel + (n' + n + 2) + 1 = fuel + n' + 1 + n + 2 := by omega
    rw [hfuel, hskip]
    exact hskip' fuel frames
  | member hbefore hname hcolon hblanks _ hafter ih =>
    rintro rest' rfl
    obtain ⟨n, hn, hskip⟩ := skips_last true hblanks ih hafter
    have hlt := length_lt_of_name hname hcolon .none
    have hle := hbefore.length_le
    simp only [List.length_cons] at hn hlt
    refine ⟨n, by simp only [List.length_cons]; omega, fun fuel frames => ?_⟩
    exact (bind_ok _ (skipKey_eq hbefore hname hcolon)).trans (hskip fuel frames)
  | members hbefore hname hcolon hblanks _ hcomma _ ih ih' =>
    rintro rest' rfl
    obtain ⟨n, hn, hskip⟩ := skips_more true hblanks ih hcomma
    obtain ⟨n', hn', hskip'⟩ := ih' rest' rfl
    have hlt := length_lt_of_name hname hcolon .none
    have hle := hbefore.length_le
    refine ⟨n' + n + 2, by omega, fun fuel frames => ?_⟩
    have hfuel : fuel + (n' + n + 2) + 1 = fuel + n' + 1 + n + 2 := by omega
    refine (bind_ok _ (skipKey_eq hbefore hname hcolon)).trans ?_
    rw [hfuel, hskip]
    exact hskip' fuel frames

theorem skip_reads : Reads skip ValuePhrase () := by
  intro cs cs' rest hblanks hvalue hstops
  obtain ⟨n, hn, hskip⟩ := skips hvalue hstops
  have hle := hblanks.length_le
  obtain ⟨extra, hextra⟩ := Nat.exists_eq_add_of_le (show n + 2 ≤ 2 * cs.length + 2 by omega)
  have hfuel : 2 * cs.length + 2 = extra + 1 + n + 1 := by omega
  refine (remaining_bind _).trans ?_
  rw [hfuel, skipInside_blanks _ _ hblanks, hskip]
  rfl

end Json

end GuestHost
