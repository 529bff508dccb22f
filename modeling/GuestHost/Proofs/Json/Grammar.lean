import Mathlib.Data.List.Basic

/-!
# The grammar of JSON

What JSON texts are, apart from any reader.  A `Phrase` is a kind of text: `P cs rest` says that
`cs` is a text of that kind followed by `rest`.  A string, a number, an array or an object is a
phrase for each thing that it stands for, so that `StringPhrase s` has all ways to write `s`;
`ValuePhrase` has every JSON value, and all of these are among them.  A value has no blanks around
it; those belong to what it stands in.
-/

namespace GuestHost

namespace Json

/-- A kind of text. -/
abbrev Phrase := List Char → List Char → Prop

/-- The characters that may stand between the parts of a text. -/
def blanks : List Char := [' ', '\n', '\t', '\r']

/-- Any number of blanks. -/
inductive Blanks : List Char → List Char → Prop
  | none {rest : List Char} : Blanks rest rest
  | some {c : Char} {cs rest : List Char} : c ∈ blanks → Blanks cs rest → Blanks (c :: cs) rest

/-! ## Strings -/

/-- A hexadecimal digit in either case. -/
def HexDigit (n : Nat) (c : Char) : Prop :=
  ['0', '1', '2', '3', '4', '5', '6', '7', '8', '9', 'a', 'b', 'c', 'd', 'e', 'f'][n]? = some c ∨
    ['0', '1', '2', '3', '4', '5', '6', '7', '8', '9', 'A', 'B', 'C', 'D', 'E', 'F'][n]? = some c

/-- The four digits of a `\u` escape. -/
inductive HexPhrase : Nat → List Char → List Char → Prop
  | mk {n₁ n₂ n₃ n₄ : Nat} {c₁ c₂ c₃ c₄ : Char} {rest : List Char} :
    HexDigit n₁ c₁ → HexDigit n₂ c₂ → HexDigit n₃ c₃ → HexDigit n₄ c₄ →
      HexPhrase (((n₁ * 16 + n₂) * 16 + n₃) * 16 + n₄) (c₁ :: c₂ :: c₃ :: c₄ :: rest) rest

/-- A character that stands for itself in a string. -/
def IsPlain (c : Char) : Prop := c ≠ '"' ∧ c ≠ '\\' ∧ 0x20 ≤ c.toNat

/-- The escapes of one letter, each with the character that it stands for. -/
def shortEscapes : List (Char × Char) :=
  [('"', '"'), ('\\', '\\'), ('/', '/'), ('b', '\x08'), ('f', '\x0c'), ('n', '\n'), ('r', '\r'),
    ('t', '\t')]

/-- The ways to write a character of a string. -/
inductive CharPhrase : Char → List Char → List Char → Prop
  | plain {c : Char} {rest : List Char} : IsPlain c → CharPhrase c (c :: rest) rest
  | short {letter c : Char} {rest : List Char} : (letter, c) ∈ shortEscapes →
    CharPhrase c ('\\' :: letter :: rest) rest
  | unit {c : Char} {cs rest : List Char} : HexPhrase c.toNat cs rest →
    CharPhrase c ('\\' :: 'u' :: cs) rest
  /-- A character beyond the first 65536 is the two halves of a surrogate pair. -/
  | pair {c : Char} {high low : Nat} {cs cs' rest : List Char} :
    c.toNat = 0x10000 + high * 0x400 + low → high < 0x400 → low < 0x400 →
      HexPhrase (0xd800 + high) cs ('\\' :: 'u' :: cs') → HexPhrase (0xdc00 + low) cs' rest →
        CharPhrase c ('\\' :: 'u' :: cs) rest

/-- The ways to write the characters of a string, with the quote that closes it. -/
inductive CharsPhrase : List Char → List Char → List Char → Prop
  | close {rest : List Char} : CharsPhrase [] ('"' :: rest) rest
  | char {c : Char} {ds cs cs' rest : List Char} : CharPhrase c cs cs' → CharsPhrase ds cs' rest →
    CharsPhrase (c :: ds) cs rest

/-- The ways to write a string. -/
inductive StringPhrase : String → List Char → List Char → Prop
  | mk {s : String} {cs rest : List Char} : CharsPhrase s.toList cs rest →
    StringPhrase s ('"' :: cs) rest

/-- The characters of any string, which may have half of a surrogate pair among them, with the quote
that closes it. -/
inductive AnyChars : List Char → List Char → Prop
  | close {rest : List Char} : AnyChars ('"' :: rest) rest
  | plain {c : Char} {cs rest : List Char} : IsPlain c → AnyChars cs rest → AnyChars (c :: cs) rest
  | short {letter c : Char} {cs rest : List Char} : (letter, c) ∈ shortEscapes →
    AnyChars cs rest → AnyChars ('\\' :: letter :: cs) rest
  | unit {n : Nat} {cs cs' rest : List Char} : HexPhrase n cs cs' → AnyChars cs' rest →
    AnyChars ('\\' :: 'u' :: cs) rest

/-- Any string. -/
inductive AnyString : List Char → List Char → Prop
  | mk {cs rest : List Char} : AnyChars cs rest → AnyString ('"' :: cs) rest

/-! ## Numbers -/

/-- One or more decimal digits. -/
def IsDigits (ds : List Char) : Prop := ds ≠ [] ∧ ∀ d ∈ ds, d.isDigit = true

/-- The digits before the point of a number. -/
inductive IsWhole : List Char → Prop
  | zero : IsWhole ['0']
  | digits {d : Char} {ds : List Char} : d ≠ '0' → IsDigits (d :: ds) → IsWhole (d :: ds)

theorem IsWhole.isDigits {ds : List Char} (h : IsWhole ds) : IsDigits ds := by
  cases h with
  | zero => exact ⟨List.cons_ne_nil _ _, by simp⟩
  | digits _ hds => exact hds

theorem IsWhole.noZeroBefore {ds : List Char} (h : IsWhole ds) :
    ¬ (ds.head? = some '0' ∧ 1 < ds.length) := by
  cases h with
  | zero => exact fun hmore => Nat.lt_irrefl 1 hmore.2
  | digits hne _ => exact fun hmore => hne (Option.some.inj hmore.1)

/-- The point of a number and the digits after it, if there are any. -/
inductive IsFraction : List Char → Prop
  | none : IsFraction []
  | some {ds : List Char} : IsDigits ds → IsFraction ('.' :: ds)

/-- The exponent of a number, if there is one. -/
inductive IsExponent : List Char → Prop
  | none : IsExponent []
  | some {letter : Char} {sign ds : List Char} : letter ∈ ['e', 'E'] →
    sign ∈ [[], ['+'], ['-']] → IsDigits ds → IsExponent (letter :: (sign ++ ds))

/-- Any number. -/
inductive NumberPhrase : List Char → List Char → Prop
  | mk {sign whole fraction exponent rest : List Char} : sign ∈ [[], ['-']] → IsWhole whole →
    IsFraction fraction → IsExponent exponent →
      NumberPhrase (sign ++ (whole ++ (fraction ++ (exponent ++ rest)))) rest

/-- A number that is a natural number: its decimal digits. -/
inductive NaturalPhrase (n : Nat) : List Char → List Char → Prop
  | mk {rest : List Char} : NaturalPhrase n (Nat.toDigits 10 n ++ rest) rest

/-! ## Values -/

/-- A truth value. -/
inductive BoolPhrase : Bool → List Char → List Char → Prop
  | true {rest : List Char} : BoolPhrase true ('t' :: 'r' :: 'u' :: 'e' :: rest) rest
  | false {rest : List Char} : BoolPhrase false ('f' :: 'a' :: 'l' :: 's' :: 'e' :: rest) rest

/-- What JSON values are made of. -/
inductive Part where
  | value
  /-- One or more values, with commas between them. -/
  | elements
  /-- One or more members, with commas between them. -/
  | members

/-- The values of JSON, and the sequences inside of them. -/
inductive Grammar : Part → List Char → List Char → Prop
  | null {rest : List Char} : Grammar .value ('n' :: 'u' :: 'l' :: 'l' :: rest) rest
  | bool {b : Bool} {cs rest : List Char} : BoolPhrase b cs rest → Grammar .value cs rest
  | number {cs rest : List Char} : NumberPhrase cs rest → Grammar .value cs rest
  | string {cs rest : List Char} : AnyString cs rest → Grammar .value cs rest
  | emptyArray {cs rest : List Char} : Blanks cs (']' :: rest) → Grammar .value ('[' :: cs) rest
  | array {cs rest : List Char} : Grammar .elements cs (']' :: rest) →
    Grammar .value ('[' :: cs) rest
  | emptyObject {cs rest : List Char} : Blanks cs ('\x7d' :: rest) →
    Grammar .value ('\x7b' :: cs) rest
  | object {cs rest : List Char} : Grammar .members cs ('\x7d' :: rest) →
    Grammar .value ('\x7b' :: cs) rest
  | element {cs cs₁ cs₂ rest : List Char} : Blanks cs cs₁ → Grammar .value cs₁ cs₂ →
    Blanks cs₂ rest → Grammar .elements cs rest
  | elements {cs cs₁ cs₂ cs₃ rest : List Char} : Blanks cs cs₁ → Grammar .value cs₁ cs₂ →
    Blanks cs₂ (',' :: cs₃) → Grammar .elements cs₃ rest → Grammar .elements cs rest
  | member {cs cs₁ cs₂ cs₃ cs₄ cs₅ rest : List Char} : Blanks cs cs₁ → AnyString cs₁ cs₂ →
    Blanks cs₂ (':' :: cs₃) → Blanks cs₃ cs₄ → Grammar .value cs₄ cs₅ → Blanks cs₅ rest →
      Grammar .members cs rest
  | members {cs cs₁ cs₂ cs₃ cs₄ cs₅ cs₆ rest : List Char} : Blanks cs cs₁ → AnyString cs₁ cs₂ →
    Blanks cs₂ (':' :: cs₃) → Blanks cs₃ cs₄ → Grammar .value cs₄ cs₅ →
      Blanks cs₅ (',' :: cs₆) → Grammar .members cs₆ rest → Grammar .members cs rest

/-- Any value. -/
def ValuePhrase : Phrase := Grammar .value

/-! ## What stands for something -/

section Listed

variable {α : Type}

/-- What stands before an item of an array or object: blanks, and a comma among them unless the item
is the first. -/
inductive Gap : Bool → List Char → List Char → Prop
  | first {cs rest : List Char} : Blanks cs rest → Gap true cs rest
  | comma {cs cs' rest : List Char} : Blanks cs (',' :: cs') → Blanks cs' rest → Gap false cs rest

/-- The items of an array or object from the first one on, or from another one on. -/
inductive Listed (item : α → Phrase) : Bool → List α → List Char → List Char → Prop
  | nil {first : Bool} {cs rest : List Char} : Blanks cs rest → Listed item first [] cs rest
  | cons {first : Bool} {a : α} {as : List α} {cs cs₁ cs₂ rest : List Char} : Gap first cs cs₁ →
    item a cs₁ cs₂ → Listed item false as cs₂ rest → Listed item first (a :: as) cs rest

/-- An array of things that can be written. -/
inductive ArrayPhrase (item : α → Phrase) (as : List α) : List Char → List Char → Prop
  | mk {cs rest : List Char} : Listed item true as cs (']' :: rest) →
    ArrayPhrase item as ('[' :: cs) rest

/-- `null`, or a thing that can be written. -/
inductive OptionPhrase (item : α → Phrase) : Option α → List Char → List Char → Prop
  | none {rest : List Char} : OptionPhrase item none ('n' :: 'u' :: 'l' :: 'l' :: rest) rest
  | some {a : α} {cs rest : List Char} : item a cs rest → OptionPhrase item (some a) cs rest

end Listed

/-- An array of two strings. -/
def PairPhrase (p : String × String) : Phrase := ArrayPhrase StringPhrase [p.1, p.2]

/-- A member of an object: its name, and the kind of text that its value is. -/
abbrev Member := String × Phrase

/-- The ways to write a member. -/
inductive MemberPhrase : Member → List Char → List Char → Prop
  | mk {name : String} {value : Phrase} {cs cs₁ cs₂ cs₃ rest : List Char} :
    StringPhrase name cs cs₁ → Blanks cs₁ (':' :: cs₂) → Blanks cs₂ cs₃ → value cs₃ rest →
      MemberPhrase (name, value) cs rest

/-- The ways to write an object with these members, in their order. -/
inductive ObjectPhrase (ms : List Member) : List Char → List Char → Prop
  | mk {cs rest : List Char} : Listed MemberPhrase true ms cs ('\x7d' :: rest) →
    ObjectPhrase ms ('\x7b' :: cs) rest

/-- A text that is an object with these members and nothing else but blanks. -/
def IsDocument (ms : List Member) (text : String) : Prop :=
  ∃ cs cs', Blanks text.toList cs ∧ ObjectPhrase ms cs cs' ∧ Blanks cs' []

/-! ## What stands for something is JSON -/

/-- Texts of a kind are values of JSON. -/
def IsJson (phrase : Phrase) : Prop := ∀ {cs rest : List Char}, phrase cs rest → ValuePhrase cs rest

section IsJson

variable {α : Type} {cs cs' rest : List Char}

theorem CharPhrase.any {c : Char} (h : CharPhrase c cs cs') (h' : AnyChars cs' rest) :
    AnyChars cs rest := by
  cases h with
  | plain hc => exact .plain hc h'
  | short hmem => exact .short hmem h'
  | unit hword => exact .unit hword h'
  | pair _ _ _ hword hword' => exact .unit hword (.unit hword' h')

theorem CharsPhrase.any {ds : List Char} (h : CharsPhrase ds cs rest) : AnyChars cs rest := by
  induction h with
  | close => exact .close
  | char hc _ ih => exact hc.any ih

theorem StringPhrase.any {s : String} (h : StringPhrase s cs rest) : AnyString cs rest := by
  cases h with
  | mk h => exact .mk h.any

theorem isJson_string (s : String) : IsJson (StringPhrase s) := fun h => .string h.any

theorem isDigit_toDigits {n : Nat} : ∀ d ∈ Nat.toDigits 10 n, d.isDigit = true :=
  fun _ hd => Nat.isDigit_of_mem_toDigits (by decide) (by decide) hd

/-- The digits of a number start with a zero only if it is zero. -/
theorem head_toDigits {n : Nat} (h : n ≠ 0) : (Nat.toDigits 10 n).head? ≠ some '0' := by
  induction n using Nat.strongRecOn with
  | ind n ih =>
    rw [Nat.toDigits_eq_if (by decide)]
    split
    · next hlt =>
      have hdigit := Nat.toNat_digitChar_of_lt_ten hlt
      have hzero : ('0' : Char).toNat = 48 := rfl
      rw [List.head?_cons, Ne, Option.some.injEq]
      intro hhead
      rw [hhead] at hdigit
      omega
    · next hge =>
      rw [List.head?_append_of_ne_nil _ Nat.toDigits_ne_nil]
      exact ih (n / 10) (by omega) (by omega)

theorem isWhole_toDigits (n : Nat) : IsWhole (Nat.toDigits 10 n) := by
  by_cases hn : n = 0
  · subst hn
    exact .zero
  · have hhead := head_toDigits hn
    have hall := @isDigit_toDigits n
    obtain ⟨d, ds, hdigits⟩ := List.exists_cons_of_ne_nil (@Nat.toDigits_ne_nil n 10)
    rw [hdigits] at hhead hall ⊢
    exact .digits (fun hd => hhead (congrArg some hd)) ⟨List.cons_ne_nil _ _, hall⟩

theorem isJson_natural (n : Nat) : IsJson (NaturalPhrase n) := by
  rintro cs rest ⟨⟩
  exact .number (.mk List.mem_cons_self (isWhole_toDigits n) .none .none)

theorem isJson_bool (b : Bool) : IsJson (BoolPhrase b) := fun h => .bool h

theorem isJson_option {item : α → Phrase} (hitem : ∀ a, IsJson (item a)) (o : Option α) :
    IsJson (OptionPhrase item o) := by
  rintro cs rest (_ | h)
  · exact .null
  · exact hitem _ h

/-- The items of an array after one of them. -/
theorem Listed.elements {item : α → Phrase} (hitem : ∀ a, IsJson (item a)) {as : List α}
    (h : Listed item false as cs rest) {cs₀ cs₁ : List Char} (hblanks : Blanks cs₀ cs₁)
    (hvalue : ValuePhrase cs₁ cs) : Grammar .elements cs₀ rest := by
  induction as generalizing cs₀ cs₁ cs with
  | nil =>
    cases h with
    | nil hend => exact .element hblanks hvalue hend
  | cons a as ih =>
    cases h with
    | cons hgap ha has =>
      cases hgap with
      | comma hcomma hblanks' =>
        exact .elements hblanks hvalue hcomma (ih has hblanks' (hitem a ha))

theorem isJson_array {item : α → Phrase} (hitem : ∀ a, IsJson (item a)) (as : List α) :
    IsJson (ArrayPhrase item as) := by
  rintro cs rest ⟨h⟩
  cases h with
  | nil hend => exact .emptyArray hend
  | cons hgap ha has =>
    cases hgap with
    | first hblanks => exact .array (has.elements hitem hblanks (hitem _ ha))

theorem isJson_pair (p : String × String) : IsJson (PairPhrase p) := isJson_array isJson_string _

/-- The members of an object after one of them. -/
theorem Listed.members {ms : List Member} (hms : ∀ m ∈ ms, IsJson m.2)
    (h : Listed MemberPhrase false ms cs rest) {cs₀ cs₁ : List Char} {m : Member}
    (hblanks : Blanks cs₀ cs₁) (hm : IsJson m.2) (hmember : MemberPhrase m cs₁ cs) :
    Grammar .members cs₀ rest := by
  induction ms generalizing cs₀ cs₁ cs m with
  | nil =>
    cases h with
    | nil hend =>
      cases hmember with
      | mk hname hcolon hblanks' hvalue =>
        exact .member hblanks hname.any hcolon hblanks' (hm hvalue) hend
  | cons m' ms ih =>
    have hms' := List.forall_mem_cons.1 hms
    cases h with
    | cons hgap hnext hothers =>
      cases hgap with
      | comma hcomma hblanks'' =>
        have hmembers := ih hms'.2 hothers hblanks'' hms'.1 hnext
        cases hmember with
        | mk hname hcolon hblanks' hvalue =>
          exact .members hblanks hname.any hcolon hblanks' (hm hvalue) hcomma hmembers

theorem isJson_object {ms : List Member} (hms : ∀ m ∈ ms, IsJson m.2) :
    IsJson (ObjectPhrase ms) := by
  rintro cs rest ⟨h⟩
  cases h with
  | nil hend => exact .emptyObject hend
  | cons hgap hmember hothers =>
    have hms' := List.forall_mem_cons.1 hms
    cases hgap with
    | first hblanks => exact .object (hothers.members hms'.2 hblanks hms'.1 hmember)

end IsJson

/-! ## Progress -/

section Progress

variable {α : Type} {cs rest : List Char}

theorem Blanks.length_le (h : Blanks cs rest) : rest.length ≤ cs.length := by
  induction h with
  | none => exact Nat.le_refl _
  | some _ _ ih => exact Nat.le_succ_of_le ih

theorem HexPhrase.length_lt {n : Nat} (h : HexPhrase n cs rest) : rest.length < cs.length := by
  cases h
  simp only [List.length_cons]
  omega

theorem AnyChars.length_lt (h : AnyChars cs rest) : rest.length < cs.length := by
  induction h with
  | close => simp
  | plain _ _ ih => exact Nat.lt_succ_of_lt ih
  | short _ _ ih => exact Nat.lt_succ_of_lt (Nat.lt_succ_of_lt ih)
  | unit hword _ ih =>
    have hlt := hword.length_lt
    simp only [List.length_cons]
    omega

theorem AnyString.length_lt (h : AnyString cs rest) : rest.length < cs.length := by
  cases h with
  | mk h => exact Nat.lt_succ_of_lt h.length_lt

theorem NumberPhrase.length_lt (h : NumberPhrase cs rest) : rest.length < cs.length := by
  cases h with
  | mk _ hwhole _ _ =>
    cases hwhole <;> simp only [List.length_append, List.length_cons] <;> omega

/-- The name of a member, its colon and the blanks around it. -/
theorem length_lt_of_name {cs₁ cs₂ cs₃ : List Char} (hname : AnyString cs cs₁)
    (hcolon : Blanks cs₁ (':' :: cs₂)) (hblanks : Blanks cs₂ cs₃) :
    cs₃.length + 1 < cs.length := by
  have hlt := hname.length_lt
  have hle := hcolon.length_le
  have hle' := hblanks.length_le
  simp only [List.length_cons] at hle
  omega

/-- A value takes something off a text, and so do the insides of an array and an object. -/
theorem Grammar.length_lt {part : Part} (h : Grammar part cs rest) : rest.length < cs.length := by
  induction h with
  | null => simp only [List.length_cons]; omega
  | bool h => cases h <;> simp only [List.length_cons] <;> omega
  | number h => exact h.length_lt
  | string h => exact h.length_lt
  | emptyArray h => exact Nat.lt_succ_of_lt h.length_le
  | emptyObject h => exact Nat.lt_succ_of_lt h.length_le
  | array _ ih => exact Nat.lt_succ_of_lt (Nat.lt_of_succ_lt ih)
  | object _ ih => exact Nat.lt_succ_of_lt (Nat.lt_of_succ_lt ih)
  | element hbefore _ hafter ih =>
    have hle := hbefore.length_le
    have hle' := hafter.length_le
    omega
  | elements hbefore _ hcomma _ ih ih' =>
    have hle := hbefore.length_le
    have hle' := hcomma.length_le
    simp only [List.length_cons] at hle'
    omega
  | member hbefore hname hcolon hblanks _ hafter ih =>
    have hle := hbefore.length_le
    have hlt := length_lt_of_name hname hcolon hblanks
    have hle' := hafter.length_le
    omega
  | members hbefore hname hcolon hblanks _ hcomma _ ih ih' =>
    have hle := hbefore.length_le
    have hlt := length_lt_of_name hname hcolon hblanks
    have hle' := hcomma.length_le
    simp only [List.length_cons] at hle'
    omega

theorem not_mem_of_isDigit {c : Char} (h : c.isDigit = true) {others : List Char}
    (hothers : ∀ d ∈ others, d.isDigit = false) : c ∉ others := fun hc => by
  rw [hothers c hc] at h
  cases h

theorem not_blank_of_isDigit {c : Char} (h : c.isDigit = true) : c ∉ blanks :=
  not_mem_of_isDigit h (by simp [blanks])

theorem NumberPhrase.head (h : NumberPhrase cs rest) :
    ∃ c cs', cs = c :: cs' ∧ (c = '-' ∨ c.isDigit = true) := by
  cases h with
  | @mk sign whole fraction exponent _ hsign hwhole _ _ =>
    have hdigits := hwhole.isDigits
    simp only [List.mem_cons, List.not_mem_nil, or_false] at hsign
    rcases hsign with rfl | rfl
    · obtain ⟨d, ds, rfl⟩ := List.exists_cons_of_ne_nil hdigits.1
      exact ⟨d, _, rfl, .inr (hdigits.2 d List.mem_cons_self)⟩
    · exact ⟨'-', _, rfl, .inl rfl⟩

theorem NaturalPhrase.head {n : Nat} (h : NaturalPhrase n cs rest) :
    ∃ d cs', cs = d :: cs' ∧ d.isDigit = true := by
  cases h
  obtain ⟨d, ds, hdigits⟩ := List.exists_cons_of_ne_nil (@Nat.toDigits_ne_nil n 10)
  refine ⟨d, ds ++ rest, ?_, isDigit_toDigits d (hdigits ▸ List.mem_cons_self)⟩
  rw [hdigits, List.cons_append]

/-- A value starts with a character that stands nowhere around a value. -/
theorem ValuePhrase.head (h : ValuePhrase cs rest) :
    ∃ c cs', cs = c :: cs' ∧ c ∉ blanks ∧ c ≠ ']' := by
  cases h with
  | null | emptyArray | array | emptyObject | object => exact ⟨_, _, rfl, by decide, by decide⟩
  | bool h => cases h <;> exact ⟨_, _, rfl, by decide, by decide⟩
  | string h => cases h; exact ⟨_, _, rfl, by decide, by decide⟩
  | number h =>
    obtain ⟨c, cs', rfl, rfl | hc⟩ := h.head
    · exact ⟨_, _, rfl, by decide, by decide⟩
    · refine ⟨_, _, rfl, not_blank_of_isDigit hc, ?_⟩
      rintro rfl
      cases hc

/-- There are no more items than characters that they take. -/
theorem Listed.length_le {item : α → Phrase} {first : Bool} {as : List α}
    (hitem : ∀ a ∈ as, ∀ {cs rest}, item a cs rest → rest.length < cs.length)
    (h : Listed item first as cs rest) : as.length + rest.length ≤ cs.length := by
  induction as generalizing first cs with
  | nil =>
    cases h with
    | nil h => simpa using h.length_le
  | cons a as ih =>
    have hitem' := List.forall_mem_cons.1 hitem
    cases h with
    | @cons _ _ _ _ cs₁ cs₂ _ hgap ha has =>
      have hle := ih hitem'.2 has
      have hlt := hitem'.1 ha
      have hgap' : cs₁.length ≤ cs.length := by
        cases hgap with
        | first h => exact h.length_le
        | comma h h' => exact Nat.le_trans (Nat.le_succ_of_le h'.length_le) h.length_le
      simp only [List.length_cons]
      omega

theorem MemberPhrase.length_lt {m : Member} (hm : IsJson m.2) (h : MemberPhrase m cs rest) :
    rest.length < cs.length := by
  cases h with
  | mk hname hcolon hblanks hvalue =>
    have hlt := length_lt_of_name hname.any hcolon hblanks
    have hlt' := (hm hvalue).length_lt
    omega

end Progress

end Json

end GuestHost
