import GuestHost.Proofs.Json.Record

/-!
# Everything can be written

For each string, number, array and object there is a text that stands for it, in front of any other
text; so there is a document with any members that can be written.
-/

namespace GuestHost

namespace Json

variable {α : Type}

/-- There is a text of a kind in front of any text. -/
def Writable (phrase : Phrase) : Prop := ∀ rest, ∃ cs, phrase cs rest

/-! ## Strings -/

theorem exists_hexDigit {n : Nat} (h : n < 16) : ∃ c, HexDigit n c :=
  ⟨_, .inl (List.getElem?_eq_getElem h)⟩

theorem hexPhrase_writable {n : Nat} (h : n < 0x10000) : Writable (HexPhrase n) := by
  intro rest
  obtain ⟨c₁, h₁⟩ := exists_hexDigit (show n / 0x1000 < 16 by omega)
  obtain ⟨c₂, h₂⟩ := exists_hexDigit (show n / 0x100 % 16 < 16 by omega)
  obtain ⟨c₃, h₃⟩ := exists_hexDigit (show n / 0x10 % 16 < 16 by omega)
  obtain ⟨c₄, h₄⟩ := exists_hexDigit (show n % 16 < 16 by omega)
  have hphrase : HexPhrase _ _ rest := .mk h₁ h₂ h₃ h₄
  have hn : ((n / 0x1000 * 16 + n / 0x100 % 16) * 16 + n / 0x10 % 16) * 16 + n % 16 = n := by
    omega
  rw [hn] at hphrase
  exact ⟨_, hphrase⟩

theorem charPhrase_writable (c : Char) : Writable (CharPhrase c) := by
  intro rest
  by_cases hplain : IsPlain c
  · exact ⟨_, .plain hplain⟩
  · have hsmall : c.toNat < 0x10000 := by
      by_contra hlarge
      refine hplain ⟨?_, ?_, by omega⟩
      · rintro rfl
        exact hlarge (by decide)
      · rintro rfl
        exact hlarge (by decide)
    obtain ⟨cs, hword⟩ := hexPhrase_writable hsmall rest
    exact ⟨_, .unit hword⟩

theorem charsPhrase_writable (ds : List Char) : Writable (CharsPhrase ds) := by
  intro rest
  induction ds with
  | nil => exact ⟨_, .close⟩
  | cons c ds ih =>
    obtain ⟨cs', hchars⟩ := ih
    obtain ⟨cs, hchar⟩ := charPhrase_writable c cs'
    exact ⟨cs, .char hchar hchars⟩

/-- Characters that stand for themselves are written as they are. -/
theorem plain_string {s : String} (h : ∀ c ∈ s.toList, IsPlain c) (rest : List Char) :
    StringPhrase s ('"' :: (s.toList ++ '"' :: rest)) rest := by
  refine .mk ?_
  generalize s.toList = ds at h ⊢
  induction ds with
  | nil => exact .close
  | cons c ds ih =>
    obtain ⟨hc, hds⟩ := List.forall_mem_cons.1 h
    exact .char (.plain hc) (ih hds)

theorem string_writable (s : String) : Writable (StringPhrase s) := by
  intro rest
  obtain ⟨cs, hchars⟩ := charsPhrase_writable s.toList rest
  exact ⟨_, .mk hchars⟩

/-! ## Other values -/

theorem natural_writable (n : Nat) : Writable (NaturalPhrase n) := fun _ => ⟨_, .mk⟩

theorem bool_writable : (b : Bool) → Writable (BoolPhrase b)
  | true => fun _ => ⟨_, .true⟩
  | false => fun _ => ⟨_, .false⟩

theorem option_writable {item : α → Phrase} (hitem : ∀ a, Writable (item a)) :
    (o : Option α) → Writable (OptionPhrase item o)
  | none => fun _ => ⟨_, .none⟩
  | some a => fun rest => (hitem a rest).imp fun _ h => .some h

theorem value_writable : Writable ValuePhrase := fun _ => ⟨_, .null⟩

theorem listed_writable {item : α → Phrase} {as : List α} (hitem : ∀ a ∈ as, Writable (item a))
    (first : Bool) : Writable (Listed item first as) := by
  intro rest
  induction as generalizing first with
  | nil => exact ⟨rest, .nil .none⟩
  | cons a as ih =>
    obtain ⟨ha, has⟩ := List.forall_mem_cons.1 hitem
    obtain ⟨cs₂, hlisted⟩ := ih has false
    obtain ⟨cs₁, hphrase⟩ := ha cs₂
    cases first with
    | true => exact ⟨cs₁, .cons (.first .none) hphrase hlisted⟩
    | false => exact ⟨',' :: cs₁, .cons (.comma .none .none) hphrase hlisted⟩

theorem array_writable {item : α → Phrase} (hitem : ∀ a, Writable (item a)) (as : List α) :
    Writable (ArrayPhrase item as) := by
  intro rest
  obtain ⟨cs, hlisted⟩ := listed_writable (fun a _ => hitem a) true (']' :: rest)
  exact ⟨_, .mk hlisted⟩

/-! ## Objects -/

theorem member_writable {m : Member} (h : Writable m.2) : Writable (MemberPhrase m) := by
  intro rest
  obtain ⟨cs', hvalue⟩ := h rest
  obtain ⟨cs, hname⟩ := string_writable m.1 (':' :: cs')
  exact ⟨cs, .mk hname .none .none hvalue⟩

theorem object_writable {ms : List Member} (h : ∀ m ∈ ms, Writable m.2) :
    Writable (ObjectPhrase ms) := by
  intro rest
  obtain ⟨cs, hlisted⟩ :=
    listed_writable (fun m hm => member_writable (h m hm)) true ('\x7d' :: rest)
  exact ⟨_, .mk hlisted⟩

theorem whole_writable {σ : Type} {r : Record σ} {overlay : List String → σ → σ}
    {fields : List Member} {a : σ} (h : r.Describes overlay fields a)
    (hfields : ∀ m ∈ fields, Writable m.2) : Writable (WholePhrase fields) := by
  intro rest
  have hgiven : given (fields.map Prod.fst) fields = fields.map Prod.fst :=
    List.filter_eq_self.2 fun name hname => by simpa using hname
  obtain ⟨cs, hobject⟩ := object_writable hfields rest
  refine ⟨cs, .mk (fun m hm => .inl hm) ?_ ?_ hobject⟩
  · rw [hgiven, h.writes.names_eq]
    exact h.distinct
  · rw [hgiven]
    exact List.Subset.refl _

theorem part_writable {fields : List Member} (h : fields ≠ []) : Writable (PartPhrase fields) := by
  intro rest
  obtain ⟨cs, hobject⟩ := object_writable (fun m hm => absurd hm List.not_mem_nil) rest
  refine ⟨cs, .mk (fun m hm => absurd hm List.not_mem_nil) (fun hsubset => ?_) hobject⟩
  obtain ⟨m, hm⟩ := List.exists_mem_of_ne_nil fields h
  exact List.not_mem_nil (hsubset (List.mem_map_of_mem hm))

theorem exists_document {ms : List Member} (h : ∀ m ∈ ms, Writable m.2) :
    ∃ text, IsDocument ms text := by
  obtain ⟨cs, hobject⟩ := object_writable h []
  refine ⟨String.ofList cs, cs, [], ?_, hobject, .none⟩
  rw [String.toList_ofList]
  exact .none

end Json

end GuestHost
