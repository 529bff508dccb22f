import GuestHost.Proofs.Json.Skipping
import Mathlib.Data.List.Nodup

/-!
# Records are read from their objects

An object for a record has members that are fields and members with other names.  Whatever their
order, `Json.Record.read` gives each field the value that its member has, skips the others, and
leaves the fields that are not there as they were.  It refuses an object that names a field twice,
or that lacks a field of a record that must be complete; `Flaw` is what it then says.
-/

namespace GuestHost

namespace Json

/-! ## Objects for a record -/

/-- The names of fields among those of some members, in their order. -/
def given (names : List String) (ms : List Member) : List String :=
  (ms.map Prod.fst).filter (· ∈ names)

/-- Each member is a field, or has a name that no field has and any value. -/
def Gives (names : List String) (IsField : Member → Prop) (ms : List Member) : Prop :=
  ∀ m ∈ ms, IsField m ∨ m.1 ∉ names ∧ m.2 = ValuePhrase

/-- An object that has each of these members once, in any order, and maybe others. -/
inductive WholePhrase (fields : List Member) : List Char → List Char → Prop
  | mk {ms : List Member} {cs rest : List Char} : Gives (fields.map Prod.fst) (· ∈ fields) ms →
    (given (fields.map Prod.fst) ms).Nodup →
      fields.map Prod.fst ⊆ given (fields.map Prod.fst) ms → ObjectPhrase ms cs rest →
        WholePhrase fields cs rest

/-- An object that lacks at least one of these members. -/
inductive PartPhrase (fields : List Member) : List Char → List Char → Prop
  | mk {ms : List Member} {cs rest : List Char} : Gives (fields.map Prod.fst) (· ∈ fields) ms →
    ¬ fields.map Prod.fst ⊆ given (fields.map Prod.fst) ms → ObjectPhrase ms cs rest →
      PartPhrase fields cs rest

/-- What is wrong with an object for a record. -/
inductive Flaw where
  /-- A field is named twice. -/
  | repeated (name : String)
  /-- A field is not there. -/
  | missing (name : String)

/-- What a message says of a flaw. -/
def Flaw.description : Flaw → String
  | repeated name => "duplicate field `" ++ name ++ "`"
  | missing name => "missing field `" ++ name ++ "`"

section given

variable {names : List String} {m : Member} (ms : List Member)

theorem given_cons_field (h : m.1 ∈ names) : given names (m :: ms) = m.1 :: given names ms :=
  List.filter_cons_of_pos (by simpa using h)

theorem given_cons_other (h : m.1 ∉ names) : given names (m :: ms) = given names ms :=
  List.filter_cons_of_neg (by simpa using h)

end given

/-! ## One member -/

variable {α σ : Type} {cs cs₁ cs₂ rest : List Char}

/-- A reader finds a flaw at any text of a kind. -/
def Refuses (p : Reader α) (phrase : Phrase) : Prop :=
  ∀ ⦃cs cs' rest : List Char⦄, Blanks cs cs' → phrase cs' rest → Stops rest →
    ∃ flaw : Flaw, p cs = .error (.mismatch flaw.description)

theorem Refuses.bind {p : Reader α} {phrase : Phrase} {β : Type} (f : α → Reader β)
    (h : Refuses p phrase) : Refuses (p >>= f) phrase := by
  intro cs cs' rest hblanks hphrase hstops
  obtain ⟨flaw, hp⟩ := h hblanks hphrase hstops
  exact ⟨flaw, Reader.bind_error f hp⟩

namespace Record

variable (r : Record σ)

/-- The names of the fields of a record. -/
def names : List String := r.fields.map Field.name

/-- The field with a name. -/
def field? (name : String) : Option (Field σ) := r.fields.find? fun f => f.name == name

theorem field?_eq_none {name : String} : r.field? name = none ↔ name ∉ r.names := by
  simp [field?, names]

theorem mem_names_iff {name : String} : name ∈ r.names ↔ ∃ f, r.field? name = some f := by
  rw [← Option.ne_none_iff_exists', Ne, field?_eq_none, not_not]

/-- The member of a field, and what reading it changes: `overlay names` gives the fields with these
names their values. -/
structure Reads (overlay : List String → σ → σ) (m : Member) : Prop where
  json : IsJson m.2
  field : ∃ f, r.field? m.1 = some f ∧ ∀ s, Json.Reads (f.read s) m.2 (overlay [m.1] s)

/-- The member of a field whose value is refused. -/
structure Refuses (m : Member) : Prop where
  json : IsJson m.2
  field : ∃ f, r.field? m.1 = some f ∧ ∀ s, Json.Refuses (f.read s) m.2

variable {r} {m : Member} {fuel : Nat} {first : Bool} {seen : List String} {s : σ}

theorem Reads.known {overlay : List String → σ → σ} (h : r.Reads overlay m) : m.1 ∈ r.names :=
  r.mem_names_iff.2 (h.field.imp fun _ => And.left)

theorem Refuses.known (h : r.Refuses m) : m.1 ∈ r.names :=
  r.mem_names_iff.2 (h.field.imp fun _ => And.left)

theorem members_end (h : Blanks cs ('\x7d' :: rest)) :
    r.members (fuel + 1) first seen s cs = .ok ((seen, s), '\x7d' :: rest) :=
  Reader.bind_ok _ (nextKey_end first h)

/-- Up to the colon of a member. -/
theorem members_key {name : String} (hgap : Gap first cs cs₁) (hname : StringPhrase name cs₁ cs₂) :
    r.members (fuel + 1) first seen s cs =
      (match r.field? name with
        | none => do
          Reader.colon
          Reader.skip
          r.members fuel false seen s
        | some f =>
          if name ∈ seen then Reader.mismatch ("duplicate field `" ++ name ++ "`")
          else do
            Reader.colon
            let s ← f.read s
            r.members fuel false (name :: seen) s) cs₂ := by
  have hstring := string_eq hname
  cases hname with
  | mk _ =>
    refine (Reader.bind_ok _ (nextKey_item hgap)).trans ?_
    exact Reader.bind_ok _ hstring

theorem members_other (hm : m.1 ∉ r.names) (hvalue : m.2 = ValuePhrase) (hgap : Gap first cs cs₁)
    (hmember : MemberPhrase m cs₁ cs₂) (hstops : Stops cs₂) :
    r.members (fuel + 1) first seen s cs = r.members fuel false seen s cs₂ := by
  cases hmember with
  | mk hname hcolon hblanks hphrase =>
    cases hvalue
    rw [members_key hgap hname, r.field?_eq_none.2 hm]
    refine (Reader.bind_ok _ (colon_eq hcolon)).trans ?_
    exact Reader.bind_ok _ (skip_reads hblanks hphrase hstops)

/-- The value of a field that was not there before. -/
theorem members_value {f : Field σ} {name : String} {cs₃ : List Char} (hf : r.field? name = some f)
    (hseen : name ∉ seen) (hgap : Gap first cs cs₁) (hname : StringPhrase name cs₁ cs₂)
    (hcolon : Blanks cs₂ (':' :: cs₃)) :
    r.members (fuel + 1) first seen s cs =
      (f.read s >>= fun s => r.members fuel false (name :: seen) s) cs₃ := by
  rw [members_key hgap hname, hf]
  simp only [if_neg hseen]
  exact Reader.bind_ok _ (colon_eq hcolon)

theorem members_field {overlay : List String → σ → σ} (hm : r.Reads overlay m) (hseen : m.1 ∉ seen)
    (hgap : Gap first cs cs₁) (hmember : MemberPhrase m cs₁ cs₂) (hstops : Stops cs₂) :
    r.members (fuel + 1) first seen s cs =
      r.members fuel false (m.1 :: seen) (overlay [m.1] s) cs₂ := by
  obtain ⟨f, hf, hreads⟩ := hm.field
  cases hmember with
  | mk hname hcolon hblanks hphrase =>
    refine (members_value hf hseen hgap hname hcolon).trans ?_
    exact Reader.bind_ok _ (hreads s hblanks hphrase hstops)

theorem members_refused (hm : r.Refuses m) (hseen : m.1 ∉ seen) (hgap : Gap first cs cs₁)
    (hmember : MemberPhrase m cs₁ cs₂) (hstops : Stops cs₂) :
    ∃ flaw : Flaw,
      r.members (fuel + 1) first seen s cs = .error (.mismatch flaw.description) := by
  obtain ⟨f, hf, hrefuses⟩ := hm.field
  cases hmember with
  | mk hname hcolon hblanks hphrase =>
    obtain ⟨flaw, hflaw⟩ := hrefuses s hblanks hphrase hstops
    refine ⟨flaw, (members_value hf hseen hgap hname hcolon).trans ?_⟩
    exact Reader.bind_error _ hflaw

theorem members_repeated (hm : m.1 ∈ r.names) (hseen : m.1 ∈ seen) (hgap : Gap first cs cs₁)
    (hmember : MemberPhrase m cs₁ cs₂) :
    r.members (fuel + 1) first seen s cs =
      .error (.mismatch (Flaw.repeated m.1).description) := by
  obtain ⟨f, hf⟩ := r.mem_names_iff.1 hm
  cases hmember with
  | mk hname _ _ _ =>
    rw [members_key hgap hname, hf]
    simp only [if_pos hseen]
    rfl

/-! ## All members -/

/-- `overlay` gives fields their values one name at a time. -/
structure Layers (overlay : List String → σ → σ) : Prop where
  nil : ∀ s, overlay [] s = s
  cons : ∀ name names s, overlay (name :: names) s = overlay names (overlay [name] s)

theorem stops_brace : Stops ('\x7d' :: rest) := fun c hc => by
  cases hc
  decide

/-- Members are read in their order. -/
theorem members_ok {overlay : List String → σ → σ} (hlayers : Layers overlay) {ms : List Member}
    (hms : Gives r.names (r.Reads overlay) ms) (hfuel : ms.length < fuel)
    (hnodup : (given r.names ms ++ seen).Nodup)
    (hlisted : Listed MemberPhrase first ms cs ('\x7d' :: rest)) :
    r.members fuel first seen s cs =
      .ok (((given r.names ms).reverse ++ seen, overlay (given r.names ms) s), '\x7d' :: rest) := by
  induction ms generalizing fuel first seen s cs with
  | nil =>
    obtain ⟨fuel, rfl⟩ := Nat.exists_eq_add_one_of_ne_zero (Nat.ne_of_gt hfuel)
    cases hlisted with
    | nil hblanks =>
      rw [members_end hblanks]
      simp only [given, List.map_nil, List.filter_nil, List.reverse_nil, List.nil_append,
        hlayers.nil]
  | cons m ms ih =>
    obtain ⟨fuel, rfl⟩ := Nat.exists_eq_add_one_of_ne_zero (Nat.ne_zero_of_lt hfuel)
    have hfuel' : ms.length < fuel := Nat.lt_of_succ_lt_succ hfuel
    obtain ⟨hm, hms'⟩ := List.forall_mem_cons.1 hms
    cases hlisted with
    | cons hgap hmember hothers =>
      have hstops := hothers.stops stops_brace
      rcases hm with hm | ⟨hunknown, hvalue⟩
      · rw [given_cons_field ms hm.known] at hnodup ⊢
        have hseen : m.1 ∉ seen := fun h =>
          (List.nodup_cons.1 hnodup).1 (List.mem_append_right _ h)
        -- A name goes from those to come to those seen, and all of them stay distinct.
        rw [members_field hm hseen hgap hmember hstops,
          ih hms' hfuel' (List.nodup_middle.2 hnodup) hothers, hlayers.cons m.1 (given r.names ms)]
        simp only [List.reverse_cons, List.append_assoc, List.cons_append, List.nil_append]
      · rw [given_cons_other ms hunknown] at hnodup ⊢
        rw [members_other hunknown hvalue hgap hmember hstops, ih hms' hfuel' hnodup hothers]

/-- A field that is named twice, or whose value is refused, is found. -/
theorem members_flawed {ms : List Member}
    (hms : Gives r.names (fun m => (∃ overlay, r.Reads overlay m) ∨ r.Refuses m) ms)
    (hfuel : ms.length < fuel) (hseen : seen.Nodup)
    (hflawed : ¬ (given r.names ms ++ seen).Nodup ∨ ∃ m ∈ ms, r.Refuses m)
    (hlisted : Listed MemberPhrase first ms cs ('\x7d' :: rest)) :
    ∃ flaw : Flaw, r.members fuel first seen s cs = .error (.mismatch flaw.description) := by
  induction ms generalizing fuel first seen s cs with
  | nil =>
    rcases hflawed with hrepeated | ⟨m, hmem, -⟩
    · exact absurd hseen hrepeated
    · exact absurd hmem List.not_mem_nil
  | cons m ms ih =>
    obtain ⟨fuel, rfl⟩ := Nat.exists_eq_add_one_of_ne_zero (Nat.ne_zero_of_lt hfuel)
    have hfuel' : ms.length < fuel := Nat.lt_of_succ_lt_succ hfuel
    obtain ⟨hm, hms'⟩ := List.forall_mem_cons.1 hms
    cases hlisted with
    | cons hgap hmember hothers =>
      have hstops := hothers.stops stops_brace
      by_cases hknown : m.1 ∈ r.names
      · by_cases hagain : m.1 ∈ seen
        · exact ⟨_, members_repeated hknown hagain hgap hmember⟩
        -- A name that comes again later is still there then, so the value of the first may be read.
        by_cases hrefuses : r.Refuses m
        · exact members_refused hrefuses hagain hgap hmember hstops
        obtain ⟨overlay, hreads⟩ : ∃ overlay, r.Reads overlay m := by
          rcases hm with (hm | hm) | hm
          · exact hm
          · exact absurd hm hrefuses
          · exact absurd hknown hm.1
        rw [members_field hreads hagain hgap hmember hstops]
        refine ih hms' hfuel' (List.nodup_cons.2 ⟨hagain, hseen⟩) ?_ hothers
        rw [given_cons_field ms hknown] at hflawed
        exact hflawed.imp (fun h h' => h (List.nodup_middle.1 h'))
          fun h => ((List.exists_mem_cons_iff _ _ _).1 h).resolve_left hrefuses
      · have hvalue : m.2 = ValuePhrase := by
          rcases hm with (⟨overlay, hm⟩ | hm) | hm
          · exact absurd hm.known hknown
          · exact absurd hm.known hknown
          · exact hm.2
        rw [members_other hknown hvalue hgap hmember hstops]
        refine ih hms' hfuel' hseen ?_ hothers
        rw [given_cons_other ms hknown] at hflawed
        exact hflawed.imp_right fun h =>
          ((List.exists_mem_cons_iff _ _ _).1 h).resolve_left fun hm => hknown hm.known

end Record

/-! ## Whole objects -/

variable {overlay : List String → σ → σ} {ms : List Member}

theorem Gives.isJson {P : Member → Prop} {names : List String} (h : Gives names P ms)
    (hjson : ∀ m, P m → IsJson m.2) : ∀ m ∈ ms, IsJson m.2 := by
  intro m hm
  rcases h m hm with hm | ⟨-, hvalue⟩
  · exact hjson m hm
  · rw [hvalue]
    exact id

theorem Gives.imp {P Q : Member → Prop} {names : List String} (h : Gives names P ms)
    (himp : ∀ m, P m → Q m) : Gives names Q ms :=
  fun m hm => (h m hm).imp_left (himp m)

/-- The fuel for the members of an object is enough. -/
theorem length_lt_of_listed (hjson : ∀ m ∈ ms, IsJson m.2)
    (h : Listed MemberPhrase true ms cs rest) : ms.length < cs.length + 1 := by
  have hle := h.length_le fun m hm _ _ hmember => hmember.length_lt (hjson m hm)
  omega

namespace Record

variable {r : Record σ} (s : σ)

/-- What is left to do for an object once its members are read. -/
def closeObject (r : Record σ) (seen : List String) (s : σ) : Reader σ :=
  match r.fields.find? fun f => r.complete && f.name ∉ seen with
  | some f => Reader.mismatch ("missing field `" ++ f.name ++ "`")
  | none => do
    Reader.advance
    pure s

theorem read_object (h : Blanks cs ('\x7b' :: cs₁)) :
    r.read s cs = (r.members (cs₁.length + 1) true [] s >>= fun p => r.closeObject p.1 p.2) cs₁ :=
  peek_bind _ h (by decide)

theorem closeObject_ok {seen : List String} (h : r.complete = true → r.names ⊆ seen) :
    r.closeObject seen s ('\x7d' :: rest) = .ok (s, rest) := by
  have hnone : (r.fields.find? fun f => r.complete && f.name ∉ seen) = none := by
    rw [List.find?_eq_none]
    intro f hf hmissing
    simp only [Bool.and_eq_true, decide_eq_true_eq] at hmissing
    exact hmissing.2 (h hmissing.1 (List.mem_map_of_mem hf))
  rw [closeObject, hnone]
  rfl

theorem closeObject_missing {seen : List String} (hcomplete : r.complete = true)
    (h : ¬ r.names ⊆ seen) (cs : List Char) :
    ∃ name, r.closeObject seen s cs = .error (.mismatch (Flaw.missing name).description) := by
  cases hfind : r.fields.find? fun f => r.complete && f.name ∉ seen with
  | some f =>
    refine ⟨f.name, ?_⟩
    rw [closeObject, hfind]
    rfl
  | none =>
    refine absurd (fun name hname => ?_) h
    obtain ⟨f, hf, rfl⟩ := List.mem_map.1 hname
    simpa [hcomplete] using List.find?_eq_none.1 hfind f hf

/-- An object is read: the fields that it gives take their values, and the others stay. -/
theorem object_reads (hlayers : Layers overlay) (hms : Gives r.names (r.Reads overlay) ms)
    (hnodup : (given r.names ms).Nodup)
    (hcomplete : r.complete = true → r.names ⊆ given r.names ms) :
    Json.Reads (r.read s) (ObjectPhrase ms) (overlay (given r.names ms) s) := by
  rintro cs cs' rest hblanks ⟨hlisted⟩ -
  have hfuel := length_lt_of_listed (hms.isJson fun _ hm => hm.json) hlisted
  have hnodup' : (given r.names ms ++ []).Nodup := by rwa [List.append_nil]
  have hmembers := members_ok (s := s) hlayers hms hfuel hnodup' hlisted
  refine (read_object s hblanks).trans ((Reader.bind_ok _ hmembers).trans ?_)
  refine closeObject_ok _ fun h name hname => ?_
  rw [List.append_nil]
  exact List.mem_reverse.2 (hcomplete h hname)

/-- An object is refused that names a field twice, or has a value that is. -/
theorem object_flawed
    (hms : Gives r.names (fun m => (∃ overlay, r.Reads overlay m) ∨ r.Refuses m) ms)
    (hflawed : ¬ (given r.names ms).Nodup ∨ ∃ m ∈ ms, r.Refuses m) :
    Json.Refuses (r.read s) (ObjectPhrase ms) := by
  rintro cs cs' rest hblanks ⟨hlisted⟩ -
  have hjson := hms.isJson fun _ hm => hm.elim (fun ⟨_, h⟩ => h.json) (·.json)
  have hflawed' : ¬ (given r.names ms ++ []).Nodup ∨ ∃ m ∈ ms, r.Refuses m := by
    rwa [List.append_nil]
  obtain ⟨flaw, hmembers⟩ := members_flawed (s := s) hms (length_lt_of_listed hjson hlisted)
    List.nodup_nil hflawed' hlisted
  exact ⟨flaw, (read_object s hblanks).trans (Reader.bind_error _ hmembers)⟩

/-- An object is refused that lacks a field. -/
theorem object_lacking (hlayers : Layers overlay) (hms : Gives r.names (r.Reads overlay) ms)
    (hcomplete : r.complete = true) (hlacking : ¬ r.names ⊆ given r.names ms) :
    Json.Refuses (r.read s) (ObjectPhrase ms) := by
  by_cases hnodup : (given r.names ms).Nodup
  · rintro cs cs' rest hblanks ⟨hlisted⟩ -
    have hfuel := length_lt_of_listed (hms.isJson fun _ hm => hm.json) hlisted
    have hnodup' : (given r.names ms ++ []).Nodup := by rwa [List.append_nil]
    have hmembers := members_ok (s := s) hlayers hms hfuel hnodup' hlisted
    have hlacking' : ¬ r.names ⊆ (given r.names ms).reverse ++ [] := by
      rw [List.append_nil]
      exact fun h => hlacking fun name hname => List.mem_reverse.1 (h hname)
    obtain ⟨name, hclose⟩ := closeObject_missing (overlay (given r.names ms) s) hcomplete hlacking'
      ('\x7d' :: rest)
    exact ⟨.missing name,
      (read_object s hblanks).trans ((Reader.bind_ok _ hmembers).trans hclose)⟩
  · exact object_flawed s (hms.imp fun _ h => .inl ⟨overlay, h⟩) (.inl hnodup)

/-! ## The members of a record's fields -/

/-- Each field of a record has a member, with a text that it reads. -/
def Writes (r : Record σ) (overlay : List String → σ → σ) (fields : List Member) : Prop :=
  List.Forall₂ (fun f m => f.name = m.1 ∧ IsJson m.2 ∧
    ∀ s, Json.Reads (f.read s) m.2 (overlay [m.1] s)) r.fields fields

variable {fields : List Member}

theorem Writes.names_eq (h : r.Writes overlay fields) : fields.map Prod.fst = r.names := by
  rw [Writes] at h
  rw [names]
  generalize r.fields = fs at h
  induction h with
  | nil => rfl
  | cons hfield _ ih => rw [List.map_cons, List.map_cons, ih, hfield.1]

theorem Writes.exists_field (h : r.Writes overlay fields) {m : Member} (hm : m ∈ fields) :
    ∃ f ∈ r.fields, f.name = m.1 ∧ IsJson m.2 ∧
      ∀ s, Json.Reads (f.read s) m.2 (overlay [m.1] s) := by
  rw [Writes] at h
  generalize r.fields = fs at h
  induction h with
  | nil => exact absurd hm List.not_mem_nil
  | cons hfield _ ih =>
    rcases List.mem_cons.1 hm with rfl | hm
    · exact ⟨_, List.mem_cons_self, hfield⟩
    · obtain ⟨f, hf, hrest⟩ := ih hm
      exact ⟨f, List.mem_cons_of_mem _ hf, hrest⟩

theorem field?_of_mem (hnodup : r.names.Nodup) {f : Field σ} (hf : f ∈ r.fields) :
    r.field? f.name = some f := by
  obtain ⟨g, hg⟩ := r.mem_names_iff.1 (List.mem_map_of_mem hf)
  have hname : g.name = f.name := by simpa using List.find?_some hg
  rw [hg, List.inj_on_of_nodup_map hnodup (List.mem_of_find?_eq_some hg) hf hname]

/-- Members give the fields of a record `a`, each its own: all of them come to `a`, and some of them
to what `overlay` says. -/
structure Describes (r : Record σ) (overlay : List String → σ → σ) (fields : List Member) (a : σ) :
    Prop where
  distinct : r.names.Nodup
  layers : Layers overlay
  writes : r.Writes overlay fields
  all : ∀ {names}, r.names ⊆ names → ∀ s, overlay names s = a

variable {a : σ}

theorem Describes.reads (h : r.Describes overlay fields a) {m : Member} (hm : m ∈ fields) :
    r.Reads overlay m := by
  obtain ⟨f, hf, hname, hjson, hreads⟩ := h.writes.exists_field hm
  exact ⟨hjson, f, hname ▸ field?_of_mem h.distinct hf, hreads⟩

theorem Describes.refuses (h : r.Describes overlay fields a) {f : Field σ} (hf : f ∈ r.fields)
    {phrase : Phrase} (hjson : IsJson phrase) (hrefuses : ∀ s, Json.Refuses (f.read s) phrase) :
    r.Refuses (f.name, phrase) :=
  ⟨hjson, f, field?_of_mem h.distinct hf, hrefuses⟩

/-- A record that is given as a whole is read, whatever it is read over. -/
theorem Describes.whole_reads (h : r.Describes overlay fields a) :
    Json.Reads (r.read s) (WholePhrase fields) a := by
  rintro cs cs' rest hblanks ⟨hms, hdistinct, hsubset, hobject⟩ hstops
  rw [h.writes.names_eq] at hms hdistinct hsubset
  have hreads := object_reads s h.layers (hms.imp fun _ => h.reads) hdistinct fun _ => hsubset
  rw [hreads hblanks hobject hstops, h.all hsubset]

/-- A record that must be complete is refused if it is given in part. -/
theorem Describes.part_refuses (h : r.Describes overlay fields a) (hcomplete : r.complete = true) :
    Json.Refuses (r.read s) (PartPhrase fields) := by
  rintro cs cs' rest hblanks ⟨hms, hlacking, hobject⟩ hstops
  rw [h.writes.names_eq] at hms hlacking
  exact object_lacking s h.layers (hms.imp fun _ => h.reads) hcomplete hlacking
    hblanks hobject hstops

theorem Describes.isJson_whole (h : r.Describes overlay fields a) :
    IsJson (WholePhrase fields) := by
  rintro cs rest ⟨hms, -, -, hobject⟩
  exact isJson_object (hms.isJson fun _ hm => (h.reads hm).json) hobject

theorem Describes.isJson_part (h : r.Describes overlay fields a) :
    IsJson (PartPhrase fields) := by
  rintro cs rest ⟨hms, -, hobject⟩
  exact isJson_object (hms.isJson fun _ hm => (h.reads hm).json) hobject

end Record

/-! ## Documents -/

/-- Nothing but blanks follows a document. -/
theorem run_whole {p : Reader σ} {a : σ} {ms : List Member} {text : String}
    (hreads : Reads p (ObjectPhrase ms) a) (h : IsDocument ms text) :
    Reader.run (Reader.whole p) text = .ok a := by
  obtain ⟨cs, cs', hbefore, hobject, hafter⟩ := h
  have hstops : Stops cs' := hafter.stops fun c hc => by cases hc
  have hwhole : Reader.whole p text.toList = .ok (a, []) :=
    (Reader.bind_ok _ (hreads hbefore hobject hstops)).trans (Reader.bind_ok _ (peek_end hafter))
  rw [Reader.run, hwhole]
  rfl

theorem run_refused {p : Reader σ} {ms : List Member} {text : String}
    (hrefuses : Refuses p (ObjectPhrase ms)) (h : IsDocument ms text) :
    ∃ flaw : Flaw, Reader.run (Reader.whole p) text = .error (.mismatch flaw.description) := by
  obtain ⟨cs, cs', hbefore, hobject, hafter⟩ := h
  have hstops : Stops cs' := hafter.stops fun c hc => by cases hc
  obtain ⟨flaw, hp⟩ := hrefuses hbefore hobject hstops
  have hwhole : Reader.whole p text.toList = .error (.mismatch flaw.description) :=
    Reader.bind_error _ hp
  refine ⟨flaw, ?_⟩
  rw [Reader.run, hwhole]
  rfl

end Json

end GuestHost
