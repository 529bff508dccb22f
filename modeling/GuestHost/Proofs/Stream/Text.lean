import GuestHost.Proofs.Stream.Input
import GuestHost.Proofs.Table
import GuestHost.Proofs.Text.Utf8
import Mathlib.Data.List.DropRight

/-!
# Text on standard input

A text is read line by line, and each line is handed out with a newline.  One would expect that this
changes nothing but the ends of the lines, `unifyEnds`.  A source of lines drops every carriage
return at the end of a line, however, and not only the one that belongs to the end, `dropReturns`.
Both are recursions on the text, so an induction on it tells when they differ:
`dropReturns_eq_unifyEnds_iff`.

What is handed out does not depend on the sizes of the reads, `Input.handsOut_ofLines`.  Together,
`Wasi.readsText` says what becomes of a text, and when nothing but its ends of lines is changed.
-/

namespace GuestHost

/-! ## The ends of lines in a text -/

namespace LineSource

variable {text rest line : List Char} {lines : List (List Char)} {c : Char}

/-- Each end of a line is made a newline: a newline stays, and so does any other character but a
carriage return right before a newline. -/
def unifyEnds : List Char → List Char
  | '\r' :: '\n' :: rest => '\n' :: unifyEnds rest
  | c :: rest => c :: unifyEnds rest
  | [] => []

/-- Nothing but carriage returns comes before the next newline or the end of the text. -/
def AtEnd (text : List Char) : Prop :=
  (text.dropWhile fun c => c == '\r').head? = none ∨
    (text.dropWhile fun c => c == '\r').head? = some '\n'

instance (text : List Char) : Decidable (AtEnd text) := inferInstanceAs (Decidable (_ ∨ _))

/-- Every carriage return is dropped that has nothing but carriage returns between it and the end of
its line. -/
def dropReturns : List Char → List Char
  | [] => []
  | c :: rest => if c = '\r' ∧ AtEnd rest then dropReturns rest else c :: dropReturns rest

/-- What ends a text whose last line is not empty and has no newline. -/
def lastEnd (text : List Char) : List Char :=
  if text.getLast? = none ∨ text.getLast? = some '\n' then [] else ['\n']

/-- A carriage return that does not belong to the end of a line, although it comes right before
one. -/
def StrayReturn (text : List Char) : Prop :=
  ['\r', '\r', '\n'] <:+: text ∨ text.getLast? = some '\r'

instance (text : List Char) : Decidable (StrayReturn text) := inferInstanceAs (Decidable (_ ∨ _))

theorem atEnd_newline (rest : List Char) : AtEnd ('\n' :: rest) := .inr rfl

theorem atEnd_return (rest : List Char) : AtEnd ('\r' :: rest) ↔ AtEnd rest := Iff.rfl

theorem not_atEnd_cons (h : c ≠ '\n') (h' : c ≠ '\r') : ¬ AtEnd (c :: rest) := by
  simp [AtEnd, h, h']

theorem StrayReturn.cons (h : StrayReturn text) (c : Char) : StrayReturn (c :: text) := by
  rcases h with htriple | hlast
  · exact .inl (List.infix_cons htriple)
  · refine .inr ?_
    rw [List.getLast?_cons, hlast]
    rfl

/-- A return that is dropped is stray, unless it comes right before a newline. -/
theorem strayReturn_of_atEnd (h : AtEnd rest) (hnewline : rest.head? ≠ some '\n') :
    StrayReturn ('\r' :: rest) := by
  induction rest with
  | nil => exact .inr rfl
  | cons c rest ih =>
    have hc : c ≠ '\n' := by simpa using hnewline
    obtain rfl : c = '\r' := by
      by_contra hreturn
      exact not_atEnd_cons hc hreturn h
    by_cases hnext : rest.head? = some '\n'
    · obtain ⟨rest, rfl⟩ := List.head?_eq_some_iff.1 hnext
      exact .inl (List.IsPrefix.isInfix ⟨rest, rfl⟩)
    · exact (ih h hnext).cons '\r'

theorem strayReturn_cons_iff :
    StrayReturn (c :: rest) ↔
      (c = '\r' ∧ AtEnd rest ∧ rest.head? ≠ some '\n') ∨ StrayReturn rest := by
  constructor
  · rintro (htriple | hlast)
    · rcases List.infix_cons_iff.1 htriple with hhere | hrest
      · obtain ⟨rfl, more, rfl⟩ := List.cons_prefix_cons.1 hhere
        exact .inl ⟨rfl, atEnd_newline more, by simp⟩
      · exact .inr (.inl hrest)
    · cases rest with
      | nil => exact .inl ⟨by simpa using hlast, .inl rfl, by simp⟩
      | cons d rest => exact .inr (.inr (by simpa using hlast))
  · rintro (⟨rfl, hend, hnewline⟩ | hrest)
    · exact strayReturn_of_atEnd hend hnewline
    · exact hrest.cons c

theorem dropReturns_newline (rest : List Char) :
    dropReturns ('\n' :: rest) = '\n' :: dropReturns rest := by
  rw [dropReturns, if_neg (by simp)]

theorem dropReturns_return_newline (rest : List Char) :
    dropReturns ('\r' :: '\n' :: rest) = '\n' :: dropReturns rest := by
  rw [dropReturns, if_pos ⟨rfl, atEnd_newline rest⟩, dropReturns_newline]

theorem length_dropReturns_le (text : List Char) :
    (dropReturns text).length ≤ (unifyEnds text).length := by
  fun_induction unifyEnds text with
  | case1 rest ih =>
    rw [dropReturns_return_newline]
    exact Nat.succ_le_succ ih
  | case2 c rest hends ih =>
    rw [dropReturns]
    split
    · exact Nat.le_succ_of_le ih
    · exact Nat.succ_le_succ ih
  | case3 => exact Nat.le_refl 0

/-- What is dropped is just what belongs to the ends of lines, unless there is a stray return. -/
theorem dropReturns_eq_unifyEnds_iff (text : List Char) :
    dropReturns text = unifyEnds text ↔ ¬ StrayReturn text := by
  fun_induction unifyEnds text with
  | case1 rest ih =>
    have hstray : StrayReturn ('\r' :: '\n' :: rest) ↔ StrayReturn rest := by
      simp [strayReturn_cons_iff]
    rw [dropReturns_return_newline, hstray, List.cons.injEq, and_iff_right rfl, ih]
  | case2 c rest hends ih =>
    rw [dropReturns, strayReturn_cons_iff]
    split
    · next hdropped =>
      have hnewline : rest.head? ≠ some '\n' := by
        intro hnext
        obtain ⟨more, rfl⟩ := List.head?_eq_some_iff.1 hnext
        exact hends more hdropped.1 rfl
      have hshorter : dropReturns rest ≠ c :: unifyEnds rest := by
        intro heq
        have hlength := length_dropReturns_le rest
        rw [heq, List.length_cons] at hlength
        omega
      exact iff_of_false hshorter (not_not.2 (.inl ⟨hdropped.1, hdropped.2, hnewline⟩))
    · next hkept =>
      have hnot : ¬ (c = '\r' ∧ AtEnd rest ∧ rest.head? ≠ some '\n') :=
        fun h => hkept ⟨h.1, h.2.1⟩
      rw [List.cons.injEq, and_iff_right rfl, ih, or_iff_right hnot]
  | case3 => decide

/-! ## The lines of a text -/

/-- Cuts a text after every newline. -/
def cutText : List Char → List (List Char)
  | [] => []
  | c :: rest =>
    if c = '\n' then [c] :: cutText rest
    else
      match cutText rest with
      | [] => [[c]]
      | line :: lines => (c :: line) :: lines

/-- Whether a character is taken off the end of a line. -/
def isLineEnd (c : Char) : Bool := c == '\n' || c == '\r'

/-- Trimming a line ends at its first character only if all others were trimmed away. -/
theorem rdropWhile_cons {α : Type} (p : α → Bool) (a : α) (l : List α) :
    (a :: l).rdropWhile p = if l.rdropWhile p = [] ∧ p a then [] else a :: l.rdropWhile p := by
  rw [List.rdropWhile, List.reverse_cons, List.dropWhile_append]
  by_cases hl : l.reverse.dropWhile p = []
  · by_cases ha : p a
    · simp [List.rdropWhile, hl, ha]
    · simp [List.rdropWhile, hl, ha]
  · simp [List.rdropWhile, hl]

theorem cutText_newline (rest : List Char) : cutText ('\n' :: rest) = ['\n'] :: cutText rest := by
  rw [cutText, if_pos rfl]

/-- Any other character begins the first line of the text after it, or a line of its own. -/
theorem cutText_cons (hc : c ≠ '\n') (rest : List Char) :
    ∃ line lines, cutText (c :: rest) = (c :: line) :: lines ∧
      (rest = [] ∧ line = [] ∧ lines = [] ∨ cutText rest = line :: lines) := by
  rw [cutText, if_neg hc]
  cases hrest : cutText rest with
  | nil =>
    refine ⟨[], [], rfl, .inl ⟨?_, rfl, rfl⟩⟩
    cases rest with
    | nil => rfl
    | cons d rest =>
      rw [cutText] at hrest
      split at hrest
      · cases hrest
      · split at hrest <;> cases hrest
  | cons line lines => exact ⟨line, lines, rfl, .inr rfl⟩

/-- The first line is trimmed away if there is nothing but returns before its end. -/
theorem rdropWhile_eq_nil_iff_atEnd (h : cutText text = line :: lines) :
    line.rdropWhile isLineEnd = [] ↔ AtEnd text := by
  rw [List.rdropWhile_eq_nil_iff]
  induction text generalizing line lines with
  | nil => cases h
  | cons c rest ih =>
    by_cases hc : c = '\n'
    · subst hc
      rw [cutText_newline] at h
      cases h
      exact iff_of_true (by simp [isLineEnd]) (atEnd_newline rest)
    · obtain ⟨line, lines, hcut, hrest⟩ := cutText_cons hc rest
      rw [hcut] at h
      cases h
      have hmore : (∀ d ∈ line, isLineEnd d = true) ↔ AtEnd rest := by
        rcases hrest with ⟨rfl, rfl, -⟩ | hrest
        · exact iff_of_true (List.forall_mem_nil _) (.inl rfl)
        · exact ih hrest
      rw [List.forall_mem_cons, hmore]
      by_cases hr : c = '\r'
      · subst hr
        have hreturn : isLineEnd '\r' = true := rfl
        rw [atEnd_return, and_iff_right hreturn]
      · exact iff_of_false (fun hline => by simp [isLineEnd, hc, hr] at hline)
          (not_atEnd_cons hc hr)

theorem lastEnd_cons (h : c = '\n' ∨ rest ≠ []) : lastEnd (c :: rest) = lastEnd rest := by
  cases rest with
  | nil =>
    obtain rfl := h.resolve_right (not_not.2 rfl)
    rfl
  | cons d rest => rw [lastEnd, lastEnd, List.getLast?_cons_cons]

/-- The trimmed lines of a text, each with a newline, are the text without the returns before the
ends of its lines. -/
theorem flatMap_trimmed (text : List Char) :
    ((cutText text).flatMap fun line => line.rdropWhile isLineEnd ++ ['\n']) =
      dropReturns text ++ lastEnd text := by
  induction text with
  | nil => rfl
  | cons c rest ih =>
    by_cases hc : c = '\n'
    · subst hc
      rw [cutText_newline, List.flatMap_cons, ih, dropReturns_newline, lastEnd_cons (.inl rfl)]
      rfl
    · obtain ⟨line, lines, hcut, ⟨rfl, rfl, rfl⟩ | hrest⟩ := cutText_cons hc rest
      · rw [hcut]
        by_cases hr : c = '\r'
        · subst hr
          rfl
        · simp [rdropWhile_cons, isLineEnd, dropReturns, lastEnd, hc, hr]
      · have hne : rest ≠ [] := by
          rintro rfl
          cases hrest
        have htrimmed : line.rdropWhile isLineEnd = [] ∧ isLineEnd c = true ↔
            c = '\r' ∧ AtEnd rest := by
          rw [rdropWhile_eq_nil_iff_atEnd hrest, and_comm]
          simp [isLineEnd, hc]
        rw [hrest, List.flatMap_cons] at ih
        rw [hcut, List.flatMap_cons, rdropWhile_cons, dropReturns, lastEnd_cons (.inr hne)]
        by_cases hdropped : c = '\r' ∧ AtEnd rest
        · rw [(htrimmed.2 hdropped).1] at ih
          rw [if_pos (htrimmed.2 hdropped), if_pos hdropped, ih]
        · rw [if_neg (mt htrimmed.1 hdropped), if_neg hdropped, List.cons_append, List.cons_append,
            ih, List.cons_append]

/-! ## The lines that a source pulls -/

/-- The lines of a text as they are pulled. -/
def textLines (text : String) : List String :=
  (cutText text.toList).map fun line => .ofList (line.rdropWhile isLineEnd)

/-- Bytes without a newline go in front of the first line of those after them. -/
theorem cutAfterNewline_append {bytes : Bytes} (h : newline ∉ bytes) (hne : bytes ≠ [])
    (rest : Bytes) :
    cutAfterNewline (bytes ++ rest) =
      match cutAfterNewline rest with
      | [] => [bytes]
      | line :: lines => (bytes ++ line) :: lines := by
  induction bytes with
  | nil => exact absurd rfl hne
  | cons b bytes ih =>
    obtain ⟨hb, hbytes⟩ := not_or.1 (mt List.mem_cons.2 h)
    rw [List.cons_append, cutAfterNewline, if_neg (Ne.symm hb)]
    by_cases hnil : bytes = []
    · subst hnil
      rfl
    · rw [ih hbytes hnil]
      cases cutAfterNewline rest <;> rfl

/-- Only the newline has the byte of a newline. -/
theorem newline_notMem_encodeChar (h : c ≠ '\n') : newline ∉ String.utf8EncodeChar c :=
  fun hmem => h (Char.toNat_inj.1 (Utf8.toNat_eq_of_mem hmem (by decide)))

theorem cutAfterNewline_encode (text : List Char) :
    cutAfterNewline (text.flatMap String.utf8EncodeChar) =
      (cutText text).map fun line => line.flatMap String.utf8EncodeChar := by
  induction text with
  | nil => rfl
  | cons c rest ih =>
    rw [List.flatMap_cons]
    by_cases hc : c = '\n'
    · subst hc
      rw [cutText_newline, List.map_cons, ← ih]
      rfl
    · have hne : String.utf8EncodeChar c ≠ [] := by
        obtain ⟨b, more, hbytes, -⟩ := Utf8.lead_encodeChar c []
        simp [hbytes]
      rw [cutAfterNewline_append (newline_notMem_encodeChar hc) hne, ih, cutText, if_neg hc]
      cases cutText rest <;> simp

theorem trimLineEnd_ofList (line : List Char) :
    trimLineEnd (.ofList line) = .ofList (line.rdropWhile isLineEnd) := by
  rw [trimLineEnd, String.toList_ofList]
  rfl

/-- Every line of a text can be pulled. -/
theorem ofBytes_encode (text : String) :
    ofBytes (Utf8.encode text) = .ofLines (textLines text) := by
  rw [ofBytes, Utf8.encode, cutAfterNewline_encode, List.map_map, ofLines, textLines, List.map_map]
  refine List.map_congr_left fun line _ => ?_
  have hdecode := Utf8.decode?_encode (.ofList line)
  rw [Utf8.encode, String.toList_ofList] at hdecode
  simp only [Function.comp_apply, hdecode, Option.map_some, trimLineEnd_ofList]

/-- What is handed out of a text: the text without the returns before the ends of its lines. -/
def settled (text : String) : String :=
  .ofList (dropReturns text.toList ++ lastEnd text.toList)

/-- What would be handed out of a text if nothing but the ends of its lines were changed. -/
def unified (text : String) : String :=
  .ofList (unifyEnds text.toList ++ lastEnd text.toList)

theorem flatMap_lineBytes_textLines (text : String) :
    (textLines text).flatMap Input.lineBytes = Utf8.encode (settled text) := by
  rw [settled, ← flatMap_trimmed, Utf8.encode, String.toList_ofList, textLines, List.flatMap_map,
    List.flatMap_assoc]
  refine List.flatMap_congr fun line _ => ?_
  rw [Input.lineBytes, Utf8.encode, String.toList_ofList, List.flatMap_append]
  rfl

theorem settled_eq_unified_iff (text : String) :
    settled text = unified text ↔ ¬ StrayReturn text.toList := by
  rw [settled, unified, String.ofList_inj, List.append_left_inj, dropReturns_eq_unifyEnds_iff]

end LineSource

/-! ## What reads hand out before the first that is cancelled -/

namespace Input

variable {lines : List String} {out whole : Bytes} {input : Input}

/-- The bytes of some deliveries, up to the first read that was cancelled. -/
def untilCancelled (deliveries : List Delivery) : Bytes :=
  (deliveries.takeWhile fun d => d ≠ .cancelled).flatMap Delivery.bytes

/-- Whatever the sizes of the reads, they hand out the given bytes in order.  A read is cancelled
only once all bytes were handed out, and one is if there are enough reads with room. -/
structure HandsOut (input : Input) (whole : Bytes) : Prop where
  inOrder : ∀ sizes, untilCancelled (input.reads sizes).1 <+: whole
  all : ∀ sizes, .cancelled ∈ (input.reads sizes).1 → untilCancelled (input.reads sizes).1 = whole
  ends : ∀ sizes, whole.length < sizes.countP (0 < ·) → .cancelled ∈ (input.reads sizes).1

theorem untilCancelled_cons {delivery : Delivery} (h : delivery ≠ .cancelled)
    (deliveries : List Delivery) :
    untilCancelled (delivery :: deliveries) = delivery.bytes ++ untilCancelled deliveries := by
  rw [untilCancelled, List.takeWhile_cons_of_pos (by simpa using h), List.flatMap_cons]
  rfl

theorem reads_cons (input : Input) (max : Nat) (sizes : List Nat) :
    (input.reads (max :: sizes)).1 =
      (input.read max).1 :: ((input.read max).2.reads sizes).1 := rfl

/-- The run: what is left after a schedule, nothing if a read was cancelled; and every read with
room that was not has taken a byte. -/
theorem Stands.untilCancelled (h : Stands lines out input) (sizes : List Nat) :
    ∃ left, out ++ untilCancelled (input.reads sizes).1 ++ left = lines.flatMap lineBytes ∧
      (.cancelled ∈ (input.reads sizes).1 → left = []) ∧
      (.cancelled ∉ (input.reads sizes).1 →
        sizes.countP (0 < ·) ≤ (Input.untilCancelled (input.reads sizes).1).length) := by
  induction sizes generalizing out input with
  | nil =>
    obtain ⟨rest, -, -, hall⟩ := h.conserves
    refine ⟨input.queue.flatten ++ rest.flatMap lineBytes, ?_, nofun, fun _ => Nat.le_refl 0⟩
    simpa [Input.reads, Input.untilCancelled] using hall
  | cons max sizes ih =>
    obtain ⟨hread, hnext⟩ := h.read max
    rw [reads_cons]
    by_cases hcancelled : (input.read max).1 = .cancelled
    · have hmax : 0 < max := by
        by_contra hzero
        rw [hread.empty (by omega)] at hcancelled
        cases hcancelled
      obtain ⟨hqueue, hsource⟩ := (hread.cancelled hmax).1 hcancelled
      obtain ⟨rest, hrest, -, hall⟩ := h.conserves
      rw [hsource] at hrest
      obtain rfl : rest = [] := List.map_eq_nil_iff.1 hrest.symm
      rw [hcancelled]
      exact ⟨[], by simpa [hqueue, Input.untilCancelled] using hall, fun _ => rfl, by simp⟩
    · obtain ⟨left, hall, hleft, hroom⟩ := ih hnext
      rw [untilCancelled_cons hcancelled]
      refine ⟨left, by simpa using hall, ?_, ?_⟩
      · exact fun hmem => hleft ((List.mem_cons.1 hmem).resolve_left (Ne.symm hcancelled))
      · intro hnot
        have hlater := hroom fun hmem => hnot (List.mem_cons_of_mem _ hmem)
        rw [List.countP_cons, List.length_append]
        split
        · next hmax =>
          obtain ⟨bytes, hbytes, hsome, -⟩ := hread.data (by simpa using hmax) hcancelled
          rw [hbytes]
          exact (Nat.add_comm _ _).trans_le (Nat.add_le_add hsome hlater)
        · exact hlater.trans (Nat.le_add_left _ _)

theorem handsOut_ofLines (lines : List String) :
    (ofLines lines).HandsOut (lines.flatMap lineBytes) where
  inOrder sizes := by
    obtain ⟨left, hall, -⟩ := (stands_ofLines lines).untilCancelled sizes
    exact ⟨left, hall⟩
  all sizes hcancelled := by
    obtain ⟨left, hall, hleft, -⟩ := (stands_ofLines lines).untilCancelled sizes
    rw [hleft hcancelled, List.append_nil] at hall
    exact hall
  ends sizes henough := by
    obtain ⟨left, hall, -, hroom⟩ := (stands_ofLines lines).untilCancelled sizes
    by_contra hnot
    have hlength := congrArg List.length hall
    have hread := hroom hnot
    simp only [List.nil_append, List.length_append] at hlength
    omega

/-- There is only one run of bytes that all reads can hand out. -/
theorem HandsOut.unique {whole' : Bytes} (h : input.HandsOut whole) (h' : input.HandsOut whole') :
    whole = whole' := by
  have hcount : whole.length < (List.replicate (whole.length + 1) 1).countP (0 < ·) := by
    simp [List.countP_replicate]
  have hcancelled := h.ends _ hcount
  rw [← h.all _ hcancelled, h'.all _ hcancelled]

/-! ## A text as standard input -/

/-- Standard input over the bytes of a text. -/
def ofText (text : String) : Input := { source := .ofBytes (Utf8.encode text) }

theorem ofText_eq (text : String) : ofText text = ofLines (LineSource.textLines text) := by
  rw [ofText, LineSource.ofBytes_encode, ofLines]

theorem handsOut_ofText (text : String) :
    (ofText text).HandsOut (Utf8.encode (LineSource.settled text)) := by
  rw [ofText_eq, ← LineSource.flatMap_lineBytes_textLines]
  exact handsOut_ofLines _

/-- Reads change nothing but the ends of the lines of a text. -/
def Unaltered (text : String) : Prop :=
  (ofText text).HandsOut (Utf8.encode (LineSource.unified text))

theorem unaltered_iff (text : String) : Unaltered text ↔ ¬ LineSource.StrayReturn text.toList := by
  rw [← LineSource.settled_eq_unified_iff]
  constructor
  · intro h
    exact Utf8.encode_injective ((handsOut_ofText text).unique h)
  · intro h
    rw [Unaltered, ← h]
    exact handsOut_ofText text

end Input

/-- A program whose standard input is a text reads it from descriptor 0, without the carriage
returns before the ends of its lines.  If there is none but those that belong to the ends, nothing
else is changed. -/
theorem Wasi.readsText (c : Config) (text : String) (out err : Sink) :
    ∃ s d, ofConfig c (.over (.ofBytes (Utf8.encode text)) out err) = .ok s ∧
      s.table.get? 0 = some d ∧ d.stream = .input (.ofText text) ∧
      (Input.ofText text).HandsOut (Utf8.encode (LineSource.settled text)) ∧
      (Input.Unaltered text ↔ ¬ LineSource.StrayReturn text.toList) := by
  obtain ⟨s, free, hs, -, htable⟩ :=
    ofConfig_over c (.over (.ofBytes (Utf8.encode text)) out err)
  exact ⟨s, _, hs, by rw [htable]; rfl, rfl, Input.handsOut_ofText text, Input.unaltered_iff text⟩

/-- Of two carriage returns before a newline the first is not part of the end of the line, and it is
dropped with the second. -/
theorem Input.not_unaltered_twoReturns :
    LineSource.unified "a\r\r\n" = "a\r\n" ∧ LineSource.settled "a\r\r\n" = "a\n" ∧
      ¬ Unaltered "a\r\r\n" := by
  refine ⟨by decide +kernel, by decide +kernel, ?_⟩
  rw [unaltered_iff, not_not]
  decide +kernel

end GuestHost
