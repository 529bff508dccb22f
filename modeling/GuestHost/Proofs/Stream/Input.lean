import GuestHost.Proofs.Stream

/-!
# Standard input is conserved

A schedule is a list of sizes, and `Input.reads` reads fresh standard input by one.  `Stands` says
where the reader of some lines has got to: between two lines with an empty queue, or within a line
whose rest is the only buffer in the queue.  That is the invariant behind the queue.  A read keeps
it, `Stands.read`, and takes its bytes from one line, so the induction on the schedule gives
`reads_conserve`: what was handed out, what is queued and the lines that remain are together always
the same bytes.
-/

namespace GuestHost

namespace Input

/-- Standard input over some lines of which none was read yet. -/
def ofLines (lines : List String) : Input := { source := .ofLines lines }

/-- What the reads of a schedule hand out, and the input that they leave. -/
def reads (input : Input) : (sizes : List Nat) → List Delivery × Input
  | [] => ([], input)
  | max :: sizes =>
    let (delivery, input) := input.read max
    let (deliveries, input) := reads input sizes
    (delivery :: deliveries, input)

/-- The bytes that the reads of a schedule hand out, one after the other. -/
def handedOut (input : Input) (sizes : List Nat) : Bytes :=
  (input.reads sizes).1.flatMap Delivery.bytes

/-- The input that the reads of a schedule leave. -/
def after (input : Input) (sizes : List Nat) : Input := (input.reads sizes).2

theorem lineBytes_ne_nil (line : String) : lineBytes line ≠ [] := by
  simp [lineBytes]

/-! ## Where a reader has got to -/

/-- The input stands where it has handed out these bytes of the lines. -/
inductive Stands (lines : List String) : Bytes → Input → Prop where
  /-- Some lines were handed out, and nothing is queued. -/
  | between {before rest : List String} (h : lines = before ++ rest) :
      Stands lines (before.flatMap lineBytes) (ofLines rest)
  /-- A part of a line was handed out as well, and the rest of it is queued. -/
  | within {before rest : List String} {line : String} {head tail : Bytes}
      (h : lines = before ++ line :: rest) (hline : head ++ tail = lineBytes line)
      (htail : tail ≠ []) :
      Stands lines (before.flatMap lineBytes ++ head)
        { source := .ofLines rest, queue := [tail] }

variable {lines rest : List String} {out tail : Bytes} {input : Input} {max : Nat}

theorem stands_ofLines (lines : List String) : Stands lines [] (ofLines lines) :=
  @Stands.between lines [] lines rfl

/-- What was handed out, the queue and the lines that remain are all the bytes of the lines. -/
theorem Stands.conserves (h : Stands lines out input) :
    ∃ rest, input.source = .ofLines rest ∧ rest <:+ lines ∧
      out ++ input.queue.flatten ++ rest.flatMap lineBytes = lines.flatMap lineBytes := by
  cases h with
  | @between before rest h =>
    subst h
    exact ⟨rest, rfl, List.suffix_append _ _, by simp [ofLines]⟩
  | @within before rest line head tail h hline htail =>
    subst h
    refine ⟨rest, rfl, ⟨before ++ [line], by simp⟩, ?_⟩
    simp [← hline]

theorem Stands.queue (h : Stands lines out input) :
    input.queue.length ≤ 1 ∧ ∀ buffer ∈ input.queue, buffer ≠ [] := by
  cases h with
  | between h => exact ⟨Nat.zero_le 1, List.forall_mem_nil _⟩
  | within h hline htail => exact ⟨Nat.le_refl 1, List.forall_mem_singleton.2 htail⟩

/-! ## One read -/

/-- What one buffer gives a read: all of it if there is room, and else its beginning. -/
theorem takeQueued_singleton (room : Nat) (buffer : Bytes) :
    takeQueued room [buffer] =
      (buffer.take room, if buffer.length ≤ room then [] else [buffer.drop room]) := by
  rcases Nat.lt_trichotomy buffer.length room with hlt | heq | hgt
  · have hle := Nat.le_of_lt hlt
    simp [takeQueued, hlt, hle, List.take_of_length_le hle]
  · subst heq
    simp [takeQueued]
  · have hnot : ¬ buffer.length < room := Nat.not_lt_of_gt hgt
    simp [takeQueued, hnot, Nat.ne_of_gt hgt, Nat.not_le_of_gt hgt]

/-- Where some bytes that were handed out lie: all within one line. -/
structure WithinLine (lines : List String) (out bytes : Bytes) (before : List String)
    (line : String) (rest : List String) : Prop where
  lines_eq : lines = before ++ line :: rest
  bytes : ∃ head tail,
    out = before.flatMap lineBytes ++ head ∧ head ++ bytes ++ tail = lineBytes line

/-- What is asked of a read that finds the given bytes handed out. -/
structure ReadsLine (lines : List String) (out : Bytes) (input : Input) (max : Nat) : Prop where
  /-- A read for which there is no room changes nothing. -/
  empty : max = 0 → input.read max = (.data [], input)
  /-- A read is cancelled if there is nothing left. -/
  cancelled : 0 < max → ((input.read max).1 = .cancelled ↔ input.queue = [] ∧ input.source = [])
  exhausted : (input.read max).1 = .cancelled → (input.read max).2 = input
  /-- Any other read hands out some bytes and no more than there is room for. -/
  data : 0 < max → (input.read max).1 ≠ .cancelled →
    ∃ bytes, (input.read max).1 = .data bytes ∧ 1 ≤ bytes.length ∧ bytes.length ≤ max
  /-- At most one line is pulled, and only if the queue is empty. -/
  pulls : (input.read max).2.source = input.source ∨
    input.queue = [] ∧ ∃ line, input.source = some line :: (input.read max).2.source
  /-- The bytes that are handed out lie within one line. -/
  line : (input.read max).1.bytes ≠ [] →
    ∃ before line rest, WithinLine lines out (input.read max).1.bytes before line rest

theorem read_zero (input : Input) : input.read 0 = (.data [], input) := if_pos rfl

theorem readsLine_zero (lines : List String) (out : Bytes) (input : Input) :
    ReadsLine lines out input 0 where
  empty _ := input.read_zero
  cancelled h := absurd h (Nat.lt_irrefl 0)
  exhausted h := by rw [read_zero] at h; cases h
  data h := absurd h (Nat.lt_irrefl 0)
  pulls := .inl (by rw [read_zero])
  line h := by rw [read_zero] at h; exact absurd rfl h

theorem read_exhausted (hmax : 0 < max) : (ofLines []).read max = (.cancelled, ofLines []) :=
  if_neg (Nat.ne_of_gt hmax)

theorem readsLine_exhausted (lines : List String) (out : Bytes) (hmax : 0 < max) :
    ReadsLine lines out (ofLines []) max := by
  have hread := read_exhausted hmax
  constructor
  case empty => exact fun h => absurd h (Nat.ne_of_gt hmax)
  case cancelled => exact fun _ => ⟨fun _ => ⟨rfl, rfl⟩, fun _ => by rw [hread]⟩
  case exhausted => simp [hread]
  case data => simp [hread]
  case pulls => exact .inl (by rw [hread])
  case line => simp [hread, Delivery.bytes]

/-- Handing out a part of the one buffer that is queued, the rest of a line. -/
theorem Stands.deliver {before rest : List String} {line : String} {head : Bytes}
    (h : lines = before ++ line :: rest) (hline : head ++ tail = lineBytes line) (max : Nat) :
    Stands lines (before.flatMap lineBytes ++ head ++
        (Input.deliver max [tail] (.ofLines rest)).1.bytes)
      (Input.deliver max [tail] (.ofLines rest)).2 := by
  by_cases hfits : tail.length ≤ max
  · have hall : before.flatMap lineBytes ++ head ++ tail.take max =
        (before ++ [line]).flatMap lineBytes := by
      simp [List.take_of_length_le hfits, hline]
    simp only [Input.deliver, takeQueued_singleton, if_pos hfits, Delivery.bytes, hall]
    exact .between (by simp [h])
  · have hsplit : (head ++ tail.take max) ++ tail.drop max = lineBytes line := by
      rw [List.append_assoc, List.take_append_drop, hline]
    have hrest : tail.drop max ≠ [] := by simpa using hfits
    simp only [Input.deliver, takeQueued_singleton, if_neg hfits, Delivery.bytes, List.append_assoc]
    exact .within h hsplit hrest

/-- A read that hands out a part of a line, which was pulled by this read or is what is queued. -/
theorem readsLine_deliver {before rest : List String} {line : String} {head : Bytes}
    (h : lines = before ++ line :: rest) (hline : head ++ tail = lineBytes line) (htail : tail ≠ [])
    (hmax : 0 < max) (hread : input.read max = Input.deliver max [tail] (.ofLines rest))
    (hpulls : input.source = .ofLines rest ∧ input.queue ≠ [] ∨
      input.source = .ofLines (line :: rest) ∧ input.queue = []) :
    ReadsLine lines (before.flatMap lineBytes ++ head) input max := by
  have hbytes : (input.read max).1 = .data (tail.take max) := by
    simp [hread, Input.deliver, takeQueued_singleton]
  have hsource : (input.read max).2.source = .ofLines rest := by rw [hread]; rfl
  constructor
  case empty => exact fun h => absurd h (Nat.ne_of_gt hmax)
  case cancelled =>
    rcases hpulls with ⟨-, hqueue⟩ | ⟨hsource, -⟩
    · simp [hbytes, hqueue]
    · simp [hbytes, hsource, LineSource.ofLines]
  case exhausted => simp [hbytes]
  case data =>
    have hlength := List.length_pos_iff.2 htail
    exact fun _ _ => ⟨_, hbytes, by rw [List.length_take]; omega, List.length_take_le _ _⟩
  case pulls =>
    rcases hpulls with ⟨hqueued, -⟩ | ⟨hpulled, hqueue⟩
    · exact .inl (hsource.trans hqueued.symm)
    · exact .inr ⟨hqueue, line, by rw [hsource, hpulled]; rfl⟩
  case line =>
    have hwithin : head ++ tail.take max ++ tail.drop max = lineBytes line := by
      rw [List.append_assoc, List.take_append_drop, hline]
    exact fun _ => ⟨before, line, rest, h, head, tail.drop max, rfl, by rw [hbytes]; exact hwithin⟩

/-- The step: what is asked of a read, and where it gets to. -/
theorem Stands.read (h : Stands lines out input) (max : Nat) :
    ReadsLine lines out input max ∧
      Stands lines (out ++ (input.read max).1.bytes) (input.read max).2 := by
  rcases Nat.eq_zero_or_pos max with rfl | hmax
  · refine ⟨readsLine_zero lines out input, ?_⟩
    simpa [read_zero, Delivery.bytes] using h
  cases h with
  | @between before rest h =>
    cases rest with
    | nil =>
      refine ⟨readsLine_exhausted lines _ hmax, ?_⟩
      simpa [read_exhausted hmax, Delivery.bytes] using Stands.between h
    | cons line rest =>
      have hread : (ofLines (line :: rest)).read max =
          Input.deliver max [lineBytes line] (.ofLines rest) := if_neg (Nat.ne_of_gt hmax)
      have hstep := readsLine_deliver h (List.nil_append _) (lineBytes_ne_nil line) hmax hread
        (.inr ⟨rfl, rfl⟩)
      have hstands := Stands.deliver h (List.nil_append _) max
      rw [List.append_nil] at hstep hstands
      rw [hread]
      exact ⟨hstep, hstands⟩
  | @within before rest line head tail h hline htail =>
    have hread : Input.read { source := .ofLines rest, queue := [tail] } max =
        Input.deliver max [tail] (.ofLines rest) := if_neg (Nat.ne_of_gt hmax)
    have hstep := readsLine_deliver h hline htail hmax hread (.inl ⟨rfl, List.cons_ne_nil _ _⟩)
    rw [hread]
    exact ⟨hstep, Stands.deliver h hline max⟩

/-! ## A schedule of reads -/

theorem handedOut_cons (input : Input) (sizes : List Nat) :
    input.handedOut (max :: sizes) =
      (input.read max).1.bytes ++ (input.read max).2.handedOut sizes := rfl

/-- The run: wherever a schedule starts, it leads to where its bytes end. -/
theorem Stands.reads (h : Stands lines out input) (sizes : List Nat) :
    Stands lines (out ++ input.handedOut sizes) (input.after sizes) := by
  induction sizes generalizing out input with
  | nil => simpa [handedOut, after, Input.reads] using h
  | cons max sizes ih =>
    rw [handedOut_cons, ← List.append_assoc]
    exact ih (h.read max).2

theorem stands_after (lines : List String) (sizes : List Nat) :
    Stands lines ((ofLines lines).handedOut sizes) ((ofLines lines).after sizes) :=
  (stands_ofLines lines).reads sizes

theorem handedOut_initial (lines : List String) (sizes : List Nat) :
    (ofLines lines).handedOut sizes <+: lines.flatMap lineBytes := by
  obtain ⟨rest, -, -, h⟩ := (stands_after lines sizes).conserves
  exact ⟨_, (List.append_assoc _ _ _).symm.trans h⟩

/-- Standard input over any lines, after any schedule of reads: nothing was lost, made up or
reordered, two schedules hand out prefixes of one sequence, the queue holds at most one buffer, and
the next read takes its bytes from one line. -/
theorem reads_conserve (lines : List String) (sizes : List Nat) :
    (∃ rest, ((ofLines lines).after sizes).source = .ofLines rest ∧ rest <:+ lines ∧
      (ofLines lines).handedOut sizes ++ ((ofLines lines).after sizes).queue.flatten ++
        rest.flatMap lineBytes = lines.flatMap lineBytes) ∧
    (∀ sizes', (ofLines lines).handedOut sizes <+: (ofLines lines).handedOut sizes' ∨
      (ofLines lines).handedOut sizes' <+: (ofLines lines).handedOut sizes) ∧
    (((ofLines lines).after sizes).queue.length ≤ 1 ∧
      ∀ buffer ∈ ((ofLines lines).after sizes).queue, buffer ≠ []) ∧
    ∀ max, ReadsLine lines ((ofLines lines).handedOut sizes) ((ofLines lines).after sizes) max := by
  have hstands := stands_after lines sizes
  refine ⟨hstands.conserves, fun sizes' => ?_, hstands.queue, fun max => (hstands.read max).1⟩
  exact List.prefix_or_prefix_of_prefix (handedOut_initial lines sizes)
    (handedOut_initial lines sizes')

/-- Two lines, the second one empty, read three bytes at a time. -/
example : (ofLines ["keep", ""]).handedOut [3, 0, 3, 3] = "keep\n\n".toUTF8.toList := by
  decide +kernel

end Input

end GuestHost
