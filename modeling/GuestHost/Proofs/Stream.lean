import GuestHost.Descriptor.Table

/-!
# What a read takes from a stream

A read hands out at most as much as there is room for, and a read of standard input takes what it
hands out off the bytes that are still to come, `Input.read_outstanding`.  So a read that leaves its
stream as it was has handed out nothing, `Stream.read_self`.

Runs of operations are looked at through what each operation finds, `visits`.
-/

namespace GuestHost

/-! ## Runs -/

/-- Each item of a run, with the state that it finds. -/
def visits {σ α : Type} (next : σ → α → σ) : σ → List α → List (σ × α)
  | _, [] => []
  | s, x :: rest => (s, x) :: visits next (next s x) rest

/-! ## Standard input -/

namespace Input

variable (input : Input) (max : Nat)

theorem deliver_outstanding (queue : List Bytes) (source : LineSource) :
    (deliver max queue source).1.bytes ++ (deliver max queue source).2.outstanding =
      queue.flatten ++ (source.filterMap id).flatMap lineBytes := by
  rw [← takeQueued_flatten max queue, List.append_assoc]
  rfl

/-- What is delivered is taken off what is outstanding; nothing is lost and nothing is made up. -/
theorem read_outstanding :
    (input.read max).1.bytes ++ (input.read max).2.outstanding = input.outstanding := by
  rcases input with ⟨source, queue⟩
  unfold read
  split
  · rfl
  · cases queue with
    | cons buffer rest => exact deliver_outstanding max (buffer :: rest) source
    | nil =>
      rcases source with _ | ⟨_ | line, source⟩
      · rfl
      · rfl
      · simp only [deliver_outstanding]
        simp [outstanding]

theorem length_read_le : (input.read max).1.bytes.length ≤ max := by
  rcases input with ⟨source, queue⟩
  unfold read
  split
  · exact Nat.zero_le max
  · cases queue with
    | cons buffer rest => exact length_takeQueued_le max (buffer :: rest)
    | nil =>
      rcases source with _ | ⟨_ | line, source⟩
      · exact Nat.zero_le max
      · exact Nat.zero_le max
      · exact length_takeQueued_le max [lineBytes line]

/-- A source of lines none of which fails yields lines none of which fails; and with such a source a
read that is cancelled takes nothing. -/
theorem read_ofLines {lines : List String} (h : input.source = .ofLines lines) :
    (∃ rest, (input.read max).2.source = .ofLines rest) ∧
      ((input.read max).1 = .cancelled → (input.read max).2 = input) := by
  rcases input with ⟨source, queue⟩
  cases h
  unfold read
  split
  · exact ⟨⟨lines, rfl⟩, nofun⟩
  · cases queue with
    | nil =>
      cases lines with
      | nil => exact ⟨⟨[], rfl⟩, fun _ => rfl⟩
      | cons line rest => exact ⟨⟨rest, rfl⟩, nofun⟩
    | cons buffer rest => exact ⟨⟨lines, rfl⟩, nofun⟩

end Input

/-! ## Files -/

namespace File

variable (f : File) (max : Nat)

theorem length_read_le : (f.read max).1.length ≤ max :=
  List.length_take_le max _

/-- A read that leaves the cursor where it was has found nothing there. -/
theorem read_self (h : (f.read max).2 = f) : (f.read max).1 = [] := by
  have hcursor : min f.cursor f.size + (f.read max).1.length = f.cursor := congrArg cursor h
  have hleft : (f.read max).1.length ≤ f.size - min f.cursor f.size := by
    simp only [read, size, List.length_take, List.length_drop]
    omega
  exact List.eq_nil_of_length_eq_zero (by omega)

end File

/-! ## Streams -/

namespace Stream

variable {max : Nat} {stream stream' : Stream} {delivery : Delivery}

theorem length_read_le (h : stream.read max = .ok (delivery, stream')) :
    delivery.bytes.length ≤ max := by
  cases stream with
  | input i =>
    cases h
    exact i.length_read_le max
  | output o => cases h
  | file f =>
    cases h
    exact f.length_read_le max

/-- A read that leaves its stream as it was has handed out nothing. -/
theorem read_self (h : stream.read max = .ok (delivery, stream)) : delivery.bytes = [] := by
  cases stream with
  | input i =>
    simp only [read, Except.ok.injEq, Prod.mk.injEq, input.injEq] at h
    obtain ⟨hdelivery, hself⟩ := h
    have houtstanding := i.read_outstanding max
    rw [hself, hdelivery] at houtstanding
    exact List.append_left_eq_self.1 houtstanding
  | output o => cases h
  | file f =>
    simp only [read, Except.ok.injEq, Prod.mk.injEq, file.injEq] at h
    obtain ⟨hdelivery, hself⟩ := h
    rw [← hdelivery]
    exact f.read_self max hself

theorem read_error {e : Errno} (h : stream.read max = .error e) : e = .badf := by
  cases stream with
  | input i => cases h
  | output o => exact (Except.error.inj h).symm
  | file f => cases h

theorem write_error {bs : Bytes} {e : Errno} (h : stream.write bs = .error e) :
    e = .badf ∨ e = .fbig := by
  cases stream with
  | input i => exact .inl (Except.error.inj h).symm
  | output o => cases h
  | file f =>
    simp only [write, File.write] at h
    split at h
    · cases h
    · exact .inr (Except.error.inj h).symm

end Stream

/-! ## Tables -/

namespace Table

variable {t : Table} {id : Nat} {d : Descriptor}

theorem get?_of_lookup {base inheriting : Rights} (h : t.lookup id base inheriting = .ok d) :
    t.get? id = some d := by
  unfold lookup at h
  split at h
  · cases h
  · next d' hd' =>
    split at h
    · cases h
      exact hd'
    · cases h

theorem lookup_error {base inheriting : Rights} {e : Errno}
    (h : t.lookup id base inheriting = .error e) : e = .badf ∨ e = .notcapable := by
  unfold lookup at h
  split at h
  · exact .inl (Except.error.inj h).symm
  · split at h
    · cases h
    · exact .inr (Except.error.inj h).symm

theorem get?_setStream (t : Table) (id id' : Nat) (stream : Stream) :
    (t.setStream id stream).get? id' =
      if id' = id then (t.get? id).map (·.withStream stream) else t.get? id' := by
  simp only [setStream, get?, List.getElem?_modify]
  by_cases h : id' = id
  · subst h
    cases t.slots[id']? <;> simp
  · simp [h, Ne.symm h]

/-- Putting back the stream that is there changes nothing. -/
theorem setStream_self (h : t.get? id = some d) : t.setStream id d.stream = t := by
  rcases t with ⟨slots⟩
  simp only [setStream, mk.injEq]
  apply List.ext_getElem?
  intro i
  rw [List.getElem?_modify]
  by_cases hi : id = i
  · subst hi
    simp only [get?] at h
    cases hslot : slots[id]? with
    | none => rfl
    | some slot =>
      rw [hslot, Option.join_some] at h
      subst h
      simp [Descriptor.withStream]
  · cases slots[i]? <;> simp [hi]

end Table

end GuestHost
