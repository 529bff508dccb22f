import GuestHost.Proofs.Wasi.Guest

/-!
# A guest stays within its rights

`GuestStep.final_confined` is about any run of a guest.  No descriptor is added or removed, and
none changes but for its stream.  A file keeps its contents if its descriptor has no right to
write, and a stream that may not be read, written or moved stays as it was; only an exit still
takes an unfinished line from it.  Each step by itself touches no more than the descriptor that it
names.

The steps follow from `Syscall.run_touches`, the run from the steps by induction.
-/

namespace GuestHost

theorem File.contents_seek {f f' : File} {offset : Int} {whence : Whence}
    (h : f.seek offset whence = .ok f') : f'.contents = f.contents := by
  unfold seek at h
  split at h
  · split at h
    · cases h
    · cases h
      rfl
  · cases h

/-- The contents of a file. -/
def Stream.contents? : Stream → Option Bytes
  | .file f => some f.contents
  | .input _ | .output _ => none

namespace Stream

variable {stream stream' : Stream}

theorem contents?_seek {offset : Int} {whence : Whence}
    (h : stream.seek offset whence = .ok stream') : stream'.contents? = stream.contents? := by
  cases stream with
  | input i =>
    cases h
    rfl
  | output o =>
    cases h
    rfl
  | file f =>
    cases hf : f.seek offset whence with
    | error e =>
      rw [seek, hf] at h
      cases h
    | ok f' =>
      rw [seek, hf] at h
      cases h
      exact congrArg some (File.contents_seek hf)

theorem contents?_read {max : Nat} {delivery : Delivery}
    (h : stream.read max = .ok (delivery, stream')) : stream'.contents? = stream.contents? := by
  cases stream <;> cases h <;> rfl

theorem contents?_emptied (stream : Stream) : stream.emptied.contents? = stream.contents? := by
  cases stream <;> rfl

theorem emptied_emptied (stream : Stream) : stream.emptied.emptied = stream.emptied := by
  cases stream <;> rfl

/-- What a write emits goes to the sink of the output. -/
theorem sink_of_write {bytes : Bytes} {lines : List Emission}
    (h : stream.write bytes = .ok (lines, stream')) :
    ∀ e ∈ lines, ∃ o, stream = .output o ∧ e.sink = o.sink := by
  intro e he
  cases stream with
  | input i => cases h
  | output o =>
    cases h
    obtain ⟨line, -, rfl⟩ := List.mem_map.1 he
    exact ⟨o, rfl, rfl⟩
  | file f =>
    cases hf : f.write bytes with
    | error e' =>
      rw [write, hf] at h
      cases h
    | ok f' =>
      rw [write, hf] at h
      cases h
      cases he

end Stream

theorem Table.contains_of_lookup {t : Table} {id : Nat} {d : Descriptor} {base : Rights}
    (h : t.lookup id base = .ok d) : d.base.contains base = true := by
  unfold lookup at h
  split at h
  · cases h
  · split at h
    · next hallows =>
      cases h
      exact (Bool.and_eq_true_iff.1 hallows).1
    · cases h

namespace Wasi

/-- What may become of the stream of a descriptor: without the right to write, a file keeps its
contents, and without any right to use it, the stream stays as it was, but for the unfinished line
if the guest has exited. -/
structure Permitted (exited : Prop) (d : Descriptor) (stream : Stream) : Prop where
  contents : d.base.contains (.single .fdWrite) = false → stream.contents? = d.stream.contents?
  untouched : d.base.contains (.single .fdRead) = false →
    d.base.contains (.single .fdWrite) = false → d.base.contains (.single .fdSeek) = false →
      stream = d.stream ∨ exited ∧ stream = d.stream.emptied

/-- What may become of a state: every descriptor is still there and has changed in nothing but its
stream, and in that only as permitted. -/
structure Confined (exited : Prop) (s s' : Wasi) : Prop where
  capacity : s'.table.capacity = s.table.capacity
  size : s'.table.size = s.table.size
  absent : ∀ id, s.table.get? id = none → s'.table.get? id = none
  kept : ∀ id d, s.table.get? id = some d →
    ∃ stream, s'.table.get? id = some (d.withStream stream) ∧ Permitted exited d stream

variable {exited exited' : Prop} {s s' s'' : Wasi} {d : Descriptor} {a b : Stream}

theorem Permitted.refl (exited : Prop) (d : Descriptor) : Permitted exited d d.stream :=
  ⟨fun _ => rfl, fun _ _ _ => .inl rfl⟩

theorem Permitted.trans (ha : Permitted exited d a) (hb : Permitted exited' (d.withStream a) b) :
    Permitted (exited ∨ exited') d b := by
  refine ⟨fun hwrite => (hb.contents hwrite).trans (ha.contents hwrite),
    fun hread hwrite hseek => ?_⟩
  rcases ha.untouched hread hwrite hseek with rfl | ⟨hexited, rfl⟩
  · exact (hb.untouched hread hwrite hseek).imp_right fun h => ⟨.inr h.1, h.2⟩
  · refine .inr ⟨.inl hexited, ?_⟩
    rcases hb.untouched hread hwrite hseek with rfl | ⟨-, rfl⟩
    · rfl
    · exact d.stream.emptied_emptied

theorem Confined.refl (exited : Prop) (s : Wasi) : Confined exited s s :=
  ⟨rfl, rfl, fun _ h => h, fun _ d h => ⟨d.stream, h, .refl exited d⟩⟩

theorem Confined.trans (h : Confined exited s s') (h' : Confined exited' s' s'') :
    Confined (exited ∨ exited') s s'' := by
  refine ⟨h'.capacity.trans h.capacity, h'.size.trans h.size,
    fun id hid => h'.absent id (h.absent id hid), fun id d hd => ?_⟩
  obtain ⟨a, ha, hpermitted⟩ := h.kept id d hd
  obtain ⟨b, hb, hpermitted'⟩ := h'.kept id _ ha
  exact ⟨b, hb, hpermitted.trans hpermitted'⟩

theorem Confined.mono (h : Confined exited s s') (himp : exited → exited') :
    Confined exited' s s' := by
  refine ⟨h.capacity, h.size, h.absent, fun id d hd => ?_⟩
  obtain ⟨stream, hstream, hpermitted⟩ := h.kept id d hd
  exact ⟨stream, hstream, hpermitted.contents, fun hread hwrite hseek =>
    (hpermitted.untouched hread hwrite hseek).imp_right fun h => ⟨himp h.1, h.2⟩⟩

/-- A single stream may become what its descriptor permits. -/
theorem confined_setStream {id : Nat} (hd : s.table.get? id = some d)
    (hpermitted : Permitted exited d a) : Confined exited s (s.setStream id a) := by
  refine ⟨Table.capacity_setStream _ _ _, Table.size_setStream _ _ _, fun id' hid' => ?_,
    fun id' d' hd' => ?_⟩
  all_goals rw [setStream, Table.get?_setStream]
  · split
    · next hsame =>
      rw [hsame, hd] at hid'
      cases hid'
    · exact hid'
  · split
    · next hsame =>
      rw [hsame, hd] at hd'
      cases hd'
      exact ⟨a, by rw [hd]; rfl, hpermitted⟩
    · exact ⟨d'.stream, hd', .refl exited d'⟩

theorem confined_exit (s : Wasi) (code : Int32) : Confined True s (s.exit code).2 := by
  change Confined True s { s with exitCode := some code }.flush
  rw [flush_eq]
  refine ⟨Table.capacity_emptied _, Table.size_emptied _, fun id hid => ?_, fun id d hd => ?_⟩
  · change s.table.emptied.get? id = none
    rw [Table.get?_emptied, hid]
    rfl
  · refine ⟨d.stream.emptied, ?_, fun _ => d.stream.contents?_emptied,
      fun _ _ _ => .inr ⟨trivial, rfl⟩⟩
    change s.table.emptied.get? id = _
    rw [Table.get?_emptied, hd]
    rfl

/-- A state that has changed at most in the stream of one descriptor and in what this one, as an
output, has emitted. -/
structure ChangedOnly (id : Nat) (s s' : Wasi) : Prop where
  others : ∀ id', id' ≠ id → s'.table.get? id' = s.table.get? id'
  lines : ∃ lines, s'.emitted = s.emitted ++ lines ∧
    ∀ e ∈ lines, ∃ d o, s.table.get? id = some d ∧ d.stream = .output o ∧ e.sink = o.sink
  rest : s' = { s with table := s'.table, emitted := s'.emitted }

theorem ChangedOnly.refl (id : Nat) (s : Wasi) : ChangedOnly id s s :=
  ⟨fun _ _ => rfl, ⟨[], by simp, nofun⟩, rfl⟩

theorem changedOnly_setStream {id : Nat} {lines : List Emission} (hd : s.table.get? id = some d)
    (hlines : ∀ e ∈ lines, ∃ o, d.stream = .output o ∧ e.sink = o.sink) :
    ChangedOnly id s ((s.setStream id a).emit lines) := by
  refine ⟨fun id' hid' => ?_, ⟨lines, rfl, fun e he => ?_⟩, rfl⟩
  · change (s.table.setStream id a).get? id' = _
    rw [Table.get?_setStream, if_neg hid']
  · obtain ⟨o, ho, hsink⟩ := hlines e he
    exact ⟨d, o, hd, ho, hsink⟩

end Wasi

open Wasi (Confined Permitted ChangedOnly)

namespace Syscall

variable {s s' : Wasi} {c : Syscall}

/-- A call uses only rights that its descriptor has. -/
theorem Touches.confined (h : Touches s c s') : Confined False s s' := by
  cases h with
  | nothing => exact .refl False s
  -- The lookup has found the right that the descriptor would have to be without.
  | @sought fd d stream offset whence hfd hlookup hseek =>
    have hright := Table.contains_of_lookup hlookup
    refine Wasi.confined_setStream (Table.get?_of_lookup hlookup)
      ⟨fun _ => Stream.contents?_seek hseek, fun _ _ hnone => ?_⟩
    rw [hright] at hnone
    cases hnone
  | @read fd d max delivery stream hfd hlookup hread =>
    have hright := Table.contains_of_lookup hlookup
    refine Wasi.confined_setStream (Table.get?_of_lookup hlookup)
      ⟨fun _ => Stream.contents?_read hread, fun hnone _ _ => ?_⟩
    rw [hright] at hnone
    cases hnone
  | @wrote fd d bytes lines stream hfd hlookup hwrite =>
    have hright := Table.contains_of_lookup hlookup
    have hpermitted : Permitted False d stream := by
      refine ⟨fun hnone => ?_, fun _ hnone _ => ?_⟩
      all_goals
        rw [hright] at hnone
        cases hnone
    have hset := Wasi.confined_setStream (Table.get?_of_lookup hlookup) hpermitted
    exact ⟨hset.capacity, hset.size, hset.absent, hset.kept⟩

/-- A call changes only what it names. -/
theorem Touches.changedOnly (h : Touches s c s') :
    match c.descriptor? with
    | none => s' = s
    | some fd => ChangedOnly fd.toNat s s' := by
  cases h with
  | nothing =>
    split
    · rfl
    · exact .refl _ s
  | sought hfd hlookup hseek =>
    rw [hfd, ← Wasi.emit_nil (s.setStream _ _)]
    exact Wasi.changedOnly_setStream (Table.get?_of_lookup hlookup) nofun
  | read hfd hlookup hread =>
    rw [hfd, ← Wasi.emit_nil (s.setStream _ _)]
    exact Wasi.changedOnly_setStream (Table.get?_of_lookup hlookup) nofun
  | wrote hfd hlookup hwrite =>
    rw [hfd]
    exact Wasi.changedOnly_setStream (Table.get?_of_lookup hlookup) (Stream.sink_of_write hwrite)

theorem Touches.get?_of_ne {id : Nat} (h : Touches s c s')
    (hne : ∀ fd, c.descriptor? = some fd → fd.toNat ≠ id) :
    s'.table.get? id = s.table.get? id := by
  have hchanged := h.changedOnly
  cases hc : c.descriptor? with
  | none =>
    rw [hc] at hchanged
    rw [hchanged]
  | some fd =>
    rw [hc] at hchanged
    exact hchanged.others id (Ne.symm (hne fd hc))

end Syscall

namespace GuestStep

variable {w : World}

/-- What a single step changes behind the calls: nothing by computing, only what it names by a call,
and by an exit the code and the unfinished lines, which go to their sinks. -/
def ChangesOnly (w : World) (step : GuestStep) : Prop :=
  match step with
  | compute _ => (step.run w).2.wasi = w.wasi
  | call c =>
    match c.descriptor? with
    | none => (step.run w).2.wasi = w.wasi
    | some fd => ChangedOnly fd.toNat w.wasi (step.run w).2.wasi
  | exit code =>
    (step.run w).2 =
      ⟨{ w.wasi with
          table := w.wasi.table.emptied
          emitted := w.wasi.emitted ++ w.wasi.table.tails
          exitCode := some code }, w.memory⟩

theorem run_changesOnly (w : World) (step : GuestStep) : step.ChangesOnly w := by
  cases step with
  | compute change => exact rfl
  | call c => exact (Syscall.run_touches w.wasi w.memory c).changedOnly
  | exit code =>
    simp only [ChangesOnly, run, Wasi.exit, Wasi.flush_eq, Wasi.emit]

theorem run_confined (w : World) (step : GuestStep) :
    Confined (∃ code, step = exit code) w.wasi (step.run w).2.wasi := by
  cases step with
  | compute change => exact .refl _ w.wasi
  | call c => exact (Syscall.run_touches w.wasi w.memory c).confined.mono False.elim
  | exit code => exact (Wasi.confined_exit w.wasi code).mono fun _ => ⟨code, rfl⟩

/-- Whatever steps a guest takes, it stays within the rights of its descriptors, and each step
changes only what it names. -/
theorem final_confined (w : World) (steps : List GuestStep) :
    Confined (∃ code, exit code ∈ steps) w.wasi (final w steps).wasi ∧
      ∀ p ∈ trace w steps, p.2.ChangesOnly p.1 := by
  induction steps generalizing w with
  | nil => exact ⟨.refl _ w.wasi, nofun⟩
  | cons step rest ih =>
    obtain ⟨hrest, htrace⟩ := ih (step.run w).2
    -- An exit among all steps is the first of them or one of the rest.
    refine ⟨((run_confined w step).trans hrest).mono ?_, ?_⟩
    · rintro (⟨code, rfl⟩ | ⟨code, hcode⟩)
      · exact ⟨code, List.mem_cons_self⟩
      · exact ⟨code, List.mem_cons_of_mem step hcode⟩
    · rw [trace, visits, List.forall_mem_cons]
      exact ⟨run_changesOnly w step, htrace⟩

end GuestStep

end GuestHost
