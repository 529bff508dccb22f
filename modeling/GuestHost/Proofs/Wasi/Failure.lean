import GuestHost.Proofs.Wasi.Strings
import GuestHost.Proofs.Wasi.Transfer

/-!
# Calls that fail

A call that fails is expected to leave everything as it was, but for the count of a transfer, which
becomes 0.  `failing_noEffect_iff` says exactly when this is so, if the strings that a call hands
over fit the words of a guest.  The exception is a call that is `Unreported`: its stream has moved
already when there turns out to be no room for the answer, or a line that cannot be read was used up
to find that there is no input.
-/

namespace GuestHost

namespace Syscall

/-- Where a transfer stores its count. -/
def countAddress? : Syscall → Option UInt32
  | fdRead _ _ _ nread => some nread
  | fdWrite _ _ _ nwritten => some nwritten
  | _ => none

/-- A call that leaves every descriptor with its stream, the sinks and the memory as they were,
except that a transfer may have stored 0 as its count. -/
structure NoEffect (s : Wasi) (m : Memory) (c : Syscall) (r : Result) : Prop where
  descriptors : ∀ id, r.wasi.table.get? id = s.table.get? id
  emitted : r.wasi.emitted = s.emitted
  memory : r.memory = m ∨
    ∃ out, c.countAddress? = some out ∧ m.writeU32 out.toNat 0 = .ok r.memory

/-- A call that moves a stream or emits a line and then has to fail. -/
inductive Unreported (s : Wasi) (m : Memory) : Syscall → Prop where
  /-- A file has moved its cursor, and there is no room for the new position. -/
  | seek {fd newOffset : UInt32} {offset : Int64} {code : UInt8} {d : Descriptor} {whence : Whence}
      {stream : Stream} (hlookup : s.table.lookup fd.toNat (.single .fdSeek) = .ok d)
      (hfile : d.stream.isFile) (hwhence : Whence.ofCode code = .ok whence)
      (hseek : d.stream.seek offset.toInt whence = .ok stream) (hmoved : stream ≠ d.stream)
      (hnull : newOffset ≠ 0) (hout : ¬ m.InBounds newOffset.toNat 8) :
      Unreported s m (.fdSeek fd offset code newOffset)
  /-- A stream has handed out bytes, and there is no room for their number. -/
  | read {fd iovs iovsLen nread : UInt32} {d : Descriptor} {entries : List Iovec} {bytes : Bytes}
      {stream : Stream} (hiovs : iovs ≠ 0) (hnull : nread ≠ 0)
      (h : Receives s m fd iovs iovsLen d entries)
      (hread : d.stream.read (Iovec.capacity entries) = .ok (.data bytes, stream))
      (hmoved : stream ≠ d.stream)
      (hout : ¬ m.InBounds nread.toNat 4 ∨ 2 ^ 32 ≤ bytes.length) :
      Unreported s m (.fdRead fd iovs iovsLen nread)
  /-- A stream has no input to hand out, and has used up a pull to find this out. -/
  | cancelled {fd iovs iovsLen nread : UInt32} {d : Descriptor} {entries : List Iovec}
      {stream : Stream} (hiovs : iovs ≠ 0) (hnull : nread ≠ 0)
      (h : Receives s m fd iovs iovsLen d entries)
      (hread : d.stream.read (Iovec.capacity entries) = .ok (.cancelled, stream))
      (hmoved : stream ≠ d.stream) : Unreported s m (.fdRead fd iovs iovsLen nread)
  /-- A stream has taken bytes, and there is no room for their number. -/
  | write {fd iovs iovsLen nwritten : UInt32} {d : Descriptor} {entries : List Iovec}
      {bytes : Bytes} {lines : List Emission} {stream : Stream} (hiovs : iovs ≠ 0)
      (hnull : nwritten ≠ 0) (h : Sends s m fd iovs iovsLen d entries bytes)
      (hwrite : d.stream.write bytes = .ok (lines, stream))
      (hmoved : stream ≠ d.stream ∨ lines ≠ []) (hout : ¬ m.InBounds nwritten.toNat 4) :
      Unreported s m (.fdWrite fd iovs iovsLen nwritten)

variable {s : Wasi} {m : Memory} {c : Syscall} {r : Result}

theorem noEffect_unchanged (e : Errno) : NoEffect s m c ⟨e, s, m⟩ :=
  ⟨fun _ => rfl, rfl, .inl rfl⟩

/-- A transfer that stores 0 if there is room. -/
theorem noEffect_zeroed {out : UInt32} (hc : c.countAddress? = some out) (hwasi : r.wasi = s)
    (hmemory : r.memory = m.writeIfPossible out.toNat (.ofU32 0)) : NoEffect s m c r := by
  refine ⟨fun _ => by rw [hwasi], by rw [hwasi], ?_⟩
  rw [hmemory]
  rcases writeIfPossible_cases m out.toNat (.ofU32 0) with h | h
  · exact .inr ⟨out, hc, h⟩
  · exact .inl h

/-- A stream that has moved is an effect. -/
theorem not_noEffect_of_moved {id : Nat} {d : Descriptor} {stream : Stream}
    (hd : s.table.get? id = some d) (hmoved : stream ≠ d.stream)
    (hr : r.wasi.table = s.table.setStream id stream) : ¬ NoEffect s m c r := by
  intro h
  have hsame := h.descriptors id
  rw [hr, Table.get?_setStream, if_pos rfl, hd, Option.map_some, Option.some.injEq] at hsame
  exact hmoved (congrArg Descriptor.stream hsame)

theorem storing_noEffect {outcome : Except Errno Memory}
    (h : (storing s m outcome).errno ≠ .success) : NoEffect s m c (storing s m outcome) := by
  cases outcome with
  | ok m' => exact absurd rfl h
  | error e => exact noEffect_unchanged e

/-- Strings that fit the words of a guest are stored as a whole or not at all. -/
theorem handing_noEffect {b : StringBlock} {x y : UInt32} (hm : m.size ≤ 2 ^ 32)
    (hfits : StringBlock.Fits b.entries)
    (hfail : (handing s (b.store m x y)).errno ≠ .success) :
    NoEffect s m c (handing s (b.store m x y)) := by
  by_cases hnull : (x = 0 || y = 0) = true
  · rw [StringBlock.store_null b m hnull]
    exact noEffect_unchanged .inval
  · have hx : x ≠ 0 := fun h => hnull (by simp [h])
    have hy : y ≠ 0 := fun h => hnull (by simp [h])
    rw [StringBlock.store_eq hx hy m hfits hm] at hfail ⊢
    split
    · next h =>
      rw [if_pos h] at hfail
      exact absurd rfl hfail
    · exact noEffect_unchanged .fault

/-! ## Seeking -/

section Seek

variable {fd newOffset : UInt32} {offset : Int64} {code : UInt8} {d : Descriptor}

theorem storing_writeU64_of_inBounds {start : Nat} (word : UInt64) (h : m.InBounds start 8) :
    (storing s m (m.writeU64 start word)).errno = .success := by
  rw [Memory.writeU64_of_inBounds h]
  rfl

theorem storing_writeU64_of_not_inBounds {start : Nat} (word : UInt64) (h : ¬ m.InBounds start 8) :
    storing s m (m.writeU64 start word) = ⟨.fault, s, m⟩ := by
  rw [Memory.writeU64_of_not_inBounds h]
  rfl

theorem seek_noEffect (hfail : (seek s m fd offset code newOffset).errno ≠ .success)
    (hreported : ¬ Unreported s m (.fdSeek fd offset code newOffset)) :
    NoEffect s m (.fdSeek fd offset code newOffset) (seek s m fd offset code newOffset) := by
  rcases seek_cases s m fd offset code newOffset with
    ⟨e, he⟩ | ⟨m', hm'⟩ | ⟨d, whence, stream, hlookup, hfile, hwhence, hstream⟩
  · exact he ▸ noEffect_unchanged e
  · rw [hm'] at hfail
    exact absurd rfl hfail
  · rw [seek_moved hlookup hfile hwhence hstream] at hfail ⊢
    have hnull : newOffset ≠ 0 := by
      intro hnull
      rw [if_pos hnull] at hfail
      exact hfail rfl
    rw [if_neg hnull] at hfail ⊢
    have hout : ¬ m.InBounds newOffset.toNat 8 := fun hout =>
      hfail (storing_writeU64_of_inBounds _ hout)
    have hsame : stream = d.stream := by
      by_contra hmoved
      exact hreported (.seek hlookup hfile hwhence hstream hmoved hnull hout)
    rw [hsame, Wasi.setStream_self (Table.get?_of_lookup hlookup),
      storing_writeU64_of_not_inBounds _ hout]
    exact noEffect_unchanged .fault

end Seek

/-! ## Transfers -/

section Transfers

variable {fd iovs iovsLen out : UInt32}

theorem fdRead_noEffect (hfail : (run s m (.fdRead fd iovs iovsLen out)).errno ≠ .success)
    (hreported : ¬ Unreported s m (.fdRead fd iovs iovsLen out)) :
    NoEffect s m (.fdRead fd iovs iovsLen out) (run s m (.fdRead fd iovs iovsLen out)) := by
  by_cases hnull : iovs = 0 ∨ out = 0
  · have hinval : run s m (.fdRead fd iovs iovsLen out) = ⟨.inval, s, m⟩ := by
      simp [run, hnull]
    exact hinval ▸ noEffect_unchanged .inval
  · obtain ⟨hiovs, hnull⟩ := not_or.1 hnull
    rw [run_fdRead hiovs hnull] at hfail ⊢
    generalize hreceive : receive s m fd iovs iovsLen = outcome at hfail ⊢
    have hreceived := hreceive ▸ received s m fd iovs iovsLen
    cases hreceived with
    | refused _ => exact noEffect_zeroed rfl rfl rfl
    | @cancelled d entries stream h hread =>
      have hsame : stream = d.stream := by
        by_contra hmoved
        exact hreported (.cancelled hiovs hnull h hread hmoved)
      rw [hsame, Wasi.setStream_self (Table.get?_of_lookup h.lookup)]
      exact noEffect_zeroed rfl rfl rfl
    | @data d entries bytes stream h hread =>
      have hbuffers := Memory.inBounds_spread (Memory.checkBuffers_eq_ok.1 h.buffers) bytes
      have hsize := Memory.size_overlayAll hbuffers
      by_cases hout : ¬ m.InBounds out.toNat 4 ∨ 2 ^ 32 ≤ bytes.length
      · have hsame : stream = d.stream := by
          by_contra hmoved
          exact hreported (.read hiovs hnull h hread hmoved hout)
        rw [hsame] at hread ⊢
        have hnone : bytes = [] := Stream.read_self hread
        subst hnone
        rw [Wasi.setStream_self (Table.get?_of_lookup h.lookup), Memory.spread_nil]
        obtain ⟨-, hwasi, hmemory⟩ := conclude_unstored s m (t := ⟨0, s, m⟩) hout
        exact noEffect_zeroed rfl hwasi hmemory
      · obtain ⟨hin, hcount⟩ := not_or.1 hout
        rw [conclude_stored (Nat.not_le.1 hcount) ((not_not.1 hin).of_size hsize)] at hfail
        exact absurd rfl hfail

theorem fdWrite_noEffect (hfail : (run s m (.fdWrite fd iovs iovsLen out)).errno ≠ .success)
    (hreported : ¬ Unreported s m (.fdWrite fd iovs iovsLen out)) :
    NoEffect s m (.fdWrite fd iovs iovsLen out) (run s m (.fdWrite fd iovs iovsLen out)) := by
  by_cases hnull : iovs = 0 ∨ out = 0
  · have hinval : run s m (.fdWrite fd iovs iovsLen out) = ⟨.inval, s, m⟩ := by
      simp [run, hnull]
    exact hinval ▸ noEffect_unchanged .inval
  · obtain ⟨hiovs, hnull⟩ := not_or.1 hnull
    rw [run_fdWrite hiovs hnull] at hfail ⊢
    rcases send_cases s m fd iovs iovsLen with
      ⟨e, -, he⟩ | ⟨d, entries, bytes, lines, stream, h, hwrite⟩
    · rw [he]
      exact noEffect_zeroed rfl rfl rfl
    · rw [h.send_eq hwrite] at hfail ⊢
      by_cases hout : m.InBounds out.toNat 4
      · rw [conclude_stored h.fits hout] at hfail
        exact absurd rfl hfail
      · have hsame : stream = d.stream ∧ lines = [] := by
          by_contra hmoved
          rw [not_and_or] at hmoved
          exact hreported (.write hiovs hnull h hwrite hmoved hout)
        obtain ⟨rfl, rfl⟩ := hsame
        rw [Wasi.setStream_self (Table.get?_of_lookup h.lookup), Wasi.emit_nil]
        obtain ⟨-, hwasi, hmemory⟩ := conclude_unstored s m
          (t := ⟨bytes.length, s, m⟩) (.inl hout)
        exact noEffect_zeroed rfl hwasi hmemory

end Transfers

/-! ## When a failure has an effect -/

/-- A call that is unreported fails, and not without an effect. -/
theorem Unreported.effect (h : Unreported s m c) :
    (run s m c).errno ≠ .success ∧ ¬ NoEffect s m c (run s m c) := by
  cases h with
  | seek hlookup hfile hwhence hseek hmoved hnull hout =>
    rw [run, seek_moved hlookup hfile hwhence hseek, if_neg hnull,
      storing_writeU64_of_not_inBounds _ hout]
    exact ⟨by simp, not_noEffect_of_moved (Table.get?_of_lookup hlookup) hmoved rfl⟩
  | @read _ _ _ nread d entries bytes stream hiovs hnull h hread hmoved hout =>
    have hbuffers := Memory.inBounds_spread (Memory.checkBuffers_eq_ok.1 h.buffers) bytes
    have hsize := Memory.size_overlayAll hbuffers
    have hout' : ¬ (m.overlayAll (Memory.spread entries bytes)).InBounds nread.toNat 4 ∨
        2 ^ 32 ≤ bytes.length :=
      hout.imp_left fun hnot hin => hnot (hin.of_size hsize.symm)
    rw [run_fdRead hiovs hnull, h.receive_data hread]
    obtain ⟨hfail, hwasi, -⟩ := conclude_unstored (s.setStream _ stream) m
      (t := ⟨bytes.length, s.setStream _ stream, _⟩) hout'
    exact ⟨hfail, not_noEffect_of_moved (Table.get?_of_lookup h.lookup) hmoved
      (congrArg Wasi.table hwasi)⟩
  | cancelled hiovs hnull h hread hmoved =>
    rw [run_fdRead hiovs hnull, h.receive_cancelled hread]
    exact ⟨by simp [conclude], not_noEffect_of_moved (Table.get?_of_lookup h.lookup) hmoved rfl⟩
  | @write _ _ _ _ d entries bytes lines stream hiovs hnull h hwrite hmoved hout =>
    rw [run_fdWrite hiovs hnull, h.send_eq hwrite]
    obtain ⟨hfail, hwasi, -⟩ := conclude_unstored s m
      (t := ⟨bytes.length, (s.setStream _ stream).emit lines, m⟩) (.inl hout)
    refine ⟨hfail, ?_⟩
    rcases hmoved with hmoved | hlines
    · exact not_noEffect_of_moved (Table.get?_of_lookup h.lookup) hmoved
        (congrArg Wasi.table hwasi)
    · intro heffect
      have hemitted : s.emitted ++ lines = s.emitted :=
        (congrArg Wasi.emitted hwasi).symm.trans heffect.emitted
      exact hlines (List.append_right_eq_self.1 hemitted)

/-- A call that fails has no effect, except if it is unreported, and then it has one. -/
theorem failing_noEffect_iff (s : Wasi) (m : Memory) (c : Syscall) (hm : m.size ≤ 2 ^ 32)
    (hfits : c.Fitting s) :
    ((run s m c).errno ≠ .success → NoEffect s m c (run s m c)) ↔ ¬ Unreported s m c := by
  refine ⟨fun h hunreported => hunreported.effect.2 (h hunreported.effect.1),
    fun hreported hfail => ?_⟩
  cases c with
  | argsSizesGet argc bufSize => exact storing_noEffect hfail
  | argsGet argv buf => exact handing_noEffect hm hfits hfail
  | environSizesGet count bufSize => exact storing_noEffect hfail
  | environGet environ buf => exact handing_noEffect hm hfits hfail
  | fdClose fd => exact absurd rfl hfail
  | fdFdstatGet fd stat =>
    simp only [run] at hfail ⊢
    split at hfail
    · next hnull => rw [if_pos hnull]; exact noEffect_unchanged .inval
    · next hnull =>
      rw [if_neg hnull]
      cases hlookup : s.table.lookup fd.toNat with
      | error e => exact noEffect_unchanged e
      | ok d =>
        rw [hlookup] at hfail
        exact storing_noEffect hfail
  | fdPrestatGet fd prestat => exact noEffect_unchanged .badf
  | fdPrestatDirName fd path pathLen => exact noEffect_unchanged .badf
  | fdSeek fd offset whence newOffset => exact seek_noEffect hfail hreported
  | fdTell fd offset => exact storing_noEffect hfail
  | fdRead fd iovs iovsLen nread => exact fdRead_noEffect hfail hreported
  | fdWrite fd iovs iovsLen nwritten => exact fdWrite_noEffect hfail hreported

/-- The last two of 32 bytes have no room for the block of three arguments, and nothing is
stored. -/
theorem failing_noEffect_iff_threeArgs :
    (Memory.blank 32).size ≤ 2 ^ 32 ∧ (Syscall.argsGet 4 30).Fitting .threeArgs ∧
      (run .threeArgs (.blank 32) (.argsGet 4 30)).errno ≠ .success ∧
      ¬ Unreported .threeArgs (.blank 32) (.argsGet 4 30) ∧
      NoEffect .threeArgs (.blank 32) (.argsGet 4 30)
        (run .threeArgs (.blank 32) (.argsGet 4 30)) := by
  have hm : (Memory.blank 32).size ≤ 2 ^ 32 := by decide +kernel
  have hfits : (Syscall.argsGet 4 30).Fitting .threeArgs := ⟨by decide, by decide⟩
  have hfail : (run .threeArgs (.blank 32) (.argsGet 4 30)).errno ≠ .success := by decide +kernel
  have hreported : ¬ Unreported .threeArgs (.blank 32) (.argsGet 4 30) := nofun
  exact ⟨hm, hfits, hfail, hreported,
    (failing_noEffect_iff .threeArgs (.blank 32) (.argsGet 4 30) hm hfits).2 hreported hfail⟩

/-- What the default configuration describes, with a file of ten bytes as descriptor 3. -/
def tenBytes : Wasi :=
  match Wasi.ofConfig {} (.over [] ⟨1⟩ ⟨2⟩) with
  | .ok s =>
    { s with
      table := (s.table.insertFile "f" [48, 49, 50, 51, 52, 53, 54, 55, 56, 57] .readWrite).2 }
  | .error _ => default

/-- A seek to 4 in that file fails, for there is no room for the new position at address 9 of 16
bytes; the cursor has moved. -/
theorem effect_seek_tenBytes :
    let m : Memory := .ofList (List.replicate 16 255)
    let c : Syscall := .fdSeek 3 4 0 9
    (run tenBytes m c).errno ≠ .success ∧ ¬ NoEffect tenBytes m c (run tenBytes m c) := by
  intro m c
  refine ⟨by decide +kernel, fun heffect => ?_⟩
  exact absurd (heffect.descriptors 3) (by decide +kernel)

end Syscall

end GuestHost
