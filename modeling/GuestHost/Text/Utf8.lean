import GuestHost.Bytes

/-!
# UTF-8

Text as bytes and back.  `Utf8.encode` writes a text, `Utf8.decode?` reads bytes that are exactly a
text, and `Utf8.decodeLossy` reads any bytes: each maximal part that cannot be continued to a
character becomes one replacement character.
-/

namespace GuestHost

namespace Utf8

/-- The bytes of a text. -/
def encode (s : String) : Bytes := s.toList.flatMap String.utf8EncodeChar

/-- What leads a run of bytes: a character, or a part that no character begins with, together with
the number of bytes it takes up after the first. -/
structure Lead where
  char? : Option Char
  more : Nat
  deriving DecidableEq, Repr

/-- The six payload bits of a continuation byte. -/
def payload (b : UInt8) : Nat := b.toNat % 64

/-- Whether a byte lies between two bounds, both included. -/
def within (lo hi b : UInt8) : Bool := lo ≤ b && b ≤ hi

/-- Whether a byte continues a character. -/
def continues (b : UInt8) : Bool := within 0x80 0xbf b

/-- The bounds of the second byte after a leading byte of three or four. -/
def secondBounds (b : UInt8) : UInt8 × UInt8 :=
  if b = 0xe0 then (0xa0, 0xbf)
  else if b = 0xed then (0x80, 0x9f)
  else if b = 0xf0 then (0x90, 0xbf)
  else if b = 0xf4 then (0x80, 0x8f)
  else (0x80, 0xbf)

/-- Reads the character, or the longest part of one, that `b` and the bytes after it begin with. -/
def lead (b : UInt8) (rest : Bytes) : Lead :=
  if b < 0x80 then ⟨some (Char.ofNat b.toNat), 0⟩
  else if within 0xc2 0xdf b then
    match rest with
    | c :: _ =>
      if continues c then ⟨some (Char.ofNat (b.toNat % 32 * 64 + payload c)), 1⟩ else ⟨none, 0⟩
    | [] => ⟨none, 0⟩
  else if within 0xe0 0xef b then
    match rest with
    | c :: rest =>
      if within (secondBounds b).1 (secondBounds b).2 c then
        match rest with
        | d :: _ =>
          if continues d then
            ⟨some (Char.ofNat ((b.toNat % 16 * 64 + payload c) * 64 + payload d)), 2⟩
          else ⟨none, 1⟩
        | [] => ⟨none, 1⟩
      else ⟨none, 0⟩
    | [] => ⟨none, 0⟩
  else if within 0xf0 0xf4 b then
    match rest with
    | c :: rest =>
      if within (secondBounds b).1 (secondBounds b).2 c then
        match rest with
        | d :: rest =>
          if continues d then
            match rest with
            | e :: _ =>
              if continues e then
                ⟨some (Char.ofNat
                  (((b.toNat % 8 * 64 + payload c) * 64 + payload d) * 64 + payload e)), 3⟩
              else ⟨none, 2⟩
            | [] => ⟨none, 2⟩
          else ⟨none, 1⟩
        | [] => ⟨none, 1⟩
      else ⟨none, 0⟩
    | [] => ⟨none, 0⟩
  else ⟨none, 0⟩

/-- The characters and the broken parts of a run of bytes, a broken part as `none`. -/
def parts : Bytes → List (Option Char)
  | [] => []
  | b :: rest => (lead b rest).char? :: parts (rest.drop (lead b rest).more)
termination_by bs => bs.length
decreasing_by simp only [List.length_drop, List.length_cons]; omega

/-- The replacement character. -/
def replacement : Char := '\uFFFD'

/-- The text of any bytes, with a replacement character for each broken part. -/
def decodeLossy (bs : Bytes) : String :=
  String.ofList ((parts bs).map fun part => part.getD replacement)

/-- The text of bytes that have no broken part. -/
def decode? (bs : Bytes) : Option String :=
  ((parts bs).mapM id).map String.ofList

/-- A run of bytes without a broken part reads as itself either way. -/
theorem decodeLossy_of_decode? {bs : Bytes} {s : String} (h : decode? bs = some s) :
    decodeLossy bs = s := by
  have key : ∀ (ps : List (Option Char)) (cs : List Char), ps.mapM id = some cs →
      ps.map (fun part => part.getD replacement) = cs := by
    intro ps
    induction ps with
    | nil => intro cs h; simp_all
    | cons p ps ih =>
      intro cs h
      cases p with
      | none => simp at h
      | some c =>
        cases hps : ps.mapM id with
        | none => simp [hps] at h
        | some ds => simp_all
  unfold decode? at h
  cases hps : (parts bs).mapM id with
  | none => simp [hps] at h
  | some cs =>
    rw [hps] at h
    rw [decodeLossy, key _ _ hps]
    simpa using h

end Utf8

end GuestHost
