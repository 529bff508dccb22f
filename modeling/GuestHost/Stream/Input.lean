import GuestHost.Text.Utf8

/-!
# Standard input

An `Input` pulls lines from a source and hands out their bytes, each line followed by a newline.
Bytes that a read has no room for wait in a queue, and a new line is pulled only when the queue is
empty.  `Input.outstanding` is the sequence of bytes still to come from a source that never fails:
a read takes a prefix off it.
-/

namespace GuestHost

/-- What successive pulls of a line yield; `none` is a pull that fails, and so is every pull after
the last one listed. -/
abbrev LineSource := List (Option String)

namespace LineSource

/-- The source that yields the given lines. -/
def ofLines (lines : List String) : LineSource := lines.map some

/-- The byte that ends a line. -/
def newline : UInt8 := 10

/-- Cuts a run of bytes after every newline. -/
def cutAfterNewline : Bytes → List Bytes
  | [] => []
  | b :: rest =>
    if b = newline then [b] :: cutAfterNewline rest
    else
      match cutAfterNewline rest with
      | [] => [[b]]
      | line :: lines => (b :: line) :: lines

/-- A text without the line feeds and carriage returns at its end. -/
def trimLineEnd (s : String) : String :=
  String.ofList (s.toList.reverse.dropWhile fun c => c == '\n' || c == '\r').reverse

/-- The source of the lines of a text that is not known to be UTF-8.  Pulling a line that is not
fails and consumes it. -/
def ofBytes (bs : Bytes) : LineSource :=
  (cutAfterNewline bs).map fun line => (Utf8.decode? line).map trimLineEnd

theorem flatten_cutAfterNewline (bs : Bytes) : (cutAfterNewline bs).flatten = bs := by
  induction bs with
  | nil => rfl
  | cons b rest ih =>
    rw [cutAfterNewline]
    split
    · simp [ih]
    · split
      · next h => rw [h] at ih; simp [← ih]
      · next h => rw [h] at ih; simp [← ih]

end LineSource

/-- What a read hands out. -/
inductive Delivery where
  /-- Some bytes; none at all at the end of the data. -/
  | data (bytes : Bytes)
  /-- No input could be obtained. -/
  | cancelled
  deriving DecidableEq, Repr

/-- The bytes that a delivery carries. -/
def Delivery.bytes : Delivery → Bytes
  | .data bytes => bytes
  | .cancelled => []

/-- Standard input, read line by line. -/
structure Input where
  source : LineSource
  queue : List Bytes := []
  deriving DecidableEq, Repr, Inhabited

namespace Input

/-- The number of bytes that have been pulled but not handed out. -/
def queued (input : Input) : Nat := input.queue.flatten.length

/-- Takes at most `room` bytes off a queue of buffers. -/
def takeQueued : (room : Nat) → List Bytes → Bytes × List Bytes
  | _, [] => ([], [])
  | room, buffer :: rest =>
    if buffer.length < room then
      let (more, rest) := takeQueued (room - buffer.length) rest
      (buffer ++ more, rest)
    else if buffer.length = room then (buffer, rest)
    else (buffer.take room, buffer.drop room :: rest)

/-- The bytes that a line contributes. -/
def lineBytes (line : String) : Bytes := Utf8.encode line ++ [LineSource.newline]

/-- Hands out the queued bytes that there is room for. -/
def deliver (max : Nat) (queue : List Bytes) (source : LineSource) : Delivery × Input :=
  let (bytes, queue) := takeQueued max queue
  (.data bytes, { source, queue })

/-- Reads at most `max` bytes, pulling one line when nothing is queued. -/
def read (input : Input) (max : Nat) : Delivery × Input :=
  if max = 0 then (.data [], input)
  else
    match input.queue, input.source with
    | [], [] => (.cancelled, input)
    | [], none :: source => (.cancelled, { input with source })
    | [], some line :: source => deliver max [lineBytes line] source
    | queue, source => deliver max queue source

/-- The bytes still to come: the queued ones, then every line that can be pulled. -/
def outstanding (input : Input) : Bytes :=
  input.queue.flatten ++ (input.source.filterMap id).flatMap lineBytes

theorem takeQueued_flatten (room : Nat) (queue : List Bytes) :
    (takeQueued room queue).1 ++ (takeQueued room queue).2.flatten = queue.flatten := by
  fun_induction takeQueued room queue with
  | case1 => rfl
  | case2 room buffer rest h more rest' heq ih => simp_all
  | case3 => simp
  | case4 room buffer rest h h' => simp [← List.append_assoc, List.take_append_drop]

theorem length_takeQueued_le (room : Nat) (queue : List Bytes) :
    (takeQueued room queue).1.length ≤ room := by
  fun_induction takeQueued room queue with
  | case1 => simp
  | case2 room buffer rest h more rest' heq ih =>
    rw [heq] at ih
    simp only [List.length_append]
    simp only at ih
    omega
  | case3 => simp_all
  | case4 room buffer rest h h' => exact List.length_take_le room buffer

end Input

end GuestHost
