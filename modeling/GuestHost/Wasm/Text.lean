import GuestHost.Wasm.Literal
import GuestHost.Wasm.Module
import GuestHost.Wasm.SExpr

/-!
# The text format

`Module.ofText?` reads a module that is written as parenthesised text, with its instructions folded:
an instruction stands before its operands, in one list with them.  Functions, variables and labels
may go by names, which become numbers.
-/

namespace GuestHost

namespace Wasm

namespace Text

/-- Whether a word is a name. -/
def isName (word : String) : Bool := word.toList.head? == some '$'

/-- Splits off a name that may stand in front. -/
def splitName : List SExpr → Option String × List SExpr
  | .word w :: items => if isName w then (some w, items) else (none, .word w :: items)
  | items => (none, items)

/-- The things of one kind that a name may stand for, each with its name if it has one. -/
abbrev Names := List (Option String)

/-- Whether no name is given twice. -/
def distinct (names : Names) : Bool := (names.filterMap id).Nodup

/-- The number that a word stands for. -/
def index? (names : Names) (word : String) : Option Nat :=
  if isName word then names.idxOf? (some word)
  else (Literal.natural? word.toList).filter fun n => n < UInt32.size

/-- Reads a word. -/
def word? : SExpr → Option String
  | .word w => some w
  | _ => none

/-- The types that words name. -/
def types? (items : List SExpr) : Option (List ValueType) :=
  items.mapM fun item => word? item >>= ValueType.ofName?

/-- What names stand for at a place in a module.  The innermost label comes first. -/
structure Scope where
  functions : Names
  globals : Names
  locals : Names := []
  labels : Names := []

/-- Whether an instruction has a label of its own. -/
def isStructured (op : String) : Bool := op = "block" || op = "loop" || op = "if"

/-- The scope inside an instruction. -/
def Scope.inside (c : Scope) (op : String) (items : List SExpr) : Scope :=
  if isStructured op then { c with labels := (splitName items).1 :: c.labels } else c

/-! ## Instructions -/

/-- The instructions that need nothing but their operands. -/
def simple : List (String × Instr) :=
  [("i32.eqz", .eqz), ("i32.add", .binary .add), ("i32.sub", .binary .sub),
    ("i32.mul", .binary .mul), ("i32.div_s", .binary .divS), ("i32.rem_u", .binary .remU),
    ("i32.eq", .binary .eq), ("i32.ne", .binary .ne), ("i32.lt_u", .binary .ltU),
    ("i32.le_s", .binary .leS), ("memory.size", .memorySize), ("memory.grow", .memoryGrow),
    ("drop", .drop), ("unreachable", .unreachable), ("return", .return)]

/-- The instructions with a number. -/
def numbered (c : Scope) : List (String × Names × (Nat → Instr)) :=
  [("local.get", c.locals, .localGet), ("local.set", c.locals, .localSet),
    ("global.get", c.globals, .globalGet), ("global.set", c.globals, .globalSet),
    ("call", c.functions, .call), ("br", c.labels, .br), ("br_if", c.labels, .brIf)]

/-- The accesses to memory. -/
def accesses : List (String × AccessWidth × (AccessWidth → Nat → Instr)) :=
  [("i32.load", .word, .load), ("i32.load8_u", .byte, .load), ("i32.store", .word, .store),
    ("i32.store8", .byte, .store)]

/-- Reads the two halves of a vector. -/
def vector? (low high : String) : Option Value := do
  let low ← Literal.integer? 64 low
  let high ← Literal.integer? 64 high
  some (.v128 (BitVec.ofNat 128 (low + UInt64.size * high)))

/-- Reads a constant. -/
def constant? (op : String) (immediates : List String) : Option Value :=
  match op, immediates with
  | "i32.const", [n] => (Literal.integer? 32 n).map fun n => .i32 (UInt32.ofNat n)
  | "i64.const", [n] => (Literal.integer? 64 n).map fun n => .i64 (UInt64.ofNat n)
  | "f32.const", [x] => (Literal.float? .binary32 x).map fun n => .f32 (UInt32.ofNat n)
  | "f64.const", [x] => (Literal.float? .binary64 x).map fun n => .f64 (UInt64.ofNat n)
  | "v128.const", ["i64x2", low, high] => vector? low high
  | "ref.null", ["extern"] => some .nullExtern
  | "ref.null", ["func"] => some .nullFunc
  | _, _ => none

/-- Reads the offset of an access, which comes before its alignment.  Either may be missing, and the
alignment is at most the width. -/
def offset? (width : AccessWidth) (immediates : List String) : Option Nat :=
  match immediates with
  | [] => some 0
  | [word] =>
    match word.toList with
    | 'o' :: 'f' :: 'f' :: 's' :: 'e' :: 't' :: '=' :: n =>
      (Literal.natural? n).filter fun n => n < UInt32.size
    | _ => (aligned? word).map fun _ => 0
  | [offset, align] => do
    aligned? align
    offset? width [offset]
  | _ => none
where
  aligned? (word : String) : Option Unit :=
    match word.toList with
    | 'a' :: 'l' :: 'i' :: 'g' :: 'n' :: '=' :: n =>
      (Literal.natural? n).bind fun n => if n ∈ [1, 2, 4] ∧ n ≤ width.bytes then some () else none
    | _ => none

/-- Reads an instruction without its operands. -/
def plain? (c : Scope) (op : String) (immediates : List String) : Option Instr :=
  match simple.lookup op, (numbered c).lookup op, accesses.lookup op with
  | some instr, _, _ => if immediates.isEmpty then some instr else none
  | none, some (names, instr), _ =>
    match immediates with
    | [word] => (index? names word).map instr
    | _ => none
  | none, none, some (width, instr) => (offset? width immediates).map (instr width)
  | none, none, none => (constant? op immediates).map .const

/-- A part of a folded instruction. -/
inductive Piece where
  | word (text : String)
  /-- The types of what an instruction leaves. -/
  | results (types : List ValueType)
  /-- An operand, or a part of a body. -/
  | code (instrs : List Instr)
  /-- One of the two bodies of a conditional. -/
  | arm (isElse : Bool) (instrs : List Instr)

namespace Piece

/-- The text of a word. -/
def word? : Piece → Option String
  | word text => some text
  | _ => none

/-- The instructions of an operand. -/
def code? : Piece → Option (List Instr)
  | code instrs => some instrs
  | _ => none

/-- Splits off a label. -/
def skipLabel : List Piece → List Piece
  | word w :: pieces => if isName w then pieces else word w :: pieces
  | pieces => pieces

/-- Splits off the types of the results. -/
def splitResults : List Piece → List ValueType × List Piece
  | results types :: pieces =>
    let (more, pieces) := splitResults pieces
    (types ++ more, pieces)
  | pieces => ([], pieces)

/-- The instructions of a body. -/
def body? (pieces : List Piece) : Option (List Instr) := (pieces.mapM code?).map List.flatten

/-- Reads a conditional: its condition and one or two arms. -/
def conditional? (types : List ValueType) (pieces : List Piece) : Option (List Instr) := do
  let (condition, arms) := pieces.span fun p => p.code?.isSome
  let condition ← body? condition
  match arms with
  | [arm false yes] => some (condition ++ [.branchIf types yes []])
  | [arm false yes, arm true no] => some (condition ++ [.branchIf types yes no])
  | _ => none

end Piece

/-- Puts an instruction together from its parts. -/
def assemble (c : Scope) (op : String) (pieces : List Piece) : Option Piece :=
  let (types, rest) := Piece.splitResults (Piece.skipLabel pieces)
  match op with
  | "then" => (Piece.body? pieces).map (.arm false)
  | "else" => (Piece.body? pieces).map (.arm true)
  | "block" => (Piece.body? rest).map fun body => .code [.block types body]
  | "loop" => (Piece.body? rest).map fun body => .code [.loop types body]
  | "if" => (Piece.conditional? types rest).map .code
  | _ => do
    let (words, operands) := pieces.span fun p => p.word?.isSome
    let instr ← plain? c op (words.filterMap Piece.word?)
    some (.code ((← Piece.body? operands) ++ [instr]))

/-- Whether an item is an arm of a conditional. -/
def isArm : SExpr → Bool
  | .list (.word w :: _) => w = "then" || w = "else"
  | _ => false

mutual

/-- Reads a part of a folded instruction. -/
def piece? (c : Scope) : SExpr → Option Piece
  | .word text => some (.word text)
  | .list (.word op :: items) =>
    if op = "result" then (types? items).map .results
    else
      let inner := c.inside op items
      (pieces? (if op = "if" then c else inner) inner items).bind (assemble c op)
  | _ => none

/-- Reads the parts of a folded instruction, its arms in one scope and all else in another. -/
def pieces? (outer inner : Scope) : List SExpr → Option (List Piece)
  | [] => some []
  | item :: items =>
    match piece? (if isArm item then inner else outer) item, pieces? outer inner items with
    | some p, some ps => some (p :: ps)
    | _, _ => none

end

/-! ## Fields -/

/-- Splits off the lists in front that begin with a keyword. -/
def splitLists (keyword : String) : List SExpr → List (List SExpr) × List SExpr
  | .list (.word w :: items) :: rest =>
    if w = keyword then
      let (lists, rest) := splitLists keyword rest
      (items :: lists, rest)
    else ([], .list (.word w :: items) :: rest)
  | rest => ([], rest)

/-- Reads a string that is text. -/
def text? : SExpr → Option String
  | .string bytes => Utf8.decode? bytes
  | _ => none

/-- Splits off the names under which a field is exported. -/
def splitExports? (items : List SExpr) : Option (List String × List SExpr) := do
  let (lists, rest) := splitLists "export" items
  let names ← lists.mapM fun
    | [name] => text? name
    | _ => none
  some (names, rest)

/-- Reads variables with their types; one alone may have a name. -/
def variables? (items : List SExpr) : Option (List (Option String × ValueType)) :=
  match splitName items with
  | (some name, [.word type]) => (ValueType.ofName? type).map fun type => [(some name, type)]
  | (some _, _) => none
  | (none, _) => (types? items).map fun types => types.map fun type => (none, type)

/-- Splits off the variables that a keyword declares. -/
def splitVariables? (keyword : String) (items : List SExpr) :
    Option (List (Option String × ValueType) × List SExpr) := do
  let (lists, rest) := splitLists keyword items
  some ((← lists.mapM variables?).flatten, rest)

/-- What the front of a function says. -/
structure Signature where
  params : List (Option String × ValueType)
  results : List ValueType

/-- The type of a function. -/
def Signature.type (s : Signature) : FunctionType := ⟨s.params.map Prod.snd, s.results⟩

/-- Splits off parameters and results. -/
def splitSignature? (items : List SExpr) : Option (Signature × List SExpr) := do
  let (params, rest) ← splitVariables? "param" items
  let (results, rest) := splitLists "result" rest
  some (⟨params, (← results.mapM types?).flatten⟩, rest)

/-- Reads a function after its name and exports. -/
def function? (c : Scope) (items : List SExpr) : Option Function := do
  let (signature, rest) ← splitSignature? items
  let (locals, rest) ← splitVariables? "local" rest
  let names := (signature.params ++ locals).map Prod.fst
  if !distinct names then none
  let scope := { c with locals := names }
  let body ← Piece.body? (← pieces? scope scope rest)
  some ⟨signature.type, locals.map Prod.snd, body⟩

/-- Reads the limits of a memory. -/
def limits? : List SExpr → Option Limits
  | [.word min] => do some ⟨← index? [] min, none⟩
  | [.word min, .word max] => do some ⟨← index? [] min, some (← index? [] max)⟩
  | _ => none

/-- Reads an instruction that gives a constant. -/
def initial? : SExpr → Option Value
  | .list (.word op :: items) => do constant? op (← items.mapM word?)
  | _ => none

/-- Reads a variable of a module after its name and exports. -/
def global? : List SExpr → Option Global
  | [.word type, init] => do some ⟨← ValueType.ofName? type, false, ← initial? init⟩
  | [.list [.word "mut", .word type], init] => do
    some ⟨← ValueType.ofName? type, true, ← initial? init⟩
  | _ => none

/-- Reads bytes to be laid into memory, which may be given in parts. -/
def data? (items : List SExpr) : Option DataSegment :=
  match splitName items with
  | (_, offset :: parts) => do
    let .i32 offset ← initial? offset | none
    let bytes ← parts.mapM fun
      | .string bytes => some bytes
      | _ => none
    some ⟨offset, bytes.flatten⟩
  | _ => none

/-- Reads what is imported. -/
def importType? : SExpr → Option ImportType
  | .list (.word "func" :: items) => do
    let (signature, []) ← splitSignature? (splitName items).2 | none
    some (.function signature.type)
  | .list (.word "memory" :: items) => (limits? (splitName items).2).map .memory
  | _ => none

/-- Reads what is exported. -/
def export? (c : Scope) : SExpr → Option Export
  | .list [.word "func", .word f] => (index? c.functions f).map .function
  | .list [.word "memory", .word m] => (index? [] m).map .memory
  | .list [.word "global", .word g] => (index? c.globals g).map .global
  | _ => none

/-- The module with exports added. -/
def addExports (m : Module) (names : List String) (item : Export) : Module :=
  { m with exports := m.exports ++ names.map fun name => (name, item) }

/-- Reads a field and adds it to a module.  Imports come before all that they are numbered with. -/
def field? (c : Scope) (m : Module) : SExpr → Option Module
  | .list (.word "import" :: items) => do
    let [moduleName, name, type] := items | none
    if !(m.functions.isEmpty && m.memories.isEmpty && m.globals.isEmpty) then none
    let key := ⟨← text? moduleName, ← text? name⟩
    some { m with imports := m.imports ++ [(key, ← importType? type)] }
  | .list (.word "func" :: items) => do
    let (names, rest) ← splitExports? (splitName items).2
    let function ← function? c rest
    some (addExports { m with functions := m.functions ++ [function] } names
      (.function m.functionTypes.length))
  | .list (.word "memory" :: items) => do
    let (names, rest) ← splitExports? (splitName items).2
    some (addExports { m with memories := m.memories ++ [← limits? rest] } names
      (.memory m.allMemories.length))
  | .list (.word "global" :: items) => do
    let (names, rest) ← splitExports? (splitName items).2
    some (addExports { m with globals := m.globals ++ [← global? rest] } names
      (.global m.globals.length))
  | .list (.word "data" :: items) => do some { m with data := m.data ++ [← data? items] }
  | .list [.word "export", name, item] => do
    some (addExports m [← text? name] (← export? c item))
  | .list [.word "start", .word f] => do
    if m.start.isSome then none
    some { m with start := some (← index? c.functions f) }
  | _ => none

/-- The items of a field that declares something of the given kind, here or in an import. -/
def declaration? (kind : String) : SExpr → Option (List SExpr)
  | .list (.word w :: items) =>
    if w = kind then some items
    else
      match w, items with
      | "import", [_, _, .list (.word w :: items)] => if w = kind then some items else none
      | _, _ => none
  | _ => none

/-- The names of the things of one kind. -/
def declared (kind : String) (fields : List SExpr) : Names :=
  (fields.filterMap (declaration? kind)).map fun items => (splitName items).1

/-- Reads the fields of a module. -/
def fields? (fields : List SExpr) : Option Module := do
  let scope : Scope := ⟨declared "func" fields, declared "global" fields, [], []⟩
  if !(distinct scope.functions && distinct scope.globals) then none
  fields.foldlM (field? scope) {}

end Text

/-- Reads a module from text: one list with its fields, or the fields alone. -/
def Module.ofText? (cs : List Char) : Option Module :=
  match SExpr.read? cs with
  | none | some [] => none
  | some [.list (.word "module" :: items)] => Text.fields? (Text.splitName items).2
  | some fields => Text.fields? fields

end Wasm

end GuestHost
