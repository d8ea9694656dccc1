import RenderMaterials.Text.Utf8

/-!
# SPIR-V modules

A module is a header of five words and a list of instructions; an instruction carries its own length
in its first word.  Bytes are little-endian.

* `words?_bytes`: words survive being written as bytes.
* `instructions?_words`: instructions that are short enough survive being written as words.
* `Module.ofBytes?_bytes`: so do modules, being written as bytes.
-/

namespace RenderMaterials.Spirv

/-- A word of a module. -/
abbrev Word := UInt32

/-- The name of something that an instruction defines. -/
abbrev Id := Word

/-- An operation with its operands, the ids of its type and of its result among them. -/
structure Instruction where
  opcode   : Nat
  operands : List Word
  deriving DecidableEq, Repr

/-- A module. -/
structure Module where
  version      : Word
  generator    : Word
  /-- All ids are below it. -/
  bound        : Word
  schema       : Word := 0
  instructions : List Instruction
  deriving DecidableEq, Repr

/-- The first word of a module. -/
def magic : Word := 0x07230203

/-! ### Operations -/

namespace Op

@[match_pattern] abbrev name : Nat := 5
@[match_pattern] abbrev importInstructions : Nat := 11
@[match_pattern] abbrev memoryModel : Nat := 14
@[match_pattern] abbrev entryPoint : Nat := 15
@[match_pattern] abbrev executionMode : Nat := 16
@[match_pattern] abbrev capability : Nat := 17
@[match_pattern] abbrev typeVoid : Nat := 19
@[match_pattern] abbrev typeFloat : Nat := 22
@[match_pattern] abbrev typeVector : Nat := 23
@[match_pattern] abbrev typeImage : Nat := 25
@[match_pattern] abbrev typeSampler : Nat := 26
@[match_pattern] abbrev typeSampledImage : Nat := 27
@[match_pattern] abbrev typeArray : Nat := 28
@[match_pattern] abbrev typeRuntimeArray : Nat := 29
@[match_pattern] abbrev typePointer : Nat := 32
@[match_pattern] abbrev typeFunction : Nat := 33
@[match_pattern] abbrev constantNull : Nat := 46
@[match_pattern] abbrev function : Nat := 54
@[match_pattern] abbrev functionEnd : Nat := 56
@[match_pattern] abbrev functionCall : Nat := 57
@[match_pattern] abbrev declareVariable : Nat := 59
@[match_pattern] abbrev load : Nat := 61
@[match_pattern] abbrev store : Nat := 62
@[match_pattern] abbrev accessChain : Nat := 65
@[match_pattern] abbrev inBoundsAccessChain : Nat := 66
@[match_pattern] abbrev arrayLength : Nat := 68
@[match_pattern] abbrev decorate : Nat := 71
@[match_pattern] abbrev sampledImage : Nat := 86
@[match_pattern] abbrev imageWrite : Nat := 99
@[match_pattern] abbrev atomicStore : Nat := 228
@[match_pattern] abbrev label : Nat := 248
@[match_pattern] abbrev branch : Nat := 249
@[match_pattern] abbrev returnVoid : Nat := 253

/-- Operations that sample, read or query an image and give a result. -/
def readsImage (op : Nat) : Bool := 87 ≤ op && op ≤ 107 && op ≠ imageWrite

/-- Operations that change a place in one step and give a result. -/
def isAtomic (op : Nat) : Bool := 227 ≤ op && op ≤ 242 && op ≠ atomicStore

end Op

/-! ### Words and bytes -/

/-- The byte of a word that is worth `unit`. -/
def Word.byte (w : Word) (unit : Nat) : UInt8 := .ofNat (w.toNat / unit)

/-- The bytes of a word. -/
def Word.bytes (w : Word) : Bytes :=
  [Word.byte w 1, Word.byte w 256, Word.byte w 65536, Word.byte w 16777216]

/-- The word of four bytes. -/
def wordOf (a b c d : UInt8) : Word :=
  .ofNat (a.toNat + 256 * b.toNat + 65536 * c.toNat + 16777216 * d.toNat)

/-- The words of bytes, four to a word. -/
def words? : Bytes → Option (List Word)
  | []                    => some []
  | a :: b :: c :: d :: r => (words? r).map (wordOf a b c d :: ·)
  | _                     => none

theorem wordOf_byte (w : Word) :
    wordOf (Word.byte w 1) (Word.byte w 256) (Word.byte w 65536) (Word.byte w 16777216) = w := by
  apply UInt32.toNat_inj.1
  have := w.toNat_lt
  simp only [wordOf, Word.byte, UInt8.toNat_ofNat', UInt32.toNat_ofNat']
  omega

theorem words?_bytes (ws : List Word) : words? (ws.flatMap Word.bytes) = some ws := by
  induction ws with
  | nil => rfl
  | cons w ws ih => simp [Word.bytes, words?, wordOf_byte, ih]

/-- The words of a text literal: its bytes, a zero byte, and zeros up to a full word. -/
def literal (s : String) : List Word := go (Text.encodeUtf8 s ++ [0])
where
  go : Bytes → List Word
    | a :: b :: c :: d :: r => wordOf a b c d :: go r
    | [a, b, c]             => [wordOf a b c 0]
    | [a, b]                => [wordOf a b 0 0]
    | [a]                   => [wordOf a 0 0 0]
    | []                    => []

/-- The text at the start of some words. -/
def text? (ws : List Word) : Option String :=
  (Text.decodeUtf8 ((ws.flatMap Word.bytes).takeWhile (· ≠ 0))).toOption

namespace Instruction

/-- An instruction as words. -/
def words (i : Instruction) : List Word :=
  UInt32.ofNat ((i.operands.length + 1) * 65536 + i.opcode) :: i.operands

end Instruction

/-- The instructions of words; none when the last one is cut off or one has no length. -/
def instructions? : List Word → Option (List Instruction)
  | []     => some []
  | w :: r =>
    let operands := w.toNat / 65536 - 1
    if w.toNat < 65536 || r.length < operands then none
    else (instructions? (r.drop operands)).map (⟨w.toNat % 65536, r.take operands⟩ :: ·)
termination_by ws => ws.length

/-- Whether an instruction's operation and length fit into its first word. -/
def Instruction.Fits (i : Instruction) : Prop :=
  i.opcode < 65536 ∧ i.operands.length < 65535

theorem instructions?_words (is : List Instruction) (h : ∀ i ∈ is, i.Fits) :
    instructions? (is.flatMap Instruction.words) = some is := by
  induction is with
  | nil => simp [instructions?]
  | cons i is ih =>
      obtain ⟨ho, hl⟩ := h i (by simp)
      have hn : ((i.operands.length + 1) * 65536 + i.opcode) % 4294967296
          = (i.operands.length + 1) * 65536 + i.opcode := by omega
      have hd : ((i.operands.length + 1) * 65536 + i.opcode) / 65536 = i.operands.length + 1 := by
        omega
      have hm : ((i.operands.length + 1) * 65536 + i.opcode) % 65536 = i.opcode := by omega
      have hle : 65536 ≤ (i.operands.length + 1) * 65536 + i.opcode := by omega
      simp [Instruction.words, instructions?, hn, hd, hm, hle,
        ih fun j hj => h j (List.mem_cons_of_mem _ hj)]

namespace Module

/-- A module as words. -/
def words (m : Module) : List Word :=
  magic :: m.version :: m.generator :: m.bound :: m.schema
    :: m.instructions.flatMap Instruction.words

/-- A module as bytes. -/
def bytes (m : Module) : Bytes := m.words.flatMap Word.bytes

/-- The module of words. -/
def ofWords? : List Word → Option Module
  | first :: version :: generator :: bound :: schema :: r =>
    if first = magic then (instructions? r).map (⟨version, generator, bound, schema, ·⟩) else none
  | _ => none

/-- The module of bytes. -/
def ofBytes? (bs : Bytes) : Option Module := (words? bs).bind ofWords?

/-- A module survives being written as bytes when its instructions are short enough. -/
theorem ofBytes?_bytes {m : Module} (h : ∀ i ∈ m.instructions, i.Fits) :
    ofBytes? m.bytes = some m := by
  rw [ofBytes?, bytes, words?_bytes, Option.bind_some, words, ofWords?, if_pos rfl,
    instructions?_words m.instructions h]
  rfl

end Module

end RenderMaterials.Spirv
