/-!
# UTF-8

Texts as bytes and back.  `decode` accepts exactly the well-formed sequences (no surrogates, no
overlong forms, nothing above U+10FFFF); a refusal says where the first bad sequence starts and
whether it is wrong or only cut off.
-/

namespace RenderMaterials

/-- Contents of a file or of a compiled shader. -/
abbrev Bytes := List UInt8

namespace Text

/-- The bytes of a text. -/
def encodeUtf8 (s : String) : Bytes := s.toList.flatMap String.utf8EncodeChar

/-- Why bytes are not a text: the index of the first bad sequence, and its length, or `none`
when the input ends inside a sequence that could still be completed. -/
structure Utf8Fault where
  index  : Nat
  length : Option Nat
  deriving DecidableEq, Repr

/-- The wording of a fault. -/
def Utf8Fault.message (f : Utf8Fault) : String :=
  match f.length with
  | some n => s!"invalid utf-8 sequence of {n} bytes from index {f.index}"
  | none   => s!"incomplete utf-8 byte sequence from index {f.index}"

/-- Bytes of the form `10xxxxxx`. -/
def isContinuation (b : UInt8) : Bool := 0x80 ≤ b && b ≤ 0xBF

/-- The low six bits of a continuation byte. -/
def payload (b : UInt8) : Nat := b.toNat % 64

/-- Second bytes that may follow the lead byte of a three-byte sequence. -/
def followsThree (lead b : UInt8) : Bool :=
  if lead = 0xE0 then 0xA0 ≤ b && b ≤ 0xBF
  else if lead = 0xED then 0x80 ≤ b && b ≤ 0x9F
  else isContinuation b

/-- Second bytes that may follow the lead byte of a four-byte sequence. -/
def followsFour (lead b : UInt8) : Bool :=
  if lead = 0xF0 then 0x90 ≤ b && b ≤ 0xBF
  else if lead = 0xF4 then 0x80 ≤ b && b ≤ 0x8F
  else isContinuation b

/-- Decodes bytes that start at index `i` of the whole. -/
def decodeFrom (i : Nat) : Bytes → Except Utf8Fault (List Char)
  | [] => .ok []
  | a :: r =>
    if a < 0x80 then return Char.ofNat a.toNat :: (← decodeFrom (i + 1) r)
    else if a < 0xC2 || 0xF4 < a then .error ⟨i, some 1⟩
    else match r with
      | [] => .error ⟨i, none⟩
      | b :: r =>
        if a < 0xE0 then
          if isContinuation b then
            return Char.ofNat (a.toNat % 32 * 64 + payload b) :: (← decodeFrom (i + 2) r)
          else .error ⟨i, some 1⟩
        else if a < 0xF0 then
          if followsThree a b then match r with
            | [] => .error ⟨i, none⟩
            | c :: r =>
              if isContinuation c then
                return Char.ofNat (a.toNat % 16 * 4096 + payload b * 64 + payload c)
                  :: (← decodeFrom (i + 3) r)
              else .error ⟨i, some 2⟩
          else .error ⟨i, some 1⟩
        else if followsFour a b then match r with
          | [] => .error ⟨i, none⟩
          | c :: r =>
            if isContinuation c then match r with
              | [] => .error ⟨i, none⟩
              | d :: r =>
                if isContinuation d then
                  return Char.ofNat (a.toNat % 8 * 262144 + payload b * 4096 + payload c * 64
                    + payload d) :: (← decodeFrom (i + 4) r)
                else .error ⟨i, some 3⟩
            else .error ⟨i, some 2⟩
        else .error ⟨i, some 1⟩

/-- The text that bytes spell, or the first fault. -/
def decodeUtf8 (bytes : Bytes) : Except Utf8Fault String :=
  (decodeFrom 0 bytes).map String.ofList

end Text

end RenderMaterials
