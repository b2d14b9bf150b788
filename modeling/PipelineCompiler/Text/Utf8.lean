set_option autoImplicit false

namespace PipelineCompiler.Text.Utf8

inductive Reason where
  | startByte
  | continuationByte
  | endOfData
  deriving Repr, DecidableEq

/-- The bytes from `start` up to but not including `stop` cannot be read; `lead` is the first. -/
structure Fault where
  lead : Nat
  start : Nat
  stop : Nat
  reason : Reason
  deriving Repr, DecidableEq

def Reason.message : Reason → String
  | .startByte => "invalid start byte"
  | .continuationByte => "invalid continuation byte"
  | .endOfData => "unexpected end of data"

def hexByte (b : Nat) : String :=
  let digits := Nat.toDigits 16 b
  String.ofList (if digits.length < 2 then '0' :: digits else digits)

def Fault.message (f : Fault) : String :=
  if f.stop = f.start + 1 then
    s!"'utf-8' codec can't decode byte 0x{hexByte f.lead} in position {f.start}: " ++
      f.reason.message
  else
    s!"'utf-8' codec can't decode bytes in position {f.start}-{f.stop - 1}: " ++ f.reason.message

/-- What a first byte announces: how many bytes follow, the bounds of the first of them, and the
bits it holds itself. -/
def announced (b : Nat) : Option (Nat × Nat × Nat × Nat) :=
  if b < 0x80 then some (0, 0x80, 0xBF, b)
  else if 0xC2 ≤ b ∧ b ≤ 0xDF then some (1, 0x80, 0xBF, b - 0xC0)
  else if b = 0xE0 then some (2, 0xA0, 0xBF, 0)
  else if b = 0xED then some (2, 0x80, 0x9F, 0xD)
  else if 0xE1 ≤ b ∧ b ≤ 0xEF then some (2, 0x80, 0xBF, b - 0xE0)
  else if b = 0xF0 then some (3, 0x90, 0xBF, 0)
  else if b = 0xF4 then some (3, 0x80, 0x8F, 4)
  else if 0xF1 ≤ b ∧ b ≤ 0xF3 then some (3, 0x80, 0xBF, b - 0xF0)
  else none

/-- The bytes that follow a first byte: the code point, or the reason with the number of bytes
that were well formed. -/
def following : Nat → Nat → Nat → Nat → Nat → List UInt8 → Except (Reason × Nat) Nat
  | 0, _, _, code, _, _ => .ok code
  | _ + 1, _, _, _, width, [] => .error (.endOfData, width)
  | owed + 1, low, high, code, width, b :: rest =>
    if low ≤ b.toNat ∧ b.toNat ≤ high then
      following owed 0x80 0xBF (code * 64 + (b.toNat - 0x80)) (width + 1) rest
    else .error (.continuationByte, width)

/-- The characters of the bytes; the first `skip` bytes belong to a character already read. -/
def decodeFrom (offset : Nat) : Nat → List UInt8 → Except Fault (List Char)
  | _, [] => .ok []
  | skip + 1, _ :: rest => decodeFrom (offset + 1) skip rest
  | 0, b :: rest =>
    match announced b.toNat with
    | none => .error ⟨b.toNat, offset, offset + 1, .startByte⟩
    | some (owed, low, high, code) =>
      match following owed low high code 1 rest with
      | .error (reason, width) => .error ⟨b.toNat, offset, offset + width, reason⟩
      | .ok code => (decodeFrom (offset + 1) owed rest).map (Char.ofNat code :: ·)

def decode (bytes : List UInt8) : Except Fault String :=
  (decodeFrom 0 0 bytes).map String.ofList

def encodeChar (c : Char) : List UInt8 :=
  let code := c.toNat
  if code < 0x80 then [UInt8.ofNat code]
  else if code < 0x800 then [UInt8.ofNat (0xC0 + code / 64), UInt8.ofNat (0x80 + code % 64)]
  else if code < 0x10000 then
    [UInt8.ofNat (0xE0 + code / 4096), UInt8.ofNat (0x80 + code / 64 % 64),
      UInt8.ofNat (0x80 + code % 64)]
  else
    [UInt8.ofNat (0xF0 + code / 262144), UInt8.ofNat (0x80 + code / 4096 % 64),
      UInt8.ofNat (0x80 + code / 64 % 64), UInt8.ofNat (0x80 + code % 64)]

def encode (text : String) : List UInt8 := text.toList.flatMap encodeChar

end PipelineCompiler.Text.Utf8
