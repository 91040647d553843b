import Stencil.Text.Hex

/-!
# `Stencil.Text.Utf8` — text as bytes

## Contents
- **Writing.** `encode` gives each character its one to four bytes.
- **Reading.** `decode` reads bytes back, or names the first stretch of bytes that is no text:
  `Undecodable` holds what is wrong with it, where it starts and how long it is.

A lead byte fixes how many bytes its character has (`width?`) and, for four of the lead bytes,
narrows the second one (`fits`), which excludes overlong forms, surrogates and everything above
U+10FFFF.
-/

namespace Stencil.Text

/-- The content of a file. -/
abbrev Bytes := List UInt8

namespace Utf8

/-! ## Writing -/

/-- The bytes of one character. -/
def encodeChar (c : Char) : Bytes :=
  let n := c.toNat
  if n < 0x80 then [UInt8.ofNat n]
  else if n < 0x800 then [UInt8.ofNat (0xC0 + n / 0x40), UInt8.ofNat (0x80 + n % 0x40)]
  else if n < 0x10000 then
    [UInt8.ofNat (0xE0 + n / 0x1000), UInt8.ofNat (0x80 + n / 0x40 % 0x40),
      UInt8.ofNat (0x80 + n % 0x40)]
  else
    [UInt8.ofNat (0xF0 + n / 0x40000), UInt8.ofNat (0x80 + n / 0x1000 % 0x40),
      UInt8.ofNat (0x80 + n / 0x40 % 0x40), UInt8.ofNat (0x80 + n % 0x40)]

/-- The bytes of a text. -/
def encode (cs : List Char) : Bytes := cs.flatMap encodeChar

@[simp] theorem encode_nil : encode [] = [] := rfl

@[simp] theorem encode_cons (c : Char) (cs : List Char) :
    encode (c :: cs) = encodeChar c ++ encode cs := rfl

/-! ## Reading -/

/-- What is wrong with a stretch of bytes. -/
inductive Flaw where
  /-- The first byte starts no character. -/
  | badStart
  /-- A byte that should continue the character does not. -/
  | badContinuation
  /-- The bytes end inside a character. -/
  | cutShort
  deriving Repr, DecidableEq

/-- The first stretch of bytes that is no text. -/
structure Undecodable where
  /-- What is wrong with it. -/
  flaw : Flaw
  /-- Its position, counted in bytes from the start of the file. -/
  start : Nat
  /-- Its bytes, at least one. -/
  bytes : Bytes
  deriving Repr, DecidableEq

/-- How many bytes a character has that starts with this byte. -/
def width? (lead : UInt8) : Option Nat :=
  let n := lead.toNat
  if n < 0x80 then some 1
  else if n < 0xC2 then none
  else if n < 0xE0 then some 2
  else if n < 0xF0 then some 3
  else if n < 0xF5 then some 4
  else none

/-- Whether a byte can stand after the lead byte. -/
def isTail (b : UInt8) : Bool := 0x80 ≤ b.toNat && b.toNat < 0xC0

/-- Whether `second` can stand directly after `lead`. -/
def fits (lead second : UInt8) : Bool :=
  isTail second && (lead != 0xE0 || 0xA0 ≤ second.toNat) && (lead != 0xED || second.toNat < 0xA0)
    && (lead != 0xF0 || 0x90 ≤ second.toNat) && (lead != 0xF4 || second.toNat < 0x90)

/-- How many of the bytes after `lead` can belong to its character. -/
def fitting (lead : UInt8) : Bytes → Nat
  | [] => 0
  | second :: more => if fits lead second then 1 + (more.takeWhile isTail).length else 0

/-- The part of the character's number that the lead byte of a character of `width` bytes holds. -/
def leadBits (width : Nat) (lead : UInt8) : Nat :=
  match width with
  | 1 => lead.toNat
  | 2 => lead.toNat % 0x20
  | 3 => lead.toNat % 0x10
  | _ => lead.toNat % 0x08

/-- The first character of a text and the number of its bytes, or a flaw and its length. -/
def firstChar (lead : UInt8) (rest : Bytes) : Except (Flaw × Nat) (Char × Nat) :=
  match width? lead with
  | none => .error (.badStart, 1)
  | some width =>
    let tails := rest.take (width - 1)
    let good := fitting lead tails
    if good < tails.length then .error (.badContinuation, 1 + good)
    else if tails.length < width - 1 then .error (.cutShort, 1 + good)
    else .ok (Char.ofNat (tails.foldl (fun n b => n * 0x40 + b.toNat % 0x40) (leadBits width lead)), width)

/-- Reads the bytes from position `pos` on, after passing over `skip` bytes of a character already
    read. -/
def decodeFrom : (pos skip : Nat) → Bytes → Except Undecodable (List Char)
  | _, _, [] => .ok []
  | pos, skip + 1, _ :: bs => decodeFrom (pos + 1) skip bs
  | pos, 0, b :: bs =>
    match firstChar b bs with
    | .error (flaw, length) => .error ⟨flaw, pos, (b :: bs).take length⟩
    | .ok (c, width) =>
      match decodeFrom (pos + 1) (width - 1) bs with
      | .error e => .error e
      | .ok cs => .ok (c :: cs)

/-- The text that the bytes stand for. -/
def decode (bs : Bytes) : Except Undecodable (List Char) := decodeFrom 0 0 bs

@[simp] theorem decode_nil : decode [] = .ok [] := rfl

/-! ## Reporting -/

/-- What is wrong, in words. -/
def Flaw.message : Flaw → String
  | .badStart => "invalid start byte"
  | .badContinuation => "invalid continuation byte"
  | .cutShort => "unexpected end of data"

/-- Names the single byte, or the range of positions of several. -/
def Undecodable.message (u : Undecodable) : String :=
  let stretch :=
    match u.bytes with
    | [b] => "byte 0x" ++ String.ofList (hexDigits 2 b.toNat) ++ " in position " ++ toString u.start
    | bs => "bytes in position " ++ toString u.start ++ "-" ++ toString (u.start + bs.length - 1)
  "'utf-8' codec can't decode " ++ stretch ++ ": " ++ u.flaw.message

end Utf8

end Stencil.Text
