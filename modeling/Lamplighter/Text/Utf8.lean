import Lamplighter.Text.Quoted

/-! # Reading UTF-8

Bytes are read one at a time. The first byte of a character says how many more follow and in which
range the next one lies, which rules out overlong forms, surrogates and numbers past the last code
point. A fault reaches from the first byte of the character in question to the byte that cannot
continue it, or to the end of the bytes.
-/

namespace Lamplighter.Text.Utf8

inductive Reason where
  /-- No character starts with this byte. -/
  | start
  /-- A character is broken off by a byte that cannot continue it. -/
  | continuation
  /-- The bytes end within a character. -/
  | truncated
deriving DecidableEq, Repr

/-- The bytes at fault: from `start` up to, and without, `stop`. -/
structure Fault where
  reason : Reason
  lead : UInt8
  start : Nat
  stop : Nat
deriving DecidableEq, Repr

def Reason.message : Reason → String
  | .start => "invalid start byte"
  | .continuation => "invalid continuation byte"
  | .truncated => "unexpected end of data"

/-- The wording of a fault: one byte is shown, several are given by their positions. -/
def Fault.message (fault : Fault) : String :=
  let place :=
    if fault.stop = fault.start + 1 then
      let shown := String.ofList (hex 2 fault.lead.toNat)
      s!"byte 0x{shown} in position {fault.start}"
    else
      s!"bytes in position {fault.start}-{fault.stop - 1}"
  s!"'utf-8' codec can't decode {place}: {fault.reason.message}"

/-- A character of which some bytes are still to come: `owed` more, the next between `low` and
`high`. -/
structure Begun where
  lead : UInt8
  start : Nat
  bits : Nat
  owed : Nat
  low : Nat
  high : Nat

/-- The character that a first byte above the ASCII block opens. -/
def Begun.ofLead? (lead : UInt8) (start : Nat) : Option Begun :=
  let n := lead.toNat
  let opened (bits owed low high : Nat) : Option Begun := some ⟨lead, start, bits, owed, low, high⟩
  if 0xc2 ≤ n ∧ n ≤ 0xdf then opened (n - 0xc0) 1 0x80 0xbf
  else if n = 0xe0 then opened 0 2 0xa0 0xbf
  else if n = 0xed then opened 0xd 2 0x80 0x9f
  else if 0xe1 ≤ n ∧ n ≤ 0xef then opened (n - 0xe0) 2 0x80 0xbf
  else if n = 0xf0 then opened 0 3 0x90 0xbf
  else if 0xf1 ≤ n ∧ n ≤ 0xf3 then opened (n - 0xf0) 3 0x80 0xbf
  else if n = 0xf4 then opened 4 3 0x80 0x8f
  else none

/-- Reads bytes from position `pos` on, with the characters read so far in reverse. -/
def decodeFrom (pos : Nat) (done : Text) : Option Begun → List UInt8 → Except Fault Text
  | none, [] => .ok done.reverse
  | some begun, [] => .error ⟨.truncated, begun.lead, begun.start, pos⟩
  | none, byte :: rest =>
    if byte.toNat < 0x80 then decodeFrom (pos + 1) (Char.ofNat byte.toNat :: done) none rest
    else match Begun.ofLead? byte pos with
      | none => .error ⟨.start, byte, pos, pos + 1⟩
      | some begun => decodeFrom (pos + 1) done (some begun) rest
  | some begun, byte :: rest =>
    if begun.low ≤ byte.toNat ∧ byte.toNat ≤ begun.high then
      let bits := begun.bits * 64 + (byte.toNat - 0x80)
      if begun.owed = 1 then decodeFrom (pos + 1) (Char.ofNat bits :: done) none rest
      else
        let next := { begun with bits := bits, owed := begun.owed - 1, low := 0x80, high := 0xbf }
        decodeFrom (pos + 1) done (some next) rest
    else .error ⟨.continuation, begun.lead, begun.start, pos⟩

def decode (bytes : List UInt8) : Except Fault Text := decodeFrom 0 [] none bytes

end Lamplighter.Text.Utf8
