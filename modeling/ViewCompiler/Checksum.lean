import ViewCompiler.Text.Basic

/-!
# Checksums

The cyclic redundancy check with the reflected polynomial `0xEDB88320`: the register starts with all
bits set, takes the bytes one after the other, and is inverted at the end. Components carry the
checksum of their sources, so that a change of any of them shows.
-/

namespace ViewCompiler.Checksum

/-- Shifts the register by one bit. -/
def shift (register : UInt32) : UInt32 :=
  if register &&& 1 = 1 then (register >>> 1) ^^^ 0xEDB88320 else register >>> 1

/-- Shifts the register by `n` bits. -/
def shifts : Nat → UInt32 → UInt32
  | 0, register => register
  | n + 1, register => shifts n (shift register)

/-- Takes one byte. -/
def step (register : UInt32) (byte : UInt8) : UInt32 := shifts 8 (register ^^^ byte.toUInt32)

/-- The checksum of some bytes. -/
def ofBytes (bytes : List UInt8) : UInt32 := bytes.foldl step 0xFFFFFFFF ^^^ 0xFFFFFFFF

/-- The checksum of several texts, a null byte behind each, in hexadecimal. -/
def ofTexts (texts : List String) : String :=
  Text.hex 8 (ofBytes (texts.flatMap fun t => t.toUTF8.toList ++ [0])).toNat

end ViewCompiler.Checksum
