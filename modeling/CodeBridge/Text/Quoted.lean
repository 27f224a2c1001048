import CodeBridge.Text.Printable

/-! # Quoted texts

A text inside a list, or in a message about it, stands in quotes: single quotes, unless it holds a single
quote and no double one. The quote in use and the backslash get a backslash before them, and what cannot be
printed is written by its code. -/

namespace CodeBridge.Text

/-- The last `width` hexadecimal digits of a number, in small letters. -/
def hexDigits (width : Nat) (n : Nat) : List Char :=
  let ds := Nat.toDigits 16 n
  List.replicate (width - ds.length) '0' ++ ds

/-- The quote that a text is put in. -/
def quoteFor (hasSingle hasDouble : Bool) : Char :=
  if hasSingle && !hasDouble then '"' else '\''

def quotedChar (quote : Char) (c : Char) : List Char :=
  if c == quote || c == '\\' then ['\\', c]
  else if c == '\t' then ['\\', 't']
  else if c == '\n' then ['\\', 'n']
  else if c == '\r' then ['\\', 'r']
  else if isPrintable c then [c]
  else if c.toNat < 0x100 then '\\' :: 'x' :: hexDigits 2 c.toNat
  else if c.toNat < 0x10000 then '\\' :: 'u' :: hexDigits 4 c.toNat
  else '\\' :: 'U' :: hexDigits 8 c.toNat

/-- A text in quotes. -/
def quoted (s : String) : String :=
  let cs := s.toList
  let quote := quoteFor (cs.contains '\'') (cs.contains '"')
  String.ofList (quote :: cs.flatMap (quotedChar quote) ++ [quote])

def quotedByte (quote : Char) (b : UInt8) : List Char :=
  let c := Char.ofNat b.toNat
  if c == quote || c == '\\' then ['\\', c]
  else if c == '\t' then ['\\', 't']
  else if c == '\n' then ['\\', 'n']
  else if c == '\r' then ['\\', 'r']
  else if 32 ≤ b && b < 127 then [c]
  else '\\' :: 'x' :: hexDigits 2 b.toNat

/-- A sequence of bytes in quotes, marked by a `b` before them. -/
def quotedBytes (bs : List UInt8) : String :=
  let quote := quoteFor (bs.contains 39) (bs.contains 34)
  String.ofList ('b' :: quote :: bs.flatMap (quotedByte quote) ++ [quote])

end CodeBridge.Text
