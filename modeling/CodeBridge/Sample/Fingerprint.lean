import CodeBridge.Digest.Sha256
import CodeBridge.Sample.Basic

/-! # Fingerprints

A sample is written as a stream of bytes, tag by tag, and the digest of the stream is its fingerprint. Doubles
count by six significant digits, so that noise in the last places does not show. Sets and mappings are written
in the order of their members' fingerprints. -/

namespace CodeBridge

namespace Fingerprint

/-- How many elements of a sequence count. -/
def longest : Nat := 2000

/-- How many containers around a sample count. -/
def deepest : Nat := 8

/-- How many digits of a double count. -/
def precision : Nat := 6

def round (x : Float) : Float :=
  Decimal.roundSignificant precision x

def utf8 (s : String) : List UInt8 :=
  s.toUTF8.toList

/-- A part of a complex number as it is shown: a whole part goes without its point. -/
def partText (x : Float) : String :=
  let s := Decimal.floatText x
  if s.endsWith ".0" then String.ofList (s.toList.take (s.length - 2)) else s

def complexText (real imaginary : Float) : String :=
  let i := partText imaginary ++ "j"
  if real == 0 && !Decimal.isNegative real then i
  else "(" ++ partText real ++ (if i.startsWith "-" then i else "+" ++ i) ++ ")"

def hex (bs : List UInt8) : String :=
  String.ofList (bs.flatMap fun b => Text.hexDigits 2 b.toNat)

/-- The fingerprint of a stream of bytes. -/
def ofStream (stream : List UInt8) : String :=
  hex (Digest.sha256 stream)

/-- The order of what is sorted by fingerprint. -/
def sorted {α : Type} (entries : List (String × α)) : List (String × α) :=
  entries.mergeSort fun a b => decide (a.1 ≤ b.1)

/-- What is written of a sample inside so many containers. -/
abbrev Writing := Nat → List UInt8

/-- A container by what is written of its members. -/
inductive Container where
  | sequence (items : List Writing)
  | set (items : List Writing)
  | mapping (entries : List (Writing × Writing))

namespace Container

def size : Container → Nat
  | sequence items => items.length
  | set items => items.length
  | mapping entries => entries.length

/-- What is written of all members, with their number. Members without an order stand in that of their fingerprints, for
which they are inside `inner` containers. -/
def written (inner : Nat) : Container → Writing
  | sequence items, depth => utf8 ("L" ++ Decimal.natText items.length) ++ items.flatMap fun item => item (depth + 1)
  | set items, _ =>
    let marks := items.map fun item => ofStream (item inner)
    utf8 ("S" ++ Decimal.natText items.length) ++ utf8 (String.join (marks.mergeSort fun a b => decide (a ≤ b)))
  | mapping entries, depth =>
    let marked := entries.map fun (key, item) => (ofStream (key inner), key (depth + 1) ++ item (depth + 1))
    utf8 ("D" ++ Decimal.natText entries.length) ++ (sorted marked).flatMap (·.2)

end Container

/-- What may be written one way or another: samples inside too many containers, complex numbers, containers with too many
members, records, and how deep a member without an order counts for its fingerprint. -/
structure Rules where
  deep : Sample → List UInt8
  complex : Float → Float → List UInt8
  long : Container → Writing
  record : String → List (String × Writing) → Writing
  inner : Nat → Nat

/-- All members count up to a number of them. -/
def containerStream (rules : Rules) (c : Container) (depth : Nat) : List UInt8 :=
  if c.size ≤ longest then c.written (rules.inner depth) depth else rules.long c depth

mutual

/-- The stream of a sample inside `depth` containers. -/
def stream (rules : Rules) (s : Sample) (depth : Nat) : List UInt8 :=
  if deepest < depth then rules.deep s else
  match s with
  | .nothing => utf8 "None"
  | .bool b => utf8 (if b then "True" else "False")
  | .int n => utf8 (Decimal.intText n)
  | .float x => utf8 (Decimal.floatText (round x))
  | .complex real imaginary => rules.complex real imaginary
  | .text s => utf8 "s" ++ utf8 s
  | .bytes _ bs => utf8 "s" ++ bs
  | .sequence _ items => containerStream rules (.sequence (itemStreams rules items)) depth
  | .set _ items => containerStream rules (.set (itemStreams rules items)) depth
  | .mapping entries => containerStream rules (.mapping (entryStreams rules entries)) depth
  | .record kind fields => rules.record kind (fieldStreams rules fields) depth
  | .other _ shown => utf8 shown

def itemStreams (rules : Rules) : List Sample → List Writing
  | [] => []
  | item :: rest => stream rules item :: itemStreams rules rest

def entryStreams (rules : Rules) : List (Sample × Sample) → List (Writing × Writing)
  | [] => []
  | (key, item) :: rest => (stream rules key, stream rules item) :: entryStreams rules rest

def fieldStreams (rules : Rules) : List (String × Sample) → List (String × Writing)
  | [] => []
  | (name, item) :: rest => (name, stream rules item) :: fieldStreams rules rest

end

/-- Nothing is written of a sample that is too deep, and nothing of the elements of a sequence beyond the first ones. A
record is the mapping of its fields. -/
def Rules.usual : Rules where
  deep _ := []
  complex real imaginary := utf8 (complexText (round real) (round imaginary))
  long
    | .sequence items, depth =>
      utf8 ("L" ++ Decimal.natText items.length) ++ (items.take longest).flatMap fun item => item (depth + 1)
    | c, depth => c.written 0 depth
  record _ fields := (Container.mapping (fields.map fun (name, item) => (fun _ => utf8 ("s" ++ name), item))).written 0
  inner _ := 0

end Fingerprint

/-- The fingerprint of a sample, as 64 hexadecimal digits. -/
def Sample.fingerprint (s : Sample) : String :=
  Fingerprint.ofStream (Fingerprint.stream .usual s 0)

end CodeBridge
