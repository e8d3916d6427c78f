import Mathlib.Algebra.Group.Nat.Defs
import Mathlib.Tactic.Common
/-!
# Addresses (`std::net::IpAddr`)

What `str::parse::<IpAddr>` accepts: dotted IPv4 without leading zeros, and IPv6 with at most
one `::` and possibly an IPv4 tail. A parser takes what it can from the front of the
input and returns the rest; an address is the whole input. `Display` writes addresses
into the keys of Redis.
-/
namespace ThatLimit

inductive IpAddr
  | v4 (bits : BitVec 32)
  | v6 (bits : BitVec 128)
  deriving DecidableEq

namespace IpAddr

/-- `char::to_digit`. -/
def toDigit (radix : Nat) (c : Char) : Option Nat :=
  let d :=
    if '0' ≤ c ∧ c ≤ '9' then c.toNat - '0'.toNat
    else if 'a' ≤ c ∧ c ≤ 'f' then c.toNat - 'a'.toNat + 10
    else if 'A' ≤ c ∧ c ≤ 'F' then c.toNat - 'A'.toNat + 10
    else radix
  if d < radix then some d else none

/-- All digits in front, as a number below `bound`; there may be at most `maxDigits` of them. -/
def readNumber (radix maxDigits bound : Nat) (allowZeroPrefix : Bool) (cs : List Char) : Option (Nat × List Char) :=
  let digits := (cs.takeWhile fun c => (toDigit radix c).isSome).filterMap (toDigit radix)
  let n := digits.foldl (fun n d => n * radix + d) 0
  if digits.length = 0 ∨ digits.length > maxDigits then none
  else if !allowZeroPrefix && cs.head? == some '0' && decide (digits.length > 1) then none
  else if n < bound then some (n, cs.drop digits.length)
  else none

/-- A separator stands before every item but the first. -/
def readSeparator (sep : Char) (first : Bool) (cs : List Char) : Option (List Char) :=
  if first then some cs
  else
    match cs with
    | c :: cs => if c = sep then some cs else none
    | [] => none

/-- The next `n` octets of an IPv4 address, below those read so far. -/
def readOctets : Nat → Bool → Nat → List Char → Option (Nat × List Char)
  | 0, _, bits, cs => some (bits, cs)
  | n + 1, first, bits, cs => do
      let cs ← readSeparator '.' first cs
      let (octet, cs) ← readNumber 10 3 256 false cs
      readOctets n false (bits * 256 + octet) cs

def readIpv4 (cs : List Char) : Option (Nat × List Char) := readOctets 4 true 0 cs

/-- Up to `n` groups of an IPv6 address, and whether they end in an IPv4 address, which makes two. -/
def readGroups : Nat → Bool → List Char → List Nat × Bool × List Char
  | 0, _, cs => ([], false, cs)
  | n + 1, first, cs =>
      match if 1 ≤ n then (readSeparator ':' first cs).bind readIpv4 else none with
      | some (bits, cs) => ([bits / 65536, bits % 65536], true, cs)
      | none =>
          match (readSeparator ':' first cs).bind (readNumber 16 4 65536 true) with
          | some (group, cs) =>
              let (groups, ipv4, cs) := readGroups n false cs
              (group :: groups, ipv4, cs)
          | none => ([], false, cs)

/-- `::` stands for at least one group of zeros and cannot follow an IPv4 part. -/
def readIpv6 (cs : List Char) : Option (List Nat × List Char) :=
  let (head, ipv4, cs) := readGroups 8 true cs
  if head.length = 8 then some (head, cs)
  else if ipv4 then none
  else
    match cs with
    | ':' :: ':' :: cs =>
        let (tail, _, cs) := readGroups (8 - (head.length + 1)) true cs
        some (head ++ List.replicate (8 - head.length - tail.length) 0 ++ tail, cs)
    | _ => none

/-- `str::parse::<IpAddr>`. -/
def parse (s : String) : Option IpAddr :=
  match readIpv4 s.toList with
  | some (bits, rest) => if rest.isEmpty then some (.v4 (.ofNat 32 bits)) else none
  | none =>
      match readIpv6 s.toList with
      | some (groups, rest) =>
          if rest.isEmpty then some (.v6 (.ofNat 128 (groups.foldl (fun n g => n * 65536 + g) 0))) else none
      | none => none

/-- The addresses of the adapters' own tests. -/
example : (["89.28.75.89", "28.75.89.89", "::ffff:192.0.2.128", "fe80::1"].all fun s => (parse s).isSome) = true ∧
    (["", "1.2.3", "256.1.1.1", "1.2.3.4 ", "01.02.03.04", "1..3.4", ":", ":::", "2001::db8::1", "2001:dg8::1",
      "fe80::1%eth0", "::ffff:999.1.1.1", "12345::1"].all fun s => (parse s).isNone) = true := by decide

/-! ## `Display` -/

def displayIpv4 (bits : BitVec 32) : String :=
  String.intercalate "." ((List.range 4).map fun i => toString (bits.toNat / 256 ^ (3 - i) % 256))

def segments (bits : BitVec 128) : List Nat := (List.range 8).map fun i => bits.toNat / 65536 ^ (7 - i) % 65536

/-- The first of the longest runs of zeros: where it begins and how long it is. -/
def zeroes : List Nat → Nat → Nat × Nat → Nat × Nat → Nat × Nat
  | [], _, _, longest => longest
  | segment :: rest, i, current, longest =>
      if segment = 0 then
        let current := if current.2 = 0 then (i, 1) else (current.1, current.2 + 1)
        zeroes rest (i + 1) current (if longest.2 < current.2 then current else longest)
      else zeroes rest (i + 1) (0, 0) longest

def displaySegments (segments : List Nat) : String :=
  String.intercalate ":" (segments.map fun segment => String.ofList (Nat.toDigits 16 segment))

/-- An IPv4-mapped address keeps its dots, and more than one zero is left out. -/
def display : IpAddr → String
  | .v4 bits => displayIpv4 bits
  | .v6 bits =>
      if bits.toNat / 2 ^ 32 = 0xffff then "::ffff:" ++ displayIpv4 (bits.setWidth 32)
      else
        let (start, len) := zeroes (segments bits) 0 (0, 0) (0, 0)
        if 1 < len then
          displaySegments ((segments bits).take start) ++ "::" ++ displaySegments ((segments bits).drop (start + len))
        else displaySegments (segments bits)

instance : ToString IpAddr := ⟨display⟩

example : ["89.28.75.89", "::ffff:192.0.2.128", "fe80::1", "::", "1:0:0:2::3", "1:0:2:3:4:5:6:7"].all
    (fun s => (parse s).map display == some s) = true := by decide

end IpAddr

end ThatLimit
