import Kernloom.GoText
import Kernloom.ShieldPacket

/-! Addresses as text, as `net.ParseIP` reads them: IPv4 addresses become IPv4-mapped IPv6 ones. -/

namespace Kernloom

section V4

/-- A decimal field; a leading zero is refused. -/
def parseOctet (cs : List Char) : Option Nat :=
  match digitsValue cs with
  | none => none
  | some n => if 255 < n ∨ (1 < cs.length ∧ cs.head? = some '0') then none else some n

/-- Four fields between dots, as one number. -/
def parseIPv4Fields (cs : List Char) : Option Nat :=
  match (splitRunes (· = '.') cs).map parseOctet with
  | [some a, some b, some c, some d] => some (((a * 256 + b) * 256 + c) * 256 + d)
  | _ => none

end V4

section V6

def hexValue (c : Char) : Option Nat :=
  if '0' ≤ c ∧ c ≤ '9' then some (c.toNat - '0'.toNat)
  else if 'a' ≤ c ∧ c ≤ 'f' then some (c.toNat - 'a'.toNat + 10)
  else if 'A' ≤ c ∧ c ≤ 'F' then some (c.toNat - 'A'.toNat + 10)
  else none

def isHex (c : Char) : Bool := (hexValue c).isSome

def hexNumber (cs : List Char) : Nat := cs.foldl (fun acc c => acc * 16 + (hexValue c).getD 0) 0

/-- The groups of an address and the place of its ellipsis; `room` groups may still follow. -/
def parseGroups : (room : Nat) → List Char → List Nat → Option Nat → Option (List Nat × Option Nat)
  | 0, cs, out, ellipsis => if cs = [] then some (out, ellipsis) else none
  | room + 1, cs, out, ellipsis =>
    let digits := cs.takeWhile isHex
    let out' := out ++ [hexNumber digits]
    if digits = [] ∨ 4 < digits.length then none
    else
      match cs.dropWhile isHex with
      | [] => some (out', ellipsis)
      | '.' :: _ =>
        -- a trailing IPv4 address
        if (ellipsis = none ∧ out.length ≠ 6) ∨ 6 < out.length then none
        else (parseIPv4Fields cs).map fun n => (out ++ [n / 65536, n % 65536], ellipsis)
      | [':'] => none
      | [':', ':'] => if ellipsis.isSome then none else some (out', some out'.length)
      | ':' :: ':' :: rest =>
        if ellipsis.isSome then none else parseGroups room rest out' (some out'.length)
      | ':' :: rest => parseGroups room rest out' ellipsis
      | _ => none

/-- The ellipsis stands for one group of zeros at least. -/
def expandEllipsis : List Nat × Option Nat → Option (List Nat)
  | (out, none) => if out.length = 8 then some out else none
  | (out, some place) =>
    if out.length < 8 then some (out.take place ++ List.replicate (8 - out.length) 0 ++ out.drop place) else none

def parseIPv6Groups (cs : List Char) : Option (List Nat) :=
  match cs with
  | [':', ':'] => some (List.replicate 8 0)
  | ':' :: ':' :: rest => (parseGroups 8 rest [] (some 0)).bind expandEllipsis
  | cs => (parseGroups 8 cs [] none).bind expandEllipsis

end V6

/-- `net.ParseIP`; an address with a zone is refused. -/
@[irreducible] def parseIP (s : String) : Option Addr6 :=
  match s.toList.find? fun c => c = '.' ∨ c = ':' ∨ c = '%' with
  | some '.' => (parseIPv4Fields s.toList).map fun n => BitVec.ofNat 128 (0xffff * 2 ^ 32 + n)
  | some ':' =>
    if '%' ∈ s.toList then none
    else (parseIPv6Groups s.toList).map fun groups =>
      BitVec.ofNat 128 (groups.foldl (fun acc g => acc * 65536 + g) 0)
  | _ => none

/-- `IP.To4`. -/
def to4 (ip : Addr6) : Option Addr4 :=
  if ip.toNat / 2 ^ 32 = 0xffff then some (BitVec.ofNat 32 (ip.toNat % 2 ^ 32)) else none

def parseIPv4 (s : String) : Option Addr4 := (parseIP s).bind to4

example : parseIPv4 "192.0.2.7" = some 0xc0000207 ∧ parseIPv4 "::ffff:192.0.2.7" = some 0xc0000207 ∧
    parseIPv4 "192.0.02.7" = none ∧ parseIP "2001:db8::1" = some 0x20010db8000000000000000000000001 ∧
    parseIP "1:2:3:4:5:6:7:8::" = none ∧ parseIPv4 "2001:db8::1" = none := by decide +kernel

end Kernloom
