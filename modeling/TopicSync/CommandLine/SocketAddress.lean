import TopicSync.Text.Scan

/-!
Addresses to listen on: a host, given by number, and a port. The written form of an address is
canonical: of the longest runs of two or more zero groups the first is left out, digits are in
lower case, and there are no leading zeros.
-/
namespace TopicSync

open Text

inductive HostAddress where
  /-- Four numbers below 256. -/
  | v4 (octets : List Nat)
  /-- Eight groups of sixteen bits, and the zone in which they hold, 0 being none. -/
  | v6 (groups : List Nat) (zone : Nat)
  deriving DecidableEq, Repr

structure SocketAddress where
  host : HostAddress
  port : Nat
  deriving DecidableEq, Repr

namespace HostAddress

/-- A number from 0 to 255 without leading zeros. -/
def scanOctet : Scanner Nat := fun cs => do
  let (ds, cs) ← scanDigits 10 cs
  guard (ds.length = 1 ∨ ds.length ≤ 3 ∧ ds.head? ≠ some '0')
  guard (valueOf 10 ds < 256)
  return (valueOf 10 ds, cs)

/-- Octets, the first given already, with a dot before each of the others. -/
def scanOctets : Nat → Scanner (List Nat)
  | 0, cs => some ([], cs)
  | n + 1, cs => do
    let (_, cs) ← scanChar '.' cs
    let (o, cs) ← scanOctet cs
    let (os, cs) ← scanOctets n cs
    return (o :: os, cs)

/-- Four octets. -/
def scanV4 : Scanner (List Nat) := fun cs => do
  let (o, cs) ← scanOctet cs
  let (os, cs) ← scanOctets 3 cs
  return (o :: os, cs)

/-- One to four hexadecimal digits. -/
def scanGroup : Scanner Nat := fun cs => do
  let (ds, cs) ← scanDigits 16 cs
  guard (ds.length ≤ 4)
  return (valueOf 16 ds, cs)

/-- Two groups, written as four octets. -/
def scanGroupPair : Scanner (List Nat) := fun cs =>
  match scanV4 cs with
  | some ([a, b, c, d], cs) => some ([a * 256 + b, c * 256 + d], cs)
  | _ => none

/-- Something with a colon before it, unless it is the first. -/
def scanSeparated (first : Bool) (scan : Scanner α) : Scanner α := fun cs =>
  if first then scan cs else (scanChar ':' cs).bind fun r => scan r.2

/-- As many groups as follow each other, up to a limit. Two groups may be written as octets, which
ends the sequence; the second part of the answer tells whether that was so. -/
def scanGroups : Nat → Bool → List Char → List Nat × Bool × List Char
  | 0, _, cs => ([], false, cs)
  | limit + 1, first, cs =>
    match if limit = 0 then none else scanSeparated first scanGroupPair cs with
    | some (pair, cs) => (pair, true, cs)
    | none =>
      match scanSeparated first scanGroup cs with
      | none => ([], false, cs)
      | some (g, cs) =>
        let (gs, octets, cs) := scanGroups limit false cs
        (g :: gs, octets, cs)

/-- Eight groups; two colons stand for one or more zero groups. -/
def scanV6 : Scanner (List Nat) := fun cs =>
  match scanGroups 8 true cs with
  | (before, octets, cs) =>
    if before.length = 8 then some (before, cs)
    else if octets then none
    else do
      let (_, cs) ← scanChar ':' cs
      let (_, cs) ← scanChar ':' cs
      let (after, _, cs) := scanGroups (7 - before.length) true cs
      return (before ++ List.replicate (8 - before.length - after.length) 0 ++ after, cs)

/-- A number after a sign, up to a bound. -/
def scanAfter (sign : Char) (bound : Nat) : Scanner Nat := fun cs => do
  let (_, cs) ← scanChar sign cs
  let (ds, cs) ← scanDigits 10 cs
  guard (valueOf 10 ds ≤ bound)
  return (valueOf 10 ds, cs)

/-- A host as it stands before a port: octets, or groups in brackets with an optional zone. -/
def scan : Scanner HostAddress
  | '[' :: cs => do
    let (groups, cs) ← scanV6 cs
    let (zone, cs) := (scanAfter '%' 4294967295 cs).getD (0, cs)
    let (_, cs) ← scanChar ']' cs
    return (v6 groups zone, cs)
  | cs => do
    let (octets, cs) ← scanV4 cs
    return (v4 octets, cs)

def octetsText (octets : List Nat) : String := ".".intercalate (octets.map toString)

def groupsText (gs : List Nat) : String :=
  ":".intercalate (gs.map fun g => String.ofList (Nat.toDigits 16 g))

/-- Start and length of the first of the longest runs of zeros. -/
def zeroRun (gs : List Nat) : Nat × Nat :=
  let runs := (List.range gs.length).map fun i => (i, ((gs.drop i).takeWhile (· = 0)).length)
  runs.foldl (fun best r => if best.2 < r.2 then r else best) (0, 0)

/-- Groups in canonical form. Those that stand for a host of the older kind show its octets. -/
def v6Text : List Nat → String
  | [0, 0, 0, 0, 0, 65535, g, h] => "::ffff:" ++ octetsText [g / 256, g % 256, h / 256, h % 256]
  | gs =>
    match zeroRun gs with
    | (start, length) =>
      if length < 2 then groupsText gs
      else groupsText (gs.take start) ++ "::" ++ groupsText (gs.drop (start + length))

def text : HostAddress → String
  | v4 octets => octetsText octets
  | v6 groups 0 => s!"[{v6Text groups}]"
  | v6 groups zone => s!"[{v6Text groups}%{zone}]"

end HostAddress

namespace SocketAddress

def ofText? (s : String) : Option SocketAddress := do
  let (host, cs) ← HostAddress.scan s.toList
  match HostAddress.scanAfter ':' 65535 cs with
  | some (port, []) => some ⟨host, port⟩
  | _ => none

def text (a : SocketAddress) : String := s!"{a.host.text}:{a.port}"

end SocketAddress

end TopicSync
