import Questlog.Settings.Basic

namespace Questlog.Settings

/-- The pieces of a text between the occurrences of a character. -/
def pieces (separator : Char) : List Char → List (List Char)
  | [] => [[]]
  | c :: rest =>
    if c = separator then
      [] :: pieces separator rest
    else
      match pieces separator rest with
      | [] => [[c]]
      | piece :: more => (c :: piece) :: more

/-- Whether a text is one of the four numbers of an IPv4 address. -/
def isOctet (cs : List Char) : Bool :=
  cs.length ≤ 3 && (cs = ['0'] || cs.head? ≠ some '0') && (natBelow? 256 cs).isSome &&
    cs.head? ≠ some '+'

/-- Whether a text is an IPv4 address. -/
def isIpv4 (cs : List Char) : Bool :=
  let octets := pieces '.' cs
  octets.length = 4 && octets.all isOctet

/-- Whether a text is a group of an IPv6 address. -/
def isGroup (cs : List Char) : Bool :=
  !cs.isEmpty && cs.length ≤ 4 && cs.all fun c => (Text.hexDigit? c).isSome

/-- The number of groups that a text between colons makes, where an IPv4 address in the last place
counts as two. -/
def countGroups? (cs : List Char) : Option Nat :=
  if cs.isEmpty then
    some 0
  else
    match (pieces ':' cs).reverse with
    | [] => none
    | last :: before =>
      if before.all isGroup then
        if isGroup last then some (before.length + 1)
        else if isIpv4 last then some (before.length + 2)
        else none
      else
        none

/-- Whether a text is an IPv6 address. Two colons stand for at least one group of zeros, and before
them there is no IPv4 address. -/
def isIpv6 (cs : List Char) : Bool :=
  match (String.ofList cs).splitOn "::" with
  | [whole] => countGroups? whole.toList = some 8
  | [front, back] =>
    match countGroups? front.toList, countGroups? back.toList with
    | some n, some m => n + m ≤ 7 && !front.toList.contains '.'
    | _, _ => false
  | _ => false

/-- Whether a host can be listened on. -/
def isAddress (host : String) : Bool :=
  match host.toList with
  | '[' :: rest => rest.getLast? = some ']' && isIpv6 rest.dropLast
  | cs => isIpv4 cs

end Questlog.Settings
