import CatFactory.Foundation.Text
import Mathlib.Data.Nat.Digits.Defs

/-!
# Address literals and the host guards

The decoders of IPv4 and IPv6 literals and the three guards built on them: the
strict guard on an organisation's URLs, the metadata guard, and the guard on the
address a provider wants a host name re-pointed to.  A string is the list of its
characters here.
-/

namespace CatFactory
namespace Network

open Foundation

/-!
## Character classes and numerals
-/

/-- The class `\d`. -/
def decimalDigits : List Char := "0123456789".toList

/-- The class `[0-9a-f]`. -/
def hexDigits : List Char := "0123456789abcdef".toList

/-- `Number` of a decimal numeral, `parseInt` of a hexadecimal one. -/
def numeral (base : Nat) (cs : List Char) : Nat :=
  Nat.ofDigits base (cs.map hexDigits.idxOf).reverse

/-- The pattern `^\d+$`. -/
def isDigits (cs : List Char) : Bool :=
  !cs.isEmpty && cs.all decimalDigits.contains

/-- The pattern `^\d{1,3}$`. -/
def isShortDecimal (cs : List Char) : Bool :=
  isDigits cs && cs.length ≤ 3

/-- The pattern `^[0-9a-f]{1,4}$`. -/
def isHexChunk (cs : List Char) : Bool :=
  !cs.isEmpty && cs.length ≤ 4 && cs.all hexDigits.contains

/-- The pattern `^0x[0-9a-f]+$`. -/
def isHexLabel : List Char -> Bool
  | '0' :: 'x' :: rest => !rest.isEmpty && rest.all hexDigits.contains
  | _ => false

/-- The pattern `^0[0-9]+$`. -/
def isOctalLabel : List Char -> Bool
  | '0' :: rest => isDigits rest
  | _ => false

/-!
## Strings
-/

def startsWith (host : List Char) (start : String) : Bool :=
  start.toList.isPrefixOf host

def endsWith (host : List Char) (ending : String) : Bool :=
  ending.toList.isSuffixOf host

def toLowerChars (cs : List Char) : List Char :=
  cs.flatMap lowerChar

/-- `replace(/^\[|\]$/g, '')`. -/
def stripBrackets (cs : List Char) : List Char :=
  let opened := if cs.head? = some '[' then cs.tail else cs
  if opened.getLast? = some ']' then opened.dropLast else opened

/-- `replace(/\.$/, '')`. -/
def stripTrailingDot (cs : List Char) : List Char :=
  if cs.getLast? = some '.' then cs.dropLast else cs

/-- What every guard looks at first: lower case, without brackets. -/
def hostOf (hostname : List Char) : List Char :=
  stripBrackets (toLowerChars hostname)

/-- `split('::')`. -/
def splitDoubleColon : List Char -> List (List Char)
  | [] => [[]]
  | ':' :: ':' :: rest => [] :: splitDoubleColon rest
  | c :: rest => (splitDoubleColon rest).modifyHead (c :: ·)

/-!
## IPv4
-/

/-- The source's `[number, number, number, number]`. -/
abbrev Octets := Nat × Nat × Nat × Nat

/-- Whether a decoded IPv4 address is loopback, link-local or RFC1918. -/
def isPrivateV4 : Octets -> Bool
  | (a, b, _, _) =>
      if a = 127 || a = 0 || a = 10 then true
      else if a = 169 && b = 254 then true
      else if a = 192 && b = 168 then true
      else if a = 172 && 16 ≤ b && b ≤ 31 then true
      else false

/-- The groups that `^(\d{1,3})\.(\d{1,3})\.(\d{1,3})\.(\d{1,3})$` captures. -/
def matchDottedQuad (cs : List Char) :
    Option (List Char × List Char × List Char × List Char) :=
  match cs.splitOn '.' with
  | [a, b, c, d] =>
      if isShortDecimal a && isShortDecimal b && isShortDecimal c && isShortDecimal d then
        some (a, b, c, d)
      else none
  | _ => none

/-- The captured groups as octets, none when one of them is over 255. -/
def octetsOf : List Char × List Char × List Char × List Char -> Option Octets
  | (m1, m2, m3, m4) =>
      let a := numeral 10 m1
      let b := numeral 10 m2
      let c := numeral 10 m3
      let d := numeral 10 m4
      if a > 255 || b > 255 || c > 255 || d > 255 then none else some (a, b, c, d)

def decimalV4 (host : List Char) : Option Octets :=
  match matchDottedQuad host with
  | none => none
  | some groups => octetsOf groups

/-- The IPv4 address of a literal spelled `::ffff:` and a dotted quad or two
groups. -/
def mappedV4 (host : List Char) : Option Octets :=
  if startsWith host "::ffff:" then
    let rest := host.drop "::ffff:".toList.length
    match matchDottedQuad rest with
    | some dotted => octetsOf dotted
    | none =>
        match rest.splitOn ':' with
        | [first, second] =>
            if isHexChunk first && isHexChunk second then
              let hi := numeral 16 first
              let lo := numeral 16 second
              some ((hi >>> 8) &&& 0xff, hi &&& 0xff, (lo >>> 8) &&& 0xff, lo &&& 0xff)
            else none
        | _ => none
  else none

def decodeIpv4 (host : List Char) : Option Octets :=
  match decimalV4 host with
  | some dotted => some dotted
  | none =>
      match mappedV4 host with
      | some mapped => some mapped
      | none =>
          if isDigits host then
            let n := numeral 10 host
            if n > 0xffffffff then none
            else some ((n >>> 24) &&& 0xff, (n >>> 16) &&& 0xff, (n >>> 8) &&& 0xff, n &&& 0xff)
          else none

/-!
## IPv6
-/

/-- The chunks of one run, a dotted quad allowed as the last of them. -/
def expandChunks : List (List Char) -> Option (List Nat)
  | [] => some []
  | [chunk] =>
      if chunk.contains '.' then
        (decimalV4 chunk).map fun (a, b, c, d) => [a <<< 8 ||| b, c <<< 8 ||| d]
      else if isHexChunk chunk then some [numeral 16 chunk]
      else none
  | chunk :: rest =>
      if isHexChunk chunk then (expandChunks rest).map (numeral 16 chunk :: ·)
      else none

def expandIpv6Groups (part : List Char) : Option (List Nat) :=
  if part = [] then some [] else expandChunks (part.splitOn ':')

def decodeIpv6 (hostname : List Char) : Option (List Nat) :=
  let host := hostOf hostname
  if !host.contains ':' || host.contains '%' then none
  else
    match splitDoubleColon host with
    | [whole] =>
        match expandIpv6Groups whole with
        | some head => if head.length = 8 then some head else none
        | none => none
    | [first, second] =>
        match expandIpv6Groups first, expandIpv6Groups second with
        | some head, some tail =>
            let filled := 8 - head.length - tail.length
            -- a compression that saves nothing is malformed
            if 1 ≤ filled then some (head ++ List.replicate filled 0 ++ tail) else none
        | _, _ => none
    | _ => none

/-!
## The guards
-/

def isCloudMetadataHost (hostname : List Char) : Bool :=
  let host := hostOf hostname
  if host = "metadata.google.internal".toList then true
  else if host = "fd00:ec2::254".toList then true
  else
    match decodeIpv4 host with
    | some (a, b, c, d) =>
        if a = 169 && b = 254 then true
        else if a = 100 && b = 100 && c = 100 && d = 200 then true
        else false
    | none => false

def isBlockedPrivateHost (hostname : List Char) : Bool :=
  let host := hostOf hostname
  if host = [] then true
  else if host = "localhost".toList || endsWith host ".localhost" then true
  else if endsWith host ".internal" || endsWith host ".local" then true
  else if host.contains ':' then
    if host = "::1".toList || host = "::".toList then true
    else if startsWith host "fe80:" || startsWith host "fc" || startsWith host "fd" then true
    else
      match mappedV4 host with
      | some mapped => isPrivateV4 mapped
      | none => false
  else if isDigits host then true
  else
    let labels := host.splitOn '.'
    if labels.any (fun label => isHexLabel label || isOctalLabel label) then true
    else
      match decimalV4 host with
      | some v4 => isPrivateV4 v4
      | none => 1 < labels.length && labels.all isDigits

/-- The one spelling the bridge rules compare against. -/
def normalizeHostname (hostname : List Char) : List Char :=
  stripTrailingDot (stripBrackets (toLowerChars (trimChars isSpace hostname)))

def isBridgeableV4 : Octets -> Bool
  | (a, _, _, _) =>
      if a = 0 || a = 127 then false
      else if a ≥ 224 then false
      else true

def isBridgeableV6 (groups : List Nat) : Bool :=
  if groups.all (fun group => group = 0) then false
  else if groups.zipIdx.all (fun (group, index) => group = if index = 7 then 1 else 0) then
    false
  else
    let first := groups.headD 0
    if first &&& 0xffc0 = 0xfe80 then false
    else if first &&& 0xff00 = 0xff00 then false
    else true

def isBridgeableAddress (address : List Char) : Bool :=
  let host := normalizeHostname address
  if host = [] then false
  else if isCloudMetadataHost host then false
  else if host.contains ':' then
    match mappedV4 host with
    | some mapped => isBridgeableV4 mapped
    | none =>
        match decodeIpv6 host with
        | some groups => isBridgeableV6 groups
        | none => false
  else
    match decimalV4 host with
    | some v4 => isBridgeableV4 v4
    | none => false

end Network
end CatFactory
