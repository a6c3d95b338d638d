import CatFactory.Network.IpHost

/-!
# Addresses and their textual forms

What a literal denotes, said without the decoders: the grammar of IPv4 and IPv6
literals, the address each form stands for, and the address classes the guards
are there to refuse.
-/

namespace CatFactory
namespace Network

/-!
## Addresses
-/

inductive Address where
  | v4 (octets : Octets)
  | v6 (groups : List Nat)
deriving DecidableEq

namespace Address

/-- An address whose first six groups are these carries an IPv4 address. -/
def mappedPrefix : List Nat :=
  [0, 0, 0, 0, 0, 0xffff]

/-- The IPv4 address written as two groups. -/
def octetsOfGroups (hi lo : Nat) : Octets :=
  (hi / 256, hi % 256, lo / 256, lo % 256)

/-- An IPv4-mapped address is the IPv4 address it carries. -/
def ofGroups (groups : List Nat) : Address :=
  if groups.take 6 = mappedPrefix then
    v4 (octetsOfGroups (groups.getD 6 0) (groups.getD 7 0))
  else v6 groups

def isUnspecified : Address -> Bool
  | v4 octets => octets = (0, 0, 0, 0)
  | v6 groups => groups = [0, 0, 0, 0, 0, 0, 0, 0]

def isLoopback : Address -> Bool
  | v4 (a, _, _, _) => a = 127
  | v6 groups => groups = [0, 0, 0, 0, 0, 0, 0, 1]

/-- 10/8, 172.16/12 and 192.168/16. -/
def isRfc1918 : Address -> Bool
  | v4 (a, b, _, _) => a = 10 || (a = 172 && 16 ≤ b && b ≤ 31) || (a = 192 && b = 168)
  | v6 _ => false

/-- 169.254/16 and fe80::/10. -/
def isLinkLocal : Address -> Bool
  | v4 (a, b, _, _) => a = 169 && b = 254
  | v6 groups => 0xfe80 ≤ groups.headD 0 && groups.headD 0 ≤ 0xfebf

/-- fc00::/7. -/
def isUniqueLocal : Address -> Bool
  | v4 _ => false
  | v6 groups => 0xfc00 ≤ groups.headD 0 && groups.headD 0 ≤ 0xfdff

/-- 224/4 and ff00::/8. -/
def isMulticast : Address -> Bool
  | v4 (a, _, _, _) => 224 ≤ a && a ≤ 239
  | v6 groups => 0xff00 ≤ groups.headD 0

/-- The reserved IPv4 blocks: 0/8, and 240/4 with the broadcast address. -/
def isReserved : Address -> Bool
  | v4 (a, _, _, _) => a = 0 || 240 ≤ a
  | v6 _ => false

/-- What a guard against the local network refuses. -/
def isLocal (address : Address) : Bool :=
  address.isUnspecified || address.isLoopback || address.isRfc1918 ||
    address.isLinkLocal || address.isUniqueLocal

/-- The cloud metadata endpoints. -/
def isMetadata : Address -> Bool
  | v4 (a, b, c, d) => (a = 169 && b = 254) || (a, b, c, d) = (100, 100, 100, 200)
  | v6 groups => groups = [0xfd00, 0xec2, 0, 0, 0, 0, 0, 0x254]

/-- What no bridge may name, the metadata endpoints apart. -/
def isUnbridgeable (address : Address) : Bool :=
  address.isLoopback || address.isUnspecified || address.isLinkLocal ||
    address.isMulticast || address.isReserved

/-- In some class that one of the guards refuses. -/
def isGuarded (address : Address) : Bool :=
  address.isLocal || address.isMetadata || address.isUnbridgeable

end Address

/-!
## The grammar

Letters are written in lower case here; a literal is a text that reads so in
lower case.
-/

structure Octet where
  digits : List Char
  nonempty : digits ≠ []
  short : digits.length ≤ 3
  decimal : digits ⊆ decimalDigits
  small : numeral 10 digits ≤ 255

def Octet.value (octet : Octet) : Nat :=
  numeral 10 octet.digits

structure Quad where
  a : Octet
  b : Octet
  c : Octet
  d : Octet

namespace Quad

def chunks (quad : Quad) : List (List Char) :=
  [quad.a.digits, quad.b.digits, quad.c.digits, quad.d.digits]

def text (quad : Quad) : List Char :=
  ['.'].intercalate quad.chunks

def octets (quad : Quad) : Octets :=
  (quad.a.value, quad.b.value, quad.c.value, quad.d.value)

/-- The two groups a dotted tail stands for. -/
def groups (quad : Quad) : List Nat :=
  [quad.a.value * 256 + quad.b.value, quad.c.value * 256 + quad.d.value]

end Quad

/-- An IPv4 address written as one number. -/
structure BareInteger where
  digits : List Char
  nonempty : digits ≠ []
  decimal : digits ⊆ decimalDigits
  small : numeral 10 digits < 2 ^ 32

def BareInteger.octets (integer : BareInteger) : Octets :=
  let n := numeral 10 integer.digits
  (n / 2 ^ 24, n / 2 ^ 16 % 256, n / 2 ^ 8 % 256, n % 256)

structure HexGroup where
  digits : List Char
  nonempty : digits ≠ []
  short : digits.length ≤ 4
  hexadecimal : digits ⊆ hexDigits

def HexGroup.value (group : HexGroup) : Nat :=
  numeral 16 group.digits

/-- Groups between colons; a dotted quad may stand for the last two. -/
structure GroupRun where
  groups : List HexGroup
  quad : Option Quad

namespace GroupRun

def chunks (run : GroupRun) : List (List Char) :=
  run.groups.map HexGroup.digits ++ run.quad.toList.map Quad.text

def text (run : GroupRun) : List Char :=
  [':'].intercalate run.chunks

def values (run : GroupRun) : List Nat :=
  run.groups.map HexGroup.value ++ run.quad.toList.flatMap Quad.groups

end GroupRun

/-- The spellings of an IPv6 address: all of it, or with one `::` standing for
at least one group of zeros. -/
inductive Ipv6Form where
  | full (run : GroupRun) (size : run.values.length = 8)
  | compressed (head : List HexGroup) (tail : GroupRun)
      (size : head.length + tail.values.length < 8)

namespace Ipv6Form

def text : Ipv6Form -> List Char
  | full run _ => run.text
  | compressed head tail _ =>
      (GroupRun.mk head none).text ++ ':' :: ':' :: tail.text

def groups : Ipv6Form -> List Nat
  | full run _ => run.values
  | compressed head tail _ =>
      head.map HexGroup.value ++
        List.replicate (8 - head.length - tail.values.length) 0 ++ tail.values

end Ipv6Form

inductive Form where
  | dotted (quad : Quad)
  | integer (n : BareInteger)
  | ipv6 (form : Ipv6Form)

namespace Form

def text : Form -> List Char
  | dotted quad => quad.text
  | integer n => n.digits
  | ipv6 form => form.text

def address : Form -> Address
  | dotted quad => .v4 quad.octets
  | integer n => .v4 n.octets
  | ipv6 form => .ofGroups form.groups

end Form

/-- A text that spells an address: a form in any case, with or without
brackets. -/
structure Literal where
  form : Form
  bracketed : Bool
  text : List Char
  spells : text.map Char.toLower =
    if bracketed then '[' :: (form.text ++ [']']) else form.text

def Literal.address (literal : Literal) : Address :=
  literal.form.address

end Network
end CatFactory
