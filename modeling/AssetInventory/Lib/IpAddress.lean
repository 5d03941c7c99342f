import AssetInventory.Lib.PyText

/-!
# Addresses and networks of the Internet Protocol

The module `ipaddress` of the source language, version 3.12, as far as texts are concerned.

* `IpAddress`: an address of either version; `ipAddress`, `IpAddress.toText`: `ip_address(s)` and
  `str(ip)`.
* `IpNetwork`: a network; `ipNetwork`: `ip_network(s, strict=False)`; `IpNetwork.mem`: `ip in net`.
* `IpAddress.ipv4Mapped`, `IpAddress.isLoopback`, `IpAddress.isLinkLocal`: the properties of an
  address under these names.

A text that is refused with an exception reads as `none`.
-/

namespace PyIp

/-- A text, character by character. -/
abbrev Text := List Char

/-- An address. -/
inductive IpAddress where
  | v4 (ip : BitVec 32)
  | v6 (ip : BitVec 128) (scopeId : Option Text)
  deriving DecidableEq

/-! ## Digits -/

/-- `s.isascii() and s.isdigit()`. -/
def isDecimal (s : Text) : Bool := !s.isEmpty && s.all fun c => decide ('0' ≤ c ∧ c ≤ '9')

/-- `int(s, 10)`. -/
def decimalValue (s : Text) : ℕ := s.foldl (fun n c => 10 * n + (c.toNat - 48)) 0

/-- The value of a hexadecimal digit. -/
def hexDigit (c : Char) : Option ℕ :=
  if '0' ≤ c ∧ c ≤ '9' then some (c.toNat - 48)
  else if 'a' ≤ c ∧ c ≤ 'f' then some (c.toNat - 87)
  else if 'A' ≤ c ∧ c ≤ 'F' then some (c.toNat - 55)
  else none

/-- `'%x' % n`. -/
def hexText (n : ℕ) : Text := Nat.toDigits 16 n

/-! ## Version 4 -/

def parseOctet (s : Text) : Option ℕ :=
  if !isDecimal s then none
  else if s.length > 3 then none
  else if s ≠ ['0'] ∧ s.head? = some '0' then none
  else if decimalValue s > 255 then none
  else some (decimalValue s)

/-- `_BaseV4._ip_int_from_string`. -/
def ipv4FromText (s : Text) : Option (BitVec 32) := do
  let octets := s.splitOn '.'
  if octets.length ≠ 4 then none
  else
    let values ← octets.mapM parseOctet
    return BitVec.ofNat 32 (values.foldl (fun n v => 256 * n + v) 0)

/-- `_BaseV4._string_from_ip_int`. -/
def ipv4Text (ip : BitVec 32) : Text :=
  ['.'].intercalate ([24, 16, 8, 0].map fun shift => Nat.toDigits 10 (ip.toNat / 2 ^ shift % 256))

/-! ## Version 6 -/

def parseHextet (s : Text) : Option ℕ := do
  let digits ← s.mapM hexDigit
  if s = [] ∨ s.length > 4 then none else return digits.foldl (fun n d => 16 * n + d) 0

/-- An IPv4-style suffix is converted to two hextets. -/
def expandSuffix (parts : List Text) : Option (List Text) :=
  match parts.getLast? with
  | none => some parts
  | some suffix =>
    if '.' ∈ suffix then do
      let ip ← ipv4FromText suffix
      return parts.dropLast ++ [hexText (ip.toNat / 2 ^ 16), hexText (ip.toNat % 2 ^ 16)]
    else some parts

/-- The positions, the endpoints apart, at which `::` stands. -/
def skipIndices (parts : List Text) : List ℕ :=
  (List.range parts.length).filter fun i => 0 < i ∧ i + 1 < parts.length ∧ parts[i]? = some []

/-- How many parts stand before `::`, how many hextets it skips, how many parts stand behind it. -/
def partCounts (parts : List Text) : Option (ℕ × ℕ × ℕ) :=
  let noStart := parts.head? = some []
  let noEnd := parts.getLast? = some []
  match skipIndices parts with
  | [] => if parts.length ≠ 8 ∨ noStart ∨ noEnd then none else some (parts.length, 0, 0)
  | [skip] =>
    let hi := if noStart then skip - 1 else skip
    let lo := if noEnd then parts.length - skip - 2 else parts.length - skip - 1
    if noStart ∧ hi ≠ 0 then none
    else if noEnd ∧ lo ≠ 0 then none
    else if hi + lo ≥ 8 then none
    else some (hi, 8 - (hi + lo), lo)
  | _ => none

/-- `_BaseV6._ip_int_from_string`. -/
def ipv6FromText (s : Text) : Option (BitVec 128) := do
  let parts := s.splitOn ':'
  if parts.length < 3 then none
  else
    let parts ← expandSuffix parts
    if parts.length > 9 then none
    else
      let (hi, skipped, lo) ← partCounts parts
      let before ← (parts.take hi).mapM parseHextet
      let behind ← (parts.drop (parts.length - lo)).mapM parseHextet
      let hextets := before ++ List.replicate skipped 0 ++ behind
      return BitVec.ofNat 128 (hextets.foldl (fun n h => 65536 * n + h) 0)

def splitScopeId (s : Text) : Option (Text × Option Text) :=
  match s.splitOn '%' with
  | [addr] => some (addr, none)
  | [addr, scopeId] => if scopeId = [] then none else some (addr, some scopeId)
  | _ => none

/-- The first longest run of zeros: where it starts and how long it is. -/
def longestZeros (hextets : List ℕ) : ℕ × ℕ :=
  let run (i : ℕ) : ℕ := ((hextets.drop i).takeWhile (· = 0)).length
  (List.range hextets.length).foldl (fun best i => if run i > best.2 then (i, run i) else best) (0, 0)

def compressHextets (hextets : List ℕ) : List Text :=
  let (start, len) := longestZeros hextets
  let texts := hextets.map hexText
  if len > 1 then
    (if start = 0 then [[]] else texts.take start) ++ [[]] ++
      (if start + len = hextets.length then [[]] else texts.drop (start + len))
  else texts

/-- `_BaseV6._string_from_ip_int`. -/
def ipv6Text (ip : BitVec 128) : Text :=
  [':'].intercalate (compressHextets
    ([112, 96, 80, 64, 48, 32, 16, 0].map fun shift => ip.toNat / 2 ^ shift % 65536))

/-! ## Addresses -/

/-- `IPv4Address(s)`. -/
def ipv4Address (s : Text) : Option IpAddress :=
  if '/' ∈ s then none else (ipv4FromText s).map IpAddress.v4

/-- `IPv6Address(s)`. -/
def ipv6Address (s : Text) : Option IpAddress :=
  if '/' ∈ s then none
  else do
    let (addr, scopeId) ← splitScopeId s
    let ip ← ipv6FromText addr
    return .v6 ip scopeId

/-- `ip_address(s)`. -/
def ipAddress (s : Text) : Option IpAddress := (ipv4Address s).or (ipv6Address s)

/-- `str(ip)`. -/
def IpAddress.toText : IpAddress → Text
  | .v4 ip => ipv4Text ip
  | .v6 ip none => ipv6Text ip
  | .v6 ip (some scopeId) => ipv6Text ip ++ '%' :: scopeId

/-- `ip.ipv4_mapped` of an address of version 6. -/
def IpAddress.ipv4Mapped : IpAddress → Option IpAddress
  | .v4 _ => none
  | .v6 ip _ =>
    if ip.toNat / 2 ^ 32 = 0xFFFF then some (.v4 (BitVec.ofNat 32 ip.toNat)) else none

/-! ## Networks -/

/-- A network: its address and its mask. -/
inductive IpNetwork where
  | v4 (address netmask : BitVec 32)
  | v6 (address netmask : BitVec 128)
  deriving DecidableEq

/-- `_ip_int_from_prefix`. -/
def netmask (width prefixlen : ℕ) : BitVec width :=
  BitVec.allOnes width ^^^ (BitVec.allOnes width >>> prefixlen)

/-- `_prefix_from_prefix_string`. -/
def prefixFromText (width : ℕ) (s : Text) : Option ℕ :=
  if isDecimal s ∧ decimalValue s ≤ width then some (decimalValue s) else none

/-- `_prefix_from_ip_int`: the length of the prefix whose mask an address is. -/
def prefixFromMask (ip : BitVec 32) : Option ℕ := (List.range 33).find? fun n => netmask 32 n = ip

/-- `_BaseV4._make_netmask`: a length, a netmask, or a hostmask. -/
def ipv4Prefix (s : Text) : Option ℕ :=
  (prefixFromText 32 s).or do
    let ip ← ipv4FromText s
    (prefixFromMask ip).or (prefixFromMask (ip ^^^ BitVec.allOnes 32))

/-- `_split_optional_netmask`, with the length of a prefix that is not given. -/
def splitNetmask (s : Text) : Option (Text × Option Text) :=
  match s.splitOn '/' with
  | [addr] => some (addr, none)
  | [addr, mask] => some (addr, some mask)
  | _ => none

/-- `IPv4Network(s, strict=False)`. -/
def ipv4Network (s : Text) : Option IpNetwork := do
  let (addr, mask) ← splitNetmask s
  let ip ← ipv4FromText addr
  let prefixlen ← mask.elim (some 32) ipv4Prefix
  return .v4 (ip &&& netmask 32 prefixlen) (netmask 32 prefixlen)

/-- `IPv6Network(s, strict=False)`. -/
def ipv6Network (s : Text) : Option IpNetwork := do
  let (addr, mask) ← splitNetmask s
  let (addr, _) ← splitScopeId addr
  let ip ← ipv6FromText addr
  let prefixlen ← mask.elim (some 128) (prefixFromText 128)
  return .v6 (ip &&& netmask 128 prefixlen) (netmask 128 prefixlen)

/-- `ip_network(s, strict=False)`. -/
def ipNetwork (s : Text) : Option IpNetwork := (ipv4Network s).or (ipv6Network s)

/-- `ip in net`. -/
def IpNetwork.mem : IpNetwork → IpAddress → Bool
  | .v4 address netmask, .v4 ip => decide (ip &&& netmask = address)
  | .v6 address netmask, .v6 ip _ => decide (ip &&& netmask = address)
  | _, _ => false

def IpAddress.isLoopback : IpAddress → Bool
  | .v4 ip => decide (ip.toNat / 2 ^ 24 = 127)
  | .v6 ip _ => decide (ip = 1)

/-- `ip.is_link_local`: in 169.254.0.0/16 or in fe80::/10. -/
def IpAddress.isLinkLocal : IpAddress → Bool
  | .v4 ip => decide (ip.toNat / 2 ^ 16 = 0xA9FE)
  | .v6 ip _ => decide (ip.toNat / 2 ^ 118 = 0x3FA)

end PyIp
