import RopHive.Data.Text
import RopHive.Network.Socket

namespace RopHive.Network

open Text

/-! Endpoints as text: `ipToString`, `ipPortToString` and `parseIpEndpoint`. -/

/-- `inet_ntop` and `inet_pton` of the platform.  Texts are what stands in
front of the terminating NUL. -/
structure Platform where
  inetNtop4 : Vector Byte 4 → Option (List Byte)
  inetNtop6 : Vector Byte 16 → Option (List Byte)
  inetPton4 : List Byte → Option (Vector Byte 4)
  inetPton6 : List Byte → Option (Vector Byte 16)

namespace Endpoint

def dot : Byte := Char.toUInt8 '.'
def colon : Byte := Char.toUInt8 ':'
def percent : Byte := Char.toUInt8 '%'
def leftBracket : Byte := Char.toUInt8 '['
def rightBracket : Byte := Char.toUInt8 ']'

def text (string : String) : List Byte :=
  string.toList.map Char.toUInt8

def isBlank (byte : Byte) : Bool :=
  byte = Char.toUInt8 ' ' ∨ byte = Char.toUInt8 '\t' ∨
    byte = Char.toUInt8 '\n' ∨ byte = Char.toUInt8 '\r'

/-- What a function that takes `std::string(part).c_str()` reads. -/
def cString (part : List Byte) : List Byte :=
  part.takeWhile fun byte => byte ≠ 0

section Format

variable (platform : Platform)

def ipToString : IpEndpoint → List Byte
  | .v4 ip _ => (platform.inetNtop4 ip).getD (text "invalid")
  | .v6 ip _ scopeId =>
      match platform.inetNtop6 ip with
      | none => text "invalid"
      | some address =>
          if scopeId ≠ 0 then address ++ percent :: decimal scopeId.toNat
          else address

def ipPortToString (endpoint : IpEndpoint) : List Byte :=
  match endpoint with
  | .v4 _ port => ipToString platform endpoint ++ colon :: decimal port.toNat
  | .v6 _ port _ =>
      leftBracket :: (ipToString platform endpoint ++
        rightBracket :: colon :: decimal port.toNat)

end Format

section Parse

def parsePort (part : List Byte) : Option UInt16 :=
  if part = [] then none
  else
    match leadingNumber (2 ^ 32) part with
    | some (value, []) => if 65535 < value then none else some (.ofNat value)
    | _ => none

def parseScopeIdNumeric (part : List Byte) : Option UInt32 :=
  if part = [] then none
  else
    match leadingNumber (2 ^ 32) part with
    | some (value, []) => some (.ofNat value)
    | _ => none

variable (platform : Platform)

def parseIpv6WithOptionalScope (ipText : List Byte) (port : UInt16) :
    Option IpEndpoint :=
  match cutFirst percent ipText with
  | some (addrPart, scopePart) => do
      let scopeId ← parseScopeIdNumeric scopePart
      let ip ← platform.inetPton6 (cString addrPart)
      return .v6 ip port scopeId
  | none => do
      let ip ← platform.inetPton6 (cString ipText)
      return .v6 ip port 0

def parseIpv4 (ipText : List Byte) (port : UInt16) : Option IpEndpoint := do
  let ip ← platform.inetPton4 (cString ipText)
  return .v4 ip port

/-- The text after `[`. -/
def parseBracketed (text : List Byte) : Option IpEndpoint :=
  match cutFirst rightBracket text with
  | none => none
  | some (inside, []) => parseIpv6WithOptionalScope platform inside 0
  | some (inside, front :: rest) => do
      if front ≠ colon then none
      else
        let port ← parsePort rest
        parseIpv6WithOptionalScope platform inside port

/-- A text with a dot is taken for IPv4. -/
def parseDotted (text : List Byte) : Option IpEndpoint :=
  match cutLast colon text with
  | some (ipPart, portPart) => do
      let port ← parsePort portPart
      parseIpv4 platform ipPart port
  | none => parseIpv4 platform text 0

def parseIpEndpoint (text : List Byte) : Option IpEndpoint :=
  match trim isBlank text with
  | [] => none
  | front :: rest =>
      if front = leftBracket then parseBracketed platform rest
      else if dot ∈ front :: rest then parseDotted platform (front :: rest)
      else parseIpv6WithOptionalScope platform (front :: rest) 0

end Parse

section Numbers

variable {part : List Byte}

theorem parsePort_eq_some_iff {port : UInt16} :
    parsePort part = some port ↔ Decimal part port.toNat := by
  unfold parsePort
  constructor
  · intro parsed
    split at parsed
    · cases parsed
    · split at parsed
      · next value found =>
          split at parsed
          · cases parsed
          · next small =>
              cases parsed
              have spells := (leadingNumber_all_iff.mp found).1
              rwa [UInt16.toNat_ofNat_of_lt' (by
                simp only [UInt16.size]
                omega)]
      · cases parsed
  · intro spells
    have small := port.toNat_lt
    rw [if_neg spells.1, leadingNumber_all_iff.mpr ⟨spells, by omega⟩]
    simp only
    rw [if_neg (by omega), UInt16.ofNat_toNat]

theorem parseScopeIdNumeric_eq_some_iff {scopeId : UInt32} :
    parseScopeIdNumeric part = some scopeId ↔
      Decimal part scopeId.toNat := by
  unfold parseScopeIdNumeric
  constructor
  · intro parsed
    split at parsed
    · cases parsed
    · split at parsed
      · next value found =>
          cases parsed
          obtain ⟨spells, small⟩ := leadingNumber_all_iff.mp found
          rwa [UInt32.toNat_ofNat_of_lt' (by
            simp only [UInt32.size]
            omega)]
      · cases parsed
  · intro spells
    have small := scopeId.toNat_lt
    rw [if_neg spells.1, leadingNumber_all_iff.mpr ⟨spells, by omega⟩]
    simp only
    rw [UInt32.ofNat_toNat]

end Numbers

end Endpoint

end RopHive.Network
