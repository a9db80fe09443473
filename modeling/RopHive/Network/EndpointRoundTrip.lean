import Mathlib.Tactic.IntervalCases
import RopHive.Network.EndpointGrammar

namespace RopHive.Network.Endpoint

open Text

/-! Endpoints that are written out and read back. -/

section Addresses

def isHexDigit (byte : Byte) : Bool :=
  Text.isDigit byte || (97 ≤ byte && byte ≤ 102) || (65 ≤ byte && byte ≤ 70)

def inAddress4 (byte : Byte) : Bool := Text.isDigit byte || byte = dot

def inAddress6 (byte : Byte) : Bool :=
  isHexDigit byte || byte = colon || byte = dot

/-- `inet_pton` reads back what `inet_ntop` writes, which is an address in the
usual notation. -/
structure RoundTrips (platform : Platform) : Prop where
  trip4 : ∀ ip, ∃ address, platform.inetNtop4 ip = some address ∧
    platform.inetPton4 address = some ip
  trip6 : ∀ ip, ∃ address, platform.inetNtop6 ip = some address ∧
    platform.inetPton6 address = some ip
  text4 : ∀ ip, ∀ address ∈ platform.inetNtop4 ip,
    dot ∈ address ∧ ∀ byte ∈ address, inAddress4 byte = true
  text6 : ∀ ip, ∀ address ∈ platform.inetNtop6 ip,
    ∀ byte ∈ address, inAddress6 byte = true

variable {address : List Byte}

theorem not_mem_of_all {included : Byte → Bool} {byte : Byte}
    (all : ∀ byte ∈ address, included byte = true)
    (excluded : included byte = false) : byte ∉ address := by
  intro member
  rw [all byte member] at excluded
  cases excluded

theorem not_blank_of_inAddress6 {byte : Byte}
    (inside : inAddress6 byte = true) : isBlank byte = false := by
  cases blank : isBlank byte with
  | false => rfl
  | true =>
      obtain rfl | rfl | rfl | rfl := of_decide_eq_true blank <;>
        exact absurd inside (by decide)

theorem not_blank_of_inAddress4 {byte : Byte}
    (inside : inAddress4 byte = true) : isBlank byte = false := by
  cases blank : isBlank byte with
  | false => rfl
  | true =>
      obtain rfl | rfl | rfl | rfl := of_decide_eq_true blank <;>
        exact absurd inside (by decide)

theorem not_blank_of_isDigit {byte : Byte}
    (isDigit : Text.isDigit byte = true) : isBlank byte = false := by
  apply not_blank_of_inAddress4
  simp [inAddress4, isDigit]

theorem last_digit_not_blank {digits : List Byte} {value : Nat}
    (spells : Decimal digits value) (front : List Byte) :
    ∀ byte ∈ (front ++ digits).getLast?, isBlank byte = false := by
  intro byte last
  rw [List.getLast?_append_of_ne_nil _ spells.1] at last
  exact not_blank_of_isDigit
    (spells.isDigit byte (List.mem_of_getLast? last))

end Addresses

section RoundTrip

variable {platform : Platform}

theorem reads_address6 {address : List Byte} {ip : Vector Byte 16}
    (inside : ∀ byte ∈ address, inAddress6 byte = true)
    (accepted : platform.inetPton6 address = some ip) {zone : List Byte}
    {scopeId : UInt32}
    (isZone : zone = [] ∧ scopeId = 0 ∨
      ∃ digits, zone = percent :: digits ∧ Decimal digits scopeId.toNat) :
    ReadsScoped platform (address ++ zone) ip scopeId := by
  have mark : percent ∉ address := not_mem_of_all inside (by decide)
  have whole : cString address = address :=
    cString_eq (not_mem_of_all inside (by decide))
  rw [← whole] at accepted
  obtain ⟨rfl, rfl⟩ | ⟨digits, rfl, spells⟩ := isZone
  · rw [List.append_nil]
    exact .plain mark accepted
  · exact .zoned mark accepted spells

theorem ipToString_v6 {ip : Vector Byte 16} {address : List Byte}
    (written : platform.inetNtop6 ip = some address) (port : UInt16)
    (scopeId : UInt32) :
    ∃ zone, ipToString platform (.v6 ip port scopeId) = address ++ zone ∧
      (zone = [] ∧ scopeId = 0 ∨
        ∃ digits, zone = percent :: digits ∧
          Decimal digits scopeId.toNat) := by
  by_cases plain : scopeId = 0
  · exact ⟨[], by simp [ipToString, written, plain], .inl ⟨rfl, plain⟩⟩
  · exact ⟨percent :: decimal scopeId.toNat,
      by simp [ipToString, written, plain],
      .inr ⟨_, rfl, decimal_spells _⟩⟩

theorem reads_ipPortToString (trips : RoundTrips platform)
    (endpoint : IpEndpoint) :
    Reads platform (ipPortToString platform endpoint) endpoint := by
  cases endpoint with
  | v4 ip port =>
      obtain ⟨address, written, accepted⟩ := trips.trip4 ip
      obtain ⟨dotted, inside⟩ := trips.text4 ip address written
      have whole : cString address = address :=
        cString_eq (not_mem_of_all inside (by decide))
      rw [← whole] at accepted
      have noBracket : address.head? ≠ some leftBracket := by
        intro front
        have member := List.mem_of_head? front
        exact not_mem_of_all inside (by decide) member
      simp only [ipPortToString, ipToString, written, Option.getD_some]
      exact .v4Port noBracket dotted accepted (decimal_spells _)
  | v6 ip port scopeId =>
      obtain ⟨address, written, accepted⟩ := trips.trip6 ip
      have inside := trips.text6 ip address written
      obtain ⟨zone, shape, isZone⟩ := ipToString_v6 written port scopeId
      simp only [ipPortToString, shape]
      apply Reads.bracketedPort _ (reads_address6 inside accepted isZone)
        (decimal_spells _)
      have inAddress : rightBracket ∉ address :=
        not_mem_of_all inside (by decide)
      obtain ⟨rfl, _⟩ | ⟨digits, rfl, spells⟩ := isZone
      · simpa using inAddress
      · have inDigits : rightBracket ∉ digits :=
          not_mem_of_all spells.isDigit (by decide)
        have mark : rightBracket ≠ percent := by decide
        simp [inAddress, inDigits, mark]

theorem ends_ipPortToString (trips : RoundTrips platform)
    (endpoint : IpEndpoint) :
    (∀ byte ∈ (ipPortToString platform endpoint).head?,
      isBlank byte = false) ∧
    ∀ byte ∈ (ipPortToString platform endpoint).getLast?,
      isBlank byte = false := by
  cases endpoint with
  | v4 ip port =>
      obtain ⟨address, written, _⟩ := trips.trip4 ip
      obtain ⟨dotted, inside⟩ := trips.text4 ip address written
      have last := last_digit_not_blank (decimal_spells port.toNat)
        (address ++ [colon])
      simp only [ipPortToString, ipToString, written, Option.getD_some]
      constructor
      · intro byte first
        cases address with
        | nil => cases dotted
        | cons front address =>
            cases first
            exact not_blank_of_inAddress4 (inside byte (by simp))
      · simpa using last
  | v6 ip port scopeId =>
      have last := last_digit_not_blank (decimal_spells port.toNat)
        (leftBracket :: (ipToString platform (.v6 ip port scopeId) ++
          [rightBracket, colon]))
      constructor
      · intro byte first
        cases first
        decide
      · simpa [ipPortToString] using last

/-- An endpoint that is written out is read back, with blanks around the text
or without. -/
theorem parse_ipPortToString (trips : RoundTrips platform)
    (endpoint : IpEndpoint) {front back : List Byte}
    (blanksBefore : ∀ byte ∈ front, isBlank byte = true)
    (blanksAfter : ∀ byte ∈ back, isBlank byte = true) :
    parseIpEndpoint platform
      (front ++ ipPortToString platform endpoint ++ back) = some endpoint := by
  apply parse_of_reads
  have reads := reads_ipPortToString trips endpoint
  obtain ⟨first, last⟩ := ends_ipPortToString trips endpoint
  have nonempty : ipPortToString platform endpoint ≠ [] := by
    cases endpoint <;> simp [ipPortToString]
  rwa [trim_of_ends blanksBefore blanksAfter first last nonempty]

end RoundTrip

section Sample

/-! A platform whose texts have full width: three digits for a byte of an IPv4
address, four hexadecimal digits for a group of an IPv6 address. -/

def decimalByte (byte : Byte) : List Byte :=
  [48 + byte / 100, 48 + byte / 10 % 10, 48 + byte % 10]

def hexDigit (value : Byte) : Byte :=
  if value < 10 then 48 + value else 87 + value

def hexByte (byte : Byte) : List Byte :=
  [hexDigit (byte / 16), hexDigit (byte % 16)]

def hexValue (digit : Byte) : Byte :=
  if digit < 58 then digit - 48 else digit - 87

def fullWidth4 (ip : Vector Byte 4) : List Byte :=
  decimalByte ip[0] ++ dot :: (decimalByte ip[1] ++ dot ::
    (decimalByte ip[2] ++ dot :: decimalByte ip[3]))

def fullWidth6 (ip : Vector Byte 16) : List Byte :=
  (List.finRange 16).flatMap fun index =>
    hexByte ip[index] ++
      if index.val % 2 = 1 ∧ index.val ≠ 15 then [colon] else []

def value4 (address : List Byte) : Vector Byte 4 :=
  .ofFn fun index =>
    100 * (address.getD (4 * index) 0 - 48) +
      10 * (address.getD (4 * index + 1) 0 - 48) +
      (address.getD (4 * index + 2) 0 - 48)

def value6 (address : List Byte) : Vector Byte 16 :=
  .ofFn fun index =>
    16 * hexValue (address.getD (2 * index + index / 2) 0) +
      hexValue (address.getD (2 * index + index / 2 + 1) 0)

def fullWidthPlatform : Platform where
  inetNtop4 := fun ip => some (fullWidth4 ip)
  inetNtop6 := fun ip => some (fullWidth6 ip)
  inetPton4 := fun address =>
    if fullWidth4 (value4 address) = address then some (value4 address)
    else none
  inetPton6 := fun address =>
    if fullWidth6 (value6 address) = address then some (value6 address)
    else none

theorem forall_byte {holds : Byte → Bool}
    (all : (List.range 256).all fun value => holds (.ofNat value))
    (byte : Byte) : holds byte = true := by
  have found := List.all_eq_true.mp all byte.toNat
    (List.mem_range.mpr byte.toNat_lt)
  simpa using found

theorem value4_fullWidth4 (ip : Vector Byte 4) :
    value4 (fullWidth4 ip) = ip := by
  have digits : ∀ byte : Byte,
      (100 * (48 + byte / 100 - 48) + 10 * (48 + byte / 10 % 10 - 48) +
        (48 + byte % 10 - 48) == byte) = true :=
    forall_byte (by decide +kernel)
  apply Vector.ext
  intro index inside
  obtain rfl | rfl | rfl | rfl : index = 0 ∨ index = 1 ∨ index = 2 ∨
      index = 3 := by omega
  all_goals
    simp only [value4, Vector.getElem_ofFn]
    exact eq_of_beq (digits _)

theorem value6_fullWidth6 (ip : Vector Byte 16) :
    value6 (fullWidth6 ip) = ip := by
  have digits : ∀ byte : Byte,
      (16 * hexValue (hexDigit (byte / 16)) +
        hexValue (hexDigit (byte % 16)) == byte) = true :=
    forall_byte (by decide +kernel)
  apply Vector.ext
  intro index inside
  simp only [value6, Vector.getElem_ofFn]
  interval_cases index <;> exact eq_of_beq (digits _)

theorem fullWidthPlatform_roundTrips : RoundTrips fullWidthPlatform where
  trip4 := fun ip => ⟨_, rfl, by
    simp [fullWidthPlatform, value4_fullWidth4]⟩
  trip6 := fun ip => ⟨_, rfl, by
    simp [fullWidthPlatform, value6_fullWidth6]⟩
  text4 := by
    rintro ip address ⟨⟩
    have checked : ∀ byte : Byte,
        (decimalByte byte).all inAddress4 = true :=
      forall_byte (by decide +kernel)
    have digits (byte : Byte) := List.all_eq_true.mp (checked byte)
    have mark : inAddress4 dot = true := by decide
    refine ⟨by simp [fullWidth4], ?_⟩
    intro byte member
    simp only [fullWidth4, List.mem_append, List.mem_cons] at member
    grind
  text6 := by
    rintro ip address ⟨⟩
    have checked : ∀ byte : Byte, (hexByte byte).all inAddress6 = true :=
      forall_byte (by decide +kernel)
    have digits (byte : Byte) := List.all_eq_true.mp (checked byte)
    have mark : inAddress6 colon = true := by decide
    intro byte member
    obtain ⟨index, _, inGroup⟩ := List.mem_flatMap.mp member
    obtain inByte | inMark := List.mem_append.mp inGroup
    · exact digits _ byte inByte
    · split at inMark
      · rw [List.mem_singleton.mp inMark]
        exact mark
      · cases inMark

theorem parse_ipPortToString_zoned :
    let endpoint : IpEndpoint := .v6 #v[32, 1, 29, 184, 17, 17, 34, 34, 51, 51,
      68, 68, 85, 85, 102, 102] 443 3
    ipPortToString fullWidthPlatform endpoint =
        Endpoint.text "[2001:1db8:1111:2222:3333:4444:5555:6666%3]:443" ∧
      parseIpEndpoint fullWidthPlatform
        (Endpoint.text " \t" ++ ipPortToString fullWidthPlatform endpoint ++
          Endpoint.text "\n") = some endpoint :=
  ⟨by decide +kernel,
    parse_ipPortToString fullWidthPlatform_roundTrips _ (by decide +kernel)
      (by decide +kernel)⟩

end Sample

section Unbracketed

variable {platform : Platform}

/-- What `inet_pton` takes for an IPv6 address. -/
structure Documented (platform : Platform) : Prop where
  accepted6 : ∀ address, ∀ ip ∈ platform.inetPton6 address,
    colon ∈ address ∧ ∀ byte ∈ address, inAddress6 byte = true

theorem parse_zoned_iff (documented : Documented platform)
    {address zone : List Byte} {ip : Vector Byte 16} {scopeId : UInt32}
    (accepted : platform.inetPton6 address = some ip)
    (isZone : zone = [] ∧ scopeId = 0 ∨
      ∃ digits, zone = percent :: digits ∧ Decimal digits scopeId.toNat) :
    parseIpEndpoint platform (address ++ zone) = some (.v6 ip 0 scopeId) ↔
      dot ∉ address := by
  obtain ⟨isIpv6, inside⟩ := documented.accepted6 address ip accepted
  have nonempty : address ≠ [] := by
    rintro rfl
    cases isIpv6
  have front : (address ++ zone).head? = address.head? := by
    cases address with
    | nil => exact absurd rfl nonempty
    | cons first address => rfl
  have first : ∀ byte ∈ (address ++ zone).head?, isBlank byte = false := by
    rw [front]
    intro byte member
    exact not_blank_of_inAddress6 (inside byte (List.mem_of_head? member))
  have last : ∀ byte ∈ (address ++ zone).getLast?, isBlank byte = false := by
    obtain ⟨rfl, _⟩ | ⟨digits, rfl, spells⟩ := isZone
    · rw [List.append_nil]
      intro byte member
      exact not_blank_of_inAddress6
        (inside byte (List.mem_of_getLast? member))
    · have digit := last_digit_not_blank spells (address ++ [percent])
      simpa using digit
  have trimmed : trim isBlank (address ++ zone) = address ++ zone := by
    have ends := @trim_of_ends _ isBlank (address ++ zone) [] [] nofun nofun
      first last (by simp [nonempty])
    simpa using ends
  have noBracket : (address ++ zone).head? ≠ some leftBracket := by
    rw [front]
    intro starts
    exact not_mem_of_all inside (by decide) (List.mem_of_head? starts)
  constructor
  · intro parsed dotted
    have reads := parseIpEndpoint_eq_some_iff.mp parsed
    rw [trimmed] at reads
    -- a dotted text is only read as IPv4
    have inWhole := List.mem_append_left zone dotted
    generalize address ++ zone = whole at reads noBracket inWhole
    cases reads with
    | v6 _ _ undotted => exact undotted inWhole
    | bracketed => exact noBracket rfl
    | bracketedPort => exact noBracket rfl
  · intro undotted
    apply parse_of_reads
    rw [trimmed]
    apply Reads.v6 (by simp [nonempty]) noBracket _
      (reads_address6 inside accepted isZone)
    obtain ⟨rfl, _⟩ | ⟨digits, rfl, spells⟩ := isZone
    · simpa using undotted
    · have mark : dot ≠ percent := by decide
      simp [undotted, dot_not_mem spells, mark]

/-- Addresses without brackets, as texts and as `ipToString` writes them. -/
theorem parse_unbracketed_iff (documented : Documented platform) :
    (∀ address zone ip scopeId, platform.inetPton6 address = some ip →
      (zone = [] ∧ scopeId = 0 ∨ ∃ digits, zone = percent :: digits ∧
        Decimal digits scopeId.toNat) →
      (parseIpEndpoint platform (address ++ zone) = some (.v6 ip 0 scopeId) ↔
        dot ∉ address)) ∧
    ∀ ip port scopeId address, platform.inetNtop6 ip = some address →
      platform.inetPton6 address = some ip →
      (parseIpEndpoint platform (ipToString platform (.v6 ip port scopeId)) =
        some (.v6 ip 0 scopeId) ↔ dot ∉ address) := by
  constructor
  · intro address zone ip scopeId accepted isZone
    exact parse_zoned_iff documented accepted isZone
  · intro ip port scopeId address written accepted
    obtain ⟨zone, shape, isZone⟩ := ipToString_v6 written port scopeId
    rw [shape]
    exact parse_zoned_iff documented accepted isZone

theorem fullWidthPlatform_documented : Documented fullWidthPlatform where
  accepted6 := by
    intro address ip accepted
    simp only [fullWidthPlatform, Option.mem_def,
      Option.ite_none_right_eq_some] at accepted
    rw [← accepted.1]
    refine ⟨?_, fullWidthPlatform_roundTrips.text6 _ _ rfl⟩
    simp [fullWidth6, List.finRange]

theorem parse_unbracketed_iff_zoned :
    parseIpEndpoint fullWidthPlatform
      (Endpoint.text "2001:1db8:1111:2222:3333:4444:5555:6666" ++
        Endpoint.text "%007") =
      some (.v6 #v[32, 1, 29, 184, 17, 17, 34, 34, 51, 51, 68, 68, 85, 85,
        102, 102] 0 7) :=
  ((parse_unbracketed_iff fullWidthPlatform_documented).1 _ _ _ 7
    (by decide +kernel) (.inr ⟨Endpoint.text "007", by decide, by decide⟩)).mpr
      (by decide +kernel)

def mappedText : List Byte := Endpoint.text "::ffff:1.2.3.4"

def mappedIp : Vector Byte 16 :=
  #v[0, 0, 0, 0, 0, 0, 0, 0, 0, 0, 255, 255, 1, 2, 3, 4]

def mappedPlatform : Platform where
  inetNtop4 := fun _ => none
  inetNtop6 := fun ip => if ip = mappedIp then some mappedText else none
  inetPton4 := fun _ => none
  inetPton6 := fun address =>
    if address = mappedText then some mappedIp else none

theorem mappedText_rejected :
    ¬ ∀ platform, Documented platform →
      ∀ address ip, platform.inetPton6 address = some ip →
        parseIpEndpoint platform address = some (.v6 ip 0 0) := by
  intro claimed
  have documented : Documented mappedPlatform := by
    constructor
    intro address ip accepted
    simp only [mappedPlatform, Option.mem_def,
      Option.ite_none_right_eq_some] at accepted
    rw [accepted.1]
    decide +kernel
  have read := claimed mappedPlatform documented mappedText mappedIp
    (by decide +kernel)
  revert read
  decide +kernel

end Unbracketed

end RopHive.Network.Endpoint
