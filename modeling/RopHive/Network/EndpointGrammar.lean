import RopHive.Network.EndpointText

namespace RopHive.Network.Endpoint

open Text

/-! The texts that `parseIpEndpoint` accepts. -/

section Shapes

variable (platform : Platform)

/-- `address` or `address%n`, cut at the first percent sign. -/
inductive ReadsScoped : List Byte → Vector Byte 16 → UInt32 → Prop
  | plain {part : List Byte} {ip : Vector Byte 16} :
      percent ∉ part → platform.inetPton6 (cString part) = some ip →
      ReadsScoped part ip 0
  | zoned {part digits : List Byte} {ip : Vector Byte 16}
      {scopeId : UInt32} :
      percent ∉ part → platform.inetPton6 (cString part) = some ip →
      Decimal digits scopeId.toNat →
      ReadsScoped (part ++ percent :: digits) ip scopeId

/-- What the parser makes of a text without blanks around it, as it cuts the
text up. -/
inductive Reads : List Byte → IpEndpoint → Prop
  | v4 {part : List Byte} {ip : Vector Byte 4} :
      part.head? ≠ some leftBracket → dot ∈ part → colon ∉ part →
      platform.inetPton4 (cString part) = some ip →
      Reads part (.v4 ip 0)
  | v4Port {part digits : List Byte} {ip : Vector Byte 4} {port : UInt16} :
      part.head? ≠ some leftBracket → dot ∈ part →
      platform.inetPton4 (cString part) = some ip →
      Decimal digits port.toNat →
      Reads (part ++ colon :: digits) (.v4 ip port)
  | v6 {part : List Byte} {ip : Vector Byte 16} {scopeId : UInt32} :
      part ≠ [] → part.head? ≠ some leftBracket → dot ∉ part →
      ReadsScoped platform part ip scopeId →
      Reads part (.v6 ip 0 scopeId)
  | bracketed {part : List Byte} {ip : Vector Byte 16} {scopeId : UInt32} :
      rightBracket ∉ part → ReadsScoped platform part ip scopeId →
      Reads (leftBracket :: (part ++ [rightBracket])) (.v6 ip 0 scopeId)
  | bracketedPort {part digits : List Byte} {ip : Vector Byte 16}
      {port : UInt16} {scopeId : UInt32} :
      rightBracket ∉ part → ReadsScoped platform part ip scopeId →
      Decimal digits port.toNat →
      Reads (leftBracket :: (part ++ rightBracket :: colon :: digits))
        (.v6 ip port scopeId)

end Shapes

section Parser

variable {platform : Platform} {part : List Byte} {endpoint : IpEndpoint}

theorem dot_not_mem {digits : List Byte} {value : Nat}
    (spells : Decimal digits value) : dot ∉ digits := by
  intro member
  have isDigit := spells.isDigit dot member
  revert isDigit
  decide

theorem colon_not_mem {digits : List Byte} {value : Nat}
    (spells : Decimal digits value) : colon ∉ digits := by
  intro member
  have isDigit := spells.isDigit colon member
  revert isDigit
  decide

theorem parseIpv6_eq_some_iff {port : UInt16} :
    parseIpv6WithOptionalScope platform part port = some endpoint ↔
      ∃ ip scopeId, endpoint = .v6 ip port scopeId ∧
        ReadsScoped platform part ip scopeId := by
  unfold parseIpv6WithOptionalScope
  constructor
  · intro parsed
    split at parsed
    · next addrPart scopePart cut =>
        obtain ⟨shape, absent⟩ := cutFirst_eq_some_iff.mp cut
        obtain ⟨scopeId, scope, rest⟩ := Option.bind_eq_some_iff.mp parsed
        obtain ⟨ip, address, same⟩ := Option.bind_eq_some_iff.mp rest
        cases same
        subst shape
        exact ⟨ip, scopeId, rfl,
          .zoned absent address (parseScopeIdNumeric_eq_some_iff.mp scope)⟩
    · next uncut =>
        obtain ⟨ip, address, same⟩ := Option.bind_eq_some_iff.mp parsed
        cases same
        exact ⟨ip, 0, rfl, .plain (cutFirst_eq_none_iff.mp uncut) address⟩
  · rintro ⟨ip, scopeId, rfl, reads⟩
    cases reads with
    | plain absent address =>
        simp [cutFirst_eq_none_iff.mpr absent, address]
    | zoned absent address spells =>
        simp [cutFirst_eq_some_iff.mpr ⟨rfl, absent⟩,
          parseScopeIdNumeric_eq_some_iff.mpr spells, address]

theorem parseIpv4_eq_some_iff {port : UInt16} :
    parseIpv4 platform part port = some endpoint ↔
      ∃ ip, endpoint = .v4 ip port ∧
        platform.inetPton4 (cString part) = some ip := by
  simp only [parseIpv4, Option.bind_eq_bind, Option.bind_eq_some_iff,
    Option.pure_def, Option.some.injEq]
  constructor
  · rintro ⟨ip, address, rfl⟩
    exact ⟨ip, rfl, address⟩
  · rintro ⟨ip, rfl, address⟩
    exact ⟨ip, address, rfl⟩

theorem reads_of_parseBracketed
    (parsed : parseBracketed platform part = some endpoint) :
    Reads platform (leftBracket :: part) endpoint := by
  unfold parseBracketed at parsed
  split at parsed
  · cases parsed
  · next inside cut =>
      obtain ⟨shape, absent⟩ := cutFirst_eq_some_iff.mp cut
      obtain ⟨ip, scopeId, rfl, zone⟩ := parseIpv6_eq_some_iff.mp parsed
      subst shape
      exact .bracketed absent zone
  · next inside front rest cut =>
      obtain ⟨shape, absent⟩ := cutFirst_eq_some_iff.mp cut
      split at parsed
      · cases parsed
      · next isColon =>
          obtain ⟨port, number, address⟩ := Option.bind_eq_some_iff.mp parsed
          obtain ⟨ip, scopeId, rfl, zone⟩ :=
            parseIpv6_eq_some_iff.mp address
          have same : front = colon := not_ne_iff.mp isColon
          subst shape same
          exact .bracketedPort absent zone (parsePort_eq_some_iff.mp number)

theorem reads_of_parseDotted (front : part.head? ≠ some leftBracket)
    (dotted : dot ∈ part)
    (parsed : parseDotted platform part = some endpoint) :
    Reads platform part endpoint := by
  unfold parseDotted at parsed
  split at parsed
  · next ipPart portPart cut =>
      obtain ⟨shape, _⟩ := cutLast_eq_some_iff.mp cut
      obtain ⟨port, number, address⟩ := Option.bind_eq_some_iff.mp parsed
      obtain ⟨ip, rfl, inner⟩ := parseIpv4_eq_some_iff.mp address
      have spells := parsePort_eq_some_iff.mp number
      subst shape
      have inAddress : dot ∈ ipPart := by
        obtain member | member := List.mem_append.mp dotted
        · exact member
        · cases member with
          | tail _ member => exact absurd member (dot_not_mem spells)
      have start : ipPart.head? ≠ some leftBracket := by
        cases ipPart with
        | nil => nofun
        | cons first ipPart => exact front
      exact .v4Port start inAddress inner spells
  · next uncut =>
      obtain ⟨ip, rfl, address⟩ := parseIpv4_eq_some_iff.mp parsed
      exact .v4 front dotted (cutLast_eq_none_iff.mp uncut) address

theorem parse_of_reads {text : List Byte}
    (reads : Reads platform (trim isBlank text) endpoint) :
    parseIpEndpoint platform text = some endpoint := by
  unfold parseIpEndpoint
  generalize trim isBlank text = whole at reads
  cases reads with
  | v4 front dotted absent address =>
      cases whole with
      | nil => cases dotted
      | cons first whole =>
          have start : first ≠ leftBracket := by simpa using front
          simp only [start, dotted, if_true, if_false, parseDotted,
            cutLast_eq_none_iff.mpr absent]
          exact parseIpv4_eq_some_iff.mpr ⟨_, rfl, address⟩
  | @v4Port part digits ip port front dotted address spells =>
      cases part with
      | nil => cases dotted
      | cons first part =>
          have start : first ≠ leftBracket := by simpa using front
          have dotted : dot ∈ first :: (part ++ colon :: digits) :=
            List.mem_append_left (colon :: digits) dotted
          have cut : cutLast colon (first :: (part ++ colon :: digits)) =
              some (first :: part, digits) :=
            cutLast_eq_some_iff.mpr ⟨rfl, colon_not_mem spells⟩
          simp only [List.cons_append, start, dotted, if_true, if_false,
            parseDotted, cut, parsePort_eq_some_iff.mpr spells]
          exact parseIpv4_eq_some_iff.mpr ⟨_, rfl, address⟩
  | v6 nonempty front undotted zone =>
      cases whole with
      | nil => exact absurd rfl nonempty
      | cons first whole =>
          have start : first ≠ leftBracket := by simpa using front
          simp only [start, undotted, if_false]
          exact parseIpv6_eq_some_iff.mpr ⟨_, _, rfl, zone⟩
  | @bracketed part ip scopeId absent zone =>
      have cut : cutFirst rightBracket (part ++ [rightBracket]) =
          some (part, []) := cutFirst_eq_some_iff.mpr ⟨rfl, absent⟩
      simp only [if_true, parseBracketed, cut]
      exact parseIpv6_eq_some_iff.mpr ⟨_, _, rfl, zone⟩
  | @bracketedPort part digits ip port scopeId absent zone spells =>
      have cut : cutFirst rightBracket
          (part ++ rightBracket :: colon :: digits) =
            some (part, colon :: digits) :=
        cutFirst_eq_some_iff.mpr ⟨rfl, absent⟩
      simp only [if_true, parseBracketed, cut, ne_eq, not_true, if_false,
        parsePort_eq_some_iff.mpr spells]
      exact parseIpv6_eq_some_iff.mpr ⟨_, _, rfl, zone⟩

/-- The parser, without its order of tests. -/
theorem parseIpEndpoint_eq_some_iff {text : List Byte} :
    parseIpEndpoint platform text = some endpoint ↔
      Reads platform (trim isBlank text) endpoint := by
  constructor
  · intro parsed
    unfold parseIpEndpoint at parsed
    split at parsed
    · cases parsed
    · next first rest shape =>
        rw [shape]
        split at parsed
        · next isBracket =>
            rw [isBracket]
            exact reads_of_parseBracketed parsed
        · next noBracket =>
            have front : (first :: rest).head? ≠ some leftBracket := by
              simpa using noBracket
            split at parsed
            · next dotted => exact reads_of_parseDotted front dotted parsed
            · next undotted =>
                obtain ⟨ip, scopeId, rfl, zone⟩ :=
                  parseIpv6_eq_some_iff.mp parsed
                exact .v6 (List.cons_ne_nil _ _) front undotted zone
  · exact parse_of_reads

end Parser

section Soundness

variable (platform : Platform)

/-- `v6` or `v6%n`. -/
inductive ZonedAddress : List Byte → Vector Byte 16 → UInt32 → Prop
  | v6 {address : List Byte} {ip : Vector Byte 16} :
      0 ∉ address → platform.inetPton6 address = some ip →
      ZonedAddress address ip 0
  | zoned {address digits : List Byte} {ip : Vector Byte 16}
      {scopeId : UInt32} :
      0 ∉ address → platform.inetPton6 address = some ip →
      Decimal digits scopeId.toNat →
      ZonedAddress (address ++ percent :: digits) ip scopeId

/-- The documented texts, with what they stand for. -/
inductive Grammar : List Byte → IpEndpoint → Prop
  | v4 {address : List Byte} {ip : Vector Byte 4} :
      0 ∉ address → platform.inetPton4 address = some ip →
      Grammar address (.v4 ip 0)
  | v4Port {address digits : List Byte} {ip : Vector Byte 4}
      {port : UInt16} :
      0 ∉ address → platform.inetPton4 address = some ip →
      Decimal digits port.toNat →
      Grammar (address ++ colon :: digits) (.v4 ip port)
  | v6 {zoned : List Byte} {ip : Vector Byte 16} {scopeId : UInt32} :
      ZonedAddress platform zoned ip scopeId →
      Grammar zoned (.v6 ip 0 scopeId)
  | bracketed {zoned : List Byte} {ip : Vector Byte 16} {scopeId : UInt32} :
      ZonedAddress platform zoned ip scopeId →
      Grammar (leftBracket :: (zoned ++ [rightBracket])) (.v6 ip 0 scopeId)
  | bracketedPort {zoned digits : List Byte} {ip : Vector Byte 16}
      {port : UInt16} {scopeId : UInt32} :
      ZonedAddress platform zoned ip scopeId →
      Decimal digits port.toNat →
      Grammar (leftBracket :: (zoned ++ rightBracket :: colon :: digits))
        (.v6 ip port scopeId)

def Sound (text : List Byte) : Prop :=
  ∀ endpoint, parseIpEndpoint platform text = some endpoint →
    Grammar platform (trim isBlank text) endpoint

/-- A NUL stands in the text, and it would be read with the address ending
there. -/
def HidesTail (text : List Byte) : Prop :=
  0 ∈ text ∧ ∃ endpoint, Reads platform text endpoint

variable {platform} {text : List Byte} {endpoint : IpEndpoint}

theorem cString_eq {part : List Byte} (whole : 0 ∉ part) :
    cString part = part := by
  rw [cString, List.takeWhile_eq_self_iff]
  intro byte member
  have nonzero : byte ≠ 0 := by
    intro zero
    exact whole (zero ▸ member)
  simpa using nonzero

theorem zero_not_mem {digits : List Byte} {value : Nat}
    (spells : Decimal digits value) : 0 ∉ digits := by
  intro member
  have isDigit := spells.isDigit 0 member
  revert isDigit
  decide

theorem ZonedAddress.zero_not_mem {zoned : List Byte} {ip : Vector Byte 16}
    {scopeId : UInt32} (address : ZonedAddress platform zoned ip scopeId) :
    0 ∉ zoned := by
  cases address with
  | v6 whole => exact whole
  | zoned whole _ spells =>
      have digits := Endpoint.zero_not_mem spells
      have mark : (0 : Byte) ≠ percent := by decide
      simp [whole, digits, mark]

theorem Grammar.zero_not_mem (grammar : Grammar platform text endpoint) :
    0 ∉ text := by
  have marks : (0 : Byte) ≠ colon ∧ (0 : Byte) ≠ leftBracket ∧
      (0 : Byte) ≠ rightBracket := by decide
  cases grammar with
  | v4 whole => exact whole
  | v4Port whole _ spells =>
      have digits := Endpoint.zero_not_mem spells
      simp [whole, digits, marks]
  | v6 zoned => exact zoned.zero_not_mem
  | bracketed zoned => simp [zoned.zero_not_mem, marks]
  | bracketedPort zoned spells =>
      have digits := Endpoint.zero_not_mem spells
      simp [zoned.zero_not_mem, digits, marks]

theorem zonedAddress_of_reads {part : List Byte} {ip : Vector Byte 16}
    {scopeId : UInt32} (reads : ReadsScoped platform part ip scopeId)
    (whole : 0 ∉ part) : ZonedAddress platform part ip scopeId := by
  cases reads with
  | plain _ address =>
      rw [cString_eq whole] at address
      exact .v6 whole address
  | zoned _ address spells =>
      have inner := fun member => whole (List.mem_append_left _ member)
      rw [cString_eq inner] at address
      exact .zoned inner address spells

theorem grammar_of_reads (reads : Reads platform text endpoint)
    (whole : 0 ∉ text) : Grammar platform text endpoint := by
  cases reads with
  | v4 _ _ _ address =>
      rw [cString_eq whole] at address
      exact .v4 whole address
  | v4Port _ _ address spells =>
      have inner := fun member => whole (List.mem_append_left _ member)
      rw [cString_eq inner] at address
      exact .v4Port inner address spells
  | v6 _ _ _ zone => exact .v6 (zonedAddress_of_reads zone whole)
  | bracketed _ zone =>
      apply Grammar.bracketed
      apply zonedAddress_of_reads zone
      intro member
      exact whole (List.mem_cons_of_mem _ (List.mem_append_left _ member))
  | bracketedPort _ zone spells =>
      apply Grammar.bracketedPort _ spells
      apply zonedAddress_of_reads zone
      intro member
      exact whole (List.mem_cons_of_mem _ (List.mem_append_left _ member))

theorem sound_iff (platform : Platform) (text : List Byte) :
    Sound platform text ↔ ¬ HidesTail platform (trim isBlank text) := by
  constructor
  · rintro sound ⟨hidden, endpoint, reads⟩
    have grammar := sound endpoint (parse_of_reads reads)
    exact grammar.zero_not_mem hidden
  · intro shown endpoint parsed
    have reads := parseIpEndpoint_eq_some_iff.mp parsed
    apply grammar_of_reads reads
    intro hidden
    exact shown ⟨hidden, endpoint, reads⟩

def loopbackPlatform : Platform where
  inetNtop4 := fun _ => none
  inetNtop6 := fun _ => none
  inetPton4 := fun address =>
    if address = Endpoint.text "127.0.0.1" then some loopback
    else none
  inetPton6 := fun _ => none

def hiddenTail : List Byte :=
  Endpoint.text "127.0.0.1" ++ 0 :: Endpoint.text "tail"

theorem hiddenTail_accepted :
    ¬ ∀ platform text, Sound platform text := by
  intro claimed
  have accepted : parseIpEndpoint loopbackPlatform hiddenTail =
      some (.v4 loopback 0) := by decide +kernel
  have grammar := claimed loopbackPlatform hiddenTail _ accepted
  apply grammar.zero_not_mem
  decide +kernel

end Soundness

end RopHive.Network.Endpoint
