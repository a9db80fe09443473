import Mathlib.Data.List.DropRight
import Mathlib.Data.Nat.Digits.Defs

/-! Texts as lists of characters: cutting at a mark, trimming, and decimal
numbers. -/

namespace Text

section Cut

variable {Symbol : Type*} [DecidableEq Symbol] {mark : Symbol}
  {text before after : List Symbol}

def cutFirst (mark : Symbol) : List Symbol →
    Option (List Symbol × List Symbol)
  | [] => none
  | symbol :: rest =>
      if symbol = mark then some ([], rest)
      else (cutFirst mark rest).map fun parts => (symbol :: parts.1, parts.2)

def cutLast (mark : Symbol) (text : List Symbol) :
    Option (List Symbol × List Symbol) :=
  (cutFirst mark text.reverse).map fun parts =>
    (parts.2.reverse, parts.1.reverse)

theorem cutFirst_eq_some_iff :
    cutFirst mark text = some (before, after) ↔
      text = before ++ mark :: after ∧ mark ∉ before := by
  induction text generalizing before with
  | nil => simp [cutFirst]
  | cons symbol rest ih =>
      unfold cutFirst
      split
      · next same =>
          subst same
          cases before with
          | nil => simp
          | cons other before =>
              constructor
              · nofun
              · rintro ⟨shape, absent⟩
                cases shape
                exact absurd List.mem_cons_self absent
      · next different =>
          cases before with
          | nil =>
              constructor
              · intro found
                simp at found
              · rintro ⟨shape, _⟩
                cases shape
                exact absurd rfl different
          | cons other before =>
              have tail := @ih before
              simp only [Option.map_eq_some_iff, Prod.mk.injEq,
                List.cons.injEq, Prod.exists, List.cons_append,
                List.mem_cons, not_or]
              constructor
              · rintro ⟨before, after, found, ⟨rfl, rfl⟩, rfl⟩
                obtain ⟨shape, absent⟩ := tail.mp found
                exact ⟨⟨rfl, shape⟩, Ne.symm different, absent⟩
              · rintro ⟨⟨rfl, shape⟩, _, absent⟩
                exact ⟨_, _, tail.mpr ⟨shape, absent⟩, ⟨rfl, rfl⟩, rfl⟩

theorem cutFirst_eq_none_iff : cutFirst mark text = none ↔ mark ∉ text := by
  induction text with
  | nil => simp [cutFirst]
  | cons symbol rest ih =>
      unfold cutFirst
      split
      · next same => simp [same]
      · next different => simp [ih, Ne.symm different]

theorem cutLast_eq_some_iff :
    cutLast mark text = some (before, after) ↔
      text = before ++ mark :: after ∧ mark ∉ after := by
  simp only [cutLast, Option.map_eq_some_iff, Prod.mk.injEq, Prod.exists]
  constructor
  · rintro ⟨tail, head, found, rfl, rfl⟩
    obtain ⟨shape, absent⟩ := cutFirst_eq_some_iff.mp found
    refine ⟨?_, by simpa using absent⟩
    rw [← List.reverse_reverse text, shape]
    simp
  · rintro ⟨rfl, absent⟩
    refine ⟨after.reverse, before.reverse, cutFirst_eq_some_iff.mpr ?_,
      List.reverse_reverse _, List.reverse_reverse _⟩
    simpa using absent

theorem cutLast_eq_none_iff : cutLast mark text = none ↔ mark ∉ text := by
  simp [cutLast, cutFirst_eq_none_iff]

end Cut

section Trim

variable {Symbol : Type*} (blank : Symbol → Bool)

def trim (text : List Symbol) : List Symbol :=
  (text.dropWhile blank).rdropWhile blank

variable {blank} {text : List Symbol}

theorem rdropWhile_append_of_all {back : List Symbol}
    (blanks : ∀ symbol ∈ back, blank symbol = true) :
    (text ++ back).rdropWhile blank = text.rdropWhile blank := by
  unfold List.rdropWhile
  rw [List.reverse_append, List.dropWhile_append_of_pos]
  intro symbol member
  exact blanks symbol (by simpa using member)

theorem trim_of_ends {front back : List Symbol}
    (blanksBefore : ∀ symbol ∈ front, blank symbol = true)
    (blanksAfter : ∀ symbol ∈ back, blank symbol = true)
    (first : ∀ symbol ∈ text.head?, blank symbol = false)
    (last : ∀ symbol ∈ text.getLast?, blank symbol = false)
    (nonempty : text ≠ []) :
    trim blank (front ++ text ++ back) = text := by
  have starts (rest : List Symbol) :
      (text ++ rest).dropWhile blank = text ++ rest := by
    cases text with
    | nil => exact absurd rfl nonempty
    | cons symbol text =>
        rw [List.cons_append, List.dropWhile_cons_of_neg]
        simp [first symbol rfl]
  unfold trim
  rw [List.append_assoc, List.dropWhile_append_of_pos blanksBefore, starts,
    rdropWhile_append_of_all blanksAfter]
  rw [List.rdropWhile_eq_self_iff]
  intro _
  simp [last _ (List.getLast?_eq_getLast_of_ne_nil nonempty)]

end Trim

section Decimal

def digit (symbol : UInt8) : Option Nat :=
  if 48 ≤ symbol ∧ symbol ≤ 57 then some (symbol.toNat - 48) else none

def isDigit (symbol : UInt8) : Bool := (digit symbol).isSome

def numberFrom (value : Nat) : List UInt8 → Option Nat
  | [] => some value
  | symbol :: rest =>
      (digit symbol).bind fun next => numberFrom (10 * value + next) rest

/-- A decimal number: at least one digit, and digits only. -/
def Decimal (text : List UInt8) (value : Nat) : Prop :=
  text ≠ [] ∧ numberFrom 0 text = some value

instance (text : List UInt8) (value : Nat) : Decidable (Decimal text value) :=
  inferInstanceAs (Decidable (_ ∧ _))

def decimal (value : Nat) : List UInt8 :=
  if value = 0 then [48]
  else (Nat.digits 10 value).reverse.map fun next => .ofNat (48 + next)

/-- The longest number in front of the text, if it is below the bound, and the
text behind it. -/
def leadingNumber (bound : Nat) (text : List UInt8) :
    Option (Nat × List UInt8) :=
  let digits := text.takeWhile isDigit
  if digits = [] then none
  else (numberFrom 0 digits).bind fun value =>
    if value < bound then some (value, text.dropWhile isDigit) else none

variable {text : List UInt8} {value : Nat}

theorem digit_ofNat {next : Nat} (small : next < 10) :
    digit (.ofNat (48 + next)) = some next := by
  have all : ∀ next < 10, digit (.ofNat (48 + next)) = some next := by decide
  exact all next small

theorem numberFrom_append (start : Nat) (first second : List UInt8) :
    numberFrom start (first ++ second) =
      (numberFrom start first).bind fun value => numberFrom value second := by
  induction first generalizing start with
  | nil => rfl
  | cons symbol first ih =>
      simp only [List.cons_append, numberFrom]
      cases digit symbol with
      | none => rfl
      | some next => exact ih _

theorem isDigit_of_numberFrom {start : Nat}
    (spells : numberFrom start text = some value) :
    ∀ symbol ∈ text, isDigit symbol = true := by
  induction text generalizing start with
  | nil => nofun
  | cons symbol rest ih =>
      obtain ⟨next, isNext, tail⟩ := Option.bind_eq_some_iff.mp spells
      intro other member
      cases member with
      | head => simp [isDigit, isNext]
      | tail _ inside => exact ih tail other inside

theorem numberFrom_digits (digits : List Nat)
    (small : ∀ next ∈ digits, next < 10) :
    numberFrom 0 (digits.reverse.map fun next => .ofNat (48 + next)) =
      some (Nat.ofDigits 10 digits) := by
  induction digits with
  | nil => rfl
  | cons next digits ih =>
      have tail := ih fun other member => small other (by simp [member])
      have isNext := digit_ofNat (small next (by simp))
      rw [List.reverse_cons, List.map_append, numberFrom_append, tail]
      simp only [List.map_cons, List.map_nil, Option.bind_some, numberFrom,
        isNext, Nat.ofDigits_cons]
      simp only [Option.some.injEq]
      omega

theorem decimal_spells (value : Nat) : Decimal (decimal value) value := by
  unfold decimal
  split
  · next zero =>
      subst zero
      decide
  · next positive =>
      constructor
      · simpa [Nat.digits_eq_nil_iff_eq_zero] using positive
      · rw [numberFrom_digits _ fun next member =>
          Nat.digits_lt_base (by decide) member]
        rw [Nat.ofDigits_digits]

theorem Decimal.isDigit (spells : Decimal text value) :
    ∀ symbol ∈ text, isDigit symbol = true :=
  isDigit_of_numberFrom spells.2

theorem leadingNumber_all_iff {bound : Nat} :
    leadingNumber bound text = some (value, []) ↔
      Decimal text value ∧ value < bound := by
  simp only [leadingNumber]
  constructor
  · intro found
    split at found
    · cases found
    · next nonempty =>
        obtain ⟨number, spells, bounded⟩ := Option.bind_eq_some_iff.mp found
        split at bounded
        · next below =>
            simp only [Option.some.injEq, Prod.mk.injEq] at bounded
            obtain ⟨rfl, rest⟩ := bounded
            have whole : text.takeWhile Text.isDigit = text := by
              have parts := List.takeWhile_append_dropWhile
                (p := Text.isDigit) (l := text)
              rwa [rest, List.append_nil] at parts
            rw [whole] at nonempty spells
            exact ⟨⟨nonempty, spells⟩, below⟩
        · cases bounded
  · rintro ⟨spells, below⟩
    have digits := spells.isDigit
    have whole : text.takeWhile Text.isDigit = text := by
      rw [List.takeWhile_eq_self_iff]
      exact digits
    have rest : text.dropWhile Text.isDigit = [] := by
      rw [List.dropWhile_eq_nil_iff]
      exact digits
    rw [whole, rest, if_neg spells.1, spells.2, Option.bind_some,
      if_pos below]

end Decimal

end Text
