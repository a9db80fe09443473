import Mathlib.Data.List.Perm.Basic
import Mathlib.Data.List.Nodup
import Mathlib.Logic.Function.Basic

/-! Resources with one owner each.  An owner has a field for one resource;
running code may have further ones in hand, on their way between fields. -/

/-- Every live resource is in one field, or in hand once, and nothing else is
in either. -/
structure Linear {Owner Resource : Type*} (field : Owner → Option Resource)
    (hand : List Resource) (live : Resource → Bool) : Prop where
  unique : ∀ first second resource, field first = some resource →
    field second = some resource → first = second
  apart : ∀ owner resource, field owner = some resource → resource ∉ hand
  nodup : hand.Nodup
  field_live : ∀ owner resource, field owner = some resource →
    live resource = true
  hand_live : ∀ resource ∈ hand, live resource = true
  owned : ∀ resource, live resource = true →
    resource ∈ hand ∨ ∃ owner, field owner = some resource

namespace Linear

variable {Owner Resource : Type*} {field : Owner → Option Resource}
  {hand : List Resource} {live : Resource → Bool}

theorem start : Linear (fun _ : Owner => none) ([] : List Resource)
    fun _ => false where
  unique := nofun
  apart := nofun
  nodup := .nil
  field_live := nofun
  hand_live := nofun
  owned := nofun

theorem live_iff (linear : Linear field [] live) (resource : Resource) :
    live resource = true ↔ ∃! owner, field owner = some resource := by
  constructor
  · intro isLive
    obtain inHand | ⟨owner, holds⟩ := linear.owned resource isLive
    · cases inHand
    · exact ⟨owner, holds, fun other also =>
        linear.unique other owner resource also holds⟩
  · rintro ⟨owner, holds, _⟩
    exact linear.field_live owner resource holds

theorem perm {other : List Resource} (linear : Linear field hand live)
    (same : hand.Perm other) : Linear field other live where
  unique := linear.unique
  apart := fun owner resource holds member =>
    linear.apart owner resource holds (same.mem_iff.mpr member)
  nodup := same.nodup_iff.mp linear.nodup
  field_live := linear.field_live
  hand_live := fun resource member =>
    linear.hand_live resource (same.mem_iff.mpr member)
  owned := fun resource isLive =>
    (linear.owned resource isLive).imp same.mem_iff.mp id

section Moves

variable [DecidableEq Owner]

theorem take (linear : Linear field hand live) (owner : Owner) :
    Linear (Function.update field owner none)
      ((field owner).toList ++ hand) live where
  unique := by
    intro first second resource holds also
    rw [Function.update_apply] at holds also
    split at holds
    · cases holds
    · split at also
      · cases also
      · exact linear.unique first second resource holds also
  apart := by
    intro other resource holds
    rw [Function.update_apply] at holds
    split at holds
    · cases holds
    · next different =>
        intro member
        obtain taken | inHand := List.mem_append.mp member
        · have held : field owner = some resource := by simpa using taken
          exact different (linear.unique other owner resource holds held)
        · exact linear.apart other resource holds inHand
  nodup := by
    cases held : field owner with
    | none => exact linear.nodup
    | some resource =>
        exact List.nodup_cons.mpr
          ⟨linear.apart owner resource held, linear.nodup⟩
  field_live := by
    intro other resource holds
    rw [Function.update_apply] at holds
    split at holds
    · cases holds
    · exact linear.field_live other resource holds
  hand_live := by
    intro resource member
    obtain taken | inHand := List.mem_append.mp member
    · exact linear.field_live owner resource (by simpa using taken)
    · exact linear.hand_live resource inHand
  owned := by
    intro resource isLive
    obtain inHand | ⟨other, holds⟩ := linear.owned resource isLive
    · exact .inl (List.mem_append_right _ inHand)
    · by_cases same : other = owner
      · left
        rw [same] at holds
        simp [holds]
      · right
        exact ⟨other, by rw [Function.update_of_ne same, holds]⟩

theorem put {resource : Option Resource}
    (linear : Linear field (resource.toList ++ hand) live) {owner : Owner}
    (empty : field owner = none) :
    Linear (Function.update field owner resource) hand live := by
  have inHand (held : Resource) (isHeld : resource = some held) :
      held ∈ resource.toList ++ hand := by simp [isHeld]
  refine
    { unique := ?_
      apart := ?_
      nodup := (List.nodup_append.mp linear.nodup).2.1
      field_live := ?_
      hand_live := fun held member =>
        linear.hand_live held (List.mem_append_right _ member)
      owned := ?_ }
  · intro first second held holds also
    rw [Function.update_apply] at holds also
    split at holds
    · next isFirst =>
        split at also
        · next isSecond => exact isFirst.trans isSecond.symm
        · exact absurd (inHand held holds) (linear.apart second held also)
    · split at also
      · exact absurd (inHand held also) (linear.apart first held holds)
      · exact linear.unique first second held holds also
  · intro other held holds
    rw [Function.update_apply] at holds
    split at holds
    · subst holds
      exact (List.nodup_cons.mp linear.nodup).1
    · intro member
      exact linear.apart other held holds (List.mem_append_right _ member)
  · intro other held holds
    rw [Function.update_apply] at holds
    split at holds
    · exact linear.hand_live held (inHand held holds)
    · exact linear.field_live other held holds
  · intro held isLive
    obtain member | ⟨other, holds⟩ := linear.owned held isLive
    · obtain filled | kept := List.mem_append.mp member
      · right
        exact ⟨owner, by simpa using filled⟩
      · exact .inl kept
    · right
      have different : other ≠ owner := by
        rintro rfl
        rw [empty] at holds
        cases holds
      exact ⟨other, by rw [Function.update_of_ne different, holds]⟩

end Moves

section Life

variable [DecidableEq Resource]

theorem acquire (linear : Linear field hand live) {resource : Resource}
    (fresh : live resource = false) :
    Linear field (resource :: hand) (Function.update live resource true) where
  unique := linear.unique
  apart := by
    intro owner held holds member
    obtain rfl | inHand := List.mem_cons.mp member
    · have isLive := linear.field_live owner held holds
      rw [fresh] at isLive
      cases isLive
    · exact linear.apart owner held holds inHand
  nodup := by
    refine List.nodup_cons.mpr ⟨?_, linear.nodup⟩
    intro inHand
    have isLive := linear.hand_live resource inHand
    rw [fresh] at isLive
    cases isLive
  field_live := by
    intro owner held holds
    rw [Function.update_apply]
    split
    · rfl
    · exact linear.field_live owner held holds
  hand_live := by
    intro held member
    rw [Function.update_apply]
    split
    · rfl
    · next different =>
        obtain same | inHand := List.mem_cons.mp member
        · exact absurd same different
        · exact linear.hand_live held inHand
  owned := by
    intro held isLive
    rw [Function.update_apply] at isLive
    split at isLive
    · next same => exact .inl (by simp [same])
    · exact (linear.owned held isLive).imp_left (List.mem_cons_of_mem _)

theorem release {resource : Resource}
    (linear : Linear field (resource :: hand) live) :
    Linear field hand (Function.update live resource false) where
  unique := linear.unique
  apart := by
    intro owner held holds inHand
    exact linear.apart owner held holds (List.mem_cons_of_mem _ inHand)
  nodup := (List.nodup_cons.mp linear.nodup).2
  field_live := by
    intro owner held holds
    have different : held ≠ resource := by
      rintro rfl
      exact linear.apart owner held holds (List.mem_cons_self ..)
    rw [Function.update_of_ne different]
    exact linear.field_live owner held holds
  hand_live := by
    intro held inHand
    have different : held ≠ resource := by
      rintro rfl
      exact (List.nodup_cons.mp linear.nodup).1 inHand
    rw [Function.update_of_ne different]
    exact linear.hand_live held (List.mem_cons_of_mem _ inHand)
  owned := by
    intro held isLive
    rw [Function.update_apply] at isLive
    split at isLive
    · cases isLive
    · next different =>
        obtain member | owned := linear.owned held isLive
        · exact .inl ((List.mem_cons.mp member).resolve_left different)
        · exact .inr owned

end Life

end Linear
