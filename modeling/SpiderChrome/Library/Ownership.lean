import Mathlib.Logic.Basic

/-!
# Keys and their owners

Something is kept under a key as long as some owner can still take it out, and several kinds of owners may have a hold on one key. A step hands keys over, takes owners away and enters new keys. What has to be looked at is little: the keys that are new, and those that an owner had whom the step touches.
-/

namespace Ownership

variable {Owner Key : Type}

/-- Every key has an owner. -/
def Owned (owns : Owner → Key → Prop) (keys : Key → Prop) : Prop :=
  ∀ key, keys key → ∃ owner, owns owner key

/-- The key has an owner that is none of these. -/
def Elsewhere (owns : Owner → Key → Prop) (touched : Owner → Prop) (key : Key) : Prop :=
  ∃ owner, ¬ touched owner ∧ owns owner key

variable {owns owns' : Owner → Key → Prop} {keys keys' : Key → Prop} {touched : Owner → Prop}

/-- Fewer keys, and owners that have at least the keys they had. -/
theorem Owned.mono (howned : Owned owns keys) (hkeys : ∀ key, keys' key → keys key)
    (howns : ∀ owner key, keys' key → owns owner key → owns' owner key) : Owned owns' keys' := by
  intro key hkey
  obtain ⟨owner, howner⟩ := howned key (hkeys key hkey)
  exact ⟨owner, howns owner key hkey howner⟩

theorem owned_iff_of_touched (hsame : ∀ owner key, ¬ touched owner → (owns' owner key ↔ owns owner key))
    (howned : Owned owns keys) :
    Owned owns' keys' ↔ ∀ key, keys' key →
      (¬ keys key ∨ ∃ owner, touched owner ∧ owns owner key) → ∃ owner, owns' owner key := by
  constructor
  · exact fun h key hkey _ => h key hkey
  · intro h key hkey
    by_cases hold : keys key
    · obtain ⟨owner, howner⟩ := howned key hold
      by_cases htouched : touched owner
      · exact h key hkey (Or.inr ⟨owner, htouched, howner⟩)
      · exact ⟨owner, (hsame owner key htouched).2 howner⟩
    · exact h key hkey (Or.inl hold)

/-- The touched owners lose all that they had, and the keys stay. -/
theorem owned_iff_of_lost (hsame : ∀ owner key, ¬ touched owner → (owns' owner key ↔ owns owner key))
    (hlost : ∀ owner key, touched owner → ¬ owns' owner key) (howned : Owned owns keys) :
    Owned owns' keys ↔
      ∀ owner key, touched owner → owns owner key → keys key → Elsewhere owns touched key := by
  rw [owned_iff_of_touched hsame howned]
  constructor
  · intro h owner key htouched howner hkey
    obtain ⟨owner', howner'⟩ := h key hkey (Or.inr ⟨owner, htouched, howner⟩)
    have huntouched : ¬ touched owner' := fun htouched' => hlost owner' key htouched' howner'
    exact ⟨owner', huntouched, (hsame owner' key huntouched).1 howner'⟩
  · rintro h key hkey (hold | ⟨owner, htouched, howner⟩)
    · exact absurd hkey hold
    · obtain ⟨owner', huntouched, howner'⟩ := h owner key htouched howner hkey
      exact ⟨owner', (hsame owner' key huntouched).2 howner'⟩

end Ownership
