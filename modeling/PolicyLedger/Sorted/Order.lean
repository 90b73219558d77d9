namespace PolicyLedger

/-- Any two keys compare under the strict order `<`. -/
class KeyOrder (κ : Type) [LT κ] : Prop where
  irrefl : ∀ a : κ, ¬ a < a
  trans : ∀ {a b c : κ}, a < b → b < c → a < c
  total : ∀ a b : κ, a < b ∨ a = b ∨ b < a

theorem KeyOrder.asymm {κ : Type} [LT κ] [KeyOrder κ] {a b : κ} (below : a < b) : ¬ b < a :=
  fun above => KeyOrder.irrefl a (KeyOrder.trans below above)

theorem KeyOrder.ne {κ : Type} [LT κ] [KeyOrder κ] {a b : κ} (below : a < b) : a ≠ b :=
  fun equal => KeyOrder.irrefl b (equal ▸ below)

/-- Texts compare by their code points, which is also the order of their UTF-8 bytes. -/
instance : KeyOrder String where
  irrefl := String.lt_irrefl
  trans := String.lt_trans
  total a b := by
    by_cases below : a < b
    · exact .inl below
    · by_cases above : b < a
      · exact .inr (.inr above)
      · exact .inr (.inl (String.le_antisymm (String.not_lt.mp above) (String.not_lt.mp below)))

instance : KeyOrder Nat where
  irrefl := Nat.lt_irrefl
  trans := Nat.lt_trans
  total := Nat.lt_trichotomy

instance : KeyOrder UInt64 where
  irrefl := UInt64.lt_irrefl
  trans := UInt64.lt_trans
  total a b := by
    rcases Nat.lt_trichotomy a.toNat b.toNat with below | equal | above
    · exact .inl (UInt64.lt_iff_toNat_lt.mpr below)
    · exact .inr (.inl (UInt64.toNat_inj.mp equal))
    · exact .inr (.inr (UInt64.lt_iff_toNat_lt.mpr above))

end PolicyLedger
