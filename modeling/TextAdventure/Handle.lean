/-!
# Handles

An object of an adventure is named by its handle, its position in the order of registration.
-/

namespace TextAdventure

/-- The position of an object in the order of registration. -/
structure Handle where
  index : Nat
deriving DecidableEq

namespace Handle

instance : Ord Handle := ⟨fun a b => compare a.index b.index⟩

instance : Std.TransOrd Handle where
  eq_swap {a b} := by
    change compare a.index b.index = (compare b.index a.index).swap
    exact Std.OrientedCmp.eq_swap
  isLE_trans {a b c} h₁ h₂ := by
    change (compare a.index b.index).isLE at h₁
    change (compare b.index c.index).isLE at h₂
    change (compare a.index c.index).isLE
    exact Std.TransCmp.isLE_trans h₁ h₂

end Handle

end TextAdventure
