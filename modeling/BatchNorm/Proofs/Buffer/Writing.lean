import BatchNorm.Proofs.Buffer.Reading

/-!
# Writing a cell

Writing inside of a buffer cannot fail (`write_eq_ok`), and it changes what is read at
that place and nowhere else. As the offset tells held positions apart, a write at one
position leaves the others as they are (`floatAt_set_offset`), and a write beyond the
layout leaves all of them.
-/

set_option autoImplicit false

namespace BatchNorm

namespace Buffer

/-- The buffer with another element at a place. -/
def set (b : Buffer) (i : Int) (x : b.type.Carrier) : Buffer :=
  { b with values := b.values.setIfInBounds i.toNat x }

variable {b : Buffer} {i j : Int} {x : b.type.Carrier}

@[simp] theorem size_set : (b.set i x).size = b.size := Array.size_setIfInBounds

@[simp] theorem type_set : (b.set i x).type = b.type := rfl

theorem write_eq_ok (h : b.Inside i) : b.write i x = .ok (b.set i x) := by
  simp only [write, place_eq_ok h, ok_bind, pure_eq_ok, set, Array.setIfInBounds, h.toNat_lt,
    dif_pos]

theorem floatAt_set_self (h : b.Inside i) : (b.set i x).floatAt i = b.type.toFloat x := by
  have helement : (b.set i x).element i = x := by
    show (b.values.setIfInBounds i.toNat x).getD i.toNat b.type.zero = x
    rw [Array.getD_eq_getD_getElem?, Array.getElem?_setIfInBounds_self_of_lt h.toNat_lt,
      Option.getD_some]
  exact congrArg b.type.toFloat helement

theorem floatAt_set_ne (hi : 0 ≤ i) (hj : 0 ≤ j) (hij : i ≠ j) :
    (b.set i x).floatAt j = b.floatAt j := by
  have hne : i.toNat ≠ j.toNat := by omega
  have helement : (b.set i x).element j = b.element j := by
    show (b.values.setIfInBounds i.toNat x).getD j.toNat b.type.zero = b.values.getD j.toNat _
    rw [Array.getD_eq_getD_getElem?, Array.getElem?_setIfInBounds_ne hne,
      ← Array.getD_eq_getD_getElem?]
  exact congrArg b.type.toFloat helement

end Buffer

namespace Layout

variable {l : Layout} {b : Buffer} {x : b.type.Carrier} {p q : Position}

/-- A write at a held position is read there, and at no other held position. -/
theorem floatAt_set_offset (hsize : l.size ≤ b.size) (hp : l.Holds p) (hq : l.Holds q) :
    (b.set (l.offset p) x).floatAt (l.offset q) =
      if q = p then b.type.toFloat x else b.floatAt (l.offset q) := by
  by_cases hqp : q = p
  · rw [hqp, if_pos rfl]
    exact Buffer.floatAt_set_self (inside_of_holds hsize hp)
  · rw [if_neg hqp]
    exact Buffer.floatAt_set_ne (offset_nonneg hp) (offset_nonneg hq)
      fun heq => hqp (offset_injective hp hq heq).symm

/-- A write beyond the layout is read at no held position. -/
theorem floatAt_set_beyond {i : Int} (hi : l.size ≤ i) (hq : l.Holds q) :
    (b.set i x).floatAt (l.offset q) = b.floatAt (l.offset q) := by
  have hlt := offset_lt_size hq
  exact Buffer.floatAt_set_ne (by omega) (offset_nonneg hq) (by omega)

end Layout

end BatchNorm
