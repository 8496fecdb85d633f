import BatchNorm.Failure

/-!
# Lists element by element

Two lists of the same length are combined element by element; a single number
stands for every element of the other list.
-/

set_option autoImplicit false

namespace BatchNorm

/-- Combines two lists element by element. A list of one element is repeated to
the length of the other; other lengths do not fit. -/
def broadcast {α β γ : Type} (f : α → β → γ) (xs : List α) (ys : List β) :
    Except Failure (List γ) :=
  match xs, ys with
  | [x], ys => .ok (ys.map (f x))
  | xs, [y] => .ok (xs.map (f · y))
  | xs, ys =>
    if xs.length = ys.length then .ok (List.zipWith f xs ys) else misuse .lengthMismatch

/-- Combines a list with another one of the same length or of one element; the
first list keeps its length. -/
def broadcastInto {α β : Type} (f : α → β → α) (xs : List α) (ys : List β) :
    Except Failure (List α) :=
  match ys with
  | [y] => .ok (xs.map (f · y))
  | ys => if xs.length = ys.length then .ok (List.zipWith f xs ys) else misuse .lengthMismatch

theorem broadcast_of_length_eq {α β γ : Type} (f : α → β → γ) {xs : List α} {ys : List β}
    (h : xs.length = ys.length) : broadcast f xs ys = .ok (List.zipWith f xs ys) := by
  unfold broadcast
  split
  · match ys, h with
    | [y], _ => rfl
  · match xs, h with
    | [x], _ => rfl
  · simp [h]

theorem broadcastInto_of_length_eq {α β : Type} (f : α → β → α) {xs : List α} {ys : List β}
    (h : xs.length = ys.length) : broadcastInto f xs ys = .ok (List.zipWith f xs ys) := by
  unfold broadcastInto
  split
  · match xs, h with
    | [x], _ => rfl
  · exact if_pos h

end BatchNorm
