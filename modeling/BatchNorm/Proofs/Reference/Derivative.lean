import BatchNorm.Proofs.Reference.ExactChannel
import Mathlib

/-!
# Gradients are derivatives

In real arithmetic the two directions of the reference belong together. Take a loss
whose gradient with respect to the normalized output is given; it is linear in the
output, so it is the sum of the products of the two. The gradient with respect to the
input that the backward direction computes is the list of its partial derivatives, and
the gradients with respect to scale and shift are its derivatives in these
(`gradients_are_derivatives`).

Everything is derived along a curve of channels: average, variance and one over the
standard deviation first, then the loss. A partial derivative is the case in which one
value moves.
-/

set_option autoImplicit false

namespace BatchNorm

noncomputable section

instance instSquareRootReal : SquareRoot ℝ := ⟨Real.sqrt⟩

/-- The factor of the normalized values, which is one without affine parameters. -/
def Affine.factor (affine : Option (Affine ℝ)) : ℝ :=
  match affine with
  | none => 1
  | some a => a.scale

/-- The loss with the gradient `grads` with respect to the normalized output. -/
def loss (grads xs : List ℝ) (statistics : Statistics ℝ) (epsilon : ℝ)
    (affine : Option (Affine ℝ)) : ℝ :=
  (List.zipWith (· * ·) grads (normalize xs statistics epsilon affine)).sum

/-- The entries of `ds` are the partial derivatives at `xs` of a function of a list. -/
structure IsGradient (f : List ℝ → ℝ) (xs ds : List ℝ) : Prop where
  length_eq : ds.length = xs.length
  hasDerivAt : ∀ i (hx : i < xs.length) (hd : i < ds.length),
    HasDerivAt (fun x => f (xs.set i x)) ds[i] xs[i]

section

variable {n : ℕ} {t epsilon : ℝ}

/-! ## Along a curve -/

section

variable {x : ℝ → Fin n → ℝ} {v : Fin n → ℝ}

theorem hasDerivAt_average (hx : ∀ j, HasDerivAt (fun s => x s j) (v j) t) :
    HasDerivAt (fun s => average (List.ofFn (x s))) ((∑ j, v j) / n) t := by
  simp only [average_ofFn]
  exact (HasDerivAt.fun_sum fun j _ => hx j).div_const _

/-- The average moves too, but that does not show in the variance: the values cancel
out around it. -/
theorem hasDerivAt_variance (hx : ∀ j, HasDerivAt (fun s => x s j) (v j) t) :
    HasDerivAt (fun s => (Statistics.ofValues (List.ofFn (x s))).variance)
      (2 * (∑ j, (x t j - average (List.ofFn (x t))) * v j) / n) t := by
  have hmean := hasDerivAt_average hx
  have hsquares := HasDerivAt.fun_sum (u := Finset.univ) fun j _ =>
    ((hx j).fun_sub hmean).fun_mul ((hx j).fun_sub hmean)
  simp only [Statistics.ofValues, meanSquare_ofFn]
  refine (hsquares.div_const _).congr_deriv ?_
  congr 1
  generalize (∑ j, v j) / n = m'
  calc ∑ j, ((v j - m') * (x t j - average (List.ofFn (x t))) +
          (x t j - average (List.ofFn (x t))) * (v j - m'))
      = ∑ j, (2 * ((x t j - average (List.ofFn (x t))) * v j) -
          2 * m' * (x t j - average (List.ofFn (x t)))) :=
        Finset.sum_congr rfl fun j _ => by ring
    _ = 2 * ∑ j, (x t j - average (List.ofFn (x t))) * v j := by
        rw [Finset.sum_sub_distrib, ← Finset.mul_sum, ← Finset.mul_sum, sum_sub_average, mul_zero,
          sub_zero]

end

theorem hasDerivAt_inverseDeviation {V : ℝ → ℝ} {V' : ℝ} (hV : HasDerivAt V V' t)
    (hpos : 0 < V t + epsilon) :
    HasDerivAt (fun s => inverseDeviation (V s) epsilon)
      (-(inverseDeviation (V t) epsilon ^ 3 * V' / 2)) t := by
  have hroot : HasDerivAt (fun s => √(V s + epsilon)) (V' / (2 * √(V t + epsilon))) t :=
    (hV.add_const epsilon).sqrt hpos.ne'
  have hne : √(V t + epsilon) ≠ 0 := (Real.sqrt_pos.mpr hpos).ne'
  have hinverse := (hasDerivAt_const t (1 : ℝ)).fun_div hroot hne
  refine hinverse.congr_deriv ?_
  show _ = -((1 / √(V t + epsilon)) ^ 3 * V' / 2)
  field_simp
  ring

theorem hasDerivAt_affine {y : ℝ → ℝ} {y' : ℝ} (affine : Option (Affine ℝ))
    (hy : HasDerivAt y y' t) :
    HasDerivAt (fun s => Affine.apply affine (y s)) (Affine.factor affine * y') t := by
  cases affine with
  | none => exact hy.congr_deriv (one_mul y').symm
  | some a => exact (hy.const_mul a.scale).add_const a.shift

theorem loss_ofFn (g x : Fin n → ℝ) (statistics : Statistics ℝ) (affine : Option (Affine ℝ)) :
    loss (List.ofFn g) (List.ofFn x) statistics epsilon affine =
      ∑ j, g j * Affine.apply affine
        ((x j - statistics.mean) * inverseDeviation statistics.variance epsilon) := by
  rw [loss, normalize, List.map_ofFn, zipWith_ofFn, List.sum_ofFn]
  rfl

theorem hasDerivAt_loss {x : ℝ → Fin n → ℝ} {v : Fin n → ℝ} {statistics : ℝ → Statistics ℝ}
    {mean' inverse' : ℝ} (g : Fin n → ℝ) (affine : Option (Affine ℝ))
    (hx : ∀ j, HasDerivAt (fun s => x s j) (v j) t)
    (hmean : HasDerivAt (fun s => (statistics s).mean) mean' t)
    (hinverse : HasDerivAt (fun s => inverseDeviation (statistics s).variance epsilon) inverse' t) :
    HasDerivAt (fun s => loss (List.ofFn g) (List.ofFn (x s)) (statistics s) epsilon affine)
      (∑ j, g j * (Affine.factor affine *
        ((v j - mean') * inverseDeviation (statistics t).variance epsilon +
          (x t j - (statistics t).mean) * inverse'))) t := by
  simp only [loss_ofFn]
  refine HasDerivAt.fun_sum fun j _ => HasDerivAt.const_mul (g j) ?_
  exact hasDerivAt_affine affine (((hx j).fun_sub hmean).fun_mul hinverse)

/-! ## Moving one value -/

theorem set_ofFn (x : Fin n → ℝ) (i : Fin n) (a : ℝ) :
    (List.ofFn x).set i a = List.ofFn (Function.update x i a) := by
  refine List.ext_getElem (by simp) ?_
  intro j hj hj'
  rw [List.getElem_set, List.getElem_ofFn, List.getElem_ofFn]
  by_cases h : (i : ℕ) = j
  · subst h
    rw [if_pos rfl, Function.update_self]
  · rw [if_neg h, Function.update_of_ne (fun heq => h (congrArg Fin.val heq).symm)]

/-- A function of a list whose derivative in each direction is given by `d` has the
gradient `d`. -/
theorem isGradient_ofFn {f : List ℝ → ℝ} {x d : Fin n → ℝ}
    (h : ∀ i, HasDerivAt (fun a => f (List.ofFn (Function.update x i a)))
      (∑ j, d j * (Pi.single i 1 : Fin n → ℝ) j) (x i)) :
    IsGradient f (List.ofFn x) (List.ofFn d) where
  length_eq := by simp
  hasDerivAt i hx hd := by
    have hi : i < n := by simpa using hx
    have hsum : ∑ j, d j * (Pi.single (⟨i, hi⟩ : Fin n) 1 : Fin n → ℝ) j = d ⟨i, hi⟩ := by
      simp [Pi.single_apply]
    have hset := fun a => set_ofFn x ⟨i, hi⟩ a
    simp only [hset, List.getElem_ofFn]
    exact hsum ▸ h ⟨i, hi⟩

theorem hasDerivAt_update_apply (x : Fin n → ℝ) (i j : Fin n) :
    HasDerivAt (fun a => Function.update x i a j) ((Pi.single i 1 : Fin n → ℝ) j) (x i) :=
  hasDerivAt_pi.mp (hasDerivAt_update x i (x i)) j

/-- What a direction does to the loss when average and variance move with it is what
the corrected gradient says. -/
theorem sum_moved_mul (g x v : Fin n → ℝ) (mean inverse factor : ℝ) :
    ∑ j, g j * (factor * ((v j - (∑ j, v j) / n) * inverse +
        (x j - mean) * -(inverse ^ 3 * (2 * (∑ j, (x j - mean) * v j) / n) / 2))) =
      ∑ j, (g j - correction n mean inverse ⟨inverse * ∑ j, (x j - mean) * g j, ∑ j, g j⟩ (x j)) *
        (factor * inverse) * v j := by
  rw [sum_corrected_mul]
  generalize hsum : ∑ j, v j = a
  generalize hdeviation : ∑ j, (x j - mean) * v j = b
  calc ∑ j, g j * (factor * ((v j - a / n) * inverse +
          (x j - mean) * -(inverse ^ 3 * (2 * b / n) / 2)))
      = ∑ j, (factor * inverse * (g j * v j) - factor * inverse * a / n * g j -
          factor * inverse * (inverse ^ 2 * b / n) * ((x j - mean) * g j)) :=
        Finset.sum_congr rfl fun j _ => by ring
    _ = _ := by
        rw [Finset.sum_sub_distrib, Finset.sum_sub_distrib, ← Finset.mul_sum, ← Finset.mul_sum,
          ← Finset.mul_sum]
        ring

/-- Computed statistics: what the average and the variance add is the correction. -/
theorem isGradient_computed (g x : Fin n → ℝ) (affine : Option (Affine ℝ))
    (hpos : 0 < (Statistics.ofValues (List.ofFn x)).variance + epsilon) :
    let s := Statistics.ofValues (List.ofFn x)
    let inverse := inverseDeviation s.variance epsilon
    let parameters : ParameterGradients ℝ := ⟨inverse * ∑ j, (x j - s.mean) * g j, ∑ j, g j⟩
    IsGradient (fun ys => loss (List.ofFn g) ys (.ofValues ys) epsilon affine) (List.ofFn x)
      (List.ofFn fun j =>
        (g j - correction n s.mean inverse parameters (x j)) * (Affine.factor affine * inverse)) := by
  intro s inverse parameters
  refine isGradient_ofFn fun i => ?_
  have hx := hasDerivAt_update_apply x i
  have hself : Function.update x i (x i) = x := Function.update_eq_self i x
  have hvariance := hasDerivAt_variance hx
  have hpos' : 0 < (Statistics.ofValues (List.ofFn (Function.update x i (x i)))).variance +
      epsilon := by rwa [hself]
  have hinverse := hasDerivAt_inverseDeviation hvariance hpos'
  have hloss := hasDerivAt_loss g affine hx (hasDerivAt_average hx) hinverse
  refine hloss.congr_deriv ?_
  rw [hself]
  exact sum_moved_mul g x _ s.mean inverse (Affine.factor affine)

/-- Supplied statistics do not move. -/
theorem isGradient_supplied (g x : Fin n → ℝ) (s : Statistics ℝ) (affine : Option (Affine ℝ)) :
    IsGradient (fun ys => loss (List.ofFn g) ys s epsilon affine) (List.ofFn x)
      (List.ofFn fun j => g j * (Affine.factor affine * inverseDeviation s.variance epsilon)) := by
  refine isGradient_ofFn fun i => ?_
  have hloss := hasDerivAt_loss g affine (hasDerivAt_update_apply x i)
    (hasDerivAt_const (x i) s.mean) (hasDerivAt_const (x i) (inverseDeviation s.variance epsilon))
  refine hloss.congr_deriv (Finset.sum_congr rfl fun j _ => ?_)
  ring

/-! ## Scale and shift -/

theorem hasDerivAt_scale (g x : Fin n → ℝ) (s : Statistics ℝ) (scale shift : ℝ) :
    HasDerivAt (fun a => loss (List.ofFn g) (List.ofFn x) s epsilon (some ⟨a, shift⟩))
      (inverseDeviation s.variance epsilon * ∑ j, (x j - s.mean) * g j) scale := by
  simp only [loss_ofFn, Affine.apply]
  have hterms := HasDerivAt.fun_sum (u := Finset.univ) fun j _ =>
    (((hasDerivAt_id scale).mul_const
      ((x j - s.mean) * inverseDeviation s.variance epsilon)).add_const shift).const_mul (g j)
  refine hterms.congr_deriv ?_
  rw [Finset.mul_sum]
  exact Finset.sum_congr rfl fun j _ => by ring

theorem hasDerivAt_shift (g x : Fin n → ℝ) (s : Statistics ℝ) (scale shift : ℝ) :
    HasDerivAt (fun b => loss (List.ofFn g) (List.ofFn x) s epsilon (some ⟨scale, b⟩))
      (∑ j, g j) shift := by
  simp only [loss_ofFn, Affine.apply]
  have hterms := HasDerivAt.fun_sum (u := Finset.univ) fun j _ =>
    ((hasDerivAt_id shift).const_add
      (scale * ((x j - s.mean) * inverseDeviation s.variance epsilon))).const_mul (g j)
  exact hterms.congr_deriv (Finset.sum_congr rfl fun j _ => mul_one (g j))

end

/-! ## Both directions -/

/-- **The backward direction is the derivative of the forward direction.** Take the
values of a channel and a gradient with respect to its normalized output. With the
statistics of the values, which move with them, the gradient with respect to the input
consists of the partial derivatives of the loss, and with statistics that are held fixed
it does so without the correction. The gradients with respect to scale and shift are the
derivatives of the loss in these. -/
theorem gradients_are_derivatives (xs grads : List ℝ) (hlength : grads.length = xs.length)
    (hnonempty : xs ≠ []) (epsilon : ℝ) (affine : Option (Affine ℝ)) :
    (let s := Statistics.ofValues xs
      let inverse := inverseDeviation s.variance epsilon
      0 < s.variance + epsilon →
        ∃ parameters ds, parameterGradients xs grads s.mean inverse = .ok parameters ∧
          inputGradient xs grads s.mean inverse parameters (Affine.factor affine) true = .ok ds ∧
          IsGradient (fun ys => loss grads ys (.ofValues ys) epsilon affine) xs ds) ∧
    (∀ s : Statistics ℝ,
      let inverse := inverseDeviation s.variance epsilon
      ∃ parameters ds, parameterGradients xs grads s.mean inverse = .ok parameters ∧
        inputGradient xs grads s.mean inverse parameters (Affine.factor affine) false = .ok ds ∧
        IsGradient (fun ys => loss grads ys s epsilon affine) xs ds ∧
        ∀ scale shift,
          HasDerivAt (fun a => loss grads xs s epsilon (some ⟨a, shift⟩)) parameters.diffScale
            scale ∧
          HasDerivAt (fun b => loss grads xs s epsilon (some ⟨scale, b⟩)) parameters.diffShift
            shift) := by
  -- both lists are functions on the same indices
  obtain ⟨n, x, rfl⟩ : ∃ (n : ℕ) (x : Fin n → ℝ), xs = List.ofFn x :=
    ⟨_, xs.get, (List.ofFn_get xs).symm⟩
  obtain ⟨g, rfl⟩ : ∃ g : Fin n → ℝ, grads = List.ofFn g := by
    obtain rfl : grads.length = n := hlength.trans List.length_ofFn
    exact ⟨grads.get, (List.ofFn_get grads).symm⟩
  have hn : 0 < n := by
    rw [ne_eq, List.ofFn_eq_nil_iff] at hnonempty
    exact Nat.pos_of_ne_zero hnonempty
  constructor
  · intro s inverse hpos
    exact ⟨_, _, parameterGradients_ofFn x g _ _, inputGradient_ofFn_computed hn x g _ _ _ _,
      isGradient_computed g x affine hpos⟩
  · intro s inverse
    refine ⟨_, _, parameterGradients_ofFn x g _ _, inputGradient_ofFn_supplied x g _ _ _ _,
      isGradient_supplied g x s affine, fun scale shift => ⟨?_, ?_⟩⟩
    · exact hasDerivAt_scale g x s scale shift
    · exact hasDerivAt_shift g x s scale shift

theorem gradients_are_derivatives_threeValues :
    0 < (Statistics.ofValues [0, 1, (5 : ℝ)]).variance + 0 ∧
      ∃ parameters ds, parameterGradients [0, 1, 5] [1, 0, (-2 : ℝ)]
          (Statistics.ofValues [0, 1, (5 : ℝ)]).mean
          (inverseDeviation (Statistics.ofValues [0, 1, (5 : ℝ)]).variance 0) = .ok parameters ∧
        inputGradient [0, 1, 5] [1, 0, -2] (Statistics.ofValues [0, 1, (5 : ℝ)]).mean
          (inverseDeviation (Statistics.ofValues [0, 1, (5 : ℝ)]).variance 0) parameters 3 true =
            .ok ds ∧
        IsGradient (fun ys => loss [1, 0, -2] ys (.ofValues ys) 0 (some ⟨3, 7⟩)) [0, 1, 5] ds := by
  have hpos : 0 < (Statistics.ofValues [0, 1, (5 : ℝ)]).variance + 0 := by
    norm_num [Statistics.ofValues, meanSquare, average, PairwiseSum.total_eq_sum]
  have h := gradients_are_derivatives [0, 1, 5] [1, 0, -2] rfl (by simp) 0 (some ⟨3, 7⟩)
  exact ⟨hpos, h.1 hpos⟩

end

end BatchNorm
