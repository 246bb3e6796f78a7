import Mathlib.Data.List.Forall2

/-!
# Traversals that stop at the first error

`List.mapM` in `Except` applies a function to the elements of a list in turn and stops at the first
error. It succeeds when every element does (`mapM_eq_ok_iff`), and its error is that of the first
element which has one (`mapM_eq_error_iff`).

Two traversals of one list are compared side by side. Where the two outcomes for each element are
`Alike`, both errors or both results and related as such, so are the outcomes for the list
(`mapM_alike`), with results that are related place by place (`Each`).
-/

set_option autoImplicit false
set_option relaxedAutoImplicit false

namespace Connectors.Traversal

variable {α β γ ε : Type} {f : α → Except ε β}

/-- What succeeds after something else comes after a result of it. -/
theorem exists_of_bind_eq_ok {first : Except ε α} {y : β} (hbind : first >>= f = .ok y) :
    ∃ x, first = .ok x ∧ f x = .ok y := by
  cases first with
  | error e => cases hbind
  | ok x => exact ⟨x, rfl, hbind⟩

theorem mapM_cons_of_ok {x : α} {y : β} (hx : f x = .ok y) (xs : List α) :
    (x :: xs).mapM f = (xs.mapM f).map (y :: ·) := by
  rw [List.mapM_cons, hx]
  rfl

theorem mapM_cons_of_error {x : α} {e : ε} (hx : f x = .error e) (xs : List α) :
    (x :: xs).mapM f = .error e := by
  rw [List.mapM_cons, hx]
  rfl

theorem mapM_congr {g : α → Except ε β} {xs : List α} (hfun : ∀ x ∈ xs, f x = g x) :
    xs.mapM f = xs.mapM g := by
  induction xs with
  | nil => rfl
  | cons x xs ih =>
    obtain ⟨hx, hxs⟩ := List.forall_mem_cons.mp hfun
    rw [List.mapM_cons, List.mapM_cons, hx, ih hxs]

/-- What is related place by place matters only for the elements that there are. -/
theorem forall₂_congr_of_mem {R S : α → β → Prop} {xs : List α} {ys : List β}
    (hrelated : ∀ x ∈ xs, ∀ y, R x y ↔ S x y) : List.Forall₂ R xs ys ↔ List.Forall₂ S xs ys := by
  rw [List.forall₂_iff_zip, List.forall₂_iff_zip]
  refine and_congr_right fun _ ↦ forall_congr' fun x ↦ forall_congr' fun y ↦ ?_
  exact forall_congr' fun hpair ↦ hrelated x (List.of_mem_zip hpair).1 y

/-- A traversal succeeds exactly when each element does, with the results in order. -/
theorem mapM_eq_ok_iff {xs : List α} {ys : List β} :
    xs.mapM f = .ok ys ↔ List.Forall₂ (fun x y ↦ f x = .ok y) xs ys := by
  induction xs generalizing ys with
  | nil => simp [pure, Except.pure, eq_comm]
  | cons x xs ih =>
    rw [List.forall₂_cons_left_iff]
    cases hx : f x with
    | error e => simp [mapM_cons_of_error hx]
    | ok y =>
      rw [mapM_cons_of_ok hx]
      cases hxs : xs.mapM f with
      | error e =>
        have hnone : ∀ zs, ¬ List.Forall₂ (fun x y ↦ f x = .ok y) xs zs := fun zs hzs ↦ by
          simp [ih.mpr hzs] at hxs
        simp [Except.map, hnone]
      | ok zs =>
        have hall : ∀ ws, List.Forall₂ (fun x y ↦ f x = .ok y) xs ws ↔ zs = ws := fun ws ↦ by
          rw [← ih, hxs, Except.ok.injEq]
        simp [Except.map, hall, eq_comm]

/-- A traversal fails exactly with the error of the first element that has one. -/
theorem mapM_eq_error_iff {xs : List α} {e : ε} :
    xs.mapM f = .error e ↔ ∃ before x after, xs = before ++ x :: after ∧
      (∀ y ∈ before, ∃ z, f y = .ok z) ∧ f x = .error e := by
  constructor
  · intro hfail
    induction xs with
    | nil => cases hfail
    | cons x xs ih =>
      cases hx : f x with
      | error e' =>
        rw [mapM_cons_of_error hx] at hfail
        exact ⟨[], x, xs, rfl, by simp, Except.error.inj hfail ▸ hx⟩
      | ok y =>
        have hrest : xs.mapM f = .error e := by
          rw [mapM_cons_of_ok hx] at hfail
          cases hxs : xs.mapM f <;> simp_all [Except.map]
        obtain ⟨before, x', after, rfl, hbefore, hx'⟩ := ih hrest
        exact ⟨x :: before, x', after, rfl, List.forall_mem_cons.mpr ⟨⟨y, hx⟩, hbefore⟩, hx'⟩
  · rintro ⟨before, x, after, rfl, hbefore, hx⟩
    induction before with
    | nil => exact mapM_cons_of_error hx after
    | cons y before ih =>
      obtain ⟨⟨z, hy⟩, hrest⟩ := List.forall_mem_cons.mp hbefore
      rw [List.cons_append, mapM_cons_of_ok hy, ih hrest]
      rfl

/-! ### Two traversals side by side -/

/-- Two outcomes that are both errors or both results, and are related as such. -/
inductive Alike (E : ε → ε → Prop) (V : β → β → Prop) : Except ε β → Except ε β → Prop
  | error {e e' : ε} (herror : E e e') : Alike E V (.error e) (.error e')
  | ok {y y' : β} (hresult : V y y') : Alike E V (.ok y) (.ok y')

/-- Two lists of results for one list, related place by place as the elements ask. -/
inductive Each (V : α → β → β → Prop) : List α → List β → List β → Prop
  | nil : Each V [] [] []
  | cons {x : α} {y y' : β} {xs : List α} {ys ys' : List β} (hfirst : V x y y')
      (hrest : Each V xs ys ys') : Each V (x :: xs) (y :: ys) (y' :: ys')

variable {E : ε → ε → Prop}

theorem Alike.refl {V : β → β → Prop} (herror : ∀ e, E e e) (hresult : ∀ y, V y y)
    (outcome : Except ε β) : Alike E V outcome outcome := by
  cases outcome with
  | error e => exact .error (herror e)
  | ok y => exact .ok (hresult y)

theorem Alike.map {V : β → β → Prop} {W : γ → γ → Prop} {h h' : β → γ} {first second : Except ε β}
    (halike : Alike E V first second) (hresult : ∀ y y', V y y' → W (h y) (h' y')) :
    Alike E W (first.map h) (second.map h') := by
  cases halike with
  | error herror => exact .error herror
  | ok hrelated => exact .ok (hresult _ _ hrelated)

/-- Results that are equal at each place are equal. -/
theorem Each.eq {xs : List α} {ys ys' : List β} (heach : Each (fun _ ↦ Eq) xs ys ys') :
    ys = ys' := by
  induction heach with
  | nil => rfl
  | cons hfirst _ ih => rw [hfirst, ih]

theorem Each.getElem? {V : α → β → β → Prop} {xs : List α} {ys ys' : List β}
    (heach : Each V xs ys ys') {index : Nat} {x : α} (hx : xs[index]? = some x) :
    ∃ y y', ys[index]? = some y ∧ ys'[index]? = some y' ∧ V x y y' := by
  induction heach generalizing index with
  | nil => simp at hx
  | @cons _ y y' _ _ _ hfirst _ ih =>
    cases index with
    | zero =>
      obtain rfl : _ = x := by simpa using hx
      exact ⟨y, y', rfl, rfl, hfirst⟩
    | succ index => exact ih hx

/-- Traversals with outcomes that are alike for each element are alike. -/
theorem mapM_alike {V : α → β → β → Prop} {g : α → Except ε β} {xs : List α}
    (hfun : ∀ x ∈ xs, Alike E (V x) (f x) (g x)) : Alike E (Each V xs) (xs.mapM f) (xs.mapM g) := by
  induction xs with
  | nil => exact .ok .nil
  | cons x xs ih =>
    obtain ⟨hx, hxs⟩ := List.forall_mem_cons.mp hfun
    generalize hfx : f x = first at hx
    generalize hgx : g x = second at hx
    cases hx with
    | error herror =>
      rw [mapM_cons_of_error hfx, mapM_cons_of_error hgx]
      exact .error herror
    | ok hresult =>
      rw [mapM_cons_of_ok hfx, mapM_cons_of_ok hgx]
      exact (ih hxs).map fun _ _ hrest ↦ .cons hresult hrest

end Connectors.Traversal
