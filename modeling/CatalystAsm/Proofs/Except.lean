import Mathlib.Data.List.Forall2

/-!
# Computations that may fail

Inversion of successful computations, and `Ends`, which says of a computation both what its value
satisfies and which errors it can end with. `Ends` goes through a computation step by step
(`Ends.bind`, `Ends.mapM`), so that one statement covers the successful and the failing runs.
-/

namespace CatalystAsm

variable {ε α β γ : Type}

/-! ## Inversion -/

theorem ok_bind (a : α) (f : α → Except ε β) : (Except.ok a >>= f) = f a := rfl

theorem exists_of_isOk {x : Except ε α} (h : x.isOk = true) : ∃ a, x = .ok a := by
  cases x with
  | ok a => exact ⟨a, rfl⟩
  | error e => cases h

/-- A sequence of two steps succeeds when the first one does and the second one does on its
value. -/
theorem bind_eq_ok_iff {x : Except ε α} {f : α → Except ε β} {r : β} :
    (x >>= f) = .ok r ↔ ∃ a, x = .ok a ∧ f a = .ok r := by
  cases x <;> simp [bind, Except.bind]

/-- Mapping over a list succeeds when it does so element by element. -/
theorem mapM_eq_ok_iff {f : α → Except ε β} {l : List α} {r : List β} :
    l.mapM f = .ok r ↔ List.Forall₂ (fun a b => f a = .ok b) l r := by
  constructor
  · intro h
    induction l generalizing r with
    | nil =>
      cases h
      exact .nil
    | cons a rest ih =>
      rw [List.mapM_cons] at h
      obtain ⟨b, hb, h⟩ := bind_eq_ok_iff.mp h
      obtain ⟨bs, hbs, h⟩ := bind_eq_ok_iff.mp h
      cases h
      exact .cons hb (ih hbs)
  · intro h
    induction h with
    | nil => rfl
    | cons hb _ ih =>
      rw [List.mapM_cons, hb, ih]
      rfl

/-- A loop of steps that succeed and do not end it succeeds. -/
theorem forIn_eq_ok {l : List α} {f : α → PUnit.{1} → Except ε (ForInStep PUnit.{1})}
    (h : ∀ a ∈ l, f a ⟨⟩ = .ok (.yield ⟨⟩)) : forIn l PUnit.unit f = .ok ⟨⟩ := by
  induction l with
  | nil => rfl
  | cons a rest ih =>
    rw [List.forIn_cons, h a List.mem_cons_self, ok_bind]
    exact ih fun x hx => h x (List.mem_cons_of_mem a hx)

/-- The partner of an element of a list. -/
theorem exists_getElem?_of_forall₂ {R : α → β → Prop} {l : List α} {r : List β}
    (h : List.Forall₂ R l r) {i : Nat} {a : α} (ha : l[i]? = some a) :
    ∃ b, r[i]? = some b ∧ R a b := by
  obtain ⟨hi, rfl⟩ := List.getElem?_eq_some_iff.mp ha
  have hr : i < r.length := h.length_eq ▸ hi
  exact ⟨r[i], List.getElem?_eq_getElem hr, h.get hi hr⟩

/-- Partners with the same image make equal lists of images. -/
theorem map_eq_map_of_forall₂ {f : α → γ} {g : β → γ} {l : List α} {r : List β}
    (h : List.Forall₂ (fun a b => f a = g b) l r) : l.map f = r.map g := by
  rw [← List.forall₂_eq_eq_eq, List.forall₂_map_left_iff, List.forall₂_map_right_iff]
  exact h

/-- Partners of partners. -/
theorem forall₂_trans {R : α → β → Prop} {S : β → γ → Prop} {T : α → γ → Prop}
    (hT : ∀ {a b c}, R a b → S b c → T a c) {l : List α} {r : List β} {t : List γ}
    (hR : List.Forall₂ R l r) (hS : List.Forall₂ S r t) : List.Forall₂ T l t := by
  induction hR generalizing t with
  | nil =>
    cases hS
    exact .nil
  | cons hab _ ih =>
    obtain _ | ⟨hbc, hrest⟩ := hS
    exact .cons (hT hab hbc) (ih hrest)

/-- Partners of pairs of partners. -/
theorem forall₂_of_zip {R : α → β → Prop} {S : α × β → γ → Prop} {T : α → γ → Prop}
    (hT : ∀ {a b c}, R a b → S (a, b) c → T a c) {l : List α} {r : List β} {t : List γ}
    (hR : List.Forall₂ R l r) (hS : List.Forall₂ S (l.zip r) t) : List.Forall₂ T l t := by
  induction hR generalizing t with
  | nil =>
    cases hS
    exact .nil
  | cons hab _ ih =>
    obtain _ | ⟨hbc, hrest⟩ := hS
    exact .cons (hT hab hbc) (ih hrest)

/-! ## Outcomes -/

/-- The value of a computation satisfies `P`, or its error satisfies `E`. -/
def Ends (E : ε → Prop) (P : α → Prop) : Except ε α → Prop
  | .ok a => P a
  | .error e => E e

namespace Ends

variable {E E' : ε → Prop} {P P' : α → Prop} {Q : β → Prop}

/-- The value satisfies what is asked of values. -/
theorem of_eq_ok {x : Except ε α} {a : α} (hx : Ends E P x) (h : x = .ok a) : P a := by
  subst h
  exact hx

/-- The error satisfies what is asked of errors. -/
theorem of_eq_error {x : Except ε α} {e : ε} (hx : Ends E P x) (h : x = .error e) : E e := by
  subst h
  exact hx

/-- Less may be asked of values and errors. -/
theorem mono {x : Except ε α} (hx : Ends E P x) (hE : ∀ e, E e → E' e) (hP : ∀ a, P a → P' a) :
    Ends E' P' x := by
  cases x with
  | ok a => exact hP a hx
  | error e => exact hE e hx

/-- What two steps end with, from what each of them ends with. -/
theorem bind {x : Except ε α} {f : α → Except ε β} (hx : Ends E P x)
    (hf : ∀ a, P a → Ends E Q (f a)) : Ends E Q (x >>= f) := by
  cases x with
  | ok a => exact hf a hx
  | error e => exact hx

/-- What mapping over a list ends with, from what each element ends with. -/
theorem mapM {f : α → Except ε β} {l : List α} (hf : ∀ a ∈ l, Ends E Q (f a)) :
    Ends E (fun r => ∀ b ∈ r, Q b) (l.mapM f) := by
  induction l with
  | nil => exact fun b hb => absurd hb List.not_mem_nil
  | cons a rest ih =>
    rw [List.mapM_cons]
    refine (hf a List.mem_cons_self).bind fun b hb => ?_
    refine (ih fun x hx => hf x (List.mem_cons_of_mem a hx)).bind fun bs hbs => ?_
    intro c hc
    rcases List.mem_cons.mp hc with rfl | hc
    · exact hb
    · exact hbs c hc

end Ends

end CatalystAsm
