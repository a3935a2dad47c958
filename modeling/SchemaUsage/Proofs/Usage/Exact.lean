import Mathlib.Logic.Relation
import SchemaUsage.Usage.Mark

/-!
# Collections that may fail

What is collected piece by piece is a list, or the reason why there is none. `Exact r fits holds`
tells everything about such a result `r` in which order and repetition mean nothing: it is there if
and only if `fits`, and what is in it is what `holds`. Results that are put together from parts are
exact for the conjunction of what must fit and for the disjunction of what holds.

* `joined` puts one result behind another, `gather` the results for all items of a list.
* `Everywhere step p a` and `Somewhere step q a` speak of all places that can be reached from `a`.

Results:
- `Exact.joined`, `Exact.gather`: the parts of a result tell what the whole is.
- `everywhere_iff`, `somewhere_iff`: what is in reach of a place is the place itself and what is in
  reach of the places one step behind it.
-/

namespace SchemaUsage.Usage

open Relation

variable {ε α β : Type}

/-! ## Joining -/

/-- One list behind another; the first failure counts. -/
def joined (r q : Except ε (List α)) : Except ε (List α) := do
  let xs ← r
  let ys ← q
  pure (xs ++ ys)

/-- The lists for the items of a list, one behind another. -/
def gather (f : β → Except ε (List α)) : List β → Except ε (List α)
  | [] => .ok []
  | x :: xs => joined (f x) (gather f xs)

theorem joined_eq_ok {r q : Except ε (List α)} {zs : List α} :
    joined r q = .ok zs ↔ ∃ xs ys, r = .ok xs ∧ q = .ok ys ∧ zs = xs ++ ys := by
  cases r with
  | error e => simp [joined, bind, Except.bind]
  | ok xs =>
    cases q with
    | error e => simp [joined, bind, Except.bind]
    | ok ys => simp [joined, bind, Except.bind, pure, Except.pure, eq_comm]

theorem nil_joined (r : Except ε (List α)) : joined (.ok []) r = r := by
  cases r <;> rfl

theorem joined_nil (r : Except ε (List α)) : joined r (.ok []) = r := by
  cases r <;> simp [joined, bind, Except.bind, pure, Except.pure]

theorem gather_congr {f g : β → Except ε (List α)} {xs : List β} (h : ∀ x ∈ xs, f x = g x) :
    gather f xs = gather g xs := by
  induction xs with
  | nil => rfl
  | cons x xs ih =>
    rw [gather, gather, h x List.mem_cons_self, ih fun y hy => h y (List.mem_cons_of_mem x hy)]

/-! ## Exact results -/

/-- **What a result is**: it is there if and only if `fits`, and then holds what `holds`. -/
structure Exact (r : Except ε (List α)) (fits : Prop) (holds : α → Prop) : Prop where
  ok_iff : (∃ xs, r = .ok xs) ↔ fits
  mem_iff : ∀ {xs}, r = .ok xs → ∀ x, x ∈ xs ↔ holds x

namespace Exact

variable {r q : Except ε (List α)} {p p' : Prop} {a a' : α → Prop}

theorem ok {xs : List α} (h : ∀ x, x ∈ xs ↔ a x) : Exact (.ok xs : Except ε (List α)) True a :=
  ⟨⟨fun _ => trivial, fun _ => ⟨xs, rfl⟩⟩, fun {ys} hy => by cases hy; exact h⟩

theorem error (e : ε) (hp : ¬ p) : Exact (.error e) p a :=
  ⟨⟨fun ⟨_, h⟩ => (nomatch h), fun h => absurd h hp⟩, fun h => nomatch h⟩

theorem nil : Exact (.ok [] : Except ε (List α)) True fun _ => False :=
  ok fun _ => iff_of_false List.not_mem_nil id

theorem single (x : α) : Exact (.ok [x] : Except ε (List α)) True (· = x) :=
  ok fun _ => List.mem_singleton

/-- What holds needs to be told only of a result that is there. -/
theorem congr (h : Exact r p a) (hp : p ↔ p') (ha : p' → ∀ x, a x ↔ a' x) : Exact r p' a' :=
  ⟨h.ok_iff.trans hp, fun hr x =>
    (h.mem_iff hr x).trans (ha (hp.mp (h.ok_iff.mp ⟨_, hr⟩)) x)⟩

theorem joined (hr : Exact r p a) (hq : Exact q p' a') :
    Exact (joined r q) (p ∧ p') fun x => a x ∨ a' x := by
  refine ⟨?_, fun {zs} hz x => ?_⟩
  · rw [← hr.ok_iff, ← hq.ok_iff]
    constructor
    · rintro ⟨zs, hz⟩
      obtain ⟨xs, ys, hx, hy, -⟩ := joined_eq_ok.mp hz
      exact ⟨⟨xs, hx⟩, ⟨ys, hy⟩⟩
    · rintro ⟨⟨xs, hx⟩, ⟨ys, hy⟩⟩
      exact ⟨xs ++ ys, joined_eq_ok.mpr ⟨xs, ys, hx, hy, rfl⟩⟩
  · obtain ⟨xs, ys, hx, hy, rfl⟩ := joined_eq_ok.mp hz
    rw [List.mem_append, hr.mem_iff hx, hq.mem_iff hy]

theorem gather {f : β → Except ε (List α)} {fits : β → Prop} {holds : β → α → Prop} {xs : List β}
    (h : ∀ x ∈ xs, Exact (f x) (fits x) (holds x)) :
    Exact (gather f xs) (∀ x ∈ xs, fits x) fun y => ∃ x ∈ xs, holds x y := by
  induction xs with
  | nil => exact nil.congr (by simp) (by simp)
  | cons x xs ih =>
    have first := h x List.mem_cons_self
    have others := ih fun y hy => h y (List.mem_cons_of_mem x hy)
    refine (first.joined others).congr ?_ fun _ y => ?_
    · rw [List.forall_mem_cons]
    · simp

/-- A result behind a look-up is exact where it is exact for whatever can be found. -/
theorem bind {γ : Type} {look : Except ε γ} {found : γ → Prop} {f : γ → Except ε (List α)}
    {fits : γ → Prop} {holds : γ → α → Prop} (finds : ∀ c, look = .ok c ↔ found c)
    (h : ∀ c, Exact (f c) (fits c) (holds c)) :
    Exact (look >>= f) (∃ c, found c ∧ fits c) fun x => ∃ c, found c ∧ holds c x := by
  cases look with
  | error e =>
    have none (c : γ) : ¬ found c := fun hc => nomatch (finds c).mpr hc
    exact error e fun ⟨c, hc, _⟩ => none c hc
  | ok c =>
    have only (d : γ) : found d ↔ d = c := by rw [← finds, Except.ok.injEq, eq_comm]
    exact (h c).congr (by simp [only]) (by simp [only])

end Exact

/-! ## Everything in reach of a place -/

/-- All places in reach have a property. -/
def Everywhere (step : β → β → Prop) (p : β → Prop) (a : β) : Prop :=
  ∀ b, ReflTransGen step a b → p b

/-- Some place in reach has a property. -/
def Somewhere (step : β → β → Prop) (q : β → Prop) (a : β) : Prop :=
  ∃ b, ReflTransGen step a b ∧ q b

variable {step : β → β → Prop} {p q : β → Prop} {a : β}

theorem everywhere_iff :
    Everywhere step p a ↔ p a ∧ ∀ b, step a b → Everywhere step p b := by
  constructor
  · intro h
    exact ⟨h a .refl, fun b hb c hc => h c (.head hb hc)⟩
  · rintro ⟨here, behind⟩ c hc
    rcases hc.cases_head with rfl | ⟨b, hb, hc⟩
    · exact here
    · exact behind b hb c hc

theorem somewhere_iff :
    Somewhere step q a ↔ q a ∨ ∃ b, step a b ∧ Somewhere step q b := by
  constructor
  · rintro ⟨c, hc, h⟩
    rcases hc.cases_head with rfl | ⟨b, hb, hc⟩
    · exact .inl h
    · exact .inr ⟨b, hb, c, hc, h⟩
  · rintro (h | ⟨b, hb, c, hc, h⟩)
    · exact ⟨a, .refl, h⟩
    · exact ⟨c, .head hb hc, h⟩

end SchemaUsage.Usage
