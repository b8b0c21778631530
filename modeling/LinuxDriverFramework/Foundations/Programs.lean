import Mathlib.Logic.Basic

/-! # Programs that make calls

A program asks for a service of its surroundings, goes on with the answer, and ends in a value. It
says nothing about what the calls do, so that the surroundings can run many programs in turns.

* `Program`: calls of a type `C`, the answers to a call in `R c`.
* `exec`: the program alone, with a function that performs the calls.
* `Until before stop result`: the calls on every path meet `before` up to the first one that meets
  `stop`; a path without such a call ends in a value that meets `result`.
* `Uses allowed`: all calls on all paths. -/

namespace Foundations
set_option autoImplicit false

inductive Program (C : Type) (R : C → Type) (α : Type)
  | done (a : α)
  | call (c : C) (next : R c → Program C R α)

namespace Program

variable {C : Type} {R : C → Type} {α β : Type}

def bind : Program C R α → (α → Program C R β) → Program C R β
  | .done a, f => f a
  | .call c next, f => .call c fun r => (next r).bind f

instance : Monad (Program C R) where
  pure := .done
  bind := bind

def request (c : C) : Program C R (R c) := .call c .done

def exec {σ : Type} (perform : σ → (c : C) → σ × R c) : Program C R α → σ → σ × α
  | .done a, s => (s, a)
  | .call c next, s => (next (perform s c).2).exec perform (perform s c).1

theorem exec_bind {σ : Type} (perform : σ → (c : C) → σ × R c) (p : Program C R α)
    (f : α → Program C R β) (s : σ) :
    (p >>= f).exec perform s = (f (p.exec perform s).2).exec perform (p.exec perform s).1 := by
  induction p generalizing s with
  | done a => rfl
  | call c next ih => exact ih (perform s c).2 (perform s c).1

theorem exec_pure {σ : Type} (perform : σ → (c : C) → σ × R c) (a : α) (s : σ) :
    (pure a : Program C R α).exec perform s = (s, a) := rfl

theorem exec_request {σ : Type} (perform : σ → (c : C) → σ × R c) (c : C) (s : σ) :
    (request c : Program C R (R c)).exec perform s = perform s c := rfl

/-! ## What happens on every path -/

def Until (before stop : C → Prop) (result : α → Prop) : Program C R α → Prop
  | .done a => result a
  | .call c next => stop c ∨ before c ∧ ∀ r, (next r).Until before stop result

def Uses (allowed : C → Prop) (p : Program C R α) : Prop :=
  p.Until allowed (fun _ => False) fun _ => True

/-! ## Allowed calls -/

variable {allowed : C → Prop}

theorem uses_pure (a : α) : (pure a : Program C R α).Uses allowed := trivial

theorem uses_request {c : C} (h : allowed c) : (request c : Program C R (R c)).Uses allowed :=
  .inr ⟨h, fun _ => trivial⟩

theorem uses_bind {p : Program C R α} {f : α → Program C R β} (h : p.Uses allowed)
    (hf : ∀ a, (f a).Uses allowed) : (p >>= f).Uses allowed := by
  induction p with
  | done a => exact hf a
  | call c next ih =>
    obtain ⟨hc, hnext⟩ := h.resolve_left id
    exact .inr ⟨hc, fun r => ih r (hnext r)⟩

theorem uses_map {p : Program C R α} {f : α → β} (h : p.Uses allowed) :
    (f <$> p).Uses allowed := uses_bind h fun a => uses_pure (f a)

theorem Uses.head {c : C} {next : R c → Program C R α} (h : (call c next).Uses allowed) :
    allowed c := (h.resolve_left id).1

theorem Uses.next {c : C} {next : R c → Program C R α} (h : (call c next).Uses allowed) (r : R c) :
    (next r).Uses allowed := (h.resolve_left id).2 r

end Program

end Foundations
