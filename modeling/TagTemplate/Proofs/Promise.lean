import TagTemplate.Proofs.Lockstep

/-!
# Promises of a run

A run is followed by itself: an invariant of its states, what its results are like, and what is true
when an error ends it.
-/

namespace TagTemplate

open TagTemplate.Action

/-- What holds of the states of a run, and of the error that ends it and its last state. -/
structure Promise where
  holds : State → Prop
  fails : Fault → State → Prop

namespace Promise

variable {α β : Type} {P : Promise} {Q : α → Prop} {R : β → Prop}

inductive Met (P : Promise) (Q : α → Prop) : Except Fault α × State → Prop where
  | ok {x s} : Q x → P.holds s → Met P Q (.ok x, s)
  | error {e s} : P.fails e s → Met P Q (.error e, s)

def Keeps (P : Promise) (Q : α → Prop) (a : Action α) : Prop :=
  ∀ s, P.holds s → P.Met Q (perform a s)

abbrev Safe (P : Promise) (a : Action α) : Prop := P.Keeps (fun _ => True) a

theorem keeps_pure {x : α} (h : Q x) : P.Keeps Q (pure x) := fun _ hs => .ok h hs

theorem safe_pure (x : α) : P.Safe (pure x) := keeps_pure trivial

theorem keeps_fail {e : Fault} (h : ∀ s, P.holds s → P.fails e s) :
    P.Keeps Q (fail e : Action α) :=
  fun s hs => .error (h s hs)

theorem Keeps.bind {a : Action α} {f : α → Action β} (h : P.Keeps Q a)
    (k : ∀ x, Q x → P.Keeps R (f x)) : P.Keeps R (a >>= f) := by
  intro s hs
  have hm := h s hs
  rw [perform_bind]
  generalize perform a s = r at hm
  cases hm with
  | ok hq ht => exact k _ hq _ ht
  | error he => exact .error he

theorem Safe.bind {a : Action α} {f : α → Action β} (h : P.Safe a)
    (k : ∀ x, P.Keeps R (f x)) : P.Keeps R (a >>= f) :=
  Keeps.bind h fun x _ => k x

theorem keeps_observe {f : State → α} (h : ∀ s, P.holds s → Q (f s)) : P.Keeps Q (observe f) :=
  fun s hs => .ok (h s hs) hs

theorem safe_update {f : State → State} (h : ∀ s, P.holds s → P.holds (f s)) :
    P.Safe (update f) :=
  fun s hs => .ok trivial (h s hs)

theorem keeps_ofExcept {r : Except Fault α} (ok : ∀ x, r = .ok x → Q x)
    (error : ∀ e, r = .error e → ∀ s, P.holds s → P.fails e s) : P.Keeps Q (Action.ofExcept r) := by
  cases r with
  | ok x => exact keeps_pure (ok x rfl)
  | error e => exact keeps_fail (error e rfl)

theorem Keeps.mono {R : α → Prop} {a : Action α} (h : P.Keeps Q a) (hq : ∀ x, Q x → R x) :
    P.Keeps R a := by
  intro s hs
  have hm := h s hs
  generalize perform a s = r at hm
  cases hm with
  | ok hx ht => exact .ok (hq _ hx) ht
  | error he => exact .error he

theorem keeps_mapM {f : α → Action β} {xs : List α} (h : ∀ x ∈ xs, P.Keeps R (f x)) :
    P.Keeps (fun ys => ∀ y ∈ ys, R y) (xs.mapM f) := by
  induction xs with
  | nil => exact keeps_pure nofun
  | cons x xs ih =>
    rw [List.mapM_cons]
    refine Keeps.bind (h x List.mem_cons_self) fun y hy => ?_
    refine Keeps.bind (ih fun x hx => h x (List.mem_cons_of_mem _ hx)) fun ys hys => ?_
    exact keeps_pure (List.forall_mem_cons.2 ⟨hy, hys⟩)

end Promise

end TagTemplate
