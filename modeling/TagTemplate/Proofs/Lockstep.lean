import TagTemplate.Action
import Mathlib.Data.List.Forall2

/-!
# Actions in lockstep

Two runs are compared action by action: related states lead to related results and related states.
An error of the first run either is the second run's error too, or it excuses the second run from
everything. With equal states on both sides this is an invariant of one run.
-/

namespace TagTemplate

namespace Action

variable {α β : Type}

@[simp] theorem perform_pure (x : α) (s : State) : perform (pure x) s = (.ok x, s) := rfl

@[simp] theorem perform_fail (e : Fault) (s : State) :
    perform (fail e : Action α) s = (.error e, s) := rfl

@[simp] theorem perform_ofExcept (r : Except Fault α) (s : State) :
    perform (ofExcept r) s = (r, s) := by
  cases r <;> rfl

@[simp] theorem perform_observe (f : State → α) (s : State) :
    perform (observe f) s = (.ok (f s), s) := rfl

@[simp] theorem perform_update (f : State → State) (s : State) :
    perform (update f) s = (.ok (), f s) := rfl

@[simp] theorem perform_attempt (a : Action α) (s : State) :
    perform (attempt a) s = (.ok (perform a s).1, (perform a s).2) := rfl

@[simp] theorem perform_thenAlways (a : Action α) (f : State → State) (s : State) :
    perform (thenAlways a f) s = ((perform a s).1, f (perform a s).2) := rfl

theorem perform_recover (caught : Fault → Bool) (a handler : Action α) (s : State) :
    perform (recover caught a handler) s =
      match perform a s with
      | (.ok x, t) => (.ok x, t)
      | (.error e, t) => if caught e then perform handler t else (.error e, t) := rfl

theorem perform_bind (a : Action α) (f : α → Action β) (s : State) :
    perform (a >>= f) s =
      match perform a s with
      | (.ok x, t) => perform (f x) t
      | (.error e, t) => (.error e, t) := by
  simp only [perform, bind, ExceptT.bind, ExceptT.mk, StateT.bind, ExceptT.bindCont]
  cases a s with
  | mk result t => cases result <;> rfl

theorem perform_map (f : α → β) (a : Action α) (s : State) :
    perform (f <$> a) s = ((perform a s).1.map f, (perform a s).2) := by
  rw [map_eq_pure_bind, perform_bind]
  rcases perform a s with ⟨_ | _, t⟩ <;> rfl

theorem perform_bind_ok {a : Action α} {f : α → Action β} {s t : State} {x : α}
    (h : perform a s = (.ok x, t)) : perform (a >>= f) s = perform (f x) t := by
  rw [perform_bind, h]

theorem perform_bind_error {a : Action α} {f : α → Action β} {s : State} {e : Fault}
    (h : (perform a s).1 = .error e) : (perform (a >>= f) s).1 = .error e := by
  rw [perform_bind]
  rcases ha : perform a s with ⟨e' | x, t⟩
  · rw [ha] at h
    exact congrArg Except.error (Except.error.inj h)
  · rw [ha] at h
    cases h

theorem perform_bind_congr {a : Action α} {f g : α → Action β} {s : State}
    (h : ∀ x t, perform a s = (.ok x, t) → perform (f x) t = perform (g x) t) :
    perform (a >>= f) s = perform (a >>= g) s := by
  rw [perform_bind, perform_bind]
  rcases ha : perform a s with ⟨e | x, t⟩
  · rfl
  · exact h x t ha

theorem exists_of_perform_bind {a : Action α} {f : α → Action β} {s s' : State} {y : β}
    (h : perform (a >>= f) s = (.ok y, s')) :
    ∃ x s₁, perform a s = (.ok x, s₁) ∧ perform (f x) s₁ = (.ok y, s') := by
  rw [perform_bind] at h
  rcases ha : perform a s with ⟨e | x, s₁⟩
  · rw [ha] at h
    cases h
  · rw [ha] at h
    exact ⟨x, s₁, rfl, h⟩

theorem exists_of_perform_mapM_cons {f : α → Action β} {x : α} {xs : List α} {ys : List β}
    {s s' : State} (h : perform ((x :: xs).mapM f) s = (.ok ys, s')) :
    ∃ y s₁ ys', ys = y :: ys' ∧ perform (f x) s = (.ok y, s₁) ∧
      perform (xs.mapM f) s₁ = (.ok ys', s') := by
  rw [List.mapM_cons] at h
  obtain ⟨y, s₁, hx, h⟩ := exists_of_perform_bind h
  obtain ⟨ys', s₂, hxs, h⟩ := exists_of_perform_bind h
  cases h
  exact ⟨y, s₁, ys', rfl, hx, hxs⟩

theorem mapM_congr {f g : α → Action β} {xs : List α} (h : ∀ x ∈ xs, f x = g x) :
    xs.mapM f = xs.mapM g := by
  induction xs with
  | nil => rfl
  | cons x xs ih =>
    rw [List.mapM_cons, List.mapM_cons, h x List.mem_cons_self,
      ih fun y hy => h y (List.mem_cons_of_mem x hy)]

end Action

/-- How the states of two runs correspond, the errors of the first run that excuse the second, the
errors that both may end with, and what is left of the correspondence once they have: all of it,
unless less is asked for. -/
structure Lockstep where
  states : State → State → Prop
  excused : Fault → Prop := fun _ => False
  allowed : Fault → Prop := fun _ => True
  ended : State → State → Prop := states
  ended_of_states : ∀ {s t}, states s t → ended s t := by exact fun h => h

namespace Lockstep

open TagTemplate.Action

variable {α α' β β' : Type} {L : Lockstep} {Q : α → β → Prop} {R : α' → β' → Prop}

inductive Outcome (L : Lockstep) (Q : α → β → Prop) :
    Except Fault α × State → Except Fault β × State → Prop where
  | ok {x y s t} : Q x y → L.states s t → Outcome L Q (.ok x, s) (.ok y, t)
  | error {e s t} : L.allowed e → L.ended s t → Outcome L Q (.error e, s) (.error e, t)
  | excused {e s r} : L.excused e → Outcome L Q (.error e, s) r

def Relates (L : Lockstep) (Q : α → β → Prop) (a : Action α) (b : Action β) : Prop :=
  ∀ s t, L.states s t → L.Outcome Q (perform a s) (perform b t)

abbrev Agrees (L : Lockstep) (a b : Action α) : Prop := L.Relates Eq a b

abbrev Gives (L : Lockstep) (P : α → Prop) (a b : Action α) : Prop :=
  L.Relates (fun x y => x = y ∧ P x) a b

theorem Outcome.mono {Q' : α → β → Prop} {r r'} (h : L.Outcome Q r r')
    (hQ : ∀ x y, Q x y → Q' x y) : L.Outcome Q' r r' := by
  cases h with
  | ok hq hs => exact .ok (hQ _ _ hq) hs
  | error he hs => exact .error he hs
  | excused he => exact .excused he

theorem Relates.mono {Q' : α → β → Prop} {a : Action α} {b : Action β} (h : L.Relates Q a b)
    (hQ : ∀ x y, Q x y → Q' x y) : L.Relates Q' a b :=
  fun s t hs => (h s t hs).mono hQ

theorem optionRel_refl (m : Option α) : Option.Rel Eq m m := by
  cases m with
  | none => exact .none
  | some x => exact .some rfl

theorem Agrees.found {a b : Action (Option α)} (h : L.Agrees a b) :
    L.Relates (Option.Rel Eq) a b := by
  refine h.mono ?_
  rintro m _ rfl
  exact optionRel_refl m

theorem relates_pure {x : α} {y : β} (h : Q x y) : L.Relates Q (pure x) (pure y) :=
  fun _ _ hs => .ok h hs

theorem agrees_pure (x : α) : L.Agrees (pure x) (pure x) := relates_pure rfl

theorem relates_fail {e : Fault} (h : L.allowed e) :
    L.Relates Q (fail e : Action α) (fail e : Action β) :=
  fun _ _ hs => .error h (L.ended_of_states hs)

theorem relates_of_excused {e : Fault} {b : Action β} (h : L.excused e) :
    L.Relates Q (fail e : Action α) b :=
  fun _ _ _ => .excused h

theorem Relates.bind {a : Action α} {b : Action β} {f : α → Action α'} {g : β → Action β'}
    (h : L.Relates Q a b) (k : ∀ x y, Q x y → L.Relates R (f x) (g y)) :
    L.Relates R (a >>= f) (b >>= g) := by
  intro s t hs
  have ho := h s t hs
  rw [perform_bind, perform_bind]
  generalize perform a s = r at ho
  generalize perform b t = r' at ho
  cases ho with
  | ok hq hs' => exact k _ _ hq _ _ hs'
  | error he hs' => exact .error he hs'
  | excused he => exact .excused he

theorem Agrees.bind {a b : Action α} {f : α → Action α'} {g : α → Action β'} (h : L.Agrees a b)
    (k : ∀ x, L.Relates R (f x) (g x)) : L.Relates R (a >>= f) (b >>= g) :=
  Relates.bind h fun x _ hx => hx ▸ k x

theorem Agrees.map {a b : Action α} {f : α → β} (h : L.Agrees a b) :
    L.Agrees (do return f (← a)) (do return f (← b)) :=
  Agrees.bind h fun x => agrees_pure (f x)

section Gives

variable {P : α → Prop} {a b : Action α}

theorem gives_pure {x : α} (h : P x) : L.Gives P (pure x) (pure x) := relates_pure ⟨rfl, h⟩

theorem Gives.agrees (h : L.Gives P a b) : L.Agrees a b := h.mono fun _ _ hx => hx.1

theorem Agrees.gives (h : L.Agrees a b) (hP : ∀ x, P x) : L.Gives P a b :=
  h.mono fun x _ hx => ⟨hx, hP x⟩

theorem Gives.bind {f : α → Action α'} {g : α → Action β'} (h : L.Gives P a b)
    (k : ∀ x, P x → L.Relates R (f x) (g x)) : L.Relates R (a >>= f) (b >>= g) :=
  Relates.bind h fun x _ hx => hx.1 ▸ k x hx.2

end Gives

theorem relates_observe {f : State → α} {g : State → β} (h : ∀ s t, L.states s t → Q (f s) (g t)) :
    L.Relates Q (observe f) (observe g) :=
  fun s t hs => .ok (h s t hs) hs

theorem agrees_update {f g : State → State} (h : ∀ s t, L.states s t → L.states (f s) (g t)) :
    L.Agrees (update f) (update g) :=
  fun s t hs => .ok rfl (h s t hs)

theorem Relates.after_update {a : Action α} {b : Action β} (h : L.Relates Q a b)
    {f : State → State} (hf : ∀ s t, L.states s t → L.states s (f t)) :
    L.Relates Q a (update f >>= fun _ => b) := by
  intro s t hs
  rw [perform_bind, perform_update]
  exact h s (f t) (hf s t hs)

theorem agrees_ofExcept {r : Except Fault α} (h : ∀ e, r = .error e → L.allowed e) :
    L.Agrees (Action.ofExcept r) (Action.ofExcept r) := by
  cases r with
  | ok x => exact agrees_pure x
  | error e => exact relates_fail (h e rfl)

def strict (L : Lockstep) : Lockstep :=
  { states := L.states, allowed := L.allowed }

theorem Gives.attempt {P : α → Prop} {a b : Action α} (h : L.strict.Gives P a b) :
    L.Gives (fun r => (∀ x, r = .ok x → P x) ∧ ∀ e, r = .error e → L.allowed e) (attempt a)
      (attempt b) := by
  intro s t hs
  have ho := h s t hs
  rw [perform_attempt, perform_attempt]
  generalize perform a s = r at ho
  generalize perform b t = r' at ho
  cases ho with
  | ok hq hs' =>
    exact .ok ⟨congrArg Except.ok hq.1, fun _ h => Except.ok.inj h ▸ hq.2, nofun⟩ hs'
  | error he hs' => exact .ok ⟨rfl, nofun, fun _ h => Except.error.inj h ▸ he⟩ hs'
  | excused he => exact he.elim

theorem Relates.attempt {a b : Action α} (h : L.strict.Agrees a b) :
    L.Gives (fun r => ∀ e, r = .error e → L.allowed e) (attempt a) (attempt b) :=
  (h.gives fun _ => trivial).attempt.mono fun _ _ hr => ⟨hr.1, hr.2.2⟩

/-- An error after which the second run is not excused from anything and nothing of the
correspondence has been lost. -/
structure Recovers (L : Lockstep) (e : Fault) : Prop where
  unexcused : ¬ L.excused e
  states : ∀ {s t}, L.ended s t → L.states s t

theorem Relates.recover {a a' : Action α} {b b' : Action β} {caught : Fault → Bool}
    (hcaught : ∀ e, caught e → L.Recovers e) (h : L.Relates Q a b) (h' : L.Relates Q a' b') :
    L.Relates Q (recover caught a a') (recover caught b b') := by
  intro s t hs
  have ho := h s t hs
  rw [perform_recover, perform_recover]
  generalize perform a s = r at ho
  generalize perform b t = r' at ho
  cases ho with
  | ok hq hs' => exact .ok hq hs'
  | @error e s' t' he hs' =>
    dsimp only
    by_cases hc : caught e
    · rw [if_pos hc, if_pos hc]
      exact h' s' t' ((hcaught e hc).states hs')
    · rw [if_neg hc, if_neg hc]
      exact .error he hs'
  | @excused e s' r' he =>
    have hc : ¬ caught e := fun hc => (hcaught e hc).unexcused he
    dsimp only
    rw [if_neg hc]
    exact .excused he

theorem relates_mapM {R : α → β → Prop} {Q : α' → β' → Prop} {f : α → Action α'}
    {g : β → Action β'} {xs : List α} {ys : List β} (h : List.Forall₂ R xs ys)
    (k : ∀ x y, R x y → L.Relates Q (f x) (g y)) :
    L.Relates (List.Forall₂ Q) (xs.mapM f) (ys.mapM g) := by
  induction h with
  | nil => simpa using relates_pure List.Forall₂.nil
  | cons hxy _ ih =>
    rw [List.mapM_cons, List.mapM_cons]
    exact (k _ _ hxy).bind fun _ _ hq => ih.bind fun _ _ hqs => relates_pure (.cons hq hqs)

theorem agrees_mapM {R : α → β → Prop} {f : α → Action α'} {g : β → Action α'} {xs : List α}
    {ys : List β} (h : List.Forall₂ R xs ys) (k : ∀ x y, R x y → L.Agrees (f x) (g y)) :
    L.Agrees (xs.mapM f) (ys.mapM g) :=
  (relates_mapM h k).mono fun _ _ h => List.forall₂_eq_eq_eq ▸ h

end Lockstep

end TagTemplate
