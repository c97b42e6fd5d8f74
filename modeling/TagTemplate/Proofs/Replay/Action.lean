import TagTemplate.Proofs.Replay

/-!
# Actions in a host with a past

An action that starts in a host with a past stands beside one that starts without. Both come to the
same end, with what the host remembers in the one appended to its past in the other. As more streams
are numbered more numbers are known; what is said of a value in one state goes on to be true of it.
-/

namespace TagTemplate

open TagTemplate.Action

def HostState.Settled (h : HostState) : Prop := ∀ id ∈ h.consumed, id < h.nextStream

def HostState.fresh (h : HostState) : HostState := { program := h.program }

def HostState.followedBy (past h : HostState) : HostState where
  program := past.program
  calls := past.calls ++ h.calls
  warnings := past.warnings ++ h.warnings
  counters := past.counters
  consumed := h.consumed.map (past.nextStream + ·) ++ past.consumed
  nextStream := past.nextStream + h.nextStream

theorem HostState.Settled.followedBy {past h : HostState} (hp : past.Settled) (hh : h.Settled) :
    (past.followedBy h).Settled := by
  intro id hid
  rcases List.mem_append.1 hid with hid | hid
  · obtain ⟨own, hown, rfl⟩ := List.mem_map.1 hid
    exact Nat.add_lt_add_left (hh own hown) past.nextStream
  · exact Nat.lt_add_right h.nextStream (hp id hid)

theorem HostState.followedBy_fresh (past : HostState) : past.followedBy past.fresh = past := by
  simp [HostState.followedBy, HostState.fresh]

structure Frame.Known (n : Nat) (f : Frame) : Prop where
  value : f.value.Known n
  bindings : ∀ name c, f.bindings.lookup name = some c → c.Known n

def Frame.renumber (d : Nat) (f : Frame) : Frame :=
  { f with
    value := f.value.renumber d
    bindings := f.bindings.map fun p => (p.1, p.2.renumber d) }

def Scope.Known (n : Nat) (s : Scope) : Prop := ∀ f ∈ s.frames, f.Known n

def Scope.renumber (d : Nat) (s : Scope) : Scope := ⟨s.frame.renumber d, s.outer.map (·.renumber d)⟩

section Scopes

variable {n m d : Nat} {f : Frame} {s : Scope} {c : Content}

theorem Frame.Known.mono (hnm : n ≤ m) (h : f.Known n) : f.Known m :=
  ⟨h.value.mono hnm, fun name c hc => (h.bindings name c hc).mono hnm⟩

theorem Scope.Known.mono (hnm : n ≤ m) (h : s.Known n) : s.Known m :=
  fun f hf => (h f hf).mono hnm

theorem Scope.Known.frame (h : s.Known n) : s.frame.Known n := h _ List.mem_cons_self

theorem Scope.Known.push (h : s.Known n) (hf : f.Known n) : (s.push f).Known n :=
  List.forall_mem_cons.2 ⟨hf, h⟩

theorem Scope.Known.enter (h : s.Known n) (hc : c.Known n) : (s.enter c).Known n :=
  h.push ⟨hc, nofun⟩

theorem Scope.frames_renumber (d : Nat) (s : Scope) :
    (s.renumber d).frames = s.frames.map (·.renumber d) := rfl

theorem Scope.nearestIteration_renumber (d : Nat) (s : Scope) :
    (s.renumber d).nearestIteration = s.nearestIteration := by
  unfold Scope.nearestIteration
  rw [Scope.frames_renumber, List.findSome?_map]
  rfl

theorem Frame.lookup_renumber (d : Nat) (f : Frame) (name : String) :
    (f.renumber d).bindings.lookup name =
      (f.bindings.lookup name).map (Content.renumber d) :=
  OrderedMap.lookup_map _ _ name

end Scopes

namespace Replay

variable (past : HostState)

def Values (n : Nat) (v v' : HostValue) : Prop := v.Known n ∧ v' = v.renumber past.nextStream

def Contents (n : Nat) (c c' : Content) : Prop := c.Known n ∧ c' = c.renumber past.nextStream

structure Blocks (n : Nat) (b b' : Block) : Prop where
  nodes : b'.nodes = b.nodes
  known : b.scope.Known n
  scope : b'.scope = b.scope.renumber past.nextStream

/-- Two renderings have kept the same, and the second host has done the same after its past. -/
structure States (s t : State) : Prop where
  host : t.host = past.followedBy s.host
  program : s.host.program = past.program
  settled : s.host.Settled
  templates : t.templates = s.templates
  extensions : ∀ name, Option.Rel (Option.Rel (Contents past s.host.nextStream))
    (s.extensions.lookup name) (t.extensions.lookup name)
  blocks : ∀ region, Option.Rel (Blocks past s.host.nextStream)
    (s.registry.blocks.lookup region) (t.registry.blocks.lookup region)
  pending : t.registry.pending = s.registry.pending
  depth : t.depth = s.depth

variable {past}

theorem Values.mono {n m : Nat} {v v' : HostValue} (hnm : n ≤ m) (h : Values past n v v') :
    Values past m v v' :=
  h.imp_left (.mono hnm)

theorem Contents.mono {n m : Nat} {c c' : Content} (hnm : n ≤ m) (h : Contents past n c c') :
    Contents past m c c' :=
  h.imp_left (.mono hnm)

theorem Blocks.mono {n m : Nat} {b b' : Block} (hnm : n ≤ m) (h : Blocks past n b b') :
    Blocks past m b b' :=
  { h with known := h.known.mono hnm }

theorem rel_mono {α β : Type} {R R' : α → β → Prop} (hR : ∀ {x y}, R x y → R' x y) {m : Option α}
    {m' : Option β} (h : Option.Rel R m m') : Option.Rel R' m m' := by
  cases h with
  | none => exact .none
  | some h => exact .some (hR h)

/-- The hosts go on alike. What is kept stays as it is. -/
theorem States.withHost {s t : State} (h : States past s t) {g g' : HostState}
    (hg : g' = past.followedBy g) (hprogram : g.program = s.host.program) (hsettled : g.Settled)
    (hnext : s.host.nextStream ≤ g.nextStream) :
    States past { s with host := g } { t with host := g' } where
  host := hg
  program := hprogram.trans h.program
  settled := hsettled
  templates := h.templates
  extensions name := rel_mono (rel_mono (Contents.mono hnext)) (h.extensions name)
  blocks region := rel_mono (Blocks.mono hnext) (h.blocks region)
  pending := h.pending
  depth := h.depth

end Replay

section Replays

variable (past : HostState) {α β α' β' : Type}

/-- The ends of two runs are alike, after states in which the numbers below `n` were known. -/
inductive Replay.Ends (n : Nat) (Q : Nat → α → β → Prop) :
    Except Fault α × State → Except Fault β × State → Prop where
  | ok {x y s t} : n ≤ s.host.nextStream → Q s.host.nextStream x y → Replay.States past s t →
      Ends n Q (.ok x, s) (.ok y, t)
  | error {e s t} : n ≤ s.host.nextStream → Replay.States past s t →
      Ends n Q (.error e, s) (.error e, t)

inductive Replay.Tried (Q : Nat → α → β → Prop) (n : Nat) :
    Except Fault α → Except Fault β → Prop where
  | ok {x y} : Q n x y → Tried Q n (.ok x) (.ok y)
  | error (e) : Tried Q n (.error e) (.error e)

def Replays (n : Nat) (Q : Nat → α → β → Prop) (a : Action α) (b : Action β) : Prop :=
  ∀ s t, Replay.States past s t → n ≤ s.host.nextStream →
    Replay.Ends past s.host.nextStream Q (perform a s) (perform b t)

abbrev Repeats (n : Nat) (a b : Action α) : Prop := Replays past n (fun _ => Eq) a b

variable {past} {n m : Nat} {Q : Nat → α → β → Prop} {R : Nat → α' → β' → Prop}

theorem Replay.Ends.of_le {r r'} (hnm : n ≤ m) (h : Replay.Ends past m Q r r') :
    Replay.Ends past n Q r r' := by
  cases h with
  | ok hm hq hs => exact .ok (Nat.le_trans hnm hm) hq hs
  | error hm hs => exact .error (Nat.le_trans hnm hm) hs

theorem Replays.later {a : Action α} {b : Action β} (h : Replays past n Q a b) (hnm : n ≤ m) :
    Replays past m Q a b :=
  fun s t hs hm => h s t hs (Nat.le_trans hnm hm)

theorem replays_pure {x : α} {y : β} (h : ∀ m, n ≤ m → Q m x y) :
    Replays past n Q (pure x) (pure y) :=
  fun _ _ hs hn => .ok (Nat.le_refl _) (h _ hn) hs

theorem replays_fail (e : Fault) :
    Replays past n Q (fail e : Action α) (fail e : Action β) :=
  fun _ _ hs _ => .error (Nat.le_refl _) hs

theorem Replays.bind {a : Action α} {b : Action β} {f : α → Action α'} {g : β → Action β'}
    (h : Replays past n Q a b)
    (k : ∀ m, n ≤ m → ∀ x y, Q m x y → Replays past m R (f x) (g y)) :
    Replays past n R (a >>= f) (b >>= g) := by
  intro s t hs hn
  have he := h s t hs hn
  rw [perform_bind, perform_bind]
  generalize perform a s = r at he
  generalize perform b t = r' at he
  cases he with
  | ok hm hq hs' => exact (k _ (Nat.le_trans hn hm) _ _ hq _ _ hs' (Nat.le_refl _)).of_le hm
  | error hm hs' => exact .error hm hs'

theorem replays_observe {f : State → α} {g : State → β}
    (h : ∀ s t, Replay.States past s t → Q s.host.nextStream (f s) (g t)) :
    Replays past n Q (observe f) (observe g) :=
  fun s t hs _ => .ok (Nat.le_refl _) (h s t hs) hs

theorem Replays.attempt {a : Action α} {b : Action β} (h : Replays past n Q a b) :
    Replays past n (Replay.Tried Q) (attempt a) (attempt b) := by
  intro s t hs hn
  have he := h s t hs hn
  rw [perform_attempt, perform_attempt]
  generalize perform a s = r at he
  generalize perform b t = r' at he
  cases he with
  | ok hm hq hs' => exact .ok hm (.ok hq) hs'
  | error hm hs' => exact .ok hm (.error _) hs'

theorem Replays.recover {a a' : Action α} {b b' : Action β} (h : Replays past n Q a b)
    (h' : Replays past n Q a' b') (caught : Fault → Bool) :
    Replays past n Q (recover caught a a') (recover caught b b') := by
  intro s t hs hn
  have he := h s t hs hn
  rw [perform_recover, perform_recover]
  generalize perform a s = r at he
  generalize perform b t = r' at he
  cases he with
  | ok hm hq hs' => exact .ok hm hq hs'
  | @error e s' t' hm hs' =>
    dsimp only
    by_cases hc : caught e
    · rw [if_pos hc, if_pos hc]
      exact (h' s' t' hs' (Nat.le_trans hn hm)).of_le hm
    · rw [if_neg hc, if_neg hc]
      exact .error hm hs'

theorem Replays.ite {p : Prop} [Decidable p] {a a' : Action α} {b b' : Action β}
    (ht : Replays past n Q a b) (hf : Replays past n Q a' b') :
    Replays past n Q (if p then a else a') (if p then b else b') := by
  by_cases hp : p
  · rwa [if_pos hp, if_pos hp]
  · rwa [if_neg hp, if_neg hp]

theorem Replays.thenAlways {a : Action α} {b : Action β} {f g : State → State}
    (h : Replays past n Q a b)
    (hstates : ∀ s t, Replay.States past s t → Replay.States past (f s) (g t))
    (hhost : ∀ s, (f s).host = s.host) :
    Replays past n Q (thenAlways a f) (thenAlways b g) := by
  intro s t hs hn
  have he := h s t hs hn
  rw [perform_thenAlways, perform_thenAlways]
  generalize perform a s = r at he
  generalize perform b t = r' at he
  cases he with
  | @ok _ _ s' _ hm hq hs' =>
    rw [← hhost s'] at hm hq
    exact .ok hm hq (hstates _ _ hs')
  | @error _ s' _ hm hs' =>
    rw [← hhost s'] at hm
    exact .error hm (hstates _ _ hs')

theorem replays_ofExcept {Q : Nat → α → α → Prop} {r : Except Fault α}
    (h : ∀ x, r = .ok x → ∀ m, Q m x x) :
    Replays past n Q (Action.ofExcept r) (Action.ofExcept r) := by
  cases r with
  | ok x => exact replays_pure fun m _ => h x rfl m
  | error e => exact replays_fail e

theorem repeats_pure (x : α) : Repeats past n (pure x) (pure x) := replays_pure fun _ _ => rfl

theorem Repeats.bind {a b : Action α} {f : α → Action α'} {g : α → Action β'}
    (h : Repeats past n a b)
    (k : ∀ m, n ≤ m → ∀ x, Replays past m R (f x) (g x)) :
    Replays past n R (a >>= f) (b >>= g) := by
  refine Replays.bind h ?_
  rintro m hm x _ rfl
  exact k m hm x

theorem Repeats.map {a b : Action α} (h : Repeats past n a b) (f : α → β) :
    Repeats past n (do return f (← a)) (do return f (← b)) :=
  Repeats.bind h fun _ _ x => repeats_pure (f x)

theorem repeats_update {f g : State → State}
    (h : ∀ s t, Replay.States past s t → n ≤ s.host.nextStream → Replay.States past (f s) (g t))
    (hnext : ∀ s, s.host.nextStream ≤ (f s).host.nextStream) :
    Repeats past n (update f) (update g) :=
  fun s t hs hn => .ok (hnext s) rfl (h s t hs hn)

theorem repeats_ofExcept (r : Except Fault α) :
    Repeats past n (Action.ofExcept r) (Action.ofExcept r) :=
  replays_ofExcept fun _ _ _ => rfl

theorem repeats_mapM {f g : α → Action β} {xs : List α}
    (h : ∀ x ∈ xs, ∀ m, n ≤ m → Repeats past m (f x) (g x)) :
    Repeats past n (xs.mapM f) (xs.mapM g) := by
  induction xs generalizing n with
  | nil => exact repeats_pure _
  | cons x xs ih =>
    rw [List.mapM_cons, List.mapM_cons]
    refine Repeats.bind (h x List.mem_cons_self n (Nat.le_refl _)) fun m hm y => ?_
    refine Repeats.bind (ih fun x hx k hk => ?_) fun _ _ ys => repeats_pure (y :: ys)
    exact h x (List.mem_cons_of_mem _ hx) k (Nat.le_trans hm hk)

theorem repeats_program :
    Repeats past n (observe (·.host.program)) (observe (·.host.program)) :=
  replays_observe fun s t hs => by
    rw [hs.host]
    exact hs.program

theorem repeats_updateHost {f : HostState → HostState}
    (h : ∀ g, f (past.followedBy g) = past.followedBy (f g))
    (hprogram : ∀ g, (f g).program = g.program)
    (hsettled : ∀ g : HostState, g.Settled → (f g).Settled)
    (hnext : ∀ g, g.nextStream ≤ (f g).nextStream) :
    Repeats past n (updateHost f) (updateHost f) := by
  refine repeats_update (fun s t hs _ => ?_) fun s => hnext _
  refine hs.withHost ?_ (hprogram _) (hsettled _ hs.settled) (hnext _)
  rw [hs.host, h]

theorem repeats_trace (call : Call) : Repeats past n (trace call) (trace call) := by
  refine repeats_updateHost (fun g => ?_) (fun _ => rfl) (fun g hg => hg) fun g => Nat.le_refl _
  simp [HostState.followedBy]

theorem repeats_warn (warning : Warning) : Repeats past n (warn warning) (warn warning) := by
  refine repeats_updateHost (fun g => ?_) (fun _ => rfl) (fun g hg => hg) fun g => Nat.le_refl _
  simp [HostState.followedBy]

theorem replays_freshStream :
    Replays past n (fun m id id' => id < m ∧ id' = past.nextStream + id) freshStream
      freshStream := by
  intro s t hs hn
  have hnext : t.host.nextStream = past.nextStream + s.host.nextStream := by
    rw [hs.host]
    rfl
  refine .ok (Nat.le_succ _) ⟨Nat.lt_succ_self _, hnext⟩ (hs.withHost ?_ rfl ?_ (Nat.le_succ _))
  · dsimp only
    rw [hnext, hs.host]
    rfl
  · exact fun id hid => Nat.lt_succ_of_lt (hs.settled id hid)

/-- Whether a stream has been read does not depend on the past, which has not read any of those that
have a number by now. -/
theorem repeats_openStream (hpast : past.Settled) {id : Nat} (hid : id < n) :
    Repeats past n (openStream id) (openStream (past.nextStream + id)) := by
  have unread : ∀ h : HostState,
      (past.followedBy h).consumed.contains (past.nextStream + id) = h.consumed.contains id := by
    intro h
    have hbefore : past.nextStream + id ∉ past.consumed :=
      fun hmem => Nat.not_lt.2 (Nat.le_add_right _ _) (hpast _ hmem)
    simp [HostState.followedBy, List.contains_eq_mem, hbefore]
  unfold openStream
  refine Repeats.bind (replays_observe fun s t hs => ?_) fun m hm b => ?_
  · rw [hs.host, unread]
  · refine Repeats.bind (fun s t hs hm' => ?_) fun _ _ _ => repeats_pure b
    refine .ok (Nat.le_refl _) rfl (hs.withHost ?_ rfl ?_ (Nat.le_refl _))
    · rw [hs.host]
      rfl
    · rintro other hother
      rcases List.mem_cons.1 hother with rfl | hother
      · exact Nat.lt_of_lt_of_le hid (Nat.le_trans hm hm')
      · exact hs.settled other hother

end Replays

end TagTemplate
