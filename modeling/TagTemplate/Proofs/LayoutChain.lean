import TagTemplate.Proofs.TagEvents

/-!
# Layouts are applied in passes

The first pass over a page renders its nodes, every other one the layout that the pass before asked
for first: the name of the first layout tag that was rendered in that pass, wherever it stands. The
page shows what the last of these passes shows. There are at most as many layouts as templates may
nest: a page that asks for one more fails.
-/

namespace TagTemplate

open Markup (Node)
open TagTemplate.Action

/-- A pass over a page that came to its end: what it shows, what has happened in it, and the state
it leaves. -/
structure Pass where
  output : String
  events : List PageEvent
  state : State

namespace Pass

def requested (p : Pass) : Option String := firstRequest p.events

def taken (p : Pass) : State := { p.state with registry := p.state.registry.takeLayout.2 }

/-- Nothing follows the pass: it asks for no layout, or for one that cannot be read. -/
def Last (env : Environment) (p : Pass) : Prop :=
  ∀ name, p.requested = some name → (perform (env.layout name) p.taken).1 = .ok none

/-- How a page ends that stops after this pass, the pass of the given number. -/
def stop (env : Environment) (number : Nat) (p : Pass) : Except Fault String × State :=
  match p.requested with
  | none => (.ok p.output, p.taken)
  | some name =>
    if number = env.maxDepth then (.error (.nesting env.maxDepth "layout"), p.taken)
    else
      (.ok p.output,
        (perform (warn (.layout name)) (perform (env.layout name) p.taken).2).2)

end Pass

namespace Environment

variable (env : Environment) (budget : Nat) (root : Scope)

def runPass (nodes : List Node) (s : State) : Except Fault Pass :=
  match perform (env.render budget nodes root) s with
  | (.ok output, t) =>
    .ok ⟨output, t.registry.events.drop s.registry.events.length, t⟩
  | (.error fault, _) => .error fault

/-- The passes over a page by their numbers. There is no pass after one that asks for no layout, or
for one that cannot be read, or that fails. -/
def pass (nodes : List Node) (s : State) : Nat → Option (Except Fault Pass)
  | 0 => some (env.runPass budget root nodes s)
  | i + 1 =>
    match pass nodes s i with
    | some (.ok p) =>
      match p.requested with
      | none => none
      | some name =>
        match perform (env.layout name) p.taken with
        | (.ok none, _) => none
        | (.ok (some layout), t) => some (env.runPass budget root layout t)
        | (.error fault, _) => some (.error fault)
    | _ => none

end Environment

namespace Registry

def AsksSince (start : List PageEvent) (r : Registry) : Prop :=
  ∃ later, r.events = start ++ later ∧ r.pending = firstRequest later

theorem AsksSince.stable (start : List PageEvent) : Stable (AsksSince start) := by
  constructor
  · rintro r ⟨later, he, hp⟩ name _
    refine ⟨later ++ [.request name], ?_, ?_⟩
    · rw [events_requestLayout, he, List.append_assoc]
    · rw [pending_requestLayout, hp, firstRequest_concat]
      rfl
  · rintro r ⟨later, he, hp⟩ region b _
    refine ⟨later ++ [.block region b], ?_, ?_⟩
    · rw [events_addBlock, he, List.append_assoc]
    · rw [pending_addBlock, hp, firstRequest_concat]
      exact Option.or_none.symm
  · rintro r ⟨later, he, hp⟩ region
    refine ⟨later ++ [.region region (r.blocks.lookup region)], ?_, ?_⟩
    · rw [events_findBlock, he, List.append_assoc]
    · rw [pending_findBlock, hp, firstRequest_concat]
      exact Option.or_none.symm

end Registry

section Passes

variable {env : Environment} {budget : Nat} {root : Scope} {nodes : List Node} {s : State}

/-- What happens in a pass comes after what happened before it, and the layout that it asks for is
the one that is taken after it. -/
theorem registry_runPass {p : Pass} (hp : env.runPass budget root nodes s = .ok p)
    (hs : s.registry.pending = none) :
    p.state.registry.events = s.registry.events ++ p.events ∧
      p.state.registry.pending = p.requested := by
  have hkept := (Registry.AsksSince.stable s.registry.events).render env budget nodes root
    ⟨[], (List.append_nil _).symm, hs⟩
  unfold Environment.runPass at hp
  generalize perform (env.render budget nodes root) s = r at hp hkept
  obtain ⟨_ | output, t⟩ := r
  · cases hp
  · cases hp
    obtain ⟨later, he, hpending⟩ := hkept
    unfold Pass.requested
    dsimp only
    rw [hpending, he, List.drop_left]
    exact ⟨rfl, rfl⟩

theorem faithful_runPass {p : Pass} (hp : env.runPass budget root nodes s = .ok p)
    (hs : s.registry.Faithful) : p.state.registry.Faithful := by
  have hkept := Registry.Stable.faithful.render env budget nodes root hs
  unfold Environment.runPass at hp
  generalize perform (env.render budget nodes root) s = r at hp hkept
  obtain ⟨_ | output, t⟩ := r
  · cases hp
  · cases hp
    exact hkept

theorem perform_runPass {p : Pass} (hp : env.runPass budget root nodes s = .ok p) :
    perform (env.render budget nodes root) s = (.ok p.output, p.state) := by
  unfold Environment.runPass at hp
  generalize perform (env.render budget nodes root) s = r at hp
  obtain ⟨_ | output, t⟩ := r
  · cases hp
  · cases hp
    rfl

theorem registry_layout (env : Environment) (name : String) (t : State) :
    (perform (env.layout name) t).2.registry = t.registry := by
  obtain ⟨templates, host, hlooked, -⟩ := env.looked_eq (env.layoutPrefix ++ name) t
  unfold Environment.layout
  rw [env.perform_template, hlooked]

theorem pass_succ {k : Nat} {p : Pass} (hpass : env.pass budget root nodes s k = some (.ok p)) :
    env.pass budget root nodes s (k + 1) =
      match p.requested with
      | none => none
      | some name =>
        match perform (env.layout name) p.taken with
        | (.ok none, _) => none
        | (.ok (some layout), t) => some (env.runPass budget root layout t)
        | (.error fault, _) => some (.error fault) := by
  rw [Environment.pass, hpass]

theorem exists_of_pass_succ {k : Nat} {q : Pass}
    (hpass : env.pass budget root nodes s (k + 1) = some (.ok q)) :
    ∃ p layout t, env.pass budget root nodes s k = some (.ok p) ∧
      t.registry = p.taken.registry ∧ env.runPass budget root layout t = .ok q := by
  rw [Environment.pass] at hpass
  split at hpass
  · next p hp =>
    split at hpass
    · cases hpass
    · next name _ =>
      have hregistry := registry_layout env name p.taken
      generalize perform (env.layout name) p.taken = found at hpass hregistry
      obtain ⟨fault | _ | layout, t⟩ := found
      · cases hpass
      · cases hpass
      · exact ⟨p, layout, t, hp, hregistry, Option.some.inj hpass⟩
  · cases hpass

theorem faithful_pass (hs : s.registry = {}) {k : Nat} {p : Pass}
    (hpass : env.pass budget root nodes s k = some (.ok p)) : p.state.registry.Faithful := by
  induction k generalizing p with
  | zero => exact faithful_runPass (Option.some.inj hpass) (hs ▸ .empty)
  | succ k ih =>
    obtain ⟨q, layout, t, hq, ht, hrun⟩ := exists_of_pass_succ hpass
    exact faithful_runPass hrun (ht ▸ (ih hq).takeLayout)

theorem pending_pass (hs : s.registry = {}) {k : Nat} {p : Pass}
    (hpass : env.pass budget root nodes s k = some (.ok p)) :
    p.state.registry.pending = p.requested := by
  cases k with
  | zero => exact (registry_runPass (Option.some.inj hpass) (congrArg Registry.pending hs)).2
  | succ k =>
    obtain ⟨q, layout, t, -, ht, hrun⟩ := exists_of_pass_succ hpass
    exact (registry_runPass hrun (congrArg Registry.pending ht)).2

theorem registry_pass_zero (hs : s.registry = {}) {p : Pass}
    (hpass : env.pass budget root nodes s 0 = some (.ok p)) :
    p.state.registry = .after p.events := by
  have hevents : p.state.registry.events = p.events := by
    rw [(registry_runPass (Option.some.inj hpass) (congrArg Registry.pending hs)).1, hs]
    rfl
  exact hevents ▸ (faithful_pass hs hpass).replay

theorem registry_pass_succ (hs : s.registry = {}) {k : Nat} {p q : Pass}
    (hp : env.pass budget root nodes s k = some (.ok p))
    (hq : env.pass budget root nodes s (k + 1) = some (.ok q)) :
    q.state.registry =
      .after (p.state.registry.events ++ .take p.state.registry.pending :: q.events) := by
  obtain ⟨p', layout, t, hp', ht, hrun⟩ := exists_of_pass_succ hq
  cases hp.symm.trans hp'
  have hevents := (registry_runPass hrun (congrArg Registry.pending ht)).1
  rw [ht] at hevents
  have htaken : p.taken.registry.events =
      p.state.registry.events ++ [.take p.state.registry.pending] :=
    Registry.events_takeLayout _
  rw [htaken, List.append_assoc] at hevents
  exact hevents ▸ (faithful_pass hs hq).replay

theorem pass_succ_eq_none_iff {k : Nat} {p : Pass}
    (hpass : env.pass budget root nodes s k = some (.ok p)) :
    env.pass budget root nodes s (k + 1) = none ↔ p.Last env := by
  rw [pass_succ hpass]
  unfold Pass.Last
  cases p.requested with
  | none => exact iff_of_true rfl nofun
  | some name =>
    dsimp only
    generalize hlayout : perform (env.layout name) p.taken = found
    obtain ⟨fault | _ | layout, t⟩ := found
    · refine iff_of_false nofun fun h => ?_
      cases hlayout ▸ h name rfl
    · refine iff_of_true rfl ?_
      rintro _ ⟨⟩
      rw [hlayout]
    · refine iff_of_false nofun fun h => ?_
      cases hlayout ▸ h name rfl

theorem pass_lt {k : Nat} {r : Except Fault Pass}
    (hpass : env.pass budget root nodes s k = some r) :
    ∀ i < k, ∃ p, env.pass budget root nodes s i = some (.ok p) ∧ ¬ p.Last env := by
  induction k generalizing r with
  | zero => exact fun i hi => absurd hi (Nat.not_lt_zero i)
  | succ k ih =>
    have hbefore : ∃ p, env.pass budget root nodes s k = some (.ok p) := by
      unfold Environment.pass at hpass
      split at hpass
      · next p hp => exact ⟨p, hp⟩
      · cases hpass
    obtain ⟨p, hp⟩ := hbefore
    intro i hi
    rcases Nat.lt_succ_iff_lt_or_eq.1 hi with hlt | rfl
    · exact ih hp i hlt
    · refine ⟨p, hp, fun hlast => ?_⟩
      rw [(pass_succ_eq_none_iff hp).2 hlast] at hpass
      cases hpass

theorem perform_takeLayout_pass {p : Pass} (hpending : p.state.registry.pending = p.requested) :
    perform Environment.takeLayout p.state = (.ok p.requested, p.taken) :=
  congrArg (fun m => (Except.ok m, p.taken)) hpending

theorem applyLayouts_at_limit {p : Pass} (hpending : p.state.registry.pending = p.requested) :
    perform (env.applyLayouts budget root 0 p.output) p.state = p.stop env env.maxDepth := by
  unfold Environment.applyLayouts Pass.stop
  rw [perform_bind_ok (perform_takeLayout_pass hpending)]
  cases p.requested with
  | none => rfl
  | some name =>
    dsimp only
    rw [if_pos rfl]
    rfl

theorem applyLayouts_of_last {p : Pass} (hpending : p.state.registry.pending = p.requested)
    (hlast : p.Last env) (remaining : Nat) {k : Nat} (hk : k ≠ env.maxDepth) :
    perform (env.applyLayouts budget root (remaining + 1) p.output) p.state = p.stop env k := by
  unfold Environment.applyLayouts Pass.stop
  rw [perform_bind_ok (perform_takeLayout_pass hpending)]
  cases hrequested : p.requested with
  | none => rfl
  | some name =>
    have hlayout := hlast name hrequested
    dsimp only
    rw [if_neg hk, perform_bind]
    generalize perform (env.layout name) p.taken = found at hlayout ⊢
    obtain ⟨_, t⟩ := found
    cases hlayout
    rfl

theorem applyLayouts_of_next {k : Nat} {p : Pass}
    (hpass : env.pass budget root nodes s k = some (.ok p))
    (hpending : p.state.registry.pending = p.requested) (hlast : ¬ p.Last env)
    (hraise : ∀ fault, env.pass budget root nodes s (k + 1) ≠ some (.error fault))
    (remaining : Nat) :
    ∃ p', env.pass budget root nodes s (k + 1) = some (.ok p') ∧
      p'.state.registry.pending = p'.requested ∧
      perform (env.applyLayouts budget root (remaining + 1) p.output) p.state =
        perform (env.applyLayouts budget root remaining p'.output) p'.state := by
  have hnext := pass_succ hpass
  have hsome : env.pass budget root nodes s (k + 1) ≠ none :=
    fun hnone => hlast ((pass_succ_eq_none_iff hpass).1 hnone)
  rw [Environment.applyLayouts, perform_bind_ok (perform_takeLayout_pass hpending)]
  cases hrequested : p.requested with
  | none =>
    rw [hrequested] at hnext
    exact absurd hnext hsome
  | some name =>
    rw [hrequested] at hnext
    have hregistry := registry_layout env name p.taken
    dsimp only at hnext ⊢
    rw [perform_bind]
    generalize perform (env.layout name) p.taken = found at hnext hregistry ⊢
    obtain ⟨fault | _ | layout, t⟩ := found
    · exact absurd hnext (hraise fault)
    · exact absurd hnext hsome
    · dsimp only at hnext hregistry ⊢
      cases hrun : env.runPass budget root layout t with
      | error fault =>
        rw [hrun] at hnext
        exact absurd hnext (hraise fault)
      | ok p' =>
        rw [hrun] at hnext
        refine ⟨p', hnext, (registry_runPass hrun ?_).2, ?_⟩
        · rw [hregistry]
          exact Registry.pending_takeLayout _
        · rw [perform_bind_ok (perform_runPass hrun)]

theorem applyLayouts_stops {remaining : Nat} : ∀ {k : Nat} {p : Pass},
    k + remaining = env.maxDepth → env.pass budget root nodes s k = some (.ok p) →
    p.state.registry.pending = p.requested →
    (∀ i ≤ env.maxDepth, ∀ fault, env.pass budget root nodes s i ≠ some (.error fault)) →
    ∃ k' ≤ env.maxDepth, ∃ p', env.pass budget root nodes s k' = some (.ok p') ∧
      (k' = env.maxDepth ∨ p'.Last env) ∧
      perform (env.applyLayouts budget root remaining p.output) p.state = p'.stop env k' := by
  induction remaining with
  | zero =>
    intro k p hk hpass hpending _
    have hlimit : k = env.maxDepth := hk
    rw [hlimit] at hpass
    exact ⟨_, Nat.le_refl _, p, hpass, Or.inl rfl, applyLayouts_at_limit hpending⟩
  | succ remaining ih =>
    intro k p hk hpass hpending hraise
    by_cases hlast : p.Last env
    · have hne : k ≠ env.maxDepth := by omega
      refine ⟨k, by omega, p, hpass, Or.inr hlast, ?_⟩
      exact applyLayouts_of_last hpending hlast remaining hne
    · obtain ⟨p', hpass', hpending', hperform⟩ :=
        applyLayouts_of_next hpass hpending hlast (hraise (k + 1) (by omega)) remaining
      rw [hperform]
      exact ih (by omega) hpass' hpending' hraise

theorem compose_stops (hs : s.registry.pending = none)
    (hraise : ∀ i ≤ env.maxDepth, ∀ fault, env.pass budget root nodes s i ≠ some (.error fault)) :
    ∃ k ≤ env.maxDepth, ∃ p, env.pass budget root nodes s k = some (.ok p) ∧
      (k = env.maxDepth ∨ p.Last env) ∧
      perform (env.compose budget nodes root) s = p.stop env k := by
  cases hrun : env.runPass budget root nodes s with
  | error fault => exact absurd (congrArg some hrun) (hraise 0 (Nat.zero_le _) fault)
  | ok p =>
    unfold Environment.compose
    rw [perform_bind_ok (perform_runPass hrun)]
    exact applyLayouts_stops (Nat.zero_add _) (congrArg some hrun) (registry_runPass hrun hs).2
      hraise

theorem Pass.stop_fst (number : Nat) (p : Pass) :
    (p.stop env number).1 =
      if number = env.maxDepth ∧ p.requested.isSome then .error (.nesting env.maxDepth "layout")
      else .ok p.output := by
  unfold Pass.stop
  cases p.requested with
  | none => simp
  | some name =>
    by_cases hn : number = env.maxDepth
    · simp [hn]
    · simp [hn]

end Passes

/-- The passes over a page go on until one is the last, and the page shows what that one shows. The
page fails exactly if the last layout that may be applied asks for one more, and then whether or not
that can be read. What a pass asks for is the first of its events that is a layout tag, which each
layout tag with a name is; and each pass goes on from what the passes before it have left. -/
theorem compose_layout_chain (env : Environment) (budget : Nat) (nodes : List Node) (root : Scope)
    (s : State)
    (hraise : ∀ i ≤ env.maxDepth, ∀ fault,
      env.pass budget root nodes { s with registry := {} } i ≠ some (.error fault)) :
    let start : State := { s with registry := {} }
    let pass := env.pass budget root nodes start
    let page := perform (env.compose budget nodes root) start
    (page.1 = .error (.nesting env.maxDepth "layout") ↔
      ∃ p, pass env.maxDepth = some (.ok p) ∧ p.requested.isSome) ∧
    (∃ k ≤ env.maxDepth, ∃ p, pass k = some (.ok p) ∧
      (∀ i < k, ∃ q, pass i = some (.ok q) ∧ ¬ q.Last env) ∧
      page = p.stop env k ∧
      (page.1 ≠ .error (.nesting env.maxDepth "layout") → p.Last env ∧ page.1 = .ok p.output)) ∧
    (∀ earlier, Registry.Recorded env earlier) ∧
    (∀ p, pass 0 = some (.ok p) → p.state.registry = .after p.events) ∧
    ∀ i p q, pass i = some (.ok p) → pass (i + 1) = some (.ok q) →
      q.state.registry = .after (p.state.registry.events ++ .take p.requested :: q.events) := by
  intro start pass page
  obtain ⟨k, hk, p, hpass, hend, hpage⟩ := compose_stops (s := start) rfl hraise
  have hresult : page.1 = _ := (congrArg Prod.fst hpage).trans (Pass.stop_fst k p)
  refine ⟨⟨?_, ?_⟩, ⟨k, hk, p, hpass, pass_lt hpass, hpage, ?_⟩, Registry.recorded env,
    fun p hp => registry_pass_zero rfl hp, fun i p q hp hq => ?_⟩
  · intro hfail
    rw [hresult] at hfail
    split at hfail
    · next h =>
      obtain ⟨rfl, hrequested⟩ := h
      exact ⟨p, hpass, hrequested⟩
    · cases hfail
  · rintro ⟨q, hq, hrequested⟩
    -- the pass at which the page stopped is the one at the bound: before it none is the last
    have hlimit : k = env.maxDepth := by
      rcases hend with h | hlast
      · exact h
      · by_contra hne
        obtain ⟨p', hp', hgoes⟩ := pass_lt hq k (by omega)
        cases hp'.symm.trans hpass
        exact hgoes hlast
    subst hlimit
    cases hq.symm.trans hpass
    rw [hresult, if_pos ⟨rfl, hrequested⟩]
  · intro hok
    rw [hresult] at hok ⊢
    split at hok
    · exact absurd rfl hok
    · next h =>
      rw [if_neg h]
      refine ⟨?_, rfl⟩
      rcases hend with hlimit | hlast
      · intro name hname
        exact absurd ⟨hlimit, by rw [hname]; rfl⟩ h
      · exact hlast
  · exact pending_pass rfl hp ▸ registry_pass_succ rfl hp hq

/-- One layout may be applied, and it asks for another one, which cannot even be read. -/
theorem compose_layout_chain_at_limit :
    let texts := [("layouts/a", "A<pop:layout name=\"b\"/>")]
    let env : Environment := { read := some fun name => .ok (texts.lookup name), maxDepth := 1 }
    let nodes : List Node := [.tag ⟨"layout", none, [("name", .literal "a")], [], true⟩]
    let root : Scope := { frame := { value := .null } }
    (∀ i ≤ 1, ∀ fault, env.pass 2 root nodes {} i ≠ some (.error fault)) ∧
      (perform (env.compose 2 nodes root) {}).1 = .error (.nesting 1 "layout") := by
  intro texts env nodes root
  have hpasses : ∀ i ≤ 1, (match env.pass 2 root nodes {} i with
      | some (.ok p) => p.requested.isSome
      | _ => false) = true := by decide +kernel
  have hraise : ∀ i ≤ 1, ∀ fault, env.pass 2 root nodes {} i ≠ some (.error fault) := by
    intro i hi fault hpass
    have hasks := hpasses i hi
    rw [hpass] at hasks
    cases hasks
  refine ⟨hraise, (compose_layout_chain env 2 nodes root {} hraise).1.2 ?_⟩
  have hlast := hpasses 1 (Nat.le_refl 1)
  split at hlast
  · next p hp => exact ⟨p, hp, hlast⟩
  · cases hlast

end TagTemplate
