import TagTemplate.Proofs.Fetching
import TagTemplate.Proofs.Lockstep.Page

/-!
# Active includes

The depth of a rendering says how many includes are being expanded. Beside a rendering stands one
that is told which includes are active: each tag hands them on to everything that is rendered on its
behalf, be it enclosed nodes, attribute values, items, blocks, or what a host function asks for. The
depth is looked at before and after every tag, and an alarm ends the rendering if it is not the
number of active includes. Both renderings are the same, so there never is an alarm.
-/

namespace TagTemplate

open Markup (Node Tag)
open TagTemplate.Action

namespace Environment

variable (env : Environment) (alarm : Fault)

def watched (active : List String) (a : Action String) : Action String :=
  .of fun s =>
    if s.depth = active.length ∧ active.length ≤ env.maxDepth ∧
        (perform a s).2.depth = active.length then
      perform a s
    else (.error alarm, s)

/-- Shows an include while the given ones are active. A template that can be read nests too deep
exactly if as many are active as may be. -/
def renderIncludeWatched (render : List String → Renderer) (active : List String)
    (o : Occurrence) : Action String :=
  match o.options.lookup "template" with
  | none | some "" => do
    warn .unnamedInclude
    return ""
  | some name => do
    match ← env.template name with
    | none => return ""
    | some nodes =>
      if active.length = env.maxDepth then
        fail (.nesting env.maxDepth ("include template=\"" ++ name ++ "\""))
      else
        thenAlways
          (do
            update fun s => { s with depth := s.depth + 1 }
            env.finish (← render (name :: active) nodes o.scope) o.options)
          fun s => { s with depth := s.depth - 1 }

def renderTagWatched (render : List String → Renderer) (budget : Nat) (active : List String)
    (tag : Tag) (scope : Scope) : Action String :=
  env.watched alarm active do
    let options ← optionsOf (render active) scope tag
    let text ←
      if tag.extension = none ∧ tag.name = "include" then
        env.renderIncludeWatched render active ⟨tag, options, scope, scope⟩
      else env.renderWith (render active) budget tag options scope
    return orDefault text options

def renderWatched : Nat → List String → Renderer
  | 0, _ => fun _ _ => fail .exhausted
  | budget + 1, active => fun nodes scope => do
    return String.join (← nodes.mapM fun
      | .text value => return value
      | .tag tag => env.renderTagWatched alarm (renderWatched budget) budget active tag scope)

def applyLayoutsWatched (budget : Nat) (root : Scope) : Nat → String → Action String
  | remaining, output => do
    match ← takeLayout with
    | none => return output
    | some name =>
      match remaining with
      | 0 => fail (.nesting env.maxDepth "layout")
      | remaining + 1 =>
        match ← env.layout name with
        | none =>
          warn (.layout name)
          return output
        | some nodes =>
          applyLayoutsWatched budget root remaining
            (← env.renderWatched alarm budget [] nodes root)

/-- Renders nodes and applies the layouts they ask for. No include is active when a layout is
rendered. -/
def composeWatched (budget : Nat) (nodes : List Node) (root : Scope) : Action String := do
  env.applyLayoutsWatched alarm budget root env.maxDepth
    (← env.renderWatched alarm budget [] nodes root)

end Environment

def atDepth (n : Nat) : Lockstep := .invariant (fun s => s.depth = n) fun _ => True

namespace Lockstep

variable {env : Environment} {n : Nat} {active : List String}

theorem atDepth_closed (n : Nat) : (atDepth n).Closed :=
  .of_invariant (fun hs _ _ _ => hs) (fun _ => trivial) fun _ _ _ _ => trivial

theorem atDepth_registry (f : Registry → Registry) {s t : State} (h : (atDepth n).states s t) :
    (atDepth n).states { s with registry := f s.registry } { t with registry := f t.registry } := by
  obtain ⟨rfl, hs⟩ := h
  exact ⟨rfl, hs⟩

theorem atDepth_template (name : String) :
    (atDepth n).Agrees (env.template name) (env.template name) := by
  rintro s _ ⟨rfl, hs⟩
  obtain ⟨templates, host, hlooked, -⟩ := env.looked_eq name s
  rw [env.perform_template, hlooked]
  cases env.resolved name s with
  | ok found => exact .ok rfl ⟨rfl, hs⟩
  | error e => exact .error trivial ⟨rfl, hs⟩

theorem atDepth_watched {a b : Action String} (alarm : Fault) (hle : active.length ≤ env.maxDepth)
    (h : (atDepth active.length).Agrees a b) :
    (atDepth active.length).Agrees a (env.watched alarm active b) := by
  rintro s _ ⟨rfl, hs⟩
  have ho := h s s ⟨rfl, hs⟩
  have hend : (perform b s).2.depth = active.length := by
    generalize perform a s = r at ho
    generalize perform b s = r' at ho
    cases ho with
    | ok _ hst => exact hst.1 ▸ hst.2
    | error _ hst => exact hst.1 ▸ hst.2
    | excused he => exact he.elim
  have hquiet : perform (env.watched alarm active b) s = perform b s := if_pos ⟨hs, hle, hend⟩
  rw [hquiet]
  exact ho

theorem atDepth_oneDeeper (hle : active.length ≤ env.maxDepth) (name : String)
    {body body' : Action String}
    (hb : active.length < env.maxDepth → (atDepth (active.length + 1)).Agrees body body') :
    (atDepth active.length).Agrees (env.oneDeeper name body)
      (if active.length = env.maxDepth then
        fail (.nesting env.maxDepth ("include template=\"" ++ name ++ "\""))
      else
        thenAlways (update (fun s => { s with depth := s.depth + 1 }) >>= fun _ => body')
          fun s => { s with depth := s.depth - 1 }) := by
  rintro s _ ⟨rfl, hs⟩
  rw [env.perform_oneDeeper]
  by_cases hfull : active.length = env.maxDepth
  · have hdeep : env.maxDepth < s.depth + 1 := by omega
    rw [if_pos hdeep, if_pos hfull]
    exact .error trivial ⟨rfl, hs⟩
  · have hdeep : ¬ env.maxDepth < s.depth + 1 := by omega
    have ho := hb (by omega) { s with depth := s.depth + 1 } _ ⟨rfl, congrArg (· + 1) hs⟩
    rw [if_neg hdeep, if_neg hfull, perform_thenAlways, perform_bind_ok (perform_update _ s)]
    generalize perform body { s with depth := s.depth + 1 } = r at ho
    generalize perform body' { s with depth := s.depth + 1 } = r' at ho
    cases ho with
    | ok hx hst =>
      obtain ⟨rfl, hdepth⟩ := hst
      exact .ok hx ⟨rfl, congrArg (· - 1) hdepth⟩
    | error _ hst =>
      obtain ⟨rfl, hdepth⟩ := hst
      exact .error trivial ⟨rfl, congrArg (· - 1) hdepth⟩
    | excused he => exact he.elim

section Tags

variable {render : Renderer} {watched : List String → Renderer}
  (hr : ∀ active : List String, active.length ≤ env.maxDepth → ∀ ns scope,
    (atDepth active.length).Agrees (render ns scope) (watched active ns scope))
  (hle : active.length ≤ env.maxDepth)

include hr hle

theorem atDepth_renderInclude (o : Occurrence) :
    (atDepth active.length).Agrees (env.renderInclude render o)
      (env.renderIncludeWatched watched active o) := by
  unfold Environment.renderInclude Environment.renderIncludeWatched
  cases o.options.lookup "template" with
  | none => exact Agrees.bind ((atDepth_closed _).warn _) fun _ => agrees_pure _
  | some name =>
    by_cases hempty : name = ""
    · subst hempty
      exact Agrees.bind ((atDepth_closed _).warn _) fun _ => agrees_pure _
    · simp only
      refine Agrees.bind (atDepth_template name) fun found => ?_
      cases found with
      | none => exact agrees_pure _
      | some ns =>
        apply atDepth_oneDeeper hle name
        intro hlt
        refine Agrees.bind (hr (name :: active) hlt ns o.scope) fun text => ?_
        exact (atDepth_closed _).host.finish rfl text o.options

theorem atDepth_handlers {tag : Tag} (hother : ¬ (tag.extension = none ∧ tag.name = "include")) :
    (atDepth active.length).Handlers env env render (watched active) tag tag := by
  constructor
  · intro he hn
    exact absurd ⟨he, hn⟩ hother
  · intro _ _ options scope _
    apply agrees_renderLayout
    intro name _ _ s t hs
    exact atDepth_registry (·.requestLayout name) hs
  · intro _ _ options scope _
    apply agrees_renderBlock
    intro region _ s t hs
    exact atDepth_registry (·.addBlock region ⟨tag.children, scope⟩) hs
  · intro _ _ options scope _
    have lookup : ∀ region s t, (atDepth active.length).states s t →
        Option.Rel Eq (s.registry.blocks.lookup region) (t.registry.blocks.lookup region) := by
      rintro region s _ ⟨rfl, -⟩
      exact optionRel_refl _
    refine agrees_renderRegion (lookup _) ?_ ?_ (hr active hle _ scope) ?_
    · intro region s t hs
      exact atDepth_registry (fun r => (r.findBlock region).2) hs
    · exact fun text => (atDepth_closed _).host.finish rfl text options
    · rintro block _ rfl
      exact hr active hle block.nodes block.scope

theorem atDepth_renderTag (alarm : Fault) (budget : Nat) (tag : Tag) (scope : Scope) :
    (atDepth active.length).Agrees (env.renderTag render budget tag scope)
      (env.renderTagWatched alarm watched budget active tag scope) := by
  have hclosed := atDepth_closed active.length
  have hp := pairing_sameTree (P := fun _ => True) hclosed.host rfl
    (hclosed.exported env fun _ _ _ _ _ => trivial) trivial
    (fun ns scope _ => hr active hle ns scope) budget
  apply atDepth_watched alarm hle
  refine Relates.bind (hp.optionsOf (sameTree_tag fun _ _ => trivial) rfl) ?_
  rintro options _ ⟨rfl, hf⟩
  by_cases hinclude : tag.extension = none ∧ tag.name = "include"
  · rw [if_pos hinclude,
      env.renderWith_structural render budget .include hinclude.1 hinclude.2 options scope]
    exact (atDepth_renderInclude hr hle _).map
  · rw [if_neg hinclude]
    exact (hp.renderWith_same (sameTree_tag fun _ _ => trivial) (atDepth_handlers hr hle hinclude) hf
      scope).map

end Tags

theorem atDepth_render (alarm : Fault) (budget : Nat) : ∀ active : List String,
    active.length ≤ env.maxDepth → ∀ ns scope,
      (atDepth active.length).Agrees (env.render budget ns scope)
        (env.renderWatched alarm budget active ns scope) := by
  induction budget with
  | zero =>
    intro active _ ns scope
    exact relates_fail trivial
  | succ budget ih =>
    intro active hle ns scope
    refine Agrees.map (agrees_mapM (List.forall₂_same.2 fun _ _ => rfl) ?_)
    rintro node _ rfl
    cases node with
    | text value => exact agrees_pure value
    | tag tag => exact atDepth_renderTag ih hle alarm budget tag scope

theorem atDepth_applyLayouts (alarm : Fault) (budget : Nat) (root : Scope) (remaining : Nat) :
    ∀ output, (atDepth 0).Agrees (env.applyLayouts budget root remaining output)
      (env.applyLayoutsWatched alarm budget root remaining output) := by
  have htake : (atDepth 0).Agrees Environment.takeLayout Environment.takeLayout := by
    rintro s _ ⟨rfl, hs⟩
    exact .ok rfl ⟨rfl, hs⟩
  induction remaining with
  | zero =>
    intro output
    unfold Environment.applyLayouts Environment.applyLayoutsWatched
    refine Agrees.bind htake fun taken => ?_
    cases taken with
    | none => exact agrees_pure output
    | some name => exact relates_fail trivial
  | succ remaining ih =>
    intro output
    unfold Environment.applyLayouts Environment.applyLayoutsWatched
    refine Agrees.bind htake fun taken => ?_
    cases taken with
    | none => exact agrees_pure output
    | some name =>
      refine Agrees.bind (atDepth_template _) fun layout => ?_
      cases layout with
      | none => exact Agrees.bind ((atDepth_closed 0).warn _) fun _ => agrees_pure output
      | some ns => exact Agrees.bind (atDepth_render alarm budget [] (Nat.zero_le _) ns root) ih

end Lockstep

/-- Whatever the alarm is, it does not go off in any run: every tag is evaluated at the depth that is
the number of active includes and no more than the limit, and leaves that depth behind with an
output or with an error. So is the run as a whole. -/
theorem compose_depth (env : Environment) (alarm : Fault) (budget : Nat) (nodes : List Node)
    (root : Scope) (s : State) :
    let start : State := { s with depth := 0 }
    perform (env.composeWatched alarm budget nodes root) start =
        perform (env.compose budget nodes root) start ∧
      (perform (env.compose budget nodes root) start).2.depth = 0 := by
  intro start
  have ho : (atDepth 0).Outcome Eq (perform (env.compose budget nodes root) start)
      (perform (env.composeWatched alarm budget nodes root) start) := by
    refine Lockstep.Agrees.bind (Lockstep.atDepth_render alarm budget [] (Nat.zero_le _) nodes root)
      (fun output => ?_) start start ⟨rfl, rfl⟩
    exact Lockstep.atDepth_applyLayouts alarm budget root env.maxDepth output
  generalize perform (env.compose budget nodes root) start = r at ho ⊢
  generalize perform (env.composeWatched alarm budget nodes root) start = r' at ho ⊢
  cases ho with
  | ok hx hst =>
    obtain ⟨rfl, hdepth⟩ := hst
    exact ⟨congrArg (fun x => (Except.ok x, _)) hx.symm, hdepth⟩
  | error _ hst =>
    obtain ⟨rfl, hdepth⟩ := hst
    exact ⟨rfl, hdepth⟩
  | excused he => exact he.elim

end TagTemplate
