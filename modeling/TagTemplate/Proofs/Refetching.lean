import TagTemplate.Proofs.Data
import TagTemplate.Proofs.FetchedOnce

/-!
# Keeping what is fetched changes nothing

Beside a rendering that keeps what it has fetched stands one that keeps nothing but what it started
with: everything is forgotten right before it could be used, so that each use reads, compiles and
loads anew. Both end alike if the host gives the same answer every time.
-/

namespace TagTemplate

open Markup (Node Tag)
open TagTemplate.Action

namespace Environment

def forget (templates : OrderedMap (Option (List Node))) : Action Unit :=
  Action.update fun s => { s with templates, extensions := [] }

variable (env : Environment) (own : OrderedMap (Option (List Node)))

/-- Renders a tag. A tag uses a template or an extension only once, and before anything inside it is
rendered. -/
def renderTagAfresh (render : Renderer) (budget : Nat) (tag : Tag) (scope : Scope) :
    Action String := do
  let options ← optionsOf render scope tag
  forget own
  return orDefault (← env.renderWith render budget tag options scope) options

def renderNodeAfresh (render : Renderer) (budget : Nat) (scope : Scope) : Node → Action String
  | .text value => return value
  | .tag tag => env.renderTagAfresh own render budget tag scope

def renderAfresh : Nat → Renderer
  | 0 => fun _ _ => Action.fail .exhausted
  | budget + 1 => fun nodes scope => do
    return String.join (← nodes.mapM
      (env.renderNodeAfresh own (renderAfresh budget) budget scope))

def applyLayoutsAfresh (budget : Nat) (root : Scope) : Nat → String → Action String
  | remaining, output => do
    match ← takeLayout with
    | none => return output
    | some name =>
      match remaining with
      | 0 => Action.fail (.nesting env.maxDepth "layout")
      | remaining + 1 =>
        forget own
        match ← env.layout name with
        | none =>
          Action.warn (.layout name)
          return output
        | some nodes =>
          applyLayoutsAfresh budget root remaining (← env.renderAfresh own budget nodes root)

def composeAfresh (budget : Nat) (nodes : List Node) (root : Scope) : Action String := do
  env.applyLayoutsAfresh own budget root env.maxDepth (← env.renderAfresh own budget nodes root)

def renderPageAfresh (budget : Nat) (nodes : List Node) (content : HostValue) :
    Action String := do
  let root ← Scope.ofHost (← (pageContent content).refresh)
  env.guardRecursion (env.composeAfresh own budget nodes root)

end Environment

/-- Renders a compiled template and keeps nothing of what is fetched. -/
def Template.renderNodesAfresh (t : Template) (budget : Nat) (nodes : List Node)
    (content : HostValue) (host : HostState) : Except Fault String × HostState :=
  let result := Action.perform
    (t.settings.environment.renderPageAfresh (t.preloaded nodes) budget nodes content)
    { State.start host with templates := t.preloaded nodes }
  (result.1, result.2.host)

namespace Environment

variable (env : Environment) (own : OrderedMap (Option (List Node)))

def Exports (name : String) (result : Except Fault (Option Content)) : Prop :=
  ∀ s, ∃ host, perform (env.fetchExtension name) s = (result, { s with host }) ∧
    host.Agrees s.host

/-- What is kept is what there was at the start and what fetching gives. -/
structure Exact (templates : OrderedMap (Option (List Node)))
    (extensions : OrderedMap (Option Content)) : Prop where
  template : ∀ name, env.resolved name { templates } = env.resolved name { templates := own }
  extension : ∀ name c, extensions.lookup name = some c → env.Exports name (.ok c)

def Settles {α : Type} (a : Action α) (result : Except Fault α) : Prop :=
  ∀ s, env.Exact own s.templates s.extensions → ∃ host templates extensions,
    perform a s = (result, { s with host, templates, extensions }) ∧ host.Agrees s.host ∧
      env.Exact own templates extensions

variable {env own}

theorem settles_template (name : String) :
    env.Settles own (env.template name) (env.resolved name { templates := own }) := by
  intro s hs
  obtain ⟨templates, host, hlooked, hagree⟩ := env.looked_eq name s
  have hresolved := env.resolved_looked name s
  rw [hlooked] at hresolved
  refine ⟨host, templates, s.extensions, ?_, hagree, ?_, hs.extension⟩
  · rw [env.perform_template, hlooked]
    exact congrArg (fun r => (r, _)) (hs.template name)
  · exact fun other => (hresolved other).trans (hs.template other)

theorem settles_exported {name : String} {result : Except Fault (Option Content)}
    (hx : env.Exports name result) : env.Settles own (env.exported name) result := by
  intro s hs
  obtain ⟨host, hfetch, hagree⟩ := hx s
  rw [env.perform_exported]
  cases hkept : s.extensions.lookup name with
  | some c =>
    obtain ⟨_, hfetch', -⟩ := hs.extension name c hkept s
    have hc : Except.ok c = result := congrArg Prod.fst (hfetch'.symm.trans hfetch)
    subst hc
    exact ⟨s.host, s.templates, s.extensions, rfl, .refl _, hs⟩
  | none =>
    dsimp only
    rw [hfetch]
    cases result with
    | error e => exact ⟨host, s.templates, s.extensions, rfl, hagree, hs⟩
    | ok c =>
      refine ⟨host, s.templates, OrderedMap.insert s.extensions name c, rfl, hagree,
        hs.template, ?_⟩
      intro other c' hother
      by_cases ho : other = name
      · subst ho
        rw [OrderedMap.lookup_insert_self] at hother
        cases hother
        exact hx
      · rw [OrderedMap.lookup_insert_of_ne _ _ ho] at hother
        exact hs.extension other c' hother

theorem perform_decodeExport (name : String) {loaded : Except Fault (Option HostValue)}
    (hplain : ∀ v, loaded = .ok (some v) → v.every HostValue.isPlain) :
    ∃ result, ∀ s, ∃ host, perform (decodeExport name loaded) s = (result, { s with host }) ∧
      host.Agrees s.host := by
  have missing : ∀ s, ∃ host,
      perform (decodeExport name (.ok none)) s = (.ok none, { s with host }) ∧
        host.Agrees s.host :=
    fun s => ⟨_, rfl, rfl, rfl, rfl, rfl, rfl⟩
  rcases loaded with e | _ | v
  · exact ⟨.error e, fun s => ⟨s.host, rfl, .refl _⟩⟩
  · exact ⟨.ok none, missing⟩
  · by_cases hv : v = .null
    · subst hv
      exact ⟨.ok none, missing⟩
    · have hself := HostValue.every_self (hplain v rfl)
      rw [decodeExport_plain name (fun _ _ => rfl) (hplain v rfl) hself hv]
      exact ⟨.ok (some v.plainContent), fun s => ⟨s.host, rfl, .refl _⟩⟩

theorem exports_of_plain
    (hplain : ∀ require ∈ env.require, ∀ name v, require name = .ok (some v) →
      v.every HostValue.isPlain) (name : String) : ∃ result, env.Exports name result := by
  unfold Exports
  rw [env.fetchExtension_eq]
  cases hr : env.require with
  | none => exact perform_decodeExport name nofun
  | some require =>
    obtain ⟨result, hdecode⟩ := perform_decodeExport name (hplain require hr name)
    refine ⟨result, fun s => ?_⟩
    obtain ⟨host, hperform, hagree⟩ :=
      hdecode { s with host.calls := s.host.calls ++ [.require name] }
    refine ⟨host, hperform, hagree.trans ?_⟩
    exact ⟨rfl, rfl, rfl, rfl, by simp [functionCalls]⟩

end Environment

/-- Both states keep nothing wrong. What they keep may differ. -/
structure Refetched (env : Environment) (own : OrderedMap (Option (List Node))) (s t : State) :
    Prop where
  host : s.host.Agrees t.host
  registry : s.registry = t.registry
  depth : s.depth = t.depth
  left : env.Exact own s.templates s.extensions
  right : env.Exact own t.templates t.extensions

def refetching (env : Environment) (own : OrderedMap (Option (List Node))) : Lockstep where
  states := Refetched env own

namespace Lockstep

variable {env : Environment} {own : OrderedMap (Option (List Node))}

theorem refetching_change {s t : State} (hs : (refetching env own).states s t) {h h' : HostState}
    (_ : h.program = s.host.program) (hh : h.Agrees h') :
    (refetching env own).states { s with host := h } { t with host := h' } :=
  ⟨hh, hs.registry, hs.depth, hs.left, hs.right⟩

theorem refetching_settles {α : Type} {a : Action α} {result : Except Fault α}
    (h : env.Settles own a result) : (refetching env own).Agrees a a := by
  intro s t hs
  obtain ⟨host, templates, extensions, hperform, hagree, hexact⟩ := h s hs.left
  obtain ⟨host', templates', extensions', hperform', hagree', hexact'⟩ := h t hs.right
  have hst : (refetching env own).states { s with host, templates, extensions }
      { t with host := host', templates := templates', extensions := extensions' } :=
    ⟨hagree.trans (hs.host.trans hagree'.symm), hs.registry, hs.depth, hexact, hexact'⟩
  rw [hperform, hperform']
  cases result with
  | ok x => exact .ok rfl hst
  | error e => exact .error trivial hst

theorem refetching_forget {s t : State} (hs : (refetching env own).states s t) :
    (refetching env own).states s { t with templates := own, extensions := [] } :=
  ⟨hs.host, hs.registry, hs.depth, hs.left, ⟨fun _ => rfl, nofun⟩⟩

section Loading

variable (hload : ∀ name, ∃ result, env.Exports name result)

include hload

theorem refetching_uniform : (refetching env own).Uniform env where
  host := .of_agrees Refetched.host refetching_change (fun _ => trivial) fun _ _ _ _ => ⟨id, id⟩
  allowed _ := trivial
  blocks_eq hs := congrArg Registry.blocks hs.registry
  pending_eq hs := congrArg Registry.pending hs.registry
  depth_eq hs := hs.depth
  warn := agrees_warn Refetched.host refetching_change
  template name := refetching_settles (Environment.settles_template name)
  exported name := by
    obtain ⟨result, hresult⟩ := hload name
    exact refetching_settles (Environment.settles_exported hresult)
  depth hs d := ⟨hs.host, hs.registry, rfl, hs.left, hs.right⟩
  ended_depth hs := ⟨hs.host, hs.registry, congrArg (· - 1) hs.depth, hs.left, hs.right⟩
  request hs name _ := ⟨hs.host, congrArg (·.requestLayout name) hs.registry, hs.depth,
    hs.left, hs.right⟩
  block hs region block _ := ⟨hs.host, congrArg (·.addBlock region block) hs.registry, hs.depth,
    hs.left, hs.right⟩
  find hs region := ⟨hs.host, congrArg (fun r => (r.findBlock region).2) hs.registry, hs.depth,
    hs.left, hs.right⟩

theorem refetching_render (budget : Nat) : ∀ (nodes : List Node) (scope : Scope),
    (refetching env own).Agrees (env.render budget nodes scope)
      (env.renderAfresh own budget nodes scope) := by
  induction budget with
  | zero => exact fun nodes scope => relates_fail trivial
  | succ budget ih =>
    intro nodes scope
    have huniform : (refetching env own).Uniform env := refetching_uniform hload
    have hp := pairing_sameTree (P := fun _ => True) huniform.host rfl huniform.exported trivial
      (fun nodes scope _ => ih nodes scope) budget
    refine Agrees.map (agrees_mapM (List.forall₂_same.2 fun _ _ => rfl) ?_)
    rintro node _ rfl
    cases node with
    | text value => exact agrees_pure value
    | tag tag =>
      refine Relates.bind (hp.optionsOf (sameTree_tag fun _ _ => trivial) rfl) ?_
      rintro options _ ⟨rfl, hf⟩
      refine Relates.after_update ?_ fun _ _ => refetching_forget
      have hhandlers := huniform.handlers ih tag
      exact (hp.renderWith_same (sameTree_tag fun _ _ => trivial) hhandlers hf scope).map

theorem refetching_applyLayouts (budget : Nat) (root : Scope) (remaining : Nat) :
    ∀ output, (refetching env own).Agrees (env.applyLayouts budget root remaining output)
      (env.applyLayoutsAfresh own budget root remaining output) := by
  have huniform : (refetching env own).Uniform env := refetching_uniform hload
  have htake : (refetching env own).Agrees Environment.takeLayout Environment.takeLayout := by
    intro s t hs
    refine .ok (congrArg Registry.pending hs.registry) ?_
    exact ⟨hs.host, congrArg (fun r => r.takeLayout.2) hs.registry, hs.depth,
      hs.left, hs.right⟩
  induction remaining with
  | zero =>
    intro output
    unfold Environment.applyLayouts Environment.applyLayoutsAfresh
    refine Agrees.bind htake fun name => ?_
    cases name with
    | none => exact agrees_pure _
    | some name => exact relates_fail trivial
  | succ remaining ih =>
    intro output
    unfold Environment.applyLayouts Environment.applyLayoutsAfresh
    refine Agrees.bind htake fun name => ?_
    cases name with
    | none => exact agrees_pure _
    | some name =>
      refine Relates.after_update ?_ fun _ _ => refetching_forget
      refine Agrees.bind (huniform.template _) fun layout => ?_
      cases layout with
      | none => exact Agrees.bind (huniform.warn _) fun _ => agrees_pure _
      | some nodes => exact Agrees.bind (refetching_render hload budget nodes root) ih

theorem refetching_renderPage (budget : Nat) (nodes : List Node) (content : HostValue) :
    (refetching env own).Agrees (env.renderPage budget nodes content)
      (env.renderPageAfresh own budget nodes content) := by
  have huniform : (refetching env own).Uniform env := refetching_uniform hload
  refine Agrees.bind (huniform.host.refresh _) fun v => ?_
  refine Agrees.bind (huniform.host.ofHost v).map fun root => ?_
  refine Agrees.guardRecursion ?_ rfl (fun _ => trivial) fun _ => id
  exact Agrees.bind (refetching_render hload budget nodes root)
    (refetching_applyLayouts hload budget root env.maxDepth)

end Loading

end Lockstep

end TagTemplate
