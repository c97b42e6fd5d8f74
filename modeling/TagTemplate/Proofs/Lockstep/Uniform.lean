import TagTemplate.Proofs.Fetching
import TagTemplate.Proofs.Lockstep.Page

/-!
# Uniform locksteps

Two runs of one page in one environment, or one run beside itself. Where corresponding states have
the same blocks and layouts and are equally deep in includes, every tag is treated alike in both
runs. So it is enough to look at the single things that a tag can do.
-/

namespace TagTemplate

open Markup (Node Tag)
open TagTemplate.Action

namespace Lockstep

/-- Corresponding states differ neither in the blocks kept, nor in the layout asked for, nor in
depth, and correspond after everything that a tag does. All errors are allowed. -/
structure Uniform (L : Lockstep) (env : Environment) : Prop where
  host : L.HostClosed
  allowed : ∀ e, L.allowed e
  blocks_eq : ∀ {s t}, L.states s t → s.registry.blocks = t.registry.blocks
  pending_eq : ∀ {s t}, L.states s t → s.registry.pending = t.registry.pending
  depth_eq : ∀ {s t}, L.states s t → s.depth = t.depth
  warn : ∀ warning, L.Agrees (warn warning) (warn warning)
  template : ∀ name, L.Agrees (env.template name) (env.template name)
  exported : ∀ name, L.Agrees (env.exported name) (env.exported name)
  depth : ∀ {s t}, L.states s t → ∀ d, L.states { s with depth := d } { t with depth := d }
  ended_depth : ∀ {s t}, L.ended s t →
    L.ended { s with depth := s.depth - 1 } { t with depth := t.depth - 1 }
  request : ∀ {s t}, L.states s t → ∀ name, name ≠ "" →
    L.states { s with registry := s.registry.requestLayout name }
      { t with registry := t.registry.requestLayout name }
  block : ∀ {s t}, L.states s t → ∀ region block, region ≠ "" →
    L.states { s with registry := s.registry.addBlock region block }
      { t with registry := t.registry.addBlock region block }
  find : ∀ {s t}, L.states s t → ∀ region,
    L.states { s with registry := (s.registry.findBlock region).2 }
      { t with registry := (t.registry.findBlock region).2 }

namespace Uniform

variable {L : Lockstep} {env : Environment} (h : L.Uniform env)

include h

theorem nodes (name : String) :
    L.Relates (Option.Rel Eq) (env.template name) (env.template name) := (h.template name).found

theorem handlers {render render' : Renderer}
    (hr : ∀ ns scope, L.Agrees (render ns scope) (render' ns scope)) (tag : Tag) :
    L.Handlers env env render render' tag tag := by
  have finish : ∀ text options, L.Agrees (env.finish text options) (env.finish text options) :=
    fun text options => h.host.finish rfl text options
  have lookup : ∀ region s t, L.states s t →
      Option.Rel Eq (s.registry.blocks.lookup region) (t.registry.blocks.lookup region) := by
    intro region s t hs
    rw [h.blocks_eq hs]
    exact optionRel_refl _
  refine ⟨?_, ?_, ?_, ?_⟩
  · intro _ _ options scope _
    refine agrees_renderInclude (h.warn _) (fun name _ => h.nodes name) ?_
    rintro name ns _ rfl
    refine relates_oneDeeper (fun _ => h.allowed _) h.depth_eq h.depth h.ended_depth name ?_
    exact Agrees.bind (hr ns scope) fun text => finish text options
  · intro _ _ options scope _
    exact agrees_renderLayout fun name _ hn s t hs => h.request hs name hn
  · intro _ _ options scope _
    exact agrees_renderBlock fun region hregion s t hs => h.block hs region _ hregion
  · intro _ _ options scope _
    refine agrees_renderRegion (lookup _) ?_ (finish · options) (hr _ scope) ?_
    · exact fun region s t hs => h.find hs region
    · rintro block _ rfl
      exact hr block.nodes block.scope

theorem render (budget : Nat) (ns : List Node) (scope : Scope) :
    L.Agrees (env.render budget ns scope) (env.render budget ns scope) := by
  refine render_agrees (P := fun _ => True) (L := fun _ : Unit => L) (fun _ => h.host) rfl
    (fun _ => h.exported) (fun _ => h.allowed _) ?_ budget () ns scope fun _ _ => trivial
  intro render render' hr _ tag _ _
  exact h.handlers (fun ns scope => hr () ns scope fun _ _ => trivial) tag

theorem compose (take : ∀ {s t}, L.states s t →
      L.states { s with registry := s.registry.takeLayout.2 }
        { t with registry := t.registry.takeLayout.2 })
    (budget : Nat) (ns : List Node) (root : Scope) :
    L.Agrees (env.compose budget ns root) (env.compose budget ns root) := by
  have taken : L.Relates (fun m m' => m = m' ∧ ∀ name ∈ m, True) Environment.takeLayout
      Environment.takeLayout := by
    intro s t hs
    exact .ok ⟨h.pending_eq hs, fun _ _ => trivial⟩ (take hs)
  have rendered : ∀ {ns ns'}, ns = ns' →
      L.Agrees (env.render budget ns root) (env.render budget ns' root) := by
    rintro ns _ rfl
    exact h.render budget ns root
  exact compose_agrees rendered taken (fun _ => h.nodes _) (fun name => h.warn _) rfl
    (Or.inl (h.allowed _)) rfl

theorem renderPage (take : ∀ {s t}, L.states s t →
      L.states { s with registry := s.registry.takeLayout.2 }
        { t with registry := t.registry.takeLayout.2 })
    (excused : ∀ e, ¬ L.excused e) (budget : Nat) (ns : List Node) (content : HostValue) :
    L.Agrees (env.renderPage budget ns content) (env.renderPage budget ns content) := by
  refine Agrees.bind (h.host.refresh _) fun v => ?_
  refine Agrees.bind (h.host.ofHost v).map fun root => ?_
  exact (h.compose take budget ns root).guardRecursion rfl h.allowed excused

end Uniform

theorem sameUntil_uniform (excused : Fault → Prop) (env : Environment) :
    (sameUntil excused).Uniform env where
  host := sameUntil_host
  allowed _ := trivial
  blocks_eq hs := congrArg (·.registry.blocks) hs.1
  pending_eq hs := congrArg (·.registry.pending) hs.1
  depth_eq hs := congrArg State.depth hs.1
  warn := sameUntil_closed.warn
  template := sameUntil_template env
  exported := sameUntil_closed.exported env fun _ _ _ _ _ => trivial
  depth := by
    rintro s _ ⟨rfl, hs⟩ d
    exact ⟨rfl, hs⟩
  ended_depth := by
    rintro s _ ⟨rfl, hs⟩
    exact ⟨rfl, hs⟩
  request := by
    rintro s _ ⟨rfl, hs⟩ name _
    exact ⟨rfl, hs⟩
  block := by
    rintro s _ ⟨rfl, hs⟩ region block _
    exact ⟨rfl, hs⟩
  find := by
    rintro s _ ⟨rfl, hs⟩ region
    exact ⟨rfl, hs⟩

end Lockstep

end TagTemplate
