import TagTemplate.Proofs.Compiling
import TagTemplate.Proofs.Lockstep.Uniform
import TagTemplate.Proofs.Replay.Page

/-!
# The limit of nesting

Includes and layouts nest only so deep. Two renderings that differ in nothing but the limit do the
same until the one with the lower limit nests too deep. A page that does not nest too deep comes
therefore to the same under every higher limit.
-/

namespace TagTemplate

open Markup (Node Tag)
open TagTemplate.Action

/-- The same environment with another limit. -/
def Environment.limited (env : Environment) (limit : Nat) : Environment :=
  { env with maxDepth := limit }

def Template.limited (t : Template) (limit : Nat) : Template :=
  { t with settings.environment := t.settings.environment.limited limit }

/-- Includes or layouts nest deeper than the limit allows. -/
def Fault.isTooDeep (e : Fault) : Prop := ∃ depth tag, e = .nesting depth tag

abbrev raised : Lockstep := .sameUntil Fault.isTooDeep

namespace Lockstep

variable {env : Environment} {limit : Nat}

theorem raised_oneDeeper (hlimit : env.maxDepth ≤ limit) (name : String)
    {body body' : Action String} (hb : raised.Agrees body body') :
    raised.Agrees (env.oneDeeper name body) ((env.limited limit).oneDeeper name body') := by
  rintro s _ ⟨rfl, hs⟩
  rw [Environment.perform_oneDeeper, Environment.perform_oneDeeper]
  by_cases hdeep : env.maxDepth < s.depth + 1
  · rw [if_pos hdeep]
    exact .excused ⟨_, _, rfl⟩
  · have hpass : ¬ (env.limited limit).maxDepth < s.depth + 1 := by
      change ¬ limit < s.depth + 1
      omega
    rw [if_neg hdeep, if_neg hpass]
    have ho := hb { s with depth := s.depth + 1 } _ ⟨rfl, hs⟩
    generalize perform body { s with depth := s.depth + 1 } = r at ho
    generalize perform body' { s with depth := s.depth + 1 } = r' at ho
    cases ho with
    | ok hx hst =>
      obtain ⟨rfl, hst⟩ := hst
      exact .ok hx ⟨rfl, hst⟩
    | error _ hst =>
      obtain ⟨rfl, hst⟩ := hst
      exact .error trivial ⟨rfl, hst⟩
    | excused he => exact .excused he

theorem raised_handlers (hlimit : env.maxDepth ≤ limit) {render render' : Renderer}
    (hr : ∀ ns scope, raised.Agrees (render ns scope) (render' ns scope)) (tag : Tag) :
    raised.Handlers env (env.limited limit) render render' tag tag := by
  have finish : ∀ text options,
      raised.Agrees (env.finish text options) ((env.limited limit).finish text options) :=
    fun text options => sameUntil_host.finish rfl text options
  constructor
  · intro _ _ options scope _
    apply agrees_renderInclude (sameUntil_closed.warn _)
    · intro name _
      exact (sameUntil_template env name).found
    · rintro name ns _ rfl
      apply raised_oneDeeper hlimit name
      exact Agrees.bind (hr ns scope) fun text => finish text options
  · intro _ _ options scope _
    apply agrees_renderLayout
    rintro name _ _ s _ ⟨rfl, hs⟩
    exact ⟨rfl, hs⟩
  · intro _ _ options scope _
    apply agrees_renderBlock
    rintro region _ s _ ⟨rfl, hs⟩
    exact ⟨rfl, hs⟩
  · intro _ _ options scope _
    have lookup : ∀ region s t, raised.states s t →
        Option.Rel Eq (s.registry.blocks.lookup region) (t.registry.blocks.lookup region) := by
      rintro region s _ ⟨rfl, -⟩
      exact optionRel_refl _
    refine agrees_renderRegion (lookup _) ?_ (finish · options) (hr _ scope) ?_
    · rintro region s _ ⟨rfl, hs⟩
      exact ⟨rfl, hs⟩
    · rintro block _ rfl
      exact hr block.nodes block.scope

theorem raised_render (hlimit : env.maxDepth ≤ limit) (budget : Nat) (ns : List Node)
    (scope : Scope) :
    raised.Agrees (env.render budget ns scope) ((env.limited limit).render budget ns scope) := by
  have filters : env.filters = (env.limited limit).filters := rfl
  have exported : ∀ name, raised.Agrees (env.exported name) (env.exported name) :=
    sameUntil_closed.exported env fun _ _ _ _ _ => trivial
  refine render_agrees (P := fun _ => True) (L := fun _ : Unit => raised) (fun _ => sameUntil_host)
    filters (fun _ => exported) (fun _ => trivial) ?_ budget () ns scope fun _ _ => trivial
  intro render render' hr _ tag _ _
  exact raised_handlers hlimit (fun ns scope => hr () ns scope fun _ _ => trivial) tag

theorem raised_applyLayouts (hlimit : env.maxDepth ≤ limit) (budget : Nat) (root : Scope)
    {remaining remaining' : Nat} (hle : remaining ≤ remaining') (output : String) :
    raised.Agrees (env.applyLayouts budget root remaining output)
      ((env.limited limit).applyLayouts budget root remaining' output) := by
  induction remaining generalizing remaining' output with
  | zero =>
    unfold Environment.applyLayouts
    refine Agrees.bind (sameUntil_self fun _ => rfl) fun taken => ?_
    cases taken with
    | none => exact agrees_pure output
    | some name => exact relates_of_excused ⟨_, _, rfl⟩
  | succ remaining ih =>
    obtain ⟨remaining', rfl⟩ : ∃ k, remaining' = k + 1 := ⟨remaining' - 1, by omega⟩
    unfold Environment.applyLayouts
    refine Agrees.bind (sameUntil_self fun _ => rfl) fun taken => ?_
    cases taken with
    | none => exact agrees_pure output
    | some name =>
      refine Agrees.bind (sameUntil_template env _) fun layout => ?_
      cases layout with
      | none => exact Agrees.bind (sameUntil_closed.warn _) fun _ => agrees_pure output
      | some ns =>
        refine Agrees.bind (raised_render hlimit budget ns root) fun text => ?_
        exact ih (by omega) text

theorem raised_compose (hlimit : env.maxDepth ≤ limit) (budget : Nat) (ns : List Node)
    (root : Scope) :
    raised.Agrees (env.compose budget ns root) ((env.limited limit).compose budget ns root) := by
  unfold Environment.compose
  refine Agrees.bind (raised_render hlimit budget ns root) fun text => ?_
  exact raised_applyLayouts hlimit budget root hlimit text

theorem Agrees.guardRaised {a b : Action String} (h : raised.Agrees a b) :
    raised.Agrees (env.guardRecursion a) ((env.limited limit).guardRecursion b) := by
  rintro s _ ⟨rfl, hs⟩
  have ho := h s s ⟨rfl, hs⟩
  rw [env.perform_guardRecursion, (env.limited limit).perform_guardRecursion]
  generalize perform a s = r at ho
  generalize perform b s = r' at ho
  cases ho with
  | ok hx hst =>
    subst hx
    exact .ok rfl hst
  | @error e _ _ _ hst =>
    dsimp only [Environment.guarded]
    split
    · exact .excused ⟨_, _, rfl⟩
    · exact .excused ⟨_, _, rfl⟩
    · exact .error trivial hst
  | excused he =>
    obtain ⟨depth, tag, rfl⟩ := he
    exact .excused ⟨depth, tag, rfl⟩

theorem raised_renderPage (hlimit : env.maxDepth ≤ limit) (budget : Nat) (ns : List Node)
    (content : HostValue) :
    raised.Agrees (env.renderPage budget ns content)
      ((env.limited limit).renderPage budget ns content) := by
  unfold Environment.renderPage
  refine Agrees.bind (sameUntil_host.refresh _) fun v => ?_
  refine Agrees.bind (sameUntil_host.ofHost v).map fun root => ?_
  exact (raised_compose hlimit budget ns root).guardRaised

end Lockstep

theorem Template.compiled_limited (t : Template) (limit budget : Nat) (host : HostState) :
    (t.limited limit).compiled budget host =
      ((t.compiled budget host).1, (t.compiled budget host).2.1.limited limit,
        (t.compiled budget host).2.2) :=
  Template.compiled_mapEnvironment (f := (·.limited limit)) (fun _ => rfl) (fun _ => rfl) budget t
    host

theorem renderNodes_limited (t : Template) {limit higher : Nat} (hle : limit ≤ higher)
    (budget : Nat) (nodes : List Node) (content : HostValue) (host : HostState)
    (hlets : host.program.LetsThrough Fault.isTooDeep)
    (h : ∀ depth tag,
      ((t.limited limit).renderNodes budget nodes content host).1 ≠ .error (.nesting depth tag)) :
    (t.limited higher).renderNodes budget nodes content host =
      (t.limited limit).renderNodes budget nodes content host := by
  let low := t.settings.environment.limited limit
  let start : State := { State.start host with templates := t.preloaded nodes }
  have ho : raised.Outcome Eq (perform (low.renderPage budget nodes content) start)
      (perform ((low.limited higher).renderPage budget nodes content) start) :=
    Lockstep.raised_renderPage hle budget nodes content start start ⟨rfl, hlets⟩
  have hlow : (t.limited limit).renderNodes budget nodes content host =
      ((perform (low.renderPage budget nodes content) start).1,
        (perform (low.renderPage budget nodes content) start).2.host) := rfl
  have hhigh : (t.limited higher).renderNodes budget nodes content host =
      ((perform ((low.limited higher).renderPage budget nodes content) start).1,
        (perform ((low.limited higher).renderPage budget nodes content) start).2.host) := rfl
  rw [hlow] at h ⊢
  rw [hhigh]
  generalize perform (low.renderPage budget nodes content) start = r at ho h ⊢
  generalize perform ((low.limited higher).renderPage budget nodes content) start = r' at ho ⊢
  cases ho with
  | ok hx hst =>
    obtain ⟨rfl, -⟩ := hst
    subst hx
    rfl
  | error _ hst =>
    obtain ⟨rfl, -⟩ := hst
    rfl
  | excused he =>
    obtain ⟨depth, tag, rfl⟩ := he
    exact absurd rfl (h depth tag)

end TagTemplate
