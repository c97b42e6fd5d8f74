import TagTemplate.Proofs.Compiling
import TagTemplate.Proofs.References
import TagTemplate.Proofs.Replay.Page
import TagTemplate.Proofs.Shifting

/-!
# Sessions

A template is used step after step: it is compiled, rendered, asked for its source or shown, while
what the host reads and loads changes in between. The first step in which it can be compiled fixes
its nodes, even if that step is a rendering that fails later. Other steps that fail change nothing,
and every rendering is that of the fixed nodes with what the host reads and loads at the time.
-/

namespace TagTemplate

open Markup (Node)
open TagTemplate.Action

namespace Settings

variable (settings : Settings)

def readText : Except Fault String :=
  match settings.text, settings.name with
  | some text, _ => .ok text
  | none, some name =>
    match settings.environment.read with
    | none => .error (.resolution sourceKind name)
    | some read =>
      match read name with
      | .error fault => .error fault
      | .ok none => .error (.resolution sourceKind name)
      | .ok (some text) => .ok text
  | none, none => .error (.resolution sourceKind "")

/-- The source can be read and parsed, and every template that is reached by literal references can
be compiled or does not exist. -/
structure Ready (nodes : List Node) : Prop where
  source : ∃ text, settings.readText = .ok text ∧ Markup.compile text settings.name = .ok nodes
  references : ∀ name, settings.Reaches nodes name → settings.name ≠ some name →
    ∃ found, settings.environment.found name = .ok found

/-- Fewer templates than the budget are reached by literal references. -/
def RefersWithin (budget : Nat) : Prop :=
  ∀ text nodes, settings.readText = .ok text → Markup.compile text settings.name = .ok nodes →
    ∃ names : List String, names.length < budget ∧
      ∀ name, settings.Reaches nodes name → name ∈ names

variable {settings} {budget : Nat} {nodes : List Node}

theorem refersWithin_of_references
    (h : ∀ text nodes, settings.readText = .ok text →
      Markup.compile text settings.name = .ok nodes → settings.references nodes = []) :
    settings.RefersWithin (budget + 1) := by
  refine fun text nodes htext hnodes => ⟨[], Nat.succ_pos budget, fun name hname => ?_⟩
  refine hname.mem_of_closed ?_ fun _ hmem => absurd hmem List.not_mem_nil
  rw [h text nodes htext hnodes]
  exact fun _ => id

theorem perform_source_fst (settings : Settings) (s : State) :
    (perform settings.source s).1 = settings.readText := by
  unfold source readText
  cases settings.text with
  | some text => rfl
  | none =>
    cases settings.name with
    | none => rfl
    | some name =>
      cases hhost : settings.environment.read with
      | none => simp [Environment.readSource, hhost]
      | some read =>
        cases hread : read name with
        | error fault =>
          simp [Environment.readSource, perform_bind, hhost, hread, trace, updateHost,
            Action.ofExcept]
        | ok found =>
          cases found <;>
            simp [Environment.readSource, perform_bind, perform_map, hhost, hread, trace,
              updateHost, Action.ofExcept, Except.map]

theorem perform_followAll_unread (hread : settings.environment.read = none) (seen : List String)
    (nodes : List Node) (s : State) :
    perform (settings.followAll (budget + 1) ⟨seen, [nodes]⟩) s = (.ok (), s) := by
  have hfollow : settings.follow = fun search _ => pure search := by
    funext search tag
    unfold follow
    cases settings.reference? tag with
    | none => rfl
    | some name => simp [hread]
  have hdone : ∀ budget, settings.followAll budget ⟨seen, []⟩ = pure () := by
    intro budget
    cases budget <;> rfl
  have htags : ∀ tags : List Markup.Tag, tags.foldlM settings.follow ⟨seen, []⟩ =
      (pure ⟨seen, []⟩ : Action Search) := by
    intro tags
    rw [hfollow]
    induction tags with
    | nil => rfl
    | cons tag tags ih => rw [List.foldlM_cons, pure_bind, ih]
  rw [followAll, htags, pure_bind, hdone]
  rfl

theorem compile_ok_iff (hbudget : settings.RefersWithin budget) (host : HostState) :
    (perform (settings.compile budget) (State.start host)).1 = .ok nodes ↔
      settings.Ready nodes := by
  have hkept := source_templates settings (State.start host)
  have htext := perform_source_fst settings (State.start host)
  generalize hsource : perform settings.source (State.start host) = r at hkept htext
  obtain ⟨result, s⟩ := r
  constructor
  · intro h
    have hok := h
    cases result with
    | error fault =>
      unfold compile at h
      rw [perform_bind, hsource] at h
      cases h
    | ok text =>
      rw [perform_compile budget hsource] at h
      cases hentry : Markup.compile text settings.name with
      | error e =>
        rw [hentry] at h
        cases h
      | ok entry =>
        rw [hentry] at h
        dsimp only at h
        obtain rfl : entry = nodes := by
          generalize perform (settings.followAll budget ⟨settings.name.toList, [entry]⟩) s = r at h
          obtain ⟨_ | _, t⟩ := r
          · cases h
          · exact Except.ok.inj h
        exact ⟨⟨text, htext.symm, hentry⟩, fun name => found_of_compile hok⟩
  · -- The search ends at no reference that cannot be compiled, and runs out of budget only after
    -- as many different ones as the budget allows.
    rintro ⟨⟨text, hread, hnodes⟩, hfound⟩
    obtain rfl : result = .ok text := htext.trans hread
    obtain ⟨names, hlt, hnames⟩ := hbudget text nodes hread hnodes
    rw [perform_compile budget hsource, hnodes]
    dsimp only
    cases hhost : settings.environment.read with
    | none =>
      obtain ⟨budget, rfl⟩ := Nat.exists_eq_succ_of_ne_zero (Nat.ne_of_gt (Nat.zero_lt_of_lt hlt))
      rw [perform_followAll_unread hhost]
      rfl
    | some read =>
      have hsome : settings.environment.read.isSome := by
        rw [hhost]
        rfl
      have hend := (Searching.start settings nodes hkept).followAll hsome budget
      generalize perform (settings.followAll budget ⟨settings.name.toList, [nodes]⟩) s = r at hend
      cases hend with
      | complete => rfl
      | error hreached hother hfault =>
        obtain ⟨found, hf⟩ := hfound _ hreached hother
        cases hf.symm.trans hfault
      | @exhausted reads _ hnodup hreached hle =>
        have hsub : reads ⊆ names := fun name hmem => hnames name (hreached name hmem)
        have := (List.subperm_of_subset hnodup hsub).length_le
        omega

end Settings

namespace Template

variable {t : Template} {budget : Nat} {host : HostState} {nodes : List Node}

theorem compiled_of_error {e : Fault} (h : (t.compiled budget host).1 = .error e) :
    (t.compiled budget host).2.1 = t := by
  unfold compiled at h ⊢
  cases ht : t.nodes with
  | some nodes => rfl
  | none =>
    rw [ht] at h
    dsimp only at h ⊢
    generalize perform (t.settings.compile budget) (State.start host) = r at h ⊢
    obtain ⟨_ | nodes, s⟩ := r
    · rfl
    · cases h

theorem compiled_of_ok (h : (t.compiled budget host).1 = .ok nodes) :
    (t.compiled budget host).2.1 = { t with nodes := some nodes } := by
  unfold compiled at h ⊢
  cases ht : t.nodes with
  | some kept =>
    rw [ht] at h
    obtain rfl := Except.ok.inj h
    obtain ⟨settings, nodes⟩ := t
    obtain rfl : nodes = some kept := ht
    rfl
  | none =>
    rw [ht] at h
    dsimp only at h ⊢
    generalize perform (t.settings.compile budget) (State.start host) = r at h ⊢
    obtain ⟨_ | kept, s⟩ := r
    · cases h
    · obtain rfl := Except.ok.inj h
      rfl

theorem compiled_ok_iff (hnew : t.nodes = none) (hbudget : t.settings.RefersWithin budget) :
    (t.compiled budget host).1 = .ok nodes ↔ t.settings.Ready nodes := by
  rw [← Settings.compile_ok_iff hbudget host]
  unfold compiled
  rw [hnew]
  dsimp only
  rcases perform (t.settings.compile budget) (State.start host) with ⟨_ | _, s⟩ <;> rfl

theorem compiled_of_nodes (ht : t.nodes = some nodes) :
    t.compiled budget host = (.ok nodes, t, host) := by
  unfold compiled
  rw [ht]

theorem render_of_ok {content : HostValue} (h : (t.compiled budget host).1 = .ok nodes) :
    t.render budget content host =
      let compiled := (t.compiled budget host).2
      let rendered := compiled.1.renderNodes budget nodes content compiled.2
      (rendered.1, compiled.1, rendered.2) := by
  unfold render
  generalize t.compiled budget host = c at h ⊢
  obtain ⟨result, t', host'⟩ := c
  obtain rfl : result = .ok nodes := h
  rfl

theorem render_of_error {content : HostValue} {e : Fault}
    (h : (t.compiled budget host).1 = .error e) :
    t.render budget content host = (.error e, (t.compiled budget host).2) := by
  unfold render
  generalize t.compiled budget host = c at h ⊢
  obtain ⟨result, t', host'⟩ := c
  obtain rfl : result = .error e := h
  rfl

end Template

/-- What is done with a template, or a change of what the host reads and loads. -/
inductive Step where
  | compile
  | nodes
  | render (content : HostValue)
  | source
  | repr
  | change (read : String → Except Fault (Option String))
      (require : String → Except Fault (Option HostValue))

inductive Reply where
  | done
  | nodes (nodes : List Node)
  | text (text : String)

structure Session where
  template : Template
  host : HostState := {}

def Environment.serving (env : Environment) (read : String → Except Fault (Option String))
    (require : String → Except Fault (Option HostValue)) : Environment :=
  { env with read := env.read.map fun _ => read, require := env.require.map fun _ => require }

def Step.compiles : Step → Bool
  | .compile | .nodes | .render _ => true
  | _ => false

/-- What the template is used with after the step. -/
def Step.settings (step : Step) (settings : Settings) : Settings :=
  match step with
  | .change read require => settings.mapEnvironment (·.serving read require)
  | _ => settings

/-- What the template is used with after the steps. -/
def Settings.after (settings : Settings) (steps : List Step) : Settings :=
  steps.foldl (fun settings step => step.settings settings) settings

/-- The step compiles the template: it needs the nodes, the source can be read and parsed, and its
references are valid. -/
def Step.Succeeds (step : Step) (settings : Settings) (nodes : List Node) : Prop :=
  step.compiles ∧ settings.Ready nodes

def Settings.NeverSucceeds (settings : Settings) (steps : List Step) : Prop :=
  ∀ before step after nodes, steps = before ++ step :: after →
    ¬ step.Succeeds (settings.after before) nodes

/-- The content and the extensions that the step brings along are without a memory. -/
def Step.IsStateless : Step → Prop
  | .render content => content.isStateless true
  | .change _ require => ∀ name v, require name = .ok (some v) → v.isStateless true
  | _ => True

namespace Session

/-- Does one step, which gives something or fails. -/
def step (budget : Nat) (s : Session) : Step → Except Fault Reply × Session
  | .compile =>
    let (result, template, host) := s.template.compiled budget s.host
    (result.map fun _ => .done, ⟨template, host⟩)
  | .nodes =>
    let (result, template, host) := s.template.compiled budget s.host
    (result.map .nodes, ⟨template, host⟩)
  | .render content =>
    let (result, template, host) := s.template.render budget content s.host
    (result.map .text, ⟨template, host⟩)
  | .source =>
    let (result, state) := perform s.template.settings.source (State.start s.host)
    (result.map .text, { s with host := state.host })
  | .repr => (.ok (.text s.template.description), s)
  | .change read require =>
    (.ok .done, { s with template := s.template.mapEnvironment (·.serving read require) })

/-- Does steps one after the other, whether they fail or not. -/
def run (budget : Nat) (s : Session) (steps : List Step) : Session :=
  steps.foldl (fun s step => (s.step budget step).2) s

def new (settings : Settings) (program : HostProgram := {}) : Session where
  template := { settings }
  host := { program }

variable {budget : Nat} {s : Session} {nodes : List Node}

theorem run_append (before after : List Step) :
    s.run budget (before ++ after) = (s.run budget before).run budget after :=
  List.foldl_append

theorem step_template_of_compiles {step : Step} (h : step.compiles) :
    (s.step budget step).2.template = (s.template.compiled budget s.host).2.1 := by
  cases step with
  | compile => rfl
  | nodes => rfl
  | render content =>
    change (s.template.render budget content s.host).2.1 = _
    cases hc : (s.template.compiled budget s.host).1 with
    | error e => rw [Template.render_of_error hc]
    | ok nodes => rw [Template.render_of_ok hc]
  | _ => cases h

theorem step_template_of_not_compiles {step : Step} (h : ¬ step.compiles) :
    (s.step budget step).2.template =
      { s.template with settings := step.settings s.template.settings } := by
  cases step with
  | source => rfl
  | repr => rfl
  | change read require => rfl
  | _ => exact absurd rfl h

theorem step_settings (s : Session) (step : Step) :
    (s.step budget step).2.template.settings = step.settings s.template.settings := by
  by_cases hc : step.compiles
  · rw [step_template_of_compiles hc, Template.compiled_settings]
    cases step with
    | change read require => cases hc
    | _ => rfl
  · rw [step_template_of_not_compiles hc]

theorem run_settings (s : Session) (steps : List Step) :
    (s.run budget steps).template.settings = s.template.settings.after steps := by
  induction steps generalizing s with
  | nil => rfl
  | cons step steps ih =>
    have hsteps := ih (s.step budget step).2
    rw [step_settings] at hsteps
    exact hsteps

theorem step_nodes_of_some (hn : s.template.nodes = some nodes) (step : Step) :
    (s.step budget step).2.template.nodes = some nodes := by
  by_cases hc : step.compiles
  · rw [step_template_of_compiles hc, Template.compiled_of_nodes hn, hn]
  · rw [step_template_of_not_compiles hc, hn]

theorem run_nodes_of_some (hn : s.template.nodes = some nodes) (steps : List Step) :
    (s.run budget steps).template.nodes = some nodes := by
  induction steps generalizing s with
  | nil => exact hn
  | cons step steps ih => exact ih (step_nodes_of_some hn step)

section New

variable (hnew : s.template.nodes = none) {step : Step}

include hnew

theorem step_nodes_of_succeeds (hbudget : s.template.settings.RefersWithin budget)
    (h : step.Succeeds s.template.settings nodes) :
    (s.step budget step).2.template.nodes = some nodes := by
  rw [step_template_of_compiles h.1,
    Template.compiled_of_ok ((Template.compiled_ok_iff hnew hbudget).2 h.2)]

theorem step_nodes_of_not_succeeds (hbudget : s.template.settings.RefersWithin budget)
    (h : ∀ nodes, ¬ step.Succeeds s.template.settings nodes) :
    (s.step budget step).2.template.nodes = none := by
  by_cases hc : step.compiles
  · rw [step_template_of_compiles hc]
    cases hresult : (s.template.compiled budget s.host).1 with
    | error e => rw [Template.compiled_of_error hresult, hnew]
    | ok nodes => exact absurd ⟨hc, (Template.compiled_ok_iff hnew hbudget).1 hresult⟩ (h nodes)
  · rw [step_template_of_not_compiles hc, hnew]

theorem run_nodes_of_neverSucceeds {steps : List Step}
    (hbudget : ∀ before, before <+: steps →
      (s.template.settings.after before).RefersWithin budget)
    (h : s.template.settings.NeverSucceeds steps) :
    (s.run budget steps).template.nodes = none := by
  induction steps generalizing s with
  | nil => exact hnew
  | cons step steps ih =>
    have hnone := step_nodes_of_not_succeeds hnew (hbudget [] List.nil_prefix) fun nodes =>
      h [] step steps nodes rfl
    refine ih hnone ?_ ?_
    · rw [step_settings]
      exact fun before hb => hbudget (step :: before) (List.cons_prefix_cons.2 ⟨rfl, hb⟩)
    · rw [step_settings]
      rintro before other after nodes rfl
      exact h (step :: before) other after nodes rfl

end New

theorem step_template_of_error {step : Step} {e : Fault}
    (hbudget : s.template.settings.RefersWithin budget)
    (h : (s.step budget step).1 = .error e) :
    (s.step budget step).2.template = s.template ∨
      ∃ content nodes, step = .render content ∧ s.template.nodes = none ∧
        s.template.settings.Ready nodes ∧
        (s.step budget step).2.template = { s.template with nodes := some nodes } := by
  by_cases hc : step.compiles
  · rw [step_template_of_compiles hc]
    cases hresult : (s.template.compiled budget s.host).1 with
    | error fault => exact Or.inl (Template.compiled_of_error hresult)
    | ok nodes =>
      have hafter := Template.compiled_of_ok hresult
      cases step with
      | compile | nodes =>
        change (s.template.compiled budget s.host).1.map _ = _ at h
        rw [hresult] at h
        cases h
      | render content =>
        cases hn : s.template.nodes with
        | some kept => exact Or.inl (by rw [Template.compiled_of_nodes hn])
        | none =>
          have hready := (Template.compiled_ok_iff hn hbudget).1 hresult
          exact Or.inr ⟨content, nodes, rfl, rfl, hready, hafter⟩
      | _ => cases hc
  · cases step with
    | source => exact Or.inl rfl
    | repr => exact Or.inl rfl
    | change read require => cases h
    | _ => exact absurd rfl hc

/-- Host functions are without a memory, and only streams that have been numbered have been read. -/
structure Sound (program : HostProgram) (s : Session) : Prop where
  program : s.host.program = program
  settled : s.host.Settled
  stateless : s.template.settings.environment.Stateless

variable {program : HostProgram}

theorem Sound.compiled (h : s.Sound program) (budget : Nat) :
    Sound program
      ⟨(s.template.compiled budget s.host).2.1, (s.template.compiled budget s.host).2.2⟩ where
  program := (s.template.compiled_eq budget s.host).2.2.program.trans h.program
  settled := (s.template.compiled_eq budget s.host).2.2.settled h.settled
  stateless := by
    rw [Template.compiled_settings]
    exact h.stateless

theorem Sound.step (h : s.Sound program) {step : Step} (hstep : step.IsStateless) :
    (s.step budget step).2.Sound program := by
  have hcompiled := h.compiled budget
  cases step with
  | compile => exact hcompiled
  | nodes => exact hcompiled
  | render content =>
    change Sound program ⟨(s.template.render budget content s.host).2.1,
      (s.template.render budget content s.host).2.2⟩
    cases hc : (s.template.compiled budget s.host).1 with
    | error e =>
      rw [Template.render_of_error hc]
      exact hcompiled
    | ok nodes =>
      rw [Template.render_of_ok hc]
      have hrendered := Template.renderNodes_eq _ budget hcompiled.stateless nodes hstep
        hcompiled.settled
      exact ⟨hrendered.2.program.trans hcompiled.program, hrendered.2.settled hcompiled.settled,
        hcompiled.stateless⟩
  | source =>
    have hread : Repeats s.host 0 s.template.settings.source s.template.settings.source :=
      s.template.settings.repeats_source
    have hgoes := (Repeats.start hread []).2
    exact ⟨hgoes.program.trans h.program, hgoes.settled h.settled, h.stateless⟩
  | repr => exact h
  | change read require =>
    refine ⟨h.program, h.settled, h.stateless.filters, ?_⟩
    intro require' hrequire
    obtain ⟨_, -, rfl⟩ := Option.map_eq_some_iff.1 hrequire
    exact hstep

theorem Sound.run (h : s.Sound program) {steps : List Step}
    (hsteps : ∀ step ∈ steps, step.IsStateless) : (s.run budget steps).Sound program := by
  induction steps generalizing s with
  | nil => exact h
  | cons step steps ih =>
    rw [List.forall_mem_cons] at hsteps
    exact ih (h.step hsteps.1) hsteps.2

theorem Sound.step_render (h : s.Sound program) (hn : s.template.nodes = some nodes)
    {content : HostValue} (hc : content.isStateless true) :
    let rendered := s.template.renderNodes budget nodes content { program }
    (s.step budget (.render content)).1 = rendered.1.map .text ∧
      (s.step budget (.render content)).2.host = s.host.followedBy rendered.2 := by
  obtain rfl := h.program
  have ⟨hresult, hhost, _⟩ := s.template.renderNodes_eq budget h.stateless nodes hc h.settled
  have hrender : s.template.render budget content s.host =
      let rendered := s.template.renderNodes budget nodes content s.host
      (rendered.1, s.template, rendered.2) := by
    have hcompiled : s.template.compiled budget s.host = (.ok nodes, s.template, s.host) :=
      Template.compiled_of_nodes hn
    rw [Template.render_of_ok (congrArg Prod.fst hcompiled), hcompiled]
  change (s.template.render budget content s.host).1.map Reply.text = _ ∧
    (s.template.render budget content s.host).2.2 = _
  rw [hrender]
  exact ⟨congrArg _ hresult, hhost⟩

/-- A template is compiled in the first step in which its source can be read and parsed and its
references are valid, and keeps the nodes of that step. A step that fails leaves it as it is, unless
it is a rendering that has compiled the template before it fails. Once the template is compiled a
rendering gives what composing its nodes gives with what is read and loaded at the time, whatever
has been done before. -/
theorem compiled_once {settings : Settings} {program : HostProgram} {budget : Nat}
    {steps : List Step}
    (hbudget : ∀ before, before <+: steps → (settings.after before).RefersWithin budget)
    (henv : settings.environment.Stateless) (hsteps : ∀ step ∈ steps, step.IsStateless) :
    let session := (new settings program).run budget steps
    (settings.NeverSucceeds steps → session.template.nodes = none) ∧
    (∀ before step after nodes, steps = before ++ step :: after →
      settings.NeverSucceeds before → step.Succeeds (settings.after before) nodes →
      session.template.nodes = some nodes) ∧
    (∀ step e, (session.step budget step).1 = .error e →
      (session.step budget step).2.template = session.template ∨
        ∃ content nodes, step = .render content ∧ session.template.nodes = none ∧
          (settings.after steps).Ready nodes ∧
          (session.step budget step).2.template = { session.template with nodes := some nodes }) ∧
    ∀ nodes content, session.template.nodes = some nodes → content.isStateless true →
      let template : Template := ⟨settings.after steps, some nodes⟩
      let rendered := template.renderNodes budget nodes content { program }
      (session.step budget (.render content)).1 = rendered.1.map .text ∧
        (session.step budget (.render content)).2.host = session.host.followedBy rendered.2 := by
  have hsettings : ∀ steps,
      ((new settings program).run budget steps).template.settings = settings.after steps :=
    run_settings (new settings program)
  have hnone : ∀ {steps}, (∀ before, before <+: steps →
      (settings.after before).RefersWithin budget) → settings.NeverSucceeds steps →
      ((new settings program).run budget steps).template.nodes = none :=
    run_nodes_of_neverSucceeds (s := new settings program) rfl
  have hunread : (new settings program).host.Settled := fun _ hid => absurd hid List.not_mem_nil
  have hsound : ((new settings program).run budget steps).Sound program :=
    Sound.run ⟨rfl, hunread, henv⟩ hsteps
  refine ⟨hnone hbudget, ?_, ?_, ?_⟩
  · rintro before step after nodes rfl hbefore hstep
    have hnew := hnone (fun b hb => hbudget b (hb.trans (List.prefix_append _ _))) hbefore
    have hbound := hbudget before (List.prefix_append _ _)
    rw [← hsettings] at hbound hstep
    rw [run_append]
    exact run_nodes_of_some (step_nodes_of_succeeds hnew hbound hstep) after
  · intro step e he
    have hbound := hbudget steps (List.prefix_refl _)
    rw [← hsettings] at hbound ⊢
    exact step_template_of_error hbound he
  · intro nodes content hn hc
    have htemplate : ((new settings program).run budget steps).template =
        ⟨settings.after steps, some nodes⟩ := by
      rw [← hsettings, ← hn]
    rw [← htemplate]
    exact hsound.step_render hn hc

/-- A function raises an error after the template has been compiled for the rendering. -/
theorem step_nodes_ne_of_raised :
    let raises : HostFunction := ⟨{ required := 0, limit := none }, none, .raise .general "no"⟩
    let start := new { text := some "<pop:f/>" }
    let step : Step := .render (.object (.mapping [("f", .function raises)]))
    ∃ e, (start.step 3 step).1 = .error e ∧
      (start.step 3 step).2.template.nodes ≠ start.template.nodes := by
  intro raises start step
  have hfails : ((start.step 3 step).1.map fun _ => ()) = .error (.raised .general "no") := by
    decide +kernel
  have hnodes : (start.step 3 step).2.template.nodes.isSome := by decide +kernel
  refine ⟨_, Markup.map_eq_error.1 hfails, fun h => ?_⟩
  rw [h] at hnodes
  cases hnodes

/-- A template that cannot be parsed at first is edited, rendered, which fails, and edited again. -/
theorem compiled_once_edited :
    let read : String → String → Except Fault (Option String) := fun text _ => .ok (some text)
    let settings : Settings := { name := some "p", environment := { read := some (read "<pop:") } }
    let page (v : HostValue) : HostValue := .object (.mapping [("f", v)])
    let raises : HostFunction := ⟨{ required := 0, limit := none }, none, .raise .general "no"⟩
    let change (text : String) : Step := .change (read text) fun _ => .ok none
    let steps := [.render (page .null), change "A<pop:f/>", .render (page (.function raises)),
      change "B", .compile]
    (∀ before, before <+: steps → (settings.after before).RefersWithin 3) ∧
    settings.environment.Stateless ∧ (∀ step ∈ steps, step.IsStateless) ∧
    let session := (new settings).run 3 steps
    ∃ nodes, Markup.compile "A<pop:f/>" (some "p") = .ok nodes ∧
      session.template.nodes = some nodes ∧
      (session.step 3 (.render (page (.string "x")))).1 = .ok (.text "Ax") := by
  intro read settings page raises change steps
  have hplain : ∀ k < 6, ∀ text ∈ (settings.after (steps.take k)).readText.toOption,
      ∀ nodes ∈ (Markup.compile text (settings.after (steps.take k)).name).toOption,
        (settings.after (steps.take k)).references nodes = [] := by decide +kernel
  have hreferences : ∀ before, before <+: steps → ∀ text nodes,
      (settings.after before).readText = .ok text →
      Markup.compile text (settings.after before).name = .ok nodes →
      (settings.after before).references nodes = [] := by
    intro before hb text nodes htext hnodes
    have hk := hplain before.length (Nat.lt_succ_of_le hb.length_le)
    rw [← List.prefix_iff_eq_take.1 hb, htext] at hk
    exact hk text rfl nodes (by rw [hnodes]; rfl)
  have hbudget : ∀ before, before <+: steps → (settings.after before).RefersWithin 3 :=
    fun before hb => Settings.refersWithin_of_references (hreferences before hb)
  have henv : settings.environment.Stateless :=
    ⟨fun _ h => absurd h List.not_mem_nil, fun _ h => absurd h (Option.not_mem_none _)⟩
  have hsteps : ∀ step ∈ steps, step.IsStateless := by
    have hchange : ∀ text, (change text).IsStateless := by
      intro text name v h
      cases h
    simp only [steps, List.forall_mem_cons]
    exact ⟨rfl, hchange _, rfl, hchange _, trivial, List.forall_mem_nil _⟩
  have hrendered : (Markup.compile "A<pop:f/>" (some "p")).map (fun nodes =>
      (Template.renderNodes ⟨settings.after steps, some nodes⟩ 3 nodes (page (.string "x")) {}).1) =
        .ok (.ok "Ax") := by decide +kernel
  obtain ⟨nodes, hnodes, htext⟩ := Markup.map_eq_ok.1 hrendered
  obtain ⟨-, hfirst, -, hrender⟩ := compiled_once hbudget henv hsteps
  have hedited : (settings.after [.render (page .null), change "A<pop:f/>"]).Ready nodes := by
    refine ⟨⟨"A<pop:f/>", rfl, hnodes⟩, fun name hname _ => ?_⟩
    have hprefix : [.render (page .null), change "A<pop:f/>"] <+: steps := List.prefix_append _ _
    have hnone := hreferences _ hprefix "A<pop:f/>" nodes rfl hnodes
    have hmem : name ∈ ([] : List String) :=
      hname.mem_of_closed (by rw [hnone]; exact fun _ => id) fun _ h => absurd h List.not_mem_nil
    exact absurd hmem List.not_mem_nil
  have hunread : settings.NeverSucceeds [.render (page .null), change "A<pop:f/>"] := by
    rintro before other after nodes h
    rcases before with _ | ⟨first, _ | ⟨second, before⟩⟩
    · -- The source cannot be parsed yet.
      rintro ⟨-, ⟨text, htext, hnodes⟩, -⟩
      obtain rfl := Except.ok.inj htext
      have hfails : (Markup.compile "<pop:" (some "p")).toBool = false := by decide +kernel
      change Markup.compile "<pop:" (some "p") = .ok nodes at hnodes
      rw [hnodes] at hfails
      cases hfails
    · -- A change does not compile anything.
      obtain rfl : change "A<pop:f/>" = other := by
        injection h with _ h
        exact (List.cons.inj h).1
      exact fun hstep => absurd hstep.1 Bool.false_ne_true
    · simp at h
  have hkept := hfirst _ _ _ nodes rfl hunread ⟨rfl, hedited⟩
  have hresult := (hrender nodes (page (.string "x")) hkept rfl).1
  rw [htext] at hresult
  exact ⟨hbudget, henv, hsteps, nodes, hnodes, hkept, hresult⟩

end Session

end TagTemplate
