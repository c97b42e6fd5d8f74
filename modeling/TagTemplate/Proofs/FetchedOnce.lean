import Mathlib.Data.List.Nodup
import TagTemplate.Proofs.Lockstep.Uniform
import TagTemplate.Template

/-!
# What is fetched is fetched once

A rendering reads no template twice and never its own, and it loads no extension twice. What has
been asked for is kept until the end, also when there was nothing of that name. What cannot be kept
is a fault, and a fault ends the rendering.
-/

namespace TagTemplate

open Markup (Node)
open TagTemplate.Action

def Call.read? : Call → Option String
  | .read name => some name
  | _ => none

def Call.required? : Call → Option String
  | .require name => some name
  | _ => none

/-- The templates that are read, in order. -/
def readNames (calls : List Call) : List String := calls.filterMap Call.read?

/-- The extensions that are loaded, in order. -/
def requiredNames (calls : List Call) : List String := calls.filterMap Call.required?

theorem readNames_concat (calls : List Call) (call : Call) :
    readNames (calls ++ [call]) = readNames calls ++ call.read?.toList := by
  unfold readNames
  rw [List.filterMap_append]
  cases call <;> rfl

theorem requiredNames_concat (calls : List Call) (call : Call) :
    requiredNames (calls ++ [call]) = requiredNames calls ++ call.required?.toList := by
  unfold requiredNames
  rw [List.filterMap_append]
  cases call <;> rfl

/-- No template is read twice or under the own name, and no extension is loaded twice. -/
structure NoneTwice (own : Option String) (calls : List Call) : Prop where
  reads : (readNames calls).Nodup
  others : ∀ name, own = some name → name ∉ readNames calls
  required : (requiredNames calls).Nodup

/-- What the calls have asked for is kept, apart from an extension that is being loaded. -/
structure Kept (own loading : Option String) (calls : List Call)
    (templates : OrderedMap (Option (List Node))) (extensions : OrderedMap (Option Content)) :
    Prop where
  once : NoneTwice own calls
  template : ∀ name, own = some name ∨ name ∈ readNames calls → (templates.lookup name).isSome
  extension : ∀ name ∈ requiredNames calls,
    loading = some name ∨ (extensions.lookup name).isSome

theorem isSome_lookup_insert {α : Type} (m : OrderedMap α) {name other : String} (value : α)
    (h : other = name ∨ (m.lookup other).isSome) :
    ((OrderedMap.insert m name value).lookup other).isSome := by
  by_cases ho : other = name
  · rw [ho, OrderedMap.lookup_insert_self]
    rfl
  · rw [OrderedMap.lookup_insert_of_ne _ _ ho]
    exact h.resolve_left ho

variable {own loading : Option String} {calls : List Call} {name : String}

theorem NoneTwice.read (h : NoneTwice own calls) (ho : own ≠ some name)
    (hn : name ∉ readNames calls) : NoneTwice own (calls ++ [.read name]) := by
  have hr : readNames (calls ++ [.read name]) = readNames calls ++ [name] :=
    readNames_concat calls _
  have hq : requiredNames (calls ++ [.read name]) = requiredNames calls :=
    (requiredNames_concat calls _).trans (List.append_nil _)
  refine ⟨?_, ?_, hq ▸ h.required⟩
  · rw [hr, ← List.concat_eq_append]
    exact (List.nodup_concat _ _).2 ⟨hn, h.reads⟩
  · intro other hother hmem
    rw [hr, List.mem_append, List.mem_singleton] at hmem
    rcases hmem with hmem | rfl
    · exact h.others other hother hmem
    · exact ho hother

theorem NoneTwice.require (h : NoneTwice own calls) (hn : name ∉ requiredNames calls) :
    NoneTwice own (calls ++ [.require name]) := by
  have hr : readNames (calls ++ [.require name]) = readNames calls :=
    (readNames_concat calls _).trans (List.append_nil _)
  have hq : requiredNames (calls ++ [.require name]) = requiredNames calls ++ [name] :=
    requiredNames_concat calls _
  refine ⟨hr ▸ h.reads, hr ▸ h.others, ?_⟩
  rw [hq, ← List.concat_eq_append]
  exact (List.nodup_concat _ _).2 ⟨hn, h.required⟩

namespace Kept

variable {templates : OrderedMap (Option (List Node))} {extensions : OrderedMap (Option Content)}

theorem function (h : Kept own loading calls templates extensions) (label : String) :
    Kept own loading (calls ++ [.function label]) templates extensions := by
  have hr : readNames (calls ++ [.function label]) = readNames calls :=
    (readNames_concat calls _).trans (List.append_nil _)
  have hq : requiredNames (calls ++ [.function label]) = requiredNames calls :=
    (requiredNames_concat calls _).trans (List.append_nil _)
  refine ⟨⟨?_, ?_, ?_⟩, ?_, ?_⟩
  · exact hr ▸ h.once.reads
  · exact hr ▸ h.once.others
  · exact hq ▸ h.once.required
  · exact hr ▸ h.template
  · exact hq ▸ h.extension

theorem read (h : Kept own loading calls templates extensions) (hk : templates.lookup name = none)
    (env : Environment) (found : Option (List Node)) :
    Kept own loading (calls ++ env.readCalls name) (OrderedMap.insert templates name found)
      extensions := by
  have hnew : ∀ other, own = some other ∨ other ∈ readNames calls → other ≠ name := by
    rintro other hother rfl
    have hsome := h.template other hother
    rw [hk] at hsome
    cases hsome
  unfold Environment.readCalls
  by_cases hread : env.read.isSome
  · rw [if_pos hread]
    refine ⟨h.once.read (fun ho => hnew name (Or.inl ho) rfl) (fun hn => hnew name (Or.inr hn) rfl),
      ?_, ?_⟩
    · intro other hother
      refine isSome_lookup_insert _ _ ?_
      rw [readNames_concat, List.mem_append] at hother
      rcases hother with ho | hn | hn
      · exact Or.inr (h.template other (Or.inl ho))
      · exact Or.inr (h.template other (Or.inr hn))
      · exact Or.inl (List.mem_singleton.1 hn)
    · rw [requiredNames_concat]
      intro other hother
      exact h.extension other (by simpa [Call.required?] using hother)
  · rw [if_neg hread, List.append_nil]
    exact ⟨h.once, fun other hother => isSome_lookup_insert _ _ (Or.inr (h.template other hother)),
      h.extension⟩

theorem load (h : Kept own none calls templates extensions) (hk : extensions.lookup name = none) :
    Kept own (some name) (calls ++ [.require name]) templates extensions := by
  have hnew : name ∉ requiredNames calls := by
    intro hn
    have hsome := (h.extension name hn).resolve_left nofun
    rw [hk] at hsome
    cases hsome
  refine ⟨h.once.require hnew, ?_, ?_⟩
  · rw [readNames_concat]
    intro other hother
    exact h.template other (by simpa [Call.read?] using hother)
  · intro other hother
    rw [requiredNames_concat, List.mem_append] at hother
    rcases hother with hn | hn
    · exact Or.inr ((h.extension other hn).resolve_left nofun)
    · exact Or.inl (congrArg some (List.mem_singleton.1 hn).symm)

theorem loading_of_none (h : Kept own none calls templates extensions) :
    Kept own loading calls templates extensions :=
  ⟨h.once, h.template, fun other hn => Or.inr ((h.extension other hn).resolve_left nofun)⟩

theorem loaded (h : Kept own (some name) calls templates extensions) (c : Option Content) :
    Kept own none calls templates (OrderedMap.insert extensions name c) := by
  refine ⟨h.once, h.template, fun other hn => Or.inr (isSome_lookup_insert _ _ ?_)⟩
  rcases h.extension other hn with ho | hsome
  · exact Or.inl (Option.some.inj ho).symm
  · exact Or.inr hsome

end Kept

/-- No handler of the program catches an error. -/
def HostProgram.LetsAllThrough (p : HostProgram) : Prop := p.LetsThrough fun _ => True

/-- A run beside itself, after the given calls, where host code catches no errors. An error leaves of
the invariant only that nothing has been fetched twice. -/
def fetching (own : Option String) (before : List Call) (loading : Option String) : Lockstep where
  states s t := s = t ∧ s.host.program.LetsAllThrough ∧ ∃ calls, s.host.calls = before ++ calls ∧
    Kept own loading calls s.templates s.extensions
  ended s t := s = t ∧ ∃ calls, s.host.calls = before ++ calls ∧ NoneTwice own calls
  ended_of_states := by
    rintro s _ ⟨rfl, -, calls, hc, hk⟩
    exact ⟨rfl, calls, hc, hk.once⟩

namespace Lockstep

variable {own loading : Option String} {before : List Call} {env : Environment}

theorem fetching_host : (fetching own before loading).HostClosed := by
  refine ⟨?_, ?_, ?_, ?_, ?_, fun _ => trivial, fun _ _ _ _ => trivial, ?_⟩
  · rintro s _ ⟨rfl, -⟩
    exact .refl _
  · rintro s _ ⟨rfl, hp, calls, hc, hk⟩ label
    refine ⟨rfl, hp, calls ++ [.function label], ?_, hk.function label⟩
    rw [← List.append_assoc, ← hc]
  · rintro s _ ⟨rfl, hs⟩ counters
    exact ⟨rfl, hs⟩
  · rintro s _ ⟨rfl, hs⟩ consumed
    exact ⟨rfl, hs⟩
  · rintro s _ ⟨rfl, hs⟩ next
    exact ⟨rfl, hs⟩
  · rintro s _ ⟨-, hp, -⟩ handler e hcaught
    exact absurd hcaught (hp e trivial handler)

theorem fetching_warn (warning : Warning) :
    (fetching own before loading).Agrees (warn warning) (warn warning) := by
  refine agrees_update ?_
  rintro s _ ⟨rfl, hs⟩
  exact ⟨rfl, hs⟩

theorem fetching_template (name : String) :
    (fetching own before none).Agrees (env.template name) (env.template name) := by
  rintro s _ ⟨rfl, hp, calls, hc, hk⟩
  have hcalls := env.readHost_calls name hc
  rcases env.template_inv name s with ⟨nodes, -, h⟩ | ⟨hnew, ⟨nodes, -, h⟩ | ⟨e, -, h⟩⟩
  · rw [h]
    exact .ok rfl ⟨rfl, hp, calls, hc, hk⟩
  · rw [h]
    exact .ok rfl ⟨rfl, hp, _, hcalls, hk.read hnew env nodes⟩
  · rw [h]
    exact .error trivial ⟨rfl, _, hcalls, (hk.read hnew env none).once⟩

theorem fetching_fetchExtension (env : Environment) {name : String} {calls : List Call} {s : State}
    (hp : s.host.program.LetsAllThrough) (hc : s.host.calls = before ++ calls)
    (hk : Kept own none calls s.templates s.extensions)
    (hnew : s.extensions.lookup name = none) :
    (fetching own before (some name)).Outcome Eq (perform (env.fetchExtension name) s)
      (perform (env.fetchExtension name) s) := by
  rw [env.fetchExtension_eq]
  cases env.require with
  | none =>
    exact fetching_host.decodeExport (fetching_warn _) (fun _ _ => trivial) s s
      ⟨rfl, hp, calls, hc, hk.loading_of_none⟩
  | some require =>
    have htrace : perform (trace (.require name)) s =
        (.ok (), { s with host.calls := s.host.calls ++ [.require name] }) := rfl
    dsimp only
    rw [perform_bind_ok htrace]
    refine fetching_host.decodeExport (fetching_warn _) (fun _ _ => trivial) _ _ ?_
    refine ⟨rfl, hp, calls ++ [.require name], ?_, hk.load hnew⟩
    rw [← List.append_assoc, ← hc]

theorem fetching_exported (name : String) :
    (fetching own before none).Agrees (env.exported name) (env.exported name) := by
  rintro s _ ⟨rfl, hp, calls, hc, hk⟩
  rw [env.perform_exported]
  cases hkept : s.extensions.lookup name with
  | some c => exact .ok rfl ⟨rfl, hp, calls, hc, hk⟩
  | none =>
    have ho := fetching_fetchExtension env hp hc hk hkept
    generalize perform (env.fetchExtension name) s = r at ho
    cases ho with
    | ok _ hst =>
      obtain ⟨-, hp, calls, hc, hk⟩ := hst
      exact .ok rfl ⟨rfl, hp, calls, hc, hk.loaded _⟩
    | error _ hst => exact .error trivial hst
    | excused he => exact he.elim

theorem fetching_uniform : (fetching own before none).Uniform env where
  host := fetching_host
  allowed _ := trivial
  blocks_eq hs := congrArg (·.registry.blocks) hs.1
  pending_eq hs := congrArg (·.registry.pending) hs.1
  depth_eq hs := congrArg State.depth hs.1
  warn := fetching_warn
  template := fetching_template
  exported := fetching_exported
  depth := by
    rintro s _ ⟨rfl, hs⟩ d
    exact ⟨rfl, hs⟩
  ended_depth := by
    rintro s _ ⟨rfl, hs⟩
    exact ⟨rfl, hs⟩
  request := by
    rintro s _ ⟨rfl, hs⟩ name _
    exact ⟨rfl, hs⟩
  block := by
    rintro s _ ⟨rfl, hs⟩ region block _
    exact ⟨rfl, hs⟩
  find := by
    rintro s _ ⟨rfl, hs⟩ region
    exact ⟨rfl, hs⟩

end Lockstep

theorem noneTwice_renderNodes (t : Template) (budget : Nat) (nodes : List Node)
    (content : HostValue) {host : HostState} (hlets : host.program.LetsAllThrough) :
    ∃ calls, (t.renderNodes budget nodes content host).2.calls = host.calls ++ calls ∧
      NoneTwice t.settings.name calls := by
  have hstart : Kept t.settings.name none [] (t.preloaded nodes) [] := by
    refine ⟨⟨List.nodup_nil, fun _ _ => List.not_mem_nil, List.nodup_nil⟩, ?_, nofun⟩
    rintro name (ho | hn)
    · unfold Template.preloaded
      rw [ho, List.lookup_cons_self]
      rfl
    · cases hn
  have htake : ∀ {s s' : State}, (fetching t.settings.name host.calls none).states s s' →
      (fetching t.settings.name host.calls none).states
        { s with registry := s.registry.takeLayout.2 }
        { s' with registry := s'.registry.takeLayout.2 } := by
    rintro s _ ⟨rfl, hs⟩
    exact ⟨rfl, hs⟩
  have huniform : (fetching t.settings.name host.calls none).Uniform t.settings.environment :=
    Lockstep.fetching_uniform
  have ho := huniform.renderPage htake (fun _ => id) budget nodes content
    { State.start host with templates := t.preloaded nodes } _
    ⟨rfl, hlets, [], (List.append_nil _).symm, hstart⟩
  unfold Template.renderNodes
  generalize perform (t.settings.environment.renderPage budget nodes content)
    { State.start host with templates := t.preloaded nodes } = r at ho ⊢
  cases ho with
  | ok _ hst =>
    obtain ⟨-, -, calls, hc, hk⟩ := hst
    exact ⟨calls, hc, hk.once⟩
  | error _ hst => exact hst.2
  | excused he => exact he.elim

end TagTemplate
