import TagTemplate.Proofs.Lockstep.Content
import TagTemplate.Resolver

/-!
# Fetching templates

Fetching a template gives what the host has under its name, whatever has been fetched before: what
is kept is what reading it again would give. Apart from what is kept, only the trace of calls and
the warnings change.
-/

namespace TagTemplate

open Markup (Node)
open TagTemplate.Action

namespace Environment

variable (env : Environment) (name : String) (s : State)

/-- What reading and compiling a template gives: nothing if there is no such template. -/
def found : Except Fault (Option (List Node)) :=
  match env.read with
  | none => .ok none
  | some read =>
    match read name with
    | .error fault => .error fault
    | .ok none => .ok none
    | .ok (some source) =>
      match Markup.compile source (some name) with
      | .error error => .error (.compile error)
      | .ok nodes => .ok (some nodes)

def readCalls : List Call := if env.read.isSome then [.read name] else []

def readHost (h : HostState) : HostState :=
  { h with
    calls := h.calls ++ env.readCalls name
    warnings := h.warnings ++
      match env.found name with
      | .ok none => [.template name]
      | _ => [] }

theorem readHost_calls {h : HostState} {before calls : List Call} (hc : h.calls = before ++ calls) :
    (env.readHost name h).calls = before ++ (calls ++ env.readCalls name) := by
  rw [← List.append_assoc, ← hc]
  rfl

/-- The state after a template has been read and kept. One with a fault is not kept. -/
def fetched : State :=
  { s with
    host := env.readHost name s.host
    templates :=
      match env.found name with
      | .ok nodes => OrderedMap.insert s.templates name nodes
      | .error _ => s.templates }

/-- What a template comes to: what has been kept of it, or else what reading it gives. -/
def resolved : Except Fault (Option (List Node)) :=
  match s.templates.lookup name with
  | some nodes => .ok nodes
  | none => env.found name

theorem perform_fetchTemplate :
    perform (env.fetchTemplate name) s =
      (env.found name, { s with host := env.readHost name s.host }) := by
  cases hr : env.read with
  | none =>
    simp [fetchTemplate, readSource, readHost, readCalls, found, perform_map, hr, warn, updateHost,
      Except.map]
  | some read =>
    cases hs : read name with
    | error fault =>
      simp [fetchTemplate, readSource, readHost, readCalls, found, perform_bind, hr, hs, trace,
        updateHost, Action.ofExcept]
    | ok source =>
      cases source with
      | none =>
        simp [fetchTemplate, readSource, readHost, readCalls, found, perform_bind, perform_map, hr,
          hs, trace, warn, updateHost, Action.ofExcept, Except.map]
      | some source =>
        cases hc : Markup.compile source (some name) <;>
          simp [fetchTemplate, readSource, compileSource, readHost, readCalls, found, perform_bind,
            perform_map, hr, hs, hc, trace, updateHost, Action.ofExcept, Except.mapError,
            Except.map]

def looked : State := if (s.templates.lookup name).isSome then s else env.fetched name s

theorem perform_template :
    perform (env.template name) s = (env.resolved name s, env.looked name s) := by
  unfold looked
  cases hk : s.templates.lookup name with
  | some nodes => simp [template, resolved, perform_bind, hk]
  | none =>
    have hfetch := env.perform_fetchTemplate name s
    cases hf : env.found name with
    | error fault =>
      rw [hf] at hfetch
      simp [template, resolved, fetched, perform_bind, hk, hf, hfetch]
    | ok nodes =>
      rw [hf] at hfetch
      simp [template, resolved, fetched, perform_bind, perform_map, hk, hf, hfetch, Except.map]

theorem template_inv :
    (∃ nodes, s.templates.lookup name = some nodes ∧
      perform (env.template name) s = (.ok nodes, s)) ∨
    s.templates.lookup name = none ∧
      ((∃ nodes, env.found name = .ok nodes ∧
        perform (env.template name) s =
          (.ok nodes,
            { s with
              host := env.readHost name s.host
              templates := OrderedMap.insert s.templates name nodes })) ∨
      ∃ e, env.found name = .error e ∧
        perform (env.template name) s =
          (.error e, { s with host := env.readHost name s.host })) := by
  rw [env.perform_template]
  unfold looked resolved fetched
  cases s.templates.lookup name with
  | some nodes => exact Or.inl ⟨nodes, rfl, rfl⟩
  | none =>
    refine Or.inr ⟨rfl, ?_⟩
    cases env.found name with
    | ok nodes => exact Or.inl ⟨nodes, rfl, rfl⟩
    | error e => exact Or.inr ⟨e, rfl, rfl⟩

theorem resolved_looked (other : String) :
    env.resolved other (env.looked name s) = env.resolved other s := by
  unfold looked
  split
  · rfl
  · next hk =>
    rw [Option.not_isSome_iff_eq_none] at hk
    unfold fetched
    cases hf : env.found name with
    | error fault => rfl
    | ok nodes =>
      by_cases ho : other = name
      · subst ho
        simp [resolved, OrderedMap.lookup_insert_self, hk, hf]
      · simp [resolved, OrderedMap.lookup_insert_of_ne _ _ ho]

theorem looked_eq :
    ∃ templates host, env.looked name s = { s with templates, host } ∧ host.Agrees s.host := by
  unfold looked
  split
  · exact ⟨s.templates, s.host, rfl, .refl _⟩
  · refine ⟨_, _, rfl, rfl, rfl, rfl, rfl, ?_⟩
    simp only [readHost, readCalls, functionCalls, List.filterMap_append]
    split <;> simp

def decodeExport (loaded : Except Fault (Option HostValue)) : Action (Option Content) := do
  match ← Action.ofExcept loaded with
  | none =>
    Action.warn (.extension name)
    return none
  | some v =>
    match ← v.refresh with
    | .null =>
      Action.warn (.extension name)
      return none
    | v => return some (← Content.ofHost v)

theorem fetchExtension_eq :
    env.fetchExtension name =
      match env.require with
      | none => decodeExport name (.ok none)
      | some require =>
        Action.trace (.require name) >>= fun _ => decodeExport name (require name) := by
  unfold fetchExtension loadExport decodeExport
  cases env.require with
  | none => rfl
  | some require =>
    simp only [bind_assoc]
    refine bind_congr fun _ => bind_congr fun loaded => ?_
    cases loaded with
    | none => rfl
    | some v =>
      simp only [bind_assoc]
      refine bind_congr fun v => ?_
      cases v <;> rfl

theorem perform_exported :
    perform (env.exported name) s =
      match s.extensions.lookup name with
      | some c => (.ok c, s)
      | none =>
        match perform (env.fetchExtension name) s with
        | (.ok c, t) =>
          (.ok c, { t with extensions := OrderedMap.insert t.extensions name c })
        | (.error e, t) => (.error e, t) := by
  unfold exported
  rw [perform_bind_ok (perform_observe _ s)]
  cases s.extensions.lookup name with
  | some c => rfl
  | none =>
    dsimp only
    rw [perform_bind]
    rcases perform (env.fetchExtension name) s with ⟨_ | _, t⟩
    · rfl
    · rfl

end Environment

namespace Lockstep

variable {L : Lockstep}

theorem HostClosed.gives_decodeExport (h : L.HostClosed) {K : HostKind} (hK : K.Sound)
    {name : String} (warn : L.Agrees (warn (.extension name)) (warn (.extension name)))
    {loaded : Except Fault (Option HostValue)} (fault : ∀ e, loaded = .error e → L.allowed e)
    (value : ∀ v, loaded = .ok (some v) → K.value v) :
    L.Gives (fun m => ∀ c ∈ m, K.content c) (Environment.decodeExport name loaded)
      (Environment.decodeExport name loaded) := by
  have missing : L.Gives (fun m => ∀ c ∈ m, K.content c)
      (do Action.warn (.extension name); return none)
      (do Action.warn (.extension name); return none) :=
    Agrees.bind warn fun _ => gives_pure fun c hc => by cases hc
  cases loaded with
  | error e => exact relates_fail (fault e rfl)
  | ok found =>
    refine Gives.bind (P := fun m => ∀ v ∈ m, K.value v) (gives_pure fun v hv => ?_) fun m hm => ?_
    · exact value v (congrArg Except.ok hv)
    cases m with
    | none => exact missing
    | some v =>
      refine Gives.bind (h.gives_refresh hK v (hm v rfl)) fun v hv => ?_
      cases v with
      | null => exact missing
      | _ =>
        refine Gives.bind (h.gives_ofHost hK hv) fun c hc => gives_pure fun _ hmem => ?_
        cases hmem
        exact hc

theorem HostClosed.decodeExport (h : L.HostClosed) {name : String}
    (warn : L.Agrees (warn (.extension name)) (warn (.extension name)))
    {loaded : Except Fault (Option HostValue)} (fault : ∀ e, loaded = .error e → L.allowed e) :
    L.Agrees (Environment.decodeExport name loaded) (Environment.decodeExport name loaded) :=
  (h.gives_decodeExport HostKind.any_sound warn fault fun _ _ => trivial).agrees

/-- Related states stay related under all that host code does and when an extension is kept. -/
structure Closed (L : Lockstep) : Prop where
  host : L.HostClosed
  extensions : ∀ {s t}, L.states s t → s.extensions = t.extensions
  keep : ∀ {s t}, L.states s t → ∀ extensions,
    L.states { s with extensions } { t with extensions }
  require : ∀ name, L.Agrees (trace (.require name)) (trace (.require name))
  warn : ∀ warning, L.Agrees (warn warning) (warn warning)

theorem Closed.exported (h : L.Closed) (env : Environment)
    (fault : ∀ require ∈ env.require, ∀ name e, require name = .error e → L.allowed e)
    (name : String) : L.Agrees (env.exported name) (env.exported name) := by
  refine Agrees.bind (relates_observe fun s t hs => by rw [h.extensions hs]) fun kept => ?_
  cases kept with
  | some c => exact agrees_pure _
  | none =>
    refine Agrees.bind (b := env.fetchExtension name) ?_ fun c => ?_
    · rw [env.fetchExtension_eq]
      cases hr : env.require with
      | none => exact h.host.decodeExport (h.warn _) nofun
      | some require =>
        refine Agrees.bind (h.require name) fun _ => ?_
        exact h.host.decodeExport (h.warn _) (fault require hr name)
    · refine Agrees.bind (agrees_update fun s t hs => ?_) fun _ => agrees_pure _
      simpa only [h.extensions hs] using h.keep hs (OrderedMap.insert t.extensions name c)

section Agreeing

variable (agree : ∀ {s t}, L.states s t → s.host.Agrees t.host)

include agree

theorem HostClosed.of_agrees
    (change : ∀ {s t}, L.states s t → ∀ {h h'}, h.program = s.host.program → h.Agrees h' →
      L.states { s with host := h } { t with host := h' })
    (allowed : ∀ e, L.allowed e)
    (recovers : ∀ {s t}, L.states s t → ∀ {handler e}, s.host.program.isCaught handler e →
      L.Recovers e) : L.HostClosed := by
  refine ⟨agree, ?_, ?_, ?_, ?_, fun _ => allowed _, fun _ _ _ _ => allowed _, recovers⟩
  · exact fun hs label => change hs rfl ((agree hs).add_calls rfl)
  · exact fun hs _ => change hs rfl { agree hs with counters := rfl }
  · exact fun hs _ => change hs rfl { agree hs with consumed := rfl }
  · exact fun hs _ => change hs rfl { agree hs with nextStream := rfl }

theorem agrees_warn
    (change : ∀ {s t}, L.states s t → ∀ {h h'}, h.program = s.host.program → h.Agrees h' →
      L.states { s with host := h } { t with host := h' })
    (warning : Warning) : L.Agrees (warn warning) (warn warning) :=
  agrees_update fun _ _ hs => change hs rfl { agree hs with }

theorem Closed.of_agrees
    (extensions : ∀ {s t}, L.states s t → s.extensions = t.extensions)
    (change : ∀ {s t}, L.states s t → ∀ {h h'} extensions, h.program = s.host.program →
      h.Agrees h' → L.states { s with host := h, extensions } { t with host := h', extensions })
    (allowed : ∀ e, L.allowed e)
    (recovers : ∀ {s t}, L.states s t → ∀ {handler e}, s.host.program.isCaught handler e →
      L.Recovers e) : L.Closed := by
  have same : ∀ {s t}, L.states s t → ∀ {h h'}, h.program = s.host.program → h.Agrees h' →
      L.states { s with host := h } { t with host := h' } := by
    intro s t hs h h' hp hh
    simpa only [extensions hs] using change hs t.extensions hp hh
  refine ⟨.of_agrees agree same allowed recovers, extensions, ?_, ?_, agrees_warn agree same⟩
  · exact fun hs extensions => change hs extensions rfl (agree hs)
  · exact fun name => agrees_update fun s t hs => same hs rfl ((agree hs).add_calls rfl)

end Agreeing

/-- An invariant of one run: what holds of its states, and the errors that may end it. -/
def invariant (holds : State → Prop) (allowed : Fault → Prop) : Lockstep where
  states s t := s = t ∧ holds s
  allowed := allowed

theorem Closed.of_invariant {holds : State → Prop} {allowed : Fault → Prop}
    (change : ∀ {s}, holds s → ∀ host extensions, host.program = s.host.program →
      holds { s with host, extensions })
    (fault : ∀ {e}, e.isHost → allowed e)
    (raised : ∀ {s}, holds s → ∀ {error e}, s.host.program.raised? error = some e → allowed e) :
    (invariant holds allowed).Closed := by
  have same : ∀ {s t}, (invariant holds allowed).states s t → ∀ f : HostState → HostState,
      (∀ h, (f h).program = h.program) →
      (invariant holds allowed).states { s with host := f s.host } { t with host := f t.host } := by
    rintro s _ ⟨rfl, hs⟩ f hf
    exact ⟨rfl, change hs _ s.extensions (hf _)⟩
  refine ⟨⟨?_, ?_, ?_, ?_, ?_, fault, ?_, fun _ _ _ _ => ⟨id, id⟩⟩, ?_, ?_, ?_, ?_⟩
  · rintro s _ ⟨rfl, -⟩
    exact .refl _
  · exact fun hs label =>
      same hs (fun h => { h with calls := h.calls ++ [.function label] }) fun _ => rfl
  · exact fun hs counters => same hs (fun h => { h with counters }) fun _ => rfl
  · exact fun hs consumed => same hs (fun h => { h with consumed }) fun _ => rfl
  · exact fun hs next => same hs (fun h => { h with nextStream := next }) fun _ => rfl
  · exact fun hs _ _ he => raised hs.2 he
  · rintro s _ ⟨rfl, -⟩
    rfl
  · rintro s _ ⟨rfl, hs⟩ extensions
    exact ⟨rfl, change hs s.host extensions rfl⟩
  · exact fun name => agrees_update fun s t hs =>
      same hs (fun h => { h with calls := h.calls ++ [.require name] }) fun _ => rfl
  · exact fun warning => agrees_update fun s t hs =>
      same hs (fun h => { h with warnings := h.warnings ++ [warning] }) fun _ => rfl

theorem sameUntil_closed {excused : Fault → Prop} : (sameUntil excused).Closed where
  host := sameUntil_host
  extensions hs := congrArg State.extensions hs.1
  keep := by
    rintro s _ ⟨rfl, hs⟩ extensions
    exact ⟨rfl, hs⟩
  require _ := sameUntil_self fun _ => rfl
  warn _ := sameUntil_self fun _ => rfl

theorem sameUntil_template {excused : Fault → Prop} (env : Environment) (name : String) :
    (sameUntil excused).Agrees (env.template name) (env.template name) := by
  refine sameUntil_self fun s => ?_
  obtain ⟨templates, host, heq, hagree⟩ := env.looked_eq name s
  rw [env.perform_template, heq]
  exact hagree.program

end Lockstep

end TagTemplate
