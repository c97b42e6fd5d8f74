import TagTemplate.Host.Evaluation
import TagTemplate.Proofs.Lockstep
import TagTemplate.Scope

/-!
# Host code in lockstep

What host code does to the state is to trace its calls, to count and to read streams. Where related
states stay related under that, host functions that are given the same values, and ways to render
that agree, have equal results. If their code is of some kind, so is what they return.
-/

namespace TagTemplate

def Fault.isHost : Fault → Prop
  | .raised .. | .badCall | .badNumber => True
  | _ => False

/-- No handler of the program catches one of these errors. -/
def HostProgram.LetsThrough (p : HostProgram) (faults : Fault → Prop) : Prop :=
  ∀ e, faults e → ∀ handler, ¬ p.isCaught handler e

/-- The labels of the host functions among the calls. -/
def functionCalls (calls : List Call) : List String :=
  calls.filterMap fun
    | .function label => some label
    | _ => none

/-- Two host states that differ at most in warnings and in calls that fetch something. -/
structure HostState.Agrees (h h' : HostState) : Prop where
  program : h.program = h'.program
  counters : h.counters = h'.counters
  consumed : h.consumed = h'.consumed
  nextStream : h.nextStream = h'.nextStream
  calls : functionCalls h.calls = functionCalls h'.calls

@[refl] theorem HostState.Agrees.refl (h : HostState) : h.Agrees h :=
  ⟨rfl, rfl, rfl, rfl, rfl⟩

theorem HostState.Agrees.symm {h h' : HostState} (a : h.Agrees h') : h'.Agrees h :=
  ⟨a.program.symm, a.counters.symm, a.consumed.symm, a.nextStream.symm, a.calls.symm⟩

theorem HostState.Agrees.trans {h h' h'' : HostState} (a : h.Agrees h') (b : h'.Agrees h'') :
    h.Agrees h'' :=
  ⟨a.program.trans b.program, a.counters.trans b.counters, a.consumed.trans b.consumed,
    a.nextStream.trans b.nextStream, a.calls.trans b.calls⟩

theorem HostState.Agrees.add_calls {h h' : HostState} (a : h.Agrees h') {cs cs' : List Call}
    (hc : functionCalls cs = functionCalls cs') :
    HostState.Agrees { h with calls := h.calls ++ cs } { h' with calls := h'.calls ++ cs' } := by
  refine ⟨a.program, a.counters, a.consumed, a.nextStream, ?_⟩
  have hf := a.calls
  simp only [functionCalls, List.filterMap_append] at hf hc ⊢
  rw [hf, hc]

/-- The expressions that an expression is made of. -/
def HostExpr.parts : HostExpr → List HostExpr
  | .concat parts => parts
  | .upper e | .length e | .records e => [e]
  | .list items => items
  | .attempt _ e otherwise => [e, otherwise]
  | .cases e branches otherwise => e :: (branches.map Prod.snd ++ otherwise.toList)
  | _ => []

/-- A kind of host code: values and expressions, and what its functions may ask a scope for. Any
host code is of the kind for which nothing is demanded. -/
structure HostKind where
  value : HostValue → Prop := fun _ => True
  expr : HostExpr → Prop := fun _ => True
  asks : Option String → Prop := fun _ => True
  asksOwn : String → Prop := fun _ => True

namespace HostKind

/-- The content is of the kind if the value that has it is. -/
def content (K : HostKind) (c : Content) : Prop := K.value c.raw

/-- What is in the frame is of the kind. -/
structure IsFrame (K : HostKind) (f : Frame) : Prop where
  value : K.content f.value
  bindings : ∀ name c, f.bindings.lookup name = some c → K.content c

/-- Data is of the kind, and values and expressions are if what they are made of is. -/
structure Sound (K : HostKind) : Prop where
  null : K.value .null
  bool : ∀ b, K.value (.bool b)
  number : ∀ n, K.value (.number n)
  string : ∀ s, K.value (.string s)
  unprintable : K.value (.object .unprintable)
  list : ∀ {items}, K.value (.list items) ↔ ∀ v ∈ items, K.value v
  stream : ∀ {id items}, K.value (.stream id items) ↔ ∀ v ∈ items, K.value v
  mapping : ∀ {entries}, K.value (.object (.mapping entries)) ↔ ∀ p ∈ entries, K.value p.2
  record : ∀ {fields computed}, K.value (.object (.record fields computed)) ↔
    (∀ p ∈ fields, K.value p.2) ∧ ∀ p ∈ computed, K.expr p.2
  function : ∀ {f}, K.value (.function f) ↔ K.expr f.body
  content : ∀ {c}, K.value (.content c) ↔ K.content c
  parts : ∀ {e}, K.expr e → ∀ part ∈ e.parts, K.expr part
  literal : ∀ {v}, K.expr (.value v) → K.value v
  lookup : ∀ {name}, K.expr (.lookup name) → K.asks name
  own : ∀ {name}, K.expr (.own name) → K.asksOwn name
  get : ∀ {name fallback}, K.expr (.get name fallback) →
    K.asks (some name) ∧ ∀ v ∈ fallback, K.value v

def any : HostKind := {}

theorem any_sound : any.Sound := by
  constructor <;> simp [any, HostKind.content]

variable {K : HostKind}

theorem Sound.array (h : K.Sound) {items : List HostValue} :
    K.content (.array items) ↔ ∀ v ∈ items, K.value v := h.list

theorem Sound.texts (h : K.Sound) (options : Options) :
    K.value (.object (.mapping (options.map fun p => (p.1, .string p.2)))) := by
  refine h.mapping.2 fun p hp => ?_
  obtain ⟨q, -, rfl⟩ := List.mem_map.1 hp
  exact h.string q.2

theorem Sound.numberedRecords (h : K.Sound) (n : Int) :
    K.value (.list (TagTemplate.numberedRecords n)) := by
  refine h.list.2 fun v hv => ?_
  obtain ⟨i, -, rfl⟩ := List.mem_map.1 hv
  refine h.mapping.2 fun p hp => ?_
  obtain rfl := List.mem_singleton.1 hp
  exact h.number _

theorem Sound.cases (h : K.Sound) {e : HostExpr} {branches : List (String × HostExpr)}
    {otherwise : Option HostExpr} (he : K.expr (.cases e branches otherwise)) :
    K.expr e ∧ (∀ p ∈ branches, K.expr p.2) ∧ ∀ e ∈ otherwise, K.expr e := by
  have hparts := h.parts he
  simp only [HostExpr.parts, List.forall_mem_cons, List.forall_mem_append] at hparts
  obtain ⟨he, hbranches, hotherwise⟩ := hparts
  refine ⟨he, fun p hp => hbranches p.2 (List.mem_map_of_mem hp), fun e hmem => ?_⟩
  exact hotherwise e (Option.mem_toList.2 hmem)

end HostKind

namespace Lockstep

open TagTemplate.Action

variable {α β : Type} {L : Lockstep} {K : HostKind}

/-- Related states agree on what host code reads, and stay related when it changes them. -/
structure HostClosed (L : Lockstep) : Prop where
  agree : ∀ {s t}, L.states s t → s.host.Agrees t.host
  call : ∀ {s t}, L.states s t → ∀ label,
    L.states { s with host.calls := s.host.calls ++ [.function label] }
      { t with host.calls := t.host.calls ++ [.function label] }
  count : ∀ {s t}, L.states s t → ∀ counters,
    L.states { s with host.counters := counters } { t with host.counters := counters }
  consume : ∀ {s t}, L.states s t → ∀ consumed,
    L.states { s with host.consumed := consumed } { t with host.consumed := consumed }
  number : ∀ {s t}, L.states s t → ∀ next,
    L.states { s with host.nextStream := next } { t with host.nextStream := next }
  fault : ∀ {e}, e.isHost → L.allowed e
  raised : ∀ {s t}, L.states s t → ∀ {error e}, s.host.program.raised? error = some e → L.allowed e
  recovers : ∀ {s t}, L.states s t → ∀ {handler e}, s.host.program.isCaught handler e → L.Recovers e

/-- What functions of a kind may ask two scopes has equal answers of that kind. -/
structure AccessAgrees (L : Lockstep) (K : HostKind) (s s' : ScopeAccess) : Prop where
  lookup : ∀ name, K.asks name → L.Gives K.content (s.lookup name) (s'.lookup name)
  own : ∀ name, K.asksOwn name → L.Gives K.content (s.own name) (s'.own name)

/-- What one argument of a call gives to a function is the same in both runs. -/
inductive ArgumentAgrees (L : Lockstep) (K : HostKind) : Argument → Argument → Prop where
  | options (o) : ArgumentAgrees L K (.options o) (.options o)
  | enclosing {a b} : L.Agrees a b → ArgumentAgrees L K (.enclosing a) (.enclosing b)
  | scope {s s'} : L.AccessAgrees K s s' → ArgumentAgrees L K (.scope s) (.scope s')
  | text (s) : ArgumentAgrees L K (.text s) (.text s)
  | other : ArgumentAgrees L K .other .other

/-- The arguments of a call by their kinds are the same in both runs. -/
structure ReceivedAgrees (L : Lockstep) (K : HostKind) (r r' : Received) : Prop where
  options : r.options = r'.options
  enclosing : Option.Rel L.Agrees r.enclosing r'.enclosing
  scope : Option.Rel (L.AccessAgrees K) r.scope r'.scope
  text : r.text = r'.text
  count : r.count = r'.count

theorem ReceivedAgrees.none : L.ReceivedAgrees K {} {} := ⟨rfl, .none, .none, rfl, rfl⟩

theorem ReceivedAgrees.add {r r' : Received} {a a' : Argument} (h : L.ReceivedAgrees K r r')
    (ha : L.ArgumentAgrees K a a') : L.ReceivedAgrees K (r.add a) (r'.add a') := by
  obtain ⟨ho, he, hs, ht, hc⟩ := h
  cases ha with
  | options o => exact ⟨rfl, he, hs, ht, congrArg (· + 1) hc⟩
  | enclosing hab => exact ⟨ho, .some hab, hs, ht, congrArg (· + 1) hc⟩
  | scope hss => exact ⟨ho, he, .some hss, ht, congrArg (· + 1) hc⟩
  | text s => exact ⟨ho, he, hs, rfl, congrArg (· + 1) hc⟩
  | other => exact ⟨ho, he, hs, ht, congrArg (· + 1) hc⟩

theorem ReceivedAgrees.ofArguments {as as' : List Argument}
    (h : List.Forall₂ (L.ArgumentAgrees K) as as') :
    L.ReceivedAgrees K (.ofArguments as) (.ofArguments as') := by
  suffices hr : ∀ r r', L.ReceivedAgrees K r r' →
      L.ReceivedAgrees K (as.foldl Received.add r) (as'.foldl Received.add r') from hr _ _ .none
  induction h with
  | nil => exact fun _ _ hr => hr
  | cons ha _ ih => exact fun _ _ hr => ih _ _ (hr.add ha)

namespace HostClosed

variable (h : L.HostClosed)
include h

theorem strict : L.strict.HostClosed :=
  ⟨h.agree, h.call, h.count, h.consume, h.number, h.fault, h.raised, fun _ _ _ _ => ⟨id, id⟩⟩

theorem program :
    L.Gives (fun p => (∀ error e, p.raised? error = some e → L.allowed e) ∧
        ∀ handler e, p.isCaught handler e → L.Recovers e)
      (observe (·.host.program)) (observe (·.host.program)) :=
  relates_observe fun _ _ hs =>
    ⟨(h.agree hs).program, fun _ _ he => h.raised hs he, fun _ _ he => h.recovers hs he⟩

theorem trace (label : String) : L.Agrees (trace (.function label)) (trace (.function label)) :=
  agrees_update fun _ _ hs => h.call hs label

theorem counted (name : String) : L.Agrees (Action.count name) (Action.count name) := by
  refine Agrees.bind (relates_observe fun s t hs => by rw [(h.agree hs).counters]) fun n => ?_
  refine Agrees.bind (agrees_update fun s t hs => ?_) fun _ => agrees_pure n
  simpa only [(h.agree hs).counters] using h.count hs (OrderedMap.insert t.host.counters name n)

theorem freshStream : L.Agrees freshStream freshStream := by
  refine Agrees.bind (relates_observe fun s t hs => (h.agree hs).nextStream) fun n => ?_
  exact Agrees.bind (agrees_update fun s t hs => h.number hs _) fun _ => agrees_pure n

theorem openStream (id : Nat) : L.Agrees (openStream id) (openStream id) := by
  refine Agrees.bind (relates_observe fun s t hs => by rw [(h.agree hs).consumed]) fun b => ?_
  refine Agrees.bind (agrees_update fun s t hs => ?_) fun _ => agrees_pure b
  simpa only [(h.agree hs).consumed] using h.consume hs (id :: t.host.consumed)

theorem fail (e : Fault) (he : e.isHost) : L.Agrees (fail e : Action α) (fail e) :=
  relates_fail (h.fault he)

end HostClosed

mutual

theorem HostClosed.gives_refresh (h : L.HostClosed) (hK : K.Sound) :
    (v : HostValue) → K.value v → L.Gives K.value v.refresh v.refresh
  | .list items, hv => by
    rw [HostValue.refresh]
    refine Gives.bind (gives_refreshItems h hK items (hK.list.1 hv)) fun items hi => ?_
    exact gives_pure (hK.list.2 hi)
  | .stream _ items, hv => by
    rw [HostValue.refresh]
    refine Gives.bind (gives_refreshItems h hK items (hK.stream.1 hv)) fun items hi => ?_
    exact Agrees.bind h.freshStream fun id => gives_pure (hK.stream.2 hi)
  | .object o, hv => by
    rw [HostValue.refresh]
    exact Gives.bind (gives_refreshObject h hK o hv) fun o ho => gives_pure ho
  | .null, hv => gives_pure hv
  | .bool _, hv => gives_pure hv
  | .number _, hv => gives_pure hv
  | .string _, hv => gives_pure hv
  | .function _, hv => gives_pure hv
  | .content _, hv => gives_pure hv

theorem HostClosed.gives_refreshObject (h : L.HostClosed) (hK : K.Sound) :
    (o : HostObject) → K.value (.object o) →
      L.Gives (fun o => K.value (.object o)) o.refresh o.refresh
  | .mapping entries, ho => by
    rw [HostObject.refresh]
    refine Gives.bind (gives_refreshEntries h hK entries (hK.mapping.1 ho)) fun entries he => ?_
    exact gives_pure (hK.mapping.2 he)
  | .record fields _, ho => by
    rw [HostObject.refresh]
    obtain ⟨hf, hc⟩ := hK.record.1 ho
    refine Gives.bind (gives_refreshEntries h hK fields hf) fun fields hf => ?_
    exact gives_pure (hK.record.2 ⟨hf, hc⟩)
  | .unprintable, ho => gives_pure ho

theorem HostClosed.gives_refreshItems (h : L.HostClosed) (hK : K.Sound) :
    (vs : List HostValue) → (∀ v ∈ vs, K.value v) →
      L.Gives (fun vs => ∀ v ∈ vs, K.value v) (TagTemplate.refreshItems vs)
        (TagTemplate.refreshItems vs)
  | [], hvs => gives_pure hvs
  | v :: vs, hvs => by
    rw [List.forall_mem_cons] at hvs
    rw [TagTemplate.refreshItems]
    refine Gives.bind (gives_refresh h hK v hvs.1) fun v hv => ?_
    refine Gives.bind (gives_refreshItems h hK vs hvs.2) fun vs hvs => ?_
    exact gives_pure (List.forall_mem_cons.2 ⟨hv, hvs⟩)

theorem HostClosed.gives_refreshEntries (h : L.HostClosed) (hK : K.Sound) :
    (es : List (String × HostValue)) → (∀ p ∈ es, K.value p.2) →
      L.Gives (fun es => ∀ p ∈ es, K.value p.2) (TagTemplate.refreshEntries es)
        (TagTemplate.refreshEntries es)
  | [], hes => gives_pure hes
  | (name, v) :: es, hes => by
    rw [List.forall_mem_cons] at hes
    rw [TagTemplate.refreshEntries]
    refine Gives.bind (gives_refresh h hK v hes.1) fun v hv => ?_
    refine Gives.bind (gives_refreshEntries h hK es hes.2) fun es hes => ?_
    exact gives_pure (List.forall_mem_cons.2 ⟨hv, hes⟩)

end

mutual

/-- The result of a host expression depends on what its function has received only up to agreement
of the ways to render and to look names up. -/
theorem HostClosed.gives_eval (h : L.HostClosed) (hK : K.Sound) {r r' : Received}
    (hr : L.ReceivedAgrees K r r') :
    (e : HostExpr) → K.expr e → L.Gives K.value (e.eval r) (e.eval r')
  | .value v, he => h.gives_refresh hK v (hK.literal he)
  | .option name, _ => by
    rw [HostExpr.eval, HostExpr.eval, hr.options]
    cases r'.options.bind (·.lookup name) with
    | none => exact gives_pure hK.null
    | some text => exact gives_pure (hK.string text)
  | .optionsText, _ => by
    rw [HostExpr.eval, HostExpr.eval, hr.options]
    cases r'.options with
    | none => exact gives_pure hK.null
    | some o => exact gives_pure (hK.string _)
  | .optionsMap, _ => by
    rw [HostExpr.eval, HostExpr.eval, hr.options]
    cases r'.options with
    | none => exact gives_pure hK.null
    | some o => exact gives_pure (hK.texts o)
  | .enclosing, _ => by
    rw [HostExpr.eval, HostExpr.eval]
    match r.enclosing, r'.enclosing, hr.enclosing with
    | _, _, .none => exact gives_pure hK.null
    | _, _, .some hab => exact Agrees.bind hab fun text => gives_pure (hK.string text)
  | .lookup name, he => by
    rw [HostExpr.eval, HostExpr.eval]
    match r.scope, r'.scope, hr.scope with
    | _, _, .none => exact gives_pure hK.null
    | _, _, .some hs =>
      exact Gives.bind (hs.lookup name (hK.lookup he)) fun c hc => gives_pure (hK.content.2 hc)
  | .own name, he => by
    rw [HostExpr.eval, HostExpr.eval]
    match r.scope, r'.scope, hr.scope with
    | _, _, .none => exact gives_pure hK.null
    | _, _, .some hs =>
      exact Gives.bind (hs.own name (hK.own he)) fun c hc => gives_pure (hK.content.2 hc)
  | .get name fallback, he => by
    have hfallback : K.value (fallback.getD .null) := by
      cases fallback with
      | none => exact hK.null
      | some v => exact (hK.get he).2 v rfl
    rw [HostExpr.eval, HostExpr.eval]
    match r.scope, r'.scope, hr.scope with
    | _, _, .none => exact gives_pure hK.null
    | _, _, .some hs =>
      refine Gives.bind (hs.lookup (some name) (hK.get he).1) fun c hc => ?_
      cases c with
      | missing => exact h.gives_refresh hK _ hfallback
      | _ => exact gives_pure hc
  | .text, _ => by
    rw [HostExpr.eval, HostExpr.eval, hr.text]
    cases r'.text with
    | none => exact gives_pure hK.null
    | some text => exact gives_pure (hK.string text)
  | .argumentCount, _ => by
    rw [HostExpr.eval, HostExpr.eval, hr.count]
    exact gives_pure (hK.number _)
  | .concat parts, he => by
    rw [HostExpr.eval, HostExpr.eval]
    refine Agrees.bind (agrees_evalTexts h hK hr parts (hK.parts he)) fun texts => ?_
    exact gives_pure (hK.string _)
  | .upper e, he => by
    rw [HostExpr.eval, HostExpr.eval]
    refine Gives.bind (gives_eval h hK hr e (hK.parts he e List.mem_cons_self)) fun v _ => ?_
    exact gives_pure (hK.string _)
  | .length e, he => by
    rw [HostExpr.eval, HostExpr.eval]
    refine Gives.bind (gives_eval h hK hr e (hK.parts he e List.mem_cons_self)) fun v _ => ?_
    exact gives_pure (hK.number _)
  | .records e, he => by
    rw [HostExpr.eval, HostExpr.eval]
    refine Gives.bind (gives_eval h hK hr e (hK.parts he e List.mem_cons_self)) fun v _ => ?_
    cases Text.readPlainInteger? v.expressionText with
    | none => exact relates_fail (h.fault trivial)
    | some n => exact gives_pure (hK.numberedRecords n)
  | .list items, he => by
    rw [HostExpr.eval, HostExpr.eval]
    refine Gives.bind (gives_evalItems h hK hr items (hK.parts he)) fun vs hvs => ?_
    exact gives_pure (hK.list.2 hvs)
  | .cases e branches otherwise, he => by
    obtain ⟨he, hbranches, hotherwise⟩ := hK.cases he
    rw [HostExpr.eval, HostExpr.eval]
    refine Gives.bind (gives_eval h hK hr e he) fun v _ => ?_
    dsimp only
    match HostExpr.evalBranch? r v.expressionText branches,
      HostExpr.evalBranch? r' v.expressionText branches,
      rel_evalBranch h hK hr v.expressionText branches hbranches with
    | _, _, .none => exact gives_evalOptional h hK hr otherwise hotherwise
    | _, _, .some hab => exact hab
  | .counter name, _ => by
    rw [HostExpr.eval, HostExpr.eval]
    exact Agrees.bind (h.counted name) fun n => gives_pure (hK.number _)
  | .raise kind message, _ => by
    rw [HostExpr.eval, HostExpr.eval]
    exact relates_fail (h.fault trivial)
  | .throw error, _ => by
    rw [HostExpr.eval, HostExpr.eval]
    refine Gives.bind h.program fun p hp => ?_
    cases he : p.raised? error with
    | none => exact gives_pure hK.null
    | some e => exact relates_fail (hp.1 error e he)
  | .attempt handler e otherwise, he => by
    have hbody := hK.parts he e List.mem_cons_self
    have hotherwise := hK.parts he otherwise (List.mem_cons_of_mem _ List.mem_cons_self)
    rw [HostExpr.eval, HostExpr.eval]
    refine Gives.bind h.program fun p hp => ?_
    exact Relates.recover (hp.2 handler) (gives_eval h hK hr e hbody)
      (gives_eval h hK hr otherwise hotherwise)

theorem HostClosed.gives_evalItems (h : L.HostClosed) (hK : K.Sound) {r r' : Received}
    (hr : L.ReceivedAgrees K r r') : (es : List HostExpr) → (∀ e ∈ es, K.expr e) →
      L.Gives (fun vs => ∀ v ∈ vs, K.value v) (HostExpr.evalItems r es) (HostExpr.evalItems r' es)
  | [], _ => by
    rw [HostExpr.evalItems, HostExpr.evalItems]
    exact gives_pure (List.forall_mem_nil _)
  | e :: es, hes => by
    rw [List.forall_mem_cons] at hes
    rw [HostExpr.evalItems, HostExpr.evalItems]
    refine Gives.bind (gives_eval h hK hr e hes.1) fun v hv => ?_
    refine Gives.bind (gives_evalItems h hK hr es hes.2) fun vs hvs => ?_
    exact gives_pure (List.forall_mem_cons.2 ⟨hv, hvs⟩)

theorem HostClosed.agrees_evalTexts (h : L.HostClosed) (hK : K.Sound) {r r' : Received}
    (hr : L.ReceivedAgrees K r r') : (es : List HostExpr) → (∀ e ∈ es, K.expr e) →
      L.Agrees (HostExpr.evalTexts r es) (HostExpr.evalTexts r' es)
  | [], _ => by
    rw [HostExpr.evalTexts, HostExpr.evalTexts]
    exact agrees_pure _
  | e :: es, hes => by
    rw [List.forall_mem_cons] at hes
    rw [HostExpr.evalTexts, HostExpr.evalTexts]
    refine Gives.bind (gives_eval h hK hr e hes.1) fun v _ => ?_
    exact (agrees_evalTexts h hK hr es hes.2).map

theorem HostClosed.rel_evalBranch (h : L.HostClosed) (hK : K.Sound) {r r' : Received}
    (hr : L.ReceivedAgrees K r r') (key : String) :
    (bs : List (String × HostExpr)) → (∀ p ∈ bs, K.expr p.2) →
      Option.Rel (L.Gives K.value) (HostExpr.evalBranch? r key bs) (HostExpr.evalBranch? r' key bs)
  | [], _ => by
    rw [HostExpr.evalBranch?, HostExpr.evalBranch?]
    exact .none
  | (name, e) :: bs, hbs => by
    rw [List.forall_mem_cons] at hbs
    rw [HostExpr.evalBranch?, HostExpr.evalBranch?]
    split
    · exact .some (gives_eval h hK hr e hbs.1)
    · exact rel_evalBranch h hK hr key bs hbs.2

theorem HostClosed.gives_evalOptional (h : L.HostClosed) (hK : K.Sound) {r r' : Received}
    (hr : L.ReceivedAgrees K r r') : (e : Option HostExpr) → (∀ e' ∈ e, K.expr e') →
      L.Gives K.value (HostExpr.evalOptional r e) (HostExpr.evalOptional r' e)
  | none, _ => by
    rw [HostExpr.evalOptional, HostExpr.evalOptional]
    exact gives_pure hK.null
  | some e, he => by
    rw [HostExpr.evalOptional, HostExpr.evalOptional]
    exact gives_eval h hK hr e (he e rfl)

end

namespace HostClosed

variable (h : L.HostClosed)
include h

theorem gives_apply (hK : K.Sound) {f : HostFunction} (hf : K.expr f.body)
    {as as' : List Argument} (ha : List.Forall₂ (L.ArgumentAgrees K) as as') :
    L.Gives K.value (f.call as) (f.call as') := by
  rw [HostFunction.call, HostFunction.call, ha.length_eq]
  split
  · have hbody := h.gives_eval hK (.ofArguments ha) f.body hf
    cases f.label with
    | none => exact Agrees.bind (agrees_pure ()) fun _ => hbody
    | some label => exact Agrees.bind (h.trace label) fun _ => hbody
  · exact relates_fail (h.fault trivial)

theorem gives_invoke (hK : K.Sound) {v : HostValue} (hv : K.value v) {as as' : List Argument}
    (ha : List.Forall₂ (L.ArgumentAgrees K) as as') :
    L.Gives K.value (v.invoke as) (v.invoke as') := by
  cases v with
  | function f =>
    refine h.gives_apply hK (hK.function.1 hv) ?_
    unfold Arity.select
    split
    · exact ha
    · exact List.forall₂_take _ ha
  | _ => exact relates_fail (h.fault trivial)

theorem refresh (v : HostValue) : L.Agrees v.refresh v.refresh :=
  (h.gives_refresh HostKind.any_sound v trivial).agrees

theorem eval {r r' : Received} (hr : L.ReceivedAgrees .any r r') (e : HostExpr) :
    L.Agrees (e.eval r) (e.eval r') := (h.gives_eval HostKind.any_sound hr e trivial).agrees

theorem apply (f : HostFunction) {as as' : List Argument}
    (ha : List.Forall₂ (L.ArgumentAgrees .any) as as') : L.Agrees (f.call as) (f.call as') :=
  (h.gives_apply HostKind.any_sound trivial ha).agrees

theorem invoke (v : HostValue) {as as' : List Argument}
    (ha : List.Forall₂ (L.ArgumentAgrees .any) as as') :
    L.Agrees (v.invoke as) (v.invoke as') :=
  (h.gives_invoke HostKind.any_sound trivial ha).agrees

end HostClosed

def sameUntil (excused : Fault → Prop) : Lockstep where
  states s t := s = t ∧ s.host.program.LetsThrough excused
  excused := excused

section Same

variable {excused : Fault → Prop}

theorem sameUntil_self {a : Action α}
    (ha : ∀ s, (perform a s).2.host.program = s.host.program) : (sameUntil excused).Agrees a a := by
  rintro s _ ⟨rfl, hs⟩
  have hkept : (perform a s).2.host.program.LetsThrough excused := by
    rw [ha s]
    exact hs
  generalize perform a s = r at hkept ⊢
  obtain ⟨e | x, t⟩ := r
  · exact .error trivial ⟨rfl, hkept⟩
  · exact .ok rfl ⟨rfl, hkept⟩

theorem sameUntil_host : (sameUntil excused).HostClosed := by
  constructor
  · rintro s _ ⟨rfl, -⟩
    exact .refl _
  · rintro s _ ⟨rfl, hs⟩ label
    exact ⟨rfl, hs⟩
  · rintro s _ ⟨rfl, hs⟩ counters
    exact ⟨rfl, hs⟩
  · rintro s _ ⟨rfl, hs⟩ consumed
    exact ⟨rfl, hs⟩
  · rintro s _ ⟨rfl, hs⟩ next
    exact ⟨rfl, hs⟩
  · intro e _
    trivial
  · intro _ _ _ _ e _
    trivial
  · rintro s _ ⟨-, hs⟩ handler e hcaught
    exact ⟨fun he => hs e he handler hcaught, id⟩

end Same

def beside (u v : State) : Lockstep where
  states s t := ∃ host, s = { u with host } ∧ t = { v with host }

theorem beside_host (u v : State) : (beside u v).HostClosed := by
  constructor
  · rintro _ _ ⟨host, rfl, rfl⟩
    exact .refl host
  · rintro _ _ ⟨host, rfl, rfl⟩ label
    exact ⟨_, rfl, rfl⟩
  · rintro _ _ ⟨host, rfl, rfl⟩ counters
    exact ⟨_, rfl, rfl⟩
  · rintro _ _ ⟨host, rfl, rfl⟩ consumed
    exact ⟨_, rfl, rfl⟩
  · rintro _ _ ⟨host, rfl, rfl⟩ next
    exact ⟨_, rfl, rfl⟩
  · intro e _
    trivial
  · intro _ _ _ _ e _
    trivial
  · exact fun _ _ _ _ => ⟨id, id⟩

theorem perform_beside {a : Action α} {u v : State} (h : (beside u v).Agrees a a)
    (heq : u.host = v.host) : ∃ host, perform a u = ((perform a u).1, { u with host }) ∧
      perform a v = ((perform a u).1, { v with host }) := by
  have ho := h u v ⟨u.host, rfl, by rw [heq]⟩
  generalize perform a u = r at ho
  generalize perform a v = r' at ho
  cases ho with
  | ok hx hs =>
    subst hx
    obtain ⟨host, rfl, rfl⟩ := hs
    exact ⟨host, rfl, rfl⟩
  | error _ hs =>
    obtain ⟨host, rfl, rfl⟩ := hs
    exact ⟨host, rfl, rfl⟩
  | excused he => exact he.elim

end Lockstep

end TagTemplate
