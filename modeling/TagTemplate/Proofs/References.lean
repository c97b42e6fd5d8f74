import Mathlib.Data.List.Perm.Subperm
import TagTemplate.Proofs.Fetching
import TagTemplate.Template

/-!
# References between templates

Compiling a template follows the references of its tags, and those of the templates found, each name
once. The search keeps an invariant: what has been read is reached from the entry, and what a
template refers to has been seen unless the template is still pending. When nothing is pending, the
names read are exactly the names reached.
-/

namespace TagTemplate

open Markup (Node Tag tagsOf CompileError)
open TagTemplate.Action

namespace Settings

variable (settings : Settings) (entry : List Node)

/-- The nodes that a name stands for. The template's own name stands for its own nodes. -/
def nodesOf (name : String) : List Node :=
  if settings.name = some name then entry
  else
    match settings.environment.found name with
    | .ok (some nodes) => nodes
    | _ => []

def references (nodes : List Node) : List String := (tagsOf nodes).filterMap settings.reference?

/-- A name that the template refers to, directly or through other templates. -/
inductive Reaches : String → Prop where
  | entry {name} : name ∈ settings.references entry → Reaches name
  | through {name next} : Reaches name → next ∈ settings.references (settings.nodesOf entry name) →
      Reaches next

variable {settings entry} in
theorem Reaches.mem_of_closed {names : List String}
    (hentry : ∀ name ∈ settings.references entry, name ∈ names)
    (hclosed : ∀ name ∈ names, ∀ next ∈ settings.references (settings.nodesOf entry name),
      next ∈ names)
    {name : String} (h : settings.Reaches entry name) : name ∈ names := by
  induction h with
  | entry hname => exact hentry _ hname
  | through _ hnext ih => exact hclosed _ ih _ hnext

def Followed (seen : List String) (todo : List Tag) (nodes : List Node) : Prop :=
  ∀ tag ∈ tagsOf nodes, ∀ name, settings.reference? tag = some name → name ∈ seen ∨ tag ∈ todo

def Reaching (tags : List Tag) : Prop :=
  ∀ tag ∈ tags, ∀ name, settings.reference? tag = some name → settings.Reaches entry name

/-- A search that has taken up `taken` templates, has read the names `reads` and is to follow the
tags `todo` of the last one, in a state that followed the calls `calls`. -/
structure Searching (calls : List Call) (taken : Nat) (reads : List String) (todo : List Tag)
    (search : Search) (s : State) : Prop where
  calls : s.host.calls = calls ++ reads.map .read
  nodup : reads.Nodup
  seen : ∀ name, name ∈ search.seen ↔ name ∈ reads ∨ settings.name = some name
  unread : ∀ name, name ∉ search.seen → s.templates.lookup name = none
  other : ∀ name ∈ reads, settings.name ≠ some name
  reached : ∀ name ∈ reads, settings.Reaches entry name
  found : ∀ name ∈ reads, ∃ nodes, settings.environment.found name = .ok nodes
  todoReaching : settings.Reaching entry todo
  pendingReaching : ∀ nodes ∈ search.pending, settings.Reaching entry (tagsOf nodes)
  count : search.pending.length + taken ≤ reads.length + 1
  entryFollowed : entry ∈ search.pending ∨ settings.Followed search.seen todo entry
  readFollowed : ∀ name ∈ reads, ∀ nodes, settings.environment.found name = .ok (some nodes) →
    nodes ∈ search.pending ∨ settings.Followed search.seen todo nodes

/-- The ends of following some tags: the search goes on, or a template that is reached cannot be
fetched. -/
inductive FollowEnd (calls : List Call) (taken : Nat) (todo : List Tag) :
    Except Fault Search × State → Prop where
  | ok {reads search s} : settings.Searching entry calls taken reads todo search s →
      FollowEnd calls taken todo (.ok search, s)
  | error {name fault s} : settings.Reaches entry name → settings.name ≠ some name →
      settings.environment.found name = .error fault →
      FollowEnd calls taken todo (.error fault, s)

/-- The ends of a search on a budget: every name that is reached has been read, or one of them
cannot be fetched, or too many of them are reached. -/
inductive SearchEnd (calls : List Call) (budget : Nat) : Except Fault Unit × State → Prop where
  | complete {reads : List String} {s} : s.host.calls = calls ++ reads.map .read → reads.Nodup →
      (∀ name, name ∈ reads ↔ settings.Reaches entry name ∧ settings.name ≠ some name) →
      (∀ name ∈ reads, ∃ nodes, settings.environment.found name = .ok nodes) →
      SearchEnd calls budget (.ok (), s)
  | error {name fault s} : settings.Reaches entry name → settings.name ≠ some name →
      settings.environment.found name = .error fault →
      SearchEnd calls budget (.error fault, s)
  | exhausted {reads : List String} {s} : reads.Nodup →
      (∀ name ∈ reads, settings.Reaches entry name) → budget ≤ reads.length →
      SearchEnd calls budget (.error .exhausted, s)

end Settings

section Following

variable {settings : Settings} {entry : List Node} {calls : List Call} {taken : Nat}
  {reads : List String} {todo : List Tag} {search : Settings.Search} {s : State}

theorem Settings.Followed.mono {seen seen' : List String} {tag : Tag} {todo : List Tag}
    {nodes : List Node} (h : settings.Followed seen (tag :: todo) nodes)
    (hseen : ∀ name ∈ seen, name ∈ seen')
    (htag : ∀ name, settings.reference? tag = some name → name ∈ seen') :
    settings.Followed seen' todo nodes := by
  intro t ht name hname
  rcases h t ht name hname with hn | hn
  · exact Or.inl (hseen name hn)
  · rcases List.mem_cons.1 hn with rfl | hn
    · exact Or.inl (htag name hname)
    · exact Or.inr hn

theorem perform_follow_seen {tag : Tag}
    (h : ∀ name, settings.reference? tag = some name → name ∈ search.seen) :
    perform (settings.follow search tag) s = (.ok search, s) := by
  unfold Settings.follow
  cases hr : settings.reference? tag with
  | none => rfl
  | some name =>
    have hn := h name hr
    simp [hn]

theorem perform_follow_unseen {tag : Tag} {name : String}
    (hread : settings.environment.read.isSome) (hr : settings.reference? tag = some name)
    (hn : name ∉ search.seen) (hs : s.templates.lookup name = none) :
    perform (settings.follow search tag) s =
      (match settings.environment.found name with
        | .ok none => .ok { search with seen := name :: search.seen }
        | .ok (some nodes) => .ok ⟨name :: search.seen, nodes :: search.pending⟩
        | .error fault => .error fault,
        settings.environment.fetched name s) := by
  have hresolved : settings.environment.resolved name s = settings.environment.found name := by
    simp [Environment.resolved, hs]
  have hlooked : settings.environment.looked name s = settings.environment.fetched name s := by
    simp [Environment.looked, hs]
  have htemplate := settings.environment.perform_template name s
  rw [hresolved, hlooked] at htemplate
  have hnone : settings.environment.read.isNone = false := by
    rw [← Option.not_isSome, hread]
    rfl
  unfold Settings.follow
  simp only [hr, List.contains_eq_mem, hn, hnone, decide_false, Bool.or_self, Bool.false_eq_true,
    if_false, perform_bind, htemplate]
  rcases settings.environment.found name with fault | (_ | nodes)
  · rfl
  · rfl
  · rfl

namespace Settings.Searching

variable {tag : Tag} {name : String}

theorem skip (h : settings.Searching entry calls taken reads (tag :: todo) search s)
    (ht : ∀ name, settings.reference? tag = some name → name ∈ search.seen) :
    settings.Searching entry calls taken reads todo search s :=
  { h with
    todoReaching := fun t hmem => h.todoReaching t (List.mem_cons_of_mem _ hmem)
    entryFollowed := h.entryFollowed.imp_right fun hf => hf.mono (fun _ => id) ht
    readFollowed := fun n hn nodes hnodes =>
      (h.readFollowed n hn nodes hnodes).imp_right fun hf => hf.mono (fun _ => id) ht }

theorem read (h : settings.Searching entry calls taken reads (tag :: todo) search s)
    (hread : settings.environment.read.isSome) (hr : settings.reference? tag = some name)
    (hn : name ∉ search.seen) {found : Option (List Node)}
    (hf : settings.environment.found name = .ok found) :
    settings.Searching entry calls taken (reads ++ [name]) todo
      ⟨name :: search.seen, found.toList ++ search.pending⟩
      (settings.environment.fetched name s) := by
  have hreached : settings.Reaches entry name := h.todoReaching tag (by simp) name hr
  have hunread : name ∉ reads := fun hmem => hn ((h.seen name).2 (Or.inl hmem))
  have hother : settings.name ≠ some name := fun ho => hn ((h.seen name).2 (Or.inr ho))
  have hfollowed : ∀ nodes, settings.Followed search.seen (tag :: todo) nodes →
      settings.Followed (name :: search.seen) todo nodes := by
    intro nodes hnodes
    refine hnodes.mono (fun n hmem => List.mem_cons_of_mem _ hmem) fun n hnext => ?_
    simp [Option.some.inj (hr.symm.trans hnext)]
  constructor
  case calls =>
    simp [Environment.fetched, Environment.readHost, Environment.readCalls, hread, h.calls]
  case nodup =>
    refine List.nodup_append.2 ⟨h.nodup, by simp, fun n hmem m hm => ?_⟩
    rw [List.mem_singleton.1 hm]
    exact ne_of_mem_of_not_mem hmem hunread
  case seen =>
    intro other
    simp only [List.mem_cons, List.mem_append, List.not_mem_nil, or_false, h.seen other]
    tauto
  case unread =>
    intro other ho
    have hne : other ≠ name := fun he => ho (by simp [he])
    simp only [Environment.fetched, hf, OrderedMap.lookup_insert_of_ne _ _ hne]
    exact h.unread other fun hmem => ho (List.mem_cons_of_mem _ hmem)
  case other =>
    intro n hmem
    rcases List.mem_append.1 hmem with hmem | hmem
    · exact h.other n hmem
    · exact List.mem_singleton.1 hmem ▸ hother
  case reached =>
    intro n hmem
    rcases List.mem_append.1 hmem with hmem | hmem
    · exact h.reached n hmem
    · exact List.mem_singleton.1 hmem ▸ hreached
  case found =>
    intro n hmem
    rcases List.mem_append.1 hmem with hmem | hmem
    · exact h.found n hmem
    · exact List.mem_singleton.1 hmem ▸ ⟨found, hf⟩
  case todoReaching => exact fun t hmem => h.todoReaching t (List.mem_cons_of_mem _ hmem)
  case pendingReaching =>
    intro nodes hmem
    rcases List.mem_append.1 hmem with hmem | hmem
    · obtain rfl := Option.mem_toList.1 hmem
      intro t ht next hnext
      refine .through hreached (List.mem_filterMap.2 ⟨t, ?_, hnext⟩)
      simpa [nodesOf, hother, hf] using ht
    · exact h.pendingReaching nodes hmem
  case count =>
    have := h.count
    have : found.toList.length ≤ 1 := by cases found <;> simp
    simp only [List.length_append, List.length_singleton]
    omega
  case entryFollowed =>
    rcases h.entryFollowed with hp | hp
    · exact Or.inl (List.mem_append_right _ hp)
    · exact Or.inr (hfollowed entry hp)
  case readFollowed =>
    intro n hmem nodes hnodes
    rcases List.mem_append.1 hmem with hmem | hmem
    · rcases h.readFollowed n hmem nodes hnodes with hp | hp
      · exact Or.inl (List.mem_append_right _ hp)
      · exact Or.inr (hfollowed nodes hp)
    · obtain rfl := List.mem_singleton.1 hmem
      obtain rfl := Except.ok.inj (hf.symm.trans hnodes)
      exact Or.inl (by simp)

theorem follow (h : settings.Searching entry calls taken reads (tag :: todo) search s)
    (hread : settings.environment.read.isSome) :
    settings.FollowEnd entry calls taken todo (perform (settings.follow search tag) s) := by
  by_cases ht : ∀ name, settings.reference? tag = some name → name ∈ search.seen
  · rw [perform_follow_seen ht]
    exact .ok (h.skip ht)
  · simp only [not_forall] at ht
    obtain ⟨name, hr, hn⟩ := ht
    rw [perform_follow_unseen hread hr hn (h.unread name hn)]
    cases hf : settings.environment.found name with
    | error fault =>
      refine .error (h.todoReaching tag (by simp) name hr) (fun ho => ?_) hf
      exact hn ((h.seen name).2 (Or.inr ho))
    | ok found =>
      have hnext := h.read hread hr hn hf
      cases found with
      | none => exact .ok hnext
      | some nodes => exact .ok hnext

theorem follow_all (h : settings.Searching entry calls taken reads todo search s)
    (hread : settings.environment.read.isSome) :
    settings.FollowEnd entry calls taken [] (perform (todo.foldlM settings.follow search) s) := by
  induction todo generalizing reads search s with
  | nil => exact .ok h
  | cons tag todo ih =>
    rw [List.foldlM_cons, perform_bind]
    have hend := h.follow hread
    generalize perform (settings.follow search tag) s = r at hend
    cases hend with
    | ok hnext => exact ih hnext
    | error hreached hother hfault => exact .error hreached hother hfault

theorem take {seen : List String} {nodes : List Node} {pending : List (List Node)}
    (h : settings.Searching entry calls taken reads [] ⟨seen, nodes :: pending⟩ s) :
    settings.Searching entry calls (taken + 1) reads (tagsOf nodes) ⟨seen, pending⟩ s := by
  have hfollowed : ∀ ms, ms ∈ nodes :: pending ∨ settings.Followed seen [] ms →
      ms ∈ pending ∨ settings.Followed seen (tagsOf nodes) ms := by
    rintro ms (hp | hp)
    · rcases List.mem_cons.1 hp with rfl | hp
      · exact Or.inr fun t ht _ _ => Or.inr ht
      · exact Or.inl hp
    · exact Or.inr fun t ht name hname => (hp t ht name hname).imp_right (by simp)
  have hcount : pending.length + (taken + 1) ≤ reads.length + 1 := by
    have := h.count
    simp only [List.length_cons] at this
    omega
  exact
    { h with
      todoReaching := h.pendingReaching nodes (by simp)
      pendingReaching := fun ms hmem => h.pendingReaching ms (List.mem_cons_of_mem _ hmem)
      count := hcount
      entryFollowed := hfollowed entry h.entryFollowed
      readFollowed := fun n hn ms hms => hfollowed ms (h.readFollowed n hn ms hms) }

theorem seen_of_reaches {seen : List String}
    (h : settings.Searching entry calls taken reads [] ⟨seen, []⟩ s) {name : String}
    (hname : settings.Reaches entry name) : name ∈ seen := by
  have hfollowed : ∀ {nodes : List Node}, nodes ∈ ([] : List (List Node)) ∨
      settings.Followed seen [] nodes → ∀ next ∈ settings.references nodes, next ∈ seen := by
    intro nodes hnodes next hnext
    obtain ⟨tag, ht, hr⟩ := List.mem_filterMap.1 hnext
    rcases hnodes with hp | hp
    · cases hp
    · exact (hp tag ht next hr).resolve_right (by simp)
  refine hname.mem_of_closed (hfollowed h.entryFollowed) fun name hseen next hnext => ?_
  unfold nodesOf at hnext
  split at hnext
  · exact hfollowed h.entryFollowed _ hnext
  · next hother =>
    have hread : name ∈ reads := ((h.seen name).1 hseen).resolve_right hother
    split at hnext
    · next nodes hnodes => exact hfollowed (h.readFollowed name hread nodes hnodes) _ hnext
    · simp [references, tagsOf] at hnext

theorem complete {seen : List String}
    (h : settings.Searching entry calls taken reads [] ⟨seen, []⟩ s) (budget : Nat) :
    settings.SearchEnd entry calls budget (.ok (), s) := by
  refine .complete h.calls h.nodup (fun name => ⟨fun hmem => ?_, fun hname => ?_⟩) h.found
  · exact ⟨h.reached name hmem, h.other name hmem⟩
  · exact ((h.seen name).1 (h.seen_of_reaches hname.1)).resolve_right hname.2

theorem followAll (h : settings.Searching entry calls taken reads [] search s)
    (hread : settings.environment.read.isSome) (budget : Nat) :
    settings.SearchEnd entry calls (taken + budget)
      (perform (settings.followAll budget search) s) := by
  induction budget generalizing taken reads search s with
  | zero =>
    obtain ⟨seen, pending⟩ := search
    cases pending with
    | nil => exact h.complete _
    | cons nodes pending =>
      have hcount := h.count
      simp only [List.length_cons] at hcount
      exact .exhausted h.nodup h.reached (by omega)
  | succ budget ih =>
    obtain ⟨seen, pending⟩ := search
    cases pending with
    | nil => exact h.complete _
    | cons nodes pending =>
      unfold Settings.followAll
      rw [perform_bind]
      have hend := h.take.follow_all hread
      generalize perform ((tagsOf nodes).foldlM settings.follow ⟨seen, pending⟩) s = r at hend
      cases hend with
      | ok hnext =>
        have := ih hnext
        rwa [Nat.add_right_comm] at this
      | error hreached hother hfault => exact .error hreached hother hfault

end Settings.Searching

theorem Settings.Searching.start (settings : Settings) (entry : List Node) {s : State}
    (hs : s.templates = []) :
    settings.Searching entry s.host.calls 0 [] [] ⟨settings.name.toList, [entry]⟩ s where
  calls := by simp
  nodup := List.nodup_nil
  seen := by simp
  unread := by simp [hs]
  other := by simp
  reached := by simp
  found := by simp
  todoReaching := by simp [Settings.Reaching]
  pendingReaching := by
    intro nodes hmem tag ht name hname
    rw [List.mem_singleton.1 hmem] at ht
    exact .entry (List.mem_filterMap.2 ⟨tag, ht, hname⟩)
  count := by simp
  entryFollowed := Or.inl (by simp)
  readFollowed := by simp

end Following

namespace Settings

/-- The text of the template, where templates are read from texts by name. -/
def sourceText (settings : Settings) (read : String → Option String) : Option String :=
  settings.text.or (settings.name.bind read)

/-- The calls that the text of the template takes. -/
def sourceCalls (settings : Settings) : List Call :=
  match settings.text with
  | some _ => []
  | none => settings.name.toList.map .read

/-- A template with a fault: the one that is compiled, or one that is reached and can be read. -/
inductive Malformed (settings : Settings) (read : String → Option String) (source : String) :
    Option String → CompileError → Prop where
  | source {e} : Markup.compile source settings.name = .error e →
      Malformed settings read source settings.name e
  | reached {entry name text e} : Markup.compile source settings.name = .ok entry →
      settings.Reaches entry name → settings.name ≠ some name → read name = some text →
      Markup.compile text (some name) = .error e → Malformed settings read source (some name) e

end Settings

theorem compile_error_template {text : String} {label : Option String} {e : CompileError}
    (h : Markup.compile text label = .error e) : e.template = label := by
  unfold Markup.compile at h
  split at h
  · cases h
  · cases h
    rfl

section Compiling

variable {settings : Settings} {read : String → Option String} {source : String}

theorem found_eq (hread : settings.environment.read = some fun name => .ok (read name))
    (name : String) :
    settings.environment.found name =
      match read name with
      | none => .ok none
      | some text =>
        match Markup.compile text (some name) with
        | .error e => .error (.compile e)
        | .ok nodes => .ok (some nodes) := by
  unfold Environment.found
  rw [hread]
  cases hr : read name with
  | none => simp [hr]
  | some text =>
    cases hc : Markup.compile text (some name) with
    | error e => simp [hr, hc]
    | ok nodes => simp [hr, hc]

theorem perform_source (hread : settings.environment.read = some fun name => .ok (read name))
    (hsource : settings.sourceText read = some source) (s : State) :
    perform settings.source s = (.ok source,
      { s with host := { s.host with calls := s.host.calls ++ settings.sourceCalls } }) := by
  unfold Settings.source Settings.sourceCalls
  cases ht : settings.text with
  | some text =>
    obtain rfl : text = source := by simpa [Settings.sourceText, ht] using hsource
    simp
  | none =>
    cases hn : settings.name with
    | none => simp [Settings.sourceText, ht, hn] at hsource
    | some name =>
      have hr : read name = some source := by simpa [Settings.sourceText, ht, hn] using hsource
      simp [Environment.readSource, perform_map, hread, hr, trace, updateHost, Action.ofExcept]
      rfl

theorem malformed_of_found (hread : settings.environment.read = some fun name => .ok (read name))
    {entry : List Node} (hentry : Markup.compile source settings.name = .ok entry) {name : String}
    {fault : Fault} (hreached : settings.Reaches entry name) (hother : settings.name ≠ some name)
    (hf : settings.environment.found name = .error fault) :
    ∃ e, fault = .compile e ∧ settings.Malformed read source e.template e := by
  rw [found_eq hread] at hf
  cases hr : read name with
  | none => simp [hr] at hf
  | some text =>
    cases hc : Markup.compile text (some name) with
    | ok nodes => simp [hr, hc] at hf
    | error e =>
      simp only [hr, hc, Except.error.injEq] at hf
      refine ⟨e, hf.symm, ?_⟩
      rw [compile_error_template hc]
      exact .reached hentry hreached hother hr hc

theorem not_malformed (hread : settings.environment.read = some fun name => .ok (read name))
    {entry : List Node} (hentry : Markup.compile source settings.name = .ok entry)
    (hf : ∀ name, settings.Reaches entry name → settings.name ≠ some name →
      ∃ nodes, settings.environment.found name = .ok nodes)
    {label : Option String} {e : CompileError} : ¬ settings.Malformed read source label e := by
  intro h
  cases h with
  | source he => cases hentry.symm.trans he
  | reached hentry' hreached hother hr he =>
    obtain rfl := Except.ok.inj (hentry.symm.trans hentry')
    obtain ⟨nodes, hnodes⟩ := hf _ hreached hother
    rw [found_eq hread, hr] at hnodes
    simp [he] at hnodes

theorem perform_compile {s t : State} (budget : Nat)
    (h : perform settings.source s = (.ok source, t)) :
    perform (settings.compile budget) s =
      match Markup.compile source settings.name with
      | .error e => (.error (.compile e), t)
      | .ok nodes =>
        let r := perform (settings.followAll budget ⟨settings.name.toList, [nodes]⟩) t
        (r.1.map fun _ => nodes, r.2) := by
  unfold Settings.compile
  rw [perform_bind_ok h]
  cases Markup.compile source settings.name with
  | error e => rfl
  | ok nodes => exact perform_map (fun _ => nodes) _ t

/-- Compiling ends with the entry's nodes, after the calls that read each template that is reached
once, or with the error in the text of a template. -/
theorem compile_end (hread : settings.environment.read = some fun name => .ok (read name))
    (hsource : settings.sourceText read = some source) {names : List String}
    (hnames : ∀ entry, Markup.compile source settings.name = .ok entry →
      ∀ name, settings.Reaches entry name → name ∈ names)
    {budget : Nat} (hbudget : names.length < budget) (host : HostState) :
    (∃ e, (perform (settings.compile budget) (State.start host)).1 = .error (.compile e) ∧
      settings.Malformed read source e.template e) ∨
    ∃ entry, ∃ reads : List String,
      (perform (settings.compile budget) (State.start host)).1 = .ok entry ∧
      Markup.compile source settings.name = .ok entry ∧
      (perform (settings.compile budget) (State.start host)).2.host.calls =
        host.calls ++ settings.sourceCalls ++ reads.map .read ∧
      reads.Nodup ∧
      (∀ name, name ∈ reads ↔ settings.Reaches entry name ∧ settings.name ≠ some name) ∧
      ∀ name ∈ reads, ∃ nodes, settings.environment.found name = .ok nodes := by
  have hperform := perform_source hread hsource (State.start host)
  generalize hs : { State.start host with host := { (State.start host).host with
    calls := (State.start host).host.calls ++ settings.sourceCalls } } = s at hperform
  have hcalls : s.host.calls = host.calls ++ settings.sourceCalls := by
    subst hs
    rfl
  have hkept : s.templates = [] := by
    subst hs
    rfl
  rw [perform_compile budget hperform]
  cases hentry : Markup.compile source settings.name with
  | error e =>
    refine Or.inl ⟨e, rfl, ?_⟩
    rw [compile_error_template hentry]
    exact .source hentry
  | ok entry =>
    have hsome : settings.environment.read.isSome := by
      rw [hread]
      rfl
    have hend := (Settings.Searching.start settings entry hkept).followAll hsome budget
    dsimp only
    generalize perform (settings.followAll budget ⟨settings.name.toList, [entry]⟩) s = r at hend
    cases hend with
    | complete hreads hnodup hmem hfound =>
      rw [hcalls] at hreads
      exact Or.inr ⟨entry, _, rfl, rfl, hreads, hnodup, hmem, hfound⟩
    | error hreached hother hfault =>
      obtain ⟨e, rfl, hm⟩ := malformed_of_found hread hentry hreached hother hfault
      exact Or.inl ⟨e, rfl, hm⟩
    | @exhausted reads _ hnodup hreached hle =>
      have hsub : reads ⊆ names := fun name hmem => hnames entry hentry name (hreached name hmem)
      have := (List.subperm_of_subset hnodup hsub).length_le
      omega

/-- Compiling explores exactly the templates that are reached by literal references: it fails if and
only if one of them is malformed, with the error in its text, and on success each of them has been
read once, and nothing else apart from the template's own text. -/
theorem compiled_explores (hread : settings.environment.read = some fun name => .ok (read name))
    (hsource : settings.sourceText read = some source) {names : List String}
    (hnames : ∀ entry, Markup.compile source settings.name = .ok entry →
      ∀ name, settings.Reaches entry name → name ∈ names)
    {budget : Nat} (hbudget : names.length < budget) (host : HostState) :
    ((∃ e, (Template.compiled ⟨settings, none⟩ budget host).1 = .error (.compile e)) ↔
      ∃ label e, settings.Malformed read source label e) ∧
    (∀ fault, (Template.compiled ⟨settings, none⟩ budget host).1 = .error fault →
      ∃ e, fault = .compile e ∧ settings.Malformed read source e.template e) ∧
    ∀ entry, (Template.compiled ⟨settings, none⟩ budget host).1 = .ok entry →
      Markup.compile source settings.name = .ok entry ∧
      ∃ reads : List String, reads.Nodup ∧
        (∀ name, name ∈ reads ↔ settings.Reaches entry name ∧ settings.name ≠ some name) ∧
        (Template.compiled ⟨settings, none⟩ budget host).2.2.calls =
          host.calls ++ settings.sourceCalls ++ reads.map .read := by
  have hresult : (Template.compiled ⟨settings, none⟩ budget host).1 =
      (perform (settings.compile budget) (State.start host)).1 := by
    unfold Template.compiled
    rcases perform (settings.compile budget) (State.start host) with ⟨_ | _, s⟩ <;> rfl
  have hhost : (Template.compiled ⟨settings, none⟩ budget host).2.2 =
      (perform (settings.compile budget) (State.start host)).2.host := by
    unfold Template.compiled
    rcases perform (settings.compile budget) (State.start host) with ⟨_ | _, s⟩ <;> rfl
  rw [hresult, hhost]
  rcases compile_end hread hsource hnames hbudget host with
    ⟨e, he, hm⟩ | ⟨entry, reads, hok, hentry, hcalls, hnodup, hmem, hfound⟩
  · rw [he]
    refine ⟨⟨fun _ => ⟨_, _, hm⟩, fun _ => ⟨e, rfl⟩⟩, ?_, nofun⟩
    intro fault hf
    exact ⟨e, (Except.error.inj hf).symm, hm⟩
  · rw [hok, hcalls]
    refine ⟨⟨nofun, ?_⟩, nofun, ?_⟩
    · rintro ⟨label, e, hm⟩
      refine absurd hm (not_malformed hread hentry fun name hreached hother => ?_)
      exact hfound name ((hmem name).2 ⟨hreached, hother⟩)
    · intro _ hx
      obtain rfl := Except.ok.inj hx
      exact ⟨hentry, reads, hnodup, hmem, rfl⟩

/-- An anonymous template and one that it includes, which includes itself. -/
theorem compiled_explores_cycle :
    let text := "<pop:include template=\"b\"/>"
    let read := fun name => if name = "b" then some text else none
    let settings : Settings :=
      { text := some text, environment := { read := some fun name => .ok (read name) } }
    (Template.compiled ⟨settings, none⟩ 2 {}).2.2.calls = [.read "b"] ∧
      ¬ ∃ label e, settings.Malformed read text label e := by
  intro text read settings
  have hentry : (match Markup.compile text settings.name with
      | .ok entry => decide (settings.references entry = ["b"])
      | .error _ => false) = true := by decide +kernel
  have hnodes : settings.references (settings.nodesOf [] "b") = ["b"] := by decide +kernel
  have hnames : ∀ entry, Markup.compile text settings.name = .ok entry →
      ∀ name, settings.Reaches entry name → name ∈ ["b"] := by
    intro entry hok name hname
    rw [hok] at hentry
    refine hname.mem_of_closed ?_ fun other hmem next hnext => ?_
    · simp [of_decide_eq_true hentry]
    · rw [List.mem_singleton.1 hmem] at hnext
      exact hnodes ▸ hnext
  refine ⟨by decide +kernel, fun hm => ?_⟩
  have hcompiled : (Template.compiled ⟨settings, none⟩ 2 {}).1.isOk = true := by decide +kernel
  obtain ⟨e, he⟩ := (compiled_explores rfl rfl hnames (by decide : _ < 2) {}).1.2 hm
  rw [he] at hcompiled
  cases hcompiled

theorem source_templates (settings : Settings) (s : State) :
    (perform settings.source s).2.templates = s.templates := by
  unfold Settings.source
  cases settings.text with
  | some text => rfl
  | none =>
    cases settings.name with
    | none => rfl
    | some name =>
      cases hr : settings.environment.read with
      | none => simp [Environment.readSource, hr]
      | some read =>
        cases ht : read name with
        | error fault =>
          simp [Environment.readSource, perform_bind, hr, ht, trace, updateHost, Action.ofExcept]
        | ok text =>
          cases text <;>
            simp [Environment.readSource, perform_bind, perform_map, hr, ht, trace, updateHost,
              Action.ofExcept]

theorem found_of_compile {entry : List Node} {budget : Nat} {host : HostState}
    (h : (perform (settings.compile budget) (State.start host)).1 = .ok entry) {name : String}
    (hname : settings.Reaches entry name) (hother : settings.name ≠ some name) :
    ∃ nodes, settings.environment.found name = .ok nodes := by
  cases hread : settings.environment.read with
  | none => exact ⟨none, by simp [Environment.found, hread]⟩
  | some read =>
    have hsome : settings.environment.read.isSome := by
      rw [hread]
      rfl
    have hkept := source_templates settings (State.start host)
    cases hsource : perform settings.source (State.start host) with
    | mk result s =>
      rw [hsource] at hkept
      cases result with
      | error fault =>
        unfold Settings.compile at h
        rw [perform_bind, hsource] at h
        cases h
      | ok source =>
        rw [perform_compile budget hsource] at h
        cases hentry : Markup.compile source settings.name with
        | error e =>
          rw [hentry] at h
          cases h
        | ok nodes =>
          have hend := (Settings.Searching.start settings nodes hkept).followAll hsome budget
          rw [hentry] at h
          dsimp only at h
          generalize perform (settings.followAll budget ⟨settings.name.toList, [nodes]⟩) s = r
            at h hend
          cases hend with
          | complete _ _ hmem hfound =>
            obtain rfl := Except.ok.inj h
            exact hfound name ((hmem name).2 ⟨hname, hother⟩)
          | error => cases h
          | exhausted => cases h

end Compiling

end TagTemplate
