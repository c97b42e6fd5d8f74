import TagTemplate.Proofs.Replay.Render
import TagTemplate.Template

/-!
# Pages in a host with a past

By induction on the budget whole trees are rendered alike after a past, and so are pages, whose
content is copied first. So what a template is rendered to does not depend on what the host has done
before, if the host functions are without a memory.
-/

namespace TagTemplate

open Markup (Node Tag)
open TagTemplate.Action
open Replay

variable {past : HostState} {n : Nat} {env : Environment} (hpast : past.Settled)
  (henv : env.Stateless)

namespace Environment

include hpast henv

theorem renders (budget : Nat) : Replay.Renders past (env.render budget) := by
  induction budget with
  | zero => exact fun _ _ => replays_fail _
  | succ budget ih => exact fun hs nodes => repeats_renderNodes hpast henv ih hs budget nodes

theorem repeats_applyLayouts (budget : Nat) {root : Scope} (hroot : root.Known n) (remaining : Nat)
    (output : String) :
    Repeats past n (env.applyLayouts budget root remaining output)
      (env.applyLayouts budget (root.renumber past.nextStream) remaining output) := by
  have htake : ∀ {n}, Repeats past n takeLayout takeLayout :=
    fun s t hs _ => .ok (Nat.le_refl _) hs.pending.symm { hs with pending := rfl }
  induction remaining generalizing n output with
  | zero =>
    unfold applyLayouts
    refine Repeats.bind htake fun m hm name => ?_
    cases name with
    | none => exact repeats_pure output
    | some name => exact replays_fail _
  | succ remaining ih =>
    unfold applyLayouts
    refine Repeats.bind htake fun m hm name => ?_
    cases name with
    | none => exact repeats_pure output
    | some name =>
      refine Repeats.bind (env.repeats_template _) fun k hk nodes => ?_
      have hknown := hroot.mono (Nat.le_trans hm hk)
      cases nodes with
      | none => exact Repeats.bind (repeats_warn _) fun _ _ _ => repeats_pure output
      | some nodes =>
        refine Repeats.bind (renders hpast henv budget hknown nodes) fun l hl text => ?_
        exact ih (hknown.mono hl) text

theorem repeats_compose (budget : Nat) (nodes : List Node) {root : Scope} (hroot : root.Known n) :
    Repeats past n (env.compose budget nodes root)
      (env.compose budget nodes (root.renumber past.nextStream)) :=
  Repeats.bind (renders hpast henv budget hroot nodes) fun _ hm output =>
    repeats_applyLayouts hpast henv budget (hroot.mono hm) _ output

omit hpast henv in
theorem repeats_guardRecursion (env : Environment) {a b : Action String} (h : Repeats past n a b) :
    Repeats past n (env.guardRecursion a) (env.guardRecursion b) := by
  refine Replays.bind h.attempt ?_
  rintro m - r r' (⟨rfl⟩ | e)
  · exact repeats_pure _
  · split <;> first | exact repeats_pure _ | exact replays_fail _

theorem repeats_renderPage (budget : Nat) (nodes : List Node) {content : HostValue}
    (hc : content.isStateless true) :
    Repeats past n (env.renderPage budget nodes content) (env.renderPage budget nodes content) := by
  have hcontent : (pageContent content).isStateless true := by
    cases content with
    | null => rfl
    | _ => exact hc
  refine Replays.bind (HostValue.replays_refresh _ hcontent) ?_
  rintro m - v _ ⟨hv, rfl⟩
  have hroot : Replays past m (fun k s s' => s.Known k ∧ s' = s.renumber past.nextStream)
      (Scope.ofHost v) (Scope.ofHost (v.renumber past.nextStream)) := by
    refine Replays.bind (Content.replays_ofHost hpast hv) ?_
    rintro k - c _ ⟨hc, rfl⟩
    refine replays_pure fun l hl => ⟨?_, rfl⟩
    exact List.forall_mem_singleton.2 ⟨hc.mono hl, nofun⟩
  refine Replays.bind hroot ?_
  rintro k - root _ ⟨hroot, rfl⟩
  exact env.repeats_guardRecursion (repeats_compose hpast henv budget nodes hroot)

end Environment

namespace Settings

variable (settings : Settings)

theorem repeats_source : Repeats past n settings.source settings.source := by
  unfold source
  cases settings.text with
  | some text => exact repeats_pure text
  | none =>
    cases settings.name with
    | none => exact replays_fail _
    | some name =>
      refine Repeats.bind (settings.environment.repeats_readSource name) fun m _ text => ?_
      cases text with
      | none => exact replays_fail _
      | some text => exact repeats_pure text

theorem repeats_follow (search : Search) (tag : Tag) :
    Repeats past n (settings.follow search tag) (settings.follow search tag) := by
  unfold follow
  cases settings.reference? tag with
  | none => exact repeats_pure search
  | some name =>
    dsimp only
    split
    · exact repeats_pure search
    · refine Repeats.bind (settings.environment.repeats_template name) fun m _ nodes => ?_
      cases nodes with
      | none => exact repeats_pure _
      | some nodes => exact repeats_pure _

theorem repeats_followTags (tags : List Tag) (search : Search) :
    Repeats past n (tags.foldlM settings.follow search) (tags.foldlM settings.follow search) := by
  induction tags generalizing search n with
  | nil => exact repeats_pure search
  | cons tag tags ih =>
    rw [List.foldlM_cons]
    exact Repeats.bind (settings.repeats_follow search tag) fun _ _ search => ih search

theorem repeats_followAll (budget : Nat) (search : Search) :
    Repeats past n (settings.followAll budget search) (settings.followAll budget search) := by
  induction budget generalizing search n with
  | zero =>
    obtain ⟨seen, _ | ⟨nodes, pending⟩⟩ := search
    · exact repeats_pure ()
    · exact replays_fail _
  | succ budget ih =>
    obtain ⟨seen, _ | ⟨nodes, pending⟩⟩ := search
    · exact repeats_pure ()
    · exact Repeats.bind (settings.repeats_followTags _ _) fun _ _ search => ih search

theorem repeats_compile (budget : Nat) :
    Repeats past n (settings.compile budget) (settings.compile budget) := by
  refine Repeats.bind settings.repeats_source fun m _ source => ?_
  refine Repeats.bind (repeats_ofExcept _) fun k _ nodes => ?_
  exact (settings.repeats_followAll budget _).map _

end Settings

namespace HostState

def GoesOn (past fresh host : HostState) : Prop :=
  host = past.followedBy fresh ∧ fresh.Settled

variable {past fresh host : HostState}

theorem GoesOn.program (h : past.GoesOn fresh host) : host.program = past.program := by
  rw [h.1]
  rfl

theorem GoesOn.settled (h : past.GoesOn fresh host) (hpast : past.Settled) : host.Settled :=
  h.1 ▸ hpast.followedBy h.2

end HostState

theorem Repeats.start {α : Type} {a : Action α} (h : Repeats past 0 a a)
    (templates : OrderedMap (Option (List Node))) :
    (perform a { State.start past with templates }).1 =
        (perform a { State.start past.fresh with templates }).1 ∧
      past.GoesOn (perform a { State.start past.fresh with templates }).2.host
        (perform a { State.start past with templates }).2.host := by
  have hstart : States past { State.start past.fresh with templates }
      { State.start past with templates } :=
    ⟨past.followedBy_fresh.symm, rfl, nofun, rfl, fun _ => .none, fun _ => .none, rfl, rfl⟩
  have hends := h _ _ hstart (Nat.zero_le _)
  generalize perform a { State.start past.fresh with templates } = r at hends ⊢
  generalize perform a { State.start past with templates } = r' at hends ⊢
  cases hends with
  | ok _ hx hs => exact ⟨congrArg Except.ok hx.symm, hs.host, hs.settled⟩
  | error _ hs => exact ⟨rfl, hs.host, hs.settled⟩

namespace Template

variable (t : Template) (budget : Nat)

theorem compiled_eq (past : HostState) :
    (t.compiled budget past).1 = (t.compiled budget past.fresh).1 ∧
      (t.compiled budget past).2.1 = (t.compiled budget past.fresh).2.1 ∧
      past.GoesOn (t.compiled budget past.fresh).2.2 (t.compiled budget past).2.2 := by
  unfold compiled
  cases t.nodes with
  | some nodes => exact ⟨rfl, rfl, past.followedBy_fresh.symm, nofun⟩
  | none =>
    have hcompile : Repeats past 0 (t.settings.compile budget) (t.settings.compile budget) :=
      t.settings.repeats_compile budget
    obtain ⟨hresult, hhost⟩ := Repeats.start hcompile []
    change (perform _ (State.start past)).1 = (perform _ (State.start past.fresh)).1 at hresult
    change past.GoesOn (perform _ (State.start past.fresh)).2.host
      (perform _ (State.start past)).2.host at hhost
    generalize perform (t.settings.compile budget) (State.start past) = r at hresult hhost ⊢
    generalize perform (t.settings.compile budget) (State.start past.fresh) = r' at hresult hhost ⊢
    obtain ⟨result, s⟩ := r
    obtain ⟨result', s'⟩ := r'
    obtain rfl : result = result' := hresult
    cases result with
    | error e => exact ⟨rfl, rfl, hhost⟩
    | ok nodes => exact ⟨rfl, rfl, hhost⟩

theorem renderNodes_eq (henv : t.settings.environment.Stateless) (nodes : List Node)
    {content : HostValue} (hc : content.isStateless true) {past : HostState}
    (hpast : past.Settled) :
    (t.renderNodes budget nodes content past).1 =
        (t.renderNodes budget nodes content past.fresh).1 ∧
      past.GoesOn (t.renderNodes budget nodes content past.fresh).2
        (t.renderNodes budget nodes content past).2 :=
  Repeats.start (Environment.repeats_renderPage hpast henv budget nodes hc) (t.preloaded nodes)

end Template

end TagTemplate
