import TagTemplate.Proofs.Kinship.Page
import TagTemplate.Proofs.LayoutChain
import TagTemplate.Proofs.Promise.Content

/-!
# Discarded output

A page that applies a layout shows nothing of its first pass. Text outside of blocks and of the
values of attributes has then no effect at all: the blocks are the same without it, the same layout
is asked for, and whatever fails does so either way.
-/

namespace TagTemplate

open Markup (Node Tag)
open TagTemplate.Action
open Lockstep

/-- The value is no function, and no attribute of it is computed. -/
def HostValue.isCodeless : HostValue → Bool
  | .function _ | .content _ => false
  | .object (.record _ computed) => computed.isEmpty
  | _ => true

/-- Two trees that are equal but for text outside of blocks and of the values of attributes. -/
inductive SameButText : List Node → List Node → Prop where
  | refl (ns) : SameButText ns ns
  | text (text text') {ns ns'} :
      SameButText ns ns' → SameButText (.text text :: ns) (.text text' :: ns')
  | block {tag ns ns'} :
      IsBlock tag → SameButText ns ns' → SameButText (.tag tag :: ns) (.tag tag :: ns')
  | tag {tag children ns ns'} : ¬ IsBlock tag → SameButText tag.children children →
      SameButText ns ns' → SameButText (.tag tag :: ns) (.tag { tag with children } :: ns')

def Environment.AppliesLayout (env : Environment) (budget : Nat) (nodes : List Node) (root : Scope)
    (s : State) : Prop :=
  0 < env.maxDepth ∧ ∃ p name layout, env.runPass budget root nodes s = .ok p ∧
    p.requested = some name ∧ (perform (env.layout name) p.taken).1 = .ok (some layout)

section Codeless

variable {L : Lockstep}

theorem ofHost_codeless (h : L.HostClosed) {v : HostValue} (hv : v.every HostValue.isCodeless) :
    L.Relates (fun c c' => c = c' ∧ c.every HostValue.isCodeless) (Content.ofHost v)
      (Content.ofHost v) := by
  cases v with
  | list items =>
    rw [HostValue.every, Bool.and_eq_true] at hv
    exact relates_pure ⟨rfl, hv.2⟩
  | stream id items =>
    rw [HostValue.every, Bool.and_eq_true] at hv
    refine Agrees.bind (h.openStream id) fun unread => relates_pure ⟨rfl, ?_⟩
    cases unread with
    | true => exact hv.2
    | false => rfl
  | object o => exact Agrees.bind (h.hasMarkup o) fun _ => relates_pure ⟨rfl, hv⟩
  | function f => cases hv
  | content c => cases hv
  | _ => exact relates_pure ⟨rfl, hv⟩

theorem Content.get_codeless {c : Content} (hc : c.every HostValue.isCodeless) (name : String) :
    c.get name = pure .missing ∨
      ∃ v : HostValue, v.every HostValue.isCodeless ∧ c.get name = Content.ofHost v := by
  have hmapping : ∀ {entries : OrderedMap HostValue}, everyEntry HostValue.isCodeless entries →
      (HostObject.mapping entries).get name = pure .missing ∨
        ∃ v : HostValue, v.every HostValue.isCodeless ∧
          (HostObject.mapping entries).get name = Content.ofHost v := by
    intro entries he
    unfold HostObject.get
    dsimp only
    cases hv : entries.lookup name with
    | none => exact Or.inl rfl
    | some v => exact Or.inr ⟨v, everyEntry_lookup he hv, rfl⟩
  cases c with
  | object o =>
    rw [Content.every, HostValue.every, Bool.and_eq_true] at hc
    obtain ⟨hself, hinside⟩ := hc
    cases o with
    | mapping entries => exact hmapping hinside
    | unprintable => exact Or.inl rfl
    | record fields computed =>
      obtain rfl : computed = [] := List.isEmpty_iff.1 hself
      by_cases hprivate : name.startsWith "_"
      · exact Or.inl (if_pos hprivate)
      · have hlookup : ∀ f, fields.lookup "lookup" ≠ some (.function f) := by
          intro f hf
          cases HostValue.every_self (everyEntry_lookup hinside hf)
        have hget := HostObject.get_plain hlookup hprivate
        unfold Content.get
        dsimp only
        rw [hget]
        exact hmapping hinside
  | _ => exact Or.inl rfl

mutual

theorem refresh_codeless (h : L.HostClosed) :
    (v : HostValue) → v.every HostValue.isCodeless →
      L.Relates (fun v v' => v = v' ∧ v.every HostValue.isCodeless) v.refresh v.refresh
  | .list items, hv => by
    rw [HostValue.every, Bool.and_eq_true] at hv
    rw [HostValue.refresh]
    refine Relates.bind (refreshItems_codeless h items hv.2) ?_
    rintro items _ ⟨rfl, hi⟩
    exact relates_pure ⟨rfl, hi⟩
  | .stream id items, hv => by
    rw [HostValue.every, Bool.and_eq_true] at hv
    rw [HostValue.refresh]
    refine Relates.bind (refreshItems_codeless h items hv.2) ?_
    rintro items _ ⟨rfl, hi⟩
    exact Agrees.bind h.freshStream fun id => relates_pure ⟨rfl, hi⟩
  | .object (.mapping entries), hv => by
    rw [HostValue.every, Bool.and_eq_true] at hv
    rw [HostValue.refresh, HostObject.refresh, bind_assoc]
    refine Relates.bind (refreshEntries_codeless h entries hv.2) ?_
    rintro entries _ ⟨rfl, he⟩
    exact relates_pure ⟨rfl, he⟩
  | .object (.record fields computed), hv => by
    rw [HostValue.every, Bool.and_eq_true] at hv
    rw [HostValue.refresh, HostObject.refresh, bind_assoc]
    refine Relates.bind (refreshEntries_codeless h fields hv.2) ?_
    rintro fields _ ⟨rfl, hf⟩
    refine relates_pure ⟨rfl, ?_⟩
    rw [HostValue.every, Bool.and_eq_true]
    exact ⟨hv.1, hf⟩
  | .object .unprintable, hv => relates_pure ⟨rfl, hv⟩
  | .null, hv => relates_pure ⟨rfl, hv⟩
  | .bool _, hv => relates_pure ⟨rfl, hv⟩
  | .number _, hv => relates_pure ⟨rfl, hv⟩
  | .string _, hv => relates_pure ⟨rfl, hv⟩
  | .function _, hv => by cases hv
  | .content _, hv => by cases hv

theorem refreshItems_codeless (h : L.HostClosed) :
    (vs : List HostValue) → everyItem HostValue.isCodeless vs →
      L.Relates (fun vs vs' => vs = vs' ∧ everyItem HostValue.isCodeless vs) (refreshItems vs)
        (refreshItems vs)
  | [], _ => relates_pure ⟨rfl, rfl⟩
  | v :: vs, hvs => by
    rw [everyItem, Bool.and_eq_true] at hvs
    rw [refreshItems]
    refine Relates.bind (refresh_codeless h v hvs.1) ?_
    rintro v _ ⟨rfl, hv⟩
    refine Relates.bind (refreshItems_codeless h vs hvs.2) ?_
    rintro vs _ ⟨rfl, hvs⟩
    refine relates_pure ⟨rfl, ?_⟩
    rw [everyItem, Bool.and_eq_true]
    exact ⟨hv, hvs⟩

theorem refreshEntries_codeless (h : L.HostClosed) :
    (es : List (String × HostValue)) → everyEntry HostValue.isCodeless es →
      L.Relates (fun es es' => es = es' ∧ everyEntry HostValue.isCodeless es) (refreshEntries es)
        (refreshEntries es)
  | [], _ => relates_pure ⟨rfl, rfl⟩
  | (name, v) :: es, hes => by
    rw [everyEntry, Bool.and_eq_true] at hes
    rw [refreshEntries]
    refine Relates.bind (refresh_codeless h v hes.1) ?_
    rintro v _ ⟨rfl, hv⟩
    refine Relates.bind (refreshEntries_codeless h es hes.2) ?_
    rintro es _ ⟨rfl, hes⟩
    refine relates_pure ⟨rfl, ?_⟩
    rw [everyEntry, Bool.and_eq_true]
    exact ⟨hv, hes⟩

end

end Codeless

def Kinship.unseenText : Kinship where
  value v v' := v = v' ∧ v.every HostValue.isCodeless
  content c c' := c = c' ∧ c.every HostValue.isCodeless
  nodes seen ns ns' := SameButText ns ns' ∧ (seen → ns = ns')
  host := Eq

namespace Kinship

theorem nodes_unseenText_refl {seen : Prop} (ns : List Node) : unseenText.nodes seen ns ns :=
  ⟨.refl ns, fun _ => rfl⟩

theorem hostClosed_unseenText : unseenText.lockstep.HostClosed :=
  have update {s t : State} (hs : unseenText.States s t) (f : HostState → HostState) :
      unseenText.States { s with host := f s.host } { t with host := f t.host } :=
    { hs with host := congrArg f hs.host }
  { agree hs := hs.host ▸ .refl _
    call hs label := update hs fun h => { h with calls := h.calls ++ [.function label] }
    count hs counters := update hs fun h => { h with counters }
    consume hs consumed := update hs fun h => { h with consumed }
    number hs next := update hs fun h => { h with nextStream := next }
    fault _ := trivial
    raised _ _ _ _ := trivial
    recovers _ _ _ _ := ⟨id, id⟩ }

theorem items_unseenText {seen : Prop} {ns ns' : List Node} (h : SameButText ns ns')
    (hseen : seen → ns = ns') : List.Forall₂ (unseenText.Items seen) ns ns' := by
  have mentioned : ∀ tag, unseenText.Mentions tag := fun _ => ⟨trivial, fun _ _ => trivial⟩
  have same : ∀ tag, unseenText.Items seen (.tag tag) (.tag tag) := fun tag =>
    .tag ⟨rfl, rfl, rfl, mentioned tag, fun _ ns _ => nodes_unseenText_refl ns,
      nodes_unseenText_refl _, fun _ => nodes_unseenText_refl _⟩
  induction h with
  | refl ns =>
    refine List.forall₂_same.2 fun n _ => ?_
    cases n with
    | text text => exact .text (Shown.of_eq rfl)
    | tag tag => exact same tag
  | text text text' _ ih =>
    have hhead : seen → text = text' := fun h => by
      injection hseen h with hnode
      exact Node.text.inj hnode
    exact .cons (.text hhead) (ih fun h => List.tail_eq_of_cons_eq (hseen h))
  | block _ _ ih => exact .cons (same _) (ih fun h => List.tail_eq_of_cons_eq (hseen h))
  | @tag tag children _ _ hb hc _ _ ih =>
    have hchildren : seen → tag.children = children := fun h => by
      injection hseen h with hnode
      exact congrArg Tag.children (Node.tag.inj hnode)
    refine .cons (.tag ⟨rfl, rfl, rfl, mentioned tag, fun _ ns _ => nodes_unseenText_refl ns,
      ⟨hc, hchildren⟩, fun h => absurd h hb⟩) ?_
    exact ih fun h => List.tail_eq_of_cons_eq (hseen h)

theorem sound_unseenText : unseenText.Sound where
  form := by
    rintro c _ ⟨rfl, hc⟩
    cases c with
    | array items =>
      exact .array (List.forall₂_same.2 fun v hv => ⟨rfl, everyItem_iff.1 hc v hv⟩)
    | callable f => cases hc
    | missing => exact .missing
    | null => exact .null
    | bool b => exact .bool b
    | number n => exact .number n
    | string s => exact .string s
    | object o => exact .object o o
  missing := ⟨rfl, rfl⟩
  array := by
    intro items items' hi
    induction hi with
    | nil => exact ⟨rfl, rfl⟩
    | cons hv _ ih =>
      obtain ⟨rfl, hv⟩ := hv
      obtain ⟨⟨⟩, hvs⟩ := ih
      refine ⟨rfl, ?_⟩
      rw [Content.every, everyItem, Bool.and_eq_true]
      exact ⟨hv, hvs⟩
  isNull := by
    rintro v _ ⟨rfl, -⟩
    exact Iff.rfl
  refresh := by
    rintro v _ ⟨rfl, hv⟩
    exact refresh_codeless hostClosed_unseenText v hv
  ofHost := by
    rintro v _ ⟨rfl, hv⟩
    exact ofHost_codeless hostClosed_unseenText hv
  get := by
    rintro c _ ⟨rfl, hc⟩ name -
    rcases Content.get_codeless hc name with hget | ⟨v, hv, hget⟩
    · rw [hget]
      exact relates_pure ⟨rfl, rfl⟩
    · rw [hget]
      exact ofHost_codeless hostClosed_unseenText hv
  inline := by
    rintro c _ ⟨rfl, -⟩ options
    exact hostClosed_unseenText.inlineContent options c
  nodes h := items_unseenText h.1 h.2
  host := by
    rintro h _ rfl _ _
    rfl

end Kinship

section Passes

variable {env : Environment} {budget : Nat} {root : Scope}

theorem applyLayouts_discards {p : Pass} (hpending : p.state.registry.pending = p.requested)
    {name : String} (hname : p.requested = some name) {layout : List Node}
    (hread : (perform (env.layout name) p.taken).1 = .ok (some layout)) (remaining : Nat)
    (output : String) :
    perform (env.applyLayouts budget root (remaining + 1) p.output) p.state =
      perform (env.applyLayouts budget root (remaining + 1) output) p.state := by
  rw [Environment.applyLayouts, Environment.applyLayouts,
    perform_bind_ok (perform_takeLayout_pass hpending),
    perform_bind_ok (perform_takeLayout_pass hpending), hname]
  dsimp only
  rw [perform_bind, perform_bind]
  generalize perform (env.layout name) p.taken = found at hread
  obtain ⟨_, t⟩ := found
  cases hread
  rfl

namespace Kinship

variable {K : Kinship} (h : K.Sound) (henv : K.Environments env env) {s t : State}

include h henv

theorem exists_layout {name : String} {layout : List Node} (hs : K.States s t)
    (hread : (perform (env.layout name) s).1 = .ok (some layout)) :
    ∃ layout', (perform (env.layout name) t).1 = .ok (some layout') := by
  have ho := relates_template h henv (env.layoutPrefix ++ name) s t hs
  unfold Environment.layout at hread ⊢
  generalize perform (env.template (env.layoutPrefix ++ name)) s = r at hread ho
  generalize perform (env.template (env.layoutPrefix ++ name)) t = r' at ho ⊢
  obtain ⟨_, s'⟩ := r
  cases hread
  obtain ⟨⟨-⟩, -⟩ := ho
  exact ⟨_, rfl⟩

theorem exists_runPass {seen : Prop} {ns ns' : List Node} (hns : K.nodes seen ns ns')
    (hroot : K.Scopes root root) (hs : K.States s t) (hpending : s.registry.pending = none)
    {p : Pass} (hp : env.runPass budget root ns s = .ok p) :
    ∃ p', env.runPass budget root ns' t = .ok p' ∧ p'.requested = p.requested ∧
      p'.state.registry.pending = p'.requested ∧ K.States p.state p'.state := by
  have ho := relates_render h henv budget hns hroot s t hs
  rw [perform_runPass hp] at ho
  generalize hr : perform (env.render budget ns' root) t = r at ho
  cases ho with
  | @ok _ output _ u _ hu =>
    have hp' : env.runPass budget root ns' t =
        .ok ⟨output, u.registry.events.drop t.registry.events.length, u⟩ := by
      unfold Environment.runPass
      rw [hr]
    have hkept := (registry_runPass hp hpending).2
    have hkept' := (registry_runPass hp' (hs.pending ▸ hpending)).2
    refine ⟨_, hp', ?_, hkept', hu⟩
    rw [← hkept, ← hkept', hu.pending]

end Kinship

end Passes

/-- If a page applies a layout, then so does every page that differs from it only in text outside
of blocks and of the values of attributes, and both end alike. -/
theorem compose_discards_text (env : Environment) (budget : Nat) (host : HostState)
    (templates : OrderedMap (Option (List Node))) (filters : env.filters = [])
    (hrequire : ∀ load ∈ env.require, ∀ name v, load name = .ok (some v) →
      v.every HostValue.isCodeless)
    {content : Content} (hcontent : content.every HostValue.isCodeless) {nodes nodes' : List Node}
    (h : SameButText nodes nodes') :
    let root : Scope := { frame := { value := content } }
    let start : State := { State.start host with templates }
    env.AppliesLayout budget nodes root start →
      env.AppliesLayout budget nodes' root start ∧
        (perform (env.compose budget nodes root) start).1 =
          (perform (env.compose budget nodes' root) start).1 := by
  rintro root start ⟨hdepth, p, name, layout, hp, hname, hread⟩
  let K := Kinship.unseenText
  have hsound : K.Sound := Kinship.sound_unseenText
  have hloads : ∀ load ∈ env.require, ∀ name, Loads K.value (load name) (load name) := by
    intro load hl name
    rcases hload : load name with e | _ | v
    · exact .error e
    · exact .none
    · exact .some ⟨rfl, hrequire load hl name v hload⟩
  have henv : K.Environments env env :=
    { filters := filters
      filters' := filters
      maxDepth := rfl
      layoutPrefix := rfl
      read := rfl
      templates := fun _ nodes _ => Kinship.nodes_unseenText_refl nodes
      require := by
        cases hr : env.require with
        | none => exact .none
        | some load => exact .some fun name _ => hloads load hr name }
  have hroot : K.Scopes root root := .cons ⟨⟨rfl, hcontent⟩, fun _ => .none, rfl, rfl⟩ .nil
  have hstart : K.States start start :=
    Kinship.states_start rfl fun _ nodes _ => Kinship.nodes_unseenText_refl nodes
  have hns : K.nodes False nodes nodes' := ⟨h, False.elim⟩
  obtain ⟨p', hp', hsame, hpending, hstates⟩ :=
    Kinship.exists_runPass hsound henv hns hroot hstart rfl hp
  have htaken : K.States p.taken p'.taken := { hstates with pending := rfl }
  obtain ⟨layout', hread'⟩ := Kinship.exists_layout hsound henv htaken hread
  have hname' := hsame.trans hname
  refine ⟨⟨hdepth, p', name, layout', hp', hname', hread'⟩, ?_⟩
  obtain ⟨remaining, hlimit⟩ := Nat.exists_eq_add_one_of_ne_zero hdepth.ne'
  have hrest := Kinship.agrees_applyLayouts hsound henv budget hroot (remaining + 1) p.output
    p.state p'.state hstates
  unfold Environment.compose
  rw [perform_bind_ok (perform_runPass hp), perform_bind_ok (perform_runPass hp'), hlimit,
    applyLayouts_discards hpending hname' hread' remaining p.output]
  exact K.result_eq hrest

/-- What is shown around the block is dropped, also the text that a tag encloses. -/
theorem compose_discards_text_ignored :
    let tag name attributes children : Node := .tag ⟨name, none, attributes, children, false⟩
    let page (text : String) : List Node :=
      [.text text, tag "layout" [("name", .literal "default")] [],
        tag "block" [("region", .literal "main")] [.text "kept"], tag "seen" [] [.text text]]
    let layout : List Node :=
      [.text "[", tag "region" [("name", .literal "main")] [], .text "]"]
    let templates := [("layouts/default", some layout)]
    let env : Environment := { require := some fun _ => .ok (some (.bool true)) }
    let content : Content := .object (.mapping [("seen", .bool true)])
    let root : Scope := { frame := { value := content } }
    env.AppliesLayout 3 (page "ignored") root { templates } ∧
      (perform (env.compose 3 (page "ignored") root) { templates }).1 = .ok "[kept]" ∧
      (perform (env.compose 3 (page "ignored") root) { templates }).1 =
        (perform (env.compose 3 (page "dropped") root) { templates }).1 := by
  intro tag page layout templates env content root
  have happlies : env.AppliesLayout 3 (page "ignored") root { templates } :=
    ⟨by decide, _, _, layout, rfl, rfl, rfl⟩
  have hsame : SameButText (page "ignored") (page "dropped") := by
    have hseen : SameButText [tag "seen" [] [.text "ignored"]] [tag "seen" [] [.text "dropped"]] :=
      .tag (by decide) (.text _ _ (.refl [])) (.refl [])
    exact .text _ _ (.tag (by decide) (.refl []) (.block ⟨rfl, rfl⟩ hseen))
  have hrequire : ∀ load ∈ env.require, ∀ name v, load name = .ok (some v) →
      v.every HostValue.isCodeless := by
    rintro _ ⟨⟩ name _ ⟨⟩
    rfl
  refine ⟨happlies, by decide +kernel, ?_⟩
  exact (compose_discards_text env 3 {} templates rfl hrequire rfl hsame happlies).2

end TagTemplate
