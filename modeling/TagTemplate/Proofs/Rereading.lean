import TagTemplate.Proofs.Kinship.Render

/-!
# Content that is looked at again

What a page looks up is not changed by this, apart from streams, which can be read only once. So
nodes that only look content up show the same again right after themselves, unless they have read a
stream: then they show what they would if all streams that have been read were empty.
-/

namespace TagTemplate

open Markup (Node Tag)
open TagTemplate.Action
open Lockstep

mutual

/-- The value as it is found when these streams have been read. -/
def HostValue.drained (read : List Nat) : HostValue → HostValue
  | .list items => .list (drainedItems read items)
  | .stream id items => .stream id (if id ∈ read then [] else drainedItems read items)
  | .object o => .object (o.drained read)
  | v => v

def HostObject.drained (read : List Nat) : HostObject → HostObject
  | .mapping entries => .mapping (drainedEntries read entries)
  | o => o

def drainedItems (read : List Nat) : List HostValue → List HostValue
  | [] => []
  | v :: vs => v.drained read :: drainedItems read vs

def drainedEntries (read : List Nat) : List (String × HostValue) → List (String × HostValue)
  | [] => []
  | (name, v) :: entries => (name, v.drained read) :: drainedEntries read entries

end

def Content.drained (read : List Nat) : Content → Content
  | .array items => .array (drainedItems read items)
  | .object o => .object (o.drained read)
  | c => c

def Frame.drained (read : List Nat) (f : Frame) : Frame :=
  { f with
    value := f.value.drained read
    bindings := f.bindings.map fun p => (p.1, p.2.drained read) }

def Scope.drained (read : List Nat) (s : Scope) : Scope :=
  ⟨s.frame.drained read, s.outer.map (·.drained read)⟩

def HostValue.isUnread (read : List Nat) : HostValue → Bool
  | .stream id _ => id ∉ read
  | _ => true

variable {read : List Nat}

theorem drainedItems_eq_map (vs : List HostValue) :
    drainedItems read vs = vs.map (HostValue.drained read) := by
  induction vs with
  | nil => rfl
  | cons v vs ih => rw [drainedItems, ih, List.map_cons]

theorem lookup_drainedEntries (entries : List (String × HostValue)) (name : String) :
    (drainedEntries read entries).lookup name =
      (entries.lookup name).map (HostValue.drained read) := by
  have hmap : drainedEntries read entries = entries.map fun p => (p.1, p.2.drained read) := by
    induction entries with
    | nil => rfl
    | cons e entries ih => rw [drainedEntries, ih, List.map_cons]
  rw [hmap, OrderedMap.lookup_map]

mutual

theorem HostValue.drained_of_unread :
    (v : HostValue) → v.every (HostValue.isUnread read) → v.drained read = v
  | .list items, h => by
    rw [HostValue.every, Bool.and_eq_true] at h
    rw [HostValue.drained, drainedItems_of_unread items h.2]
  | .stream id items, h => by
    rw [HostValue.every, Bool.and_eq_true] at h
    have hid : id ∉ read := of_decide_eq_true h.1
    rw [HostValue.drained, drainedItems_of_unread items h.2, if_neg hid]
  | .object (.mapping entries), h => by
    rw [HostValue.every, Bool.and_eq_true] at h
    rw [HostValue.drained, HostObject.drained, drainedEntries_of_unread entries h.2]
  | .object (.record ..), _ => rfl
  | .object .unprintable, _ => rfl
  | .null, _ => rfl
  | .bool _, _ => rfl
  | .number _, _ => rfl
  | .string _, _ => rfl
  | .function _, _ => rfl
  | .content _, _ => rfl

theorem drainedItems_of_unread :
    (vs : List HostValue) → everyItem (HostValue.isUnread read) vs → drainedItems read vs = vs
  | [], _ => rfl
  | v :: vs, h => by
    rw [everyItem, Bool.and_eq_true] at h
    rw [drainedItems, HostValue.drained_of_unread v h.1, drainedItems_of_unread vs h.2]

theorem drainedEntries_of_unread : (es : List (String × HostValue)) →
    everyEntry (HostValue.isUnread read) es → drainedEntries read es = es
  | [], _ => rfl
  | (_, v) :: es, h => by
    rw [everyEntry, Bool.and_eq_true] at h
    rw [drainedEntries, HostValue.drained_of_unread v h.1, drainedEntries_of_unread es h.2]

end

theorem Content.drained_of_unread {c : Content} (h : c.every (HostValue.isUnread read)) :
    c.drained read = c := by
  cases c with
  | array items => rw [Content.drained, drainedItems_of_unread items h]
  | object o =>
    have ho := HostValue.drained_of_unread (.object o) h
    rw [HostValue.drained] at ho
    rw [Content.drained, HostValue.object.inj ho]
  | _ => rfl

/-- The frame has none of these streams. -/
structure Frame.IsUnread (read : List Nat) (f : Frame) : Prop where
  value : f.value.every (HostValue.isUnread read)
  bindings : ∀ p ∈ f.bindings, p.2.every (HostValue.isUnread read)

theorem Frame.drained_of_unread {f : Frame} (h : f.IsUnread read) : f.drained read = f := by
  have hbindings : (f.bindings.map fun p => (p.1, p.2.drained read)) = f.bindings := by
    refine (List.map_congr_left fun p hp => ?_).trans (List.map_id _)
    rw [Content.drained_of_unread (h.bindings p hp), id]
  unfold Frame.drained
  rw [Content.drained_of_unread h.value, hbindings]

theorem Scope.drained_of_unread {scope : Scope} (h : ∀ f ∈ scope.frames, f.IsUnread read) :
    scope.drained read = scope := by
  have hframes : (scope.drained read).frames = scope.frames :=
    (List.map_congr_left fun f hf => Frame.drained_of_unread (h f hf)).trans (List.map_id _)
  obtain ⟨hframe, houter⟩ := List.cons.inj hframes
  exact congrArg₂ Scope.mk hframe houter

def Material.passive : Material := {}

def Markup.Tag.OnlyLooks (tag : Tag) : Prop :=
  tag.extension = none ∧ tag.name ∉ ["include", "layout", "block", "region"]

instance : DecidablePred Markup.Tag.OnlyLooks := fun _ => inferInstanceAs (Decidable (_ ∧ _))

def Kinship.rereading (read : List Nat) : Kinship where
  value v v' := Material.passive.IsValue v ∧ v' = v.drained read
  content c c' := Material.passive.IsContent c ∧ c' = c.drained read
  nodes _ := SameTree Markup.Tag.OnlyLooks
  extension _ := False

def Lockstep.Opens (L : Lockstep) (read : List Nat) : Prop :=
  ∀ id, L.Relates (fun unread unread' => if id ∈ read then unread = false else unread = unread')
    (openStream id) (openStream id)

section Looking

variable {L : Lockstep} (hopens : L.Opens read)

include hopens

theorem relates_ofHost_drained {v : HostValue} (hv : Material.passive.IsValue v) :
    L.Relates (Kinship.rereading read).content (Content.ofHost v)
      (Content.ofHost (v.drained read)) := by
  have hcontent := Material.isContent_plainContent hv
  cases v with
  | stream id items =>
    refine Relates.bind (hopens id) fun unread unread' hunread => relates_pure ?_
    split at hunread
    · next hid =>
      subst hunread
      exact ⟨rfl, by simp [hid, Content.drained, drainedItems]⟩
    · next hid =>
      subst hunread
      cases unread with
      | false => exact ⟨rfl, rfl⟩
      | true => exact ⟨hcontent, by simp [hid, Content.drained]⟩
  | object o =>
    obtain ⟨entries, rfl⟩ := Material.exists_mapping hcontent
    exact relates_pure ⟨hcontent, rfl⟩
  | content c => cases HostValue.every_self hv
  | function f => cases HostValue.every_self hv
  | _ => exact relates_pure ⟨hcontent, rfl⟩

theorem relates_get_drained {c : Content} (hc : Material.passive.IsContent c) (name : String) :
    L.Relates (Kinship.rereading read).content (c.get name) ((c.drained read).get name) := by
  cases c with
  | object o =>
    obtain ⟨entries, rfl⟩ := Material.exists_mapping hc
    unfold Content.drained HostObject.drained Content.get HostObject.get
    dsimp only
    rw [lookup_drainedEntries]
    cases hv : entries.lookup name with
    | none => exact relates_pure ⟨rfl, rfl⟩
    | some v =>
      have hvalue := everyEntry_lookup (Material.everyEntry_of_mapping hc) hv
      exact relates_ofHost_drained hopens hvalue
  | _ => exact relates_pure ⟨rfl, rfl⟩

omit hopens in
theorem markup_drained (read : List Nat) {entries : List (String × HostValue)}
    (hc : Material.passive.IsContent (.object (.mapping entries))) (options : Options) :
    ∃ text, (HostObject.mapping entries).markup options = pure text ∧
      (HostObject.mapping (drainedEntries read entries)).markup options = pure text := by
  have hvalue := fun v (hv : entries.lookup "html" = some v) =>
    everyEntry_lookup (Material.everyEntry_of_mapping hc) hv
  unfold HostObject.markup HostObject.producer
  simp only [pure_bind, lookup_drainedEntries]
  cases hv : entries.lookup "html" with
  | none => exact ⟨_, rfl, rfl⟩
  | some v =>
    have hpart := HostValue.every_self (hvalue v hv)
    cases v with
    | function f => cases hpart
    | _ => exact ⟨_, rfl, rfl⟩

end Looking

mutual

theorem agrees_inline_drained {L : Lockstep} (hopens : L.Opens read) (hbad : L.allowed .badNumber)
    (options : Options) : (v : HostValue) → Material.passive.IsValue v →
      L.Agrees (v.inline options) ((v.drained read).inline options)
  | .null, _ => agrees_pure _
  | .bool _, _ => agrees_pure _
  | .string _, _ => agrees_pure _
  | .number n, _ => by
    change L.Agrees (showNumber n options) (showNumber n options)
    rw [showNumber_eq]
    split
    · exact agrees_pure _
    · exact relates_fail hbad
  | .list items, hv => by
    rw [HostValue.drained, HostValue.inline, HostValue.inline]
    exact (agrees_inlineItems_drained hopens hbad options items
      (Material.isContent_plainContent hv)).map
  | .stream id items, hv => by
    have hitems := agrees_inlineItems_drained hopens hbad options items
      (Material.isContent_plainContent hv)
    rw [HostValue.drained, HostValue.inline, HostValue.inline]
    refine Relates.bind (hopens id) fun unread unread' hunread => ?_
    split at hunread
    · next hid =>
      -- In the second run the stream may be unread, but it has no items.
      subst hunread
      cases unread' <;> simp [hid, inlineItems, agrees_pure]
    · next hid =>
      subst hunread
      cases unread with
      | false => exact agrees_pure _
      | true => simpa [hid] using hitems.map
  | .object (.mapping entries), hv => by
    obtain ⟨text, htext, htext'⟩ := markup_drained read (Material.isContent_plainContent hv) options
    obtain ⟨b, hb⟩ := HostObject.hasMarkup_eq_pure (o := .mapping entries) rfl
    obtain ⟨b', hb'⟩ :=
      HostObject.hasMarkup_eq_pure (o := .mapping (drainedEntries read entries)) rfl
    rw [HostValue.drained, HostObject.drained, HostValue.inline, HostValue.inline, hb, hb', htext,
      htext', pure_bind, pure_bind]
    exact agrees_pure text
  | .object (.record ..), hv => by cases HostValue.every_self hv
  | .object .unprintable, hv => by cases HostValue.every_self hv
  | .function _, hv => by cases HostValue.every_self hv
  | .content _, hv => by cases HostValue.every_self hv

theorem agrees_inlineItems_drained {L : Lockstep} (hopens : L.Opens read)
    (hbad : L.allowed .badNumber) (options : Options) :
    (vs : List HostValue) → everyItem Material.passive.part vs →
      L.Agrees (inlineItems vs options) (inlineItems (drainedItems read vs) options)
  | [], _ => agrees_pure _
  | v :: vs, h => by
    rw [everyItem, Bool.and_eq_true] at h
    rw [drainedItems, inlineItems, inlineItems]
    exact (agrees_inline_drained hopens hbad options v h.1).bind fun _ =>
      (agrees_inlineItems_drained hopens hbad options vs h.2).map

end

theorem Kinship.looks_rereading {L : Lockstep} (hopens : L.Opens read)
    (hbad : L.allowed .badNumber) : (Kinship.rereading read).Looks L where
  form := by
    rintro c _ ⟨hc, rfl⟩
    cases c with
    | callable f => cases hc
    | array items =>
      refine .array ?_
      rw [drainedItems_eq_map, List.forall₂_map_right_iff, List.forall₂_same]
      exact fun v hv => ⟨everyItem_iff.1 hc v hv, rfl⟩
    | missing => exact .missing
    | null => exact .null
    | bool b => exact .bool b
    | number n => exact .number n
    | string text => exact .string text
    | object o => exact .object o _
  missing := ⟨rfl, rfl⟩
  array := by
    intro items items' hitems
    induction hitems with
    | nil => exact ⟨rfl, rfl⟩
    | cons hv _ ih =>
      obtain ⟨hv, rfl⟩ := hv
      obtain ⟨hvs, heq⟩ := ih
      refine ⟨?_, ?_⟩
      · exact everyItem_iff.2 (List.forall_mem_cons.2 ⟨hv, everyItem_iff.1 hvs⟩)
      · rw [Content.drained, drainedItems, Content.array.inj heq]
  ofHost := by
    rintro v _ ⟨hv, rfl⟩
    exact relates_ofHost_drained hopens hv
  get := by
    rintro c _ ⟨hc, rfl⟩ name -
    exact relates_get_drained hopens hc name
  inline := by
    rintro c _ ⟨hc, rfl⟩ options
    cases c with
    | callable f => cases hc
    | array items => exact (agrees_inlineItems_drained hopens hbad options items hc).map
    | object o =>
      obtain ⟨entries, rfl⟩ := Material.exists_mapping hc
      obtain ⟨text, htext, htext'⟩ := markup_drained read hc options
      rw [Content.drained, HostObject.drained, Content.inline, Content.inline, htext, htext']
      exact agrees_pure text
    | number n => exact agrees_inline_drained hopens hbad options (.number n) hc
    | _ => exact agrees_pure _
  nodes := by
    rintro seen ns _ ⟨rfl, hns⟩
    refine items_of_everywhere (K := rereading read) (fun h => ⟨rfl, h⟩) (fun tag htag => ?_) hns
    refine ⟨trivial, fun extension hextension => ?_⟩
    rw [htag.1] at hextension
    cases hextension

theorem Scope.drained_rereads {scope : Scope} (h : Material.passive.IsScope scope) :
    (Kinship.rereading read).Scopes scope (scope.drained read) := by
  unfold Kinship.Scopes
  have hframes : (scope.drained read).frames = scope.frames.map (Frame.drained read) := rfl
  rw [hframes, List.forall₂_map_right_iff, List.forall₂_same]
  intro f hf
  refine ⟨⟨(h f hf).value, rfl⟩, fun name => ?_, rfl, rfl⟩
  unfold Frame.drained
  dsimp only
  rw [OrderedMap.lookup_map]
  have hbindings := (h f hf).bindings name
  cases hlookup : f.bindings.lookup name with
  | none => exact .none
  | some c => exact .some ⟨hbindings c hlookup, rfl⟩

/-- Tags that only look content up show the same again when some streams have been read as they show
of content in which these streams have no items. -/
theorem relates_render_drained {env : Environment} {L : Lockstep} (hopens : L.Opens read)
    (hallowed : ∀ fault, L.allowed fault) (hfilters : env.filters = []) (budget : Nat) :
    ∀ {seen ns ns'}, (Kinship.rereading read).nodes seen ns ns' → ∀ {scope scope'},
      (Kinship.rereading read).Scopes scope scope' →
      L.Relates (Shown seen) (env.render budget ns scope) (env.render budget ns' scope') := by
  have hlooks := Kinship.looks_rereading hopens (hallowed _)
  induction budget with
  | zero => exact fun _ _ _ _ => relates_fail (hallowed _)
  | succ budget ih =>
    rintro seen ns _ ⟨rfl, hns⟩ scope scope' hs
    have hr : (Kinship.rereading read).Renders L env env (env.render budget) (env.render budget) :=
      ⟨hlooks, hfilters, hfilters, fun _ => False.elim, ih⟩
    have hitems : List.Forall₂ ((Kinship.rereading read).Items seen) ns ns :=
      hlooks.nodes ⟨rfl, hns⟩
    refine hr.renderNodes hitems (fun tag htag => ?_) budget hs
    have hlooked : tag.name ∉ ["include", "layout", "block", "region"] :=
      (hns.of_mem htag).2
    simp only [List.mem_cons, List.not_mem_nil, or_false, not_or] at hlooked
    obtain ⟨hinclude, hlayout, hblock, hregion⟩ := hlooked
    exact ⟨(absurd · hinclude), (absurd · hlayout), (absurd · hblock), (absurd · hregion)⟩

theorem Action.perform_openStream (id : Nat) (s : State) :
    perform (openStream id) s =
      (.ok (decide (id ∉ s.host.consumed)),
        { s with host := { s.host with consumed := id :: s.host.consumed } }) := by
  simp [openStream, updateHost, perform_bind, perform_map, Except.map]

def Lockstep.spent (read : List Nat) : Lockstep where
  states s t := ∀ id, id ∈ s.host.consumed ↔ id ∈ t.host.consumed ∨ id ∈ read

theorem Lockstep.opens_spent (read : List Nat) : (spent read).Opens read := by
  intro id s t hs
  rw [perform_openStream, perform_openStream]
  refine .ok ?_ fun other => ?_
  · split
    · next hid => simp [(hs id).2 (.inr hid)]
    · next hid => simp [hs id, hid]
  · simp [hs other, or_assoc]

def Lockstep.reading (s₀ : State) : Lockstep where
  states s t := s = t ∧ ∀ id ∈ s₀.host.consumed, id ∈ s.host.consumed

theorem Lockstep.opens_reading (s₀ : State) : (reading s₀).Opens [] := by
  rintro id s _ ⟨rfl, hs⟩
  rw [perform_openStream]
  exact .ok (by simp) ⟨rfl, fun other hother => List.mem_cons_of_mem id (hs other hother)⟩

section Twice

variable {env : Environment} (hfilters : env.filters = []) {nodes : List Node}
  (hnodes : Everywhere Markup.Tag.OnlyLooks nodes) {scope : Scope}
  (hscope : Material.passive.IsScope scope) {budget : Nat} {text : String} {s t : State}

include hfilters hnodes hscope

theorem render_spent (hstates : (spent read).states t s) :
    (perform (env.render budget nodes scope) t).1 =
      (perform (env.render budget nodes (scope.drained read)) s).1 := by
  have hsame : (Kinship.rereading read).nodes True nodes nodes := ⟨rfl, hnodes⟩
  have h := relates_render_drained (opens_spent read) (fun _ => trivial) hfilters budget hsame
    (Scope.drained_rereads hscope) t s hstates
  generalize perform (env.render budget nodes scope) t = r at h ⊢
  generalize perform (env.render budget nodes (scope.drained read)) s = r' at h ⊢
  cases h with
  | ok htext _ => exact congrArg Except.ok (htext trivial)
  | error => rfl
  | excused h => exact h.elim

theorem consumed_of_render (hfirst : perform (env.render budget nodes scope) s = (.ok text, t)) :
    ∀ id ∈ s.host.consumed, id ∈ t.host.consumed := by
  have hsame : (Kinship.rereading []).nodes True nodes nodes := ⟨rfl, hnodes⟩
  have hself := relates_render_drained (opens_reading s) (fun _ => trivial) hfilters budget hsame
    (Scope.drained_rereads hscope) s s ⟨rfl, fun _ => id⟩
  rw [hfirst] at hself
  generalize perform (env.render budget nodes (scope.drained [])) s = r at hself
  cases hself with
  | ok _ hs => exact hs.2

/-- Nodes that only look content up show the same again right after themselves, unless they have
read a stream. If they have, they show what they would of content in which all streams that have
been read by then have no items. -/
theorem render_twice (hfirst : perform (env.render budget nodes scope) s = (.ok text, t)) :
    (perform (env.render budget (nodes ++ nodes) scope) s).1 =
      (perform (env.render budget nodes (scope.drained t.host.consumed)) s).1.map (text ++ ·) ∧
    ((∀ f ∈ scope.frames, f.IsUnread t.host.consumed) →
      (perform (env.render budget (nodes ++ nodes) scope) s).1 = .ok (text ++ text)) := by
  have hstates : (spent t.host.consumed).states t s := by
    have hconsumed := consumed_of_render hfilters hnodes hscope hfirst
    exact fun id => ⟨.inr, fun h => h.elim (hconsumed id) fun h => h⟩
  have hagain : (perform (env.render budget (nodes ++ nodes) scope) s).1 =
      (perform (env.render budget nodes (scope.drained t.host.consumed)) s).1.map (text ++ ·) := by
    rw [env.render_append, perform_bind_ok hfirst, bind_pure_comp, perform_map,
      render_spent hfilters hnodes hscope hstates]
  refine ⟨hagain, fun hunread => ?_⟩
  rw [hagain, Scope.drained_of_unread hunread, hfirst]
  rfl

end Twice

/-- What shows a stream and what stands for its absence: both are shown of a stream, and only the
latter when it is shown again. What does not look the stream up is shown twice. -/
theorem render_twice_stream :
    let xs := HostValue.stream 0 [.string "a", .string "b"]
    let o := HostValue.object (.mapping [("y", .string "c")])
    let scope : Scope := ⟨{ value := .object (.mapping [("xs", xs), ("o", o)]) }, []⟩
    let reading : List Node := [.tag ⟨"xs", none, [], [.tag ⟨"value", none, [], [], true⟩], false⟩,
      .tag ⟨"no_xs", none, [], [.text "none"], false⟩]
    let other : List Node := [.tag ⟨"o", none, [], [.tag ⟨"y", none, [], [], true⟩], false⟩]
    let run (nodes : List Node) (scope : Scope) : Except Fault String × State :=
      perform (Environment.render {} 3 nodes scope) {}
    Everywhere Markup.Tag.OnlyLooks reading ∧ Everywhere Markup.Tag.OnlyLooks other ∧
      Material.passive.IsScope scope ∧
      run reading scope = (.ok "abnone", { host.consumed := [0, 0] }) ∧
      run other scope = (.ok "c", {}) ∧ (∀ f ∈ scope.frames, f.IsUnread []) ∧
      (run (reading ++ reading) scope).1 =
        (run reading (scope.drained [0, 0])).1.map ("abnone" ++ ·) ∧
      (run (other ++ other) scope).1 = .ok "cc" := by
  intro xs o scope reading other run
  have hreading : Everywhere Markup.Tag.OnlyLooks reading := by decide +kernel
  have hother : Everywhere Markup.Tag.OnlyLooks other := by decide +kernel
  have hscope : Material.passive.IsScope scope := by
    intro f hf
    cases List.mem_singleton.1 hf
    exact ⟨rfl, nofun⟩
  have hfirst : run reading scope = (.ok "abnone", { host.consumed := [0, 0] }) := by rfl
  have hfirst' : run other scope = (.ok "c", {}) := by rfl
  have hunread : ∀ f ∈ scope.frames, f.IsUnread [] := by
    intro f hf
    cases List.mem_singleton.1 hf
    exact ⟨rfl, nofun⟩
  exact ⟨hreading, hother, hscope, hfirst, hfirst', hunread,
    (render_twice rfl hreading hscope hfirst).1, (render_twice rfl hother hscope hfirst').2 hunread⟩

/-- A stream that is shown twice has its items only once. -/
theorem renderPage_stream_twice :
    let content := HostValue.object (.mapping [("xs", .stream 0 [.string "a"])])
    let nodes : List Node := [.tag ⟨"xs", none, [], [], true⟩]
    let page (nodes : List Node) : Except Fault String :=
      (perform (Environment.renderPage {} 2 nodes content) {}).1
    page nodes = .ok "a" ∧ page (nodes ++ nodes) = .ok "a" ∧ page (nodes ++ nodes) ≠ .ok "aa" := by
  intro content nodes page
  have honce : page nodes = .ok "a" := by decide +kernel
  have htwice : page (nodes ++ nodes) = .ok "a" := by decide +kernel
  refine ⟨honce, htwice, ?_⟩
  rw [htwice]
  decide

end TagTemplate
