import TagTemplate.Proofs.Compiling
import TagTemplate.Proofs.References
import TagTemplate.Proofs.Reordering.Page

/-!
# The order of attributes

In what order tags have their attributes does not matter to a template of plain content, unless the
value of an attribute keeps a block or asks for a layout, or shows a block that does. Compiling
follows the same references in the same order. Whichever of the two renderings succeeds, so does the
other one.
-/

namespace TagTemplate

open Markup (Node Tag AttributeValue tagsOf tagsOfAttributes)
open TagTemplate.Action
open Lockstep

section References

variable {shown : String → Prop} {settings settings' : Settings}

theorem reference?_of_plain {tag : Tag} (h : Plain tag) : settings.reference? tag = none := by
  unfold Settings.reference?
  split
  · next he hn => exact absurd hn (h he).1
  · next he hn => exact absurd hn (h he).2.1
  · rfl

theorem filterMap_reference?_of_quiet {tags : List Tag} (h : ∀ t ∈ tags, Quiet shown t) :
    tags.filterMap settings.reference? = [] :=
  List.filterMap_eq_nil_iff.2 fun t ht => reference?_of_plain (h t ht).plain

theorem reference?_reordered
    (hlayouts : settings.environment.layoutPrefix = settings'.environment.layoutPrefix)
    {tag tag' : Tag} (h : TagPermuted Reordered tag tag')
    (ho : Orderly shown tag) : settings.reference? tag = settings'.reference? tag' := by
  unfold Settings.reference?
  rw [h.name_eq, h.extension_eq, hlayouts, h.literal?_eq ho.names, h.literal?_eq ho.names]

mutual

theorem references_reordered
    (hlayouts : settings.environment.layoutPrefix = settings'.environment.layoutPrefix) :
    (ns : List Node) → {ns' : List Node} → Reordered ns ns' →
    Everywhere (Orderly shown) ns → settings.references ns = settings'.references ns'
  | [], _, .nil, _ => rfl
  | .text _ :: ns, _, .text _ h, ho => by
    simpa only [Settings.references, tagsOf, Node.tags, List.nil_append] using
      references_reordered hlayouts ns h ho.of_text
  | .tag t :: ns, _, .tag ht h, ho => by
    obtain ⟨htag, hinner, hrest⟩ := everywhere_tag.1 ho
    have hrefs := references_reordered hlayouts ns h hrest
    have hinnerRefs := innerReferences_reordered hlayouts t ht htag hinner
    unfold Settings.references at hrefs ⊢
    simp only [tagsOf, Node.tags, List.cons_append, List.filterMap_cons, List.filterMap_append,
      hrefs, hinnerRefs, reference?_reordered hlayouts ht htag]

theorem innerReferences_reordered
    (hlayouts : settings.environment.layoutPrefix = settings'.environment.layoutPrefix) :
    (t : Tag) → {t' : Tag} → TagPermuted Reordered t t' →
    Orderly shown t → (∀ u ∈ t.innerTags, Orderly shown u) →
      t.innerTags.filterMap settings.reference? = t'.innerTags.filterMap settings'.reference?
  | ⟨name, extension, as, cs, closing⟩, _, .mk ha hp hc, htag, ho => by
    have hchildren := references_reordered hlayouts cs hc (everywhere_children ho)
    have htag' := htag.reordered (.mk ha hp hc)
    unfold Settings.references at hchildren
    rw [innerTags_eq, innerTags_eq, List.filterMap_append, List.filterMap_append,
      filterMap_reference?_of_quiet htag.values, filterMap_reference?_of_quiet htag'.values]
    exact hchildren

end

end References

def Settings.visit (settings : Settings) (search : Settings.Search) (name : String) :
    Action Settings.Search :=
  if search.seen.contains name || settings.environment.read.isNone then return search
  else do
    match ← settings.environment.template name with
    | none => return { search with seen := name :: search.seen }
    | some nodes => return ⟨name :: search.seen, nodes :: search.pending⟩

theorem foldlM_follow_eq (settings : Settings) (nodes : List Node) (search : Settings.Search) :
    (tagsOf nodes).foldlM settings.follow search =
      (settings.references nodes).foldlM settings.visit search := by
  unfold Settings.references
  rw [List.foldlM_filterMap]
  congr 1
  funext search tag
  unfold Settings.follow Settings.visit
  cases settings.reference? tag <;> rfl

/-- The same names have been seen, and the templates still to be followed differ in the order of
attributes. -/
structure SearchReordered (shown : String → Prop) (search search' : Settings.Search) : Prop where
  seen : search.seen = search'.seen
  pending : List.Forall₂ (TreesReordered shown) search.pending search'.pending

section Compiling

variable {shown : String → Prop} {settings settings' : Settings}
  {own own' : OrderedMap (Option (List Node))}
  (henv : EnvironmentsReordered shown settings.environment settings'.environment)
  (hown : OwnReordered shown own own')

include henv hown

theorem relates_visit {search search' : Settings.Search} (h : SearchReordered shown search search')
    (name : String) :
    (reordering shown settings.environment settings'.environment own own').Relates
      (SearchReordered shown) (settings.visit search name) (settings'.visit search' name) := by
  have hread : settings.environment.read.isNone = settings'.environment.read.isNone := by
    rw [← Option.not_isSome, ← Option.not_isSome, henv.reading]
  unfold Settings.visit
  rw [← h.seen, ← hread]
  split
  · exact relates_pure h
  · refine Relates.bind (relates_template henv hown name) fun nodes nodes' hnodes => ?_
    cases hnodes with
    | none => exact relates_pure ⟨rfl, h.pending⟩
    | some hnodes => exact relates_pure ⟨rfl, .cons hnodes h.pending⟩

theorem relates_foldlM_visit (names : List String) {search search' : Settings.Search}
    (h : SearchReordered shown search search') :
    (reordering shown settings.environment settings'.environment own own').Relates
      (SearchReordered shown) (names.foldlM settings.visit search)
      (names.foldlM settings'.visit search') := by
  induction names generalizing search search' with
  | nil => exact relates_pure h
  | cons name names ih =>
    rw [List.foldlM_cons, List.foldlM_cons]
    exact Relates.bind (relates_visit henv hown h name) fun _ _ => ih

theorem agrees_followAll (budget : Nat) {search search' : Settings.Search}
    (h : SearchReordered shown search search') :
    (reordering shown settings.environment settings'.environment own own').Agrees
      (settings.followAll budget search) (settings'.followAll budget search') := by
  induction budget generalizing search search' with
  | zero =>
    obtain ⟨seen, pending⟩ := search
    obtain ⟨seen', pending'⟩ := search'
    obtain ⟨rfl, hpending⟩ := h
    cases hpending with
    | nil => exact agrees_pure _
    | cons => exact relates_of_excused trivial
  | succ budget ih =>
    obtain ⟨seen, pending⟩ := search
    obtain ⟨seen', pending'⟩ := search'
    obtain ⟨rfl, hpending⟩ := h
    cases hpending with
    | nil => exact agrees_pure _
    | @cons nodes nodes' pending pending' hnodes hpending =>
      have hrefs := references_reordered henv.layoutPrefix nodes hnodes.reordered hnodes.orderly
      unfold Settings.followAll
      rw [foldlM_follow_eq, foldlM_follow_eq, ← hrefs]
      refine Relates.bind (relates_foldlM_visit henv hown _ ⟨rfl, hpending⟩) fun _ _ => ih

end Compiling

/-- What the source of a template is compiled to. -/
def Settings.entry (settings : Settings) : Except Fault (List Node) :=
  match settings.text, settings.name with
  | some text, _ => (Markup.compile text settings.name).mapError Fault.compile
  | none, some name =>
    match settings.environment.found name with
    | .ok (some nodes) => .ok nodes
    | .ok none => .error (.resolution sourceKind name)
    | .error fault => .error fault
  | none, none => .error (.resolution sourceKind "")

theorem perform_settingsEntry (settings : Settings) (s : State) :
    ∃ host, perform (do
        let source ← settings.source
        Action.ofExcept ((Markup.compile source settings.name).mapError Fault.compile)) s =
      (settings.entry, { s with host }) := by
  unfold Settings.source Settings.entry
  cases settings.text with
  | some text => exact ⟨s.host, perform_ofExcept _ s⟩
  | none =>
    cases settings.name with
    | none => exact ⟨s.host, rfl⟩
    | some name =>
      unfold Environment.readSource Environment.found
      cases settings.environment.read with
      | none => exact ⟨s.host, rfl⟩
      | some read =>
        refine ⟨{ s.host with calls := s.host.calls ++ [.read name] }, ?_⟩
        dsimp only
        rcases read name with fault | _ | source
        · rfl
        · rfl
        · refine (perform_bind_ok rfl).trans ?_
          rw [perform_ofExcept]
          dsimp only
          cases Markup.compile source (some name) <;> rfl

theorem perform_compile_entry (settings : Settings) (budget : Nat) (s : State) :
    ∃ host, perform (settings.compile budget) s =
      match settings.entry with
      | .error e => (.error e, { s with host })
      | .ok nodes =>
        perform (do
          settings.followAll budget ⟨settings.name.toList, [nodes]⟩
          return nodes) { s with host } := by
  obtain ⟨host, hentry⟩ := perform_settingsEntry settings s
  refine ⟨host, ?_⟩
  have hcompile : settings.compile budget =
      (do
        let source ← settings.source
        Action.ofExcept ((Markup.compile source settings.name).mapError Fault.compile)) >>=
      fun nodes => do
        settings.followAll budget ⟨settings.name.toList, [nodes]⟩
        return nodes := by
    rw [bind_assoc]
    rfl
  rw [hcompile, perform_bind, hentry]
  cases settings.entry <;> rfl

theorem endAlike_of_ok {ε ε' α : Type} {r : Except ε α} {r' : Except ε' α}
    (h : ∀ x, r = .ok x → r' = .ok x) (h' : ∀ x, r' = .ok x → r = .ok x) : EndAlike Eq r r' := by
  cases r with
  | ok x =>
    rw [h x rfl]
    exact .ok rfl
  | error e =>
    cases r' with
    | ok x => cases h' x rfl
    | error e' => exact .error e e'

/-- Two templates whose trees differ in the order of attributes, in environments whose templates do:
both compiled, or neither. -/
structure TemplatesReordered (shown : String → Prop) (t t' : Template) : Prop where
  name : t.settings.name = t'.settings.name
  text : Option.Rel (fun text text' => EndAlike (TreesReordered shown)
    (Markup.compile text t.settings.name) (Markup.compile text' t.settings.name))
    t.settings.text t'.settings.text
  environment : EnvironmentsReordered shown t.settings.environment t'.settings.environment
  nodes : Option.Rel (TreesReordered shown) t.nodes t'.nodes

section Symmetry

variable {shown : String → Prop}

theorem EndAlike.symm {ε ε' α β : Type} {R : α → β → Prop} {S : β → α → Prop}
    (hRS : ∀ {x y}, R x y → S y x) {r : Except ε α} {r' : Except ε' β} (h : EndAlike R r r') :
    EndAlike S r' r := by
  cases h with
  | ok h => exact .ok (hRS h)
  | error e e' => exact .error e' e

theorem EndAlike.mapError {ε α β : Type} {R : α → β → Prop} {r : Except ε α} {r' : Except ε β}
    (h : EndAlike R r r') {ε' : Type} (f : ε → ε') : EndAlike R (r.mapError f) (r'.mapError f) := by
  cases h with
  | ok h => exact .ok h
  | error e e' => exact .error (f e) (f e')

theorem optionRel_symm {α β : Type} {R : α → β → Prop} {S : β → α → Prop}
    (hRS : ∀ {x y}, R x y → S y x) {m : Option α} {m' : Option β} (h : Option.Rel R m m') :
    Option.Rel S m' m := by
  cases h with
  | some h => exact .some (hRS h)
  | none => exact .none

theorem TreesReordered.symm {ns ns' : List Node} (h : TreesReordered shown ns ns') :
    TreesReordered shown ns' ns :=
  ⟨h.reordered.symm, h.orderly.reordered Orderly.reordered h.reordered⟩

theorem EnvironmentsReordered.symm {env env' : Environment}
    (h : EnvironmentsReordered shown env env') : EnvironmentsReordered shown env' env where
  filters := h.filters'
  filters' := h.filters
  maxDepth := h.maxDepth.symm
  layoutPrefix := h.layoutPrefix.symm
  reading := h.reading.symm
  templates name := (h.templates name).symm (optionRel_symm TreesReordered.symm)
  require := h.require.symm
  exports := h.require ▸ h.exports

theorem TemplatesReordered.symm {t t' : Template} (h : TemplatesReordered shown t t') :
    TemplatesReordered shown t' t where
  name := h.name.symm
  text := h.name ▸ optionRel_symm (EndAlike.symm TreesReordered.symm) h.text
  environment := h.environment.symm
  nodes := optionRel_symm TreesReordered.symm h.nodes

end Symmetry

section Templates

variable {shown : String → Prop} {t t' : Template}

theorem endAlike_entry (h : TemplatesReordered shown t t') :
    EndAlike (TreesReordered shown) t.settings.entry t'.settings.entry := by
  have htext := h.text
  unfold Settings.entry
  rw [← h.name]
  generalize t.settings.text = text at htext
  generalize t'.settings.text = text' at htext
  cases htext with
  | some htext => exact htext.mapError _
  | none =>
    cases t.settings.name with
    | none => exact .error _ _
    | some name =>
      have hfound := h.environment.templates name
      dsimp only
      generalize t.settings.environment.found name = found at hfound
      generalize t'.settings.environment.found name = found' at hfound
      cases hfound with
      | error e e' => exact .error e e'
      | ok hnodes =>
        cases hnodes with
        | none => exact .error _ _
        | some hnodes => exact .ok hnodes

theorem reorderedStates_start {env env' : Environment}
    {own own' : OrderedMap (Option (List Node))} (host host' : HostState) :
    ReorderedStates shown env env' own own' { State.start host with templates := own }
      { State.start host' with templates := own' } :=
  ⟨fun _ => .none, rfl, rfl, rfl, ⟨fun _ => rfl, nofun⟩, ⟨fun _ => rfl, nofun⟩⟩

theorem compiled_reordered (h : TemplatesReordered shown t t') (budget : Nat) (host : HostState)
    {ns : List Node} (hns : (t.compiled budget host).1 = .ok ns) :
    ∃ ns', (t'.compiled budget host).1 = .ok ns' ∧ TreesReordered shown ns ns' := by
  have hnodes := h.nodes
  have hentry := endAlike_entry h
  obtain ⟨host₁, hcompile⟩ := perform_compile_entry t.settings budget (State.start host)
  obtain ⟨host₂, hcompile'⟩ := perform_compile_entry t'.settings budget (State.start host)
  unfold Template.compiled at hns ⊢
  generalize t.nodes = nodes at hnodes hns
  generalize t'.nodes = nodes' at hnodes
  cases hnodes with
  | some hnodes =>
    cases hns
    exact ⟨_, rfl, hnodes⟩
  | none =>
    dsimp only at hns ⊢
    rw [hcompile] at hns
    rw [hcompile']
    generalize t.settings.entry = entry at hentry hns
    generalize t'.settings.entry = entry' at hentry
    cases hentry with
    | error e e' => cases hns
    | @ok nodes nodes' htrees =>
      have hown : OwnReordered shown [] [] := fun _ => .none
      have hsearch : SearchReordered shown ⟨t.settings.name.toList, [nodes]⟩
          ⟨t'.settings.name.toList, [nodes']⟩ :=
        ⟨congrArg Option.toList h.name, .cons htrees .nil⟩
      have hfollow := Relates.bind (agrees_followAll h.environment hown budget hsearch)
        fun _ _ _ => relates_pure htrees
      have ho := hfollow { State.start host with host := host₁ }
        { State.start host with host := host₂ } (reorderedStates_start host₁ host₂)
      dsimp only at hns ⊢
      generalize perform (do t.settings.followAll budget _; return nodes) _ = r at ho hns
      generalize perform (do t'.settings.followAll budget _; return nodes') _ = r' at ho
      cases ho with
      | ok hx _ =>
        cases hns
        exact ⟨_, rfl, hx⟩
      | error => cases hns
      | excused => cases hns

theorem result_renderNodes (hname : t.settings.name = t'.settings.name)
    (henv : EnvironmentsReordered shown t.settings.environment t'.settings.environment)
    {ns ns' : List Node} (hns : TreesReordered shown ns ns') (budget : Nat) {content : HostValue}
    (hc : content.every HostValue.isPlain) (host host' : HostState) {output : String}
    (h : (t.renderNodes budget ns content host).1 = .ok output) :
    (t'.renderNodes budget ns' content host').1 = .ok output := by
  have hown : OwnReordered shown (t.preloaded ns) (t'.preloaded ns') := by
    unfold OwnReordered Template.preloaded
    rw [← hname]
    intro other
    cases t.settings.name with
    | none => exact .none
    | some name => exact OrderedMap.rel_lookup_cons (.some hns) .none
  exact result_renderPage henv hown budget hns hc (reorderedStates_start host host') h

theorem result_render (h : TemplatesReordered shown t t') (budget : Nat) {content : HostValue}
    (hc : content.every HostValue.isPlain) (host : HostState) {output : String}
    (hr : (t.render budget content host).1 = .ok output) :
    (t'.render budget content host).1 = .ok output := by
  have hsettings := t.compiled_settings budget host
  have hsettings' := t'.compiled_settings budget host
  unfold Template.render at hr ⊢
  rcases hcompiled : t.compiled budget host with ⟨e | ns, u, host₁⟩
  · rw [hcompiled] at hr
    cases hr
  -- what compiling fetched is not kept: the renderings start from the trees alone
  · obtain ⟨ns', hns', htrees⟩ := compiled_reordered h budget host (congrArg Prod.fst hcompiled)
    rcases hcompiled' : t'.compiled budget host with ⟨e' | ns'', u', host₂⟩
    · cases (congrArg Prod.fst hcompiled').symm.trans hns'
    · cases (congrArg Prod.fst hcompiled').symm.trans hns'
      rw [hcompiled] at hsettings hr
      rw [hcompiled'] at hsettings'
      dsimp only at hsettings hsettings' hr ⊢
      refine result_renderNodes ?_ ?_ htrees budget hc host₁ host₂ hr
      · rw [hsettings, hsettings', h.name]
      · rw [hsettings, hsettings']
        exact h.environment

/-- In what order the attributes of tags come does not matter to plain content: both renderings
succeed with the same output, or both fail. -/
theorem render_reordered (h : TemplatesReordered shown t t') (budget : Nat) {content : HostValue}
    (hc : content.every HostValue.isPlain) (host : HostState) :
    EndAlike Eq (t.render budget content host).1 (t'.render budget content host).1 :=
  endAlike_of_ok (fun _ => result_render h budget hc host)
    fun _ => result_render h.symm budget hc host

theorem orderly_of_plain {tag : Tag} (h : tag.NamesOnce ∧
    (∀ t ∈ tagsOfAttributes tag.attributes, Plain t) ∧
      (IsBlock tag → Everywhere Plain tag.children)) : Orderly (fun _ => True) tag where
  names := h.1
  values t ht := ⟨h.2.1 t ht, fun _ _ _ _ => trivial⟩
  body hb _ _ _ t ht := ⟨h.2.2 hb t ht, fun _ _ _ _ => trivial⟩

/-- Two attributes that show one block, in either order. -/
theorem render_reordered_block :
    let region := Node.tag ⟨"region", none, [("name", .literal "r")], [], true⟩
    let a := ("wrap", AttributeValue.markup [region])
    let b := ("default", AttributeValue.markup [.tag ⟨"no_m", none, [], [region], false⟩])
    let page := fun (as : List (String × AttributeValue)) =>
      [Node.tag ⟨"block", none, [("region", .literal "r")], [.tag ⟨"n", none, [], [], true⟩],
          false⟩,
        .tag ⟨"n", none, as, [], true⟩, .tag ⟨"m", none, as, [], true⟩]
    let rendered := fun as =>
      let content := HostValue.object (.mapping [("n", .string "p")])
      (Template.render { settings := {}, nodes := some (page as) } 5 content {}).1
    rendered [a, b] = .ok "<p>p</p>p" ∧ EndAlike Eq (rendered [a, b]) (rendered [b, a]) := by
  intro region a b page rendered
  have htag : ∀ name, TagPermuted Reordered ⟨name, none, [a, b], [], true⟩
      ⟨name, none, [b, a], [], true⟩ :=
    fun name => .mk (attributesAgree_refl [a, b]) (.swap b a []) .nil
  have hpage : Reordered (page [a, b]) (page [b, a]) :=
    .tag (tagPermuted_refl _) (.tag (htag "n") (.tag (htag "m") .nil))
  have hplain : Everywhere (fun tag => tag.NamesOnce ∧
      (∀ t ∈ tagsOfAttributes tag.attributes, Plain t) ∧
        (IsBlock tag → Everywhere Plain tag.children)) (page [a, b]) := by
    decide
  have horderly : Everywhere (Orderly fun _ => True) (page [a, b]) :=
    fun tag ht => orderly_of_plain (hplain tag ht)
  have h : TemplatesReordered (fun _ => True) { settings := {}, nodes := some (page [a, b]) }
      { settings := {}, nodes := some (page [b, a]) } :=
    ⟨rfl, .none, ⟨rfl, rfl, rfl, rfl, rfl, fun _ => .ok .none, rfl, nofun⟩,
      .some ⟨hpage, horderly⟩⟩
  exact ⟨by decide +kernel, render_reordered h 5 (by decide +kernel) {}⟩

end Templates

/-- Two blocks that keep a block each, for the same region. They are shown by two attributes, and
the one that is shown first wins. -/
theorem render_order_matters :
    let region := fun name => Node.tag ⟨"region", none, [("name", .literal name)], [], true⟩
    let block := fun name body => Node.tag ⟨"block", none, [("region", .literal name)], body, false⟩
    let a := ("a", AttributeValue.markup [region "first"])
    let b := ("b", AttributeValue.markup [region "second"])
    let page := fun as =>
      [block "first" [block "r" [.text "1"]], block "second" [block "r" [.text "2"]],
        .tag ⟨"x", none, as, [], true⟩, region "r"]
    let rendered := fun nodes =>
      (Template.render { settings := {}, nodes := some nodes } 5 .null {}).1
    Reordered (page [a, b]) (page [b, a]) ∧
      Everywhere (fun tag => tag.NamesOnce ∧ ∀ t ∈ tagsOfAttributes tag.attributes, Plain t)
        (page [a, b]) ∧
      rendered (page [a, b]) = .ok "1" ∧ rendered (page [b, a]) = .ok "2" := by
  intro region block a b page rendered
  refine ⟨?_, by decide, by decide +kernel, by decide +kernel⟩
  have hx : TagPermuted Reordered ⟨"x", none, [a, b], [], true⟩ ⟨"x", none, [b, a], [], true⟩ :=
    .mk (attributesAgree_refl [a, b]) (.swap b a []) .nil
  exact .tag (tagPermuted_refl _) (.tag (tagPermuted_refl _) (.tag hx (.refl [region "r"])))

end TagTemplate
