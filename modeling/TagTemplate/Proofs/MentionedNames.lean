import TagTemplate.Proofs.Compiling
import TagTemplate.Proofs.Data
import TagTemplate.Proofs.FreshCopies
import TagTemplate.Proofs.Kinship.Page

/-!
# Names that templates mention

What a page shows depends on its content only as far as the content says something under the names
that the templates mention: the names of their tags, and `html`, which brings the markup of a
mapping. Whatever mappings hold under other names is never found.
-/

namespace TagTemplate

open Markup (Node Tag tagsOf tagsOfAttributes)
open TagTemplate.Action
open Lockstep

/-- Two values of data that are equal but for what mappings inside them hold under other names. -/
inductive HostValue.Alike (names : String → Prop) : HostValue → HostValue → Prop where
  | null : Alike names .null .null
  | bool (b) : Alike names (.bool b) (.bool b)
  | number (n) : Alike names (.number n) (.number n)
  | string (s) : Alike names (.string s) (.string s)
  | list {items items'} : List.Forall₂ (Alike names) items items' →
      Alike names (.list items) (.list items')
  | mapping {entries entries' : OrderedMap HostValue} :
      (∀ name, names name → Option.Rel (Alike names) (entries.lookup name) (entries'.lookup name)) →
      Alike names (.object (.mapping entries)) (.object (.mapping entries'))

/-- Contents of such values, or both of nothing. -/
def Content.Alike (names : String → Prop) (c c' : Content) : Prop :=
  c = .missing ∧ c' = .missing ∨
    ∃ v v' : HostValue, v.Alike names v' ∧ c = v.plainContent ∧ c' = v'.plainContent

def Environment.Readable (env : Environment) (entry nodes : List Node) : Prop :=
  nodes = entry ∨ ∃ name, env.found name = .ok (some nodes)

/-- The names of all tags in templates, without a `no_` before something else, and `html`. -/
def Environment.MentionsName (env : Environment) (entry : List Node) (name : String) : Prop :=
  name = "html" ∨ ∃ nodes, env.Readable entry nodes ∧
    ∃ tag ∈ tagsOf nodes, (negated? tag.name).getD tag.name = name

def Environment.MentionsExtension (env : Environment) (entry : List Node) (name : String) : Prop :=
  ∃ nodes, env.Readable entry nodes ∧ ∃ tag ∈ tagsOf nodes, tag.extension = some name

section Alike

variable {names : String → Prop}

theorem HostValue.Alike.isPlain {v v' : HostValue} (h : v.Alike names v') :
    v.isPlain ∧ v'.isPlain := by
  cases h <;> exact ⟨rfl, rfl⟩

theorem ofHost_alike {v v' : HostValue} (h : v.Alike names v') {L : Lockstep} :
    L.Relates (Content.Alike names) (Content.ofHost v) (Content.ofHost v') := by
  rw [Content.ofHost_eq_pure h.isPlain.1, Content.ofHost_eq_pure h.isPlain.2]
  exact relates_pure (Or.inr ⟨v, v', h, rfl, rfl⟩)

mutual

theorem HostValue.Alike.copied (v : HostValue) {w v' w' : HostValue} (h : v.Alike names w)
    (hv : Copied v v') (hw : Copied w w') : v'.Alike names w' := by
  match v, h, hv, hw with
  | _, .null, .leaf _, .leaf _ => exact .null
  | _, .bool b, .leaf _, .leaf _ => exact .bool b
  | _, .number n, .leaf _, .leaf _ => exact .number n
  | _, .string s, .leaf _, .leaf _ => exact .string s
  | .list items, .list hi, .list hv, .list hw => exact .list (itemsAlike_copied items hi hv hw)
  | .object (.mapping entries), .mapping he, .mapping hv, .mapping hw =>
    exact .mapping fun name hn => foundAlike_copied entries (he name hn) (hv name) (hw name)

theorem itemsAlike_copied (vs : List HostValue) {ws vs' ws' : List HostValue}
    (h : List.Forall₂ (HostValue.Alike names) vs ws) (hv : List.Forall₂ Copied vs vs')
    (hw : List.Forall₂ Copied ws ws') : List.Forall₂ (HostValue.Alike names) vs' ws' := by
  match vs, h, hv, hw with
  | [], .nil, .nil, .nil => exact .nil
  | v :: vs, .cons h hs, .cons hv hvs, .cons hw hws =>
    exact .cons (HostValue.Alike.copied v h hv hw) (itemsAlike_copied vs hs hvs hws)

theorem foundAlike_copied (es : List (String × HostValue)) {name : String}
    {n m' n' : Option HostValue} (h : Option.Rel (HostValue.Alike names) (es.lookup name) n)
    (hv : Option.Rel Copied (es.lookup name) m') (hw : Option.Rel Copied n n') :
    Option.Rel (HostValue.Alike names) m' n' := by
  match es with
  | [] =>
    cases h
    cases hv
    cases hw
    exact .none
  | (key, v) :: es =>
    by_cases hk : name = key
    · subst hk
      rw [List.lookup_cons_self] at h hv
      obtain ⟨h⟩ := h
      obtain ⟨hv⟩ := hv
      obtain ⟨hw⟩ := hw
      exact .some (HostValue.Alike.copied v h hv hw)
    · rw [List.lookup_cons, beq_eq_false_iff_ne.2 hk] at h hv
      exact foundAlike_copied es h hv hw

end

theorem markup_alike (hhtml : names "html") {entries entries' : OrderedMap HostValue}
    (h : ∀ name, names name →
      Option.Rel (HostValue.Alike names) (entries.lookup name) (entries'.lookup name))
    (options : Options) :
    ∃ text, (HostObject.mapping entries).markup options = pure text ∧
      (HostObject.mapping entries').markup options = pure text := by
  have hfound := h "html" hhtml
  unfold HostObject.markup HostObject.producer
  simp only [pure_bind]
  generalize entries.lookup "html" = m at hfound
  generalize entries'.lookup "html" = m' at hfound
  cases hfound with
  | none => exact ⟨_, rfl, rfl⟩
  | some hv => cases hv <;> exact ⟨_, rfl, rfl⟩

mutual

theorem inline_alike {L : Lockstep} (hbad : L.allowed .badNumber) (hhtml : names "html")
    (options : Options) (v : HostValue) {v' : HostValue} (h : v.Alike names v') :
    L.Agrees (v.inline options) (v'.inline options) := by
  match v, h with
  | _, .null =>
    rw [HostValue.inline]
    exact agrees_pure _
  | _, .bool b =>
    rw [HostValue.inline]
    exact agrees_pure _
  | _, .string s =>
    rw [HostValue.inline]
    exact agrees_pure _
  | _, .number n =>
    rw [HostValue.inline]
    rw [showNumber_eq]
    split
    · exact agrees_pure _
    · exact relates_fail hbad
  | .list items, .list hi =>
    rw [HostValue.inline, HostValue.inline]
    exact (inlineItems_alike hbad hhtml options items hi).map
  | .object (.mapping entries), @HostValue.Alike.mapping _ _ entries' he =>
    obtain ⟨text, ht, ht'⟩ := markup_alike hhtml he options
    obtain ⟨b, hb⟩ := HostObject.hasMarkup_eq_pure (o := .mapping entries) rfl
    obtain ⟨b', hb'⟩ := HostObject.hasMarkup_eq_pure (o := .mapping entries') rfl
    rw [HostValue.inline, HostValue.inline, hb, hb', ht, ht', pure_bind, pure_bind]
    exact agrees_pure text

theorem inlineItems_alike {L : Lockstep} (hbad : L.allowed .badNumber) (hhtml : names "html")
    (options : Options) (vs : List HostValue) {vs' : List HostValue}
    (h : List.Forall₂ (HostValue.Alike names) vs vs') :
    L.Agrees (inlineItems vs options) (inlineItems vs' options) := by
  match vs, h with
  | [], .nil => exact agrees_pure _
  | v :: vs, .cons hv hvs =>
    rw [inlineItems, inlineItems]
    exact (inline_alike hbad hhtml options v hv).bind fun _ =>
      (inlineItems_alike hbad hhtml options vs hvs).map

end

end Alike

def Kinship.mentioning (names extensions : String → Prop) : Kinship where
  value := HostValue.Alike names
  content := Content.Alike names
  nodes _ ns ns' := ns = ns' ∧ Everywhere (fun tag =>
    names ((Environment.negated? tag.name).getD tag.name) ∧
      ∀ extension ∈ tag.extension, extensions extension) ns
  name := names
  extension := extensions

theorem Kinship.sound_mentioning {names extensions : String → Prop} (hhtml : names "html") :
    (Kinship.mentioning names extensions).Sound where
  form := by
    rintro _ _ (⟨rfl, rfl⟩ | ⟨v, v', hv, rfl, rfl⟩)
    · exact .missing
    · cases hv with
      | null => exact .null
      | bool b => exact .bool b
      | number n => exact .number n
      | string s => exact .string s
      | list hi => exact .array hi
      | mapping => exact .object _ _
  missing := Or.inl ⟨rfl, rfl⟩
  array hi := Or.inr ⟨_, _, .list hi, rfl, rfl⟩
  isNull h := by cases h <;> simp
  refresh := by
    intro v v' hv s t hs
    obtain ⟨w, host, hrefresh, hw⟩ := HostValue.perform_refresh s v
    obtain ⟨w', host', hrefresh', hw'⟩ := HostValue.perform_refresh t v'
    rw [hrefresh, hrefresh']
    exact .ok (HostValue.Alike.copied v hv hw hw') { hs with host := trivial }
  ofHost hv := ofHost_alike hv
  get := by
    rintro _ _ (⟨rfl, rfl⟩ | ⟨v, v', hv, rfl, rfl⟩) name hn
    · exact relates_pure (Or.inl ⟨rfl, rfl⟩)
    · cases hv with
      | @mapping entries entries' he =>
        have hfound := he name hn
        unfold HostValue.plainContent Content.get HostObject.get
        dsimp only
        generalize entries.lookup name = m at hfound
        generalize entries'.lookup name = m' at hfound
        cases hfound with
        | none => exact relates_pure (Or.inl ⟨rfl, rfl⟩)
        | some hv => exact ofHost_alike hv
      | _ => exact relates_pure (Or.inl ⟨rfl, rfl⟩)
  inline := by
    rintro _ _ (⟨rfl, rfl⟩ | ⟨v, v', hv, rfl, rfl⟩) options
    · exact agrees_pure ""
    · have hinline : ∀ v : HostValue, v.isPlain →
          v.plainContent.inline options = v.inline options := by
        intro v hp
        rw [HostValue.inline_eq, Content.ofHost_eq_pure hp, pure_bind]
      rw [hinline v hv.isPlain.1, hinline v' hv.isPlain.2]
      exact inline_alike trivial hhtml options v hv
  nodes := by
    rintro seen ns _ ⟨rfl, hns⟩
    exact items_of_everywhere (K := mentioning names extensions) (fun h => ⟨rfl, h⟩)
      (fun _ h => h) hns
  host _ _ _ := trivial

/-- The template with another way to load extensions. -/
def Template.withRequire (t : Template)
    (require : Option (String → Except Fault (Option HostValue))) : Template :=
  t.mapEnvironment fun env => { env with require }

theorem compiled_withRequire (t : Template)
    (require : Option (String → Except Fault (Option HostValue))) (budget : Nat)
    (host : HostState) :
    (t.withRequire require).compiled budget host =
      ((t.compiled budget host).1, (t.compiled budget host).2.1.withRequire require,
        (t.compiled budget host).2.2) :=
  Template.compiled_mapEnvironment (f := fun env => { env with require }) (fun _ => rfl)
    (fun _ => rfl) budget t host

/-- A page is the same for contents and extensions that are alike under the names that its templates
mention. Extensions that are not mentioned may be any. -/
theorem render_mentioned_names (t : Template) (budget : Nat) (host : HostState)
    (filters : t.settings.environment.filters = [])
    {require : Option (String → Except Fault (Option HostValue))} {content content' : HostValue}
    (hcontent : ∀ entry, (t.compiled budget host).1 = .ok entry →
      content.Alike (t.settings.environment.MentionsName entry) content')
    (hrequire : ∀ entry, (t.compiled budget host).1 = .ok entry →
      Option.Rel
        (fun load load' => ∀ name, t.settings.environment.MentionsExtension entry name →
          Loads (HostValue.Alike (t.settings.environment.MentionsName entry)) (load name)
            (load' name))
        t.settings.environment.require require) :
    (t.render budget content host).1 =
      ((t.withRequire require).render budget content' host).1 := by
  have hsettings := t.compiled_settings budget host
  unfold Template.render
  rw [compiled_withRequire]
  generalize t.compiled budget host = c at hcontent hrequire hsettings
  obtain ⟨e | entry, compiled, host'⟩ := c
  · rfl
  · replace hcontent := hcontent entry rfl
    replace hrequire := hrequire entry rfl
    dsimp only at hsettings ⊢
    rw [← hsettings] at filters hcontent hrequire
    let env := compiled.settings.environment
    let K := Kinship.mentioning (env.MentionsName entry) (env.MentionsExtension entry)
    have hmentioned : ∀ nodes, env.Readable entry nodes → K.nodes True nodes nodes := by
      refine fun nodes hreadable => ⟨rfl, fun tag htag => ⟨?_, ?_⟩⟩
      · exact Or.inr ⟨nodes, hreadable, tag, htag, rfl⟩
      · exact fun extension he => ⟨nodes, hreadable, tag, htag, he⟩
    have henv : K.Environments env { env with require } :=
      { filters := filters
        filters' := filters
        maxDepth := rfl
        layoutPrefix := rfl
        read := rfl
        templates := fun name nodes hn => hmentioned nodes (Or.inr ⟨name, hn⟩)
        require := hrequire }
    have hpage : K.value (Environment.pageContent content) (Environment.pageContent content') := by
      cases hcontent with
      | null => exact .mapping fun _ _ => .none
      | bool b => exact .bool b
      | number n => exact .number n
      | string s => exact .string s
      | list hi => exact .list hi
      | mapping he => exact .mapping he
    have hentry := hmentioned entry (Or.inl rfl)
    have hstart : K.States { State.start host' with templates := compiled.preloaded entry }
        { State.start host' with templates := compiled.preloaded entry } := by
      refine Kinship.states_start trivial fun name nodes hn => ?_
      obtain rfl := Template.eq_of_lookup_preloaded hn
      exact hentry
    have hsound : K.Sound := Kinship.sound_mentioning (Or.inl rfl)
    exact K.result_eq (Kinship.agrees_renderPage hsound henv budget hentry hpage _ _ hstart)

/-- Neither the age of the user nor the other entry of the content is mentioned, and of the extension
only the title. -/
theorem render_mentioned_names_user :
    let tag name extension children : Node := .tag ⟨name, extension, [], children, false⟩
    let entry := [tag "user" none [tag "name" none [], tag "no_banned" none [.text "!"]],
      tag "title" (some "site") []]
    let mapping fields : HostValue := .object (.mapping fields)
    let site fields : String → Except Fault (Option HostValue) :=
      fun name => .ok (if name = "site" then some (mapping fields) else none)
    let t : Template :=
      ⟨{ environment := { require := some (site [("title", .string "T")]) } }, some entry⟩
    let content := mapping [("user", mapping [("name", .string "Ann"), ("age", .bool true)])]
    let content' := mapping [("token", .null), ("user", mapping [("name", .string "Ann")])]
    (t.render 3 content {}).1 = .ok "Ann!T" ∧
      (t.render 3 content {}).1 =
        ((t.withRequire (some (site [("draft", .null), ("title", .string "T")]))).render 3 content'
          {}).1 := by
  intro tag entry mapping site t content content'
  have hnames : ∀ name, t.settings.environment.MentionsName entry name →
      name = "html" ∨ name = "user" ∨ name = "name" ∨ name = "banned" ∨ name = "title" := by
    rintro name (rfl | ⟨nodes, rfl | ⟨other, ho⟩, tag, htag, rfl⟩)
    · exact Or.inl rfl
    · have hall : ∀ tag ∈ tagsOf entry, (Environment.negated? tag.name).getD tag.name ∈
          ["user", "name", "banned", "title"] := by
        decide
      simpa using Or.inr (hall tag htag)
    · cases ho
  have hentry : ∀ nodes, (t.compiled 3 {}).1 = .ok nodes → nodes = entry := by
    rintro _ ⟨⟩
    rfl
  refine ⟨by decide +kernel, render_mentioned_names t 3 {} rfl ?_ ?_⟩
  · intro nodes hnodes
    rw [hentry nodes hnodes]
    refine .mapping fun name hn => ?_
    obtain rfl | rfl | rfl | rfl | rfl := hnames name hn
    case inr.inl =>
      refine .some (.mapping fun name hn => ?_)
      obtain rfl | rfl | rfl | rfl | rfl := hnames name hn
      case inr.inr.inl => exact .some (.string "Ann")
      all_goals exact .none
    all_goals exact .none
  · intro nodes hnodes
    rw [hentry nodes hnodes]
    refine .some fun name _ => ?_
    by_cases hsite : name = "site"
    · subst hsite
      refine .some (.mapping fun name hn => ?_)
      obtain rfl | rfl | rfl | rfl | rfl := hnames name hn
      case inr.inr.inr.inr => exact .some (.string "T")
      all_goals exact .none
    · have hnothing : ∀ fields, site fields name = .ok none := fun fields => by simp [site, hsite]
      rw [hnothing, hnothing]
      exact .none

end TagTemplate
