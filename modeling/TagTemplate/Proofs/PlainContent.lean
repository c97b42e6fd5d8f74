import TagTemplate.Proofs.LastValues
import TagTemplate.Proofs.Promise.Content
import TagTemplate.Render.Tag

/-!
# Plain content

In a scope of plain values every name means the same in every state, and finding out does nothing.
How plain content is shown depends on the attributes of the tag, but not on their order: there is no
function that could be given all of them.
-/

namespace TagTemplate

open TagTemplate.Action

def Content.IsPlain (c : Content) : Prop := c.every HostValue.isPlain

structure Frame.IsPlain (f : Frame) : Prop where
  value : f.value.IsPlain
  bindings : ∀ name c, f.bindings.lookup name = some c → c.IsPlain

def Scope.IsPlain (s : Scope) : Prop := ∀ f ∈ s.frames, f.IsPlain

theorem Scope.IsPlain.push {s : Scope} (h : s.IsPlain) {f : Frame} (hf : f.IsPlain) :
    (s.push f).IsPlain := by
  intro g hg
  rcases List.mem_cons.1 hg with rfl | hg
  · exact hf
  · exact h g hg

theorem Scope.IsPlain.enter {s : Scope} (h : s.IsPlain) {c : Content} (hc : c.IsPlain) :
    (s.enter c).IsPlain := h.push ⟨hc, nofun⟩

theorem HostValue.isPlain_plainContent {v : HostValue} (h : v.every isPlain) :
    v.plainContent.IsPlain := by
  have hv := every_self h
  cases v with
  | list items =>
    rw [every, Bool.and_eq_true] at h
    exact h.2
  | object o => exact h
  | stream => cases hv
  | function => cases hv
  | content => cases hv
  | _ => rfl

theorem Content.IsPlain.raw {c : Content} (h : c.IsPlain) : c.raw.every HostValue.isPlain := by
  cases c with
  | array items =>
    rw [Content.raw, HostValue.every, Bool.and_eq_true]
    exact ⟨rfl, h⟩
  | object o => exact h
  | callable f => cases h
  | _ => rfl

theorem ofHost_plain {v : HostValue} (h : v.every HostValue.isPlain) :
    ∃ c : Content, c.IsPlain ∧ Content.ofHost v = pure c :=
  ⟨_, v.isPlain_plainContent h, Content.ofHost_eq_pure (HostValue.every_self h)⟩

theorem HostObject.get_eq_pure {o : HostObject} (h : (HostValue.object o).every HostValue.isPlain)
    (name : String) : ∃ c : Content, c.IsPlain ∧ o.get name = pure c := by
  have hmapping : ∀ entries, everyEntry HostValue.isPlain entries →
      ∃ c : Content, c.IsPlain ∧ (mapping entries).get name = pure c := by
    intro entries he
    unfold get
    dsimp only
    cases hv : entries.lookup name with
    | none => exact ⟨.missing, rfl, rfl⟩
    | some v => exact ofHost_plain (everyEntry_lookup he hv)
  rw [HostValue.every, Bool.and_eq_true] at h
  obtain ⟨hself, hinside⟩ := h
  cases o with
  | mapping entries => exact hmapping entries hinside
  | unprintable => exact ⟨.missing, rfl, rfl⟩
  | record fields computed =>
    obtain rfl : computed = [] := List.isEmpty_iff.1 hself
    by_cases hprivate : name.startsWith "_"
    · exact ⟨.missing, rfl, if_pos hprivate⟩
    · rw [get_plain ?_ hprivate]
      · exact hmapping fields hinside
      · intro f hf
        cases HostValue.every_self (everyEntry_lookup hinside hf)

theorem Content.get_eq_pure {c : Content} (h : c.IsPlain) (name : String) :
    ∃ c' : Content, c'.IsPlain ∧ c.get name = pure c' := by
  cases c with
  | object o => exact HostObject.get_eq_pure h name
  | _ => exact ⟨.missing, rfl, rfl⟩

theorem Frame.own_eq_pure {f : Frame} (h : f.IsPlain) (name : String) :
    ∃ c : Content, c.IsPlain ∧ f.own name = pure c := by
  unfold own
  cases hb : f.bindings.lookup name with
  | some c => exact ⟨c, h.bindings name c hb, rfl⟩
  | none => exact Content.get_eq_pure h.value name

theorem Scope.lookup_eq_pure {s : Scope} (h : s.IsPlain) (name : String) :
    ∃ c : Content, c.IsPlain ∧ s.lookup name = pure c := by
  have hframes : ∀ fs : List Frame, (∀ f ∈ fs, f.IsPlain) →
      ∃ c : Content, c.IsPlain ∧ lookupIn name fs = pure c := by
    intro fs
    induction fs with
    | nil => exact fun _ => ⟨.missing, rfl, rfl⟩
    | cons f fs ih =>
      intro hfs
      obtain ⟨c, hc, hown⟩ := Frame.own_eq_pure (hfs f List.mem_cons_self) name
      unfold lookupIn
      rw [hown, pure_bind]
      split
      · exact ih fun g hg => hfs g (List.mem_cons_of_mem f hg)
      · exact ⟨c, hc, rfl⟩
  exact hframes s.frames h

namespace Options

/-- The options give every name the same value. -/
def Alike (o o' : Options) : Prop := ∀ name, List.lookup name o = List.lookup name o'

variable {o o' : Options}

theorem alike_of_perm (h : List.Perm o o') (hnames : (o.map Prod.fst).Nodup) : Alike o o' := by
  intro name
  have hnames' := (h.map Prod.fst).nodup_iff.1 hnames
  ext value
  rw [OrderedMap.lookup_eq_some_iff hnames, OrderedMap.lookup_eq_some_iff hnames', h.mem_iff]

def AlikeOn (names : List String) (o o' : Options) : Prop :=
  ∀ name ∈ names, List.lookup name o = List.lookup name o'

theorem Alike.on (h : Alike o o') {names : List String} : AlikeOn names o o' := fun name _ => h name

theorem AlikeOn.mono {names names' : List String} (h : AlikeOn names o o') (hsub : names' ⊆ names) :
    AlikeOn names' o o' := fun name hmem => h name (hsub hmem)

/-- What an inline value asks the attributes for. -/
def inlineNames : List String := ["escape", "break", "last"]

theorem AlikeOn.showText (h : AlikeOn inlineNames o o') (text : String) :
    TagTemplate.showText text o = TagTemplate.showText text o' := by
  unfold TagTemplate.showText
  rw [h "escape" (by decide)]

theorem AlikeOn.showNumber (h : AlikeOn inlineNames o o') (n : Number) :
    TagTemplate.showNumber n o = TagTemplate.showNumber n o' := by
  rw [showNumber_eq, showNumber_eq, h.showText]

theorem AlikeOn.join (h : AlikeOn inlineNames o o') (parts : List String) :
    Html.join parts o = Html.join parts o' := by
  unfold Html.join
  rw [h "break" (by decide), h "last" (by decide)]

theorem Alike.wrapped (h : Alike o o') (text : String) :
    Environment.wrapped text o = Environment.wrapped text o' := by
  unfold Environment.wrapped
  rw [h, h]

theorem Alike.orDefault (h : Alike o o') (text : String) :
    TagTemplate.orDefault text o = TagTemplate.orDefault text o' := by
  unfold TagTemplate.orDefault
  rw [h]

theorem numberOption_congr {name : String} (h : List.lookup name o = List.lookup name o') :
    Environment.numberOption o name = Environment.numberOption o' name := by
  unfold Environment.numberOption
  rw [h]

end Options

theorem isPlain_getD_lookup {entries : List (String × HostValue)}
    (h : everyEntry HostValue.isPlain entries) (name : String) :
    ((entries.lookup name).getD .null).isPlain := by
  cases hv : entries.lookup name with
  | none => rfl
  | some v => exact HostValue.every_self (everyEntry_lookup h hv)

theorem HostObject.producer_eq_pure {o : HostObject}
    (h : (HostValue.object o).every HostValue.isPlain) :
    ∃ p : HostValue, p.isPlain ∧ o.producer = pure p := by
  rw [HostValue.every, Bool.and_eq_true] at h
  obtain ⟨hself, hinside⟩ := h
  cases o with
  | mapping entries => exact ⟨_, isPlain_getD_lookup hinside "html", rfl⟩
  | unprintable => exact ⟨.null, rfl, rfl⟩
  | record fields computed =>
    obtain rfl : computed = [] := List.isEmpty_iff.1 hself
    unfold producer hasMarkup
    simp only [attributeOrNone_plain, attribute?_plain, pure_bind]
    split
    · exact ⟨_, isPlain_getD_lookup hinside "__html__", rfl⟩
    · exact ⟨_, isPlain_getD_lookup hinside "html", rfl⟩

theorem HostObject.markup_eq_pure {o : HostObject}
    (h : (HostValue.object o).every HostValue.isPlain) :
    ∃ text, ∀ options, o.markup options = pure text := by
  obtain ⟨p, hp, heq⟩ := producer_eq_pure h
  unfold markup
  simp only [heq, pure_bind]
  cases p with
  | function => cases hp
  | null => exact ⟨"", fun _ => rfl⟩
  | string s => exact ⟨s, fun _ => rfl⟩
  | _ => exact ⟨"", fun _ => rfl⟩

mutual

theorem HostValue.inline_of_alike {o o' : Options} (ho : Options.AlikeOn Options.inlineNames o o') :
    (v : HostValue) → v.every HostValue.isPlain →
      ∃ r, v.inline o = ofExcept r ∧ v.inline o' = ofExcept r
  | .null, _ => ⟨.ok "", rfl, rfl⟩
  | .bool b, _ => ⟨.ok (if b then "true" else "false"), rfl, rfl⟩
  | .number n, _ => by
    rw [HostValue.inline, HostValue.inline, ← ho.showNumber]
    rw [showNumber_eq]
    split
    · exact ⟨.ok (showText n.text o), rfl, rfl⟩
    · exact ⟨.error .badNumber, rfl, rfl⟩
  | .string s, _ => ⟨.ok (showText s o), rfl, by rw [ho.showText]; rfl⟩
  | .list items, h => by
    rw [HostValue.every, Bool.and_eq_true] at h
    obtain ⟨r, hr, hr'⟩ := inlineItems_of_alike ho items h.2
    rw [HostValue.inline, HostValue.inline, hr, hr']
    cases r with
    | error e => exact ⟨.error e, rfl, rfl⟩
    | ok parts => exact ⟨.ok (Html.join parts o), rfl, by rw [ho.join]; rfl⟩
  | .object object, h => by
    obtain ⟨b, hb⟩ := HostObject.hasMarkup_eq_pure (HostValue.every_self h)
    obtain ⟨text, htext⟩ := HostObject.markup_eq_pure h
    simp only [HostValue.inline, hb, pure_bind, htext]
    exact ⟨.ok text, rfl, rfl⟩
  | .stream .., h => by cases HostValue.every_self h
  | .function _, h => by cases HostValue.every_self h
  | .content _, h => by cases HostValue.every_self h

theorem inlineItems_of_alike {o o' : Options} (ho : Options.AlikeOn Options.inlineNames o o') :
    (vs : List HostValue) → everyItem HostValue.isPlain vs →
      ∃ r, inlineItems vs o = ofExcept r ∧ inlineItems vs o' = ofExcept r
  | [], _ => ⟨.ok [], rfl, rfl⟩
  | v :: vs, h => by
    rw [everyItem, Bool.and_eq_true] at h
    obtain ⟨r, hr, hr'⟩ := HostValue.inline_of_alike ho v h.1
    obtain ⟨rs, hrs, hrs'⟩ := inlineItems_of_alike ho vs h.2
    unfold inlineItems
    rw [hr, hr', hrs, hrs']
    cases r with
    | error e => exact ⟨.error e, rfl, rfl⟩
    | ok text =>
      cases rs with
      | error e => exact ⟨.error e, rfl, rfl⟩
      | ok texts => exact ⟨.ok (text :: texts), rfl, rfl⟩

end

theorem Content.inline_of_alike {o o' : Options} (ho : Options.AlikeOn Options.inlineNames o o')
    {c : Content} (h : c.IsPlain) :
    ∃ r, c.inline o = ofExcept r ∧ c.inline o' = ofExcept r := by
  have hraw := h.raw
  have hinline : ∀ options, c.inline options = c.raw.inline options := by
    intro options
    rw [HostValue.inline_eq, ofHost_eq_pure (HostValue.every_self hraw), pure_bind]
    cases c <;> rfl
  rw [hinline, hinline]
  exact HostValue.inline_of_alike ho c.raw hraw

theorem Occurrence.itemContent_plain {v : HostValue} (h : v.every HostValue.isPlain) :
    ∃ c : Content, c.IsPlain ∧
      ∀ (o : Occurrence) (render : Renderer), o.itemContent render v = pure c := by
  obtain ⟨c, hc, hlook⟩ := ofHost_plain h
  refine ⟨c, hc, fun o render => ?_⟩
  unfold itemContent
  rw [hlook, pure_bind]
  cases c with
  | callable f => cases hc
  | _ => rfl

namespace Environment

theorem decodeExport_isPlain {name : String} {loaded : Except Fault (Option HostValue)}
    {s t : State} {c : Content} (h : perform (decodeExport name loaded) s = (.ok (some c), t))
    (hloaded : ∀ v, loaded = .ok (some v) → v.every HostValue.isPlain) : c.IsPlain := by
  rcases loaded with e | _ | v
  · cases h
  · cases h
  · by_cases hv : v = .null
    · subst hv
      cases h
    · have hself := HostValue.every_self (hloaded v rfl)
      rw [decodeExport_plain name (fun _ _ => rfl) (hloaded v rfl) hself hv] at h
      cases h
      exact v.isPlain_plainContent (hloaded v rfl)

variable {env : Environment}
  (hexports : ∀ require ∈ env.require, ∀ name v, require name = .ok (some v) →
    v.every HostValue.isPlain)

include hexports

theorem fetchExtension_isPlain {name : String} {s t : State} {c : Content}
    (h : perform (env.fetchExtension name) s = (.ok (some c), t)) : c.IsPlain := by
  rw [env.fetchExtension_eq] at h
  cases hr : env.require with
  | none =>
    rw [hr] at h
    exact decodeExport_isPlain h nofun
  | some require =>
    rw [hr] at h
    exact decodeExport_isPlain h (hexports require hr name)

theorem exported_isPlain {name : String} {s t : State} {c : Content}
    (hkept : ∀ c, s.extensions.lookup name = some (some c) → c.IsPlain)
    (h : perform (env.exported name) s = (.ok (some c), t)) : c.IsPlain := by
  rw [env.perform_exported] at h
  cases hlookup : s.extensions.lookup name with
  | some m =>
    rw [hlookup] at h
    cases h
    exact hkept c hlookup
  | none =>
    rw [hlookup] at h
    rcases hfetch : perform (env.fetchExtension name) s with ⟨_ | m, t'⟩
    · rw [hfetch] at h
      cases h
    · rw [hfetch] at h
      cases h
      exact fetchExtension_isPlain hexports hfetch

end Environment

end TagTemplate
