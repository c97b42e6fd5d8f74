import TagTemplate.Proofs.Escaping
import TagTemplate.Proofs.Promise.Page

/-!
# Content cannot bring markup

Where no template says so itself, a page holds no markup: whatever strings are in its content and in
extensions, they come out escaped on every way that they can take.
-/

namespace TagTemplate

open Markup (Node Tag AttributeValue tagsOf)

def ownTexts (nodes : List Node) : List String :=
  nodes.filterMap fun
    | .text value => some value
    | .tag _ => none

def innerTexts (tag : Tag) : List String :=
  ownTexts tag.children ++ tag.attributes.flatMap fun
    | (_, .literal value) => [value]
    | (_, .markup nodes) => ownTexts nodes

def literalsOf (nodes : List Node) : List String :=
  ownTexts nodes ++ (tagsOf nodes).flatMap innerTexts

def markupAttributes : List String := ["wrap", "break", "escape"]

/-- The template neither holds markup nor makes any. -/
structure Unmarked (nodes : List Node) : Prop where
  literals : ∀ text ∈ literalsOf nodes, Html.IsPlain text.toList
  attributes : ∀ tag ∈ tagsOf nodes, ∀ p ∈ tag.attributes, p.1 ∉ markupAttributes

instance (nodes : List Node) : Decidable (Unmarked nodes) :=
  decidable_of_iff
    ((∀ text ∈ literalsOf nodes, Html.IsPlain text.toList) ∧
      ∀ tag ∈ tagsOf nodes, ∀ p ∈ tag.attributes, p.1 ∉ markupAttributes)
    ⟨fun h => ⟨h.1, h.2⟩, fun h => ⟨h.literals, h.attributes⟩⟩

namespace Unmarked

variable {nodes : List Node} (h : Unmarked nodes)

include h

theorem text {value : String} (hv : .text value ∈ nodes) : Html.IsClean value.toList := by
  refine (h.literals value (List.mem_append_left _ ?_)).isClean
  exact List.mem_filterMap.2 ⟨_, hv, rfl⟩

theorem literal {tag : Tag} (ht : tag ∈ tagsOf nodes) {key value : String}
    (hp : (key, .literal value) ∈ tag.attributes) : Html.IsClean value.toList := by
  refine (h.literals value (List.mem_append_right _ ?_)).isClean
  refine List.mem_flatMap.2 ⟨tag, ht, List.mem_append_right _ ?_⟩
  exact List.mem_flatMap.2 ⟨_, hp, List.mem_singleton_self value⟩

theorem inside {tag : Tag} (ht : .tag tag ∈ nodes) {inner : List Node} (hi : Inside tag inner) :
    Unmarked inner := by
  have hsub := (hi.sublist ht).subset
  have htexts : ∀ text ∈ ownTexts inner, text ∈ innerTexts tag := by
    intro text htext
    rcases hi with rfl | ⟨key, hkey⟩
    · exact List.mem_append_left _ htext
    · exact List.mem_append_right _ (List.mem_flatMap.2 ⟨_, hkey, htext⟩)
  refine ⟨fun text htext => h.literals text (List.mem_append_right _ ?_), ?_⟩
  · rcases List.mem_append.1 htext with htext | htext
    · exact List.mem_flatMap.2 ⟨tag, hsub List.mem_cons_self, htexts text htext⟩
    · obtain ⟨other, ho, htext⟩ := List.mem_flatMap.1 htext
      exact List.mem_flatMap.2 ⟨other, hsub (List.mem_cons_of_mem _ ho), htext⟩
  · exact fun other ho => h.attributes other (hsub (List.mem_cons_of_mem _ ho))

end Unmarked

def unmarked : Material where
  key name := name != "html"
  text s := Html.IsClean s.toList
  carried name := name ∉ markupAttributes

theorem unmarked_lookup {options : Options} (ho : unmarked.IsOptions options) {name : String}
    (hn : name ∈ markupAttributes) : options.lookup name = none :=
  Material.lookup_eq_none ho fun hcarried => hcarried hn

theorem unmarked_append {a b : String} (ha : unmarked.text a) (hb : unmarked.text b) :
    unmarked.text (a ++ b) := by
  change Html.IsClean _
  rw [String.toList_append]
  exact ha.append hb

theorem unmarked_sound : unmarked.Sound where
  empty := .nil
  append := unmarked_append
  bool b := by
    apply Html.IsPlain.isClean
    cases b <;> decide
  shown ho text := by
    have hescape := unmarked_lookup ho (by decide : "escape" ∈ markupAttributes)
    unfold showText Html.escape
    rw [hescape, if_neg nofun]
    change Html.IsClean _
    rw [String.toList_ofList]
    exact Html.isClean_escapeChars text.toList
  markup h := nomatch h
  join ho parts hparts := by
    have hbreak := unmarked_lookup ho (by decide : "break" ∈ markupAttributes)
    unfold Html.join
    rw [hbreak]
    exact text_join .nil unmarked_append fun part hp => hparts part (List.mem_filter.1 hp).1
  wrapped ho text ht := by
    have hwrap := unmarked_lookup ho (by decide : "wrap" ∈ markupAttributes)
    unfold Environment.wrapped
    rw [hwrap]
    exact ht

section Rendering

variable {env : Environment}

abbrev cleanPage : Promise := unmarked.page Unmarked Unmarked (fun _ => True) fun _ => True

theorem unmarked_render (h : env.Supplies unmarked Unmarked fun _ => True) (budget : Nat)
    {nodes : List Node} (hn : Unmarked nodes) {scope : Scope} (hs : unmarked.IsScope scope) :
    cleanPage.Keeps unmarked.text (env.render budget nodes scope) := by
  induction budget generalizing nodes scope with
  | zero => exact Promise.keeps_fail fun _ _ => trivial
  | succ budget ih =>
    have hshows : cleanPage.Shows unmarked env Unmarked (env.render budget) := h.shows ih
    refine hshows.renderNodes (fun text ht => hn.text ht) (fun tag ht => ?_) hs
    have hmem := (sublist_tagsOf ht).subset List.mem_cons_self
    refine ⟨.of_inside (hn.attributes tag hmem) (fun key text hp => hn.literal hmem hp)
      fun inner hi => hn.inside ht hi, ?_⟩
    have hchildren : Unmarked tag.children := hn.inside ht (Or.inl rfl)
    refine h.handles hshows hchildren ?_ (fun _ _ => hchildren) fun _ _ _ hb _ hs => ih hb hs
    intro _ _ name inner hi options ho scope hs
    have hbody : cleanPage.Keeps unmarked.text
        (do env.finish (← env.render budget inner scope) options) :=
      Promise.Keeps.bind (ih hi hs) fun text ht => hshows.finish ht ho
    refine Promise.keeps_oneDeeper cleanPage (fun _ _ _ => trivial) ?_ ?_ fun _ _ _ => trivial
    · rintro s ⟨-, hk⟩ _
      exact hbody _ ⟨trivial, hk.extensions, hk.blocks, hk.templates⟩
    · rintro t ⟨-, hk⟩
      exact ⟨trivial, hk.extensions, hk.blocks, hk.templates⟩

end Rendering

/-- Where no template has a character with a meaning in markup, or an attribute that makes markup,
and no mapping brings markup of its own, whatever is rendered is clean. -/
theorem render_clean (t : Template) (hfilters : t.settings.environment.filters = [])
    (hread : ∀ name nodes, t.settings.environment.found name = .ok (some nodes) → Unmarked nodes)
    (hrequire : ∀ require ∈ t.settings.environment.require, ∀ name v,
      require name = .ok (some v) → v.isBuilt (fun _ => true) (· != "html"))
    {content : HostValue} (hcontent : content.isBuilt (fun _ => true) (· != "html"))
    (budget : Nat) (host : HostState)
    (hentry : ∀ nodes, (t.compiled budget host).1 = .ok nodes → Unmarked nodes) {output : String}
    (h : (t.render budget content host).1 = .ok output) : Html.IsClean output.toList := by
  have hsupplies : t.settings.environment.Supplies unmarked Unmarked fun _ => True :=
    ⟨unmarked_sound, fun _ _ _ => trivial, hfilters, hread, fun _ _ _ => trivial, hrequire,
      fun _ _ _ _ _ => trivial⟩
  have hpage : ∀ nodes, Unmarked nodes → cleanPage.Keeps unmarked.text
      (t.settings.environment.renderPage budget nodes content) := by
    intro nodes hn
    exact hsupplies.keeps_renderPage (fun hn _ hs => unmarked_render hsupplies budget hn hs) trivial
      (fun _ => trivial) (fun _ _ => trivial) hn hcontent
  rcases t.render_page hpage trivial hentry with ⟨shown, hok, hclean⟩ | ⟨e, he, -⟩ | ⟨e, -, he⟩
  · rw [hok] at h
    cases h
    exact hclean
  · rw [he] at h
    cases h
  · rw [he] at h
    cases h

/-- A link in the content, as a default and in an extension, and brackets among items that an
included template repeats. -/
theorem render_clean_link :
    let link := HostValue.string "<a href=\"/?x&y\">"
    let items := HostValue.list [.string "<", .null, .string ">"]
    let read := fun name => if name = "b" then some "<pop:l>(<pop:value/>)</pop:l>" else none
    let environment : Environment :=
      { read := some fun name => .ok (read name)
        require := some fun _ => .ok (some (.object (.mapping [("a", link)]))) }
    let entry : List Node :=
      [.tag ⟨"include", none, [("template", .literal "b")], [], true⟩,
        .tag ⟨"c", none, [("default", .markup [.tag ⟨"a", some "e", [], [], true⟩])], [], true⟩]
    let t : Template := { settings := { environment }, nodes := some entry }
    let content := HostValue.object (.mapping [("l", items)])
    (t.render 3 content {}).1 = .ok "(&lt;)()(&gt;)&lt;a href=&quot;/?x&amp;y&quot;&gt;" ∧
      Html.IsClean "(&lt;)()(&gt;)&lt;a href=&quot;/?x&amp;y&quot;&gt;".toList := by
  intro link items read environment entry t content
  have hrender : (t.render 3 content {}).1 =
      .ok "(&lt;)()(&gt;)&lt;a href=&quot;/?x&amp;y&quot;&gt;" := by decide +kernel
  have hb : ((environment.found "b").toOption.getD none).all
      (fun nodes => decide (Unmarked nodes)) = true := by decide +kernel
  have hread : ∀ name nodes, environment.found name = .ok (some nodes) → Unmarked nodes := by
    intro name nodes hfound
    by_cases hname : name = "b"
    · subst hname
      rw [hfound] at hb
      exact of_decide_eq_true hb
    · have hnone : environment.found name = .ok none := by
        simp [environment, read, Environment.found, hname]
      rw [hnone] at hfound
      cases hfound
  refine ⟨hrender, render_clean t rfl hread ?_ (by decide +kernel) 3 {} ?_ hrender⟩
  · rintro _ ⟨⟩ name v ⟨⟩
    decide +kernel
  · rintro nodes ⟨⟩
    decide +kernel

end TagTemplate
