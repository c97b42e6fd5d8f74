import Mathlib.Data.Set.Finite.Lattice
import TagTemplate.Proofs.Filling
import TagTemplate.Proofs.Promise.Page
import TagTemplate.Proofs.References

/-!
# Rendering comes to an end

Includes may be cyclic, blocks may hold includes, and included templates may hold regions. As long as
no block holds a region, a page without functions still comes to an end: every include takes one from
the depth that is left, a region goes on with a tree without regions, and all else goes on with a
smaller tree. So some budget for nesting is enough, and nothing but a limit that is reached, a
template that does not compile, or a number with too many digits keeps the page from being shown.
-/

namespace TagTemplate

open Markup (Node Tag tagsOf)
open TagTemplate.Action
open Promise (Keeps keeps_oneDeeper)

def IsBlock (tag : Tag) : Prop := tag.extension = none ∧ tag.name = "block"

instance : DecidablePred IsBlock := fun _ => inferInstanceAs (Decidable (_ ∧ _))

/-- No block of the template holds a region. -/
def NoRegionInBlocks (nodes : List Node) : Prop :=
  Everywhere (fun tag => IsBlock tag → Everywhere (fun inner => ¬ IsRegion inner) tag.children) nodes

instance : DecidablePred NoRegionInBlocks := fun _ => inferInstanceAs (Decidable (Everywhere _ _))

/-- The ends of a page that is made of data: an output, a template that does not compile, or too many
layouts or includes. -/
inductive Ends (env : Environment) : Except Fault String → Prop where
  | output (text) : Ends env (.ok text)
  | compile (e) : Ends env (.error (.compile e))
  | layouts : Ends env (.error (.nesting env.maxDepth "layout"))
  | includes (name) : Ends env (.error (.nesting env.maxDepth ("include template=\"" ++ name ++ "\"")))

def EndingFault (env : Environment) (number : Number → Bool) (e : Fault) : Prop :=
  Ends env (.error e) ∨ e = .badNumber ∧ ∃ n, number n ∧ ¬ n.isShowable

/-- Fewer tags than a number, and no region where there may be none. -/
structure Fits (tags : Nat) (regions : Bool) (nodes : List Node) : Prop where
  size : (tagsOf nodes).length < tags
  blocks : NoRegionInBlocks nodes
  regions : regions = false → Everywhere (fun tag => ¬ IsRegion tag) nodes

/-- How often a tree may still be left for a whole other one: so often for every include that is
left, and once more where there may be regions. -/
def turns (left : Nat) (regions : Bool) : Nat := 2 * left + regions.toNat

theorem add_mul_turn_le (most : Nat) {k l : Nat} (h : k < l) : most + most * k ≤ most * l :=
  calc most + most * k = most * (k + 1) := by rw [Nat.mul_succ, Nat.add_comm]
    _ ≤ most * l := Nat.mul_le_mul_left most h

theorem turns_include {left : Nat} (h : 0 < left) (regions : Bool) :
    turns (left - 1) true < turns left regions := by
  unfold turns
  rw [Bool.toNat_true]
  omega

theorem turns_region (left : Nat) : turns left false < turns left true := by
  unfold turns
  rw [Bool.toNat_true, Bool.toNat_false]
  omega

namespace Fits

variable {tags : Nat} {regions : Bool} {nodes : List Node} {tag : Tag}

theorem inside (h : Fits tags regions nodes) (ht : .tag tag ∈ nodes) {inner : List Node}
    (hi : Inside tag inner) : Fits (tags - 1) regions inner := by
  have hsub := hi.sublist ht
  have hlength := hsub.length_le
  have hsize := h.size
  rw [List.length_cons] at hlength
  have hmem : ∀ other ∈ tagsOf inner, other ∈ tagsOf nodes :=
    fun other ho => hsub.subset (List.mem_cons_of_mem _ ho)
  refine ⟨by omega, fun other ho => h.blocks other (hmem other ho), fun hr other ho => ?_⟩
  exact h.regions hr other (hmem other ho)

theorem mono (h : Fits tags regions nodes) {tags' : Nat} (hle : tags ≤ tags') :
    Fits tags' regions nodes :=
  ⟨h.size.trans_le hle, h.blocks, h.regions⟩

theorem block (h : Fits tags regions nodes) (ht : .tag tag ∈ nodes) (hb : IsBlock tag) :
    Fits tags false tag.children := by
  have hc := h.inside ht (Or.inl rfl)
  have hmem := (sublist_tagsOf ht).subset List.mem_cons_self
  exact ⟨hc.size.trans_le (Nat.sub_le tags 1), hc.blocks, fun _ => h.blocks tag hmem hb⟩

theorem region (h : Fits tags regions nodes) (ht : .tag tag ∈ nodes) (hr : IsRegion tag) :
    regions = true := by
  have hmem := (sublist_tagsOf ht).subset List.mem_cons_self
  cases regions with
  | true => rfl
  | false => exact absurd hr (h.regions rfl tag hmem)

end Fits

section Trees

variable {env : Environment} {number : Number → Bool} {most : Nat}

def withNumbers (number : Number → Bool) : Material where
  number := number

abbrev endingAt (env : Environment) (number : Number → Bool) (most depth : Nat) : Promise :=
  (withNumbers number).page (Fits most false) (Fits most true) (· = depth) (EndingFault env number)

theorem ending_render
    (h : env.Supplies (withNumbers number) (Fits most true) (EndingFault env number))
    (budget : Nat) : ∀ {tags regions depth nodes scope}, tags ≤ most → depth ≤ env.maxDepth →
      tags + most * turns (env.maxDepth - depth) regions ≤ budget → Fits tags regions nodes →
      (withNumbers number).IsScope scope →
      (endingAt env number most depth).Keeps (withNumbers number).text
        (env.render budget nodes scope) := by
  induction budget with
  | zero =>
    intro tags regions depth nodes scope _ _ hbudget hfits _
    have := hfits.size
    omega
  | succ budget ih =>
    intro tags regions depth nodes scope hmost hdepth hbudget hfits hs
    have hpos : 0 < tags := Nat.zero_lt_of_lt hfits.size
    have hshows : (endingAt env number most depth).Shows (withNumbers number) env
        (Fits (tags - 1) regions) (env.render budget) :=
      h.shows fun hn _ hs => ih (by omega) hdepth (by omega) hn hs
    refine hshows.renderNodes (fun _ _ => trivial) (fun tag ht => ⟨?_, ?_⟩) hs
    · exact .of_inside (fun _ _ => trivial) (fun _ _ _ => trivial) fun _ hi => hfits.inside ht hi
    · refine h.handles hshows (hfits.inside ht (Or.inl rfl)) ?_ ?_ ?_
      · intro _ _ name body hb options ho scope hs
        refine keeps_oneDeeper (endingAt env number most (depth + 1)) ?_ ?_ ?_ fun _ _ he => he
        · exact fun _ _ _ => Or.inl (.includes name)
        · rintro s ⟨rfl, hk⟩ hlt
          have hturn := add_mul_turn_le most
            (turns_include (by omega : 0 < env.maxDepth - s.depth) regions)
          rw [Nat.sub_sub] at hturn
          have hdeep : (endingAt env number most (s.depth + 1)).Shows (withNumbers number) env
              (Fits most true) (env.render budget) :=
            h.shows fun hn _ hs => ih le_rfl hlt (by omega) hn hs
          refine Keeps.bind (hdeep.render hb hs) (fun text ht => hdeep.finish ht ho) _ ?_
          exact ⟨rfl, hk.extensions, hk.blocks, hk.templates⟩
        · rintro t ⟨ht, hk⟩
          refine ⟨?_, hk.extensions, hk.blocks, hk.templates⟩
          dsimp only
          omega
      · exact fun he hn => (hfits.block ht ⟨he, hn⟩).mono hmost
      · intro he hn body hb scope hs
        cases hfits.region ht ⟨he, hn⟩
        have hturn := add_mul_turn_le most (turns_region (env.maxDepth - depth))
        exact ih le_rfl hdepth (by omega) hb hs

end Trees

section Compiling

variable {read : String → Option String}

theorem exists_reached {settings : Settings}
    (hread : settings.environment.read = some fun name => .ok (read name))
    (hfinite : {name | (read name).isSome}.Finite) (entry : List Node) :
    ∃ names : List String, ∀ name, settings.Reaches entry name → name ∈ names := by
  let readable := hfinite.toFinset.toList ++ settings.name.toList
  let names := settings.references entry ++
    readable.flatMap fun name => settings.references (settings.nodesOf entry name)
  refine ⟨names, fun name hname => hname.mem_of_closed (fun _ h => List.mem_append_left _ h) ?_⟩
  intro other _ next hnext
  refine List.mem_append_right _ (List.mem_flatMap.2 ⟨other, ?_, hnext⟩)
  by_cases hown : settings.name = some other
  · exact List.mem_append_right _ (Option.mem_toList.2 hown)
  · apply List.mem_append_left
    rw [Finset.mem_toList, Set.Finite.mem_toFinset]
    by_contra hnone
    have hnodes : settings.nodesOf entry other = [] := by
      have hr : read other = none := by simpa using hnone
      unfold Settings.nodesOf
      rw [if_neg hown, found_eq hread, hr]
    rw [hnodes] at hnext
    cases hnext

theorem compiled_ends (t : Template)
    (hread : t.settings.environment.read = some fun name => .ok (read name))
    (hfinite : {name | (read name).isSome}.Finite)
    (hsource : t.nodes.isSome ∨ (t.settings.sourceText read).isSome) :
    ∃ enough entry, ∀ budget, enough ≤ budget → ∀ host,
      (t.compiled budget host).1 = .ok entry ∨
      ∃ e, (t.compiled budget host).1 = .error (.compile e) := by
  cases hnodes : t.nodes with
  | some entry =>
    refine ⟨0, entry, fun budget _ host => Or.inl ?_⟩
    unfold Template.compiled
    rw [hnodes]
  | none =>
    rw [hnodes] at hsource
    obtain ⟨source, hsource⟩ := Option.isSome_iff_exists.1 (hsource.resolve_left nofun)
    have hresult : ∀ budget host, (t.compiled budget host).1 =
        (perform (t.settings.compile budget) (State.start host)).1 := by
      intro budget host
      unfold Template.compiled
      rw [hnodes]
      rcases perform (t.settings.compile budget) (State.start host) with ⟨_ | _, s⟩ <;> rfl
    have hnames : ∃ names : List String, ∀ entry, Markup.compile source t.settings.name = .ok entry →
        ∀ name, t.settings.Reaches entry name → name ∈ names := by
      cases Markup.compile source t.settings.name with
      | error e => exact ⟨[], nofun⟩
      | ok entry =>
        obtain ⟨names, hnames⟩ := exists_reached hread hfinite entry
        refine ⟨names, ?_⟩
        rintro _ ⟨⟩
        exact hnames
    obtain ⟨names, hnames⟩ := hnames
    refine ⟨names.length + 1, (Markup.compile source t.settings.name).toOption.getD [], ?_⟩
    intro budget hbudget host
    rw [hresult]
    rcases compile_end hread hsource hnames hbudget host with ⟨e, he, -⟩ | ⟨entry, -, hok, hentry, -⟩
    · exact Or.inr ⟨e, he⟩
    · rw [hok, hentry]
      exact Or.inl rfl

theorem exists_most {settings : Settings}
    (hread : settings.environment.read = some fun name => .ok (read name))
    (hfinite : {name | (read name).isSome}.Finite) :
    ∃ most, ∀ name nodes, settings.environment.found name = .ok (some nodes) →
      (tagsOf nodes).length < most := by
  let size (name : String) : Nat :=
    (tagsOf (((settings.environment.found name).toOption.getD none).getD [])).length
  obtain ⟨most, hmost⟩ := (hfinite.image size).bddAbove
  refine ⟨most + 1, fun name nodes hfound => Nat.lt_succ_of_le ?_⟩
  have hmem : (read name).isSome := by
    rw [found_eq hread] at hfound
    cases hr : read name with
    | none =>
      rw [hr] at hfound
      cases hfound
    | some text => rfl
  have hsize : size name = (tagsOf nodes).length := by
    unfold size
    rw [hfound]
    rfl
  rw [← hsize]
  exact hmost ⟨name, hmem, rfl⟩

theorem found_error {env : Environment} (hread : env.read = some fun name => .ok (read name))
    {name : String} {e : Fault} (h : env.found name = .error e) : Ends env (.error e) := by
  have hfound := @found_eq { environment := env } read hread name
  rw [h] at hfound
  cases hr : read name with
  | none =>
    rw [hr] at hfound
    cases hfound
  | some text =>
    cases hc : Markup.compile text (some name) with
    | error error =>
      simp only [hr, hc, Except.error.injEq] at hfound
      exact hfound ▸ .compile error
    | ok nodes =>
      simp only [hr, hc] at hfound
      cases hfound

end Compiling

/-- Built of null, scalars, lists, streams and mappings. -/
def HostValue.isPassive (v : HostValue) : Bool := v.isBuilt (fun _ => true) fun _ => true

def HostValue.isShowable (v : HostValue) : Bool := v.isBuilt Number.isShowable fun _ => true

/-- Every export is a value of some kind. -/
def Environment.ExportsOnly (env : Environment) (p : HostValue → Bool) : Prop :=
  ∀ require ∈ env.require, ∀ name v, require name = .ok (some v) → p v

theorem Ends.ne_include {env : Environment} {result : Except Fault String} (h : Ends env result)
    (depth : Int) : result ≠ .error (.nesting depth "include") := by
  intro heq
  cases h with
  | output | compile => cases heq
  | layouts => exact absurd (Fault.nesting.inj (Except.error.inj heq)).2 (by decide)
  | includes name =>
    have hlength := congrArg String.length (Fault.nesting.inj (Except.error.inj heq)).2
    have hlong : "include".length < "include template=\"".length := by decide
    rw [String.length_append, String.length_append] at hlength
    omega

section Pages

variable {t : Template} {read : String → Option String}

theorem ends_of_budget {number : Number → Bool} {most budget : Nat}
    (h : t.settings.environment.Supplies (withNumbers number) (Fits most true)
      (EndingFault t.settings.environment number))
    (hbudget : most + most * turns t.settings.environment.maxDepth true ≤ budget)
    {content : HostValue} (hcontent : (withNumbers number).IsValue content) {host : HostState}
    (hentry : ∀ nodes, (t.compiled budget host).1 = .ok nodes → Fits most true nodes)
    (hcompile : ∀ e, (t.compiled budget host).1 = .error e → ∃ error, e = .compile error) :
    Ends t.settings.environment (t.render budget content host).1 ∨
      (t.render budget content host).1 = .error .badNumber ∧ ∃ n, number n ∧ ¬ n.isShowable := by
  have hpage : ∀ nodes, Fits most true nodes →
      (endingAt t.settings.environment number most 0).Keeps (withNumbers number).text
        (t.settings.environment.renderPage budget nodes content) := by
    intro nodes hn
    refine h.keeps_renderPage ?_ (Or.inl .layouts) ?_ ?_ hn hcontent
    · exact fun hn _ hs => ending_render h budget le_rfl (Nat.zero_le _) hbudget hn hs
    · rintro (he | ⟨he, -⟩) <;> cases he
    · rintro message (he | ⟨he, -⟩) <;> cases he
  rcases t.render_page hpage rfl hentry with ⟨output, hok, -⟩ | ⟨e, he, hfault⟩ | ⟨e, hc, he⟩
  · rw [hok]
    exact Or.inl (.output output)
  · rw [he]
    refine hfault.imp_right ?_
    rintro ⟨rfl, hn⟩
    exact ⟨rfl, hn⟩
  · obtain ⟨error, rfl⟩ := hcompile e hc
    rw [he]
    exact Or.inl (.compile error)

end Pages

/-- Of finitely many templates where no block holds a region, some budget is enough for every page
without functions and filters: it ends, or shows a number with too many digits that is in the content
or in an extension. It never nests without end. -/
theorem render_ends (t : Template) {read : String → Option String}
    (hread : t.settings.environment.read = some fun name => .ok (read name))
    (hfinite : {name | (read name).isSome}.Finite)
    (hsource : t.nodes.isSome ∨ (t.settings.sourceText read).isSome)
    (hfilters : t.settings.environment.filters = [])
    (hloaded : ∀ require ∈ t.settings.environment.require, ∀ name e, require name ≠ .error e)
    (hexports : t.settings.environment.ExportsOnly HostValue.isPassive)
    (hfound : ∀ name nodes, t.settings.environment.found name = .ok (some nodes) →
      NoRegionInBlocks nodes)
    (hentry : ∀ budget host nodes, (t.compiled budget host).1 = .ok nodes →
      NoRegionInBlocks nodes) :
    ∃ enough, ∀ budget, enough ≤ budget → ∀ content : HostValue, content.isPassive →
      ∀ host : HostState,
        let result := (t.render budget content host).1
        (Ends t.settings.environment result ∨
          result = .error .badNumber ∧
            ¬ (content.isShowable ∧ t.settings.environment.ExportsOnly HostValue.isShowable)) ∧
        ∀ depth, result ≠ .error (.nesting depth "include") := by
  obtain ⟨enough, entry, hcompiled⟩ := compiled_ends t hread hfinite hsource
  obtain ⟨most, hmost⟩ := exists_most hread hfinite
  let bound := max most ((tagsOf entry).length + 1)
  refine ⟨max enough (bound + bound * turns t.settings.environment.maxDepth true), ?_⟩
  intro budget hbudget content hcontent host result
  have hcompiled := hcompiled budget (le_of_max_le_left hbudget) host
  have hfits : ∀ nodes, (t.compiled budget host).1 = .ok nodes → Fits bound true nodes := by
    intro nodes hnodes
    refine ⟨?_, hentry budget host nodes hnodes, nofun⟩
    rcases hcompiled with hok | ⟨e, he⟩
    · cases hok.symm.trans hnodes
      exact lt_max_of_lt_right (Nat.lt_succ_self _)
    · cases he.symm.trans hnodes
  have hcompile : ∀ e, (t.compiled budget host).1 = .error e → ∃ error, e = .compile error := by
    intro e he
    rcases hcompiled with hok | ⟨error, herror⟩
    · cases hok.symm.trans he
    · cases herror.symm.trans he
      exact ⟨error, rfl⟩
  have ends : ∀ number, content.isBuilt number (fun _ => true) →
      t.settings.environment.ExportsOnly (·.isBuilt number fun _ => true) →
      Ends t.settings.environment result ∨
        result = .error .badNumber ∧ ∃ n, number n ∧ ¬ n.isShowable := by
    intro number hc hx
    refine ends_of_budget ⟨Material.sound_of_forall fun _ => trivial, ?_, hfilters, ?_, ?_, hx, ?_⟩
      (le_of_max_le_right hbudget) hc hfits hcompile
    · exact fun n hn hbad => Or.inr ⟨rfl, n, hn, hbad⟩
    · exact fun name nodes hf =>
        ⟨lt_max_of_lt_left (hmost name nodes hf), hfound name nodes hf, nofun⟩
    · exact fun name e he => Or.inl (found_error hread he)
    · exact fun require hr name e he => absurd he (hloaded require hr name e)
  have hends : Ends t.settings.environment result ∨
      result = .error .badNumber ∧
        ¬ (content.isShowable ∧ t.settings.environment.ExportsOnly HostValue.isShowable) := by
    by_cases hshow : content.isShowable ∧ t.settings.environment.ExportsOnly HostValue.isShowable
    · refine (ends Number.isShowable hshow.1 hshow.2).imp_right ?_
      rintro ⟨-, n, hn, hbad⟩
      exact absurd hn hbad
    · refine (ends (fun _ => true) hcontent hexports).imp_right ?_
      rintro ⟨hbad, -⟩
      exact ⟨hbad, hshow⟩
  refine ⟨hends, fun depth heq => ?_⟩
  rcases hends with h | ⟨hbad, -⟩
  · exact h.ne_include depth heq
  · cases hbad.symm.trans heq

/-- A template that includes itself, with a region for which the entry keeps the same include. -/
theorem render_ends_cycle :
    let text := "<pop:region name=\"r\"/><pop:include template=\"b\"/>"
    let read := fun name => if name = "b" then some text else none
    let environment : Environment := { read := some fun name => .ok (read name) }
    let again : Node := .tag ⟨"include", none, [("template", .literal "b")], [], true⟩
    let entry := [.tag ⟨"block", none, [("region", .literal "r")], [again], false⟩, again]
    let t : Template := { settings := { environment }, nodes := some entry }
    NoRegionInBlocks entry ∧ ∃ enough, ∀ budget, enough ≤ budget → ∀ host : HostState,
      Ends environment (t.render budget .null host).1 := by
  intro text read environment again entry t
  have hentry : NoRegionInBlocks entry := by decide +kernel
  have hb : ((environment.found "b").toOption.getD none).all
      (fun nodes => decide (NoRegionInBlocks nodes)) = true := by decide +kernel
  have hnone : ∀ name, name ≠ "b" → read name = none := fun name hname => if_neg hname
  have hfinite : {name | (read name).isSome}.Finite := by
    refine (Set.finite_singleton "b").subset fun name hname => ?_
    by_contra hne
    rw [Set.mem_ofPred_eq, hnone name hne] at hname
    cases hname
  have hfound : ∀ name nodes, environment.found name = .ok (some nodes) →
      NoRegionInBlocks nodes := by
    intro name nodes hf
    by_cases hname : name = "b"
    · subst hname
      rw [hf] at hb
      exact of_decide_eq_true hb
    · rw [@found_eq t.settings read rfl, hnone name hname] at hf
      cases hf
  obtain ⟨enough, h⟩ := render_ends t rfl hfinite (Or.inl rfl) rfl nofun nofun hfound (by
    rintro budget host nodes ⟨⟩
    exact hentry)
  refine ⟨hentry, enough, fun budget hbudget host => ?_⟩
  rcases (h budget hbudget .null rfl host).1 with hends | ⟨-, hbad⟩
  · exact hends
  · exact absurd ⟨rfl, nofun⟩ hbad

/-- A number with one digit too many ends a page that nests nothing. -/
theorem render_many_digits :
    let many := HostValue.number (.integer (Int.ofNat (Nat.pow 10 Number.maxDigits)))
    let content := HostValue.object (.mapping [("a", many)])
    let environment : Environment := { read := some fun _ => .ok none }
    let entry : List Node := [.tag ⟨"a", none, [], [], true⟩]
    let t : Template := { settings := { environment }, nodes := some entry }
    NoRegionInBlocks entry ∧ content.isPassive ∧
      (t.render nestingBudget content {}).1 = .error .badNumber ∧
      ¬ Ends environment (t.render nestingBudget content {}).1 := by
  intro many content environment entry t
  have hresult : (t.render nestingBudget content {}).1 = .error .badNumber := by decide +kernel
  refine ⟨by decide +kernel, by decide +kernel, hresult, fun h => ?_⟩
  rw [hresult] at h
  cases h

end TagTemplate
