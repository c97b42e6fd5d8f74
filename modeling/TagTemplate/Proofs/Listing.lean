import Mathlib.Data.List.Forall2
import TagTemplate.Proofs.Data
import TagTemplate.Proofs.Filling
import TagTemplate.Proofs.FreshCopies
import TagTemplate.Proofs.Inlining
import TagTemplate.Proofs.Promise.Page
import TagTemplate.Proofs.References

/-!
# A template that includes itself

The template `listing` shows a list of files and directories, and includes itself for what is in a
directory. What it shows follows the data: each include finds the flags and the files of the
directory at hand, not those of the directories around it, and there are as many includes around one
another as there are directories. The proofs follow the entries, one case for each kind.
-/

namespace TagTemplate

open Markup (Node Tag)
open TagTemplate.Action

/-- A file with a name, or a directory with what is in it. -/
inductive Entry where
  | file (name : String)
  | directory (entries : List Entry)

mutual

/-- How many directories stand in one another. -/
def Entry.depth : Entry → Nat
  | .file _ => 0
  | .directory entries => depthOf entries + 1

def depthOf : List Entry → Nat
  | [] => 0
  | e :: es => max e.depth (depthOf es)

end

mutual

/-- An entry as markup. -/
def Entry.listed : Entry → String
  | .file name => "<li>" ++ Html.escape name ++ "</li>"
  | .directory entries => "<ul>" ++ listedAll entries ++ "</ul>"

def listedAll : List Entry → String
  | [] => ""
  | e :: es => e.listed ++ listedAll es

end

/-- The mapping stands for the entry. Whatever else it holds does not matter. -/
inductive Entry.Stands : Entry → HostValue → Prop where
  | file {name} {fields : OrderedMap HostValue} :
      fields.lookup "file" = some (.bool true) → fields.lookup "dir" = some (.bool false) →
      fields.lookup "name" = some (.string name) → Stands (.file name) (.object (.mapping fields))
  | directory {entries items} {fields : OrderedMap HostValue} :
      fields.lookup "dir" = some (.bool true) → fields.lookup "file" = some (.bool false) →
      fields.lookup "files" = some (.list items) → List.Forall₂ Stands entries items →
      Stands (.directory entries) (.object (.mapping fields))

def listingSource : String :=
  "<ul><pop:files><pop:dir><pop:include template=\"listing\" /></pop:dir>" ++
    "<pop:file><li><pop:name/></li></pop:file></pop:files></ul>"

def entryNodes : List Node :=
  [.tag ⟨"dir", none, [], [.tag (includeTag "listing")], false⟩,
    .tag ⟨"file", none, [], [.text "<li>", .tag ⟨"name", none, [], [], true⟩, .text "</li>"], false⟩]

def listingNodes : List Node :=
  [.text "<ul>", .tag ⟨"files", none, [], entryNodes, false⟩, .text "</ul>"]

theorem compile_listing : Markup.compile listingSource (some "listing") = .ok listingNodes := by
  have htokens : Markup.lex none 0 listingSource.toList = .ok
      [.text "<ul>" 0, .opening ⟨"files", [], false, "<pop:files>", 4⟩,
        .opening ⟨"dir", [], false, "<pop:dir>", 15⟩,
        .opening ⟨"include", [⟨"template", "listing".toList, 47, '"'⟩], true,
          "<pop:include template=\"listing\" />", 24⟩,
        .closing "dir" "</pop:dir>" 58, .opening ⟨"file", [], false, "<pop:file>", 68⟩,
        .text "<li>" 78, .opening ⟨"name", [], true, "<pop:name/>", 82⟩, .text "</li>" 93,
        .closing "file" "</pop:file>" 98, .closing "files" "</pop:files>" 109,
        .text "</ul>" 121] := by
    decide +kernel
  unfold Markup.compile
  rw [Markup.parseWindow, htokens]
  rfl

namespace Environment

variable (env : Environment) (render : Renderer) (budget : Nat)

theorem renderTag_bare {name : String} (hneg : negated? name = none)
    (hs : Structural.ofName? name = none) (children : List Node) (closing : Bool) (scope : Scope) :
    env.renderTag render budget ⟨name, none, [], children, closing⟩ scope = (do
      let c ← scope.lookup name
      env.showSubject render budget ⟨⟨name, none, [], children, closing⟩, [], scope, scope⟩ c) := by
  rw [env.renderTag_of_no_attributes render budget rfl]
  unfold renderWith
  simp [hneg, hs, renderSubject]

end Environment

/-- What is looked up first are the fields of a mapping. -/
structure Scope.Holds (scope : Scope) (fields : OrderedMap HostValue) : Prop where
  value : scope.frame.value = .object (.mapping fields)
  bindings : scope.frame.bindings = []

theorem Scope.Holds.lookup {scope : Scope} {fields : OrderedMap HostValue} (h : scope.Holds fields)
    {name : String} {v : HostValue} (hv : fields.lookup name = some v) (hp : v.isPlain) :
    scope.lookup name = pure v.plainContent := by
  have hown : scope.frame.own name = pure v.plainContent := by
    unfold Frame.own
    rw [h.bindings, h.value]
    simp only [List.lookup_nil, Content.get, HostObject.get, hv, Content.ofHost_eq_pure hp]
  unfold Scope.lookup Scope.frames Scope.lookupIn
  rw [hown, pure_bind]
  cases v with
  | content c => cases hp
  | _ => rfl

section Showing

variable {env : Environment} {budget : Nat} {scope : Scope} {fields : OrderedMap HostValue}

theorem Scope.Holds.renderTag_flag (h : scope.Holds fields) {name : String} {set : Bool}
    (hv : fields.lookup name = some (.bool set)) (hneg : Environment.negated? name = none)
    (hs : Environment.Structural.ofName? name = none) {children : List Node} (hc : children ≠ [])
    (render : Renderer) (closing : Bool) :
    env.renderTag render budget ⟨name, none, [], children, closing⟩ scope =
      if set then render children scope else pure "" := by
  rw [env.renderTag_bare render budget hneg hs, h.lookup hv rfl, pure_bind]
  cases set with
  | true => simp [HostValue.plainContent, Environment.showSubject, Environment.showContent, hc,
      Occurrence.enclosed, env.finish_of_no_options]
  | false => simp [HostValue.plainContent, Environment.showSubject, Environment.showContent, hc]

theorem Scope.Holds.renderTag_name (h : scope.Holds fields) {name : String}
    (hv : fields.lookup "name" = some (.string name)) (render : Renderer) :
    env.renderTag render budget ⟨"name", none, [], [], true⟩ scope = pure (Html.escape name) := by
  rw [env.renderTag_bare render budget rfl rfl, h.lookup hv rfl, pure_bind]
  by_cases hn : name = ""
  · subst hn
    rfl
  · simp [HostValue.plainContent, Environment.showSubject, Environment.showContent, hn,
      Content.inline, showText, env.finish_of_no_options]

theorem render_file (h : scope.Holds fields) {name : String}
    (hfile : fields.lookup "file" = some (.bool true))
    (hdir : fields.lookup "dir" = some (.bool false))
    (hname : fields.lookup "name" = some (.string name)) :
    env.render (budget + 2) entryNodes scope = pure (Entry.file name).listed := by
  simp [Environment.render_succ, entryNodes, Environment.renderNodes_cons,
    Environment.renderNodes_nil, Environment.renderNode, h.renderTag_flag hdir rfl rfl,
    h.renderTag_flag hfile rfl rfl, h.renderTag_name hname, Entry.listed, String.append_assoc]

theorem render_directory (h : scope.Holds fields)
    (hdir : fields.lookup "dir" = some (.bool true))
    (hfile : fields.lookup "file" = some (.bool false)) :
    env.render (budget + 2) entryNodes scope =
      env.renderTag (env.render budget) budget (includeTag "listing") scope := by
  simp [Environment.render_succ, entryNodes, Environment.renderNodes_cons,
    Environment.renderNodes_nil, Environment.renderNode, h.renderTag_flag hdir rfl rfl,
    h.renderTag_flag hfile rfl rfl]

end Showing

theorem join_map_listed (es : List Entry) : String.join (es.map Entry.listed) = listedAll es := by
  induction es with
  | nil => rfl
  | cons e es ih => rw [List.map_cons, String.join_cons, ih, listedAll]

theorem Environment.showContent_array (env : Environment) (render : Renderer) {o : Occurrence}
    (ho : o.options = []) (items : List HostValue) :
    env.showContent render o (.array items) = (do
      let parts ← items.zipIdx.mapM fun p => o.item render ⟨p.2, items.length⟩ p.1
      return String.join parts) := by
  cases items with
  | nil => rfl
  | cons item items =>
    simp [showContent, repetition, ho, Html.join_of_no_options, env.finish_of_no_options]

def Environment.listingResult {α : Type} (env : Environment) (s : State) (depth : Nat) (x : α) :
    Except Fault α :=
  if s.depth + depth ≤ env.maxDepth then .ok x
  else .error (.nesting env.maxDepth "include template=\"listing\"")

/-- The template can be included, and the includes so far are not too deep. -/
structure Environment.Lists (env : Environment) (s : State) : Prop where
  template : s.templates.lookup "listing" = some (some listingNodes)
  depth : s.depth ≤ env.maxDepth

section Nesting

variable {env : Environment} {budget : Nat} {scope : Scope} {fields : OrderedMap HostValue}
  {s : State}

theorem perform_include (hf : ∀ filter ∈ env.filters, filter.1 ≠ "template") (hs : env.Lists s) :
    perform (env.renderTag (env.render budget) budget (includeTag "listing") scope) s =
      perform (env.oneDeeper "listing" (env.render budget listingNodes scope)) s := by
  have htemplate : perform (env.template "listing") s = (.ok (some listingNodes), s) := by
    rw [env.perform_template]
    simp [Environment.resolved, Environment.looked, hs.template]
  rw [env.renderTag_includeTag (by decide) hf, perform_bind_ok htemplate]

theorem perform_listing (h : scope.Holds fields) {items : List HostValue}
    (hfiles : fields.lookup "files" = some (.list items)) {es : List Entry}
    (hitems : ∀ o : Occurrence, o.tag.children = entryNodes →
      perform (items.zipIdx.mapM fun p => o.item (env.render (budget + 2)) ⟨p.2, items.length⟩ p.1)
        s = (env.listingResult s (depthOf es) (es.map Entry.listed), s)) :
    perform (env.render (budget + 3) listingNodes scope) s =
      (env.listingResult s (depthOf es) (Entry.directory es).listed, s) := by
  let o : Occurrence := ⟨⟨"files", none, [], entryNodes, false⟩, [], scope, scope⟩
  have htag : env.renderTag (env.render (budget + 2)) (budget + 2) o.tag scope = (do
      let parts ← items.zipIdx.mapM fun p =>
        o.item (env.render (budget + 2)) ⟨p.2, items.length⟩ p.1
      return String.join parts) := by
    rw [env.renderTag_bare _ _ rfl rfl, h.lookup hfiles rfl, pure_bind]
    exact env.showContent_array _ rfl items
  have hnodes : env.render (budget + 3) listingNodes scope =
      (fun parts => "<ul>" ++ (String.join parts ++ "</ul>")) <$>
        items.zipIdx.mapM fun p => o.item (env.render (budget + 2)) ⟨p.2, items.length⟩ p.1 := by
    rw [Environment.render_succ, listingNodes, env.renderNodes_cons, env.renderNodes_cons,
      env.renderNodes_cons, env.renderNodes_nil]
    simp only [Environment.renderNode, pure_bind, map_eq_pure_bind]
    rw [htag]
    simp
  rw [hnodes, perform_map, hitems o rfl]
  unfold Environment.listingResult
  split
  · rw [Entry.listed, ← join_map_listed, String.append_assoc]
    rfl
  · rfl

theorem item_mapping {o : Occurrence} (ho : o.tag.children = entryNodes) (render : Renderer)
    (iteration : Iteration) (fields : OrderedMap HostValue) :
    o.item render iteration (.object (.mapping fields)) =
      render entryNodes
        (o.parent.push { value := .object (.mapping fields), iteration := some iteration }) := by
  unfold Occurrence.item Occurrence.itemContent
  rw [Content.ofHost_eq_pure rfl, ho]
  rfl

mutual

/-- Three lists of nodes stand inside one another around the listing of a directory: those of the
listing, of an entry and of the tag `dir`. -/
theorem perform_entry (hf : ∀ filter ∈ env.filters, filter.1 ≠ "template") (e : Entry)
    {budget : Nat} {scope : Scope} {fields : OrderedMap HostValue} {s : State}
    (h : scope.Holds fields) (he : e.Stands (.object (.mapping fields))) (hs : env.Lists s)
    (hb : 3 * min e.depth (env.maxDepth - s.depth) ≤ budget) :
    perform (env.render (budget + 2) entryNodes scope) s =
      (env.listingResult s e.depth e.listed, s) := by
  match e, he with
  | .file name, .file hfile hdir hname =>
    rw [render_file h hfile hdir hname, Entry.depth, Environment.listingResult,
      if_pos (by simpa using hs.depth)]
    rfl
  | .directory es, .directory hdir hfile hfiles hitems =>
    rw [render_directory h hdir hfile, perform_include hf hs, env.perform_oneDeeper]
    rw [Entry.depth] at hb ⊢
    by_cases hdeep : env.maxDepth < s.depth + 1
    · rw [if_pos hdeep, Environment.listingResult, if_neg (by omega)]
      rfl
    · rw [if_neg hdeep]
      obtain ⟨budget, rfl⟩ : ∃ b, budget = b + 3 := ⟨budget - 3, by omega⟩
      have hdeeper : env.Lists { s with depth := s.depth + 1 } :=
        ⟨hs.template, Nat.le_of_not_lt hdeep⟩
      have hfewer : 3 * min (depthOf es) (env.maxDepth - (s.depth + 1)) ≤ budget := by omega
      rw [perform_listing h hfiles fun o ho => perform_entries hf es hitems ho hdeeper hfewer]
      simp [Environment.listingResult, Nat.add_assoc, Nat.add_comm 1]

theorem perform_entries (hf : ∀ filter ∈ env.filters, filter.1 ≠ "template") (es : List Entry)
    {items : List HostValue} (hes : List.Forall₂ Entry.Stands es items) {o : Occurrence}
    (ho : o.tag.children = entryNodes) {budget : Nat} {s : State} (hs : env.Lists s)
    (hb : 3 * min (depthOf es) (env.maxDepth - s.depth) ≤ budget) {k n : Nat} :
    perform ((items.zipIdx k).mapM fun p => o.item (env.render (budget + 2)) ⟨p.2, n⟩ p.1) s =
      (env.listingResult s (depthOf es) (es.map Entry.listed), s) := by
  match es, hes with
  | [], .nil =>
    rw [depthOf, Environment.listingResult, if_pos (by simpa using hs.depth)]
    rfl
  | e :: es, @List.Forall₂.cons _ _ _ _ v _ vs he hes =>
    obtain ⟨fields, rfl⟩ : ∃ fields, v = .object (.mapping fields) := by
      cases he <;> exact ⟨_, rfl⟩
    rw [depthOf] at hb ⊢
    have hentry : perform (env.render (budget + 2) entryNodes (o.parent.push
        { value := .object (.mapping fields), iteration := some ⟨k, n⟩ })) s =
          (env.listingResult s e.depth e.listed, s) :=
      perform_entry hf e ⟨rfl, rfl⟩ he hs (by omega)
    have hentries : perform ((vs.zipIdx (k + 1)).mapM fun p =>
        o.item (env.render (budget + 2)) ⟨p.2, n⟩ p.1) s =
          (env.listingResult s (depthOf es) (es.map Entry.listed), s) :=
      perform_entries hf es hes ho hs (by omega)
    rw [List.zipIdx_cons, List.mapM_cons, perform_bind, item_mapping ho, hentry]
    unfold Environment.listingResult at hentries ⊢
    by_cases hd : s.depth + e.depth ≤ env.maxDepth
    · rw [if_pos hd]
      dsimp only
      rw [perform_bind, hentries]
      by_cases hds : s.depth + depthOf es ≤ env.maxDepth
      · rw [if_pos hds, if_pos (by omega)]
        rfl
      · rw [if_neg hds, if_neg (by omega)]
    · rw [if_neg hd, if_neg (by omega)]

end

end Nesting

mutual

theorem Entry.Stands.copied (e : Entry) {v v' : HostValue} (h : e.Stands v) (hc : Copied v v') :
    e.Stands v' := by
  match e, h, hc with
  | .file name, .file hfile hdir hname, .mapping hc =>
    exact .file (lookup_copied_leaf hc hfile trivial) (lookup_copied_leaf hc hdir trivial)
      (lookup_copied_leaf hc hname trivial)
  | .directory es, .directory hdir hfile hfiles hes, .mapping hc =>
    obtain ⟨items', hfiles', hitems⟩ := lookup_copied_list hc hfiles
    exact .directory (lookup_copied_leaf hc hdir trivial) (lookup_copied_leaf hc hfile trivial)
      hfiles' (entriesStand_copied es hes hitems)

theorem entriesStand_copied (es : List Entry) {items items' : List HostValue}
    (h : List.Forall₂ Entry.Stands es items) (hc : List.Forall₂ Copied items items') :
    List.Forall₂ Entry.Stands es items' := by
  match es, h, hc with
  | [], .nil, .nil => exact .nil
  | e :: es, .cons he hes, .cons hv hvs =>
    exact .cons (Entry.Stands.copied e he hv) (entriesStand_copied es hes hvs)

end

/-- The template is named `listing`, and what it is compiled from, or has been, is its source. -/
structure Template.IsListing (t : Template) : Prop where
  name : t.settings.name = some "listing"
  source : t.settings.text = some listingSource ∨
    t.settings.text = none ∧ ∃ read ∈ t.settings.environment.read,
      read "listing" = .ok (some listingSource)
  nodes : ∀ nodes ∈ t.nodes, nodes = listingNodes

theorem perform_foldlM_follow_seen {settings : Settings} {search : Settings.Search} {s : State}
    {tags : List Tag}
    (h : ∀ tag ∈ tags, ∀ name, settings.reference? tag = some name → name ∈ search.seen) :
    perform (tags.foldlM settings.follow search) s = (.ok search, s) := by
  induction tags with
  | nil => rfl
  | cons tag tags ih =>
    rw [List.foldlM_cons, perform_bind_ok (perform_follow_seen (h tag List.mem_cons_self))]
    exact ih fun t ht => h t (List.mem_cons_of_mem _ ht)

namespace Template.IsListing

variable {t : Template} (h : t.IsListing)

include h

theorem perform_source (s : State) :
    ∃ host, perform t.settings.source s = (.ok listingSource, { s with host }) := by
  unfold Settings.source
  rcases h.source with ht | ⟨ht, read, hread, hsource⟩
  · rw [ht]
    exact ⟨s.host, rfl⟩
  · rw [ht, h.name]
    refine ⟨{ s.host with calls := s.host.calls ++ [.read "listing"] }, ?_⟩
    simp [Environment.readSource, perform_map, Option.mem_def.1 hread, hsource, trace, updateHost,
      Action.ofExcept]
    rfl

theorem compiled_eq (budget : Nat) (hb : 0 < budget) (host : HostState) :
    ∃ host', t.compiled budget host =
      (.ok listingNodes, { t with nodes := some listingNodes }, host') := by
  obtain ⟨settings, nodes⟩ := t
  cases nodes with
  | some nodes =>
    obtain rfl := h.nodes nodes rfl
    exact ⟨host, rfl⟩
  | none =>
    obtain ⟨host', hsource⟩ := h.perform_source (State.start host)
    obtain ⟨budget, rfl⟩ : ∃ b, budget = b + 1 := ⟨budget - 1, by omega⟩
    have hname : settings.name = some "listing" := h.name
    have hfollow : perform (settings.followAll (budget + 1) ⟨["listing"], [listingNodes]⟩)
        { State.start host with host := host' } =
        (.ok (), { State.start host with host := host' }) := by
      rw [Settings.followAll, perform_bind_ok (perform_foldlM_follow_seen ?_)]
      · cases budget <;> rfl
      · simp [listingNodes, entryNodes, Markup.tagsOf, Markup.Node.tags, Markup.Tag.innerTags,
          Markup.tagsOfAttributes, Markup.AttributeValue.tags, includeTag, Settings.reference?,
          Markup.Tag.literal?]
    have hcompile := perform_compile (budget + 1) hsource
    rw [hname, compile_listing] at hcompile
    dsimp only [Option.toList] at hcompile
    rw [hfollow] at hcompile
    refine ⟨host', ?_⟩
    unfold Template.compiled
    dsimp only
    rw [hcompile]
    rfl

end Template.IsListing

theorem perform_compose_listing {env : Environment}
    (hf : ∀ filter ∈ env.filters, filter.1 ≠ "template") {root : Scope}
    {fields : OrderedMap HostValue} (h : root.Holds fields) {items : List HostValue}
    (hfiles : fields.lookup "files" = some (.list items)) {es : List Entry}
    (hes : List.Forall₂ Entry.Stands es items) {s : State} (hs : env.Lists s)
    (hpending : s.registry.pending = none) {budget : Nat}
    (hb : 3 * (min (depthOf es) (env.maxDepth - s.depth) + 1) ≤ budget) :
    (perform (env.compose budget listingNodes root) s).1 =
      env.listingResult s (depthOf es) (Entry.directory es).listed := by
  obtain ⟨budget, rfl⟩ : ∃ b, budget = b + 3 := ⟨budget - 3, by omega⟩
  have hfewer : 3 * min (depthOf es) (env.maxDepth - s.depth) ≤ budget := by omega
  have hrender := perform_listing h hfiles fun o ho => perform_entries hf es hes ho hs hfewer
  unfold Environment.compose
  rw [perform_bind, hrender]
  unfold Environment.listingResult
  by_cases hdeep : s.depth + depthOf es ≤ env.maxDepth
  · rw [if_pos hdeep]
    exact perform_applyLayouts_none _ _ _ hpending
  · rw [if_neg hdeep]

theorem perform_renderPage_listing {env : Environment}
    (hf : ∀ filter ∈ env.filters, filter.1 ≠ "template") {fields : OrderedMap HostValue}
    {items : List HostValue} (hfiles : fields.lookup "files" = some (.list items))
    {es : List Entry} (hes : List.Forall₂ Entry.Stands es items) {s : State} (hs : env.Lists s)
    (hpending : s.registry.pending = none) {budget : Nat}
    (hb : 3 * (min (depthOf es) (env.maxDepth - s.depth) + 1) ≤ budget) :
    (perform (env.renderPage budget listingNodes (.object (.mapping fields))) s).1 =
      env.listingResult s (depthOf es) (Entry.directory es).listed := by
  obtain ⟨v', host, hrefresh, hcopied⟩ :=
    HostValue.perform_refresh s (.object (.mapping fields))
  cases hcopied with
  | leaf hl => cases hl
  | @mapping _ fields' hcopied =>
    obtain ⟨items', hfiles', hitems⟩ := lookup_copied_list hcopied hfiles
    have hroot : perform (Scope.ofHost (.object (.mapping fields'))) { s with host } =
        (.ok { frame := { value := .object (.mapping fields') } }, { s with host }) := by
      unfold Scope.ofHost
      rw [Content.ofHost_eq_pure rfl]
      rfl
    have hlists : env.Lists { s with host } := ⟨hs.template, hs.depth⟩
    have hcompose : (perform (env.compose budget listingNodes
        { frame := { value := .object (.mapping fields') } }) { s with host }).1 =
          env.listingResult s (depthOf es) (Entry.directory es).listed :=
      perform_compose_listing hf ⟨rfl, rfl⟩ hfiles' (entriesStand_copied es hes hitems) hlists
        hpending hb
    unfold Environment.renderPage Environment.pageContent
    rw [perform_bind_ok hrefresh, perform_bind_ok hroot, env.perform_guardRecursion, hcompose]
    unfold Environment.listingResult
    split <;> rfl

/-- The template lists all files and directories if these do not nest too deep. Where they do, the
rendering fails at the include that goes too deep. -/
theorem render_listing {t : Template} (h : t.IsListing)
    (hf : ∀ filter ∈ t.settings.environment.filters, filter.1 ≠ "template")
    {fields : OrderedMap HostValue} {items : List HostValue}
    (hfiles : fields.lookup "files" = some (.list items)) {es : List Entry}
    (hes : List.Forall₂ Entry.Stands es items) {budget : Nat}
    (hb : 3 * (min (depthOf es) t.settings.environment.maxDepth + 1) ≤ budget) (host : HostState) :
    (t.render budget (.object (.mapping fields)) host).1 =
      if depthOf es ≤ t.settings.environment.maxDepth then .ok (Entry.directory es).listed
      else .error (.nesting t.settings.environment.maxDepth "include template=\"listing\"") := by
  obtain ⟨host', hcompiled⟩ := h.compiled_eq budget (by omega) host
  have hs : t.settings.environment.Lists { State.start host' with
      templates := Template.preloaded ⟨t.settings, some listingNodes⟩ listingNodes } := by
    refine ⟨?_, Nat.zero_le _⟩
    simp [Template.preloaded, h.name]
  unfold Template.render
  rw [hcompiled]
  refine (perform_renderPage_listing hf hfiles hes hs rfl hb).trans ?_
  simp [Environment.listingResult, State.start]

/-- A directory in a directory, with one include too few and with enough of them. -/
theorem render_listing_nested :
    let file name : HostValue := .object (.mapping
      [("file", .bool true), ("dir", .bool false), ("name", .string name)])
    let directory items : HostValue := .object (.mapping
      [("dir", .bool true), ("file", .bool false), ("files", .list items)])
    let content : HostValue := .object (.mapping
      [("files", .list [file "a&b", directory [directory [], file "c"]])])
    let listing maxDepth : Template :=
      ⟨{ text := some listingSource, name := some "listing", environment := { maxDepth } }, none⟩
    ((listing 1).render 9 content {}).1 =
        .error (.nesting 1 "include template=\"listing\"") ∧
      ((listing 2).render 9 content {}).1 =
        .ok "<ul><li>a&amp;b</li><ul><ul></ul><li>c</li></ul></ul>" := by
  intro file directory content listing
  have hfile : ∀ name, (Entry.file name).Stands (file name) := fun name => .file rfl rfl rfl
  have hdirectory : ∀ {es items}, List.Forall₂ Entry.Stands es items →
      (Entry.directory es).Stands (directory items) := fun h => .directory rfl rfl rfl h
  have hes : List.Forall₂ Entry.Stands
      [.file "a&b", .directory [.directory [], .file "c"]]
      [file "a&b", directory [directory [], file "c"]] :=
    .cons (hfile _) (.cons (hdirectory (.cons (hdirectory .nil) (.cons (hfile _) .nil))) .nil)
  have hlisting : ∀ maxDepth, (listing maxDepth).IsListing :=
    fun _ => ⟨rfl, Or.inl rfl, nofun⟩
  refine ⟨?_, ?_⟩
  · exact render_listing (hlisting 1) nofun rfl hes (by decide) {}
  · exact render_listing (hlisting 2) nofun rfl hes (by decide) {}

end TagTemplate
