import TagTemplate.Proofs.Data
import TagTemplate.Proofs.Promise

/-!
# Content that a page is made of

Values without functions are built of null, scalars, lists, streams and mappings. Looking at them
and showing them keeps every promise that bears the reading of streams: what is found in them is
built alike, and what is shown of them is of the kind of text that the page shows.
-/

namespace TagTemplate

open TagTemplate.Action

def HostValue.isPart (number : Number → Bool) (key : String → Bool) (streams : Bool) :
    HostValue → Bool
  | .null | .bool _ | .string _ | .list _ => true
  | .stream .. => streams
  | .number n => number n
  | .object (.mapping entries) => (entries.map Prod.fst).all key
  | _ => false

/-- The value is built of null, scalars, lists, streams and mappings, with numbers and keys of some
kind. -/
def HostValue.isBuilt (number : Number → Bool) (key : String → Bool) (v : HostValue) : Bool :=
  v.every (isPart number key true)

/-- The content is no function, and everything inside it has the property. -/
def Content.every (p : HostValue → Bool) : Content → Bool
  | .number n => p (.number n)
  | .array items => everyItem p items
  | .object o => (HostValue.object o).every p
  | .callable _ => false
  | _ => true

theorem text_join {text : String → Prop} (empty : text "")
    (append : ∀ {a b}, text a → text b → text (a ++ b)) {parts : List String}
    (h : ∀ part ∈ parts, text part) : text (String.join parts) := by
  induction parts with
  | nil => exact empty
  | cons part parts ih =>
    rw [String.join_cons]
    refine append (h part List.mem_cons_self) (ih fun part hp => ?_)
    exact h part (List.mem_cons_of_mem _ hp)

/-- What a page is made of: the kinds of numbers and keys in its values and whether streams are among
them, the kind of text that it shows, and the attributes that its tags carry. -/
structure Material where
  number : Number → Bool := fun _ => true
  key : String → Bool := fun _ => true
  streams : Bool := true
  text : String → Prop := fun _ => True
  carried : String → Prop := fun _ => True

namespace Material

variable (M : Material)

def part : HostValue → Bool := HostValue.isPart M.number M.key M.streams

def IsValue (v : HostValue) : Prop := v.every M.part

def IsContent (c : Content) : Prop := c.every M.part

def IsOptions (options : Options) : Prop := ∀ p ∈ options, M.carried p.1 ∧ M.text p.2

structure IsFrame (f : Frame) : Prop where
  value : M.IsContent f.value
  bindings : ∀ name c, f.bindings.lookup name = some c → M.IsContent c

def IsScope (s : Scope) : Prop := ∀ f ∈ s.frames, M.IsFrame f

/-- What is made of shown text is shown text. -/
structure Sound : Prop where
  empty : M.text ""
  append : ∀ {a b}, M.text a → M.text b → M.text (a ++ b)
  bool : ∀ b : Bool, M.text (if b then "true" else "false")
  shown : ∀ {options}, M.IsOptions options → ∀ text, M.text (showText text options)
  markup : M.key "html" → ∀ text, M.text text
  join : ∀ {options}, M.IsOptions options → ∀ {parts}, (∀ part ∈ parts, M.text part) →
    M.text (Html.join parts options)
  wrapped : ∀ {options}, M.IsOptions options → ∀ {text}, M.text text →
    M.text (Environment.wrapped text options)

variable {M}

theorem sound_of_forall (h : ∀ text, M.text text) : M.Sound :=
  ⟨h _, fun _ _ => h _, fun _ => h _, fun _ _ => h _, fun _ => h, fun _ _ _ => h _,
    fun _ _ _ => h _⟩

theorem isContent_plainContent {v : HostValue} (h : M.IsValue v) : M.IsContent v.plainContent := by
  have hv := HostValue.every_self h
  cases v with
  | list items =>
    unfold IsValue HostValue.every at h
    exact (Bool.and_eq_true _ _ ▸ h).2
  | stream id items =>
    unfold IsValue HostValue.every at h
    exact (Bool.and_eq_true _ _ ▸ h).2
  | number n => exact hv
  | object o => exact h
  | function f => cases hv
  | content c => cases hv
  | _ => rfl

theorem not_isContent_callable {f : HostFunction} : ¬ M.IsContent (.callable f) := nofun

theorem exists_mapping {o : HostObject} (h : M.IsContent (.object o)) :
    ∃ entries, o = .mapping entries := by
  have hv := HostValue.every_self h
  cases o with
  | mapping entries => exact ⟨entries, rfl⟩
  | record fields computed => cases hv
  | unprintable => cases hv

theorem everyEntry_of_mapping {entries : List (String × HostValue)}
    (h : M.IsContent (.object (.mapping entries))) :
    everyEntry M.part entries := by
  unfold IsContent Content.every HostValue.every at h
  exact (Bool.and_eq_true _ _ ▸ h).2

theorem key_of_lookup {entries : List (String × HostValue)}
    (h : M.IsContent (.object (.mapping entries))) {name : String} {v : HostValue}
    (hv : entries.lookup name = some v) : M.key name := by
  have hkeys : (entries.map Prod.fst).all M.key := HostValue.every_self h
  exact List.all_eq_true.1 hkeys name (List.mem_map_of_mem (OrderedMap.mem_of_lookup hv))

theorem IsScope.push {s : Scope} (h : M.IsScope s) {f : Frame} (hf : M.IsFrame f) :
    M.IsScope (s.push f) := by
  intro g hg
  rcases List.mem_cons.1 hg with rfl | hg
  · exact hf
  · exact h g hg

theorem IsScope.enter {s : Scope} (h : M.IsScope s) {c : Content} (hc : M.IsContent c) :
    M.IsScope (s.enter c) := h.push ⟨hc, nofun⟩

theorem lookup_text {options : Options} (h : M.IsOptions options) {name text : String}
    (ht : options.lookup name = some text) : M.text text :=
  (h _ (OrderedMap.mem_of_lookup ht)).2

theorem lookup_eq_none {options : Options} (h : M.IsOptions options) {name : String}
    (hn : ¬ M.carried name) : options.lookup name = none := by
  cases ht : options.lookup name with
  | none => rfl
  | some text => exact absurd (h _ (OrderedMap.mem_of_lookup ht)).1 hn

theorem Sound.default (hM : M.Sound) {options : Options} (ho : M.IsOptions options) {text : String}
    (ht : M.text text) : M.text (orDefault text options) := by
  unfold orDefault
  split
  · cases hd : options.lookup "default" with
    | none => exact hM.empty
    | some value => exact lookup_text ho hd
  · exact ht

end Material

/-- The promise bears what happens when values of the material are looked at: the host may note that
streams have been read or numbered, and a number may have too many digits to be shown. -/
structure Promise.Bears (P : Promise) (M : Material) : Prop where
  sound : M.Sound
  host : ∀ {s}, P.holds s → ∀ host, s.host.calls <+: host.calls → P.holds { s with host }
  number : ∀ {s n}, P.holds s → M.number n → ¬ n.isShowable → P.fails .badNumber s

namespace Promise

variable {P : Promise} {M : Material}

namespace Bears

variable (h : P.Bears M)

include h

theorem updateHost {f : HostState → HostState} (hf : ∀ g, g.calls <+: (f g).calls) :
    P.Safe (updateHost f) :=
  safe_update fun _ hs => h.host hs _ (hf _)

theorem warn (warning : Warning) : P.Safe (warn warning) :=
  h.updateHost fun _ => List.prefix_refl _

theorem trace (call : Call) : P.Safe (trace call) :=
  h.updateHost fun _ => List.prefix_append _ _

theorem openStream (id : Nat) : P.Safe (openStream id) := by
  refine Safe.bind (keeps_observe fun _ _ => trivial) fun unread => ?_
  exact Safe.bind (h.updateHost fun _ => List.prefix_refl _) fun _ => safe_pure unread

theorem freshStream : P.Safe freshStream := by
  refine Safe.bind (keeps_observe fun _ _ => trivial) fun id => ?_
  exact Safe.bind (h.updateHost fun _ => List.prefix_refl _) fun _ => safe_pure id

theorem ofHost {v : HostValue} (hv : M.IsValue v) : P.Keeps M.IsContent (Content.ofHost v) := by
  have hcontent := Material.isContent_plainContent hv
  cases v with
  | stream id items =>
    refine Safe.bind (h.openStream id) fun unread => ?_
    cases unread with
    | true => exact keeps_pure hcontent
    | false => exact keeps_pure rfl
  | object o =>
    obtain ⟨entries, rfl⟩ := Material.exists_mapping hcontent
    obtain ⟨b, hb⟩ := HostObject.hasMarkup_eq_pure (o := .mapping entries) rfl
    unfold Content.ofHost
    dsimp only
    rw [hb, pure_bind]
    exact keeps_pure hcontent
  | content c => cases HostValue.every_self hv
  | _ => exact keeps_pure hcontent

theorem get {c : Content} (hc : M.IsContent c) (name : String) :
    P.Keeps M.IsContent (c.get name) := by
  cases c with
  | object o =>
    obtain ⟨entries, rfl⟩ := Material.exists_mapping hc
    unfold Content.get HostObject.get
    dsimp only
    cases hv : entries.lookup name with
    | none => exact keeps_pure rfl
    | some v => exact h.ofHost (everyEntry_lookup (Material.everyEntry_of_mapping hc) hv)
  | _ => exact keeps_pure rfl

theorem own {f : Frame} (hf : M.IsFrame f) (name : String) : P.Keeps M.IsContent (f.own name) := by
  unfold Frame.own
  cases hb : f.bindings.lookup name with
  | some c => exact keeps_pure (hf.bindings name c hb)
  | none => exact h.get hf.value name

theorem lookup {s : Scope} (hs : M.IsScope s) (name : String) :
    P.Keeps M.IsContent (s.lookup name) := by
  unfold Scope.lookup
  unfold Material.IsScope at hs
  generalize s.frames = fs at hs
  induction fs with
  | nil => exact keeps_pure rfl
  | cons f fs ih =>
    refine Keeps.bind (h.own (hs f List.mem_cons_self) name) fun c hc => ?_
    cases c with
    | missing => exact ih fun g hg => hs g (List.mem_cons_of_mem _ hg)
    | _ => exact keeps_pure hc

theorem showNumber {n : Number} (hn : M.number n) {options : Options} (ho : M.IsOptions options) :
    P.Keeps M.text (showNumber n options) := by
  rw [showNumber_eq]
  split
  · exact keeps_pure (h.sound.shown ho _)
  · next hbad => exact keeps_fail fun s hs => h.number hs hn hbad

theorem markup {entries : List (String × HostValue)}
    (he : M.IsContent (.object (.mapping entries))) (options : Options) :
    P.Keeps M.text ((HostObject.mapping entries).markup options) := by
  have hproducer : (HostObject.mapping entries).producer =
      pure ((entries.lookup "html").getD .null) := rfl
  unfold HostObject.markup
  rw [hproducer, pure_bind]
  cases hv : entries.lookup "html" with
  | none => exact keeps_pure h.sound.empty
  | some v =>
    have hpart := HostValue.every_self (everyEntry_lookup (Material.everyEntry_of_mapping he) hv)
    cases v with
    | string text => exact keeps_pure (h.sound.markup (Material.key_of_lookup he hv) text)
    | function f => cases hpart
    | _ => exact keeps_pure h.sound.empty

end Bears

mutual

theorem Bears.inline (h : P.Bears M) {options : Options} (ho : M.IsOptions options) :
    (v : HostValue) → M.IsValue v → P.Keeps M.text (v.inline options)
  | .null, _ => by
    rw [HostValue.inline]
    exact keeps_pure h.sound.empty
  | .bool b, _ => by
    rw [HostValue.inline]
    exact keeps_pure (h.sound.bool b)
  | .string text, _ => by
    rw [HostValue.inline]
    exact keeps_pure (h.sound.shown ho text)
  | .number n, hv => by
    rw [HostValue.inline]
    exact h.showNumber (HostValue.every_self hv) ho
  | .list items, hv => by
    rw [HostValue.inline]
    refine Keeps.bind (Bears.inlineItems h ho items (Material.isContent_plainContent hv)) ?_
    exact fun texts ht => keeps_pure (h.sound.join ho ht)
  | .stream id items, hv => by
    rw [HostValue.inline]
    refine Safe.bind (h.openStream id) fun unread => ?_
    split
    · refine Keeps.bind (Bears.inlineItems h ho items (Material.isContent_plainContent hv)) ?_
      exact fun texts ht => keeps_pure (h.sound.join ho ht)
    · exact keeps_pure (h.sound.join ho nofun)
  | .object (.mapping entries), hv => by
    obtain ⟨b, hb⟩ := HostObject.hasMarkup_eq_pure (o := .mapping entries) rfl
    rw [HostValue.inline, hb, pure_bind]
    exact h.markup (Material.isContent_plainContent hv) options
  | .object (.record ..), hv => by cases HostValue.every_self hv
  | .object .unprintable, hv => by cases HostValue.every_self hv
  | .function _, hv => by cases HostValue.every_self hv
  | .content _, hv => by cases HostValue.every_self hv

theorem Bears.inlineItems (h : P.Bears M) {options : Options} (ho : M.IsOptions options) :
    (vs : List HostValue) → everyItem M.part vs →
      P.Keeps (fun texts => ∀ text ∈ texts, M.text text) (TagTemplate.inlineItems vs options)
  | [], _ => by
    rw [TagTemplate.inlineItems]
    exact keeps_pure nofun
  | v :: vs, hvs => by
    rw [everyItem, Bool.and_eq_true] at hvs
    rw [TagTemplate.inlineItems]
    refine Keeps.bind (Bears.inline h ho v hvs.1) fun text ht => ?_
    refine Keeps.bind (Bears.inlineItems h ho vs hvs.2) fun texts hts => keeps_pure ?_
    exact List.forall_mem_cons.2 ⟨ht, hts⟩

end

theorem Bears.inlineContent (h : P.Bears M) {c : Content} (hc : M.IsContent c) {options : Options}
    (ho : M.IsOptions options) : P.Keeps M.text (c.inline options) := by
  cases c with
  | number n =>
    rw [Content.inline]
    exact h.showNumber hc ho
  | bool b =>
    rw [Content.inline]
    exact keeps_pure (h.sound.bool b)
  | string text =>
    rw [Content.inline]
    exact keeps_pure (h.sound.shown ho text)
  | array items =>
    rw [Content.inline]
    refine Keeps.bind (h.inlineItems ho items hc) fun texts ht => ?_
    exact keeps_pure (h.sound.join ho ht)
  | object o =>
    obtain ⟨entries, rfl⟩ := Material.exists_mapping hc
    rw [Content.inline]
    exact h.markup hc options
  | _ =>
    rw [Content.inline]
    exact keeps_pure h.sound.empty

mutual

theorem Bears.refresh (h : P.Bears M) :
    (v : HostValue) → M.IsValue v → P.Keeps M.IsValue v.refresh
  | .list items, hv => by
    rw [HostValue.refresh]
    refine Keeps.bind (Bears.refreshItems h items (Material.isContent_plainContent hv)) ?_
    exact fun items' hi => keeps_pure hi
  | .stream id items, hv => by
    have hstreams : M.streams := HostValue.every_self hv
    rw [HostValue.refresh]
    refine Keeps.bind (Bears.refreshItems h items (Material.isContent_plainContent hv)) ?_
    refine fun items' hi => Safe.bind h.freshStream fun _ => keeps_pure ?_
    unfold Material.IsValue HostValue.every
    rw [Bool.and_eq_true]
    exact ⟨hstreams, hi⟩
  | .object (.mapping entries), hv => by
    have hkeys : (entries.map Prod.fst).all M.key = true := HostValue.every_self hv
    rw [HostValue.refresh, HostObject.refresh, bind_assoc]
    refine Keeps.bind (Bears.refreshEntries h entries (Material.everyEntry_of_mapping hv)) ?_
    rintro entries' ⟨he, hsame⟩
    rw [pure_bind]
    refine keeps_pure ?_
    unfold Material.IsValue HostValue.every
    rw [Bool.and_eq_true]
    refine ⟨?_, he⟩
    change (entries'.map Prod.fst).all M.key = true
    rw [hsame, hkeys]
  | .null, hv => keeps_pure hv
  | .bool _, hv => keeps_pure hv
  | .number _, hv => keeps_pure hv
  | .string _, hv => keeps_pure hv
  | .object (.record ..), hv => by cases HostValue.every_self hv
  | .object .unprintable, hv => by cases HostValue.every_self hv
  | .function _, hv => by cases HostValue.every_self hv
  | .content _, hv => by cases HostValue.every_self hv

theorem Bears.refreshItems (h : P.Bears M) :
    (vs : List HostValue) → everyItem M.part vs →
      P.Keeps (fun vs' => everyItem M.part vs')
        (TagTemplate.refreshItems vs)
  | [], hvs => keeps_pure hvs
  | v :: vs, hvs => by
    rw [everyItem, Bool.and_eq_true] at hvs
    rw [TagTemplate.refreshItems]
    refine Keeps.bind (Bears.refresh h v hvs.1) fun v' hv => ?_
    refine Keeps.bind (Bears.refreshItems h vs hvs.2) fun vs' hvs' => keeps_pure ?_
    rw [everyItem, Bool.and_eq_true]
    exact ⟨hv, hvs'⟩

theorem Bears.refreshEntries (h : P.Bears M) :
    (es : List (String × HostValue)) → everyEntry M.part es →
      P.Keeps (fun es' => everyEntry M.part es' ∧
        es'.map Prod.fst = es.map Prod.fst) (TagTemplate.refreshEntries es)
  | [], hes => keeps_pure ⟨hes, rfl⟩
  | (key, v) :: es, hes => by
    rw [everyEntry, Bool.and_eq_true] at hes
    rw [TagTemplate.refreshEntries]
    refine Keeps.bind (Bears.refresh h v hes.1) fun v' hv => ?_
    refine Keeps.bind (Bears.refreshEntries h es hes.2) fun es' hes' => keeps_pure ⟨?_, ?_⟩
    · rw [everyEntry, Bool.and_eq_true]
      exact ⟨hv, hes'.1⟩
    · rw [List.map_cons, List.map_cons, hes'.2]

end

end Promise

end TagTemplate
