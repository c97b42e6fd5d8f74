import TagTemplate.Proofs.Appending
import TagTemplate.Proofs.Filling
import TagTemplate.Proofs.FreshCopies
import TagTemplate.Proofs.References
import TagTemplate.Template

/-!
# Templates without tags

A text with no tag outside comments is one run of text, whatever its comments hold: it compiles to
this text and is rendered as it is. What a page is made of does not matter for that, as long as it
can be made a scope at all. Of a record that means to ask for its own markup, which may raise an
error.
-/

namespace TagTemplate.Markup

/-- The text as a template: one node, or none if it is empty. -/
def textNodes (text : String) : List Node := if text = "" then [] else [.text text]

theorem textRun_free {cs rest : List Char} (h : IsFree cs)
    (hrest : ∀ c ∈ rest.head?, BreaksMarks c) :
    textRun .plain (cs ++ rest) = (cs ++ (textRun .plain rest).1, (textRun .plain rest).2) := by
  induction cs with
  | nil => rfl
  | cons c cs ih =>
    have hmark : ∀ mark ∈ [openMark, closeMark, commentOpen],
        mark.isPrefixOf (c :: (cs ++ rest)) = false := by
      intro mark hmem
      have hmem' : mark ∈ [openMark, closeMark, commentOpen, commentClose] :=
        List.mem_append_left [commentClose] hmem
      rw [← List.cons_append, isPrefixOf_append_eq (List.cons_ne_nil c cs) hrest hmem',
        ← Bool.not_eq_true, List.isPrefixOf_iff_prefix]
      exact fun hp => h mark hmem hp.isInfix
    have hcomment : ¬ commentOpen <+: c :: (cs ++ rest) := by
      rw [← List.isPrefixOf_iff_prefix, hmark commentOpen (by simp)]
      exact Bool.false_ne_true
    have htag : atTag (c :: (cs ++ rest)) = false := by
      rw [atTag, hmark openMark (by simp), hmark closeMark (by simp)]
      rfl
    have hfree : IsFree cs := fun mark hmem hin => h mark hmem (List.infix_cons hin)
    rw [List.cons_append, textRun_plain_cons hcomment htag, ih hfree]
    rfl

theorem commentClose_not_first {c : Char} {body rest : List Char}
    (h : ¬ commentClose <:+: c :: body) :
    ¬ commentClose <+: c :: (body ++ commentClose ++ rest) := by
  intro hp
  -- the mark has three characters, so that only a body of one or two could begin a part of it
  match body with
  | [] => simp [commentClose] at hp
  | [d] => simp [commentClose] at hp
  | d :: e :: body =>
    apply h
    simp only [commentClose, List.cons_append, List.cons_prefix_cons] at hp
    obtain ⟨rfl, rfl, rfl, -⟩ := hp
    exact ⟨[], body, rfl⟩

theorem textRun_comment {body rest : List Char} (h : ¬ commentClose <:+: body) :
    textRun ⟨0, true⟩ (body ++ commentClose ++ rest) =
      (body ++ commentClose ++ (textRun .plain rest).1, (textRun .plain rest).2) := by
  induction body with
  | nil => exact textRun_commentClose rest
  | cons c body ih =>
    rw [List.cons_append, List.cons_append, textRun_comment_cons (commentClose_not_first h),
      ih fun hin => h (List.infix_cons hin)]
    rfl

theorem textRun_unfinished {body : List Char} (h : ¬ commentClose <:+: body) :
    textRun ⟨0, true⟩ body = (body, []) := by
  induction body with
  | nil => rfl
  | cons c body ih =>
    rw [textRun_comment_cons fun hp => h hp.isInfix, ih fun hin => h (List.infix_cons hin)]

theorem IsRun.textRun_eq {unfinished : Bool} {cs : List Char} (h : IsRun unfinished cs) :
    textRun .plain cs = (cs, []) := by
  have hbreak : ∀ rest, ∀ c ∈ (commentOpen ++ rest).head?, BreaksMarks c := by
    rintro rest c ⟨⟩
    decide
  induction h with
  | free hfree =>
    have hend : ∀ c ∈ ([] : List Char).head?, BreaksMarks c := nofun
    simpa [textRun] using textRun_free hfree hend
  | comment hfree hbody _ ih =>
    rw [List.append_assoc, List.append_assoc, List.append_assoc, textRun_free hfree (hbreak _),
      textRun_commentOpen, ← List.append_assoc _ commentClose, textRun_comment hbody, ih]
  | unfinished hfree hbody =>
    rw [List.append_assoc, textRun_free hfree (hbreak _), textRun_commentOpen,
      textRun_unfinished hbody]

theorem IsRun.lex_eq {unfinished : Bool} {cs : List Char} (h : IsRun unfinished cs) (hne : cs ≠ [])
    (beyond : Option Char) (offset : Nat) :
    lex beyond offset cs = .ok [.text (String.ofList cs) offset] := by
  have hrun := h.textRun_eq
  have hplain : atTag cs = false := by
    rw [← Bool.not_eq_true]
    intro ht
    rw [textRun_of_endsText (Or.inr ht)] at hrun
    exact hne (congrArg Prod.fst hrun).symm
  rw [lex_of_text hne hplain, hrun, lex_nil]
  rfl

theorem compile_run {unfinished : Bool} {text : String} (h : IsRun unfinished text.toList)
    (template : Option String) : compile text template = .ok (textNodes text) := by
  have hparse : parseWindow none 0 text.toList = .ok (textNodes text) := by
    rw [parseWindow_eq, textNodes]
    by_cases hempty : text = ""
    · subst hempty
      rw [if_pos rfl]
      exact congrArg (Except.bind · _) lex_nil
    · have hne : text.toList ≠ [] := mt String.toList_eq_nil_iff.1 hempty
      rw [if_neg hempty, h.lex_eq hne, String.ofList_toList]
      rfl
  rw [compile, hparse]

end TagTemplate.Markup

namespace TagTemplate

open Markup (Node IsRun textNodes compile compile_run)
open TagTemplate.Action

/-- Asking the value for markup of its own raises the error. -/
def HostValue.MarkupRaises (v : HostValue) (fault : Fault) : Prop :=
  ∃ fields computed e s, v = .object (.record fields computed) ∧
    fields.lookup "__html__" = none ∧ computed.lookup "__html__" = some e ∧
    (perform (e.eval {}) s).1 = .error fault ∧
    ∀ message, fault ≠ .raised .missingAttribute message

theorem HostObject.perform_attribute (o : HostObject) (name : String) (s : State) :
    ∃ r host, perform (o.attribute? name) s = (r, { s with host }) ∧
      ∀ fault, r = .error fault → ∃ fields computed e, o = .record fields computed ∧
        fields.lookup name = none ∧ computed.lookup name = some e ∧
        (perform (e.eval {}) s).1 = .error fault := by
  cases o with
  | record fields computed =>
    unfold attribute?
    dsimp only
    cases hf : fields.lookup name with
    | some v => exact ⟨.ok (some v), s.host, rfl, nofun⟩
    | none =>
      cases hc : computed.lookup name with
      | none => exact ⟨.ok none, s.host, rfl, nofun⟩
      | some e =>
        have hhost := Lockstep.beside_host s s
        obtain ⟨host, he, -⟩ :=
          Lockstep.perform_beside (hhost.eval Lockstep.ReceivedAgrees.none e) rfl
        cases hr : (perform (e.eval {}) s).1 with
        | ok v =>
          rw [hr] at he
          exact ⟨.ok (some v), host, perform_bind_ok he, nofun⟩
        | error fault =>
          rw [hr] at he
          refine ⟨.error fault, host, by dsimp only; rw [perform_bind, he], ?_⟩
          rintro _ ⟨⟩
          exact ⟨fields, computed, e, rfl, hf, hc, hr⟩
  | _ => exact ⟨.ok none, s.host, rfl, nofun⟩

theorem HostValue.perform_ofHost (v : HostValue) (s : State) :
    (∃ c host, perform (Content.ofHost v) s = (.ok c, { s with host })) ∨
      ∃ fault, v.MarkupRaises fault ∧ (perform (Content.ofHost v) s).1 = .error fault := by
  cases v with
  | object o =>
    obtain ⟨r, host, ha, hraises⟩ := o.perform_attribute "__html__" s
    unfold Content.ofHost HostObject.hasMarkup HostObject.attributeOrNone
    dsimp only
    simp only [bind_assoc, perform_bind, perform_attempt, ha]
    cases r with
    | ok v => exact Or.inl ⟨.object o, host, rfl⟩
    | error fault =>
      obtain ⟨fields, computed, e, rfl, hf, hc, he⟩ := hraises fault rfl
      by_cases hmissing : ∃ message, fault = .raised .missingAttribute message
      · obtain ⟨message, rfl⟩ := hmissing
        exact Or.inl ⟨_, host, rfl⟩
      · right
        rw [not_exists] at hmissing
        refine ⟨fault, ⟨fields, computed, e, s, rfl, hf, hc, he, hmissing⟩, ?_⟩
        cases fault with
        | raised kind message =>
          cases kind with
          | missingAttribute => exact absurd rfl (hmissing message)
          | _ => rfl
        | _ => rfl
  | stream id items => exact Or.inl ⟨_, _, rfl⟩
  | _ => exact Or.inl ⟨_, s.host, rfl⟩

theorem Copied.markupRaises {v v' : HostValue} {fault : Fault} (h : Copied v v')
    (hraises : v'.MarkupRaises fault) : v.MarkupRaises fault := by
  obtain ⟨fields', computed, e, s, rfl, hf, hraises⟩ := hraises
  cases h with
  | leaf h => cases h
  | @record fields _ _ hfields =>
    refine ⟨fields, computed, e, s, rfl, ?_, hraises⟩
    have hrel := hfields "__html__"
    rw [hf] at hrel
    cases hlookup : fields.lookup "__html__" with
    | none => rfl
    | some v =>
      rw [hlookup] at hrel
      cases hrel

theorem perform_rootScope (content : HostValue) (s : State) :
    (∃ root host, perform (do Scope.ofHost (← (Environment.pageContent content).refresh)) s =
        (.ok root, { s with host })) ∨
      ∃ fault, content.MarkupRaises fault ∧
        (perform (do Scope.ofHost (← (Environment.pageContent content).refresh)) s).1 =
          .error fault := by
  obtain ⟨v, host, hrefresh, hcopied⟩ := (Environment.pageContent content).perform_refresh s
  rw [perform_bind_ok hrefresh]
  rcases v.perform_ofHost { s with host } with ⟨c, host', hc⟩ | ⟨fault, hraises, hfault⟩
  · left
    exact ⟨_, host', perform_bind_ok hc⟩
  · right
    have hpage := hcopied.markupRaises hraises
    refine ⟨fault, ?_, ?_⟩
    · obtain ⟨fields, computed, e, s', hrecord, hraises⟩ := hpage
      refine ⟨fields, computed, e, s', ?_, hraises⟩
      cases content with
      | null => cases hrecord
      | _ => exact hrecord
    · exact perform_bind_error hfault

section Rendering

variable (env : Environment) (budget : Nat) (text : String)

theorem render_textNodes (scope : Scope) :
    env.render (budget + 1) (textNodes text) scope = pure text := by
  unfold textNodes
  split
  · next hempty => rw [env.render_succ, env.renderNodes_nil, hempty]
  · exact env.render_text budget scope text

theorem renderPage_textNodes (content : HostValue) {s : State}
    (hpending : s.registry.pending = none) :
    (perform (env.renderPage (budget + 1) (textNodes text) content) s).1 = .ok text ∨
      ∃ fault, content.MarkupRaises fault ∧
        (perform (env.renderPage (budget + 1) (textNodes text) content) s).1 = .error fault := by
  unfold Environment.renderPage
  rw [← bind_assoc]
  rcases perform_rootScope content s with ⟨root, host, hroot⟩ | ⟨fault, hraises, hfault⟩
  · left
    have hpage : (perform (env.compose (budget + 1) (textNodes text) root) { s with host }).1 =
        .ok text := by
      unfold Environment.compose
      rw [render_textNodes, pure_bind]
      exact perform_applyLayouts_none _ _ _ hpending
    rw [perform_bind_ok hroot, env.perform_guardRecursion]
    dsimp only
    rw [hpage]
    rfl
  · exact Or.inr ⟨fault, hraises, perform_bind_error hfault⟩

end Rendering

theorem tagsOf_textNodes (text : String) : Markup.tagsOf (textNodes text) = [] := by
  unfold textNodes
  split <;> rfl

theorem Template.compiled_textNodes {t : Template} {text : String} (budget : Nat)
    {host : HostState} (hnodes : t.nodes = none)
    (hsource : (perform t.settings.source (State.start host)).1 = .ok text)
    (hcompile : compile text t.settings.name = .ok (textNodes text)) :
    ∃ host', t.compiled (budget + 1) host =
      (.ok (textNodes text), { t with nodes := some (textNodes text) }, host') := by
  have hperform : perform t.settings.source (State.start host) =
      (.ok text, (perform t.settings.source (State.start host)).2) := Prod.ext hsource rfl
  have hfollow : ∀ seen,
      t.settings.followAll (budget + 1) ⟨seen, [textNodes text]⟩ = pure () := by
    intro seen
    unfold Settings.followAll
    rw [tagsOf_textNodes]
    unfold Settings.followAll
    rfl
  unfold Template.compiled
  rw [hnodes]
  dsimp only
  rw [perform_compile _ hperform, hcompile]
  dsimp only
  rw [hfollow]
  exact ⟨_, rfl⟩

end TagTemplate
