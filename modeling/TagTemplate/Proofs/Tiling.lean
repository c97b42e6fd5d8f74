import Mathlib.Data.List.Chain
import Mathlib.Data.List.TakeWhile
import TagTemplate.Markup.Lexer

/-!
# Tokens tile their window

The tokens of a window, put together as they were written, are the window: no character is lost or
read twice. Marks of tags stand in text only inside comments, and a comment that is not closed is
where the window ends.
-/

namespace TagTemplate.Markup

def IsFree (cs : List Char) : Prop := ∀ mark ∈ [openMark, closeMark, commentOpen], ¬ mark <:+: cs

instance : DecidablePred IsFree := fun cs =>
  inferInstanceAs (Decidable (∀ mark ∈ [openMark, closeMark, commentOpen], ¬ mark <:+: cs))

/-- Text free of marks and whole comments by turns. The last comment may be unfinished. -/
inductive IsRun : Bool → List Char → Prop where
  | free {cs} : IsFree cs → IsRun false cs
  | comment {unfinished cs body rest} : IsFree cs → ¬ commentClose <:+: body →
      IsRun unfinished rest → IsRun unfinished (cs ++ commentOpen ++ body ++ commentClose ++ rest)
  | unfinished {cs body} : IsFree cs → ¬ commentClose <:+: body →
      IsRun true (cs ++ commentOpen ++ body)

def Token.isText : Token → Bool
  | .text .. => true
  | _ => false

/-- The tokens as they were written. -/
def written (ts : List Token) : List Char := ts.flatMap fun t => t.source.toList

def RawAttribute.StandsIn (a : RawAttribute) (offset : Nat) (source : List Char) : Prop :=
  ∃ before after, source = before ++ a.quote :: (a.value ++ a.quote :: after) ∧
    a.offset = offset + before.length + 1 ∧ a.quote ∉ a.value

theorem written_cons (t : Token) (ts : List Token) :
    written (t :: ts) = t.source.toList ++ written ts := List.flatMap_cons

theorem written_append (ts us : List Token) : written (ts ++ us) = written ts ++ written us :=
  List.flatMap_append

theorem isFree_nil : IsFree [] := by
  intro mark hmark h
  have hnil := List.infix_nil.1 h
  subst hnil
  simp [openMark, closeMark, commentOpen] at hmark

theorem IsFree.cons {c : Char} {cs ds : List Char} (h : IsFree cs) (hp : cs <+: ds)
    (hc : ∀ mark ∈ [openMark, closeMark, commentOpen], ¬ mark <+: c :: ds) : IsFree (c :: cs) := by
  intro mark hmark hin
  rcases List.infix_cons_iff.1 hin with hbegins | hin
  · exact hc mark hmark (hbegins.trans (List.cons_prefix_cons.2 ⟨rfl, hp⟩))
  · exact h mark hmark hin

theorem IsRun.cons {unfinished : Bool} {c : Char} {cs : List Char} (h : IsRun unfinished cs)
    (hc : ∀ mark ∈ [openMark, closeMark, commentOpen], ¬ mark <+: c :: cs) :
    IsRun unfinished (c :: cs) := by
  cases h with
  | free hfree => exact .free (hfree.cons (List.prefix_refl _) hc)
  | comment hfree hbody hrest =>
    simp only [List.append_assoc] at hc
    simpa using IsRun.comment (hfree.cons (List.prefix_append _ _) hc) hbody hrest
  | unfinished hfree hbody =>
    simp only [List.append_assoc] at hc
    simpa using IsRun.unfinished (hfree.cons (List.prefix_append _ _) hc) hbody

theorem textRun_pass (n : Nat) (inComment : Bool) (cs : List Char) :
    textRun ⟨n, inComment⟩ cs =
      (cs.take n ++ (textRun ⟨0, inComment⟩ (cs.drop n)).1,
        (textRun ⟨0, inComment⟩ (cs.drop n)).2) := by
  induction n generalizing cs with
  | zero => simp
  | succ n ih =>
    cases cs with
    | nil => simp [textRun]
    | cons c cs =>
      rw [textRun]
      simp [RunState.next?, ih]

theorem textRun_commentOpen (cs : List Char) :
    textRun .plain (commentOpen ++ cs) =
      (commentOpen ++ (textRun ⟨0, true⟩ cs).1, (textRun ⟨0, true⟩ cs).2) := by
  have hnext : RunState.plain.next? (commentOpen ++ cs) = some ⟨3, true⟩ := by
    simp [RunState.plain, RunState.next?]
  simp only [commentOpen, List.cons_append, List.nil_append] at hnext ⊢
  rw [textRun, hnext]
  simp [textRun_pass 3]

theorem textRun_commentClose (cs : List Char) :
    textRun ⟨0, true⟩ (commentClose ++ cs) =
      (commentClose ++ (textRun .plain cs).1, (textRun .plain cs).2) := by
  have hnext : RunState.next? ⟨0, true⟩ (commentClose ++ cs) = some ⟨2, false⟩ := by
    simp [RunState.next?]
  simp only [commentClose, List.cons_append, List.nil_append] at hnext ⊢
  rw [textRun, hnext]
  simp [textRun_pass 2, RunState.plain]

theorem textRun_comment_cons {c : Char} {cs : List Char} (h : ¬ commentClose <+: c :: cs) :
    textRun ⟨0, true⟩ (c :: cs) = (c :: (textRun ⟨0, true⟩ cs).1, (textRun ⟨0, true⟩ cs).2) := by
  have hnext : RunState.next? ⟨0, true⟩ (c :: cs) = some ⟨0, true⟩ := by
    simpa [RunState.next?] using h
  rw [textRun, hnext]

theorem textRun_atTag {cs : List Char} (hc : ¬ commentOpen <+: cs) (ht : atTag cs = true) :
    textRun .plain cs = ([], cs) := by
  cases cs with
  | nil => rfl
  | cons c cs =>
    have hnext : RunState.plain.next? (c :: cs) = none := by
      simp [RunState.plain, RunState.next?, hc, ht]
    rw [textRun, hnext]

theorem textRun_plain_cons {c : Char} {cs : List Char} (hc : ¬ commentOpen <+: c :: cs)
    (ht : atTag (c :: cs) = false) :
    textRun .plain (c :: cs) = (c :: (textRun .plain cs).1, (textRun .plain cs).2) := by
  have hnext : RunState.plain.next? (c :: cs) = some .plain := by
    simp only [RunState.plain, RunState.next?, List.isPrefixOf_iff_prefix, hc, ht]
    simp
  rw [textRun, hnext]

theorem prefix_textRun (state : RunState) (cs : List Char) : (textRun state cs).1 <+: cs :=
  ⟨_, textRun_append state cs⟩

theorem textRun_snd (state : RunState) (cs : List Char) :
    (textRun state cs).2 = [] ∨ atTag (textRun state cs).2 = true := by
  induction cs generalizing state with
  | nil => exact Or.inl rfl
  | cons c cs ih =>
    rw [textRun]
    cases hnext : state.next? (c :: cs) with
    | some next => exact ih next
    | none =>
      right
      rcases state with ⟨_ | pass, _ | _⟩
      · simp only [RunState.next?] at hnext
        split at hnext
        · cases hnext
        · split at hnext
          · next h => exact h
          · cases hnext
      · simp only [RunState.next?] at hnext
        split at hnext <;> cases hnext
      · cases hnext
      · cases hnext

def TakesRun (r : List Char × List Char) : Prop :=
  ∃ unfinished, IsRun unfinished r.1 ∧ (unfinished = true → r.2 = [])

def TakesComment (r : List Char × List Char) : Prop :=
  ∃ body, ¬ commentClose <:+: body ∧
    (r = (body, []) ∨ ∃ rest, r.1 = body ++ commentClose ++ rest ∧ TakesRun (rest, r.2))

theorem TakesRun.nil (rest : List Char) : TakesRun ([], rest) := ⟨false, .free isFree_nil, nofun⟩

theorem TakesRun.cons {c : Char} {r : List Char × List Char} (h : TakesRun r)
    (hc : ∀ mark ∈ [openMark, closeMark, commentOpen], ¬ mark <+: c :: r.1) :
    TakesRun (c :: r.1, r.2) := by
  obtain ⟨unfinished, hrun, hend⟩ := h
  exact ⟨unfinished, hrun.cons hc, hend⟩

theorem TakesRun.close {r : List Char × List Char} (h : TakesRun r) :
    TakesComment (commentClose ++ r.1, r.2) := by
  refine ⟨[], fun hin => ?_, Or.inr ⟨r.1, rfl, h⟩⟩
  cases List.infix_nil.1 hin

theorem TakesComment.open {r : List Char × List Char} (h : TakesComment r) :
    TakesRun (commentOpen ++ r.1, r.2) := by
  obtain ⟨body, hbody, rfl | ⟨rest, hr, unfinished, hrun, hend⟩⟩ := h
  · exact ⟨true, .unfinished isFree_nil hbody, fun _ => rfl⟩
  · refine ⟨unfinished, ?_, hend⟩
    simpa [hr] using IsRun.comment isFree_nil hbody hrun

theorem TakesComment.cons {c : Char} {r : List Char × List Char} (h : TakesComment r)
    (hc : ¬ commentClose <+: c :: r.1) : TakesComment (c :: r.1, r.2) := by
  obtain ⟨body, hbody, hr⟩ := h
  have hprefix : body <+: r.1 := by
    rcases hr with rfl | ⟨rest, hrest, -⟩
    · exact List.prefix_refl _
    · exact ⟨commentClose ++ rest, by rw [hrest, List.append_assoc]⟩
  refine ⟨c :: body, fun hin => ?_, ?_⟩
  · rcases List.infix_cons_iff.1 hin with hbegins | hin
    · exact hc (hbegins.trans (List.cons_prefix_cons.2 ⟨rfl, hprefix⟩))
    · exact hbody hin
  · rcases hr with rfl | ⟨rest, hrest, htakes⟩
    · exact Or.inl rfl
    · exact Or.inr ⟨rest, by simp [hrest], htakes⟩

theorem textRun_takes (n : Nat) : ∀ cs : List Char, cs.length ≤ n →
    TakesRun (textRun .plain cs) ∧ TakesComment (textRun ⟨0, true⟩ cs) := by
  induction n with
  | zero =>
    intro cs hcs
    cases List.length_eq_zero_iff.1 (Nat.le_zero.1 hcs)
    refine ⟨.nil [], [], fun hin => ?_, Or.inl rfl⟩
    cases List.infix_nil.1 hin
  | succ n ih =>
    intro cs hcs
    cases cs with
    | nil => exact ih [] (Nat.zero_le n)
    | cons c cs =>
      have hlength : cs.length ≤ n := Nat.le_of_succ_le_succ hcs
      constructor
      · by_cases hopen : commentOpen <+: c :: cs
        · obtain ⟨ds, hds⟩ := hopen
          have hshort : ds.length ≤ n := by
            have := congrArg List.length hds
            simp [commentOpen] at this
            omega
          rw [← hds, textRun_commentOpen]
          exact (ih ds hshort).2.open
        · by_cases ht : atTag (c :: cs) = true
          · rw [textRun_atTag hopen ht]
            exact .nil _
          · rw [textRun_plain_cons hopen (Bool.eq_false_iff.2 ht)]
            refine (ih cs hlength).1.cons fun mark hmark hp => ?_
            have hbegins := hp.trans (List.cons_prefix_cons.2 ⟨rfl, prefix_textRun .plain cs⟩)
            simp only [atTag, Bool.or_eq_true, List.isPrefixOf_iff_prefix, not_or] at ht
            simp only [List.mem_cons, List.not_mem_nil, or_false] at hmark
            rcases hmark with rfl | rfl | rfl
            · exact ht.1 hbegins
            · exact ht.2 hbegins
            · exact hopen hbegins
      · by_cases hclose : commentClose <+: c :: cs
        · obtain ⟨ds, hds⟩ := hclose
          have hshort : ds.length ≤ n := by
            have := congrArg List.length hds
            simp [commentClose] at this
            omega
          rw [← hds, textRun_commentClose]
          exact (ih ds hshort).1.close
        · rw [textRun_comment_cons hclose]
          refine (ih cs hlength).2.cons fun hp => hclose ?_
          exact hp.trans (List.cons_prefix_cons.2 ⟨rfl, prefix_textRun ⟨0, true⟩ cs⟩)

theorem suffix_skipBlank (cs : List Char) : skipBlank cs <:+ cs := List.dropWhile_suffix _

theorem suffix_readName {cs r : List Char} {name : String} (h : readName cs = some (name, r)) :
    r <:+ cs := by
  unfold readName at h
  split at h
  · cases h
  · split at h
    · cases h
      exact (List.dropWhile_suffix _).trans (List.suffix_cons _ _)
    · cases h

theorem suffix_readTagEnd {cs r : List Char} {closed : Bool}
    (h : readTagEnd cs = some (closed, r)) : r <:+ cs := by
  have hs := suffix_skipBlank cs
  unfold readTagEnd at h
  split at h
  · next hr =>
    cases h
    rw [hr] at hs
    exact (List.suffix_append ['/', '>'] _).trans hs
  · next hr =>
    cases h
    rw [hr] at hs
    exact (List.suffix_cons _ _).trans hs
  · cases h

theorem suffix_readClosingEnd {cs r : List Char} (h : readClosingEnd cs = some r) : r <:+ cs := by
  have hs := suffix_skipBlank cs
  unfold readClosingEnd at h
  split at h
  · next hr =>
    cases h
    rw [hr] at hs
    exact (List.suffix_cons _ _).trans hs
  · cases h

theorem suffix_readAttributeName {cs r : List Char} {name : String}
    (h : readAttributeName cs = some (name, r)) : r <:+ cs := by
  unfold readAttributeName at h
  split at h
  · cases h
  · next c cs =>
    split at h
    · split at h
      · cases h
      · next name r hname =>
        have hr := (suffix_readName hname).trans (suffix_skipBlank cs)
        split at h
        · next r' hequals =>
          cases h
          have hr' : r' <:+ skipBlank r := by
            rw [hequals]
            exact List.suffix_cons _ _
          exact (suffix_skipBlank r').trans <| hr'.trans <| (suffix_skipBlank r).trans <|
            hr.trans (List.suffix_cons c cs)
        · cases h
    · cases h

theorem readValue_ok {beyond : Option Char} {cs value inner rest : List Char} {q : Char}
    (h : readValue beyond cs = .ok (q, value, inner, rest)) :
    cs = q :: inner ∧ inner = value ++ q :: rest ∧ q ∉ value := by
  unfold readValue at h
  split at h
  · split at h
    · split at h <;> cases h
    · cases h
  · next c r =>
    split at h
    · split at h
      · cases h
      · next d rest' hd =>
        cases h
        have hsplit := List.takeWhile_append_dropWhile (p := (· != q)) (l := inner)
        have hhead : d = q := by
          have := List.head?_dropWhile_not (· != q) inner
          rw [hd] at this
          simpa using this
        rw [hd, hhead] at hsplit
        refine ⟨rfl, hsplit.symm, fun hq => ?_⟩
        simpa using List.mem_takeWhile_imp hq
    · cases h

theorem RawAttribute.StandsIn.append {a : RawAttribute} {offset : Nat} {source : List Char}
    (h : a.StandsIn offset source) (more : List Char) : a.StandsIn offset (source ++ more) := by
  obtain ⟨before, after, rfl, hoffset, hquote⟩ := h
  exact ⟨before, after ++ more, by simp, hoffset, hquote⟩

theorem RawAttribute.StandsIn.after {a : RawAttribute} {offset : Nat} {front source : List Char}
    (h : a.StandsIn (offset + front.length) source) : a.StandsIn offset (front ++ source) := by
  obtain ⟨before, after, rfl, hoffset, hquote⟩ := h
  refine ⟨front ++ before, after, by simp, ?_, hquote⟩
  rw [hoffset, List.length_append]
  omega

theorem readAttribute_ok {beyond : Option Char} {offset : Nat} {cs rest : List Char}
    {a : RawAttribute} (h : readAttribute beyond offset cs = .ok (a, rest)) :
    ∃ source, cs = source ++ rest ∧ a.StandsIn offset source := by
  unfold readAttribute at h
  split at h
  · cases h
  · next name r hname =>
    split at h
    · cases h
    · next q value inner rest' hvalue =>
      cases h
      obtain ⟨front, rfl⟩ := suffix_readAttributeName hname
      obtain ⟨rfl, rfl, hquote⟩ := readValue_ok hvalue
      refine ⟨front ++ q :: (value ++ [q]), by simp, front, [], rfl, ?_, hquote⟩
      simp only [List.length_append, List.length_cons]
      omega

theorem readAttributes_ok {beyond : Option Char} {offset : Nat} {cs rest : List Char}
    {as : List RawAttribute} {closed : Bool}
    (h : readAttributes beyond offset cs = .ok (as, closed, rest)) :
    ∃ source, cs = source ++ rest ∧ ∀ a ∈ as, a.StandsIn offset source := by
  fun_induction readAttributes beyond offset cs generalizing as closed rest with
  | case1 offset cs closed' rest' hend =>
    cases h
    obtain ⟨source, rfl⟩ := suffix_readTagEnd hend
    exact ⟨source, rfl, by simp⟩
  | case2 => cases h
  | case3 => cases h
  | case4 offset cs _ a rest' ha _ as' closed' after hr ih =>
    cases h
    obtain ⟨source, rfl, hstands⟩ := readAttribute_ok ha
    obtain ⟨more, rfl, hmore⟩ := ih hr
    refine ⟨source ++ more, by simp, fun b hb => ?_⟩
    rcases List.mem_cons.1 hb with rfl | hb
    · exact hstands.append more
    · apply RawAttribute.StandsIn.after
      simpa [Nat.add_sub_cancel] using hmore b hb

theorem consumed_append (source rest : List Char) :
    consumed (source ++ rest) rest = String.ofList source := by
  simp [consumed]

theorem readTag_ok {beyond : Option Char} {offset : Nat} {cs rest : List Char} {t : Token}
    (h : readTag beyond offset cs = .ok (t, rest)) (ht : atTag cs = true) :
    cs = t.source.toList ++ rest ∧ t.offset = offset ∧ t.isText = false ∧
      ∀ a ∈ t.attributes, a.StandsIn offset t.source.toList := by
  unfold readTag at h
  split at h
  · next hclose =>
    obtain ⟨body, rfl⟩ := List.isPrefixOf_iff_prefix.1 hclose
    rw [List.drop_left] at h
    unfold readClosing at h
    split at h
    · cases h
    · next name r hname =>
      split at h
      · cases h
      · next rest' hend =>
        cases h
        obtain ⟨source, hsource⟩ := (suffix_readClosingEnd hend).trans (suffix_readName hname)
        rw [← hsource, ← List.append_assoc, consumed_append]
        exact ⟨by simp [Token.source], rfl, rfl, nofun⟩
  · next hclose =>
    have hopen : openMark.isPrefixOf cs = true := by simpa [atTag, hclose] using ht
    obtain ⟨body, rfl⟩ := List.isPrefixOf_iff_prefix.1 hopen
    rw [List.drop_left] at h
    unfold readOpening at h
    split at h
    · cases h
    · next name r hname =>
      split at h
      · cases h
      · next as closed rest' hattributes =>
        cases h
        obtain ⟨front, rfl⟩ := suffix_readName hname
        rw [← List.append_assoc, List.length_append, Nat.add_sub_cancel] at hattributes
        obtain ⟨source, rfl, hstands⟩ := readAttributes_ok hattributes
        rw [← List.append_assoc, ← List.append_assoc, consumed_append]
        refine ⟨by simp [Token.source], rfl, rfl, fun a ha => ?_⟩
        rw [Token.source, String.toList_ofList]
        apply RawAttribute.StandsIn.after
        exact hstands a ha

/-- The tokens tile a text that starts at the offset. -/
structure Tiles (offset : Nat) (cs : List Char) (ts : List Token) : Prop where
  written : written ts = cs
  nonempty : ∀ t ∈ ts, t.source ≠ ""
  offset : ∀ before t after, ts = before ++ t :: after →
    t.offset = offset + (Markup.written before).length
  apart : ts.IsChain fun t u => ¬ (t.isText = true ∧ u.isText = true)
  attributes : ∀ t ∈ ts, ∀ a ∈ t.attributes, a.StandsIn t.offset t.source.toList
  runs : ∀ before value place after, ts = before ++ .text value place :: after →
    ∃ unfinished, IsRun unfinished value.toList ∧ (unfinished = true → after = [])

theorem tiles_nil (offset : Nat) : Tiles offset [] [] where
  written := rfl
  nonempty := nofun
  offset before t after h := by simp at h
  apart := .nil
  attributes := nofun
  runs before value place after h := by simp at h

theorem Tiles.cons {offset : Nat} {rest : List Char} {t : Token} {ts : List Token}
    (h : Tiles (offset + t.source.toList.length) rest ts) (hsource : t.source ≠ "")
    (hoffset : t.offset = offset) (hnext : t.isText = true → ∀ u ∈ ts.head?, u.isText = false)
    (hattributes : ∀ a ∈ t.attributes, a.StandsIn t.offset t.source.toList)
    (hrun : ∀ value place, t = .text value place →
      ∃ unfinished, IsRun unfinished value.toList ∧ (unfinished = true → ts = [])) :
    Tiles offset (t.source.toList ++ rest) (t :: ts) where
  written := by rw [written_cons, h.written]
  nonempty := List.forall_mem_cons.2 ⟨hsource, h.nonempty⟩
  offset before u after hu := by
    cases before with
    | nil =>
      cases hu
      exact hoffset
    | cons b before =>
      cases hu
      rw [h.offset before u after rfl, written_cons, List.length_append, Nat.add_assoc]
  apart := by
    cases ts with
    | nil => exact .singleton t
    | cons u ts =>
      refine .cons_cons ?_ h.apart
      rintro ⟨ht, hu⟩
      rw [hnext ht u rfl] at hu
      cases hu
  attributes := List.forall_mem_cons.2 ⟨hattributes, h.attributes⟩
  runs before value place after hu := by
    cases before with
    | nil =>
      cases hu
      exact hrun value place rfl
    | cons b before =>
      cases hu
      exact h.runs before value place after rfl

theorem Tiles.cons_text {offset : Nat} {run rest : List Char} {ts : List Token}
    (h : Tiles (offset + run.length) rest ts) (hne : run ≠ [])
    (hnext : ∀ u ∈ ts.head?, u.isText = false) {unfinished : Bool} (hrun : IsRun unfinished run)
    (hend : unfinished = true → ts = []) :
    Tiles offset (run ++ rest) (.text (String.ofList run) offset :: ts) := by
  have hsource : (Token.text (String.ofList run) offset).source.toList = run :=
    String.toList_ofList
  rw [← hsource] at h
  have htiles := h.cons ?_ rfl (fun _ => hnext) nofun ?_
  · rwa [hsource] at htiles
  · intro hempty
    exact hne (by rw [← hsource, hempty]; rfl)
  · rintro _ _ ⟨⟩
    exact ⟨unfinished, by rwa [String.toList_ofList], hend⟩

theorem eq_nil_of_lex_nil {beyond : Option Char} {offset : Nat} {ts : List Token}
    (h : lex beyond offset [] = .ok ts) : ts = [] := by
  unfold lex at h
  exact (Except.ok.inj h).symm

theorem isText_head_lex {beyond : Option Char} {offset : Nat} {cs : List Char} {ts : List Token}
    (h : lex beyond offset cs = .ok ts) (ht : atTag cs = true) :
    ∀ t ∈ ts.head?, t.isText = false := by
  unfold lex at h
  split at h
  · next hnil =>
    cases hnil
    cases ht
  · split at h
    · cases h
    · next t rest hr =>
      split at h
      · cases h
      · cases h
        rintro _ ⟨⟩
        exact (readTag_ok hr ht).2.2.1

theorem lex_tiles {beyond : Option Char} {offset : Nat} {cs : List Char} {ts : List Token}
    (h : lex beyond offset cs = .ok ts) : Tiles offset cs ts := by
  fun_induction lex beyond offset cs generalizing ts with
  | case1 offset =>
    cases h
    exact tiles_nil offset
  | case2 => cases h
  | case3 => cases h
  | case4 offset cs hne ht t rest hr hlt ts' hts ih =>
    cases h
    obtain ⟨hcs, hoffset, htag, hstands⟩ := readTag_ok hr ht
    subst hcs
    have hih := ih hts
    rw [List.length_append, Nat.add_sub_cancel] at hih
    refine hih.cons ?_ hoffset (fun htext => ?_) (hoffset ▸ hstands) ?_
    · intro hempty
      simp [hempty] at hlt
    · rw [htag] at htext
      cases htext
    · rintro value place rfl
      cases htag
  | case5 => cases h
  | case6 offset cs hne ht hlt ts' hts ih =>
    cases h
    have hplain : atTag cs = false := Bool.eq_false_iff.2 ht
    have hsplit := textRun_append .plain cs
    have hnext := textRun_snd .plain cs
    obtain ⟨unfinished, hrun, hend⟩ := (textRun_takes cs.length cs (Nat.le_refl _)).1
    generalize textRun .plain cs = r at *
    obtain ⟨run, rest⟩ := r
    subst hsplit
    refine (ih hts).cons_text ?_ (fun u hu => ?_) hrun fun hu => ?_
    · rintro rfl
      simp at hlt
    · rcases hnext with rfl | hnext
      · rw [eq_nil_of_lex_nil hts] at hu
        cases hu
      · exact isText_head_lex hts hnext u hu
    · obtain rfl : rest = [] := hend hu
      exact eq_nil_of_lex_nil hts

theorem Window.drop_content (w : Window) (n : Nat) :
    w.content.drop n <+: w.text.drop (w.start + n) := by
  rw [Window.content, List.drop_drop, List.drop_take]
  exact List.take_prefix _ _

/-- Where the tokens of a window of a text can be read, they tile what is inside, and every
attribute value is what the text has at its offset. -/
theorem Window.tokens_tile (w : Window) (hstop : w.stop ≤ w.text.length) {ts : List Token}
    (h : w.tokens = .ok ts) :
    Tiles w.start w.content ts ∧
      ∀ t ∈ ts, ∀ a ∈ t.attributes, (w.text.drop a.offset).take a.value.length = a.value := by
  have htiles : Tiles w.start w.content ts := by
    unfold Window.tokens at h
    split at h
    · cases h
    · next ts' hlex =>
      have hend : (w.text.length < w.stop && w.start < w.stop && !endsInText ts') = false := by
        simp [Nat.not_lt.2 hstop]
      rw [hend] at h
      cases h
      exact lex_tiles hlex
  refine ⟨htiles, fun t ht a ha => ?_⟩
  obtain ⟨before, after, hts⟩ := List.append_of_mem ht
  obtain ⟨front, back, hsource, hoffset, -⟩ := htiles.attributes t ht a ha
  rw [htiles.offset before t after hts] at hoffset
  have hcontent : w.content =
      (written before ++ front ++ [a.quote]) ++ (a.value ++ a.quote :: back ++ written after) := by
    rw [← htiles.written, hts, written, List.flatMap_append, List.flatMap_cons, hsource]
    simp [written]
  have hvalue : a.value <+: w.text.drop a.offset := by
    have hdrop := w.drop_content (written before ++ front ++ [a.quote]).length
    rw [hcontent, List.drop_left] at hdrop
    have hplace : w.start + (written before ++ front ++ [a.quote]).length = a.offset := by
      rw [hoffset]
      simp only [List.length_append, List.length_singleton]
      omega
    rw [hplace] at hdrop
    exact ((List.prefix_append a.value (a.quote :: back)).trans (List.prefix_append _ _)).trans hdrop
  exact (List.prefix_iff_eq_take.1 hvalue).symm

/-- A window that begins with a comment that holds a tag and ends inside one that does. -/
theorem Window.tokens_tile_comments :
    let text := "x<!--<pop:a>-->y<pop:a b='\"'/></pop:a\n><!-- </pop:a>-->".toList
    let w : Window := ⟨text, 1, 51⟩
    let ts : List Token :=
      [.text "<!--<pop:a>-->y" 1,
        .opening ⟨"a", [⟨"b", ['"'], 26, '\''⟩], true, "<pop:a b='\"'/>", 16⟩,
        .closing "a" "</pop:a\n>" 30, .text "<!-- </pop:a" 39]
    w.stop ≤ w.text.length ∧ w.tokens = .ok ts ∧ Tiles w.start w.content ts := by
  intro text w ts
  have hstop : w.stop ≤ w.text.length := by decide +kernel
  have htokens : w.tokens = .ok ts := by decide +kernel
  exact ⟨hstop, htokens, (w.tokens_tile hstop htokens).1⟩

end TagTemplate.Markup
