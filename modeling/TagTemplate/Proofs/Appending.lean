import TagTemplate.Proofs.Printing
import TagTemplate.Proofs.Tiling

/-!
# A text in front of another one

Whatever follows a text that can be read, its tags are read alike, and so are its runs of text up to
the last one. That one ends before a tag, unless it ends inside a comment: then it goes on up to the
end of the comment in what follows.
-/

namespace TagTemplate.Markup

open TagTemplate.Text (isBlank)

section Reading

variable {cs rest : List Char} (more : List Char)

theorem dropWhile_append_of_ne_nil {p : Char → Bool} (h : cs.dropWhile p ≠ []) :
    (cs ++ more).dropWhile p = cs.dropWhile p ++ more := by
  rw [List.dropWhile_append, if_neg (by simpa using h)]

theorem takeWhile_append_of_ne_nil {p : Char → Bool} (h : cs.dropWhile p ≠ []) :
    (cs ++ more).takeWhile p = cs.takeWhile p := by
  have hlength : (cs.takeWhile p).length ≠ cs.length := by
    intro heq
    have hsplit := congrArg List.length (List.takeWhile_append_dropWhile (p := p) (l := cs))
    rw [List.length_append, heq, Nat.add_eq_left] at hsplit
    exact h (List.length_eq_zero_iff.1 hsplit)
  rw [List.takeWhile_append, if_neg hlength]

theorem skipBlank_append (h : skipBlank cs ≠ [] ∨ skipBlank more = more) :
    skipBlank (cs ++ more) = skipBlank cs ++ more := by
  by_cases hcs : skipBlank cs = []
  · have hmore := h.resolve_left (not_not_intro hcs)
    have hempty : (cs.dropWhile isBlank).isEmpty = true := List.isEmpty_iff.2 hcs
    rw [hcs, List.nil_append, skipBlank, List.dropWhile_append, if_pos hempty]
    exact hmore
  · exact dropWhile_append_of_ne_nil more hcs

theorem readName_append {name : String} (h : readName cs = some (name, rest)) (hrest : rest ≠ []) :
    readName (cs ++ more) = some (name, rest ++ more) := by
  cases cs with
  | nil => cases h
  | cons c cs =>
    rw [readName] at h
    split at h
    · next hc =>
      simp only [Option.some.injEq, Prod.mk.injEq] at h
      obtain ⟨rfl, rfl⟩ := h
      rw [List.cons_append, readName, if_pos hc, takeWhile_append_of_ne_nil more hrest,
        dropWhile_append_of_ne_nil more hrest]
    · cases h

theorem readTagEnd_append {closed : Bool} (h : readTagEnd cs = some (closed, rest)) :
    readTagEnd (cs ++ more) = some (closed, rest ++ more) := by
  have hne : skipBlank cs ≠ [] := by
    intro hnil
    simp [readTagEnd, hnil] at h
  unfold readTagEnd at h ⊢
  rw [skipBlank_append more (.inl hne)]
  split at h
  · next hskip =>
    cases h
    rw [hskip]
    rfl
  · next hskip =>
    cases h
    rw [hskip]
    rfl
  · cases h

theorem readClosingEnd_append (h : readClosingEnd cs = some rest) :
    readClosingEnd (cs ++ more) = some (rest ++ more) := by
  have hne : skipBlank cs ≠ [] := by
    intro hnil
    simp [readClosingEnd, hnil] at h
  unfold readClosingEnd at h ⊢
  rw [skipBlank_append more (.inl hne)]
  split at h
  · next hskip =>
    cases h
    rw [hskip]
    rfl
  · cases h

theorem readAttributeName_append {name : String} (h : readAttributeName cs = some (name, rest))
    (hrest : rest ≠ [] ∨ skipBlank more = more) :
    readAttributeName (cs ++ more) = some (name, rest ++ more) := by
  cases cs with
  | nil => cases h
  | cons c cs =>
    rw [readAttributeName] at h
    split at h
    · next hc =>
      split at h
      · cases h
      · next name' r hname =>
        split at h
        · next r' hequals =>
          simp only [Option.some.injEq, Prod.mk.injEq] at h
          obtain ⟨rfl, rfl⟩ := h
          have hr : skipBlank r ≠ [] := by simp [hequals]
          have hne : r ≠ [] := by
            rintro rfl
            exact hr rfl
          have hcs : skipBlank cs ≠ [] := by
            intro hnil
            simp [hnil, readName] at hname
          rw [List.cons_append, readAttributeName, if_pos hc, skipBlank_append more (.inl hcs),
            readName_append more hname hne]
          dsimp only
          rw [skipBlank_append more (.inl hr), hequals]
          exact congrArg (fun r => some (name', r)) (skipBlank_append more hrest)
        · cases h
    · cases h

theorem readTagEnd_of_readAttributeName {name : String}
    (h : readAttributeName cs = some (name, rest)) : readTagEnd cs = none := by
  cases cs with
  | nil => cases h
  | cons c cs =>
    rw [readAttributeName] at h
    split at h
    · next hc =>
      have hskip : skipBlank (c :: cs) = skipBlank cs := List.dropWhile_cons_of_pos hc
      rw [readTagEnd, hskip]
      cases hcs : skipBlank cs with
      | nil => rfl
      | cons d ds =>
        rw [hcs, readName] at h
        by_cases hd : isNameStart d = true
        · have hrange := toNat_of_isNameStart hd
          split
          · next heq =>
            obtain ⟨rfl, -⟩ := List.cons.inj heq
            exact absurd hrange (by decide)
          · next heq =>
            obtain ⟨rfl, -⟩ := List.cons.inj heq
            exact absurd hrange (by decide)
          · rfl
        · rw [if_neg hd] at h
          cases h
    · cases h

theorem readValue_append {beyond : Option Char} (beyond' : Option Char) {q : Char}
    {value inner : List Char} (h : readValue beyond cs = .ok (q, value, inner, rest)) :
    readValue beyond' (cs ++ more) = .ok (q, value, inner ++ more, rest ++ more) := by
  obtain ⟨rfl, rfl, hquote⟩ := readValue_ok h
  have hq : isQuote q = true := by
    by_contra hq
    simp [readValue, hq] at h
  rw [List.cons_append, List.append_assoc, List.cons_append]
  exact readValue_quoted hq hquote beyond' (rest ++ more)

theorem readAttribute_append {beyond : Option Char} (beyond' : Option Char) {offset : Nat}
    {a : RawAttribute} (h : readAttribute beyond offset cs = .ok (a, rest)) :
    readAttribute beyond' offset (cs ++ more) = .ok (a, rest ++ more) := by
  unfold readAttribute at h
  split at h
  · cases h
  · next name r hname =>
    split at h
    · cases h
    · next q value inner rest' hvalue =>
      simp only [Except.ok.injEq, Prod.mk.injEq] at h
      obtain ⟨rfl, rfl⟩ := h
      have hr : r ≠ [] := by
        rw [(readValue_ok hvalue).1]
        exact List.cons_ne_nil _ _
      rw [readAttribute, readAttributeName_append more hname (.inl hr)]
      dsimp only
      rw [readValue_append more beyond' hvalue]
      simp only [List.length_append, Nat.add_sub_add_right]

theorem readTagEnd_of_readAttribute {beyond : Option Char} {offset : Nat} {a : RawAttribute}
    (h : readAttribute beyond offset cs = .ok (a, rest)) : readTagEnd cs = none := by
  unfold readAttribute at h
  split at h
  · cases h
  · next hname => exact readTagEnd_of_readAttributeName hname

theorem readAttributes_append {beyond : Option Char} (beyond' : Option Char) {offset : Nat}
    {as : List RawAttribute} {closed : Bool}
    (h : readAttributes beyond offset cs = .ok (as, closed, rest)) :
    readAttributes beyond' offset (cs ++ more) = .ok (as, closed, rest ++ more) := by
  fun_induction readAttributes beyond offset cs generalizing as closed rest with
  | case1 offset cs closed' rest' hend =>
    cases h
    exact readAttributes_of_end (readTagEnd_append more hend)
  | case2 => cases h
  | case3 => cases h
  | case4 offset cs _ a rest' ha _ as' closed' after hr ih =>
    cases h
    have happend := readAttribute_append more beyond' ha
    rw [readAttributes_of_attribute (readTagEnd_of_readAttribute happend), happend, Except.bind,
      List.length_append, List.length_append, Nat.add_sub_add_right, ih hr]
    rfl

theorem consumed_append_append :
    consumed (cs ++ more) (rest ++ more) = consumed cs rest := by
  have hlength : (cs ++ more).length - (rest ++ more).length = cs.length - rest.length := by
    simp only [List.length_append, Nat.add_sub_add_right]
  rw [consumed, consumed, hlength, List.take_append_of_le_length (Nat.sub_le _ _)]

theorem isPrefixOf_append {mark : List Char} (h : mark.isPrefixOf cs = true) :
    mark.isPrefixOf (cs ++ more) = true := by
  rw [List.isPrefixOf_iff_prefix] at h ⊢
  exact h.trans (List.prefix_append _ _)

theorem atTag_append (h : atTag cs = true) : atTag (cs ++ more) = true := by
  rw [atTag, Bool.or_eq_true] at h ⊢
  exact h.imp (isPrefixOf_append more) (isPrefixOf_append more)

theorem readTag_append {beyond : Option Char} (beyond' : Option Char) {offset : Nat} {t : Token}
    (h : readTag beyond offset cs = .ok (t, rest)) (ht : atTag cs = true) :
    readTag beyond' offset (cs ++ more) = .ok (t, rest ++ more) := by
  unfold readTag at h
  split at h
  · next hclose =>
    have hdrop : (cs ++ more).drop closeMark.length = cs.drop closeMark.length ++ more :=
      List.drop_append_of_le_length (List.isPrefixOf_iff_prefix.1 hclose).length_le
    unfold readClosing at h
    split at h
    · cases h
    · next name r hname =>
      split at h
      · cases h
      · next rest' hend =>
        cases h
        have hr : r ≠ [] := List.ne_nil_of_length_pos (Nat.zero_lt_of_lt (length_readClosingEnd hend))
        rw [readTag, if_pos (isPrefixOf_append more hclose), hdrop, readClosing,
          readName_append more hname hr]
        dsimp only
        rw [readClosingEnd_append more hend]
        dsimp only
        rw [consumed_append_append]
  · next hclose =>
    have hopen : openMark.isPrefixOf cs = true := by simpa [atTag, hclose] using ht
    have hclose' : closeMark.isPrefixOf (cs ++ more) = false := by
      obtain ⟨body, rfl⟩ := List.isPrefixOf_iff_prefix.1 hopen
      rfl
    have hdrop : (cs ++ more).drop openMark.length = cs.drop openMark.length ++ more :=
      List.drop_append_of_le_length (List.isPrefixOf_iff_prefix.1 hopen).length_le
    unfold readOpening at h
    split at h
    · cases h
    · next name r hname =>
      split at h
      · cases h
      · next as closed rest' hattributes =>
        cases h
        have hr : r ≠ [] :=
          List.ne_nil_of_length_pos (Nat.zero_lt_of_lt (length_readAttributes hattributes).1)
        rw [readTag, hclose', if_neg Bool.false_ne_true, hdrop, readOpening,
          readName_append more hname hr]
        dsimp only
        rw [List.length_append, List.length_append, Nat.add_sub_add_right,
          readAttributes_append more beyond' hattributes]
        dsimp only
        rw [consumed_append_append]

end Reading

def BreaksMarks (c : Char) : Prop :=
  ∀ mark ∈ [openMark, closeMark, commentOpen, commentClose], c ∉ mark.tail

instance (c : Char) : Decidable (BreaksMarks c) :=
  inferInstanceAs (Decidable (∀ mark ∈ _, c ∉ _))

theorem EndsText.breaksMarks {rest : List Char} (h : EndsText rest) :
    ∀ c ∈ rest.head?, BreaksMarks c := by
  intro c hc
  rw [h.head c hc]
  decide

section Marks

variable {cs rest : List Char} (hcs : cs ≠ []) (hrest : ∀ c ∈ rest.head?, BreaksMarks c)

include hcs hrest

theorem isPrefixOf_append_eq {mark : List Char}
    (hmark : mark ∈ [openMark, closeMark, commentOpen, commentClose]) :
    mark.isPrefixOf (cs ++ rest) = mark.isPrefixOf cs := by
  cases mark with
  | nil => rfl
  | cons x m =>
    rw [Bool.eq_iff_iff, List.isPrefixOf_iff_prefix, List.isPrefixOf_iff_prefix]
    refine ⟨prefix_of_prefix_append hcs ?_, (·.trans (List.prefix_append cs rest))⟩
    exact fun c hc => hrest c hc _ hmark

theorem atTag_append_eq : atTag (cs ++ rest) = atTag cs :=
  congrArg₂ (· || ·) (isPrefixOf_append_eq hcs hrest (by decide))
    (isPrefixOf_append_eq hcs hrest (by decide))

end Marks

section Runs

variable {rest : List Char} (hrest : ∀ c ∈ rest.head?, BreaksMarks c)

include hrest

theorem next?_append (state : RunState) (c : Char) (cs : List Char) :
    state.next? (c :: (cs ++ rest)) = state.next? (c :: cs) := by
  have hne : c :: cs ≠ [] := List.cons_ne_nil c cs
  have hopen : commentOpen.isPrefixOf (c :: (cs ++ rest)) = commentOpen.isPrefixOf (c :: cs) :=
    isPrefixOf_append_eq hne hrest (by decide)
  have hclose : commentClose.isPrefixOf (c :: (cs ++ rest)) = commentClose.isPrefixOf (c :: cs) :=
    isPrefixOf_append_eq hne hrest (by decide)
  have htag : atTag (c :: (cs ++ rest)) = atTag (c :: cs) := atTag_append_eq hne hrest
  unfold RunState.next?
  rw [hopen, hclose, htag]

theorem textRun_append_of_stop {state : RunState} {cs : List Char}
    (hstop : (textRun state cs).2 ≠ []) :
    textRun state (cs ++ rest) = ((textRun state cs).1, (textRun state cs).2 ++ rest) := by
  induction cs generalizing state with
  | nil => exact absurd rfl hstop
  | cons c cs ih =>
    rw [List.cons_append, textRun, next?_append hrest]
    rw [textRun] at hstop ⊢
    cases hnext : state.next? (c :: cs) with
    | none => rfl
    | some next =>
      rw [hnext] at hstop
      dsimp only at hstop ⊢
      rw [ih hstop]

end Runs

theorem next?_pass_le {state next : RunState} {c : Char} {cs : List Char}
    (hpass : state.pass ≤ (c :: cs).length) (h : state.next? (c :: cs) = some next) :
    next.pass ≤ cs.length := by
  obtain ⟨_ | pass, _ | _⟩ := state
  · simp only [RunState.next?] at h
    split at h
    · next hopen =>
      cases h
      exact Nat.le_of_succ_le_succ (List.isPrefixOf_iff_prefix.1 hopen).length_le
    · split at h
      · cases h
      · cases h
        exact Nat.zero_le _
  · simp only [RunState.next?] at h
    split at h
    · next hclose =>
      cases h
      exact Nat.le_of_succ_le_succ (List.isPrefixOf_iff_prefix.1 hclose).length_le
    · cases h
      exact Nat.zero_le _
  · cases h
    exact Nat.le_of_succ_le_succ hpass
  · cases h
    exact Nat.le_of_succ_le_succ hpass

theorem textRun_append_of_all {state : RunState} {cs : List Char} (hpass : state.pass ≤ cs.length)
    (hall : (textRun state cs).2 = []) : ∃ inComment, ∀ rest : List Char,
      (∀ c ∈ rest.head?, BreaksMarks c) → textRun state (cs ++ rest) =
        (cs ++ (textRun ⟨0, inComment⟩ rest).1, (textRun ⟨0, inComment⟩ rest).2) := by
  induction cs generalizing state with
  | nil =>
    obtain ⟨pass, inComment⟩ := state
    obtain rfl : pass = 0 := Nat.le_zero.1 hpass
    exact ⟨inComment, fun rest _ => rfl⟩
  | cons c cs ih =>
    rw [textRun] at hall
    cases hnext : state.next? (c :: cs) with
    | none =>
      rw [hnext] at hall
      cases hall
    | some next =>
      rw [hnext] at hall
      obtain ⟨inComment, hrun⟩ := ih (next?_pass_le hpass hnext) hall
      refine ⟨inComment, fun rest hrest => ?_⟩
      rw [List.cons_append, textRun, next?_append hrest, hnext]
      dsimp only
      rw [hrun rest hrest]
      rfl

theorem textRun_of_endsText {rest : List Char} (h : EndsText rest) :
    textRun .plain rest = ([], rest) := by
  rcases h with rfl | h
  · rfl
  · refine textRun_atTag (fun hopen => ?_) h
    rw [not_atTag_of_commentOpen (List.isPrefixOf_iff_prefix.2 hopen)] at h
    cases h

def ReadsWhole (offset : Nat) (cs : List Char) (ts : List Token) : Prop :=
  ∀ rest, EndsText rest → ∃ stop, lex none offset (cs ++ rest) = (lex none stop rest).map (ts ++ ·)

def ReadsOpen (offset : Nat) (cs : List Char) (ts : List Token) : Prop :=
  ∃ front run place, ts = front ++ [.text run place] ∧ ∀ rest, EndsText rest → ∃ run' stop,
    lex none offset (cs ++ rest) =
      (lex none stop (textRun ⟨0, true⟩ rest).2).map (front ++ .text run' place :: ·)

theorem map_map {ε α β γ : Type} (x : Except ε α) (f : α → β) (g : β → γ) :
    (x.map f).map g = x.map fun a => g (f a) := by
  cases x <;> rfl

section Tokens

variable {offset : Nat} {cs : List Char} {t : Token}

theorem ReadsWhole.cons {stop : Nat} {rest : List Char} {ts : List Token}
    (h : ReadsWhole stop rest ts) (ht : ∀ more, EndsText more →
      lex none offset (cs ++ more) = (lex none stop (rest ++ more)).map (t :: ·)) :
    ReadsWhole offset cs (t :: ts) := by
  intro more hmore
  obtain ⟨stop', hlex⟩ := h more hmore
  refine ⟨stop', ?_⟩
  rw [ht more hmore, hlex, map_map]
  rfl

theorem ReadsOpen.cons {stop : Nat} {rest : List Char} {ts : List Token}
    (h : ReadsOpen stop rest ts) (ht : ∀ more, EndsText more →
      lex none offset (cs ++ more) = (lex none stop (rest ++ more)).map (t :: ·)) :
    ReadsOpen offset cs (t :: ts) := by
  obtain ⟨front, run, place, rfl, hopen⟩ := h
  refine ⟨t :: front, run, place, rfl, fun more hmore => ?_⟩
  obtain ⟨run', stop', hlex⟩ := hopen more hmore
  refine ⟨run', stop', ?_⟩
  rw [ht more hmore, hlex, map_map]
  rfl

end Tokens

theorem lex_append {beyond : Option Char} {offset : Nat} {cs : List Char} {ts : List Token}
    (h : lex beyond offset cs = .ok ts) : ReadsWhole offset cs ts ∨ ReadsOpen offset cs ts := by
  fun_induction lex beyond offset cs generalizing ts with
  | case1 offset =>
    cases h
    left
    intro rest _
    refine ⟨offset, ?_⟩
    rw [List.nil_append]
    cases lex none offset rest <;> rfl
  | case2 => cases h
  | case3 => cases h
  | case4 offset cs hne ht t rest hr hlt ts' hts ih =>
    cases h
    have hcons : ∀ more, EndsText more → lex none offset (cs ++ more) =
        (lex none (offset + (cs.length - rest.length)) (rest ++ more)).map (t :: ·) := by
      intro more _
      rw [lex_of_tag (atTag_append more ht), readTag_append more none hr ht, mapError_ok,
        Except.bind, List.length_append, List.length_append, Nat.add_sub_add_right]
    exact (ih hts).imp (·.cons hcons) (·.cons hcons)
  | case5 => cases h
  | case6 offset cs hne ht hlt ts' hts ih =>
    cases h
    have hplain : atTag cs = false := Bool.eq_false_iff.2 ht
    have htext : ∀ {more}, EndsText more → lex none offset (cs ++ more) =
        (lex none (offset + (textRun .plain (cs ++ more)).1.length)
          (textRun .plain (cs ++ more)).2).map
            (.text (String.ofList (textRun .plain (cs ++ more)).1) offset :: ·) := fun hmore =>
      lex_of_text (List.append_ne_nil_of_left_ne_nil hne _)
        ((atTag_append_eq hne hmore.breaksMarks).trans hplain)
    -- A run that stops in the text stops there whatever follows. One that takes all of the text may
    -- have left a comment open.
    by_cases hall : (textRun .plain cs).2 = []
    · have hrun : (textRun .plain cs).1 = cs := by
        have hsplit := textRun_append .plain cs
        rwa [hall, List.append_nil] at hsplit
      rw [hall] at hts
      rw [eq_nil_of_lex_nil hts, hrun]
      obtain ⟨inComment, happend⟩ := textRun_append_of_all (Nat.zero_le _) hall
      cases inComment with
      | false =>
        left
        intro more hmore
        have hends : textRun ⟨0, false⟩ more = ([], more) := textRun_of_endsText hmore
        rw [htext hmore, happend more hmore.breaksMarks, hends, List.append_nil]
        exact ⟨_, rfl⟩
      | true =>
        right
        refine ⟨[], String.ofList cs, offset, rfl, fun more hmore => ?_⟩
        rw [htext hmore, happend more hmore.breaksMarks]
        exact ⟨_, _, rfl⟩
    · have hcons : ∀ more, EndsText more → lex none offset (cs ++ more) =
          (lex none (offset + (textRun .plain cs).1.length) ((textRun .plain cs).2 ++ more)).map
            (.text (String.ofList (textRun .plain cs).1) offset :: ·) := by
        intro more hmore
        rw [htext hmore, textRun_append_of_stop hmore.breaksMarks hall]
      exact (ih hts).imp (·.cons hcons) (·.cons hcons)

end TagTemplate.Markup
