import TagTemplate.Markup.Token

/-!
# Splitting a text into tokens

Tokens follow each other without gaps: a text run reaches to the next tag outside comments, and a
tag reaches to its closing bracket.
-/

namespace TagTemplate.Markup

def atTag (cs : List Char) : Bool := openMark.isPrefixOf cs || closeMark.isPrefixOf cs

/-- Where a text run stands: `pass` characters of a comment's mark are still to be taken unseen,
and it is inside a comment or not. -/
structure RunState where
  pass : Nat
  inComment : Bool
  deriving DecidableEq, Repr

def RunState.next? (state : RunState) (cs : List Char) : Option RunState :=
  match state with
  | ⟨pass + 1, inComment⟩ => some ⟨pass, inComment⟩
  | ⟨0, true⟩ => if commentClose.isPrefixOf cs then some ⟨2, false⟩ else some ⟨0, true⟩
  | ⟨0, false⟩ =>
    if commentOpen.isPrefixOf cs then some ⟨3, true⟩
    else if atTag cs then none
    else some ⟨0, false⟩

def textRun (state : RunState) : List Char → List Char × List Char
  | [] => ([], [])
  | c :: cs =>
    match state.next? (c :: cs) with
    | none => ([], c :: cs)
    | some state =>
      let run := textRun state cs
      (c :: run.1, run.2)

def RunState.plain : RunState := ⟨0, false⟩

def readTag (beyond : Option Char) (offset : Nat) (cs : List Char) :
    Except Fault (Token × List Char) :=
  if closeMark.isPrefixOf cs then readClosing offset cs (cs.drop closeMark.length)
  else readOpening beyond offset cs (cs.drop openMark.length)

def fragmentWidth : Nat := 40

def fragment (cs : List Char) : String :=
  String.ofList ((cs.take fragmentWidth).takeWhile (· != '\n'))

theorem textRun_append (state : RunState) (cs : List Char) :
    (textRun state cs).1 ++ (textRun state cs).2 = cs := by
  induction cs generalizing state with
  | nil => simp [textRun]
  | cons c cs ih =>
    unfold textRun
    split
    · simp
    · simp [ih]

theorem not_atTag_of_commentOpen {cs : List Char} (h : commentOpen.isPrefixOf cs = true) :
    atTag cs = false := by
  obtain ⟨r, rfl⟩ := List.isPrefixOf_iff_prefix.1 h
  rfl

theorem length_textRun_plain {cs : List Char} (hne : cs ≠ []) (h : atTag cs = false) :
    (textRun .plain cs).2.length < cs.length := by
  match cs with
  | [] => exact absurd rfl hne
  | c :: cs =>
    have key : ∃ state, RunState.plain.next? (c :: cs) = some state := by
      simp only [RunState.plain, RunState.next?]
      split
      · exact ⟨_, rfl⟩
      · simp [h]
    obtain ⟨state, hs⟩ := key
    have := congrArg List.length (textRun_append state cs)
    simp only [List.length_append] at this
    simp only [textRun, hs, List.length_cons]
    omega

theorem length_readAttributes {beyond : Option Char} {offset : Nat} {cs rest : List Char}
    {as : List RawAttribute} {closed : Bool}
    (h : readAttributes beyond offset cs = .ok (as, closed, rest)) :
    rest.length < cs.length ∧ ∀ a ∈ as, a.value.length < cs.length := by
  fun_induction readAttributes beyond offset cs generalizing as closed rest with
  | case1 offset cs closed' rest' ht =>
    simp only [Except.ok.injEq, Prod.mk.injEq] at h
    obtain ⟨rfl, rfl, rfl⟩ := h
    exact ⟨length_readTagEnd ht, by simp⟩
  | case2 => simp at h
  | case3 => simp at h
  | case4 offset cs ht a rest' ha hlt as' closed' after hr ih =>
    simp only [Except.ok.injEq, Prod.mk.injEq] at h
    obtain ⟨rfl, rfl, rfl⟩ := h
    obtain ⟨h₁, h₂⟩ := ih hr
    refine ⟨by omega, ?_⟩
    intro b hb
    rcases List.mem_cons.1 hb with rfl | hb
    · exact (length_readAttribute ha).2
    · have := h₂ b hb
      omega

def Token.attributes : Token → List RawAttribute
  | .opening tag => tag.attributes
  | _ => []

theorem length_readTag {beyond : Option Char} {offset : Nat} {cs rest : List Char} {t : Token}
    (h : readTag beyond offset cs = .ok (t, rest)) :
    rest.length < cs.length ∧ ∀ a ∈ t.attributes, a.value.length < cs.length := by
  unfold readTag at h
  split at h
  · unfold readClosing at h
    split at h
    · simp at h
    · rename_i name r hn
      split at h
      · simp at h
      · rename_i rest' hr
        simp only [Except.ok.injEq, Prod.mk.injEq] at h
        obtain ⟨rfl, rfl⟩ := h
        have h₁ := length_readName hn
        have h₂ := length_readClosingEnd hr
        simp only [List.length_drop] at h₁
        exact ⟨by omega, by simp [Token.attributes]⟩
  · unfold readOpening at h
    split at h
    · simp at h
    · rename_i name r hn
      split at h
      · simp at h
      · rename_i as closed rest' hr
        simp only [Except.ok.injEq, Prod.mk.injEq] at h
        obtain ⟨rfl, rfl⟩ := h
        have h₁ := length_readName hn
        obtain ⟨h₂, h₃⟩ := length_readAttributes hr
        simp only [List.length_drop] at h₁
        refine ⟨by omega, fun a ha => ?_⟩
        have := h₃ a ha
        omega

def lex (beyond : Option Char) (offset : Nat) (cs : List Char) : Except Failure (List Token) :=
  if hne : cs = [] then .ok []
  else if ht : atTag cs then
    match h : readTag beyond offset cs with
    | .error fault => .error ⟨fault, offset, fragment cs⟩
    | .ok (t, rest) =>
      have : rest.length < cs.length := (length_readTag h).1
      match lex beyond (offset + (cs.length - rest.length)) rest with
      | .error failure => .error failure
      | .ok ts => .ok (t :: ts)
  else
    have : (textRun .plain cs).2.length < cs.length :=
      length_textRun_plain hne (by simpa using ht)
    match lex beyond (offset + (textRun .plain cs).1.length) (textRun .plain cs).2 with
    | .error failure => .error failure
    | .ok ts => .ok (.text (String.ofList (textRun .plain cs).1) offset :: ts)
termination_by cs.length

theorem length_lex {beyond : Option Char} {offset : Nat} {cs : List Char} {ts : List Token}
    (h : lex beyond offset cs = .ok ts) :
    ∀ t ∈ ts, ∀ a ∈ t.attributes, a.value.length < cs.length := by
  fun_induction lex beyond offset cs generalizing ts with
  | case1 => simp only [Except.ok.injEq] at h; subst h; simp
  | case2 => simp at h
  | case3 => simp at h
  | case4 offset cs hne ht t rest hr hlt ts' hts ih =>
    simp only [Except.ok.injEq] at h
    subst h
    intro u hu a ha
    rcases List.mem_cons.1 hu with rfl | hu
    · exact (length_readTag hr).2 a ha
    · exact Nat.lt_trans (ih hts u hu a ha) hlt
  | case5 => simp at h
  | case6 offset cs hne ht hlt ts' hts ih =>
    simp only [Except.ok.injEq] at h
    subst h
    intro u hu a ha
    rcases List.mem_cons.1 hu with rfl | hu
    · simp [Token.attributes] at ha
    · exact Nat.lt_trans (ih hts u hu a ha) hlt

/-- A part of a text, from the offset `start` to before the offset `stop`. -/
structure Window where
  text : List Char
  start : Nat
  stop : Nat
  deriving DecidableEq, Repr

def Window.whole (text : List Char) : Window := ⟨text, 0, text.length⟩

def Window.content (w : Window) : List Char := (w.text.take w.stop).drop w.start

def Window.beyond (w : Window) : Option Char := w.text[w.stop]?

def endsInText (ts : List Token) : Bool :=
  match ts.getLast? with
  | some (.text ..) => true
  | _ => false

/-- The tokens of a window. A window that reaches beyond the text ends in a text run, if need be in
an empty one. -/
def Window.tokens (w : Window) : Except Failure (List Token) :=
  match lex w.beyond w.start w.content with
  | .error failure => .error failure
  | .ok ts =>
    if w.text.length < w.stop && w.start < w.stop && !endsInText ts then
      .ok (ts ++ [.text "" (max w.start w.text.length)])
    else .ok ts

/-- Tokens, and before them a text run that may begin at an offset below zero. -/
structure TokensAfter where
  front : Option (String × Int)
  tokens : List Token
  deriving DecidableEq, Repr

/-- The tokens between two offsets. A start below zero counts from the end for the text run in
front, while tags are looked for from the beginning. -/
def tokensBetween (text : List Char) (start stop : Int) : Except Failure TokensAfter :=
  if 0 ≤ start then
    (Window.mk text start.toNat stop.toNat).tokens.map (⟨none, ·⟩)
  else if stop ≤ start then .ok ⟨none, []⟩
  else
    match (Window.mk text 0 stop.toNat).tokens with
    | .error failure => .error failure
    | .ok ts =>
      let tags := match ts with
        | .text .. :: ts => ts
        | ts => ts
      let frontStop := match tags with
        | t :: _ => (t.offset : Int)
        | [] => stop
      .ok ⟨some (String.ofList (Text.slice text start frontStop), start), tags⟩

end TagTemplate.Markup
