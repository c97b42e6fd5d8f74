import TagTemplate.Host.Evaluation
import TagTemplate.Proofs.Replay.Action

/-!
# Host functions in a host with a past

A host function without a memory returns the same after a past if it is given the same: the same
attributes and texts, and ways to render and to look names up that do the same after the past.
-/

namespace TagTemplate

open TagTemplate.Action

namespace Content

variable {n : Nat} {c : Content}

theorem raw_renumber (d : Nat) (c : Content) : (c.renumber d).raw = c.raw.renumber d := by
  cases c <;> rfl

theorem Known.raw (h : c.Known n) : c.raw.Known n := by
  cases c <;> exact h

theorem text?_renumber (d : Nat) (c : Content) : (c.renumber d).text? = c.text? := by
  cases c <;> rfl

theorem present_renumber (d : Nat) (c : Content) : (c.renumber d).present = c.present := by
  cases c with
  | array items => cases items <;> rfl
  | _ => rfl

end Content

theorem HostValue.expressionText_renumber (d : Nat) (v : HostValue) :
    (v.renumber d).expressionText = v.expressionText := by
  cases v with
  | content c => exact congrArg (·.getD "") (c.text?_renumber d)
  | _ => rfl

theorem statelessEntries_texts (options : Options) :
    statelessEntries false (options.map fun p => (p.1, .string p.2)) := by
  induction options with
  | nil => rfl
  | cons p options ih => exact ih

theorem statelessItems_of_forall {streams : Bool} {vs : List HostValue}
    (h : ∀ v ∈ vs, v.isStateless streams) : statelessItems streams vs := by
  induction vs with
  | nil => rfl
  | cons v vs ih =>
    rw [statelessItems, Bool.and_eq_true]
    exact ⟨h v List.mem_cons_self, ih fun w hw => h w (List.mem_cons_of_mem _ hw)⟩

theorem statelessItems_numberedRecords (k : Int) : statelessItems false (numberedRecords k) := by
  refine statelessItems_of_forall fun v hv => ?_
  obtain ⟨i, -, rfl⟩ := List.mem_map.1 hv
  rfl

variable {past : HostState} {n m : Nat}

theorem replays_value {v : HostValue} (h : v.Known n) :
    Replays past n (Replay.Values past) (pure v) (pure (v.renumber past.nextStream)) :=
  replays_pure fun _ hm => ⟨h.mono hm, rfl⟩

theorem replays_content {c : Content} (h : c.Known n) :
    Replays past n (Replay.Contents past) (pure c) (pure (c.renumber past.nextStream)) :=
  replays_pure fun _ hm => ⟨h.mono hm, rfl⟩

theorem replays_fixed {v : HostValue} (h : v.isStateless false) :
    Replays past n (Replay.Values past) (pure v) (pure v) := by
  obtain ⟨hk, he⟩ := v.fixed n past.nextStream h
  have hv : Replays past n (Replay.Values past) (pure v) (pure (v.renumber past.nextStream)) :=
    replays_value hk
  rwa [he] at hv

namespace Replay

variable (past)

def Objects (n : Nat) (o o' : HostObject) : Prop := o.Known n ∧ o' = o.renumber past.nextStream

def Items (n : Nat) (vs vs' : List HostValue) : Prop :=
  KnownItems n vs ∧ vs' = renumberItems past.nextStream vs

def Entries (n : Nat) (es es' : List (String × HostValue)) : Prop :=
  KnownEntries n es ∧ es' = renumberEntries past.nextStream es

end Replay

mutual

theorem HostValue.replays_refresh {n : Nat} : (v : HostValue) → v.isStateless true →
    Replays past n (Replay.Values past) v.refresh v.refresh
  | .list items, h => by
    rw [HostValue.refresh]
    refine Replays.bind (replays_refreshItems items h) ?_
    rintro m - items _ ⟨hi, rfl⟩
    exact replays_value (v := .list items) hi
  | .stream _ items, h => by
    rw [HostValue.isStateless, Bool.true_and] at h
    rw [HostValue.refresh]
    refine Replays.bind (replays_refreshItems items h) ?_
    rintro m - items _ ⟨hi, rfl⟩
    refine Replays.bind replays_freshStream ?_
    rintro k hk id _ ⟨hid, rfl⟩
    exact replays_value (v := .stream id items) ⟨hid, hi.mono hk⟩
  | .object o, h => by
    rw [HostValue.refresh]
    refine Replays.bind (HostObject.replays_refresh o h) ?_
    rintro m - o _ ⟨ho, rfl⟩
    exact replays_value (v := .object o) ho
  | .content c, h => replays_fixed (v := .content c) h
  | .function f, h => replays_value (v := .function f) h
  | .null, _ => replays_fixed rfl
  | .bool _, _ => replays_fixed rfl
  | .number _, _ => replays_fixed rfl
  | .string _, _ => replays_fixed rfl

theorem HostObject.replays_refresh {n : Nat} : (o : HostObject) → o.isStateless true →
    Replays past n (Replay.Objects past) o.refresh o.refresh
  | .mapping entries, h => by
    rw [HostObject.refresh]
    refine Replays.bind (replays_refreshEntries entries h) ?_
    rintro m - entries _ ⟨he, rfl⟩
    exact replays_pure fun k hk => ⟨KnownEntries.mono hk he, rfl⟩
  | .record fields computed, h => by
    rw [HostObject.isStateless, Bool.and_eq_true] at h
    rw [HostObject.refresh]
    refine Replays.bind (replays_refreshEntries fields h.1) ?_
    rintro m - fields _ ⟨hf, rfl⟩
    exact replays_pure fun k hk => ⟨⟨hf.mono hk, h.2⟩, rfl⟩
  | .unprintable, _ => replays_pure fun _ _ => ⟨trivial, rfl⟩

theorem replays_refreshItems {n : Nat} : (vs : List HostValue) → statelessItems true vs →
    Replays past n (Replay.Items past) (refreshItems vs) (refreshItems vs)
  | [], _ => replays_pure fun _ _ => ⟨trivial, rfl⟩
  | v :: vs, h => by
    rw [statelessItems, Bool.and_eq_true] at h
    rw [refreshItems]
    refine Replays.bind (HostValue.replays_refresh v h.1) ?_
    rintro m - v _ ⟨hv, rfl⟩
    refine Replays.bind (replays_refreshItems vs h.2) ?_
    rintro k hk vs _ ⟨hvs, rfl⟩
    exact replays_pure fun l hl => ⟨⟨hv.mono (Nat.le_trans hk hl), hvs.mono hl⟩, rfl⟩

theorem replays_refreshEntries {n : Nat} : (es : List (String × HostValue)) →
    statelessEntries true es →
    Replays past n (Replay.Entries past) (refreshEntries es) (refreshEntries es)
  | [], _ => replays_pure fun _ _ => ⟨trivial, rfl⟩
  | (_, v) :: es, h => by
    rw [statelessEntries, Bool.and_eq_true] at h
    rw [refreshEntries]
    refine Replays.bind (HostValue.replays_refresh v h.1) ?_
    rintro m - v _ ⟨hv, rfl⟩
    refine Replays.bind (replays_refreshEntries es h.2) ?_
    rintro k hk es _ ⟨hes, rfl⟩
    exact replays_pure fun l hl => ⟨⟨hv.mono (Nat.le_trans hk hl), hes.mono hl⟩, rfl⟩

end

namespace Replay

variable (past)

/-- What a function may ask a scope has the same answers in both hosts. -/
structure Accesses (n : Nat) (s s' : ScopeAccess) : Prop where
  lookup : ∀ name, Replays past n (Contents past) (s.lookup name) (s'.lookup name)
  own : ∀ name, Replays past n (Contents past) (s.own name) (s'.own name)

inductive Passed (n : Nat) : Argument → Argument → Prop where
  | options (o) : Passed n (.options o) (.options o)
  | enclosing {a b} : Repeats past n a b → Passed n (.enclosing a) (.enclosing b)
  | scope {s s'} : Accesses past n s s' → Passed n (.scope s) (.scope s')
  | text (s) : Passed n (.text s) (.text s)

/-- The arguments of a call by their kinds in both hosts. -/
structure Receives (n : Nat) (r r' : Received) : Prop where
  options : r.options = r'.options
  enclosing : Option.Rel (Repeats past n) r.enclosing r'.enclosing
  scope : Option.Rel (Accesses past n) r.scope r'.scope
  text : r.text = r'.text
  count : r.count = r'.count

variable {past}

theorem Accesses.later {s s' : ScopeAccess} (h : Accesses past n s s') (hnm : n ≤ m) :
    Accesses past m s s' :=
  ⟨fun name => (h.lookup name).later hnm, fun name => (h.own name).later hnm⟩

theorem Receives.none : Receives past n {} {} := ⟨rfl, .none, .none, rfl, rfl⟩

theorem Receives.later {r r' : Received} (h : Receives past n r r') (hnm : n ≤ m) :
    Receives past m r r' :=
  { h with
    enclosing := rel_mono (fun h => Replays.later h hnm) h.enclosing
    scope := rel_mono (fun h => Accesses.later h hnm) h.scope }

theorem Receives.add {r r' : Received} {a a' : Argument} (h : Receives past n r r')
    (ha : Passed past n a a') : Receives past n (r.add a) (r'.add a') := by
  have hcount := congrArg (· + 1) h.count
  cases ha with
  | options o => exact { h with options := rfl, count := hcount }
  | enclosing he => exact { h with enclosing := .some he, count := hcount }
  | scope hs => exact { h with scope := .some hs, count := hcount }
  | text s => exact { h with text := rfl, count := hcount }

theorem Receives.ofArguments {as as' : List Argument} (h : List.Forall₂ (Passed past n) as as') :
    Receives past n (.ofArguments as) (.ofArguments as') := by
  suffices hr : ∀ r r', Receives past n r r' →
      Receives past n (as.foldl Received.add r) (as'.foldl Received.add r') from hr _ _ .none
  induction h with
  | nil => exact fun _ _ hr => hr
  | cons ha _ ih => exact fun _ _ hr => ih _ _ (hr.add ha)

end Replay

open Replay in
mutual

theorem HostExpr.replays_eval {n : Nat} {r r' : Received} (hr : Receives past n r r') :
    (e : HostExpr) → e.isStateless → Replays past n (Values past) (e.eval r) (e.eval r')
  | .value v, h => v.replays_refresh h
  | .option name, _ => by
    rw [eval, eval, hr.options]
    cases r'.options.bind (·.lookup name) <;> exact replays_fixed rfl
  | .optionsText, _ => by
    rw [eval, eval, hr.options]
    cases r'.options <;> exact replays_fixed rfl
  | .optionsMap, _ => by
    rw [eval, eval, hr.options]
    cases r'.options with
    | none => exact replays_fixed rfl
    | some o => exact replays_fixed (statelessEntries_texts o)
  | .enclosing, _ => by
    rw [eval, eval]
    match r.enclosing, r'.enclosing, hr.enclosing with
    | _, _, .none => exact replays_fixed rfl
    | _, _, .some hab => exact Repeats.bind hab fun _ _ text => replays_fixed rfl
  | .lookup name, _ => by
    rw [eval, eval]
    match r.scope, r'.scope, hr.scope with
    | _, _, .none => exact replays_fixed rfl
    | _, _, .some hs =>
      refine Replays.bind (hs.lookup name) ?_
      rintro m - c _ ⟨hc, rfl⟩
      exact replays_value (v := .content c) hc
  | .own name, _ => by
    rw [eval, eval]
    match r.scope, r'.scope, hr.scope with
    | _, _, .none => exact replays_fixed rfl
    | _, _, .some hs =>
      refine Replays.bind (hs.own name) ?_
      rintro m - c _ ⟨hc, rfl⟩
      exact replays_value (v := .content c) hc
  | .get name fallback, h => by
    have hfallback : (fallback.getD .null).isStateless true := by
      cases fallback with
      | none => rfl
      | some v => exact h
    rw [eval, eval]
    match r.scope, r'.scope, hr.scope with
    | _, _, .none => exact replays_fixed rfl
    | _, _, .some hs =>
      refine Replays.bind (hs.lookup (some name)) ?_
      rintro m - c _ ⟨hc, rfl⟩
      have hraw : Replays past m (Values past) (pure c.raw)
          (pure (c.raw.renumber past.nextStream)) :=
        replays_value hc.raw
      rw [← Content.raw_renumber] at hraw
      cases c with
      | missing => exact HostValue.replays_refresh _ hfallback
      | _ => exact hraw
  | .text, _ => by
    rw [eval, eval, hr.text]
    cases r'.text <;> exact replays_fixed rfl
  | .argumentCount, _ => by
    rw [eval, eval, hr.count]
    exact replays_fixed rfl
  | .concat parts, h => by
    rw [eval, eval]
    exact Repeats.bind (repeats_evalTexts hr parts h) fun _ _ texts => replays_fixed rfl
  | .upper e, h => by
    rw [eval, eval]
    refine Replays.bind (replays_eval hr e h) ?_
    rintro m - v _ ⟨-, rfl⟩
    rw [v.expressionText_renumber]
    exact replays_fixed rfl
  | .length e, h => by
    rw [eval, eval]
    refine Replays.bind (replays_eval hr e h) ?_
    rintro m - v _ ⟨-, rfl⟩
    rw [v.expressionText_renumber]
    exact replays_fixed rfl
  | .records e, h => by
    rw [eval, eval]
    refine Replays.bind (replays_eval hr e h) ?_
    rintro m - v _ ⟨-, rfl⟩
    rw [v.expressionText_renumber]
    cases Text.readPlainInteger? v.expressionText with
    | none => exact replays_fail _
    | some k => exact replays_fixed (statelessItems_numberedRecords k)
  | .list items, h => by
    rw [eval, eval]
    refine Replays.bind (replays_evalItems hr items h) ?_
    rintro m - vs _ ⟨hvs, rfl⟩
    exact replays_value (v := .list vs) hvs
  | .cases e branches otherwise, h => by
    rw [isStateless, Bool.and_eq_true, Bool.and_eq_true] at h
    rw [eval, eval]
    refine Replays.bind (replays_eval hr e h.1.1) ?_
    rintro m hm v _ ⟨-, rfl⟩
    rw [v.expressionText_renumber]
    dsimp only
    match evalBranch? r v.expressionText branches, evalBranch? r' v.expressionText branches,
      rel_evalBranch (hr.later hm) v.expressionText branches h.1.2 with
    | _, _, .none => exact replays_evalOptional (hr.later hm) otherwise h.2
    | _, _, .some hb => exact hb
  | .raise kind message, _ => by
    rw [eval, eval]
    exact replays_fail _
  | .throw error, _ => by
    rw [eval, eval]
    refine Repeats.bind repeats_program fun m _ program => ?_
    cases program.raised? error with
    | none => exact replays_fixed rfl
    | some fault => exact replays_fail fault
  | .attempt handler e otherwise, h => by
    rw [isStateless, Bool.and_eq_true] at h
    rw [eval, eval]
    refine Repeats.bind repeats_program fun m hm program => ?_
    exact (replays_eval (hr.later hm) e h.1).recover (replays_eval (hr.later hm) otherwise h.2) _

theorem HostExpr.replays_evalItems {n : Nat} {r r' : Received} (hr : Receives past n r r') :
    (es : List HostExpr) → statelessParts es →
      Replays past n (Items past) (evalItems r es) (evalItems r' es)
  | [], _ => by
    rw [evalItems, evalItems]
    exact replays_pure fun _ _ => ⟨trivial, rfl⟩
  | e :: es, h => by
    rw [statelessParts, Bool.and_eq_true] at h
    rw [evalItems, evalItems]
    refine Replays.bind (replays_eval hr e h.1) ?_
    rintro m hm v _ ⟨hv, rfl⟩
    refine Replays.bind (replays_evalItems (hr.later hm) es h.2) ?_
    rintro k hk vs _ ⟨hvs, rfl⟩
    exact replays_pure fun l hl => ⟨⟨hv.mono (Nat.le_trans hk hl), hvs.mono hl⟩, rfl⟩

theorem HostExpr.repeats_evalTexts {n : Nat} {r r' : Received} (hr : Receives past n r r') :
    (es : List HostExpr) → statelessParts es →
      Repeats past n (evalTexts r es) (evalTexts r' es)
  | [], _ => by
    rw [evalTexts, evalTexts]
    exact repeats_pure []
  | e :: es, h => by
    rw [statelessParts, Bool.and_eq_true] at h
    rw [evalTexts, evalTexts]
    refine Replays.bind (replays_eval hr e h.1) ?_
    rintro m hm v _ ⟨-, rfl⟩
    rw [v.expressionText_renumber]
    exact (repeats_evalTexts (hr.later hm) es h.2).map _

theorem HostExpr.rel_evalBranch {n : Nat} {r r' : Received} (hr : Receives past n r r')
    (key : String) : (bs : List (String × HostExpr)) → statelessBranches bs →
      Option.Rel (Replays past n (Values past)) (evalBranch? r key bs) (evalBranch? r' key bs)
  | [], _ => by
    rw [evalBranch?, evalBranch?]
    exact .none
  | (name, e) :: bs, h => by
    rw [statelessBranches, Bool.and_eq_true] at h
    rw [evalBranch?, evalBranch?]
    split
    · exact .some (replays_eval hr e h.1)
    · exact rel_evalBranch hr key bs h.2

theorem HostExpr.replays_evalOptional {n : Nat} {r r' : Received} (hr : Receives past n r r') :
    (e : Option HostExpr) → statelessOptional e →
      Replays past n (Values past) (evalOptional r e) (evalOptional r' e)
  | none, _ => by
    rw [evalOptional, evalOptional]
    exact replays_fixed rfl
  | some e, h => by
    rw [evalOptional, evalOptional]
    exact replays_eval hr e h

end

open Replay

theorem HostFunction.replays_call {f : HostFunction} (hf : f.isStateless) {as as' : List Argument}
    (ha : List.Forall₂ (Passed past n) as as') :
    Replays past n (Values past) (f.call as) (f.call as') := by
  obtain ⟨arity, label, body⟩ := f
  rw [HostFunction.call, HostFunction.call, ha.length_eq]
  split
  · have hbody := HostExpr.replays_eval (.ofArguments ha) body hf
    cases label with
    | none => exact hbody
    | some label =>
      exact Repeats.bind (repeats_trace _) fun m hm _ => hbody.later hm
  · exact replays_fail _

theorem HostValue.replays_invoke {v : HostValue} (hv : v.Known n) {as as' : List Argument}
    (ha : List.Forall₂ (Passed past n) as as') :
    Replays past n (Values past) (v.invoke as) ((v.renumber past.nextStream).invoke as') := by
  cases v with
  | function f =>
    refine f.replays_call hv ?_
    unfold Arity.select
    split
    · exact ha
    · exact List.forall₂_take _ ha
  | _ => exact replays_fail _

end TagTemplate
