import TagTemplate.Html.Join
import TagTemplate.Resolver

/-!
# Showing content

A value without enclosed tags is shown inline: scalars as escaped text, objects as the markup they
bring, arrays item by item. Whatever a tag shows then goes through the filters and the element that
the attribute `wrap` names; nothing stays nothing.
-/

namespace TagTemplate

open Markup (Node Tag AttributeValue)

/-- Shows an object through its markup producer. A producer that fails shows nothing. -/
def HostObject.markup (o : HostObject) (options : Options) : Action String := do
  match ← o.producer with
  | .null => return ""
  | .string s => return s
  | producer =>
    let result ← Action.attempt do
      match ← producer.invoke [.options options] with
      | .null => return ""
      | v => v.shown
    match result with
    | .ok text => return text
    | .error _ => return ""

def showText (text : String) (options : Options) : String :=
  if options.lookup "escape" = some "false" then text else Html.escape text

def showNumber (n : Number) (options : Options) : Action String := do
  return showText (← n.written) options

theorem showNumber_eq (n : Number) (options : Options) : showNumber n options =
    if n.isShowable then pure (showText n.text options) else Action.fail .badNumber := by
  unfold showNumber Number.written
  split <;> rfl

mutual

def HostValue.inline (v : HostValue) (options : Options) : Action String :=
  match v with
  | .null | .function _ => return ""
  | .bool b => return if b then "true" else "false"
  | .number n => showNumber n options
  | .string s => return showText s options
  | .list items => do return Html.join (← inlineItems items options) options
  | .stream id items => do
    if ← Action.openStream id then return Html.join (← inlineItems items options) options
    else return Html.join [] options
  | .object o => do
    let _ ← o.hasMarkup
    o.markup options
  | .content c => c.inline options

def Content.inline (c : Content) (options : Options) : Action String :=
  match c with
  | .missing | .null | .callable _ => return ""
  | .bool b => return if b then "true" else "false"
  | .number n => showNumber n options
  | .string s => return showText s options
  | .array items => do return Html.join (← inlineItems items options) options
  | .object o => o.markup options

def inlineItems (items : List HostValue) (options : Options) : Action (List String) :=
  match items with
  | [] => return []
  | v :: vs => do
    let text ← v.inline options
    return text :: (← inlineItems vs options)

end

theorem HostValue.inline_eq (v : HostValue) (options : Options) :
    v.inline options = (do let c ← Content.ofHost v; c.inline options) := by
  cases v with
  | stream id items =>
    simp only [HostValue.inline, Content.ofHost, bind_assoc]
    refine bind_congr fun unread => ?_
    cases unread <;> simp [Content.inline, inlineItems]
  | object o => simp [HostValue.inline, Content.ofHost, Content.inline]
  | _ => simp [HostValue.inline, Content.ofHost, Content.inline]

namespace Environment

def wrapped (text : String) (options : Options) : String :=
  match options.lookup "wrap" with
  | none | some "" => text
  | some name => if text = "" then "" else Html.element name text (options.lookup "class")

def finish (env : Environment) (text : String) (options : Options) : Action String :=
  if text = "" then return ""
  else do return wrapped (← env.filters.apply text options) options

theorem finish_of_no_filters {env : Environment} (hfilters : env.filters = []) (text : String)
    (options : Options) : env.finish text options = pure (wrapped text options) := by
  unfold finish wrapped
  rw [hfilters]
  by_cases htext : text = ""
  · rw [if_pos htext]
    split <;> simp [htext]
  · rw [if_neg htext]
    rfl

end Environment

def orDefault (text : String) (options : Options) : String :=
  if text = "" then (options.lookup "default").getD "" else text

end TagTemplate
