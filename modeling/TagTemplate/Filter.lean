import TagTemplate.Content

/-!
# Filters

A filter is a host function registered under the name of an attribute. It is given the text so far
and all attributes of the tag; null leaves the text as it is.
-/

namespace TagTemplate

abbrev Filters := OrderedMap HostFunction

def HostFunction.filter (f : HostFunction) (text : String) (options : Options) :
    Action String := do
  match ← f.call [.text text, .options options] with
  | .null => return text
  | v => v.shown

def Filters.apply (filters : Filters) (text : String) (options : Options) : Action String :=
  match filters with
  | [] => return text
  | (name, f) :: rest => do
    if OrderedMap.has options name then
      let text ← f.filter text options
      Filters.apply rest text options
    else Filters.apply rest text options

end TagTemplate
