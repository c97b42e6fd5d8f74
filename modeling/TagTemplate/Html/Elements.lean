import TagTemplate.Html.Escape

/-!
# Elements

The element names that the separator of a repetition may be, and the markup of an element.
-/

namespace TagTemplate.Html

def voidElements : List String :=
  ["area", "base", "br", "col", "embed", "hr", "img", "input", "link", "meta", "param", "source",
   "track", "wbr"]

def elements : List String :=
  ["a", "abbr", "address", "article", "aside", "audio", "b", "bdi", "bdo", "blockquote", "body",
   "button", "canvas", "caption", "cite", "code", "colgroup", "data", "datalist", "dd", "del",
   "details", "dfn", "dialog", "div", "dl", "dt", "em", "fieldset", "figcaption", "figure",
   "footer", "form", "h1", "h2", "h3", "h4", "h5", "h6", "head", "header", "html", "i", "iframe",
   "ins", "kbd", "label", "legend", "li", "main", "map", "mark", "meter", "nav", "noscript",
   "object", "ol", "optgroup", "option", "output", "p", "picture", "pre", "progress", "q", "rp",
   "rt", "ruby", "s", "samp", "script", "section", "select", "small", "span", "strong", "style",
   "sub", "summary", "sup", "svg", "table", "tbody", "td", "template", "textarea", "tfoot", "th",
   "thead", "time", "title", "tr", "u", "ul", "var", "video"]

def element (name body : String) (cssClass : Option String) : String :=
  match cssClass with
  | none | some "" => "<" ++ name ++ ">" ++ body ++ "</" ++ name ++ ">"
  | some c =>
    "<" ++ name ++ " class=\"" ++ escape c ++ "\">" ++ body ++ "</" ++ name ++ ">"

end TagTemplate.Html
