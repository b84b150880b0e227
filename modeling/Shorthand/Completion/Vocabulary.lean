/-
The tag names and the snippet keys that every markup dialect knows.
-/
import Shorthand.Text.Class

namespace Shorthand.Completion

/-- The names of HTML elements. -/
def htmlTags : List Text :=
  ["a", "abbr", "address", "area", "article", "aside", "audio", "b", "base", "bdi", "bdo",
   "blockquote", "body", "br", "button", "canvas", "caption", "cite", "code", "col", "colgroup",
   "data", "datalist", "dd", "del", "details", "dfn", "dialog", "div", "dl", "dt", "em",
   "embed", "fieldset", "figcaption", "figure", "footer", "form", "h1", "h2", "h3", "h4", "h5",
   "h6", "head", "header", "hgroup", "hr", "html", "i", "iframe", "img", "input", "ins", "kbd",
   "label", "legend", "li", "link", "main", "map", "mark", "menu", "meta", "meter", "nav",
   "noscript", "object", "ol", "optgroup", "option", "output", "p", "param", "picture", "pre",
   "progress", "q", "rp", "rt", "ruby", "s", "samp", "script", "search", "section", "select",
   "slot", "small", "source", "span", "strong", "style", "sub", "summary", "sup", "svg",
   "table", "tbody", "td", "template", "textarea", "tfoot", "th", "thead", "time", "title",
   "tr", "track", "u", "ul", "var", "video", "wbr"].map String.toList

/-- Tags and filler text: always offered, and never taken for noise. -/
def commonTags : List Text := htmlTags ++ ["lorem".toList]

/-- The keys of the engine's own markup snippets. -/
def markupSnippetKeys : List Text :=
  ["!", "!!!", "a:blank", "a:link", "a:mail", "a:tel", "acr", "adr", "area:c", "area:d",
   "area:p", "area:r", "art", "bdo:l", "bdo:r", "bq", "btn", "btn:b", "btn:r", "btn:s", "c",
   "cap", "cc:ie", "cc:noie", "colg", "colgroup+", "datal", "dl+", "doc", "doc4", "emb", "fig",
   "figc", "fset", "ftr", "hdr", "html:4s", "html:4t", "html:5", "html:xml", "ifr", "inp",
   "input:b", "input:button", "input:c", "input:checkbox", "input:color", "input:date",
   "input:datetime", "input:datetime-local", "input:email", "input:f", "input:file", "input:h",
   "input:hidden", "input:i", "input:image", "input:month", "input:number", "input:p",
   "input:password", "input:r", "input:radio", "input:range", "input:reset", "input:s",
   "input:search", "input:submit", "input:t", "input:tel", "input:text", "input:time",
   "input:url", "input:week", "leg", "link:atom", "link:css", "link:favicon", "link:im",
   "link:import", "link:manifest", "link:mf", "link:next", "link:prev", "link:print",
   "link:rss", "link:touch", "map+", "menu:c", "menu:context", "menu:t", "menu:toolbar",
   "meta:compat", "meta:edge", "meta:ie", "meta:redirect", "meta:refresh", "meta:utf",
   "meta:vp", "meta:win", "mn", "obj", "ol+", "opt", "optg", "out", "pic", "prog", "ri:a",
   "ri:art", "ri:d", "ri:dpr", "ri:t", "ri:type", "ri:v", "ri:viewport", "script:src", "sect",
   "select+", "src", "str", "table+", "tarea", "tem", "tr+", "ul+"].map String.toList

end Shorthand.Completion
