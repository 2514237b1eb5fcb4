/-!
# The style library and the preamble template

The markup that comes with the program: the style library that every book imports, and the template
of the preamble, with the names to fill in between double braces.
-/

namespace Folio.Style

/-- Lines, each with its line end. -/
def written (lines : List String) : String := String.join (lines.map (· ++ "\n"))

/-- The name of the style library beside a book. -/
def fileName : String := "typst-pages.typ"

/-- Where a project keeps its own style, below the source directory. -/
def customPath : String := "assets/custom.typ"

/-- The style library. -/
def library : String := written [
  "// Style library imported by every document generated by typst-pages.",
  "// Projects override `config` in assets/custom.typ.",
  "",
  "#import \"@preview/mitex:0.2.5\": mitex as _mitex, mi as _mi",
  "",
  "#let config = (:)",
  "",
  "#let _setting(config, key, default) = config.at(key, default: default)",
  "",
  "#let mitex(source) = _mitex(source)",
  "#let mi(source) = _mi(source)",
  "",
  "#let _structure = (",
  "  \"part\",",
  "  \"chapter\",",
  "  \"section\",",
  "  \"subsection\",",
  "  \"subsubsection\",",
  "  \"paragraph\",",
  "  \"subparagraph\",",
  ")",
  "",
  "// Page-list titles; they number and outline like ordinary headings.",
  "#let extended_heading(level: 1, body) = \x7b",
  "  heading(level: calc.min(level, _structure.len()), body)",
  "\x7d",
  "",
  "// Hand-written pages keep their own `=` headings, shifted below the page",
  "// list entry that includes them.",
  "#let extended_include(path, offset: 0) = \x7b",
  "  set heading(offset: offset)",
  "  include path",
  "\x7d",
  "",
  "#let _admonition_colors = (",
  "  danger: rgb(\"#da0b00\"),",
  "  warning: rgb(\"#ffdd57\"),",
  "  note: rgb(\"#209cee\"),",
  "  info: rgb(\"#209cee\"),",
  "  tip: rgb(\"#22c35b\"),",
  "  compat: rgb(\"#1db5c9\"),",
  "  default: rgb(\"#363636\"),",
  ")",
  "",
  "#let admonition(type: \"default\", title: \"\", body) = \x7b",
  "  let color = _admonition_colors.at(type, default: _admonition_colors.default)",
  "  block(",
  "    width: 100%,",
  "    stroke: (left: 3pt + color),",
  "    inset: (left: 1em, rest: 0.6em),",
  "    fill: color.lighten(90%),",
  "    \x7b",
  "      if title != \"\" \x7b",
  "        text(weight: \"bold\", fill: color.darken(20%), title)",
  "        parbreak()",
  "      \x7d",
  "      body",
  "    \x7d,",
  "  )",
  "\x7d",
  "",
  "#let documenter(",
  "  title: none,",
  "  date: none,",
  "  version: none,",
  "  authors: none,",
  "  config: (:),",
  "  body,",
  ") = \x7b",
  "  let font = _setting(config, \"font\", (\"Libertinus Serif\", \"New Computer Modern\"))",
  "  let code-font = _setting(config, \"code-font\", (\"DejaVu Sans Mono\",))",
  "  let size = _setting(config, \"font-size\", 10.5pt)",
  "",
  "  set document(title: title)",
  "  set page(",
  "    paper: _setting(config, \"paper\", \"a4\"),",
  "    margin: _setting(config, \"margin\", (x: 2.2cm, y: 2.5cm)),",
  "    numbering: \"1\",",
  "  )",
  "  set text(font: font, size: size, lang: _setting(config, \"lang\", \"en\"))",
  "  show raw: set text(font: code-font)",
  "  show raw.where(block: true): block.with(",
  "    width: 100%,",
  "    fill: luma(245),",
  "    inset: 8pt,",
  "    radius: 3pt,",
  "  )",
  "  show link: set text(fill: _setting(config, \"link-color\", rgb(\"#1f5fbf\")))",
  "  set heading(numbering: _setting(config, \"heading-numbering\", \"1.1\"))",
  "  set table(stroke: 0.5pt + luma(160))",
  "",
  "  // Title page",
  "  align(center + horizon)[",
  "    #text(size: 2.2em, weight: \"bold\", title)",
  "    #if version != none and version != [] [",
  "      #v(0.6em)",
  "      #text(size: 1.2em, version)",
  "    ]",
  "    #if authors != none and authors != [] [",
  "      #v(1.2em)",
  "      #authors",
  "    ]",
  "    #v(1em)",
  "    #date",
  "  ]",
  "  pagebreak()",
  "",
  "  outline(depth: _setting(config, \"outline-depth\", 3), indent: auto)",
  "  pagebreak()",
  "",
  "  body",
  "\x7d"]

/-- The template of the preamble. -/
def template : String := written [
  "// Import templates",
  "",
  "#import \"\x7b\x7b style_asset \x7d\x7d\": *",
  "",
  "// Custom styling and content",
  "// Embedded directly so #let definitions share the document scope",
  "",
  "\x7b\x7b custom_style \x7d\x7d",
  "",
  "#show: doc => documenter(",
  "    title: [\x7b\x7b title \x7d\x7d],",
  "    date: [\x7b\x7b date \x7d\x7d],",
  "    version: [\x7b\x7b version \x7d\x7d],",
  "    authors: [\x7b\x7b authors \x7d\x7d],",
  "    config: config,",
  "    doc,",
  ")"]

end Folio.Style
